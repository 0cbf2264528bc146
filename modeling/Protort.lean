import Protort.Lib.Table
import Protort.Lib.Exceptions
import Protort.Lib.Runs
import Protort.Lib.Walks
import Protort.Lib.Loops
import Protort.Lib.Bytes
import Protort.Lib.Framing
import Protort.Lib.Socket
import Protort.Lib.Carrying
import Protort.Parser.Ptree
import Protort.Parser.Parsing
import Protort.Parser.Schema
import Protort.Parser.Accepting
import Protort.Parser.Failing
import Protort.Link.PacketHeader
import Protort.Link.ReadLoop
import Protort.Link.Position
import Protort.Link.Reader
import Protort.Link.Connection
import Protort.Protolink.Connection
import Protort.Protolink.Framing
import Protort.Protolink.Responses
import Protort.Protolink.Lifetimes
import Protort.Protolink.Client
import Protort.Protolink.Sending
import Protort.Protolink.Receiving
import Protort.Protolink.Transactions
import Protort.Protolink.Reconnecting
import Protort.Protolink.Shutdown
import Protort.Protolink.Listening
import Protort.Protolink.FrameSizes
import Protort.Node.Deployment
import Protort.Terminal.NodeIndex
import Protort.Terminal.Projection
import Protort.Terminal.Sharing
import Protort.Terminal.Unpaired
import Protort.Terminal.MainWindow
import Protort.Terminal.RemoteNode
import Protort.Terminal.TreeModel
import Protort.Terminal.Titles
import Protort.System.Packet
import Protort.System.Placement
import Protort.System.Deployment
import Protort.System.EndToEnd
import Protort.System.Backup
import Protort.Node.Requests
import Protort.Node.Redeployment
import Protort.Lib.Dataflow
import Protort.Node.Traffic
import Protort.Node.Objects
import Protort.Node.Switching
import Protort.Node.Construction
import Protort.Node.Serving
import Protort.Node.Running
import Protort.Node.Silence
import Protort.Node.Draining
import Protort.Node.Generators
import Protort.Node.Timers
import Protort.Node.Acceptance
import Protort.Node.Configured
import Protort.Node.Instances
import Protort.Node.Counting
import Protort.Node.Status
import Protort.Terminal.Speed
import Protort.Node.Clients
import Protort.System.Peers
import Protort.System.Uplinks
import Protort.System.Distributed
import Protort.System.GraphSteps
import Protort.System.Simulation
import Protort.System.Transparency
import Protort.System.Nodes
import Protort.System.Conservation
import Protort.System.TwoPaths
import Protort.Lib.Tagging
import Protort.Node.Payloads
import Protort.System.Provenance
import Protort.Lib.Interleaving
import Protort.Lib.Fifo
import Protort.Node.Fifo
import Protort.Node.Workers
import Protort.Node.Interleaving
import Protort.Lib.Service
import Protort.System.Calls
import Protort.Lib.Outcomes
import Protort.System.Results
import Protort.System.Draining
import Protort.System.Fifo
import Protort.System.Streams
import Protort.Lib.Relating
import Protort.Lib.Dropping
import Protort.Node.Handlers
import Protort.Node.Sparing
import Protort.Node.Lifetimes
import Protort.Node.Forgetting
import Protort.System.Channels
import Protort.Lib.Effort
import Protort.System.Delivery
import Protort.System.Rows
