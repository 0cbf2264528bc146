import Protort.Lib.Bytes
import Protort.Parser.Configuration

/-!
# Protocol messages

The protobuf messages as their generated accessors present them: an absent
submessage reads as its default value, an absent scalar as zero, and a `oneof`
is a sum with one more case for "nothing is set".  Enumerations of proto3 are
open, so every enumeration that arrives over the network has a case for values
it does not name.  Fields that no function of the node or the terminal reads are
left out.
-/

namespace Protort
namespace Protocol

open Lib (Bytes)

inductive ComponentKind where
  | generator
  | retranslator
  | terminator
  | calc
  | history
  | timedGenerator
  | unrecognized (value : Int)
deriving DecidableEq, Repr

instance : Inhabited ComponentKind := ⟨ComponentKind.generator⟩

structure ComponentEndpoint where
  port : Parser.PortId
  name : String
deriving DecidableEq, Repr, Inhabited

/-!
## Deployment protocol
-/

namespace Deploy

structure NodeInfo where
  name : String
  address : String
  port : Parser.PortId
deriving DecidableEq, Repr, Inhabited

structure Instance where
  name : String
  kind : ComponentKind
deriving DecidableEq, Repr, Inhabited

structure Map where
  nodeName : String
  instanceName : String
deriving DecidableEq, Repr, Inhabited

structure Connection where
  source : ComponentEndpoint
  destination : ComponentEndpoint
deriving DecidableEq, Repr, Inhabited

structure Config where
  thisNodeInfo : NodeInfo
  nodeInfos : List NodeInfo
  instances : List Instance
  maps : List Map
  connections : List Connection
deriving DecidableEq, Repr, Inhabited

structure DeployConfigRequest where
  config : Config
deriving DecidableEq, Repr, Inhabited

inductive PacketKind where
  | deployConfig
  | getConfig
  | start
  | stop
  | getStatus
  | update
  | switch
  | unrecognized (value : Int)
deriving DecidableEq, Repr

instance : Inhabited PacketKind := ⟨PacketKind.deployConfig⟩

/-- `Packet.Request`, a `oneof` over the kinds of request. -/
inductive Request where
  | notSet
  | deployConfig (request : DeployConfigRequest)
  | getConfig
  | status
  | start
  | stop
  | switch
deriving DecidableEq, Repr

instance : Inhabited Request := ⟨Request.notSet⟩

structure ComponentStatus where
  name : String
  inPacketCount : UInt32
  outPacketCount : UInt32
deriving DecidableEq, Repr, Inhabited

structure StatusResponse where
  nodeName : String
  inPacketsCount : UInt32
  outPacketsCount : UInt32
  inBytesCount : UInt32
  outBytesCount : UInt32
  uptime : UInt32
  componentStatuses : List ComponentStatus
deriving DecidableEq, Repr, Inhabited

/-- `Packet.Response`, a `oneof` over the kinds of response. -/
inductive Response where
  | notSet
  | deployConfig
  | getConfig
  | status (response : StatusResponse)
  | start
  | stop
  | switch
deriving DecidableEq, Repr

instance : Inhabited Response := ⟨Response.notSet⟩

/-- The `oneof` that distinguishes requests from responses. -/
inductive PacketPayload where
  | notSet
  | request (request : Request)
  | response (response : Response)
deriving DecidableEq, Repr

instance : Inhabited PacketPayload := ⟨PacketPayload.notSet⟩

structure Packet where
  kind : PacketKind
  payload : PacketPayload
deriving DecidableEq, Repr, Inhabited

def Packet.request (packet : Packet) : Request :=
  match packet.payload with
  | PacketPayload.request request => request
  | _ => default

def Packet.response (packet : Packet) : Response :=
  match packet.payload with
  | PacketPayload.response response => response
  | _ => default

def Response.statusResponse (response : Response) : StatusResponse :=
  match response with
  | Response.status response => response
  | _ => default

def Request.deployConfigRequest (request : Request) : DeployConfigRequest :=
  match request with
  | Request.deployConfig request => request
  | _ => default

end Deploy

/-!
## Communication and backup protocols
-/

namespace Communication

structure Packet where
  source : ComponentEndpoint
  destination : ComponentEndpoint
  payload : Bytes
deriving DecidableEq, Repr, Inhabited

end Communication

namespace Backup

inductive PacketType where
  | switch
  | getStatus
  | keepAlive
  | unrecognized (value : Int)
deriving DecidableEq, Repr

/-- No function of the node looks into a backup packet, only its type is kept. -/
structure Packet where
  kind : PacketType
deriving DecidableEq, Repr

end Backup

/-!
## The packet
-/

/-- `Packet.Payload`, the `oneof` over the protocols. -/
inductive Payload where
  | notSet
  | communicationPacket (packet : Communication.Packet)
  | deployPacket (packet : Deploy.Packet)
  | backupPacket (packet : Backup.Packet)
  | payload (bytes : Bytes)
  | anyPayload (typeUrl : String) (value : Bytes)
deriving DecidableEq, Repr

instance : Inhabited Payload := ⟨Payload.notSet⟩

def Payload.asDeployPacket (payload : Payload) : Deploy.Packet :=
  match payload with
  | Payload.deployPacket packet => packet
  | _ => default

def Payload.asCommunicationPacket (payload : Payload) : Communication.Packet :=
  match payload with
  | Payload.communicationPacket packet => packet
  | _ => default

inductive Kind where
  | message
  | request
  | response
  | unrecognized (value : Int)
deriving DecidableEq, Repr

instance : Inhabited Kind := ⟨Kind.message⟩

structure Transaction where
  id : UInt32
deriving DecidableEq, Repr, Inhabited

structure Packet where
  kind : Kind
  transaction : Transaction
  payload : Payload
deriving DecidableEq, Repr, Inhabited

end Protocol
end Protort
