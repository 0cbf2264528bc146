import Mathlib.Data.UInt
import Protort.Components.Component
import Protort.Lib.Table

/-!
# The packet router of a node

The routing table and the two directions of traffic through it: `route` for a
packet that came over the network and `doRoute` for the outputs of a component.
Neither runs a component: both only post tasks to the service of the node, and
`doRoute` also hands packets to the clients of other nodes.

A pointer to a table entry is the name of the entry: entries are never removed,
and the container does not move them.
-/

namespace Protort
namespace Node

open Lib (Bytes Table)
open Components (Component Output Origin)

/-- A TCP endpoint: the address and the port, which has 16 bits here. -/
structure Endpoint where
  address : UInt32
  port : UInt16
deriving DecidableEq, Repr

structure Client where
  address : Nat
  endpoint : Endpoint
deriving DecidableEq, Repr

structure LocalRoute where
  inPort : Parser.PortId
  component : String
deriving DecidableEq, Repr

structure RemoteRoute where
  inPort : Parser.PortId
  name : String
  client : Client
deriving DecidableEq, Repr

structure Routes where
  localRoutes : List LocalRoute
  remoteRoutes : List RemoteRoute
deriving DecidableEq, Repr, Inhabited

/-- An entry of the component table.  `emitted` is bookkeeping: every output
that `doRoute` has sent along the routes of the entry, in order. -/
structure ComponentInstance where
  component : Option Component
  name : String
  portToRoutes : Table Parser.PortId Routes
  emitted : List (Parser.PortId × Bytes)
deriving DecidableEq

/-- What indexing the table with an unknown name creates: no component, no
name. -/
instance : Inhabited ComponentInstance :=
  ⟨{ component := none, name := "", portToRoutes := ∅, emitted := [] }⟩

structure Router where
  address : Nat
  components : Table String ComponentInstance
  clients : Table String Client
  started : Bool
  inBytes : UInt32
  outBytes : UInt32
  inPackets : UInt32
  outPackets : UInt32
deriving DecidableEq

def Router.new (address : Nat) : Router :=
  { address := address
    components := ∅
    clients := ∅
    started := false
    inBytes := 0
    outBytes := 0
    inPackets := 0
    outPackets := 0 }

/-- A pointer to a component: the router that holds it and its entry there. -/
structure ComponentRef where
  router : Nat
  name : String
deriving DecidableEq, Repr

/-- Work that is queued on the service of a node.  A wait on the timer of a
timed generator is queued from the moment it is armed; its handler runs when the
time is over, and also when the wait was cancelled. -/
inductive Task where
  | doProcess (component : ComponentRef) (origin : Option Origin)
      (inPort : Parser.PortId) (payload : Bytes)
  | doRoute (router : Nat) (compInst : Option String) (outputs : List Output)
  | generate (component : ComponentRef)
  | timerWait (component : ComponentRef) (cancelled : Bool)
deriving DecidableEq, Repr

/-- What a method asks of the service, of a timer or of a client. -/
inductive Effect where
  | post (task : Task)
  | cancelWaits (component : ComponentRef)
  | send (client : Client) (origin : Origin) (payload : Protocol.Payload)
deriving DecidableEq, Repr

/-!
## Building the table
-/

def ComponentInstance.updateRoutes (inst : ComponentInstance)
    (port : Parser.PortId) (f : Routes -> Routes) : ComponentInstance :=
  { inst with
    portToRoutes := inst.portToRoutes.insert port
      (f (Table.get inst.portToRoutes port)) }

namespace Router

def updateRoutes (r : Router) (source : String) (port : Parser.PortId)
    (f : Routes -> Routes) : Router :=
  { r with
    components := r.components.insert source
      ((Table.get r.components source).updateRoutes port f) }

def pushLocalRoute (r : Router) (source : String) (port : Parser.PortId)
    (route : LocalRoute) : Router :=
  r.updateRoutes source port (fun routes =>
    { routes with localRoutes := routes.localRoutes ++ [route] })

def pushRemoteRoute (r : Router) (source : String) (port : Parser.PortId)
    (route : RemoteRoute) : Router :=
  r.updateRoutes source port (fun routes =>
    { routes with remoteRoutes := routes.remoteRoutes ++ [route] })

/-!
## Traffic
-/

/-- Hand an incoming packet to the component it is addressed to. -/
def route (r : Router) (origin : Option Origin) (componentName : String)
    (inPort : Parser.PortId) (payload : Bytes) : Router × List Effect :=
  let counted := { r with inPackets := r.inPackets + 1 }
  if r.started then
    match r.components.lookup componentName with
    | some _ =>
        (counted,
          [Effect.post
            (Task.doProcess ⟨r.address, componentName⟩ origin inPort payload)])
    | none => (counted, [])
  else
    (counted, [])

def communicationPayload (source : String) (outPort : Parser.PortId)
    (route : RemoteRoute) (payload : Bytes) : Protocol.Payload :=
  Protocol.Payload.communicationPacket
    { source := { port := outPort, name := source }
      destination := { port := route.inPort, name := route.name }
      payload := payload }

/-- Send one payload along all routes of one output port. -/
def routePort (env : Platform) (compInst : String) (payload : Bytes)
    (r : Router) (outPort : Parser.PortId) : Router × List Effect :=
  let inst := Table.get r.components compInst
  let routes := Table.get inst.portToRoutes outPort
  let origin : Origin := ⟨inst.name, inst.emitted.length⟩
  let posts := routes.localRoutes.map (fun route =>
    Effect.post
      (Task.doProcess ⟨r.address, route.component⟩ (some origin) route.inPort
        payload))
  let packets := routes.remoteRoutes.map (fun route =>
    (route.client, communicationPayload inst.name outPort route payload))
  let sends := packets.map (fun packet =>
    Effect.send packet.1 origin packet.2)
  ({ r with
      components := r.components.insert compInst
        { inst with
          portToRoutes := Table.touch inst.portToRoutes outPort
          emitted := inst.emitted ++ [(outPort, payload)] }
      outBytes := r.outBytes +
        (packets.map (fun packet => env.byteSize packet.2)).sum
      outPackets := r.outPackets + UInt32.ofNat packets.length },
    posts ++ sends)

def routeOutput (env : Platform) (compInst : String) (output : Output)
    (r : Router) : Router × List Effect :=
  output.ports.foldl
    (fun acc port =>
      let next := routePort env compInst output.payload acc.1 port
      (next.1, acc.2 ++ next.2))
    (r, [])

/-- Send the outputs of a component along its routes; a stopped router drops
them. -/
def doRoute (env : Platform) (r : Router) (compInst : String)
    (outputs : List Output) : Router × List Effect :=
  if r.started then
    outputs.foldl
      (fun acc output =>
        let next := routeOutput env compInst output acc.1
        (next.1, acc.2 ++ next.2))
      (r, [])
  else
    (r, [])

end Router

end Node
end Protort
