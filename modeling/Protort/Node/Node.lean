import Mathlib.Data.String.Basic
import Protort.Lib.Exceptions
import Protort.Node.Router

/-!
# The network node

A node holds its current router, its configuration server and the queue of work
posted to its I/O service.  The handlers below are programs over that state: a
C++ exception or a failed assertion leaves the state as it was at that point.
-/

namespace Protort

open Lib (Table)
open Components (Component Origin)

namespace Node

/-- What `std::exception` objects the node's own handlers let escape. -/
inductive Exception where
  | invalidAddress
  | cannotBind
deriving DecidableEq, Repr

/-- The ways in which a handler does not return: an exception, a failed
assertion (or the end of a function without a returned value), and a call
through a null component pointer. -/
inductive Fault where
  | exception (e : Exception)
  | assertion
  | nullComponent
deriving DecidableEq, Repr

structure Server where
  isOpen : Bool
  listening : Option UInt16
deriving DecidableEq, Repr

/-- A packet handed to a client and not yet arrived, with its origin as
bookkeeping. -/
structure Outgoing where
  client : Client
  origin : Origin
  payload : Protocol.Payload
deriving DecidableEq, Repr

end Node

/-- The state of a node.  `next` is the next free memory address, `retired`
holds the routers that were replaced and that queued work may still refer to. -/
structure Node where
  next : Nat
  router : Node.Router
  retired : List Node.Router
  server : Node.Server
  nodeName : String
  port : UInt32
  startTime : Nat
  service : List Node.Task
  outbox : List Node.Outgoing
deriving DecidableEq

namespace Node

/-- A node as its constructor leaves it.  The port and the start time are not
initialized. -/
def new (port : UInt32) (startTime : Nat) : Node :=
  { next := 1
    router := Router.new 0
    retired := []
    server := { isOpen := false, listening := none }
    nodeName := ""
    port := port
    startTime := startTime
    service := []
    outbox := [] }

abbrev Handler (value : Type) : Type := EStateM Fault Node value

/-!
## Objects behind pointers
-/

def findRouter (n : Node) (address : Nat) : Option Router :=
  if n.router.address = address then
    some n.router
  else
    n.retired.find? (fun r => decide (r.address = address))

def updateRouter (n : Node) (r : Router) : Node :=
  if n.router.address = r.address then
    { n with router := r }
  else
    { n with
      retired := n.retired.map (fun old =>
        if old.address = r.address then r else old) }

def findComponent (n : Node) (ref : ComponentRef) : Option Component :=
  (n.findRouter ref.router).bind (fun r =>
    (r.components.lookup ref.name).bind (fun inst => inst.component))

def Router.setComponent (r : Router) (name : String) (c : Component) :
    Router :=
  { r with
    components := r.components.insert name
      { Table.get r.components name with component := some c } }

def updateComponent (n : Node) (ref : ComponentRef) (c : Component) : Node :=
  match n.findRouter ref.router with
  | none => n
  | some r => n.updateRouter (Router.setComponent r ref.name c)

def cancelWait (ref : ComponentRef) (t : Task) : Task :=
  match t with
  | Task.timerWait component cancelled =>
      Task.timerWait component (cancelled || decide (component = ref))
  | _ => t

def perform (n : Node) (effect : Effect) : Node :=
  match effect with
  | Effect.post task => { n with service := n.service ++ [task] }
  | Effect.cancelWaits ref =>
      { n with service := n.service.map (cancelWait ref) }
  | Effect.send client origin payload =>
      { n with outbox := n.outbox ++ [⟨client, origin, payload⟩] }

def performAll (n : Node) (effects : List Effect) : Node :=
  effects.foldl perform n

/-!
## Components at work
-/

/-- `generate_next`: a generator posts itself again, a timed one re-arms its
timer, which cancels a wait that is pending. -/
def generateNext (ref : ComponentRef) (c : Component) : List Effect :=
  match c.kind with
  | Protocol.ComponentKind.timedGenerator =>
      [Effect.cancelWaits ref, Effect.post (Task.timerWait ref false)]
  | _ => [Effect.post (Task.generate ref)]

/-- `generator::generate`. -/
def generateEffects (env : Platform) (ref : ComponentRef) (c : Component) :
    List Effect :=
  match c.generate env with
  | some outputs =>
      Effect.post (Task.doRoute c.router c.compInst outputs) ::
        generateNext ref c
  | none => []

def dereference (ref : ComponentRef) : Handler Component := do
  let n ← get
  match n.findComponent ref with
  | some c => pure c
  | none => throw Fault.nullComponent

def startComponent (env : Platform) (ref : ComponentRef) : Handler PUnit := do
  let c ← dereference ref
  if c.isGenerator then
    let started := { c with started := true }
    modify (fun n => (n.updateComponent ref started).performAll
      (generateEffects env ref started))

def stopComponent (ref : ComponentRef) : Handler PUnit := do
  let c ← dereference ref
  if c.isGenerator then
    modify (fun n => n.updateComponent ref { c with started := false })
    if c.kind = Protocol.ComponentKind.timedGenerator then
      modify (fun n => n.perform (Effect.cancelWaits ref))

def setStarted (address : Nat) (started : Bool) (n : Node) : Node :=
  match n.findRouter address with
  | some r => n.updateRouter { r with started := started }
  | none => n

/-- The entries of a router's table in the order of the loop over them. -/
def componentRefs (n : Node) (address : Nat) : List ComponentRef :=
  match n.findRouter address with
  | some r => (Table.sortedKeys r.components).map (fun name => ⟨address, name⟩)
  | none => []

/-- `router::start`. -/
def startRouter (env : Platform) (address : Nat) : Handler PUnit := do
  modify (setStarted address true)
  let n ← get
  (componentRefs n address).forM (startComponent env)

/-- `router::stop`. -/
def stopRouter (address : Nat) : Handler PUnit := do
  modify (setStarted address false)
  let n ← get
  (componentRefs n address).forM stopComponent

/-- One task of the service, taken from the queue already. -/
def runTask (env : Platform) (task : Task) : Handler PUnit := do
  match task with
  | Task.doProcess ref origin inPort payload =>
      let c ← dereference ref
      let (processed, outputs) := c.doProcess env origin inPort payload
      modify (fun n => n.updateComponent ref processed)
      match outputs with
      | some outputs =>
          modify (fun n => n.perform
            (Effect.post (Task.doRoute c.router c.compInst outputs)))
      | none => pure ()
  | Task.doRoute address compInst outputs =>
      match compInst with
      | none => throw Fault.assertion
      | some name =>
          let n ← get
          match n.findRouter address with
          | some r =>
              let (r', effects) := r.doRoute env name outputs
              set ((n.updateRouter r').performAll effects)
          | none => pure ()
  | Task.generate ref =>
      let c ← dereference ref
      modify (fun n => n.performAll (generateEffects env ref c))
  | Task.timerWait ref _ =>
      let c ← dereference ref
      modify (fun n => n.performAll (generateEffects env ref c))

/-!
## Deployment
-/

/-- The local `struct node_info`. -/
structure NodeInfo where
  name : String
  address : String
  port : UInt32
deriving DecidableEq, Repr, Inhabited

def NodeInfo.ofNode (node : Parser.Node) : NodeInfo :=
  { name := node.name
    address := node.host.ipAddress
    port := node.host.port }

/-- The local map from component names to nodes.  Both lists are entered
first-come, and indexing with an unknown node name yields an empty entry.  The
entries that indexing adds to the two local maps are never seen again. -/
def compToNode (conf : Parser.Configuration) : Table String NodeInfo :=
  let nodes := Table.emplaceAll (fun node => node.name) NodeInfo.ofNode ∅
    conf.nodes
  Table.emplaceAll (fun mapp => mapp.compName)
    (fun mapp => Table.get nodes mapp.nodeName) ∅ conf.mappings

def allocate : Handler Nat := do
  let n ← get
  set { n with next := n.next + 1 }
  pure n.next

def modifyRouter (f : Router → Router) : Handler PUnit :=
  modify (fun n => { n with router := f n.router })

/-- `factory::create` with the name of a kind, for the current router. -/
def createComponent (kind : String) : Handler Component := do
  match Components.getComponentKind kind with
  | some kind =>
      let address ← allocate
      let n ← get
      pure
        { address := address
          router := n.router.address
          kind := kind
          compInst := none
          inPacketCount := 0
          started := false
          received := [] }
  | none => throw Fault.assertion

/-- The body of the loop over the components. -/
def deployComponent (comps : Table String NodeInfo) (comp : Parser.Component) :
    Handler PUnit := do
  let n ← get
  if (Table.get comps comp.name).name = n.nodeName then
    let newComp ← createComponent comp.kind
    modifyRouter (fun r => { r with
      components := r.components.insert comp.name
        { component := some { newComp with compInst := some comp.name }
          name := comp.name
          portToRoutes := ∅
          emitted := [] } })

/-- The client of a remote node, made and connected when there is none yet. -/
def clientFor (env : Platform) (info : NodeInfo) : Handler Client := do
  let n ← get
  match n.router.clients.lookup info.name with
  | some client => pure client
  | none =>
      match env.fromString info.address with
      | none => throw (Fault.exception Exception.invalidAddress)
      | some addr =>
          let address ← allocate
          let client : Client := ⟨address, ⟨addr, info.port.toUInt16⟩⟩
          modifyRouter (fun r =>
            { r with clients := r.clients.insert info.name client })
          pure client

/-- The body of the loop over the connections. -/
def deployConnection (env : Platform) (comps : Table String NodeInfo)
    (conn : Parser.Connection) : Handler PUnit := do
  let n ← get
  if conn.source ∈ n.router.components then
    let dest := Table.get comps conn.dest
    if dest.name = n.nodeName then
      -- taking the address of the destination's entry creates it if need be
      modifyRouter (fun r =>
        { r with components := Table.touch r.components conn.dest })
      modifyRouter (fun r =>
        r.pushLocalRoute conn.source conn.sourceOut ⟨conn.destIn, conn.dest⟩)
    else
      let client ← clientFor env dest
      modifyRouter (fun r =>
        r.pushRemoteRoute conn.source conn.sourceOut
          ⟨conn.destIn, conn.dest, client⟩)

/-- `server::listen` on a port: an acceptor that was open is closed first. -/
def listen (env : Platform) (port : UInt32) : Handler PUnit := do
  modify (fun n => { n with server := { isOpen := true, listening := none } })
  if env.bind port.toUInt16 then
    modify (fun n =>
      { n with server := { isOpen := true, listening := some port.toUInt16 } })
  else
    throw (Fault.exception Exception.cannotBind)

def deployFromConfig (env : Platform) (conf : Parser.Configuration) :
    Handler PUnit := do
  let comps := compToNode conf
  conf.components.forM (deployComponent comps)
  conf.connections.forM (deployConnection env comps)
  let n ← get
  listen env n.port

/-- The instances of the packet as parser components; a kind that the protocol
does not name fails an assertion. -/
def componentOfInstance (inst : Protocol.Deploy.Instance) :
    Option Parser.Component :=
  (Components.getComponentKindName inst.kind).map (fun kind =>
    { name := inst.name, kind := kind })

def connectionOfPacket (conn : Protocol.Deploy.Connection) :
    Parser.Connection :=
  { source := conn.source.name
    sourceOut := conn.source.port
    dest := conn.destination.name
    destIn := conn.destination.port }

def nodeOfInfo (info : Protocol.Deploy.NodeInfo) : Parser.Node :=
  { name := info.name
    host := { ipAddress := info.address, port := info.port, configPort := 0 }
    pairnode := none }

def mappingOfMap (map : Protocol.Deploy.Map) : Parser.Mapping :=
  { compName := map.instanceName, nodeName := map.nodeName }

def configurationOfPacket (config : Protocol.Deploy.Config) :
    Option Parser.Configuration :=
  (config.instances.mapM componentOfInstance).map (fun components =>
    { components := components
      connections := config.connections.map connectionOfPacket
      nodes := config.nodeInfos.map nodeOfInfo
      mappings := config.maps.map mappingOfMap })

def deployFromPacket (env : Platform) (config : Protocol.Deploy.Config) :
    Handler PUnit := do
  modify (fun n => { n with
    nodeName := config.thisNodeInfo.name
    port := config.thisNodeInfo.port })
  match configurationOfPacket config with
  | some conf => deployFromConfig env conf
  | none => throw Fault.assertion

/-!
## Requests
-/

/-- The status of every component; the output count is filled from the same
counter as the input count. -/
def componentStatus (n : Node) (ref : ComponentRef) :
    Handler Protocol.Deploy.ComponentStatus :=
  match n.findComponent ref with
  | some c =>
      pure
        { name := ref.name
          inPacketCount := c.inPacketCount
          outPacketCount := c.inPacketCount }
  | none => throw Fault.nullComponent

def statusResponse (env : Platform) : Handler Protocol.Payload := do
  let n ← get
  let statuses ←
    (componentRefs n n.router.address).mapM (componentStatus n)
  pure (Protocol.Payload.deployPacket
    { kind := Protocol.Deploy.PacketKind.getStatus
      payload := Protocol.Deploy.PacketPayload.response
        (Protocol.Deploy.Response.status
          { nodeName := n.nodeName
            inPacketsCount := n.router.inPackets
            outPacketsCount := n.router.outPackets
            inBytesCount := n.router.inBytes
            outBytesCount := n.router.outBytes
            uptime := UInt32.ofNat (env.now - n.startTime)
            componentStatuses := statuses }) })

/-- Replace the router by a new one and return the old one's address.  Routers
have addresses of their own, each newer than all before. -/
def exchangeRouter : Handler Nat := do
  let n ← get
  set { n with
    router := Router.new (n.router.address + 1)
    retired := n.router :: n.retired }
  pure n.router.address

def processDeployRequest (env : Platform)
    (packet : Protocol.Deploy.Packet) : Handler Protocol.Payload := do
  match packet.kind with
  | Protocol.Deploy.PacketKind.deployConfig =>
      let before ← get
      let routerPreviousState := before.router.started
      let oldRouter ← exchangeRouter
      deployFromPacket env packet.request.deployConfigRequest.config
      if routerPreviousState then
        let n ← get
        startRouter env n.router.address
      stopRouter oldRouter
      pure default
  | Protocol.Deploy.PacketKind.start =>
      let n ← get
      startRouter env n.router.address
      pure default
  | Protocol.Deploy.PacketKind.stop =>
      let n ← get
      stopRouter n.router.address
      pure default
  | Protocol.Deploy.PacketKind.getStatus => statusResponse env
  | _ => throw Fault.assertion

/-- A request with a communication packet falls through to the deployment
protocol. -/
def processRequest (env : Platform) (payload : Protocol.Payload) :
    Handler Protocol.Payload :=
  match payload with
  | Protocol.Payload.communicationPacket _ =>
      processDeployRequest env payload.asDeployPacket
  | Protocol.Payload.deployPacket _ =>
      processDeployRequest env payload.asDeployPacket
  | _ => throw Fault.assertion

def onNewRequest (env : Platform) (payload : Protocol.Payload) :
    Handler Protocol.Payload :=
  processRequest env payload

/-- A message from another node; its origin is bookkeeping. -/
def onNewMessage (env : Platform) (origin : Option Origin)
    (payload : Protocol.Payload) : Handler PUnit :=
  modify (fun n =>
    let packet := payload.asCommunicationPacket
    let counted := { n.router with
      inBytes := n.router.inBytes + env.byteSize payload }
    let (r, effects) := counted.route origin packet.destination.name
      packet.destination.port packet.payload
    ({ n with router := r }).performAll effects)

end Node
end Protort
