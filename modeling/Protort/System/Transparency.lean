import Protort.System.Simulation

/-!
# Placement transparency

Every step of the distributed system is a step of the graph of its connections
or none at all.  So the deliveries that an output gives rise to are those of its
connections, wherever the components run.
-/

namespace Protort
namespace System

open Lib (Bytes Table Run Reaches)
open Lib.Exceptions
open Lib.Dataflow (ofOutput)
open Terminal (Deployable)
open Node (pendingOf routingOf)

/-!
## Messages
-/

section Messages

variable {env env' : Platform} {cfg : Parser.Configuration}
  {peer : Node.Endpoint -> String} {sys : Network} {node : String}
  {n : Protort.Node}

def counted (env : Platform) (payload : Protocol.Payload) (r : Node.Router) :
    Node.Router :=
  { r with
    inBytes := r.inBytes + env.byteSize payload
    inPackets := r.inPackets + 1 }

theorem counted_sameTable (env : Platform) (payload : Protocol.Payload)
    (r : Node.Router) : Node.Router.SameTable r (counted env payload r) :=
  { address := rfl
    started := rfl
    clients := rfl
    mem := fun _ => Iff.rfl
    names := fun _ => rfl
    routes := fun _ _ => rfl
    objects := fun _ => rfl }

theorem run_onNewMessage (hstarted : n.router.started = true)
    (origin : Option Components.Origin) (payload : Protocol.Payload)
    (hmem : payload.asCommunicationPacket.destination.name ∈
      n.router.components) :
    finalState (Node.onNewMessage env' origin payload n) =
      ({ n with router := counted env' payload n.router } :
        Protort.Node).perform
        (Node.Effect.post (Node.Task.doProcess
          ⟨n.router.address, payload.asCommunicationPacket.destination.name⟩
          origin payload.asCommunicationPacket.destination.port
          payload.asCommunicationPacket.payload)) := by
  rcases Finmap.mem_iff.mp hmem with ⟨inst, hinst⟩
  have hroute : Node.Router.route
      { n.router with inBytes := n.router.inBytes + env'.byteSize payload }
      origin payload.asCommunicationPacket.destination.name
      payload.asCommunicationPacket.destination.port
      payload.asCommunicationPacket.payload =
        (counted env' payload n.router,
          [Node.Effect.post (Node.Task.doProcess
            ⟨n.router.address,
              payload.asCommunicationPacket.destination.name⟩
            origin payload.asCommunicationPacket.destination.port
            payload.asCommunicationPacket.payload)]) := by
    unfold Node.Router.route
    simp only [hinst]
    exact if_pos hstarted
  unfold Node.onNewMessage
  rw [run_modify, finalState_ok]
  simp only [hroute]
  rfl

theorem NodeInv.dropMessage {front back : List Node.Outgoing}
    {m : Node.Outgoing} (hinv : NodeInv cfg peer node n)
    (h : n.outbox = front ++ m :: back) :
    OutgoingOk cfg peer m ∧
      NodeInv cfg peer node { n with outbox := front ++ back } := by
  constructor
  · apply hinv.outbox
    rw [h]
    exact List.mem_append_right front List.mem_cons_self
  · exact
      { wired := hinv.wired
        started := hinv.started
        tasks := hinv.tasks
        outbox := by
          intro other hother
          apply hinv.outbox
          rw [h]
          rcases List.mem_append.mp hother with hfront | hback
          · exact List.mem_append_left _ hfront
          · exact List.mem_append_right front (List.mem_cons_of_mem m hback) }

theorem receiver_mapped (h : Deployable env cfg) {name : String}
    (hname : name ∈ componentNames cfg) :
    mappedTo cfg name ∈ nodeNames cfg ∧
      { compName := name, nodeName := mappedTo cfg name } ∈ cfg.mappings := by
  rcases List.mem_map.mp hname with ⟨comp, hcomp, rfl⟩
  have hmapping := Deployable.mem_placedComponents.mp
    ((mem_placedComponents_iff h hcomp).mpr rfl)
  rcases h.mappedNodes _ hmapping with ⟨N, hN, hNname⟩
  exact ⟨List.mem_map.mpr ⟨N, hN, hNname⟩, hmapping⟩

/-- Handing over a message moves a pending delivery from one node to
another. -/
theorem handled_deliver (h : Deployable env cfg)
    (hinv : NetworkInv cfg peer sys) (hnode : node ∈ nodeNames cfg)
    {front back : List Node.Outgoing} {m : Node.Outgoing}
    (houtbox : (sys node).outbox = front ++ m :: back) {sys1 : Network}
    (hsys1 : sys1 = withoutMessage sys node (front ++ back)) :
    NetworkInv cfg peer (Function.update sys1 (peer m.client.endpoint)
      (finalState (Node.onNewMessage env' (some m.origin) m.payload
        (sys1 (peer m.client.endpoint))))) ∧
    graphOf cfg (Function.update sys1 (peer m.client.endpoint)
      (finalState (Node.onNewMessage env' (some m.origin) m.payload
        (sys1 (peer m.client.endpoint))))) = graphOf cfg sys := by
  rcases (hinv node hnode).dropMessage houtbox with ⟨⟨hpeer, hdest⟩, hnode1⟩
  have hinv1 : NetworkInv cfg peer sys1 := by
    rw [hsys1]
    exact hinv.update hnode1
  rcases receiver_mapped h hdest with ⟨htonode, hmapping⟩
  rw [hpeer]
  generalize mappedTo cfg
    m.payload.asCommunicationPacket.destination.name = target at *
  have hreceiver := hinv1 target htonode
  have hmem := (hreceiver.wired.components _).mpr hmapping
  have hrun := @run_onNewMessage env' (sys1 target) hreceiver.started
    (some m.origin) m.payload hmem
  have htable := counted_sameTable env' m.payload (sys1 target).router
  have hcounted := hreceiver.setRouter htable
  generalize finalState (Node.onNewMessage env' (some m.origin) m.payload
    (sys1 target)) = n' at hrun ⊢
  have hrouter : n'.router = counted env' m.payload (sys1 target).router := by
    rw [hrun, Node.router_perform]
  have hinv' : NodeInv cfg peer target n' := by
    rw [hrun]
    apply hcounted.perform
    exact ⟨rfl, hmem⟩
  constructor
  · exact hinv1.update hinv'
  have hreceived : pendingOf n' =
      Node.outgoingDelivery m ::ₘ pendingOf (sys1 target) := by
    rw [hrun, Node.pendingOf_perform, add_comm]
    exact Multiset.singleton_add _ _
  have hqueued : routingOf n' = routingOf (sys1 target) := by
    rw [hrun, Node.routingOf_perform]
    exact add_zero _
  have hafter := @graphOf_pending cfg sys1 target (sys1 target) n' htonode
    h.nodeNames _ (fun _ => by rw [hrouter]; rfl)
    (fun _ => by rw [hrouter]; rfl) hreceived hqueued
  have hbefore := @graphOf_pending cfg sys node
    { sys node with outbox := front ++ back } (sys node) hnode h.nodeNames _
    (fun _ => rfl) (fun _ => rfl) (pendingOf_outgoing houtbox) rfl
  have hsame1 : Function.update sys node
      { sys node with outbox := front ++ back } = sys1 := hsys1.symm
  rw [Function.update_eq_self] at hafter hbefore
  rw [hsame1] at hbefore
  exact hafter.trans hbefore.symm

end Messages

/-!
## Steps and runs
-/

section Runs

variable {env : Platform} {cfg : Parser.Configuration}
  {peer : Node.Endpoint -> String}

theorem step_simulated (h : Deployable env cfg) {sys sys' : Network}
    {move : Move} (hstep : Step cfg peer sys move sys')
    (hinv : NetworkInv cfg peer sys) :
    NetworkInv cfg peer sys' ∧
      Reaches (GraphStep cfg) (graphOf cfg sys) (graphOf cfg sys') := by
  have hone : forall {node : String} {n' : Protort.Node},
      Handled cfg peer sys node (sys node) n' ->
        NetworkInv cfg peer (Function.update sys node n') ∧
          Reaches (GraphStep cfg) (graphOf cfg sys)
            (graphOf cfg (Function.update sys node n')) := by
    intro node n' hhandled
    have hreach := hhandled.right
    rw [Function.update_eq_self] at hreach
    exact ⟨hinv.update hhandled.left, hreach⟩
  cases hstep with
  | run env' _ hnode hqueue =>
      exact hone (handled_run h hnode (hinv _ hnode) hqueue)
  | deliver env' _ hnode houtbox =>
      have hdeliver := @handled_deliver env env' cfg peer sys _ h hinv hnode _ _
        _ houtbox _ rfl
      constructor
      · exact hdeliver.left
      rw [hdeliver.right]
      exact Reaches.refl _
  | start env' _ hnode =>
      exact hone (handled_start h hnode (hinv _ hnode))

theorem run_simulated (h : Deployable env cfg) {sys sys' : Network}
    {moves : List Move} (hrun : Run (Step cfg peer) sys moves sys')
    (hinv : NetworkInv cfg peer sys) :
    Reaches (GraphStep cfg) (graphOf cfg sys) (graphOf cfg sys') :=
  hrun.simulated (graphOf cfg) (NetworkInv cfg peer)
    (fun hstep hs => (step_simulated h hstep hs).left)
    (fun hstep hs => (step_simulated h hstep hs).right) hinv

/-- A client that is connected to the endpoint of a node talks to that node. -/
def PeersOf (env : Platform) (cfg : Parser.Configuration)
    (peer : Node.Endpoint -> String) : Prop :=
  forall N, N ∈ cfg.nodes -> forall endpoint : Node.Endpoint,
    env.fromString N.host.ipAddress = some endpoint.address ->
      endpoint.port = N.host.port.toUInt16 -> peer endpoint = N.name

/-- All nodes have been deployed as the configuration says, and their routers
were started; nothing has happened since. -/
structure JustStarted (env : Platform) (cfg : Parser.Configuration)
    (sys : Network) : Prop where
  deployed : forall N, N ∈ cfg.nodes ->
    DeployedAs env cfg N.name (sys N.name).router
  started : forall N, N ∈ cfg.nodes -> (sys N.name).router.started = true
  service : forall N, N ∈ cfg.nodes -> (sys N.name).service = []
  outbox : forall N, N ∈ cfg.nodes -> (sys N.name).outbox = []

theorem DeployedAs.wired {r : Node.Router} {node : String}
    (hr : DeployedAs env cfg node r) (hpeer : PeersOf env cfg peer) :
    Wired cfg peer node r :=
  { components := hr.components
    objects := by
      intro c hc
      rcases hr.objects c hc with ⟨comp, address, kind, _, _, _, hobject⟩
      exact ⟨_, hobject, rfl, rfl⟩
    names := hr.names
    localRoutes := hr.localRoutes
    remoteRoutes := hr.remoteRoutes
    peers := by
      intro c hc p route hroute
      have hclient := hr.remoteClients c hc p route hroute
      rcases (hr.clients _ _ hclient).right with
        ⟨N, hN, hname, haddress, hport⟩
      rw [hpeer N hN _ haddress hport, hname] }

theorem JustStarted.inv {sys : Network} (hstart : JustStarted env cfg sys)
    (hpeer : PeersOf env cfg peer) : NetworkInv cfg peer sys := by
  intro node hnode
  rcases List.mem_map.mp hnode with ⟨N, hN, rfl⟩
  exact
    { wired := (hstart.deployed N hN).wired hpeer
      started := hstart.started N hN
      tasks := by
        intro t ht
        rw [hstart.service N hN] at ht
        cases ht
      outbox := by
        intro m hm
        rw [hstart.outbox N hN] at hm
        cases hm }

/-- The graph before anything was sent: every component with its declared kind
and no packet received. -/
structure GraphStart (cfg : Parser.Configuration) (g : Graph) : Prop where
  memory : forall c, c ∈ cfg.components -> exists address kind,
    Components.getComponentKind c.kind = some kind ∧
      g.memory c.name = some
        { address := address
          kind := kind
          inPacketCount := 0
          started := false }
  pending : g.pending = 0
  routing : g.routing = 0
  emitted : forall c, g.emitted c = []
  received : g.received = 0

theorem JustStarted.object {sys : Network} (h : Deployable env cfg)
    (hstart : JustStarted env cfg sys) {c : Parser.Component}
    (hc : c ∈ cfg.components) :
    exists address kind, Components.getComponentKind c.kind = some kind ∧
      (sys (mappedTo cfg c.name)).router.objectAt c.name =
        some (Node.newComponent address
          (sys (mappedTo cfg c.name)).router.address kind c.name) ∧
      (sys (mappedTo cfg c.name)).router.emittedAt c.name = [] := by
  rcases h.exists_mapping hc with ⟨m, hm, hname⟩
  rcases h.mappedNodes m hm with ⟨N, hN, hNname⟩
  have hmapped : mappedTo cfg c.name = N.name := by
    rw [← hname, mappedTo_eq h hm, hNname]
  rw [hmapped]
  have hdeployed := hstart.deployed N hN
  have hmem : c.name ∈ (sys N.name).router.components := by
    rw [hdeployed.components, ← hname, hNname]
    exact hm
  rcases hdeployed.objects c.name hmem with
    ⟨comp, address, kind, hcomp, hcname, hkind, hobject⟩
  have hsame : comp = c :=
    List.inj_on_of_nodup_map h.componentNames hcomp hc hcname
  rw [hsame] at hkind
  exact ⟨address, kind, hkind, hobject, hdeployed.emitted c.name hmem⟩

theorem sum_eq_zero {item : Type} {names : List String}
    {f : String -> Multiset item} (h : forall name, name ∈ names -> f name = 0) :
    (names.map f).sum = 0 := by
  induction names with
  | nil => rfl
  | cons name rest ih =>
      rw [List.map_cons, List.sum_cons, h name List.mem_cons_self,
        ih (fun other hother => h other (List.mem_cons_of_mem name hother))]
      rfl

theorem JustStarted.graphStart {sys : Network} (h : Deployable env cfg)
    (hstart : JustStarted env cfg sys) : GraphStart cfg (graphOf cfg sys) :=
  { memory := by
      intro c hc
      rcases hstart.object h hc with ⟨address, kind, hkind, hobject, _⟩
      exists address
      exists kind
      constructor
      · exact hkind
      show ((sys (mappedTo cfg c.name)).router.objectAt c.name).map memoryOf = _
      rw [hobject]
      rfl
    pending := by
      apply sum_eq_zero
      intro name hname
      rcases List.mem_map.mp hname with ⟨N, hN, rfl⟩
      unfold pendingOf
      rw [hstart.service N hN, hstart.outbox N hN]
      rfl
    routing := by
      apply sum_eq_zero
      intro name hname
      rcases List.mem_map.mp hname with ⟨N, hN, rfl⟩
      unfold routingOf
      rw [hstart.service N hN]
      rfl
    emitted := by
      intro c
      by_cases hmem : c ∈ componentNames cfg
      · rcases List.mem_map.mp hmem with ⟨comp, hcomp, rfl⟩
        rcases hstart.object h hcomp with ⟨_, _, _, _, hemitted⟩
        rw [emitted_of_mem hmem, hemitted]
      · exact emitted_of_notMem hmem sys
    received := by
      apply sum_eq_zero
      intro name hname
      rcases List.mem_map.mp hname with ⟨comp, hcomp, rfl⟩
      rcases hstart.object h hcomp with ⟨_, _, _, hobject, _⟩
      unfold receivedAt
      rw [hobject]
      rfl }

end Runs

/-!
## Networks that were just started
-/

/-- The network that the terminal sets up: every node deploys the packet for it
and its router is started. -/
def network (env : Platform) (cfg : Parser.Configuration) : Network :=
  fun name =>
    match Terminal.asyncDeploy name (Terminal.parseDeploy cfg) with
    | some p =>
        let n := finalState
          (Node.deployFromPacket env p.configuration (Node.new 0 0))
        { n with router := { n.router with started := true } }
    | none => Node.new 0 0

theorem network_justStarted {env : Platform} {cfg : Parser.Configuration}
    (h : Deployable env cfg) : JustStarted env cfg (network env cfg) := by
  have hnode : forall N, N ∈ cfg.nodes -> exists n' : Protort.Node,
      n'.service = [] ∧ n'.outbox = [] ∧
        DeployedAs env cfg N.name n'.router ∧ exists server,
          network env cfg N.name =
            { n' with
              server := server
              router := { n'.router with started := true } } := by
    intro N hN
    rcases @deploy_key env cfg _ h (mem_mapNode_of_mem h hN) (Node.new 0 0)
      rfl rfl with ⟨p, hp, n', hrun, hservice, houtbox, hrouter⟩
    have hlisten := Node.finalState_listen env
      (Table.get (Terminal.parseDeploy cfg).mapNode N.name).host.port n'
    rcases hlisten with ⟨server, hserver⟩
    refine ⟨n', hservice, houtbox, deployedAs_of_routerFor h hN hrouter,
      server, ?_⟩
    unfold network
    rw [hp]
    simp only [hrun, hserver]
  exact
    { deployed := by
        intro N hN
        rcases hnode N hN with ⟨n', _, _, hdeployed, server, hn⟩
        rw [hn]
        exact
          { components := hdeployed.components
            objects := hdeployed.objects
            names := hdeployed.names
            emitted := hdeployed.emitted
            localRoutes := hdeployed.localRoutes
            remoteRoutes := hdeployed.remoteRoutes
            remoteClients := hdeployed.remoteClients
            clients := hdeployed.clients }
      started := by
        intro N hN
        rcases hnode N hN with ⟨n', _, _, _, server, hn⟩
        rw [hn]
      service := by
        intro N hN
        rcases hnode N hN with ⟨n', hservice, _, _, server, hn⟩
        rw [hn]
        exact hservice
      outbox := by
        intro N hN
        rcases hnode N hN with ⟨n', _, houtbox, _, server, hn⟩
        rw [hn]
        exact houtbox }

/-!
## Deliveries of an output
-/

/-- The calls of `do_process` that an output has given rise to so far, done or
still to be done: component, input and payload of each. -/
def deliveriesOf (cfg : Parser.Configuration) (sys : Network) (c : String)
    (index : Nat) : Multiset (String × Parser.PortId × Bytes) :=
  (ofOutput c index ((graphOf cfg sys).pending +
    (graphOf cfg sys).received)).map (fun d => (d.dest, d.inPort, d.content))

/-- One call for every connection that leaves the port. -/
def connectionDeliveries (cfg : Parser.Configuration) (c : String)
    (port : Parser.PortId) (payload : Bytes) :
    Multiset (String × Parser.PortId × Bytes) :=
  ((cfg.connections.filter (fun conn => decide (conn.source = c ∧
    conn.sourceOut = port))).map (fun conn =>
      (conn.dest, conn.destIn, payload)) :
        List (String × Parser.PortId × Bytes))

theorem map_fanout (cfg : Parser.Configuration) (c : String) (index : Nat)
    (port : Parser.PortId) (payload : Bytes) :
    (Lib.Dataflow.fanout (wires cfg) c index port payload).map
        (fun d => (d.dest, d.inPort, d.content)) =
      connectionDeliveries cfg c port payload := by
  unfold Lib.Dataflow.fanout wires connectionDeliveries
  rw [Multiset.map_coe, List.filter_map, List.map_map, List.map_map]
  rfl

/-- In every state of a run, what the outputs have given rise to is what the
connections say, whichever nodes the components run on. -/
theorem deliveries_of_run {env : Platform} {cfg : Parser.Configuration}
    {peer : Node.Endpoint -> String} (h : Deployable env cfg)
    (hpeer : PeersOf env cfg peer) {start sys : Network} {moves : List Move}
    (hstart : JustStarted env cfg start)
    (hrun : Run (Step cfg peer) start moves sys) :
    Lib.Dataflow.Conserved (wires cfg) (graphOf cfg sys) ∧
      forall c index port payload,
        ((graphOf cfg sys).emitted c)[index]? = some (port, payload) ->
          deliveriesOf cfg sys c index =
            connectionDeliveries cfg c port payload := by
  have hgraph := hstart.graphStart h
  have hreach := run_simulated h hrun (hstart.inv hpeer)
  have hconserved := Lib.Dataflow.Conserved.reaches hreach
    (Lib.Dataflow.conserved_of_nothing_sent (wires cfg) hgraph.pending
      hgraph.received hgraph.emitted)
  constructor
  · exact hconserved
  intro c index port payload hemitted
  unfold deliveriesOf
  rw [hconserved.outputs c index, hemitted]
  exact map_fanout cfg c index port payload

/-- The distributed system simulates the graph of its connections from a graph
in which nothing was sent.  Every output gives rise to one call for each of its
connections, there are no other calls, and so any two placements of one graph
agree in what equal outputs give rise to. -/
theorem placement_transparent {env : Platform} {cfg : Parser.Configuration}
    {peer : Node.Endpoint -> String} (h : Deployable env cfg)
    (hpeer : PeersOf env cfg peer) {start sys : Network} {moves : List Move}
    (hstart : JustStarted env cfg start)
    (hrun : Run (Step cfg peer) start moves sys) :
    (GraphStart cfg (graphOf cfg start) ∧
      Reaches (GraphStep cfg) (graphOf cfg start) (graphOf cfg sys)) ∧
    (forall c index port payload,
      ((graphOf cfg sys).emitted c)[index]? = some (port, payload) ->
        deliveriesOf cfg sys c index =
          connectionDeliveries cfg c port payload) ∧
    (forall d, d ∈ (graphOf cfg sys).pending + (graphOf cfg sys).received ->
      exists c index output, d.origin = some (c, index) ∧
        ((graphOf cfg sys).emitted c)[index]? = some output) ∧
    (forall (env' : Platform) (cfg' : Parser.Configuration)
        (peer' : Node.Endpoint -> String) (start' sys' : Network)
        (moves' : List Move),
      cfg'.components = cfg.components -> cfg'.connections = cfg.connections ->
      Deployable env' cfg' -> PeersOf env' cfg' peer' ->
      JustStarted env' cfg' start' ->
      Run (Step cfg' peer') start' moves' sys' ->
      forall c index index' port payload,
        ((graphOf cfg sys).emitted c)[index]? = some (port, payload) ->
        ((graphOf cfg' sys').emitted c)[index']? = some (port, payload) ->
          deliveriesOf cfg sys c index = deliveriesOf cfg' sys' c index') := by
  have hdeliveries := deliveries_of_run h hpeer hstart hrun
  refine ⟨⟨hstart.graphStart h, run_simulated h hrun (hstart.inv hpeer)⟩,
    hdeliveries.right, ?_, ?_⟩
  · intro d hd
    have hsome := hdeliveries.left.origins d hd
    cases horigin : d.origin with
    | none => exact absurd horigin hsome
    | some origin =>
        rcases origin with ⟨c, index⟩
        have hmem : d ∈ ofOutput c index ((graphOf cfg sys).pending +
            (graphOf cfg sys).received) :=
          Multiset.mem_filter.mpr ⟨hd, horigin⟩
        rw [hdeliveries.left.outputs c index] at hmem
        cases houtput : ((graphOf cfg sys).emitted c)[index]? with
        | none =>
            rw [houtput] at hmem
            exact absurd hmem (Multiset.notMem_zero d)
        | some output => exact ⟨c, index, output, rfl, houtput⟩
  · intro env' cfg' peer' start' sys' moves' _ hconnections h' hpeer' hstart'
      hrun' c index index' port payload hemitted hemitted'
    have hdeliveries' := deliveries_of_run h' hpeer' hstart' hrun'
    rw [hdeliveries.right c index port payload hemitted,
      hdeliveries'.right c index' port payload hemitted']
    unfold connectionDeliveries
    rw [hconnections]

/-!
## Two placements
-/

/-- A generator, a retranslator and a terminator, each on a node of its own. -/
def spread : Parser.Configuration :=
  { twoNodes with
    nodes :=
      [⟨"n1", ⟨"127.0.0.1", 100, 101⟩, none⟩,
        ⟨"n2", ⟨"127.0.0.1", 200, 201⟩, none⟩,
        ⟨"n3", ⟨"127.0.0.1", 300, 301⟩, none⟩]
    mappings := [⟨"r", "n2"⟩, ⟨"t", "n3"⟩, ⟨"g", "n1"⟩] }

/-- All but the generator on the second node, and nothing on the third. -/
def gathered : Parser.Configuration :=
  { spread with
    mappings := [⟨"r", "n2"⟩, ⟨"t", "n2"⟩, ⟨"g", "n1"⟩] }

theorem spread_deployable : Deployable Platform.loopback spread :=
  { componentNames := by decide
    nodeNames := by decide
    backupNames := by decide
    kinds := by decide
    addresses := by decide
    mappedOnce := by decide
    mappedComponents := by decide
    mappedNodes := by decide
    sources := by decide
    destinations := by decide }

theorem gathered_deployable : Deployable Platform.loopback gathered :=
  { componentNames := by decide
    nodeNames := by decide
    backupNames := by decide
    kinds := by decide
    addresses := by decide
    mappedOnce := by decide
    mappedComponents := by decide
    mappedNodes := by decide
    sources := by decide
    destinations := by decide }

def spreadPeers (endpoint : Node.Endpoint) : String :=
  if endpoint.port = 100 then
    "n1"
  else if endpoint.port = 200 then
    "n2"
  else
    "n3"

theorem spreadPeers_of_spread :
    PeersOf Platform.loopback spread spreadPeers := by
  have hports : forall N, N ∈ spread.nodes ->
      (if N.host.port.toUInt16 = 100 then "n1"
        else if N.host.port.toUInt16 = 200 then "n2" else "n3") = N.name := by
    decide
  intro N hN endpoint _ hport
  unfold spreadPeers
  rw [hport]
  exact hports N hN

theorem spreadPeers_of_gathered :
    PeersOf Platform.loopback gathered spreadPeers :=
  spreadPeers_of_spread

def onLoopback (choices : List Choice) : List (Platform × Choice) :=
  choices.map (fun choice => (Platform.loopback, choice))

def spreadChoices : List (Platform × Choice) :=
  onLoopback [Choice.start "n1", Choice.run "n1" 0, Choice.deliver "n1" 0,
    Choice.deliver "n1" 0, Choice.run "n2" 0, Choice.run "n2" 0,
    Choice.deliver "n2" 0, Choice.run "n3" 0, Choice.run "n3" 0]

def gatheredChoices : List (Platform × Choice) :=
  onLoopback [Choice.start "n1", Choice.run "n1" 0, Choice.deliver "n1" 1,
    Choice.deliver "n1" 0, Choice.run "n2" 1, Choice.run "n2" 1,
    Choice.run "n2" 0, Choice.run "n2" 0]

def followed (cfg : Parser.Configuration)
    (events : List (Platform × Choice)) : Option Network :=
  Lib.execute (choose cfg spreadPeers) (network Platform.loopback cfg) events

/-- What the generator packs: nothing was drawn, and its address is 1. -/
def spreadPayload : Bytes :=
  List.replicate 16 0 ++ 1 :: List.replicate 7 0

theorem placement_transparent_gathered :
    exists sys sys',
      Run (Step gathered spreadPeers) (network Platform.loopback gathered)
        (gatheredChoices.map (fun event => event.2.move)) sys ∧
      Run (Step spread spreadPeers) (network Platform.loopback spread)
        (spreadChoices.map (fun event => event.2.move)) sys' ∧
      Reaches (GraphStep gathered)
        (graphOf gathered (network Platform.loopback gathered))
        (graphOf gathered sys) ∧
      deliveriesOf gathered sys "g" 0 = {("r", 0, spreadPayload)} ∧
      deliveriesOf gathered sys "r" 0 = {("t", 0, spreadPayload)} ∧
      deliveriesOf gathered sys "r" 0 = deliveriesOf spread sys' "r" 0 ∧
      forall d,
        d ∈ (graphOf gathered sys).pending + (graphOf gathered sys).received ->
        exists c index output, d.origin = some (c, index) ∧
          ((graphOf gathered sys).emitted c)[index]? = some output := by
  let first := fun (g : Graph) (c : String) => (g.emitted c)[0]?
  have hend : (followed gathered gatheredChoices).bind (fun sys =>
      (followed spread spreadChoices).map (fun sys' =>
        (first (graphOf gathered sys) "g", first (graphOf gathered sys) "r",
          first (graphOf spread sys') "r"))) =
      some (some (0, spreadPayload), some (0, spreadPayload),
        some (0, spreadPayload)) := by
    decide +kernel
  rcases Option.bind_eq_some_iff.mp hend with ⟨sys, hsys, hend⟩
  rcases Option.map_eq_some_iff.mp hend with ⟨sys', hsys', hend⟩
  simp only [Prod.mk.injEq] at hend
  rcases hend with ⟨hgenerated, hsent, hsent'⟩
  have hrun : Run (Step gathered spreadPeers)
      (network Platform.loopback gathered) _ sys :=
    runOn_of_choose (Run.of_execute hsys) (fun _ _ => trivial)
  have hrun' : Run (Step spread spreadPeers)
      (network Platform.loopback spread) _ sys' :=
    runOn_of_choose (Run.of_execute hsys') (fun _ _ => trivial)
  rcases placement_transparent gathered_deployable spreadPeers_of_gathered
    (network_justStarted gathered_deployable) hrun with
      ⟨⟨_, hreach⟩, hdeliveries, horigins, hplacements⟩
  refine ⟨sys, sys', hrun, hrun', hreach, ?_, ?_, ?_, horigins⟩
  · rw [hdeliveries "g" 0 0 _ hgenerated]
    rfl
  · rw [hdeliveries "r" 0 0 _ hsent]
    rfl
  · exact hplacements Platform.loopback spread spreadPeers _ sys' _ rfl rfl
      spread_deployable spreadPeers_of_spread
      (network_justStarted spread_deployable) hrun' "r" 0 0 0 spreadPayload
      hsent hsent'

end System
end Protort
