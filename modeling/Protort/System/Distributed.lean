import Mathlib.Algebra.BigOperators.Group.List.Basic
import Protort.Node.Traffic
import Protort.System.EndToEnd

/-!
# The distributed system

All nodes of a configuration together.  A step runs one queued task of a node,
hands one message of a node to the node its client is connected to, or starts
the router of a node again; tasks and messages are taken in any order.

Seen as a dataflow graph, the system has forgotten on which node a component
runs: local posts and messages between nodes are both pending deliveries.
-/

namespace Protort
namespace System

open Lib (Bytes Table Run Steps Dataflow.Behaviour)
open Lib.Exceptions
open Components (Component)
open Node (pendingOf routingOf GraphDelivery)

abbrev Network : Type := String -> Protort.Node

def nodeNames (cfg : Parser.Configuration) : List String :=
  cfg.nodes.map (fun n => n.name)

def componentNames (cfg : Parser.Configuration) : List String :=
  cfg.components.map (fun c => c.name)

inductive Move where
  | run (node : String)
  | deliver (node : String)
  | start (node : String)
deriving DecidableEq, Repr

def withoutMessage (sys : Network) (node : String)
    (outbox : List Node.Outgoing) : Network :=
  Function.update sys node { sys node with outbox := outbox }

/-- The steps of the system on some of the platforms, where `peer` is the node
that a client connected to an endpoint talks to.  Every step may meet another
platform. -/
inductive StepOn (on : Platform -> Prop) (cfg : Parser.Configuration)
    (peer : Node.Endpoint -> String) : Network -> Move -> Network -> Prop where
  | run {sys : Network} (env : Platform) {node : String}
      {front back : List Node.Task} {task : Node.Task} :
      on env -> node ∈ nodeNames cfg ->
      (sys node).service = front ++ task :: back ->
      StepOn on cfg peer sys (Move.run node)
        (Function.update sys node (finalState (Node.runTask env task
          { sys node with service := front ++ back })))
  | deliver {sys : Network} (env : Platform) {node : String}
      {front back : List Node.Outgoing} {m : Node.Outgoing} :
      on env -> node ∈ nodeNames cfg ->
      (sys node).outbox = front ++ m :: back ->
      StepOn on cfg peer sys (Move.deliver node)
        (Function.update (withoutMessage sys node (front ++ back))
          (peer m.client.endpoint)
          (finalState (Node.onNewMessage env (some m.origin) m.payload
            (withoutMessage sys node (front ++ back)
              (peer m.client.endpoint)))))
  | start {sys : Network} (env : Platform) {node : String} :
      on env -> node ∈ nodeNames cfg ->
      StepOn on cfg peer sys (Move.start node)
        (Function.update sys node (finalState
          (Node.startRouter env (sys node).router.address (sys node))))

abbrev Step (cfg : Parser.Configuration) (peer : Node.Endpoint -> String) :
    Network -> Move -> Network -> Prop :=
  StepOn (fun _ => True) cfg peer

/-!
## Steps by places
-/

/-- A task or a message by its place, or a router that is started. -/
inductive Choice where
  | run (node : String) (index : Nat)
  | deliver (node : String) (index : Nat)
  | start (node : String)
deriving DecidableEq, Repr

namespace Choice

def node : Choice -> String
  | run name _ => name
  | deliver name _ => name
  | start name => name

def move : Choice -> Move
  | run name _ => Move.run name
  | deliver name _ => Move.deliver name
  | start name => Move.start name

end Choice

def choose (cfg : Parser.Configuration) (peer : Node.Endpoint -> String)
    (sys : Network) (event : Platform × Choice) : Option Network :=
  if event.2.node ∈ nodeNames cfg then
    match event.2 with
    | Choice.run node index =>
        ((sys node).service[index]?).map (fun task =>
          Function.update sys node (finalState (Node.runTask event.1 task
            { sys node with
              service := (sys node).service.eraseIdx index })))
    | Choice.deliver node index =>
        ((sys node).outbox[index]?).map (fun m =>
          let taken :=
            withoutMessage sys node ((sys node).outbox.eraseIdx index)
          Function.update taken (peer m.client.endpoint)
            (finalState (Node.onNewMessage event.1 (some m.origin) m.payload
              (taken (peer m.client.endpoint)))))
    | Choice.start node =>
        some (Function.update sys node (finalState
          (Node.startRouter event.1 (sys node).router.address (sys node))))
  else
    none

section Choices

variable {on : Platform -> Prop} {cfg : Parser.Configuration}
  {peer : Node.Endpoint -> String} {sys sys' : Network}
  {event : Platform × Choice}

theorem split_of_getElem {item : Type} {xs : List item} {index : Nat}
    {x : item} (h : xs[index]? = some x) :
    exists front back, xs = front ++ x :: back ∧
      xs.eraseIdx index = front ++ back := by
  refine ⟨xs.take index, xs.drop (index + 1), ?_,
    List.eraseIdx_eq_take_drop_succ xs index⟩
  rcases List.getElem?_eq_some_iff.mp h with ⟨hlt, rfl⟩
  rw [List.getElem_cons_drop hlt, List.take_append_drop]

theorem stepOn_of_choose {env : Platform} {choice : Choice} (hon : on env)
    (h : choose cfg peer sys (env, choice) = some sys') :
    StepOn on cfg peer sys choice.move sys' := by
  rcases Option.ite_none_right_eq_some.mp h with ⟨hnode, h⟩
  cases choice with
  | run node index =>
      rcases Option.map_eq_some_iff.mp h with ⟨task, htask, rfl⟩
      rcases split_of_getElem htask with ⟨front, back, hqueue, hrest⟩
      simp only [hrest]
      exact StepOn.run env hon hnode hqueue
  | deliver node index =>
      rcases Option.map_eq_some_iff.mp h with ⟨m, hm, rfl⟩
      rcases split_of_getElem hm with ⟨front, back, hqueue, hrest⟩
      simp only [hrest]
      exact StepOn.deliver env hon hnode hqueue
  | start node =>
      cases h
      exact StepOn.start env hon hnode

theorem runOn_of_choose {events : List (Platform × Choice)}
    (hrun : Run (Steps (choose cfg peer)) sys events sys')
    (hon : forall event, event ∈ events -> on event.1) :
    Run (StepOn on cfg peer) sys (events.map (fun event => event.2.move))
      sys' := by
  induction hrun with
  | nil sys => exact Run.nil sys
  | @cons s t u event events hstep _ ih =>
      exact Run.cons (stepOn_of_choose (hon event List.mem_cons_self) hstep)
        (ih (fun other hother => hon other (List.mem_cons_of_mem _ hother)))

end Choices

/-!
## The graph
-/

structure Memory where
  address : Nat
  kind : Protocol.ComponentKind
  inPacketCount : UInt32
  started : Bool
deriving DecidableEq, Repr

def memoryOf (c : Component) : Memory :=
  { address := c.address
    kind := c.kind
    inPacketCount := c.inPacketCount
    started := c.started }

def wires (cfg : Parser.Configuration) :
    List (Lib.Dataflow.Wire String Parser.PortId) :=
  cfg.connections.map (fun conn =>
    { source := conn.source
      sourcePort := conn.sourceOut
      dest := conn.dest
      destPort := conn.destIn })

/-- Component objects on some of the platforms as components of a graph: a packet
makes them call `process`, and a generator that is started generates by
itself. -/
def behaviourOn (on : Platform -> Prop) :
    Lib.Dataflow.Behaviour Parser.PortId Bytes (Option Memory) :=
  { react := fun m port payload m' outputs =>
      exists env origin c,
        on env ∧
        m = some (memoryOf c) ∧
        m' = some (memoryOf (c.doProcess env origin port payload).1) ∧
        outputs = (c.doProcess env origin port payload).2.map Node.flatten
    act := fun m m' outputs =>
      exists env c generated,
        on env ∧
        c.isGenerator = true ∧
        m = some (memoryOf c) ∧
        m' = some (memoryOf { c with started := true }) ∧
        Component.generate env { c with started := true } = some generated ∧
        outputs = Node.flatten generated }

abbrev behaviour :
    Lib.Dataflow.Behaviour Parser.PortId Bytes (Option Memory) :=
  behaviourOn (fun _ => True)

abbrev Graph : Type :=
  Lib.Dataflow.State String Parser.PortId Bytes (Option Memory)

def receivedAt (r : Node.Router) (c : String) : Multiset GraphDelivery :=
  match r.objectAt c with
  | some object =>
      (object.received.map (fun d =>
        { origin := Node.graphOrigin d.origin
          dest := c
          inPort := d.inPort
          content := d.payload }) : List GraphDelivery)
  | none => 0

def graphOf (cfg : Parser.Configuration) (sys : Network) : Graph :=
  { memory := fun c =>
      ((sys (mappedTo cfg c)).router.objectAt c).map memoryOf
    pending := ((nodeNames cfg).map (fun node => pendingOf (sys node))).sum
    routing := ((nodeNames cfg).map (fun node => routingOf (sys node))).sum
    emitted := fun c =>
      if c ∈ componentNames cfg then
        (sys (mappedTo cfg c)).router.emittedAt c
      else
        []
    received := ((componentNames cfg).map (fun c =>
      receivedAt (sys (mappedTo cfg c)).router c)).sum }

/-!
## Sums over nodes and components
-/

theorem sum_split {item : Type} {names : List String} (hnodup : names.Nodup)
    {name : String} (hname : name ∈ names) (f : String -> Multiset item) :
    exists rest, forall g : String -> Multiset item,
      (forall other, other ∈ names -> other ≠ name -> g other = f other) ->
        (names.map g).sum = g name + rest := by
  exists ((names.erase name).map f).sum
  intro g hg
  have hrest : (names.erase name).map g = (names.erase name).map f := by
    apply List.map_congr_left
    intro other hother
    have hmem := (hnodup.mem_erase_iff).mp hother
    exact hg other hmem.right hmem.left
  rw [← List.sum_map_erase g hname, hrest]

section Updates

variable {cfg : Parser.Configuration} {sys : Network} {node : String}

theorem pending_update (hnodup : (nodeNames cfg).Nodup)
    (hnode : node ∈ nodeNames cfg) (sys : Network) :
    exists rest, forall n, (graphOf cfg (Function.update sys node n)).pending =
      pendingOf n + rest := by
  rcases sum_split hnodup hnode (fun other => pendingOf (sys other)) with
    ⟨rest, hrest⟩
  refine ⟨rest, fun n => ?_⟩
  have h := hrest (fun other => pendingOf (Function.update sys node n other))
    (fun other _ hne => by rw [Function.update_of_ne hne])
  rw [Function.update_self] at h
  exact h

theorem routing_update (hnodup : (nodeNames cfg).Nodup)
    (hnode : node ∈ nodeNames cfg) (sys : Network) :
    exists rest, forall n, (graphOf cfg (Function.update sys node n)).routing =
      routingOf n + rest := by
  rcases sum_split hnodup hnode (fun other => routingOf (sys other)) with
    ⟨rest, hrest⟩
  refine ⟨rest, fun n => ?_⟩
  have h := hrest (fun other => routingOf (Function.update sys node n other))
    (fun other _ hne => by rw [Function.update_of_ne hne])
  rw [Function.update_self] at h
  exact h

theorem memory_update_self {c : String} (hc : mappedTo cfg c = node)
    (n : Protort.Node) :
    (graphOf cfg (Function.update sys node n)).memory c =
      (n.router.objectAt c).map memoryOf := by
  show ((Function.update sys node n (mappedTo cfg c)).router.objectAt c).map _ =
    _
  rw [hc, Function.update_self]

theorem emitted_of_mem {c : String} (hmem : c ∈ componentNames cfg)
    (sys : Network) :
    (graphOf cfg sys).emitted c =
      (sys (mappedTo cfg c)).router.emittedAt c :=
  if_pos hmem

theorem emitted_of_notMem {c : String} (hmem : c ∉ componentNames cfg)
    (sys : Network) : (graphOf cfg sys).emitted c = [] :=
  if_neg hmem

theorem emitted_update_self {c : String} (hmem : c ∈ componentNames cfg)
    (hc : mappedTo cfg c = node) (n : Protort.Node) :
    (graphOf cfg (Function.update sys node n)).emitted c =
      n.router.emittedAt c := by
  rw [emitted_of_mem hmem, hc, Function.update_self]

theorem memory_update_congr {n n' : Protort.Node} {c : String}
    (h : mappedTo cfg c = node ->
      (n'.router.objectAt c).map memoryOf = (n.router.objectAt c).map memoryOf) :
    (graphOf cfg (Function.update sys node n')).memory c =
      (graphOf cfg (Function.update sys node n)).memory c := by
  by_cases hc : mappedTo cfg c = node
  · rw [memory_update_self hc, memory_update_self hc, h hc]
  · show ((Function.update sys node n' (mappedTo cfg c)).router.objectAt c).map
      _ = ((Function.update sys node n (mappedTo cfg c)).router.objectAt c).map _
    rw [Function.update_of_ne hc, Function.update_of_ne hc]

theorem emitted_update_congr {n n' : Protort.Node} {c : String}
    (h : mappedTo cfg c = node ->
      n'.router.emittedAt c = n.router.emittedAt c) :
    (graphOf cfg (Function.update sys node n')).emitted c =
      (graphOf cfg (Function.update sys node n)).emitted c := by
  by_cases hmem : c ∈ componentNames cfg
  · by_cases hc : mappedTo cfg c = node
    · rw [emitted_update_self hmem hc, emitted_update_self hmem hc, h hc]
    · rw [emitted_of_mem hmem, emitted_of_mem hmem, Function.update_of_ne hc,
        Function.update_of_ne hc]
  · rw [emitted_of_notMem hmem, emitted_of_notMem hmem]

theorem receivedAt_congr {n n' : Protort.Node} {c : String}
    (h : receivedAt n'.router c = receivedAt n.router c) :
    receivedAt (Function.update sys node n' (mappedTo cfg c)).router c =
      receivedAt (Function.update sys node n (mappedTo cfg c)).router c := by
  by_cases hc : mappedTo cfg c = node
  · rw [hc, Function.update_self, Function.update_self, h]
  · rw [Function.update_of_ne hc, Function.update_of_ne hc]

theorem received_update_congr {n n' : Protort.Node}
    (h : forall c, receivedAt n'.router c = receivedAt n.router c) :
    (graphOf cfg (Function.update sys node n')).received =
      (graphOf cfg (Function.update sys node n)).received := by
  show (List.map _ (componentNames cfg)).sum =
    (List.map _ (componentNames cfg)).sum
  congr 1
  apply List.map_congr_left
  intro c _
  exact receivedAt_congr (h c)

theorem received_update_cons (hnodup : (componentNames cfg).Nodup)
    {n n' : Protort.Node} {c : String} (hmem : c ∈ componentNames cfg)
    (hc : mappedTo cfg c = node) {d : GraphDelivery}
    (hself : receivedAt n'.router c = d ::ₘ receivedAt n.router c)
    (hothers : forall other, other ≠ c ->
      receivedAt n'.router other = receivedAt n.router other) :
    (graphOf cfg (Function.update sys node n')).received =
      d ::ₘ (graphOf cfg (Function.update sys node n)).received := by
  rcases sum_split hnodup hmem (fun other =>
    receivedAt (Function.update sys node n (mappedTo cfg other)).router other)
    with ⟨rest, hrest⟩
  have hbefore := hrest _ (fun _ _ _ => rfl)
  have hafter := hrest (fun other =>
    receivedAt (Function.update sys node n' (mappedTo cfg other)).router other)
    (fun other _ hne => receivedAt_congr (hothers other hne))
  simp only [hc, Function.update_self] at hbefore hafter
  rw [hself] at hafter
  show (List.map _ (componentNames cfg)).sum =
    d ::ₘ (List.map _ (componentNames cfg)).sum
  rw [hbefore, hafter, Multiset.cons_add]

end Updates

/-!
## The invariant
-/

structure Wired (cfg : Parser.Configuration) (peer : Node.Endpoint -> String)
    (node : String) (r : Node.Router) : Prop where
  components : forall c, c ∈ r.components <->
    { compName := c, nodeName := node } ∈ cfg.mappings
  objects : forall c, c ∈ r.components -> exists object,
    r.objectAt c = some object ∧ object.router = r.address ∧
      object.compInst = some c
  names : forall c, c ∈ r.components -> (Table.get r.components c).name = c
  localRoutes : forall c, c ∈ r.components -> forall p,
    (r.routesAt c p).localRoutes =
      Node.localRoutesOf (mappedTo cfg) node cfg.connections c p
  remoteRoutes : forall c, c ∈ r.components -> forall p,
    (r.routesAt c p).remoteRoutes.map Node.RemoteRoute.target =
      Node.remoteRoutesOf (mappedTo cfg) node cfg.connections c p
  peers : forall c, c ∈ r.components -> forall p route,
    route ∈ (r.routesAt c p).remoteRoutes ->
      peer route.client.endpoint = mappedTo cfg route.name

def RefersTo (r : Node.Router) (ref : Node.ComponentRef) : Prop :=
  ref.router = r.address ∧ ref.name ∈ r.components

def IsGeneratorAt (r : Node.Router) (c : String) : Prop :=
  exists object, r.objectAt c = some object ∧ object.isGenerator = true

/-- The pointers of a queued task are those of the current router. -/
def TaskOk (r : Node.Router) (t : Node.Task) : Prop :=
  match t with
  | Node.Task.doProcess ref _ _ _ => RefersTo r ref
  | Node.Task.doRoute address compInst _ =>
      address = r.address ∧ exists c, compInst = some c ∧ c ∈ r.components
  | Node.Task.generate ref => RefersTo r ref ∧ IsGeneratorAt r ref.name
  | Node.Task.timerWait ref _ => RefersTo r ref ∧ IsGeneratorAt r ref.name

def OutgoingOk (cfg : Parser.Configuration) (peer : Node.Endpoint -> String)
    (m : Node.Outgoing) : Prop :=
  peer m.client.endpoint =
      mappedTo cfg m.payload.asCommunicationPacket.destination.name ∧
    m.payload.asCommunicationPacket.destination.name ∈ componentNames cfg

structure NodeInv (cfg : Parser.Configuration) (peer : Node.Endpoint -> String)
    (node : String) (n : Protort.Node) : Prop where
  wired : Wired cfg peer node n.router
  started : n.router.started = true
  tasks : forall t, t ∈ n.service -> TaskOk n.router t
  outbox : forall m, m ∈ n.outbox -> OutgoingOk cfg peer m

def NetworkInv (cfg : Parser.Configuration) (peer : Node.Endpoint -> String)
    (sys : Network) : Prop :=
  forall node, node ∈ nodeNames cfg -> NodeInv cfg peer node (sys node)

theorem NetworkInv.update {cfg : Parser.Configuration}
    {peer : Node.Endpoint -> String} {sys : Network} {node : String}
    {n : Protort.Node} (h : NetworkInv cfg peer sys)
    (hn : NodeInv cfg peer node n) :
    NetworkInv cfg peer (Function.update sys node n) := by
  intro other hother
  by_cases hne : other = node
  · subst other
    rw [Function.update_self]
    exact hn
  · rw [Function.update_of_ne hne]
    exact h other hother

/-!
## The invariant under changes of the table
-/

section Table

variable {cfg : Parser.Configuration} {peer : Node.Endpoint -> String}
  {node : String} {r r' : Node.Router}

theorem objectAt_of_view {c : String} {object : Component}
    (h : (r'.objectAt c).map Node.viewObject =
      (r.objectAt c).map Node.viewObject)
    (hobject : r.objectAt c = some object) :
    exists object', r'.objectAt c = some object' ∧
      Node.viewObject object' = Node.viewObject object := by
  rw [hobject] at h
  rcases Option.map_eq_some_iff.mp h with ⟨object', hobject', hview⟩
  exact ⟨object', hobject', hview⟩

theorem isGenerator_of_view {c c' : Component}
    (h : Node.viewObject c' = Node.viewObject c) :
    c'.isGenerator = c.isGenerator := by
  have hkind : c'.kind = c.kind := congrArg Node.ObjectView.kind h
  unfold Component.isGenerator
  rw [hkind]

theorem Wired.sameTable (hw : Wired cfg peer node r)
    (h : Node.Router.SameTable r r') : Wired cfg peer node r' :=
  { components := fun c => (h.mem c).trans (hw.components c)
    objects := by
      intro c hc
      rcases hw.objects c ((h.mem c).mp hc) with
        ⟨object, hobject, hrouter, hinst⟩
      rcases objectAt_of_view (h.objects c) hobject with
        ⟨object', hobject', hview⟩
      refine ⟨object', hobject', ?_, ?_⟩
      · rw [h.address, ← hrouter]
        exact congrArg Node.ObjectView.router hview
      · rw [← hinst]
        exact congrArg Node.ObjectView.compInst hview
    names := fun c hc => (h.names c).trans (hw.names c ((h.mem c).mp hc))
    localRoutes := by
      intro c hc p
      rw [h.routes]
      exact hw.localRoutes c ((h.mem c).mp hc) p
    remoteRoutes := by
      intro c hc p
      rw [h.routes]
      exact hw.remoteRoutes c ((h.mem c).mp hc) p
    peers := by
      intro c hc p route hroute
      rw [h.routes] at hroute
      exact hw.peers c ((h.mem c).mp hc) p route hroute }

theorem TaskOk.sameTable {t : Node.Task} (ht : TaskOk r t)
    (h : Node.Router.SameTable r r') : TaskOk r' t := by
  have hrefers : forall ref, RefersTo r ref -> RefersTo r' ref := by
    intro ref href
    exact ⟨href.left.trans h.address.symm, (h.mem _).mpr href.right⟩
  have hgenerator : forall c, IsGeneratorAt r c -> IsGeneratorAt r' c := by
    intro c hc
    rcases hc with ⟨object, hobject, hgen⟩
    rcases objectAt_of_view (h.objects c) hobject with
      ⟨object', hobject', hview⟩
    exact ⟨object', hobject', (isGenerator_of_view hview).trans hgen⟩
  cases t with
  | doProcess ref origin inPort payload => exact hrefers ref ht
  | doRoute address compInst outputs =>
      rcases ht with ⟨haddress, c, hinst, hc⟩
      exact ⟨haddress.trans h.address.symm, c, hinst, (h.mem c).mpr hc⟩
  | generate ref => exact ⟨hrefers ref ht.left, hgenerator _ ht.right⟩
  | timerWait ref cancelled =>
      exact ⟨hrefers ref ht.left, hgenerator _ ht.right⟩

def EffectOk (cfg : Parser.Configuration) (peer : Node.Endpoint -> String)
    (r : Node.Router) (effect : Node.Effect) : Prop :=
  match effect with
  | Node.Effect.post t => TaskOk r t
  | Node.Effect.cancelWaits _ => True
  | Node.Effect.send client origin payload =>
      OutgoingOk cfg peer ⟨client, origin, payload⟩

theorem NodeInv.perform {n : Protort.Node} {effect : Node.Effect}
    (h : NodeInv cfg peer node n) (heffect : EffectOk cfg peer n.router effect) :
    NodeInv cfg peer node (n.perform effect) := by
  cases effect with
  | post t =>
      exact
        { wired := h.wired
          started := h.started
          tasks := by
            intro t' ht'
            rcases List.mem_append.mp ht' with hold | hnew
            · exact h.tasks t' hold
            · rcases List.mem_singleton.mp hnew with rfl
              exact heffect
          outbox := h.outbox }
  | cancelWaits ref =>
      exact
        { wired := h.wired
          started := h.started
          tasks := by
            intro t' ht'
            rcases List.mem_map.mp ht' with ⟨t, ht, rfl⟩
            have hok := h.tasks t ht
            cases t with
            | timerWait component cancelled => exact hok
            | doProcess => exact hok
            | doRoute => exact hok
            | generate => exact hok
          outbox := h.outbox }
  | send client origin payload =>
      exact
        { wired := h.wired
          started := h.started
          tasks := h.tasks
          outbox := by
            intro m hm
            rcases List.mem_append.mp hm with hold | hnew
            · exact h.outbox m hold
            · rcases List.mem_singleton.mp hnew with rfl
              exact heffect }

theorem NodeInv.performAll {n : Protort.Node} {effects : List Node.Effect}
    (h : NodeInv cfg peer node n)
    (heffects : forall effect, effect ∈ effects ->
      EffectOk cfg peer n.router effect) :
    NodeInv cfg peer node (n.performAll effects) := by
  induction effects generalizing n with
  | nil => exact h
  | cons effect rest ih =>
      have hfirst := h.perform (heffects effect List.mem_cons_self)
      refine ih hfirst (fun other hother => ?_)
      rw [Node.router_perform]
      exact heffects other (List.mem_cons_of_mem effect hother)

theorem NodeInv.setRouter {n : Protort.Node} (h : NodeInv cfg peer node n)
    (htable : Node.Router.SameTable n.router r') :
    NodeInv cfg peer node { n with router := r' } :=
  { wired := h.wired.sameTable htable
    started := htable.started.trans h.started
    tasks := fun t ht => (h.tasks t ht).sameTable htable
    outbox := h.outbox }

end Table

end System
end Protort
