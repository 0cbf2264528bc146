import Protort.Node.Objects
import Protort.System.GraphSteps

/-!
# Simulation by the graph

What each handler of a node does, under the invariant, to the graph that the
system shows: running a component delivers, `doRoute` sends, a generator acts,
and handing over a message is no step, for the delivery was pending before.
-/

namespace Protort
namespace System

open Lib (Bytes Reaches)
open Lib.Exceptions
open Lib.Dataflow (queued)
open Terminal (Deployable)
open Components (Component)
open Node (pendingOf routingOf GraphDelivery findRouter_current
  updateRouter_current mem_of_objectAt dereference_ok dereference_null)

/-!
## Running the handlers
-/

section Handlers

variable {env : Platform} {n : Protort.Node} {ref : Node.ComponentRef}
  {object : Component}

def afterProcess (n : Protort.Node) (ref : Node.ComponentRef)
    (object : Component)
    (result : Component × Option (List Components.Output)) : Protort.Node :=
  match result.2 with
  | some outputs => (n.updateComponent ref result.1).perform
      (Node.Effect.post
        (Node.Task.doRoute object.router object.compInst outputs))
  | none => n.updateComponent ref result.1

theorem run_doProcess (h : n.findComponent ref = some object)
    (origin : Option Components.Origin) (inPort : Parser.PortId)
    (payload : Bytes) :
    finalState (Node.runTask env
        (Node.Task.doProcess ref origin inPort payload) n) =
      afterProcess n ref object
        (object.doProcess env origin inPort payload) := by
  rw [Node.runTask_doProcess env h, finalState_ok]
  unfold afterProcess Node.processEffects Component.doProcess
  simp only []
  cases object.process env inPort payload with
  | some outputs => rfl
  | none => rfl

end Handlers

/-!
## Queues of a node
-/

theorem pendingOf_task {n : Protort.Node} {front back : List Node.Task}
    {task : Node.Task} (h : n.service = front ++ task :: back) :
    pendingOf n = Node.taskDeliveries task +
      pendingOf { n with service := front ++ back } := by
  unfold pendingOf
  rw [h]
  simp only [List.map_append, List.map_cons, List.sum_append, List.sum_cons]
  rw [add_left_comm, add_assoc, add_assoc]

theorem routingOf_task {n : Protort.Node} {front back : List Node.Task}
    {task : Node.Task} (h : n.service = front ++ task :: back) :
    routingOf n = Node.taskOutputs task +
      routingOf { n with service := front ++ back } := by
  unfold routingOf
  rw [h]
  simp only [List.map_append, List.map_cons, List.sum_append, List.sum_cons]
  rw [add_left_comm]

theorem pendingOf_outgoing {n : Protort.Node} {front back : List Node.Outgoing}
    {m : Node.Outgoing} (h : n.outbox = front ++ m :: back) :
    pendingOf n = Node.outgoingDelivery m ::ₘ
      pendingOf { n with outbox := front ++ back } := by
  unfold pendingOf
  rw [h]
  simp only [List.map_append, List.map_cons, ← Multiset.coe_add,
    ← Multiset.cons_coe, Multiset.add_cons]

theorem NodeInv.dropTask {cfg : Parser.Configuration}
    {peer : Node.Endpoint -> String} {node : String} {n : Protort.Node}
    {front back : List Node.Task} {task : Node.Task}
    (hinv : NodeInv cfg peer node n)
    (h : n.service = front ++ task :: back) :
    TaskOk n.router task ∧
      NodeInv cfg peer node { n with service := front ++ back } := by
  constructor
  · apply hinv.tasks
    rw [h]
    exact List.mem_append_right front List.mem_cons_self
  · exact
      { wired := hinv.wired
        started := hinv.started
        tasks := by
          intro t ht
          apply hinv.tasks
          rw [h]
          rcases List.mem_append.mp ht with hfront | hback
          · exact List.mem_append_left _ hfront
          · exact List.mem_append_right front (List.mem_cons_of_mem task hback)
        outbox := hinv.outbox }

/-!
## The four kinds of handler
-/

section Handling

variable {env env' : Platform} {cfg : Parser.Configuration}
  {peer : Node.Endpoint -> String} {sys : Network} {node : String}
  {n : Protort.Node}

/-- What a handler has to do for the system to be simulated. -/
def Handled (cfg : Parser.Configuration) (peer : Node.Endpoint -> String)
    (sys : Network) (node : String) (n n' : Protort.Node) : Prop :=
  NodeInv cfg peer node n' ∧
    Reaches (GraphStep cfg) (graphOf cfg (Function.update sys node n))
      (graphOf cfg (Function.update sys node n'))

/-- The same, and nothing is asked of other platforms. -/
def HandledOn (on : Platform -> Prop) (cfg : Parser.Configuration)
    (peer : Node.Endpoint -> String) (sys : Network) (node : String)
    (n n' : Protort.Node) : Prop :=
  NodeInv cfg peer node n' ∧
    Reaches (GraphStepOn on cfg) (graphOf cfg (Function.update sys node n))
      (graphOf cfg (Function.update sys node n'))

theorem HandledOn.handled {on : Platform -> Prop} {n' : Protort.Node}
    (h : HandledOn on cfg peer sys node n n') :
    Handled cfg peer sys node n n' := by
  rcases h with ⟨hinv, events, hrun⟩
  refine ⟨hinv, hrun.simulated id (fun _ => True) (fun _ _ => trivial) ?_
    trivial⟩
  intro g e g' hstep _
  exact Reaches.single hstep.graphStep

variable {on : Platform -> Prop}

theorem HandledOn.refl (hinv : NodeInv cfg peer node n) :
    HandledOn on cfg peer sys node n n :=
  ⟨hinv, Reaches.refl _⟩

theorem process_result (hinv : NodeInv cfg peer node n) {c : String}
    (hmem : c ∈ n.router.components) (origin : Option Components.Origin)
    (inPort : Parser.PortId) (payload : Bytes) :
    exists object n', n.router.objectAt c = some object ∧
      finalState (Node.runTask env' (Node.Task.doProcess
        ⟨n.router.address, c⟩ origin inPort payload) n) = n' ∧
      NodeInv cfg peer node n' ∧
      n'.router = Node.Router.setComponent n.router c
        (object.doProcess env' origin inPort payload).1 ∧
      pendingOf n' = pendingOf n ∧
      routingOf n' = routingOf n + queued c
        ((object.doProcess env' origin inPort payload).2.map
          Node.flatten) ∧
      n'.outbox = n.outbox := by
  rcases hinv.wired.objects c hmem with ⟨object, hobject, hown, hinst⟩
  have hview : Node.viewObject
      (object.doProcess env' origin inPort payload).1 =
        Node.viewObject object := rfl
  have htable := Node.Router.setComponent_sameTable hmem hobject hview
  have hinv1 := hinv.setRouter htable
  refine ⟨object, _, hobject, run_doProcess
    (Node.findComponent_current hobject) origin inPort payload, ?_⟩
  unfold afterProcess
  rw [Node.updateComponent_current]
  cases (object.doProcess env' origin inPort payload).2 with
  | none => exact ⟨hinv1, rfl, rfl, (add_zero _).symm, rfl⟩
  | some outputs =>
      refine ⟨?_, rfl, ?_, ?_, rfl⟩
      · apply hinv1.perform
        exact ⟨hown, c, hinst, (htable.mem c).mpr hmem⟩
      · rw [Node.pendingOf_perform]
        exact add_zero _
      · rw [Node.routingOf_perform, hinst]
        rfl

theorem delivered_doProcess (henv : on env') (h : Deployable env cfg)
    (hnode : node ∈ nodeNames cfg) (hinv : NodeInv cfg peer node n)
    {front back : List Node.Task} {ref : Node.ComponentRef}
    {origin : Option Components.Origin} {inPort : Parser.PortId}
    {payload : Bytes}
    (hqueue : n.service =
      front ++ Node.Task.doProcess ref origin inPort payload :: back)
    {n' : Protort.Node}
    (hn' : finalState (Node.runTask env'
      (Node.Task.doProcess ref origin inPort payload)
      { n with service := front ++ back }) = n') :
    NodeInv cfg peer node n' ∧ n'.outbox = n.outbox ∧
      exists d, GraphStepOn on cfg (graphOf cfg (Function.update sys node n))
        (Lib.Dataflow.Event.deliver d)
        (graphOf cfg (Function.update sys node n')) := by
  rcases hinv.dropTask hqueue with ⟨⟨hrouter, hmem⟩, hinv1⟩
  rcases ref with ⟨address, c⟩
  change address = n.router.address at hrouter
  subst address
  have hpending := pendingOf_task hqueue
  have hrouting := routingOf_task hqueue
  rcases @process_result env' cfg peer node _ hinv1 c hmem origin inPort
    payload with
      ⟨object, n1, hobject, hrun, hinv', hrouter', hpending', hrouting',
        houtbox'⟩
  rw [hn'] at hrun
  subst n1
  change n.router.objectAt c = some object at hobject
  change n'.router = Node.Router.setComponent n.router c _ at hrouter'
  refine ⟨hinv', houtbox',
    { origin := Node.graphOrigin origin
      dest := c
      inPort := inPort
      content := payload }, (mapped_of_mem h hinv.wired hmem).right,
    graph_deliver h hnode hinv.wired hmem _
      ((object.doProcess env' origin inPort payload).2.map Node.flatten)
      rfl ?_ ?_ ?_ ?_ ?_ ?_⟩
  · rw [hpending, hpending']
    exact Multiset.singleton_add _ _
  · rw [hrouting, hrouting']
    exact congrArg (· + _) (zero_add _).symm
  · intro other hne
    rw [hrouter', Node.Router.objectAt_setComponent, if_neg hne]
  · intro other
    rw [hrouter', Node.Router.emittedAt_setComponent]
  · unfold receivedAt
    rw [hrouter', Node.Router.objectAt_setComponent, if_pos rfl, hobject]
    show (((object.received ++ [_]).map _ : List GraphDelivery) :
      Multiset GraphDelivery) = _
    rw [List.map_append, ← Multiset.coe_add, add_comm]
    rfl
  · rw [hrouter', Node.Router.objectAt_setComponent, if_pos rfl, hobject]
    exact ⟨env', origin, object, henv, rfl, rfl, rfl⟩

theorem sent_doRoute (h : Deployable env cfg)
    (hnode : node ∈ nodeNames cfg) (hinv : NodeInv cfg peer node n)
    {front back : List Node.Task} {address : Nat} {compInst : Option String}
    {outputs : List Components.Output}
    (hqueue : n.service =
      front ++ Node.Task.doRoute address compInst outputs :: back)
    {n' : Protort.Node}
    (hn' : finalState (Node.runTask env'
      (Node.Task.doRoute address compInst outputs)
      { n with service := front ++ back }) = n') :
    NodeInv cfg peer node n' ∧
      (exists effects : List Node.Effect,
        n'.service = effects.foldl Node.serve (front ++ back)) ∧
      exists c sent, GraphStepOn on cfg
        (graphOf cfg (Function.update sys node n))
        (Lib.Dataflow.Event.route c sent)
        (graphOf cfg (Function.update sys node n')) := by
  rcases hinv.dropTask hqueue with ⟨⟨haddress, c, rfl, hmem⟩, hinv1⟩
  subst address
  have hpending := pendingOf_task hqueue
  have hrouting := routingOf_task hqueue
  have hqueue1 : ({ n with service := front ++ back } : Protort.Node).service =
      front ++ back := rfl
  generalize hn1 : ({ n with service := front ++ back } : Protort.Node) = n1
    at hinv1 hpending hrouting hn' hqueue1
  have hrouter : n1.router = n.router := by
    rw [← hn1]
  rw [← hrouter] at hmem hn'
  rw [Node.runTask_doRoute env' (findRouter_current n1), finalState_ok] at hn'
  have hsent := Node.Router.doRoute_sent env' hinv1.started hmem outputs
  generalize n1.router.doRoute env' c outputs = result at hsent hn'
  rw [updateRouter_current hsent.table.address, hsent.effects] at hn'
  subst hn'
  rw [← hqueue1]
  have hinv2 := hinv1.setRouter hsent.table
  have hwired := hinv1.wired
  refine ⟨?_, ⟨_, Node.service_performAll _ _⟩, c, Node.flatten outputs,
    (mapped_of_mem h hinv.wired (hrouter ▸ hmem)).right,
    graph_route h hnode hinv.wired (hrouter ▸ hmem) (Node.flatten outputs)
      ?_ ?_ ?_ ?_ ?_⟩
  · apply hinv2.performAll
    intro effect heffect
    rw [← hsent.table.allEffects] at heffect
    exact effectOk_allEffects h hinv2.wired ((hsent.table.mem c).mpr hmem)
      heffect
  · rw [hrouting, Node.routingOf_performAll, Node.routing_allEffects, add_zero]
    exact Multiset.singleton_add _ _
  · rw [hpending, Node.pendingOf_performAll,
      deliveries_allEffects hwired hmem, ← hrouter]
    exact congrArg (· + _) (zero_add _).symm
  · intro other
    rw [Node.router_performAll, ← hrouter]
    exact hsent.objects other
  · rw [Node.router_performAll, ← hrouter]
    exact (hsent.emitted c).trans (if_pos rfl)
  · intro other hne
    rw [Node.router_performAll, ← hrouter]
    exact (hsent.emitted other).trans (if_neg hne)

theorem generated_performAll (hinv : NodeInv cfg peer node n) {c : String}
    {object : Component} (hmem : c ∈ n.router.components)
    (hobject : n.router.objectAt c = some object)
    (hgen : object.isGenerator = true) (hstarted : object.started = true) :
    exists generated, Component.generate env' object = some generated ∧
      NodeInv cfg peer node (n.performAll
        (Node.generateEffects env' ⟨n.router.address, c⟩ object)) ∧
      pendingOf (n.performAll
        (Node.generateEffects env' ⟨n.router.address, c⟩ object)) =
          pendingOf n ∧
      routingOf (n.performAll
        (Node.generateEffects env' ⟨n.router.address, c⟩ object)) =
          (c, Node.flatten generated) ::ₘ routingOf n := by
  rcases hinv.wired.objects c hmem with ⟨object', hobject', hown, hinst⟩
  rcases Option.some.inj (hobject.symm.trans hobject') with rfl
  have hgenerate : exists generated,
      Component.generate env' object = some generated := by
    unfold Component.generate
    rw [if_pos hstarted]
    exact ⟨_, rfl⟩
  rcases hgenerate with ⟨generated, hgenerated⟩
  have hturn : RefersTo n.router ⟨n.router.address, c⟩ ∧
      IsGeneratorAt n.router c := ⟨⟨rfl, hmem⟩, object, hobject, hgen⟩
  have hnext : (forall effect,
      effect ∈ Node.generateNext ⟨n.router.address, c⟩ object ->
        EffectOk cfg peer n.router effect) ∧
      ((Node.generateNext ⟨n.router.address, c⟩ object).map
        Node.effectDeliveries).sum = 0 ∧
      ((Node.generateNext ⟨n.router.address, c⟩ object).map
        Node.effectOutputs).sum = 0 := by
    unfold Node.generateNext
    by_cases htimed : object.kind = Protocol.ComponentKind.timedGenerator
    · rw [htimed]
      refine ⟨?_, rfl, rfl⟩
      intro effect heffect
      rcases List.mem_cons.mp heffect with rfl | hwait
      · trivial
      · rcases List.mem_singleton.mp hwait with rfl
        exact hturn
    · cases hkind : object.kind with
      | timedGenerator => exact absurd hkind htimed
      | _ =>
          refine ⟨?_, rfl, rfl⟩
          intro effect heffect
          rcases List.mem_singleton.mp heffect with rfl
          exact hturn
  refine ⟨generated, hgenerated, ?_, ?_, ?_⟩
  · apply hinv.performAll
    intro effect heffect
    unfold Node.generateEffects at heffect
    rw [hgenerated] at heffect
    rcases List.mem_cons.mp heffect with rfl | hrest
    · exact ⟨hown, c, hinst, hmem⟩
    · exact hnext.left effect hrest
  · rw [Node.pendingOf_performAll]
    unfold Node.generateEffects
    rw [hgenerated]
    simp only [List.map_cons, List.sum_cons, hnext.right.left, add_zero]
    exact add_zero _
  · rw [Node.routingOf_performAll]
    unfold Node.generateEffects
    rw [hgenerated]
    simp only [List.map_cons, List.sum_cons, hnext.right.right, add_zero]
    rw [hinst, add_comm]
    exact Multiset.singleton_add _ _

theorem handled_turn {turn : Platform} (hturn : on turn)
    (h : Deployable env cfg)
    (hnode : node ∈ nodeNames cfg) (hinv : NodeInv cfg peer node n)
    {n1 : Protort.Node} (hinv1 : NodeInv cfg peer node n1) {c : String}
    (hmem : c ∈ n.router.components) (hgen : IsGeneratorAt n.router c)
    (hrouter : n1.router = n.router) (hpending : pendingOf n = pendingOf n1)
    (hrouting : routingOf n = routingOf n1) {n' : Protort.Node}
    (hrun : forall object, n.router.objectAt c = some object ->
      n' = n1.performAll
        (Node.generateEffects turn ⟨n.router.address, c⟩ object)) :
    HandledOn on cfg peer sys node n n' := by
  rcases hgen with ⟨object, hobject, hgen⟩
  rw [hrun object hobject]
  by_cases hstarted : object.started = true
  · have hobject1 : n1.router.objectAt c = some object := by
      rw [hrouter, hobject]
    have hmem1 : c ∈ n1.router.components := by
      rw [hrouter]
      exact hmem
    rcases @generated_performAll turn cfg peer node n1 hinv1 c object hmem1
      hobject1 hgen hstarted with
        ⟨generated, hgenerated, hinv', hpending', hrouting'⟩
    rw [hrouter] at hinv' hpending' hrouting'
    refine ⟨hinv', Reaches.single (a := Lib.Dataflow.Event.act c)
      ⟨(mapped_of_mem h hinv.wired hmem).right,
        graph_act h hnode hinv.wired hmem (Node.flatten generated)
          ?_ ?_ ?_ ?_ ?_ ?_⟩⟩
    · rw [hpending', hpending]
    · rw [hrouting', hrouting]
    · intro other _
      rw [Node.router_performAll, hrouter]
    · intro other
      rw [Node.router_performAll, hrouter]
    · rw [Node.router_performAll, hrouter]
    · rw [Node.router_performAll, hrouter, hobject]
      have hsame : { object with started := true } = object := by
        rw [← hstarted]
      exact ⟨turn, object, generated, hturn, hgen, rfl, by rw [hsame]; rfl,
        by rw [hsame]; exact hgenerated, rfl⟩
  · have hnone : Node.generateEffects turn ⟨n.router.address, c⟩ object =
        [] := by
      unfold Node.generateEffects Component.generate
      rw [if_neg hstarted]
    rw [hnone]
    constructor
    · exact hinv1
    have hsame := @graphOf_same cfg sys node n n1 hnode h.nodeNames
      (fun _ => by rw [hrouter]) (fun _ => by rw [hrouter]) hpending.symm
      hrouting.symm
    show Reaches _ _ (graphOf cfg (Function.update sys node n1))
    rw [hsame]
    exact Reaches.refl _

theorem handledOn_run (henv : on env') (h : Deployable env cfg)
    (hnode : node ∈ nodeNames cfg)
    (hinv : NodeInv cfg peer node n) {front back : List Node.Task}
    {task : Node.Task} (hqueue : n.service = front ++ task :: back) :
    HandledOn on cfg peer sys node n (finalState (Node.runTask env' task
      { n with service := front ++ back })) := by
  cases task with
  | doProcess ref origin inPort payload =>
      rcases delivered_doProcess henv h hnode hinv hqueue rfl with
        ⟨hinv', _, _, hstep⟩
      exact ⟨hinv', Reaches.single hstep⟩
  | doRoute address compInst outputs =>
      rcases sent_doRoute h hnode hinv hqueue rfl with
        ⟨hinv', _, _, _, hstep⟩
      exact ⟨hinv', Reaches.single hstep⟩
  | generate ref =>
      rcases hinv.dropTask hqueue with ⟨⟨⟨hrouter, hmem⟩, hgen⟩, hinv1⟩
      rcases ref with ⟨address, c⟩
      change address = n.router.address at hrouter
      subst address
      refine handled_turn henv h hnode hinv hinv1 hmem hgen rfl
        ((pendingOf_task hqueue).trans (zero_add _))
        ((routingOf_task hqueue).trans (zero_add _)) ?_
      intro object hobject
      have hfind : ({ n with service := front ++ back } :
          Protort.Node).findComponent ⟨n.router.address, c⟩ = some object :=
        Node.findComponent_current hobject
      rw [Node.runTask_generate env' hfind, finalState_ok]
  | timerWait ref cancelled =>
      rcases hinv.dropTask hqueue with ⟨⟨⟨hrouter, hmem⟩, hgen⟩, hinv1⟩
      rcases ref with ⟨address, c⟩
      change address = n.router.address at hrouter
      subst address
      refine handled_turn henv h hnode hinv hinv1 hmem hgen rfl
        ((pendingOf_task hqueue).trans (zero_add _))
        ((routingOf_task hqueue).trans (zero_add _)) ?_
      intro object hobject
      have hfind : ({ n with service := front ++ back } :
          Protort.Node).findComponent ⟨n.router.address, c⟩ = some object :=
        Node.findComponent_current hobject
      rw [Node.runTask_timerWait env' hfind, finalState_ok]

/-!
## Starting
-/

theorem handled_startComponent (henv : on env') (h : Deployable env cfg)
    (hnode : node ∈ nodeNames cfg) (hinv : NodeInv cfg peer node n)
    (c : String) :
    HandledOn on cfg peer sys node n (finalState
      (Node.startComponent env' ⟨n.router.address, c⟩ n)) ∧
    (finalState (Node.startComponent env'
      ⟨n.router.address, c⟩ n)).router.address = n.router.address := by
  cases hfind : n.findComponent ⟨n.router.address, c⟩ with
  | none =>
      unfold Node.startComponent
      rw [bind_error (dereference_null hfind)]
      exact ⟨HandledOn.refl hinv, rfl⟩
  | some object =>
      have hobject : n.router.objectAt c = some object := by
        rcases Node.findComponent_eq_some.mp hfind with ⟨r, hr, hobject⟩
        rw [findRouter_current] at hr
        rcases Option.some.inj hr with rfl
        exact hobject
      have hmem := mem_of_objectAt hobject
      unfold Node.startComponent
      rw [bind_ok (dereference_ok hfind)]
      by_cases hgen : object.isGenerator = true
      · rw [if_pos hgen]
        show HandledOn on cfg peer sys node n ((n.updateComponent _ _).performAll
          _) ∧ ((n.updateComponent _ _).performAll _).router.address = _
        rw [Node.updateComponent_current]
        have hview : Node.viewObject { object with started := true } =
            Node.viewObject object := rfl
        have htable := Node.Router.setComponent_sameTable hmem hobject hview
        have hinv1 := hinv.setRouter htable
        have hobject1 : (Node.Router.setComponent n.router c
            { object with started := true }).objectAt c =
              some { object with started := true } := by
          rw [Node.Router.objectAt_setComponent, if_pos rfl]
        rcases @generated_performAll env' cfg peer node _ hinv1 c _
          ((htable.mem c).mpr hmem) hobject1 hgen rfl with
            ⟨generated, hgenerated, hinv', hpending', hrouting'⟩
        refine ⟨⟨hinv', Reaches.single (a := Lib.Dataflow.Event.act c)
          ⟨(mapped_of_mem h hinv.wired hmem).right,
            graph_act h hnode hinv.wired hmem (Node.flatten generated)
              hpending' hrouting' ?_ ?_ ?_ ?_⟩⟩, ?_⟩
        · intro other hne
          rw [Node.router_performAll]
          exact (Node.Router.objectAt_setComponent c _ other).trans
            (if_neg hne)
        · intro other
          rw [Node.router_performAll]
          exact Node.Router.emittedAt_setComponent c _ other
        · rw [Node.router_performAll]
          unfold receivedAt
          simp only [hobject1, hobject]
        · rw [Node.router_performAll]
          show (behaviourOn on).act _ (((Node.Router.setComponent n.router c
            { object with started := true }).objectAt c).map memoryOf) _
          rw [hobject1, hobject]
          exact ⟨env', object, generated, henv, hgen, rfl, rfl, hgenerated, rfl⟩
        · rw [Node.router_performAll]
          rfl
      · rw [if_neg hgen]
        exact ⟨HandledOn.refl hinv, rfl⟩

theorem setStarted_current (hstarted : n.router.started = true) :
    Node.setStarted n.router.address true n = n := by
  unfold Node.setStarted
  rw [findRouter_current]
  show n.updateRouter { n.router with started := true } = n
  have hsame : { n.router with started := true } = n.router := by
    rw [← hstarted]
  rw [hsame, updateRouter_current rfl]

theorem handledOn_start (henv : on env') (h : Deployable env cfg)
    (hnode : node ∈ nodeNames cfg)
    (hinv : NodeInv cfg peer node n) :
    HandledOn on cfg peer sys node n (finalState
      (Node.startRouter env' n.router.address n)) := by
  unfold Node.startRouter
  rw [run_modify_bind, run_get_bind, setStarted_current hinv.started]
  -- one component after the other, each on the router found at the beginning
  have hloop := @within_forM Node.Fault Protort.Node Node.ComponentRef
    (fun n1 n2 => NodeInv cfg peer node n1 ->
      n1.router.address = n.router.address ->
        HandledOn on cfg peer sys node n1 n2 ∧
          n2.router.address = n.router.address)
    (fun _ hn1 haddress => ⟨HandledOn.refl hn1, haddress⟩)
    (fun n1 n2 n3 h12 h23 hn1 haddress => by
      rcases h12 hn1 haddress with ⟨⟨hn2, hreach⟩, haddress2⟩
      rcases h23 hn2 haddress2 with ⟨⟨hn3, hreach'⟩, haddress3⟩
      exact ⟨⟨hn3, Reaches.trans hreach hreach'⟩, haddress3⟩)
    (Node.startComponent env')
    (Node.componentRefs n n.router.address)
    (fun ref href n1 hn1 haddress => by
      unfold Node.componentRefs at href
      rw [findRouter_current] at href
      rcases List.mem_map.mp href with ⟨c, _, rfl⟩
      have hcomponent :=
        @handled_startComponent env env' cfg peer sys node n1 on henv h hnode hn1
          c
      rw [haddress] at hcomponent
      exact hcomponent)
  exact (hloop n hinv rfl).left

/-!
## On any platform
-/

theorem handled_run (h : Deployable env cfg) (hnode : node ∈ nodeNames cfg)
    (hinv : NodeInv cfg peer node n) {front back : List Node.Task}
    {task : Node.Task} (hqueue : n.service = front ++ task :: back) :
    Handled cfg peer sys node n (finalState (Node.runTask env' task
      { n with service := front ++ back })) :=
  (@handledOn_run env env' cfg peer sys node n (fun _ => True) trivial h hnode
    hinv _ _ _ hqueue).handled

theorem handled_start (h : Deployable env cfg) (hnode : node ∈ nodeNames cfg)
    (hinv : NodeInv cfg peer node n) :
    Handled cfg peer sys node n (finalState
      (Node.startRouter env' n.router.address n)) :=
  (@handledOn_start env env' cfg peer sys node n (fun _ => True) trivial h hnode
    hinv).handled

end Handling

end System
end Protort
