import Protort.System.Results

/-!
# Draining a system

The steps of a system, each by the place of the task or the message it takes.
When the generators are left alone, the packets that are queued or on the way
come to their ends, in every order after a bounded number of steps, and all
orders end with the same results.
-/

namespace Protort
namespace System

open Lib (Bytes ByteOrder Run Steps Guarded)
open Lib.Exceptions
open Lib.Dataflow (Terminates Meant expected)
open Terminal (Deployable)
open Components (Data)
open Node (GraphDelivery)

/-!
## What draining leaves to do
-/

def Carrying (on : Platform -> Prop) (sys : Network)
    (event : Platform × Choice) : Prop :=
  on event.1 ∧
    match event.2 with
    | Choice.run node index =>
        ((sys node).service[index]?).all (fun task => !isTurn task) = true
    | Choice.deliver _ _ => True
    | Choice.start _ => False

def queuedOf (n : Protort.Node) : Multiset GraphDelivery :=
  (n.service.map Node.taskDeliveries).sum

def queuedIn (cfg : Parser.Configuration) (sys : Network) :
    Multiset GraphDelivery :=
  ((nodeNames cfg).map (fun node => queuedOf (sys node))).sum

section Queues

variable {cfg : Parser.Configuration} {sys : Network} {node : String}

def sentIn (cfg : Parser.Configuration) (sys : Network) :
    Multiset GraphDelivery :=
  ((nodeNames cfg).map (fun node =>
    ((sys node).outbox.map Node.outgoingDelivery :
      Multiset GraphDelivery))).sum

theorem pending_eq (cfg : Parser.Configuration) (sys : Network) :
    (graphOf cfg sys).pending = queuedIn cfg sys + sentIn cfg sys :=
  List.sum_map_add

theorem sentIn_congr {sys' : Network}
    (h : forall other, (sys' other).outbox = (sys other).outbox) :
    sentIn cfg sys' = sentIn cfg sys := by
  unfold sentIn
  simp only [h]

theorem queued_update (hnodup : (nodeNames cfg).Nodup)
    (hnode : node ∈ nodeNames cfg) (sys : Network) :
    exists rest, forall n, queuedIn cfg (Function.update sys node n) =
      queuedOf n + rest := by
  rcases sum_split hnodup hnode (fun other => queuedOf (sys other)) with
    ⟨rest, hrest⟩
  refine ⟨rest, fun n => ?_⟩
  have h := hrest (fun other => queuedOf (Function.update sys node n other))
    (fun other _ hne => by rw [Function.update_of_ne hne])
  rw [Function.update_self] at h
  exact h

theorem queuedIn_le (cfg : Parser.Configuration) (sys : Network) :
    (queuedIn cfg sys).card <= (graphOf cfg sys).pending.card := by
  rw [pending_eq, Multiset.card_add]
  exact Nat.le_add_right _ _

theorem queued_serve (effects : List Node.Effect) (service : List Node.Task) :
    (service.map Node.taskDeliveries).sum.card <=
      ((effects.foldl Node.serve service).map
        Node.taskDeliveries).sum.card := by
  induction effects generalizing service with
  | nil => exact Nat.le_refl _
  | cons effect rest ih =>
      refine Nat.le_trans ?_ (ih (Node.serve service effect))
      cases effect with
      | post task =>
          show _ <= ((service ++ [task]).map Node.taskDeliveries).sum.card
          rw [List.map_append, List.sum_append, Multiset.card_add]
          exact Nat.le_add_right _ _
      | cancelWaits ref =>
          show _ <= ((service.map (Node.cancelWait ref)).map
            Node.taskDeliveries).sum.card
          rw [List.map_map]
          have hsame : Node.taskDeliveries ∘ Node.cancelWait ref =
              Node.taskDeliveries :=
            funext (fun task => Node.taskDeliveries_cancelWait ref task)
          rw [hsame]
      | send client origin payload => exact Nat.le_refl _

end Queues

inductive Drained (on : Platform -> Prop) (cfg : Parser.Configuration)
    (sys sys' : Network) : Prop where
  | processed {d : GraphDelivery} :
      GraphStepOn on cfg (graphOf cfg sys) (Lib.Dataflow.Event.deliver d)
        (graphOf cfg sys') ->
      (queuedIn cfg sys').card + 1 = (queuedIn cfg sys).card ->
      Drained on cfg sys sys'
  | routed {c : String} {outputs : List (Parser.PortId × Bytes)} :
      GraphStepOn on cfg (graphOf cfg sys)
        (Lib.Dataflow.Event.route c outputs) (graphOf cfg sys') ->
      (queuedIn cfg sys).card <= (queuedIn cfg sys').card ->
      Drained on cfg sys sys'
  | arrived :
      graphOf cfg sys' = graphOf cfg sys ->
      (queuedIn cfg sys').card = (queuedIn cfg sys).card + 1 ->
      Drained on cfg sys sys'

section Steps

variable {on : Platform -> Prop} {env env' : Platform}
  {cfg : Parser.Configuration} {peer : Node.Endpoint -> String}
  {sys : Network} {node : String}

theorem drained_doProcess (henv : on env') (h : Deployable env cfg)
    (hnode : node ∈ nodeNames cfg) (hinv : NodeInv cfg peer node (sys node))
    {front back : List Node.Task} {ref : Node.ComponentRef}
    {origin : Option Components.Origin} {inPort : Parser.PortId}
    {payload : Bytes}
    (hqueue : (sys node).service =
      front ++ Node.Task.doProcess ref origin inPort payload :: back) :
    Drained on cfg sys (Function.update sys node (finalState
      (Node.runTask env' (Node.Task.doProcess ref origin inPort payload)
        { sys node with service := front ++ back }))) := by
  rcases @delivered_doProcess env env' cfg peer sys node _ on henv h hnode hinv
    _ _ _ _ _ _ hqueue _ rfl with ⟨_, houtbox, d, hstep⟩
  rw [Function.update_eq_self] at hstep
  refine Drained.processed hstep ?_
  generalize finalState _ = n' at houtbox hstep ⊢
  have hsent : sentIn cfg (Function.update sys node n') = sentIn cfg sys := by
    apply sentIn_congr
    intro other
    by_cases hother : other = node
    · subst other
      rw [Function.update_self]
      exact houtbox
    · rw [Function.update_of_ne hother]
  have hafter := congrArg Multiset.card
    (pending_eq cfg (Function.update sys node n'))
  have hbefore := congrArg Multiset.card (pending_eq cfg sys)
  rcases hstep with ⟨_, hdeliver⟩
  generalize graphOf cfg (Function.update sys node n') = g' at hdeliver hafter
  cases hdeliver with
  | deliver d rest hpending hreact =>
      rw [hpending, Multiset.card_cons, Multiset.card_add] at hbefore
      rw [hsent, Multiset.card_add] at hafter
      simp only at hafter
      omega

theorem drained_doRoute (h : Deployable env cfg)
    (hnode : node ∈ nodeNames cfg) (hinv : NodeInv cfg peer node (sys node))
    {front back : List Node.Task} {address : Nat} {compInst : Option String}
    {outputs : List Components.Output}
    (hqueue : (sys node).service =
      front ++ Node.Task.doRoute address compInst outputs :: back) :
    Drained on cfg sys (Function.update sys node (finalState
      (Node.runTask env' (Node.Task.doRoute address compInst outputs)
        { sys node with service := front ++ back }))) := by
  rcases @sent_doRoute env env' cfg peer sys node _ on h hnode hinv _ _ _ _ _
    hqueue _ rfl with ⟨_, ⟨effects, hservice⟩, c, sent, hstep⟩
  rw [Function.update_eq_self] at hstep
  refine Drained.routed hstep ?_
  rcases queued_update h.nodeNames hnode sys with ⟨rest, hrest⟩
  have hsame := hrest (sys node)
  rw [Function.update_eq_self] at hsame
  have hless := queued_serve effects (front ++ back)
  rw [← hservice] at hless
  rw [hsame, hrest, Multiset.card_add, Multiset.card_add]
  apply Nat.add_le_add_right
  refine Nat.le_trans ?_ hless
  unfold queuedOf
  rw [hqueue, List.map_append, List.map_cons, List.sum_append, List.sum_cons,
    List.map_append, List.sum_append]
  have hnone : Node.taskDeliveries
      (Node.Task.doRoute address compInst outputs) = 0 := rfl
  rw [hnone, zero_add]

theorem drained_deliver (h : Deployable env cfg)
    (hinv : NetworkInv cfg peer sys) (hnode : node ∈ nodeNames cfg)
    {front back : List Node.Outgoing} {m : Node.Outgoing}
    (houtbox : (sys node).outbox = front ++ m :: back) :
    Drained on cfg sys
      (Function.update (withoutMessage sys node (front ++ back))
        (peer m.client.endpoint)
        (finalState (Node.onNewMessage env' (some m.origin) m.payload
          (withoutMessage sys node (front ++ back)
            (peer m.client.endpoint))))) := by
  refine Drained.arrived (@handled_deliver env env' cfg peer sys node h hinv
    hnode _ _ _ houtbox _ rfl).right ?_
  rcases (hinv node hnode).dropMessage houtbox with ⟨⟨hpeer, hdest⟩, hnode1⟩
  rcases receiver_mapped h hdest with ⟨htonode, hmapping⟩
  generalize hsys1 : withoutMessage sys node (front ++ back) = sys1
  have hinv1 : NetworkInv cfg peer sys1 := by
    rw [← hsys1]
    exact hinv.update hnode1
  have hqueued1 : queuedIn cfg sys1 = queuedIn cfg sys := by
    rw [← hsys1]
    unfold queuedIn queuedOf withoutMessage
    congr 1
    apply List.map_congr_left
    intro other _
    by_cases hother : other = node
    · subst other
      rw [Function.update_self]
    · rw [Function.update_of_ne hother]
  rw [hpeer]
  generalize mappedTo cfg
    m.payload.asCommunicationPacket.destination.name = target at *
  have hreceiver := hinv1 target htonode
  have hmem := (hreceiver.wired.components _).mpr hmapping
  have hrun := @run_onNewMessage env' (sys1 target) hreceiver.started
    (some m.origin) m.payload hmem
  rcases queued_update h.nodeNames htonode sys1 with ⟨rest, hrest⟩
  have hsame := hrest (sys1 target)
  rw [Function.update_eq_self] at hsame
  rw [← hqueued1, hsame, hrest, hrun, Multiset.card_add, Multiset.card_add]
  have hposted : forall (n : Protort.Node) (task : Node.Task),
      queuedOf (n.perform (Node.Effect.post task)) =
        queuedOf n + Node.taskDeliveries task := by
    intro n task
    show ((n.service ++ [task]).map Node.taskDeliveries).sum = _
    rw [List.map_append, List.sum_append, List.map_singleton,
      List.sum_singleton]
    rfl
  rw [hposted, Multiset.card_add]
  show _ + 1 + _ = _ + _ + 1
  rw [Nat.add_right_comm]
  rfl

theorem drained_of_choose (h : Deployable env cfg)
    (hinv : NetworkInv cfg peer sys) {event : Platform × Choice}
    (hcarry : Carrying on sys event) {sys' : Network}
    (hchoose : choose cfg peer sys event = some sys') :
    Drained on cfg sys sys' := by
  rcases event with ⟨turn, choice⟩
  rcases hcarry with ⟨hon, hcarry⟩
  rcases Option.ite_none_right_eq_some.mp hchoose with ⟨hnode, hchoose⟩
  cases choice with
  | run node index =>
      rcases Option.map_eq_some_iff.mp hchoose with ⟨task, htask, rfl⟩
      rcases split_of_getElem htask with ⟨front, back, hqueue, hrest⟩
      simp only [hrest]
      have hturn : isTurn task = false := by
        simp only [htask] at hcarry
        simpa using hcarry
      cases task with
      | doProcess ref origin inPort payload =>
          exact drained_doProcess hon h hnode (hinv _ hnode) hqueue
      | doRoute address compInst outputs =>
          exact drained_doRoute h hnode (hinv _ hnode) hqueue
      | generate ref => cases hturn
      | timerWait ref cancelled => cases hturn
  | deliver node index =>
      rcases Option.map_eq_some_iff.mp hchoose with ⟨m, hm, rfl⟩
      rcases split_of_getElem hm with ⟨front, back, hqueue, hrest⟩
      simp only [hrest]
      exact drained_deliver h hinv hnode hqueue
  | start node => exact hcarry.elim

end Steps

/-!
## Draining to the end
-/

section Drains

variable {env : Platform} {cfg : Parser.Configuration}
  {peer : Node.Endpoint -> String} {order : ByteOrder}
  {scale : UInt32 -> UInt32} {start sys sys' : Network}

structure Draining (order : ByteOrder) (scale : UInt32 -> UInt32)
    (cfg : Parser.Configuration) (peer : Node.Endpoint -> String)
    (sys : Network) : Prop where
  nodes : NetworkInv cfg peer sys
  meant : Meant (meaning order scale cfg) (fun c => c ∈ componentNames cfg)
    (graphOf cfg sys)

/-- All that is received in the end when the generators are left alone. -/
noncomputable def total (order : ByteOrder) (hacyclic : Acyclic cfg)
    (scale : UInt32 -> UInt32) (sys : Network) :
    Multiset (String × Parser.PortId × Data) :=
  @expected String Parser.PortId Bytes (Option Memory) Data
    (meaning order scale cfg) _ _ (wires cfg) (hacyclic.ends scale) ∅
    (graphOf cfg sys)

/-- The deliveries that are to come, and the outputs and messages to be handled
before them. -/
noncomputable def work (order : ByteOrder) (hacyclic : Acyclic cfg)
    (scale : UInt32 -> UInt32) (sys : Network) : Nat :=
  let left := (total order hacyclic scale sys).card -
    (graphOf cfg sys).received.card
  2 * left + (graphOf cfg sys).routing.card +
    (left - (queuedIn cfg sys).card)

theorem card_le_total (hacyclic : Acyclic cfg) (sys : Network) :
    (graphOf cfg sys).received.card + (graphOf cfg sys).pending.card <=
      (total order hacyclic scale sys).card :=
  Lib.Dataflow.card_le_expected _ (graphOf cfg sys)

/-- A step of draining keeps the total and takes some work. -/
theorem Draining.step (hacyclic : Acyclic cfg) (h : Deployable env cfg)
    (hsys : Draining order scale cfg peer sys) {event : Platform × Choice}
    (hcarry : Carrying (Alike order scale) sys event)
    (hchoose : choose cfg peer sys event = some sys') :
    Draining order scale cfg peer sys' ∧
      total order hacyclic scale sys' = total order hacyclic scale sys ∧
      1 + work order hacyclic scale sys' <=
        work order hacyclic scale sys := by
  have hnodes : NetworkInv cfg peer sys' :=
    (step_simulated h (stepOn_of_choose hcarry.left hchoose).step
      hsys.nodes).left
  have hexplains := meaning_explains order scale cfg
  have hends : Terminates (wires cfg) (meaning order scale cfg).makes :=
    hacyclic.ends scale
  have hgraph : forall {e}, GraphStepOn (Alike order scale) cfg
      (graphOf cfg sys) e (graphOf cfg sys') ->
      (forall c, e ≠ Lib.Dataflow.Event.act c) ->
        Draining order scale cfg peer sys' ∧
          total order hacyclic scale sys' =
            total order hacyclic scale sys := by
    intro e hstep he
    exact ⟨⟨hnodes, hsys.meant.step hexplains hstep⟩,
      Lib.Dataflow.expected_kept hends hsys.meant hexplains hstep he⟩
  have hbefore := @card_le_total cfg order scale hacyclic sys
  have hafter := @card_le_total cfg order scale hacyclic sys'
  have hqueued := queuedIn_le cfg sys
  have hqueued' := queuedIn_le cfg sys'
  cases drained_of_choose h hsys.nodes hcarry hchoose with
  | @processed d hstep hless =>
      rcases hgraph hstep (fun _ => nofun) with ⟨hsys', htotal⟩
      refine ⟨hsys', htotal, ?_⟩
      rw [htotal] at hafter
      unfold work
      rw [htotal]
      rcases hstep with ⟨_, hdeliver⟩
      generalize graphOf cfg sys' = g' at hdeliver hafter hqueued' ⊢
      cases hdeliver with
      | @deliver l outputs d rest hpending hreact =>
          have hone : (Lib.Dataflow.queued d.dest outputs).card <= 1 := by
            cases outputs with
            | none => exact Nat.zero_le 1
            | some outputs => exact Nat.le_refl 1
          rw [hpending, Multiset.card_cons] at hbefore hqueued
          simp only [Multiset.card_cons, Multiset.card_add]
            at hafter hqueued' ⊢
          omega
  | @routed c outputs hstep hmore =>
      rcases hgraph hstep (fun _ => nofun) with ⟨hsys', htotal⟩
      refine ⟨hsys', htotal, ?_⟩
      unfold work
      rw [htotal]
      rcases hstep with ⟨_, hroute⟩
      generalize graphOf cfg sys' = g' at hroute ⊢
      cases hroute with
      | route c outputs rest hrouting =>
          rw [hrouting, Multiset.card_cons]
          simp only
          omega
  | arrived hsame hmore =>
      have htotal : total order hacyclic scale sys' =
          total order hacyclic scale sys := by
        unfold total
        rw [hsame]
      refine ⟨⟨hnodes, hsame ▸ hsys.meant⟩, htotal, ?_⟩
      rw [hsame, htotal] at hafter
      unfold work
      rw [htotal, hsame]
      rw [hsame] at hqueued'
      simp only
      omega

theorem atRest_of_stuck
    (h : forall event, Carrying (Alike order scale) sys event ->
      choose cfg peer sys event = none) : AtRest cfg sys := by
  have halike : exists alike, Alike order scale alike :=
    ⟨{ reader order with timesHundred := scale }, rfl, rfl⟩
  rcases halike with ⟨alike, halike⟩
  intro node hnode
  constructor
  · intro task htask
    by_contra hturn
    rcases List.mem_iff_getElem?.mp htask with ⟨index, hindex⟩
    have hnone := h (alike, Choice.run node index)
      ⟨halike, by simp [hindex, hturn]⟩
    have htaken := Option.map_eq_none_iff.mp ((if_pos hnode).symm.trans hnone)
    rw [hindex] at htaken
    cases htaken
  · by_contra hne
    rcases List.exists_mem_of_ne_nil _ hne with ⟨m, hm⟩
    rcases List.mem_iff_getElem?.mp hm with ⟨index, hindex⟩
    have hnone := h (alike, Choice.deliver node index) ⟨halike, trivial⟩
    have htaken := Option.map_eq_none_iff.mp ((if_pos hnode).symm.trans hnone)
    rw [hindex] at htaken
    cases htaken

/-- In every state that an application without circles reaches: when the
generators are left alone, the packets that are queued or on the way can only be
moved so many times, and when none can be moved any more the system is at rest
and has received the same in every order. -/
theorem draining_confluent (h : Deployable env cfg)
    (hpeer : PeersOf env cfg peer) (hacyclic : Acyclic cfg)
    (hstart : JustStarted env cfg start) {moves : List Move}
    (hreached : Run (StepOn (Alike order scale) cfg peer) start moves sys) :
    exists bound results, forall events sys',
      Run (Guarded (Carrying (Alike order scale)) (Steps (choose cfg peer))) sys
        events sys' ->
      events.length <= bound ∧ heard order cfg sys' <= results ∧
        ((forall event, Carrying (Alike order scale) sys' event ->
            choose cfg peer sys' event = none) ->
          AtRest cfg sys' ∧ heard order cfg sys' = results) := by
  have hends : Terminates (wires cfg) (meaning order scale cfg).makes :=
    hacyclic.ends scale
  rcases runOn_simulated h hreached (hstart.inv hpeer) with ⟨hnodes, hreach⟩
  have hsys : Draining order scale cfg peer sys :=
    ⟨hnodes, (Lib.Dataflow.expected_of_reaches hends
      (meaning_explains order scale cfg) (hstart.fresh h order scale)
        hreach).left⟩
  refine ⟨work order hacyclic scale sys, total order hacyclic scale sys, ?_⟩
  intro events sys' hrun
  have hbound := @Run.cost_le _ _ _ (Draining order scale cfg peer) _ _ _ hrun
    (fun _ => 1) (fun _ => 0) (work order hacyclic scale)
    (fun hstep hs => (hs.step hacyclic h hstep.left hstep.right).left)
    (fun hstep hs => (hs.step hacyclic h hstep.left hstep.right).right.right.trans
      (Nat.le_add_left _ _)) hsys
  have hkept : Draining order scale cfg peer sys' ∧
      total order hacyclic scale sys' = total order hacyclic scale sys := by
    refine @Run.invariant _ _ _ (fun s => Draining order scale cfg peer s ∧
      total order hacyclic scale s = total order hacyclic scale sys) _ _ _ hrun
        ?_ ⟨hsys, rfl⟩
    intro s event t hstep hs
    rcases hs.left.step hacyclic h hstep.left hstep.right with
      ⟨ht, htotal, _⟩
    exact ⟨ht, htotal.trans hs.right⟩
  have hheard : heard order cfg sys' = (graphOf cfg sys').received.map
      (meaning order scale cfg).arrival := rfl
  refine ⟨?_, ?_, ?_⟩
  · rw [List.map_const', List.map_const', List.sum_replicate_nat,
      List.sum_replicate_nat] at hbound
    omega
  · rw [← hkept.right, hheard]
    unfold total expected
    rw [add_assoc]
    exact Multiset.le_add_right _ _
  · intro hstuck
    have hrest := atRest_of_stuck hstuck
    refine ⟨hrest, ?_⟩
    rw [← hkept.right, hheard]
    unfold total expected Lib.Dataflow.underway
    rw [hrest.graph.left, hrest.graph.right, Multiset.map_zero,
      Multiset.zero_bind, Multiset.filter_zero, Multiset.zero_bind,
      Multiset.zero_bind, add_zero, add_zero]

end Drains

/-!
## Two placements drained
-/

theorem acyclic_spread : Acyclic spread := by
  refine Lib.Walks.acyclic_of_rank
    (fun c => if c = "g" then 0 else if c = "r" then 1 else 2) ?_
  intro c d h
  rcases h with ⟨_, conn, hconn, rfl, rfl⟩
  revert conn
  decide

theorem alike_loopback :
    Alike ByteOrder.little (fun bits => bits) Platform.loopback :=
  ⟨rfl, rfl⟩

instance (cfg : Parser.Configuration) (sys : Network) :
    Decidable (AtRest cfg sys) :=
  inferInstanceAs (Decidable (forall node, node ∈ nodeNames cfg -> _ ∧ _))

theorem followed_run {cfg : Parser.Configuration}
    {events : List (Platform × Choice)} {sys : Network}
    (h : followed cfg events = some sys)
    (hevents : forall event, event ∈ events -> event.1 = Platform.loopback) :
    exists moves, Run (StepOn (Alike ByteOrder.little (fun bits => bits)) cfg
      spreadPeers) (network Platform.loopback cfg) moves sys := by
  refine ⟨_, runOn_of_choose (Run.of_execute h) ?_⟩
  intro event hevent
  rw [hevents event hevent]
  exact alike_loopback

theorem loopback_of_mem {choices : List Choice} (event : Platform × Choice)
    (h : event ∈ onLoopback choices) : event.1 = Platform.loopback := by
  rcases List.mem_map.mp h with ⟨choice, _, rfl⟩
  rfl

theorem results_placement_independent_spread :
    exists sys sys', (heard ByteOrder.little spread sys).card = 3 ∧
      heard ByteOrder.little spread sys =
        heard ByteOrder.little gathered sys' := by
  have hend : (followed spread spreadChoices).bind (fun sys =>
      (followed gathered gatheredChoices).map (fun sys' =>
        ((heard ByteOrder.little spread sys).card,
          decide (AtRest spread sys), decide (AtRest gathered sys'),
          decide (uttered ByteOrder.little spread sys "g" =
            uttered ByteOrder.little gathered sys' "g")))) =
      some (3, true, true, true) := by
    decide +kernel
  rcases Option.bind_eq_some_iff.mp hend with ⟨sys, hsys, hend⟩
  rcases Option.map_eq_some_iff.mp hend with ⟨sys', hsys', hend⟩
  simp only [Prod.mk.injEq, decide_eq_true_eq] at hend
  rcases hend with ⟨hcard, hrest, hrest', huttered⟩
  rcases followed_run hsys loopback_of_mem with ⟨moves, hrun⟩
  rcases followed_run hsys' loopback_of_mem with ⟨moves', hrun'⟩
  have hsources : sources spread = {"g"} := by
    decide
  have hresults := results_placement_independent spread_deployable
    spreadPeers_of_spread acyclic_spread (network_justStarted spread_deployable)
    hrun (rfl : gathered.components = spread.components)
    (rfl : gathered.connections = spread.connections) gathered_deployable
    spreadPeers_of_gathered (network_justStarted gathered_deployable) hrun'
  refine ⟨sys, sys', hcard, hresults.right ?_ hrest hrest'⟩
  intro c hc
  rw [hsources, Finset.mem_singleton] at hc
  rw [hc]
  exact huttered

theorem draining_confluent_spread :
    exists sys bound results, forall events sys',
      Run (Guarded (Carrying (Alike ByteOrder.little (fun bits => bits)))
        (Steps (choose spread spreadPeers))) sys events sys' ->
      events.length <= bound ∧
        heard ByteOrder.little spread sys' <= results ∧
        ((forall event,
            Carrying (Alike ByteOrder.little (fun bits => bits)) sys' event ->
              choose spread spreadPeers sys' event = none) ->
          AtRest spread sys' ∧
            heard ByteOrder.little spread sys' = results) := by
  have hend : ((followed spread (onLoopback [Choice.start "n1"])).map
      (fun sys => (sys "n1").service.length)) = some 2 := by
    decide +kernel
  rcases Option.map_eq_some_iff.mp hend with ⟨sys, hsys, _⟩
  rcases followed_run hsys loopback_of_mem with ⟨moves, hrun⟩
  exact ⟨sys, draining_confluent spread_deployable spreadPeers_of_spread
    acyclic_spread (network_justStarted spread_deployable) hrun⟩

end System
end Protort
