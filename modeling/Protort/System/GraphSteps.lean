import Protort.System.Distributed

/-!
# Steps of the graph

A change of one node is a step of the graph when it delivers to one component,
sends the outputs of one component or lets one component act, and is no step at
all when it leaves objects, sent outputs and queues as they are.  The effects of
an output are its wires, local and remote routes together.
-/

namespace Protort
namespace System

open Lib (Bytes)
open Lib.Exceptions
open Lib.Dataflow (fanout fanoutAll queued)
open Terminal (Deployable)
open Node (pendingOf routingOf GraphDelivery)

abbrev GraphStep (cfg : Parser.Configuration) :
    Graph -> Lib.Dataflow.Event String Parser.PortId Bytes -> Graph -> Prop :=
  Lib.Dataflow.Step (wires cfg) behaviour

/-- The steps of declared components on some of the platforms. -/
abbrev GraphStepOn (on : Platform -> Prop) (cfg : Parser.Configuration) :
    Graph -> Lib.Dataflow.Event String Parser.PortId Bytes -> Graph -> Prop :=
  Lib.Dataflow.StepsOf (fun c => c ∈ componentNames cfg)
    (Lib.Dataflow.Step (wires cfg) (behaviourOn on))

theorem GraphStepOn.graphStep {on : Platform -> Prop}
    {cfg : Parser.Configuration} {g g' : Graph}
    {e : Lib.Dataflow.Event String Parser.PortId Bytes}
    (h : GraphStepOn on cfg g e g') : GraphStep cfg g e g' := by
  cases e with
  | deliver d =>
      rcases h with ⟨_, hstep⟩
      cases hstep with
      | deliver d rest hpending hreact =>
          rcases hreact with ⟨env, origin, c, _, hreact⟩
          exact Lib.Dataflow.Step.deliver d rest hpending
            ⟨env, origin, c, trivial, hreact⟩
  | route c outputs =>
      rcases h with ⟨_, hstep⟩
      cases hstep with
      | route c outputs rest hrouting =>
          exact Lib.Dataflow.Step.route c outputs rest hrouting
  | act c =>
      rcases h with ⟨_, hstep⟩
      cases hstep with
      | act c hact =>
          rcases hact with ⟨env, object, generated, _, hact⟩
          exact Lib.Dataflow.Step.act c
            ⟨env, object, generated, trivial, hact⟩

/-!
## Changes of one node and steps of the graph
-/

section Changes

variable {env : Platform} {cfg : Parser.Configuration}
  {peer : Node.Endpoint -> String} {sys : Network} {node : String}
  {n n' : Protort.Node} {c : String}

theorem mapped_of_mem (h : Deployable env cfg) {r : Node.Router}
    (hw : Wired cfg peer node r) (hc : c ∈ r.components) :
    mappedTo cfg c = node ∧ c ∈ componentNames cfg := by
  have hm := (hw.components c).mp hc
  rcases h.mappedComponents _ hm with ⟨comp, hcomp, hname⟩
  exact ⟨mappedTo_eq h hm, List.mem_map.mpr ⟨comp, hcomp, hname⟩⟩

theorem receivedAt_of_objectAt {r r' : Node.Router}
    (h : r'.objectAt c = r.objectAt c) :
    receivedAt r' c = receivedAt r c := by
  unfold receivedAt
  rw [h]

theorem graphOf_same (hnode : node ∈ nodeNames cfg)
    (hnodup : (nodeNames cfg).Nodup)
    (hobjects : forall c, n'.router.objectAt c = n.router.objectAt c)
    (hemitted : forall c, n'.router.emittedAt c = n.router.emittedAt c)
    (hpending : pendingOf n' = pendingOf n)
    (hrouting : routingOf n' = routingOf n) :
    graphOf cfg (Function.update sys node n') =
      graphOf cfg (Function.update sys node n) := by
  rcases pending_update hnodup hnode sys with ⟨restP, hP⟩
  rcases routing_update hnodup hnode sys with ⟨restR, hR⟩
  apply Lib.Dataflow.State.ext_fields
  · intro c
    exact memory_update_congr (fun _ => by rw [hobjects])
  · rw [hP, hP, hpending]
  · rw [hR, hR, hrouting]
  · intro c
    exact emitted_update_congr (fun _ => hemitted c)
  · exact received_update_congr
      (fun c => receivedAt_of_objectAt (hobjects c))

theorem graphOf_pending (hnode : node ∈ nodeNames cfg)
    (hnodup : (nodeNames cfg).Nodup) {d : GraphDelivery}
    (hobjects : forall c, n'.router.objectAt c = n.router.objectAt c)
    (hemitted : forall c, n'.router.emittedAt c = n.router.emittedAt c)
    (hpending : pendingOf n' = d ::ₘ pendingOf n)
    (hrouting : routingOf n' = routingOf n) :
    graphOf cfg (Function.update sys node n') =
      { graphOf cfg (Function.update sys node n) with
        pending :=
          d ::ₘ (graphOf cfg (Function.update sys node n)).pending } := by
  rcases pending_update hnodup hnode sys with ⟨restP, hP⟩
  rcases routing_update hnodup hnode sys with ⟨restR, hR⟩
  apply Lib.Dataflow.State.ext_fields
  · intro c
    exact memory_update_congr (fun _ => by rw [hobjects])
  · rw [hP, hP, hpending, Multiset.cons_add]
  · rw [hR, hrouting, ← hR]
  · intro c
    exact emitted_update_congr (fun _ => hemitted c)
  · exact received_update_congr
      (fun c => receivedAt_of_objectAt (hobjects c))

variable {b : Lib.Dataflow.Behaviour Parser.PortId Bytes (Option Memory)}
  (h : Deployable env cfg) (hnode : node ∈ nodeNames cfg)
  (hw : Wired cfg peer node n.router) (hc : c ∈ n.router.components)

include h hnode hw hc

theorem graph_deliver (d : GraphDelivery)
    (outputs : Option (List (Parser.PortId × Bytes))) (hdest : d.dest = c)
    (hpending : pendingOf n = d ::ₘ pendingOf n')
    (hrouting : routingOf n' = routingOf n + queued c outputs)
    (hobjects : forall other, other ≠ c ->
      n'.router.objectAt other = n.router.objectAt other)
    (hemitted : forall other,
      n'.router.emittedAt other = n.router.emittedAt other)
    (hreceived : receivedAt n'.router c = d ::ₘ receivedAt n.router c)
    (hreact : b.react ((n.router.objectAt c).map memoryOf) d.inPort
      d.content ((n'.router.objectAt c).map memoryOf) outputs) :
    Lib.Dataflow.Step (wires cfg) b (graphOf cfg (Function.update sys node n))
      (Lib.Dataflow.Event.deliver d)
      (graphOf cfg (Function.update sys node n')) := by
  rcases pending_update h.nodeNames hnode sys with ⟨restP, hP⟩
  rcases routing_update h.nodeNames hnode sys with ⟨restR, hR⟩
  have hmapped := mapped_of_mem h hw hc
  subst c
  refine Lib.Dataflow.Step.deliver_of d outputs ?_ ?_ ?_ ?_ ?_ ?_
  · rw [hP, hP, hpending, Multiset.cons_add]
  · rw [memory_update_self hmapped.left, memory_update_self hmapped.left]
    exact hreact
  · intro other hne
    exact memory_update_congr (fun _ => by rw [hobjects other hne])
  · rw [hR, hR, hrouting, add_right_comm]
  · intro other
    exact emitted_update_congr (fun _ => hemitted other)
  · exact received_update_cons h.componentNames hmapped.right hmapped.left
      hreceived (fun other hne => receivedAt_of_objectAt (hobjects other hne))

theorem graph_route (outputs : List (Parser.PortId × Bytes))
    (hrouting : routingOf n = (c, outputs) ::ₘ routingOf n')
    (hpending : pendingOf n' = pendingOf n +
      fanoutAll (wires cfg) c (n.router.emittedAt c).length outputs)
    (hobjects : forall other,
      n'.router.objectAt other = n.router.objectAt other)
    (hself : n'.router.emittedAt c = n.router.emittedAt c ++ outputs)
    (hemitted : forall other, other ≠ c ->
      n'.router.emittedAt other = n.router.emittedAt other) :
    Lib.Dataflow.Step (wires cfg) b (graphOf cfg (Function.update sys node n))
      (Lib.Dataflow.Event.route c outputs)
      (graphOf cfg (Function.update sys node n')) := by
  rcases pending_update h.nodeNames hnode sys with ⟨restP, hP⟩
  rcases routing_update h.nodeNames hnode sys with ⟨restR, hR⟩
  have hmapped := mapped_of_mem h hw hc
  refine Lib.Dataflow.Step.route_of c outputs ?_ ?_ ?_ ?_ ?_ ?_
  · rw [hR, hR, hrouting, Multiset.cons_add]
  · intro other
    exact memory_update_congr (fun _ => by rw [hobjects])
  · rw [hP, hP, hpending, emitted_update_self hmapped.right hmapped.left,
      add_right_comm]
  · rw [emitted_update_self hmapped.right hmapped.left,
      emitted_update_self hmapped.right hmapped.left, hself]
  · intro other hne
    exact emitted_update_congr (fun _ => hemitted other hne)
  · exact received_update_congr
      (fun other => receivedAt_of_objectAt (hobjects other))

theorem graph_act (outputs : List (Parser.PortId × Bytes))
    (hpending : pendingOf n' = pendingOf n)
    (hrouting : routingOf n' = (c, outputs) ::ₘ routingOf n)
    (hobjects : forall other, other ≠ c ->
      n'.router.objectAt other = n.router.objectAt other)
    (hemitted : forall other,
      n'.router.emittedAt other = n.router.emittedAt other)
    (hreceived : receivedAt n'.router c = receivedAt n.router c)
    (hact : b.act ((n.router.objectAt c).map memoryOf)
      ((n'.router.objectAt c).map memoryOf) outputs) :
    Lib.Dataflow.Step (wires cfg) b (graphOf cfg (Function.update sys node n))
      (Lib.Dataflow.Event.act c)
      (graphOf cfg (Function.update sys node n')) := by
  rcases pending_update h.nodeNames hnode sys with ⟨restP, hP⟩
  rcases routing_update h.nodeNames hnode sys with ⟨restR, hR⟩
  have hmapped := mapped_of_mem h hw hc
  refine Lib.Dataflow.Step.act_of c outputs ?_ ?_ ?_ ?_ ?_ ?_
  · rw [memory_update_self hmapped.left, memory_update_self hmapped.left]
    exact hact
  · intro other hne
    exact memory_update_congr (fun _ => by rw [hobjects other hne])
  · rw [hP, hP, hpending]
  · rw [hR, hR, hrouting, Multiset.cons_add]
  · intro other
    exact emitted_update_congr (fun _ => hemitted other)
  · apply received_update_congr
    intro other
    by_cases hother : other = c
    · rw [hother, hreceived]
    · exact receivedAt_of_objectAt (hobjects other hother)

end Changes

/-!
## Routes and wires
-/

/-- The local and the remote routes of an output together are its
connections. -/
theorem routes_add {item : Type} (home : String -> String) (node : String)
    (conns : List Parser.Connection) (c : String) (port : Parser.PortId)
    (k : Parser.PortId -> String -> item) :
    ((Node.localRoutesOf home node conns c port).map
        (fun route => k route.inPort route.component) : Multiset item) +
      ((Node.remoteRoutesOf home node conns c port).map
        (fun target => k target.1 target.2) : List item) =
      ((conns.filter (fun conn => decide (conn.source = c ∧
        conn.sourceOut = port))).map
          (fun conn => k conn.destIn conn.dest) : List item) := by
  induction conns with
  | nil => rfl
  | cons conn rest ih =>
      unfold Node.localRoutesOf Node.remoteRoutesOf at ih ⊢
      by_cases hport : conn.source = c ∧ conn.sourceOut = port
      · rcases hport with ⟨rfl, rfl⟩
        by_cases hhome : home conn.dest = node
        · simp only [List.filter_cons, hhome, and_self, decide_true, if_true,
            not_true_eq_false, and_false, ne_eq, decide_false,
            Bool.false_eq_true, if_false, List.map_cons, ← Multiset.cons_coe,
            Multiset.cons_add]
          exact congrArg _ ih
        · simp only [List.filter_cons, hhome, and_self, decide_true, if_true,
            not_false_eq_true, and_false, ne_eq, decide_false,
            Bool.false_eq_true, if_false, List.map_cons, ← Multiset.cons_coe,
            Multiset.add_cons]
          exact congrArg _ ih
      · have hlocal : ¬ (conn.source = c ∧ conn.sourceOut = port ∧
            home conn.dest = node) :=
          fun heq => hport ⟨heq.left, heq.right.left⟩
        have hremote : ¬ (conn.source = c ∧ conn.sourceOut = port ∧
            home conn.dest ≠ node) :=
          fun heq => hport ⟨heq.left, heq.right.left⟩
        rw [List.filter_cons_of_neg (by simpa using hlocal),
          List.filter_cons_of_neg (by simpa using hremote),
          List.filter_cons_of_neg (by simpa using hport)]
        exact ih

theorem sum_singletons {item other : Type} (f : item -> other)
    (xs : List item) :
    (xs.map (fun x => ({f x} : Multiset other))).sum =
      (xs.map f : List other) := by
  induction xs with
  | nil => rfl
  | cons x rest ih =>
      rw [List.map_cons, List.sum_cons, ih]
      rfl

section Routes

variable {env : Platform} {cfg : Parser.Configuration}
  {peer : Node.Endpoint -> String} {node : String} {r : Node.Router}
  {c : String}

theorem deliveries_outputEffects (hw : Wired cfg peer node r)
    (hc : c ∈ r.components) (index : Nat)
    (output : Parser.PortId × Bytes) :
    ((r.outputEffects c index output).map Node.effectDeliveries).sum =
      fanout (wires cfg) c index output.1 output.2 := by
  have hadd := routes_add (mappedTo cfg) node cfg.connections c output.1
    (fun inPort dest =>
      ({ origin := some (c, index)
         dest := dest
         inPort := inPort
         content := output.2 } : GraphDelivery))
  rw [← hw.localRoutes c hc, ← hw.remoteRoutes c hc, List.map_map] at hadd
  unfold Node.Router.outputEffects
  rw [hw.names c hc, List.map_append, List.sum_append, List.map_map,
    List.map_map]
  unfold fanout wires
  rw [List.filter_map, List.map_map]
  refine Eq.trans ?_ hadd
  rw [← sum_singletons, ← sum_singletons]
  rfl

theorem deliveries_allEffects (hw : Wired cfg peer node r)
    (hc : c ∈ r.components) (index : Nat)
    (outputs : List (Parser.PortId × Bytes)) :
    ((r.allEffects c index outputs).map Node.effectDeliveries).sum =
      fanoutAll (wires cfg) c index outputs := by
  induction outputs generalizing index with
  | nil => rfl
  | cons output rest ih =>
      unfold Node.Router.allEffects fanoutAll
      rw [List.map_append, List.sum_append, ih (index + 1),
        deliveries_outputEffects hw hc]

theorem effectOk_allEffects (h : Deployable env cfg)
    (hw : Wired cfg peer node r) (hc : c ∈ r.components) {index : Nat}
    {outputs : List (Parser.PortId × Bytes)} {effect : Node.Effect}
    (heffect : effect ∈ r.allEffects c index outputs) :
    EffectOk cfg peer r effect := by
  induction outputs generalizing index with
  | nil => cases heffect
  | cons output rest ih =>
      unfold Node.Router.allEffects at heffect
      rcases List.mem_append.mp heffect with hhead | htail
      · unfold Node.Router.outputEffects at hhead
        rcases List.mem_append.mp hhead with hlocal | hremote
        · rcases List.mem_map.mp hlocal with ⟨route, hroute, rfl⟩
          rw [hw.localRoutes c hc] at hroute
          rcases List.mem_map.mp hroute with ⟨conn, hconn, rfl⟩
          rcases List.mem_filter.mp hconn with ⟨hmem, hfilter⟩
          have hhome := (of_decide_eq_true hfilter).right.right
          rcases h.destinations conn hmem with ⟨comp, hcomp, hname⟩
          have hplaced := (mem_placedComponents_iff h hcomp).mpr
            (hname ▸ hhome)
          rw [hname] at hplaced
          exact ⟨rfl, (hw.components conn.dest).mpr
            (Deployable.mem_placedComponents.mp hplaced)⟩
        · rcases List.mem_map.mp hremote with ⟨route, hroute, rfl⟩
          constructor
          · exact hw.peers c hc _ route hroute
          have htarget : route.target ∈ Node.remoteRoutesOf (mappedTo cfg)
              node cfg.connections c output.1 := by
            rw [← hw.remoteRoutes c hc]
            exact List.mem_map_of_mem hroute
          rcases List.mem_map.mp htarget with ⟨conn, hconn, heq⟩
          have hmem := (List.mem_filter.mp hconn).left
          rcases h.destinations conn hmem with ⟨comp, hcomp, hname⟩
          have hdest : conn.dest = route.name := congrArg Prod.snd heq
          exact List.mem_map.mpr ⟨comp, hcomp, hname.trans hdest⟩
      · exact ih htail

end Routes

end System
end Protort
