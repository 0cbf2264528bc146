import Protort.Lib.Dropping
import Protort.Node.Handlers

/-!
# Nodes without some of their tasks

A node may be another one without some of its tasks and of the routers that were
replaced, and without what was sent before some moment.  No handler can tell the
two apart.
-/

namespace Protort
namespace Node

open Lib (Dropping)
open Components (Output)

/-- The first node is the second without some tasks with a property, without
what was sent before, and with other routers at addresses that are not live.
Their acceptors are not compared. -/
structure Spares (P : Task -> Prop) (live : Nat -> Bool)
    (before : List Outgoing) (n m : Protort.Node) : Prop where
  router : n.router = m.router
  next : n.next = m.next
  nodeName : n.nodeName = m.nodeName
  port : n.port = m.port
  startTime : n.startTime = m.startTime
  current : live m.router.address = true
  retired : n.retired.filter (fun r => live r.address) =
    m.retired.filter (fun r => live r.address)
  outbox : m.outbox = before ++ n.outbox
  service : Dropping P n.service m.service

section Spares

variable {P : Task -> Prop} {live : Nat -> Bool} {before : List Outgoing}
  {n m k : Protort.Node}

/-- Changing a router that is replaced, in all places where it is. -/
theorem filter_updated (routers : List Router) (r : Router) :
    (routers.map (fun old => if old.address = r.address then r else old)).filter
        (fun r => live r.address) =
      (routers.filter (fun r => live r.address)).map
        (fun old => if old.address = r.address then r else old) := by
  rw [List.filter_map]
  congr 1
  apply List.filter_congr
  intro old _
  show live (if old.address = r.address then r else old).address = _
  by_cases hsame : old.address = r.address
  · rw [if_pos hsame, hsame]
  · rw [if_neg hsame]

theorem Spares.findRouter (h : Spares P live before n m) {address : Nat}
    (hlive : live address = true) :
    n.findRouter address = m.findRouter address := by
  have hfind : forall routers : List Router,
      routers.find? (fun r => decide (r.address = address)) =
        (routers.filter (fun r => live r.address)).find?
          (fun r => decide (r.address = address)) := by
    intro routers
    rw [List.find?_filter]
    congr 1
    funext r
    by_cases haddress : r.address = address
    · simp only [haddress, hlive, decide_true, and_self]
    · simp only [haddress, decide_false, Bool.false_eq_true, and_false]
  unfold Node.findRouter
  rw [h.router, hfind n.retired, h.retired, ← hfind m.retired]

theorem Spares.updateRouter (h : Spares P live before n m) {r : Router}
    (hlive : live r.address = true) :
    Spares P live before (n.updateRouter r) (m.updateRouter r) := by
  unfold Node.updateRouter
  rw [h.router]
  by_cases hcurrent : m.router.address = r.address
  · rw [if_pos hcurrent, if_pos hcurrent]
    exact { h with
      router := rfl
      current := hlive }
  · rw [if_neg hcurrent, if_neg hcurrent]
    exact { h with
      router := rfl
      retired := by
        rw [filter_updated, filter_updated, h.retired] }

theorem Spares.perform (h : Spares P live before n m)
    (hP : forall ref t, P t -> P (cancelWait ref t)) (effect : Effect) :
    Spares P live before (n.perform effect) (m.perform effect) := by
  cases effect with
  | post task =>
      exact { h with
        service := h.service.append (Dropping.refl [task]) }
  | cancelWaits ref =>
      exact { h with
        service := h.service.map (fun t ht => hP ref t ht) }
  | send client origin payload =>
      exact { h with
        outbox := by
          show m.outbox ++ _ = before ++ (n.outbox ++ _)
          rw [h.outbox, List.append_assoc] }

theorem Spares.exchanged (h : Spares P live before n m)
    (hlive : forall address, live address = true ->
      live (address + 1) = true) :
    Spares P live before n.exchanged m.exchanged :=
  { h with
    router := by
      show Router.new (n.router.address + 1) = Router.new (m.router.address + 1)
      rw [h.router]
    current := hlive _ h.current
    retired := by
      show (n.router :: n.retired).filter _ = (m.router :: m.retired).filter _
      rw [List.filter_cons, List.filter_cons, h.retired, h.router] }

theorem spares_congruence (hP : forall ref t, P t -> P (cancelWait ref t))
    (hlive : forall address, live address = true ->
      live (address + 1) = true) :
    Congruence (fun address => live address = true)
      (Spares P live before) :=
  { router := fun h => h.router
    next := fun h => h.next
    nodeName := fun h => h.nodeName
    port := fun h => h.port
    startTime := fun h => h.startTime
    current := fun h => h.router ▸ h.current
    found := fun h haddress => h.findRouter haddress
    routed := fun h haddress => h.updateRouter haddress
    allocated := fun h => { h with next := rfl }
    named := fun h => { h with
      nodeName := rfl
      port := rfl }
    served := fun h => { h with }
    exchanged := fun h => h.exchanged hlive
    performed := fun h => h.perform hP _ }

/-!
## Routers that are not live
-/

theorem Spares.updateRouter_right (h : Spares P live before n m) {r : Router}
    (hdead : live r.address = false) :
    Spares P live before n (m.updateRouter r) := by
  have hne : m.router.address ≠ r.address := by
    intro hsame
    rw [← hsame, h.current] at hdead
    cases hdead
  unfold Node.updateRouter
  rw [if_neg hne]
  exact { h with
    retired := by
      rw [filter_updated, h.retired]
      refine ((List.map_congr_left ?_).trans (List.map_id' _)).symm
      intro old hold
      refine if_neg (fun hsame => ?_)
      have hlive := (List.mem_filter.mp hold).right
      rw [hsame, hdead] at hlive
      cases hlive }

theorem Spares.updateRouter_left (h : Spares P live before n m) {r : Router}
    (hdead : live r.address = false) :
    Spares P live before (n.updateRouter r) m := by
  have hne : n.router.address ≠ r.address := by
    intro hsame
    rw [← hsame, h.router, h.current] at hdead
    cases hdead
  unfold Node.updateRouter
  rw [if_neg hne]
  exact { h with
    retired := by
      rw [filter_updated, h.retired]
      refine (List.map_congr_left ?_).trans (List.map_id' _)
      intro old hold
      refine if_neg (fun hsame => ?_)
      have hlive := (List.mem_filter.mp hold).right
      rw [hsame, hdead] at hlive
      cases hlive }

theorem Spares.updateComponent_right (h : Spares P live before n m)
    {ref : ComponentRef} (hdead : live ref.router = false)
    (c : Components.Component) :
    Spares P live before n (m.updateComponent ref c) := by
  unfold Node.updateComponent
  cases hr : m.findRouter ref.router with
  | none => exact h
  | some r =>
      rw [← address_of_findRouter hr] at hdead
      exact @Spares.updateRouter_right _ _ _ _ _ h
        (Router.setComponent r ref.name c) hdead

theorem Spares.posts_right (h : Spares P live before n m) {task : Task}
    (htask : P task) :
    Spares P live before n (m.perform (Effect.post task)) :=
  { h with
    service := h.service.append_right (fun t ht => by
      rw [List.mem_singleton.mp ht]
      exact htask) }

theorem Spares.cancels_right (h : Spares P live before n m)
    (hP : forall ref t, P t -> P (cancelWait ref t)) {ref : ComponentRef}
    (hother : forall task, task ∈ n.service -> task.router ≠ ref.router) :
    Spares P live before n (m.perform (Effect.cancelWaits ref)) :=
  { h with
    service := h.service.map_right (fun t ht => hP ref t ht) (by
      intro task htask
      have hne := hother task htask
      cases task with
      | timerWait component cancelled =>
          have hcomponent : component ≠ ref := fun heq =>
            hne (congrArg ComponentRef.router heq)
          show Task.timerWait component
            (cancelled || decide (component = ref)) = _
          rw [decide_eq_false hcomponent, Bool.or_false]
      | _ => rfl) }

theorem Spares.stopped_right (h : Spares P live before n m)
    (hP : forall ref t, P t -> P (cancelWait ref t)) {address : Nat}
    (hdead : live address = false)
    (hother : forall task, task ∈ n.service -> task.router ≠ address) :
    Spares P live before n (switchRouter Switch.stop address m) := by
  have hstarted : Spares P live before n (setStarted address false m) := by
    unfold setStarted
    cases hr : m.findRouter address with
    | none => exact h
    | some r =>
        rw [← address_of_findRouter hr] at hdead
        exact @Spares.updateRouter_right _ _ _ _ _ h
          { r with started := false } hdead
  have hflagged : Spares P live before n (Switch.stop.flagged address m) := by
    refine List.foldlRecOn (componentRefs m address) Switch.stop.setFlag
      hstarted ?_
    intro m' hm' ref href
    unfold Switch.setFlag
    cases hc : m'.findComponent ref with
    | none => exact hm'
    | some c =>
        have hrouter := Switch.router_of_mem_componentRefs href
        simp only
        split_ifs
        · exact hm'.updateComponent_right (hrouter ▸ hdead) _
        · exact hm'
  refine List.foldlRecOn (Switch.stop.allEffects address m) Node.perform
    hflagged ?_
  intro m' hm' effect heffect
  rcases Switch.stop_cancels heffect with ⟨ref, rfl, href⟩
  exact hm'.cancels_right hP (href ▸ hother)

end Spares

theorem run_stopped {n : Protort.Node} (hn : Consistent n) {env : Platform}
    {address : Nat} {compInst : Option String} {outputs : List Output}
    (hsound : TaskSound n (Task.doRoute address compInst outputs))
    (hold : address ≠ n.router.address) :
    runTask env (Task.doRoute address compInst outputs) n =
      EStateM.Result.ok PUnit.unit n := by
  rcases hsound with ⟨r, name, hr, rfl, _⟩
  have hstopped := hn.oldStopped address r hold hr
  have hroute : r.doRoute env name outputs = (r, []) := by
    unfold Router.doRoute
    rw [hstopped]
    rfl
  rw [runTask_doRoute env hr, hroute]
  show EStateM.Result.ok PUnit.unit (n.updateRouter r) = _
  congr 1
  have haddress := address_of_findRouter hr
  unfold updateRouter
  rw [if_neg (fun h => hold (haddress.symm.trans h.symm))]
  have hmap : n.retired.map (fun old =>
      if old.address = r.address then r else old) = n.retired := by
    refine (List.map_congr_left ?_).trans (List.map_id' n.retired)
    intro old hmem
    by_cases hsame : old.address = r.address
    · rw [if_pos hsame]
      have hfound := (hn.sound.numbered.findRouter_retired hmem).right
      rw [hsame, haddress, hr] at hfound
      exact Option.some.inj hfound
    · rw [if_neg hsame]
  rw [hmap]

/-!
## Acceptors
-/

theorem server_updateRouter (n : Protort.Node) (r : Router) :
    (n.updateRouter r).server = n.server := by
  unfold updateRouter
  split_ifs <;> rfl

theorem server_updateComponent (n : Protort.Node) (ref : ComponentRef)
    (c : Components.Component) :
    (n.updateComponent ref c).server = n.server := by
  unfold updateComponent
  cases n.findRouter ref.router with
  | none => rfl
  | some r => exact server_updateRouter n _

theorem server_perform (n : Protort.Node) (effect : Effect) :
    (n.perform effect).server = n.server := by
  cases effect with
  | _ => rfl

theorem server_switchRouter (w : Switch) (address : Nat) (n : Protort.Node) :
    (switchRouter w address n).server = n.server := by
  have hflagged : (w.flagged address n).server = n.server := by
    refine @List.foldlRecOn _ _ (fun m : Protort.Node => m.server = n.server)
      (componentRefs n address) w.setFlag _ ?_ ?_
    · unfold setStarted
      cases n.findRouter address with
      | none => rfl
      | some r => exact server_updateRouter n _
    · intro m hm ref _
      unfold Switch.setFlag
      cases m.findComponent ref with
      | none => exact hm
      | some c =>
          simp only
          split_ifs
          · exact (server_updateComponent m ref _).trans hm
          · exact hm
  exact @List.foldlRecOn _ _ (fun m : Protort.Node => m.server = n.server)
    (w.allEffects address n) Node.perform _ hflagged
    (fun m hm effect _ => (server_perform m effect).trans hm)

theorem Congruence.withServer {live : Nat -> Prop}
    {R : Protort.Node -> Protort.Node -> Prop} (hR : Congruence live R) :
    Congruence live (fun n m => R n m ∧ n.server = m.server) :=
  { router := fun h => hR.router h.left
    next := fun h => hR.next h.left
    nodeName := fun h => hR.nodeName h.left
    port := fun h => hR.port h.left
    startTime := fun h => hR.startTime h.left
    current := fun h => hR.current h.left
    found := fun h => hR.found h.left
    routed := fun h haddress => ⟨hR.routed h.left haddress, by
      rw [server_updateRouter, server_updateRouter, h.right]⟩
    allocated := fun h => ⟨hR.allocated h.left, h.right⟩
    named := fun h => ⟨hR.named h.left, h.right⟩
    served := fun h => ⟨hR.served h.left, rfl⟩
    exchanged := fun h => ⟨hR.exchanged h.left, h.right⟩
    performed := fun h => ⟨hR.performed h.left, by
      rw [server_perform, server_perform, h.right]⟩ }

end Node
end Protort
