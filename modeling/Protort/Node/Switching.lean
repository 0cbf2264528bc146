import Protort.Node.Objects

/-!
# Starting and stopping routers

Starting and stopping a router are the same loop over its components: every
generator gets a flag, and then asks for something, a started one for its first
turn and a stopped one to cancel its timer.  The flags and the queue do not
meet, so that the loop can be taken apart into setting all flags and asking for
everything.
-/

namespace Protort
namespace Node

open Lib (Table)
open Lib.Exceptions
open Components (Component)

/-- The flag that generators get, and what each of them asks for then. -/
structure Switch where
  started : Bool
  effects : ComponentRef -> Component -> List Effect

namespace Switch

def start (env : Platform) : Switch :=
  { started := true
    effects := fun ref c => generateEffects env ref { c with started := true } }

def stop : Switch :=
  { started := false
    effects := fun ref c =>
      if c.kind = Protocol.ComponentKind.timedGenerator then
        [Effect.cancelWaits ref]
      else
        [] }

variable (w : Switch)

def switched (c : Component) : Component :=
  if c.isGenerator then { c with started := w.started } else c

def setFlag (n : Protort.Node) (ref : ComponentRef) : Protort.Node :=
  match n.findComponent ref with
  | some c => if c.isGenerator then n.updateComponent ref (w.switched c) else n
  | none => n

def refEffects (n : Protort.Node) (ref : ComponentRef) : List Effect :=
  match n.findComponent ref with
  | some c => if c.isGenerator then w.effects ref c else []
  | none => []

def flagged (address : Nat) (n : Protort.Node) : Protort.Node :=
  (componentRefs n address).foldl w.setFlag (setStarted address w.started n)

def allEffects (address : Nat) (n : Protort.Node) : List Effect :=
  (componentRefs n address).flatMap (w.refEffects n)

/-!
## Flags
-/

variable {w}

theorem switched_switched (c : Component) :
    w.switched (w.switched c) = w.switched c := by
  unfold switched
  by_cases hgen : c.isGenerator = true
  · rw [if_pos hgen]
    exact if_pos hgen
  · rw [if_neg hgen, if_neg hgen]

theorem viewObject_switched (c : Component) :
    viewObject (w.switched c) = viewObject c := by
  unfold switched
  by_cases hgen : c.isGenerator = true
  · rw [if_pos hgen]
    rfl
  · rw [if_neg hgen]

theorem isGenerator_switched (c : Component) :
    (w.switched c).isGenerator = c.isGenerator := by
  unfold switched
  by_cases hgen : c.isGenerator = true
  · rw [if_pos hgen]
    rfl
  · rw [if_neg hgen]

theorem started_switched {c : Component} (hgen : c.isGenerator = true) :
    (w.switched c).started = w.started := by
  unfold switched
  rw [if_pos hgen]

theorem findComponent_setFlag (n : Protort.Node) (ref other : ComponentRef) :
    (w.setFlag n ref).findComponent other =
      if other = ref then (n.findComponent ref).map w.switched
      else n.findComponent other := by
  unfold setFlag
  cases hc : n.findComponent ref with
  | none =>
      by_cases hother : other = ref
      · rw [if_pos hother, hother]
        exact hc
      · rw [if_neg hother]
  | some c =>
      simp only [Option.map_some]
      by_cases hgen : c.isGenerator = true
      · rw [if_pos hgen, findComponent_updateComponent hc]
      · rw [if_neg hgen]
        by_cases hother : other = ref
        · rw [if_pos hother, hother, hc]
          unfold switched
          rw [if_neg hgen]
        · rw [if_neg hother]

theorem findComponent_foldl (refs : List ComponentRef) (n : Protort.Node)
    (other : ComponentRef) :
    (refs.foldl w.setFlag n).findComponent other =
      if other ∈ refs then (n.findComponent other).map w.switched
      else n.findComponent other := by
  induction refs generalizing n with
  | nil =>
      rw [if_neg List.not_mem_nil]
      rfl
  | cons ref rest ih =>
      rw [List.foldl_cons, ih, findComponent_setFlag]
      by_cases hother : other = ref
      · subst other
        rw [if_pos rfl, if_pos List.mem_cons_self, Option.map_map]
        have hidem : w.switched ∘ w.switched = w.switched :=
          funext switched_switched
        rw [hidem, ite_self]
      · rw [if_neg hother]
        by_cases hrest : other ∈ rest
        · rw [if_pos hrest, if_pos (List.mem_cons_of_mem ref hrest)]
        · rw [if_neg hrest, if_neg]
          intro hmem
          rcases List.mem_cons.mp hmem with heq | h
          · exact hother heq
          · exact hrest h

/-!
## Routers while flags are set
-/

structure Flagging (address : Nat) (n n' : Protort.Node) : Prop where
  current : n'.router.address = n.router.address
  addresses : n'.retired.map (fun r => r.address) =
    n.retired.map (fun r => r.address)
  next : n'.next = n.next
  service : n'.service = n.service
  outbox : n'.outbox = n.outbox
  routers : forall other r, n.findRouter other = some r ->
    exists r', n'.findRouter other = some r' ∧ Router.SameTable r r' ∧
      (other ≠ address -> r' = r)

theorem Flagging.refl (address : Nat) (n : Protort.Node) :
    Flagging address n n :=
  { current := rfl
    addresses := rfl
    next := rfl
    service := rfl
    outbox := rfl
    routers := fun _ r hr => ⟨r, hr, Router.SameTable.refl r, fun _ => rfl⟩ }

theorem Flagging.trans {address : Nat} {n n' n'' : Protort.Node}
    (h : Flagging address n n') (h' : Flagging address n' n'') :
    Flagging address n n'' :=
  { current := h'.current.trans h.current
    addresses := h'.addresses.trans h.addresses
    next := h'.next.trans h.next
    service := h'.service.trans h.service
    outbox := h'.outbox.trans h.outbox
    routers := by
      intro other r hr
      rcases h.routers other r hr with ⟨r', hr', htable, hsame⟩
      rcases h'.routers other r' hr' with ⟨r'', hr'', htable', hsame'⟩
      exists r''
      constructor
      · exact hr''
      constructor
      · exact htable.trans htable'
      intro hother
      rw [hsame' hother, hsame hother] }

theorem setFlag_flagging (n : Protort.Node) (ref : ComponentRef) :
    Flagging ref.router n (w.setFlag n ref) := by
  unfold setFlag
  cases hc : n.findComponent ref with
  | none => exact Flagging.refl ref.router n
  | some c =>
      simp only
      by_cases hgen : c.isGenerator = true
      · rw [if_pos hgen]
        rcases findComponent_eq_some.mp hc with ⟨r, hr, hobject⟩
        have htable := Router.setComponent_sameTable (mem_of_objectAt hobject)
          hobject (viewObject_switched (w := w) c)
        have hrouter := address_of_findRouter hr
        have hfind : n.findRouter
            (Router.setComponent r ref.name (w.switched c)).address =
              some r := by
          show n.findRouter r.address = some r
          rw [hrouter]
          exact hr
        have haddresses := addresses_updateRouter n
          (Router.setComponent r ref.name (w.switched c))
        rw [updateComponent_eq hr]
        exact
          { current := haddresses.left
            addresses := haddresses.right
            next := next_updateRouter n _
            service := service_updateRouter n _
            outbox := outbox_updateRouter n _
            routers := by
              intro other old hold
              have hupdated := findRouter_updateRouter hfind other
              change _ = if other = r.address then _ else _ at hupdated
              by_cases hother : other = r.address
              · rw [if_pos hother] at hupdated
                rw [hother, hrouter, hr] at hold
                rcases Option.some.inj hold with rfl
                exact ⟨_, hupdated, htable,
                  fun hne => absurd (hother.trans hrouter) hne⟩
              · rw [if_neg hother] at hupdated
                exact ⟨old, hupdated.trans hold, Router.SameTable.refl old,
                  fun _ => rfl⟩ }
      · rw [if_neg hgen]
        exact Flagging.refl ref.router n

theorem foldl_flagging {address : Nat} {refs : List ComponentRef}
    (hrefs : forall ref, ref ∈ refs -> ref.router = address)
    (n : Protort.Node) : Flagging address n (refs.foldl w.setFlag n) := by
  induction refs generalizing n with
  | nil => exact Flagging.refl address n
  | cons ref rest ih =>
      have hfirst := setFlag_flagging (w := w) n ref
      rw [hrefs ref List.mem_cons_self] at hfirst
      exact hfirst.trans
        (ih (fun r hr => hrefs r (List.mem_cons_of_mem ref hr)) _)

/-!
## The entries of a router
-/

theorem mem_componentRefs {n : Protort.Node} {address : Nat} {r : Router}
    (hr : n.findRouter address = some r) {ref : ComponentRef} :
    ref ∈ componentRefs n address <->
      ref.router = address ∧ ref.name ∈ r.components := by
  unfold componentRefs
  rw [hr]
  show ref ∈ (Table.sortedKeys r.components).map _ <-> _
  rw [List.mem_map]
  unfold Table.sortedKeys
  constructor
  · intro h
    rcases h with ⟨name, hname, rfl⟩
    rw [Finset.mem_sort] at hname
    exact ⟨rfl, Finmap.mem_keys.mp hname⟩
  · intro h
    rcases h with ⟨rfl, hname⟩
    refine ⟨ref.name, ?_, rfl⟩
    rw [Finset.mem_sort]
    exact Finmap.mem_keys.mpr hname

theorem router_of_mem_componentRefs {n : Protort.Node} {address : Nat}
    {ref : ComponentRef} (h : ref ∈ componentRefs n address) :
    ref.router = address := by
  unfold componentRefs at h
  cases hr : n.findRouter address with
  | none =>
      rw [hr] at h
      cases h
  | some r =>
      rw [hr] at h
      rcases List.mem_map.mp h with ⟨name, _, rfl⟩
      rfl

theorem of_mem_allEffects {w : Switch} {n : Protort.Node} {address : Nat}
    {effect : Effect} (h : effect ∈ w.allEffects address n) :
    exists ref c, ref ∈ componentRefs n address ∧
      n.findComponent ref = some c ∧ c.isGenerator = true ∧
      effect ∈ w.effects ref c := by
  rcases List.mem_flatMap.mp h with ⟨ref, href, hmem⟩
  unfold refEffects at hmem
  cases hc : n.findComponent ref with
  | none =>
      rw [hc] at hmem
      cases hmem
  | some c =>
      rw [hc] at hmem
      simp only at hmem
      by_cases hgen : c.isGenerator = true
      · rw [if_pos hgen] at hmem
        exact ⟨ref, c, href, hc, hgen, hmem⟩
      · rw [if_neg hgen] at hmem
        cases hmem

theorem nodup_componentRefs (n : Protort.Node) (address : Nat) :
    (componentRefs n address).Nodup := by
  unfold componentRefs
  cases n.findRouter address with
  | none => exact List.nodup_nil
  | some r =>
      refine List.Nodup.map ?_ (Finset.sort_nodup _ _)
      intro a b hab
      exact congrArg ComponentRef.name hab

theorem findRouter_setStarted {n : Protort.Node} {address : Nat} {r : Router}
    (hr : n.findRouter address = some r) (started : Bool) (other : Nat) :
    (setStarted address started n).findRouter other =
      if other = address then some { r with started := started }
      else n.findRouter other := by
  have haddress := address_of_findRouter hr
  subst address
  unfold setStarted
  rw [hr]
  have hfind : n.findRouter { r with started := started }.address = some r :=
    hr
  exact findRouter_updateRouter hfind other

theorem findComponent_setStarted (n : Protort.Node) (address : Nat)
    (started : Bool) (ref : ComponentRef) :
    (setStarted address started n).findComponent ref =
      n.findComponent ref := by
  cases hr : n.findRouter address with
  | none =>
      unfold setStarted
      rw [hr]
  | some r =>
      rw [findComponent_eq_bind, findComponent_eq_bind,
        findRouter_setStarted hr]
      by_cases href : ref.router = address
      · rw [if_pos href, href, hr]
        rfl
      · rw [if_neg href]

theorem componentRefs_setStarted (n : Protort.Node) (address : Nat)
    (started : Bool) :
    componentRefs (setStarted address started n) address =
      componentRefs n address := by
  unfold componentRefs
  cases hr : n.findRouter address with
  | none =>
      unfold setStarted
      rw [hr]
      simp only
      rw [hr]
  | some r =>
      rw [findRouter_setStarted hr, if_pos rfl]

/-!
## The loop taken apart
-/

theorem findComponent_performAll (n : Protort.Node) (effects : List Effect)
    (ref : ComponentRef) :
    (n.performAll effects).findComponent ref = n.findComponent ref := by
  rw [findComponent_eq_bind, findComponent_eq_bind,
    findRouter_congr (router_performAll n effects)
      (retired_performAll n effects)]

theorem updateRouter_perform (n : Protort.Node) (effect : Effect)
    (r : Router) :
    (n.perform effect).updateRouter r = (n.updateRouter r).perform effect := by
  unfold updateRouter
  rw [router_perform]
  by_cases hcurrent : n.router.address = r.address
  · rw [if_pos hcurrent, if_pos hcurrent]
    cases effect with
    | _ => rfl
  · rw [if_neg hcurrent, if_neg hcurrent]
    cases effect with
    | _ => rfl

theorem updateComponent_performAll (n : Protort.Node) (effects : List Effect)
    (ref : ComponentRef) (c : Component) :
    (n.performAll effects).updateComponent ref c =
      (n.updateComponent ref c).performAll effects := by
  induction effects generalizing n with
  | nil => rfl
  | cons effect rest ih =>
      refine (ih (n.perform effect)).trans ?_
      show performAll _ rest = performAll (perform _ effect) rest
      congr 1
      unfold updateComponent
      rw [findRouter_congr (router_perform n effect)
        (retired_perform n effect)]
      cases n.findRouter ref.router with
      | none => rfl
      | some r => exact updateRouter_perform n effect _

theorem setFlag_performAll (n : Protort.Node) (effects : List Effect)
    (ref : ComponentRef) :
    w.setFlag (n.performAll effects) ref =
      (w.setFlag n ref).performAll effects := by
  unfold setFlag
  rw [findComponent_performAll]
  cases n.findComponent ref with
  | none => rfl
  | some c =>
      simp only
      by_cases hgen : c.isGenerator = true
      · rw [if_pos hgen, if_pos hgen, updateComponent_performAll]
      · rw [if_neg hgen, if_neg hgen]

theorem foldl_performAll (refs : List ComponentRef) (n : Protort.Node)
    (effects : List Effect) :
    refs.foldl w.setFlag (n.performAll effects) =
      (refs.foldl w.setFlag n).performAll effects := by
  induction refs generalizing n with
  | nil => rfl
  | cons ref rest ih =>
      rw [List.foldl_cons, List.foldl_cons, setFlag_performAll, ih]

theorem refEffects_congr {n n' : Protort.Node} {ref : ComponentRef}
    (h : n'.findComponent ref = n.findComponent ref) :
    w.refEffects n' ref = w.refEffects n ref := by
  unfold refEffects
  rw [h]

theorem performAll_append (n : Protort.Node) (xs ys : List Effect) :
    n.performAll (xs ++ ys) = (n.performAll xs).performAll ys :=
  List.foldl_append

variable {f : ComponentRef -> Handler PUnit}

/-- A loop body that switches one component. -/
def Switches (w : Switch) (f : ComponentRef -> Handler PUnit) : Prop :=
  forall n ref, (exists c, n.findComponent ref = some c) ->
    f ref n = EStateM.Result.ok PUnit.unit
      ((w.setFlag n ref).performAll (w.refEffects n ref))

theorem forM_switches (hf : Switches w f) {refs : List ComponentRef}
    (hrefs : refs.Nodup) {n : Protort.Node}
    (hall : forall ref, ref ∈ refs -> exists c, n.findComponent ref = some c) :
    refs.forM f n = EStateM.Result.ok PUnit.unit
      ((refs.foldl w.setFlag n).performAll (refs.flatMap (w.refEffects n))) := by
  induction refs generalizing n with
  | nil => rfl
  | cons ref rest ih =>
      rw [List.nodup_cons] at hrefs
      have hkeeps : forall other, other ∈ rest ->
          ((w.setFlag n ref).performAll (w.refEffects n ref)).findComponent
            other = n.findComponent other := by
        intro other hother
        rw [findComponent_performAll, findComponent_setFlag, if_neg]
        intro heq
        subst heq
        exact hrefs.left hother
      have hrest := ih hrefs.right
        (n := (w.setFlag n ref).performAll (w.refEffects n ref)) (by
          intro other hother
          rw [hkeeps other hother]
          exact hall other (List.mem_cons_of_mem ref hother))
      have heffects : rest.flatMap (w.refEffects
          ((w.setFlag n ref).performAll (w.refEffects n ref))) =
            rest.flatMap (w.refEffects n) := by
        apply List.flatMap_congr
        intro other hother
        exact refEffects_congr (hkeeps other hother)
      show (f ref >>= fun _ => rest.forM f) n = _
      rw [bind_ok (hf n ref (hall ref List.mem_cons_self)), hrest, heffects,
        foldl_performAll, ← performAll_append]
      rfl

theorem complete_of_forM (hf : Switches w f)
    (hnull : forall n ref, n.findComponent ref = none ->
      f ref n = EStateM.Result.error Fault.nullComponent n)
    {refs : List ComponentRef} (hrefs : refs.Nodup) {n n' : Protort.Node}
    (h : refs.forM f n = EStateM.Result.ok PUnit.unit n') :
    forall ref, ref ∈ refs -> exists c, n.findComponent ref = some c := by
  induction refs generalizing n with
  | nil => exact fun _ hmem => absurd hmem List.not_mem_nil
  | cons ref rest ih =>
      rw [List.nodup_cons] at hrefs
      have hrun : (f ref >>= fun _ => rest.forM f) n =
          EStateM.Result.ok PUnit.unit n' := h
      cases hc : n.findComponent ref with
      | none =>
          rw [bind_error (hnull n ref hc)] at hrun
          cases hrun
      | some c =>
          rw [bind_ok (hf n ref ⟨c, hc⟩)] at hrun
          have hrest := ih hrefs.right hrun
          intro other hother
          rcases List.mem_cons.mp hother with rfl | hmem
          · exact ⟨c, hc⟩
          · rcases hrest other hmem with ⟨c', hc'⟩
            rw [findComponent_performAll, findComponent_setFlag, if_neg] at hc'
            · exact ⟨c', hc'⟩
            · intro heq
              subst heq
              exact hrefs.left hmem

theorem startComponent_switches (env : Platform) :
    Switches (start env) (startComponent env) := by
  intro n ref h
  rcases h with ⟨c, hc⟩
  unfold startComponent setFlag refEffects
  rw [bind_ok (dereference_ok hc), hc]
  simp only
  by_cases hgen : c.isGenerator = true
  · simp only [hgen, if_true]
    have hswitched : (start env).switched c = { c with started := true } :=
      if_pos hgen
    rw [hswitched]
    rfl
  · simp only [hgen]
    rfl

theorem stopComponent_switches : Switches stop stopComponent := by
  intro n ref h
  rcases h with ⟨c, hc⟩
  unfold stopComponent setFlag refEffects
  rw [bind_ok (dereference_ok hc), hc]
  simp only
  by_cases hgen : c.isGenerator = true
  · simp only [hgen, if_true, run_modify_bind]
    have hswitched : stop.switched c = { c with started := false } :=
      if_pos hgen
    rw [hswitched]
    unfold stop
    simp only
    by_cases htimed : c.kind = Protocol.ComponentKind.timedGenerator
    · rw [if_pos htimed, if_pos htimed]
      rfl
    · rw [if_neg htimed, if_neg htimed]
      rfl
  · simp only [hgen]
    rfl

theorem startComponent_null (env : Platform) (n : Protort.Node)
    (ref : ComponentRef) (h : n.findComponent ref = none) :
    startComponent env ref n =
      EStateM.Result.error Fault.nullComponent n := by
  unfold startComponent
  exact bind_error (dereference_null h)

theorem stopComponent_null (n : Protort.Node) (ref : ComponentRef)
    (h : n.findComponent ref = none) :
    stopComponent ref n = EStateM.Result.error Fault.nullComponent n := by
  unfold stopComponent
  exact bind_error (dereference_null h)

end Switch

def Complete (n : Protort.Node) (address : Nat) : Prop :=
  forall ref, ref ∈ componentRefs n address ->
    exists c, n.findComponent ref = some c

def switchRouter (w : Switch) (address : Nat) (n : Protort.Node) :
    Protort.Node :=
  (w.flagged address n).performAll (w.allEffects address n)

namespace Switch

variable {w : Switch} {f : ComponentRef -> Handler PUnit}

theorem switchRouter_eq (hf : Switches w f) {n : Protort.Node} {address : Nat}
    (h : Complete n address) :
    (componentRefs (setStarted address w.started n) address).forM f
        (setStarted address w.started n) =
      EStateM.Result.ok PUnit.unit (switchRouter w address n) := by
  rw [componentRefs_setStarted, forM_switches hf
    (nodup_componentRefs n address)]
  · unfold switchRouter flagged allEffects
    congr 2
    apply List.flatMap_congr
    intro ref _
    exact refEffects_congr (findComponent_setStarted n address w.started ref)
  · intro ref href
    rw [findComponent_setStarted]
    exact h ref href

theorem complete_of_loop (hf : Switches w f)
    (hnull : forall n ref, n.findComponent ref = none ->
      f ref n = EStateM.Result.error Fault.nullComponent n)
    {n n' : Protort.Node} {address : Nat}
    (h : (componentRefs (setStarted address w.started n) address).forM f
      (setStarted address w.started n) = EStateM.Result.ok PUnit.unit n') :
    Complete n address := by
  rw [componentRefs_setStarted] at h
  intro ref href
  have hc := complete_of_forM hf hnull (nodup_componentRefs n address) h ref
    href
  rw [findComponent_setStarted] at hc
  exact hc

end Switch

/-!
## What switching a router does
-/

/-- A router has its flag, and so have its generators; all else is as it was. -/
structure SwitchedAt (w : Switch) (address : Nat) (n n' : Protort.Node) :
    Prop where
  current : n'.router.address = n.router.address
  addresses : n'.retired.map (fun r => r.address) =
    n.retired.map (fun r => r.address)
  next : n'.next = n.next
  others : forall other r, other ≠ address -> n.findRouter other = some r ->
    n'.findRouter other = some r
  router : forall r, n.findRouter address = some r ->
    exists r', n'.findRouter address = some r' ∧
      Router.SameTable { r with started := w.started } r' ∧
      forall c, r'.objectAt c = (r.objectAt c).map w.switched

theorem flagged_flagging (w : Switch) (address : Nat) (n : Protort.Node) :
    Switch.Flagging address (setStarted address w.started n)
      (w.flagged address n) :=
  Switch.foldl_flagging (fun _ href =>
    Switch.router_of_mem_componentRefs href) _

theorem findComponent_flagged (w : Switch) (address : Nat) (n : Protort.Node)
    (ref : ComponentRef) :
    (w.flagged address n).findComponent ref =
      if ref ∈ componentRefs n address then
        (n.findComponent ref).map w.switched
      else
        n.findComponent ref := by
  unfold Switch.flagged
  rw [Switch.findComponent_foldl, Switch.findComponent_setStarted]

theorem setStarted_fields (address : Nat) (started : Bool) (n : Protort.Node) :
    (setStarted address started n).router.address = n.router.address ∧
      (setStarted address started n).retired.map (fun r => r.address) =
        n.retired.map (fun r => r.address) ∧
      (setStarted address started n).next = n.next ∧
      (setStarted address started n).service = n.service ∧
      (setStarted address started n).outbox = n.outbox := by
  unfold setStarted
  cases n.findRouter address with
  | none => exact ⟨rfl, rfl, rfl, rfl, rfl⟩
  | some r =>
      have haddresses := addresses_updateRouter n { r with started := started }
      exact ⟨haddresses.left, haddresses.right, next_updateRouter n _,
        service_updateRouter n _, outbox_updateRouter n _⟩

theorem switchRouter_spec (w : Switch) (address : Nat) (n : Protort.Node) :
    SwitchedAt w address n (switchRouter w address n) := by
  rcases setStarted_fields address w.started n with
    ⟨hcurrent, haddresses, hnext, _, _⟩
  have hflagging := flagged_flagging w address n
  have hfind : forall other, (switchRouter w address n).findRouter other =
      (w.flagged address n).findRouter other :=
    findRouter_congr (router_performAll _ _) (retired_performAll _ _)
  refine
    { current := ?_
      addresses := ?_
      next := ?_
      others := ?_
      router := ?_ }
  · unfold switchRouter
    rw [router_performAll, hflagging.current, hcurrent]
  · unfold switchRouter
    rw [retired_performAll, hflagging.addresses, haddresses]
  · unfold switchRouter
    rw [next_performAll, hflagging.next, hnext]
  · intro other r hother hr
    have hstarted : (setStarted address w.started n).findRouter other =
        some r := by
      cases ha : n.findRouter address with
      | none =>
          unfold setStarted
          rw [ha]
          exact hr
      | some old =>
          rw [Switch.findRouter_setStarted ha, if_neg hother]
          exact hr
    rcases hflagging.routers other r hstarted with ⟨r', hr', _, hsame⟩
    rw [hfind, hr', hsame hother]
  · intro r hr
    have hstarted : (setStarted address w.started n).findRouter address =
        some { r with started := w.started } := by
      rw [Switch.findRouter_setStarted hr, if_pos rfl]
    rcases hflagging.routers address _ hstarted with ⟨r', hr', htable, _⟩
    exists r'
    constructor
    · exact (hfind address).trans hr'
    constructor
    · exact htable
    intro c
    have hobject := findComponent_flagged w address n ⟨address, c⟩
    rw [findComponent_eq_bind, findComponent_eq_bind, hr', hr,
      Option.bind_some, Option.bind_some] at hobject
    by_cases hc : c ∈ r.components
    · rw [if_pos ((Switch.mem_componentRefs hr).mpr ⟨rfl, hc⟩)] at hobject
      exact hobject
    · rw [if_neg (fun h => hc ((Switch.mem_componentRefs hr).mp h).right)]
        at hobject
      have hnone : r.objectAt c = none := by
        cases h : r.objectAt c with
        | none => rfl
        | some object => exact absurd (mem_of_objectAt h) hc
      rw [hobject, hnone]
      rfl

theorem service_switchRouter (w : Switch) (address : Nat) (n : Protort.Node) :
    (switchRouter w address n).service =
      (w.allEffects address n).foldl serve n.service := by
  unfold switchRouter
  rw [service_performAll, (flagged_flagging w address n).service]
  rw [(setStarted_fields address w.started n).right.right.right.left]

theorem outbox_switchRouter (w : Switch) (address : Nat) (n : Protort.Node) :
    (switchRouter w address n).outbox =
      n.outbox ++ sends (w.allEffects address n) := by
  unfold switchRouter
  rw [outbox_performAll, (flagged_flagging w address n).outbox]
  rw [(setStarted_fields address w.started n).right.right.right.right]

theorem startRouter_ok (env : Platform) {n : Protort.Node} {address : Nat}
    (h : Complete n address) :
    startRouter env address n = EStateM.Result.ok PUnit.unit
      (switchRouter (Switch.start env) address n) := by
  unfold startRouter
  rw [run_modify_bind, run_get_bind]
  exact Switch.switchRouter_eq (Switch.startComponent_switches env) h

theorem complete_of_startRouter {env : Platform} {n n' : Protort.Node}
    {address : Nat}
    (h : startRouter env address n = EStateM.Result.ok PUnit.unit n') :
    Complete n address := by
  unfold startRouter at h
  rw [run_modify_bind, run_get_bind] at h
  exact Switch.complete_of_loop (Switch.startComponent_switches env)
    (Switch.startComponent_null env) h

theorem stopRouter_ok {n : Protort.Node} {address : Nat}
    (h : Complete n address) :
    stopRouter address n = EStateM.Result.ok PUnit.unit
      (switchRouter Switch.stop address n) := by
  unfold stopRouter
  rw [run_modify_bind, run_get_bind]
  exact Switch.switchRouter_eq Switch.stopComponent_switches h

theorem complete_of_stopRouter {n n' : Protort.Node} {address : Nat}
    (h : stopRouter address n = EStateM.Result.ok PUnit.unit n') :
    Complete n address := by
  unfold stopRouter at h
  rw [run_modify_bind, run_get_bind] at h
  exact Switch.complete_of_loop Switch.stopComponent_switches
    Switch.stopComponent_null h

end Node
end Protort
