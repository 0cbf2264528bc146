import Mathlib.Data.List.Perm.Basic
import Protort.Node.Traffic

/-!
# Routers and components behind pointers

A router is found by its address, among the current one and those that were
replaced, and a component by its router and its entry there.  Running a task
changes the counters of objects and queues more work; it starts and stops
nothing.
-/

namespace Protort
namespace Node

open Lib (Bytes Table)
open Lib.Exceptions
open Components (Component Output Origin)

/-!
## Finding and updating
-/

section Lookup

variable {n : Protort.Node} {address : Nat} {r r' : Router}
  {ref : ComponentRef} {c c' : Component}

theorem address_of_find {routers : List Router}
    (h : routers.find? (fun r => decide (r.address = address)) = some r) :
    r.address = address := by
  have hr := List.find?_some h
  exact of_decide_eq_true hr

theorem findRouter_current (n : Protort.Node) :
    n.findRouter n.router.address = some n.router := by
  unfold findRouter
  exact if_pos rfl

theorem updateRouter_current (h : r.address = n.router.address) :
    n.updateRouter r = { n with router := r } := by
  unfold updateRouter
  exact if_pos h.symm

theorem findRouter_of_ne (h : n.router.address ≠ address) :
    n.findRouter address =
      n.retired.find? (fun r => decide (r.address = address)) := by
  unfold findRouter
  exact if_neg h

theorem address_of_findRouter (h : n.findRouter address = some r) :
    r.address = address := by
  by_cases hcurrent : n.router.address = address
  · subst address
    rw [findRouter_current] at h
    rw [Option.some.inj h]
  · rw [findRouter_of_ne hcurrent] at h
    exact address_of_find h

theorem findRouter_updateRouter (hfind : n.findRouter r'.address = some r)
    (other : Nat) :
    (n.updateRouter r').findRouter other =
      if other = r'.address then some r' else n.findRouter other := by
  by_cases hcurrent : n.router.address = r'.address
  · rw [updateRouter_current hcurrent.symm]
    by_cases hother : other = r'.address
    · rw [if_pos hother, hother]
      exact findRouter_current _
    · rw [if_neg hother, findRouter_of_ne (Ne.symm hother),
        findRouter_of_ne (fun h => hother (h.symm.trans hcurrent))]
  · unfold updateRouter
    rw [if_neg hcurrent]
    by_cases hrouter : n.router.address = other
    · have hother : other ≠ r'.address := fun h => hcurrent (hrouter.trans h)
      rw [if_neg hother]
      unfold findRouter
      rw [if_pos hrouter, if_pos hrouter]
    · rw [findRouter_of_ne hrouter]
      have hupdated := findRouter_of_ne (n := { n with
        retired := n.retired.map (fun old =>
          if old.address = r'.address then r' else old) }) hrouter
      refine hupdated.trans ?_
      show (n.retired.map _).find? _ = _
      have hsame : ((fun r : Router => decide (r.address = other)) ∘
          (fun old => if old.address = r'.address then r' else old)) =
            fun r : Router => decide (r.address = other) := by
        funext old
        show decide ((if old.address = r'.address then r' else old).address =
          other) = _
        by_cases hold : old.address = r'.address
        · rw [if_pos hold, hold]
        · rw [if_neg hold]
      rw [List.find?_map, hsame]
      by_cases hother : other = r'.address
      · rw [if_pos hother]
        subst other
        rw [findRouter_of_ne hcurrent] at hfind
        rw [hfind, Option.map_some]
        rw [if_pos (address_of_find hfind)]
      · rw [if_neg hother]
        cases hfound : n.retired.find? (fun r => decide (r.address = other)) with
        | none => rfl
        | some old =>
            have hold : old.address = other := address_of_find hfound
            rw [Option.map_some, if_neg (fun h => hother (hold.symm.trans h))]

theorem objectAt_eq_bind (r : Router) (name : String) :
    r.objectAt name =
      (r.components.lookup name).bind (fun inst => inst.component) := by
  unfold Router.objectAt
  cases hlookup : r.components.lookup name with
  | some inst =>
      rw [Table.get_of_lookup hlookup]
      rfl
  | none =>
      rw [Table.get_of_notMem (Finmap.lookup_eq_none.mp hlookup)]
      rfl

theorem mem_of_objectAt {name : String} (h : r.objectAt name = some c) :
    name ∈ r.components := by
  rw [objectAt_eq_bind] at h
  rcases Option.bind_eq_some_iff.mp h with ⟨inst, hinst, _⟩
  exact Finmap.mem_of_lookup_eq_some hinst

theorem findComponent_eq_bind (n : Protort.Node) (ref : ComponentRef) :
    n.findComponent ref =
      (n.findRouter ref.router).bind (fun r => r.objectAt ref.name) := by
  unfold findComponent
  congr 1
  funext r
  exact (objectAt_eq_bind r ref.name).symm

theorem findComponent_eq_some :
    n.findComponent ref = some c <->
      exists r, n.findRouter ref.router = some r ∧
        r.objectAt ref.name = some c := by
  rw [findComponent_eq_bind, Option.bind_eq_some_iff]

theorem updateComponent_eq (hr : n.findRouter ref.router = some r)
    (c' : Component) :
    n.updateComponent ref c' =
      n.updateRouter (Router.setComponent r ref.name c') := by
  unfold updateComponent
  rw [hr]

theorem findComponent_updateComponent (h : n.findComponent ref = some c)
    (c' : Component) (other : ComponentRef) :
    (n.updateComponent ref c').findComponent other =
      if other = ref then some c' else n.findComponent other := by
  rcases findComponent_eq_some.mp h with ⟨r, hr, _⟩
  have haddress := address_of_findRouter hr
  have hfind : n.findRouter (Router.setComponent r ref.name c').address =
      some r := by
    show n.findRouter r.address = some r
    rw [haddress]
    exact hr
  rw [updateComponent_eq hr]
  have hlookup := findRouter_updateRouter hfind other.router
  have hrouter : (Router.setComponent r ref.name c').address = ref.router :=
    haddress
  rw [hrouter] at hlookup
  by_cases hother : other.router = ref.router
  · rw [if_pos hother] at hlookup
    by_cases hname : other.name = ref.name
    · have hsame : other = ref := by
        rcases other with ⟨router, name⟩
        rcases ref with ⟨router', name'⟩
        cases hother
        cases hname
        rfl
      rw [if_pos hsame, findComponent_eq_some]
      refine ⟨_, hlookup, ?_⟩
      rw [Router.objectAt_setComponent, if_pos hname]
    · have hne : other ≠ ref := fun heq => hname (congrArg _ heq)
      rw [if_neg hne, findComponent_eq_bind, findComponent_eq_bind, hlookup,
        hother, hr, Option.bind_some, Option.bind_some,
        Router.objectAt_setComponent, if_neg hname]
  · rw [if_neg hother] at hlookup
    have hne : other ≠ ref := fun heq => hother (congrArg _ heq)
    rw [if_neg hne, findComponent_eq_bind, findComponent_eq_bind, hlookup]

theorem dereference_ok (h : n.findComponent ref = some c) :
    dereference ref n = EStateM.Result.ok c n := by
  unfold dereference
  rw [run_get_bind, h]
  rfl

theorem dereference_null (h : n.findComponent ref = none) :
    dereference ref n = EStateM.Result.error Fault.nullComponent n := by
  unfold dereference
  rw [run_get_bind, h]
  rfl

end Lookup

/-!
## Work

What the tasks of a node and the messages that arrive do to its routers.
-/

namespace Router

structure SameFlags (r r' : Router) : Prop where
  table : SameTable r r'
  flags : forall c, (r'.objectAt c).map (fun object => object.started) =
    (r.objectAt c).map (fun object => object.started)

theorem SameFlags.refl (r : Router) : SameFlags r r :=
  { table := SameTable.refl r
    flags := fun _ => rfl }

theorem SameFlags.trans {r r' r'' : Router} (h : SameFlags r r')
    (h' : SameFlags r' r'') : SameFlags r r'' :=
  { table := h.table.trans h'.table
    flags := fun c => (h'.flags c).trans (h.flags c) }

theorem SameFlags.symm {r r' : Router} (h : SameFlags r r') :
    SameFlags r' r :=
  { table :=
      { address := h.table.address.symm
        started := h.table.started.symm
        clients := h.table.clients.symm
        mem := fun c => (h.table.mem c).symm
        names := fun c => (h.table.names c).symm
        routes := fun c p => (h.table.routes c p).symm
        objects := fun c => (h.table.objects c).symm }
    flags := fun c => (h.flags c).symm }

theorem SameFlags.object {r r' : Router} (h : SameFlags r r') {c : String}
    {object : Component} (hobject : r.objectAt c = some object) :
    exists object', r'.objectAt c = some object' ∧
      viewObject object' = viewObject object ∧
      object'.started = object.started := by
  have hview := h.table.objects c
  have hflag := h.flags c
  rw [hobject, Option.map_some] at hview hflag
  rcases Option.map_eq_some_iff.mp hview with ⟨object', hobject', hview'⟩
  rw [hobject', Option.map_some, Option.some.injEq] at hflag
  exact ⟨object', hobject', hview', hflag⟩

theorem setComponent_sameFlags {r : Router} {c : String}
    {object object' : Component} (hobject : r.objectAt c = some object)
    (hview : viewObject object' = viewObject object)
    (hstarted : object'.started = object.started) :
    SameFlags r (Router.setComponent r c object') :=
  { table := setComponent_sameTable (mem_of_objectAt hobject) hobject hview
    flags := by
      intro c'
      rw [objectAt_setComponent]
      by_cases hc : c' = c
      · rw [if_pos hc, hc, hobject]
        exact congrArg some hstarted
      · rw [if_neg hc] }

theorem doRoute_sameFlags (env : Platform) {r : Router} {c : String}
    (hc : c ∈ r.components) (outputs : List Output) :
    SameFlags r (r.doRoute env c outputs).1 := by
  by_cases hstarted : r.started = true
  · have hsent := doRoute_sent env hstarted hc outputs
    exact
      { table := hsent.table
        flags := fun c' => by rw [hsent.objects c'] }
  · unfold doRoute
    rw [if_neg hstarted]
    exact SameFlags.refl r

end Router

section Queues

variable (n : Protort.Node) (r : Router) (ref : ComponentRef) (c : Component)

@[simp] theorem service_updateRouter :
    (n.updateRouter r).service = n.service := by
  unfold updateRouter
  split <;> rfl

@[simp] theorem outbox_updateRouter :
    (n.updateRouter r).outbox = n.outbox := by
  unfold updateRouter
  split <;> rfl

@[simp] theorem next_updateRouter : (n.updateRouter r).next = n.next := by
  unfold updateRouter
  split <;> rfl

@[simp] theorem service_updateComponent :
    (n.updateComponent ref c).service = n.service := by
  unfold updateComponent
  cases n.findRouter ref.router with
  | none => rfl
  | some r => exact service_updateRouter n _

@[simp] theorem outbox_updateComponent :
    (n.updateComponent ref c).outbox = n.outbox := by
  unfold updateComponent
  cases n.findRouter ref.router with
  | none => rfl
  | some r => exact outbox_updateRouter n _

end Queues

@[simp] theorem next_perform (n : Protort.Node) (effect : Effect) :
    (n.perform effect).next = n.next := by
  cases effect with
  | _ => rfl

@[simp] theorem next_performAll (n : Protort.Node) (effects : List Effect) :
    (n.performAll effects).next = n.next := by
  induction effects generalizing n with
  | nil => rfl
  | cons effect rest ih =>
      exact (ih (n.perform effect)).trans (next_perform n effect)

@[simp] theorem retired_perform (n : Protort.Node) (effect : Effect) :
    (n.perform effect).retired = n.retired := by
  cases effect with
  | _ => rfl

@[simp] theorem retired_performAll (n : Protort.Node)
    (effects : List Effect) : (n.performAll effects).retired = n.retired := by
  induction effects generalizing n with
  | nil => rfl
  | cons effect rest ih =>
      exact (ih (n.perform effect)).trans (retired_perform n effect)

/-!
## Queues
-/

def serve (service : List Task) (effect : Effect) : List Task :=
  match effect with
  | Effect.post task => service ++ [task]
  | Effect.cancelWaits ref => service.map (cancelWait ref)
  | Effect.send _ _ _ => service

def sends (effects : List Effect) : List Outgoing :=
  effects.filterMap (fun effect =>
    match effect with
    | Effect.send client origin payload => some ⟨client, origin, payload⟩
    | _ => none)

def posted (effects : List Effect) : List Task :=
  effects.filterMap (fun effect =>
    match effect with
    | Effect.post task => some task
    | _ => none)

theorem mem_posted {effects : List Effect} {task : Task} :
    task ∈ posted effects <-> Effect.post task ∈ effects := by
  unfold posted
  rw [List.mem_filterMap]
  constructor
  · intro h
    rcases h with ⟨effect, hmem, heq⟩
    cases effect with
    | post task' =>
        cases heq
        exact hmem
    | cancelWaits ref => cases heq
    | send client origin payload => cases heq
  · intro hmem
    exact ⟨Effect.post task, hmem, rfl⟩

theorem posted_append (xs ys : List Effect) :
    posted (xs ++ ys) = posted xs ++ posted ys :=
  List.filterMap_append

theorem foldl_serve_eq {effects : List Effect}
    (h : forall ref, Effect.cancelWaits ref ∉ effects) (service : List Task) :
    effects.foldl serve service = service ++ posted effects := by
  induction effects generalizing service with
  | nil => exact (List.append_nil service).symm
  | cons effect rest ih =>
      have hrest : forall ref, Effect.cancelWaits ref ∉ rest :=
        fun ref hmem => h ref (List.mem_cons_of_mem effect hmem)
      rw [List.foldl_cons, ih hrest]
      cases effect with
      | post task => exact List.append_assoc service [task] (posted rest)
      | cancelWaits ref => exact absurd List.mem_cons_self (h ref)
      | send client origin payload => rfl

theorem countP_serve {p : Task -> Bool}
    (hcancel : forall ref task, p (cancelWait ref task) = p task)
    (effects : List Effect) (service : List Task) :
    (effects.foldl serve service).countP p =
      service.countP p + (posted effects).countP p := by
  induction effects generalizing service with
  | nil => rfl
  | cons effect rest ih =>
      rw [List.foldl_cons, ih]
      cases effect with
      | post task =>
          have hposted : posted (Effect.post task :: rest) =
              task :: posted rest := rfl
          rw [hposted, List.countP_cons]
          unfold serve
          rw [List.countP_append, List.countP_singleton]
          omega
      | cancelWaits ref =>
          have hsame : p ∘ cancelWait ref = p := funext (hcancel ref)
          unfold serve
          rw [List.countP_map, hsame]
          rfl
      | send client origin payload => rfl

theorem countP_posted_eq_zero {p : Task -> Bool} {effects : List Effect}
    (h : forall task, Effect.post task ∈ effects -> p task = false) :
    (posted effects).countP p = 0 := by
  rw [List.countP_eq_zero]
  intro task htask
  rw [h task (mem_posted.mp htask)]
  exact Bool.false_ne_true

theorem countP_taken (p : Task -> Bool) {service : List Task} {index : Nat}
    {task : Task} (h : service[index]? = some task) :
    service.countP p =
      (service.eraseIdx index).countP p + if p task = true then 1 else 0 := by
  rcases List.getElem?_eq_some_iff.mp h with ⟨hlt, hget⟩
  have hperm := List.getElem_cons_eraseIdx_perm hlt
  rw [hget] at hperm
  rw [← hperm.countP_eq p, List.countP_cons]

theorem service_performAll (n : Protort.Node) (effects : List Effect) :
    (n.performAll effects).service = effects.foldl serve n.service := by
  induction effects generalizing n with
  | nil => rfl
  | cons effect rest ih =>
      refine (ih (n.perform effect)).trans ?_
      cases effect with
      | _ => rfl

theorem countP_performAll {p : Task -> Bool}
    (hcancel : forall ref task, p (cancelWait ref task) = p task)
    (n : Protort.Node) (effects : List Effect) :
    (n.performAll effects).service.countP p =
      n.service.countP p + (posted effects).countP p := by
  rw [service_performAll]
  exact countP_serve hcancel effects n.service

theorem outbox_performAll (n : Protort.Node) (effects : List Effect) :
    (n.performAll effects).outbox = n.outbox ++ sends effects := by
  induction effects generalizing n with
  | nil => exact (List.append_nil _).symm
  | cons effect rest ih =>
      refine (ih (n.perform effect)).trans ?_
      cases effect with
      | post task => rfl
      | cancelWaits ref => rfl
      | send client origin payload => exact List.append_assoc _ _ _

/-- A task that is queued in the end was queued before or posted, up to the
cancelling of waits. -/
theorem foldl_serve_forall {P : Task -> Prop}
    (hcancel : forall ref t, P t -> P (cancelWait ref t))
    {effects : List Effect} {service : List Task}
    (hservice : forall t, t ∈ service -> P t)
    (heffects : forall t, Effect.post t ∈ effects -> P t) :
    forall t, t ∈ effects.foldl serve service -> P t := by
  induction effects generalizing service with
  | nil => exact hservice
  | cons effect rest ih =>
      refine ih ?_ (fun t ht => heffects t (List.mem_cons_of_mem effect ht))
      intro t ht
      cases effect with
      | post task =>
          rcases List.mem_append.mp ht with hold | hnew
          · exact hservice t hold
          · rcases List.mem_singleton.mp hnew with rfl
            exact heffects t List.mem_cons_self
      | cancelWaits ref =>
          rcases List.mem_map.mp ht with ⟨old, hold, rfl⟩
          exact hcancel ref old (hservice old hold)
      | send client origin payload => exact hservice t ht

/-- A node after work: the same routers, with nothing started or stopped. -/
structure Worked (n n' : Protort.Node) : Prop where
  current : n'.router.address = n.router.address
  addresses : n'.retired.map (fun r => r.address) =
    n.retired.map (fun r => r.address)
  next : n'.next = n.next
  routers : forall address r, n.findRouter address = some r ->
    exists r', n'.findRouter address = some r' ∧ Router.SameFlags r r'

theorem findRouter_congr {n n' : Protort.Node} (hrouter : n'.router = n.router)
    (hretired : n'.retired = n.retired) (address : Nat) :
    n'.findRouter address = n.findRouter address := by
  unfold findRouter
  rw [hrouter, hretired]

theorem Worked.of_eq {n n' : Protort.Node} (hrouter : n'.router = n.router)
    (hretired : n'.retired = n.retired) (hnext : n'.next = n.next) :
    Worked n n' :=
  { current := by rw [hrouter]
    addresses := by rw [hretired]
    next := hnext
    routers := by
      intro address r hr
      refine ⟨r, ?_, Router.SameFlags.refl r⟩
      rw [findRouter_congr hrouter hretired]
      exact hr }

theorem Worked.trans {n n' n'' : Protort.Node} (h : Worked n n')
    (h' : Worked n' n'') : Worked n n'' :=
  { current := h'.current.trans h.current
    addresses := h'.addresses.trans h.addresses
    next := h'.next.trans h.next
    routers := by
      intro address r hr
      rcases h.routers address r hr with ⟨r', hr', hsame⟩
      rcases h'.routers address r' hr' with ⟨r'', hr'', hsame'⟩
      exact ⟨r'', hr'', hsame.trans hsame'⟩ }

theorem addresses_updateRouter (n : Protort.Node) (r : Router) :
    (n.updateRouter r).router.address = n.router.address ∧
      (n.updateRouter r).retired.map (fun r => r.address) =
        n.retired.map (fun r => r.address) := by
  by_cases hcurrent : n.router.address = r.address
  · rw [updateRouter_current hcurrent.symm]
    exact ⟨hcurrent.symm, rfl⟩
  · unfold updateRouter
    rw [if_neg hcurrent]
    constructor
    · exact rfl
    show (n.retired.map _).map _ = _
    rw [List.map_map]
    apply List.map_congr_left
    intro old _
    show (if old.address = r.address then r else old).address = old.address
    by_cases hold : old.address = r.address
    · rw [if_pos hold, hold]
    · rw [if_neg hold]

theorem updateRouter_worked {n : Protort.Node} {address : Nat}
    {r r' : Router} (hfind : n.findRouter address = some r)
    (h : Router.SameFlags r r') : Worked n (n.updateRouter r') := by
  have haddress : address = r'.address :=
    (address_of_findRouter hfind).symm.trans h.table.address.symm
  subst address
  have haddresses := addresses_updateRouter n r'
  exact
    { current := haddresses.left
      addresses := haddresses.right
      next := next_updateRouter n r'
      routers := by
        intro other old hold
        have hupdated := findRouter_updateRouter hfind other
        by_cases hother : other = r'.address
        · rw [if_pos hother] at hupdated
          subst other
          rw [hfind] at hold
          rcases Option.some.inj hold with rfl
          exact ⟨r', hupdated, h⟩
        · rw [if_neg hother] at hupdated
          exact ⟨old, hupdated.trans hold, Router.SameFlags.refl old⟩ }

theorem updateComponent_worked {n : Protort.Node} {ref : ComponentRef}
    {c c' : Component} (hfind : n.findComponent ref = some c)
    (hview : viewObject c' = viewObject c) (hstarted : c'.started = c.started) :
    Worked n (n.updateComponent ref c') := by
  rcases findComponent_eq_some.mp hfind with ⟨r, hr, hobject⟩
  rw [updateComponent_eq hr]
  exact updateRouter_worked hr
    (Router.setComponent_sameFlags hobject hview hstarted)

/-!
## Tasks
-/

def processEffects (env : Platform) (c : Component) (inPort : Parser.PortId)
    (payload : Bytes) : List Effect :=
  match c.process env inPort payload with
  | some outputs => [Effect.post (Task.doRoute c.router c.compInst outputs)]
  | none => []

theorem processEffects_cases (env : Platform) (c : Component)
    (inPort : Parser.PortId) (payload : Bytes) :
    processEffects env c inPort payload = [] ∨ exists outputs,
      c.process env inPort payload = some outputs ∧
      processEffects env c inPort payload =
        [Effect.post (Task.doRoute c.router c.compInst outputs)] := by
  unfold processEffects
  cases c.process env inPort payload with
  | none => exact Or.inl rfl
  | some outputs => exact Or.inr ⟨outputs, rfl, rfl⟩

theorem of_mem_processEffects {env : Platform} {c : Component}
    {inPort : Parser.PortId} {payload : Bytes} {effect : Effect}
    (h : effect ∈ processEffects env c inPort payload) :
    exists outputs, c.process env inPort payload = some outputs ∧
      effect = Effect.post (Task.doRoute c.router c.compInst outputs) := by
  rcases processEffects_cases env c inPort payload with
    hnone | ⟨outputs, hprocess, hone⟩
  · rw [hnone] at h
    cases h
  · rw [hone] at h
    exact ⟨outputs, hprocess, List.mem_singleton.mp h⟩

/-- What a task asks of the service and of the clients; none when it ends the
program. -/
def taskEffects (env : Platform) (n : Protort.Node) :
    Task -> Option (List Effect)
  | Task.doProcess ref _ inPort payload =>
      (n.findComponent ref).map (fun c => processEffects env c inPort payload)
  | Task.doRoute address compInst outputs =>
      compInst.map (fun name =>
        match n.findRouter address with
        | some r => (r.doRoute env name outputs).2
        | none => [])
  | Task.generate ref =>
      (n.findComponent ref).map (generateEffects env ref)
  | Task.timerWait ref _ =>
      (n.findComponent ref).map (generateEffects env ref)

/-- The pointers of a task lead to objects that exist. -/
def TaskSound (n : Protort.Node) : Task -> Prop
  | Task.doProcess ref _ _ _ => exists c, n.findComponent ref = some c
  | Task.doRoute address compInst _ =>
      exists r name, n.findRouter address = some r ∧
        compInst = some name ∧ name ∈ r.components
  | Task.generate ref =>
      exists c, n.findComponent ref = some c ∧
        c.kind = Protocol.ComponentKind.generator
  | Task.timerWait ref _ =>
      exists c, n.findComponent ref = some c ∧
        c.kind = Protocol.ComponentKind.timedGenerator

/-- What the tasks of a node ask for when their pointers lead to objects. -/
inductive TaskAsks (env : Platform) (n : Protort.Node) :
    Task -> List Effect -> Prop where
  | doProcess {ref : ComponentRef} {c : Component} (origin : Option Origin)
      (inPort : Parser.PortId) (payload : Bytes) :
      n.findComponent ref = some c ->
      TaskAsks env n (Task.doProcess ref origin inPort payload)
        (processEffects env c inPort payload)
  | doRoute {address : Nat} {r : Router} {name : String}
      (outputs : List Output) :
      n.findRouter address = some r -> name ∈ r.components ->
      TaskAsks env n (Task.doRoute address (some name) outputs)
        (r.doRoute env name outputs).2
  | generate {ref : ComponentRef} {c : Component} :
      n.findComponent ref = some c ->
      c.kind = Protocol.ComponentKind.generator ->
      TaskAsks env n (Task.generate ref) (generateEffects env ref c)
  | timerWait {ref : ComponentRef} {c : Component} (cancelled : Bool) :
      n.findComponent ref = some c ->
      c.kind = Protocol.ComponentKind.timedGenerator ->
      TaskAsks env n (Task.timerWait ref cancelled) (generateEffects env ref c)

theorem TaskSound.asks {env : Platform} {n : Protort.Node} {task : Task}
    {effects : List Effect} (htask : TaskSound n task)
    (heffects : taskEffects env n task = some effects) :
    TaskAsks env n task effects := by
  cases task with
  | doProcess ref origin inPort payload =>
      rcases htask with ⟨c, hc⟩
      simp only [taskEffects, hc, Option.map_some, Option.some.injEq]
        at heffects
      subst heffects
      exact TaskAsks.doProcess origin inPort payload hc
  | doRoute address compInst outputs =>
      rcases htask with ⟨r, name, hr, rfl, hname⟩
      simp only [taskEffects, hr, Option.map_some, Option.some.injEq]
        at heffects
      subst heffects
      exact TaskAsks.doRoute outputs hr hname
  | generate ref =>
      rcases htask with ⟨c, hc, hkind⟩
      simp only [taskEffects, hc, Option.map_some, Option.some.injEq]
        at heffects
      subst heffects
      exact TaskAsks.generate hc hkind
  | timerWait ref cancelled =>
      rcases htask with ⟨c, hc, hkind⟩
      simp only [taskEffects, hc, Option.map_some, Option.some.injEq]
        at heffects
      subst heffects
      exact TaskAsks.timerWait cancelled hc hkind

theorem performAll_worked (n : Protort.Node) (effects : List Effect) :
    Worked n (n.performAll effects) :=
  Worked.of_eq (router_performAll n effects) (retired_performAll n effects)
    (next_performAll n effects)

section Tasks

variable {n : Protort.Node} {ref : ComponentRef} {c : Component}

theorem runTask_doProcess (env : Platform) (hc : n.findComponent ref = some c)
    (origin : Option Origin) (inPort : Parser.PortId) (payload : Bytes) :
    runTask env (Task.doProcess ref origin inPort payload) n =
      EStateM.Result.ok PUnit.unit
        ((n.updateComponent ref
          (c.doProcess env origin inPort payload).1).performAll
            (processEffects env c inPort payload)) := by
  unfold runTask processEffects
  simp only []
  rw [bind_ok (dereference_ok hc), run_modify_bind]
  unfold Component.doProcess
  simp only []
  cases c.process env inPort payload with
  | some outputs => rfl
  | none => rfl

theorem runTask_doRoute (env : Platform) {address : Nat} {r : Router}
    (hr : n.findRouter address = some r) (name : String)
    (outputs : List Output) :
    runTask env (Task.doRoute address (some name) outputs) n =
      EStateM.Result.ok PUnit.unit
        ((n.updateRouter (r.doRoute env name outputs).1).performAll
          (r.doRoute env name outputs).2) := by
  unfold runTask
  simp only []
  rw [run_get_bind, hr]
  rfl

theorem runTask_generate (env : Platform)
    (hc : n.findComponent ref = some c) :
    runTask env (Task.generate ref) n =
      EStateM.Result.ok PUnit.unit
        (n.performAll (generateEffects env ref c)) := by
  unfold runTask
  simp only []
  rw [bind_ok (dereference_ok hc)]
  rfl

theorem runTask_timerWait (env : Platform)
    (hc : n.findComponent ref = some c) (cancelled : Bool) :
    runTask env (Task.timerWait ref cancelled) n =
      EStateM.Result.ok PUnit.unit
        (n.performAll (generateEffects env ref c)) := by
  unfold runTask
  simp only []
  rw [bind_ok (dereference_ok hc)]
  rfl

end Tasks

/-- A task whose pointers are sound changes counters and asks for its
effects. -/
theorem runTask_ok (env : Platform) {n : Protort.Node} {task : Task}
    (h : TaskSound n task) :
    exists effects m, taskEffects env n task = some effects ∧
      runTask env task n =
        EStateM.Result.ok PUnit.unit (m.performAll effects) ∧
      Worked n m ∧ m.service = n.service ∧ m.outbox = n.outbox := by
  cases task with
  | doProcess ref origin inPort payload =>
      rcases h with ⟨c, hc⟩
      exact ⟨processEffects env c inPort payload,
        n.updateComponent ref (c.doProcess env origin inPort payload).1,
        congrArg (Option.map _) hc,
        runTask_doProcess env hc origin inPort payload,
        updateComponent_worked hc rfl rfl, service_updateComponent n ref _,
        outbox_updateComponent n ref _⟩
  | doRoute address compInst outputs =>
      rcases h with ⟨r, name, hr, rfl, hname⟩
      refine ⟨(r.doRoute env name outputs).2,
        n.updateRouter (r.doRoute env name outputs).1, ?_,
        runTask_doRoute env hr name outputs,
        updateRouter_worked hr (Router.doRoute_sameFlags env hname outputs),
          service_updateRouter n _, outbox_updateRouter n _⟩
      show some (match n.findRouter address with
        | some r => (r.doRoute env name outputs).2
        | none => []) = _
      rw [hr]
  | generate ref =>
      rcases h with ⟨c, hc, _⟩
      exact ⟨generateEffects env ref c, n, congrArg (Option.map _) hc,
        runTask_generate env hc, Worked.of_eq rfl rfl rfl, rfl, rfl⟩
  | timerWait ref cancelled =>
      rcases h with ⟨c, hc, _⟩
      exact ⟨generateEffects env ref c, n, congrArg (Option.map _) hc,
        runTask_timerWait env hc cancelled, Worked.of_eq rfl rfl rfl, rfl, rfl⟩

theorem router_worked {n : Protort.Node} {r : Router}
    (h : Router.SameFlags n.router r) : Worked n { n with router := r } := by
  have hupdate := updateRouter_worked (findRouter_current n) h
  rw [updateRouter_current h.table.address] at hupdate
  exact hupdate

namespace Router

theorem counted_sameFlags (r : Router) (inBytes inPackets : UInt32) :
    SameFlags r
      { r with
        inBytes := inBytes
        inPackets := inPackets } :=
  { table :=
      { address := rfl
        started := rfl
        clients := rfl
        mem := fun _ => Iff.rfl
        names := fun _ => rfl
        routes := fun _ _ => rfl
        objects := fun _ => rfl }
    flags := fun _ => rfl }

theorem route_fst (r : Router) (origin : Option Origin) (name : String)
    (inPort : Parser.PortId) (payload : Bytes) :
    (r.route origin name inPort payload).1 =
      { r with inPackets := r.inPackets + 1 } := by
  unfold route
  by_cases hstarted : r.started = true
  · simp only [hstarted, if_true]
    cases r.components.lookup name with
    | none => rfl
    | some inst => rfl
  · rw [if_neg hstarted]

theorem route_snd (r : Router) (origin : Option Origin) (name : String)
    (inPort : Parser.PortId) (payload : Bytes) :
    (r.route origin name inPort payload).2 =
      if r.started = true ∧ name ∈ r.components then
        [Effect.post (Task.doProcess ⟨r.address, name⟩ origin inPort payload)]
      else
        [] := by
  unfold route
  by_cases hstarted : r.started = true
  · simp only [hstarted, if_true, true_and]
    cases hlookup : r.components.lookup name with
    | none => rw [if_neg (Finmap.lookup_eq_none.mp hlookup)]
    | some inst => rw [if_pos (Finmap.mem_of_lookup_eq_some hlookup)]
  · rw [if_neg hstarted, if_neg (fun h => hstarted h.left)]

end Router

def messageEffects (n : Protort.Node) (origin : Option Origin)
    (payload : Protocol.Payload) : List Effect :=
  (n.router.route origin payload.asCommunicationPacket.destination.name
    payload.asCommunicationPacket.destination.port
    payload.asCommunicationPacket.payload).2

/-- A message that arrives changes counters and asks for its effects. -/
theorem onNewMessage_ok (env : Platform) (origin : Option Origin)
    (payload : Protocol.Payload) (n : Protort.Node) :
    exists m, onNewMessage env origin payload n =
        EStateM.Result.ok PUnit.unit
          (m.performAll (n.messageEffects origin payload)) ∧
      Worked n m ∧ m.service = n.service ∧ m.outbox = n.outbox := by
  have hworked := router_worked (Router.counted_sameFlags n.router
    (n.router.inBytes + env.byteSize payload) (n.router.inPackets + 1))
  refine ⟨_, ?_, hworked, rfl, rfl⟩
  unfold onNewMessage messageEffects
  simp only [run_modify, Router.route_fst, Router.route_snd]

end Node
end Protort
