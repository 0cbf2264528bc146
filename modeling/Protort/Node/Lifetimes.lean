import Protort.Node.Sparing
import Protort.Node.Silence

/-!
# When routers are destroyed

A router that was replaced is destroyed as soon as no queued call of `do_route`
holds it.  Components hold their router weakly: one that outlives it, because a
queued call holds the component, emits nothing any more.  A node that keeps
every router for ever shows the same, apart from calls of `do_route` that the
router would have dropped.
-/

namespace Protort
namespace Node

open Lib (Bytes Dropping Run Steps SameResult)
open Components (Component Output Origin)

/-!
## Nodes that destroy routers
-/

/-- A node, and the routers that were destroyed. -/
structure Owned where
  node : Protort.Node
  freed : List Nat
deriving DecidableEq

namespace Owned

def new (port : UInt32) (startTime : Nat) : Owned :=
  { node := Node.new port startTime
    freed := [] }

end Owned

def holds (address : Nat) : Task -> Bool
  | Task.doRoute router _ _ => decide (router = address)
  | _ => false

/-- The routers that nothing holds any more are destroyed. -/
def Owned.release (o : Owned) : Owned :=
  { o with
    freed := o.freed ++ (o.node.retired.map (fun r => r.address)).filter
      (fun address => decide (address ∉ o.freed) &&
        !o.node.service.any (holds address)) }

/-- What a component whose router may be destroyed asks of the service:
`lock` finds a router or not. -/
def whenLocked (freed : List Nat) (address : Nat) (effects : List Effect) :
    List Effect :=
  if address ∈ freed then [] else effects

/-- `generate_next`: only the untimed generator asks for its router. -/
def generateNextLocked (freed : List Nat) (ref : ComponentRef) (c : Component) :
    List Effect :=
  match c.kind with
  | Protocol.ComponentKind.timedGenerator =>
      [Effect.cancelWaits ref, Effect.post (Task.timerWait ref false)]
  | _ => whenLocked freed c.router [Effect.post (Task.generate ref)]

/-- `generator::generate`. -/
def generateLocked (env : Platform) (freed : List Nat) (ref : ComponentRef)
    (c : Component) : List Effect :=
  match c.generate env with
  | some outputs =>
      whenLocked freed c.router
          [Effect.post (Task.doRoute c.router c.compInst outputs)] ++
        generateNextLocked freed ref c
  | none => []

def runOwned (env : Platform) (freed : List Nat) (task : Task) :
    Handler PUnit := do
  match task with
  | Task.doProcess ref origin inPort payload =>
      let c ← dereference ref
      let (processed, outputs) := c.doProcess env origin inPort payload
      modify (fun n => n.updateComponent ref processed)
      match outputs with
      | some outputs =>
          modify (fun n => n.performAll (whenLocked freed c.router
            [Effect.post (Task.doRoute c.router c.compInst outputs)]))
      | none => pure ()
  | Task.doRoute _ _ _ => runTask env task
  | Task.generate ref =>
      let c ← dereference ref
      modify (fun n => n.performAll (generateLocked env freed ref c))
  | Task.timerWait ref _ =>
      let c ← dereference ref
      modify (fun n => n.performAll (generateLocked env freed ref c))

/-- A step of a node that destroys routers.  A call that uses a destroyed router
ends the program. -/
def Owned.step (o : Owned) (event : Event) : Option Owned :=
  match event with
  | Event.run env index =>
      match o.node.service[index]? with
      | some task =>
          if o.freed.any (fun address => holds address task) then
            none
          else
            (returned (runOwned env o.freed task
              { o.node with service := o.node.service.eraseIdx index })).map
                (fun n => { o with node := n }.release)
      | none => none
  | _ => (Node.step o.node event).map (fun n => { o with node := n }.release)

/-!
## Tasks of components without a router
-/

section Tasks

variable {freed : List Nat} {n : Protort.Node}

def HoldsNone (freed : List Nat) (task : Task) : Prop :=
  forall address, address ∈ freed -> holds address task = false

theorem router_of_holds {address : Nat} {task : Task}
    (h : holds address task = true) : task.router = address := by
  cases task with
  | doRoute router compInst outputs => exact of_decide_eq_true h
  | _ => cases h

def HoldsSome (freed : List Nat) (task : Task) : Prop :=
  exists address, address ∈ freed ∧ holds address task = true

structure SparesCalls (freed : List Nat) (n m : Protort.Node) : Prop where
  rest : { m with service := n.service } = n
  service : Dropping (HoldsSome freed) n.service m.service

namespace SparesCalls

variable {m k : Protort.Node}

theorem refl (n : Protort.Node) : SparesCalls freed n n :=
  { rest := rfl
    service := Dropping.refl n.service }

theorem trans (h : SparesCalls freed n m) (h' : SparesCalls freed m k) :
    SparesCalls freed n k :=
  { rest := by
      conv_rhs => rw [← h.rest, ← h'.rest]
    service := h.service.trans h'.service }

theorem mono {freed' : List Nat} (h : SparesCalls freed n m)
    (hsub : freed ⊆ freed') : SparesCalls freed' n m :=
  { rest := h.rest
    service := h.service.mono (fun _ hholds => by
      rcases hholds with ⟨address, hfreed, hholds⟩
      exact ⟨address, hsub hfreed, hholds⟩) }

theorem queues (h : SparesCalls freed n m) {xs ys : List Task}
    (hdropping : Dropping (HoldsSome freed) xs ys) :
    SparesCalls freed { n with service := xs } { m with service := ys } :=
  { rest := by
      conv_rhs => rw [← h.rest]
    service := hdropping }

theorem consistent (h : SparesCalls freed n m) (hm : Consistent m) :
    Consistent n := by
  rw [← h.rest]
  exact
    { sound := hm.sound.service (fun _ => h.service.mem)
      oldStopped := hm.oldStopped }

theorem iff_spares : SparesCalls freed n m <->
    Spares (HoldsSome freed) (fun _ => true) [] n m ∧ n.server = m.server := by
  constructor
  · intro h
    have hservice := h.service
    rw [← h.rest]
    exact ⟨⟨rfl, rfl, rfl, rfl, rfl, rfl, rfl, rfl, hservice⟩, rfl⟩
  · intro h
    rcases h with ⟨h, hserver⟩
    have hretired := h.retired
    rw [List.filter_true, List.filter_true] at hretired
    refine ⟨?_, h.service⟩
    rcases n with ⟨next, router, retired, server, nodeName, port, startTime,
      service, outbox⟩
    rcases m with ⟨next', router', retired', server', nodeName', port',
      startTime', service', outbox'⟩
    cases h.router
    cases h.next
    cases h.nodeName
    cases h.port
    cases h.startTime
    cases h.outbox
    cases hserver
    cases hretired
    rfl

end SparesCalls

theorem holdsSome_cancelWait (ref : ComponentRef) (task : Task)
    (h : HoldsSome freed task) : HoldsSome freed (cancelWait ref task) := by
  rcases h with ⟨address, hfreed, hholds⟩
  cases task with
  | doRoute router compInst outputs => exact ⟨address, hfreed, hholds⟩
  | _ => cases hholds

theorem sparesCalls_congruence (freed : List Nat) :
    Congruence (fun _ => True) (SparesCalls freed) := by
  have hR := (@spares_congruence (HoldsSome freed) (fun _ => true) []
    holdsSome_cancelWait (fun _ _ => rfl)).withServer
  have heq : SparesCalls freed = fun n m =>
      Spares (HoldsSome freed) (fun _ => true) [] n m ∧
        n.server = m.server := by
    funext n m
    exact propext SparesCalls.iff_spares
  rw [heq]
  exact { hR with
    current := fun _ => trivial
    found := fun h _ => hR.found h rfl
    routed := fun h _ => hR.routed h rfl }

theorem holdsNone_cancelWait {ref : ComponentRef} {task : Task}
    (h : HoldsNone freed task) : HoldsNone freed (cancelWait ref task) := by
  cases task with
  | doRoute router compInst outputs => exact h
  | _ => exact fun _ _ => rfl

theorem holdsNone_doRoute {router : Nat} (h : router ∉ freed)
    (compInst : Option String) (outputs : List Output) :
    HoldsNone freed (Task.doRoute router compInst outputs) := by
  intro address haddress
  refine decide_eq_false (fun hsame => ?_)
  rw [hsame] at h
  exact h haddress

theorem mem_whenLocked {router : Nat} {effects : List Effect} {effect : Effect}
    (h : effect ∈ whenLocked freed router effects) :
    router ∉ freed ∧ effect ∈ effects := by
  unfold whenLocked at h
  by_cases hfreed : router ∈ freed
  · rw [if_pos hfreed] at h
    cases h
  · rw [if_neg hfreed] at h
    exact ⟨hfreed, h⟩

theorem router_of_started (hn : Consistent n)
    (hold : forall address, address ∈ freed -> address ≠ n.router.address)
    {ref : ComponentRef} {c : Component} (hc : n.findComponent ref = some c)
    (hgen : c.isGenerator = true) (hstarted : c.started = true) :
    c.router ∉ freed := by
  intro hfreed
  rcases hn.sound.flag hc hgen with ⟨r, hr, hflag⟩
  rcases hn.sound.own hc with ⟨hrouter, _⟩
  rw [hrouter] at hfreed
  rw [hn.oldStopped ref.router r (hold _ hfreed) hr, hstarted] at hflag
  cases hflag

theorem generateLocked_eq (hn : Consistent n)
    (hold : forall address, address ∈ freed -> address ≠ n.router.address)
    {ref : ComponentRef} {c : Component} (hc : n.findComponent ref = some c)
    (hgen : c.isGenerator = true) (env : Platform) :
    generateLocked env freed ref c = generateEffects env ref c ∧
      forall task, Effect.post task ∈ generateEffects env ref c ->
        HoldsNone freed task := by
  cases hstarted : c.started with
  | false =>
      have hnone : c.generate env = none := by
        unfold Component.generate
        rw [hstarted]
        rfl
      unfold generateLocked generateEffects
      rw [hnone]
      exact ⟨rfl, fun task htask => absurd htask List.not_mem_nil⟩
  | true =>
      have hrouter := router_of_started hn hold hc hgen hstarted
      constructor
      · unfold generateLocked generateEffects generateNextLocked generateNext
          whenLocked
        simp only [if_neg hrouter]
        rfl
      · intro task htask
        rcases post_generateEffects htask with
          ⟨outputs, _, rfl⟩ | ⟨_, rfl⟩ | ⟨_, rfl⟩
        · exact holdsNone_doRoute hrouter c.compInst outputs
        · exact fun _ _ => rfl
        · exact fun _ _ => rfl

def processLocked (env : Platform) (freed : List Nat) (c : Component)
    (inPort : Parser.PortId) (payload : Bytes) : List Effect :=
  match c.process env inPort payload with
  | some outputs =>
      whenLocked freed c.router
        [Effect.post (Task.doRoute c.router c.compInst outputs)]
  | none => []

theorem runOwned_doProcess (env : Platform) {ref : ComponentRef} {c : Component}
    (hc : n.findComponent ref = some c) (origin : Option Origin)
    (inPort : Parser.PortId) (payload : Bytes) :
    runOwned env freed (Task.doProcess ref origin inPort payload) n =
      EStateM.Result.ok PUnit.unit
        ((n.updateComponent ref
          (c.doProcess env origin inPort payload).1).performAll
            (processLocked env freed c inPort payload)) := by
  unfold runOwned processLocked
  simp only []
  rw [Lib.Exceptions.bind_ok (dereference_ok hc),
    Lib.Exceptions.run_modify_bind]
  unfold Component.doProcess
  simp only []
  cases c.process env inPort payload with
  | none => rfl
  | some outputs => rfl

theorem runOwned_generate (env : Platform) {ref : ComponentRef} {c : Component}
    (hc : n.findComponent ref = some c) :
    runOwned env freed (Task.generate ref) n =
      EStateM.Result.ok PUnit.unit
        (n.performAll (generateLocked env freed ref c)) := by
  unfold runOwned
  simp only []
  rw [Lib.Exceptions.bind_ok (dereference_ok hc)]
  rfl

theorem runOwned_timerWait (env : Platform) {ref : ComponentRef}
    {c : Component} (hc : n.findComponent ref = some c) (cancelled : Bool) :
    runOwned env freed (Task.timerWait ref cancelled) n =
      EStateM.Result.ok PUnit.unit
        (n.performAll (generateLocked env freed ref c)) := by
  unfold runOwned
  simp only []
  rw [Lib.Exceptions.bind_ok (dereference_ok hc)]
  rfl

/-- A task does the same whether routers are destroyed or not, but for the call
of `do_route` of a destroyed router that a component would post. -/
structure RunsAlike (env : Platform) (freed : List Nat) (task : Task)
    (n m : Protort.Node) (effects effects' : List Effect) : Prop where
  keeping : runTask env task n =
    EStateM.Result.ok PUnit.unit (m.performAll effects)
  owning : runOwned env freed task n =
    EStateM.Result.ok PUnit.unit (m.performAll effects')
  worked : Worked n m
  service : m.service = n.service
  intact : forall task', Effect.post task' ∈ effects' -> HoldsNone freed task'
  alike : effects' = effects ∨ exists address compInst outputs,
    address ∈ freed ∧ effects' = [] ∧
    effects = [Effect.post (Task.doRoute address compInst outputs)]

theorem RunsAlike.spares {env : Platform} {task : Task} {m : Protort.Node}
    {effects effects' : List Effect}
    (h : RunsAlike env freed task n m effects effects') :
    SparesCalls freed (m.performAll effects') (m.performAll effects) := by
  rcases h.alike with heq | ⟨address, compInst, outputs, hfreed, hnone, hone⟩
  · rw [heq]
    exact
      { rest := rfl
        service := Dropping.refl _ }
  · rw [hnone, hone]
    refine
      { rest := rfl
        service := (Dropping.refl m.service).append_right ?_ }
    intro task htask
    cases List.mem_singleton.mp htask
    exact ⟨address, hfreed, decide_eq_true rfl⟩

theorem runOwned_ok (hn : Consistent n)
    (hold : forall address, address ∈ freed -> address ≠ n.router.address)
    (env : Platform) {task : Task} (htask : TaskSound n task) :
    exists m effects effects',
      RunsAlike env freed task n m effects effects' := by
  cases task with
  | doProcess ref origin inPort payload =>
      rcases htask with ⟨c, hc⟩
      exact ⟨_, _, _,
        { keeping := runTask_doProcess env hc origin inPort payload
          owning := runOwned_doProcess env hc origin inPort payload
          worked := updateComponent_worked hc rfl rfl
          service := service_updateComponent n ref _
          intact := by
            intro task' hposted
            unfold processLocked at hposted
            cases hprocess : c.process env inPort payload with
            | none =>
                rw [hprocess] at hposted
                cases hposted
            | some outputs =>
                rw [hprocess] at hposted
                rcases mem_whenLocked hposted with ⟨hrouter, hmem⟩
                cases List.mem_singleton.mp hmem
                exact holdsNone_doRoute hrouter _ _
          alike := by
            unfold processLocked processEffects
            cases c.process env inPort payload with
            | none => exact Or.inl rfl
            | some outputs =>
                by_cases hfreed : c.router ∈ freed
                · exact Or.inr ⟨c.router, c.compInst, outputs, hfreed,
                    if_pos hfreed, rfl⟩
                · exact Or.inl (if_neg hfreed) }⟩
  | doRoute address compInst outputs =>
      rcases htask with ⟨r, name, hr, rfl, hname⟩
      exact ⟨_, _, _,
        { keeping := runTask_doRoute env hr name outputs
          owning := runTask_doRoute env hr name outputs
          worked := updateRouter_worked hr
            (Router.doRoute_sameFlags env hname outputs)
          service := service_updateRouter n _
          intact := by
            intro task' hposted
            rcases (Router.doRoute_posts env hname hposted).right with
              ⟨_, _, _, _, _, _, _, rfl⟩
            exact fun _ _ => rfl
          alike := Or.inl rfl }⟩
  | generate ref =>
      rcases htask with ⟨c, hc, hkind⟩
      have hgen : c.isGenerator = true := by
        unfold Component.isGenerator
        rw [hkind]
      rcases generateLocked_eq hn hold hc hgen env with ⟨heq, hnone⟩
      exact ⟨n, _, _,
        { keeping := runTask_generate env hc
          owning := runOwned_generate env hc
          worked := Worked.of_eq rfl rfl rfl
          service := rfl
          intact := by
            rw [heq]
            exact hnone
          alike := Or.inl heq }⟩
  | timerWait ref cancelled =>
      rcases htask with ⟨c, hc, hkind⟩
      have hgen : c.isGenerator = true := by
        unfold Component.isGenerator
        rw [hkind]
      rcases generateLocked_eq hn hold hc hgen env with ⟨heq, hnone⟩
      exact ⟨n, _, _,
        { keeping := runTask_timerWait env hc cancelled
          owning := runOwned_timerWait env hc cancelled
          worked := Worked.of_eq rfl rfl rfl
          service := rfl
          intact := by
            rw [heq]
            exact hnone
          alike := Or.inl heq }⟩

end Tasks

/-!
## Steps
-/

/-- A node that destroys routers and one that keeps them.  What is destroyed is
not held by any queued call; what was replaced and is not destroyed is. -/
structure Agrees (o : Owned) (n : Protort.Node) : Prop where
  consistent : Consistent n
  spares : SparesCalls o.freed o.node n
  old : forall address, address ∈ o.freed -> address < o.node.router.address
  intact : forall task, task ∈ o.node.service -> HoldsNone o.freed task
  kept : forall r, r ∈ o.node.retired -> r.address ∉ o.freed ->
    exists task, task ∈ o.node.service ∧ holds r.address task = true

theorem release_agrees {o : Owned} {n : Protort.Node} (hn : Consistent n)
    (hspares : SparesCalls o.freed o.node n)
    (hold : forall address, address ∈ o.freed ->
      address < o.node.router.address)
    (hintact : forall task, task ∈ o.node.service -> HoldsNone o.freed task) :
    Agrees o.release n := by
  have hmem : forall address, address ∈ o.release.freed <->
      address ∈ o.freed ∨
        ((exists r, r ∈ o.node.retired ∧ r.address = address) ∧
          address ∉ o.freed ∧
          o.node.service.any (holds address) = false) := by
    intro address
    unfold Owned.release
    rw [List.mem_append, List.mem_filter, List.mem_map, Bool.and_eq_true,
      decide_eq_true_iff, Bool.not_eq_true']
  exact
    { consistent := hn
      spares := hspares.mono (List.subset_append_left _ _)
      old := by
        intro address haddress
        rcases (hmem address).mp haddress with hfreed | ⟨⟨r, hr, rfl⟩, _⟩
        · exact hold address hfreed
        · have hnumbered := (hspares.consistent hn).sound.numbered
          have hless := List.mem_map_of_mem (f := Router.address) hr
          rw [show o.node.retired.map (fun r => r.address) = _ from hnumbered,
            List.mem_reverse, List.mem_range] at hless
          exact hless
      intact := by
        intro task htask address haddress
        rcases (hmem address).mp haddress with hfreed | ⟨_, _, hnone⟩
        · exact hintact task htask address hfreed
        · exact Bool.eq_false_iff.mpr (List.any_eq_false.mp hnone task htask)
      kept := by
        intro r hr hkept
        cases hany : o.node.service.any (holds r.address) with
        | true => exact List.any_eq_true.mp hany
        | false =>
            refine absurd ((hmem r.address).mpr ?_) hkept
            by_cases hfreed : r.address ∈ o.freed
            · exact Or.inl hfreed
            · exact Or.inr ⟨⟨r, hr, rfl⟩, hfreed, hany⟩ }

section Steps

variable {o o' : Owned} {n n' : Protort.Node} {event : Event}

theorem step_arrived (o : Owned) (harrives : event.arrives = true) :
    o.step event =
      (step o.node event).map (fun n => { o with node := n }.release) := by
  cases event with
  | run env index => cases harrives
  | _ => rfl

theorem Agrees.arrived {m : Protort.Node} (h : Agrees o n)
    (hstep : step o.node event = some m) (hkeeping : step n event = some n')
    (hspares : SparesCalls o.freed m n') (harrives : event.arrives = true) :
    Agrees { o with node := m }.release n' := by
  have hn := h.spares.consistent h.consistent
  rcases arrived_spec hn hstep harrives with
    ⟨hle, effects, hservice, hposted⟩
  apply release_agrees (step_consistent hkeeping h.consistent) hspares
  · intro address haddress
    exact Nat.lt_of_lt_of_le (h.old address haddress) hle
  · intro task htask
    change task ∈ m.service at htask
    rw [hservice] at htask
    refine foldl_serve_forall (fun _ _ => holdsNone_cancelWait) h.intact ?_
      task htask
    intro task' htask' address haddress
    apply Bool.eq_false_iff.mpr
    intro hholds
    have hless := h.old address haddress
    rw [← router_of_holds hholds, hposted task' htask'] at hless
    exact absurd hle (Nat.not_le_of_gt hless)

theorem Agrees.ran (h : Agrees o n) {env : Platform} {index index' : Nat}
    {task : Task} (htask : o.node.service[index]? = some task)
    (htask' : n.service[index']? = some task)
    (hdropping : Dropping (HoldsSome o.freed) (o.node.service.eraseIdx index)
      (n.service.eraseIdx index')) :
    exists o' n', o.step (Event.run env index) = some o' ∧
      step n (Event.run env index') = some n' ∧ Agrees o' n' := by
  have hn := h.spares.consistent h.consistent
  have hmem := List.mem_of_getElem? htask
  have hsound : TaskSound { o.node with
      service := o.node.service.eraseIdx index } task :=
    hn.sound.tasks task hmem
  have htaken : Consistent { o.node with
      service := o.node.service.eraseIdx index } :=
    { sound := hn.sound.eraseIdx index
      oldStopped := hn.oldStopped }
  rcases runOwned_ok htaken (fun address haddress =>
      Nat.ne_of_lt (h.old address haddress)) env hsound with
    ⟨m, effects, effects', halike⟩
  have hsame := @relates_runTask _ _ (sparesCalls_congruence _) env
    task trivial _ _ (h.spares.queues hdropping)
  rw [halike.keeping] at hsame
  rcases hsame.exists_ok with ⟨n', hrun, hspares⟩
  have hstep := step_of_runTask htask' hrun
  refine ⟨{ o with node := m.performAll effects' }.release, n', ?_, hstep,
    release_agrees (step_consistent hstep h.consistent)
      (halike.spares.trans hspares) ?_ ?_⟩
  · unfold Owned.step
    simp only [htask]
    rw [if_neg, halike.owning]
    · rfl
    · intro hany
      rcases List.any_eq_true.mp hany with ⟨address, haddress, hholds⟩
      rw [h.intact task hmem address haddress] at hholds
      cases hholds
  · intro address haddress
    change address < (m.performAll effects').router.address
    rw [router_performAll, halike.worked.current]
    exact h.old address haddress
  · intro task' htask'
    change task' ∈ (m.performAll effects').service at htask'
    rw [service_performAll, halike.service] at htask'
    exact foldl_serve_forall (fun _ _ => holdsNone_cancelWait)
      (fun t ht => h.intact t (List.mem_of_mem_eraseIdx ht)) halike.intact
      task' htask'

/-- A step of a node that destroys routers is one of the node that keeps
them. -/
theorem Agrees.keeping (h : Agrees o n) (hstep : o.step event = some o') :
    exists event' n', step n event' = some n' ∧
      [event'].filter Event.arrives = [event].filter Event.arrives ∧
      Agrees o' n' := by
  have harrived : event.arrives = true ->
      exists event' n', step n event' = some n' ∧
        [event'].filter Event.arrives = [event].filter Event.arrives ∧
        Agrees o' n' := by
    intro harrives
    rw [step_arrived o harrives] at hstep
    rcases Option.map_eq_some_iff.mp hstep with ⟨m, hm, rfl⟩
    rcases Lib.rel_some_left ((sparesCalls_congruence _).arrived h.spares
      harrives) hm with ⟨n', hn', hspares⟩
    exact ⟨event, n', hn', rfl, h.arrived hm hn' hspares harrives⟩
  cases event with
  | request env payload => exact harrived rfl
  | message env origin payload => exact harrived rfl
  | run env index =>
      cases htask : o.node.service[index]? with
      | none =>
          unfold Owned.step at hstep
          simp only [htask] at hstep
          cases hstep
      | some task =>
          rcases h.spares.service.eraseIdx htask with
            ⟨index', htask', hdropping⟩
          rcases @Agrees.ran _ _ h env _ _ _ htask htask' hdropping with
            ⟨o'', n', hrun, hkeeping, hagrees⟩
          rw [hstep] at hrun
          cases hrun
          exact ⟨Event.run env index', n', hkeeping, rfl, hagrees⟩

/-- A step of a node that keeps routers is one of the node that destroys them,
or the call of a router that was destroyed. -/
theorem Agrees.owning (h : Agrees o n) (hstep : step n event = some n') :
    exists events o', Run (Steps Owned.step) o events o' ∧
      events.filter Event.arrives = [event].filter Event.arrives ∧
      Agrees o' n' := by
  have harrived : event.arrives = true ->
      exists events o', Run (Steps Owned.step) o events o' ∧
        events.filter Event.arrives = [event].filter Event.arrives ∧
        Agrees o' n' := by
    intro harrives
    rcases Lib.rel_some_right ((sparesCalls_congruence _).arrived h.spares
      harrives) hstep with ⟨m, hm, hspares⟩
    have howned := (step_arrived o harrives).trans
      (congrArg (Option.map _) hm)
    exact ⟨[event], _, Run.single howned, rfl,
      h.arrived hm hstep hspares harrives⟩
  cases event with
  | request env payload =>
      exact harrived rfl
  | message env origin payload =>
      exact harrived rfl
  | run env index =>
      rcases step_run hstep with ⟨task, htask, hrun⟩
      rcases h.spares.service.eraseIdx_right htask with
        ⟨index', htask', hdropping⟩ |
        ⟨⟨address, hfreed, hholds⟩, hdropping⟩
      · rcases @Agrees.ran _ _ h env _ _ _ htask' htask hdropping with
          ⟨o', n'', howned, hkeeping, hagrees⟩
        rw [hstep] at hkeeping
        cases hkeeping
        exact ⟨[Event.run env index'], o', Run.single howned, rfl, hagrees⟩
      · have hsound := h.consistent.sound.tasks _ (List.mem_of_getElem? htask)
        have hne : address ≠ n.router.address := by
          rw [← (sparesCalls_congruence _).router h.spares]
          exact Nat.ne_of_lt (h.old address hfreed)
        have htaken : Consistent { n with
            service := n.service.eraseIdx index } :=
          { sound := h.consistent.sound.eraseIdx index
            oldStopped := h.consistent.oldStopped }
        have hnothing : runTask env task { n with
            service := n.service.eraseIdx index } =
              EStateM.Result.ok PUnit.unit
                { n with service := n.service.eraseIdx index } := by
          cases task with
          | doRoute router compInst outputs =>
              cases of_decide_eq_true hholds
              exact run_stopped htaken hsound hne
          | _ => cases hholds
        rw [hnothing] at hrun
        cases hrun
        exact ⟨[], o, Run.nil o, rfl,
          { h with
            consistent := htaken
            spares := @SparesCalls.queues _ _ _ h.spares _ _ hdropping }⟩

end Steps

/-!
## Runs
-/

theorem agrees_new (port : UInt32) (startTime : Nat) :
    Agrees (Owned.new port startTime) (new port startTime) :=
  { consistent := consistent_new port startTime
    spares := SparesCalls.refl _
    old := fun _ h => absurd h List.not_mem_nil
    intact := fun _ h => absurd h List.not_mem_nil
    kept := fun _ h => absurd h List.not_mem_nil }

/-- What a node that destroys routers shows of the one that keeps them: the same
but for dropped calls, to whatever request the same answer; and none of its
queued calls holds a router that was destroyed, while every other one that was
replaced is held. -/
structure Shows (o : Owned) (n : Protort.Node) : Prop where
  spares : SparesCalls o.freed o.node n
  answers : forall env payload, SameResult (SparesCalls o.freed)
    (onNewRequest env payload o.node) (onNewRequest env payload n)
  destroyed : forall r, r ∈ o.node.retired ->
    (r.address ∈ o.freed <->
      forall task, task ∈ o.node.service -> holds r.address task = false)

theorem Agrees.shows {o : Owned} {n : Protort.Node} (h : Agrees o n) :
    Shows o n :=
  { spares := h.spares
    answers := fun env payload =>
      relates_onNewRequest (sparesCalls_congruence _) env payload _ _ h.spares
    destroyed := by
      intro r hr
      constructor
      · intro hfreed task htask
        exact h.intact task htask r.address hfreed
      · intro hnone
        by_contra hkept
        rcases h.kept r hr hkept with ⟨task, htask, hholds⟩
        rw [hnone task htask] at hholds
        cases hholds }

/-- Destroying a router that was replaced, as soon as no queued call holds it,
is safe and cannot be observed: with the same arrivals a node that does and one
that keeps every router reach the same states, up to calls that would have done
nothing. -/
theorem destroying_is_invisible (port : UInt32) (startTime : Nat) :
    (forall events o,
      Run (Steps Owned.step) (Owned.new port startTime) events o ->
      exists events' n, Run (Steps step) (new port startTime) events' n ∧
        events'.filter Event.arrives = events.filter Event.arrives ∧
        Shows o n) ∧
    (forall events n, Run (Steps step) (new port startTime) events n ->
      exists events' o,
        Run (Steps Owned.step) (Owned.new port startTime) events' o ∧
        events'.filter Event.arrives = events.filter Event.arrives ∧
        Shows o n) := by
  constructor
  · intro events o hrun
    rcases hrun.matched (S := Agrees) Event.arrives (fun hstep h => by
        rcases Agrees.keeping h hstep with ⟨event', n', hkeeping, hsame, h'⟩
        exact ⟨[event'], n', Run.single hkeeping, hsame, h'⟩)
      (agrees_new port startTime) with ⟨events', n, hrun', hsame, h⟩
    exact ⟨events', n, hrun', hsame, h.shows⟩
  · intro events n hrun
    rcases hrun.matched (S := fun n o => Agrees o n) Event.arrives
      (fun hstep h => Agrees.owning h hstep) (agrees_new port startTime) with
      ⟨events', o, hrun', hsame, h⟩
    exact ⟨events', o, hrun', hsame, h.shows⟩

/-- A packet for a component, which is replaced when it has processed the packet
or before. -/
def overtaken (processed : Bool) : List Event :=
  let deploy := deployRequest (lonely Protocol.ComponentKind.retranslator)
  let packet : Event :=
    Event.message Platform.loopback none
      (Protocol.Payload.communicationPacket
        { source := ⟨0, "a"⟩
          destination := ⟨0, "g"⟩
          payload := [1] })
  [deploy, command Protocol.Deploy.PacketKind.start, packet] ++
    if processed then [Event.run Platform.loopback 0, deploy] else
      [deploy, Event.run Platform.loopback 0]

-- The call of `do_route` holds the router, that of `do_process` does not.
example :
    (Lib.execute Owned.step (Owned.new 100 0) (overtaken true)).map
      (fun o => (o.freed, o.node.service.length)) = some ([0], 1) ∧
    (Lib.execute Owned.step (Owned.new 100 0) (overtaken false)).map
      (fun o => (o.freed, o.node.service.length)) = some ([0, 1], 0) := by
  decide +kernel

end Node
end Protort
