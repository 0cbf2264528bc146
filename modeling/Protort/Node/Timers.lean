import Protort.Node.Generators

/-!
# Waits of timed generators

A wait is queued from the time it is armed to the time its handler has run.  A
handler that runs for a cancelled wait does no harm as long as its generator is
stopped, so that all goes well when every Start request finds no waits left.
-/

namespace Protort
namespace Node

open Lib (Run Steps Guarded tally)
open Components (Component)

def isWait (ref : ComponentRef) (task : Task) : Bool :=
  match task with
  | Task.timerWait other _ => decide (other = ref)
  | _ => false

def isOutput (ref : ComponentRef) (task : Task) : Bool :=
  match task with
  | Task.doRoute address compInst _ =>
      decide (address = ref.router ∧ compInst = some ref.name)
  | _ => false

/-!
## Emissions and what causes them
-/

/-- How many lists of outputs of a component a step queues. -/
def emissions (ref : ComponentRef) (n : Protort.Node) (_ : Event)
    (n' : Protort.Node) : Nat :=
  n'.service.countP (isOutput ref) - n.service.countP (isOutput ref)

def callsStart (ref : ComponentRef) (n : Protort.Node) (event : Event)
    (n' : Protort.Node) : Nat :=
  match event with
  | Event.request _ _ =>
      if ref.router = n'.router.address ∧ n'.router.started = true ∧
          (startOrStop event = some Protocol.Deploy.PacketKind.start ∨
            n.router.address ≠ n'.router.address) then 1 else 0
  | _ => 0

def expires (ref : ComponentRef) (n : Protort.Node) (event : Event)
    (_ : Protort.Node) : Nat :=
  match event with
  | Event.run _ index =>
      if n.service[index]? = some (Task.timerWait ref false) then 1 else 0
  | _ => 0

def occasions (ref : ComponentRef) (n : Protort.Node) (event : Event)
    (n' : Protort.Node) : Nat :=
  callsStart ref n event n' + expires ref n event n'

def IsTimed (n : Protort.Node) (ref : ComponentRef) : Prop :=
  exists c, n.findComponent ref = some c ∧
    c.kind = Protocol.ComponentKind.timedGenerator

/-- Timed generators emit when they are started or when a wait expires. -/
def Paced (n : Protort.Node) (event : Event) (n' : Protort.Node) : Prop :=
  forall ref, IsTimed n' ref ->
    emissions ref n event n' <= occasions ref n event n'

/-- A Start request finds no wait of a generator of the current router
queued. -/
def WaitsOver (n : Protort.Node) (event : Event) : Prop :=
  startOrStop event = some Protocol.Deploy.PacketKind.start ->
    forall ref cancelled, Task.timerWait ref cancelled ∈ n.service ->
      ref.router ≠ n.router.address

/-- Every timed generator has one wait queued at most, and when the current
router is started none of its waits is cancelled. -/
structure Calm (n : Protort.Node) : Prop where
  one : forall ref, n.service.countP (isWait ref) <= 1
  armed : n.router.started = true -> forall ref,
    ref.router = n.router.address -> Task.timerWait ref true ∉ n.service

/-!
## Waits in a queue
-/

section Queue

variable {env : Platform} {n n' m : Protort.Node} {ref : ComponentRef}
  {service : List Task} {effects : List Effect}

theorem isWait_cancelWait (ref other : ComponentRef) (task : Task) :
    isWait ref (cancelWait other task) = isWait ref task := by
  cases task with
  | _ => rfl

theorem isOutput_cancelWait (ref other : ComponentRef) (task : Task) :
    isOutput ref (cancelWait other task) = isOutput ref task := by
  cases task with
  | _ => rfl

theorem countP_isWait_pos :
    0 < service.countP (isWait ref) <->
      exists cancelled, Task.timerWait ref cancelled ∈ service := by
  rw [List.countP_pos_iff]
  constructor
  · intro h
    rcases h with ⟨task, htask, hwait⟩
    cases task with
    | timerWait other cancelled =>
        rw [← show other = ref from of_decide_eq_true hwait]
        exact ⟨cancelled, htask⟩
    | _ => cases hwait
  · intro h
    rcases h with ⟨cancelled, hmem⟩
    exact ⟨_, hmem, decide_eq_true rfl⟩

def SparesWaits (ref : ComponentRef) (effects : List Effect) : Prop :=
  forall effect, effect ∈ effects -> effect ≠ Effect.cancelWaits ref ∧
    forall cancelled, effect ≠ Effect.post (Task.timerWait ref cancelled)

theorem mem_map_cancelWait {other : ComponentRef} (hother : other ≠ ref)
    (cancelled : Bool) :
    Task.timerWait ref cancelled ∈ service.map (cancelWait other) <->
      Task.timerWait ref cancelled ∈ service := by
  rw [List.mem_map]
  constructor
  · intro h
    rcases h with ⟨task, htask, heq⟩
    cases task with
    | timerWait ref' cancelled' =>
        injection heq with href hcancelled
        subst ref'
        rw [decide_eq_false (Ne.symm hother), Bool.or_false] at hcancelled
        rw [← hcancelled]
        exact htask
    | _ => cases heq
  · intro hmem
    refine ⟨_, hmem, ?_⟩
    show Task.timerWait ref (cancelled || decide (ref = other)) = _
    rw [decide_eq_false (Ne.symm hother), Bool.or_false]

theorem SparesWaits.mem_serve (h : SparesWaits ref effects)
    (cancelled : Bool) :
    Task.timerWait ref cancelled ∈ effects.foldl serve service <->
      Task.timerWait ref cancelled ∈ service := by
  induction effects generalizing service with
  | nil => exact Iff.rfl
  | cons effect rest ih =>
      rw [List.foldl_cons,
        ih (fun e he => h e (List.mem_cons_of_mem effect he))]
      rcases h effect List.mem_cons_self with ⟨hcancel, hpost⟩
      cases effect with
      | post task =>
          show _ ∈ service ++ [task] <-> _
          rw [List.mem_append, List.mem_singleton]
          constructor
          · intro hcases
            rcases hcases with hmem | rfl
            · exact hmem
            · exact absurd rfl (hpost cancelled)
          · exact Or.inl
      | cancelWaits other =>
          have hother : other ≠ ref := by
            intro heq
            subst heq
            exact hcancel rfl
          exact mem_map_cancelWait hother cancelled
      | send client origin payload => exact Iff.rfl

theorem cancelled_serve
    (hmem : Task.timerWait ref true ∈ service) :
    Task.timerWait ref true ∈ effects.foldl serve service := by
  induction effects generalizing service with
  | nil => exact hmem
  | cons effect rest ih =>
      apply ih
      cases effect with
      | post task => exact List.mem_append_left [task] hmem
      | cancelWaits other => exact List.mem_map.mpr ⟨_, hmem, rfl⟩
      | send client origin payload => exact hmem

theorem cancelWaits_serve {cancelled : Bool}
    (hmem : Task.timerWait ref cancelled ∈ service)
    (hcancel : Effect.cancelWaits ref ∈ effects) :
    Task.timerWait ref true ∈ effects.foldl serve service := by
  induction effects generalizing service cancelled with
  | nil => cases hcancel
  | cons effect rest ih =>
      rw [List.foldl_cons]
      rcases List.mem_cons.mp hcancel with rfl | hrest
      · apply cancelled_serve
        refine List.mem_map.mpr ⟨_, hmem, ?_⟩
        show Task.timerWait ref (cancelled || decide (ref = ref)) = _
        rw [decide_eq_true rfl, Bool.or_true]
      · cases effect with
        | post task => exact ih (List.mem_append_left [task] hmem) hrest
        | cancelWaits other => exact ih (List.mem_map.mpr ⟨_, hmem, rfl⟩) hrest
        | send client origin payload => exact ih hmem hrest

theorem SparesWaits.nil (ref : ComponentRef) : SparesWaits ref [] :=
  fun _ heffect => absurd heffect List.not_mem_nil

theorem SparesWaits.flatMap {xs : List ComponentRef}
    {f : ComponentRef -> List Effect}
    (h : forall x, x ∈ xs -> SparesWaits ref (f x)) :
    SparesWaits ref (xs.flatMap f) := by
  intro effect heffect
  rcases List.mem_flatMap.mp heffect with ⟨x, hx, hmem⟩
  exact h x hx effect hmem

theorem generateEffects_spares {c : Component} (env : Platform)
    {other : ComponentRef} (h : other = ref ->
      c.kind ≠ Protocol.ComponentKind.timedGenerator) :
    SparesWaits ref (generateEffects env other c) := by
  by_cases hstarted : c.started = true
  · rcases generateEffects_started hstarted env other with ⟨outputs, heq⟩
    rw [heq]
    unfold generateNext
    split
    · have hother : other ≠ ref := fun heq => absurd ‹_› (h heq)
      intro effect heffect
      simp only [List.mem_cons, List.not_mem_nil, or_false] at heffect
      rcases heffect with rfl | rfl | rfl
      · exact ⟨nofun, nofun⟩
      · refine ⟨?_, nofun⟩
        intro hcancel
        injection hcancel with href
        exact hother href
      · constructor
        · exact nofun
        intro cancelled hpost
        injection hpost with htask
        injection htask with href _
        exact hother href
    · intro effect heffect
      simp only [List.mem_cons, List.not_mem_nil, or_false] at heffect
      rcases heffect with rfl | rfl
      · exact ⟨nofun, nofun⟩
      · exact ⟨nofun, nofun⟩
  · rw [generateEffects_stopped (Bool.eq_false_of_not_eq_true hstarted)]
    exact SparesWaits.nil ref

theorem generateEffects_armed (env : Platform) (c : Component)
    (hnone : forall cancelled, Task.timerWait ref cancelled ∉ service) :
    Task.timerWait ref true ∉
      (generateEffects env ref c).foldl serve service := by
  by_cases htimed : c.kind = Protocol.ComponentKind.timedGenerator
  · by_cases hstarted : c.started = true
    · rcases generateEffects_started hstarted env ref with ⟨outputs, heq⟩
      rw [heq, generateNext_timed htimed]
      intro hmem
      rcases List.mem_append.mp hmem with hcancelled | hnew
      · rcases List.mem_map.mp hcancelled with ⟨task, htask, heq⟩
        rcases List.mem_append.mp htask with hold | hroute
        · cases task with
          | timerWait other cancelled =>
              injection heq with href _
              subst other
              exact hnone cancelled hold
          | _ => cases heq
        · rw [List.mem_singleton.mp hroute] at heq
          cases heq
      · cases List.mem_singleton.mp hnew
    · rw [generateEffects_stopped (Bool.eq_false_of_not_eq_true hstarted)]
      exact hnone true
  · rw [(generateEffects_spares env (fun _ => htimed)).mem_serve]
    exact hnone true

theorem refEffects_spares (env : Platform) {other : ComponentRef}
    (hother : other ≠ ref) :
    SparesWaits ref ((Switch.start env).refEffects m other) := by
  unfold Switch.refEffects
  cases m.findComponent other with
  | none => exact SparesWaits.nil ref
  | some c =>
      simp only
      split_ifs
      · exact generateEffects_spares (c := { c with started := true }) env
          (fun heq => absurd heq hother)
      · exact SparesWaits.nil ref

theorem start_armed (env : Platform) (m : Protort.Node) (address : Nat)
    (hnone : forall cancelled, Task.timerWait ref cancelled ∉ service) :
    Task.timerWait ref true ∉
      ((Switch.start env).allEffects address m).foldl serve service := by
  have hothers : forall refs : List ComponentRef, ref ∉ refs ->
      SparesWaits ref (refs.flatMap ((Switch.start env).refEffects m)) := by
    intro refs href
    apply SparesWaits.flatMap
    intro other hother
    apply refEffects_spares
    intro heq
    subst heq
    exact href hother
  unfold Switch.allEffects
  by_cases href : ref ∈ componentRefs m address
  · have hnodup := Switch.nodup_componentRefs m address
    rcases List.append_of_mem href with ⟨front, back, hsplit⟩
    rw [hsplit] at hnodup ⊢
    rcases List.nodup_append.mp hnodup with ⟨_, hback, hfront⟩
    have hfront' : ref ∉ front := fun hmem =>
      hfront ref hmem ref List.mem_cons_self rfl
    rw [List.flatMap_append, List.flatMap_cons, List.foldl_append,
      List.foldl_append, (hothers back (List.nodup_cons.mp hback).left).mem_serve]
    have hstill : forall cancelled, Task.timerWait ref cancelled ∉
        (front.flatMap ((Switch.start env).refEffects m)).foldl serve
          service := by
      intro cancelled
      rw [(hothers front hfront').mem_serve]
      exact hnone cancelled
    unfold Switch.refEffects at hstill ⊢
    cases m.findComponent ref with
    | none => exact hstill true
    | some c =>
        simp only
        split_ifs
        · exact generateEffects_armed env { c with started := true } hstill
        · exact hstill true
  · rw [(hothers _ href).mem_serve]
    exact hnone true

theorem countP_wait_generateEffects {c : Component} (env : Platform)
    (other : ComponentRef) :
    (posted (generateEffects env other c)).countP (isWait ref) =
      if other = ref ∧ c.started = true ∧
          c.kind = Protocol.ComponentKind.timedGenerator then 1 else 0 := by
  by_cases hstarted : c.started = true
  · rcases posted_generateEffects hstarted env other with ⟨outputs, heq⟩
    have hwait : isWait ref (nextTask other c) = true <->
        other = ref ∧ c.kind = Protocol.ComponentKind.timedGenerator := by
      unfold isWait nextTask
      split_ifs with hkind
      · simp [hkind]
      · simp [hkind]
    rw [heq, List.countP_cons, List.countP_singleton]
    simp only [hwait, hstarted, true_and]
    rfl
  · rw [if_neg (fun h => hstarted h.right.left),
      generateEffects_stopped (Bool.eq_false_of_not_eq_true hstarted)]
    rfl

theorem countP_wait_start (env : Platform) (m : Protort.Node)
    (address : Nat) :
    (posted ((Switch.start env).allEffects address m)).countP (isWait ref) =
      if StartsKind m address ref Protocol.ComponentKind.timedGenerator then 1
      else 0 := by
  apply countP_start ref (Or.inr rfl)
  intro other c _ _
  rw [countP_wait_generateEffects]
  apply if_congr _ rfl rfl
  exact ⟨fun h => ⟨h.left, h.right.right⟩, fun h => ⟨h.left, rfl, h.right⟩⟩

theorem countP_output_generateEffects {c : Component} (env : Platform)
    {other : ComponentRef}
    (hown : c.router = other.router ∧ c.compInst = some other.name) :
    (posted (generateEffects env other c)).countP (isOutput ref) =
      if other = ref ∧ c.started = true then 1 else 0 := by
  by_cases hstarted : c.started = true
  · rcases posted_generateEffects hstarted env other with ⟨outputs, heq⟩
    have hnext : isOutput ref (nextTask other c) = false := by
      unfold nextTask
      split_ifs <;> rfl
    have hsame : isOutput ref (Task.doRoute c.router c.compInst outputs) =
        decide (other = ref) := by
      unfold isOutput
      simp only
      rw [hown.left, hown.right, decide_eq_decide, Option.some.injEq]
      rcases other with ⟨router, name⟩
      rcases ref with ⟨router', name'⟩
      rw [ComponentRef.mk.injEq]
    rw [heq, List.countP_cons, List.countP_singleton, hnext, hsame,
      if_neg Bool.false_ne_true, Nat.zero_add]
    apply if_congr _ rfl rfl
    rw [decide_eq_true_iff]
    exact ⟨fun h => ⟨h, hstarted⟩, fun h => h.left⟩
  · rw [if_neg (fun h => hstarted h.right),
      generateEffects_stopped (Bool.eq_false_of_not_eq_true hstarted)]
    rfl

end Queue

/-!
## Steps
-/

section Steps

variable {env : Platform} {n n' m : Protort.Node} {ref : ComponentRef}

theorem IsTimed.keeps (h : IsTimed n ref) (hkeeps : Keeps n n') :
    IsTimed n' ref := by
  rcases h with ⟨c, hc, hkind⟩
  rcases hkeeps.component hc with ⟨c', hc', hview⟩
  have hsame : c'.kind = c.kind := congrArg ObjectView.kind hview
  exact ⟨c', hc', hsame.trans hkind⟩

theorem IsTimed.kind (h : IsTimed n' ref) (hkeeps : Keeps n n')
    {c : Component} (hc : n.findComponent ref = some c) :
    c.kind = Protocol.ComponentKind.timedGenerator := by
  rcases h with ⟨c', hc', hkind⟩
  rcases hkeeps.component hc with ⟨c'', hc'', hview⟩
  rw [hc'] at hc''
  rcases Option.some.inj hc'' with rfl
  have hsame : c'.kind = c.kind := congrArg ObjectView.kind hview
  exact hsame.symm.trans hkind

theorem Launched.noWaits {packet : Protocol.Deploy.Packet}
    {cancels : List Effect} (h : Launched env packet n n' m cancels)
    (hn : Sound n)
    (hover : packet.kind = Protocol.Deploy.PacketKind.start ->
      forall ref cancelled, Task.timerWait ref cancelled ∈ n.service ->
        ref.router ≠ n.router.address)
    (href : ref.router = n'.router.address) (cancelled : Bool) :
    Task.timerWait ref cancelled ∉ n.service := by
  intro hmem
  rcases h.which with ⟨hkind, hsame⟩ | ⟨_, hnewer⟩
  · subst m
    exact hover hkind ref cancelled hmem (href.trans h.router.symm)
  · have hold := (hn.startsKind (hn.tasks _ hmem)).left
    omega

theorem Launched.calm {packet : Protocol.Deploy.Packet}
    {cancels : List Effect} (h : Launched env packet n n' m cancels)
    (hn : Sound n) (hcalm : Calm n)
    (hover : packet.kind = Protocol.Deploy.PacketKind.start ->
      forall ref cancelled, Task.timerWait ref cancelled ∈ n.service ->
        ref.router ≠ n.router.address) : Calm n' := by
  refine
    { one := ?_
      armed := ?_ }
  · intro ref
    have hle := hcalm.one ref
    rw [h.countP (isWait_cancelWait ref), countP_wait_start]
    split_ifs with hstarts
    · have href := Switch.router_of_mem_componentRefs hstarts.left
      rw [h.router] at href
      have hnone : ¬ 0 < n.service.countP (isWait ref) := by
        rw [countP_isWait_pos]
        intro h
        rcases h with ⟨cancelled, hmem⟩
        exact h.noWaits hn hover href cancelled hmem
      omega
    · exact hle
  · intro _ ref href
    have hspares : SparesWaits ref cancels := by
      intro effect heffect
      rcases h.only effect heffect with ⟨other, rfl, hother⟩
      refine ⟨?_, nofun⟩
      intro hcancel
      injection hcancel with heq
      rw [heq] at hother
      exact hother href
    rw [h.queue, List.foldl_append, hspares.mem_serve]
    exact start_armed env m _ (h.noWaits hn hover href)

theorem spares_of_packets {effects : List Effect} (h : OnlyPackets effects) :
    SparesWaits ref effects := by
  intro effect heffect
  rcases h effect heffect with ⟨_, _, _, _, rfl⟩ | ⟨_, _, _, rfl⟩
  · exact ⟨nofun, nofun⟩
  · exact ⟨nofun, nofun⟩

theorem wait_generates {task : Task} (htask : TaskSound n task)
    {effects : List Effect} (heffects : taskEffects env n task = some effects)
    (hwait : isWait ref task = true) :
    exists c, effects = generateEffects env ref c := by
  cases htask.asks heffects with
  | doProcess origin inPort payload hc => cases hwait
  | doRoute outputs hr hname => cases hwait
  | generate hc hkind => cases hwait
  | @timerWait other c cancelled hc hkind =>
      rw [show other = ref from of_decide_eq_true hwait]
      exact ⟨c, rfl⟩

theorem task_spares {task : Task} (htask : TaskSound n task)
    {effects : List Effect} (heffects : taskEffects env n task = some effects)
    (hwait : isWait ref task = false) : SparesWaits ref effects := by
  cases htask.asks heffects with
  | @doProcess other c origin inPort payload hc =>
      rcases processEffects_cases env c inPort payload with
        hnone | ⟨outputs, _, hroute⟩
      · rw [hnone]
        exact SparesWaits.nil ref
      · rw [hroute]
        intro effect heffect
        rw [List.mem_singleton.mp heffect]
        exact ⟨nofun, nofun⟩
  | doRoute outputs hr hname =>
      exact spares_of_packets (doRoute_onlyPackets env hname outputs)
  | generate hc hkind =>
      apply generateEffects_spares env
      intro _ htimed
      rw [hkind] at htimed
      cases htimed
  | timerWait cancelled hc hkind =>
      apply generateEffects_spares env
      intro heq _
      exact of_decide_eq_false hwait heq

theorem task_waits {task : Task} (htask : TaskSound n task)
    {effects : List Effect} (heffects : taskEffects env n task = some effects)
    (ref : ComponentRef) :
    (posted effects).countP (isWait ref) <=
      if isWait ref task = true then 1 else 0 := by
  cases hwait : isWait ref task with
  | false =>
      have hspares := task_spares htask heffects hwait
      rw [countP_posted_eq_zero]
      · exact Nat.zero_le _
      · intro posted hposted
        cases posted with
        | timerWait other cancelled =>
            apply decide_eq_false
            intro heq
            subst heq
            exact (hspares _ hposted).right cancelled rfl
        | _ => rfl
  | true =>
      rw [if_pos rfl]
      rcases wait_generates htask heffects hwait with ⟨c, rfl⟩
      rw [countP_wait_generateEffects]
      split_ifs
      · exact Nat.le_refl 1
      · exact Nat.zero_le 1

/-- Steps that start nothing keep the waits calm, and so do Start requests that
find none. -/
theorem step_calm {event : Event} (hguard : WaitsOver n event)
    (hstep : step n event = some n') (hn : Consistent n) (h : Calm n) :
    Calm n' := by
  cases event with
  | request env payload =>
      rcases returned_eq_some.mp hstep with ⟨response, hrun⟩
      rcases (onNewRequest_ok_iff.mp hrun).right.launched hn.sound with
        ⟨m, cancels, hlaunched⟩ | ⟨cancels, hunlaunched⟩
      · unfold WaitsOver at hguard
        rw [startOrStop_eq_start] at hguard
        exact hlaunched.calm hn.sound h hguard
      · refine
          { one := ?_
            armed := ?_ }
        · intro ref
          rw [hunlaunched.countP (isWait_cancelWait ref)]
          exact h.one ref
        · intro hstarted
          have hsame := hunlaunched.started hstarted
          rw [hsame] at hstarted ⊢
          exact h.armed hstarted
  | message env origin payload =>
      have hflag := (Consistent.step hstep hn).right
      have hkeep : n'.router.started = n.router.started := hflag
      rcases message_spec hstep with ⟨m, hworked, hservice, _, rfl⟩
      have hpackets := messageEffects_packets n origin payload
      have hall := hworked.trans
        (performAll_worked m (n.messageEffects origin payload))
      refine
        { one := ?_
          armed := ?_ }
      · intro ref
        rw [countP_performAll (isWait_cancelWait ref), hservice,
          hpackets.countP_eq_zero (fun _ _ _ _ => rfl)]
        exact h.one ref
      · intro hstarted ref href
        rw [hkeep] at hstarted
        rw [hall.current] at href
        rw [service_performAll, hservice,
          (spares_of_packets hpackets).mem_serve]
        exact h.armed hstarted ref href
  | run env index =>
      have hflag := (Consistent.step hstep hn).right
      have hkeep : n'.router.started = n.router.started := hflag
      rcases run_spec hn.sound hstep with
        ⟨task, effects, m, hget, htask, heffects, _, hworked, hservice, _,
          rfl⟩
      have hall := hworked.trans (performAll_worked m effects)
      refine
        { one := ?_
          armed := ?_ }
      · intro ref
        have htaken := countP_taken (isWait ref) hget
        have hposted := task_waits htask heffects ref
        have hle := h.one ref
        rw [countP_performAll (isWait_cancelWait ref), hservice]
        omega
      · intro hstarted ref href
        rw [hkeep] at hstarted
        rw [hall.current] at href
        rw [service_performAll, hservice]
        have hnone : Task.timerWait ref true ∉ n.service.eraseIdx index :=
          fun hmem => h.armed hstarted ref href (List.mem_of_mem_eraseIdx hmem)
        cases hwait : isWait ref task with
        | false =>
            rw [(task_spares htask heffects hwait).mem_serve]
            exact hnone
        | true =>
            have htaken := countP_taken (isWait ref) hget
            rw [if_pos hwait] at htaken
            have hle := h.one ref
            have hgone : forall cancelled, Task.timerWait ref cancelled ∉
                n.service.eraseIdx index := by
              intro cancelled hmem
              have hpos := countP_isWait_pos.mpr ⟨cancelled, hmem⟩
              omega
            rcases wait_generates htask heffects hwait with ⟨c, rfl⟩
            exact generateEffects_armed env c hgone

/-- Of the tasks of a sound node only a wait that finds its timed generator
running queues outputs of it. -/
theorem task_outputs (hn : Consistent n) {task : Task}
    (htask : TaskSound n task) {effects : List Effect}
    (heffects : taskEffects env n task = some effects)
    (htimed : forall c, n.findComponent ref = some c ->
      c.kind = Protocol.ComponentKind.timedGenerator) :
    (posted effects).countP (isOutput ref) = 0 ∨
      (posted effects).countP (isOutput ref) = 1 ∧ ref.router = n.router.address ∧
        n.router.started = true ∧
        exists cancelled, task = Task.timerWait ref cancelled := by
  cases htask.asks heffects with
  | @doProcess other c origin inPort payload hc =>
      left
      rcases processEffects_cases env c inPort payload with
        hnone | ⟨outputs, hprocess, hroute⟩
      · rw [hnone]
        rfl
      · rw [hroute]
        apply countP_posted_eq_zero
        intro task htask'
        injection List.mem_singleton.mp htask' with htask'
        rw [htask']
        apply decide_eq_false
        intro h
        rcases h with ⟨hrouter, hname⟩
        rcases hn.sound.own hc with ⟨hown, hinst⟩
        rw [hown] at hrouter
        rw [hinst] at hname
        injection hname with hname
        have hsame : other = ref := by
          rcases other with ⟨router, name⟩
          cases hrouter
          cases hname
          rfl
        subst other
        unfold Component.process at hprocess
        rw [htimed c hc] at hprocess
        cases hprocess
  | doRoute outputs hr hname =>
      exact Or.inl ((doRoute_onlyPackets env hname outputs).countP_eq_zero
        (fun _ _ _ _ => rfl))
  | @generate other c hc hkind =>
      left
      rw [countP_output_generateEffects env (hn.sound.own hc), if_neg]
      intro h
      rcases h with ⟨rfl, _⟩
      rw [htimed c hc] at hkind
      cases hkind
  | @timerWait other c cancelled hc hkind =>
      rw [countP_output_generateEffects env (hn.sound.own hc)]
      by_cases hemits : other = ref ∧ c.started = true
      · right
        rcases hemits with ⟨rfl, hstarted⟩
        rcases hn.sound.flag hc (isGenerator_of_kind (Or.inr hkind)) with
          ⟨r, hr, hflag⟩
        have hon : r.started = true := hflag.symm.trans hstarted
        have hcurrent : other.router = n.router.address := by
          by_contra hne
          rw [hn.oldStopped other.router r hne hr] at hon
          cases hon
        refine ⟨if_pos ⟨rfl, hstarted⟩, hcurrent, ?_, cancelled, rfl⟩
        rw [router_of_find hcurrent.symm hr]
        exact hon
      · exact Or.inl (if_neg hemits)

theorem countP_output_start (hm : Sound m) (env : Platform)
    (ref : ComponentRef) :
    (posted ((Switch.start env).allEffects m.router.address m)).countP
        (isOutput ref) <=
      if ref.router = m.router.address then 1 else 0 := by
  have hcount : forall other, (posted ((Switch.start env).refEffects m other)
      ).countP (isOutput ref) <= if other = ref then 1 else 0 := by
    intro other
    unfold Switch.refEffects
    cases hc : m.findComponent other with
    | none => exact Nat.zero_le _
    | some c =>
        simp only
        by_cases hgen : c.isGenerator = true
        · rw [if_pos hgen]
          show (posted (generateEffects env other { c with started := true })
            ).countP _ <= _
          rcases hm.own hc with ⟨hrouter, hinst⟩
          rw [countP_output_generateEffects
            (c := { c with started := true }) env ⟨hrouter, hinst⟩]
          by_cases hother : other = ref
          · rw [if_pos ⟨hother, rfl⟩, if_pos hother]
          · rw [if_neg (fun h => hother h.left)]
            exact Nat.zero_le _
        · rw [if_neg hgen]
          exact Nat.zero_le _
  rw [Switch.countP_allEffects ref]
  · by_cases hmem : ref ∈ componentRefs m m.router.address
    · rw [if_pos hmem, if_pos (Switch.router_of_mem_componentRefs hmem)]
      exact (hcount ref).trans (if_pos rfl).le
    · rw [if_neg hmem]
      exact Nat.zero_le _
  · intro other hother
    exact Nat.le_zero.mp ((hcount other).trans (if_neg hother).le)

/-- Every step from a calm state is paced. -/
theorem step_paced {event : Event} (hstep : step n event = some n')
    (hn : Consistent n) (h : Calm n) : Paced n event n' := by
  intro ref hnext
  have htimed := fun c => hnext.kind (c := c) (step_keeps hstep hn)
  unfold emissions occasions
  cases event with
  | request env payload =>
      rcases returned_eq_some.mp hstep with ⟨response, hrun⟩
      rcases (onNewRequest_ok_iff.mp hrun).right.launched hn.sound with
        ⟨m, cancels, hlaunched⟩ | ⟨cancels, hunlaunched⟩
      · have hcount := countP_output_start hlaunched.sound env ref
        rw [hlaunched.countP (isOutput_cancelWait ref),
          Nat.add_sub_cancel_left]
        refine hcount.trans ?_
        by_cases href : ref.router = m.router.address
        · have hcalls : callsStart ref n (Event.request env payload) n' = 1 := by
            apply if_pos
            constructor
            · exact href.trans hlaunched.router
            constructor
            · exact hlaunched.started
            rcases hlaunched.which with ⟨hkind, _⟩ | ⟨_, hnewer⟩
            · exact Or.inl (startOrStop_eq_start.mpr hkind)
            · exact Or.inr (Nat.ne_of_lt hnewer)
          rw [if_pos href, hcalls]
          exact Nat.le_add_right 1 _
        · rw [if_neg href]
          exact Nat.zero_le _
      · rw [hunlaunched.countP (isOutput_cancelWait ref), Nat.sub_self]
        exact Nat.zero_le _
  | message env origin payload =>
      rcases message_spec hstep with ⟨m, _, hservice, _, rfl⟩
      rw [countP_performAll (isOutput_cancelWait ref), hservice,
        (messageEffects_packets n origin payload).countP_eq_zero
          (fun _ _ _ _ => rfl), Nat.add_zero, Nat.sub_self]
      exact Nat.zero_le _
  | run env index =>
      rcases run_spec hn.sound hstep with
        ⟨task, effects, m, hget, htask, heffects, _, _, hservice, _, rfl⟩
      have htaken := countP_taken (isOutput ref) hget
      rw [countP_performAll (isOutput_cancelWait ref), hservice]
      rcases task_outputs hn htask heffects htimed with
        hnone | ⟨hone, hcurrent, hstarted, cancelled, rfl⟩
      · omega
      · cases cancelled with
        | true =>
            exact absurd (List.mem_of_getElem? hget)
              (h.armed hstarted ref hcurrent)
        | false =>
            have hexpires : expires ref n (Event.run env index)
                (m.performAll effects) = 1 := if_pos hget
            rw [hexpires]
            omega

/-- A cancelled wait of a generator that runs makes it emit out of turn. -/
theorem cancelled_emits (hn : Consistent n) (href : ref.router = n.router.address)
    (hstarted : n.router.started = true)
    (hmem : Task.timerWait ref true ∈ n.service) (env : Platform) :
    exists index n', step n (Event.run env index) = some n' ∧
      ¬ Paced n (Event.run env index) n' := by
  rcases List.getElem?_of_mem hmem with ⟨index, hget⟩
  rcases step_run_isSome hn env hget with ⟨n', hstep⟩
  exists index
  exists n'
  constructor
  · exact hstep
  have hwait := hn.sound.tasks _ hmem
  rcases hwait with ⟨c, hc, hkind⟩
  have htimed : IsTimed n' ref :=
    IsTimed.keeps ⟨c, hc, hkind⟩ (step_keeps hstep hn)
  rcases run_spec hn.sound hstep with
    ⟨task, effects, m, hget', htask, heffects, _, _, hservice, _, rfl⟩
  rw [hget] at hget'
  rcases Option.some.inj hget' with rfl
  simp only [taskEffects, hc, Option.map_some, Option.some.injEq] at heffects
  subst heffects
  have hon : c.started = true := by
    rcases hn.sound.flag hc (isGenerator_of_kind (Or.inr hkind)) with
      ⟨r, hr, hflag⟩
    rw [hflag, ← router_of_find href.symm hr]
    exact hstarted
  have htaken := countP_taken (isOutput ref) hget
  have hone : (posted (generateEffects env ref c)).countP (isOutput ref) =
      1 := by
    rw [countP_output_generateEffects env (hn.sound.own hc)]
    exact if_pos ⟨rfl, hon⟩
  have hplain : isOutput ref (Task.timerWait ref true) = false := rfl
  rw [hplain] at htaken
  intro hpaced
  have hle := hpaced ref htimed
  have hnone : occasions ref n (Event.run env index)
      (m.performAll (generateEffects env ref c)) = 0 := by
    unfold occasions callsStart expires
    simp only
    rw [hget, if_neg]
    intro heq
    cases heq
  unfold emissions at hle
  rw [hnone, countP_performAll (isOutput_cancelWait ref), hservice, hone]
    at hle
  simp only [Bool.false_eq_true, if_false, Nat.add_zero] at htaken
  omega

theorem cancels_of_start {event : Event} (hstep : step n event = some n')
    (hn : Consistent n) (hguard : ¬ WaitsOver n event) :
    exists ref, ref.router = n'.router.address ∧ n'.router.started = true ∧
      Task.timerWait ref true ∈ n'.service := by
  unfold WaitsOver at hguard
  push Not at hguard
  rcases hguard with ⟨hstart, ref, cancelled, hmem, href⟩
  cases event with
  | message env origin payload => cases hstart
  | run env index => cases hstart
  | request env payload =>
      rw [startOrStop_eq_start] at hstart
      rcases returned_eq_some.mp hstep with ⟨response, hrun⟩
      rcases (onNewRequest_ok_iff.mp hrun).right.launched hn.sound with
        ⟨m, cancels, h⟩ | ⟨cancels, h⟩
      · rcases h.which with ⟨_, hsame⟩ | ⟨hkind, _⟩
        · subst m
          exists ref
          constructor
          · exact href.trans h.router
          constructor
          · exact h.started
          rcases hn.sound.tasks _ hmem with ⟨c, hc, hkind⟩
          have hstarts := (hn.sound.startsKind ⟨c, hc, hkind⟩).right.left
          rw [href] at hstarts
          have hcancel : Effect.cancelWaits ref ∈
              (Switch.start env).refEffects n ref := by
            rw [refEffects_generator hc (isGenerator_of_kind (Or.inr hkind))]
            rcases generateEffects_started (c := { c with started := true })
              rfl env ref with ⟨outputs, heq⟩
            show _ ∈ generateEffects env ref { c with started := true }
            rw [heq, generateNext_timed (c := { c with started := true }) hkind]
            exact List.mem_cons_of_mem _ List.mem_cons_self
          rw [h.queue]
          exact cancelWaits_serve hmem (List.mem_append_left _
            (List.mem_flatMap.mpr ⟨ref, hstarts, hcancel⟩))
        · exact absurd hstart hkind
      · exact absurd hstart h.kind

end Steps

/-!
## Runs
-/

/-- What holds while every Start request finds no waits. -/
structure KeepsPace (n : Protort.Node) : Prop where
  consistent : Consistent n
  calm : Calm n

theorem step_keepsPace {n n' : Protort.Node} {event : Event}
    (hguard : WaitsOver n event) (hstep : step n event = some n')
    (h : KeepsPace n) : KeepsPace n' :=
  { consistent := step_consistent hstep h.consistent
    calm := step_calm hguard hstep h.consistent h.calm }

theorem keepsPace_new (port : UInt32) (startTime : Nat) :
    KeepsPace (new port startTime) :=
  { consistent := consistent_new port startTime
    calm :=
      { one := fun _ => Nat.zero_le 1
        armed := fun _ _ _ => List.not_mem_nil } }

structure KeepsPaceOf (ref : ComponentRef) (n : Protort.Node) : Prop where
  pace : KeepsPace n
  timed : IsTimed n ref

theorem step_keepsPaceOf {ref : ComponentRef} {n n' : Protort.Node}
    {event : Event} (hguard : WaitsOver n event)
    (hstep : step n event = some n') (h : KeepsPaceOf ref n) :
    KeepsPaceOf ref n' :=
  { pace := step_keepsPace hguard hstep h.pace
    timed := h.timed.keeps (step_keeps hstep h.pace.consistent) }

/-- As long as every Start request finds no wait of the current router's timed
generators, each of them emits when it is started or when a wait has expired,
once each time.  The first Start request that finds one leaves a cancelled wait
whose handler emits, on any platform. -/
theorem timers_keepPace {port : UInt32} {startTime : Nat}
    {events : List Event} {n : Protort.Node}
    (hrun : Run (Guarded WaitsOver (Steps step)) (new port startTime) events
      n) :
    (forall event n', step n event = some n' -> Paced n event n') ∧
    (forall ref, IsTimed n ref -> forall events' n',
      Run (Guarded WaitsOver (Steps step)) n events' n' ->
        tally step (emissions ref) n events' <=
          tally step (occasions ref) n events') ∧
    (forall event n', step n event = some n' -> ¬ WaitsOver n event ->
      forall env, exists index n'', step n' (Event.run env index) = some n'' ∧
        ¬ Paced n' (Event.run env index) n'') := by
  have hn : KeepsPace n :=
    hrun.invariant (fun hstep h => step_keepsPace hstep.left hstep.right h)
      (keepsPace_new port startTime)
  refine ⟨?_, ?_, ?_⟩
  · intro event n' hstep
    exact step_paced hstep hn.consistent hn.calm
  · intro ref htimed events' n' hrun'
    have hbound := hrun'.tally_le (g := occasions ref) (fun _ => 0)
      (fun hguard hstep h => step_keepsPaceOf hguard hstep h)
      (fun hguard hstep h => by
        have hnext := step_keepsPaceOf hguard hstep h
        exact step_paced hstep h.pace.consistent h.pace.calm ref hnext.timed)
      ⟨hn, htimed⟩
    exact hbound
  · intro event n' hstep hguard env
    rcases cancels_of_start hstep hn.consistent hguard with
      ⟨ref, href, hstarted, hmem⟩
    exact cancelled_emits (step_consistent hstep hn.consistent) href hstarted
      hmem env

instance (n : Protort.Node) (event : Event) : Decidable (WaitsOver n event) :=
  decidable_of_iff
    (startOrStop event = some Protocol.Deploy.PacketKind.start ->
      forall task, task ∈ n.service ->
        (match task with
          | Task.timerWait ref _ => decide (ref.router ≠ n.router.address)
          | _ => true) = true)
    (imp_congr_right fun _ => by
      constructor
      · intro h ref cancelled hmem
        exact of_decide_eq_true (h _ hmem)
      · intro h task hmem
        cases task with
        | timerWait ref cancelled => exact decide_eq_true (h ref cancelled hmem)
        | _ => rfl)

/-- Start, one expired wait, Stop, the cancelled wait, and Start again. -/
def patientRestart : List Event :=
  [deployRequest (lonely Protocol.ComponentKind.timedGenerator),
    command Protocol.Deploy.PacketKind.start,
    Event.run Platform.loopback 1,
    command Protocol.Deploy.PacketKind.stop,
    Event.run Platform.loopback 2,
    command Protocol.Deploy.PacketKind.start]

def restartedTimer : Protort.Node :=
  (Lib.execute step (new 100 0) patientRestart).getD (new 100 0)

theorem run_patientRestart :
    Run (Guarded WaitsOver (Steps step)) (new 100 0) patientRestart
      restartedTimer :=
  Run.guarded_of_execute (by decide +kernel)

theorem timers_keepPace_patientRestart :
    (forall event n', step restartedTimer event = some n' ->
      Paced restartedTimer event n') ∧
    (forall ref, IsTimed restartedTimer ref -> forall events' n',
      Run (Guarded WaitsOver (Steps step)) restartedTimer events' n' ->
        tally step (emissions ref) restartedTimer events' <=
          tally step (occasions ref) restartedTimer events') ∧
    (forall event n', step restartedTimer event = some n' ->
      ¬ WaitsOver restartedTimer event ->
        forall env, exists index n'',
          step n' (Event.run env index) = some n'' ∧
            ¬ Paced n' (Event.run env index) n'') :=
  timers_keepPace run_patientRestart

def armedTwice : List Event :=
  [deployRequest (lonely Protocol.ComponentKind.timedGenerator),
    command Protocol.Deploy.PacketKind.start,
    command Protocol.Deploy.PacketKind.start]

def cancelledWait : Protort.Node :=
  (Lib.execute step (new 100 0) armedTwice).getD (new 100 0)

def afterCancelledWait : Protort.Node :=
  (step cancelledWait (Event.run Platform.loopback 1)).getD cancelledWait

/-- A timed generator that was started twice emits when the handler of the wait
that the second Start cancelled runs. -/
theorem armedTwice_emits :
    Run (Steps step) (new 100 0) armedTwice cancelledWait ∧
      cancelledWait.service[1]? = some (Task.timerWait ⟨1, "g"⟩ true) ∧
      step cancelledWait (Event.run Platform.loopback 1) =
        some afterCancelledWait ∧
      ¬ Paced cancelledWait (Event.run Platform.loopback 1)
        afterCancelledWait := by
  refine ⟨Run.of_execute (by decide +kernel), by decide +kernel,
    by decide +kernel, ?_⟩
  intro hpaced
  have htimed : IsTimed afterCancelledWait ⟨1, "g"⟩ := by
    have hkind : (afterCancelledWait.findComponent ⟨1, "g"⟩).map
        (fun c => c.kind) = some Protocol.ComponentKind.timedGenerator := by
      decide +kernel
    exact Option.map_eq_some_iff.mp hkind
  have hle := hpaced ⟨1, "g"⟩ htimed
  revert hle
  decide +kernel

end Node
end Protort
