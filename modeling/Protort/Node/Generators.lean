import Protort.Node.Silence

/-!
# Generators at work

A generator that runs has one turn queued, which queues the next one, and a
timed generator one wait.  Starting does not look for a turn or a wait that is
queued already.  A turn that finds its generator stopped ends the chain, and the
handler of a wait does not look at whether the wait was cancelled: what was left
from before a Start goes on beside what the Start queues.
-/

namespace Protort
namespace Node

open Lib (Run Steps Along)
open Components (Component Output Origin)

/-!
## What starting a router queues
-/

section Effects

variable {env : Platform} {n m : Protort.Node} {ref : ComponentRef}
  {c : Component}

theorem generate_started (hstarted : c.started = true) (env : Platform) :
    exists outputs, c.generate env = some outputs := by
  unfold Component.generate
  rw [hstarted]
  exact ⟨_, rfl⟩

theorem generateEffects_started (hstarted : c.started = true)
    (env : Platform) (ref : ComponentRef) :
    exists outputs, generateEffects env ref c =
      Effect.post (Task.doRoute c.router c.compInst outputs) ::
        generateNext ref c := by
  rcases generate_started hstarted env with ⟨outputs, houtputs⟩
  exists outputs
  unfold generateEffects
  rw [houtputs]

theorem generateNext_timed
    (hkind : c.kind = Protocol.ComponentKind.timedGenerator)
    (ref : ComponentRef) :
    generateNext ref c =
      [Effect.cancelWaits ref, Effect.post (Task.timerWait ref false)] := by
  unfold generateNext
  rw [hkind]

theorem generateNext_plain
    (hkind : c.kind ≠ Protocol.ComponentKind.timedGenerator)
    (ref : ComponentRef) :
    generateNext ref c = [Effect.post (Task.generate ref)] := by
  unfold generateNext
  split
  · exact absurd ‹_› hkind
  · rfl

def nextTask (ref : ComponentRef) (c : Component) : Task :=
  if c.kind = Protocol.ComponentKind.timedGenerator then
    Task.timerWait ref false
  else
    Task.generate ref

theorem posted_generateEffects (hstarted : c.started = true) (env : Platform)
    (ref : ComponentRef) :
    exists outputs, posted (generateEffects env ref c) =
      [Task.doRoute c.router c.compInst outputs, nextTask ref c] := by
  rcases generateEffects_started hstarted env ref with ⟨outputs, heq⟩
  exists outputs
  unfold nextTask
  by_cases hkind : c.kind = Protocol.ComponentKind.timedGenerator
  · rw [heq, generateNext_timed hkind, if_pos hkind]
    rfl
  · rw [heq, generateNext_plain hkind, if_neg hkind]
    rfl

theorem refEffects_generator {w : Switch} (hc : n.findComponent ref = some c)
    (hgen : c.isGenerator = true) : w.refEffects n ref = w.effects ref c := by
  unfold Switch.refEffects
  rw [hc]
  exact if_pos hgen

theorem refEffects_other {w : Switch}
    (h : forall c, n.findComponent ref = some c -> c.isGenerator = false) :
    w.refEffects n ref = [] := by
  unfold Switch.refEffects
  cases hc : n.findComponent ref with
  | none => rfl
  | some c =>
      simp only
      rw [h c hc]
      rfl

/-- Everything in a list of effects is about other components. -/
theorem Switch.countP_allEffects {w : Switch} {address : Nat}
    {p : Task -> Bool} (ref : ComponentRef)
    (hothers : forall other, other ≠ ref ->
      (posted (w.refEffects n other)).countP p = 0) :
    (posted (w.allEffects address n)).countP p =
      if ref ∈ componentRefs n address then
        (posted (w.refEffects n ref)).countP p
      else
        0 := by
  unfold allEffects
  have hloop : forall refs : List ComponentRef, refs.Nodup ->
      (posted (refs.flatMap (w.refEffects n))).countP p =
        if ref ∈ refs then (posted (w.refEffects n ref)).countP p
        else 0 := by
    intro refs hrefs
    induction refs with
    | nil => rfl
    | cons other rest ih =>
        rw [List.nodup_cons] at hrefs
        rw [List.flatMap_cons, posted_append, List.countP_append,
          ih hrefs.right]
        by_cases hother : other = ref
        · subst other
          rw [if_pos List.mem_cons_self, if_neg hrefs.left, Nat.add_zero]
        · rw [hothers other hother, Nat.zero_add]
          by_cases hrest : ref ∈ rest
          · rw [if_pos hrest, if_pos (List.mem_cons_of_mem other hrest)]
          · rw [if_neg hrest, if_neg]
            intro hmem
            rcases List.mem_cons.mp hmem with heq | h
            · exact hother heq.symm
            · exact hrest h
  exact hloop _ (nodup_componentRefs n address)

def StartsKind (m : Protort.Node) (address : Nat) (ref : ComponentRef)
    (kind : Protocol.ComponentKind) : Prop :=
  ref ∈ componentRefs m address ∧
    (m.findComponent ref).map (fun c => c.kind) = some kind

instance (m : Protort.Node) (address : Nat) (ref : ComponentRef)
    (kind : Protocol.ComponentKind) :
    Decidable (StartsKind m address ref kind) :=
  inferInstanceAs (Decidable (_ ∧ _))

/-- Counting what starting a router queues, when each of its generators queues
one task of a sort at most, and only for itself. -/
theorem countP_start {p : Task -> Bool} {kind : Protocol.ComponentKind}
    (ref : ComponentRef) {address : Nat}
    (hkind : kind = Protocol.ComponentKind.generator ∨
      kind = Protocol.ComponentKind.timedGenerator)
    (h : forall other c, m.findComponent other = some c ->
      c.isGenerator = true ->
        (posted (generateEffects env other { c with started := true })).countP
            p =
          if other = ref ∧ c.kind = kind then 1 else 0) :
    (posted ((Switch.start env).allEffects address m)).countP p =
      if StartsKind m address ref kind then 1 else 0 := by
  have hnull : forall other, m.findComponent other = none ->
      (Switch.start env).refEffects m other = [] :=
    fun other hnone => refEffects_other (fun c hc => by
      rw [hnone] at hc
      cases hc)
  have hcount : forall other c, m.findComponent other = some c ->
      (posted ((Switch.start env).refEffects m other)).countP p =
        if other = ref ∧ c.kind = kind then 1 else 0 := by
    intro other c hc
    by_cases hgen : c.isGenerator = true
    · rw [refEffects_generator hc hgen]
      exact h other c hc hgen
    · have hnone : (Switch.start env).refEffects m other = [] := by
        apply refEffects_other
        intro c' hc'
        rw [hc] at hc'
        rcases Option.some.inj hc' with rfl
        exact Bool.eq_false_of_not_eq_true hgen
      rw [hnone, if_neg]
      · rfl
      · intro h
        rcases h with ⟨_, hk⟩
        rw [← hk] at hkind
        exact hgen (isGenerator_of_kind hkind)
  rw [Switch.countP_allEffects ref]
  · by_cases hmem : ref ∈ componentRefs m address
    · rw [if_pos hmem]
      cases hc : m.findComponent ref with
      | none =>
          rw [hnull ref hc, if_neg]
          · rfl
          · intro h
            rcases h with ⟨_, hk⟩
            rw [hc] at hk
            cases hk
      | some c =>
          rw [hcount ref c hc]
          apply if_congr _ rfl rfl
          unfold StartsKind
          rw [hc, Option.map_some, Option.some.injEq]
          exact ⟨fun hk => ⟨hmem, hk.right⟩, fun hk => ⟨rfl, hk.right⟩⟩
    · rw [if_neg hmem, if_neg (fun hstarts => hmem hstarts.left)]
  · intro other hother
    cases hc : m.findComponent other with
    | none =>
        rw [hnull other hc]
        rfl
    | some c => rw [hcount other c hc, if_neg (fun heq => hother heq.left)]

end Effects

/-!
## Requests and the queue
-/

/-- A request that starts the generators of a router: `m` is the node at that
time, and the effects that follow only cancel waits of another router. -/
structure Launched (env : Platform) (packet : Protocol.Deploy.Packet)
    (n n' m : Protort.Node) (cancels : List Effect) : Prop where
  sound : Sound m
  service : m.service = n.service
  router : m.router.address = n'.router.address
  started : n'.router.started = true
  which : (packet.kind = Protocol.Deploy.PacketKind.start ∧ m = n) ∨
    (packet.kind ≠ Protocol.Deploy.PacketKind.start ∧
      n.router.address < n'.router.address)
  only : forall effect, effect ∈ cancels -> exists ref,
    effect = Effect.cancelWaits ref ∧ ref.router ≠ n'.router.address
  queue : n'.service =
    ((Switch.start env).allEffects m.router.address m ++ cancels).foldl serve
      n.service

structure Unlaunched (packet : Protocol.Deploy.Packet)
    (n n' : Protort.Node) (cancels : List Effect) : Prop where
  kind : packet.kind ≠ Protocol.Deploy.PacketKind.start
  started : n'.router.started = true -> n' = n
  only : forall effect, effect ∈ cancels -> exists ref,
    effect = Effect.cancelWaits ref
  queue : n'.service = cancels.foldl serve n.service

section Requests

variable {env : Platform} {packet : Protocol.Deploy.Packet}
  {response : Protocol.Payload} {n n' : Protort.Node}

theorem Rebuilt.launched {m : Protort.Node}
    (hbuilt : Rebuilt n.exchanged m) (h : Sound n)
    (hkind : packet.kind = Protocol.Deploy.PacketKind.deployConfig) :
    Launched env packet n
      (switchRouter Switch.stop n.router.address (restarted env true m)) m
      (Switch.stop.allEffects n.router.address (restarted env true m)) := by
  have haddress : m.router.address = n.router.address + 1 := hbuilt.address
  have hservice : m.service = n.service := hbuilt.service
  rcases hbuilt.replaced env true with ⟨hrouter, hcurrent, hstarted⟩
  exact
    { sound := h.rebuilt hbuilt
      service := hservice
      router := by rw [hrouter, hcurrent, haddress]
      started := by rw [hrouter, hstarted]
      which := by
        refine Or.inr ⟨?_, ?_⟩
        · rw [hkind]
          exact fun hk => by cases hk
        · rw [hrouter, hcurrent]
          exact Nat.lt_succ_self n.router.address
      only := by
        intro effect heffect
        rcases Switch.stop_cancels heffect with ⟨ref, heq, hold⟩
        exists ref
        constructor
        · exact heq
        · rw [hold, hrouter, hcurrent]
          exact Nat.ne_of_lt (Nat.lt_succ_self n.router.address)
      queue := by
        rw [service_switchRouter, service_restarted, hservice,
          List.foldl_append]
        rfl }

theorem Rebuilt.unlaunched {m : Protort.Node}
    (hbuilt : Rebuilt n.exchanged m)
    (hkind : packet.kind = Protocol.Deploy.PacketKind.deployConfig) :
    Unlaunched packet n
      (switchRouter Switch.stop n.router.address (restarted env false m))
      (Switch.stop.allEffects n.router.address (restarted env false m)) := by
  have hservice : m.service = n.service := hbuilt.service
  rcases hbuilt.replaced env false with ⟨hrouter, _, hstarted⟩
  exact
    { kind := by
        rw [hkind]
        exact fun hk => by cases hk
      started := by
        intro hon
        rw [hrouter, hstarted] at hon
        cases hon
      only := by
        intro effect heffect
        rcases Switch.stop_cancels heffect with ⟨ref, heq, _⟩
        exact ⟨ref, heq⟩
      queue := by
        rw [service_switchRouter, service_restarted, hservice]
        rfl }

theorem Served.launched (hserved : Served env n packet response n')
    (h : Sound n) :
    (exists m cancels, Launched env packet n n' m cancels) ∨
      exists cancels, Unlaunched packet n n' cancels := by
  cases hserved with
  | @deployConfig m hkind hdeploy hcomplete _ =>
      have hbuilt : Rebuilt n.exchanged m :=
        deployFromPacket_rebuilt (Unstarted.empty n) hdeploy
      cases n.router.started with
      | true => exact Or.inl ⟨m, _, hbuilt.launched h hkind⟩
      | false => exact Or.inr ⟨_, hbuilt.unlaunched hkind⟩
  | start hkind hcomplete =>
      have hspec := switchRouter_spec (Switch.start env) n.router.address n
      refine Or.inl ⟨n, [], ?_⟩
      exact
        { sound := h
          service := rfl
          router := hspec.current.symm
          started := started_switchRouter (Switch.start env) n
          which := Or.inl ⟨hkind, rfl⟩
          only := fun effect heffect => absurd heffect List.not_mem_nil
          queue := by
            rw [service_switchRouter, List.append_nil] }
  | stop hkind hcomplete =>
      refine Or.inr ⟨Switch.stop.allEffects n.router.address n, ?_⟩
      exact
        { kind := by
            rw [hkind]
            exact fun hk => by cases hk
          started := by
            intro hon
            rw [started_switchRouter] at hon
            cases hon
          only := by
            intro effect heffect
            rcases Switch.stop_cancels heffect with ⟨ref, heq, _⟩
            exact ⟨ref, heq⟩
          queue := service_switchRouter _ _ n }
  | getStatus hkind hstatus =>
      refine Or.inr ⟨[], ?_⟩
      exact
        { kind := by
            rw [hkind]
            exact fun hk => by cases hk
          started := fun _ => rfl
          only := fun effect heffect => absurd heffect List.not_mem_nil
          queue := rfl }

theorem posted_cancels {effects : List Effect}
    (h : forall effect, effect ∈ effects -> exists ref,
      effect = Effect.cancelWaits ref) : posted effects = [] := by
  unfold posted
  rw [List.filterMap_eq_nil_iff]
  intro effect heffect
  rcases h effect heffect with ⟨ref, rfl⟩
  rfl

/-- What a request that starts a router queues is what its generators queue,
the same for every sort of task to which cancelled waits belong as much as
others. -/
theorem Launched.countP {m : Protort.Node} {cancels : List Effect}
    (h : Launched env packet n n' m cancels) {p : Task -> Bool}
    (hcancel : forall ref task, p (cancelWait ref task) = p task) :
    n'.service.countP p = n.service.countP p +
      (posted ((Switch.start env).allEffects m.router.address m)).countP p := by
  have hcancels : posted cancels = [] := by
    apply posted_cancels
    intro effect heffect
    rcases h.only effect heffect with ⟨other, heq, _⟩
    exact ⟨other, heq⟩
  rw [h.queue, countP_serve hcancel, posted_append, hcancels, List.append_nil]

theorem Unlaunched.countP {cancels : List Effect}
    (h : Unlaunched packet n n' cancels) {p : Task -> Bool}
    (hcancel : forall ref task, p (cancelWait ref task) = p task) :
    n'.service.countP p = n.service.countP p := by
  rw [h.queue, countP_serve hcancel, posted_cancels h.only, List.countP_nil,
    Nat.add_zero]

end Requests

/-!
## Chains of a generator
-/

def isTurn (ref : ComponentRef) (task : Task) : Bool :=
  decide (task = Task.generate ref)

/-- No generator has more than one turn queued. -/
def OneChain (n : Protort.Node) : Prop :=
  forall ref, n.service.countP (isTurn ref) <= 1

/-- A Start request finds no turn of a generator of the current router
queued. -/
def ChainsEnded (n : Protort.Node) (event : Event) : Prop :=
  startOrStop event = some Protocol.Deploy.PacketKind.start ->
    forall ref, Task.generate ref ∈ n.service ->
      ref.router ≠ n.router.address

section Chains

variable {env : Platform} {n n' m : Protort.Node} {ref : ComponentRef}

theorem isTurn_cancelWait (ref other : ComponentRef) (task : Task) :
    isTurn ref (cancelWait other task) = isTurn ref task := by
  cases task with
  | _ => rfl

theorem countP_isTurn_pos {service : List Task} :
    0 < service.countP (isTurn ref) <-> Task.generate ref ∈ service := by
  rw [List.countP_pos_iff]
  constructor
  · intro h
    rcases h with ⟨task, htask, hturn⟩
    rw [← of_decide_eq_true hturn]
    exact htask
  · intro hmem
    exact ⟨Task.generate ref, hmem, decide_eq_true rfl⟩

theorem countP_turn_generateEffects {c : Component} (env : Platform)
    (other : ComponentRef) :
    (posted (generateEffects env other c)).countP (isTurn ref) =
      if other = ref ∧ c.started = true ∧
          c.kind ≠ Protocol.ComponentKind.timedGenerator then 1 else 0 := by
  by_cases hstarted : c.started = true
  · rcases posted_generateEffects hstarted env other with ⟨outputs, heq⟩
    have hturn : isTurn ref (nextTask other c) = true <->
        other = ref ∧ c.kind ≠ Protocol.ComponentKind.timedGenerator := by
      unfold isTurn nextTask
      split_ifs with hkind
      · simp [hkind]
      · simp [hkind]
    rw [heq, List.countP_cons, List.countP_singleton]
    simp only [hturn, hstarted, true_and]
    rfl
  · rw [if_neg (fun h => hstarted h.right.left),
      generateEffects_stopped (Bool.eq_false_of_not_eq_true hstarted)]
    rfl

theorem countP_turn_start (env : Platform) (m : Protort.Node)
    (address : Nat) :
    (posted ((Switch.start env).allEffects address m)).countP (isTurn ref) =
      if StartsKind m address ref Protocol.ComponentKind.generator then 1
      else 0 := by
  apply countP_start ref (Or.inl rfl)
  intro other c _ hgen
  rw [countP_turn_generateEffects]
  apply if_congr _ rfl rfl
  constructor
  · intro h
    rcases h with ⟨hother, _, hkind⟩
    exact ⟨hother, kind_of_isGenerator hgen hkind⟩
  · intro h
    rcases h with ⟨hother, hkind⟩
    constructor
    · exact hother
    constructor
    · exact rfl
    show c.kind ≠ _
    rw [hkind]
    exact fun hk => by cases hk

theorem startOrStop_eq_start {payload : Protocol.Payload} :
    startOrStop (Event.request env payload) =
        some Protocol.Deploy.PacketKind.start <->
      payload.asDeployPacket.kind = Protocol.Deploy.PacketKind.start := by
  cases payload with
  | deployPacket packet =>
      have hpacket : (Protocol.Payload.deployPacket packet).asDeployPacket =
          packet := rfl
      rw [hpacket]
      unfold startOrStop
      simp only []
      cases packet.kind with
      | _ => simp
  | _ =>
      constructor
      · intro h
        cases h
      · intro h
        cases h

def OnlyPackets (effects : List Effect) : Prop :=
  forall effect, effect ∈ effects ->
    (exists ref origin inPort payload,
      effect = Effect.post (Task.doProcess ref origin inPort payload)) ∨
    exists client origin payload, effect = Effect.send client origin payload

theorem messageEffects_packets (n : Protort.Node) (origin : Option Origin)
    (payload : Protocol.Payload) :
    OnlyPackets (n.messageEffects origin payload) := by
  intro effect heffect
  unfold messageEffects at heffect
  rw [Router.route_snd] at heffect
  split_ifs at heffect
  · exact Or.inl ⟨_, _, _, _, List.mem_singleton.mp heffect⟩
  · cases heffect

theorem doRoute_onlyPackets (env : Platform) {r : Router} {name : String}
    (hname : name ∈ r.components) (outputs : List Output) :
    OnlyPackets (r.doRoute env name outputs).2 :=
  fun _ heffect => Router.doRoute_packets env hname heffect

theorem OnlyPackets.countP_eq_zero {p : Task -> Bool} {effects : List Effect}
    (h : OnlyPackets effects) (hp : forall ref origin inPort payload,
      p (Task.doProcess ref origin inPort payload) = false) :
    (posted effects).countP p = 0 := by
  apply countP_posted_eq_zero
  intro task htask
  rcases h _ htask with ⟨ref, origin, inPort, payload, heq⟩ | ⟨_, _, _, heq⟩
  · injection heq with heq
    rw [heq]
    exact hp ref origin inPort payload
  · cases heq

theorem TaskSound.countP_turn {task : Task} (htask : TaskSound n task)
    {effects : List Effect}
    (heffects : Node.taskEffects env n task = some effects)
    (ref : ComponentRef) :
    (posted effects).countP (isTurn ref) <=
      if isTurn ref task = true then 1 else 0 := by
  cases htask.asks heffects with
  | @doProcess other c origin inPort payload hc =>
      rcases processEffects_cases env c inPort payload with
        hnone | ⟨outputs, _, hroute⟩
      · rw [hnone]
        exact Nat.zero_le _
      · rw [hroute]
        exact Nat.zero_le _
  | doRoute outputs hr hname =>
      rw [(doRoute_onlyPackets env hname outputs).countP_eq_zero
        (fun _ _ _ _ => rfl)]
      exact Nat.zero_le _
  | @generate other c hc hkind =>
      rw [countP_turn_generateEffects]
      by_cases hother : other = ref
      · subst other
        rw [if_pos (show isTurn ref (Task.generate ref) = true from
          decide_eq_true rfl)]
        split_ifs
        · exact Nat.le_refl 1
        · exact Nat.zero_le 1
      · rw [if_neg (fun h => hother h.left)]
        exact Nat.zero_le _
  | timerWait cancelled hc hkind =>
      rw [countP_turn_generateEffects, if_neg (fun h => h.right.right hkind)]
      exact Nat.zero_le _

theorem Sound.startsKind (h : Sound n) {kind : Protocol.ComponentKind}
    (hc : exists c, n.findComponent ref = some c ∧ c.kind = kind) :
    ref.router <= n.router.address ∧ StartsKind n ref.router ref kind := by
  rcases hc with ⟨c, hc, hkind⟩
  rcases findComponent_eq_some.mp hc with ⟨r, hr, hobject⟩
  refine ⟨(h.numbered.find_iff ref.router).mp ⟨r, hr⟩,
    (Switch.mem_componentRefs hr).mpr ⟨rfl, mem_of_objectAt hobject⟩, ?_⟩
  rw [hc, Option.map_some, hkind]

theorem Sound.turn_router (h : Sound n)
    (hturn : Task.generate ref ∈ n.service) :
    ref.router <= n.router.address ∧
      StartsKind n ref.router ref Protocol.ComponentKind.generator :=
  h.startsKind (h.tasks _ hturn)

theorem Served.oneChain_iff {packet : Protocol.Deploy.Packet}
    {response : Protocol.Payload} (hserved : Served env n packet response n')
    (hn : Consistent n) (hchain : OneChain n) :
    OneChain n' <->
      (packet.kind = Protocol.Deploy.PacketKind.start ->
        forall ref, Task.generate ref ∈ n.service ->
          ref.router ≠ n.router.address) := by
  rcases hserved.launched hn.sound with ⟨m, cancels, h⟩ | ⟨cancels, h⟩
  · rcases h.which with ⟨hkind, hsame⟩ | ⟨hkind, hnewer⟩
    · subst m
      constructor
      · intro hnext _ ref hturn hrouter
        have hcount := h.countP (isTurn_cancelWait ref)
        have hstarts := (hn.sound.turn_router hturn).right
        rw [hrouter] at hstarts
        rw [countP_turn_start, if_pos hstarts] at hcount
        have hpos := countP_isTurn_pos.mpr hturn
        have hle := hnext ref
        omega
      · intro hended ref
        rw [h.countP (isTurn_cancelWait ref), countP_turn_start]
        have hle := hchain ref
        split_ifs with hnew
        · have hrouter := Switch.router_of_mem_componentRefs hnew.left
          have hnone : ¬ 0 < n.service.countP (isTurn ref) := by
            rw [countP_isTurn_pos]
            exact fun hturn => hended hkind ref hturn hrouter
          omega
        · omega
    · refine iff_of_true ?_ (fun hstart => absurd hstart hkind)
      intro ref
      rw [h.countP (isTurn_cancelWait ref), countP_turn_start]
      have hle := hchain ref
      split_ifs with hnew
      · have hrouter := Switch.router_of_mem_componentRefs hnew.left
        rw [h.router] at hrouter
        have hnone : ¬ 0 < n.service.countP (isTurn ref) := by
          rw [countP_isTurn_pos]
          intro hturn
          have hold := (hn.sound.turn_router hturn).left
          omega
        omega
      · omega
  · refine iff_of_true ?_ (fun hstart => absurd hstart h.kind)
    intro ref
    rw [h.countP (isTurn_cancelWait ref)]
    exact hchain ref

theorem step_oneChain_iff {event : Event} (hstep : step n event = some n')
    (hn : Consistent n) (hchain : OneChain n) :
    OneChain n' <-> ChainsEnded n event := by
  cases event with
  | request env payload =>
      rcases returned_eq_some.mp hstep with ⟨response, hrun⟩
      unfold ChainsEnded
      rw [startOrStop_eq_start]
      exact (onNewRequest_ok_iff.mp hrun).right.oneChain_iff hn hchain
  | message env origin payload =>
      refine iff_of_true ?_ (fun hstart => by cases hstart)
      rcases message_spec hstep with ⟨m, _, hservice, _, rfl⟩
      intro ref
      rw [countP_performAll (isTurn_cancelWait ref), hservice,
        (messageEffects_packets n origin payload).countP_eq_zero
          (fun _ _ _ _ => rfl)]
      exact hchain ref
  | run env index =>
      refine iff_of_true ?_ (fun hstart => by cases hstart)
      rcases run_spec hn.sound hstep with
        ⟨task, effects, m, hget, htask, heffects, _, _, hservice, _, rfl⟩
      intro ref
      have htaken := countP_taken (isTurn ref) hget
      have hposted := htask.countP_turn heffects ref
      have hle := hchain ref
      rw [countP_performAll (isTurn_cancelWait ref), hservice]
      omega

end Chains

/-- A generator keeps to one chain exactly as long as every Start request finds
the chains of the current router ended. -/
theorem oneChain_iff_chainsEnded (port : UInt32) (startTime : Nat)
    (events : List Event) :
    Along step (fun _ _ n' => OneChain n') (new port startTime) events <->
      Along step (fun n event _ => ChainsEnded n event) (new port startTime)
        events := by
  have hstart : Consistent (new port startTime) ∧
      OneChain (new port startTime) :=
    ⟨consistent_new port startTime, fun _ => Nat.zero_le 1⟩
  exact @Lib.along_iff _ _ step _ _ (fun n => Consistent n ∧ OneChain n)
    (fun hstep hn hnext => ⟨step_consistent hstep hn.left, hnext⟩)
    (fun hstep hn => step_oneChain_iff hstep hn.left hn.right) _ _ hstart

def startedTwice : List Event :=
  [deployRequest (lonely Protocol.ComponentKind.generator),
    command Protocol.Deploy.PacketKind.start,
    command Protocol.Deploy.PacketKind.start]

def doubled : Protort.Node :=
  (Lib.execute step (new 100 0) startedTwice).getD (new 100 0)

/-- A generator that was started twice has two turns queued. -/
theorem startedTwice_twoChains :
    Run (Steps step) (new 100 0) startedTwice doubled ∧ ¬ OneChain doubled := by
  constructor
  · exact Run.of_execute (by decide +kernel)
  intro hchain
  have htwo : doubled.service.countP (isTurn ⟨1, "g"⟩) = 2 := by
    decide +kernel
  have hle := hchain ⟨1, "g"⟩
  omega

end Node
end Protort
