import Protort.Node.Running

/-!
# Routers that fall silent

Tasks do not look at the flag of the router they belong to before they run, so
that a router that was stopped may have any amount of work queued.  What it
still does is bounded by that work: a component may process a packet and hand
its outputs to the router, which drops them, and a generator that is stopped
does nothing.
-/

namespace Protort
namespace Node

open Lib (Run Steps Guarded tally)
open Components (Component Origin)

def Task.router : Task -> Nat
  | Task.doProcess ref _ _ _ => ref.router
  | Task.doRoute address _ _ => address
  | Task.generate ref => ref.router
  | Task.timerWait ref _ => ref.router

theorem TaskSound.router_le {n : Protort.Node} {task : Task}
    (h : TaskSound n task) (hnumbered : Numbered n) :
    task.router <= n.router.address := by
  have hcomponent : forall {ref : ComponentRef} {c : Component},
      n.findComponent ref = some c -> ref.router <= n.router.address := by
    intro ref c hc
    rcases findComponent_eq_some.mp hc with ⟨r, hr, _⟩
    exact (hnumbered.find_iff ref.router).mp ⟨r, hr⟩
  cases task with
  | doProcess ref origin inPort payload =>
      rcases h with ⟨c, hc⟩
      exact hcomponent hc
  | doRoute address compInst outputs =>
      rcases h with ⟨r, name, hr, _⟩
      exact (hnumbered.find_iff address).mp ⟨r, hr⟩
  | generate ref =>
      rcases h with ⟨c, hc, _⟩
      exact hcomponent hc
  | timerWait ref cancelled =>
      rcases h with ⟨c, hc, _⟩
      exact hcomponent hc

def Task.isPacket : Task -> Bool
  | Task.doProcess _ _ _ _ => true
  | _ => false

def isPending (address : Nat) (task : Task) : Bool :=
  decide (task.router = address)

def pendingTasks (address : Nat) (n : Protort.Node) : Nat :=
  n.service.countP (isPending address)

def pendingPackets (address : Nat) (n : Protort.Node) : Nat :=
  n.service.countP (fun task => isPending address task && task.isPacket)

def NotStarting (address : Nat) (n : Protort.Node) (event : Event) : Prop :=
  startOrStop event = some Protocol.Deploy.PacketKind.start ->
    n.router.address ≠ address

instance (address : Nat) (n : Protort.Node) (event : Event) :
    Decidable (NotStarting address n event) :=
  inferInstanceAs (Decidable (_ -> _))

def runsTask (address : Nat) (n : Protort.Node) (event : Event)
    (_ : Protort.Node) : Nat :=
  match event with
  | Event.run _ index =>
      if (n.service[index]?).any (isPending address) then 1 else 0
  | _ => 0

/-- What a task of a stopped router may leave in the queue. -/
def IsRest (address : Nat) (task : Task) (rest : List Task) : Prop :=
  rest = [] ∨ (task.isPacket = true ∧
    exists compInst outputs, rest = [Task.doRoute address compInst outputs])

/-- All that happens to a router that is stopped: requests and messages queue
nothing for it and send nothing, messages to it are dropped, and its tasks send
nothing and leave the outputs of a packet in the queue at most. -/
def Silent (address : Nat) (n : Protort.Node) (event : Event)
    (n' : Protort.Node) : Prop :=
  match event with
  | Event.request _ _ =>
      n'.outbox = n.outbox ∧ pendingTasks address n' = pendingTasks address n
  | Event.message _ _ _ =>
      n'.outbox = n.outbox ∧
        pendingTasks address n' = pendingTasks address n ∧
        (n.router.address = address -> n'.service = n.service)
  | Event.run _ index =>
      forall task, n.service[index]? = some task ->
        (task.router = address ->
          n'.outbox = n.outbox ∧ exists rest,
            n'.service = n.service.eraseIdx index ++ rest ∧
            IsRest address task rest) ∧
        (task.router ≠ address ->
          pendingTasks address n' = pendingTasks address n)

/-!
## What is queued for which router
-/

section Posts

variable {env : Platform} {n n' m : Protort.Node} {address : Nat}

theorem router_cancelWait (ref : ComponentRef) (task : Task) :
    (cancelWait ref task).router = task.router := by
  cases task with
  | _ => rfl

theorem isPacket_cancelWait (ref : ComponentRef) (task : Task) :
    (cancelWait ref task).isPacket = task.isPacket := by
  cases task with
  | _ => rfl

theorem isPending_cancelWait (address : Nat) (ref : ComponentRef)
    (task : Task) :
    isPending address (cancelWait ref task) = isPending address task := by
  unfold isPending
  rw [router_cancelWait]

def PostsFor (address : Nat) (effects : List Effect) : Prop :=
  forall task, Effect.post task ∈ effects -> task.router = address

theorem countP_serve_of_ne {effects : List Effect} (address : Nat)
    (h : forall task, Effect.post task ∈ effects -> task.router ≠ address)
    (service : List Task) :
    (effects.foldl serve service).countP (isPending address) =
      service.countP (isPending address) := by
  have hposted : (posted effects).countP (isPending address) = 0 := by
    rw [List.countP_eq_zero]
    intro task htask
    unfold isPending
    rw [decide_eq_true_iff]
    exact h task (mem_posted.mp htask)
  rw [countP_serve (isPending_cancelWait address), hposted, Nat.add_zero]

theorem countP_packets_of_ne {effects : List Effect} (address : Nat)
    (h : forall task, Effect.post task ∈ effects -> task.router ≠ address)
    (service : List Task) :
    (effects.foldl serve service).countP
        (fun task => isPending address task && task.isPacket) =
      service.countP (fun task => isPending address task && task.isPacket) := by
  have hposted : (posted effects).countP
      (fun task => isPending address task && task.isPacket) = 0 := by
    rw [List.countP_eq_zero]
    intro task htask
    unfold isPending
    rw [Bool.and_eq_true, decide_eq_true_iff]
    exact fun hpending => h task (mem_posted.mp htask) hpending.left
  rw [countP_serve (fun ref task => by
    rw [isPending_cancelWait, isPacket_cancelWait]), hposted, Nat.add_zero]

theorem generateEffects_posts {ref : ComponentRef} {c : Component}
    (hrouter : c.router = ref.router) (env : Platform) :
    PostsFor ref.router (generateEffects env ref c) := by
  intro task htask
  rcases post_generateEffects htask with
    ⟨outputs, _, rfl⟩ | ⟨_, rfl⟩ | ⟨_, rfl⟩
  · exact hrouter
  · rfl
  · rfl

theorem sends_generateEffects (env : Platform) (ref : ComponentRef)
    (c : Component) : sends (generateEffects env ref c) = [] := by
  unfold generateEffects generateNext
  cases c.generate env with
  | none => rfl
  | some outputs =>
      simp only
      split <;> rfl

theorem generateEffects_stopped {c : Component} (hc : c.started = false)
    (env : Platform) (ref : ComponentRef) :
    generateEffects env ref c = [] := by
  unfold generateEffects Component.generate
  rw [hc]
  rfl

theorem Sound.start_posts (h : Sound n) (env : Platform) (address : Nat) :
    PostsFor address ((Switch.start env).allEffects address n) := by
  intro task htask
  rcases Switch.of_mem_allEffects htask with ⟨ref, c, href, hc, _, hposted⟩
  have hrouter := (h.own hc).left
  rw [← Switch.router_of_mem_componentRefs href]
  exact generateEffects_posts (c := { c with started := true }) hrouter
    env task hposted

theorem Switch.stop_cancels {address : Nat} {effect : Effect}
    (h : effect ∈ stop.allEffects address n) :
    exists ref, effect = Effect.cancelWaits ref ∧ ref.router = address := by
  rcases of_mem_allEffects h with ⟨ref, c, href, _, _, hmem⟩
  have hrouter := router_of_mem_componentRefs href
  simp only [stop] at hmem
  split_ifs at hmem
  · exact ⟨ref, List.mem_singleton.mp hmem, hrouter⟩
  · cases hmem

theorem Switch.stop_posts (n : Protort.Node) (address : Nat) (task : Task) :
    Effect.post task ∉ stop.allEffects address n := by
  intro htask
  rcases stop_cancels htask with ⟨ref, heq, _⟩
  cases heq

theorem Switch.sends_allEffects {w : Switch}
    (h : forall ref c, sends (w.effects ref c) = []) (address : Nat)
    (n : Protort.Node) : sends (w.allEffects address n) = [] := by
  unfold allEffects sends
  rw [List.filterMap_flatMap, List.flatMap_eq_nil_iff]
  intro ref _
  unfold refEffects
  cases n.findComponent ref with
  | none => rfl
  | some c =>
      simp only
      split_ifs
      · exact h ref c
      · rfl

theorem Switch.sends_start (env : Platform) (ref : ComponentRef)
    (c : Component) : sends ((start env).effects ref c) = [] :=
  sends_generateEffects env ref { c with started := true }

theorem Switch.sends_stop (ref : ComponentRef) (c : Component) :
    sends (stop.effects ref c) = [] := by
  unfold stop
  simp only
  split <;> rfl

def restartEffects (env : Platform) (wasStarted : Bool) (n : Protort.Node) :
    List Effect :=
  if wasStarted then (Switch.start env).allEffects n.router.address n else []

theorem service_restarted (env : Platform) (wasStarted : Bool)
    (n : Protort.Node) :
    (restarted env wasStarted n).service =
      (restartEffects env wasStarted n).foldl serve n.service := by
  unfold restarted restartEffects
  cases wasStarted with
  | true => exact service_switchRouter _ _ n
  | false => rfl

theorem outbox_start (env : Platform) (address : Nat) (n : Protort.Node) :
    (switchRouter (Switch.start env) address n).outbox = n.outbox := by
  rw [outbox_switchRouter, Switch.sends_allEffects (Switch.sends_start env),
    List.append_nil]

theorem outbox_stop (address : Nat) (n : Protort.Node) :
    (switchRouter Switch.stop address n).outbox = n.outbox := by
  rw [outbox_switchRouter, Switch.sends_allEffects Switch.sends_stop,
    List.append_nil]

theorem outbox_restarted (env : Platform) (wasStarted : Bool)
    (n : Protort.Node) : (restarted env wasStarted n).outbox = n.outbox := by
  unfold restarted
  cases wasStarted with
  | true => exact outbox_start env _ n
  | false => rfl

theorem Served.queues {packet : Protocol.Deploy.Packet}
    {response : Protocol.Payload} (hserved : Served env n packet response n')
    (h : Sound n) :
    n'.outbox = n.outbox ∧ n.router.address <= n'.router.address ∧
      exists effects : List Effect,
        n'.service = effects.foldl serve n.service ∧
        forall task, Effect.post task ∈ effects ->
          task.router = n'.router.address ∧ n'.router.started = true := by
  cases hserved with
  | @deployConfig m hkind hdeploy hcomplete _ =>
      have hbuilt := deployFromPacket_rebuilt (Unstarted.empty n) hdeploy
      have haddress : m.router.address = n.router.address + 1 :=
        hbuilt.address
      have hservice : m.service = n.service := hbuilt.service
      rcases hbuilt.replaced env n.router.started with
        ⟨hrouter, hcurrent, hstarted⟩
      refine ⟨?_, ?_, restartEffects env n.router.started m ++
        Switch.stop.allEffects n.router.address
          (restarted env n.router.started m), ?_, ?_⟩
      · rw [outbox_stop, outbox_restarted]
        exact hbuilt.outbox
      · rw [hrouter, hcurrent]
        exact Nat.le_succ n.router.address
      · rw [service_switchRouter, service_restarted, List.foldl_append,
          hservice]
      · intro task htask
        rcases List.mem_append.mp htask with hposted | hstopped
        · rw [hrouter, hcurrent, hstarted, ← haddress]
          unfold restartEffects at hposted
          cases hflag : n.router.started with
          | true =>
              rw [hflag] at hposted
              exact ⟨(h.rebuilt hbuilt).start_posts env m.router.address task
                hposted, rfl⟩
          | false =>
              rw [hflag] at hposted
              cases hposted
        · exact absurd hstopped (Switch.stop_posts _ _ task)
  | start hkind hcomplete =>
      have hspec := switchRouter_spec (Switch.start env) n.router.address n
      refine ⟨outbox_start env _ n, hspec.current.ge, _,
        service_switchRouter _ _ n, ?_⟩
      intro task htask
      rw [hspec.current]
      exact ⟨h.start_posts env n.router.address task htask,
        started_switchRouter (Switch.start env) n⟩
  | stop hkind hcomplete =>
      have hspec := switchRouter_spec Switch.stop n.router.address n
      exact ⟨outbox_stop _ n, hspec.current.ge, _,
        service_switchRouter _ _ n,
        fun task htask => absurd htask (Switch.stop_posts n _ task)⟩
  | getStatus hkind hstatus =>
      exact ⟨rfl, Nat.le_refl _, [], rfl,
        fun task htask => absurd htask List.not_mem_nil⟩

theorem Sound.task_posts (h : Sound n) {task : Task}
    (htask : TaskSound n task) {effects : List Effect}
    (heffects : Node.taskEffects env n task = some effects) :
    PostsFor task.router effects := by
  cases htask.asks heffects with
  | @doProcess ref c origin inPort payload hc =>
      intro task' htask'
      rcases of_mem_processEffects htask' with ⟨outputs, _, heq⟩
      cases heq
      exact (h.own hc).left
  | doRoute outputs hr hname =>
      intro task' htask'
      rcases Router.doRoute_posts env hname htask' with
        ⟨_, origin, port, output, route, _, _, _, rfl⟩
      exact address_of_findRouter hr
  | generate hc hkind => exact generateEffects_posts (h.own hc).left env
  | timerWait cancelled hc hkind =>
      exact generateEffects_posts (h.own hc).left env

/-- All a task of a stopped router can ask for is that the outputs of a packet
be routed. -/
theorem Sound.stopped_effects (h : Sound n) {task : Task}
    (htask : TaskSound n task) {r : Router}
    (hr : n.findRouter task.router = some r) (hstopped : r.started = false)
    {effects : List Effect}
    (heffects : Node.taskEffects env n task = some effects) :
    effects = [] ∨ (task.isPacket = true ∧ exists compInst outputs,
      effects = [Effect.post
        (Task.doRoute task.router compInst outputs)]) := by
  have hflags : forall ref c, ref.router = task.router ->
      n.findComponent ref = some c -> c.isGenerator = true ->
        c.started = false := by
    intro ref c href hc hgen
    rcases h.flag hc hgen with ⟨r', hr', hflag⟩
    rw [href, hr] at hr'
    rcases Option.some.inj hr' with rfl
    rw [hflag, hstopped]
  cases htask.asks heffects with
  | @doProcess ref c origin inPort payload hc =>
      rcases processEffects_cases env c inPort payload with
        hnone | ⟨outputs, _, hone⟩
      · exact Or.inl hnone
      · refine Or.inr ⟨rfl, c.compInst, outputs, ?_⟩
        rw [hone, (h.own hc).left]
        rfl
  | @doRoute address r' name outputs hr' hname =>
      have hsame : n.findRouter address = some r := hr
      rw [hsame] at hr'
      rcases Option.some.inj hr' with rfl
      unfold Router.doRoute
      rw [hstopped]
      exact Or.inl rfl
  | @generate ref c hc hkind =>
      have hgen := isGenerator_of_kind (Or.inl hkind)
      exact Or.inl (generateEffects_stopped (hflags ref c rfl hc hgen) env ref)
  | @timerWait ref c cancelled hc hkind =>
      have hgen := isGenerator_of_kind (Or.inr hkind)
      exact Or.inl (generateEffects_stopped (hflags ref c rfl hc hgen) env ref)

end Posts

/-!
## Stopped routers
-/

/-- A router there has been, and it is not started. -/
structure Stopped (address : Nat) (n : Protort.Node) : Prop where
  made : address <= n.router.address
  current : n.router.address = address -> n.router.started = false

section Stopped

variable {env : Platform} {n n' : Protort.Node} {address : Nat}

theorem Stopped.router (h : Stopped address n) (hn : Consistent n) :
    exists r, n.findRouter address = some r ∧ r.started = false := by
  rcases (hn.sound.numbered.find_iff address).mpr h.made with ⟨r, hr⟩
  exists r
  constructor
  · exact hr
  by_cases hcurrent : n.router.address = address
  · rw [← router_of_find hcurrent hr]
    exact h.current hcurrent
  · exact hn.oldStopped address r (Ne.symm hcurrent) hr

theorem step_address {event : Event} (hn : Consistent n)
    (hstep : Node.step n event = some n') :
    n.router.address <= n'.router.address := by
  cases event with
  | request env payload =>
      rcases returned_eq_some.mp hstep with ⟨response, hrun⟩
      exact ((onNewRequest_ok_iff.mp hrun).right.queues hn.sound).right.left
  | message env origin payload =>
      rcases message_spec hstep with ⟨m, hworked, _, _, rfl⟩
      exact (hworked.trans (performAll_worked m _)).current.ge
  | run env index =>
      rcases run_spec hn.sound hstep with
        ⟨_, effects, m, _, _, _, _, hworked, _, _, rfl⟩
      exact (hworked.trans (performAll_worked m effects)).current.ge

theorem Stopped.step {event : Event} (h : Stopped address n)
    (hn : Consistent n) (hguard : NotStarting address n event)
    (hstep : Node.step n event = some n') : Stopped address n' := by
  have hle := step_address hn hstep
  constructor
  · exact h.made.trans hle
  intro hcurrent
  have hsame : n.router.address = address := by
    have hmade := h.made
    omega
  rw [(Consistent.step hstep hn).right, startedBy_eq, h.current hsame]
  cases hcommand : startOrStop event with
  | none => rfl
  | some kind =>
      show decide (kind = _) = false
      rw [decide_eq_false_iff_not]
      intro heq
      subst heq
      exact hguard hcommand hsame

/-- The weight of the tasks of a router: a packet counts twice. -/
def work (address : Nat) (n : Protort.Node) : Nat :=
  pendingTasks address n + pendingPackets address n

theorem work_of_others {effects : List Effect}
    (hservice : n'.service = effects.foldl serve n.service)
    (hothers : forall task, Effect.post task ∈ effects ->
      task.router ≠ address) :
    pendingTasks address n' = pendingTasks address n ∧
      work address n' = work address n := by
  have htasks : pendingTasks address n' = pendingTasks address n := by
    unfold pendingTasks
    rw [hservice]
    exact countP_serve_of_ne address hothers n.service
  have hpackets : pendingPackets address n' = pendingPackets address n := by
    unfold pendingPackets
    rw [hservice]
    exact countP_packets_of_ne address hothers n.service
  constructor
  · exact htasks
  · unfold work
    rw [htasks, hpackets]

theorem Stopped.request {payload : Protocol.Payload} (h : Stopped address n)
    (hn : Consistent n)
    (hguard : NotStarting address n (Event.request env payload))
    (hstep : Node.step n (Event.request env payload) = some n') :
    n'.outbox = n.outbox ∧
      pendingTasks address n' = pendingTasks address n ∧
      work address n' = work address n := by
  have hnext := h.step hn hguard hstep
  rcases returned_eq_some.mp hstep with ⟨response, hrun⟩
  rcases (onNewRequest_ok_iff.mp hrun).right.queues hn.sound with
    ⟨houtbox, _, effects, hservice, hposts⟩
  have hothers : forall task, Effect.post task ∈ effects ->
      task.router ≠ address := by
    intro task htask heq
    rcases hposts task htask with ⟨hrouter, hstarted⟩
    rw [hnext.current (hrouter.symm.trans heq)] at hstarted
    cases hstarted
  exact ⟨houtbox, work_of_others hservice hothers⟩

theorem sends_messageEffects (origin : Option Origin)
    (payload : Protocol.Payload) :
    sends (n.messageEffects origin payload) = [] := by
  unfold messageEffects
  rw [Router.route_snd]
  split_ifs <;> rfl

theorem Stopped.messageEffects (h : Stopped address n)
    (hcurrent : n.router.address = address) (origin : Option Origin)
    (payload : Protocol.Payload) : n.messageEffects origin payload = [] := by
  unfold Node.messageEffects
  rw [Router.route_snd, if_neg]
  intro hrouted
  rw [h.current hcurrent] at hrouted
  cases hrouted.left

theorem Stopped.message {origin : Option Origin} {payload : Protocol.Payload}
    (h : Stopped address n)
    (hstep : Node.step n (Event.message env origin payload) = some n') :
    n'.outbox = n.outbox ∧
      (pendingTasks address n' = pendingTasks address n ∧
        work address n' = work address n) ∧
      (n.router.address = address -> n'.service = n.service) := by
  rcases message_spec hstep with ⟨m, _, hservice, houtbox, rfl⟩
  have hserved : (m.performAll (n.messageEffects origin payload)).service =
      (n.messageEffects origin payload).foldl serve n.service := by
    rw [service_performAll, hservice]
  have hothers : forall task,
      Effect.post task ∈ n.messageEffects origin payload ->
        task.router ≠ address := by
    intro task htask heq
    have hcurrent : n.router.address = address := by
      unfold Node.messageEffects at htask
      rw [Router.route_snd] at htask
      split_ifs at htask
      · cases List.mem_singleton.mp htask
        exact heq
      · cases htask
    rw [h.messageEffects hcurrent] at htask
    cases htask
  refine ⟨?_, work_of_others hserved hothers, ?_⟩
  · rw [outbox_performAll, sends_messageEffects, List.append_nil, houtbox]
  · intro hcurrent
    rw [hserved, h.messageEffects hcurrent]
    rfl

theorem Stopped.run_own {index : Nat} {task : Task} (h : Stopped address n)
    (hn : Consistent n) (hget : n.service[index]? = some task)
    (hrouter : task.router = address)
    (hstep : Node.step n (Event.run env index) = some n') :
    n'.outbox = n.outbox ∧ exists rest,
      n'.service = n.service.eraseIdx index ++ rest ∧
      IsRest address task rest := by
  rcases run_spec hn.sound hstep with
    ⟨task', effects, m, hget', htask, heffects, _, _, hservice, houtbox, rfl⟩
  have hsame : task = task' := Option.some.inj (hget.symm.trans hget')
  subst hsame
  rcases h.router hn with ⟨r, hr, hstopped⟩
  rw [← hrouter] at hr
  rw [service_performAll, outbox_performAll, hservice, houtbox]
  rcases hn.sound.stopped_effects htask hr hstopped heffects with
    hnone | ⟨hpacket, compInst, outputs, hrest⟩
  · subst effects
    exact ⟨List.append_nil _, [], (List.append_nil _).symm, Or.inl rfl⟩
  · subst effects
    rw [hrouter]
    exact ⟨List.append_nil _, _, rfl,
      Or.inr ⟨hpacket, compInst, outputs, rfl⟩⟩

/-- What a task leaves weighs less than the task. -/
theorem work_of_rest {index : Nat} {task : Task} {rest : List Task}
    (hget : n.service[index]? = some task) (hrouter : task.router = address)
    (hservice : n'.service = n.service.eraseIdx index ++ rest)
    (hrest : IsRest address task rest) :
    1 + work address n' <= work address n := by
  have hpending : isPending address task = true := decide_eq_true hrouter
  have htasks := countP_taken (isPending address) hget
  have hpackets := countP_taken
    (fun task => isPending address task && task.isPacket) hget
  unfold work pendingTasks pendingPackets
  rw [hservice, List.countP_append, List.countP_append]
  simp only [hpending, Bool.true_and, if_true] at htasks hpackets
  rcases hrest with hnone | ⟨hpacket, compInst, outputs, hroute⟩
  · subst hnone
    simp only [List.countP_nil]
    omega
  · subst hroute
    have hnew : isPending address
        (Task.doRoute address compInst outputs) = true := decide_eq_true rfl
    have hroute : (Task.doRoute address compInst outputs).isPacket = false :=
      rfl
    rw [if_pos hpacket] at hpackets
    simp only [List.countP_singleton, hnew, hroute, if_true, Bool.and_false,
      Bool.false_eq_true, if_false]
    omega

theorem Sound.run_other {index : Nat} {task : Task} (h : Sound n)
    (hget : n.service[index]? = some task) (hrouter : task.router ≠ address)
    (hstep : Node.step n (Event.run env index) = some n') :
    pendingTasks address n' = pendingTasks address n ∧
      work address n' = work address n := by
  rcases run_spec h hstep with
    ⟨task', effects, m, hget', htask, heffects, _, _, hservice, _, rfl⟩
  have hsame : task = task' := Option.some.inj (hget.symm.trans hget')
  subst hsame
  have hserved : (m.performAll effects).service =
      effects.foldl serve (n.service.eraseIdx index) := by
    rw [service_performAll, hservice]
  have hothers : forall posted, Effect.post posted ∈ effects ->
      posted.router ≠ address := by
    intro posted hposted heq
    exact hrouter ((h.task_posts htask heffects posted hposted).symm.trans heq)
  have hpending : isPending address task = false := decide_eq_false hrouter
  have htasks := countP_taken (isPending address) hget
  have hpackets := countP_taken
    (fun task => isPending address task && task.isPacket) hget
  simp only [hpending, Bool.false_and, Bool.false_eq_true, if_false,
    Nat.add_zero] at htasks hpackets
  rcases work_of_others (n := { n with service := n.service.eraseIdx index })
    hserved hothers with ⟨hpendingTasks, hwork⟩
  unfold work pendingTasks pendingPackets at *
  rw [htasks, hpackets]
  exact ⟨hpendingTasks, hwork⟩

/-- What every event does for a stopped router. -/
theorem Stopped.silent {event : Event} (h : Stopped address n)
    (hn : Consistent n) (hguard : NotStarting address n event)
    (hstep : Node.step n event = some n') :
    Silent address n event n' ∧
      runsTask address n event n' + work address n' <= work address n := by
  cases event with
  | request env payload =>
      rcases h.request hn hguard hstep with ⟨houtbox, htasks, hwork⟩
      constructor
      · exact ⟨houtbox, htasks⟩
      · unfold runsTask
        rw [hwork, Nat.zero_add]
  | message env origin payload =>
      rcases h.message hstep with ⟨houtbox, ⟨htasks, hwork⟩, hservice⟩
      constructor
      · exact ⟨houtbox, htasks, hservice⟩
      · unfold runsTask
        rw [hwork, Nat.zero_add]
  | run env index =>
      rcases run_spec hn.sound hstep with
        ⟨task, _, _, hget, _, _, _, _, _, _, _⟩
      unfold Silent runsTask
      simp only []
      rw [hget, Option.any_some]
      by_cases hrouter : task.router = address
      · rcases h.run_own hn hget hrouter hstep with
          ⟨houtbox, rest, hservice, hrest⟩
        have hpending : isPending address task = true :=
          decide_eq_true hrouter
        rw [if_pos hpending]
        constructor
        · intro task' hget'
          rcases Option.some.inj hget' with rfl
          exact ⟨fun _ => ⟨houtbox, rest, hservice, hrest⟩,
            fun hne => absurd hrouter hne⟩
        · exact work_of_rest hget hrouter hservice hrest
      · rcases hn.sound.run_other hget hrouter hstep with ⟨htasks, hwork⟩
        have hpending : isPending address task = false :=
          decide_eq_false hrouter
        rw [hpending, hwork]
        constructor
        · intro task' hget'
          rcases Option.some.inj hget' with rfl
          exact ⟨fun heq => absurd heq hrouter, fun _ => htasks⟩
        · simp

theorem step_run_isSome (hn : Consistent n) (env : Platform) {index : Nat}
    {task : Task} (hget : n.service[index]? = some task) :
    exists n', Node.step n (Event.run env index) = some n' := by
  have hsound : TaskSound { n with service := n.service.eraseIdx index }
      task := hn.sound.tasks task (List.mem_of_getElem? hget)
  rcases runTask_ok env hsound with ⟨effects, m, _, hrun, _⟩
  exact ⟨m.performAll effects, step_of_runTask hget hrun⟩

end Stopped

/-!
## Runs
-/

structure HasStopped (address : Nat) (n : Protort.Node) : Prop where
  consistent : Consistent n
  stopped : Stopped address n

theorem step_quiet {address : Nat} {n n' : Protort.Node} {event : Event}
    (hguard : NotStarting address n event) (hstep : step n event = some n')
    (h : HasStopped address n) : HasStopped address n' :=
  { consistent := step_consistent hstep h.consistent
    stopped := h.stopped.step h.consistent hguard hstep }

theorem Reachable.quiet {n : Protort.Node} (hn : Reachable n) {address : Nat}
    {r : Router} (hr : n.findRouter address = some r)
    (hstopped : r.started = false) : HasStopped address n := by
  have hcons := hn.consistent
  constructor
  · exact hcons
  constructor
  · exact (hcons.sound.numbered.find_iff address).mp ⟨r, hr⟩
  intro hcurrent
  rw [router_of_find hcurrent hr]
  exact hstopped

/-- A router of a node that has been stopped falls silent: as long as it is not
started again it is silent in every step, its queued tasks can be run in any
order, and no more of them run than were pending, each packet counted twice. -/
theorem stopped_router_falls_silent {n : Protort.Node} (hn : Reachable n)
    {address : Nat} {r : Router} (hr : n.findRouter address = some r)
    (hstopped : r.started = false) {events : List Event} {n' : Protort.Node}
    (hrun : Run (Guarded (NotStarting address) (Steps step)) n events n') :
    (exists r', n'.findRouter address = some r' ∧ r'.started = false) ∧
    (forall event n'', NotStarting address n' event ->
      step n' event = some n'' -> Silent address n' event n'') ∧
    (forall env index task, n'.service[index]? = some task ->
      task.router = address -> exists n'', step n' (Event.run env index) =
        some n'') ∧
    tally step (runsTask address) n events + pendingTasks address n' <=
      pendingTasks address n + pendingPackets address n := by
  have hstart := hn.quiet hr hstopped
  have hend : HasStopped address n' :=
    hrun.invariant (fun hstep h => step_quiet hstep.left hstep.right h) hstart
  have hbound := hrun.tally_le_measure (work address)
    (fun hguard hstep h => step_quiet hguard hstep h)
    (fun hguard hstep h =>
      (h.stopped.silent h.consistent hguard hstep).right) hstart
  refine ⟨hend.stopped.router hend.consistent, ?_, ?_, ?_⟩
  · intro event n'' hguard hstep
    exact (hend.stopped.silent hend.consistent hguard hstep).left
  · intro env index task hget _
    exact step_run_isSome hend.consistent env hget
  · unfold work at hbound
    omega

def stoppedNode : Protort.Node :=
  (Lib.execute step (new 100 0)
    [command Protocol.Deploy.PacketKind.start,
      deployRequest (lonely Protocol.ComponentKind.generator),
      command Protocol.Deploy.PacketKind.stop]).getD (new 100 0)

def remains : List Event :=
  [Event.run Platform.loopback 1, Event.run Platform.loopback 0]

def silentNode : Protort.Node :=
  (Lib.execute step stoppedNode remains).getD stoppedNode

theorem reachable_stoppedNode : Reachable stoppedNode :=
  ⟨100, 0, [command Protocol.Deploy.PacketKind.start,
      deployRequest (lonely Protocol.ComponentKind.generator),
      command Protocol.Deploy.PacketKind.stop],
    Run.of_execute (by decide +kernel)⟩

theorem run_remains :
    Run (Guarded (NotStarting 1) (Steps step)) stoppedNode remains
      silentNode :=
  Run.guarded_of_execute (by decide +kernel)

theorem stopped_router_falls_silent_generator :
    (exists r', silentNode.findRouter 1 = some r' ∧ r'.started = false) ∧
    (forall event n'', NotStarting 1 silentNode event ->
      step silentNode event = some n'' -> Silent 1 silentNode event n'') ∧
    (forall env index task, silentNode.service[index]? = some task ->
      task.router = 1 -> exists n'', step silentNode (Event.run env index) =
        some n'') ∧
    tally step (runsTask 1) stoppedNode remains + pendingTasks 1 silentNode <=
      pendingTasks 1 stoppedNode + pendingPackets 1 stoppedNode :=
  stopped_router_falls_silent reachable_stoppedNode
    (by decide +kernel : stoppedNode.findRouter 1 = some stoppedNode.router)
    (by decide +kernel) run_remains

end Node
end Protort
