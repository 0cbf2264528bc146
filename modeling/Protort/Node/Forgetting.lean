import Protort.Node.Sparing

/-!
# Redeployed nodes

A node that has been deployed anew goes on like a node that was just made and
has been given the same configuration, whatever it did before.  Its queue may
still hold work for routers that were replaced, and messages that it sent may
still be on the way; nothing that happens later depends on them.
-/

namespace Protort
namespace Node

open Lib (Dropping Run Steps SameResult)
open Components (Component)

/-!
## Nodes without a past
-/

/-- The node as its constructor makes it at the same place in memory, started if
the node is.  The routers that it is counted to have had are empty. -/
def wiped (n : Protort.Node) : Protort.Node :=
  { new n.port n.startTime with
    next := n.next
    router := { Router.new n.router.address with started := n.router.started }
    retired := n.retired.map (fun r => Router.new r.address) }

theorem routerSound_new (address : Nat) (started : Bool) :
    RouterSound { Router.new address with started := started } :=
  { own := fun _ _ h => absurd h nofun
    flags := fun _ _ h => absurd h nofun
    routes := fun _ _ _ h => absurd h List.not_mem_nil
    complete := fun _ _ h => absurd h Finmap.notMem_empty }

section Wiped

variable {n : Protort.Node}

theorem findRouter_wiped {address : Nat} {r : Router}
    (hr : (wiped n).findRouter address = some r) :
    r = { Router.new n.router.address with started := n.router.started } ∨
      address ≠ n.router.address ∧ exists other, r = Router.new other := by
  unfold findRouter at hr
  split_ifs at hr with hcurrent
  · exact Or.inl (Option.some.inj hr).symm
  · rcases List.mem_map.mp (List.mem_of_find?_eq_some hr) with ⟨old, _, rfl⟩
    exact Or.inr ⟨Ne.symm hcurrent, old.address, rfl⟩

theorem consistent_wiped (hn : Consistent n) : Consistent (wiped n) := by
  constructor
  · refine
      { numbered := ?_
        routers := ?_
        tasks := fun task htask => absurd htask List.not_mem_nil }
    · have hnumbered := hn.sound.numbered
      unfold Numbered at *
      show (n.retired.map _).map _ = (List.range n.router.address).reverse
      rw [List.map_map, ← hnumbered]
      rfl
    · intro address r hr
      rcases findRouter_wiped hr with rfl | ⟨_, other, rfl⟩
      · exact routerSound_new _ _
      · exact routerSound_new other false
  · intro address r hne hr
    rcases findRouter_wiped hr with rfl | ⟨_, other, rfl⟩
    · exact absurd (address_of_findRouter hr).symm hne
    · rfl

theorem complete_wiped (n : Protort.Node) :
    Complete (wiped n) (wiped n).router.address := by
  intro ref href
  rcases (Switch.mem_componentRefs (findRouter_current _)).mp href with
    ⟨_, hname⟩
  exact absurd hname Finmap.notMem_empty

end Wiped

/-!
## Nodes with and without a past
-/

/-- Work for routers that came before some router. -/
def Stale (base : Nat) (task : Task) : Prop :=
  task.router < base

def isLive (base address : Nat) : Bool :=
  decide (base <= address)

/-- The first node does what the second does, without what that has left from
the time before some router was made. -/
structure Renewed (base : Nat) (before : List Outgoing)
    (n m : Protort.Node) : Prop where
  fresh : Consistent n
  consistent : Consistent m
  spares : Spares (Stale base) (isLive base) before n m
  server : n.server = m.server
  live : forall task, task ∈ n.service -> base <= task.router

section Renewed

variable {base : Nat} {before : List Outgoing} {n n' m m' : Protort.Node}
  {env : Platform} {event : Event}

theorem stale_cancelWait (ref : ComponentRef) (task : Task)
    (h : Stale base task) : Stale base (cancelWait ref task) := by
  unfold Stale
  rw [router_cancelWait]
  exact h

theorem isLive_succ (address : Nat) (h : isLive base address = true) :
    isLive base (address + 1) = true :=
  decide_eq_true (Nat.le_succ_of_le (of_decide_eq_true h))

theorem stale_congruence (base : Nat) (before : List Outgoing) :
    Congruence (fun address => isLive base address = true)
      (Spares (Stale base) (isLive base) before) :=
  spares_congruence stale_cancelWait isLive_succ

theorem stale_congruence_server (base : Nat) (before : List Outgoing) :
    Congruence (fun address => isLive base address = true)
      (fun n m => Spares (Stale base) (isLive base) before n m ∧
        n.server = m.server) :=
  (stale_congruence base before).withServer

theorem Renewed.base_le (h : Renewed base before n m) :
    base <= n.router.address := by
  rw [h.spares.router]
  exact of_decide_eq_true h.spares.current

theorem Renewed.arrived (h : Renewed base before n m)
    (harrives : event.arrives = true) :
    Option.Rel (Renewed base before) (step n event) (step m event) := by
  have hrel := (stale_congruence_server base before).arrived
    ⟨h.spares, h.server⟩ harrives
  cases hn' : step n event with
  | none =>
      rw [hn'] at hrel
      cases hm' : step m event with
      | none => exact Option.Rel.none
      | some m' =>
          rw [hm'] at hrel
          cases hrel
  | some n' =>
      rcases Lib.rel_some_left hrel hn' with ⟨m', hm', hspares, hserver⟩
      rw [hm']
      rcases arrived_spec h.fresh hn' harrives with
        ⟨hle, effects, hservice, hposts⟩
      refine Option.Rel.some
        { fresh := step_consistent hn' h.fresh
          consistent := step_consistent hm' h.consistent
          spares := hspares
          server := hserver
          live := ?_ }
      rw [hservice]
      refine foldl_serve_forall ?_ h.live ?_
      · intro ref task htask
        rw [router_cancelWait]
        exact htask
      · intro task htask
        rw [hposts task htask]
        exact h.base_le.trans hle

theorem Renewed.ran (h : Renewed base before n m) {index index' : Nat}
    {task : Task} (htask : n.service[index]? = some task)
    (htask' : m.service[index']? = some task)
    (hdropping : Dropping (Stale base) (n.service.eraseIdx index)
      (m.service.eraseIdx index')) :
    exists n' m', step n (Event.run env index) = some n' ∧
      step m (Event.run env index') = some m' ∧ Renewed base before n' m' := by
  have hmem := List.mem_of_getElem? htask
  have hlive := h.live task hmem
  have hsound := h.fresh.sound.tasks task hmem
  have htaken : Sound { n with service := n.service.eraseIdx index } :=
    h.fresh.sound.eraseIdx index
  have hsound' : TaskSound { n with service := n.service.eraseIdx index }
    task := hsound
  rcases runTask_ok env hsound' with
    ⟨effects, k, heffects, hrun, _, hservice, _⟩
  have hspares : Spares (Stale base) (isLive base) before
      { n with service := n.service.eraseIdx index }
      { m with service := m.service.eraseIdx index' } :=
    { h.spares with service := hdropping }
  have hsame := relates_runTask (stale_congruence_server base before) env
    (decide_eq_true hlive) _ _ ⟨hspares, h.server⟩
  rw [hrun] at hsame
  rcases hsame.exists_ok with ⟨m', hrun', hspares', hserver⟩
  have hstep := step_of_runTask htask hrun
  have hstep' := step_of_runTask htask' hrun'
  refine ⟨_, m', hstep, hstep',
    { fresh := step_consistent hstep h.fresh
      consistent := step_consistent hstep' h.consistent
      spares := hspares'
      server := hserver
      live := ?_ }⟩
  rw [service_performAll, hservice]
  refine foldl_serve_forall ?_
    (fun t ht => h.live t (List.mem_of_mem_eraseIdx ht)) ?_
  · intro ref t ht
    rw [router_cancelWait]
    exact ht
  · intro t ht
    rw [htaken.task_posts hsound' heffects t ht]
    exact hlive

theorem Renewed.ran_stale (h : Renewed base before n m) {index : Nat}
    {task : Task} (htask : m.service[index]? = some task)
    (hstale : Stale base task)
    (hdropping : Dropping (Stale base) n.service (m.service.eraseIdx index))
    (hstep : step m (Event.run env index) = some m') :
    Renewed base before n m' := by
  have hconsistent := step_consistent hstep h.consistent
  rcases step_run hstep with ⟨task', htask', hrun⟩
  rw [htask] at htask'
  cases htask'
  have hdead : isLive base task.router = false :=
    decide_eq_false (Nat.not_le_of_gt hstale)
  have hsound := h.consistent.sound.tasks task (List.mem_of_getElem? htask)
  have htaken : Consistent { m with service := m.service.eraseIdx index } :=
    { sound := h.consistent.sound.eraseIdx index
      oldStopped := h.consistent.oldStopped }
  have hne : task.router ≠ m.router.address := by
    intro hsame
    rw [hsame, h.spares.current] at hdead
    cases hdead
  have hspares : Spares (Stale base) (isLive base) before n
      { m with service := m.service.eraseIdx index } :=
    { h.spares with service := hdropping }
  -- a generator of a router that was replaced has its flag
  have hstopped : forall {ref : ComponentRef} {c : Component},
      ref.router = task.router -> Node.findComponent
        { m with service := m.service.eraseIdx index } ref = some c ->
      c.isGenerator = true -> c.started = false := by
    intro ref c href hc hgen
    rcases htaken.sound.flag hc hgen with ⟨r, hr, hflag⟩
    rw [hflag]
    exact htaken.oldStopped _ r (href ▸ hne) hr
  suffices hafter : Spares (Stale base) (isLive base) before n m' ∧
      m'.server = m.server from
    { fresh := h.fresh
      consistent := hconsistent
      spares := hafter.left
      server := h.server.trans hafter.right.symm
      live := h.live }
  cases task with
  | doProcess ref origin inPort payload =>
      rcases hsound with ⟨c, hc⟩
      have hfound : Node.findComponent
          { m with service := m.service.eraseIdx index } ref = some c := hc
      have hrouter := (htaken.sound.own hfound).left
      rw [runTask_doProcess env hfound] at hrun
      cases hrun
      have hcounted := hspares.updateComponent_right hdead
        (c.doProcess env origin inPort payload).1
      refine @List.foldlRecOn _ _ (fun k : Protort.Node =>
        Spares (Stale base) (isLive base) before n k ∧ k.server = m.server)
        (processEffects env c inPort payload) Node.perform _ ⟨hcounted, ?_⟩ ?_
      · exact server_updateComponent _ ref _
      · intro k hk effect heffect
        rcases of_mem_processEffects heffect with ⟨outputs, _, rfl⟩
        refine ⟨hk.left.posts_right ?_, hk.right⟩
        show c.router < base
        rw [hrouter]
        exact hstale
  | doRoute address compInst outputs =>
      rw [run_stopped htaken hsound hne] at hrun
      cases hrun
      exact ⟨hspares, rfl⟩
  | generate ref =>
      rcases hsound with ⟨c, hc, hkind⟩
      have hfound : Node.findComponent
          { m with service := m.service.eraseIdx index } ref = some c := hc
      rw [runTask_generate env hfound, generateEffects_stopped
        (hstopped rfl hfound (isGenerator_of_kind (Or.inl hkind)))] at hrun
      cases hrun
      exact ⟨hspares, rfl⟩
  | timerWait ref cancelled =>
      rcases hsound with ⟨c, hc, hkind⟩
      have hfound : Node.findComponent
          { m with service := m.service.eraseIdx index } ref = some c := hc
      rw [runTask_timerWait env hfound, generateEffects_stopped
        (hstopped rfl hfound (isGenerator_of_kind (Or.inr hkind)))] at hrun
      cases hrun
      exact ⟨hspares, rfl⟩

end Renewed

/-!
## The deployment
-/

section Deploying

variable {n n' m w : Protort.Node} {env : Platform}
  {config : Protocol.Deploy.Config}

theorem switchRouter_empty (s : Switch) {address : Nat} {r : Router}
    (hr : n.findRouter address = some r) (hempty : r.components = ∅) :
    switchRouter s address n =
      n.updateRouter { r with started := s.started } := by
  have hrefs : componentRefs n address = [] := by
    rw [List.eq_nil_iff_forall_not_mem]
    intro ref href
    have hmem := ((Switch.mem_componentRefs hr).mp href).right
    rw [hempty] at hmem
    exact Finmap.notMem_empty hmem
  unfold switchRouter Switch.flagged Switch.allEffects setStarted
  rw [hrefs, hr]
  rfl

/-- A deployment sees a new router on both nodes. -/
theorem spares_exchanged (hn : Consistent n)
    (config : Protocol.Deploy.Config) :
    Spares (Stale (n.router.address + 1)) (isLive (n.router.address + 1))
      n.outbox (named config (wiped n).exchanged)
        (named config n.exchanged) := by
  have hold : forall routers : List Router, (forall r, r ∈ routers ->
      r.address <= n.router.address) ->
      routers.filter (fun r => isLive (n.router.address + 1) r.address) =
        [] := by
    intro routers hrouters
    rw [List.filter_eq_nil_iff]
    intro r hr hlive
    exact absurd (of_decide_eq_true hlive)
      (Nat.not_le_of_gt (Nat.lt_succ_of_le (hrouters r hr)))
  have hretired : forall r, r ∈ n.exchanged.retired ->
      r.address <= n.router.address := by
    intro r hr
    rcases List.mem_cons.mp hr with rfl | hr
    · exact Nat.le_refl _
    · rcases hn.sound.numbered.findRouter_retired hr with ⟨_, hfind⟩
      exact (hn.sound.numbered.find_iff _).mp ⟨r, hfind⟩
  exact
    { router := rfl
      next := rfl
      nodeName := rfl
      port := rfl
      startTime := rfl
      current := decide_eq_true (Nat.le_refl _)
      retired := by
        refine (hold _ ?_).trans (hold _ hretired).symm
        intro r hr
        rcases List.mem_cons.mp hr with rfl | hr
        · exact Nat.le_refl _
        · rcases List.mem_map.mp hr with ⟨old, hold, rfl⟩
          exact hretired old (List.mem_cons_of_mem _ hold)
      outbox := (List.append_nil _).symm
      service := by
        refine Dropping.nil_left (fun task htask => ?_)
        have hsound := hn.sound.tasks task htask
        exact Nat.lt_succ_of_le (TaskSound.router_le hsound hn.sound.numbered) }

theorem deployed_alike (hn : Consistent n)
    (hdeploy : deployFromPacket env config n.exchanged =
      EStateM.Result.ok PUnit.unit m) :
    exists w, deployFromPacket env config (wiped n).exchanged =
        EStateM.Result.ok PUnit.unit w ∧
      Spares (Stale (n.router.address + 1)) (isLive (n.router.address + 1))
        n.outbox w m ∧
      w.server = m.server := by
  have hsame := relates_deployFromPacket (stale_congruence _ n.outbox) env
    config _ _ (spares_exchanged hn config)
  -- the name and the port are overwritten first of all
  have hnamed : deployFromPacket env config (named config n.exchanged) =
      EStateM.Result.ok PUnit.unit m := hdeploy
  rw [hnamed] at hsame
  rcases hsame.exists_ok_left with ⟨w, hnamed', hspares⟩
  have hdeploy' : deployFromPacket env config (wiped n).exchanged =
      EStateM.Result.ok PUnit.unit w := hnamed'
  refine ⟨w, hdeploy', hspares, ?_⟩
  rcases deployFromPacket_ok_iff.mp hdeploy with ⟨_, _, _, _, _, rfl⟩
  rcases deployFromPacket_ok_iff.mp hdeploy' with ⟨_, _, _, _, _, rfl⟩
  rfl

theorem findRouter_old {k : Protort.Node}
    (hdeploy : deployFromPacket env config n.exchanged =
      EStateM.Result.ok PUnit.unit k) (wasStarted : Bool) :
    (restarted env wasStarted k).findRouter n.router.address =
      some n.router := by
  have hbuilt := deployFromPacket_rebuilt (Unstarted.empty n) hdeploy
  have hne : n.router.address ≠ k.router.address := by
    rw [hbuilt.address]
    exact Nat.ne_of_lt (Nat.lt_succ_self n.router.address)
  apply findRouter_restarted env wasStarted hne
  rw [findRouter_rebuilt hbuilt.address hbuilt.retired,
    if_neg (Nat.ne_of_lt (Nat.lt_succ_self n.router.address)),
    findRouter_current]

theorem spares_restarted {base : Nat} {before : List Outgoing}
    (h : Spares (Stale base) (isLive base) before w m) (wasStarted : Bool)
    (hstart : wasStarted = true -> Complete m m.router.address) :
    (wasStarted = true -> Complete w w.router.address) ∧
      Spares (Stale base) (isLive base) before (restarted env wasStarted w)
        (restarted env wasStarted m) := by
  cases wasStarted with
  | false => exact ⟨fun h => absurd h Bool.false_ne_true, h⟩
  | true =>
      have hsame := relates_startRouter (stale_congruence base before) env
        h.current w m h
      rw [startRouter_ok env (hstart rfl)] at hsame
      rcases hsame.exists_ok_left with ⟨k, hrun, hspares⟩
      have hcomplete := complete_of_startRouter hrun
      rw [startRouter_ok env hcomplete] at hrun
      cases hrun
      unfold restarted
      rw [h.router]
      exact ⟨fun _ => hcomplete, hspares⟩

theorem server_restarted (env : Platform) (wasStarted : Bool)
    (n : Protort.Node) : (restarted env wasStarted n).server = n.server := by
  unfold restarted
  split_ifs
  · exact server_switchRouter _ _ n
  · rfl

theorem renewed_deployment {payload : Protocol.Payload} (hn : Consistent n)
    (hkind : payload.asDeployPacket.kind =
      Protocol.Deploy.PacketKind.deployConfig)
    (hstep : step n (Event.request env payload) = some n') :
    exists w, step (wiped n) (Event.request env payload) = some w ∧
      Renewed (n.router.address + 1) n.outbox w n' := by
  rcases returned_eq_some.mp hstep with ⟨response, hrun⟩
  rcases onNewRequest_ok_iff.mp hrun with ⟨hdispatched, hserved⟩
  cases hserved with
  | start hother _ => cases hkind.symm.trans hother
  | stop hother _ => cases hkind.symm.trans hother
  | getStatus hother _ => cases hkind.symm.trans hother
  | @deployConfig m _ hdeploy hstart _ =>
      rcases deployed_alike hn hdeploy with ⟨w, hdeploy', hspares, hserver⟩
      rcases spares_restarted hspares n.router.started hstart with
        ⟨hcomplete, hrestarted⟩
      have hdead : isLive (n.router.address + 1) n.router.address = false :=
        decide_eq_false (Nat.not_le_of_gt (Nat.lt_succ_self _))
      have hfind := findRouter_old hdeploy' n.router.started
      have hstopped := @Spares.updateRouter_left _ _ _ _ _ hrestarted
        { (wiped n).router with started := false } hdead
      rw [show false = Switch.stop.started from rfl,
        ← switchRouter_empty Switch.stop hfind rfl] at hstopped
      have hserved' : Served env (wiped n) payload.asDeployPacket default _ :=
        Served.deployConfig hkind hdeploy' hcomplete (complete_wiped n)
      have hstep' : step (wiped n) (Event.request env payload) = some _ :=
        returned_eq_some.mpr
          ⟨_, onNewRequest_ok_iff.mpr ⟨hdispatched, hserved'⟩⟩
      have hfresh := step_consistent hstep' (consistent_wiped hn)
      rcases arrived_spec (consistent_wiped hn) hstep' rfl with
        ⟨_, effects, hservice, hposts⟩
      have hlive : forall task, task ∈ (switchRouter Switch.stop
          (wiped n).router.address
          (restarted env (wiped n).router.started w)).service ->
            n.router.address + 1 <= task.router := by
        rw [hservice]
        refine foldl_serve_forall ?_ (fun _ h => absurd h List.not_mem_nil) ?_
        · intro ref task htask
          rw [router_cancelWait]
          exact htask
        · intro task htask
          rw [hposts task htask]
          exact (of_decide_eq_true hstopped.current).trans
            (congrArg Router.address hstopped.router).ge
      exact ⟨_, hstep',
        { fresh := hfresh
          consistent := step_consistent hstep hn
          spares := hstopped.stopped_right stale_cancelWait hdead
            (fun task htask => Nat.ne_of_gt (hlive task htask))
          server := by
            rw [server_switchRouter, server_switchRouter, server_restarted,
              server_restarted, hserver]
          live := hlive }⟩

end Deploying

/-!
## Runs
-/

section Runs

variable {base : Nat} {before : List Outgoing} {n n' m m' : Protort.Node}
  {event : Event}

/-- A step with a past is the same step without one, or none. -/
theorem Renewed.forget (h : Renewed base before n m)
    (hstep : step m event = some m') :
    exists events n', Run (Steps step) n events n' ∧
      events.filter Event.arrives = [event].filter Event.arrives ∧
      Renewed base before n' m' := by
  have harrived : event.arrives = true ->
      exists events n', Run (Steps step) n events n' ∧
        events.filter Event.arrives = [event].filter Event.arrives ∧
        Renewed base before n' m' := by
    intro harrives
    rcases Lib.rel_some_right (h.arrived harrives) hstep with ⟨n', hn', hnext⟩
    exact ⟨[event], n', Run.single hn', rfl, hnext⟩
  cases event with
  | request env payload => exact harrived rfl
  | message env origin payload => exact harrived rfl
  | run env index =>
      rcases step_run hstep with ⟨task, htask, _⟩
      rcases h.spares.service.eraseIdx_right htask with
        ⟨index', htask', hdropping⟩ | ⟨hstale, hdropping⟩
      · rcases @Renewed.ran _ _ _ _ env h _ _ _ htask' htask hdropping with
          ⟨n', m'', hrun, hrun', hnext⟩
        rw [hstep] at hrun'
        cases hrun'
        exact ⟨[Event.run env index'], n', Run.single hrun, rfl, hnext⟩
      · exact ⟨[], n, Run.nil n, rfl,
          h.ran_stale htask hstale hdropping hstep⟩

/-- A step without a past is the same step with one. -/
theorem Renewed.remember (h : Renewed base before n m)
    (hstep : step n event = some n') :
    exists event' m', step m event' = some m' ∧
      [event'].filter Event.arrives = [event].filter Event.arrives ∧
      Renewed base before n' m' := by
  have harrived : event.arrives = true ->
      exists event' m', step m event' = some m' ∧
        [event'].filter Event.arrives = [event].filter Event.arrives ∧
        Renewed base before n' m' := by
    intro harrives
    rcases Lib.rel_some_left (h.arrived harrives) hstep with ⟨m', hm', hnext⟩
    exact ⟨event, m', hm', rfl, hnext⟩
  cases event with
  | request env payload => exact harrived rfl
  | message env origin payload => exact harrived rfl
  | run env index =>
      rcases step_run hstep with ⟨task, htask, _⟩
      rcases h.spares.service.eraseIdx htask with ⟨index', htask', hdropping⟩
      rcases @Renewed.ran _ _ _ _ env h _ _ _ htask htask' hdropping with
        ⟨n'', m', hrun, hrun', hnext⟩
      rw [hstep] at hrun
      cases hrun
      exact ⟨Event.run env index', m', hrun', rfl, hnext⟩

/-- What one node shows of another that has sent some messages before: all that
is not left over from before, with the same answer or failure for every
request. -/
structure Resembles (before : List Outgoing) (n m : Protort.Node) : Prop where
  rest : { m with
    retired := n.retired
    service := n.service
    outbox := n.outbox } = n
  outbox : m.outbox = before ++ n.outbox
  answers : forall env payload, SameResult (fun _ _ => True)
    (onNewRequest env payload n) (onNewRequest env payload m)

theorem Renewed.resembles (h : Renewed base before n m) :
    Resembles before n m := by
  refine
    { rest := ?_
      outbox := h.spares.outbox
      answers := fun env payload => (relates_onNewRequest
        (stale_congruence base before) env payload n m h.spares).mono
          (fun _ _ _ => trivial) }
  have hspares := h.spares
  have hserver := h.server
  rcases n with ⟨next, router, retired, server, nodeName, port, startTime,
    service, outbox⟩
  rcases m with ⟨next', router', retired', server', nodeName', port',
    startTime', service', outbox'⟩
  cases hspares.router
  cases hspares.next
  cases hspares.nodeName
  cases hspares.port
  cases hspares.startTime
  cases hserver
  rfl

/-- A node that is deployed anew forgets what it did before.  With the same
arrivals it reaches the same states as a node that was just made and has been
given the same configuration, up to what is left of the past: the routers that
were replaced, their queued work and what was sent already. -/
theorem redeployment_forgets {n n' : Protort.Node} (hn : Reachable n)
    {env : Platform} {payload : Protocol.Payload}
    (hkind : payload.asDeployPacket.kind =
      Protocol.Deploy.PacketKind.deployConfig)
    (hstep : step n (Event.request env payload) = some n') :
    exists w, step (wiped n) (Event.request env payload) = some w ∧
      (forall events m, Run (Steps step) n' events m ->
        exists events' k, Run (Steps step) w events' k ∧
          events'.filter Event.arrives = events.filter Event.arrives ∧
          Resembles n.outbox k m) ∧
      (forall events k, Run (Steps step) w events k ->
        exists events' m, Run (Steps step) n' events' m ∧
          events'.filter Event.arrives = events.filter Event.arrives ∧
          Resembles n.outbox k m) := by
  rcases renewed_deployment hn.consistent hkind hstep with ⟨w, hw, hrenewed⟩
  refine ⟨w, hw, ?_, ?_⟩
  · intro events m hrun
    rcases hrun.matched (S := fun m k => Renewed _ _ k m) Event.arrives
      (fun hstep h => Renewed.forget h hstep) hrenewed with
      ⟨events', k, hrun', hsame, h⟩
    exact ⟨events', k, hrun', hsame, h.resembles⟩
  · intro events k hrun
    rcases hrun.matched (S := Renewed _ _) Event.arrives (fun hstep h => by
        rcases Renewed.remember h hstep with
          ⟨event', m', hstep', hsame, hnext⟩
        exact ⟨[event'], m', Run.single hstep', hsame, hnext⟩) hrenewed with
      ⟨events', m, hrun', hsame, h⟩
    exact ⟨events', m, hrun', hsame, h.resembles⟩

end Runs

def generating : Protort.Node :=
  (Lib.execute step (new 100 0) [command Protocol.Deploy.PacketKind.start,
    deployRequest (lonely Protocol.ComponentKind.generator)]).getD (new 100 0)

theorem reachable_generating : Reachable generating :=
  ⟨100, 0, [command Protocol.Deploy.PacketKind.start,
    deployRequest (lonely Protocol.ComponentKind.generator)],
    Run.of_execute (by decide +kernel)⟩

theorem step_generating :
    step generating
      (deployRequest (lonely Protocol.ComponentKind.timedGenerator)) =
        some redeployed := by
  decide +kernel

theorem redeployment_forgets_generator :
    generating.service.length = 2 ∧
    exists w, step (wiped generating)
        (deployRequest (lonely Protocol.ComponentKind.timedGenerator)) =
          some w ∧
      (forall events m, Run (Steps step) redeployed events m ->
        exists events' k, Run (Steps step) w events' k ∧
          events'.filter Event.arrives = events.filter Event.arrives ∧
          Resembles generating.outbox k m) ∧
      (forall events k, Run (Steps step) w events k ->
        exists events' m, Run (Steps step) redeployed events' m ∧
          events'.filter Event.arrives = events.filter Event.arrives ∧
          Resembles generating.outbox k m) :=
  ⟨by decide +kernel,
    redeployment_forgets reachable_generating rfl step_generating⟩

end Node
end Protort
