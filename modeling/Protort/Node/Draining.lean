import Protort.Lib.Walks
import Protort.Node.Silence

/-!
# Draining a graph of components

Packets are handed to a started router whose components are wired without a
cycle, and the tasks that they lead to run in any order.  Every packet takes
all ways through the graph at once: a task stands for the walks that go on from
the inputs it is about to serve.  What a component has counted and the walks to
it that are still to come add up to the same number in every state, so that the
order in which the tasks run does not matter in the end.
-/

namespace Protort
namespace Node

open Lib (Bytes Table Run Steps)
open Lib.Walks (walksFrom finite_walksTo finite_walksFrom ncard_walksFrom
  count_eq wellFounded_of_acyclic acyclic_of_rank)
open Components (Component Output Origin)
open Relation (TransGen)

abbrev Input : Type := String × Parser.PortId

namespace Router

def targets (r : Router) (c : String) (port : Parser.PortId) : List Input :=
  (r.routesAt c port).localRoutes.map (fun route =>
    (route.component, route.inPort))

def forwards (r : Router) (input : Input) : List Input :=
  match (r.objectAt input.1).map (fun c => c.kind) with
  | some Protocol.ComponentKind.retranslator =>
      if input.2 = 0 ∨ input.2 = 1 then
        r.targets input.1 0 ++ r.targets input.1 1
      else
        []
  | some Protocol.ComponentKind.calc => r.targets input.1 0
  | _ => []

def Leads (r : Router) (c c' : String) : Prop :=
  exists port route, route ∈ (r.routesAt c port).localRoutes ∧
    route.component = c'

/-- A started router whose local routes form no cycle. -/
structure Acyclic (r : Router) : Prop where
  started : r.started = true
  sound : RouterSound r
  acyclic : forall c, ¬ TransGen r.Leads c c

def Ranked (rank : String -> Nat) (r : Router) : Prop :=
  forall c, c ∈ r.components.keys ->
    forall port, port ∈ (Table.get r.components c).portToRoutes.keys ->
      forall route, route ∈ (r.routesAt c port).localRoutes ->
        rank c < rank route.component

-- The ports of an entry are looked through, not all ports there are.
instance (rank : String -> Nat) (r : Router) : Decidable (Ranked rank r) :=
  @Finset.decidableDforallFinset _ r.components.keys _ (fun c _ =>
    @Finset.decidableDforallFinset _
      (Table.get r.components c).portToRoutes.keys _ (fun port _ =>
        List.decidableBAll _ (r.routesAt c port).localRoutes))

def walks (r : Router) (d : String) (inputs : List Input) : Set (List Nat) :=
  walksFrom r.forwards (fun input => input.1 = d) inputs

def allWalks (r : Router) (inputs : List Input) : Set (List Nat) :=
  walksFrom r.forwards (fun _ => True) inputs

end Router

def inPacketCount (n : Protort.Node) (d : String) : UInt32 :=
  match n.router.objectAt d with
  | some c => c.inPacketCount
  | none => 0

/-!
## Moves
-/

/-- What happens while a router is drained: it is handed a packet, or one of
the queued tasks runs. -/
inductive Move where
  | route (origin : Option Origin) (input : Input) (payload : Bytes)
  | run (env : Platform) (index : Nat)

def routed (n : Protort.Node) (origin : Option Origin) (input : Input)
    (payload : Bytes) : Protort.Node :=
  let result := n.router.route origin input.1 input.2 payload
  { n with router := result.1 }.performAll result.2

def move (n : Protort.Node) (m : Move) : Option Protort.Node :=
  match m with
  | Move.route origin input payload => some (n.routed origin input payload)
  | Move.run env index => step n (Event.run env index)

def Move.injects : Move -> List Input
  | Move.route _ input _ => [input]
  | Move.run _ _ => []

def injected (moves : List Move) : List Input :=
  moves.flatMap Move.injects

def Move.runs : Move -> Nat
  | Move.route _ _ _ => 0
  | Move.run _ _ => 1

def tasksRun (moves : List Move) : Nat :=
  (moves.map Move.runs).sum

/-!
## Graphs without cycles
-/

theorem RouterSound.started {r : Router} (h : RouterSound r)
    (hobjects : forall c, c ∈ r.components.keys ->
      (r.objectAt c).any (fun object => !object.isGenerator) = true) :
    RouterSound { r with started := true } := by
  refine h.of_sameTable (Router.SameTable.refl _) ?_ ?_
  · intro c object hobject hgen
    have hsame : r.objectAt c = some object := hobject
    have hany := hobjects c (Finmap.mem_keys.mpr (mem_of_objectAt hsame))
    rw [hsame, Option.any_some, hgen] at hany
    cases hany
  · intro _ c hc
    have hany := hobjects c (Finmap.mem_keys.mpr hc)
    cases hobject : r.objectAt c with
    | some object => exact ⟨object, rfl⟩
    | none =>
        rw [hobject] at hany
        cases hany

namespace Router

theorem leads_of_forwards {r : Router} {input next : Input}
    (h : next ∈ r.forwards input) : r.Leads input.1 next.1 := by
  have hleads : forall {port}, next ∈ r.targets input.1 port ->
      r.Leads input.1 next.1 := by
    intro port hnext
    rcases List.mem_map.mp hnext with ⟨route, hroute, rfl⟩
    exact ⟨port, route, hroute, rfl⟩
  unfold forwards at h
  split at h
  · split_ifs at h
    · rcases List.mem_append.mp h with h0 | h1
      · exact hleads h0
      · exact hleads h1
    · cases h
  · exact hleads h
  · cases h

section Acyclic

variable {r : Router}

theorem Ranked.leads {rank : String -> Nat} (h : Ranked rank r) {c c' : String}
    (hleads : r.Leads c c') : rank c < rank c' := by
  rcases hleads with ⟨port, route, hroute, rfl⟩
  have hport : port ∈ (Table.get r.components c).portToRoutes := by
    by_contra hnone
    unfold routesAt at hroute
    rw [Table.get_of_notMem hnone] at hroute
    cases hroute
  have hc : c ∈ r.components := by
    by_contra hnone
    rw [Table.get_of_notMem hnone] at hport
    exact Finmap.notMem_empty hport
  exact h c (Finmap.mem_keys.mpr hc) port (Finmap.mem_keys.mpr hport) route
    hroute

theorem Ranked.acyclic {rank : String -> Nat} (h : Ranked rank r)
    (hsound : RouterSound r) (hstarted : r.started = true) : r.Acyclic :=
  { started := hstarted
    sound := hsound
    acyclic := acyclic_of_rank rank (fun _ _ => h.leads) }

theorem Acyclic.wellFounded (h : r.Acyclic) :
    WellFounded (fun next input => next ∈ r.forwards input) := by
  have hleads : WellFounded (fun c' c => r.Leads c c') := by
    apply wellFounded_of_acyclic r.components.keys.finite_toSet _ h.acyclic
    intro c c' h
    rcases h with ⟨port, route, hroute, rfl⟩
    exact Finmap.mem_keys.mpr (h.sound.routes c port route hroute)
  exact Subrelation.wf leads_of_forwards
    (InvImage.wf (fun input : Input => input.1) hleads)

/-!
## Numbers of walks
-/

noncomputable def walksAt (r : Router) (d : String) : Input -> Nat :=
  Lib.Walks.count r.forwards (fun input => input.1 = d)

noncomputable def allWalksAt (r : Router) : Input -> Nat :=
  Lib.Walks.count r.forwards (fun _ => True)

theorem Acyclic.walksAt_eq (h : r.Acyclic) (d : String) (input : Input) :
    r.walksAt d input = (if input.1 = d then 1 else 0) +
      ((r.forwards input).map (r.walksAt d)).sum :=
  count_eq h.wellFounded input

theorem Acyclic.allWalksAt_eq (h : r.Acyclic) (input : Input) :
    r.allWalksAt input = 1 + ((r.forwards input).map r.allWalksAt).sum := by
  have heq := count_eq (P := fun _ => True) h.wellFounded input
  rw [if_pos trivial] at heq
  exact heq

theorem Acyclic.ncard_walks (h : r.Acyclic) (d : String)
    (inputs : List Input) :
    (r.walks d inputs).ncard = (inputs.map (r.walksAt d)).sum :=
  ncard_walksFrom (fun input _ => finite_walksTo h.wellFounded input)

theorem Acyclic.ncard_allWalks (h : r.Acyclic) (inputs : List Input) :
    (r.allWalks inputs).ncard = (inputs.map r.allWalksAt).sum :=
  ncard_walksFrom (fun input _ => finite_walksTo h.wellFounded input)

theorem Acyclic.finite_allWalks (h : r.Acyclic) (inputs : List Input) :
    (r.allWalks inputs).Finite :=
  finite_walksFrom (fun input _ => finite_walksTo h.wellFounded input)

theorem forwards_of_notMem {input : Input} (h : input.1 ∉ r.components) :
    r.forwards input = [] := by
  unfold forwards
  have hobject : r.objectAt input.1 = none := by
    unfold objectAt
    rw [Table.get_of_notMem h]
    rfl
  rw [hobject]
  rfl

end Acyclic

end Router

/-!
## Walks still to come
-/

/-- The inputs that a task is about to serve, directly or by routing. -/
def inputsOf (r : Router) : Task -> List Input
  | Task.doProcess ref _ inPort _ => [(ref.name, inPort)]
  | Task.doRoute _ (some c) outputs =>
      (flatten outputs).flatMap (fun output => r.targets c output.1)
  | _ => []

def TaskOf (r : Router) : Task -> Prop
  | Task.doProcess ref _ _ _ =>
      ref.router = r.address ∧ ref.name ∈ r.components
  | Task.doRoute address compInst _ =>
      address = r.address ∧ exists c, compInst = some c ∧ c ∈ r.components
  | _ => False

/-- A router that is drained: it has changed in its counters only. -/
structure Drains (r : Router) (n : Protort.Node) : Prop where
  router : Router.SameFlags r n.router
  tasks : forall task, task ∈ n.service -> TaskOf r task

def taskSum (r : Router) (f : Input -> Nat) (task : Task) : Nat :=
  ((inputsOf r task).map f).sum

def queueSum (r : Router) (f : Input -> Nat) (service : List Task) : Nat :=
  (service.map (taskSum r f)).sum

theorem queueSum_append (r : Router) (f : Input -> Nat) (xs ys : List Task) :
    queueSum r f (xs ++ ys) = queueSum r f xs + queueSum r f ys := by
  unfold queueSum
  rw [List.map_append, List.sum_append]

theorem queueSum_eq (r : Router) (f : Input -> Nat) (service : List Task) :
    queueSum r f service =
      ((service.flatMap (inputsOf r)).map f).sum := by
  induction service with
  | nil => rfl
  | cons task rest ih =>
      rw [List.flatMap_cons, List.map_append, List.sum_append, ← ih]
      rfl

theorem queueSum_taken (r : Router) (f : Input -> Nat) {service : List Task}
    {index : Nat} {task : Task} (h : service[index]? = some task) :
    queueSum r f service =
      queueSum r f (service.eraseIdx index) + taskSum r f task := by
  rcases List.getElem?_eq_some_iff.mp h with ⟨hlt, hget⟩
  have hperm := List.getElem_cons_eraseIdx_perm hlt
  rw [hget] at hperm
  have hsum := (hperm.map (taskSum r f)).sum_eq
  rw [List.map_cons, List.sum_cons] at hsum
  unfold queueSum
  rw [← hsum, Nat.add_comm]

/-!
## Tasks
-/

def remaining (r : Router) : Task -> List Input
  | Task.doProcess ref _ inPort _ => r.forwards (ref.name, inPort)
  | task => inputsOf r task

def lands (d : String) : Task -> Nat
  | Task.doProcess ref _ _ _ => if ref.name = d then 1 else 0
  | _ => 0

/-- What a task of a router that is drained does: it counts the packet that it
delivers, and the tasks that it posts serve what remains. -/
structure Ran (r : Router) (n : Protort.Node) (task : Task)
    (posts : List Task) (n' : Protort.Node) : Prop where
  router : Router.SameFlags r n'.router
  counts : forall d, inPacketCount n' d =
    inPacketCount n d + UInt32.ofNat (lands d task)
  tasks : forall t, t ∈ posts -> TaskOf r t
  inputs : posts.flatMap (inputsOf r) = remaining r task
  routing : posts.countP (fun t => !t.isPacket) <=
    if task.isPacket then 1 else 0

section Tasks

variable {env : Platform} {r : Router} {n : Protort.Node}

theorem inPacketCount_performAll (n : Protort.Node) (effects : List Effect)
    (d : String) :
    inPacketCount (n.performAll effects) d = inPacketCount n d := by
  unfold inPacketCount
  rw [router_performAll]

theorem inputs_process {c : String} {object : Component}
    (hobject : (r.objectAt c).map (fun o => o.kind) = some object.kind)
    (hinst : object.compInst = some c) (env : Platform)
    (inPort : Parser.PortId) (payload : Bytes) :
    (posted (processEffects env object inPort payload)).flatMap (inputsOf r) =
      r.forwards (c, inPort) := by
  unfold Router.forwards processEffects Component.process
  simp only []
  rw [hobject, hinst]
  cases object.kind with
  | retranslator =>
      simp only []
      split_ifs
      · exact (List.append_nil _).trans
          (congrArg (r.targets c 0 ++ ·) (List.append_nil _))
      · rfl
  | generator => rfl
  | terminator => rfl
  | history => rfl
  | timedGenerator => rfl
  | unrecognized value => rfl
  -- the kind that is left is `calc`
  | _ => exact (List.append_nil _).trans (List.append_nil _)

theorem posted_process (env : Platform) (object : Component)
    (inPort : Parser.PortId) (payload : Bytes) :
    posted (processEffects env object inPort payload) = [] ∨
      exists outputs, posted (processEffects env object inPort payload) =
        [Task.doRoute object.router object.compInst outputs] := by
  rcases processEffects_cases env object inPort payload with
    hnone | ⟨outputs, _, hone⟩
  · exact Or.inl (congrArg posted hnone)
  · exact Or.inr ⟨outputs, congrArg posted hone⟩

theorem Drains.doProcess (h : Drains r n) (hr : r.Acyclic) {c : String}
    (hc : c ∈ r.components) (env : Platform) (origin : Option Origin)
    (inPort : Parser.PortId) (payload : Bytes) :
    exists posts n',
      runTask env (Task.doProcess ⟨r.address, c⟩ origin inPort payload) n =
        EStateM.Result.ok PUnit.unit n' ∧
      n'.service = n.service ++ posts ∧
      Ran r n (Task.doProcess ⟨r.address, c⟩ origin inPort payload) posts
        n' := by
  rcases hr.sound.complete hr.started c hc with ⟨object, hobject⟩
  rcases h.router.object hobject with ⟨object', hobject', hview, _⟩
  rcases hr.sound.own c object hobject with ⟨hrouter, hinst⟩
  have hkind : object'.kind = object.kind := congrArg ObjectView.kind hview
  have hrouter' : object'.router = r.address :=
    (congrArg ObjectView.router hview).trans hrouter
  have hinst' : object'.compInst = some c :=
    (congrArg ObjectView.compInst hview).trans hinst
  have haddress : n.router.address = r.address := h.router.table.address
  have hfind : n.findComponent ⟨r.address, c⟩ = some object' := by
    rw [← haddress]
    exact findComponent_current hobject'
  have hupdate : n.updateComponent ⟨r.address, c⟩
      (object'.doProcess env origin inPort payload).1 =
        { n with
          router := Router.setComponent n.router c
            (object'.doProcess env origin inPort payload).1 } := by
    rw [← haddress]
    exact updateComponent_current n c _
  have hran := runTask_doProcess env hfind origin inPort payload
  rw [hupdate] at hran
  have hcancels : forall ref, Effect.cancelWaits ref ∉
      processEffects env object' inPort payload := by
    intro ref hmem
    rcases of_mem_processEffects hmem with ⟨outputs, _, heq⟩
    cases heq
  have hposted := posted_process env object' inPort payload
  refine ⟨posted (processEffects env object' inPort payload), _, hran, ?_, ?_⟩
  · rw [service_performAll, foldl_serve_eq hcancels]
  · exact
      { router := by
          rw [router_performAll]
          exact h.router.trans
            (Router.setComponent_sameFlags hobject' rfl rfl)
        counts := by
          intro d
          rw [inPacketCount_performAll]
          unfold inPacketCount lands
          simp only []
          rw [Router.objectAt_setComponent]
          by_cases hd : d = c
          · rw [if_pos hd, if_pos hd.symm, hd, hobject']
            rfl
          · rw [if_neg hd, if_neg (Ne.symm hd)]
            exact (add_zero _).symm
        tasks := by
          intro t ht
          rcases hposted with hnone | ⟨outputs, hone⟩
          · rw [hnone] at ht
            cases ht
          · rw [hone, List.mem_singleton] at ht
            subst t
            exact ⟨hrouter', c, hinst', hc⟩
        inputs := by
          apply inputs_process _ hinst'
          rw [hobject, Option.map_some, hkind]
        routing := by
          rcases hposted with hnone | ⟨outputs, hone⟩
          · rw [hnone]
            exact Nat.zero_le _
          · rw [hone]
            exact Nat.le_refl 1 }

theorem posted_outputEffects (r : Router) (c : String) (index : Nat)
    (output : Parser.PortId × Bytes) :
    posted (r.outputEffects c index output) =
      (r.routesAt c output.1).localRoutes.map (fun route =>
        Task.doProcess ⟨r.address, route.component⟩
          (some ⟨(Table.get r.components c).name, index⟩) route.inPort
          output.2) := by
  have hposts : posted ((r.routesAt c output.1).localRoutes.map (fun route =>
      Effect.post (Task.doProcess ⟨r.address, route.component⟩
        (some ⟨(Table.get r.components c).name, index⟩) route.inPort
        output.2))) =
      (r.routesAt c output.1).localRoutes.map (fun route =>
        Task.doProcess ⟨r.address, route.component⟩
          (some ⟨(Table.get r.components c).name, index⟩) route.inPort
          output.2) := by
    unfold posted
    rw [List.filterMap_map]
    exact congrFun List.filterMap_eq_map _
  have hsends : posted ((r.routesAt c output.1).remoteRoutes.map (fun route =>
      Effect.send route.client ⟨(Table.get r.components c).name, index⟩
        (Router.communicationPayload (Table.get r.components c).name output.1
          route output.2))) = [] := by
    unfold posted
    rw [List.filterMap_map]
    exact List.filterMap_eq_nil_iff.mpr (fun _ _ => rfl)
  unfold Router.outputEffects
  simp only []
  rw [posted_append, hposts, hsends, List.append_nil]

theorem inputs_allEffects (r : Router) (c : String) (index : Nat)
    (outputs : List (Parser.PortId × Bytes)) :
    (posted (r.allEffects c index outputs)).flatMap (inputsOf r) =
      outputs.flatMap (fun output => r.targets c output.1) := by
  induction outputs generalizing index with
  | nil => rfl
  | cons output rest ih =>
      have houtput : (posted (r.outputEffects c index output)).flatMap
          (inputsOf r) = r.targets c output.1 := by
        rw [posted_outputEffects, List.flatMap_map]
        exact List.map_eq_flatMap.symm
      rw [List.flatMap_cons, ← ih (index + 1), ← houtput,
        ← List.flatMap_append, ← posted_append]
      rfl

theorem Drains.doRoute (h : Drains r n) (hr : r.Acyclic) {c : String}
    (hc : c ∈ r.components) (env : Platform) (outputs : List Output) :
    exists posts n',
      runTask env (Task.doRoute r.address (some c) outputs) n =
        EStateM.Result.ok PUnit.unit n' ∧
      n'.service = n.service ++ posts ∧
      Ran r n (Task.doRoute r.address (some c) outputs) posts n' := by
  have htable := h.router.table
  have haddress : n.router.address = r.address := htable.address
  have hc' : c ∈ n.router.components := (htable.mem c).mpr hc
  have hstarted : n.router.started = true := htable.started.trans hr.started
  have hfind : n.findRouter r.address = some n.router := by
    rw [← haddress]
    exact findRouter_current n
  have hsent := Router.doRoute_sent env hstarted hc' outputs
  have hran := runTask_doRoute env hfind c outputs
  rw [updateRouter_current hsent.table.address] at hran
  have hcancels : forall ref, Effect.cancelWaits ref ∉
      (n.router.doRoute env c outputs).2 := by
    intro ref hmem
    rcases Router.doRoute_packets env hc' hmem with
      ⟨_, _, _, _, heq⟩ | ⟨_, _, _, heq⟩
    · cases heq
    · cases heq
  have hposts : forall t, t ∈ posted (n.router.doRoute env c outputs).2 ->
      TaskOf r t ∧ t.isPacket = true := by
    intro t ht
    rcases Router.doRoute_posts env hc' (mem_posted.mp ht) with
      ⟨_, origin, port, output, route, _, _, hroute, rfl⟩
    rw [htable.routes] at hroute
    exact ⟨⟨haddress, hr.sound.routes c port route hroute⟩, rfl⟩
  refine ⟨posted (n.router.doRoute env c outputs).2, _, hran, ?_, ?_⟩
  · rw [service_performAll, foldl_serve_eq hcancels]
  · exact
      { router := by
          rw [router_performAll]
          exact h.router.trans (Router.doRoute_sameFlags env hc' outputs)
        counts := by
          intro d
          rw [inPacketCount_performAll]
          unfold inPacketCount
          simp only [hsent.objects d]
          exact (add_zero _).symm
        tasks := fun t ht => (hposts t ht).left
        inputs := by
          rw [hsent.effects, htable.allEffects]
          exact inputs_allEffects r c _ _
        routing := by
          have hnone : (posted (n.router.doRoute env c outputs).2).countP
              (fun t => !t.isPacket) = 0 := by
            rw [List.countP_eq_zero]
            intro t ht
            rw [(hposts t ht).right]
            exact Bool.false_ne_true
          rw [hnone]
          exact Nat.zero_le _ }

theorem Drains.run (h : Drains r n) (hr : r.Acyclic) (env : Platform)
    {index : Nat} {task : Task} (hget : n.service[index]? = some task) :
    exists posts n', step n (Event.run env index) = some n' ∧
      n'.service = n.service.eraseIdx index ++ posts ∧
      Ran r n task posts n' := by
  have htask := h.tasks task (List.mem_of_getElem? hget)
  have htaken : Drains r { n with service := n.service.eraseIdx index } :=
    { router := h.router
      tasks := fun t ht => h.tasks t (List.mem_of_mem_eraseIdx ht) }
  have hresult : exists posts n',
      runTask env task { n with service := n.service.eraseIdx index } =
        EStateM.Result.ok PUnit.unit n' ∧
      n'.service = n.service.eraseIdx index ++ posts ∧
      Ran r { n with service := n.service.eraseIdx index } task posts n' := by
    cases task with
    | doProcess ref origin inPort payload =>
        rcases ref with ⟨address, c⟩
        rcases htask with ⟨rfl, hc⟩
        exact htaken.doProcess hr hc env origin inPort payload
    | doRoute address compInst outputs =>
        rcases htask with ⟨rfl, c, rfl, hc⟩
        exact htaken.doRoute hr hc env outputs
    | generate ref => exact htask.elim
    | timerWait ref cancelled => exact htask.elim
  rcases hresult with ⟨posts, n', hrun, hservice, hran⟩
  exact ⟨posts, n', step_of_runTask hget hrun, hservice,
    { router := hran.router
      counts := hran.counts
      tasks := hran.tasks
      inputs := hran.inputs
      routing := hran.routing }⟩

theorem Drains.of_run (h : Drains r n) (hr : r.Acyclic) {n' : Protort.Node}
    {index : Nat} (hstep : step n (Event.run env index) = some n') :
    exists task posts, n.service[index]? = some task ∧
      n'.service = n.service.eraseIdx index ++ posts ∧
      Ran r n task posts n' := by
  rcases step_run hstep with ⟨task, hget, _⟩
  rcases h.run hr env hget with ⟨posts, m, hm, hservice, hran⟩
  rw [hstep] at hm
  cases hm
  exact ⟨task, posts, hget, hservice, hran⟩

/-- The walks that start with a task: it may end at the component that it is
for, and the others go on where the task leads. -/
theorem taskSum_walksAt (hr : r.Acyclic) (d : String) (task : Task) :
    taskSum r (r.walksAt d) task =
      lands d task + ((remaining r task).map (r.walksAt d)).sum := by
  cases task with
  | doProcess ref origin inPort payload =>
      exact (Nat.add_zero _).trans (hr.walksAt_eq d (ref.name, inPort))
  | _ => exact (Nat.zero_add _).symm

theorem taskSum_allWalksAt (hr : r.Acyclic) (task : Task) :
    taskSum r r.allWalksAt task = (if task.isPacket then 1 else 0) +
      ((remaining r task).map r.allWalksAt).sum := by
  cases task with
  | doProcess ref origin inPort payload =>
      exact (Nat.add_zero _).trans (hr.allWalksAt_eq (ref.name, inPort))
  | _ => exact (Nat.zero_add _).symm

theorem queueSum_run {n' : Protort.Node} {index : Nat} {task : Task}
    {posts : List Task} (f : Input -> Nat)
    (hservice : n'.service = n.service.eraseIdx index ++ posts)
    (hran : Ran r n task posts n') :
    queueSum r f n'.service = queueSum r f (n.service.eraseIdx index) +
      ((remaining r task).map f).sum := by
  rw [hservice, queueSum_append, queueSum_eq r f posts, hran.inputs]

end Tasks

/-!
## Packets that are handed to the router
-/

section Routing

variable {r : Router} {n : Protort.Node}

def entry (r : Router) (origin : Option Origin) (input : Input)
    (payload : Bytes) : List Task :=
  if input.1 ∈ r.components then
    [Task.doProcess ⟨r.address, input.1⟩ origin input.2 payload]
  else
    []

theorem Drains.routed (h : Drains r n) (hr : r.Acyclic)
    (origin : Option Origin) (input : Input) (payload : Bytes) :
    (n.routed origin input payload).service =
        n.service ++ entry r origin input payload ∧
      Router.SameFlags r (n.routed origin input payload).router ∧
      forall d, inPacketCount (n.routed origin input payload) d =
        inPacketCount n d := by
  have htable := h.router.table
  have hstarted : n.router.started = true := htable.started.trans hr.started
  have hcounted := Router.route_fst n.router origin input.1 input.2 payload
  unfold Node.routed
  simp only []
  refine ⟨?_, ?_, ?_⟩
  · rw [service_performAll, Router.route_snd, htable.address]
    unfold entry
    by_cases hinput : input.1 ∈ r.components
    · rw [if_pos ⟨hstarted, (htable.mem _).mpr hinput⟩, if_pos hinput]
      rfl
    · rw [if_neg (fun h => hinput ((htable.mem _).mp h.right)), if_neg hinput]
      exact (List.append_nil _).symm
  · rw [router_performAll, hcounted]
    exact h.router.trans (Router.counted_sameFlags n.router n.router.inBytes
      (n.router.inPackets + 1))
  · intro d
    rw [inPacketCount_performAll, hcounted]
    rfl

theorem queueSum_entry (hr : r.Acyclic) {d : String} (hd : d ∈ r.components)
    (origin : Option Origin) (input : Input) (payload : Bytes) :
    queueSum r (r.walksAt d) (entry r origin input payload) =
      r.walksAt d input := by
  unfold entry
  by_cases hinput : input.1 ∈ r.components
  · rw [if_pos hinput]
    rfl
  · have hne : input.1 ≠ d := fun heq => hinput (heq ▸ hd)
    rw [if_neg hinput, hr.walksAt_eq, if_neg hne,
      Router.forwards_of_notMem hinput]
    rfl

theorem queueSum_entry_le (r : Router) (f : Input -> Nat)
    (origin : Option Origin) (input : Input) (payload : Bytes) :
    queueSum r f (entry r origin input payload) <= f input := by
  unfold entry
  split_ifs
  · exact Nat.le_refl _
  · exact Nat.zero_le _

theorem entry_packets (r : Router) (origin : Option Origin) (input : Input)
    (payload : Bytes) : (entry r origin input payload).countP
      (fun t => !t.isPacket) = 0 := by
  unfold entry
  split_ifs
  · rfl
  · rfl

end Routing

/-!
## Draining
-/

/-- Twice the walks still to come, and one for every list of outputs that waits
to be routed. -/
noncomputable def drainWork (r : Router) (n : Protort.Node) : Nat :=
  2 * queueSum r r.allWalksAt n.service +
    n.service.countP (fun t => !t.isPacket)

/-- The packets that a component has counted and the walks to it that are still
to come. -/
noncomputable def dueAt (r : Router) (d : String) (n : Protort.Node) :
    UInt32 :=
  inPacketCount n d + UInt32.ofNat (queueSum r (r.walksAt d) n.service)

section Draining

variable {r : Router} {n n' : Protort.Node}

theorem Drains.move {m : Move} (h : Drains r n) (hr : r.Acyclic)
    (hmove : n.move m = some n') : Drains r n' := by
  cases m with
  | route origin input payload =>
      cases hmove
      rcases h.routed hr origin input payload with ⟨hservice, hrouter, _⟩
      constructor
      · exact hrouter
      intro t ht
      rw [hservice] at ht
      rcases List.mem_append.mp ht with hold | hnew
      · exact h.tasks t hold
      · unfold entry at hnew
        split_ifs at hnew with hinput
        · cases List.mem_singleton.mp hnew
          exact ⟨rfl, hinput⟩
        · cases hnew
  | run env index =>
      rcases h.of_run hr hmove with ⟨task, posts, _, hservice, hran⟩
      constructor
      · exact hran.router
      intro t ht
      rw [hservice] at ht
      rcases List.mem_append.mp ht with hold | hnew
      · exact h.tasks t (List.mem_of_mem_eraseIdx hold)
      · exact hran.tasks t hnew

/-- Only packets that are handed to the router change what a component will
have counted in the end. -/
theorem Drains.dueAt {m : Move} (h : Drains r n) (hr : r.Acyclic)
    {d : String} (hd : d ∈ r.components) (hmove : n.move m = some n') :
    Node.dueAt r d n' = Node.dueAt r d n +
      UInt32.ofNat (m.injects.map (r.walksAt d)).sum := by
  unfold Node.dueAt
  cases m with
  | route origin input payload =>
      cases hmove
      rcases h.routed hr origin input payload with ⟨hservice, _, hcounts⟩
      have hinjects : ((Move.route origin input payload).injects.map
          (r.walksAt d)).sum = r.walksAt d input := Nat.add_zero _
      rw [hservice, hcounts, queueSum_append, queueSum_entry hr hd, hinjects,
        UInt32.ofNat_add, add_assoc]
  | run env index =>
      rcases h.of_run hr hmove with ⟨task, posts, hget, hservice, hran⟩
      have hinjects : ((Move.run env index).injects.map
          (r.walksAt d)).sum = 0 := rfl
      rw [queueSum_run _ hservice hran, hran.counts,
        queueSum_taken r _ hget, taskSum_walksAt hr, hinjects]
      simp only [UInt32.ofNat_add]
      have hzero : UInt32.ofNat 0 = 0 := rfl
      rw [hzero, add_zero]
      ac_rfl

theorem Drains.work {m : Move} (h : Drains r n) (hr : r.Acyclic)
    (hmove : n.move m = some n') :
    m.runs + drainWork r n' <=
      2 * (m.injects.map r.allWalksAt).sum + drainWork r n := by
  unfold drainWork
  cases m with
  | route origin input payload =>
      cases hmove
      rcases h.routed hr origin input payload with ⟨hservice, _, _⟩
      have hentry := queueSum_entry_le r r.allWalksAt origin input payload
      have hpackets := entry_packets r origin input payload
      have hinjects : ((Move.route origin input payload).injects.map
          r.allWalksAt).sum = r.allWalksAt input := Nat.add_zero _
      have hruns : (Move.route origin input payload).runs = 0 := rfl
      rw [hservice, queueSum_append, List.countP_append, hpackets, hinjects,
        hruns]
      omega
  | run env index =>
      rcases h.of_run hr hmove with ⟨task, posts, hget, hservice, hran⟩
      have hinjects : ((Move.run env index).injects.map
          r.allWalksAt).sum = 0 := rfl
      have hruns : (Move.run env index).runs = 1 := rfl
      have htaken := countP_taken (fun t => !t.isPacket) hget
      have hrouting := hran.routing
      rw [queueSum_run _ hservice hran, queueSum_taken r _ hget,
        taskSum_allWalksAt hr, hinjects, hruns, hservice, List.countP_append]
      cases hpacket : task.isPacket with
      | true =>
          simp only [hpacket, if_true, Bool.not_true, Bool.false_eq_true,
            if_false] at htaken hrouting ⊢
          omega
      | false =>
          simp only [hpacket, if_true, Bool.not_false, Bool.false_eq_true,
            if_false] at htaken hrouting ⊢
          omega

theorem dueAt_run {moves : List Move} (hr : r.Acyclic) {d : String}
    (hd : d ∈ r.components) (hrun : Run (Steps Node.move) n moves n')
    (h : Drains r n) :
    dueAt r d n' = dueAt r d n +
      UInt32.ofNat ((injected moves).map (r.walksAt d)).sum := by
  induction hrun with
  | nil n => exact (add_zero _).symm
  | @cons n m n' a moves hmove _ ih =>
      have hinjected : injected (a :: moves) = a.injects ++ injected moves :=
        rfl
      rw [ih (h.move hr hmove), h.dueAt hr hd hmove, hinjected, List.map_append,
        List.sum_append, UInt32.ofNat_add, add_assoc]

theorem sum_injected (f : Input -> Nat) (moves : List Move) :
    (moves.map (fun m => 2 * (m.injects.map f).sum)).sum =
      2 * ((injected moves).map f).sum := by
  induction moves with
  | nil => rfl
  | cons m rest ih =>
      have hinjected : injected (m :: rest) = m.injects ++ injected rest := rfl
      rw [List.map_cons, List.sum_cons, ih, hinjected, List.map_append,
        List.sum_append, Nat.mul_add]

theorem Drains.start (hidle : n.service = []) : Drains n.router n :=
  { router := Router.SameFlags.refl n.router
    tasks := by
      intro task htask
      rw [hidle] at htask
      cases htask }

end Draining

/-- Draining an acyclic graph is confluent and counts walks.  Whatever packets
are handed to a started router and in whatever order the tasks run, also while
packets are still being handed to it: there are finitely many walks, no more
than two tasks run for each of them, every task that is queued can run, and when
none is left every component has counted one packet for every walk to it. -/
theorem draining_counts_walks {n : Protort.Node} (hr : n.router.Acyclic)
    (hidle : n.service = []) {moves : List Move} {n' : Protort.Node}
    (hrun : Run (Steps move) n moves n') :
    (n.router.allWalks (injected moves)).Finite ∧
    tasksRun moves <= 2 * (n.router.allWalks (injected moves)).ncard ∧
    (forall env index, index < n'.service.length ->
      exists n'', n'.move (Move.run env index) = some n'') ∧
    (n'.service = [] -> forall d, d ∈ n.router.components ->
      inPacketCount n' d = inPacketCount n d +
        UInt32.ofNat (n.router.walks d (injected moves)).ncard) := by
  have hstart := Drains.start hidle
  have hend : Drains n.router n' :=
    hrun.invariant (fun hmove h => h.move hr hmove) hstart
  refine ⟨hr.finite_allWalks _, ?_, ?_, ?_⟩
  · have hbound : tasksRun moves + drainWork n.router n' <=
        (moves.map (fun m =>
          2 * (m.injects.map n.router.allWalksAt).sum)).sum +
            drainWork n.router n :=
      hrun.cost_le (drainWork n.router) (fun hmove h => h.move hr hmove)
        (fun hmove h => h.work hr hmove) hstart
    have hnone : drainWork n.router n = 0 := by
      unfold drainWork
      rw [hidle]
      rfl
    rw [sum_injected, hnone, ← hr.ncard_allWalks] at hbound
    exact (Nat.le_add_right _ _).trans hbound
  · intro env index hindex
    rcases hend.run hr env (List.getElem?_eq_getElem hindex) with
      ⟨posts, n'', hstep, _⟩
    exact ⟨n'', hstep⟩
  · intro hempty d hd
    have hdue := dueAt_run hr hd hrun hstart
    unfold dueAt at hdue
    rw [hempty, hidle, ← hr.ncard_walks] at hdue
    have hnil : UInt32.ofNat (queueSum n.router (n.router.walksAt d) []) = 0 :=
      rfl
    rw [hnil, add_zero, add_zero] at hdue
    exact hdue

/-- A retranslator that sends to a terminator, directly and through a `calc`. -/
def triangle : Protocol.Deploy.Config :=
  { thisNodeInfo := ⟨"n1", "127.0.0.1", 100⟩
    nodeInfos := [⟨"n1", "127.0.0.1", 100⟩]
    instances :=
      [⟨"r", Protocol.ComponentKind.retranslator⟩,
        ⟨"c", Protocol.ComponentKind.calc⟩,
        ⟨"t", Protocol.ComponentKind.terminator⟩]
    maps := [⟨"n1", "r"⟩, ⟨"n1", "c"⟩, ⟨"n1", "t"⟩]
    connections :=
      [⟨⟨0, "r"⟩, ⟨0, "c"⟩⟩, ⟨⟨1, "r"⟩, ⟨0, "t"⟩⟩,
        ⟨⟨0, "c"⟩, ⟨1, "t"⟩⟩] }

def deployedTriangle : Protort.Node :=
  (Lib.execute step (new 100 0) [deployRequest triangle]).getD (new 100 0)

/-- None of its components has anything to do when the router is started. -/
def triangleNode : Protort.Node :=
  { deployedTriangle with
    router := { deployedTriangle.router with started := true } }

def triangleMoves : List Move :=
  [Move.route none ("r", 0) (List.replicate 24 0),
    Move.run Platform.loopback 0, Move.run Platform.loopback 0,
    Move.run Platform.loopback 1, Move.run Platform.loopback 0,
    Move.run Platform.loopback 0, Move.run Platform.loopback 0]

def drainedNode : Protort.Node :=
  (Lib.execute move triangleNode triangleMoves).getD triangleNode

theorem acyclic_triangleNode : triangleNode.router.Acyclic := by
  have hreached : Reachable deployedTriangle :=
    ⟨100, 0, [deployRequest triangle], Run.of_execute (by decide +kernel)⟩
  have hstopped : RouterSound deployedTriangle.router :=
    hreached.consistent.sound.routers _ _ (findRouter_current _)
  have hranked : Router.Ranked
      (fun c => if c = "r" then 0 else if c = "c" then 1 else 2)
      triangleNode.router := by
    decide +kernel
  exact hranked.acyclic (hstopped.started (by decide +kernel)) rfl

theorem draining_counts_walks_triangle :
    drainedNode.service = [] ∧ inPacketCount drainedNode "t" = 2 ∧
      forall d, d ∈ triangleNode.router.components ->
        inPacketCount drainedNode d = inPacketCount triangleNode d +
          UInt32.ofNat (triangleNode.router.walks d
            (injected triangleMoves)).ncard :=
  ⟨by decide +kernel, by decide +kernel,
    (draining_counts_walks acyclic_triangleNode (by decide +kernel)
      (Run.of_execute (by decide +kernel :
        Lib.execute move triangleNode triangleMoves =
          some drainedNode))).right.right.right (by decide +kernel)⟩

end Node
end Protort
