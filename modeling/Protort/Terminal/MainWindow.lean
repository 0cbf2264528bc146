import Protort.Lib.Runs

/-!
# The main window of the terminal

Setup makes a remote node for every node of the configuration, Deploy sends
each of them its part, and a timer asks them for their status.  One flag is to
keep the timer from asking while a deployment goes on: Setup sets it, and every
response to a deployment clears it.
-/

namespace Protort
namespace Terminal

open Lib (Along execute)

/-- The window and what its remote nodes are waiting for.  A remote node is a
number that no other one has; `statusRequests` are the requests for a status in
the order in which they were sent. -/
structure MainWindow where
  deploying : Bool
  remoteNodes : List Nat
  next : Nat
  timerActive : Bool
  deployEnabled : Bool
  startEnabled : Bool
  stopEnabled : Bool
  statusEnabled : Bool
  asking : Bool
  deployRequests : List Nat
  statusRequests : List Nat
deriving DecidableEq, Repr

namespace MainWindow

def new : MainWindow :=
  { deploying := false
    remoteNodes := []
    next := 0
    timerActive := false
    deployEnabled := false
    startEnabled := false
    stopEnabled := false
    statusEnabled := false
    asking := false
    deployRequests := []
    statusRequests := [] }

/-- What the event loop of the window runs: clicks, the answer to the question
whether to replace a configuration, ticks of the timer and the signals of the
remote nodes.  Setup has two documents to read, whose nodes it counts. -/
inductive Event where
  | setup (count : Nat)
  | connected (documents : Bool)
  | deploy
  | answer (yes : Bool)
  | start
  | stop
  | tick
  | status
  | deployConfigRequestFinished (node : Nat)
deriving DecidableEq, Repr

/-!
## Slots
-/

/-- The old remote nodes are shut down, which does not take back what they have
sent. -/
def createRemoteNodes (count : Nat) (w : MainWindow) : MainWindow :=
  { w with
    deploying := true
    remoteNodes := List.range' w.next count
    next := w.next + count
    timerActive := true }

def onConnected (documents : Bool) (w : MainWindow) : MainWindow :=
  { w with
    deployEnabled := w.deployEnabled || documents
    statusEnabled := true }

def resetDeployActions (w : MainWindow) : MainWindow :=
  if w.startEnabled = false ∧ w.stopEnabled = false then
    { w with startEnabled := true }
  else
    w

def deploy (w : MainWindow) : MainWindow :=
  let reset := w.resetDeployActions
  { reset with
    statusEnabled := true
    deployEnabled := false
    deployRequests := reset.deployRequests ++ reset.remoteNodes }

/-- A running configuration is replaced after a question only. -/
def onDeployTriggered (w : MainWindow) : MainWindow :=
  if w.startEnabled = true ∨ w.stopEnabled = true then
    { w with asking := true }
  else
    w.deploy

def onStatusTriggered (w : MainWindow) : MainWindow :=
  if w.deploying then
    w
  else
    { w with statusRequests := w.statusRequests ++ w.remoteNodes }

def onDeployConfigRequestFinished (node : Nat) (w : MainWindow) :
    MainWindow :=
  { w with
    deploying := false
    deployRequests := w.deployRequests.erase node }

/-- What happens next.  While the question is asked nothing can be clicked, but
the timer and the remote nodes go on. -/
def step (w : MainWindow) (event : Event) : Option MainWindow :=
  match event with
  | Event.setup count =>
      if w.asking then none else some (w.createRemoteNodes count)
  | Event.connected documents => some (w.onConnected documents)
  | Event.deploy =>
      if w.deployEnabled && !w.asking then some w.onDeployTriggered else none
  | Event.answer yes =>
      if w.asking then
        let closed := { w with asking := false }
        some (if yes then closed.deploy else closed)
      else
        none
  | Event.start =>
      if w.startEnabled && !w.asking then
        some { w with
          startEnabled := false
          stopEnabled := true }
      else
        none
  | Event.stop =>
      if w.stopEnabled && !w.asking then
        some { w with
          startEnabled := true
          stopEnabled := false }
      else
        none
  | Event.tick => if w.timerActive then some w.onStatusTriggered else none
  | Event.status =>
      if w.statusEnabled && !w.asking then some w.onStatusTriggered else none
  | Event.deployConfigRequestFinished node =>
      if node ∈ w.deployRequests then
        some (w.onDeployConfigRequestFinished node)
      else
        none

/-!
## Waiting for a deployment
-/

/-- The remote nodes whose deployment is unanswered, with or without those that
a Setup has replaced. -/
def unanswered (replaced : Bool) (w : MainWindow) : List Nat :=
  w.deployRequests.filter (fun node =>
    replaced || decide (node ∈ w.remoteNodes))

def Waits (replaced : Bool) (w : MainWindow) : Prop :=
  forall event v, event = Event.tick ∨ event = Event.status ->
    step w event = some v -> w.unanswered replaced ≠ [] ->
      v.statusRequests = w.statusRequests

/-- A deployment is sent while the flag is set, and a response is handled when
no other one is left to wait for; where there is no remote node anything
goes. -/
def InTurn (replaced : Bool) (w : MainWindow) (event : Event) : Prop :=
  match event with
  | Event.deploy => (w.startEnabled = true ∨ w.stopEnabled = true) ∨
      w.deploying = true ∨ w.remoteNodes = []
  | Event.answer true => w.deploying = true ∨ w.remoteNodes = []
  | Event.deployConfigRequestFinished node =>
      w.remoteNodes = [] ∨
        { w with
          deployRequests := w.deployRequests.erase node
          }.unanswered replaced = []
  | _ => True

section Waiting

variable {replaced : Bool} {w v : MainWindow}

def Ticking (w : MainWindow) : Prop :=
  w.remoteNodes ≠ [] -> w.timerActive = true

/-- Nothing is sent because of the flag, because there is no one to ask or
because everything is answered. -/
def Calm (replaced : Bool) (w : MainWindow) : Prop :=
  w.deploying = true ∨ w.remoteNodes = [] ∨ w.unanswered replaced = []

theorem statusRequests_onStatusTriggered (w : MainWindow) :
    w.onStatusTriggered.statusRequests = w.statusRequests <->
      w.deploying = true ∨ w.remoteNodes = [] := by
  unfold onStatusTriggered
  by_cases hdeploying : w.deploying = true
  · rw [if_pos hdeploying]
    exact iff_of_true rfl (Or.inl hdeploying)
  · rw [if_neg hdeploying]
    show w.statusRequests ++ w.remoteNodes = w.statusRequests <-> _
    rw [List.append_right_eq_self]
    exact (or_iff_right hdeploying).symm

theorem step_status_inv {event : Event}
    (hevent : event = Event.tick ∨ event = Event.status)
    (hstep : step w event = some v) : v = w.onStatusTriggered := by
  rcases hevent with rfl | rfl
  · unfold step at hstep
    rcases Option.ite_none_right_eq_some.mp hstep with ⟨_, heq⟩
    exact (Option.some.inj heq).symm
  · unfold step at hstep
    rcases Option.ite_none_right_eq_some.mp hstep with ⟨_, heq⟩
    exact (Option.some.inj heq).symm

theorem waits_iff (h : Ticking w) : Waits replaced w <-> Calm replaced w := by
  unfold Calm
  rw [← or_assoc, ← statusRequests_onStatusTriggered]
  constructor
  · intro hwaits
    by_cases hnone : w.remoteNodes = []
    · exact Or.inl ((statusRequests_onStatusTriggered w).mpr (Or.inr hnone))
    · by_cases hanswered : w.unanswered replaced = []
      · exact Or.inr hanswered
      · have htick : step w Event.tick = some w.onStatusTriggered := by
          unfold step
          rw [if_pos (h hnone)]
        exact Or.inl (hwaits _ _ (Or.inl rfl) htick hanswered)
  · intro hcalm event v hevent hstep hunanswered
    rw [step_status_inv hevent hstep]
    rcases hcalm with hquiet | hanswered
    · exact hquiet
    · exact absurd hanswered hunanswered

structure SameWaiting (w v : MainWindow) : Prop where
  deploying : v.deploying = w.deploying
  remoteNodes : v.remoteNodes = w.remoteNodes
  deployRequests : v.deployRequests = w.deployRequests
  timerActive : v.timerActive = w.timerActive

theorem Calm.congr (hcalm : Calm replaced w) (h : SameWaiting w v) :
    Calm replaced v := by
  unfold Calm unanswered at *
  rw [h.deploying, h.remoteNodes, h.deployRequests]
  exact hcalm

theorem Ticking.congr (hticking : Ticking w) (h : SameWaiting w v) :
    Ticking v := by
  unfold Ticking at *
  rw [h.remoteNodes, h.timerActive]
  exact hticking

theorem onStatusTriggered_same (w : MainWindow) :
    SameWaiting w w.onStatusTriggered := by
  unfold onStatusTriggered
  by_cases hdeploying : w.deploying = true
  · rw [if_pos hdeploying]
    exact ⟨rfl, rfl, rfl, rfl⟩
  · rw [if_neg hdeploying]
    exact ⟨rfl, rfl, rfl, rfl⟩

theorem resetDeployActions_same (w : MainWindow) :
    SameWaiting w w.resetDeployActions := by
  unfold resetDeployActions
  by_cases hoff : w.startEnabled = false ∧ w.stopEnabled = false
  · rw [if_pos hoff]
    exact ⟨rfl, rfl, rfl, rfl⟩
  · rw [if_neg hoff]
    exact ⟨rfl, rfl, rfl, rfl⟩

theorem calm_deploy (w : MainWindow) :
    Calm replaced w.deploy <-> w.deploying = true ∨ w.remoteNodes = [] := by
  have hreset := resetDeployActions_same w
  unfold Calm unanswered deploy
  simp only
  rw [hreset.deploying, hreset.remoteNodes, hreset.deployRequests]
  constructor
  · intro hcalm
    rcases hcalm with hflag | hnone | hanswered
    · exact Or.inl hflag
    · exact Or.inr hnone
    · rw [List.filter_append, List.append_eq_nil_iff] at hanswered
      right
      -- every node that is sent to counts as unanswered
      apply List.eq_nil_iff_forall_not_mem.mpr
      intro node hnode
      have hmem : node ∈ w.remoteNodes.filter (fun node =>
          replaced || decide (node ∈ w.remoteNodes)) :=
        List.mem_filter.mpr ⟨hnode, by simp [hnode]⟩
      rw [hanswered.right] at hmem
      cases hmem
  · intro hsafe
    rcases hsafe with hflag | hnone
    · exact Or.inl hflag
    · exact Or.inr (Or.inl hnone)

theorem step_ticking {event : Event} (h : Ticking w)
    (hstep : step w event = some v) : Ticking v := by
  have hdeploy : forall u : MainWindow, Ticking u -> Ticking u.deploy := by
    intro u hu
    have hreset : Ticking u.resetDeployActions :=
      hu.congr (resetDeployActions_same u)
    exact hreset
  have hstatus : Ticking w.onStatusTriggered :=
    h.congr (onStatusTriggered_same w)
  cases event with
  | setup count =>
      rcases Option.ite_none_left_eq_some.mp hstep with ⟨_, heq⟩
      cases heq
      exact fun _ => rfl
  | connected documents =>
      cases hstep
      exact h
  | deploy =>
      rcases Option.ite_none_right_eq_some.mp hstep with ⟨_, heq⟩
      cases heq
      unfold onDeployTriggered
      by_cases hasks : w.startEnabled = true ∨ w.stopEnabled = true
      · rw [if_pos hasks]
        exact h
      · rw [if_neg hasks]
        exact hdeploy w h
  | answer yes =>
      rcases Option.ite_none_right_eq_some.mp hstep with ⟨_, heq⟩
      cases heq
      cases yes with
      | true => exact hdeploy _ h
      | false => exact h
  | start =>
      rcases Option.ite_none_right_eq_some.mp hstep with ⟨_, heq⟩
      cases heq
      exact h
  | stop =>
      rcases Option.ite_none_right_eq_some.mp hstep with ⟨_, heq⟩
      cases heq
      exact h
  | tick =>
      rw [step_status_inv (Or.inl rfl) hstep]
      exact hstatus
  | status =>
      rw [step_status_inv (Or.inr rfl) hstep]
      exact hstatus
  | deployConfigRequestFinished node =>
      rcases Option.ite_none_right_eq_some.mp hstep with ⟨_, heq⟩
      cases heq
      exact h

/-- One step keeps waiting exactly when it is in turn. -/
theorem step_calm_iff {event : Event} (h : Calm replaced w)
    (hstep : step w event = some v) :
    Calm replaced v <-> InTurn replaced w event := by
  have hstatus : Calm replaced w.onStatusTriggered :=
    h.congr (onStatusTriggered_same w)
  cases event with
  | setup count =>
      rcases Option.ite_none_left_eq_some.mp hstep with ⟨_, heq⟩
      cases heq
      exact iff_of_true (Or.inl rfl) trivial
  | connected documents =>
      cases hstep
      exact iff_of_true h trivial
  | deploy =>
      rcases Option.ite_none_right_eq_some.mp hstep with ⟨_, heq⟩
      cases heq
      unfold onDeployTriggered InTurn
      by_cases hasks : w.startEnabled = true ∨ w.stopEnabled = true
      · rw [if_pos hasks]
        exact iff_of_true h (Or.inl hasks)
      · rw [if_neg hasks, calm_deploy]
        exact (or_iff_right hasks).symm
  | answer yes =>
      rcases Option.ite_none_right_eq_some.mp hstep with ⟨_, heq⟩
      cases heq
      cases yes with
      | true => exact calm_deploy { w with asking := false }
      | false => exact iff_of_true h trivial
  | start =>
      rcases Option.ite_none_right_eq_some.mp hstep with ⟨_, heq⟩
      cases heq
      exact iff_of_true h trivial
  | stop =>
      rcases Option.ite_none_right_eq_some.mp hstep with ⟨_, heq⟩
      cases heq
      exact iff_of_true h trivial
  | tick =>
      rw [step_status_inv (Or.inl rfl) hstep]
      exact iff_of_true hstatus trivial
  | status =>
      rw [step_status_inv (Or.inr rfl) hstep]
      exact iff_of_true hstatus trivial
  | deployConfigRequestFinished node =>
      rcases Option.ite_none_right_eq_some.mp hstep with ⟨_, heq⟩
      cases heq
      exact or_iff_right Bool.false_ne_true

end Waiting

/-- Along every sequence of events the slot for the status waits for all
deployments, of all remote nodes or of those in the list, exactly when every
deployment is sent while the flag is set and every response that is handled is
the last one. -/
theorem waits_iff_inTurn (replaced : Bool) (events : List Event) :
    Along step (fun _ _ w => Waits replaced w) new events <->
      Along step (fun w event _ => InTurn replaced w event) new events := by
  have hstart : Ticking new ∧ Calm replaced new :=
    ⟨fun h => absurd rfl h, Or.inr (Or.inl rfl)⟩
  refine @Lib.along_iff _ _ step _ _ (fun w => Ticking w ∧ Calm replaced w)
    ?_ ?_ _ _ hstart
  · intro w event v hstep h hwaits
    have hticking := step_ticking h.left hstep
    exact ⟨hticking, (waits_iff hticking).mp hwaits⟩
  · intro w event v hstep h
    rw [waits_iff (step_ticking h.left hstep)]
    exact step_calm_iff h.right hstep

/-- Two remote nodes: the response of the first one lets the timer ask the
second one, which has not answered. -/
theorem tick_before_second_response :
    exists w v, execute step new [Event.setup 2, Event.connected true,
        Event.connected true, Event.deploy,
        Event.deployConfigRequestFinished 0] = some w ∧
      step w Event.tick = some v ∧ w.unanswered false = [1] ∧
      w.statusRequests = [] ∧ v.statusRequests = [0, 1] := by
  refine ⟨_, _, rfl, rfl, ?_⟩
  decide

end MainWindow

end Terminal
end Protort
