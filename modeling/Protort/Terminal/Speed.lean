import Protort.Node.Status
import Protort.Terminal.RemoteNode

/-!
# Speeds

The terminal divides the difference of two byte counters by the time between the
responses that brought them.  The counters belong to the router of the node,
which every deployment replaces by a new one, and the time is one of day.
Beside the node and the terminal goes a record of the bytes that the node has
transferred since the last poll.
-/

namespace Protort
namespace Terminal

open Lib (Along Run)
open Node (Counters Reachable)

structure Traffic where
  received : Nat
  sent : Nat
deriving DecidableEq, Repr

namespace Traffic

def none : Traffic :=
  { received := 0
    sent := 0 }

def plus (x y : Traffic) : Traffic :=
  { received := x.received + y.received
    sent := x.sent + y.sent }

end Traffic

/-- A node that is polled.  `before` is the traffic since the last poll and
before the last deployment after it, if there was one; `after` is the traffic
since both. -/
structure Polled where
  node : Protort.Node
  remote : RemoteNode
  redeployed : Bool
  before : Traffic
  after : Traffic

namespace Polled

/-- What happens to the node, and polls.  A response that is on its way does not
hinder the node, so a poll is one event. -/
inductive Event where
  | node (event : Node.Event)
  | poll (env : Platform) (now : TimeOfDay)

def new (port : UInt32) (startTime : Nat) : Polled :=
  { node := Node.new port startTime
    remote := RemoteNode.new
    redeployed := false
    before := Traffic.none
    after := Traffic.none }

def platformOf (event : Node.Event) : Platform :=
  match event with
  | Node.Event.request env _ => env
  | Node.Event.message env _ _ => env
  | Node.Event.run env _ => env

def sentBytes (env : Platform) (n n' : Protort.Node) : Nat :=
  ((n'.outbox.drop n.outbox.length).map
    (fun m => (env.byteSize m.payload).toNat)).sum

def receivedBytes (event : Node.Event) : Nat :=
  match event with
  | Node.Event.message env _ payload => (env.byteSize payload).toNat
  | _ => 0

def traffic (n : Protort.Node) (event : Node.Event) (n' : Protort.Node) :
    Traffic :=
  { received := receivedBytes event
    sent := sentBytes (platformOf event) n n' }

def statusRequest : Protocol.Payload :=
  Protocol.Payload.deployPacket
    { kind := Protocol.Deploy.PacketKind.getStatus
      payload := Protocol.Deploy.PacketPayload.notSet }

def polled (env : Platform) (now : TimeOfDay) (s : Polled) : Option Polled :=
  match Node.onNewRequest env statusRequest s.node with
  | EStateM.Result.ok response n =>
      (s.remote.onStatusRequestFinished now response.asDeployPacket).map
        (fun result =>
          { node := n
            remote := result.1
            redeployed := false
            before := Traffic.none
            after := Traffic.none })
  | EStateM.Result.error _ _ => Option.none

def step (s : Polled) (event : Event) : Option Polled :=
  match event with
  | Event.node event =>
      (Node.step s.node event).map (fun n =>
        let now := s.after.plus (traffic s.node event n)
        if event.isDeployment then
          { s with
            node := n
            redeployed := true
            before := s.before.plus now
            after := Traffic.none }
        else
          { s with
            node := n
            after := now })
  | Event.poll env now => s.polled env now

def total (s : Polled) : Traffic :=
  s.before.plus s.after

/-- Fewer bytes than a counter can tell apart. -/
def Slow (s : Polled) : Prop :=
  s.total.received < 4294967296 ∧ s.total.sent < 4294967296

/-- A quotient of no more bytes than were transferred, by a positive time. -/
def Sensible (transferred : Nat) (speed : Option Quotient) : Prop :=
  forall q, speed = some q -> q.bytes.toNat <= transferred ∧ 0 < q.msecs

def SpeedsExact (s : Polled) (event : Event) (t : Polled) : Prop :=
  match event with
  | Event.node _ => True
  | Event.poll _ _ => s.Slow ->
      Sensible s.total.received t.remote.downSpeed ∧
        Sensible s.total.sent t.remote.upSpeed

/-- A counter shows enough of what was transferred: it is the one from which the
last response was filled, or it has passed what that said, or enough went by
before it was replaced. -/
def Covered (redeployed : Bool) (last : UInt32) (before after : Nat) : Prop :=
  redeployed = false ∨ last.toNat <= after ∨ 4294967296 <= last.toNat + before

/-- At every poll but the first both counters show enough, and the clock is
later than at the one before. -/
def Comparable (s : Polled) (event : Event) : Prop :=
  match event with
  | Event.node _ => True
  | Event.poll _ now => s.Slow -> forall time,
      s.remote.lastStatusTime = some time ->
        time < now ∧
        Covered s.redeployed s.remote.bytesReceived s.before.received
          s.after.received ∧
        Covered s.redeployed s.remote.bytesSent s.before.sent s.after.sent

/-!
## Counters
-/

theorem ofNat_sum_toNat (xs : List UInt32) :
    UInt32.ofNat (xs.map (fun x => x.toNat)).sum = xs.sum := by
  induction xs with
  | nil => rfl
  | cons x rest ih =>
      rw [List.map_cons, List.sum_cons, List.sum_cons, UInt32.ofNat_add, ih,
        UInt32.ofNat_toNat]

def Counted (base : UInt32) (bytes : Nat) (counter : UInt32) : Prop :=
  counter = base + UInt32.ofNat bytes

/-- What is subtracted from a counter that has counted on is what it has
counted. -/
theorem Counted.difference {base counter : UInt32} {bytes : Nat}
    (h : Counted base bytes counter) (hsmall : bytes < 4294967296) :
    (counter - base).toNat = bytes := by
  unfold Counted at h
  rw [h, add_sub_cancel_left, UInt32.toNat_ofNat']
  exact Nat.mod_eq_of_lt hsmall

theorem difference_le_iff {redeployed : Bool} {last counter : UInt32}
    {before after : Nat}
    (hcounted : Counted (if redeployed then 0 else last) after counter)
    (hsmall : before + after < 4294967296) :
    (counter - last).toNat <= before + after <->
      Covered redeployed last before after := by
  have hlast := last.toNat_lt
  cases redeployed with
  | false =>
      have hdifference := Counted.difference hcounted (by omega)
      rw [if_neg Bool.false_ne_true] at hdifference
      apply iff_of_true
      · show (counter - last).toNat <= before + after
        omega
      · exact Or.inl rfl
  | true =>
      have hcounter : counter.toNat = after := by
        have hfrom := Counted.difference hcounted (by omega)
        rwa [if_pos rfl, sub_zero] at hfrom
      unfold Covered
      rw [UInt32.toNat_sub, hcounter]
      simp only [Bool.true_eq_false, false_or]
      omega

/-!
## Steps
-/

theorem counts_of_statusRequest {env : Platform} {n n' : Protort.Node}
    {response : Protocol.Payload}
    (h : Node.onNewRequest env statusRequest n =
      EStateM.Result.ok response n') :
    n' = n ∧
      response.asDeployPacket.response.statusResponse.inBytesCount =
        n.router.inBytes ∧
      response.asDeployPacket.response.statusResponse.outBytesCount =
        n.router.outBytes := by
  have hstatus : Node.statusResponse env n = EStateM.Result.ok response n' := h
  refine ⟨Node.statusResponse_keeps hstatus, ?_⟩
  unfold Node.statusResponse at hstatus
  rw [Lib.Exceptions.run_get_bind] at hstatus
  rcases Lib.Exceptions.ok_of_bind hstatus with ⟨statuses, m, _, hpure⟩
  cases hpure
  exact ⟨rfl, rfl⟩

structure AfterPoll (s : Polled) (now : TimeOfDay) (t : Polled) : Prop where
  node : t.node = s.node
  bytesReceived : t.remote.bytesReceived = s.node.router.inBytes
  bytesSent : t.remote.bytesSent = s.node.router.outBytes
  downSpeed : t.remote.downSpeed =
    RemoteNode.calcSpeed s.remote.lastStatusTime now s.remote.bytesReceived
      s.node.router.inBytes
  upSpeed : t.remote.upSpeed =
    RemoteNode.calcSpeed s.remote.lastStatusTime now s.remote.bytesSent
      s.node.router.outBytes
  redeployed : t.redeployed = false
  after : t.after = Traffic.none

theorem afterPoll {s t : Polled} {env : Platform} {now : TimeOfDay}
    (h : s.step (Event.poll env now) = some t) : AfterPoll s now t := by
  have hpolled : s.polled env now = some t := h
  unfold polled at hpolled
  cases hrequest : Node.onNewRequest env statusRequest s.node with
  | error e m =>
      rw [hrequest] at hpolled
      cases hpolled
  | ok response n =>
      rw [hrequest] at hpolled
      rcases counts_of_statusRequest hrequest with ⟨hnode, hin, hout⟩
      simp only at hpolled
      unfold RemoteNode.onStatusRequestFinished at hpolled
      simp only [Option.map_map] at hpolled
      rcases Option.map_eq_some_iff.mp hpolled with ⟨components, _, rfl⟩
      exact
        { node := hnode
          bytesReceived := hin
          bytesSent := hout
          downSpeed := by
            show RemoteNode.calcSpeed _ _ _ _ = _
            rw [hin]
          upSpeed := by
            show RemoteNode.calcSpeed _ _ _ _ = _
            rw [hout]
          redeployed := rfl
          after := rfl }

theorem sentBytes_of_append {env : Platform} {n n' : Protort.Node}
    {messages : List Node.Outgoing} (h : n'.outbox = n.outbox ++ messages) :
    UInt32.ofNat (sentBytes env n n') = Node.bytesOf env messages := by
  unfold sentBytes Node.bytesOf
  rw [h, List.drop_left, ← ofNat_sum_toNat, List.map_map]
  rfl

/-- What an event other than a deployment adds to the counters. -/
theorem counters_of_event {n n' : Protort.Node} {event : Node.Event}
    (hn : Node.Consistent n) (hkept : event.isDeployment = false)
    (hstep : Node.step n event = some n') :
    n'.router.inBytes =
        n.router.inBytes + UInt32.ofNat (traffic n event n').received ∧
      n'.router.outBytes =
        n.router.outBytes + UInt32.ofNat (traffic n event n').sent := by
  have hzero : UInt32.ofNat 0 = 0 := rfl
  have hquiet : forall env, n'.outbox = n.outbox ->
      UInt32.ofNat (sentBytes env n n') = 0 := by
    intro env houtbox
    exact sentBytes_of_append (houtbox.trans (List.append_nil _).symm)
  cases event with
  | request env payload =>
      rcases Node.request_counts hkept hstep with ⟨houtbox, hcounters, _⟩
      have hin := congrArg Counters.inBytes hcounters
      have hout := congrArg Counters.outBytes hcounters
      constructor
      · exact hin.trans (add_zero _).symm
      · show _ = _ + UInt32.ofNat (sentBytes env n n')
        rw [hquiet env houtbox, add_zero]
        exact hout
  | message env origin payload =>
      rcases Node.message_counters hstep with ⟨houtbox, hcounters, _⟩
      have hin := congrArg Counters.inBytes hcounters
      have hout := congrArg Counters.outBytes hcounters
      constructor
      · show _ = _ + UInt32.ofNat (env.byteSize payload).toNat
        rw [UInt32.ofNat_toNat]
        exact hin
      · show _ = _ + UInt32.ofNat (sentBytes env n n')
        rw [hquiet env houtbox, add_zero]
        exact hout
  | run env index =>
      rcases Node.run_counters hn hstep with ⟨messages, houtbox, hcounters⟩
      have hin := congrArg Counters.inBytes hcounters
      have hout := congrArg Counters.outBytes hcounters
      constructor
      · exact hin.trans (add_zero _).symm
      · show _ = _ + UInt32.ofNat (sentBytes env n n')
        rw [sentBytes_of_append houtbox]
        exact hout

/-- A deployment installs counters that start at zero. -/
theorem counters_of_deployment {n n' : Protort.Node} {event : Node.Event}
    (hn : Reachable n) (hdeployment : event.isDeployment = true)
    (hstep : Node.step n event = some n') :
    n'.router.inBytes = 0 ∧ n'.router.outBytes = 0 := by
  cases event with
  | request env payload =>
      have hdeployed : Node.JustDeployed n' :=
        ⟨n, env, payload, hn, hdeployment, hstep⟩
      have hcounters := hdeployed.uncounted.right.left
      exact ⟨congrArg Counters.inBytes hcounters,
        congrArg Counters.outBytes hcounters⟩
  | message env origin payload => cases hdeployment
  | run env index => cases hdeployment

theorem reachable_step {n n' : Protort.Node} {event : Node.Event}
    (hn : Reachable n) (hstep : Node.step n event = some n') :
    Reachable n' := by
  rcases hn with ⟨port, startTime, events, hrun⟩
  exact ⟨port, startTime, events ++ [event], hrun.append (Run.single hstep)⟩

theorem Counted.add {base counter counter' : UInt32} {bytes more : Nat}
    (h : Counted base bytes counter)
    (hcounter : counter' = counter + UInt32.ofNat more) :
    Counted base (bytes + more) counter' := by
  unfold Counted at h ⊢
  rw [hcounter, h, UInt32.ofNat_add, add_assoc]

theorem Counted.zero (base : UInt32) : Counted base 0 base :=
  (add_zero base).symm

structure Inv (s : Polled) : Prop where
  reachable : Reachable s.node
  received : s.remote.lastStatusTime ≠ Option.none ->
    Counted (if s.redeployed then 0 else s.remote.bytesReceived)
      s.after.received s.node.router.inBytes
  sent : s.remote.lastStatusTime ≠ Option.none ->
    Counted (if s.redeployed then 0 else s.remote.bytesSent)
      s.after.sent s.node.router.outBytes

theorem inv_new (port : UInt32) (startTime : Nat) : Inv (new port startTime) :=
  { reachable := ⟨port, startTime, [], Run.nil _⟩
    received := fun h => absurd rfl h
    sent := fun h => absurd rfl h }

theorem step_inv {s t : Polled} {event : Event} (hstep : s.step event = some t)
    (h : Inv s) : Inv t := by
  cases event with
  | node event =>
      rcases Option.map_eq_some_iff.mp hstep with ⟨n, hnode, rfl⟩
      have hreachable := reachable_step h.reachable hnode
      by_cases hdeployment : event.isDeployment = true
      · rcases counters_of_deployment h.reachable hdeployment hnode with
          ⟨hin, hout⟩
        simp only [hdeployment, if_true]
        exact
          { reachable := hreachable
            received := fun _ => hin
            sent := fun _ => hout }
      · rcases counters_of_event h.reachable.consistent
          (Bool.eq_false_iff.mpr hdeployment) hnode with ⟨hin, hout⟩
        simp only [hdeployment]
        exact
          { reachable := hreachable
            received := fun hpolled => (h.received hpolled).add hin
            sent := fun hpolled => (h.sent hpolled).add hout }
  | poll env now =>
      have hpoll := afterPoll hstep
      have hreachable := h.reachable
      rw [← hpoll.node] at hreachable
      exact
        { reachable := hreachable
          received := by
            intro _
            rw [hpoll.redeployed, hpoll.after, hpoll.bytesReceived, hpoll.node]
            exact Counted.zero s.node.router.inBytes
          sent := by
            intro _
            rw [hpoll.redeployed, hpoll.after, hpoll.bytesSent, hpoll.node]
            exact Counted.zero s.node.router.outBytes }

theorem sensible_iff {transferred : Nat} {q : Quotient} :
    Sensible transferred (some q) <->
      q.bytes.toNat <= transferred ∧ 0 < q.msecs := by
  unfold Sensible
  simp only [Option.some.injEq, forall_eq']

theorem speedsExact_iff_comparable {s t : Polled} {event : Event}
    (hstep : s.step event = some t) (h : Inv s) :
    SpeedsExact s event t <-> Comparable s event := by
  cases event with
  | node event => exact Iff.rfl
  | poll env now =>
      have hpoll := afterPoll hstep
      unfold SpeedsExact Comparable
      simp only
      apply imp_congr_right
      intro hslow
      rw [hpoll.downSpeed, hpoll.upSpeed]
      cases htime : s.remote.lastStatusTime with
      | none =>
          apply iff_of_true
          · constructor
            · intro q hq
              cases hq
            · intro q hq
              cases hq
          · intro time hnone
            cases hnone
      | some time =>
          have hpolled : s.remote.lastStatusTime ≠ Option.none := by
            rw [htime]
            exact Option.some_ne_none time
          have hin := difference_le_iff (h.received hpolled) hslow.left
          have hout := difference_le_iff (h.sent hpolled) hslow.right
          have hclock : 0 < RemoteNode.msecsTo time now <-> time < now := by
            unfold RemoteNode.msecsTo
            rw [Fin.lt_def]
            omega
          unfold RemoteNode.calcSpeed
          rw [Option.map_some, Option.map_some, sensible_iff, sensible_iff]
          simp only [Option.some.injEq, forall_eq', hclock]
          unfold total Traffic.plus
          rw [hin, hout]
          tauto

/-- From the construction of a node on the speeds are exact at every poll,
exactly when at every poll both counters show enough and the clock has not been
set back, nor stood still. -/
theorem speeds_exact_iff (port : UInt32) (startTime : Nat)
    (events : List Event) :
    Along step SpeedsExact (new port startTime) events <->
      Along step (fun s event _ => Comparable s event) (new port startTime)
        events :=
  Lib.along_congr (fun hstep h => step_inv hstep h)
    (fun hstep h => speedsExact_iff_comparable hstep h)
    (inv_new port startTime)

def deployment : Event :=
  Event.node (Node.deployRequest
    (Node.lonely Protocol.ComponentKind.terminator))

/-- Ten bytes arrive, the node is polled, and it is deployed again. -/
def redeployedNode : List Event :=
  [deployment,
    Event.node (Node.Event.message
      { Platform.loopback with byteSize := fun _ => 10 } Option.none
      (Protocol.Payload.communicationPacket default)),
    Event.poll Platform.loopback 0,
    deployment]

/-- The next poll finds that 4294967286 bytes have arrived, and none has.  At
midnight the time between two polls is negative. -/
theorem redeployedNode_speed :
    (Lib.execute step (new 100 0) redeployedNode).map (fun s =>
      (s.total, (s.step (Event.poll Platform.loopback 500)).map
        (fun t => t.remote.downSpeed))) =
      some (Traffic.none, some (some ⟨4294967286, 500⟩)) ∧
    (Lib.execute step (new 100 0)
      [Event.poll Platform.loopback 86399900,
        Event.poll Platform.loopback 100]).map
      (fun s => s.remote.downSpeed) = some (some ⟨0, -86399800⟩) ∧
    ¬ Along step SpeedsExact (new 100 0)
      (redeployedNode ++ [Event.poll Platform.loopback 500]) := by
  have hrun : (Lib.execute step (new 100 0) redeployedNode).map (fun s =>
      (s.total, (s.step (Event.poll Platform.loopback 500)).map
        (fun t => t.remote.downSpeed))) =
      some (Traffic.none, some (some ⟨4294967286, 500⟩)) := by
    decide +kernel
  refine ⟨hrun, by decide +kernel, ?_⟩
  intro halong
  rcases Option.map_eq_some_iff.mp hrun with ⟨s, hexecute, hlast⟩
  have htotal := congrArg Prod.fst hlast
  have hpoll := congrArg Prod.snd hlast
  simp only at htotal hpoll
  rcases Option.map_eq_some_iff.mp hpoll with ⟨t, hstep, hspeed⟩
  have hexact := ((Lib.along_of_execute hexecute halong) t hstep).left
  have hslow : s.Slow := by
    unfold Slow
    rw [htotal]
    decide
  have hbytes := ((hexact hslow).left _ hspeed).left
  rw [htotal] at hbytes
  exact absurd hbytes (by decide)

end Polled

end Terminal
end Protort
