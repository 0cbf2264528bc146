import Protort.Node.Counting

/-!
# What a node reports

The status of a component has two counts, of the packets that came in and of
those that went out; both are filled from the one counter that a component has.
-/

namespace Protort
namespace Node

open Lib (Run Steps Along execute counted tally)
open Lib.Exceptions
open Protocol.Deploy (ComponentStatus)

def componentStatuses (response : Protocol.Payload) : List ComponentStatus :=
  match response with
  | Protocol.Payload.deployPacket packet =>
      match packet.payload with
      | Protocol.Deploy.PacketPayload.response
          (Protocol.Deploy.Response.status status) => status.componentStatuses
      | _ => []
  | _ => []

def reported (env : Platform) (n : Protort.Node) :
    Option (List ComponentStatus) :=
  match statusResponse env n with
  | EStateM.Result.ok response _ => some (componentStatuses response)
  | EStateM.Result.error _ _ => none

/-- The input count of a component is a number of packets. -/
def InCountTrue (c : String) (n : Protort.Node) (count : Nat) : Prop :=
  forall env statuses, reported env n = some statuses ->
    forall status, status ∈ statuses -> status.name = c ->
      status.inPacketCount = UInt32.ofNat count

/-- The output count of a component is a number of packets. -/
def OutCountTrue (c : String) (n : Protort.Node) (count : Nat) : Prop :=
  forall env statuses, reported env n = some statuses ->
    forall status, status ∈ statuses -> status.name = c ->
      status.outPacketCount = UInt32.ofNat count

def keep (n : Protort.Node) (event : Event) : Option Protort.Node :=
  if event.isDeployment then none else step n event

/-- The event neither hands the component a packet nor sends one from it, or
only as many as the counter does not see. -/
def Idle (c : String) (n : Protort.Node) (event : Event) : Prop :=
  processed c n event = 0 ∧ dispatched c n event % 2 ^ 32 = 0

/-!
## Reports
-/

section Reports

variable {env : Platform} {n : Protort.Node}

/-- The status of an entry, with the one counter in both places. -/
def statusOf (n : Protort.Node) (ref : ComponentRef) : ComponentStatus :=
  { name := ref.name
    inPacketCount := inPacketCount n ref.name
    outPacketCount := inPacketCount n ref.name }

theorem statuses_of_mapM {refs : List ComponentRef}
    (hrefs : forall ref, ref ∈ refs -> ref.router = n.router.address)
    {statuses : List ComponentStatus} {m : Protort.Node}
    (h : refs.mapM (componentStatus n) n = EStateM.Result.ok statuses m) :
    statuses = refs.map (statusOf n) := by
  induction refs generalizing statuses m with
  | nil =>
      cases h
      rfl
  | cons ref rest ih =>
      rw [List.mapM_cons] at h
      rcases ok_of_bind h with ⟨status, m1, hstatus, hrest⟩
      rcases ok_of_bind hrest with ⟨others, m2, hothers, hpure⟩
      cases hpure
      unfold componentStatus at hstatus
      cases hc : n.findComponent ref with
      | none =>
          rw [hc] at hstatus
          cases hstatus
      | some c =>
          rw [hc] at hstatus
          cases hstatus
          have href := hrefs ref List.mem_cons_self
          have hcount : inPacketCount n ref.name = c.inPacketCount := by
            have hc' : n.findComponent ⟨ref.router, ref.name⟩ = some c := hc
            rw [inPacketCount_eq, ← href, hc']
          rw [List.map_cons, ← ih (fun other hother =>
            hrefs other (List.mem_cons_of_mem ref hother)) hothers]
          unfold statusOf
          rw [hcount]

theorem reported_spec {statuses : List ComponentStatus}
    (h : reported env n = some statuses) :
    n.router.Full ∧
      statuses = (componentRefs n n.router.address).map (statusOf n) := by
  unfold reported at h
  cases hrun : statusResponse env n with
  | error e m =>
      rw [hrun] at h
      cases h
  | ok response m =>
      rw [hrun] at h
      cases h
      have hsame := statusResponse_keeps hrun
      subst hsame
      refine ⟨complete_iff_full.mp
        (statusResponse_returns_iff.mp ⟨response, hrun⟩), ?_⟩
      unfold statusResponse at hrun
      rw [run_get_bind] at hrun
      rcases ok_of_bind hrun with ⟨statuses, m1, hstatuses, hpure⟩
      cases hpure
      exact statuses_of_mapM
        (fun _ href => Switch.router_of_mem_componentRefs href) hstatuses

theorem status_of_mem {statuses : List ComponentStatus}
    (h : reported env n = some statuses) {status : ComponentStatus}
    (hmem : status ∈ statuses) :
    status.inPacketCount = inPacketCount n status.name ∧
      status.outPacketCount = inPacketCount n status.name := by
  rw [(reported_spec h).right] at hmem
  rcases List.mem_map.mp hmem with ⟨ref, _, rfl⟩
  exact ⟨rfl, rfl⟩

theorem reported_of_full (env : Platform) (hfull : n.router.Full) {c : String}
    (hc : c ∈ n.router.components) :
    exists statuses status, reported env n = some statuses ∧
      status ∈ statuses ∧ status.name = c := by
  rcases statusResponse_returns_iff.mpr (complete_iff_full.mpr hfull) with
    ⟨response, hrun⟩
  have hreported : reported env n = some (componentStatuses response) := by
    unfold reported
    rw [hrun]
  have href : (⟨n.router.address, c⟩ : ComponentRef) ∈
      componentRefs n n.router.address :=
    (Switch.mem_componentRefs (findRouter_current n)).mpr ⟨rfl, hc⟩
  have hstatus := List.mem_map_of_mem (f := statusOf n) href
  rw [← (reported_spec hreported).right] at hstatus
  exact ⟨_, _, hreported, hstatus, rfl⟩

theorem inCountTrue_of_eq {c : String} {count : Nat}
    (h : inPacketCount n c = UInt32.ofNat count) : InCountTrue c n count := by
  intro env statuses hreported status hmem hname
  rw [(status_of_mem hreported hmem).left, hname, h]

/-- The output count is right where the counter is, by chance, the number that
it should be. -/
theorem outCountTrue_iff {c : String} (hc : c ∈ n.router.components)
    (count : Nat) :
    OutCountTrue c n count <->
      (n.router.Full -> inPacketCount n c = UInt32.ofNat count) := by
  constructor
  · intro h hfull
    rcases reported_of_full Platform.loopback hfull hc with
      ⟨statuses, status, hreported, hmem, hname⟩
    rw [← h _ statuses hreported status hmem hname,
      (status_of_mem hreported hmem).right, hname]
  · intro h env statuses hreported status hmem hname
    rw [(status_of_mem hreported hmem).right, hname,
      h (reported_spec hreported).left]

end Reports

/-!
## Histories
-/

section Histories

variable {n n' : Protort.Node} {c : String} {event : Event}

theorem step_of_keep (h : keep n event = some n') :
    event.isDeployment = false ∧ step n event = some n' := by
  unfold keep at h
  rcases Option.ite_none_left_eq_some.mp h with ⟨hkept, hstep⟩
  exact ⟨Bool.eq_false_iff.mpr hkept, hstep⟩

/-- A component that processes a packet sends nothing in the same step. -/
theorem dispatched_of_processed (h : processed c n event ≠ 0) :
    processed c n event = 1 ∧ dispatched c n event = 0 := by
  cases event with
  | request env payload => exact absurd rfl h
  | message env origin payload => exact absurd rfl h
  | run env index =>
      unfold processed at h ⊢
      unfold dispatched
      simp only at h ⊢
      cases hget : n.service[index]? with
      | none =>
          rw [hget] at h
          exact absurd rfl h
      | some task =>
          rw [hget] at h
          cases task with
          | doProcess ref origin inPort payload =>
              simp only at h ⊢
              by_cases href : ref = ⟨n.router.address, c⟩
              · exact ⟨if_pos href, trivial⟩
              · exact absurd (if_neg href) h
          | _ => exact absurd rfl h

theorem ofNat_eq_iff {a b : Nat} :
    UInt32.ofNat a = UInt32.ofNat b <-> a % 2 ^ 32 = b % 2 ^ 32 := by
  rw [← UInt32.toNat_inj, UInt32.toNat_ofNat', UInt32.toNat_ofNat']

theorem idle_iff (count : Nat) :
    UInt32.ofNat count + UInt32.ofNat (processed c n event) =
        UInt32.ofNat (count + dispatched c n event) <->
      Idle c n event := by
  rw [← UInt32.ofNat_add, ofNat_eq_iff]
  unfold Idle
  by_cases hzero : processed c n event = 0
  · rw [hzero]
    omega
  · rcases dispatched_of_processed hzero with ⟨hone, hnone⟩
    rw [hone, hnone]
    omega

theorem keep_spec (hn : Consistent n) (h : keep n event = some n') :
    Consistent n' ∧ (n'.router.Full <-> n.router.Full) ∧
      (c ∈ n'.router.components <-> c ∈ n.router.components) ∧
      inPacketCount n' c =
        inPacketCount n c + UInt32.ofNat (processed c n event) := by
  rcases step_of_keep h with ⟨hkept, hstep⟩
  have htable := step_table hn hkept hstep
  exact ⟨step_consistent hstep hn, full_of_sameTable htable, htable.mem c,
    step_inPacketCount hn hkept hstep c⟩

theorem inPacketCount_run {events : List Event}
    (hn : Consistent n) (hrun : Run (Steps keep) n events n') :
    inPacketCount n' c = inPacketCount n c +
      UInt32.ofNat (tally keep (fun m event _ => processed c m event) n
        events) := by
  induction hrun with
  | nil n =>
      have hzero : UInt32.ofNat 0 = 0 := rfl
      unfold tally
      rw [hzero, add_zero]
  | @cons n m k event events hstep _ ih =>
      have hkeep : keep n event = some m := hstep
      rcases keep_spec (c := c) hn hkeep with ⟨hm, _, _, hcount⟩
      rw [ih hm, hcount, tally, hkeep]
      simp only
      rw [UInt32.ofNat_add, add_assoc]

theorem components_run {events : List Event} (hn : Consistent n)
    (hrun : Run (Steps keep) n events n') (hc : c ∈ n.router.components) :
    c ∈ n'.router.components := by
  have hend : Consistent n' ∧ c ∈ n'.router.components :=
    @Run.invariant _ _ _ (fun m => Consistent m ∧ c ∈ m.router.components)
      _ _ _ hrun
      (fun hstep h => by
        rcases keep_spec (c := c) h.left hstep with ⟨hm, _, hmem, _⟩
        exact ⟨hm, hmem.mpr h.right⟩)
      ⟨hn, hc⟩
  exact hend.right

end Histories

/-- In every run of a node after a deployment the input count of a component is
the number of packets it has processed.  Its output count is the number of
packets dispatched from it exactly when that is the same number, and so it is in
every state along a run exactly when no step hands the component a packet or
dispatches one from it. -/
theorem outCounts_true_iff {n : Protort.Node} (hn : JustDeployed n)
    {c : String} (hc : c ∈ n.router.components) (events : List Event) :
    (forall n', Run (Steps keep) n events n' ->
      InCountTrue c n'
        (tally keep (fun m event _ => processed c m event) n events) ∧
      (OutCountTrue c n'
          (tally keep (fun m event _ => dispatched c m event) n events) <->
        (n'.router.Full ->
          tally keep (fun m event _ => dispatched c m event) n events %
              2 ^ 32 =
            tally keep (fun m event _ => processed c m event) n events %
              2 ^ 32))) ∧
    (Along (counted keep (dispatched c))
        (fun _ _ s => OutCountTrue c s.1 s.2) (n, 0) events <->
      Along keep (fun m event _ => m.router.Full -> Idle c m event) n
        events) := by
  rcases hn.uncounted with ⟨hcons, _, hzero⟩
  constructor
  · intro n' hrun
    have hcount := inPacketCount_run (c := c) hcons hrun
    rw [hzero c, zero_add] at hcount
    refine ⟨inCountTrue_of_eq hcount, ?_⟩
    rw [outCountTrue_iff (components_run hcons hrun hc), hcount, ofNat_eq_iff]
    exact imp_congr_right fun _ => eq_comm
  · rw [← Lib.along_counted (f := dispatched c) (k := 0)]
    refine @Lib.along_iff _ _ (counted keep (dispatched c)) _ _ (fun s =>
        Consistent s.1 ∧ c ∈ s.1.router.components ∧
          (s.1.router.Full -> inPacketCount s.1 c = UInt32.ofNat s.2))
      ?_ ?_ _ _ ⟨hcons, hc, fun _ => hzero c⟩
    · intro s event t hstep h htrue
      rcases Option.map_eq_some_iff.mp hstep with ⟨m, hm, rfl⟩
      rcases keep_spec (c := c) h.left hm with ⟨hm', _, hmem, _⟩
      have hc' := hmem.mpr h.right.left
      exact ⟨hm', hc', (outCountTrue_iff hc' _).mp htrue⟩
    · intro s event t hstep h
      rcases Option.map_eq_some_iff.mp hstep with ⟨m, hm, rfl⟩
      rcases keep_spec (c := c) h.left hm with ⟨hm', hfull, hmem, hcount⟩
      rw [outCountTrue_iff (hmem.mpr h.right.left), hfull]
      refine imp_congr_right fun hf => ?_
      rw [hcount, h.right.right hf]
      exact idle_iff s.2

def terminatorNode : Protort.Node :=
  (execute step (new 100 0)
    [deployRequest (lonely Protocol.ComponentKind.terminator)]).getD
      (new 100 0)

def oneMessage : List Event :=
  [command Protocol.Deploy.PacketKind.start,
    Event.message Platform.loopback none
      (Protocol.Payload.communicationPacket
        { source := ⟨0, "a"⟩
          destination := ⟨0, "g"⟩
          payload := [] }),
    Event.run Platform.loopback 0]

theorem justDeployed_terminatorNode : JustDeployed terminatorNode := by
  have hstep : step (new 100 0)
      (deployRequest (lonely Protocol.ComponentKind.terminator)) =
        some terminatorNode := by
    decide +kernel
  exact ⟨new 100 0, _, _, ⟨100, 0, [], Run.nil _⟩, rfl, hstep⟩

theorem outCounts_true_iff_terminator :
    exists n', Run (Steps keep) terminatorNode oneMessage n' ∧
      InCountTrue "g" n' 1 := by
  have hcomponent : "g" ∈ terminatorNode.router.components := by
    decide +kernel
  have hend : (execute keep terminatorNode oneMessage).isSome = true ∧
      tally keep (fun m event _ => processed "g" m event) terminatorNode
        oneMessage = 1 := by
    decide +kernel
  rcases Option.isSome_iff_exists.mp hend.left with ⟨n', hexecute⟩
  have hrun := Run.of_execute hexecute
  have htrue := ((outCounts_true_iff justDeployed_terminatorNode hcomponent
    oneMessage).left n' hrun).left
  rw [hend.right] at htrue
  exact ⟨n', hrun, htrue⟩

/-- A terminator sends nothing, and is reported to have sent what it got. -/
theorem terminator_reports_output :
    JustDeployed terminatorNode ∧
    ((execute keep terminatorNode oneMessage).bind
      (reported Platform.loopback)) = some [⟨"g", 1, 1⟩] ∧
    tally keep (fun m event _ => dispatched "g" m event) terminatorNode
      oneMessage = 0 := by
  refine ⟨justDeployed_terminatorNode, ?_⟩
  decide +kernel

end Node
end Protort
