import Mathlib.Algebra.BigOperators.Pi
import Mathlib.Algebra.BigOperators.Group.Finset.Piecewise
import Mathlib.Data.List.Perm.Basic
import Mathlib.Tactic.Abel
import Protort.Node.Status
import Protort.System.Nodes

/-!
# Conservation of traffic

The counters of each node differ from those of the nodes it talks to by the
messages on the way.  A node that sends a message owes one packet, and the size
of its payload, until the message arrives.
-/

namespace Protort
namespace System

open Lib (Run Steps execute)
open Node (Counters JustDeployed)

namespace Nodes

universe u

variable {ι : Type u}

def payloadBytes (size : Protocol.Payload -> UInt32)
    (messages : List Node.Outgoing) :
    UInt32 :=
  (messages.map (fun m => size m.payload)).sum

/-- The packets and bytes that a node sent, less what it received and what is
still on the way. -/
def surplus (size : Protocol.Payload -> UInt32) (n : Protort.Node) :
    UInt32 × UInt32 :=
  (n.router.counters.outPackets - n.router.counters.inPackets -
      UInt32.ofNat n.outbox.length,
    n.router.counters.outBytes - n.router.counters.inBytes -
      payloadBytes size n.outbox)

variable {size : Protocol.Payload -> UInt32} {env : Platform}
  {n n' : Protort.Node}

theorem surplus_congr (hcounters : n'.router.counters = n.router.counters)
    (houtbox : n'.outbox = n.outbox) : surplus size n' = surplus size n := by
  unfold surplus
  rw [hcounters, houtbox]

theorem surplus_sent {messages : List Node.Outgoing}
    (hsize : env.byteSize = size)
    (hcounters : n'.router.counters = n.router.counters.sent env messages)
    (houtbox : n'.outbox = n.outbox ++ messages) :
    surplus size n' = surplus size n := by
  unfold surplus payloadBytes
  rw [hcounters, houtbox]
  unfold Counters.sent Node.bytesOf
  rw [hsize, List.length_append, UInt32.ofNat_add, List.map_append,
    List.sum_append]
  apply Prod.ext
  · simp only
    abel
  · simp only
    abel

theorem surplus_withoutMessage {index : Nat} {m : Node.Outgoing}
    (hm : n.outbox[index]? = some m) :
    surplus size (withoutMessage n index) =
      surplus size n + (1, size m.payload) := by
  rcases List.getElem?_eq_some_iff.mp hm with ⟨hlt, rfl⟩
  have hperm := List.getElem_cons_eraseIdx_perm hlt
  have hlength : UInt32.ofNat n.outbox.length =
      1 + UInt32.ofNat (n.outbox.eraseIdx index).length := by
    rw [← hperm.length_eq, List.length_cons, Nat.add_comm, UInt32.ofNat_add]
    rfl
  have hbytes : payloadBytes size n.outbox =
      size n.outbox[index].payload +
        payloadBytes size (n.outbox.eraseIdx index) := by
    unfold payloadBytes
    rw [← (hperm.map (fun m => size m.payload)).sum_eq]
    rfl
  unfold surplus withoutMessage
  rw [hlength, hbytes]
  apply Prod.ext
  · simp only [Prod.fst_add]
    abel
  · simp only [Prod.snd_add]
    abel

theorem surplus_received {payload : Protocol.Payload}
    (hsize : env.byteSize = size)
    (hcounters : n'.router.counters = n.router.counters.received env payload)
    (houtbox : n'.outbox = n.outbox) :
    surplus size n' + (1, size payload) = surplus size n := by
  unfold surplus
  rw [hcounters, houtbox]
  unfold Counters.received
  rw [hsize]
  apply Prod.ext
  · simp only [Prod.fst_add]
    abel
  · simp only [Prod.snd_add]
    abel

theorem surplus_own {event : Node.Event} (hn : n.Consistent)
    (hown : isOwn event = true)
    (hsize : (ownPlatform event).byteSize = size)
    (hstep : Node.step n event = some n') :
    surplus size n' = surplus size n := by
  cases event with
  | request env payload =>
      rcases Node.request_counts (kept_of_isOwn hown) hstep with
        ⟨houtbox, hcounters, _⟩
      exact surplus_congr hcounters houtbox
  | message env origin payload => cases hown
  | run env index =>
      rcases Node.run_counters hn hstep with ⟨messages, houtbox, hcounters⟩
      exact surplus_sent hsize hcounters houtbox

/-- Nodes that were just deployed and have nothing on the way. -/
def Fresh (sys : ι -> Protort.Node) : Prop :=
  forall x, JustDeployed (sys x) ∧ (sys x).outbox = []

theorem Fresh.surplus {sys : ι -> Protort.Node} (h : Fresh sys) (x : ι) :
    surplus size (sys x) = 0 := by
  unfold Nodes.surplus payloadBytes
  rw [(h x).left.uncounted.right.left, (h x).right]
  have hzero : UInt32.ofNat 0 = 0 := rfl
  simp only [List.map_nil, List.sum_nil, List.length_nil, hzero, sub_zero]
  rfl

section Sums

variable [DecidableEq ι] [Fintype ι] {peer : ι -> Node.Client -> Option ι}
  {sys sys' : ι -> Protort.Node}

theorem sum_update {M : Type} [AddCommGroup M] (f : Protort.Node -> M)
    (sys : ι -> Protort.Node) (x : ι) (n : Protort.Node) :
    ∑ z, f (Function.update sys x n z) + f (sys x) = ∑ z, f (sys z) + f n := by
  have hupdate : forall z, f (Function.update sys x n z) =
      Function.update (fun z => f (sys z)) x (f n) z := by
    intro z
    exact Function.apply_update (fun _ => f) sys x n z
  simp only [hupdate]
  rw [Finset.sum_update_of_mem (Finset.mem_univ x),
    Finset.sum_eq_add_sum_sdiff_singleton_of_mem (Finset.mem_univ x)
      (fun z => f (sys z))]
  abel

/-- The step lemma: the surpluses of all nodes keep their sum. -/
theorem step_surplus {event : Event ι}
    (hsize : event.platform.byteSize = size)
    (hstep : step peer sys event = some sys')
    (h : forall z, (sys z).Consistent) :
    ∑ z, surplus size (sys' z) = ∑ z, surplus size (sys z) := by
  cases moves_of_move hstep with
  | @node x event n hown hn =>
      have hsum := sum_update (surplus size) sys x n
      rw [surplus_own (h x) hown hsize hn] at hsum
      exact add_right_cancel hsum
  | @deliver env x y index m n hm hy hn =>
      -- the message is first missing at its sender, then counted where it
      -- arrives, which may be the same node
      have htaken := sum_update (surplus size) sys x
        (withoutMessage (sys x) index)
      have harrived := sum_update (surplus size)
        (Function.update sys x (withoutMessage (sys x) index)) y n
      rcases Node.message_counters hn with ⟨houtbox, hcounters, _⟩
      rw [surplus_withoutMessage hm] at htaken
      rw [← surplus_received hsize hcounters houtbox] at harrived
      have hsums : forall {a b c s t d : UInt32 × UInt32},
          b + s = a + (s + d) -> c + (t + d) = b + t -> c = a := by
        intro a b c s t d hleft hright
        have hb : b = a + d := by
          apply add_right_cancel (b := s)
          rw [hleft]
          abel
        apply add_right_cancel (b := t + d)
        rw [hright, hb]
        abel
      exact hsums htaken harrived

/-- The run lemma, where all platforms find the same size for a payload. -/
theorem run_surplus {events : List (Event ι)}
    (hsize : forall event, event ∈ events -> event.platform.byteSize = size)
    (hrun : Run (Steps (step peer)) sys events sys')
    (h : forall z, (sys z).Consistent) :
    ∑ z, surplus size (sys' z) = ∑ z, surplus size (sys z) := by
  induction hrun with
  | nil sys => rfl
  | cons hstep hrest ih =>
      rw [ih (fun event hevent => hsize event (List.mem_cons_of_mem _ hevent))
        (move_consistent hstep h)]
      exact step_surplus (hsize _ List.mem_cons_self) hstep h

def countHom : Nat →+ UInt32 where
  toFun := UInt32.ofNat
  map_zero' := rfl
  map_add' := UInt32.ofNat_add

/-- What the nodes sent is what they received and what is in flight. -/
theorem traffic_conserved {events : List (Event ι)} (hfresh : Fresh sys)
    (hsize : forall event, event ∈ events -> event.platform.byteSize = size)
    (hrun : Run (Steps (step peer)) sys events sys') :
    ∑ x, (sys' x).router.outPackets =
        ∑ x, (sys' x).router.inPackets +
          UInt32.ofNat (∑ x, (sys' x).outbox.length) ∧
      ∑ x, (sys' x).router.outBytes =
        ∑ x, (sys' x).router.inBytes +
          ∑ x, payloadBytes size (sys' x).outbox := by
  have hzero := run_surplus hsize hrun
    (fun z => (hfresh z).left.uncounted.left)
  simp only [hfresh.surplus, Finset.sum_const_zero] at hzero
  have hpackets := congrArg Prod.fst hzero
  have hbytes := congrArg Prod.snd hzero
  rw [Prod.fst_sum] at hpackets
  rw [Prod.snd_sum] at hbytes
  unfold surplus at hpackets hbytes
  simp only [Finset.sum_sub_distrib] at hpackets hbytes
  rw [sub_sub] at hpackets hbytes
  have hlength : UInt32.ofNat (∑ x, (sys' x).outbox.length) =
      ∑ x, UInt32.ofNat (sys' x).outbox.length :=
    map_sum countHom (fun x => (sys' x).outbox.length) Finset.univ
  rw [hlength]
  exact ⟨sub_eq_zero.mp hpackets, sub_eq_zero.mp hbytes⟩

end Sums

/-!
## Two nodes
-/

def endpointBytes (endpoint : Protocol.ComponentEndpoint) : Nat :=
  (if endpoint.port = 0 then 0 else 2) +
    (if endpoint.name = "" then 0 else 2 + endpoint.name.length)

def messageBytes (payload : Protocol.Payload) : UInt32 :=
  match payload with
  | Protocol.Payload.communicationPacket packet =>
      UInt32.ofNat (2 + (2 + endpointBytes packet.source) +
        (2 + endpointBytes packet.destination) +
        (if packet.payload = [] then 0 else 2 + packet.payload.length))
  | _ => 0

def pairPlatform : Platform :=
  { Platform.loopback with byteSize := messageBytes }

/-- A generator on one node that sends to a terminator on another. -/
def pairConfig (info : Protocol.Deploy.NodeInfo) : Protocol.Deploy.Config :=
  { thisNodeInfo := info
    nodeInfos := [⟨"n1", "127.0.0.1", 100⟩, ⟨"n2", "127.0.0.1", 200⟩]
    instances := [⟨"g", Protocol.ComponentKind.generator⟩,
      ⟨"t", Protocol.ComponentKind.terminator⟩]
    maps := [⟨"n1", "g"⟩, ⟨"n2", "t"⟩]
    connections := [⟨⟨0, "g"⟩, ⟨0, "t"⟩⟩] }

def pairInfo (x : Bool) : Protocol.Deploy.NodeInfo :=
  if x then ⟨"n2", "127.0.0.1", 200⟩ else ⟨"n1", "127.0.0.1", 100⟩

def pair (x : Bool) : Protort.Node :=
  (Node.step (Node.new 100 0)
    (Node.deployRequest (pairConfig (pairInfo x)))).getD (Node.new 100 0)

def pairPeer (_ : Bool) (client : Node.Client) : Option Bool :=
  some (decide (client.endpoint.port = 200))

def pairEvents : List (Event Bool) :=
  [Event.node false (Node.Event.request pairPlatform
      (Protocol.Payload.deployPacket
        { kind := Protocol.Deploy.PacketKind.start
          payload := Protocol.Deploy.PacketPayload.notSet })),
    Event.node false (Node.Event.run pairPlatform 0),
    Event.node false (Node.Event.run pairPlatform 0),
    Event.deliver pairPlatform false 0]

theorem pair_fresh : Fresh pair := by
  have hstep : forall x, Node.step (Node.new 100 0)
      (Node.deployRequest (pairConfig (pairInfo x))) = some (pair x) ∧
        (pair x).outbox = [] := by
    decide +kernel
  intro x
  rcases hstep x with ⟨hdeploy, houtbox⟩
  exact ⟨⟨Node.new 100 0, _, _, ⟨100, 0, [], Run.nil _⟩, rfl, hdeploy⟩,
    houtbox⟩

theorem pair_sizes (event : Event Bool) (h : event ∈ pairEvents) :
    event.platform.byteSize = messageBytes := by
  unfold pairEvents at h
  simp only [List.mem_cons, List.not_mem_nil, or_false] at h
  rcases h with rfl | rfl | rfl | rfl <;> rfl

/-- One message is counted at both ends. -/
theorem traffic_conserved_pair :
    exists sys', Run (Steps (step pairPeer)) pair pairEvents sys' ∧
      (sys' false).router.outBytes = 38 ∧
      ∑ x, (sys' x).router.outPackets =
        ∑ x, (sys' x).router.inPackets +
          UInt32.ofNat (∑ x, (sys' x).outbox.length) ∧
      ∑ x, (sys' x).router.outBytes =
        ∑ x, (sys' x).router.inBytes +
          ∑ x, payloadBytes messageBytes (sys' x).outbox := by
  have hbytes : (execute (step pairPeer) pair pairEvents).map (fun sys' =>
      (sys' false).router.outBytes) = some 38 := by
    decide +kernel
  rcases Option.map_eq_some_iff.mp hbytes with ⟨sys', hexecute, hout⟩
  have hrun := Run.of_execute hexecute
  exact ⟨sys', hrun, hout, traffic_conserved pair_fresh pair_sizes hrun⟩

end Nodes

end System
end Protort
