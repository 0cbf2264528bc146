import Protort.Link.Connection
import Protort.Protolink.Connection

/-!
# The read loops of both connections

The connections of the link layer and of the protolink layer take a stream of
framed packets apart in the same way, whatever the chunks in which it arrives.
The protolink connection answers requests in between and ends the program at a
response, which it never expects.
-/

namespace Protort
namespace Protolink

open Lib (Bytes Framing Memory Socket IoEvent)
open Link (Buffer At Position Receiving Reader)

namespace Connection

def Ends (platform : Platform) (packet : Bytes) : Prop :=
  (platform.parse packet).kind = Protocol.Kind.response

instance (platform : Platform) (packet : Bytes) :
    Decidable (Ends platform packet) :=
  inferInstanceAs (Decidable (_ = _))

/-- The packets that the connection goes through: the first one that ends the
program is the last of them. -/
def accepted (platform : Platform) : List Bytes -> List Bytes
  | [] => []
  | packet :: packets =>
      if Ends platform packet then
        [packet]
      else
        packet :: accepted platform packets

section Accepted

variable {platform : Platform} {packets others : List Bytes}

theorem accepted_append (h : forall p, p ∈ packets -> ¬ Ends platform p)
    (others : List Bytes) :
    accepted platform (packets ++ others) =
      packets ++ accepted platform others := by
  induction packets with
  | nil => rfl
  | cons p packets ih =>
      rw [List.cons_append, accepted, if_neg (h p List.mem_cons_self),
        ih (fun q hq => h q (List.mem_cons_of_mem p hq)), List.cons_append]

theorem accepted_eq_self (h : forall p, p ∈ packets -> ¬ Ends platform p) :
    accepted platform packets = packets := by
  have happend := accepted_append h []
  rw [List.append_nil, accepted, List.append_nil] at happend
  exact happend

theorem accepted_ends {p : Bytes}
    (h : forall p, p ∈ packets -> ¬ Ends platform p) (hp : Ends platform p) :
    accepted platform (packets ++ p :: others) = packets ++ [p] := by
  rw [accepted_append h, accepted, if_pos hp]

end Accepted

section ReadLoop

variable {platform : Platform} {c d : Connection}

/-- No packet handed on has ended the program, except the last one if the
program has ended. -/
inductive Ended (platform : Platform) (handed : List Bytes) (aborted : Bool) :
    Prop where
  | running : aborted = false ->
      (forall p, p ∈ handed -> ¬ Ends platform p) ->
      Ended platform handed aborted
  | ended {before : List Bytes} {p : Bytes} : aborted = true ->
      handed = before ++ [p] ->
      (forall p, p ∈ before -> ¬ Ends platform p) ->
      Ends platform p -> Ended platform handed aborted

structure Invariant (platform : Platform) (c : Connection) : Prop where
  receiving : Receiving platform c.handed c.aborted c.socket
  ended : Ended platform c.handed c.aborted

theorem invariant_start (memory : Buffer -> Memory) :
    Invariant platform (new memory).start := by
  refine
    { receiving := Receiving.header rfl rfl (At.doReadHeader ?_)
      ended := Ended.running rfl (fun p hp => absurd hp List.not_mem_nil) }
  exact
    { fits := Framing.fits_nil
      reads := rfl
      received := rfl
      holds := trivial }

theorem Ended.append {handed : List Bytes} {p : Bytes}
    (h : Ended platform handed false) (hp : ¬ Ends platform p) :
    Ended platform (handed ++ [p]) false := by
  cases h with
  | running _ hnone =>
      refine Ended.running rfl ?_
      intro q hq
      rcases List.mem_append.mp hq with hq | hq
      · exact hnone q hq
      · rw [List.mem_singleton.mp hq]
        exact hp
  | ended ha _ _ _ => cases ha

theorem Ended.abort {handed : List Bytes} {p : Bytes}
    (h : Ended platform handed false) (hp : Ends platform p) :
    Ended platform (handed ++ [p]) true := by
  cases h with
  | running _ hnone => exact Ended.ended rfl rfl hnone hp
  | ended ha _ _ _ => cases ha

theorem onPacketRead_invariant {answer : Protocol.Payload} {garbage : Memory}
    {bytes : Nat} (haborted : c.aborted = false)
    (hopen : c.socket.closed = false)
    (hat : At platform
      (c.handed ++ [(c.socket.memory Buffer.packet).read 0 bytes])
      (Position.idle []) c.socket)
    (hended : Ended platform c.handed false) :
    Invariant platform (c.onPacketRead platform answer garbage bytes) := by
  unfold onPacketRead
  generalize (c.socket.memory Buffer.packet).read 0 bytes = buffer at hat
  rcases onNewPacket_cases platform answer garbage buffer c with
    ⟨hkind, h⟩ | ⟨hkind, h⟩ | ⟨hkind, _, h⟩
  · -- the assertion fails
    simp only [h, if_true]
    exact
      { receiving := Receiving.aborted rfl hopen hat
        ended := hended.abort hkind }
  · have hnot : ¬ Ends platform buffer := by
      rw [Ends, hkind]
      exact nofun
    simp only [h, haborted, Bool.false_eq_true, if_false]
    refine
      { receiving := Receiving.header rfl ?_ (At.doReadHeader ?_)
        ended := hended.append hnot }
    · exact (Link.sendPacket_closed _ _ _ _ () _).trans hopen
    · exact hat.congr (Link.sendPacket_reads _ _ _ _ () _)
        (Link.sendPacket_received _ _ _ _ () _) (fun _ => trivial)
  · simp only [h, haborted, Bool.false_eq_true, if_false]
    exact
      { receiving := Receiving.header rfl hopen hat.doReadHeader
        ended := hended.append hkind }

theorem step_invariant {e : Event} (hstep : step platform c e = some d)
    (h : Invariant platform c) : Invariant platform d := by
  rcases step_moves hstep with ⟨haborted, hmoves⟩
  cases hmoves with
  | io hs =>
      exact
        { receiving := h.receiving.progress hs
          ended := h.ended }
  | header hs hr =>
      exact
        { receiving := (h.receiving.takeHeader hs hr).right
          ended := h.ended }
  | packet hs hr =>
      rcases h.receiving.takePacket hs hr with ⟨_, hopen, hat⟩
      have hended := h.ended
      rw [haborted] at hended
      exact onPacketRead_invariant haborted hopen hat hended
  | readFail hs =>
      exact
        { receiving := h.receiving.failRead hs
          ended := h.ended }
  | writeDone hs =>
      rcases Socket.takeWrite_eq_some hs with ⟨_, _, rfl⟩
      exact
        { receiving := h.receiving.congr rfl rfl rfl rfl (fun he => he)
            (fun _ hi => hi)
          ended := h.ended }
  | writeFail hs =>
      rcases Socket.failWrite_eq_some hs with ⟨_, _, _, rfl⟩
      exact
        { receiving := h.receiving.congr rfl rfl rfl rfl (fun he => he)
            (fun _ hi => hi)
          ended := h.ended }

theorem onPacketRead_readWork (platform : Platform)
    (answer : Protocol.Payload) (garbage : Memory) (bytes : Nat)
    (c : Connection) :
    Link.readWork (c.onPacketRead platform answer garbage bytes).socket <=
      Link.readWork c.socket + 1 := by
  unfold onPacketRead
  generalize (c.socket.memory Buffer.packet).read 0 bytes = buffer
  have hsame : Link.readWork
      (c.onNewPacket platform answer garbage buffer).socket =
        Link.readWork c.socket := by
    rcases onNewPacket_cases platform answer garbage buffer c with
      ⟨_, h⟩ | ⟨_, h⟩ | ⟨_, _, h⟩
    · rw [h]
    · rw [h]
      exact Link.readWork_sendPacket _ _ _ _ () _
    · rw [h]
  by_cases haborted :
      (c.onNewPacket platform answer garbage buffer).aborted = true
  · simp only [haborted, if_true, hsame]
    exact Nat.le_succ _
  · simp only [haborted, if_false, Bool.false_eq_true]
    exact Nat.le_of_eq ((Link.readWork_doReadHeader _).trans (by rw [hsame]))

theorem step_readWork {e : Event} (he : Reading e)
    (hstep : step platform c e = some d) (h : Invariant platform c) :
    Link.readWork d.socket < Link.readWork c.socket := by
  rcases step_moves hstep with ⟨haborted, hmoves⟩
  cases hmoves with
  | @io e s hs =>
      cases e with
      | readSome count => exact Link.readWork_readSome hs
      | arrive bytes => cases he
      | finish => cases he
      | writeSome index count => cases he
  | header hs hr => exact h.receiving.readWork_header hs hr
  | @packet answer garbage r s hs hr =>
      exact (onPacketRead_readWork platform answer garbage r.size _).trans_lt
        (Link.readWork_packet hs hr)
  | readFail hs => exact Link.readWork_failRead hs
  | writeDone hs => cases he
  | writeFail hs => cases he

theorem quiet_socket (h : (reader platform).Quiet c)
    (haborted : c.aborted = false) : c.socket.Quiet := by
  have hstep : forall e, Reading e -> step platform c e = none := h
  unfold step at hstep
  simp only [haborted, Bool.false_eq_true, if_false] at hstep
  refine ⟨?_, ?_, ?_⟩
  · intro count
    exact Option.map_eq_none_iff.mp
      (hstep (Event.io (IoEvent.readSome count)) trivial)
  · exact Option.map_eq_none_iff.mp
      (hstep (Event.readDone default (fun _ => 0)) trivial)
  · exact Option.map_eq_none_iff.mp (hstep Event.readFail trivial)

theorem handsOn (platform : Platform) (memory : Buffer -> Memory)
    {packets : List Bytes} {rest : Bytes}
    (hpackets : platform.framing.Fits packets)
    (hrest : platform.framing.Stuck rest) :
    (reader platform).HandsOn (new memory).start
      (platform.framing.frames packets ++ rest) (accepted platform packets)
      (platform.framing.Oversized rest ∧
        forall p, p ∈ packets -> ¬ Ends platform p) := by
  refine Reader.handsOn_of_invariant (reader platform)
    (fun c => Link.readWork c.socket) (invariant_start memory)
    step_invariant step_readWork ?_ ?_
  · intro c h harrived
    rcases h.receiving.at with ⟨position, hat⟩
    rcases hat.handed_isPrefix hpackets hrest harrived with ⟨others, rfl⟩
    show List.IsPrefix c.handed _
    cases h.ended with
    | running _ hnone =>
        rw [accepted_append hnone]
        exact List.prefix_append _ _
    | @ended before p _ hhanded hnone hp =>
        exists []
        rw [List.append_nil, hhanded, List.append_assoc,
          List.singleton_append, accepted_ends hnone hp]
  · intro c h harrived hquiet
    show c.handed = _ ∧ (c.socket.closed = true <-> _)
    cases h.ended with
    | running ha hnone =>
        have hreceiving := h.receiving
        rw [ha] at hreceiving
        rcases hreceiving.complete hpackets hrest harrived
          (quiet_socket hquiet ha) with ⟨hall, hclosed⟩
        rw [hall] at hnone
        rw [accepted_eq_self hnone]
        refine ⟨hall, hclosed.trans ?_⟩
        constructor
        · intro hoversized
          exact ⟨hoversized, hnone⟩
        · intro hrefused
          exact hrefused.left
    | @ended before p ha hhanded hnone hp =>
        rcases h.receiving.at with ⟨position, hat⟩
        rcases hat.stream_split hpackets hrest
          ((List.append_nil _).trans harrived) with ⟨others, hsplit, _⟩
        rw [hhanded, List.append_assoc, List.singleton_append] at hsplit
        rw [hsplit, accepted_ends hnone hp]
        constructor
        · exact hhanded
        have hopen : c.socket.closed = false := by
          cases h.receiving with
          | aborted _ hopen _ => exact hopen
          | header hrunning _ _ => exact absurd (ha.symm.trans hrunning) nofun
          | packet hrunning _ _ => exact absurd (ha.symm.trans hrunning) nofun
          | refused hrunning _ _ _ =>
              exact absurd (ha.symm.trans hrunning) nofun
          | exhausted hrunning _ _ _ _ _ =>
              exact absurd (ha.symm.trans hrunning) nofun
        rw [hopen]
        apply iff_of_false Bool.false_ne_true
        intro h
        rcases h with ⟨_, hno⟩
        exact hno p (List.mem_append_right _ List.mem_cons_self) hp

end ReadLoop

end Connection

/-!
## Both read loops
-/

/-- The read loop of a link connection hands on every packet of a stream, that
of a protolink connection every packet up to the first response. -/
theorem readLoops_handOn (platform : Platform) (memory : Buffer -> Memory)
    {packets : List Bytes} {rest : Bytes}
    (hpackets : platform.framing.Fits packets)
    (hrest : platform.framing.Stuck rest) :
    (Link.Connection.reader platform).HandsOn
      (Link.Connection.new memory).start
      (platform.framing.frames packets ++ rest) packets
      (platform.framing.Oversized rest) ∧
    (Connection.reader platform).HandsOn (Connection.new memory).start
      (platform.framing.frames packets ++ rest)
      (Connection.accepted platform packets)
      (platform.framing.Oversized rest ∧
        forall p, p ∈ packets -> ¬ Connection.Ends platform p) :=
  ⟨Link.Connection.handsOn platform memory hpackets hrest,
    Connection.handsOn platform memory hpackets hrest⟩

/-- Two packets, one of them empty, and a header above the limit. -/
theorem readLoops_handOn_oversized :
    (Link.Connection.reader Platform.loopback).HandsOn
      (Link.Connection.new (fun _ _ => 0)).start
      [3, 0, 0, 0, 1, 2, 3, 0, 0, 0, 0, 1, 0, 16, 0, 7] [[1, 2, 3], []]
      (Platform.loopback.framing.Oversized [1, 0, 16, 0, 7]) ∧
    (Connection.reader Platform.loopback).HandsOn
      (Connection.new (fun _ _ => 0)).start
      [3, 0, 0, 0, 1, 2, 3, 0, 0, 0, 0, 1, 0, 16, 0, 7] [[1, 2, 3], []]
      (Platform.loopback.framing.Oversized [1, 0, 16, 0, 7] ∧
        forall p, p ∈ [[1, 2, 3], []] ->
          ¬ Connection.Ends Platform.loopback p) := by
  have hpackets : Platform.loopback.framing.Fits [[1, 2, 3], []] := by
    intro p hp
    rcases List.mem_cons.mp hp with rfl | hp
    · decide
    · rw [List.mem_singleton.mp hp]
      decide
  have hrest : Platform.loopback.framing.Stuck [1, 0, 16, 0, 7] :=
    Or.inr ⟨[1, 0, 16, 0], [7], rfl, rfl, by decide⟩
  exact readLoops_handOn Platform.loopback (fun _ _ => 0) hpackets hrest

/-- A response and an empty packet, of which the second is not handed on. -/
theorem response_ends_readLoop :
    ¬ (Connection.reader Platform.loopback).HandsOn
      (Connection.new (fun _ _ => 0)).start
      (Platform.loopback.framing.frames [[8, 2, 18, 0, 26, 0], []])
      [[8, 2, 18, 0, 26, 0], []]
      (Platform.loopback.framing.Oversized []) := by
  intro h
  let stream : Bytes :=
    Platform.loopback.framing.frames [[8, 2, 18, 0, 26, 0], []]
  let labels : List Connection.Event :=
    [Connection.Event.io (IoEvent.arrive stream),
      Connection.Event.io (IoEvent.readSome 4),
      Connection.Event.readDone Protocol.Payload.notSet (fun _ => 0),
      Connection.Event.io (IoEvent.readSome 6),
      Connection.Event.readDone Protocol.Payload.notSet (fun _ => 0)]
  have hend :
      (Lib.execute (Connection.step Platform.loopback)
        (Connection.new (fun _ _ => 0)).start labels).map
          (fun c => (c.aborted, c.handed, c.socket.arrived)) =
        some (true, [[8, 2, 18, 0, 26, 0]], stream) := by
    decide +kernel
  rcases Option.map_eq_some_iff.mp hend with ⟨c, hexecute, hc⟩
  rw [Prod.mk.injEq, Prod.mk.injEq] at hc
  rcases hc with ⟨haborted, hhanded, harrived⟩
  have hquiet : (Connection.reader Platform.loopback).Quiet c :=
    fun _ _ => Connection.step_eq_none_of_aborted haborted
  have hall := (h labels c (Lib.Run.of_execute hexecute)
    ⟨[], by rw [List.append_nil]; exact harrived⟩).right.left
    harrived hquiet
  have hlength := congrArg List.length (hhanded.symm.trans hall.left)
  exact absurd hlength (by decide)

end Protolink
end Protort
