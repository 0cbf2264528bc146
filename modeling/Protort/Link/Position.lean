import Protort.Link.ReadLoop

/-!
# Where a reader is in the stream

The bytes that a reader has received are the packets it has handed on and a
rest, which its pending reads hold: nothing, a part of a header, a part of a
packet, or the end of a packet and a part of the next header.
-/

namespace Protort
namespace Link

open Lib (Bytes Framing Memory PendingRead Socket IoEvent)

inductive Position where
  | idle (rest : Bytes)
  | header (part : Bytes)
  | packet (size : Nat) (part : Bytes)
  | both (size : Nat) (part next : Bytes)
deriving DecidableEq, Repr

namespace Position

def headerRead (got : Nat) : PendingRead Buffer :=
  { target := Buffer.packetHeader
    size := headerSize
    got := got }

def packetRead (size got : Nat) : PendingRead Buffer :=
  { target := Buffer.packet
    size := size
    got := got }

def reads : Position -> List (PendingRead Buffer)
  | idle _ => []
  | header part => [headerRead part.length]
  | packet size part => [packetRead size part.length]
  | both size part next =>
      [packetRead size part.length, headerRead next.length]

def bytes (framing : Framing) : Position -> Bytes
  | idle rest => rest
  | header part => part
  | packet size part => framing.encode size ++ part
  | both size part next => framing.encode size ++ part ++ next

def HoldsHeader (memory : Buffer -> Memory) (part : Bytes) : Prop :=
  part.length <= headerSize ∧
    (memory Buffer.packetHeader).read 0 part.length = part

def HoldsPacket (memory : Buffer -> Memory) (size : Nat) (part : Bytes) :
    Prop :=
  size <= maxPacketSize ∧ part.length <= size ∧
    (memory Buffer.packet).read 0 part.length = part

def Holds (memory : Buffer -> Memory) : Position -> Prop
  | idle _ => True
  | header part => HoldsHeader memory part
  | packet size part => HoldsPacket memory size part
  | both size part next =>
      HoldsPacket memory size part ∧ HoldsHeader memory next ∧
        (next = [] ∨ part.length = size)

def receive (more : Bytes) : Position -> Position
  | idle rest => idle rest
  | header part => header (part ++ more)
  | packet size part => packet size (part ++ more)
  | both size part next =>
      if part.length < size then
        both size (part ++ more) next
      else
        both size part (next ++ more)

end Position

section Reading

variable {tag : Type}

/-- The reader has handed on some packets and stands at a position. -/
structure At (platform : Platform) (handed : List Bytes) (position : Position)
    (s : Socket Buffer tag) : Prop where
  fits : platform.framing.Fits handed
  reads : s.reads = position.reads
  received : s.received =
    platform.framing.frames handed ++ position.bytes platform.framing
  holds : position.Holds s.memory

variable {platform : Platform} {handed : List Bytes} {position : Position}
  {s t : Socket Buffer tag}

theorem At.congr (h : At platform handed position s)
    (hreads : t.reads = s.reads) (hreceived : t.received = s.received)
    (hholds : position.Holds s.memory -> position.Holds t.memory) :
    At platform handed position t :=
  { fits := h.fits
    reads := hreads.trans h.reads
    received := hreceived.trans h.received
    holds := hholds h.holds }

theorem holdsPacket_store {memory : Buffer -> Memory} {size : Nat}
    {part more : Bytes} (h : Position.HoldsPacket memory size part)
    (hsize : part.length + more.length <= size) :
    Position.HoldsPacket
      (Function.update memory Buffer.packet
        ((memory Buffer.packet).write part.length more))
      size (part ++ more) := by
  rcases h with ⟨hlimit, _, hread⟩
  refine ⟨hlimit, ?_, ?_⟩
  · rw [List.length_append]
    exact hsize
  · rw [Function.update_self, List.length_append]
    have hextend :=
      Memory.read_write_extend (memory Buffer.packet) 0 part.length more
    rw [Nat.zero_add] at hextend
    rw [hextend, hread]

theorem holdsHeader_store {memory : Buffer -> Memory} {part more : Bytes}
    (h : Position.HoldsHeader memory part)
    (hsize : part.length + more.length <= headerSize) :
    Position.HoldsHeader
      (Function.update memory Buffer.packetHeader
        ((memory Buffer.packetHeader).write part.length more))
      (part ++ more) := by
  rcases h with ⟨_, hread⟩
  refine ⟨?_, ?_⟩
  · rw [List.length_append]
    exact hsize
  · rw [Function.update_self, List.length_append]
    have hextend :=
      Memory.read_write_extend (memory Buffer.packetHeader) 0 part.length more
    rw [Nat.zero_add] at hextend
    rw [hextend, hread]

theorem served_cons {r r' : PendingRead Buffer}
    {others : List (PendingRead Buffer)} (hreads : s.reads = r :: others)
    (hserved : s.served = some r') :
    (r.got < r.size ∧ r' = r) ∨
      (¬ r.got < r.size ∧
        others.find? (fun r => decide (r.got < r.size)) = some r') := by
  rw [Socket.served, hreads] at hserved
  by_cases hgot : r.got < r.size
  · simp only [List.find?_cons, hgot, decide_true,
      Option.some.injEq] at hserved
    exact Or.inl ⟨hgot, hserved.symm⟩
  · simp only [List.find?_cons, hgot, decide_false] at hserved
    exact Or.inr ⟨hgot, hserved⟩

theorem At.grow (h : At platform handed position s) {count : Nat}
    (hstep : s.readSome count = some t) {position' : Position}
    (hreads : PendingRead.advance count position.reads = position'.reads)
    (hbytes : position'.bytes platform.framing =
      position.bytes platform.framing ++ s.inbox.take count)
    (hholds : position'.Holds t.memory) :
    At platform handed position' t := by
  rcases Socket.readSome_eq_some hstep with ⟨r, _, _, _, _, _, ht⟩
  have hreads' : t.reads = PendingRead.advance count s.reads := by rw [ht]
  have hreceived : t.received = s.received ++ s.inbox.take count := by
    rw [ht]
  refine
    { fits := h.fits
      reads := ?_
      received := ?_
      holds := hholds }
  · rw [hreads', h.reads, hreads]
  · rw [hreceived, h.received, hbytes, List.append_assoc]

theorem At.readSome (h : At platform handed position s) {count : Nat}
    (hstep : s.readSome count = some t) :
    At platform handed (position.receive (s.inbox.take count)) t := by
  rcases Socket.readSome_eq_some hstep with
    ⟨r, hserved, _, _, hinbox, hsize, ht⟩
  have hlength : (s.inbox.take count).length = count :=
    List.length_take_of_le hinbox
  have hmemory : t.memory = Function.update s.memory r.target
      ((s.memory r.target).write r.got (s.inbox.take count)) := by
    rw [ht]
    rfl
  cases position with
  | idle rest =>
      rw [Socket.served, h.reads] at hserved
      cases hserved
  | header part =>
      rcases served_cons h.reads hserved with ⟨hpart, rfl⟩ | ⟨_, hnone⟩
      · apply h.grow hstep
        · rw [Position.reads, PendingRead.advance, if_pos hpart]
          simp [Position.reads, Position.receive, Position.headerRead, hlength]
        · rfl
        · rw [hmemory]
          apply holdsHeader_store h.holds
          rw [hlength]
          exact hsize
      · cases hnone
  | packet size part =>
      rcases served_cons h.reads hserved with ⟨hpart, rfl⟩ | ⟨_, hnone⟩
      · apply h.grow hstep
        · rw [Position.reads, PendingRead.advance, if_pos hpart]
          simp [Position.reads, Position.receive, Position.packetRead, hlength]
        · simp [Position.bytes, Position.receive]
        · rw [hmemory]
          apply holdsPacket_store h.holds
          rw [hlength]
          exact hsize
      · cases hnone
  | both size part next =>
      rcases h.holds with ⟨hpacket, hheader, hnext⟩
      rcases served_cons h.reads hserved with ⟨hpart, rfl⟩ | ⟨hfull, hserved⟩
      · -- the packet is not complete, so no byte of a header has come
        have hempty : next = [] := by
          rcases hnext with hempty | hcomplete
          · exact hempty
          · have hlt : part.length < size := hpart
            omega
        subst next
        have hreceive : (Position.both size part []).receive
            (s.inbox.take count) =
              Position.both size (part ++ s.inbox.take count) [] :=
          if_pos hpart
        rw [hreceive]
        apply h.grow hstep
        · rw [Position.reads, PendingRead.advance, if_pos hpart]
          simp [Position.reads, Position.packetRead, hlength]
        · simp [Position.bytes]
        · rw [hmemory]
          refine ⟨?_, ⟨Nat.zero_le _, rfl⟩, Or.inl rfl⟩
          apply holdsPacket_store hpacket
          rw [hlength]
          exact hsize
      · have hcomplete : part.length = size :=
          Nat.le_antisymm hpacket.right.left (Nat.not_lt.mp hfull)
        have hreceive : (Position.both size part next).receive
            (s.inbox.take count) =
              Position.both size part (next ++ s.inbox.take count) :=
          if_neg hfull
        rw [hreceive]
        by_cases hpart : next.length < headerSize
        · have hr : Position.headerRead next.length = r := by
            simpa [Position.headerRead, hpart] using hserved
          subst r
          apply h.grow hstep
          · rw [Position.reads, PendingRead.advance, if_neg hfull]
            simp [Position.reads, Position.headerRead, PendingRead.advance,
              hpart, hlength]
          · simp [Position.bytes]
          · rw [hmemory]
            refine ⟨hpacket, ?_, Or.inr hcomplete⟩
            apply holdsHeader_store hheader
            rw [hlength]
            exact hsize
        · simp [Position.headerRead, hpart] at hserved

/-- Whatever happens to the socket, the reader stays where it is or takes some
bytes. -/
theorem At.progress (h : At platform handed position s) {e : IoEvent}
    (hstep : s.progress e = some t) :
    exists more, At platform handed (position.receive more) t ∨
      At platform handed position t := by
  cases e with
  | arrive bytes =>
      simp only [Socket.progress, Option.ite_none_left_eq_some,
        Option.some.injEq] at hstep
      rw [← hstep.right]
      exact ⟨[], Or.inr (h.congr rfl rfl (fun hholds => hholds))⟩
  | finish =>
      simp only [Socket.progress, Option.some.injEq] at hstep
      rw [← hstep]
      exact ⟨[], Or.inr (h.congr rfl rfl (fun hholds => hholds))⟩
  | readSome count =>
      exact ⟨s.inbox.take count, Or.inl (h.readSome hstep)⟩
  | writeSome index count =>
      rcases Socket.writeSome_eq_some hstep with ⟨_, _, _, _, _, rfl⟩
      exact ⟨[], Or.inr (h.congr rfl rfl (fun hholds => hholds))⟩

/-- Putting a packet together does no harm to a reader that has no part of a
packet in the buffer. -/
theorem At.sendPacket (h : At platform handed position s) (capacity : Nat)
    (garbage : Memory) (packet : Bytes) (x : tag)
    (hempty : forall r, r ∈ s.reads -> r.target = Buffer.packet ->
      r.got = 0) :
    At platform handed position
      (sendPacket platform capacity garbage packet x s) := by
  refine h.congr (sendPacket_reads _ _ _ _ _ _)
    (sendPacket_received _ _ _ _ _ _) ?_
  have hheader := sendPacket_packetHeader platform capacity garbage packet x s
  have hpart : forall {size : Nat} {part : Bytes},
      Position.packetRead size part.length ∈ s.reads -> part = [] :=
    fun hmem => List.length_eq_zero_iff.mp (hempty _ hmem rfl)
  intro hholds
  cases position with
  | idle rest => trivial
  | header part =>
      rw [Position.Holds, Position.HoldsHeader, hheader]
      exact hholds
  | packet size part =>
      have hnil : part = [] :=
        hpart (by rw [h.reads]; exact List.mem_cons_self)
      subst part
      exact ⟨hholds.left, Nat.zero_le _, rfl⟩
  | both size part next =>
      have hnil : part = [] :=
        hpart (by rw [h.reads]; exact List.mem_cons_self)
      subst part
      rcases hholds with ⟨hpacket, hnext, hfull⟩
      refine ⟨⟨hpacket.left, Nat.zero_le _, rfl⟩, ?_, hfull⟩
      rw [Position.HoldsHeader, hheader]
      exact hnext

theorem At.doReadHeader (h : At platform handed (Position.idle []) s) :
    At platform handed (Position.header []) (doReadHeader s) := by
  refine
    { fits := h.fits
      reads := ?_
      received := h.received
      holds := ⟨Nat.zero_le _, rfl⟩ }
  show s.reads ++ _ = _
  rw [h.reads]
  rfl

theorem At.startHeader (h : At platform handed position s)
    (hidle : forall rest, position = Position.idle rest -> rest = [])
    (hnone : forall r, r ∈ s.reads -> r.target ≠ Buffer.packetHeader) :
    exists position', At platform handed position' (Link.doReadHeader s) ∧
      forall rest, position' ≠ Position.idle rest := by
  cases position with
  | idle rest =>
      have hrest := hidle rest rfl
      subst rest
      exact ⟨Position.header [], h.doReadHeader, nofun⟩
  | header part =>
      refine absurd rfl (hnone (Position.headerRead part.length) ?_)
      rw [h.reads]
      exact List.mem_cons_self
  | packet size part =>
      refine ⟨Position.both size part [], ?_, nofun⟩
      refine
        { fits := h.fits
          reads := ?_
          received := ?_
          holds := ⟨h.holds, ⟨Nat.zero_le _, rfl⟩, Or.inl rfl⟩ }
      · show s.reads ++ _ = _
        rw [h.reads]
        rfl
      · show s.received = _
        rw [h.received]
        simp [Position.bytes]
  | both size part next =>
      refine absurd rfl (hnone (Position.headerRead next.length) ?_)
      rw [h.reads]
      exact List.mem_cons_of_mem _ List.mem_cons_self

/-!
## Completed reads
-/

theorem At.takeHeader {part : Bytes}
    (h : At platform handed (Position.header part) s)
    {r : PendingRead Buffer} (hstep : s.takeRead = some (r, t)) :
    r = Position.headerRead headerSize ∧ part.length = headerSize ∧
      packetSize platform t = platform.framing.decode part ∧
      At platform handed (Position.idle part) t := by
  rcases Socket.takeRead_eq_some hstep with ⟨hgot, hreads, ht⟩
  rw [h.reads, Position.reads, List.cons.injEq] at hreads
  rcases hreads with ⟨rfl, hnil⟩
  have hlength : part.length = headerSize := hgot
  have hmemory : t.memory = s.memory := by rw [ht]
  refine ⟨by rw [hlength], hlength, ?_, ?_⟩
  · have hread := h.holds.right
    rw [hlength] at hread
    rw [packetSize, hmemory, hread]
  · refine
      { fits := h.fits
        reads := hnil.symm
        received := ?_
        holds := trivial }
    rw [ht]
    exact h.received

theorem At.onHeaderRead_refused {part : Bytes}
    (h : At platform handed (Position.idle part) s)
    (hsize : maxPacketSize < packetSize platform s) :
    (onHeaderRead platform s).closed = true ∧
      At platform handed (Position.idle part) (onHeaderRead platform s) := by
  rw [onHeaderRead, if_pos hsize]
  exact ⟨rfl, h.congr rfl rfl (fun hholds => hholds)⟩

theorem At.onHeaderRead_accepted {part : Bytes}
    (h : At platform handed (Position.idle part) s)
    (hpart : part.length = headerSize)
    (hdecode : packetSize platform s = platform.framing.decode part)
    (hsize : packetSize platform s <= maxPacketSize) :
    At platform handed (Position.packet (packetSize platform s) [])
      (onHeaderRead platform s) := by
  rw [onHeaderRead, if_neg (by omega)]
  refine
    { fits := h.fits
      reads := ?_
      received := ?_
      holds := ⟨hsize, Nat.zero_le _, rfl⟩ }
  · show s.reads ++ _ = _
    rw [h.reads]
    rfl
  · show s.received = _
    rw [h.received, hdecode, Position.bytes, Position.bytes,
      platform.framing.encode_decode part hpart, List.append_nil]

theorem At.handOn (h : At platform handed position s)
    {r : PendingRead Buffer} (hstep : s.takeRead = some (r, t))
    {size : Nat} {part : Bytes} {others : Position}
    (hreads : position.reads =
      Position.packetRead size part.length :: others.reads)
    (hbytes : position.bytes platform.framing =
      platform.framing.encode size ++ part ++ others.bytes platform.framing)
    (hpacket : Position.HoldsPacket s.memory size part)
    (hothers : others.Holds s.memory) :
    r.target = Buffer.packet ∧
      (t.memory Buffer.packet).read 0 r.size = part ∧
      At platform (handed ++ [part]) others t := by
  rcases Socket.takeRead_eq_some hstep with ⟨hgot, hpending, ht⟩
  rw [h.reads, hreads, List.cons.injEq] at hpending
  rcases hpending with ⟨rfl, hrest⟩
  have hlength : part.length = size := hgot
  subst size
  have hmemory : t.memory = s.memory := by rw [ht]
  have hreceived : t.received = s.received := by rw [ht]
  refine ⟨rfl, ?_, ?_⟩
  · rw [hmemory]
    exact hpacket.right.right
  · refine
      { fits := ?_
        reads := hrest.symm
        received := ?_
        holds := ?_ }
    · refine Framing.fits_append.mpr ⟨h.fits, ?_⟩
      intro packet hmem
      rw [List.mem_singleton.mp hmem]
      exact hpacket.left
    · rw [hreceived, h.received, hbytes, Framing.frames_snoc]
    · rw [hmemory]
      exact hothers

theorem At.takePacket {size : Nat} {part : Bytes}
    (h : At platform handed (Position.packet size part) s)
    {r : PendingRead Buffer} (hstep : s.takeRead = some (r, t)) :
    r.target = Buffer.packet ∧
      (t.memory Buffer.packet).read 0 r.size = part ∧
      At platform (handed ++ [part]) (Position.idle []) t :=
  h.handOn hstep rfl (List.append_nil _).symm h.holds trivial

theorem At.takeBoth {size : Nat} {part next : Bytes}
    (h : At platform handed (Position.both size part next) s)
    {r : PendingRead Buffer} (hstep : s.takeRead = some (r, t)) :
    r.target = Buffer.packet ∧
      (t.memory Buffer.packet).read 0 r.size = part ∧
      At platform (handed ++ [part]) (Position.header next) t :=
  h.handOn hstep rfl rfl h.holds.left h.holds.right.left

/-!
## What the position says about the stream
-/

/-- A position at which bytes are missing for the next packet. -/
def Position.Waits (position : Position) : Prop :=
  match position with
  | Position.idle _ => False
  | Position.header part => part.length < headerSize
  | Position.packet size part => part.length < size
  | Position.both size part _ => part.length < size

theorem Position.incomplete {memory : Buffer -> Memory}
    (hwaits : position.Waits) (hholds : position.Holds memory) :
    platform.framing.Incomplete (position.bytes platform.framing) := by
  cases position with
  | idle rest => cases hwaits
  | header part => exact Framing.Incomplete.header hwaits
  | packet size part => exact Framing.Incomplete.packet hholds.left hwaits
  | both size part next =>
      rcases hholds with ⟨hpacket, _, hnext⟩
      have hempty : next = [] := by
        rcases hnext with hempty | hfull
        · exact hempty
        · have hpart : part.length < size := hwaits
          omega
      subst next
      rw [Position.bytes, List.append_nil]
      exact Framing.Incomplete.packet hpacket.left hwaits

section Streams

variable {packets : List Bytes} {rest : Bytes}

/-- The packets handed on are the first ones of the stream. -/
theorem At.stream_split (h : At platform handed position s)
    (hpackets : platform.framing.Fits packets)
    (hrest : platform.framing.Stuck rest) {later : Bytes}
    (harrived : s.arrived ++ later =
      platform.framing.frames packets ++ rest) :
    exists others, packets = handed ++ others ∧
      position.bytes platform.framing ++ (s.inbox ++ later) =
        platform.framing.frames others ++ rest := by
  refine Framing.frames_append_eq h.fits hpackets hrest ?_
  rw [← harrived, Socket.arrived, h.received]
  simp only [List.append_assoc]

theorem At.handed_isPrefix (h : At platform handed position s)
    (hpackets : platform.framing.Fits packets)
    (hrest : platform.framing.Stuck rest)
    (harrived : List.IsPrefix s.arrived
      (platform.framing.frames packets ++ rest)) :
    List.IsPrefix handed packets := by
  rcases harrived with ⟨later, hlater⟩
  rcases h.stream_split hpackets hrest hlater with ⟨others, hsplit, _⟩
  exact ⟨others, hsplit.symm⟩

theorem At.handed_all (h : At platform handed position s)
    (hpackets : platform.framing.Fits packets)
    (hrest : platform.framing.Stuck rest)
    (harrived : s.arrived = platform.framing.frames packets ++ rest)
    (hstuck : platform.framing.Stuck
      (position.bytes platform.framing ++ s.inbox)) :
    handed = packets ∧ position.bytes platform.framing ++ s.inbox = rest := by
  refine Framing.frames_append_eq_of_stuck h.fits hpackets hrest hstuck ?_
  rw [← harrived, Socket.arrived, h.received, List.append_assoc]

end Streams

end Reading

end Link
end Protort
