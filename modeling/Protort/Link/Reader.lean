import Protort.Lib.Runs
import Protort.Link.Position

/-!
# Readers that never stop of their own accord

A connection always has one read pending, for a header or for a packet, until
a header is refused, the stream is over, or the packet it handed on stopped the
program.
-/

namespace Protort
namespace Link

open Lib (Bytes Framing Memory PendingRead Socket IoEvent)

section Receiving

variable {tag : Type}

inductive Receiving (platform : Platform) (handed : List Bytes)
    (aborted : Bool) (s : Socket Buffer tag) : Prop where
  | header {part : Bytes} : aborted = false -> s.closed = false ->
      At platform handed (Position.header part) s ->
      Receiving platform handed aborted s
  | packet {size : Nat} {part : Bytes} : aborted = false ->
      s.closed = false -> At platform handed (Position.packet size part) s ->
      Receiving platform handed aborted s
  | refused {part : Bytes} : aborted = false -> s.closed = true ->
      platform.framing.Oversized part ->
      At platform handed (Position.idle part) s ->
      Receiving platform handed aborted s
  | exhausted {rest : Bytes} : aborted = false -> s.closed = false ->
      s.ended = true -> s.inbox = [] -> platform.framing.Incomplete rest ->
      At platform handed (Position.idle rest) s ->
      Receiving platform handed aborted s
  | aborted : aborted = true -> s.closed = false ->
      At platform handed (Position.idle []) s ->
      Receiving platform handed aborted s

variable {platform : Platform} {handed : List Bytes} {aborted : Bool}
  {s t : Socket Buffer tag}

theorem Receiving.at (h : Receiving platform handed aborted s) :
    exists position, At platform handed position s := by
  cases h with
  | header _ _ h => exact ⟨_, h⟩
  | packet _ _ h => exact ⟨_, h⟩
  | refused _ _ _ h => exact ⟨_, h⟩
  | exhausted _ _ _ _ _ h => exact ⟨_, h⟩
  | aborted _ _ h => exact ⟨_, h⟩

theorem Receiving.congr (h : Receiving platform handed aborted s)
    (hreads : t.reads = s.reads) (hreceived : t.received = s.received)
    (hmemory : t.memory = s.memory) (hclosed : t.closed = s.closed)
    (hended : s.ended = true -> t.ended = true)
    (hinbox : s.ended = true -> s.inbox = [] -> t.inbox = []) :
    Receiving platform handed aborted t := by
  have hat : forall {position}, At platform handed position s ->
      At platform handed position t := by
    intro position hat
    refine hat.congr hreads hreceived ?_
    rw [hmemory]
    exact fun hholds => hholds
  cases h with
  | header ha hc h => exact Receiving.header ha (hclosed.trans hc) (hat h)
  | packet ha hc h => exact Receiving.packet ha (hclosed.trans hc) (hat h)
  | refused ha hc hpart h =>
      exact Receiving.refused ha (hclosed.trans hc) hpart (hat h)
  | exhausted ha hc he hi hrest h =>
      exact Receiving.exhausted ha (hclosed.trans hc) (hended he) (hinbox he hi)
        hrest (hat h)
  | aborted ha hc h => exact Receiving.aborted ha (hclosed.trans hc) (hat h)

theorem Receiving.readSome (h : Receiving platform handed aborted s)
    {count : Nat} (hstep : s.readSome count = some t) :
    Receiving platform handed aborted t := by
  have hclosed : t.closed = s.closed := by
    rcases Socket.readSome_eq_some hstep with ⟨_, _, _, _, _, _, rfl⟩
    rfl
  have hidle : forall {rest}, At platform handed (Position.idle rest) s ->
      Receiving platform handed aborted t := by
    intro rest hat
    rcases Socket.readSome_eq_some hstep with ⟨_, hserved, _⟩
    rw [Socket.served, hat.reads] at hserved
    cases hserved
  cases h with
  | header ha hc h =>
      exact Receiving.header ha (hclosed.trans hc) (h.readSome hstep)
  | packet ha hc h =>
      exact Receiving.packet ha (hclosed.trans hc) (h.readSome hstep)
  | refused _ _ _ h => exact hidle h
  | exhausted _ _ _ _ _ h => exact hidle h
  | aborted _ _ h => exact hidle h

theorem Receiving.progress (h : Receiving platform handed aborted s)
    {e : IoEvent} (hstep : s.progress e = some t) :
    Receiving platform handed aborted t := by
  cases e with
  | arrive bytes =>
      simp only [Socket.progress, Option.ite_none_left_eq_some,
        Option.some.injEq] at hstep
      rcases hstep with ⟨hended, rfl⟩
      exact h.congr rfl rfl rfl rfl (fun he => he)
        (fun he => absurd he hended)
  | finish =>
      simp only [Socket.progress, Option.some.injEq] at hstep
      subst t
      exact h.congr rfl rfl rfl rfl (fun _ => rfl) (fun _ hi => hi)
  | readSome count => exact h.readSome hstep
  | writeSome index count =>
      rcases Socket.writeSome_eq_some hstep with ⟨_, _, _, _, _, rfl⟩
      exact h.congr rfl rfl rfl rfl (fun he => he) (fun _ hi => hi)

/-- The only read that can fail is one that waits at the end of the stream. -/
theorem Receiving.failRead (h : Receiving platform handed aborted s)
    (hstep : s.failRead = some t) : Receiving platform handed aborted t := by
  rcases Socket.failRead_eq_some hstep with ⟨r, hgot, hfail, hreads, ht⟩
  have hidle : forall {rest}, At platform handed (Position.idle rest) s ->
      Receiving platform handed aborted t := by
    intro rest hat
    rw [hat.reads] at hreads
    cases hreads
  have hover : forall {position : Position}, aborted = false ->
      s.closed = false -> At platform handed position s ->
      position.Waits -> t.reads = [] ->
      Receiving platform handed aborted t := by
    intro position ha hc hat hwaits hnil
    rcases hfail with hfail | ⟨hended, hinbox⟩
    · rw [hc] at hfail
      cases hfail
    · have hat' : At platform handed
          (Position.idle (position.bytes platform.framing)) t := by
        refine
          { fits := hat.fits
            reads := hnil
            received := ?_
            holds := trivial }
        rw [ht]
        exact hat.received
      rw [ht] at hat' ⊢
      exact Receiving.exhausted ha hc hended hinbox
        (Position.incomplete hwaits hat.holds) hat'
  cases h with
  | header ha hc h =>
      rw [h.reads, Position.reads, List.cons.injEq] at hreads
      rcases hreads with ⟨rfl, hnil⟩
      exact hover ha hc h hgot hnil.symm
  | packet ha hc h =>
      rw [h.reads, Position.reads, List.cons.injEq] at hreads
      rcases hreads with ⟨rfl, hnil⟩
      exact hover ha hc h hgot hnil.symm
  | refused _ _ _ h => exact hidle h
  | exhausted _ _ _ _ _ h => exact hidle h
  | aborted _ _ h => exact hidle h

theorem Receiving.takeHeader (h : Receiving platform handed aborted s)
    {r : PendingRead Buffer} (hstep : s.takeRead = some (r, t))
    (hr : r.target = Buffer.packetHeader) :
    r = Position.headerRead headerSize ∧
      Receiving platform handed aborted (onHeaderRead platform t) := by
  have hclosed : t.closed = s.closed := by
    rw [(Socket.takeRead_eq_some hstep).right.right]
  have hidle : forall {rest},
      ¬ At platform handed (Position.idle rest) s := by
    intro rest hat
    have hreads := (Socket.takeRead_eq_some hstep).right.left
    rw [hat.reads] at hreads
    cases hreads
  cases h with
  | @header part ha hc h =>
      rcases h.takeHeader hstep with ⟨hr, hlength, hdecode, hat⟩
      constructor
      · exact hr
      by_cases hsize : maxPacketSize < packetSize platform t
      · rcases hat.onHeaderRead_refused hsize with ⟨hrefused, hat'⟩
        refine Receiving.refused ha hrefused ?_ hat'
        rw [hdecode] at hsize
        exact ⟨part, [], (List.append_nil part).symm, hlength, hsize⟩
      · have hat' := hat.onHeaderRead_accepted hlength hdecode (by omega)
        refine Receiving.packet ha ?_ hat'
        rw [onHeaderRead, if_neg hsize]
        exact hclosed.trans hc
  | packet _ _ h =>
      rw [(h.takePacket hstep).left] at hr
      cases hr
  | refused _ _ _ h => exact absurd h hidle
  | exhausted _ _ _ _ _ h => exact absurd h hidle
  | aborted _ _ h => exact absurd h hidle

theorem Receiving.takePacket (h : Receiving platform handed aborted s)
    {r : PendingRead Buffer} (hstep : s.takeRead = some (r, t))
    (hr : r.target = Buffer.packet) :
    aborted = false ∧ t.closed = false ∧
      At platform (handed ++ [(t.memory Buffer.packet).read 0 r.size])
        (Position.idle []) t := by
  have hclosed : t.closed = s.closed := by
    rw [(Socket.takeRead_eq_some hstep).right.right]
  have hidle : forall {rest}, ¬ At platform handed (Position.idle rest) s := by
    intro rest hat
    have hreads := (Socket.takeRead_eq_some hstep).right.left
    rw [hat.reads] at hreads
    cases hreads
  cases h with
  | header _ _ h =>
      rw [(h.takeHeader hstep).left] at hr
      cases hr
  | packet ha hc h =>
      rcases h.takePacket hstep with ⟨_, hread, hat⟩
      rw [hread]
      exact ⟨ha, hclosed.trans hc, hat⟩
  | refused _ _ _ h => exact absurd h hidle
  | exhausted _ _ _ _ _ h => exact absurd h hidle
  | aborted _ _ h => exact absurd h hidle

/-!
## Quiet sockets

A socket is quiet when its pending reads can neither go on nor complete.
-/

theorem At.inbox_of_quiet {position : Position}
    (h : At platform handed position s) (hopen : s.closed = false)
    (hreads : position.reads ≠ []) (hquiet : s.Quiet) :
    position.Waits ∧ s.inbox = [] := by
  have hwaits : position.Waits ∧ exists r, s.served = some r := by
    cases position with
    | idle rest => exact absurd rfl hreads
    | header part =>
        have hlt : part.length < headerSize :=
          hquiet.got_lt h.reads h.holds.left
        refine ⟨hlt, Position.headerRead part.length, ?_⟩
        rw [Socket.served, h.reads]
        exact List.find?_cons_of_pos (decide_eq_true hlt)
    | packet size part =>
        have hlt : part.length < size :=
          hquiet.got_lt h.reads h.holds.right.left
        refine ⟨hlt, Position.packetRead size part.length, ?_⟩
        rw [Socket.served, h.reads]
        exact List.find?_cons_of_pos (decide_eq_true hlt)
    | both size part next =>
        have hlt : part.length < size :=
          hquiet.got_lt h.reads h.holds.left.right.left
        refine ⟨hlt, Position.packetRead size part.length, ?_⟩
        rw [Socket.served, h.reads]
        exact List.find?_cons_of_pos (decide_eq_true hlt)
  rcases hwaits with ⟨hwaits, r, hserved⟩
  exact ⟨hwaits, hquiet.inbox hopen hserved⟩

/-- What a receiver has done when nothing more can happen: it handed on every
packet of the stream, and it closed the socket when a refused header follows. -/
theorem Receiving.complete (h : Receiving platform handed false s)
    {packets : List Bytes} {rest : Bytes}
    (hpackets : platform.framing.Fits packets)
    (hrest : platform.framing.Stuck rest)
    (harrived : s.arrived = platform.framing.frames packets ++ rest)
    (hquiet : s.Quiet) :
    handed = packets ∧
      (s.closed = true <-> platform.framing.Oversized rest) := by
  have hwaiting : forall {position}, s.closed = false ->
      At platform handed position s -> position.reads ≠ [] ->
      handed = packets ∧
        (s.closed = true <-> platform.framing.Oversized rest) := by
    intro position hopen hat hreads
    rcases hat.inbox_of_quiet hopen hreads hquiet with ⟨hwaits, hinbox⟩
    have hincomplete : platform.framing.Incomplete
        (position.bytes platform.framing ++ s.inbox) := by
      rw [hinbox, List.append_nil]
      exact Position.incomplete hwaits hat.holds
    rcases hat.handed_all hpackets hrest harrived (Or.inl hincomplete) with
      ⟨hall, hend⟩
    rw [hend] at hincomplete
    constructor
    · exact hall
    rw [hopen]
    exact iff_of_false Bool.false_ne_true
      (Framing.not_oversized_of_incomplete hincomplete)
  cases h with
  | header _ hopen hat =>
      exact hwaiting hopen hat (List.cons_ne_nil _ _)
  | packet _ hopen hat =>
      exact hwaiting hopen hat (List.cons_ne_nil _ _)
  | refused _ hclosed hpart hat =>
      have hoversized := hpart.append s.inbox
      rcases hat.handed_all hpackets hrest harrived (Or.inr hoversized) with
        ⟨hall, hend⟩
      rw [Position.bytes] at hend
      rw [hend] at hoversized
      exact ⟨hall, iff_of_true hclosed hoversized⟩
  | @exhausted part _ hopen _ hinbox hover hat =>
      have hincomplete : platform.framing.Incomplete (part ++ s.inbox) := by
        rw [hinbox, List.append_nil]
        exact hover
      rcases hat.handed_all hpackets hrest harrived (Or.inl hincomplete) with
        ⟨hall, hend⟩
      rw [Position.bytes] at hend
      rw [hend] at hincomplete
      constructor
      · exact hall
      rw [hopen]
      exact iff_of_false Bool.false_ne_true
        (Framing.not_oversized_of_incomplete hincomplete)
  | aborted ha _ _ => cases ha

/-!
## How long the reading goes on

Each byte that waits is taken once, and each packet needs a header.
-/

def readWeight (r : PendingRead Buffer) : Nat :=
  match r.target with
  | Buffer.packetHeader => 1 + r.got
  | Buffer.packet => 2 + r.got

/-- A bound for what the reads can still do with the bytes that wait. -/
def readWork (s : Socket Buffer tag) : Nat :=
  2 * s.inbox.length + (s.reads.map readWeight).sum

theorem sum_advance {count : Nat} {reads : List (PendingRead Buffer)}
    {r : PendingRead Buffer}
    (h : reads.find? (fun r => decide (r.got < r.size)) = some r) :
    ((PendingRead.advance count reads).map readWeight).sum =
      (reads.map readWeight).sum + count := by
  induction reads with
  | nil => cases h
  | cons r' others ih =>
      rw [PendingRead.advance]
      by_cases hgot : r'.got < r'.size
      · rw [if_pos hgot]
        cases htarget : r'.target <;>
          simp [readWeight, htarget] <;> omega
      · rw [if_neg hgot]
        rw [List.find?_cons_of_neg (by simpa using hgot)] at h
        simp only [List.map_cons, List.sum_cons, ih h]
        omega

theorem readWork_readSome {count : Nat}
    (h : s.readSome count = some t) : readWork t < readWork s := by
  rcases Socket.readSome_eq_some h with
    ⟨r, hserved, _, hcount, hinbox, _, rfl⟩
  unfold readWork
  simp only [List.length_drop]
  rw [sum_advance hserved]
  omega

theorem readWork_failRead (h : s.failRead = some t) :
    readWork t < readWork s := by
  rcases Socket.failRead_eq_some h with ⟨r, _, _, hreads, ht⟩
  have hinbox : t.inbox = s.inbox := by rw [ht]
  unfold readWork
  rw [hreads, hinbox, List.map_cons, List.sum_cons]
  have hweight : 0 < readWeight r := by
    cases htarget : r.target <;> simp [readWeight, htarget]
  omega

theorem readWork_takeRead {r : PendingRead Buffer}
    (h : s.takeRead = some (r, t)) :
    readWork s = readWork t + readWeight r := by
  rcases Socket.takeRead_eq_some h with ⟨_, hreads, ht⟩
  have hinbox : t.inbox = s.inbox := by rw [ht]
  unfold readWork
  rw [hreads, hinbox, List.map_cons, List.sum_cons]
  omega

theorem readWork_doReadHeader (s : Socket Buffer tag) :
    readWork (doReadHeader s) = readWork s + 1 := by
  simp [readWork, doReadHeader, Socket.asyncRead, readWeight]
  omega

theorem readWork_sendPacket (platform : Platform) (capacity : Nat)
    (garbage : Memory) (packet : Bytes) (x : tag) (s : Socket Buffer tag) :
    readWork (sendPacket platform capacity garbage packet x s) =
      readWork s := by
  simp [readWork]

theorem readWork_onHeaderRead_le (platform : Platform)
    (s : Socket Buffer tag) :
    readWork (onHeaderRead platform s) <= readWork s + 2 := by
  unfold onHeaderRead
  by_cases hsize : packetSize platform s > maxPacketSize
  · rw [if_pos hsize]
    exact Nat.le_add_right _ 2
  · rw [if_neg hsize]
    simp [readWork, doReadPacket, Socket.asyncRead, readWeight]
    omega

theorem Receiving.readWork_header (h : Receiving platform handed aborted s)
    {r : PendingRead Buffer} (hstep : s.takeRead = some (r, t))
    (hr : r.target = Buffer.packetHeader) :
    readWork (onHeaderRead platform t) < readWork s := by
  have hsum := readWork_takeRead hstep
  have hweight : readWeight r = 5 := by
    rw [(h.takeHeader hstep hr).left]
    rfl
  have hle := readWork_onHeaderRead_le platform t
  omega

theorem readWork_packet {r : PendingRead Buffer}
    (hstep : s.takeRead = some (r, t)) (hr : r.target = Buffer.packet) :
    readWork t + 1 < readWork s := by
  have hsum := readWork_takeRead hstep
  have hweight : 2 <= readWeight r := by
    rw [readWeight, hr]
    exact Nat.le_add_right 2 r.got
  omega

end Receiving

/-!
## Readers

A reader of a stream is a system whose states say which packets were handed on.
-/

structure Reader (state label : Type) where
  step : state -> label -> Option state
  /-- The steps that let its reads go on. -/
  reading : label -> Prop
  arrived : state -> Bytes
  handed : state -> List Bytes
  closed : state -> Bool

namespace Reader

variable {state label : Type} (reader : Reader state label)

def Quiet (s : state) : Prop :=
  forall a, reader.reading a -> reader.step s a = none

/-- In whatever chunks a stream arrives, the packets are handed on in order.
When the whole stream has arrived and no read can go on, all of them have been
handed on, and the socket is closed exactly when it has to be.  From any state
the reads come to such an end. -/
def HandsOn (start : state) (stream : Bytes) (packets : List Bytes)
    (refused : Prop) : Prop :=
  forall labels s, Lib.Run (Lib.Steps reader.step) start labels s ->
    List.IsPrefix (reader.arrived s) stream ->
    List.IsPrefix (reader.handed s) packets ∧
      (reader.arrived s = stream -> reader.Quiet s ->
        reader.handed s = packets ∧ (reader.closed s = true <-> refused)) ∧
      exists labels' s', Lib.Run (Lib.Steps reader.step) s labels' s' ∧
        (forall a, a ∈ labels' -> reader.reading a) ∧ reader.Quiet s'

/-- A reader that keeps an invariant and does less and less work. -/
theorem handsOn_of_invariant {start : state} {stream : Bytes}
    {packets : List Bytes} {refused : Prop} {Inv : state -> Prop}
    (measure : state -> Nat) (hstart : Inv start)
    (hinv : forall {s a t}, reader.step s a = some t -> Inv s -> Inv t)
    (hmeasure : forall {s a t}, reader.reading a -> reader.step s a = some t ->
      Inv s -> measure t < measure s)
    (hfirst : forall {s}, Inv s -> List.IsPrefix (reader.arrived s) stream ->
      List.IsPrefix (reader.handed s) packets)
    (hall : forall {s}, Inv s -> reader.arrived s = stream ->
      reader.Quiet s -> reader.handed s = packets ∧
        (reader.closed s = true <-> refused)) :
    reader.HandsOn start stream packets refused := by
  intro labels s hrun harrived
  have hs : Inv s :=
    hrun.invariant (fun hstep h => hinv hstep h) hstart
  constructor
  · exact hfirst hs harrived
  constructor
  · exact fun heq hquiet => hall hs heq hquiet
  have hend : exists labels' s',
      Lib.Run (Lib.Steps reader.step) s labels' s' ∧
        (forall a, a ∈ labels' -> reader.reading a) ∧
        forall a u, reader.reading a -> ¬ Lib.Steps reader.step s' a u :=
    @Lib.Run.exists_terminal _ _ (Lib.Steps reader.step) Inv reader.reading
      measure (fun hstep h => hinv hstep h)
      (fun ha hstep h => hmeasure ha hstep h) s hs
  rcases hend with ⟨labels', s', hrun', hreading, hterminal⟩
  exists labels'
  exists s'
  constructor
  · exact hrun'
  constructor
  · exact hreading
  intro a ha
  cases hstep : reader.step s' a with
  | none => rfl
  | some u => exact absurd hstep (hterminal a u ha)

end Reader

end Link
end Protort
