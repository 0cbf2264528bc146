import Protort.Lib.Bytes

/-!
# Length-prefix framing

A packet travels as a header of a fixed size that holds the length of the
packet, followed by its bytes.  A framing says how the header is written and
read, and which lengths a receiver accepts.  A stream determines the packets at
its beginning: they can be read off in only one way, and what is left is either
too short to hold one more packet or begins with a header that is refused.
-/

namespace Protort
namespace Lib

structure Framing where
  headerSize : Nat
  /-- The greatest length that is accepted. -/
  limit : Nat
  encode : Nat -> Bytes
  decode : Bytes -> Nat
  length_encode : forall n, (encode n).length = headerSize
  decode_encode : forall n, n <= limit -> decode (encode n) = n
  encode_decode : forall header, header.length = headerSize ->
    encode (decode header) = header

namespace Framing

variable (framing : Framing)

def frame (packet : Bytes) : Bytes :=
  framing.encode packet.length ++ packet

def frames (packets : List Bytes) : Bytes :=
  packets.flatMap framing.frame

def Fits (packets : List Bytes) : Prop :=
  forall packet, packet ∈ packets -> packet.length <= framing.limit

def Oversized (stream : Bytes) : Prop :=
  exists header tail, stream = header ++ tail ∧
    header.length = framing.headerSize ∧ framing.limit < framing.decode header

inductive Incomplete : Bytes -> Prop where
  | header {stream : Bytes} : stream.length < framing.headerSize ->
      Incomplete stream
  | packet {size : Nat} {tail : Bytes} : size <= framing.limit ->
      tail.length < size -> Incomplete (framing.encode size ++ tail)

def Stuck (stream : Bytes) : Prop :=
  framing.Incomplete stream ∨ framing.Oversized stream

variable {framing}

@[simp] theorem frames_nil : framing.frames [] = [] := rfl

@[simp] theorem frames_cons (packet : Bytes) (packets : List Bytes) :
    framing.frames (packet :: packets) =
      framing.frame packet ++ framing.frames packets := rfl

theorem frames_snoc (packets : List Bytes) (packet rest : Bytes) :
    framing.frames (packets ++ [packet]) ++ rest =
      framing.frames packets ++
        (framing.encode packet.length ++ packet ++ rest) := by
  simp [frames, frame]

theorem frames_eq_flatten (packets : List Bytes) :
    framing.frames packets = (packets.map framing.frame).flatten :=
  List.flatMap_def

@[simp] theorem fits_nil : framing.Fits [] := by
  intro packet hmem
  cases hmem

theorem fits_append {packets packets' : List Bytes} :
    framing.Fits (packets ++ packets') <->
      framing.Fits packets ∧ framing.Fits packets' := by
  simp only [Fits, List.mem_append]
  constructor
  · intro h
    exact ⟨fun p hp => h p (Or.inl hp), fun p hp => h p (Or.inr hp)⟩
  · intro h p hcases
    rcases h with ⟨hleft, hright⟩
    rcases hcases with hp | hp
    · exact hleft p hp
    · exact hright p hp

theorem encode_inj {m n : Nat} (hm : m <= framing.limit)
    (hn : n <= framing.limit) (h : framing.encode m = framing.encode n) :
    m = n := by
  have hdecode := congrArg framing.decode h
  rwa [framing.decode_encode m hm, framing.decode_encode n hn] at hdecode

theorem header_append_inj {header : Bytes} {n : Nat} {x y : Bytes}
    (hlength : header.length = framing.headerSize)
    (h : header ++ x = framing.encode n ++ y) :
    header = framing.encode n ∧ x = y :=
  List.append_inj h (hlength.trans (framing.length_encode n).symm)

theorem frame_append_inj {p q x y : Bytes}
    (hp : p.length <= framing.limit) (hq : q.length <= framing.limit)
    (h : framing.frame p ++ x = framing.frame q ++ y) : p = q ∧ x = y := by
  unfold frame at h
  rw [List.append_assoc, List.append_assoc] at h
  rcases header_append_inj (framing.length_encode _) h with ⟨hheader, hbody⟩
  exact List.append_inj hbody (encode_inj hp hq hheader)

theorem not_incomplete_frame_append {p x : Bytes}
    (hp : p.length <= framing.limit) :
    ¬ framing.Incomplete (framing.frame p ++ x) := by
  intro h
  generalize hstream : framing.frame p ++ x = stream at h
  rw [frame, List.append_assoc] at hstream
  cases h with
  | header hshort =>
      rw [← hstream, List.length_append, framing.length_encode] at hshort
      omega
  | @packet size tail hsize hshort =>
      have hheader := header_append_inj (framing.length_encode _) hstream
      have hlength := encode_inj hp hsize hheader.left
      rw [← hheader.right, List.length_append] at hshort
      omega

theorem not_oversized_encode_append {size : Nat} {x : Bytes}
    (hsize : size <= framing.limit) :
    ¬ framing.Oversized (framing.encode size ++ x) := by
  intro h
  rcases h with ⟨header, tail, hsplit, hlength, hdecode⟩
  have hheader := header_append_inj hlength hsplit.symm
  rw [hheader.left, framing.decode_encode _ hsize] at hdecode
  omega

theorem not_oversized_of_incomplete {stream : Bytes}
    (h : framing.Incomplete stream) : ¬ framing.Oversized stream := by
  cases h with
  | header hshort =>
      intro h
      rcases h with ⟨header, tail, rfl, hlength, _⟩
      rw [List.length_append] at hshort
      omega
  | packet hsize _ => exact not_oversized_encode_append hsize

theorem Oversized.append {stream : Bytes} (h : framing.Oversized stream)
    (more : Bytes) : framing.Oversized (stream ++ more) := by
  rcases h with ⟨header, tail, rfl, hlength, hdecode⟩
  exact ⟨header, tail ++ more, List.append_assoc header tail more, hlength,
    hdecode⟩

theorem not_stuck_frame_append {p x : Bytes}
    (hp : p.length <= framing.limit) :
    ¬ framing.Stuck (framing.frame p ++ x) := by
  intro hcases
  rcases hcases with hincomplete | hoversized
  · exact not_incomplete_frame_append hp hincomplete
  · rw [frame, List.append_assoc] at hoversized
    exact not_oversized_encode_append hp hoversized

/-- Packets that were read off the beginning of a stream are the first packets
of the stream, and the stream goes on with the other ones. -/
theorem frames_append_eq {qs ps : List Bytes} {x rest : Bytes}
    (hqs : framing.Fits qs) (hps : framing.Fits ps)
    (hrest : framing.Stuck rest)
    (h : framing.frames qs ++ x = framing.frames ps ++ rest) :
    exists others, ps = qs ++ others ∧ x = framing.frames others ++ rest := by
  induction qs generalizing ps with
  | nil => exact ⟨ps, rfl, h⟩
  | cons q qs ih =>
      have hq : q.length <= framing.limit := hqs q List.mem_cons_self
      rw [frames_cons, List.append_assoc] at h
      cases ps with
      | nil =>
          rw [frames_nil, List.nil_append] at h
          rw [← h] at hrest
          exact absurd hrest (not_stuck_frame_append hq)
      | cons p ps =>
          rw [frames_cons, List.append_assoc] at h
          have hp : p.length <= framing.limit := hps p List.mem_cons_self
          rcases frame_append_inj hq hp h with ⟨rfl, htail⟩
          rcases ih (fun p hp => hqs p (List.mem_cons_of_mem q hp))
            (fun p hp => hps p (List.mem_cons_of_mem q hp)) htail with
            ⟨others, rfl, hx⟩
          exact ⟨others, rfl, hx⟩

theorem frames_append_eq_of_stuck {qs ps : List Bytes} {x rest : Bytes}
    (hqs : framing.Fits qs) (hps : framing.Fits ps)
    (hrest : framing.Stuck rest) (hx : framing.Stuck x)
    (h : framing.frames qs ++ x = framing.frames ps ++ rest) :
    qs = ps ∧ x = rest := by
  rcases frames_append_eq hqs hps hrest h with ⟨others, hothers, hrest'⟩
  cases others with
  | nil => exact ⟨by rw [hothers, List.append_nil], hrest'⟩
  | cons p others =>
      rw [hrest', frames_cons, List.append_assoc] at hx
      have hp : p.length <= framing.limit := by
        apply hps
        rw [hothers]
        exact List.mem_append_right qs List.mem_cons_self
      exact absurd hx (not_stuck_frame_append hp)

end Framing

/-!
## The header of a machine

A number of `width` bytes in the byte order of the machine.
-/

/-- A header that is a number as it lies in memory. -/
def ByteOrder.framing (order : ByteOrder) (width limit : Nat)
    (hlimit : limit < 256 ^ width) : Framing :=
  { headerSize := width
    limit := limit
    encode := order.encode width
    decode := order.decode
    length_encode := order.length_encode width
    decode_encode := fun _ hn =>
      order.decode_encode (Nat.lt_of_le_of_lt hn hlimit)
    encode_decode := fun _ hlength => order.encode_decode hlength }

end Lib
end Protort
