import Mathlib.Data.List.Basic
import Mathlib.Tactic.Ring

/-!
# Bytes in memory

Numbers as they lie in memory in a fixed number of bytes, in either byte order,
and raw memory as a function from offsets to bytes, which can be read and
overwritten a range at a time.
-/

namespace Protort
namespace Lib

abbrev Bytes : Type := List UInt8

inductive ByteOrder where
  | little
  | big
deriving DecidableEq, Repr

namespace ByteOrder

/-- The low `width` bytes of a number, least significant first. -/
def digits : Nat -> Nat -> Bytes
  | 0, _ => []
  | width + 1, n => UInt8.ofNat n :: digits width (n / 256)

def ofDigits : Bytes -> Nat
  | [] => 0
  | b :: rest => b.toNat + 256 * ofDigits rest

def encode (order : ByteOrder) (width n : Nat) : Bytes :=
  match order with
  | little => digits width n
  | big => (digits width n).reverse

def decode (order : ByteOrder) (bytes : Bytes) : Nat :=
  match order with
  | little => ofDigits bytes
  | big => ofDigits bytes.reverse

theorem length_digits (width n : Nat) : (digits width n).length = width := by
  induction width generalizing n with
  | zero => rfl
  | succ width ih => rw [digits, List.length_cons, ih]

theorem ofDigits_digits {width n : Nat} (h : n < 256 ^ width) :
    ofDigits (digits width n) = n := by
  induction width generalizing n with
  | zero =>
      have hn : n = 0 := by simpa using h
      subst n
      rfl
  | succ width ih =>
      have hquot : n / 256 < 256 ^ width := by
        apply Nat.div_lt_of_lt_mul
        calc n < 256 ^ (width + 1) := h
          _ = 256 * 256 ^ width := by ring
      rw [digits, ofDigits, ih hquot, UInt8.toNat_ofNat']
      omega

theorem digits_ofDigits (bytes : Bytes) :
    digits bytes.length (ofDigits bytes) = bytes := by
  induction bytes with
  | nil => rfl
  | cons b rest ih =>
      have hb : b.toNat < 256 := b.toNat_lt
      have hlow : UInt8.ofNat (b.toNat + 256 * ofDigits rest) = b := by
        apply UInt8.toNat_inj.mp
        rw [UInt8.toNat_ofNat']
        omega
      have hhigh : (b.toNat + 256 * ofDigits rest) / 256 = ofDigits rest := by
        omega
      rw [List.length_cons, ofDigits, digits, hlow, hhigh, ih]

@[simp] theorem length_encode (order : ByteOrder) (width n : Nat) :
    (order.encode width n).length = width := by
  cases order with
  | little => exact length_digits width n
  | big => rw [encode, List.length_reverse, length_digits]

theorem decode_encode (order : ByteOrder) {width n : Nat}
    (h : n < 256 ^ width) : order.decode (order.encode width n) = n := by
  cases order with
  | little => exact ofDigits_digits h
  | big => rw [encode, decode, List.reverse_reverse, ofDigits_digits h]

theorem encode_decode (order : ByteOrder) {width : Nat} {bytes : Bytes}
    (h : bytes.length = width) :
    order.encode width (order.decode bytes) = bytes := by
  subst width
  cases order with
  | little => exact digits_ofDigits bytes
  | big =>
      have hrev := digits_ofDigits bytes.reverse
      rw [List.length_reverse] at hrev
      rw [encode, decode, hrev, List.reverse_reverse]

end ByteOrder

/-!
## Memory
-/

abbrev Memory : Type := Nat -> UInt8

namespace Memory

def read (memory : Memory) (start count : Nat) : Bytes :=
  (List.range count).map (fun i => memory (start + i))

def write (memory : Memory) (start : Nat) (bytes : Bytes) : Memory :=
  fun i =>
    if start <= i then (bytes[i - start]?).getD (memory i) else memory i

@[simp] theorem length_read (memory : Memory) (start count : Nat) :
    (memory.read start count).length = count := by
  simp [read]

theorem read_add (memory : Memory) (start m n : Nat) :
    memory.read start (m + n) =
      memory.read start m ++ memory.read (start + m) n := by
  unfold read
  rw [List.range_add, List.map_append, List.map_map]
  congr 1
  apply List.map_congr_left
  intro i _
  simp [Nat.add_assoc]

theorem write_of_lt {memory : Memory} {start i : Nat} {bytes : Bytes}
    (h : i < start) : memory.write start bytes i = memory i := by
  rw [write, if_neg (by omega)]

theorem write_of_ge {memory : Memory} {start i : Nat} {bytes : Bytes}
    (h : start + bytes.length <= i) :
    memory.write start bytes i = memory i := by
  have hnone : bytes[i - start]? = none := by
    rw [List.getElem?_eq_none_iff]
    omega
  rw [write, if_pos (by omega), hnone]
  rfl

theorem read_congr {memory memory' : Memory} {start count : Nat}
    (h : forall i, start <= i -> i < start + count -> memory i = memory' i) :
    memory.read start count = memory'.read start count := by
  unfold read
  apply List.map_congr_left
  intro i hi
  rw [List.mem_range] at hi
  exact h (start + i) (by omega) (by omega)

theorem read_write (memory : Memory) (start : Nat) (bytes : Bytes) :
    (memory.write start bytes).read start bytes.length = bytes := by
  apply List.ext_getElem
  · exact length_read _ _ _
  · intro i h1 h2
    have hi : bytes[i]? = some bytes[i] := List.getElem?_eq_getElem h2
    simp [read, write, hi]

theorem read_write_before {memory : Memory} {start start' count : Nat}
    {bytes : Bytes} (h : start' + count <= start) :
    (memory.write start bytes).read start' count =
      memory.read start' count :=
  read_congr (fun _ _ hi => write_of_lt (by omega))

theorem read_write_after {memory : Memory} {start start' count : Nat}
    {bytes : Bytes} (h : start + bytes.length <= start') :
    (memory.write start bytes).read start' count =
      memory.read start' count :=
  read_congr (fun _ hi _ => write_of_ge (by omega))

theorem read_write_extend (memory : Memory) (start count : Nat)
    (bytes : Bytes) :
    (memory.write (start + count) bytes).read start (count + bytes.length) =
      memory.read start count ++ bytes := by
  rw [read_add, read_write, read_write_before (Nat.le_refl _)]

end Memory

end Lib
end Protort
