import Mathlib.Logic.Function.Basic
import Protort.Lib.Bytes

/-!
# Sockets with asynchronous operations

A socket together with the buffers that the operations started on it read and
write.  Starting an operation only queues it.  From then on the bytes move in
chunks of any size, in any order with everything else: a pending read stores
what has arrived in its buffer, a pending write puts on the wire what its buffer
holds at that moment.  Pending reads are served in the order in which they were
started, pending writes in any order.
-/

namespace Protort
namespace Lib

universe u v

structure PendingRead (buffer : Type u) where
  target : buffer
  size : Nat
  got : Nat
deriving DecidableEq, Repr

structure PendingWrite (buffer : Type u) (tag : Type v) where
  source : buffer
  size : Nat
  done : Nat
  tag : tag
deriving DecidableEq, Repr

/-- `received` are the bytes that reads have taken so far, `inbox` those that
have arrived and wait, `wire` those that writes have put out. -/
structure Socket (buffer : Type u) (tag : Type v) where
  memory : buffer -> Memory
  reads : List (PendingRead buffer)
  writes : List (PendingWrite buffer tag)
  received : Bytes
  inbox : Bytes
  wire : Bytes
  ended : Bool
  closed : Bool

inductive IoEvent where
  | arrive (bytes : Bytes)
  | finish
  | readSome (count : Nat)
  | writeSome (index count : Nat)
deriving DecidableEq, Repr

namespace PendingRead

variable {buffer : Type u}

/-- Give the first unfinished read some more bytes. -/
def advance (count : Nat) :
    List (PendingRead buffer) -> List (PendingRead buffer)
  | [] => []
  | r :: rest =>
      if r.got < r.size then
        { r with got := r.got + count } :: rest
      else
        r :: advance count rest

@[simp] theorem length_advance (count : Nat)
    (reads : List (PendingRead buffer)) :
    (advance count reads).length = reads.length := by
  induction reads with
  | nil => rfl
  | cons r rest ih =>
      rw [advance]
      by_cases h : r.got < r.size
      · rw [if_pos h, List.length_cons, List.length_cons]
      · rw [if_neg h, List.length_cons, List.length_cons, ih]

end PendingRead

namespace Socket

variable {buffer : Type u} {tag : Type v}

def connected (memory : buffer -> Memory) : Socket buffer tag :=
  { memory := memory
    reads := []
    writes := []
    received := []
    inbox := []
    wire := []
    ended := false
    closed := false }

def arrived (s : Socket buffer tag) : Bytes :=
  s.received ++ s.inbox

/-!
## Operations of the program
-/

def store [DecidableEq buffer] (s : Socket buffer tag) (target : buffer)
    (start : Nat) (bytes : Bytes) : Socket buffer tag :=
  { s with
    memory := Function.update s.memory target
      ((s.memory target).write start bytes) }

def asyncRead (s : Socket buffer tag) (target : buffer) (size : Nat) :
    Socket buffer tag :=
  { s with
    reads := s.reads ++
      [{ target := target
         size := size
         got := 0 }] }

def asyncWrite (s : Socket buffer tag) (source : buffer) (size : Nat)
    (x : tag) : Socket buffer tag :=
  { s with
    writes := s.writes ++
      [{ source := source
         size := size
         done := 0
         tag := x }] }

def close (s : Socket buffer tag) : Socket buffer tag :=
  { s with closed := true }

/-!
## Progress of the operations
-/

def served (s : Socket buffer tag) : Option (PendingRead buffer) :=
  s.reads.find? (fun r => decide (r.got < r.size))

def readSome [DecidableEq buffer] (s : Socket buffer tag) (count : Nat) :
    Option (Socket buffer tag) :=
  match s.served with
  | none => none
  | some r =>
      if s.closed = false ∧ 0 < count ∧ count <= s.inbox.length ∧
          r.got + count <= r.size then
        some
          { s.store r.target r.got (s.inbox.take count) with
            reads := PendingRead.advance count s.reads
            received := s.received ++ s.inbox.take count
            inbox := s.inbox.drop count }
      else
        none

def writeSome (s : Socket buffer tag) (index count : Nat) :
    Option (Socket buffer tag) :=
  match s.writes[index]? with
  | none => none
  | some w =>
      if s.closed = false ∧ 0 < count ∧ w.done + count <= w.size then
        some
          { s with
            writes := s.writes.set index { w with done := w.done + count }
            wire := s.wire ++ (s.memory w.source).read w.done count }
      else
        none

def progress [DecidableEq buffer] (s : Socket buffer tag) :
    IoEvent -> Option (Socket buffer tag)
  | IoEvent.arrive bytes =>
      if s.ended then none else some { s with inbox := s.inbox ++ bytes }
  | IoEvent.finish => some { s with ended := true }
  | IoEvent.readSome count => s.readSome count
  | IoEvent.writeSome index count => s.writeSome index count

def pending (s : Socket buffer tag) : List (PendingWrite buffer tag) :=
  s.writes.filter (fun w => decide (w.done < w.size))

/-!
## Completion of the operations

The handler of an operation runs after the operation has been taken out of the
queue.  An operation fails when the socket is closed, a read also at the end of
the stream.
-/

def takeRead (s : Socket buffer tag) :
    Option (PendingRead buffer × Socket buffer tag) :=
  match s.reads with
  | [] => none
  | r :: rest =>
      if r.got = r.size then some (r, { s with reads := rest }) else none

def failRead (s : Socket buffer tag) : Option (Socket buffer tag) :=
  match s.reads with
  | [] => none
  | r :: rest =>
      if r.got < r.size ∧ (s.closed ∨ (s.ended ∧ s.inbox = [])) then
        some { s with reads := rest }
      else
        none

def takeWrite (s : Socket buffer tag) (index : Nat) :
    Option (PendingWrite buffer tag × Socket buffer tag) :=
  match s.writes[index]? with
  | none => none
  | some w =>
      if w.done = w.size then
        some (w, { s with writes := s.writes.eraseIdx index })
      else
        none

def failWrite (s : Socket buffer tag) (index : Nat) :
    Option (PendingWrite buffer tag × Socket buffer tag) :=
  match s.writes[index]? with
  | none => none
  | some w =>
      if w.done < w.size ∧ s.closed then
        some (w, { s with writes := s.writes.eraseIdx index })
      else
        none

/-!
## What the operations do
-/

section Specifications

variable [DecidableEq buffer] {s t : Socket buffer tag}

theorem readSome_eq_some {count : Nat} (h : s.readSome count = some t) :
    exists r, s.served = some r ∧ s.closed = false ∧ 0 < count ∧
      count <= s.inbox.length ∧ r.got + count <= r.size ∧
      t =
        { s.store r.target r.got (s.inbox.take count) with
          reads := PendingRead.advance count s.reads
          received := s.received ++ s.inbox.take count
          inbox := s.inbox.drop count } := by
  unfold readSome at h
  cases hserved : s.served with
  | none =>
      rw [hserved] at h
      cases h
  | some r =>
      rw [hserved] at h
      simp only [Option.ite_none_right_eq_some, Option.some.injEq] at h
      rcases h with ⟨⟨hopen, hcount, hinbox, hsize⟩, ht⟩
      exact ⟨r, rfl, hopen, hcount, hinbox, hsize, ht.symm⟩

omit [DecidableEq buffer] in
theorem writeSome_eq_some {index count : Nat}
    (h : s.writeSome index count = some t) :
    exists w, s.writes[index]? = some w ∧ s.closed = false ∧ 0 < count ∧
      w.done + count <= w.size ∧
      t =
        { s with
          writes := s.writes.set index { w with done := w.done + count }
          wire := s.wire ++ (s.memory w.source).read w.done count } := by
  unfold writeSome at h
  cases hw : s.writes[index]? with
  | none =>
      rw [hw] at h
      cases h
  | some w =>
      rw [hw] at h
      simp only [Option.ite_none_right_eq_some, Option.some.injEq] at h
      rcases h with ⟨⟨hopen, hcount, hsize⟩, ht⟩
      exact ⟨w, rfl, hopen, hcount, hsize, ht.symm⟩

omit [DecidableEq buffer] in
theorem takeRead_eq_some {r : PendingRead buffer}
    (h : s.takeRead = some (r, t)) :
    r.got = r.size ∧ s.reads = r :: t.reads ∧
      t = { s with reads := t.reads } := by
  unfold takeRead at h
  cases hreads : s.reads with
  | nil =>
      rw [hreads] at h
      cases h
  | cons r' rest =>
      rw [hreads] at h
      simp only [Option.ite_none_right_eq_some, Option.some.injEq,
        Prod.mk.injEq] at h
      rcases h with ⟨hgot, rfl, rfl⟩
      exact ⟨hgot, rfl, rfl⟩

omit [DecidableEq buffer] in
theorem failRead_eq_some (h : s.failRead = some t) :
    exists r, r.got < r.size ∧ (s.closed ∨ (s.ended ∧ s.inbox = [])) ∧
      s.reads = r :: t.reads ∧ t = { s with reads := t.reads } := by
  unfold failRead at h
  cases hreads : s.reads with
  | nil =>
      rw [hreads] at h
      cases h
  | cons r' rest =>
      rw [hreads] at h
      simp only [Option.ite_none_right_eq_some, Option.some.injEq] at h
      rcases h with ⟨⟨hgot, hfail⟩, rfl⟩
      exact ⟨r', hgot, hfail, rfl, rfl⟩

omit [DecidableEq buffer] in
theorem takeWrite_eq_some {index : Nat} {w : PendingWrite buffer tag}
    (h : s.takeWrite index = some (w, t)) :
    s.writes[index]? = some w ∧ w.done = w.size ∧
      t = { s with writes := s.writes.eraseIdx index } := by
  unfold takeWrite at h
  cases hw : s.writes[index]? with
  | none =>
      rw [hw] at h
      cases h
  | some w' =>
      rw [hw] at h
      simp only [Option.ite_none_right_eq_some, Option.some.injEq,
        Prod.mk.injEq] at h
      rcases h with ⟨hdone, rfl, ht⟩
      exact ⟨rfl, hdone, ht.symm⟩

omit [DecidableEq buffer] in
theorem failWrite_eq_some {index : Nat} {w : PendingWrite buffer tag}
    (h : s.failWrite index = some (w, t)) :
    s.writes[index]? = some w ∧ w.done < w.size ∧ s.closed = true ∧
      t = { s with writes := s.writes.eraseIdx index } := by
  unfold failWrite at h
  cases hw : s.writes[index]? with
  | none =>
      rw [hw] at h
      cases h
  | some w' =>
      rw [hw] at h
      simp only [Option.ite_none_right_eq_some, Option.some.injEq,
        Prod.mk.injEq] at h
      rcases h with ⟨⟨hdone, hclosed⟩, rfl, ht⟩
      exact ⟨rfl, hdone, hclosed, ht.symm⟩

theorem progress_reads {e : IoEvent} (h : s.progress e = some t) :
    t.reads.length = s.reads.length ∧ t.closed = s.closed := by
  cases e with
  | arrive bytes =>
      simp only [progress, Option.ite_none_left_eq_some,
        Option.some.injEq] at h
      rw [← h.right]
      exact ⟨rfl, rfl⟩
  | finish =>
      simp only [progress, Option.some.injEq] at h
      rw [← h]
      exact ⟨rfl, rfl⟩
  | readSome count =>
      rcases readSome_eq_some h with ⟨r, _, _, _, _, _, rfl⟩
      exact ⟨PendingRead.length_advance count s.reads, rfl⟩
  | writeSome index count =>
      rcases writeSome_eq_some h with ⟨w, _, _, _, _, rfl⟩
      exact ⟨rfl, rfl⟩

theorem arrived_progress {e : IoEvent} (h : s.progress e = some t) :
    List.IsPrefix s.arrived t.arrived := by
  cases e with
  | arrive bytes =>
      simp only [progress, Option.ite_none_left_eq_some,
        Option.some.injEq] at h
      rw [← h.right, arrived, arrived, ← List.append_assoc]
      exact List.prefix_append _ _
  | finish =>
      simp only [progress, Option.some.injEq] at h
      rw [← h]
      exact List.prefix_rfl
  | readSome count =>
      rcases readSome_eq_some h with ⟨r, _, _, _, _, _, rfl⟩
      exists []
      rw [List.append_nil, arrived, arrived, List.append_assoc,
        List.take_append_drop]
  | writeSome index count =>
      rcases writeSome_eq_some h with ⟨w, _, _, _, _, rfl⟩
      exact List.prefix_rfl

theorem wire_progress {e : IoEvent} (h : s.progress e = some t) :
    List.IsPrefix s.wire t.wire := by
  cases e with
  | arrive bytes =>
      simp only [progress, Option.ite_none_left_eq_some,
        Option.some.injEq] at h
      rcases h with ⟨_, rfl⟩
      exact List.prefix_rfl
  | finish =>
      simp only [progress, Option.some.injEq] at h
      subst h
      exact List.prefix_rfl
  | readSome count =>
      rcases readSome_eq_some h with ⟨r, _, _, _, _, _, rfl⟩
      exact List.prefix_rfl
  | writeSome index count =>
      rcases writeSome_eq_some h with ⟨w, _, _, _, _, rfl⟩
      exact List.prefix_append _ _

def IsMoving : IoEvent -> Bool
  | IoEvent.arrive _ => false
  | IoEvent.finish => false
  | IoEvent.readSome _ => true
  | IoEvent.writeSome _ _ => true

theorem moving_progress {e : IoEvent} (he : IsMoving e = true)
    (h : s.progress e = some t) :
    t.arrived = s.arrived ∧ t.ended = s.ended ∧
      t.writes.length = s.writes.length ∧
      (forall w, w ∈ t.writes -> exists w', w' ∈ s.writes ∧ w'.tag = w.tag ∧
        (w'.done <= w'.size -> w.done <= w.size)) := by
  cases e with
  | arrive bytes => cases he
  | finish => cases he
  | readSome count =>
      rcases readSome_eq_some h with ⟨r, _, _, _, _, _, rfl⟩
      refine ⟨?_, rfl, rfl, fun w hw => ⟨w, hw, rfl, fun hsize => hsize⟩⟩
      rw [arrived, arrived, List.append_assoc, List.take_append_drop]
  | writeSome index count =>
      rcases writeSome_eq_some h with ⟨w, hw, _, _, hcount, rfl⟩
      refine ⟨rfl, rfl, List.length_set, fun w' hw' => ?_⟩
      rcases List.mem_or_eq_of_mem_set hw' with hmem | rfl
      · exact ⟨w', hmem, rfl, fun hsize => hsize⟩
      · exact ⟨w, List.mem_of_getElem? hw, rfl, fun _ => hcount⟩

theorem progress_writes {e : IoEvent} (h : s.progress e = some t) :
    t.writes.length = s.writes.length ∧
      forall w, w ∈ t.writes -> exists w', w' ∈ s.writes ∧ w'.tag = w.tag ∧
        (w'.done <= w'.size -> w.done <= w.size) := by
  cases e with
  | arrive bytes =>
      simp only [progress, Option.ite_none_left_eq_some,
        Option.some.injEq] at h
      rw [← h.right]
      exact ⟨rfl, fun w hw => ⟨w, hw, rfl, fun hsize => hsize⟩⟩
  | finish =>
      simp only [progress, Option.some.injEq] at h
      rw [← h]
      exact ⟨rfl, fun w hw => ⟨w, hw, rfl, fun hsize => hsize⟩⟩
  | readSome count => exact (moving_progress rfl h).right.right
  | writeSome index count => exact (moving_progress rfl h).right.right

end Specifications

/-!
## Quiet sockets
-/

section Quiet

variable [DecidableEq buffer] {s : Socket buffer tag}

/-- The pending reads can neither go on nor complete. -/
def Quiet (s : Socket buffer tag) : Prop :=
  (forall count, s.readSome count = none) ∧ s.takeRead = none ∧
    s.failRead = none

theorem quiet_of_reads_nil (h : s.reads = []) : s.Quiet := by
  refine ⟨?_, ?_, ?_⟩
  · intro count
    rw [readSome, served, h, List.find?_nil]
  · rw [takeRead, h]
  · rw [failRead, h]

theorem Quiet.inbox (h : s.Quiet) (hopen : s.closed = false)
    {r : PendingRead buffer} (hserved : s.served = some r) : s.inbox = [] := by
  by_contra hinbox
  have hlength : 0 < s.inbox.length := List.length_pos_iff.mpr hinbox
  have hgot : r.got < r.size := by
    unfold served at hserved
    simpa using List.find?_some hserved
  have hnone := h.left 1
  unfold readSome at hnone
  rw [hserved] at hnone
  simp only [ite_eq_right_iff] at hnone
  exact absurd (hnone ⟨hopen, by omega, by omega, by omega⟩) (by simp)

theorem Quiet.got_lt (h : s.Quiet) {r : PendingRead buffer}
    {others : List (PendingRead buffer)} (hreads : s.reads = r :: others)
    (hsize : r.got <= r.size) : r.got < r.size := by
  have hnone := h.right.left
  unfold takeRead at hnone
  rw [hreads] at hnone
  simp only [ite_eq_right_iff] at hnone
  by_contra hge
  exact absurd (hnone (by omega)) (by simp)

end Quiet

end Socket

end Lib
end Protort
