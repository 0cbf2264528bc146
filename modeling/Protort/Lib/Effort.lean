import Mathlib.Algebra.BigOperators.Group.List.Basic
import Protort.Lib.Socket

/-!
# What a socket has left to write

Every byte that a write puts out and every write that completes makes it less.
-/

namespace Protort
namespace Lib

universe u v

section Sums

variable {item : Type u} {xs : List item} {i : Nat} {x : item}

theorem sum_map_eraseIdx (f : item -> Nat) (h : xs[i]? = some x) :
    f x + ((xs.eraseIdx i).map f).sum = (xs.map f).sum := by
  rcases List.getElem?_eq_some_iff.mp h with ⟨hi, rfl⟩
  have hperm := (List.getElem_cons_eraseIdx_perm hi).map f
  rw [← hperm.sum_eq, List.map_cons, List.sum_cons]

theorem sum_map_set (f : item -> Nat) (h : xs[i]? = some x) (y : item) :
    f x + ((xs.set i y).map f).sum = f y + (xs.map f).sum := by
  rcases List.getElem?_eq_some_iff.mp h with ⟨hi, _⟩
  have hperm := (List.set_perm_cons_eraseIdx hi y).map f
  rw [hperm.sum_eq, List.map_cons, List.sum_cons, ← sum_map_eraseIdx f h]
  omega

end Sums

namespace Socket

variable {buffer : Type u} {tag : Type v} {s t : Socket buffer tag}
  {index count : Nat} {w : PendingWrite buffer tag}

/-- Each byte counts as much as `weight`, and each write one. -/
def toWrite (weight : Nat) (s : Socket buffer tag) : Nat :=
  (s.writes.map (fun w => weight * (w.size - w.done) + 1)).sum

theorem toWrite_writeSome [DecidableEq buffer] (weight : Nat)
    (h : s.writeSome index count = some t) :
    toWrite weight t + weight * count = toWrite weight s := by
  rcases writeSome_eq_some h with ⟨w, hw, _, _, hsize, rfl⟩
  have hset := sum_map_set
    (fun w : PendingWrite buffer tag => weight * (w.size - w.done) + 1) hw
    { w with done := w.done + count }
  have hleft : weight * (w.size - w.done) =
      weight * (w.size - (w.done + count)) + weight * count := by
    rw [← Nat.mul_add]
    congr 1
    omega
  unfold toWrite
  simp only at hset ⊢
  omega

theorem toWrite_takeWrite (weight : Nat)
    (h : s.takeWrite index = some (w, t)) :
    toWrite weight t < toWrite weight s := by
  rcases takeWrite_eq_some h with ⟨hw, _, rfl⟩
  have herase := sum_map_eraseIdx
    (fun w : PendingWrite buffer tag => weight * (w.size - w.done) + 1) hw
  unfold toWrite
  simp only at herase ⊢
  omega

theorem toWrite_failWrite (weight : Nat)
    (h : s.failWrite index = some (w, t)) :
    toWrite weight t < toWrite weight s := by
  rcases failWrite_eq_some h with ⟨hw, _, _, rfl⟩
  have herase := sum_map_eraseIdx
    (fun w : PendingWrite buffer tag => weight * (w.size - w.done) + 1) hw
  unfold toWrite
  simp only at herase ⊢
  omega

end Socket

end Lib
end Protort
