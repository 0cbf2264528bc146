import Mathlib.Data.Finmap
import Mathlib.Data.Finset.Sort
import Protort.Lib.Loops

/-!
# Tables

## Keyed containers

A table is a finite map with the operations of the standard keyed containers:
assignment overwrites, `emplace` keeps what is there, and indexing inserts a
default value when the key is absent.  The lemmas describe every operation by
what a later lookup returns, and the loops that fill a table by the list they
run over: the first entry of a key wins under `emplace`, the last one under
assignment, and `pushBack` collects all of them in order.
-/

namespace Protort
namespace Lib

universe u v w

abbrev Table (key : Type u) (value : Type v) : Type (max u v) :=
  Finmap (fun _ : key => value)

namespace Table

variable {key : Type u} {value : Type v} [DecidableEq key]

/-- Insert unless the key is present. -/
def emplace (t : Table key value) (k : key) (x : value) : Table key value :=
  if k ∈ t then t else t.insert k x

/-- The value read by indexing. -/
def get [Inhabited value] (t : Table key value) (k : key) : value :=
  (t.lookup k).getD default

/-- The table left behind by indexing. -/
def touch [Inhabited value] (t : Table key value) (k : key) : Table key value :=
  t.emplace k default

/-- Index with a key and append to the list found there. -/
def pushBack {item : Type v} (t : Table key (List item)) (k : key) (x : item) :
    Table key (List item) :=
  t.insert k (get t k ++ [x])

/-- The keys in the order in which an ordered container is walked. -/
def sortedKeys [LinearOrder key] (t : Table key value) : List key :=
  t.keys.sort (fun a b => a <= b)

/-!
# Lookups after one operation
-/

theorem lookup_insert_eq_ite (t : Table key value) (k k' : key) (x : value) :
    (t.insert k x).lookup k' = if k' = k then some x else t.lookup k' := by
  by_cases h : k' = k
  · subst k'
    rw [Finmap.lookup_insert, if_pos rfl]
  · rw [Finmap.lookup_insert_of_ne t h, if_neg h]

theorem lookup_emplace (t : Table key value) (k k' : key) (x : value) :
    (t.emplace k x).lookup k' =
      if k' = k then some ((t.lookup k).getD x) else t.lookup k' := by
  unfold emplace
  by_cases hk : k ∈ t
  · rw [if_pos hk]
    rcases Finmap.mem_iff.mp hk with ⟨y, hy⟩
    by_cases h : k' = k
    · subst k'
      rw [if_pos rfl, hy]
      rfl
    · rw [if_neg h]
  · rw [if_neg hk, lookup_insert_eq_ite]
    rw [Finmap.lookup_eq_none.mpr hk]
    rfl

theorem lookup_emplace_ne {t : Table key value} {k k' : key} (x : value)
    (h : k' ≠ k) : (t.emplace k x).lookup k' = t.lookup k' := by
  rw [lookup_emplace, if_neg h]

theorem lookup_emplace_of_some {t : Table key value} {k k' : key} {y : value}
    (x : value) (h : t.lookup k' = some y) :
    (t.emplace k x).lookup k' = some y := by
  rw [lookup_emplace]
  by_cases hk : k' = k
  · subst k'
    rw [if_pos rfl, h]
    rfl
  · rw [if_neg hk, h]

theorem mem_emplace {t : Table key value} {k k' : key} {x : value} :
    k' ∈ t.emplace k x <-> k' = k ∨ k' ∈ t := by
  rw [← Finmap.lookup_isSome, lookup_emplace, ← Finmap.lookup_isSome]
  by_cases h : k' = k
  · simp [h]
  · simp [h]

section Indexing

variable [Inhabited value]

theorem get_of_lookup {t : Table key value} {k : key} {x : value}
    (h : t.lookup k = some x) : get t k = x := by
  unfold get
  rw [h]
  rfl

theorem get_of_notMem {t : Table key value} {k : key} (h : k ∉ t) :
    get t k = default := by
  unfold get
  rw [Finmap.lookup_eq_none.mpr h]
  rfl

@[simp] theorem get_touch (t : Table key value) (k k' : key) :
    get (t.touch k) k' = get t k' := by
  unfold get touch
  rw [lookup_emplace]
  by_cases h : k' = k
  · subst k'
    rw [if_pos rfl]
    rfl
  · rw [if_neg h]

theorem get_insert (t : Table key value) (k k' : key) (x : value) :
    get (t.insert k x) k' = if k' = k then x else get t k' := by
  unfold get
  rw [lookup_insert_eq_ite]
  by_cases h : k' = k
  · rw [if_pos h, if_pos h]
    rfl
  · rw [if_neg h, if_neg h]

@[simp] theorem get_empty (k : key) :
    get (∅ : Table key value) k = default := rfl

theorem touch_of_mem {t : Table key value} {k : key} (h : k ∈ t) :
    t.touch k = t :=
  if_pos h

theorem mem_touch {t : Table key value} {k k' : key} :
    k' ∈ t.touch k <-> k' = k ∨ k' ∈ t :=
  mem_emplace

end Indexing

theorem get_pushBack {item : Type v} (t : Table key (List item))
    (k k' : key) (x : item) :
    get (t.pushBack k x) k' = if k' = k then get t k' ++ [x] else get t k' := by
  unfold pushBack
  rw [get_insert]
  by_cases h : k' = k
  · rw [if_pos h, if_pos h, h]
  · rw [if_neg h, if_neg h]

/-!
# Tables filled by a loop
-/

section Loops

variable {item : Type w} (keyOf : item -> key) (valueOf : item -> value)

def emplaceAll (t : Table key value) (xs : List item) : Table key value :=
  xs.foldl (fun t x => t.emplace (keyOf x) (valueOf x)) t

def insertAll (t : Table key value) (xs : List item) : Table key value :=
  xs.foldl (fun t x => t.insert (keyOf x) (valueOf x)) t

variable {keyOf valueOf}

theorem lookup_emplaceAll_of_some
    {t : Table key value} {k : key} {y : value} (xs : List item)
    (h : t.lookup k = some y) :
    (emplaceAll keyOf valueOf t xs).lookup k = some y := by
  induction xs generalizing t with
  | nil => exact h
  | cons x rest ih => exact ih (lookup_emplace_of_some (valueOf x) h)

theorem lookup_emplaceAll_of_none
    {t : Table key value} {k : key} (xs : List item)
    (h : t.lookup k = none) :
    (emplaceAll keyOf valueOf t xs).lookup k =
      (firstEntry keyOf xs k).map valueOf := by
  unfold firstEntry
  induction xs generalizing t with
  | nil => exact h
  | cons x rest ih =>
      by_cases hk : keyOf x = k
      · have hx : (t.emplace (keyOf x) (valueOf x)).lookup k =
            some (valueOf x) := by
          rw [lookup_emplace, if_pos hk.symm, hk, h]
          rfl
        rw [List.find?_cons_of_pos (by simpa using hk)]
        exact lookup_emplaceAll_of_some rest hx
      · rw [List.find?_cons_of_neg (by simpa using hk)]
        apply ih
        rw [lookup_emplace_ne (valueOf x) (fun heq => hk heq.symm), h]

theorem lookup_emplaceAll_empty (xs : List item) (k : key) :
    (emplaceAll keyOf valueOf ∅ xs).lookup k =
      (firstEntry keyOf xs k).map valueOf :=
  lookup_emplaceAll_of_none xs (Finmap.lookup_empty k)

theorem lookup_insertAll_of_forall_ne
    (t : Table key value) {k : key} {xs : List item}
    (h : forall x, x ∈ xs -> keyOf x ≠ k) :
    (insertAll keyOf valueOf t xs).lookup k = t.lookup k := by
  induction xs generalizing t with
  | nil => rfl
  | cons x rest ih =>
      have hx : k ≠ keyOf x := fun heq => h x (List.mem_cons_self) heq.symm
      have hrest := ih (t.insert (keyOf x) (valueOf x))
        (fun y hy => h y (List.mem_cons_of_mem x hy))
      exact hrest.trans (Finmap.lookup_insert_of_ne t hx)

theorem lookup_insertAll (t : Table key value) (xs : List item) (k : key) :
    (insertAll keyOf valueOf t xs).lookup k =
      ((lastEntry keyOf xs k).map valueOf).or (t.lookup k) := by
  induction xs generalizing t with
  | nil => rfl
  | cons x rest ih =>
      have hstep := ih (t.insert (keyOf x) (valueOf x))
      have hsplit : lastEntry keyOf (x :: rest) k =
          (lastEntry keyOf rest k).or (lastEntry keyOf [x] k) :=
        lastEntry_append [x] rest k
      refine hstep.trans ?_
      rw [hsplit, Option.map_or, Option.or_assoc, lookup_insert_eq_ite]
      congr 1
      by_cases hk : k = keyOf x
      · rw [if_pos hk]
        simp [lastEntry, firstEntry, hk]
      · rw [if_neg hk]
        simp [lastEntry, firstEntry, Ne.symm hk]

theorem lookup_insertAll_of_mem
    (t : Table key value) {xs : List item} {x : item}
    (hkeys : (xs.map keyOf).Nodup) (hx : x ∈ xs) :
    (insertAll keyOf valueOf t xs).lookup (keyOf x) = some (valueOf x) := by
  induction xs generalizing t with
  | nil => cases hx
  | cons y rest ih =>
      rw [List.map_cons, List.nodup_cons] at hkeys
      rcases List.mem_cons.mp hx with hxy | hrest
      · subst y
        have hne : forall z, z ∈ rest -> keyOf z ≠ keyOf x := by
          intro z hz heq
          exact hkeys.left (heq ▸ List.mem_map_of_mem hz)
        have h :
            (insertAll keyOf valueOf (t.insert (keyOf x) (valueOf x))
              rest).lookup (keyOf x) =
              (t.insert (keyOf x) (valueOf x)).lookup (keyOf x) :=
          lookup_insertAll_of_forall_ne _ hne
        exact h.trans (Finmap.lookup_insert t)
      · exact ih (t.insert (keyOf y) (valueOf y)) hkeys.right hrest

theorem mem_insertAll
    (t : Table key value) {k : key} {xs : List item} :
    k ∈ insertAll keyOf valueOf t xs <->
      k ∈ t ∨ exists x, x ∈ xs ∧ keyOf x = k := by
  induction xs generalizing t with
  | nil => simp [insertAll]
  | cons x rest ih =>
      have hstep := ih (t.insert (keyOf x) (valueOf x))
      rw [Finmap.mem_insert] at hstep
      refine hstep.trans ?_
      constructor
      · intro hcases
        rcases hcases with (hk | ht) | ⟨y, hy, hyk⟩
        · exact Or.inr ⟨x, List.mem_cons_self, hk.symm⟩
        · exact Or.inl ht
        · exact Or.inr ⟨y, List.mem_cons_of_mem x hy, hyk⟩
      · intro hcases
        rcases hcases with ht | ⟨y, hy, hyk⟩
        · exact Or.inl (Or.inr ht)
        · rcases List.mem_cons.mp hy with rfl | hrest
          · exact Or.inl (Or.inl hyk.symm)
          · exact Or.inr ⟨y, hrest, hyk⟩

end Loops

section Collecting

variable {item : Type v}

def collect (keyOf : item -> key) (t : Table key (List item))
    (xs : List item) : Table key (List item) :=
  xs.foldl (fun t x => t.pushBack (keyOf x) x) t

theorem get_collect (keyOf : item -> key) (t : Table key (List item))
    (xs : List item) (k : key) :
    get (collect keyOf t xs) k =
      get t k ++ xs.filter (fun x => decide (keyOf x = k)) := by
  induction xs generalizing t with
  | nil => simp [collect]
  | cons x rest ih =>
      have hstep := ih (t.pushBack (keyOf x) x)
      rw [get_pushBack] at hstep
      refine Eq.trans hstep ?_
      by_cases hk : keyOf x = k
      · rw [if_pos hk.symm, List.filter_cons_of_pos (by simpa using hk)]
        simp
      · rw [if_neg (fun heq => hk heq.symm),
          List.filter_cons_of_neg (by simpa using hk)]

end Collecting

end Table

end Lib
end Protort
