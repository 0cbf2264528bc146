import Mathlib.Data.List.Basic
import Mathlib.Data.Finset.Insert

/-!
# Loops over lists

Invariants for loops that see what has been handled so far, for loops that may
stop half way, and the first entry with a given key, which is all that a reader
who enters a list first-come sees of it.
-/

namespace Protort
namespace Lib

universe u v w

namespace Loops

variable {item : Type u} {state : Type v}

theorem exists_mem_snoc {xs : List item} {x : item} {P : item -> Prop} :
    (exists y, y ∈ xs ++ [x] ∧ P y) <-> (exists y, y ∈ xs ∧ P y) ∨ P x := by
  simp only [List.mem_append, List.mem_singleton, or_and_right, exists_or,
    exists_eq_left]

theorem foldl_inv {f : state -> item -> state}
    (Inv : List item -> state -> Prop) :
    forall {xs done : List item} {s : state},
      (forall front x s, x ∈ xs -> Inv front s ->
        Inv (front ++ [x]) (f s x)) ->
      Inv done s -> Inv (done ++ xs) (xs.foldl f s)
  | [], done, s, _, hinv => by
      rw [List.append_nil]
      exact hinv
  | x :: rest, done, s, hstep, hinv => by
      have hx := hstep done x s List.mem_cons_self hinv
      have hrest := foldl_inv Inv
        (fun front y s hy => hstep front y s (List.mem_cons_of_mem x hy)) hx
      simpa using hrest

theorem foldlM_inv {f : state -> item -> Option state}
    (Inv : List item -> state -> Prop) :
    forall {xs done : List item} {s : state},
      (forall front x s, x ∈ xs -> Inv front s ->
        exists s', f s x = some s' ∧ Inv (front ++ [x]) s') ->
      Inv done s ->
      exists s', xs.foldlM f s = some s' ∧ Inv (done ++ xs) s'
  | [], done, s, _, hinv => by
      exists s
      constructor
      · exact rfl
      rw [List.append_nil]
      exact hinv
  | x :: rest, done, s, hstep, hinv => by
      rcases hstep done x s List.mem_cons_self hinv with ⟨s1, hx, hinv1⟩
      have hrest := foldlM_inv Inv
        (fun front y s hy => hstep front y s (List.mem_cons_of_mem x hy)) hinv1
      rcases hrest with ⟨s2, hfold, hinv2⟩
      refine ⟨s2, ?_, ?_⟩
      · rw [List.foldlM_cons, hx]
        exact hfold
      · simpa using hinv2

/-- Two loops whose bodies fail together and otherwise keep a relation. -/
theorem foldlM_rel {state' : Type w} {f : state -> item -> Option state}
    {g : state' -> item -> Option state'} {r : state -> state' -> Prop}
    (hstep : forall s t x, r s t -> Option.Rel r (f s x) (g t x))
    (xs : List item) {s : state} {t : state'} (h : r s t) :
    Option.Rel r (xs.foldlM f s) (xs.foldlM g t) := by
  induction xs generalizing s t with
  | nil => exact Option.Rel.some h
  | cons x rest ih =>
      rw [List.foldlM_cons, List.foldlM_cons]
      have hx := hstep s t x h
      cases hf : f s x with
      | none =>
          rw [hf] at hx
          cases hg : g t x with
          | none => exact Option.Rel.none
          | some t' =>
              rw [hg] at hx
              cases hx
      | some s' =>
          rw [hf] at hx
          cases hg : g t x with
          | none =>
              rw [hg] at hx
              cases hx
          | some t' =>
              rw [hg] at hx
              cases hx with
              | some hrel => exact ih hrel

end Loops

/-!
## First entries
-/

section FirstEntry

variable {item : Type u} {key : Type v} [DecidableEq key]

def firstEntry (keyOf : item -> key) (xs : List item) (k : key) :
    Option item :=
  xs.find? (fun x => decide (keyOf x = k))

variable {keyOf : item -> key}

theorem firstEntry_append (xs ys : List item) (k : key) :
    firstEntry keyOf (xs ++ ys) k =
      (firstEntry keyOf xs k).or (firstEntry keyOf ys k) :=
  List.find?_append

theorem firstEntry_append_of_isSome {xs : List item} {k : key}
    (ys : List item) (h : (firstEntry keyOf xs k).isSome) :
    firstEntry keyOf (xs ++ ys) k = firstEntry keyOf xs k := by
  rcases Option.isSome_iff_exists.mp h with ⟨x, hx⟩
  rw [firstEntry_append, hx]
  rfl

theorem firstEntry_isSome_append_left {xs : List item} {k : key}
    (ys : List item) (h : (firstEntry keyOf xs k).isSome) :
    (firstEntry keyOf (xs ++ ys) k).isSome := by
  rw [firstEntry_append_of_isSome ys h]
  exact h

theorem firstEntry_eq_some {xs : List item} {k : key} {x : item}
    (h : firstEntry keyOf xs k = some x) : x ∈ xs ∧ keyOf x = k := by
  refine ⟨List.mem_of_find?_eq_some h, ?_⟩
  have hx := List.find?_some h
  simpa using hx

theorem firstEntry_isSome_of_mem {xs : List item} {x : item}
    (h : x ∈ xs) : (firstEntry keyOf xs (keyOf x)).isSome := by
  unfold firstEntry
  rw [List.find?_isSome]
  exact ⟨x, h, by simp⟩

theorem firstEntry_isSome_iff {xs : List item} {k : key} :
    (firstEntry keyOf xs k).isSome <-> exists x, x ∈ xs ∧ keyOf x = k := by
  constructor
  · intro h
    rcases Option.isSome_iff_exists.mp h with ⟨x, hx⟩
    exact ⟨x, firstEntry_eq_some hx⟩
  · intro h
    rcases h with ⟨x, hx, hk⟩
    rw [← hk]
    exact firstEntry_isSome_of_mem hx

theorem firstEntry_map {other : Type w} (f : other -> item) (xs : List other)
    (k : key) :
    firstEntry keyOf (xs.map f) k =
      (firstEntry (fun x => keyOf (f x)) xs k).map f :=
  List.find?_map

def lastEntry (keyOf : item -> key) (xs : List item) (k : key) :
    Option item :=
  firstEntry keyOf xs.reverse k

theorem lastEntry_append (xs ys : List item) (k : key) :
    lastEntry keyOf (xs ++ ys) k =
      (lastEntry keyOf ys k).or (lastEntry keyOf xs k) := by
  unfold lastEntry
  rw [List.reverse_append, firstEntry_append]

theorem lastEntry_eq_some {xs : List item} {k : key} {x : item}
    (h : lastEntry keyOf xs k = some x) : x ∈ xs ∧ keyOf x = k := by
  rcases firstEntry_eq_some h with ⟨hx, hk⟩
  exact ⟨List.mem_reverse.mp hx, hk⟩

theorem lastEntry_isSome_iff {xs : List item} {k : key} :
    (lastEntry keyOf xs k).isSome <-> exists x, x ∈ xs ∧ keyOf x = k := by
  unfold lastEntry
  rw [firstEntry_isSome_iff]
  simp only [List.mem_reverse]

theorem firstEntry_single_ne {x : item} {k : key} (h : keyOf x ≠ k) :
    firstEntry keyOf [x] k = none := by
  simp [firstEntry, h]

/-- Appending an entry only when its key was not seen leaves the same first
entries as appending it always. -/
theorem firstEntry_append_unless_seen
    {xs raw : List item} {seen : Finset key} (x : item)
    (hsame : forall k, firstEntry keyOf xs k = firstEntry keyOf raw k)
    (hseen : forall k, k ∈ seen -> (firstEntry keyOf raw k).isSome) :
    (forall k,
      firstEntry keyOf (if keyOf x ∈ seen then xs else xs ++ [x]) k =
        firstEntry keyOf (raw ++ [x]) k) ∧
    (forall k, k ∈ insert (keyOf x) seen ->
      (firstEntry keyOf (raw ++ [x]) k).isSome) := by
  constructor
  · intro k
    by_cases hx : keyOf x ∈ seen
    · rw [if_pos hx, hsame]
      by_cases hk : keyOf x = k
      · have hsome := hseen (keyOf x) hx
        rw [hk] at hsome
        rw [firstEntry_append_of_isSome [x] hsome]
      · rw [firstEntry_append, firstEntry_single_ne hk, Option.or_none]
    · rw [if_neg hx, firstEntry_append, firstEntry_append, hsame]
  · intro k hk
    rcases Finset.mem_insert.mp hk with hkx | hkseen
    · rw [hkx, firstEntry_isSome_iff]
      exact ⟨x, List.mem_append_right raw List.mem_cons_self, rfl⟩
    · exact firstEntry_isSome_append_left [x] (hseen k hkseen)

theorem firstEntry_of_agree {xs : List item} {x : item}
    (hx : x ∈ xs)
    (hagree : forall y, y ∈ xs -> keyOf y = keyOf x -> y = x) :
    firstEntry keyOf xs (keyOf x) = some x := by
  have hsome : (firstEntry keyOf xs (keyOf x)).isSome :=
    firstEntry_isSome_of_mem hx
  rcases Option.isSome_iff_exists.mp hsome with ⟨y, hy⟩
  rcases firstEntry_eq_some hy with ⟨hmem, hkey⟩
  rw [hy, hagree y hmem hkey]

theorem filter_key_eq_singleton {xs : List item} {x : item}
    (hkeys : (xs.map keyOf).Nodup) (hx : x ∈ xs) :
    xs.filter (fun y => decide (keyOf y = keyOf x)) = [x] := by
  induction xs with
  | nil => cases hx
  | cons y rest ih =>
      rw [List.map_cons, List.nodup_cons] at hkeys
      rcases List.mem_cons.mp hx with rfl | hrest
      · rw [List.filter_cons_of_pos (by simp), List.cons.injEq]
        constructor
        · rfl
        · apply List.filter_eq_nil_iff.mpr
          intro z hz hkey
          apply hkeys.left
          rw [← of_decide_eq_true hkey]
          exact List.mem_map_of_mem hz
      · have hne : keyOf y ≠ keyOf x := by
          intro heq
          apply hkeys.left
          rw [heq]
          exact List.mem_map_of_mem hrest
        rw [List.filter_cons_of_neg (by simpa using hne)]
        exact ih hkeys.right hrest

/-- In a list of blocks that each begin with the entry of their own key, that
entry is the first one of the key unless an earlier block has one already. -/
theorem firstEntry_blocks {own : key -> item} {others : key -> List item}
    {P : item -> Prop} (hkey : forall c, keyOf (own c) = c)
    (hown : forall c, P (own c))
    (hothers : forall c y, y ∈ others c -> ¬ P y)
    {cs : List key} (hnodup : cs.Nodup) {k : key} (hk : k ∈ cs) :
    (exists x, firstEntry keyOf
        (cs.flatMap (fun c => own c :: others c)) k = some x ∧ P x) <->
      forall c, [c, k].Sublist cs -> forall y, y ∈ others c -> keyOf y ≠ k := by
  induction cs with
  | nil => cases hk
  | cons a rest ih =>
      rw [List.nodup_cons] at hnodup
      rw [List.flatMap_cons]
      by_cases ha : a = k
      · subst a
        have hfirst : firstEntry keyOf ((own k :: others k) ++
            rest.flatMap (fun c => own c :: others c)) k = some (own k) := by
          unfold firstEntry
          rw [List.cons_append, List.find?_cons_of_pos (by simp [hkey])]
        rw [hfirst]
        constructor
        · intro _ c hsub
          exfalso
          apply hnodup.left
          rcases List.sublist_cons_iff.mp hsub with hrest | ⟨tail, heq, htail⟩
          · exact hrest.subset (List.mem_cons_of_mem c List.mem_cons_self)
          · rcases List.cons.inj heq with ⟨_, rfl⟩
            exact htail.subset List.mem_cons_self
        · intro _
          exact ⟨own k, rfl, hown k⟩
      · have hrest : k ∈ rest := by
          rcases List.mem_cons.mp hk with heq | hmem
          · exact absurd heq.symm ha
          · exact hmem
        have hself : firstEntry keyOf (own a :: others a) k =
            firstEntry keyOf (others a) k := by
          unfold firstEntry
          rw [List.find?_cons_of_neg (by simp [hkey, ha])]
        rw [firstEntry_append, hself]
        cases hblock : firstEntry keyOf (others a) k with
        | some y =>
            rcases firstEntry_eq_some hblock with ⟨hy, hyk⟩
            constructor
            · intro h
              rcases h with ⟨x, hx, hP⟩
              rcases Option.some.inj hx with rfl
              exact absurd hP (hothers a y hy)
            · intro h
              have hsub : [a, k].Sublist (a :: rest) :=
                List.Sublist.cons_cons a (List.singleton_sublist.mpr hrest)
              exact absurd hyk (h a hsub y hy)
        | none =>
            have hnone : forall y, y ∈ others a -> keyOf y ≠ k := by
              intro y hy hyk
              have hsome := firstEntry_isSome_iff.mpr ⟨y, hy, hyk⟩
              rw [hblock] at hsome
              cases hsome
            rw [Option.none_or, ih hnodup.right hrest]
            constructor
            · intro h c hsub
              rcases List.sublist_cons_iff.mp hsub with hs | ⟨tail, heq, _⟩
              · exact h c hs
              · rcases List.cons.inj heq with ⟨rfl, _⟩
                exact hnone
            · intro h c hsub
              exact h c (hsub.cons a)

end FirstEntry

end Lib
end Protort
