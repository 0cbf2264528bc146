import Mathlib.Data.Set.Card
import Mathlib.Logic.Relation

/-!
# Walks

Walks through a graph whose vertices have a list of successors each.  A walk is
the list of the choices it makes, so that two ways to the same successor are
two walks.  From a vertex below which no path goes on forever there are
finitely many walks, and their number is that of the walks from the successors,
and one more when the empty walk counts.
-/

namespace Protort
namespace Lib
namespace Walks

open Relation (TransGen)

universe u

variable {vertex : Type u}

/-- The vertex that a walk leads to: every number chooses among the successors
of the vertex reached so far. -/
def follow (next : vertex -> List vertex) : vertex -> List Nat -> Option vertex
  | a, [] => some a
  | a, i :: walk => ((next a)[i]?).bind (fun b => follow next b walk)

def walksTo (next : vertex -> List vertex) (P : vertex -> Prop) (a : vertex) :
    Set (List Nat) :=
  {walk | exists b, follow next a walk = some b ∧ P b}

def walksFrom (next : vertex -> List vertex) (P : vertex -> Prop)
    (starts : List vertex) : Set (List Nat) :=
  {walk | exists i rest a, walk = i :: rest ∧ starts[i]? = some a ∧
    rest ∈ walksTo next P a}

noncomputable def count (next : vertex -> List vertex) (P : vertex -> Prop)
    (a : vertex) : Nat :=
  (walksTo next P a).ncard

/-!
## Where a walk starts
-/

section Starts

variable {next : vertex -> List vertex} {P : vertex -> Prop}

def later : List Nat -> List Nat
  | [] => []
  | i :: walk => (i + 1) :: walk

theorem later_injective : Function.Injective later := by
  intro walk walk' h
  cases walk with
  | nil =>
      cases walk' with
      | nil => rfl
      | cons i rest => cases h
  | cons i rest =>
      cases walk' with
      | nil => cases h
      | cons i' rest' =>
          cases h
          rfl

theorem walksFrom_nil : walksFrom next P [] = ∅ := by
  ext walk
  constructor
  · intro h
    rcases h with ⟨i, rest, a, _, hstart, _⟩
    cases hstart
  · intro h
    cases h

theorem walksFrom_cons (a : vertex) (starts : List vertex) :
    walksFrom next P (a :: starts) =
      List.cons 0 '' walksTo next P a ∪ later '' walksFrom next P starts := by
  ext walk
  constructor
  · intro h
    rcases h with ⟨i, rest, b, rfl, hstart, hwalk⟩
    cases i with
    | zero =>
        cases hstart
        exact Or.inl ⟨rest, hwalk, rfl⟩
    | succ i => exact Or.inr ⟨i :: rest, ⟨i, rest, b, rfl, hstart, hwalk⟩, rfl⟩
  · intro hcases
    rcases hcases with
      ⟨rest, hwalk, rfl⟩ | ⟨walk, ⟨i, rest, b, rfl, hstart, hwalk⟩, rfl⟩
    · exact ⟨0, rest, a, rfl, rfl, hwalk⟩
    · exact ⟨i + 1, rest, b, rfl, hstart, hwalk⟩

theorem later_ne_cons (walk rest : List Nat) : later walk ≠ 0 :: rest := by
  intro h
  cases walk with
  | nil => cases h
  | cons i walk => cases h

theorem walksTo_eq (a : vertex) :
    walksTo next P a = {walk | walk = [] ∧ P a} ∪ walksFrom next P (next a) := by
  ext walk
  constructor
  · intro h
    rcases h with ⟨b, hfollow, hb⟩
    cases walk with
    | nil =>
        cases hfollow
        exact Or.inl ⟨rfl, hb⟩
    | cons i rest =>
        rcases Option.bind_eq_some_iff.mp hfollow with ⟨c, hc, hrest⟩
        exact Or.inr ⟨i, rest, c, rfl, hc, b, hrest, hb⟩
  · intro hcases
    rcases hcases with ⟨rfl, ha⟩ | ⟨i, rest, c, rfl, hc, b, hrest, hb⟩
    · exact ⟨a, rfl, ha⟩
    · exact ⟨b, Option.bind_eq_some_iff.mpr ⟨c, hc, hrest⟩, hb⟩

theorem finite_walksFrom {starts : List vertex}
    (h : forall a, a ∈ starts -> (walksTo next P a).Finite) :
    (walksFrom next P starts).Finite := by
  induction starts with
  | nil =>
      rw [walksFrom_nil]
      exact Set.finite_empty
  | cons a starts ih =>
      rw [walksFrom_cons]
      have hhere := h a List.mem_cons_self
      have hthere := ih (fun b hb => h b (List.mem_cons_of_mem a hb))
      exact (hhere.image _).union (hthere.image _)

theorem ncard_walksFrom {starts : List vertex}
    (h : forall a, a ∈ starts -> (walksTo next P a).Finite) :
    (walksFrom next P starts).ncard = (starts.map (count next P)).sum := by
  induction starts with
  | nil => rw [walksFrom_nil, Set.ncard_empty, List.map_nil, List.sum_nil]
  | cons a starts ih =>
      have hhere := h a List.mem_cons_self
      have hrest : forall b, b ∈ starts -> (walksTo next P b).Finite :=
        fun b hb => h b (List.mem_cons_of_mem a hb)
      have hthere := finite_walksFrom hrest
      have hdisjoint : Disjoint (List.cons 0 '' walksTo next P a)
          (later '' walksFrom next P starts) := by
        rw [Set.disjoint_left]
        intro walk hfirst hlater
        rcases hfirst with ⟨rest, _, rfl⟩
        rcases hlater with ⟨walk, _, h⟩
        exact later_ne_cons walk rest h
      rw [walksFrom_cons, Set.ncard_union_eq hdisjoint
        (hhere.image _) (hthere.image _),
        Set.ncard_image_of_injective _ List.cons_injective,
        Set.ncard_image_of_injective _ later_injective, ih hrest,
        List.map_cons, List.sum_cons]
      rfl

end Starts

/-!
## Graphs without infinite paths
-/

section Counting

variable {next : vertex -> List vertex} {P : vertex -> Prop}

theorem finite_walksTo (hnext : WellFounded (fun b a => b ∈ next a))
    (a : vertex) : (walksTo next P a).Finite := by
  induction a using hnext.induction with
  | h a ih =>
      rw [walksTo_eq]
      have hempty : {walk : List Nat | walk = [] ∧ P a}.Finite :=
        (Set.finite_singleton []).subset (fun _ h => h.left)
      exact hempty.union (finite_walksFrom ih)

theorem count_eq (hnext : WellFounded (fun b a => b ∈ next a)) (a : vertex)
    [Decidable (P a)] :
    count next P a =
      (if P a then 1 else 0) + ((next a).map (count next P)).sum := by
  have hfinite : forall b, b ∈ next a -> (walksTo next P b).Finite :=
    fun b _ => finite_walksTo hnext b
  have hdisjoint : Disjoint {walk : List Nat | walk = [] ∧ P a}
      (walksFrom next P (next a)) := by
    rw [Set.disjoint_left]
    intro walk h h'
    rcases h with ⟨rfl, _⟩
    rcases h' with ⟨i, rest, b, h, _⟩
    cases h
  unfold count
  rw [walksTo_eq, Set.ncard_union_eq hdisjoint
    ((Set.finite_singleton []).subset (fun _ h => h.left))
    (finite_walksFrom hfinite), ncard_walksFrom hfinite]
  congr 1
  by_cases ha : P a
  · have hone : {walk : List Nat | walk = [] ∧ P a} = {[]} := by
      ext walk
      exact and_iff_left ha
    rw [hone, if_pos ha, Set.ncard_singleton]
  · have hnone : {walk : List Nat | walk = [] ∧ P a} = ∅ := by
      ext walk
      exact iff_of_false (fun h => ha h.right) (fun h => h)
    rw [hnone, if_neg ha, Set.ncard_empty]

/-- A graph whose edges lead into a finite set has no infinite path when it has
no cycle: along every edge fewer vertices can be reached. -/
theorem wellFounded_of_acyclic {edge : vertex -> vertex -> Prop}
    {targets : Set vertex} (hfinite : targets.Finite)
    (htargets : forall a b, edge a b -> b ∈ targets)
    (hacyclic : forall a, ¬ TransGen edge a a) :
    WellFounded (fun b a => edge a b) := by
  have hreach : forall a, {b | TransGen edge a b}.Finite := by
    intro a
    apply hfinite.subset
    intro b hb
    rcases TransGen.tail'_iff.mp hb with ⟨c, _, hedge⟩
    exact htargets c b hedge
  have hless : forall b a, edge a b ->
      {c | TransGen edge b c}.ncard < {c | TransGen edge a c}.ncard := by
    intro b a hedge
    have hsubset : {c | TransGen edge b c} ⊆ {c | TransGen edge a c} :=
      fun c hc => TransGen.head hedge hc
    have hssubset : {c | TransGen edge b c} ⊂ {c | TransGen edge a c} :=
      (Set.ssubset_iff_of_subset hsubset).mpr
        ⟨b, TransGen.single hedge, hacyclic b⟩
    exact Set.ncard_lt_ncard hssubset (hreach a)
  exact Subrelation.wf (hless _ _)
    (measure (fun a => {c | TransGen edge a c}.ncard)).wf

theorem acyclic_of_rank {edge : vertex -> vertex -> Prop}
    (rank : vertex -> Nat) (h : forall a b, edge a b -> rank a < rank b)
    (a : vertex) : ¬ TransGen edge a a := by
  have hless : forall b, TransGen edge a b -> rank a < rank b := by
    intro b hb
    induction hb with
    | single hedge => exact h a _ hedge
    | tail _ hedge ih => exact ih.trans (h _ _ hedge)
  exact fun ha => Nat.lt_irrefl (rank a) (hless a ha)

end Counting

end Walks
end Lib
end Protort
