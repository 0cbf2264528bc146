import Protort.Lib.Exceptions
import Protort.Lib.Runs

/-!
# Programs that do the same from related states

Two programs over a state relate when they come to the same result from related
states, whether they return or throw, and leave related states behind.  What the
relation leaves out of a state is then invisible to the programs.  Two systems
show the same when every step of the one is matched by a run of the other with
the same visible labels, which may be none.
-/

namespace Protort
namespace Lib

universe u

variable {error state value result item : Type u}

/-- The same value is returned or the same error thrown, with related states. -/
inductive SameResult (R : state -> state -> Prop) :
    EStateM.Result error state value -> EStateM.Result error state value ->
      Prop where
  | ok {s t : state} (x : value) :
      R s t -> SameResult R (EStateM.Result.ok x s) (EStateM.Result.ok x t)
  | error {s t : state} (e : error) :
      R s t ->
        SameResult R (EStateM.Result.error e s) (EStateM.Result.error e t)

/-- The program does the same from related states. -/
def Relates (R : state -> state -> Prop) (m : EStateM error state value) :
    Prop :=
  forall s t, R s t -> SameResult R (m s) (m t)

variable {R : state -> state -> Prop}

namespace SameResult

variable {r r' : EStateM.Result error state value}

theorem exists_ok {x : value} {s : state}
    (h : SameResult R (EStateM.Result.ok x s) r') :
    exists t, r' = EStateM.Result.ok x t ∧ R s t := by
  cases h with
  | ok x hR => exact ⟨_, rfl, hR⟩

theorem exists_ok_left {x : value} {t : state}
    (h : SameResult R r (EStateM.Result.ok x t)) :
    exists s, r = EStateM.Result.ok x s ∧ R s t := by
  cases h with
  | ok x hR => exact ⟨_, rfl, hR⟩

theorem exists_error {e : error} {s : state}
    (h : SameResult R (EStateM.Result.error e s) r') :
    exists t, r' = EStateM.Result.error e t ∧ R s t := by
  cases h with
  | error e hR => exact ⟨_, rfl, hR⟩

theorem mono {S : state -> state -> Prop} (h : SameResult R r r')
    (himp : forall s t, R s t -> S s t) : SameResult S r r' := by
  cases h with
  | ok x hR => exact SameResult.ok x (himp _ _ hR)
  | error e hR => exact SameResult.error e (himp _ _ hR)

end SameResult

/-!
## The primitives
-/

theorem relates_pure (x : value) :
    Relates R (pure x : EStateM error state value) :=
  fun _ _ hR => SameResult.ok x hR

theorem relates_throw (e : error) :
    Relates R (throw e : EStateM error state value) :=
  fun _ _ hR => SameResult.error e hR

theorem relates_modify {g : state -> state}
    (hg : forall s t, R s t -> R (g s) (g t)) :
    Relates R (modify g : EStateM error state PUnit) :=
  fun s t hR => SameResult.ok PUnit.unit (hg s t hR)

theorem relates_set {s t : state} (hR : R s t) {s' t' : state} :
    SameResult R ((set s : EStateM error state PUnit) s')
      ((set t : EStateM error state PUnit) t') :=
  SameResult.ok PUnit.unit hR

theorem Relates.bind {m : EStateM error state value}
    {f : value -> EStateM error state result} (hm : Relates R m)
    (hf : forall x, Relates R (f x)) : Relates R (m >>= f) := by
  intro s t hR
  have hsame := hm s t hR
  cases hs : m s with
  | ok x s' =>
      rw [hs] at hsame
      rcases hsame.exists_ok with ⟨t', ht, hnext⟩
      rw [Exceptions.bind_ok hs, Exceptions.bind_ok ht]
      exact hf x s' t' hnext
  | error e s' =>
      rw [hs] at hsame
      rcases hsame.exists_error with ⟨t', ht, hnext⟩
      rw [Exceptions.bind_error hs, Exceptions.bind_error ht]
      exact SameResult.error e hnext

theorem relates_get_bind {f : state -> EStateM error state value}
    (hf : forall s t, R s t -> SameResult R (f s s) (f t t)) :
    Relates R (get >>= f) :=
  fun s t hR => hf s t hR

theorem Relates.ite {c : Prop} [Decidable c] {m m' : EStateM error state value}
    (hm : Relates R m) (hm' : Relates R m') :
    Relates R (if c then m else m') := by
  by_cases hc : c
  · rw [if_pos hc]
    exact hm
  · rw [if_neg hc]
    exact hm'

/-!
## Loops
-/

theorem relates_forM {f : item -> EStateM error state PUnit} {xs : List item}
    (hf : forall x, x ∈ xs -> Relates R (f x)) : Relates R (xs.forM f) := by
  induction xs with
  | nil => exact relates_pure PUnit.unit
  | cons x xs ih =>
      exact (hf x List.mem_cons_self).bind
        (fun _ => ih (fun y hy => hf y (List.mem_cons_of_mem x hy)))

theorem relates_mapM {f : item -> EStateM error state value} {xs : List item}
    (hf : forall x, x ∈ xs -> Relates R (f x)) : Relates R (xs.mapM f) := by
  induction xs with
  | nil => exact relates_pure []
  | cons x xs ih =>
      rw [List.mapM_cons]
      exact (hf x List.mem_cons_self).bind (fun y =>
        (ih (fun z hz => hf z (List.mem_cons_of_mem x hz))).bind
          (fun ys => relates_pure (y :: ys)))

theorem mapM_congr {f g : item -> EStateM error state value} {xs : List item}
    (h : forall x, x ∈ xs -> f x = g x) : xs.mapM f = xs.mapM g := by
  induction xs with
  | nil => rfl
  | cons x xs ih =>
      rw [List.mapM_cons, List.mapM_cons, h x List.mem_cons_self,
        ih (fun y hy => h y (List.mem_cons_of_mem x hy))]

/-!
## Results that may be missing
-/

theorem rel_some_left {R : value -> result -> Prop} {x : Option value}
    {y : Option result} {a : value} (h : Option.Rel R x y) (hx : x = some a) :
    exists b, y = some b ∧ R a b := by
  rw [hx] at h
  cases h with
  | some hR => exact ⟨_, rfl, hR⟩

theorem rel_some_right {R : value -> result -> Prop} {x : Option value}
    {y : Option result} {b : result} (h : Option.Rel R x y) (hy : y = some b) :
    exists a, x = some a ∧ R a b := by
  rw [hy] at h
  cases h with
  | some hR => exact ⟨_, rfl, hR⟩

/-!
## Runs
-/

section Runs

variable {concrete label abstract event view : Type u}

/-- When every step is matched by a run that looks the same, every run is. -/
theorem Run.observed {step : concrete -> label -> concrete -> Prop}
    {astep : abstract -> event -> abstract -> Prop}
    {S : concrete -> abstract -> Prop} (see : label -> Option view)
    (look : event -> Option view)
    (hsim : forall {s t a s'}, step s a s' -> S s t ->
      exists events t', Run astep t events t' ∧
        events.filterMap look = [a].filterMap see ∧ S s' t')
    {s s' : concrete} {labels : List label} (hrun : Run step s labels s')
    {t : abstract} (hS : S s t) :
    exists events t', Run astep t events t' ∧
      events.filterMap look = labels.filterMap see ∧ S s' t' := by
  induction hrun generalizing t with
  | nil s => exact ⟨[], t, Run.nil t, rfl, hS⟩
  | @cons s u s' a labels hstep _ ih =>
      rcases hsim hstep hS with ⟨xs, t', hxs, hsame, hnext⟩
      rcases ih hnext with ⟨ys, t'', hys, hsame', hlast⟩
      refine ⟨xs ++ ys, t'', hxs.append hys, ?_, hlast⟩
      rw [List.filterMap_append, hsame, hsame', ← List.filterMap_append]
      rfl

theorem Run.matched {step : concrete -> label -> concrete -> Prop}
    {astep : abstract -> label -> abstract -> Prop}
    {S : concrete -> abstract -> Prop} (visible : label -> Bool)
    (hsim : forall {s t a s'}, step s a s' -> S s t ->
      exists labels t', Run astep t labels t' ∧
        labels.filter visible = [a].filter visible ∧ S s' t')
    {s s' : concrete} {labels : List label} (hrun : Run step s labels s')
    {t : abstract} (hS : S s t) :
    exists labels' t', Run astep t labels' t' ∧
      labels'.filter visible = labels.filter visible ∧ S s' t' := by
  have hguard := fun xs : List label =>
    congrFun (List.filterMap_eq_filter (p := visible)) xs
  simp only [← hguard] at hsim ⊢
  exact Run.observed _ _ (fun hstep h => hsim hstep h) hrun hS

end Runs

end Lib
end Protort
