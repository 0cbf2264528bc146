import Mathlib.Algebra.Ring.Nat
import Mathlib.Logic.Relation

/-!
# Runs of labelled transition systems

Runs of a step relation with labels, the invariant rule for them, runs whose
steps all meet a condition, and forward simulation of one system by another
where a step may be matched by any number of steps, also by none.
-/

namespace Protort
namespace Lib

universe u v w

variable {state : Type u} {label : Type v} {result : Type w}

inductive Run (step : state -> label -> state -> Prop) :
    state -> List label -> state -> Prop where
  | nil (s : state) : Run step s [] s
  | cons {s t u : state} {a : label} {labels : List label} :
      step s a t -> Run step t labels u -> Run step s (a :: labels) u

def Guarded (guard : state -> label -> Prop)
    (step : state -> label -> state -> Prop) :
    state -> label -> state -> Prop :=
  fun s a t => guard s a ∧ step s a t

/-- The steps of a function that says what each label does, if anything. -/
def Steps (step : state -> label -> Option state) :
    state -> label -> state -> Prop :=
  fun s a t => step s a = some t

def execute (step : state -> label -> Option state) :
    state -> List label -> Option state
  | s, [] => some s
  | s, a :: labels => (step s a).bind (fun t => execute step t labels)

/-- A property of every step that is taken when the labels are followed. -/
def Along (step : state -> label -> Option state)
    (P : state -> label -> state -> Prop) : state -> List label -> Prop
  | _, [] => True
  | s, a :: labels =>
      forall t, step s a = some t -> P s a t ∧ Along step P t labels

/-- Every step can be taken when the labels are followed, and has a
property. -/
def Throughout (step : state -> label -> Option state)
    (P : state -> label -> state -> Prop) : state -> List label -> Prop
  | _, [] => True
  | s, a :: labels =>
      exists t, step s a = some t ∧ P s a t ∧ Throughout step P t labels

/-- A condition that is met before every step when the labels are followed. -/
def Meets (step : state -> label -> Option state)
    (C : state -> label -> Prop) : state -> List label -> Prop
  | _, [] => True
  | s, a :: labels =>
      C s a ∧ forall t, step s a = some t -> Meets step C t labels

/-- Add up a number for every step that is taken when the labels are
followed. -/
def tally (step : state -> label -> Option state)
    (f : state -> label -> state -> Nat) : state -> List label -> Nat
  | _, [] => 0
  | s, a :: labels =>
      match step s a with
      | some t => f s a t + tally step f t labels
      | none => 0

/-- Two properties of steps agree along every run when they agree where an
invariant holds, and the invariant holds as long as the properties do. -/
theorem along_iff {step : state -> label -> Option state}
    {P Q : state -> label -> state -> Prop} {Inv : state -> Prop}
    (hinv : forall {s a t}, step s a = some t -> Inv s -> P s a t -> Inv t)
    (h : forall {s a t}, step s a = some t -> Inv s -> (P s a t <-> Q s a t))
    {s : state} {labels : List label} (hs : Inv s) :
    Along step P s labels <-> Along step Q s labels := by
  induction labels generalizing s with
  | nil => exact Iff.rfl
  | cons a labels ih =>
      apply forall_congr'
      intro t
      apply imp_congr_right
      intro hstep
      constructor
      · intro h
        rcases h with ⟨hp, hrest⟩
        exact ⟨(h hstep hs).mp hp, (ih (hinv hstep hs hp)).mp hrest⟩
      · intro h
        rcases h with ⟨hq, hrest⟩
        have hp := (h hstep hs).mpr hq
        exact ⟨hp, (ih (hinv hstep hs hp)).mpr hrest⟩

theorem along_congr {step : state -> label -> Option state}
    {P Q : state -> label -> state -> Prop} {Inv : state -> Prop}
    (hinv : forall {s a t}, step s a = some t -> Inv s -> Inv t)
    (h : forall {s a t}, step s a = some t -> Inv s -> (P s a t <-> Q s a t))
    {s : state} {labels : List label} (hs : Inv s) :
    Along step P s labels <-> Along step Q s labels :=
  along_iff (fun hstep hs _ => hinv hstep hs) h hs

theorem meets_cons {step : state -> label -> Option state}
    {C : state -> label -> Prop} {s t : state} {a : label}
    {labels : List label} (hstep : step s a = some t) :
    Meets step C s (a :: labels) <-> C s a ∧ Meets step C t labels := by
  constructor
  · intro h
    exact ⟨h.left, h.right t hstep⟩
  · intro h
    refine ⟨h.left, ?_⟩
    intro u hu
    rw [hstep] at hu
    cases hu
    exact h.right

/-- Steps can be taken throughout and have a property exactly when a condition
is met before each of them that decides this for one step. -/
theorem throughout_iff {step : state -> label -> Option state}
    {P : state -> label -> state -> Prop} {C : state -> label -> Prop}
    {Inv : state -> Prop}
    (hinv : forall {s a t}, step s a = some t -> Inv s -> P s a t -> Inv t)
    (h : forall {s a}, Inv s ->
      ((exists t, step s a = some t ∧ P s a t) <-> C s a))
    {s : state} {labels : List label} (hs : Inv s) :
    Throughout step P s labels <-> Meets step C s labels := by
  induction labels generalizing s with
  | nil => exact Iff.rfl
  | cons a labels ih =>
      constructor
      · intro hthroughout
        rcases hthroughout with ⟨t, hstep, hp, hrest⟩
        refine ⟨(h hs).mp ⟨t, hstep, hp⟩, ?_⟩
        intro u hu
        rw [hstep] at hu
        cases hu
        exact (ih (hinv hstep hs hp)).mp hrest
      · intro hmeets
        rcases hmeets with ⟨hc, hrest⟩
        rcases (h hs).mpr hc with ⟨t, hstep, hp⟩
        exact ⟨t, hstep, hp, (ih (hinv hstep hs hp)).mpr (hrest t hstep)⟩

theorem along_of_execute {step : state -> label -> Option state}
    {P : state -> label -> state -> Prop} {s t : state}
    {labels labels' : List label}
    (hexecute : execute step s labels = some t)
    (h : Along step P s (labels ++ labels')) : Along step P t labels' := by
  induction labels generalizing s with
  | nil =>
      cases hexecute
      exact h
  | cons a labels ih =>
      rcases Option.bind_eq_some_iff.mp hexecute with ⟨u, hstep, hrest⟩
      exact ih hrest (h u hstep).right

theorem along_invariant {step : state -> label -> Option state}
    {P : state -> label -> state -> Prop} (Inv : state -> Prop)
    (hinv : forall {s a t}, P s a t -> Inv s -> Inv t)
    {s t : state} {labels : List label} (h : Along step P s labels)
    (hexecute : execute step s labels = some t) (hs : Inv s) : Inv t := by
  induction labels generalizing s with
  | nil =>
      cases hexecute
      exact hs
  | cons a labels ih =>
      rcases Option.bind_eq_some_iff.mp hexecute with ⟨u, hstep, hrest⟩
      rcases h u hstep with ⟨hp, halong⟩
      exact ih halong hrest (hinv hp hs)

theorem tally_zero (step : state -> label -> Option state) (s : state)
    (labels : List label) : tally step (fun _ _ _ => 0) s labels = 0 := by
  induction labels generalizing s with
  | nil => rfl
  | cons a labels ih =>
      unfold tally
      cases step s a with
      | none => rfl
      | some t => exact (Nat.zero_add _).trans (ih t)

def counted (step : state -> label -> Option state)
    (f : state -> label -> Nat) : state × Nat -> label -> Option (state × Nat) :=
  fun s a => (step s.1 a).map (fun t => (t, s.2 + f s.1 a))

theorem along_counted {step : state -> label -> Option state}
    {f : state -> label -> Nat} {P : state -> label -> state -> Prop}
    {s : state} {k : Nat} {labels : List label} :
    Along (counted step f) (fun s a t => P s.1 a t.1) (s, k) labels <->
      Along step P s labels := by
  induction labels generalizing s k with
  | nil => exact Iff.rfl
  | cons a labels ih =>
      constructor
      · intro h t hstep
        have hcounted : counted step f (s, k) a = some (t, k + f s a) := by
          unfold counted
          rw [hstep]
          rfl
        rcases h _ hcounted with ⟨hp, hrest⟩
        exact ⟨hp, ih.mp hrest⟩
      · intro h t hstep
        rcases Option.map_eq_some_iff.mp hstep with ⟨u, hu, rfl⟩
        rcases h u hu with ⟨hp, hrest⟩
        exact ⟨hp, ih.mpr hrest⟩

namespace Run

variable {step : state -> label -> state -> Prop}

theorem single {s t : state} {a : label} (h : step s a t) :
    Run step s [a] t :=
  Run.cons h (Run.nil t)

theorem append {s t u : state} {xs ys : List label}
    (hleft : Run step s xs t) (hright : Run step t ys u) :
    Run step s (xs ++ ys) u := by
  induction hleft with
  | nil s => exact hright
  | cons hstep _ ih => exact Run.cons hstep (ih hright)

theorem invariant {Inv : state -> Prop} {s t : state} {labels : List label}
    (hrun : Run step s labels t)
    (hstep : forall {s a t}, step s a t -> Inv s -> Inv t) (hinv : Inv s) :
    Inv t := by
  induction hrun with
  | nil s => exact hinv
  | cons h _ ih => exact ih (hstep h hinv)

/-- What every step computes from a part of the state and the label, the whole
run computes from the labels in order. -/
theorem foldl_view {Inv : state -> Prop} {s t : state} {labels : List label}
    (hrun : Run step s labels t)
    (view : state -> result) (f : result -> label -> result)
    (hinv : forall {s a t}, step s a t -> Inv s -> Inv t)
    (hview : forall {s a t}, step s a t -> Inv s -> view t = f (view s) a)
    (hs : Inv s) :
    view t = labels.foldl f (view s) := by
  induction hrun with
  | nil s => rfl
  | cons h _ ih =>
      rw [ih (hinv h hs), hview h hs]
      rfl

/-- When the steps with some of the labels decrease a measure, taking them as
long as possible comes to an end. -/
theorem exists_terminal {Inv : state -> Prop} {among : label -> Prop}
    (measure : state -> Nat)
    (hinv : forall {s a t}, step s a t -> Inv s -> Inv t)
    (hmeasure : forall {s a t}, among a -> step s a t -> Inv s ->
      measure t < measure s) {s : state} (hs : Inv s) :
    exists labels t, Run step s labels t ∧ (forall a, a ∈ labels -> among a) ∧
      forall a u, among a -> ¬ step t a u := by
  induction hn : measure s using Nat.strongRecOn generalizing s with
  | ind n ih =>
      by_cases hstep : exists a u, among a ∧ step s a u
      · rcases hstep with ⟨a, u, ha, hu⟩
        have hless := hmeasure ha hu hs
        rw [hn] at hless
        rcases ih (measure u) hless (hinv hu hs) rfl with
          ⟨labels, t, hrun, hamong, hterminal⟩
        refine ⟨a :: labels, t, Run.cons hu hrun, ?_, hterminal⟩
        intro b hb
        rcases List.mem_cons.mp hb with rfl | hrest
        · exact ha
        · exact hamong b hrest
      · exists []
        exists s
        constructor
        · exact Run.nil s
        constructor
        · exact fun _ h => absurd h List.not_mem_nil
        intro a u ha hu
        exact hstep ⟨a, u, ha, hu⟩

/-- When every step pays for what one number adds with what another adds and
with a measure, so does the whole run. -/
theorem tally_le {next : state -> label -> Option state}
    {guard : state -> label -> Prop} {Inv : state -> Prop}
    {f g : state -> label -> state -> Nat} {s t : state} {labels : List label}
    (hrun : Run (Guarded guard (Steps next)) s labels t)
    (measure : state -> Nat)
    (hinv : forall {s a t}, guard s a -> next s a = some t -> Inv s -> Inv t)
    (h : forall {s a t}, guard s a -> next s a = some t -> Inv s ->
      f s a t + measure t <= g s a t + measure s) (hs : Inv s) :
    tally next f s labels + measure t <= tally next g s labels + measure s := by
  induction hrun with
  | nil s => exact Nat.le_refl _
  | @cons s u t a labels hstep _ ih =>
      rcases hstep with ⟨hguard, hnext⟩
      have hfirst := h hguard hnext hs
      have hrest := ih (hinv hguard hnext hs)
      have hs : next s a = some u := hnext
      rw [tally, tally, hs]
      simp only
      omega

theorem tally_le_measure {next : state -> label -> Option state}
    {guard : state -> label -> Prop} {Inv : state -> Prop}
    {f : state -> label -> state -> Nat} {s t : state} {labels : List label}
    (hrun : Run (Guarded guard (Steps next)) s labels t)
    (measure : state -> Nat)
    (hinv : forall {s a t}, guard s a -> next s a = some t -> Inv s -> Inv t)
    (h : forall {s a t}, guard s a -> next s a = some t -> Inv s ->
      f s a t + measure t <= measure s) (hs : Inv s) :
    tally next f s labels + measure t <= measure s := by
  have hbound := @tally_le _ _ next guard Inv f (fun _ _ _ => 0) s t labels
    hrun measure hinv
    (fun hguard hnext hs => by
      rw [Nat.zero_add]
      exact h hguard hnext hs) hs
  rw [tally_zero, Nat.zero_add] at hbound
  exact hbound

/-- When every step pays for the cost of its label with what the label brings
and with a measure, so does the whole run. -/
theorem cost_le {Inv : state -> Prop} {s t : state} {labels : List label}
    (hrun : Run step s labels t) {cost income : label -> Nat}
    (measure : state -> Nat)
    (hinv : forall {s a t}, step s a t -> Inv s -> Inv t)
    (h : forall {s a t}, step s a t -> Inv s ->
      cost a + measure t <= income a + measure s) (hs : Inv s) :
    (labels.map cost).sum + measure t <=
      (labels.map income).sum + measure s := by
  induction hrun with
  | nil s => exact Nat.le_refl _
  | cons hstep _ ih =>
      have hfirst := h hstep hs
      have hrest := ih (hinv hstep hs)
      rw [List.map_cons, List.map_cons, List.sum_cons, List.sum_cons]
      omega

theorem of_execute {f : state -> label -> Option state} {s t : state}
    {labels : List label} (h : execute f s labels = some t) :
    Run (Steps f) s labels t := by
  induction labels generalizing s with
  | nil =>
      cases h
      exact Run.nil _
  | cons a labels ih =>
      rcases Option.bind_eq_some_iff.mp h with ⟨u, hstep, hrest⟩
      exact Run.cons hstep (ih hrest)

theorem guarded_of_execute {f : state -> label -> Option state}
    {guard : state -> label -> Prop} [forall s a, Decidable (guard s a)]
    {s t : state} {labels : List label}
    (h : execute (fun s a => if guard s a then f s a else none) s labels =
      some t) : Run (Guarded guard (Steps f)) s labels t := by
  induction labels generalizing s with
  | nil =>
      cases h
      exact Run.nil _
  | cons a labels ih =>
      rcases Option.bind_eq_some_iff.mp h with ⟨u, hstep, hrest⟩
      rw [Option.ite_none_right_eq_some] at hstep
      exact Run.cons hstep (ih hrest)

end Run

def Reaches (step : state -> label -> state -> Prop) (s t : state) : Prop :=
  exists labels, Run step s labels t

namespace Reaches

variable {step : state -> label -> state -> Prop}

theorem refl (s : state) : Reaches step s s :=
  ⟨[], Run.nil s⟩

theorem single {s t : state} {a : label} (h : step s a t) :
    Reaches step s t :=
  ⟨[a], Run.single h⟩

theorem trans {s t u : state}
    (hleft : Reaches step s t) (hright : Reaches step t u) :
    Reaches step s u := by
  rcases hleft with ⟨xs, hxs⟩
  rcases hright with ⟨ys, hys⟩
  exact ⟨xs ++ ys, hxs.append hys⟩

end Reaches

section Simulation

variable {concrete : Type u} {abstract : Type w} {event : Type v}

/-- A function that maps every step to a path of the other system maps every
run to a path.  The invariant may be used when a step is matched. -/
theorem Run.simulated
    {step : concrete -> label -> concrete -> Prop}
    {astep : abstract -> event -> abstract -> Prop}
    {s t : concrete} {labels : List label} (hrun : Run step s labels t)
    (abs : concrete -> abstract) (Inv : concrete -> Prop)
    (hinv : forall {s a t}, step s a t -> Inv s -> Inv t)
    (hsim : forall {s a t}, step s a t -> Inv s ->
      Reaches astep (abs s) (abs t)) (hs : Inv s) :
    Reaches astep (abs s) (abs t) := by
  induction hrun with
  | nil s => exact Reaches.refl (abs s)
  | cons h _ ih => exact Reaches.trans (hsim h hs) (ih (hinv h hs))

end Simulation

end Lib
end Protort
