import Mathlib.Logic.Basic

/-!
# Stateful programs that throw

A program over a state that may throw keeps the state it had reached when the
exception left it.  Two kinds of fact are enough for the loops of this
development: what a program may do to the state on any way out, stated as a
relation between the state before and after, and that a loop whose body returns
normally under an invariant returns normally as a whole.
-/

namespace Protort
namespace Lib

universe u

namespace Exceptions

variable {error state value result item : Type u}

def finalState : EStateM.Result error state value -> state
  | EStateM.Result.ok _ s => s
  | EStateM.Result.error _ s => s

@[simp] theorem finalState_ok (x : value) (s : state) :
    finalState (EStateM.Result.ok x s : EStateM.Result error state value) = s :=
  rfl

@[simp] theorem finalState_error (e : error) (s : state) :
    finalState
      (EStateM.Result.error e s : EStateM.Result error state value) = s :=
  rfl

/-!
## Running the primitives
-/

section Primitives

variable {error state value result : Type u}

@[simp] theorem run_get_bind (f : state -> EStateM error state result)
    (s : state) :
    ((get : EStateM error state state) >>= f) s = f s s := rfl

@[simp] theorem run_modify (g : state -> state) (s : state) :
    (modify g : EStateM error state PUnit) s =
      EStateM.Result.ok PUnit.unit (g s) := rfl

@[simp] theorem run_modify_bind (g : state -> state) (s : state)
    (f : PUnit -> EStateM error state result) :
    ((modify g : EStateM error state PUnit) >>= f) s =
      f PUnit.unit (g s) := rfl

theorem run_ite (c : Prop) [Decidable c] (m m' : EStateM error state value)
    (s : state) :
    (if c then m else m') s = if c then m s else m' s :=
  apply_ite (fun m => m s) c m m'

end Primitives

/-!
## What a program may do to the state
-/

/-- Every way out of the program relates the state before to the state after. -/
def Within (R : state -> state -> Prop) (m : EStateM error state value) :
    Prop :=
  forall s, R s (finalState (m s))

/-!
## Sequencing

The relation has to be reflexive and transitive for the rules to compose.
-/

theorem bind_ok {m : EStateM error state value}
    {f : value -> EStateM error state result} {x : value} {s s' : state}
    (h : m s = EStateM.Result.ok x s') :
    (m >>= f) s = f x s' := by
  show EStateM.bind m f s = f x s'
  unfold EStateM.bind
  rw [h]

theorem bind_error {m : EStateM error state value}
    {f : value -> EStateM error state result} {e : error} {s s' : state}
    (h : m s = EStateM.Result.error e s') :
    (m >>= f) s = EStateM.Result.error e s' := by
  show EStateM.bind m f s = EStateM.Result.error e s'
  unfold EStateM.bind
  rw [h]

theorem ok_of_bind {m : EStateM error state value}
    {f : value -> EStateM error state result} {y : result} {s t : state}
    (h : (m >>= f) s = EStateM.Result.ok y t) :
    exists x s', m s = EStateM.Result.ok x s' ∧
      f x s' = EStateM.Result.ok y t := by
  cases hm : m s with
  | ok x s' =>
      rw [bind_ok hm] at h
      exact ⟨x, s', rfl, h⟩
  | error e s' =>
      rw [bind_error hm] at h
      cases h

theorem within_bind {R : state -> state -> Prop}
    (htrans : forall s t u, R s t -> R t u -> R s u)
    {m : EStateM error state value}
    {f : value -> EStateM error state result}
    (hm : Within R m) (hf : forall x, Within R (f x)) :
    Within R (m >>= f) := by
  intro s
  have hs := hm s
  cases h : m s with
  | ok x s' =>
      rw [h] at hs
      rw [bind_ok h]
      exact htrans s s' _ hs (hf x s')
  | error e s' =>
      rw [h] at hs
      rw [bind_error h]
      exact hs

theorem within_pure {R : state -> state -> Prop} (hrefl : forall s, R s s)
    (x : value) : Within R (pure x : EStateM error state value) :=
  hrefl

theorem within_forM {R : state -> state -> Prop}
    (hrefl : forall s, R s s)
    (htrans : forall s t u, R s t -> R t u -> R s u)
    {f : item -> EStateM error state PUnit} {xs : List item}
    (hf : forall x, x ∈ xs -> Within R (f x)) :
    Within R (xs.forM f) := by
  induction xs with
  | nil => exact hrefl
  | cons x rest ih =>
      have hrest := ih (fun y hy => hf y (List.mem_cons_of_mem x hy))
      exact within_bind htrans (hf x List.mem_cons_self) (fun _ => hrest)

theorem within_mapM {R : state -> state -> Prop}
    (hrefl : forall s, R s s)
    (htrans : forall s t u, R s t -> R t u -> R s u)
    {f : item -> EStateM error state value} {xs : List item}
    (hf : forall x, x ∈ xs -> Within R (f x)) :
    Within R (xs.mapM f) := by
  induction xs with
  | nil => exact hrefl
  | cons x rest ih =>
      have hrest := ih (fun y hy => hf y (List.mem_cons_of_mem x hy))
      rw [List.mapM_cons]
      exact within_bind htrans (hf x List.mem_cons_self) (fun y =>
        within_bind htrans hrest (fun ys => within_pure hrefl (y :: ys)))

/-!
## Which errors a program may throw
-/

def Throws (P : error -> Prop) (m : EStateM error state value) : Prop :=
  forall s e s', m s = EStateM.Result.error e s' -> P e

theorem throws_bind {P : error -> Prop} {m : EStateM error state value}
    {f : value -> EStateM error state result}
    (hm : Throws P m) (hf : forall x, Throws P (f x)) :
    Throws P (m >>= f) := by
  intro s e s' h
  cases hrun : m s with
  | ok x t =>
      rw [bind_ok hrun] at h
      exact hf x t e s' h
  | error e' t =>
      rw [bind_error hrun] at h
      injection h with he _
      exact he ▸ hm s e' t hrun

theorem throws_forM {P : error -> Prop}
    {f : item -> EStateM error state PUnit} {xs : List item}
    (hf : forall x, x ∈ xs -> Throws P (f x)) : Throws P (xs.forM f) := by
  induction xs with
  | nil =>
      intro s e s' h
      cases h
  | cons x rest ih =>
      have hrest := ih (fun y hy => hf y (List.mem_cons_of_mem x hy))
      exact throws_bind (hf x List.mem_cons_self) (fun _ => hrest)

/-!
## Loops that return normally

The invariant sees the items handled so far, so that it can say what the loop
has built out of them.
-/

theorem forM_ok {f : item -> EStateM error state PUnit}
    (Inv : List item -> state -> Prop) :
    forall {xs : List item} {done : List item} {s : state},
      (forall front x back s,
        done ++ xs = front ++ x :: back -> Inv front s ->
        exists s', f x s = EStateM.Result.ok PUnit.unit s' ∧
          Inv (front ++ [x]) s') ->
      Inv done s ->
      exists s', xs.forM f s = EStateM.Result.ok PUnit.unit s' ∧
        Inv (done ++ xs) s'
  | [], done, s, _, hinv => by
      exists s
      constructor
      · exact rfl
      rw [List.append_nil]
      exact hinv
  | x :: rest, done, s, hstep, hinv => by
      rcases hstep done x rest s rfl hinv with ⟨s1, hx, hinv1⟩
      have happend : (done ++ [x]) ++ rest = done ++ x :: rest := by
        simp
      have hrest := forM_ok Inv
        (fun front y back s heq => hstep front y back s (happend ▸ heq)) hinv1
      rcases hrest with ⟨s2, hforM, hinv2⟩
      refine ⟨s2, ?_, ?_⟩
      · show (f x >>= fun _ => rest.forM f) s = _
        rw [bind_ok hx]
        exact hforM
      · rw [← happend]
        exact hinv2

/-- What a loop does if it returns at all: the invariant at the end. -/
theorem forM_inv_of_mem {f : item -> EStateM error state PUnit}
    (Inv : List item -> state -> Prop) :
    forall {xs : List item} {done : List item} {s s' : state},
      (forall front x s s', x ∈ xs -> Inv front s ->
        f x s = EStateM.Result.ok PUnit.unit s' -> Inv (front ++ [x]) s') ->
      Inv done s ->
      xs.forM f s = EStateM.Result.ok PUnit.unit s' ->
      Inv (done ++ xs) s'
  | [], done, s, s', _, hinv, hrun => by
      cases hrun
      rw [List.append_nil]
      exact hinv
  | x :: rest, done, s, s', hstep, hinv, hrun => by
      have hrun' : (f x >>= fun _ => rest.forM f) s =
          EStateM.Result.ok PUnit.unit s' := hrun
      rcases ok_of_bind hrun' with ⟨_, s1, hx, hrest⟩
      have hinv1 := hstep done x s s1 List.mem_cons_self hinv hx
      have h := forM_inv_of_mem Inv
        (fun front y s s' hy => hstep front y s s' (List.mem_cons_of_mem x hy))
        hinv1 hrest
      simpa using h

theorem forM_inv_of_ok {f : item -> EStateM error state PUnit}
    (Inv : List item -> state -> Prop) {xs done : List item} {s s' : state}
    (hstep : forall front x s s', Inv front s ->
      f x s = EStateM.Result.ok PUnit.unit s' -> Inv (front ++ [x]) s')
    (hinv : Inv done s) (hrun : xs.forM f s = EStateM.Result.ok PUnit.unit s') :
    Inv (done ++ xs) s' :=
  forM_inv_of_mem Inv (fun front x s s' _ => hstep front x s s') hinv hrun

theorem forM_keeps {f : item -> EStateM error state PUnit}
    (Inv : state -> Prop)
    (hstep : forall x s s', Inv s ->
      f x s = EStateM.Result.ok PUnit.unit s' -> Inv s')
    {xs : List item} {s s' : state} (hinv : Inv s)
    (hrun : xs.forM f s = EStateM.Result.ok PUnit.unit s') : Inv s' :=
  @forM_inv_of_ok _ _ _ f (fun _ => Inv) xs [] s s'
    (fun _ => hstep) hinv hrun

theorem forM_append_ok {f : item -> EStateM error state PUnit} :
    forall {xs ys : List item} {s s' : state},
      xs.forM f s = EStateM.Result.ok PUnit.unit s' ->
        (xs ++ ys).forM f s = ys.forM f s'
  | [], ys, s, s', h => by
      cases h
      rfl
  | x :: rest, ys, s, s', h => by
      have hrun : (f x >>= fun _ => rest.forM f) s =
          EStateM.Result.ok PUnit.unit s' := h
      rcases ok_of_bind hrun with ⟨_, s1, hx, hrest⟩
      show (f x >>= fun _ => (rest ++ ys).forM f) s = _
      rw [bind_ok hx]
      exact forM_append_ok hrest

/-!
## Programs that return under a condition

The condition, the value and the new state do not depend on the state.
-/

section Does

variable {error state value result : Type u}

/-- The program returns a value and changes the state by a function where a
condition holds, and throws where it does not. -/
def Does (P : Prop) (x : value) (g : state -> state)
    (m : EStateM error state value) : Prop :=
  forall s, (P -> m s = EStateM.Result.ok x (g s)) ∧
    (¬ P -> exists e s', m s = EStateM.Result.error e s')

theorem Does.congr {P Q : Prop} {x : value} {g : state -> state}
    {m : EStateM error state value} (h : Does P x g m) (hiff : P <-> Q) :
    Does Q x g m :=
  fun s => ⟨fun hq => (h s).left (hiff.mpr hq),
    fun hq => (h s).right (mt hiff.mp hq)⟩

theorem does_pure (x : value) :
    Does True x id (pure x : EStateM error state value) :=
  fun _ => ⟨fun _ => rfl, fun h => absurd trivial h⟩

theorem does_throw {P : Prop} {e : error} {x : value} {g : state -> state}
    (h : ¬ P) : Does P x g (throw e : EStateM error state value) :=
  fun s => ⟨fun hp => absurd hp h, fun _ => ⟨e, s, rfl⟩⟩

theorem does_modify (g : state -> state) :
    Does True PUnit.unit g (modify g : EStateM error state PUnit) :=
  fun _ => ⟨fun _ => rfl, fun h => absurd trivial h⟩

theorem Does.bind_throws {P Q : Prop} {x : value} {y : result}
    {g g' : state -> state} {m : EStateM error state value} (hm : Does P x g m)
    (hp : ¬ P) (hq : ¬ Q) (f : value -> EStateM error state result) :
    Does Q y g' (m >>= f) := by
  intro s
  rcases (hm s).right hp with ⟨e, s', he⟩
  rw [bind_error he]
  exact ⟨fun h => absurd h hq, fun _ => ⟨e, s', rfl⟩⟩

theorem Does.bind {P Q : Prop} {x : value} {y : result} {g : state -> state}
    {m : EStateM error state value} {f : value -> EStateM error state result}
    (hm : Does P x id m) (hf : Does Q y g (f x)) :
    Does (P ∧ Q) y g (m >>= f) := by
  intro s
  by_cases hp : P
  · rw [bind_ok ((hm s).left hp)]
    constructor
    · intro hpq
      exact (hf s).left hpq.right
    · intro hpq
      exact (hf s).right (fun hq => hpq ⟨hp, hq⟩)
  · exact hm.bind_throws hp (fun hpq => hp hpq.left) f s

theorem does_forM {f : item -> EStateM error state PUnit} {P : item -> Prop}
    {g : item -> state -> state} {xs : List item}
    (h : forall x, x ∈ xs -> Does (P x) PUnit.unit (g x) (f x)) :
    Does (forall x, x ∈ xs -> P x) PUnit.unit
      (fun s => xs.foldl (fun s x => g x s) s) (xs.forM f) := by
  induction xs with
  | nil =>
      exact fun _ => ⟨fun _ => rfl, fun hp => absurd nofun hp⟩
  | cons x rest ih =>
      have hrest := ih (fun y hy => h y (List.mem_cons_of_mem x hy))
      have hfirst := h x List.mem_cons_self
      have hforM : (x :: rest).forM f = (f x >>= fun _ => rest.forM f) := rfl
      intro s
      rw [hforM, List.forall_mem_cons]
      by_cases hx : P x
      · rw [bind_ok ((hfirst s).left hx)]
        constructor
        · intro hp
          exact (hrest (g x s)).left hp.right
        · intro hp
          exact (hrest (g x s)).right (fun hrest => hp ⟨hx, hrest⟩)
      · have hnot : ¬ (P x ∧ forall y, y ∈ rest -> P y) :=
          fun hp => hx hp.left
        have hthrows : Does (P x ∧ forall y, y ∈ rest -> P y) PUnit.unit
            (fun s => (x :: rest).foldl (fun s x => g x s) s)
            (f x >>= fun _ => rest.forM f) := hfirst.bind_throws hx hnot _
        exact hthrows s

end Does

/-!
## Programs that fail without a trace
-/

section Traces

variable {error state value result : Type u}

/-- Whatever way the program ends, it has changed nothing. -/
def Reads (m : EStateM error state value) : Prop :=
  Within (fun s s' => s' = s) m

/-- A program that throws has changed nothing. -/
def Atomic (m : EStateM error state value) : Prop :=
  forall s e s', m s = EStateM.Result.error e s' -> s' = s

theorem reads_pure (x : value) : Reads (pure x : EStateM error state value) :=
  fun _ => rfl

theorem reads_throw (e : error) :
    Reads (throw e : EStateM error state value) :=
  fun _ => rfl

theorem Reads.bind {m : EStateM error state value}
    {f : value -> EStateM error state result}
    (hm : Reads m) (hf : forall x, Reads (f x)) : Reads (m >>= f) :=
  within_bind (fun _ _ _ h h' => h'.trans h) hm hf

theorem Reads.atomic {m : EStateM error state value} (h : Reads m) :
    Atomic m := by
  intro s e s' he
  have hs := h s
  rw [he] at hs
  exact hs

theorem atomic_modify (g : state -> state) :
    Atomic (modify g : EStateM error state PUnit) := by
  intro s e s' h
  cases h

theorem Reads.bind_atomic {m : EStateM error state value}
    {f : value -> EStateM error state result}
    (hm : Reads m) (hf : forall x, Atomic (f x)) : Atomic (m >>= f) := by
  intro s e s' h
  have hs := hm s
  cases hrun : m s with
  | ok x t =>
      rw [hrun] at hs
      rw [bind_ok hrun] at h
      exact (hf x t e s' h).trans hs
  | error e' t =>
      rw [hrun] at hs
      rw [bind_error hrun] at h
      injection h with _ ht
      exact ht.symm.trans hs

/-- A loop whose body fails without a trace leaves what its items up to the
first failing one have done. -/
theorem forM_leaves {f : item -> EStateM error state PUnit}
    {P : item -> Prop} {g : item -> state -> state} {xs : List item}
    (h : forall x, x ∈ xs -> Does (P x) PUnit.unit (g x) (f x))
    (hatomic : forall x, Atomic (f x)) (s : state) :
    exists front back, xs = front ++ back ∧ (forall x, x ∈ front -> P x) ∧
      (forall x, back.head? = some x -> ¬ P x) ∧
      finalState (xs.forM f s) = front.foldl (fun s x => g x s) s := by
  induction xs generalizing s with
  | nil =>
      refine ⟨[], [], rfl, fun _ h => absurd h List.not_mem_nil, ?_, rfl⟩
      intro x hx
      cases hx
  | cons x rest ih =>
      have hforM : (x :: rest).forM f s = (f x >>= fun _ => rest.forM f) s :=
        rfl
      rw [hforM]
      by_cases hx : P x
      · rcases ih (fun y hy => h y (List.mem_cons_of_mem x hy)) (g x s) with
          ⟨front, back, rfl, hfront, hback, hfinal⟩
        refine ⟨x :: front, back, rfl, ?_, hback, ?_⟩
        · exact List.forall_mem_cons.mpr ⟨hx, hfront⟩
        · rw [bind_ok ((h x List.mem_cons_self s).left hx)]
          exact hfinal
      · rcases (h x List.mem_cons_self s).right hx with ⟨e, s', he⟩
        refine ⟨[], x :: rest, rfl, fun _ h => absurd h List.not_mem_nil, ?_, ?_⟩
        · intro y hy
          cases hy
          exact hx
        · rw [bind_error he]
          exact hatomic x s e s' he

end Traces

/-!
## Loops that return exactly when they may

The loop is followed by another one, over a smaller state that a check and a
function without exceptions know all about.
-/

section Checks

universe w

variable {small : Type w}

/-- Every item passes a check on the state in which the loop meets it. -/
def Passes (check : small -> item -> Prop) (next : small -> item -> small) :
    small -> List item -> Prop
  | _, [] => True
  | a, x :: rest => check a x ∧ Passes check next (next a x) rest

theorem passes_of_inv {check : small -> item -> Prop}
    {next : small -> item -> small} (Inv : List item -> small -> Prop)
    {xs done : List item} {a : small}
    (hstep : forall front x back a, done ++ xs = front ++ x :: back ->
      Inv front a -> check a x ∧ Inv (front ++ [x]) (next a x))
    (hinv : Inv done a) : Passes check next a xs := by
  induction xs generalizing done a with
  | nil => exact trivial
  | cons x rest ih =>
      rcases hstep done x rest a rfl hinv with ⟨hcheck, hnext⟩
      refine ⟨hcheck, ih (fun front y back b heq => ?_) hnext⟩
      apply hstep front y back b
      rw [← heq, List.append_assoc]
      rfl

instance (check : small -> item -> Prop) (next : small -> item -> small)
    [forall a x, Decidable (check a x)] :
    forall (a : small) (xs : List item), Decidable (Passes check next a xs)
  | _, [] => isTrue trivial
  | a, x :: rest =>
      @instDecidableAnd _ _ _ (instDecidablePasses check next (next a x) rest)

theorem forM_ok_iff {f : item -> EStateM error state PUnit}
    {check : small -> item -> Prop} {next : small -> item -> small}
    {R : small -> state -> Prop}
    (hcheck : forall {a s} x, R a s ->
      ((exists s', f x s = EStateM.Result.ok PUnit.unit s') <-> check a x))
    (hnext : forall {a s s'} x, R a s ->
      f x s = EStateM.Result.ok PUnit.unit s' -> R (next a x) s')
    {xs : List item} {a : small} {s : state} (h : R a s) :
    (exists s', xs.forM f s = EStateM.Result.ok PUnit.unit s') <->
      Passes check next a xs := by
  induction xs generalizing a s with
  | nil => exact ⟨fun _ => trivial, fun _ => ⟨s, rfl⟩⟩
  | cons x rest ih =>
      have hforM : (x :: rest).forM f s = (f x >>= fun _ => rest.forM f) s :=
        rfl
      rw [hforM]
      constructor
      · intro h
        rcases h with ⟨s', hrun⟩
        rcases ok_of_bind hrun with ⟨_, s1, hx, hrest⟩
        exact ⟨(hcheck x h).mp ⟨s1, hx⟩,
          (ih (hnext x h hx)).mp ⟨s', hrest⟩⟩
      · intro h
        rcases h with ⟨hx, hrest⟩
        rcases (hcheck x h).mpr hx with ⟨s1, hs1⟩
        rw [bind_ok hs1]
        exact (ih (hnext x h hs1)).mpr hrest

def passing (check : small -> item -> Prop) (next : small -> item -> small)
    [forall a x, Decidable (check a x)] : small -> List item -> List item
  | _, [] => []
  | a, x :: rest =>
      if check a x then x :: passing check next (next a x) rest else []

/-- A loop leaves off where the loop over the items that pass returns, when an
item that does not pass leaves the state as it was. -/
theorem forM_passing {f : item -> EStateM error state PUnit}
    {check : small -> item -> Prop} {next : small -> item -> small}
    [forall a x, Decidable (check a x)] {R : small -> state -> Prop}
    (hcheck : forall {a s} x, R a s ->
      ((exists s', f x s = EStateM.Result.ok PUnit.unit s') <-> check a x))
    (hnext : forall {a s s'} x, R a s ->
      f x s = EStateM.Result.ok PUnit.unit s' -> R (next a x) s')
    (hthrow : forall {x s e s'}, f x s = EStateM.Result.error e s' -> s' = s)
    {xs : List item} {a : small} {s : state} (h : R a s) :
    (passing check next a xs).forM f s =
      EStateM.Result.ok PUnit.unit (finalState (xs.forM f s)) := by
  induction xs generalizing a s with
  | nil => rfl
  | cons x rest ih =>
      have hforM : (x :: rest).forM f s = (f x >>= fun _ => rest.forM f) s :=
        rfl
      rw [hforM]
      unfold passing
      cases hx : f x s with
      | ok u s1 =>
          rw [if_pos ((hcheck x h).mp ⟨s1, hx⟩), bind_ok hx]
          have hcons : (x :: passing check next (next a x) rest).forM f s =
              (f x >>= fun _ =>
                (passing check next (next a x) rest).forM f) s := rfl
          rw [hcons, bind_ok hx]
          exact ih (hnext x h hx)
      | error e s1 =>
          have hfails : ¬ check a x := by
            intro hpass
            rcases (hcheck x h).mpr hpass with ⟨s2, hs2⟩
            rw [hx] at hs2
            cases hs2
          rw [if_neg hfails, bind_error hx, hthrow hx]
          rfl

end Checks

end Exceptions

end Lib
end Protort
