import Mathlib.Logic.Function.Basic
import Protort.Lib.Exceptions
import Protort.Lib.Runs

/-!
# Threads over a shared state

Each thread works through a program of its own in atomic acts: an act reads and
changes the state that all threads share, may throw, and leaves the place in the
program where the thread goes on.  A run takes the acts in any order.  A thread
that is alone does what its program does.
-/

namespace Protort
namespace Lib

universe u v

structure Threads (thread : Type u) (place : Type v) (shared : Type v) where
  shared : shared
  place : thread -> place

namespace Threads

variable {thread : Type u} {input : Type u} {place shared error : Type v}
  [DecidableEq thread]

/-- One act of the thread that an event names, if it does not throw. -/
def step (act : thread -> input -> place -> EStateM error shared place)
    (s : Threads thread place shared) (event : thread × input) :
    Option (Threads thread place shared) :=
  match act event.1 event.2 (s.place event.1) s.shared with
  | EStateM.Result.ok next after =>
      some
        { shared := after
          place := Function.update s.place event.1 next }
  | EStateM.Result.error _ _ => none

section Steps

variable {act : thread -> input -> place -> EStateM error shared place}
  {s t : Threads thread place shared} {i : thread} {x : input}

theorem step_eq_some : step act s (i, x) = some t <->
    exists next, act i x (s.place i) s.shared =
        EStateM.Result.ok next t.shared ∧
      t.place = Function.update s.place i next := by
  unfold step
  cases hact : act i x (s.place i) s.shared with
  | error e after =>
      constructor
      · intro h
        cases h
      · intro h
        rcases h with ⟨next, h, _⟩
        cases h
  | ok next after =>
      constructor
      · intro h
        cases h
        exact ⟨next, rfl, rfl⟩
      · intro h
        rcases t with ⟨after', place'⟩
        rcases h with ⟨next', hok, hplace⟩
        cases hok
        cases hplace
        rfl

theorem place_of_ne (h : step act s (i, x) = some t) {j : thread}
    (hj : j ≠ i) : t.place j = s.place j := by
  rcases step_eq_some.mp h with ⟨next, _, hplace⟩
  rw [hplace, Function.update_of_ne hj]

end Steps

/-- When every act leaves to be done what its program has left, a thread that
runs alone gets to where the program alone gets. -/
theorem remaining_of_alone {result : Type v}
    {act : thread -> input -> place -> EStateM error shared place}
    {remaining : place -> EStateM error shared result} {i : thread} {x : input}
    (hact : forall p, (act i x p >>= remaining) = remaining p)
    {s t : Threads thread place shared} {events : List (thread × input)}
    (hrun : Run (Steps (step act)) s events t)
    (halone : forall event, event ∈ events -> event = (i, x)) :
    remaining (t.place i) t.shared = remaining (s.place i) s.shared := by
  induction hrun with
  | nil s => rfl
  | @cons s u t event events hstep _ ih =>
      rw [ih (fun e he => halone e (List.mem_cons_of_mem event he))]
      rcases halone event List.mem_cons_self with rfl
      rcases step_eq_some.mp hstep with ⟨next, hok, hplace⟩
      rw [hplace, Function.update_self, ← hact (s.place i)]
      exact (Exceptions.bind_ok hok).symm

end Threads

end Lib
end Protort
