import Mathlib.Data.List.Infix
import Protort.Lib.Runs

/-!
# Services

A service that is called by one caller, which waits for the result of a call
before it makes the next one.  A call is served in one step; between the steps
the service may do other things.
-/

namespace Protort
namespace Lib

universe u v w

/-- The state of a service with the calls that were made, what the service
answered to them and what the caller got, each in order. -/
structure Service (state : Type u) (request : Type v) (response : Type w) where
  state : state
  asked : List request
  answers : List response
  results : List response

namespace Service

variable {state : Type u} {request : Type v} {response : Type w}

inductive Event where
  | call
  | serve
  | result
  | elsewhere

def start (s : state) : Service state request response :=
  { state := s
    asked := []
    answers := []
    results := [] }

inductive Step (handles : state -> request -> response -> state -> Prop)
    (moves : state -> state -> Prop) :
    Service state request response -> Event ->
      Service state request response -> Prop where
  | call {s : Service state request response} (x : request) :
      s.results.length = s.asked.length ->
      Step handles moves s Event.call { s with asked := s.asked ++ [x] }
  | serve {s : Service state request response} {x : request} {y : response}
      {t : state} :
      s.asked[s.answers.length]? = some x -> handles s.state x y t ->
      Step handles moves s Event.serve
        { s with
          state := t
          answers := s.answers ++ [y] }
  | result {s : Service state request response} {y : response} :
      s.answers[s.results.length]? = some y ->
      Step handles moves s Event.result
        { s with results := s.results ++ [y] }
  | elsewhere {s : Service state request response} {t : state} :
      moves s.state t ->
      Step handles moves s Event.elsewhere { s with state := t }

/-- At most one call is not through, and the caller got what was answered. -/
structure OneByOne (s : Service state request response) : Prop where
  results : List.IsPrefix s.results s.answers
  served : s.answers.length <= s.asked.length
  waits : s.asked.length <= s.results.length + 1

theorem oneByOne_start (s : state) :
    OneByOne (start s : Service state request response) :=
  { results := List.prefix_rfl
    served := Nat.le_refl _
    waits := Nat.zero_le _ }

theorem append_getElem_isPrefix {item : Type u} {xs ys : List item} {y : item}
    (h : List.IsPrefix xs ys) (hy : ys[xs.length]? = some y) :
    List.IsPrefix (xs ++ [y]) ys := by
  rcases h with ⟨rest, rfl⟩
  cases rest with
  | nil =>
      rw [List.append_nil, List.getElem?_eq_none (Nat.le_refl _)] at hy
      cases hy
  | cons x rest =>
      rw [List.getElem?_append_right (Nat.le_refl _), Nat.sub_self] at hy
      cases hy
      exact ⟨rest, List.append_assoc xs [y] rest⟩

theorem OneByOne.step {handles : state -> request -> response -> state -> Prop}
    {moves : state -> state -> Prop} {s t : Service state request response}
    {e : Event} (h : OneByOne s) (hstep : Step handles moves s e t) :
    OneByOne t := by
  cases hstep with
  | call x hidle =>
      refine
        { results := h.results
          served := ?_
          waits := ?_ }
      · exact h.served.trans (by simp)
      · show (s.asked ++ [x]).length <= s.results.length + 1
        rw [List.length_append, hidle]
        rfl
  | serve hx hhandles =>
      refine
        { results := h.results.trans (List.prefix_append _ _)
          served := ?_
          waits := h.waits }
      rw [List.length_append]
      exact List.getElem?_eq_some_iff.mp hx |>.choose
  | result hy =>
      refine
        { results := append_getElem_isPrefix h.results hy
          served := h.served
          waits := ?_ }
      rw [List.length_append]
      exact h.waits.trans (Nat.le_succ _)
  | elsewhere hmoves =>
      exact
        { results := h.results
          served := h.served
          waits := h.waits }

theorem oneByOne_of_reaches
    {handles : state -> request -> response -> state -> Prop}
    {moves : state -> state -> Prop} {s : state}
    {t : Service state request response}
    (h : Reaches (Step handles moves) (start s) t) : OneByOne t := by
  rcases h with ⟨labels, hrun⟩
  exact hrun.invariant (fun hstep h => h.step hstep) (oneByOne_start s)

end Service

end Lib
end Protort
