import Mathlib.Data.List.Forall2

/-!
# Lists with tags

A list and the tags of its items in a second list of the same length, when items
are taken out of the middle and added at the end.
-/

namespace Protort
namespace Lib

universe u v

variable {item : Type u} {tag : Type v} {R : item -> tag -> Prop}
  {items : List item} {tags : List tag}

theorem forall₂_eraseIdx (h : List.Forall₂ R items tags) (index : Nat) :
    List.Forall₂ R (items.eraseIdx index) (tags.eraseIdx index) := by
  rw [List.eraseIdx_eq_take_drop_succ, List.eraseIdx_eq_take_drop_succ]
  exact List.rel_append (List.forall₂_take index h)
    (List.forall₂_drop (index + 1) h)

theorem exists_tag (h : List.Forall₂ R items tags) {index : Nat} {x : item}
    (hx : items[index]? = some x) :
    exists t, tags[index]? = some t ∧ R x t := by
  induction h generalizing index with
  | nil => cases hx
  | @cons a b items tags hab _ ih =>
      cases index with
      | zero =>
          cases hx
          exact ⟨b, rfl, hab⟩
      | succ index => exact ih hx

theorem forall₂_append (h : List.Forall₂ R items tags) {added : List item}
    {tagOf : item -> tag} (hadded : forall x, x ∈ added -> R x (tagOf x)) :
    List.Forall₂ R (items ++ added) (tags ++ added.map tagOf) :=
  List.rel_append h
    (List.forall₂_map_right_iff.mpr (List.forall₂_same.mpr hadded))

end Lib
end Protort
