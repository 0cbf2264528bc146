import Mathlib.Data.List.Basic

/-!
# Lists without some of their items

One list is another one without some of the items that have a property.  Both
are changed alike by what does not look at these items.
-/

namespace Protort
namespace Lib

universe u

variable {item : Type u} {P Q : item -> Prop}

/-- The first list is the second without some items with a property. -/
inductive Dropping (P : item -> Prop) : List item -> List item -> Prop where
  | nil : Dropping P [] []
  | keep (x : item) {xs ys : List item} :
      Dropping P xs ys -> Dropping P (x :: xs) (x :: ys)
  | drop {x : item} {xs ys : List item} :
      P x -> Dropping P xs ys -> Dropping P xs (x :: ys)

namespace Dropping

variable {xs ys zs xs' ys' : List item}

theorem refl (xs : List item) : Dropping P xs xs := by
  induction xs with
  | nil => exact Dropping.nil
  | cons x xs ih => exact Dropping.keep x ih

theorem trans (h : Dropping P xs ys) (h' : Dropping P ys zs) :
    Dropping P xs zs := by
  induction h' generalizing xs with
  | nil => exact h
  | @keep x ys zs _ ih =>
      cases h with
      | keep _ hrest => exact Dropping.keep x (ih hrest)
      | drop hx hrest => exact Dropping.drop hx (ih hrest)
  | drop hx _ ih => exact Dropping.drop hx (ih h)

theorem mono (h : Dropping P xs ys) (himp : forall x, P x -> Q x) :
    Dropping Q xs ys := by
  induction h with
  | nil => exact Dropping.nil
  | keep x _ ih => exact Dropping.keep x ih
  | @drop x _ _ hx _ ih => exact Dropping.drop (himp x hx) ih

theorem nil_left (h : forall x, x ∈ ys -> P x) : Dropping P [] ys := by
  induction ys with
  | nil => exact Dropping.nil
  | cons y ys ih =>
      exact Dropping.drop (h y List.mem_cons_self)
        (ih (fun x hx => h x (List.mem_cons_of_mem y hx)))

theorem append (h : Dropping P xs ys) (h' : Dropping P xs' ys') :
    Dropping P (xs ++ xs') (ys ++ ys') := by
  induction h with
  | nil => exact h'
  | keep x _ ih => exact Dropping.keep x ih
  | drop hx _ ih => exact Dropping.drop hx ih

theorem append_right (h : Dropping P xs ys) (h' : forall x, x ∈ ys' -> P x) :
    Dropping P xs (ys ++ ys') := by
  have happend := h.append (nil_left h')
  rw [List.append_nil] at happend
  exact happend

theorem mem (h : Dropping P xs ys) {x : item} (hx : x ∈ xs) : x ∈ ys := by
  induction h with
  | nil => exact hx
  | keep y _ ih =>
      rcases List.mem_cons.mp hx with rfl | hrest
      · exact List.mem_cons_self
      · exact List.mem_cons_of_mem y (ih hrest)
  | drop _ _ ih => exact List.mem_cons_of_mem _ (ih hx)

theorem map (h : Dropping P xs ys) {f : item -> item}
    (hf : forall x, P x -> P (f x)) : Dropping P (xs.map f) (ys.map f) := by
  induction h with
  | nil => exact Dropping.nil
  | keep x _ ih => exact Dropping.keep (f x) ih
  | @drop x _ _ hx _ ih => exact Dropping.drop (hf x hx) ih

theorem map_right (h : Dropping P xs ys) {f : item -> item}
    (hf : forall x, P x -> P (f x)) (hid : forall x, x ∈ xs -> f x = x) :
    Dropping P xs (ys.map f) := by
  have hmap := h.map hf
  rw [(List.map_congr_left hid).trans (List.map_id' xs)] at hmap
  exact hmap

theorem eraseIdx (h : Dropping P xs ys) {index : Nat} {x : item}
    (hx : xs[index]? = some x) :
    exists index', ys[index']? = some x ∧
      Dropping P (xs.eraseIdx index) (ys.eraseIdx index') := by
  induction h generalizing index with
  | nil => cases hx
  | @keep y xs ys hrest ih =>
      cases index with
      | zero => exact ⟨0, hx, hrest⟩
      | succ index =>
          rcases ih hx with ⟨index', hfound, herased⟩
          exact ⟨index' + 1, hfound, Dropping.keep y herased⟩
  | drop hy _ ih =>
      rcases ih hx with ⟨index', hfound, herased⟩
      exact ⟨index' + 1, hfound, Dropping.drop hy herased⟩

theorem eraseIdx_right (h : Dropping P xs ys) {index : Nat} {x : item}
    (hx : ys[index]? = some x) :
    (exists index', xs[index']? = some x ∧
      Dropping P (xs.eraseIdx index') (ys.eraseIdx index)) ∨
    (P x ∧ Dropping P xs (ys.eraseIdx index)) := by
  induction h generalizing index with
  | nil => cases hx
  | @keep y xs ys hrest ih =>
      cases index with
      | zero => exact Or.inl ⟨0, hx, hrest⟩
      | succ index =>
          rcases ih hx with ⟨index', hfound, herased⟩ | ⟨hP, herased⟩
          · exact Or.inl ⟨index' + 1, hfound, Dropping.keep y herased⟩
          · exact Or.inr ⟨hP, Dropping.keep y herased⟩
  | @drop y xs ys hy hrest ih =>
      cases index with
      | zero =>
          cases hx
          exact Or.inr ⟨hy, hrest⟩
      | succ index =>
          rcases ih hx with ⟨index', hfound, herased⟩ | ⟨hP, herased⟩
          · exact Or.inl ⟨index', hfound, Dropping.drop hy herased⟩
          · exact Or.inr ⟨hP, Dropping.drop hy herased⟩

end Dropping

end Lib
end Protort
