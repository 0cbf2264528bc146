import Mathlib.Data.List.Basic

/-!
# Queues of jobs in order

Jobs run in the order in which they were queued.  A job may carry messages,
which are processed when it runs, and it may hold messages that wait: running it
queues jobs that carry these.  A message is sent when the job that holds it is
queued.  What was processed, what is carried and what still waits are then the
messages that were sent, in the order in which they were sent.
-/

namespace Protort
namespace Lib

universe u v w

variable {job : Type u} {message : Type v}

/-- The messages that were sent, split by how far they have come. -/
def Ordered (carried waiting : job -> List message) (ran queue : List job)
    (sent : List message) : Prop :=
  ran.flatMap carried ++ (queue.flatMap carried ++ queue.flatMap waiting) = sent

def IsIdle (carried waiting : job -> List message) (x : job) : Prop :=
  carried x = [] ∧ waiting x = []

namespace Ordered

variable {carried waiting : job -> List message} {ran queue : List job}
  {sent : List message}

theorem processed_first (h : Ordered carried waiting ran queue sent) :
    ran.flatMap carried <+: sent :=
  ⟨_, h⟩

theorem start (h : queue.flatMap carried = []) :
    Ordered carried waiting [] queue (queue.flatMap waiting) := by
  unfold Ordered
  rw [h]
  rfl

theorem add (h : Ordered carried waiting ran queue sent) {new : List job}
    (hnew : new.flatMap carried = []) :
    Ordered carried waiting ran (queue ++ new)
      (sent ++ new.flatMap waiting) := by
  unfold Ordered at *
  rw [List.flatMap_append, List.flatMap_append, hnew, ← h]
  simp only [List.append_assoc, List.append_nil]

theorem run (h : Ordered carried waiting ran queue sent) {index : Nat} {x : job}
    (hx : queue[index]? = some x)
    (horder : (forall y, y ∈ queue.take index ->
      IsIdle carried waiting y) ∨ IsIdle carried waiting x)
    {new : List job} (hnew : new.flatMap carried = waiting x) :
    Ordered carried waiting (ran ++ [x]) (queue.eraseIdx index ++ new)
      (sent ++ new.flatMap waiting) := by
  unfold Ordered at *
  have hsplit : queue = queue.take index ++ x :: queue.drop (index + 1) := by
    rcases List.getElem?_eq_some_iff.mp hx with ⟨hlt, rfl⟩
    rw [List.getElem_cons_drop hlt, List.take_append_drop]
  rw [List.eraseIdx_eq_take_drop_succ]
  rw [hsplit] at h
  simp only [List.flatMap_append, List.flatMap_cons, List.flatMap_nil,
    List.append_assoc, List.append_nil] at h ⊢
  rw [hnew]
  rcases horder with hbefore | hidle
  · have hcarried : (queue.take index).flatMap carried = [] :=
      List.flatMap_eq_nil_iff.mpr (fun y hy => (hbefore y hy).left)
    have hwaiting : (queue.take index).flatMap waiting = [] :=
      List.flatMap_eq_nil_iff.mpr (fun y hy => (hbefore y hy).right)
    rw [hcarried, hwaiting] at h ⊢
    rw [← h]
    simp only [List.nil_append, List.append_assoc]
  · rw [hidle.left, hidle.right] at h
    rw [hidle.left, hidle.right, ← h]
    simp only [List.nil_append, List.append_assoc]

end Ordered

/-!
## Jobs with tags
-/

variable {item : Type u} {tag : Type w}

theorem zip_eraseIdx {items : List item} {tags : List tag} (index : Nat) :
    (items.zip tags).eraseIdx index =
      (items.eraseIdx index).zip (tags.eraseIdx index) := by
  induction items generalizing tags index with
  | nil => rfl
  | cons x items ih =>
      cases tags with
      | nil => simp only [List.zip_nil_right, List.eraseIdx_nil]
      | cons t tags =>
          cases index with
          | zero => rfl
          | succ index => exact congrArg (List.cons (x, t)) (ih index)

theorem mem_zip_of_mem_zip_zip {items : List item} {tags : List tag}
    {marks : List message} {x : item} {t : tag} {m : message}
    (h : (x, t, m) ∈ items.zip (tags.zip marks)) : (x, t) ∈ items.zip tags := by
  induction items generalizing tags marks with
  | nil => cases h
  | cons y items ih =>
      cases tags with
      | nil => cases h
      | cons t' tags =>
          cases marks with
          | nil => cases h
          | cons m' marks =>
              rw [List.zip_cons_cons, List.zip_cons_cons] at h
              rw [List.zip_cons_cons]
              rcases List.mem_cons.mp h with heq | hrest
              · cases heq
                exact List.mem_cons_self
              · exact List.mem_cons_of_mem _ (ih hrest)

/-- An item that is taken out comes before the others, when those in front of it
carry nothing or it carries nothing itself. -/
theorem flatMap_eraseIdx {items : List item} {index : Nat} {x : item}
    (hx : items[index]? = some x) {f : item -> List message}
    (horder : (forall y, y ∈ items.take index -> f y = []) ∨ f x = []) :
    f x ++ (items.eraseIdx index).flatMap f = items.flatMap f := by
  have hsplit : items = items.take index ++ x :: items.drop (index + 1) := by
    rcases List.getElem?_eq_some_iff.mp hx with ⟨hlt, rfl⟩
    rw [List.getElem_cons_drop hlt, List.take_append_drop]
  rw [List.eraseIdx_eq_take_drop_succ]
  nth_rewrite 3 [hsplit]
  rw [List.flatMap_append, List.flatMap_append, List.flatMap_cons]
  rcases horder with hbefore | hsilent
  · rw [List.flatMap_eq_nil_iff.mpr hbefore]
    rfl
  · rw [hsilent]
    rfl

theorem flatMap_zipIdx_eq {items : List item} {index : Nat} {x : item}
    (h : items[index]? = some x) (f : item -> List message) (start : Nat) :
    (items.zipIdx start).flatMap
        (fun entry => if entry.2 = start + index then f entry.1 else []) =
      f x := by
  induction items generalizing index start with
  | nil => cases h
  | cons y items ih =>
      rw [List.zipIdx_cons, List.flatMap_cons]
      cases index with
      | zero =>
          cases h
          have hrest : (items.zipIdx (start + 1)).flatMap
              (fun entry =>
                if entry.2 = start + 0 then f entry.1 else []) = [] := by
            rw [List.flatMap_eq_nil_iff]
            intro entry hentry
            have hle := List.le_snd_of_mem_zipIdx hentry
            exact if_neg (by omega)
          rw [hrest, List.append_nil]
          exact if_pos rfl
      | succ index =>
          have hcount : start + (index + 1) = start + 1 + index := by omega
          rw [if_neg (by omega), hcount]
          exact ih h (start + 1)

end Lib
end Protort
