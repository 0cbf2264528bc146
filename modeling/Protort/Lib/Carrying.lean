import Protort.Lib.Socket

/-!
# Writes from shared buffers

A socket *carries* some pieces of data when the writes started on it put out
these pieces one after another: either no write has bytes left and everything
is on the wire, or one has and the rest of its piece still lies in its buffer.
It goes on doing so as long as no other write is started and no byte of the
rest is overwritten before that write is through.
-/

namespace Protort
namespace Lib

universe u v

namespace Socket

variable {buffer : Type u} {tag : Type v}

section Pending

variable {item : Type u} {p : item -> Bool}

theorem filter_eraseIdx_of_not {xs : List item} {i : Nat} {x : item}
    (hx : xs[i]? = some x) (hp : p x = false) :
    (xs.eraseIdx i).filter p = xs.filter p := by
  induction xs generalizing i with
  | nil => rfl
  | cons y rest ih =>
      cases i with
      | zero =>
          simp only [List.getElem?_cons_zero, Option.some.injEq] at hx
          subst y
          simp [hp]
      | succ i =>
          rw [List.getElem?_cons_succ] at hx
          rw [List.eraseIdx_cons_succ, List.filter_cons, List.filter_cons,
            ih hx]

theorem filter_set_of_unique {xs : List item} {i : Nat} {x y : item}
    (x' : item) (hx : xs[i]? = some x) (hp : p x = true)
    (hfilter : xs.filter p = [y]) :
    x = y ∧ (xs.set i x').filter p = [x'].filter p := by
  induction xs generalizing i with
  | nil => cases hfilter
  | cons z rest ih =>
      cases i with
      | zero =>
          simp only [List.getElem?_cons_zero, Option.some.injEq] at hx
          subst z
          rw [List.filter_cons, if_pos hp, List.cons.injEq] at hfilter
          rw [List.set_cons_zero, List.filter_cons, hfilter.right]
          exact ⟨hfilter.left, by rw [List.filter_cons, List.filter_nil]⟩
      | succ i =>
          rw [List.getElem?_cons_succ] at hx
          by_cases hz : p z = true
          · rw [List.filter_cons, if_pos hz, List.cons.injEq] at hfilter
            have hmem : x ∈ rest.filter p :=
              List.mem_filter.mpr ⟨List.mem_of_getElem? hx, hp⟩
            rw [hfilter.right] at hmem
            cases hmem
          · rw [List.filter_cons, if_neg hz] at hfilter
            rw [List.set_cons_succ, List.filter_cons, if_neg hz]
            exact ih hx hfilter

end Pending

section Carrying

variable {s t : Socket buffer tag} {pieces : List Bytes}

inductive Carries (pieces : List Bytes) (s : Socket buffer tag) : Prop where
  | settled :
      s.pending = [] -> s.wire = pieces.flatten -> Carries pieces s
  | writing {before : List Bytes} {piece : Bytes}
      {w : PendingWrite buffer tag} :
      s.pending = [w] -> pieces = before ++ [piece] ->
      w.size = piece.length ->
      (s.memory w.source).read w.done (w.size - w.done) = piece.drop w.done ->
      s.wire = before.flatten ++ piece.take w.done ->
      Carries pieces s
  | cut :
      s.closed = true -> List.IsPrefix s.wire pieces.flatten ->
      Carries pieces s

/-- Overwriting a range of a buffer leaves what pending writes still have to
put out as it is. -/
def LeavesPending (s : Socket buffer tag) (target : buffer) (start count : Nat) :
    Prop :=
  forall w, w ∈ s.pending -> w.source = target ->
    start + count <= w.done ∨ w.size <= start

/-- The bytes that a read takes in this step spare the pending writes. -/
def Undisturbed (s : Socket buffer tag) : IoEvent -> Prop
  | IoEvent.readSome count =>
      match s.served with
      | none => True
      | some r => s.LeavesPending r.target r.got count
  | _ => True

instance [DecidableEq buffer] (s : Socket buffer tag) (target : buffer)
    (start count : Nat) : Decidable (s.LeavesPending target start count) :=
  inferInstanceAs (Decidable (forall w, w ∈ s.pending -> _))

instance [DecidableEq buffer] (s : Socket buffer tag) (e : IoEvent) :
    Decidable (s.Undisturbed e) :=
  match e with
  | IoEvent.arrive _ => isTrue trivial
  | IoEvent.finish => isTrue trivial
  | IoEvent.writeSome _ _ => isTrue trivial
  | IoEvent.readSome count =>
      match h : s.served with
      | none => isTrue (by simp [Undisturbed, h])
      | some r =>
          decidable_of_iff (s.LeavesPending r.target r.got count)
            (by simp [Undisturbed, h])

theorem done_lt_of_pending {w : PendingWrite buffer tag}
    (h : w ∈ s.pending) : w.done < w.size :=
  of_decide_eq_true (List.mem_filter.mp h).right

theorem Carries.isPrefix (h : Carries pieces s) :
    List.IsPrefix s.wire pieces.flatten := by
  cases h with
  | settled hpending hwire => exact ⟨[], by rw [hwire, List.append_nil]⟩
  | @writing before piece w hpending hpieces hsize hbuffer hwire =>
      exists piece.drop w.done
      rw [hwire, hpieces, List.append_assoc, List.take_append_drop]
      simp
  | cut hclosed hwire => exact hwire

theorem Carries.eq_flatten (h : Carries pieces s) (hopen : s.closed = false)
    (hidle : s.pending = []) : s.wire = pieces.flatten := by
  cases h with
  | settled hpending hwire => exact hwire
  | writing hpending hpieces hsize hbuffer hwire =>
      rw [hidle] at hpending
      cases hpending
  | cut hclosed hwire =>
      rw [hopen] at hclosed
      cases hclosed

theorem Carries.pending_eq_nil (h : Carries pieces s)
    (hopen : s.closed = false)
    (hlength : pieces.flatten.length <= s.wire.length) : s.pending = [] := by
  cases h with
  | settled hpending hwire => exact hpending
  | @writing before piece w hpending hpieces hsize hbuffer hwire =>
      have hdone : w.done < w.size := by
        apply done_lt_of_pending (s := s)
        rw [hpending]
        exact List.mem_singleton_self w
      rw [hwire, hpieces] at hlength
      simp only [List.flatten_append, List.length_append, List.flatten_cons,
        List.flatten_nil, List.length_nil, List.length_take] at hlength
      omega
  | cut hclosed hwire =>
      rw [hopen] at hclosed
      cases hclosed

theorem carries_connected (memory : buffer -> Memory) :
    Carries [] (connected memory : Socket buffer tag) :=
  Carries.settled rfl rfl

theorem Carries.congr (h : Carries pieces s)
    (hmemory : t.memory = s.memory) (hwrites : t.writes = s.writes)
    (hwire : t.wire = s.wire) (hclosed : s.closed = true -> t.closed = true) :
    Carries pieces t := by
  have hpending : t.pending = s.pending := by rw [pending, pending, hwrites]
  cases h with
  | settled hp hw =>
      exact Carries.settled (hpending.trans hp) (hwire.trans hw)
  | writing hp hpieces hsize hbuffer hw =>
      rw [← hmemory] at hbuffer
      exact Carries.writing (hpending.trans hp) hpieces hsize hbuffer
        (hwire.trans hw)
  | cut hc hw =>
      rw [← hwire] at hw
      exact Carries.cut (hclosed hc) hw

theorem Carries.store [DecidableEq buffer] (h : Carries pieces s)
    {target : buffer} {start : Nat} {bytes : Bytes}
    (hspares : s.LeavesPending target start bytes.length) :
    Carries pieces (s.store target start bytes) := by
  cases h with
  | settled hp hw => exact Carries.settled hp hw
  | @writing before piece w hp hpieces hsize hbuffer hw =>
      refine Carries.writing hp hpieces hsize ?_ hw
      rw [← hbuffer]
      by_cases hsource : w.source = target
      · have hmem : w ∈ s.pending := by
          rw [hp]
          exact List.mem_singleton_self w
        have hdone := done_lt_of_pending hmem
        have hrange := hspares w hmem hsource
        rw [Socket.store]
        simp only [hsource, Function.update_self]
        rcases hrange with hbefore | hafter
        · exact Memory.read_write_after hbefore
        · exact Memory.read_write_before (by omega)
      · rw [Socket.store]
        simp only [Function.update_of_ne hsource]
  | cut hc hw => exact Carries.cut hc hw

theorem Carries.asyncWrite (h : Carries pieces s) (hidle : s.pending = [])
    {source : buffer} {piece : Bytes} (x : tag)
    (hbuffer : (s.memory source).read 0 piece.length = piece) :
    Carries (pieces ++ [piece]) (s.asyncWrite source piece.length x) := by
  cases hclosed : s.closed with
  | true =>
      refine Carries.cut hclosed (h.isPrefix.trans ?_)
      rw [List.flatten_append]
      exact List.prefix_append _ _
  | false =>
      have hwire := h.eq_flatten hclosed hidle
      have hpending : (s.asyncWrite source piece.length x).pending =
          [{ source := source
             size := piece.length
             done := 0
             tag := x }].filter (fun w => decide (w.done < w.size)) := by
        unfold pending at hidle
        rw [pending, Socket.asyncWrite, List.filter_append, hidle,
          List.nil_append]
      by_cases hempty : piece = []
      · subst piece
        refine Carries.settled hpending ?_
        rw [List.flatten_append]
        simpa [Socket.asyncWrite] using hwire
      · have hlength : 0 < piece.length := List.length_pos_iff.mpr hempty
        rw [List.filter_cons_of_pos (by simpa using hlength),
          List.filter_nil] at hpending
        refine Carries.writing hpending rfl rfl ?_ ?_
        · simpa [Socket.asyncWrite] using hbuffer
        · simpa [Socket.asyncWrite] using hwire

theorem Carries.writeSome (h : Carries pieces s) {index count : Nat}
    (hstep : s.writeSome index count = some t) : Carries pieces t := by
  rcases writeSome_eq_some hstep with ⟨w', hw', hopen, hcount, hsize, rfl⟩
  have hmem : w' ∈ s.pending := by
    refine List.mem_filter.mpr ⟨List.mem_of_getElem? hw', ?_⟩
    simp only [decide_eq_true_eq]
    omega
  cases h with
  | settled hp hw =>
      rw [hp] at hmem
      cases hmem
  | @writing before piece w hp hpieces hlength hbuffer hw =>
      rw [hp, List.mem_singleton] at hmem
      subst w'
      have hpending := (filter_set_of_unique
        { w with done := w.done + count } hw' (by simp; omega) hp).right
      -- the chunk is the next part of the piece
      have hsplit : w.size - w.done = count + (w.size - (w.done + count)) := by
        omega
      rw [hsplit, Memory.read_add] at hbuffer
      have hdrop : piece.drop w.done =
          (piece.drop w.done).take count ++ piece.drop (w.done + count) := by
        rw [← List.drop_drop, List.take_append_drop]
      rw [hdrop] at hbuffer
      have hchunk := List.append_inj hbuffer (by simp; omega)
      have hwire : s.wire ++ (s.memory w.source).read w.done count =
          before.flatten ++ piece.take (w.done + count) := by
        rw [hw, hchunk.left, List.append_assoc, List.take_add]
      by_cases hdone : w.done + count = w.size
      · refine Carries.settled (hpending.trans ?_) ?_
        · exact List.filter_cons_of_neg (by simp [hdone])
        · rw [hpieces]
          simp only
          rw [hwire, hdone, hlength]
          simp
      · refine Carries.writing (hpending.trans
          (List.filter_cons_of_pos ?_)) hpieces hlength hchunk.right hwire
        simp only [decide_eq_true_eq]
        omega
  | cut hc hw =>
      rw [hopen] at hc
      cases hc

theorem Carries.readSome [DecidableEq buffer] (h : Carries pieces s)
    {count : Nat} (hspares : s.Undisturbed (IoEvent.readSome count))
    (hstep : s.readSome count = some t) : Carries pieces t := by
  rcases readSome_eq_some hstep with ⟨r, hserved, _, _, hinbox, _, rfl⟩
  have hstored : Carries pieces
      (s.store r.target r.got (s.inbox.take count)) := by
    apply h.store
    rw [List.length_take_of_le hinbox]
    simpa only [Undisturbed, hserved] using hspares
  exact hstored.congr rfl rfl rfl (fun hc => hc)

theorem Carries.progress [DecidableEq buffer] (h : Carries pieces s)
    {e : IoEvent} (hspares : s.Undisturbed e)
    (hstep : s.progress e = some t) : Carries pieces t := by
  cases e with
  | arrive bytes =>
      simp only [Socket.progress, Option.ite_none_left_eq_some,
        Option.some.injEq] at hstep
      rw [← hstep.right]
      exact h.congr rfl rfl rfl (fun hc => hc)
  | finish =>
      simp only [Socket.progress, Option.some.injEq] at hstep
      rw [← hstep]
      exact h.congr rfl rfl rfl (fun hc => hc)
  | readSome count => exact h.readSome hspares hstep
  | writeSome index count => exact h.writeSome hstep

theorem Carries.takeRead (h : Carries pieces s) {r : PendingRead buffer}
    (hstep : s.takeRead = some (r, t)) : Carries pieces t := by
  rcases takeRead_eq_some hstep with ⟨_, _, ht⟩
  rw [ht]
  exact h.congr rfl rfl rfl (fun hc => hc)

theorem Carries.failRead (h : Carries pieces s)
    (hstep : s.failRead = some t) : Carries pieces t := by
  rcases failRead_eq_some hstep with ⟨_, _, _, _, ht⟩
  rw [ht]
  exact h.congr rfl rfl rfl (fun hc => hc)

theorem Carries.takeWrite (h : Carries pieces s) {index : Nat}
    {w : PendingWrite buffer tag}
    (hstep : s.takeWrite index = some (w, t)) : Carries pieces t := by
  rcases takeWrite_eq_some hstep with ⟨hw, hdone, ht⟩
  have hpending : t.pending = s.pending := by
    rw [ht]
    exact filter_eraseIdx_of_not hw (by simp [hdone])
  subst ht
  cases h with
  | settled hp hwire => exact Carries.settled (hpending.trans hp) hwire
  | writing hp hpieces hsize hbuffer hwire =>
      exact Carries.writing (hpending.trans hp) hpieces hsize hbuffer hwire
  | cut hc hwire => exact Carries.cut hc hwire

theorem Carries.failWrite (h : Carries pieces s) {index : Nat}
    {w : PendingWrite buffer tag}
    (hstep : s.failWrite index = some (w, t)) : Carries pieces t := by
  rcases failWrite_eq_some hstep with ⟨_, _, hclosed, rfl⟩
  exact Carries.cut hclosed h.isPrefix

end Carrying

end Socket

end Lib
end Protort
