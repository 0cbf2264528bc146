import Protort.Protolink.Reconnecting

/-!
# The server that listens

`listen` sets up the acceptor and starts to accept one connection.  The handler
of an accept starts the next one when there was no error.  A handler that waits
to run has lost its acceptor when `listen` closes it, but not its result.
-/

namespace Protort
namespace Protolink

open Lib (Along Run Steps execute)
open Reconnecting (take take_perm)

inductive Accept where
  | connection
  | error
deriving DecidableEq, Repr

/-- The acceptor with the number of accepts that are outstanding on it, and the
handlers that wait to run. -/
structure Listening where
  isOpen : Bool
  accepts : Nat
  handlers : List Accept
deriving DecidableEq, Repr

namespace Listening

def new : Listening :=
  { isOpen := false
    accepts := 0
    handlers := [] }

/-- How far `listen` gets: opening the acceptor throws, or binding it to the
endpoint or listening does, or nothing. -/
inductive Setup where
  | notOpened
  | notBound
  | done
deriving DecidableEq, Repr

inductive Event where
  | listen (setup : Setup)
  | accepted
  | acceptFailed
  | handler (index : Nat)
deriving DecidableEq, Repr

/-- On an acceptor that is closed an accept completes at once. -/
def doAcceptConnection (s : Listening) : Listening :=
  if s.isOpen then
    { s with accepts := s.accepts + 1 }
  else
    { s with handlers := s.handlers ++ [Accept.error] }

/-- Closing aborts the accepts that are outstanding. -/
def close (s : Listening) : Listening :=
  { isOpen := false
    accepts := 0
    handlers := s.handlers ++ List.replicate s.accepts Accept.error }

def listen (setup : Setup) (s : Listening) : Listening :=
  let closed := if s.isOpen then s.close else s
  match setup with
  | Setup.notOpened => closed
  | Setup.notBound => { closed with isOpen := true }
  | Setup.done => { closed with isOpen := true }.doAcceptConnection

def onConnectionAccepted (result : Accept) (s : Listening) : Listening :=
  match result with
  | Accept.error => s
  | Accept.connection => s.doAcceptConnection

/-- Outstanding accepts complete and waiting handlers run in any order. -/
def step (s : Listening) (event : Event) : Option Listening :=
  match event with
  | Event.listen setup => some (s.listen setup)
  | Event.accepted =>
      if s.accepts = 0 then
        none
      else
        some { s with
          accepts := s.accepts - 1
          handlers := s.handlers ++ [Accept.connection] }
  | Event.acceptFailed =>
      if s.accepts = 0 then
        none
      else
        some { s with
          accepts := s.accepts - 1
          handlers := s.handlers ++ [Accept.error] }
  | Event.handler index =>
      match take s.handlers index with
      | some (result, rest) =>
          some ({ s with handlers := rest }.onConnectionAccepted result)
      | none => none

/-!
## One accept
-/

/-- One accept is outstanding when no handler waits to run. -/
def KeepsListening (s : Listening) : Prop :=
  s.isOpen = true -> s.handlers = [] -> s.accepts = 1

/-- The same once the handlers that wait have run, in whichever order. -/
def Settles (s : Listening) : Prop :=
  forall (indices : List Nat) t,
    Run (Steps step) s (indices.map Event.handler) t ->
      t.KeepsListening

/-- No accept fails but those that are aborted, and an acceptor is set up to
listen exactly when no handler of a connection waits to run. -/
def Uninterrupted (s : Listening) (event : Event) : Prop :=
  match event with
  | Event.listen Setup.done => Accept.connection ∉ s.handlers
  | Event.listen Setup.notBound => s.handlers.count Accept.connection = 1
  | Event.acceptFailed => False
  | _ => True

def due (s : Listening) : Nat :=
  s.accepts + s.handlers.count Accept.connection

def Closed (s : Listening) : Prop :=
  s.isOpen = false -> s.accepts = 0

section Steps

variable {s t : Listening}

theorem doAcceptConnection_isOpen (s : Listening) :
    s.doAcceptConnection.isOpen = s.isOpen := by
  unfold doAcceptConnection
  cases s.isOpen with
  | true => rfl
  | false => rfl

theorem due_doAcceptConnection (h : s.isOpen = true) :
    s.doAcceptConnection.due = s.due + 1 := by
  unfold doAcceptConnection due
  rw [if_pos h]
  exact Nat.add_right_comm _ _ _

theorem due_handler {index : Nat} (hopen : s.isOpen = true)
    (hstep : step s (Event.handler index) = some t) :
    t.isOpen = true ∧ t.due = s.due ∧
      t.handlers.length + 1 = s.handlers.length := by
  unfold step at hstep
  simp only at hstep
  cases htake : take s.handlers index with
  | none =>
      rw [htake] at hstep
      cases hstep
  | some taken =>
      rcases taken with ⟨result, rest⟩
      rw [htake] at hstep
      cases hstep
      have hperm := take_perm htake
      have hcount := hperm.count_eq Accept.connection
      have hlength := hperm.length_eq
      rw [List.length_cons] at hlength
      cases result with
      | error =>
          rw [List.count_cons_of_ne (by decide)] at hcount
          refine ⟨hopen, ?_, hlength⟩
          show s.accepts + rest.count Accept.connection = _
          rw [hcount]
          rfl
      | connection =>
          rw [List.count_cons_self] at hcount
          refine ⟨(doAcceptConnection_isOpen _).trans hopen, ?_, ?_⟩
          · refine (due_doAcceptConnection
              (s := { s with handlers := rest }) hopen).trans ?_
            show s.accepts + rest.count Accept.connection + 1 = s.due
            unfold due
            omega
          · unfold onConnectionAccepted doAcceptConnection
            simp only
            rw [if_pos hopen]
            exact hlength

theorem due_handlers {indices : List Nat} (hopen : s.isOpen = true)
    (hrun : Run (Steps step) s (indices.map Event.handler) t) :
    t.isOpen = true ∧ t.due = s.due := by
  induction indices generalizing s with
  | nil =>
      cases hrun
      exact ⟨hopen, rfl⟩
  | cons index rest ih =>
      cases hrun with
      | cons hstep hrest =>
          rcases due_handler hopen hstep with ⟨hopen', hdue, _⟩
          rcases ih hopen' hrest with ⟨hopen'', hdue'⟩
          exact ⟨hopen'', hdue'.trans hdue⟩

theorem closed_handlers {indices : List Nat} (hclosed : s.isOpen = false)
    (hrun : Run (Steps step) s (indices.map Event.handler) t) :
    t.isOpen = false := by
  induction indices generalizing s with
  | nil =>
      cases hrun
      exact hclosed
  | cons index rest ih =>
      cases hrun with
      | @cons _ u _ _ _ hstep hrest =>
          refine ih ?_ hrest
          have hsome : step s (Event.handler index) = some u := hstep
          unfold step at hsome
          simp only at hsome
          cases htake : take s.handlers index with
          | none =>
              rw [htake] at hsome
              cases hsome
          | some taken =>
              rw [htake] at hsome
              cases hsome
              unfold onConnectionAccepted
              cases taken.1 with
              | error => exact hclosed
              | connection => exact (doAcceptConnection_isOpen _).trans hclosed

theorem exists_handlers (hopen : s.isOpen = true) :
    exists (indices : List Nat) (t : Listening),
      Run (Steps step) s (indices.map Event.handler) t ∧
      t.handlers = [] := by
  induction hlength : s.handlers.length generalizing s with
  | zero => exact ⟨[], s, Run.nil s, List.length_eq_zero_iff.mp hlength⟩
  | succ k ih =>
      have hfirst : exists u, step s (Event.handler 0) = some u := by
        rcases List.exists_cons_of_length_eq_add_one hlength with
          ⟨result, rest, heq⟩
        unfold step
        simp only
        rw [heq]
        exact ⟨_, rfl⟩
      rcases hfirst with ⟨u, hu⟩
      rcases due_handler hopen hu with ⟨hopen', _, hless⟩
      rw [hlength] at hless
      rcases ih hopen' (Nat.succ.inj hless) with ⟨indices, t, hrun, hnone⟩
      exact ⟨0 :: indices, t, Run.cons hu hrun, hnone⟩

/-- Once its handlers have run an open acceptor has one accept exactly when one
is due. -/
theorem settles_iff : s.Settles <-> (s.isOpen = true -> s.due = 1) := by
  constructor
  · intro h hopen
    rcases exists_handlers hopen with ⟨indices, t, hrun, hnone⟩
    rcases due_handlers hopen hrun with ⟨hopen', hdue⟩
    have hone := h indices t hrun hopen' hnone
    unfold due at hdue
    rw [hnone, List.count_nil, hone] at hdue
    exact hdue.symm
  · intro h indices t hrun hopen' hnone
    cases hopen : s.isOpen with
    | false =>
        rw [closed_handlers hopen hrun] at hopen'
        cases hopen'
    | true =>
        have hdue := (due_handlers hopen hrun).right
        rw [h hopen] at hdue
        unfold due at hdue
        rw [hnone, List.count_nil] at hdue
        exact hdue

theorem closing (h : s.Closed) :
    exists closed : Listening,
      (if s.isOpen then s.close else s) = closed ∧ closed.isOpen = false ∧
      closed.accepts = 0 ∧
      closed.handlers.count Accept.connection =
        s.handlers.count Accept.connection := by
  cases hopen : s.isOpen with
  | false => exact ⟨s, if_neg Bool.false_ne_true, hopen, h hopen, rfl⟩
  | true =>
      refine ⟨s.close, if_pos rfl, rfl, rfl, ?_⟩
      unfold close
      rw [List.count_append, List.count_replicate, if_neg (by decide)]
      rfl

theorem step_closed {event : Event} (h : s.Closed)
    (hstep : step s event = some t) : t.Closed := by
  intro hclosed
  cases event with
  | listen setup =>
      cases hstep
      rcases closing h with ⟨closed, hclosing, hshut, hnone, _⟩
      unfold listen at hclosed ⊢
      rw [hclosing] at hclosed ⊢
      cases setup with
      | notOpened => exact hnone
      | notBound => cases hclosed
      | done =>
          rw [doAcceptConnection_isOpen] at hclosed
          cases hclosed
  | accepted =>
      rcases Option.ite_none_left_eq_some.mp hstep with ⟨hsome, heq⟩
      cases heq
      exact absurd (h hclosed) hsome
  | acceptFailed =>
      rcases Option.ite_none_left_eq_some.mp hstep with ⟨hsome, heq⟩
      cases heq
      exact absurd (h hclosed) hsome
  | handler index =>
      unfold step at hstep
      simp only at hstep
      cases htake : take s.handlers index with
      | none =>
          rw [htake] at hstep
          cases hstep
      | some taken =>
          rw [htake] at hstep
          cases hstep
          unfold onConnectionAccepted at hclosed ⊢
          cases hresult : taken.1 with
          | error =>
              rw [hresult] at hclosed
              exact h hclosed
          | connection =>
              rw [hresult] at hclosed
              simp only at hclosed ⊢
              rw [doAcceptConnection_isOpen] at hclosed
              have hshut : ¬ s.isOpen = true :=
                Bool.eq_false_iff.mp hclosed
              unfold doAcceptConnection
              rw [if_neg hshut]
              exact h hclosed

/-- One accept stays due exactly when the step does not interrupt listening. -/
theorem step_due_iff {event : Event} (hs : s.Closed)
    (h : s.isOpen = true -> s.due = 1) (hstep : step s event = some t) :
    (t.isOpen = true -> t.due = 1) <-> Uninterrupted s event := by
  cases event with
  | listen setup =>
      cases hstep
      rcases closing hs with ⟨closed, hclosing, hshut, hnone, hcount⟩
      unfold listen
      rw [hclosing]
      cases setup with
      | notOpened =>
          refine iff_of_true ?_ trivial
          intro hopen
          rw [hshut] at hopen
          cases hopen
      | notBound =>
          show (true = true -> closed.accepts +
            closed.handlers.count Accept.connection = 1) <->
              s.handlers.count Accept.connection = 1
          rw [hnone, hcount, Nat.zero_add]
          exact forall_prop_of_true rfl
      | done =>
          show ((doAcceptConnection { closed with isOpen := true }).isOpen =
            true -> _) <-> Accept.connection ∉ s.handlers
          rw [doAcceptConnection_isOpen, due_doAcceptConnection rfl]
          show (true = true -> closed.accepts +
            closed.handlers.count Accept.connection + 1 = 1) <-> _
          rw [hnone, hcount, forall_prop_of_true rfl, ← List.count_eq_zero]
          omega
  | accepted =>
      rcases Option.ite_none_left_eq_some.mp hstep with ⟨hsome, heq⟩
      cases heq
      refine iff_of_true ?_ trivial
      intro hopen
      have hone := h hopen
      unfold due at hone ⊢
      simp only [List.count_append, List.count_singleton_self]
      omega
  | acceptFailed =>
      rcases Option.ite_none_left_eq_some.mp hstep with ⟨hsome, heq⟩
      cases heq
      refine iff_of_false ?_ id
      intro hdue
      cases hopen : s.isOpen with
      | false => exact hsome (hs hopen)
      | true =>
          have hone := h hopen
          have hless := hdue hopen
          unfold due at hone hless
          rw [List.count_append,
            List.count_eq_zero_of_not_mem (l := [Accept.error])
              (by decide)] at hless
          simp only at hless
          omega
  | handler index =>
      refine iff_of_true ?_ trivial
      intro hopen'
      cases hopen : s.isOpen with
      | false =>
          have hrun : Run (Steps step) s ([index].map Event.handler) t :=
            Run.single hstep
          rw [closed_handlers hopen hrun] at hopen'
          cases hopen'
      | true =>
          rw [(due_handler hopen hstep).right.left]
          exact h hopen

end Steps

/-- Along every sequence of events one accept is outstanding whenever the
acceptor is open and the handlers have run, exactly when no accept fails of
itself and the acceptor is set up when no connection waits to be handled. -/
theorem settles_iff_uninterrupted (events : List Event) :
    Along step (fun _ _ s => s.Settles) new events <->
      Along step (fun s event _ => Uninterrupted s event) new events := by
  have hstart : new.Closed ∧ (new.isOpen = true -> new.due = 1) :=
    ⟨fun _ => rfl, nofun⟩
  refine @Lib.along_iff _ _ step _ _
    (fun s => s.Closed ∧ (s.isOpen = true -> s.due = 1)) ?_ ?_ _ _ hstart
  · intro s event t hstep h hsettles
    exact ⟨step_closed h.left hstep, settles_iff.mp hsettles⟩
  · intro s event t hstep h
    rw [settles_iff]
    exact step_due_iff h.left h.right hstep

/-- After an accept that failed none is outstanding; after a second `listen`
while the handler of a connection waits there are two. -/
theorem accept_lost_or_doubled :
    (execute step new [Event.listen Setup.done, Event.acceptFailed,
        Event.handler 0] =
      some { isOpen := true, accepts := 0, handlers := [] }) ∧
    (execute step new [Event.listen Setup.done, Event.accepted,
        Event.listen Setup.done, Event.handler 0] =
      some { isOpen := true, accepts := 2, handlers := [] }) := by
  decide

end Listening

end Protolink
end Protort
