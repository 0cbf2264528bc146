import Mathlib.Data.List.Perm.Basic
import Protort.Protolink.Transactions

/-!
# Clients that reconnect

The life of a client over all of its connections.  Only its operations count
here, each of them pending until its handler has run; what a handler is called
with comes with the event.  A failed attempt to connect arms a timer, whose
handler tries again, cancelled or not, and a write that ends with
`error::eof` or `error::connection_reset` closes the socket and tries again at
once.
-/

namespace Protort
namespace Protolink

open Lib (Table Along Steps Run execute)
open Link (Buffer maxPacketSize)

/-- An `async_connect`; closing the socket aborts it. -/
structure Attempt where
  aborted : Bool
deriving DecidableEq, Repr

structure Wait where
  cancelled : Bool
deriving DecidableEq, Repr

/-- What the handler of a write is called with: no error, one of the two errors
that stand for a lost connection, or any other error. -/
inductive WriteResult where
  | whole
  | lost
  | failed
deriving DecidableEq, Repr

/-- `reported` are the calls of `on_connected`, true for an error, and
`finished` those of `on_finished`; writes are known by the kind that is bound to
their handler, reads by the buffer they fill. -/
structure Reconnecting where
  connected : Bool
  shutdown : Bool
  connects : List Attempt
  waits : List Wait
  writes : List Protocol.Kind
  reads : List Buffer
  transactions : Table Int32 Nat
  transactionId : UInt32
  reported : List Bool
  finished : List (Nat × Protocol.Payload)
  aborted : Bool
deriving DecidableEq

namespace Reconnecting

/-- What happens to a client: it is used, or the handler of a pending operation
runs. -/
inductive Event where
  | sendMessage
  | sendRequest (callbacks : Nat)
  | prepareShutdown
  | connected (index : Nat)
  | notConnected (index : Nat)
  | timer (index : Nat)
  | packetSent (index : Nat) (result : WriteResult)
  | headerRead (index : Nat) (size : Nat)
  | packetRead (index : Nat) (packet : Protocol.Packet)
  | readFailed (index : Nat)

def new : Reconnecting :=
  { connected := false
    shutdown := false
    connects := []
    waits := []
    writes := []
    reads := []
    transactions := ∅
    transactionId := 0
    reported := []
    finished := []
    aborted := false }

/-!
## Connecting
-/

def stop (c : Reconnecting) : Reconnecting :=
  { c with
    connected := false
    connects := c.connects.map (fun _ => { aborted := true }) }

def doConnect (c : Reconnecting) : Reconnecting :=
  { c with connects := c.connects ++ [{ aborted := false }] }

def asyncConnect (c : Reconnecting) : Reconnecting :=
  c.doConnect

/-- `cancel` of the timer, and the first thing that setting it does. -/
def cancelWaits (c : Reconnecting) : Reconnecting :=
  { c with waits := c.waits.map (fun _ => { cancelled := true }) }

def prepareShutdown (c : Reconnecting) : Reconnecting :=
  { c with shutdown := true }.cancelWaits

def armTimer (c : Reconnecting) : Reconnecting :=
  let c := c.cancelWaits
  { c with waits := c.waits ++ [{ cancelled := false }] }

def onConnect (err : Bool) (c : Reconnecting) : Reconnecting :=
  if c.shutdown then
    c
  else
    let c := { c with reported := c.reported ++ [err] }
    if err then c.armTimer else c

/-!
## Sending and receiving
-/

def doSendPacket (kind : Protocol.Kind) (c : Reconnecting) : Reconnecting :=
  { c with writes := c.writes ++ [kind] }

def asyncSendMessage (c : Reconnecting) : Reconnecting :=
  c.doSendPacket Protocol.Kind.message

def asyncSendRequest (callbacks : Nat) (c : Reconnecting) : Reconnecting :=
  { c with
    transactions := c.transactions.emplace c.transactionId.toInt32 callbacks
    transactionId := c.transactionId + 1 }.doSendPacket Protocol.Kind.request

def doReadHeader (c : Reconnecting) : Reconnecting :=
  { c with reads := c.reads ++ [Buffer.packetHeader] }

def doReadPacket (c : Reconnecting) : Reconnecting :=
  { c with reads := c.reads ++ [Buffer.packet] }

def onPacketSent (result : WriteResult) (kind : Protocol.Kind)
    (c : Reconnecting) :
    Reconnecting :=
  match result with
  | WriteResult.lost => c.stop.doConnect
  | _ =>
      match kind with
      | Protocol.Kind.request => c.doReadHeader
      | _ => c

def onHeaderRead (size : Nat) (c : Reconnecting) : Reconnecting :=
  if size > maxPacketSize then c.stop else c.doReadPacket

def onResponse (packet : Protocol.Packet) (c : Reconnecting) : Reconnecting :=
  match c.transactions.lookup packet.transaction.id.toInt32 with
  | none => c
  | some callbacks =>
      { c with
        finished := c.finished ++ [(callbacks, packet.payload)]
        transactions := c.transactions.erase packet.transaction.id.toInt32 }

def onNewPacket (packet : Protocol.Packet) (c : Reconnecting) : Reconnecting :=
  match packet.kind with
  | Protocol.Kind.message => { c with aborted := true }
  | Protocol.Kind.request => { c with aborted := true }
  | Protocol.Kind.response => c.onResponse packet
  | Protocol.Kind.unrecognized _ => c

/-!
## Steps
-/

def take {operation : Type} (pending : List operation) (index : Nat) :
    Option (operation × List operation) :=
  pending[index]?.map (fun x => (x, pending.eraseIdx index))

/-- Any operation may be the next to complete.  An attempt that was aborted, or
that meets a connected socket, ends with an error. -/
def step (c : Reconnecting) (e : Event) : Option Reconnecting :=
  if c.aborted then
    none
  else
    match e with
    | Event.sendMessage => some c.asyncSendMessage
    | Event.sendRequest callbacks => some (c.asyncSendRequest callbacks)
    | Event.prepareShutdown => some c.prepareShutdown
    | Event.connected index =>
        (take c.connects index).bind (fun taken =>
          if taken.1.aborted = false ∧ c.connected = false then
            some (onConnect false
              { c with
                connected := true
                connects := taken.2 })
          else
            none)
    | Event.notConnected index =>
        (take c.connects index).map (fun taken =>
          onConnect true { c with connects := taken.2 })
    | Event.timer index =>
        (take c.waits index).map (fun taken =>
          doConnect { c with waits := taken.2 })
    | Event.packetSent index result =>
        (take c.writes index).map (fun taken =>
          onPacketSent result taken.1 { c with writes := taken.2 })
    | Event.headerRead index size =>
        (take c.reads index).bind (fun taken =>
          if taken.1 = Buffer.packetHeader then
            some (onHeaderRead size { c with reads := taken.2 })
          else
            none)
    | Event.packetRead index packet =>
        (take c.reads index).bind (fun taken =>
          if taken.1 = Buffer.packet then
            some (onNewPacket packet { c with reads := taken.2 })
          else
            none)
    | Event.readFailed index =>
        (take c.reads index).map (fun taken => { c with reads := taken.2 })

/-!
## One attempt at a time
-/

/-- The attempts that are going on: those in flight and the timers whose handler
will start another one. -/
def attempts (c : Reconnecting) : Nat :=
  c.connects.length + c.waits.length

/-- One attempt at most, and none while the socket is connected. -/
structure OneAttempt (c : Reconnecting) : Prop where
  one : c.attempts <= 1
  none : c.connected = true -> c.attempts = 0

/-- A step after which one attempt at most is going on, and which reports no
failure of a connected socket. -/
structure Orderly (c d : Reconnecting) : Prop where
  oneAttempt : OneAttempt d
  truthful : c.connected = true -> d.reported ≠ c.reported ++ [true]

def LostAlone (c : Reconnecting) (e : Event) : Prop :=
  match e with
  | Event.packetSent _ WriteResult.lost => c.attempts = 0
  | _ => True

/-!
## What a step does to the pending operations
-/

section Steps

variable {c d : Reconnecting}

theorem take_perm {operation : Type} {pending rest : List operation}
    {index : Nat} {x : operation} (h : take pending index = some (x, rest)) :
    List.Perm (x :: rest) pending := by
  unfold take at h
  rcases Option.map_eq_some_iff.mp h with ⟨y, hget, heq⟩
  cases heq
  rcases List.getElem?_eq_some_iff.mp hget with ⟨hlt, rfl⟩
  exact List.getElem_cons_eraseIdx_perm hlt

theorem getElem?_of_take {operation : Type} {pending rest : List operation}
    {index : Nat} {x : operation} (h : take pending index = some (x, rest)) :
    pending[index]? = some x := by
  unfold take at h
  rcases Option.map_eq_some_iff.mp h with ⟨y, hget, heq⟩
  cases heq
  exact hget

inductive Moves (c : Reconnecting) : Event -> Reconnecting -> Prop where
  | sendMessage : Moves c Event.sendMessage c.asyncSendMessage
  | sendRequest {callbacks : Nat} :
      Moves c (Event.sendRequest callbacks) (c.asyncSendRequest callbacks)
  | prepareShutdown : Moves c Event.prepareShutdown c.prepareShutdown
  | connected {index : Nat} {attempt : Attempt} {rest : List Attempt} :
      List.Perm (attempt :: rest) c.connects -> c.connected = false ->
      Moves c (Event.connected index)
        (onConnect false
          { c with
            connected := true
            connects := rest })
  | notConnected {index : Nat} {attempt : Attempt} {rest : List Attempt} :
      List.Perm (attempt :: rest) c.connects ->
      Moves c (Event.notConnected index)
        (onConnect true { c with connects := rest })
  | timer {index : Nat} {wait : Wait} {rest : List Wait} :
      List.Perm (wait :: rest) c.waits ->
      Moves c (Event.timer index) (doConnect { c with waits := rest })
  | packetSent {index : Nat} {result : WriteResult} {kind : Protocol.Kind}
      {rest : List Protocol.Kind} :
      c.writes[index]? = some kind -> List.Perm (kind :: rest) c.writes ->
      Moves c (Event.packetSent index result)
        (onPacketSent result kind { c with writes := rest })
  | headerRead {index size : Nat} {rest : List Buffer} :
      List.Perm (Buffer.packetHeader :: rest) c.reads ->
      Moves c (Event.headerRead index size)
        (onHeaderRead size { c with reads := rest })
  | packetRead {index : Nat} {packet : Protocol.Packet}
      {rest : List Buffer} :
      List.Perm (Buffer.packet :: rest) c.reads ->
      Moves c (Event.packetRead index packet)
        (onNewPacket packet { c with reads := rest })
  | readFailed {index : Nat} {target : Buffer} {rest : List Buffer} :
      List.Perm (target :: rest) c.reads ->
      Moves c (Event.readFailed index) { c with reads := rest }

theorem step_moves {e : Event} (h : step c e = some d) : Moves c e d := by
  unfold step at h
  by_cases haborted : c.aborted = true
  · rw [if_pos haborted] at h
    cases h
  · rw [if_neg haborted] at h
    cases e with
    | sendMessage =>
        cases h
        exact Moves.sendMessage
    | sendRequest callbacks =>
        cases h
        exact Moves.sendRequest
    | prepareShutdown =>
        cases h
        exact Moves.prepareShutdown
    | connected index =>
        rcases Option.bind_eq_some_iff.mp h with ⟨⟨attempt, rest⟩, htake, h⟩
        rcases Option.ite_none_right_eq_some.mp h with ⟨⟨_, hclosed⟩, heq⟩
        cases heq
        exact Moves.connected (take_perm htake) hclosed
    | notConnected index =>
        rcases Option.map_eq_some_iff.mp h with ⟨⟨attempt, rest⟩, htake, rfl⟩
        exact Moves.notConnected (take_perm htake)
    | timer index =>
        rcases Option.map_eq_some_iff.mp h with ⟨⟨wait, rest⟩, htake, rfl⟩
        exact Moves.timer (take_perm htake)
    | packetSent index result =>
        rcases Option.map_eq_some_iff.mp h with ⟨⟨kind, rest⟩, htake, rfl⟩
        exact Moves.packetSent (getElem?_of_take htake) (take_perm htake)
    | headerRead index size =>
        rcases Option.bind_eq_some_iff.mp h with ⟨⟨target, rest⟩, htake, h⟩
        rcases Option.ite_none_right_eq_some.mp h with ⟨htarget, heq⟩
        cases heq
        cases htarget
        exact Moves.headerRead (take_perm htake)
    | packetRead index packet =>
        rcases Option.bind_eq_some_iff.mp h with ⟨⟨target, rest⟩, htake, h⟩
        rcases Option.ite_none_right_eq_some.mp h with ⟨htarget, heq⟩
        cases heq
        cases htarget
        exact Moves.packetRead (take_perm htake)
    | readFailed index =>
        rcases Option.map_eq_some_iff.mp h with ⟨⟨target, rest⟩, htake, rfl⟩
        exact Moves.readFailed (take_perm htake)

end Steps

/-!
## Orderly steps
-/

section Attempts

variable {c d : Reconnecting}

structure SameAttempts (c d : Reconnecting) : Prop where
  connects : d.connects = c.connects
  waits : d.waits = c.waits
  connected : d.connected = c.connected
  reported : d.reported = c.reported

theorem SameAttempts.attempts (h : SameAttempts c d) :
    d.attempts = c.attempts := by
  unfold Reconnecting.attempts
  rw [h.connects, h.waits]

theorem OneAttempt.congr (h : OneAttempt c) (hsame : SameAttempts c d) :
    OneAttempt d :=
  { one := hsame.attempts.le.trans h.one
    none := fun hconnected => hsame.attempts.trans
      (h.none (hsame.connected.symm.trans hconnected)) }

theorem ne_append_singleton {α : Type} (xs : List α) (x : α) :
    xs ≠ xs ++ [x] := by
  intro h
  exact List.cons_ne_nil x [] (List.self_eq_append_right.mp h)

theorem SameAttempts.orderly (h : SameAttempts c d) (hc : OneAttempt c) :
    Orderly c d := by
  refine ⟨hc.congr h, fun _ => ?_⟩
  rw [h.reported]
  exact ne_append_singleton c.reported true

theorem onNewPacket_sameAttempts (packet : Protocol.Packet)
    (c : Reconnecting) : SameAttempts c (c.onNewPacket packet) := by
  unfold onNewPacket
  cases packet.kind with
  | response =>
      unfold onResponse
      cases c.transactions.lookup packet.transaction.id.toInt32 with
      | none => exact ⟨rfl, rfl, rfl, rfl⟩
      | some callbacks => exact ⟨rfl, rfl, rfl, rfl⟩
  | _ => exact ⟨rfl, rfl, rfl, rfl⟩

theorem onPacketSent_sameAttempts (result : WriteResult)
    (h : result ≠ WriteResult.lost)
    (kind : Protocol.Kind) (rest : List Protocol.Kind) :
    SameAttempts c (onPacketSent result kind { c with writes := rest }) := by
  unfold onPacketSent
  cases result with
  | lost => exact absurd rfl h
  | _ =>
      cases kind with
      | _ => exact ⟨rfl, rfl, rfl, rfl⟩

@[simp] theorem attempts_stop (c : Reconnecting) :
    c.stop.attempts = c.attempts := by
  unfold attempts stop
  rw [List.length_map]

@[simp] theorem attempts_doConnect (c : Reconnecting) :
    c.doConnect.attempts = c.attempts + 1 := by
  simp only [attempts, doConnect, List.length_append, List.length_singleton]
  omega

@[simp] theorem attempts_prepareShutdown (c : Reconnecting) :
    c.prepareShutdown.attempts = c.attempts := by
  unfold attempts prepareShutdown cancelWaits
  rw [List.length_map]

@[simp] theorem attempts_armTimer (c : Reconnecting) :
    c.armTimer.attempts = c.attempts + 1 := by
  simp only [attempts, armTimer, cancelWaits, List.length_append,
    List.length_map, List.length_singleton]
  omega

theorem attempts_onHeaderRead (size : Nat) (c : Reconnecting) :
    (c.onHeaderRead size).attempts = c.attempts := by
  unfold onHeaderRead
  by_cases hsize : size > maxPacketSize
  · rw [if_pos hsize, attempts_stop]
  · rw [if_neg hsize]
    rfl

theorem attempts_onPacketSent_lost (kind : Protocol.Kind)
    (c : Reconnecting) :
    (c.onPacketSent WriteResult.lost kind).attempts = c.attempts + 1 := by
  unfold onPacketSent
  rw [attempts_doConnect, attempts_stop]

theorem attempts_onConnect_le (err : Bool) (c : Reconnecting) :
    (c.onConnect err).attempts <= c.attempts + 1 := by
  unfold onConnect
  by_cases hshutdown : c.shutdown = true
  · rw [if_pos hshutdown]
    exact Nat.le_succ _
  · rw [if_neg hshutdown]
    cases err with
    | true =>
        simp only [if_true, attempts_armTimer]
        exact Nat.le_refl _
    | false => exact Nat.le_succ _

theorem onConnect_false_attempts (c : Reconnecting) :
    (c.onConnect false).attempts = c.attempts ∧
      (c.onConnect false).connected = c.connected := by
  unfold onConnect
  by_cases hshutdown : c.shutdown = true
  · rw [if_pos hshutdown]
    exact ⟨rfl, rfl⟩
  · rw [if_neg hshutdown]
    exact ⟨rfl, rfl⟩

theorem onConnect_connected (err : Bool) (c : Reconnecting) :
    (c.onConnect err).connected = c.connected := by
  unfold onConnect
  by_cases hshutdown : c.shutdown = true
  · rw [if_pos hshutdown]
  · rw [if_neg hshutdown]
    cases err with
    | true => rfl
    | false => rfl

/-- An attempt that is over was the only one, and the socket was not
connected. -/
theorem OneAttempt.last (h : OneAttempt c) {attempt : Attempt}
    {rest : List Attempt} (htaken : List.Perm (attempt :: rest) c.connects) :
    { c with connects := rest }.attempts = 0 ∧ c.connected = false := by
  have hlength : c.connects.length = rest.length + 1 :=
    htaken.length_eq.symm
  have hone := h.one
  have hnone := h.none
  unfold attempts at *
  constructor
  · show rest.length + c.waits.length = 0
    omega
  · apply Bool.eq_false_of_not_eq_true
    intro hconnected
    have hzero := hnone hconnected
    omega

/-- A step is orderly exactly when no connection is lost while another attempt
is going on. -/
theorem step_orderly_iff {e : Event} (hstep : step c e = some d)
    (h : OneAttempt c) : Orderly c d <-> LostAlone c e := by
  have hmoves := step_moves hstep
  cases hmoves with
  | sendMessage =>
      exact iff_of_true (SameAttempts.orderly ⟨rfl, rfl, rfl, rfl⟩ h) trivial
  | sendRequest =>
      exact iff_of_true (SameAttempts.orderly ⟨rfl, rfl, rfl, rfl⟩ h) trivial
  | readFailed _ =>
      exact iff_of_true (SameAttempts.orderly ⟨rfl, rfl, rfl, rfl⟩ h) trivial
  | @packetRead index packet rest htaken =>
      have hsame := onNewPacket_sameAttempts packet { c with reads := rest }
      exact iff_of_true (SameAttempts.orderly
        ⟨hsame.connects, hsame.waits, hsame.connected, hsame.reported⟩ h)
        trivial
  | prepareShutdown =>
      refine iff_of_true ⟨⟨?_, ?_⟩, fun _ => ne_append_singleton _ _⟩ trivial
      · rw [attempts_prepareShutdown]
        exact h.one
      · rw [attempts_prepareShutdown]
        exact h.none
  | @connected index attempt rest htaken hclosed =>
      have hattempts := (onConnect_false_attempts
        { c with
          connected := true
          connects := rest }).left.trans (h.last htaken).left
      refine iff_of_true ⟨⟨?_, fun _ => hattempts⟩, ?_⟩ trivial
      · rw [hattempts]
        exact Nat.zero_le 1
      · intro hconnected
        rw [hclosed] at hconnected
        cases hconnected
  | @notConnected index attempt rest htaken =>
      rcases h.last htaken with ⟨hzero, hclosed⟩
      have hle := attempts_onConnect_le true { c with connects := rest }
      rw [hzero] at hle
      have hstill := onConnect_connected true { c with connects := rest }
      refine iff_of_true ⟨⟨hle, ?_⟩, ?_⟩ trivial
      · intro hconnected
        rw [hstill] at hconnected
        exact absurd hconnected (by simp [hclosed])
      · intro hconnected
        rw [hclosed] at hconnected
        cases hconnected
  | @timer index wait rest htaken =>
      have hlength : c.waits.length = rest.length + 1 :=
        htaken.length_eq.symm
      have hsame : (doConnect { c with waits := rest }).attempts =
          c.attempts := by
        rw [attempts_doConnect]
        simp only [attempts, hlength]
        omega
      refine iff_of_true ⟨⟨?_, ?_⟩, fun _ => ne_append_singleton _ _⟩ trivial
      · rw [hsame]
        exact h.one
      · rw [hsame]
        exact h.none
  | @headerRead index size rest htaken =>
      unfold onHeaderRead
      by_cases hsize : size > maxPacketSize
      · rw [if_pos hsize]
        have hsame := attempts_stop { c with reads := rest }
        refine iff_of_true ⟨⟨?_, nofun⟩, fun _ => ne_append_singleton _ _⟩
          trivial
        rw [hsame]
        exact h.one
      · rw [if_neg hsize]
        exact iff_of_true (SameAttempts.orderly ⟨rfl, rfl, rfl, rfl⟩ h)
          trivial
  | @packetSent index result kind rest hkind htaken =>
      cases result with
      | lost =>
          have hnext : (onPacketSent WriteResult.lost kind
              { c with writes := rest }).attempts = c.attempts + 1 :=
            attempts_onPacketSent_lost kind { c with writes := rest }
          constructor
          · intro horderly
            have hone := horderly.oneAttempt.one
            rw [hnext] at hone
            exact Nat.le_zero.mp (Nat.le_of_succ_le_succ hone)
          · intro halone
            have hzero : c.attempts = 0 := halone
            refine ⟨⟨?_, nofun⟩, fun _ => ne_append_singleton _ _⟩
            rw [hnext, hzero]
      | whole =>
          exact iff_of_true (SameAttempts.orderly
            (onPacketSent_sameAttempts WriteResult.whole nofun kind rest) h)
            trivial
      | failed =>
          exact iff_of_true (SameAttempts.orderly
            (onPacketSent_sameAttempts WriteResult.failed nofun kind rest) h)
            trivial

theorem attempts_lost {index : Nat}
    (hstep : step c (Event.packetSent index WriteResult.lost) = some d) :
    d.attempts = c.attempts + 1 := by
  have hmoves := step_moves hstep
  cases hmoves with
  | @packetSent _ _ kind rest _ _ =>
      exact attempts_onPacketSent_lost kind { c with writes := rest }

/-- Only the loss of a connection makes an idle client try again. -/
theorem attempts_of_idle {e : Event} (hstep : step c e = some d)
    (hidle : c.attempts = 0) :
    d.attempts = 0 ∨
      exists index, e = Event.packetSent index WriteResult.lost := by
  have hlengths : c.connects.length = 0 ∧ c.waits.length = 0 := by
    unfold attempts at hidle
    omega
  have hmoves := step_moves hstep
  cases hmoves with
  | sendMessage => exact Or.inl hidle
  | sendRequest => exact Or.inl hidle
  | readFailed _ => exact Or.inl hidle
  | prepareShutdown =>
      exact Or.inl ((attempts_prepareShutdown c).trans hidle)
  | connected htaken _ =>
      have hlength := htaken.length_eq
      rw [hlengths.left, List.length_cons] at hlength
      cases hlength
  | notConnected htaken =>
      have hlength := htaken.length_eq
      rw [hlengths.left, List.length_cons] at hlength
      cases hlength
  | timer htaken =>
      have hlength := htaken.length_eq
      rw [hlengths.right, List.length_cons] at hlength
      cases hlength
  | @packetRead index packet rest htaken =>
      have hsame := onNewPacket_sameAttempts packet { c with reads := rest }
      exact Or.inl (hsame.attempts.trans hidle)
  | @headerRead index size rest htaken =>
      have hsame := attempts_onHeaderRead size { c with reads := rest }
      exact Or.inl (hsame.trans hidle)
  | @packetSent index result kind rest hkind htaken =>
      cases result with
      | lost => exact Or.inr ⟨index, rfl⟩
      | whole =>
          have hsame := onPacketSent_sameAttempts (c := c) WriteResult.whole nofun
            kind rest
          exact Or.inl (hsame.attempts.trans hidle)
      | failed =>
          have hsame := onPacketSent_sameAttempts (c := c) WriteResult.failed nofun
            kind rest
          exact Or.inl (hsame.attempts.trans hidle)

end Attempts

/-- After one call of `async_connect`, one attempt at most is ever going on, and
none while the socket is connected, exactly as long as no connection is lost
while an attempt is going on. -/
theorem orderly_iff_lostAlone (labels : List Event) :
    Along step (fun c _ d => Orderly c d) new.asyncConnect labels <->
      Along step (fun c e _ => LostAlone c e) new.asyncConnect labels := by
  have hstart : OneAttempt new.asyncConnect :=
    ⟨Nat.le_refl 1, nofun⟩
  exact @Lib.along_iff _ _ step _ _ OneAttempt
    (fun _ _ horderly => horderly.oneAttempt)
    (fun hstep hc => step_orderly_iff hstep hc) _ _ hstart

/-- A connection on which two messages are being sent is lost. -/
def lostTwice : List Event :=
  [Event.connected 0, Event.sendMessage, Event.sendMessage,
    Event.packetSent 0 WriteResult.lost, Event.packetSent 0 WriteResult.lost]

/-- The second attempt aborts the first one, whose failure arms the timer;
when that expires the second attempt has connected the socket. -/
def staleAttempt : List Event :=
  [Event.notConnected 0, Event.connected 0, Event.timer 0,
    Event.notConnected 0]

/-- Both writes try to connect again, and the connection that one of the
attempts makes is reported as failed by the other. -/
theorem lostTwice_twoAttempts :
    ¬ Along step (fun c _ d => Orderly c d) new.asyncConnect lostTwice ∧
      (execute step new.asyncConnect (lostTwice ++ staleAttempt)).map
        (fun c => (c.connected, c.reported)) =
          some (true, [false, true, false, true]) := by
  refine ⟨?_, by decide +kernel⟩
  intro h
  have hend : (execute step new.asyncConnect lostTwice).map
      (fun c => c.attempts) = some 2 := by
    decide +kernel
  rcases Option.map_eq_some_iff.mp hend with ⟨c, hexecute, hattempts⟩
  have hone : OneAttempt c :=
    Lib.along_invariant _ (fun horderly _ => horderly.oneAttempt) h hexecute
      ⟨Nat.le_refl 1, nofun⟩
  have hle := hone.one
  omega

/-!
## Transactions and their operations
-/

/-- The operations that can still lead to a response: the writes of requests,
each of which starts a read, and the reads. -/
def operations (c : Reconnecting) : Nat :=
  c.writes.countP (fun kind => decide (kind = Protocol.Kind.request)) +
    c.reads.length

def registered (c : Reconnecting) : Nat :=
  c.transactions.keys.card

/-- After a step there is a pending operation for each registered transaction,
and a transaction that is no longer registered has been finished. -/
structure Accounted (c d : Reconnecting) : Prop where
  pending : d.registered <= d.operations
  removed : forall id callbacks, c.transactions.lookup id = some callbacks ->
    id ∉ d.transactions ->
      exists payload, d.finished = c.finished ++ [(callbacks, payload)]

/-- An operation ends without starting the next one and without finishing a
transaction. -/
def EndsInVain (c : Reconnecting) (e : Event) : Prop :=
  match e with
  | Event.packetSent index WriteResult.lost =>
      c.writes[index]? = some Protocol.Kind.request
  | Event.headerRead _ size => size > maxPacketSize
  | Event.packetRead _ packet =>
      packet.kind = Protocol.Kind.response ->
        packet.transaction.id.toInt32 ∉ c.transactions
  | Event.readFailed _ => True
  | _ => False

/-- An operation that ends in vain is not needed: there are more of them than
transactions. -/
def Spare (c : Reconnecting) (e : Event) : Prop :=
  EndsInVain c e -> c.registered < c.operations

section Transactions

variable {c d : Reconnecting}

theorem Accounted.of_same (h : d.transactions = c.transactions)
    (hpending : d.registered <= d.operations) : Accounted c d := by
  constructor
  · exact hpending
  intro id callbacks hlookup hgone
  rw [h] at hgone
  exact absurd (Finmap.mem_of_lookup_eq_some hlookup) hgone

theorem registered_congr (h : d.transactions = c.transactions) :
    d.registered = c.registered := by
  unfold registered
  rw [h]

theorem accounted_iff_of_same {e : Event} (hvain : ¬ EndsInVain c e)
    (htransactions : d.transactions = c.transactions)
    (hoperations : d.operations = c.operations)
    (h : c.registered <= c.operations) : Accounted c d <-> Spare c e := by
  refine iff_of_true (Accounted.of_same htransactions ?_)
    (fun hends => absurd hends hvain)
  rw [registered_congr htransactions, hoperations]
  exact h

theorem accounted_iff_of_vain {e : Event} (hvain : EndsInVain c e)
    (htransactions : d.transactions = c.transactions)
    (hoperations : c.operations = d.operations + 1) :
    Accounted c d <-> Spare c e := by
  have hregistered := registered_congr htransactions
  constructor
  · intro haccounted _
    have hpending := haccounted.pending
    omega
  · intro hspare
    have hless := hspare hvain
    exact Accounted.of_same htransactions (by omega)

theorem card_emplace_le (t : Table Int32 Nat) (id : Int32) (callbacks : Nat) :
    (t.emplace id callbacks).keys.card <= t.keys.card + 1 := by
  have hsub : (t.emplace id callbacks).keys ⊆ insert id t.keys := by
    intro k hk
    rw [Finmap.mem_keys, Table.mem_emplace] at hk
    rw [Finset.mem_insert, Finmap.mem_keys]
    exact hk
  exact (Finset.card_le_card hsub).trans (Finset.card_insert_le id t.keys)

theorem card_erase {t : Table Int32 Nat} {id : Int32} (h : id ∈ t) :
    (Finmap.erase id t).keys.card + 1 = t.keys.card := by
  rw [Finmap.keys_erase]
  exact Finset.card_erase_add_one (Finmap.mem_keys.mpr h)

theorem countP_request_taken {kind : Protocol.Kind}
    {rest writes : List Protocol.Kind}
    (h : List.Perm (kind :: rest) writes) :
    writes.countP (fun kind => decide (kind = Protocol.Kind.request)) =
      rest.countP (fun kind => decide (kind = Protocol.Kind.request)) +
        if kind = Protocol.Kind.request then 1 else 0 := by
  rw [← h.countP_eq, List.countP_cons]
  simp only [decide_eq_true_eq]

theorem operations_doReadHeader {rest : List Protocol.Kind}
    (h : c.writes.countP
        (fun kind => decide (kind = Protocol.Kind.request)) =
      rest.countP (fun kind => decide (kind = Protocol.Kind.request)) +
        if Protocol.Kind.request = Protocol.Kind.request then 1 else 0) :
    (doReadHeader { c with writes := rest }).operations = c.operations := by
  simp only [operations, doReadHeader, List.length_append,
    List.length_singleton]
  rw [h, if_pos rfl]
  omega

theorem reads_taken {target : Buffer} {rest : List Buffer}
    (h : List.Perm (target :: rest) c.reads) :
    c.operations = ({ c with reads := rest } : Reconnecting).operations +
      1 := by
  unfold operations
  rw [← h.length_eq, List.length_cons]
  rfl

theorem onConnect_account (err : Bool) (c : Reconnecting) :
    (c.onConnect err).transactions = c.transactions ∧
      (c.onConnect err).operations = c.operations := by
  unfold onConnect
  by_cases hshutdown : c.shutdown = true
  · rw [if_pos hshutdown]
    exact ⟨rfl, rfl⟩
  · rw [if_neg hshutdown]
    cases err with
    | true => exact ⟨rfl, rfl⟩
    | false => exact ⟨rfl, rfl⟩

theorem asyncSendRequest_accounted (callbacks : Nat)
    (h : c.registered <= c.operations) :
    Accounted c (c.asyncSendRequest callbacks) := by
  have hoperations : (c.asyncSendRequest callbacks).operations =
      c.operations + 1 := by
    unfold operations asyncSendRequest doSendPacket
    rw [List.countP_append, List.countP_singleton]
    simp only [decide_true, if_true]
    omega
  have hregistered : (c.asyncSendRequest callbacks).registered <=
      c.registered + 1 :=
    card_emplace_le c.transactions c.transactionId.toInt32 callbacks
  constructor
  · omega
  intro id other hlookup hgone
  refine absurd ?_ hgone
  exact Table.mem_emplace.mpr (Or.inr (Finmap.mem_of_lookup_eq_some hlookup))

theorem packetRead_accounted_iff {index : Nat} {packet : Protocol.Packet}
    {rest : List Buffer} (htaken : List.Perm (Buffer.packet :: rest) c.reads)
    (h : c.registered <= c.operations) :
    Accounted c (onNewPacket packet { c with reads := rest }) <->
      Spare c (Event.packetRead index packet) := by
  have hoperations := reads_taken htaken
  by_cases hvain : EndsInVain c (Event.packetRead index packet)
  · have hsame : (onNewPacket packet { c with reads := rest }).transactions =
        c.transactions ∧
        (onNewPacket packet { c with reads := rest }).operations =
          ({ c with reads := rest } : Reconnecting).operations := by
      unfold onNewPacket
      cases hkind : packet.kind with
      | response =>
          have hunknown : ({ c with
              reads := rest } : Reconnecting).transactions.lookup
                packet.transaction.id.toInt32 = none :=
            Finmap.lookup_eq_none.mpr (hvain hkind)
          unfold onResponse
          rw [hunknown]
          exact ⟨rfl, rfl⟩
      | _ => exact ⟨rfl, rfl⟩
    apply accounted_iff_of_vain hvain hsame.left
    rw [hsame.right]
    exact hoperations
  · refine iff_of_true ?_ (fun hends => absurd hends hvain)
    rcases Classical.not_imp.mp hvain with ⟨hkind, hmem⟩
    have hknown := Classical.not_not.mp hmem
    rcases Finmap.mem_iff.mp hknown with ⟨callbacks, hlookup⟩
    have hfinished : onNewPacket packet { c with reads := rest } =
        { c with
          reads := rest
          finished := c.finished ++ [(callbacks, packet.payload)]
          transactions :=
            c.transactions.erase packet.transaction.id.toInt32 } := by
      unfold onNewPacket onResponse
      simp only [hkind, hlookup]
    rw [hfinished]
    refine ⟨?_, ?_⟩
    · have hcard := card_erase hknown
      have hfewer : (Finmap.erase packet.transaction.id.toInt32
          c.transactions).keys.card <=
            ({ c with reads := rest } : Reconnecting).operations := by
        unfold registered at h
        omega
      exact hfewer
    · intro id other hother hgone
      have hid : id = packet.transaction.id.toInt32 := by
        by_contra hne
        exact hgone (Finmap.mem_erase.mpr
          ⟨hne, Finmap.mem_of_lookup_eq_some hother⟩)
      rw [hid, hlookup] at hother
      cases hother
      exact ⟨packet.payload, rfl⟩

theorem step_accounted_iff {e : Event} (hstep : step c e = some d)
    (h : c.registered <= c.operations) : Accounted c d <-> Spare c e := by
  have hmoves := step_moves hstep
  cases hmoves with
  | sendMessage =>
      refine accounted_iff_of_same id rfl ?_ h
      unfold operations asyncSendMessage doSendPacket
      rw [List.countP_append]
      rfl
  | sendRequest =>
      exact iff_of_true (asyncSendRequest_accounted _ h) nofun
  | prepareShutdown => exact accounted_iff_of_same id rfl rfl h
  | @connected index attempt rest htaken hclosed =>
      have hsame := onConnect_account false
        { c with
          connected := true
          connects := rest }
      exact accounted_iff_of_same id hsame.left hsame.right h
  | @notConnected index attempt rest htaken =>
      have hsame := onConnect_account true { c with connects := rest }
      exact accounted_iff_of_same id hsame.left hsame.right h
  | timer htaken => exact accounted_iff_of_same id rfl rfl h
  | readFailed htaken =>
      exact accounted_iff_of_vain trivial rfl (reads_taken htaken)
  | packetRead htaken => exact packetRead_accounted_iff htaken h
  | @headerRead index size rest htaken =>
      have hoperations := reads_taken htaken
      unfold onHeaderRead
      by_cases hsize : size > maxPacketSize
      · rw [if_pos hsize]
        exact accounted_iff_of_vain hsize rfl hoperations
      · rw [if_neg hsize]
        refine accounted_iff_of_same hsize rfl ?_ h
        rw [hoperations]
        unfold operations doReadPacket
        rw [List.length_append, List.length_singleton, Nat.add_assoc]
  | @packetSent index result kind rest hkind htaken =>
      have hwrites := countP_request_taken htaken
      by_cases hrequest : kind = Protocol.Kind.request
      · subst kind
        cases result with
        | lost =>
            refine accounted_iff_of_vain hkind rfl ?_
            unfold operations
            rw [hwrites, if_pos rfl, Nat.add_right_comm]
            rfl
        | whole =>
            exact accounted_iff_of_same id rfl
              (operations_doReadHeader hwrites) h
        | failed =>
            exact accounted_iff_of_same id rfl
              (operations_doReadHeader hwrites) h
      · rw [if_neg hrequest, Nat.add_zero] at hwrites
        have hsame : (onPacketSent result kind
            { c with writes := rest }).transactions = c.transactions ∧
            (onPacketSent result kind { c with writes := rest }).operations =
              c.operations := by
          unfold operations
          rw [hwrites]
          unfold onPacketSent
          cases result with
          | lost => exact ⟨rfl, rfl⟩
          | _ =>
              cases kind with
              | request => exact absurd rfl hrequest
              | _ => exact ⟨rfl, rfl⟩
        refine accounted_iff_of_same ?_ hsame.left hsame.right h
        cases result with
        | lost =>
            intro hvain
            have hsent := hkind.symm.trans hvain
            exact hrequest (Option.some.inj hsent)
        | _ => exact id

end Transactions

/-- Every registered transaction has a pending operation, from the first
connection on, exactly as long as operations end in vain only when they are not
needed. -/
theorem accounted_iff_spare (labels : List Event) :
    Along step (fun c _ d => Accounted c d) new.asyncConnect labels <->
      Along step (fun c e _ => Spare c e) new.asyncConnect labels := by
  have hstart : new.asyncConnect.registered <= new.asyncConnect.operations :=
    Nat.le_refl 0
  exact @Lib.along_iff _ _ step _ _ (fun c => c.registered <= c.operations)
    (fun _ _ haccounted => haccounted.pending)
    (fun hstep hc => step_accounted_iff hstep hc) _ _ hstart

/-- A request is sent, and the connection ends before the response comes. -/
def unanswered : List Event :=
  [Event.connected 0, Event.sendRequest 7, Event.packetSent 0 WriteResult.whole,
    Event.readFailed 0]

/-- Its transaction stays registered when nothing is pending any more. -/
theorem unanswered_orphaned :
    ¬ Along step (fun c _ d => Accounted c d) new.asyncConnect unanswered := by
  intro h
  have hend : (execute step new.asyncConnect unanswered).map
      (fun c => (c.registered, c.operations)) = some (1, 0) := by
    decide +kernel
  rcases Option.map_eq_some_iff.mp hend with ⟨c, hexecute, hc⟩
  rw [Prod.mk.injEq] at hc
  have hpending : c.registered <= c.operations :=
    Lib.along_invariant (fun c => c.registered <= c.operations)
      (fun haccounted _ => haccounted.pending) h hexecute (Nat.le_refl 0)
  omega

end Reconnecting

/-!
## The life of one connection

What a connected client does byte by byte, it does here operation by operation.
-/

namespace Client

open Lib (PendingRead PendingWrite Socket IoEvent Memory Bytes)

/-- The operations of a client between a connection and the loss of it. -/
def life (c : Client) : Reconnecting :=
  { connected := !c.socket.closed
    shutdown := false
    connects := []
    waits := []
    writes := c.socket.writes.map PendingWrite.tag
    reads := c.socket.reads.map PendingRead.target
    transactions := c.transactions
    transactionId := c.transactionId
    reported := [false]
    finished := c.finished
    aborted := c.aborted }

section Life

variable {platform : Platform} {c d : Client}

theorem targets_advance (count : Nat) (reads : List (PendingRead Buffer)) :
    (PendingRead.advance count reads).map PendingRead.target =
      reads.map PendingRead.target := by
  induction reads with
  | nil => rfl
  | cons r rest ih =>
      rw [PendingRead.advance]
      by_cases h : r.got < r.size
      · rw [if_pos h]
        rfl
      · rw [if_neg h, List.map_cons, List.map_cons, ih]

theorem life_progress {e : IoEvent} {s : Socket Buffer Protocol.Kind}
    (h : c.socket.progress e = some s) :
    life { c with socket := s } = c.life := by
  have hclosed := (Socket.progress_reads h).right
  have hreads : s.reads.map PendingRead.target =
      c.socket.reads.map PendingRead.target ∧
      s.writes.map PendingWrite.tag =
        c.socket.writes.map PendingWrite.tag := by
    cases e with
    | arrive bytes =>
        simp only [Socket.progress, Option.ite_none_left_eq_some,
          Option.some.injEq] at h
        rw [← h.right]
        exact ⟨rfl, rfl⟩
    | finish =>
        cases h
        exact ⟨rfl, rfl⟩
    | readSome count =>
        rcases Socket.readSome_eq_some h with ⟨r, _, _, _, _, _, rfl⟩
        exact ⟨targets_advance count c.socket.reads, rfl⟩
    | writeSome index count =>
        rcases Socket.writeSome_eq_some h with ⟨w, hw, _, _, _, rfl⟩
        constructor
        · exact rfl
        rw [List.map_set]
        rcases List.getElem?_eq_some_iff.mp hw with ⟨hlt, rfl⟩
        have hlt' : index <
            (c.socket.writes.map PendingWrite.tag).length := by
          rw [List.length_map]
          exact hlt
        have hset := List.set_getElem_self hlt'
        rw [List.getElem_map] at hset
        exact hset
  unfold life
  simp only [hclosed, hreads.left, hreads.right]

theorem life_doSendPacket (platform : Platform) (garbage : Memory)
    (packet : Bytes) (kind : Protocol.Kind) (c : Client) :
    (c.doSendPacket platform garbage packet kind).life =
      c.life.doSendPacket kind := by
  have hwrites : (Link.sendPacket platform (maxPacketSize + Link.headerSize)
      garbage packet kind c.socket).writes.map PendingWrite.tag =
        c.socket.writes.map PendingWrite.tag ++ [kind] := by
    unfold Link.sendPacket
    split <;>
    exact List.map_append
  unfold doSendPacket life Reconnecting.doSendPacket
  simp only [hwrites, Link.sendPacket_closed, Link.sendPacket_reads]

theorem life_onPacketSent (kind : Protocol.Kind) (result : WriteResult)
    (h : result ≠ WriteResult.lost) (c : Client) :
    (c.onPacketSent kind).life = c.life.onPacketSent result kind := by
  unfold onPacketSent Reconnecting.onPacketSent
  cases result with
  | lost => exact absurd rfl h
  | _ =>
      cases kind with
      | request =>
          unfold doReadHeader life Reconnecting.doReadHeader Link.doReadHeader
            Socket.asyncRead
          simp only [List.map_append]
          rfl
      | _ => rfl

theorem life_onNewPacket (platform : Platform) (buffer : Bytes) (c : Client) :
    (c.onNewPacket platform buffer).life =
      c.life.onNewPacket (platform.parse buffer) := by
  unfold onNewPacket Reconnecting.onNewPacket
  cases hkind : (platform.parse buffer).kind with
  | response =>
      simp only [hkind]
      unfold onResponse Reconnecting.onResponse
      have hsame : c.life.transactions = c.transactions := rfl
      rw [hsame]
      cases c.transactions.lookup
          (platform.parse buffer).transaction.id.toInt32 with
      | none => rfl
      | some callbacks => rfl
  | _ =>
      simp only [hkind]
      rfl

theorem life_onHeaderRead (platform : Platform) (c : Client) :
    (c.onHeaderRead platform).life =
      c.life.onHeaderRead (Link.packetSize platform c.socket) := by
  unfold onHeaderRead Reconnecting.onHeaderRead Link.onHeaderRead
  by_cases hsize : Link.packetSize platform c.socket > maxPacketSize
  · rw [if_pos hsize, if_pos hsize]
    rfl
  · rw [if_neg hsize, if_neg hsize]
    unfold life Reconnecting.doReadPacket Link.doReadPacket Socket.asyncRead
    simp only [List.map_append]
    rfl

theorem life_taken {r : PendingRead Buffer} {s : Socket Buffer Protocol.Kind}
    (hreads : c.socket.reads = r :: s.reads)
    (hsocket : s = { c.socket with reads := s.reads }) :
    Reconnecting.take c.life.reads 0 =
        some (r.target, (life { c with socket := s }).reads) ∧
      life { c with socket := s } =
        { c.life with reads := (life { c with socket := s }).reads } := by
  constructor
  · unfold life
    rw [hreads]
    rfl
  · rw [hsocket]
    rfl

theorem life_written {index : Nat} {w : PendingWrite Buffer Protocol.Kind}
    {s : Socket Buffer Protocol.Kind}
    (hw : c.socket.writes[index]? = some w)
    (hsocket : s =
      { c.socket with writes := c.socket.writes.eraseIdx index }) :
    Reconnecting.take c.life.writes index =
        some (w.tag, (life { c with socket := s }).writes) ∧
      life { c with socket := s } =
        { c.life with writes := (life { c with socket := s }).writes } := by
  subst s
  refine ⟨?_, rfl⟩
  unfold Reconnecting.take life
  simp only [List.getElem?_map, hw, Option.map_some, List.eraseIdx_map]

/-- A step of the connected client is a step of its operations, or leaves them
alone. -/
theorem step_life {e : Event} (h : step platform c e = some d) :
    d.life = c.life ∨
      exists e', Reconnecting.step c.life e' = some d.life := by
  rcases step_moves h with ⟨hgoes, hmoves⟩
  have hrunning : ¬ c.life.aborted = true := by
    show ¬ c.aborted = true
    rw [hgoes]
    exact Bool.false_ne_true
  cases hmoves with
  | io hs => exact Or.inl (life_progress hs)
  | sendMessage =>
      refine Or.inr ⟨Reconnecting.Event.sendMessage, ?_⟩
      unfold Reconnecting.step
      rw [if_neg hrunning, asyncSendMessage, life_doSendPacket]
      rfl
  | @sendRequest payload callbacks garbage =>
      refine Or.inr ⟨Reconnecting.Event.sendRequest callbacks, ?_⟩
      unfold Reconnecting.step
      rw [if_neg hrunning, asyncSendRequest, life_doSendPacket]
      rfl
  | @header r s hs hr =>
      rcases Socket.takeRead_eq_some hs with ⟨_, hreads, hsocket⟩
      rcases life_taken hreads hsocket with ⟨htake, hrest⟩
      refine Or.inr ⟨Reconnecting.Event.headerRead 0
        (Link.packetSize platform s), ?_⟩
      unfold Reconnecting.step
      rw [if_neg hrunning]
      simp only [htake, Option.bind_some, hr, if_true]
      rw [← hrest, life_onHeaderRead]
  | @packet r s hs hr =>
      rcases Socket.takeRead_eq_some hs with ⟨_, hreads, hsocket⟩
      rcases life_taken hreads hsocket with ⟨htake, hrest⟩
      refine Or.inr ⟨Reconnecting.Event.packetRead 0
        (platform.parse ((s.memory Buffer.packet).read 0 r.size)), ?_⟩
      unfold Reconnecting.step
      rw [if_neg hrunning]
      simp only [htake, Option.bind_some, hr, if_true]
      rw [← hrest, ← life_onNewPacket]
      rfl
  | @readFail s hs =>
      rcases Socket.failRead_eq_some hs with ⟨r, _, _, hreads, hsocket⟩
      rcases life_taken hreads hsocket with ⟨htake, hrest⟩
      refine Or.inr ⟨Reconnecting.Event.readFailed 0, ?_⟩
      unfold Reconnecting.step
      rw [if_neg hrunning]
      simp only [htake, Option.map_some]
      rw [← hrest]
  | @writeDone index w s hs =>
      rcases Socket.takeWrite_eq_some hs with ⟨hw, _, hsocket⟩
      rcases life_written hw hsocket with ⟨htake, hrest⟩
      refine Or.inr ⟨Reconnecting.Event.packetSent index WriteResult.whole, ?_⟩
      unfold Reconnecting.step
      rw [if_neg hrunning]
      simp only [htake, Option.map_some]
      rw [← hrest, life_onPacketSent w.tag WriteResult.whole nofun]
  | @writeFail index w s hs =>
      rcases Socket.failWrite_eq_some hs with ⟨hw, _, _, hsocket⟩
      rcases life_written hw hsocket with ⟨htake, hrest⟩
      refine Or.inr ⟨Reconnecting.Event.packetSent index WriteResult.failed, ?_⟩
      unfold Reconnecting.step
      rw [if_neg hrunning]
      simp only [htake, Option.map_some]
      rw [← hrest, life_onPacketSent w.tag WriteResult.failed nofun]

theorem run_life {labels : List Event}
    (hrun : Run (Steps (step platform)) c labels d) :
    Lib.Reaches (Steps Reconnecting.step) c.life d.life := by
  apply hrun.simulated life (fun _ => True) (fun _ _ => trivial) _ trivial
  intro s e t hstep _
  rcases step_life hstep with hsame | ⟨e', hnext⟩
  · rw [hsame]
    exact Lib.Reaches.refl s.life
  · exact Lib.Reaches.single hnext

end Life

end Client

end Protolink
end Protort
