import Protort.Protolink.Reconnecting

/-!
# Clients that are shut down

`prepare_shutdown` sets a flag and cancels the timer.  The flag is looked at
when an attempt to connect is over, but neither by the handler of the timer,
which runs for a cancelled wait as well, nor after a write that loses the
connection.
-/

namespace Protort
namespace Protolink
namespace Reconnecting

open Lib (Along Steps Run Guarded execute)
open Link (maxPacketSize)

/-- A step of a client that was shut down starts no attempt to connect. -/
def Final (c d : Reconnecting) : Prop :=
  c.shutdown = true -> d.connects.length <= c.connects.length

/-- The client is shut down while no handler of the timer is outstanding, and
no connection is lost afterwards. -/
def Prepared (c : Reconnecting) (e : Event) : Prop :=
  match e with
  | Event.prepareShutdown => c.waits = []
  | Event.packetSent _ WriteResult.lost => c.shutdown = false
  | _ => True

instance (c : Reconnecting) (e : Event) : Decidable (Prepared c e) :=
  match e with
  | Event.prepareShutdown => inferInstanceAs (Decidable (c.waits = []))
  | Event.packetSent _ WriteResult.lost =>
      inferInstanceAs (Decidable (c.shutdown = false))
  | Event.packetSent _ WriteResult.whole => isTrue trivial
  | Event.packetSent _ WriteResult.failed => isTrue trivial
  | Event.sendMessage => isTrue trivial
  | Event.sendRequest _ => isTrue trivial
  | Event.connected _ => isTrue trivial
  | Event.notConnected _ => isTrue trivial
  | Event.timer _ => isTrue trivial
  | Event.headerRead _ _ => isTrue trivial
  | Event.packetRead _ _ => isTrue trivial
  | Event.readFailed _ => isTrue trivial

def Disarmed (c : Reconnecting) : Prop :=
  c.shutdown = true -> c.waits = []

section Steps

variable {c d : Reconnecting}

structure WindsDown (c d : Reconnecting) : Prop where
  shutdown : d.shutdown = c.shutdown
  connects : d.connects.length <= c.connects.length
  waits : c.shutdown = true -> d.waits = c.waits

theorem WindsDown.disarmed (h : WindsDown c d) (hc : Disarmed c) : Disarmed d := by
  intro hshutdown
  rw [h.shutdown] at hshutdown
  rw [h.waits hshutdown]
  exact hc hshutdown

theorem WindsDown.final (h : WindsDown c d) : Final c d :=
  fun _ => h.connects

theorem WindsDown.trans {e : Reconnecting} (h : WindsDown c d)
    (h' : WindsDown d e) : WindsDown c e :=
  { shutdown := h'.shutdown.trans h.shutdown
    connects := h'.connects.trans h.connects
    waits := fun hshutdown =>
      (h'.waits (h.shutdown.trans hshutdown)).trans (h.waits hshutdown) }

theorem windsDown_attempt {attempt : Attempt} {rest : List Attempt}
    (htaken : List.Perm (attempt :: rest) c.connects) (connected : Bool) :
    WindsDown c { c with
      connected := connected
      connects := rest } := by
  have hlength := htaken.length_eq
  rw [List.length_cons] at hlength
  exact ⟨rfl, Nat.le_of_lt (Nat.lt_of_succ_le hlength.le), fun _ => rfl⟩

theorem windsDown_onConnect (err : Bool) (c : Reconnecting) :
    WindsDown c (c.onConnect err) := by
  unfold onConnect
  by_cases hshutdown : c.shutdown = true
  · rw [if_pos hshutdown]
    exact ⟨rfl, Nat.le_refl _, fun _ => rfl⟩
  · rw [if_neg hshutdown]
    cases err with
    | true => exact ⟨rfl, Nat.le_refl _, fun h => absurd h hshutdown⟩
    | false => exact ⟨rfl, Nat.le_refl _, fun h => absurd h hshutdown⟩

theorem windsDown_onNewPacket (packet : Protocol.Packet) (c : Reconnecting) :
    WindsDown c (c.onNewPacket packet) := by
  unfold onNewPacket
  cases packet.kind with
  | response =>
      unfold onResponse
      cases c.transactions.lookup packet.transaction.id.toInt32 with
      | none => exact ⟨rfl, Nat.le_refl _, fun _ => rfl⟩
      | some callbacks => exact ⟨rfl, Nat.le_refl _, fun _ => rfl⟩
  | _ => exact ⟨rfl, Nat.le_refl _, fun _ => rfl⟩

/-- Only shutting down, a handler of the timer and a lost connection do more
than to settle what is pending. -/
theorem step_windsDown {e : Event} (hstep : step c e = some d) :
    WindsDown c d ∨ e = Event.prepareShutdown ∨ (exists index,
      e = Event.timer index) ∨ exists index,
        e = Event.packetSent index WriteResult.lost := by
  have hmoves := step_moves hstep
  cases hmoves with
  | sendMessage => exact Or.inl ⟨rfl, Nat.le_refl _, fun _ => rfl⟩
  | sendRequest => exact Or.inl ⟨rfl, Nat.le_refl _, fun _ => rfl⟩
  | readFailed _ => exact Or.inl ⟨rfl, Nat.le_refl _, fun _ => rfl⟩
  | prepareShutdown => exact Or.inr (Or.inl rfl)
  | @timer index wait rest htaken =>
      exact Or.inr (Or.inr (Or.inl ⟨index, rfl⟩))
  | @connected index attempt rest htaken _ =>
      exact Or.inl
        ((windsDown_attempt htaken true).trans (windsDown_onConnect false _))
  | @notConnected index attempt rest htaken =>
      exact Or.inl ((windsDown_attempt htaken c.connected).trans
        (windsDown_onConnect true _))
  | @packetRead index packet rest htaken =>
      have hsettles := windsDown_onNewPacket packet { c with reads := rest }
      exact Or.inl
        { shutdown := hsettles.shutdown
          connects := hsettles.connects
          waits := hsettles.waits }
  | @headerRead index size rest htaken =>
      refine Or.inl ?_
      unfold onHeaderRead
      by_cases hsize : size > maxPacketSize
      · rw [if_pos hsize]
        exact ⟨rfl, (List.length_map _).le, fun _ => rfl⟩
      · rw [if_neg hsize]
        exact ⟨rfl, Nat.le_refl _, fun _ => rfl⟩
  | @packetSent index result kind rest hkind htaken =>
      cases result with
      | lost => exact Or.inr (Or.inr (Or.inr ⟨index, rfl⟩))
      | whole =>
          refine Or.inl ?_
          cases kind with
          | _ => exact ⟨rfl, Nat.le_refl _, fun _ => rfl⟩
      | failed =>
          refine Or.inl ?_
          cases kind with
          | _ => exact ⟨rfl, Nat.le_refl _, fun _ => rfl⟩

theorem step_prepareShutdown
    (hstep : step c Event.prepareShutdown = some d) :
    d = c.prepareShutdown ∧ c.aborted = false := by
  unfold step at hstep
  by_cases haborted : c.aborted = true
  · rw [if_pos haborted] at hstep
    cases hstep
  · rw [if_neg haborted] at hstep
    cases hstep
    exact ⟨rfl, Bool.eq_false_of_not_eq_true haborted⟩

/-- The handler of the timer tries to connect, whatever the flag says. -/
theorem connects_timer {index : Nat}
    (hstep : step c (Event.timer index) = some d) :
    d.shutdown = c.shutdown ∧ d.connects.length = c.connects.length + 1 ∧
      c.waits ≠ [] := by
  have hmoves := step_moves hstep
  cases hmoves with
  | timer htaken =>
      refine ⟨rfl, List.length_append, ?_⟩
      intro hnone
      rw [hnone] at htaken
      cases List.perm_nil.mp htaken

theorem connects_lost {index : Nat}
    (hstep : step c (Event.packetSent index WriteResult.lost) = some d) :
    d.shutdown = c.shutdown ∧ d.connects.length = c.connects.length + 1 ∧
      d.waits = c.waits := by
  have hmoves := step_moves hstep
  cases hmoves with
  | packetSent hkind htaken =>
      refine ⟨rfl, ?_, rfl⟩
      simp only [onPacketSent, stop, doConnect, List.length_append,
        List.length_map, List.length_singleton]

theorem Prepared.step {e : Event} (h : Prepared c e) (hc : Disarmed c)
    (hstep : step c e = some d) : Disarmed d ∧ Final c d := by
  rcases step_windsDown hstep with
    hsettles | rfl | ⟨index, rfl⟩ | ⟨index, rfl⟩
  · exact ⟨hsettles.disarmed hc, hsettles.final⟩
  · rcases step_prepareShutdown hstep with ⟨rfl, _⟩
    have hnone : c.waits = [] := h
    constructor
    · intro _
      show c.waits.map _ = []
      rw [hnone]
      rfl
    · exact fun _ => Nat.le_refl _
  · rcases connects_timer hstep with ⟨hshutdown, _, hwaits⟩
    have hon : c.shutdown ≠ true := fun hon => hwaits (hc hon)
    constructor
    · intro hdone
      rw [hshutdown] at hdone
      exact absurd hdone hon
    · exact fun hdone => absurd hdone hon
  · rcases connects_lost hstep with ⟨hshutdown, _, _⟩
    have hon : c.shutdown = false := h
    constructor
    · intro hdone
      rw [hshutdown, hon] at hdone
      cases hdone
    · intro hdone
      rw [hon] at hdone
      cases hdone

/-- A wait that is left when the client is shut down leads to an attempt. -/
theorem timer_after_shutdown (hstep : step c Event.prepareShutdown = some d)
    (hwaits : c.waits ≠ []) :
    ¬ Along step (fun c _ d => Final c d) d [Event.timer 0] := by
  rcases step_prepareShutdown hstep with ⟨rfl, haborted⟩
  rcases List.exists_cons_of_ne_nil hwaits with ⟨wait, rest, heq⟩
  intro h
  have htimer : exists f, step c.prepareShutdown (Event.timer 0) = some f := by
    unfold step prepareShutdown cancelWaits
    rw [if_neg (by simp [haborted]), heq]
    exact ⟨_, rfl⟩
  rcases htimer with ⟨f, hf⟩
  rcases connects_timer hf with ⟨_, hmore, _⟩
  have hle := (h f hf).left rfl
  omega

theorem prepared_iff {e : Event} (hc : Disarmed c)
    (hstep : step c e = some d) :
    Prepared c e <-> Final c d ∧ forall index,
      Along step (fun c _ d => Final c d) d [Event.timer index] := by
  constructor
  · intro h
    rcases h.step hc hstep with ⟨hd, hfinal⟩
    constructor
    · exact hfinal
    intro index f hf
    have hprepared : Prepared d (Event.timer index) := trivial
    exact ⟨(hprepared.step hd hf).right, trivial⟩
  · intro h
    rcases h with ⟨hfinal, htimer⟩
    rcases step_windsDown hstep with
      hsettles | rfl | ⟨index, rfl⟩ | ⟨index, rfl⟩
    · cases e with
      | prepareShutdown =>
          by_contra hwaits
          exact timer_after_shutdown hstep hwaits (htimer 0)
      | packetSent index result =>
          cases result with
          | lost =>
              have hless := (connects_lost hstep).right.left
              have hle := hsettles.connects
              omega
          | _ => trivial
      | _ => trivial
    · by_contra hwaits
      exact timer_after_shutdown hstep hwaits (htimer 0)
    · trivial
    · apply Bool.eq_false_of_not_eq_true
      intro hshutdown
      have hless := (connects_lost hstep).right.left
      have hle := hfinal hshutdown
      omega

end Steps

/-- In a run in which the client is shut down while no handler of the timer is
outstanding, and loses no connection afterwards, no attempt is started after
that; a step that breaks the condition starts one, or leaves a handler that
will. -/
theorem shutdown_final {labels : List Event} {c : Reconnecting}
    (hrun : Run (Guarded Prepared (Steps step)) new.asyncConnect labels c) :
    Along step (fun c _ d => Final c d) new.asyncConnect labels ∧
      forall e d, step c e = some d -> (Prepared c e <->
        Final c d ∧ forall index,
          Along step (fun c _ d => Final c d) d [Event.timer index]) := by
  have hstart : Disarmed new.asyncConnect := nofun
  generalize new.asyncConnect = start at hrun hstart ⊢
  induction hrun with
  | nil c => exact ⟨trivial, fun e d hstep => prepared_iff hstart hstep⟩
  | @cons c d f e labels hguarded hrest ih =>
      rcases hguarded with ⟨hprepared, hstep⟩
      rcases hprepared.step hstart hstep with ⟨hd, hfinal⟩
      rcases ih hd with ⟨halong, hend⟩
      constructor
      · intro d' hstep'
        have hsame : d = d' := Option.some.inj (hstep.symm.trans hstep')
        subst hsame
        exact ⟨hfinal, halong⟩
      · exact hend

/-- A client that is shut down once it is connected, with a message on its
way. -/
theorem shutdown_final_connected :
    exists c, Run (Guarded Prepared (Steps step)) new.asyncConnect
      [Event.connected 0, Event.sendMessage, Event.prepareShutdown,
        Event.packetSent 0 WriteResult.whole] c ∧
      Along step (fun c _ d => Final c d) new.asyncConnect
        [Event.connected 0, Event.sendMessage, Event.prepareShutdown,
          Event.packetSent 0 WriteResult.whole] := by
  have hend : ((execute (fun c e => if Prepared c e then step c e else none)
      new.asyncConnect [Event.connected 0, Event.sendMessage,
        Event.prepareShutdown, Event.packetSent 0 WriteResult.whole]).map
          (fun c => c.shutdown)) = some true := by
    decide +kernel
  rcases Option.map_eq_some_iff.mp hend with ⟨c, hexecute, _⟩
  have hrun := Run.guarded_of_execute hexecute
  exact ⟨c, hrun, (shutdown_final hrun).left⟩

/-- The first attempt fails, the client is shut down, and the handler of the
cancelled wait tries again. -/
theorem shutdown_not_final :
    ¬ Along step (fun c _ d => Final c d) new.asyncConnect
      [Event.notConnected 0, Event.prepareShutdown, Event.timer 0] := by
  intro h
  have hend : (execute step new.asyncConnect
      [Event.notConnected 0, Event.prepareShutdown]).map
        (fun c => (c.shutdown, c.connects.length,
          (step c (Event.timer 0)).map (fun d => d.connects.length))) =
      some (true, 0, some 1) := by
    decide +kernel
  rcases Option.map_eq_some_iff.mp hend with ⟨c, hexecute, hc⟩
  rw [Prod.mk.injEq, Prod.mk.injEq] at hc
  rcases hc with ⟨hshutdown, hnone, htimer⟩
  rcases Option.map_eq_some_iff.mp htimer with ⟨d, hstep, hone⟩
  have hlast : Along step (fun c _ d => Final c d) c [Event.timer 0] :=
    Lib.along_of_execute hexecute h
  have hle := (hlast d hstep).left hshutdown
  omega

end Reconnecting
end Protolink
end Protort
