import Protort.Node.Acceptance
import Protort.Protolink.Responses

/-!
# A node and its peers

A peer sends frames on a connection of the node's server.  The packet in each
frame is whatever `ParseFromArray` leaves behind, its result is not looked at.
Which callback of the node runs, and whether it returns, is for the peer to
say.
-/

namespace Protort
namespace System

open Lib (Bytes Memory PendingRead Socket IoEvent Along Run Guarded Steps execute)
open Lib.Exceptions
open Link (Buffer)
open Protolink (Connection)

/-- A node and one connection of its server; `fault` is what ended the program
when a callback did not return. -/
structure Session where
  node : Protort.Node
  connection : Connection
  fault : Option Node.Fault

namespace Session

/-- What happens to a session: the connection goes on, the node handling a
packet on the platform of that moment, or the node is at work elsewhere. -/
inductive Event where
  | io (event : IoEvent)
  | readDone (env : Platform) (garbage : Memory)
  | readFail
  | writeDone (index : Nat)
  | writeFail (index : Nat)
  | elsewhere (event : Node.Event)

def start (memory : Buffer -> Memory) (n : Protort.Node) : Session :=
  { node := n
    connection := (Connection.new memory).start
    fault := none }

def ended (s : Session) : Bool :=
  s.fault.isSome || s.connection.aborted

/-- The callback that `on_new_packet` calls for a packet, and what it returns if
it returns anything. -/
def callback (env : Platform) (packet : Protocol.Packet) :
    Node.Handler Protocol.Payload :=
  match packet.kind with
  | Protocol.Kind.request => Node.onNewRequest env packet.payload
  | Protocol.Kind.message => do
      Node.onNewMessage env none packet.payload
      pure default
  | _ => pure default

def onNewPacket (platform env : Platform) (garbage : Memory) (buffer : Bytes)
    (s : Session) : Session :=
  match callback env (platform.parse buffer) s.node with
  | EStateM.Result.ok answer n =>
      { s with
        node := n
        connection :=
          s.connection.onNewPacket platform answer garbage buffer }
  | EStateM.Result.error fault n =>
      { s with
        node := n
        connection :=
          { s.connection with handed := s.connection.handed ++ [buffer] }
        fault := some fault }

def onPacketRead (platform env : Platform) (garbage : Memory) (bytes : Nat)
    (s : Session) : Session :=
  let buffer := (s.connection.socket.memory Buffer.packet).read 0 bytes
  let s := s.onNewPacket platform env garbage buffer
  if s.ended then s else { s with connection := s.connection.doReadHeader }

def onRead (platform env : Platform) (garbage : Memory)
    (r : PendingRead Buffer) (s : Session) : Session :=
  match r.target with
  | Buffer.packetHeader =>
      { s with connection := s.connection.onHeaderRead platform }
  | Buffer.packet => s.onPacketRead platform env garbage r.size

def proceed (platform : Platform) (e : Connection.Event) (s : Session) :
    Option Session :=
  (s.connection.step platform e).map (fun c => { s with connection := c })

def step (platform : Platform) (s : Session) (e : Event) : Option Session :=
  if s.ended then
    none
  else
    match e with
    | Event.io e => s.proceed platform (Connection.Event.io e)
    | Event.readDone env garbage =>
        s.connection.socket.takeRead.map (fun done =>
          onRead platform env garbage done.1
            { s with connection := { s.connection with socket := done.2 } })
    | Event.readFail => s.proceed platform Connection.Event.readFail
    | Event.writeDone index =>
        s.proceed platform (Connection.Event.writeDone index)
    | Event.writeFail index =>
        s.proceed platform (Connection.Event.writeFail index)
    | Event.elsewhere e =>
        (Node.step s.node e).map (fun n => { s with node := n })

/-!
## What a frame has to do
-/

def body (s : Session) : Option Bytes :=
  match s.connection.socket.takeRead with
  | none => none
  | some (r, socket) =>
      match r.target with
      | Buffer.packetHeader => none
      | Buffer.packet => some ((socket.memory Buffer.packet).read 0 r.size)

def packet (platform : Platform) (s : Session) (e : Event) :
    Option (Platform × Protocol.Packet) :=
  match e with
  | Event.readDone env _ =>
      s.body.map (fun buffer => (env, platform.parse buffer))
  | _ => none

def requests (packets : List Protocol.Packet) : List Protocol.Packet :=
  packets.filter (fun packet =>
    decide (packet.kind = Protocol.Kind.request))

def answered (s : Session) : List Protocol.Packet :=
  s.connection.answered.map Prod.fst

/-- The program goes on, and the packet of the step is answered with exactly
one response if it is a request and with none otherwise. -/
def Answers (platform : Platform) (s : Session) (e : Event) (t : Session) :
    Prop :=
  t.ended = false ∧
    t.answered = s.answered ++
      requests ((s.packet platform e).toList.map Prod.snd)

/-- A packet that the node survives: not a response, and a request only if the
node accepts it. -/
def Bearable (platform : Platform) (s : Session) (e : Event) : Prop :=
  forall env packet, s.packet platform e = some (env, packet) ->
    packet.kind ≠ Protocol.Kind.response ∧
      (packet.kind = Protocol.Kind.request ->
        Node.Accepts env s.node packet.payload)

/-- A response is only put together when it does no harm to an earlier one, and
none is overwritten while it is written. -/
def Spaced (platform : Platform) (s : Session) (e : Event) : Prop :=
  match e with
  | Event.io e => s.connection.Safe platform (Connection.Event.io e)
  | Event.readDone env garbage =>
      match s.packet platform e with
      | some (_, packet) =>
          match callback env packet s.node with
          | EStateM.Result.ok answer _ =>
              s.connection.Safe platform
                (Connection.Event.readDone answer garbage)
          | EStateM.Result.error _ _ => True
      | none => True
  | _ => True

instance (platform : Platform) (s : Session) (e : Event) :
    Decidable (Bearable platform s e) :=
  match h : s.packet platform e with
  | none => isTrue (by simp [Bearable, h])
  | some (env, packet) =>
      decidable_of_iff
        (packet.kind ≠ Protocol.Kind.response ∧
          (packet.kind = Protocol.Kind.request ->
            Node.Accepts env s.node packet.payload))
        (by
          unfold Bearable
          rw [h]
          constructor
          · intro hbearable env' packet' heq
            cases heq
            exact hbearable
          · intro hbearable
            exact hbearable env packet rfl)

instance (platform : Platform) (s : Session) (e : Event) :
    Decidable (Spaced platform s e) :=
  match e with
  | Event.io e =>
      inferInstanceAs (Decidable (s.connection.Safe platform
        (Connection.Event.io e)))
  | Event.readFail => isTrue trivial
  | Event.writeDone _ => isTrue trivial
  | Event.writeFail _ => isTrue trivial
  | Event.elsewhere _ => isTrue trivial
  | Event.readDone env garbage =>
      match h : s.packet platform (Event.readDone env garbage) with
      | none => isTrue (by simp [Spaced, h])
      | some (_, packet) =>
          match hrun : callback env packet s.node with
          | EStateM.Result.error _ _ => isTrue (by simp [Spaced, h, hrun])
          | EStateM.Result.ok answer _ =>
              decidable_of_iff (s.connection.Safe platform
                (Connection.Event.readDone answer garbage))
                (by simp [Spaced, h, hrun])

/-!
## One packet
-/

section Packets

variable {platform env : Platform} {garbage : Memory} {buffer : Bytes}
  {s t : Session}

theorem callback_returns_iff (env : Platform) (packet : Protocol.Packet)
    (n : Protort.Node) :
    (exists answer n', callback env packet n =
        EStateM.Result.ok answer n') <->
      (packet.kind = Protocol.Kind.request ->
        Node.Accepts env n packet.payload) := by
  unfold callback
  cases hkind : packet.kind with
  | request =>
      rw [Node.onNewRequest_returns_iff]
      exact ⟨fun h _ => h, fun h => h rfl⟩
  | message => exact ⟨fun _ => nofun, fun _ => ⟨_, _, rfl⟩⟩
  | response => exact ⟨fun _ => nofun, fun _ => ⟨_, _, rfl⟩⟩
  | unrecognized value => exact ⟨fun _ => nofun, fun _ => ⟨_, _, rfl⟩⟩

theorem onNewPacket_ok {answer : Protocol.Payload} {n : Protort.Node}
    (h : callback env (platform.parse buffer) s.node =
      EStateM.Result.ok answer n) :
    s.onNewPacket platform env garbage buffer =
      { s with
        node := n
        connection :=
          s.connection.onNewPacket platform answer garbage buffer } := by
  unfold onNewPacket
  rw [h]

theorem onNewPacket_error {fault : Node.Fault} {n : Protort.Node}
    (h : callback env (platform.parse buffer) s.node =
      EStateM.Result.error fault n) :
    s.onNewPacket platform env garbage buffer =
      { s with
        node := n
        connection :=
          { s.connection with handed := s.connection.handed ++ [buffer] }
        fault := some fault } := by
  unfold onNewPacket
  rw [h]

/-- After a packet the program goes on exactly when the packet is bearable. -/
theorem ended_onNewPacket (platform env : Platform) (garbage : Memory)
    (buffer : Bytes) (h : s.ended = false) :
    (s.onNewPacket platform env garbage buffer).ended = false <->
      (platform.parse buffer).kind ≠ Protocol.Kind.response ∧
        ((platform.parse buffer).kind = Protocol.Kind.request ->
          Node.Accepts env s.node (platform.parse buffer).payload) := by
  have hreturns := callback_returns_iff env (platform.parse buffer) s.node
  have hfault : s.fault = none ∧ s.connection.aborted = false := by
    unfold ended at h
    simpa using h
  cases hrun : callback env (platform.parse buffer) s.node with
  | error fault n =>
      rw [onNewPacket_error hrun]
      refine iff_of_false nofun ?_
      intro h
      rcases h with ⟨_, haccepts⟩
      rcases hreturns.mpr haccepts with ⟨answer, n', hok⟩
      rw [hrun] at hok
      cases hok
  | ok answer n =>
      rw [onNewPacket_ok hrun]
      have haccepts := hreturns.mp ⟨answer, n, hrun⟩
      unfold ended
      simp only [hfault.left, Option.isSome_none, Bool.false_or]
      rcases Connection.onNewPacket_cases platform answer garbage buffer
        s.connection with ⟨hkind, heq⟩ | ⟨hkind, heq⟩ | ⟨hkind, _, heq⟩
      · rw [heq, hkind]
        exact iff_of_false nofun (fun h => h.left rfl)
      · rw [heq]
        refine iff_of_true hfault.right ⟨?_, haccepts⟩
        rw [hkind]
        exact nofun
      · rw [heq]
        exact iff_of_true hfault.right ⟨hkind, haccepts⟩

theorem answered_onNewPacket (garbage : Memory) {answer : Protocol.Payload}
    {n : Protort.Node}
    (h : callback env (platform.parse buffer) s.node =
      EStateM.Result.ok answer n) :
    (s.onNewPacket platform env garbage buffer).answered =
      s.answered ++ requests [platform.parse buffer] := by
  rw [onNewPacket_ok h]
  unfold answered requests
  rcases Connection.onNewPacket_cases platform answer garbage buffer
    s.connection with ⟨hkind, heq⟩ | ⟨hkind, heq⟩ | ⟨_, hkind, heq⟩
  · simp [heq, hkind]
  · simp [heq, hkind]
  · simp [heq, hkind]

theorem handed_onNewPacket :
    (s.onNewPacket platform env garbage buffer).connection.handed =
      s.connection.handed ++ [buffer] := by
  cases hrun : callback env (platform.parse buffer) s.node with
  | error fault n => rw [onNewPacket_error hrun]
  | ok answer n =>
      rw [onNewPacket_ok hrun]
      rcases Connection.onNewPacket_cases platform answer garbage buffer
        s.connection with ⟨_, heq⟩ | ⟨_, heq⟩ | ⟨_, _, heq⟩ <;>
      rw [heq]

end Packets

/-!
## One step
-/

section Steps

variable {platform env : Platform} {garbage : Memory} {s t : Session}

structure SameAnswers (s t : Session) : Prop where
  ended : t.ended = s.ended
  answered : t.answered = s.answered
  handed : t.connection.handed = s.connection.handed

theorem proceed_idle {e : Connection.Event}
    (he : forall answer garbage, e ≠ Connection.Event.readDone answer garbage)
    (h : s.proceed platform e = some t) : SameAnswers s t := by
  unfold proceed at h
  rcases Option.map_eq_some_iff.mp h with ⟨c, hstep, rfl⟩
  rcases Connection.step_moves hstep with ⟨_, hmoves⟩
  cases hmoves with
  | io hs => exact ⟨rfl, rfl, rfl⟩
  | header hs hr => exact absurd rfl (he _ _)
  | packet hs hr => exact absurd rfl (he _ _)
  | readFail hs => exact ⟨rfl, rfl, rfl⟩
  | writeDone hs => exact ⟨rfl, rfl, rfl⟩
  | writeFail hs => exact ⟨rfl, rfl, rfl⟩

theorem onPacketRead_idle {bytes : Nat} {buffer : Bytes}
    (h : (s.connection.socket.memory Buffer.packet).read 0 bytes = buffer) :
    SameAnswers (s.onNewPacket platform env garbage buffer)
      (s.onPacketRead platform env garbage bytes) := by
  subst buffer
  unfold onPacketRead
  cases hended : (s.onNewPacket platform env garbage
      ((s.connection.socket.memory Buffer.packet).read 0 bytes)).ended with
  | true =>
      simp only [hended, if_true]
      exact ⟨rfl, rfl, rfl⟩
  | false =>
      simp only [hended, Bool.false_eq_true, if_false]
      exact ⟨rfl, rfl, rfl⟩

theorem onPacketRead_connection {bytes : Nat}
    (hgoes : (s.onPacketRead platform env garbage bytes).ended = false) :
    exists answer n,
      callback env (platform.parse ((s.connection.socket.memory
        Buffer.packet).read 0 bytes)) s.node = EStateM.Result.ok answer n ∧
      (s.onPacketRead platform env garbage bytes).connection =
        s.connection.onPacketRead platform answer garbage bytes := by
  rw [(onPacketRead_idle rfl).ended] at hgoes
  cases hrun : callback env (platform.parse ((s.connection.socket.memory
      Buffer.packet).read 0 bytes)) s.node with
  | error fault n =>
      rw [onNewPacket_error hrun] at hgoes
      cases hgoes
  | ok answer n =>
      exists answer
      exists n
      constructor
      · exact rfl
      rw [onNewPacket_ok hrun] at hgoes
      have haborted : (s.connection.onNewPacket platform answer garbage
          ((s.connection.socket.memory Buffer.packet).read 0
            bytes)).aborted = false := by
        unfold ended at hgoes
        exact (Bool.or_eq_false_iff.mp hgoes).right
      simp only [onPacketRead, Connection.onPacketRead, onNewPacket_ok hrun,
        hgoes, haborted, Bool.false_eq_true, if_false]

inductive Moves (platform : Platform) (s : Session) :
    Event -> Session -> Prop where
  | packet {env : Platform} {garbage : Memory} {r : PendingRead Buffer}
      {socket : Socket Buffer Unit} {buffer : Bytes} {t : Session} :
      s.connection.socket.takeRead = some (r, socket) ->
      r.target = Buffer.packet ->
      (socket.memory Buffer.packet).read 0 r.size = buffer ->
      SameAnswers (onNewPacket platform env garbage buffer
        { s with connection := { s.connection with socket := socket } }) t ->
      Moves platform s (Event.readDone env garbage) t
  | idle {e : Event} {t : Session} :
      s.packet platform e = none -> SameAnswers s t -> Moves platform s e t

theorem step_moves {e : Event} (h : step platform s e = some t) :
    s.ended = false ∧ Moves platform s e t := by
  unfold step at h
  by_cases hended : s.ended = true
  · rw [if_pos hended] at h
    cases h
  · rw [if_neg hended] at h
    constructor
    · exact Bool.eq_false_of_not_eq_true hended
    cases e with
    | io e =>
        exact Moves.idle rfl
          (proceed_idle (e := Connection.Event.io e) (fun _ _ => nofun) h)
    | readFail =>
        exact Moves.idle rfl
          (proceed_idle (e := Connection.Event.readFail) (fun _ _ => nofun) h)
    | writeDone index =>
        exact Moves.idle rfl
          (proceed_idle (e := Connection.Event.writeDone index)
            (fun _ _ => nofun) h)
    | writeFail index =>
        exact Moves.idle rfl
          (proceed_idle (e := Connection.Event.writeFail index)
            (fun _ _ => nofun) h)
    | elsewhere e =>
        rcases Option.map_eq_some_iff.mp h with ⟨n, _, rfl⟩
        exact Moves.idle rfl ⟨rfl, rfl, rfl⟩
    | readDone env garbage =>
        rcases Option.map_eq_some_iff.mp h with ⟨⟨r, socket⟩, htake, rfl⟩
        cases htarget : r.target with
        | packetHeader =>
            refine Moves.idle ?_ ?_
            · unfold packet body
              simp only [htake, htarget]
              rfl
            · unfold onRead
              simp only [htarget]
              exact ⟨rfl, rfl, rfl⟩
        | packet =>
            refine Moves.packet htake htarget rfl ?_
            unfold onRead
            simp only [htarget]
            exact onPacketRead_idle rfl

theorem packet_of_takeRead (platform env : Platform) (garbage : Memory)
    {r : PendingRead Buffer}
    {socket : Socket Buffer Unit} {buffer : Bytes}
    (htake : s.connection.socket.takeRead = some (r, socket))
    (htarget : r.target = Buffer.packet)
    (hbuffer : (socket.memory Buffer.packet).read 0 r.size = buffer) :
    s.packet platform (Event.readDone env garbage) =
      some (env, platform.parse buffer) := by
  unfold packet body
  simp only [htake, htarget, hbuffer]
  rfl

/-- A step does what its frame has to do exactly when the packet is
bearable. -/
theorem step_answers_iff {e : Event} (h : step platform s e = some t) :
    Answers platform s e t <-> Bearable platform s e := by
  rcases step_moves h with ⟨hgoes, hmoves⟩
  unfold Answers Bearable
  cases hmoves with
  | idle hpacket hidle =>
      rw [hpacket, hidle.ended, hidle.answered]
      constructor
      · intro _ env' packet' heq
        cases heq
      · intro _
        exact ⟨hgoes, (List.append_nil s.answered).symm⟩
  | @packet env garbage r socket buffer t htake htarget hbuffer hidle =>
      rw [packet_of_takeRead _ _ _ htake htarget hbuffer, hidle.ended,
        hidle.answered]
      have hended := ended_onNewPacket platform env garbage buffer
        (s := { s with connection := { s.connection with socket := socket } })
        hgoes
      rw [hended]
      constructor
      · intro h env' packet' heq
        rcases h with ⟨hbearable, _⟩
        cases heq
        exact hbearable
      · intro hbearable
        have hkind := hbearable env (platform.parse buffer) rfl
        constructor
        · exact hkind
        rcases (callback_returns_iff _ _ _).mpr hkind.right with
          ⟨answer, n, hrun⟩
        exact answered_onNewPacket _ hrun

theorem step_handed {e : Event} (h : step platform s e = some t) :
    t.connection.handed.map platform.parse =
      s.connection.handed.map platform.parse ++
        (s.packet platform e).toList.map Prod.snd := by
  rcases step_moves h with ⟨_, hmoves⟩
  cases hmoves with
  | idle hpacket hidle =>
      rw [hpacket, hidle.handed]
      exact (List.append_nil _).symm
  | packet htake htarget hbuffer hidle =>
      rw [packet_of_takeRead _ _ _ htake htarget hbuffer, hidle.handed,
        handed_onNewPacket, List.map_append]
      rfl

theorem step_connection {e : Event} (h : step platform s e = some t)
    (hgoes : t.ended = false) (hspaced : Spaced platform s e) :
    Lib.Reaches (Guarded (Connection.Safe platform)
      (Steps (Connection.step platform))) s.connection t.connection := by
  have hproceed : forall e', s.connection.Safe platform e' ->
      s.proceed platform e' = some t -> Lib.Reaches
        (Guarded (Connection.Safe platform)
          (Steps (Connection.step platform))) s.connection t.connection := by
    intro e' hsafe hrun
    unfold proceed at hrun
    rcases Option.map_eq_some_iff.mp hrun with ⟨c, hc, rfl⟩
    exact Lib.Reaches.single ⟨hsafe, hc⟩
  unfold step at h
  by_cases hended : s.ended = true
  · rw [if_pos hended] at h
    cases h
  · rw [if_neg hended] at h
    have hopen : ¬ s.connection.aborted = true := by
      intro haborted
      unfold ended at hended
      rw [haborted, Bool.or_true] at hended
      exact hended rfl
    cases e with
    | io e => exact hproceed (Connection.Event.io e) hspaced h
    | readFail => exact hproceed Connection.Event.readFail trivial h
    | writeDone index =>
        exact hproceed (Connection.Event.writeDone index) trivial h
    | writeFail index =>
        exact hproceed (Connection.Event.writeFail index) trivial h
    | elsewhere e =>
        rcases Option.map_eq_some_iff.mp h with ⟨n, _, rfl⟩
        exact Lib.Reaches.refl s.connection
    | readDone env garbage =>
        rcases Option.map_eq_some_iff.mp h with ⟨⟨r, socket⟩, htake, rfl⟩
        have hread : forall answer, s.connection.step platform
            (Connection.Event.readDone answer garbage) =
              some (Connection.onRead platform answer garbage r
                { s.connection with socket := socket }) := by
          intro answer
          unfold Connection.step
          rw [if_neg hopen, htake]
          rfl
        cases htarget : r.target with
        | packetHeader =>
            have hconnection : (onRead platform env garbage r
                { s with connection :=
                  { s.connection with socket := socket } }).connection =
                    Connection.onRead platform default garbage r
                      { s.connection with socket := socket } := by
              unfold onRead
              rw [Connection.onRead_packetHeader htarget, htarget]
            have hsafe : s.connection.Safe platform
                (Connection.Event.readDone default garbage) := by
              have hsilent : s.connection.answering platform default =
                  none := by
                unfold Connection.answering
                rw [htake]
                apply if_neg
                intro h
                rcases h with ⟨hback, _⟩
                rw [htarget] at hback
                cases hback
              simp only [Connection.Safe, hsilent]
            refine Lib.Reaches.single ⟨hsafe, ?_⟩
            exact (hread default).trans (congrArg some hconnection.symm)
        | packet =>
            have hpacket := packet_of_takeRead platform env garbage htake
              htarget rfl
            have honRead : onRead platform env garbage r
                { s with connection :=
                  { s.connection with socket := socket } } =
                    onPacketRead platform env garbage r.size
                      { s with connection :=
                        { s.connection with socket := socket } } := by
              unfold onRead
              rw [htarget]
            simp only [honRead] at hgoes ⊢
            rcases onPacketRead_connection hgoes with ⟨answer, n, hrun, heq⟩
            have hsafe : s.connection.Safe platform
                (Connection.Event.readDone answer garbage) := by
              simpa [Spaced, hpacket, hrun] using hspaced
            refine Lib.Reaches.single ⟨hsafe, (hread answer).trans ?_⟩
            rw [heq, Connection.onRead_packet htarget]

end Steps

/-!
## Every frame of a run
-/

section Runs

variable {platform : Platform} {memory : Buffer -> Memory}
  {n : Protort.Node} {s t : Session}

structure WentOn (platform : Platform) (s : Session) : Prop where
  goes : s.ended = false
  answered : s.answered = requests (s.connection.handed.map platform.parse)

theorem WentOn.step {e : Event} (h : WentOn platform s)
    (hstep : step platform s e = some t)
    (hanswers : Answers platform s e t) : WentOn platform t := by
  constructor
  · exact hanswers.left
  rw [hanswers.right, step_handed hstep, h.answered]
  exact (List.filter_append _ _).symm

/-- A peer is answered as it should be exactly as long as it sends no response
and only requests that the node accepts.  The responses are on the wire whole
and in order when, moreover, each one is put together while no other is being
written. -/
theorem answers_iff_bearable (platform : Platform) (memory : Buffer -> Memory)
    (n : Protort.Node) (labels : List Event) :
    (Along (step platform) (Answers platform) (start memory n) labels <->
      Along (step platform) (fun s e _ => Bearable platform s e)
        (start memory n) labels) ∧
    forall t, Run (Guarded
        (fun s e => Bearable platform s e ∧ Spaced platform s e)
        (Steps (step platform))) (start memory n) labels t ->
      t.ended = false ∧
        t.answered = requests (t.connection.handed.map platform.parse) ∧
        List.IsPrefix t.connection.socket.wire
          (platform.framing.frames (t.connection.responses platform)) ∧
        (t.connection.socket.closed = false ->
          t.connection.socket.pending = [] ->
            t.connection.socket.wire =
              platform.framing.frames (t.connection.responses platform)) := by
  constructor
  · exact @Lib.along_congr _ _ (step platform) _ _ (fun _ => True)
      (fun _ _ => trivial) (fun hstep _ => step_answers_iff hstep) _ _ trivial
  · intro t hrun
    have hstart : WentOn platform (start memory n) := ⟨rfl, rfl⟩
    have hserved : WentOn platform t := by
      refine hrun.invariant ?_ hstart
      intro s e u h hs
      rcases h with ⟨⟨hbearable, _⟩, hstep⟩
      exact hs.step hstep ((step_answers_iff hstep).mpr hbearable)
    have hconnection : Lib.Reaches (Guarded (Connection.Safe platform)
        (Steps (Connection.step platform)))
        (start memory n).connection t.connection := by
      apply hrun.simulated Session.connection (fun _ => True)
        (fun _ _ => trivial) _ trivial
      intro s e u h _
      rcases h with ⟨⟨hbearable, hspaced⟩, hstep⟩
      exact step_connection hstep
        ((step_answers_iff hstep).mpr hbearable).left hspaced
    rcases hconnection with ⟨events, hevents⟩
    have hwhole := Connection.responses_whole hevents
    exact ⟨hserved.goes, hserved.answered, hwhole.left, hwhole.right⟩

/-!
## A peer that asks for the configuration
-/

def deployKind (value : UInt8) : Protocol.Deploy.PacketKind :=
  match value with
  | 1 => Protocol.Deploy.PacketKind.getConfig
  | 2 => Protocol.Deploy.PacketKind.start
  | 3 => Protocol.Deploy.PacketKind.stop
  | 4 => Protocol.Deploy.PacketKind.getStatus
  | 5 => Protocol.Deploy.PacketKind.update
  | 6 => Protocol.Deploy.PacketKind.switch
  | _ => Protocol.Deploy.PacketKind.unrecognized value.toNat

def deployRequest (id : UInt32) (value : UInt8) : Protocol.Packet :=
  { kind := Protocol.Kind.request
    transaction := { id := id }
    payload := Protocol.Payload.deployPacket
      { kind := deployKind value
        payload := Protocol.Deploy.PacketPayload.notSet } }

/-- The loopback machine, with a parser that knows the bytes of such requests
with id 0 and with small ids. -/
def deployPlatform : Platform :=
  { Platform.loopback with
    parse := fun bytes =>
      match bytes with
      | [8, 1, 18, 0, 26, 4, 18, 2, 8, value] => deployRequest 0 value
      | [8, 1, 18, 2, 8, id, 26, 4, 18, 2, 8, value] =>
          deployRequest id.toUInt32 value
      | _ => parsePacket bytes }

def receives (packet : Bytes) : List Event :=
  [Event.io (IoEvent.arrive (deployPlatform.framing.frame packet)),
    Event.io (IoEvent.readSome 4),
    Event.readDone deployPlatform (fun _ => 0),
    Event.io (IoEvent.readSome packet.length),
    Event.readDone deployPlatform (fun _ => 0)]

def asks (value : UInt8) : List Event :=
  receives [8, 1, 18, 0, 26, 4, 18, 2, 8, value]

/-- A request to start and one to stop arrive one after the other, and the
response to the first is written before the second is read. -/
def startStop : List Event :=
  asks 2 ++
    [Event.io (IoEvent.writeSome 0 4), Event.io (IoEvent.writeSome 0 6),
      Event.writeDone 0] ++
    receives [8, 1, 18, 2, 8, 1, 26, 4, 18, 2, 8, 3] ++
    [Event.io (IoEvent.writeSome 0 12)]

/-- Both are answered, in their order and with their ids, on the wire too. -/
theorem answers_iff_bearable_start :
    exists t : Session,
      t.answered = requests (t.connection.handed.map deployPlatform.parse) ∧
      t.connection.handed.length = 2 ∧
      t.connection.socket.wire = deployPlatform.framing.frames
        [[8, 2, 18, 0, 26, 0], [8, 2, 18, 2, 8, 1, 26, 0]] := by
  have hend : (execute (fun s e =>
      if Bearable deployPlatform s e ∧ Spaced deployPlatform s e then
        step deployPlatform s e
      else none) (start (fun _ _ => 0) (Node.new 100 0)) startStop).map
        (fun t => (t.connection.responses deployPlatform,
          t.connection.handed.length, t.connection.socket.closed,
          t.connection.socket.pending)) =
      some ([[8, 2, 18, 0, 26, 0], [8, 2, 18, 2, 8, 1, 26, 0]], 2, false,
        []) := by
    decide +kernel
  rcases Option.map_eq_some_iff.mp hend with ⟨t, hexecute, ht⟩
  simp only [Prod.mk.injEq] at ht
  rcases ht with ⟨hresponses, hhanded, hopen, hidle⟩
  rcases (answers_iff_bearable deployPlatform (fun _ _ => 0)
    (Node.new 100 0) _).right t (Run.guarded_of_execute hexecute) with
      ⟨_, hanswered, _, hwhole⟩
  refine ⟨t, hanswered, hhanded, ?_⟩
  rw [hwhole hopen hidle, hresponses]

/-- A request for the configuration ends the program. -/
theorem getConfig_not_answered :
    ¬ Along (step deployPlatform) (Answers deployPlatform)
      (start (fun _ _ => 0) (Node.new 100 0)) (asks 1) := by
  intro h
  have hend : (execute (step deployPlatform)
      (start (fun _ _ => 0) (Node.new 100 0)) (asks 1)).map
        (fun t => t.ended) = some true := by
    decide +kernel
  rcases Option.map_eq_some_iff.mp hend with ⟨t, hexecute, hended⟩
  have hgoes : t.ended = false :=
    Lib.along_invariant (fun s => s.ended = false)
      (fun hanswers _ => hanswers.left) h hexecute rfl
  rw [hended] at hgoes
  cases hgoes

end Runs

/-!
## Frames that are no packets
-/

/-- A frame that has done nothing: the program goes on, the node is as it was
and no response is sent. -/
structure Unaffected (s t : Session) : Prop where
  goes : t.ended = false
  node : t.node = s.node
  answered : t.answered = s.answered
  writes : t.connection.socket.writes = s.connection.socket.writes

section Malformed

variable {platform env : Platform} {garbage : Memory} {buffer : Bytes}
  {s : Session}

theorem callback_message (env : Platform) {packet : Protocol.Packet}
    (h : packet.kind = Protocol.Kind.message) (n : Protort.Node) :
    exists n', callback env packet n = EStateM.Result.ok default n' ∧
      n'.router.inPackets = n.router.inPackets + 1 := by
  have hcounts : exists n', Node.onNewMessage env none packet.payload n =
      EStateM.Result.ok PUnit.unit n' ∧
        n'.router.inPackets = n.router.inPackets + 1 :=
    ⟨_, rfl, by simp only [Node.router_performAll, Node.Router.route_fst]⟩
  rcases hcounts with ⟨n', hrun, hcount⟩
  refine ⟨n', ?_, hcount⟩
  unfold callback
  rw [h]
  exact bind_ok hrun

theorem callback_unrecognized (env : Platform) {packet : Protocol.Packet}
    {value : Int}
    (h : packet.kind = Protocol.Kind.unrecognized value) (n : Protort.Node) :
    callback env packet n = EStateM.Result.ok default n := by
  unfold callback
  rw [h]
  rfl

theorem inPackets_ne_succ (count : UInt32) : count + 1 ≠ count := by
  intro h
  have hsub := congrArg (fun x => x - count) h
  simp at hsub

/-- A frame has no effect exactly when the kind that was read from it is one
that the protocol does not name. -/
theorem unaffected_iff_unrecognized (h : s.ended = false) :
    Unaffected s (s.onNewPacket platform env garbage buffer) <->
      exists value, (platform.parse buffer).kind =
        Protocol.Kind.unrecognized value := by
  have hended := ended_onNewPacket platform env garbage buffer h
  cases hkind : (platform.parse buffer).kind with
  | response =>
      rw [hkind] at hended
      exact iff_of_false (fun hsame => (hended.mp hsame.goes).left rfl) nofun
  | request =>
      refine iff_of_false (fun hsame => ?_) nofun
      rcases (callback_returns_iff _ _ _).mpr (hended.mp hsame.goes).right with
        ⟨answer, n, hrun⟩
      have hanswered := answered_onNewPacket garbage hrun
      rw [hsame.answered] at hanswered
      have hlength := congrArg List.length hanswered
      simp [requests, hkind] at hlength
  | message =>
      refine iff_of_false (fun hsame => ?_) nofun
      rcases callback_message env hkind s.node with
        ⟨n, hrun, hcount⟩
      have hnode := hsame.node
      rw [onNewPacket_ok hrun] at hnode
      have hn : n = s.node := hnode
      rw [hn] at hcount
      exact inPackets_ne_succ _ hcount.symm
  | unrecognized value =>
      refine iff_of_true ?_ ⟨value, rfl⟩
      have hrun := callback_unrecognized env hkind s.node
      have hgoes := hended.mpr (by
        rw [hkind]
        exact ⟨nofun, nofun⟩)
      have hanswered := answered_onNewPacket garbage hrun
      refine
        { goes := hgoes
          node := ?_
          answered := ?_
          writes := ?_ }
      · rw [onNewPacket_ok hrun]
      · rw [hanswered]
        simp [requests, hkind]
      · rw [onNewPacket_ok hrun]
        unfold Connection.onNewPacket
        simp only [hkind]

/-- A kind 3 is not named: nothing happens to the node. -/
theorem unaffected_iff_unrecognized_three :
    Unaffected (start (fun _ _ => 0) (Node.new 100 0))
      ((start (fun _ _ => 0) (Node.new 100 0)).onNewPacket
        { Platform.loopback with
          parse := fun _ =>
            { kind := Protocol.Kind.unrecognized 3
              transaction := { id := 0 }
              payload := Protocol.Payload.notSet } }
        Platform.loopback (fun _ => 0) [8, 3, 18]) :=
  (unaffected_iff_unrecognized rfl).mpr ⟨3, rfl⟩

/-!
## Encodings

An encoding is a sequence of whole fields, each a key and a value.  The wire
types are those that the messages of the protocol use, and the fixed ones.
-/

/-- A number in base 128 of at most some bytes, the low digits first. -/
def readVarint : Nat -> Bytes -> Option (Nat × Bytes)
  | 0, _ => none
  | _ + 1, [] => none
  | left + 1, byte :: rest =>
      if byte < 128 then
        some (byte.toNat, rest)
      else
        (readVarint left rest).map (fun read =>
          (byte.toNat - 128 + 128 * read.1, read.2))

def skipBytes (count : Nat) (bytes : Bytes) : Option Bytes :=
  if count <= bytes.length then some (bytes.drop count) else none

def skipValue (wireType : Nat) (bytes : Bytes) : Option Bytes :=
  match wireType with
  | 0 => (readVarint 10 bytes).map Prod.snd
  | 1 => skipBytes 8 bytes
  | 2 => (readVarint 10 bytes).bind (fun read => skipBytes read.1 read.2)
  | 5 => skipBytes 4 bytes
  | _ => none

def skipField (bytes : Bytes) : Option Bytes :=
  (readVarint 10 bytes).bind (fun read => skipValue (read.1 % 8) read.2)

def areFields : Nat -> Bytes -> Bool
  | _, [] => true
  | 0, _ :: _ => false
  | left + 1, byte :: rest =>
      match skipField (byte :: rest) with
      | some bytes => areFields left bytes
      | none => false

/-- What every encoding of a packet is: each field takes a byte at least. -/
def isEncoding (bytes : Bytes) : Bool :=
  areFields bytes.length bytes

/-- The packets of the platform in the examples are encodings. -/
example : isEncoding [8, 1, 18, 2, 8, 1, 26, 4, 18, 2, 8, 1] = true := by
  decide

/-- A frame with the key of the kind and no kind is taken for a message to
nobody and counted. -/
theorem truncated_counted :
    isEncoding [8] = false ∧
      ¬ Unaffected (start (fun _ _ => 0) (Node.new 100 0))
        ((start (fun _ _ => 0) (Node.new 100 0)).onNewPacket
          Platform.loopback Platform.loopback (fun _ => 0) [8]) := by
  constructor
  · decide
  intro hsame
  have hcounts := congrArg (fun n => n.router.inPackets) hsame.node
  exact absurd hcounts (by decide +kernel)

end Malformed

end Session

end System
end Protort
