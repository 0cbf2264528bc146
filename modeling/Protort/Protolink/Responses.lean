import Protort.Protolink.Connection

/-!
# The responses of a connection

A connection puts its responses together in the buffer into which it reads the
next request, and starts to read that request as soon as the response is queued.
The responses arrive whole and in order as long as that does no harm; a second
request that is already there destroys the response to the first one.
-/

namespace Protort
namespace Protolink

open Lib (Bytes Memory Socket IoEvent)
open Link (Buffer maxPacketSize headerSize)

namespace Connection

def answering (platform : Platform) (c : Connection)
    (answer : Protocol.Payload) : Option Bytes :=
  match c.socket.takeRead with
  | none => none
  | some (r, s) =>
      let packet := platform.parse ((s.memory Buffer.packet).read 0 r.size)
      if r.target = Buffer.packet ∧ packet.kind = Protocol.Kind.request then
        some (response platform packet answer)
      else
        none

/-- A response is only put together when it fits into the buffer and every
earlier one has left it, and the bytes of the next request do not overwrite what
is still to be written. -/
def Safe (platform : Platform) (c : Connection) : Event -> Prop
  | Event.io e => c.socket.Undisturbed e
  | Event.readDone answer _ =>
      match c.answering platform answer with
      | none => True
      | some packet =>
          c.socket.pending = [] ∧ headerSize + packet.length <= maxPacketSize
  | _ => True

instance (platform : Platform) (c : Connection) (e : Event) :
    Decidable (c.Safe platform e) :=
  match e with
  | Event.io e => inferInstanceAs (Decidable (c.socket.Undisturbed e))
  | Event.readFail => isTrue trivial
  | Event.writeDone _ => isTrue trivial
  | Event.writeFail _ => isTrue trivial
  | Event.readDone answer _ =>
      match h : c.answering platform answer with
      | none => isTrue (by simp [Safe, h])
      | some packet =>
          decidable_of_iff
            (c.socket.pending = [] ∧
              headerSize + packet.length <= maxPacketSize)
            (by simp [Safe, h])

section Responses

variable {platform : Platform} {c d : Connection}

def Answering (platform : Platform) (c : Connection) : Prop :=
  c.socket.Carries ((c.responses platform).map platform.framing.frame)

theorem onPacketRead_answering {answer : Protocol.Payload} {garbage : Memory}
    {bytes : Nat} (h : Answering platform c)
    (hsafe : (platform.parse ((c.socket.memory Buffer.packet).read 0
        bytes)).kind = Protocol.Kind.request ->
      c.socket.pending = [] ∧
        headerSize + (response platform (platform.parse
          ((c.socket.memory Buffer.packet).read 0 bytes)) answer).length <=
            maxPacketSize) :
    Answering platform (c.onPacketRead platform answer garbage bytes) := by
  unfold onPacketRead
  generalize (c.socket.memory Buffer.packet).read 0 bytes = buffer at hsafe
  have hnew : Answering platform
      (c.onNewPacket platform answer garbage buffer) := by
    rcases onNewPacket_cases platform answer garbage buffer c with
      ⟨_, heq⟩ | ⟨hkind, heq⟩ | ⟨_, _, heq⟩
    · rw [heq]
      exact h
    · rcases hsafe hkind with ⟨hidle, hfits⟩
      have hsent := Link.carries_sendPacket platform maxPacketSize garbage
        (response platform (platform.parse buffer) answer) () c.socket
        hfits h hidle
      rw [heq]
      simpa [Answering, responses] using hsent
    · rw [heq]
      exact h
  by_cases haborted :
      (c.onNewPacket platform answer garbage buffer).aborted = true
  · simp only [haborted, if_true]
    exact hnew
  · simp only [haborted, if_false, Bool.false_eq_true]
    exact Link.carries_doReadHeader _ hnew

theorem step_answering {e : Event}
    (hstep : Lib.Guarded (Safe platform) (Lib.Steps (step platform)) c e d)
    (h : Answering platform c) : Answering platform d := by
  rcases hstep with ⟨hsafe, hstep⟩
  rcases step_moves hstep with ⟨haborted, hmoves⟩
  cases hmoves with
  | io hs => exact Socket.Carries.progress h hsafe hs
  | header hs hr =>
      exact Link.carries_onHeaderRead platform _
        (Socket.Carries.takeRead h hs)
  | @packet answer garbage r s hs hr =>
      have hpending : s.pending = c.socket.pending := by
        rw [(Socket.takeRead_eq_some hs).right.right]
        rfl
      have htaken : Answering platform { c with socket := s } :=
        Socket.Carries.takeRead h hs
      apply onPacketRead_answering htaken
      intro hkind
      have hanswering : c.answering platform answer =
          some (response platform
            (platform.parse ((s.memory Buffer.packet).read 0 r.size))
            answer) := by
        unfold answering
        simp only [hs]
        exact if_pos ⟨hr, hkind⟩
      simp only [Safe, hanswering] at hsafe
      rw [hpending]
      exact hsafe
  | readFail hs => exact Socket.Carries.failRead h hs
  | writeDone hs => exact Socket.Carries.takeWrite h hs
  | writeFail hs => exact Socket.Carries.failWrite h hs

/-- What the connection has written begins the frames of its responses, in the
order of the requests, and is all of them when no write has bytes left. -/
theorem responses_whole {memory : Buffer -> Memory} {labels : List Event}
    (hrun : Lib.Run (Lib.Guarded (Safe platform) (Lib.Steps (step platform)))
      (new memory).start labels c) :
    List.IsPrefix c.socket.wire
        (platform.framing.frames (c.responses platform)) ∧
      (c.socket.closed = false -> c.socket.pending = [] ->
        c.socket.wire = platform.framing.frames (c.responses platform)) := by
  have hstart : Answering platform (new memory).start :=
    Link.carries_doReadHeader _ (Socket.carries_connected memory)
  have hc : Answering platform c :=
    hrun.invariant (fun hstep h => step_answering hstep h) hstart
  rw [Lib.Framing.frames_eq_flatten]
  exact ⟨hc.isPrefix, hc.eq_flatten⟩

/-!
## Two requests
-/

/-- A request without a payload and with id 0, then one with id 1. -/
def twoRequests : Bytes :=
  Platform.loopback.framing.frames
    [[8, 1, 18, 0, 26, 0], [8, 1, 18, 2, 8, 1, 26, 0]]

def firstRequest : List Event :=
  [Event.io (IoEvent.arrive twoRequests),
    Event.io (IoEvent.readSome 4),
    Event.readDone Protocol.Payload.notSet (fun _ => 0),
    Event.io (IoEvent.readSome 6),
    Event.readDone Protocol.Payload.notSet (fun _ => 0)]

def secondRequest : List Event :=
  [Event.io (IoEvent.readSome 4),
    Event.readDone Protocol.Payload.notSet (fun _ => 0),
    Event.io (IoEvent.readSome 8)]

/-- Both requests are answered when each response is written in time. -/
theorem responses_whole_twoRequests :
    exists c : Connection,
      c.responses Platform.loopback =
          [[8, 2, 18, 0, 26, 0], [8, 2, 18, 2, 8, 1, 26, 0]] ∧
        c.socket.wire = Platform.loopback.framing.frames
          [[8, 2, 18, 0, 26, 0], [8, 2, 18, 2, 8, 1, 26, 0]] := by
  have hend :
      (Lib.execute (fun c e =>
        if Safe Platform.loopback c e then step Platform.loopback c e
        else none)
        (new (fun _ _ => 0)).start
        (firstRequest ++ [Event.io (IoEvent.writeSome 0 10)] ++
          secondRequest ++
          [Event.readDone Protocol.Payload.notSet (fun _ => 0),
            Event.io (IoEvent.writeSome 1 12)])).map
        (fun c => (c.responses Platform.loopback, c.socket.closed,
          c.socket.pending)) =
      some ([[8, 2, 18, 0, 26, 0], [8, 2, 18, 2, 8, 1, 26, 0]], false, []) := by
    decide +kernel
  rcases Option.map_eq_some_iff.mp hend with ⟨c, hexecute, hc⟩
  rw [Prod.mk.injEq, Prod.mk.injEq] at hc
  rcases hc with ⟨hresponses, hopen, hidle⟩
  have hwhole := responses_whole (Lib.Run.guarded_of_execute hexecute)
  exists c
  constructor
  · exact hresponses
  rw [hwhole.right hopen hidle, hresponses]

/-- The second request is read into the buffer before the response to the first
one has been written. -/
theorem secondRequest_overwrites_response :
    exists labels c,
      Lib.Run (Lib.Steps (step Platform.loopback)) (new (fun _ _ => 0)).start
        labels c ∧
      c.socket.arrived = twoRequests ∧
      c.responses Platform.loopback = [[8, 2, 18, 0, 26, 0]] ∧
      c.socket.wire = [8, 1, 18, 2, 8, 1, 26, 0, 26, 0] ∧
      ¬ List.IsPrefix c.socket.wire
        (Platform.loopback.framing.frames
          (c.responses Platform.loopback)) := by
  have hend :
      (Lib.execute (step Platform.loopback) (new (fun _ _ => 0)).start
        (firstRequest ++ secondRequest ++
          [Event.io (IoEvent.writeSome 0 10)])).map
        (fun c => (c.socket.arrived, c.responses Platform.loopback,
          c.socket.wire)) =
      some (twoRequests, [[8, 2, 18, 0, 26, 0]],
        [8, 1, 18, 2, 8, 1, 26, 0, 26, 0]) := by
    decide +kernel
  rcases Option.map_eq_some_iff.mp hend with ⟨c, hexecute, hc⟩
  rw [Prod.mk.injEq, Prod.mk.injEq] at hc
  rcases hc with ⟨harrived, hresponses, hwire⟩
  refine ⟨_, c, Lib.Run.of_execute hexecute, harrived, hresponses, hwire, ?_⟩
  rw [hwire, hresponses]
  decide

end Responses

end Connection

end Protolink
end Protort
