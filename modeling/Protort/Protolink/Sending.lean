import Mathlib.Data.List.Permutation
import Protort.Protolink.Client

/-!
# What a client sends

Every packet is put together in the one buffer of the client.  The packets leave
it whole and in order as long as nothing is put together while an earlier packet
has bytes left, and no response is read over what is still to be written.  Two
messages that are sent one right after the other mix.
-/

namespace Protort
namespace Protolink

open Lib (Bytes Memory Socket IoEvent)
open Link (Buffer maxPacketSize headerSize)

namespace Client

def sending (platform : Platform) (c : Client) : Event -> Option Bytes
  | Event.sendMessage payload _ =>
      some (platform.serialize (message payload))
  | Event.sendRequest payload _ _ =>
      some (platform.serialize (request c.transactionId payload))
  | _ => none

/-- A packet that fits is sent when every earlier one has left the buffer, and
the bytes of a response do not overwrite what is still to be written. -/
def SendsSafely (platform : Platform) (c : Client) (e : Event) : Prop :=
  match c.sending platform e with
  | some packet => c.socket.pending = [] ∧ packet.length <= maxPacketSize
  | none =>
      match e with
      | Event.io e => c.socket.Undisturbed e
      | _ => True

instance (platform : Platform) (c : Client) (e : Event) :
    Decidable (c.SendsSafely platform e) :=
  match e with
  | Event.sendMessage _ _ => inferInstanceAs (Decidable (_ ∧ _))
  | Event.sendRequest _ _ _ => inferInstanceAs (Decidable (_ ∧ _))
  | Event.io e => inferInstanceAs (Decidable (c.socket.Undisturbed e))
  | Event.readDone => isTrue trivial
  | Event.readFail => isTrue trivial
  | Event.writeDone _ => isTrue trivial
  | Event.writeFail _ => isTrue trivial

/-- What has been written begins the frames of some packets, and is all of them
when no write has bytes left. -/
def WritesFrames (platform : Platform) (packets : List Bytes) (c : Client) :
    Prop :=
  List.IsPrefix c.socket.wire (platform.framing.frames packets) ∧
    (c.socket.closed = false -> c.socket.pending = [] ->
      c.socket.wire = platform.framing.frames packets)

section Sending

variable {platform : Platform} {c d : Client}

def Sending (platform : Platform) (c : Client) : Prop :=
  c.socket.Carries (c.sent.map platform.framing.frame)

theorem doSendPacket_sending {garbage : Memory} {packet : Bytes}
    {kind : Protocol.Kind} (h : Sending platform c)
    (hidle : c.socket.pending = []) (hfits : packet.length <= maxPacketSize) :
    Sending platform (c.doSendPacket platform garbage packet kind) := by
  have hsent := Link.carries_sendPacket platform (maxPacketSize + headerSize)
    garbage packet kind c.socket (by omega) h hidle
  simpa [Sending, doSendPacket] using hsent

theorem onPacketSent_sending {kind : Protocol.Kind} (h : Sending platform c) :
    Sending platform (c.onPacketSent kind) := by
  unfold onPacketSent
  cases kind with
  | request => exact Link.carries_doReadHeader _ h
  | message => exact h
  | response => exact h
  | unrecognized value => exact h

theorem step_sending {e : Event}
    (hstep : Lib.Guarded (SendsSafely platform) (Lib.Steps (step platform))
      c e d)
    (h : Sending platform c) : Sending platform d := by
  rcases hstep with ⟨hsafe, hstep⟩
  rcases step_moves hstep with ⟨_, hmoves⟩
  cases hmoves with
  | sendMessage => exact doSendPacket_sending h hsafe.left hsafe.right
  | sendRequest => exact doSendPacket_sending h hsafe.left hsafe.right
  | io hs => exact Socket.Carries.progress h hsafe hs
  | header hs hr =>
      exact Link.carries_onHeaderRead platform _
        (Socket.Carries.takeRead h hs)
  | @packet r s hs hr =>
      have hsame := onNewPacket_sameTraffic platform
        ((s.memory Buffer.packet).read 0 r.size) { c with socket := s }
      show Socket.Carries _ _
      unfold onPacketRead
      rw [hsame.socket, hsame.sent]
      exact Socket.Carries.takeRead h hs
  | readFail hs => exact Socket.Carries.failRead h hs
  | writeDone hs => exact onPacketSent_sending (Socket.Carries.takeWrite h hs)
  | writeFail hs => exact onPacketSent_sending (Socket.Carries.failWrite h hs)

/-- What a client writes are the frames of its packets, in the order of the
calls. -/
theorem frames_whole {memory : Buffer -> Memory} {labels : List Event}
    (hrun : Lib.Run
      (Lib.Guarded (SendsSafely platform) (Lib.Steps (step platform)))
      (new memory) labels c) :
    WritesFrames platform c.sent c := by
  have hc : Sending platform c :=
    hrun.invariant (fun hstep h => step_sending hstep h)
      (Socket.carries_connected memory)
  rw [WritesFrames, Lib.Framing.frames_eq_flatten]
  exact ⟨hc.isPrefix, hc.eq_flatten⟩

/-!
## Two messages
-/

def firstMessage : Event :=
  Event.sendMessage (Protocol.Payload.payload [1]) (fun _ => 0)

def secondMessage : Event :=
  Event.sendMessage (Protocol.Payload.payload [2, 2]) (fun _ => 0)

/-- The second message is sent when the first one has been written. -/
theorem frames_whole_twoMessages :
    exists c : Client,
      c.socket.wire = Platform.loopback.framing.frames
        [[26, 3, 34, 1, 1], [26, 4, 34, 2, 2, 2]] := by
  have hend :
      (Lib.execute (fun c e =>
        if SendsSafely Platform.loopback c e then step Platform.loopback c e
        else none)
        (new (fun _ _ => 0))
        [firstMessage, Event.io (IoEvent.writeSome 0 9), secondMessage,
          Event.io (IoEvent.writeSome 1 3),
          Event.io (IoEvent.writeSome 1 7)]).map
        (fun c => (c.sent, c.socket.closed, c.socket.pending)) =
      some ([[26, 3, 34, 1, 1], [26, 4, 34, 2, 2, 2]], false, []) := by
    decide +kernel
  rcases Option.map_eq_some_iff.mp hend with ⟨c, hexecute, hc⟩
  rw [Prod.mk.injEq, Prod.mk.injEq] at hc
  rcases hc with ⟨hsent, hopen, hidle⟩
  have hwhole := frames_whole (Lib.Run.guarded_of_execute hexecute)
  exists c
  rw [hwhole.right hopen hidle, hsent]

/-- The second message is put together before the first one has left the
buffer: what is written are not the two frames, in no order. -/
theorem secondMessage_overwrites_first :
    exists labels c,
      Lib.Run (Lib.Steps (step Platform.loopback)) (new (fun _ _ => 0))
        labels c ∧
      c.sent = [[26, 3, 34, 1, 1], [26, 4, 34, 2, 2, 2]] ∧
      c.socket.closed = false ∧ c.socket.pending = [] ∧
      forall packets, List.Perm packets c.sent ->
        ¬ WritesFrames Platform.loopback packets c := by
  have hend :
      (Lib.execute (step Platform.loopback) (new (fun _ _ => 0))
        [firstMessage, secondMessage, Event.io (IoEvent.writeSome 0 9),
          Event.io (IoEvent.writeSome 1 10)]).map
        (fun c => (c.sent, c.socket.closed, c.socket.pending,
          c.socket.wire)) =
      some ([[26, 3, 34, 1, 1], [26, 4, 34, 2, 2, 2]], false, [],
        [6, 0, 0, 0, 26, 4, 34, 2, 2] ++
          [6, 0, 0, 0, 26, 4, 34, 2, 2, 2]) := by
    decide +kernel
  rcases Option.map_eq_some_iff.mp hend with ⟨c, hexecute, hc⟩
  rw [Prod.mk.injEq, Prod.mk.injEq, Prod.mk.injEq] at hc
  rcases hc with ⟨hsent, hopen, hidle, hwire⟩
  refine ⟨_, c, Lib.Run.of_execute hexecute, hsent, hopen, hidle, ?_⟩
  intro packets hpackets hwrites
  have heq := hwrites.right hopen hidle
  rw [hwire] at heq
  rw [hsent, ← List.mem_permutations'] at hpackets
  clear hwrites
  revert packets
  decide +kernel

end Sending

end Client

end Protolink
end Protort
