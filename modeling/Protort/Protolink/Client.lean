import Protort.Lib.Table
import Protort.Link.Reader

/-!
# The client of the protolink layer

A connected client sends messages and requests from one buffer.  Every request
that has been sent starts a read of one response: its header goes into
`packet_header_`, the response itself into the buffer from which packets are
sent.  A response is matched to its request by the id of the transaction.
-/

namespace Protort
namespace Protolink

open Lib (Bytes Memory PendingRead PendingWrite Socket IoEvent Table)
open Link (Buffer maxPacketSize headerSize)

/-- Callbacks are known by a number.  `sent` are the packets given to
`do_send_packet`, `answerable` counts the requests that have been sent,
`handed` are the buffers that `on_new_packet` received and `finished` the calls
of `on_finished`; a failed assertion ends the program. -/
structure Client where
  socket : Socket Buffer Protocol.Kind
  transactions : Table Int32 Nat
  transactionId : UInt32
  sent : List Bytes
  answerable : Nat
  handed : List Bytes
  finished : List (Nat × Protocol.Payload)
  aborted : Bool

namespace Client

/-- What happens to a connected client: a packet is sent, bytes move, or a
handler runs.  `garbage` is what the buffer holds after a packet that does not
fit. -/
inductive Event where
  | sendMessage (payload : Protocol.Payload) (garbage : Memory)
  | sendRequest (payload : Protocol.Payload) (callbacks : Nat)
      (garbage : Memory)
  | io (event : IoEvent)
  | readDone
  | readFail
  | writeDone (index : Nat)
  | writeFail (index : Nat)

def new (memory : Buffer -> Memory) : Client :=
  { socket := Socket.connected memory
    transactions := ∅
    transactionId := 0
    sent := []
    answerable := 0
    handed := []
    finished := []
    aborted := false }

/-!
## Sending
-/

def doSendPacket (platform : Platform) (garbage : Memory) (packet : Bytes)
    (kind : Protocol.Kind) (c : Client) : Client :=
  { c with
    socket := Link.sendPacket platform (maxPacketSize + headerSize) garbage
      packet kind c.socket
    sent := c.sent ++ [packet] }

def message (payload : Protocol.Payload) : Protocol.Packet :=
  { kind := Protocol.Kind.message
    transaction := default
    payload := payload }

def asyncSendMessage (platform : Platform) (garbage : Memory)
    (payload : Protocol.Payload) (c : Client) : Client :=
  c.doSendPacket platform garbage (platform.serialize (message payload))
    Protocol.Kind.message

def request (id : UInt32) (payload : Protocol.Payload) : Protocol.Packet :=
  { kind := Protocol.Kind.request
    transaction := { id := id }
    payload := payload }

def asyncSendRequest (platform : Platform) (garbage : Memory)
    (payload : Protocol.Payload) (callbacks : Nat) (c : Client) : Client :=
  let packet := request c.transactionId payload
  let c :=
    { c with
      transactions := c.transactions.emplace c.transactionId.toInt32 callbacks
      transactionId := c.transactionId + 1 }
  c.doSendPacket platform garbage (platform.serialize packet)
    Protocol.Kind.request

/-!
## Receiving
-/

def doReadHeader (c : Client) : Client :=
  { c with socket := Link.doReadHeader c.socket }

/-- A failed write of a closed socket is handled like any other; reconnecting
after the peer has gone is not part of the life of one connection. -/
def onPacketSent (kind : Protocol.Kind) (c : Client) : Client :=
  match kind with
  | Protocol.Kind.request =>
      doReadHeader { c with answerable := c.answerable + 1 }
  | _ => c

def onHeaderRead (platform : Platform) (c : Client) : Client :=
  { c with socket := Link.onHeaderRead platform c.socket }

/-- `on_finished` of the callbacks registered under the id, if there are any. -/
def onResponse (packet : Protocol.Packet) (c : Client) : Client :=
  match c.transactions.lookup packet.transaction.id.toInt32 with
  | none => c
  | some callbacks =>
      { c with
        finished := c.finished ++ [(callbacks, packet.payload)]
        transactions := c.transactions.erase packet.transaction.id.toInt32 }

def onNewPacket (platform : Platform) (buffer : Bytes) (c : Client) : Client :=
  let packet := platform.parse buffer
  let c := { c with handed := c.handed ++ [buffer] }
  match packet.kind with
  | Protocol.Kind.message => { c with aborted := true }
  | Protocol.Kind.request => { c with aborted := true }
  | Protocol.Kind.response => c.onResponse packet
  | Protocol.Kind.unrecognized _ => c

def onPacketRead (platform : Platform) (bytes : Nat) (c : Client) : Client :=
  c.onNewPacket platform ((c.socket.memory Buffer.packet).read 0 bytes)

def onRead (platform : Platform) (r : PendingRead Buffer) (c : Client) :
    Client :=
  match r.target with
  | Buffer.packetHeader => c.onHeaderRead platform
  | Buffer.packet => c.onPacketRead platform r.size

def step (platform : Platform) (c : Client) (e : Event) : Option Client :=
  if c.aborted then
    none
  else
    match e with
    | Event.sendMessage payload garbage =>
        some (c.asyncSendMessage platform garbage payload)
    | Event.sendRequest payload callbacks garbage =>
        some (c.asyncSendRequest platform garbage payload callbacks)
    | Event.io e => (c.socket.progress e).map (fun s => { c with socket := s })
    | Event.readDone =>
        c.socket.takeRead.map
          (fun done => onRead platform done.1 { c with socket := done.2 })
    | Event.readFail =>
        c.socket.failRead.map (fun s => { c with socket := s })
    | Event.writeDone index =>
        (c.socket.takeWrite index).map
          (fun done => onPacketSent done.1.tag { c with socket := done.2 })
    | Event.writeFail index =>
        (c.socket.failWrite index).map
          (fun done => onPacketSent done.1.tag { c with socket := done.2 })

/-!
## What a step does
-/

section Steps

variable {platform : Platform} {c d : Client}

inductive Moves (platform : Platform) (c : Client) : Event -> Client -> Prop
    where
  | sendMessage {payload : Protocol.Payload} {garbage : Memory} :
      Moves platform c (Event.sendMessage payload garbage)
        (c.asyncSendMessage platform garbage payload)
  | sendRequest {payload : Protocol.Payload} {callbacks : Nat}
      {garbage : Memory} :
      Moves platform c (Event.sendRequest payload callbacks garbage)
        (c.asyncSendRequest platform garbage payload callbacks)
  | io {e : IoEvent} {s : Socket Buffer Protocol.Kind} :
      c.socket.progress e = some s ->
      Moves platform c (Event.io e) { c with socket := s }
  | header {r : PendingRead Buffer} {s : Socket Buffer Protocol.Kind} :
      c.socket.takeRead = some (r, s) -> r.target = Buffer.packetHeader ->
      Moves platform c Event.readDone
        (onHeaderRead platform { c with socket := s })
  | packet {r : PendingRead Buffer} {s : Socket Buffer Protocol.Kind} :
      c.socket.takeRead = some (r, s) -> r.target = Buffer.packet ->
      Moves platform c Event.readDone
        (onPacketRead platform r.size { c with socket := s })
  | readFail {s : Socket Buffer Protocol.Kind} :
      c.socket.failRead = some s ->
      Moves platform c Event.readFail { c with socket := s }
  | writeDone {index : Nat} {w : PendingWrite Buffer Protocol.Kind}
      {s : Socket Buffer Protocol.Kind} :
      c.socket.takeWrite index = some (w, s) ->
      Moves platform c (Event.writeDone index)
        (onPacketSent w.tag { c with socket := s })
  | writeFail {index : Nat} {w : PendingWrite Buffer Protocol.Kind}
      {s : Socket Buffer Protocol.Kind} :
      c.socket.failWrite index = some (w, s) ->
      Moves platform c (Event.writeFail index)
        (onPacketSent w.tag { c with socket := s })

theorem step_moves {e : Event} (h : step platform c e = some d) :
    c.aborted = false ∧ Moves platform c e d := by
  unfold step at h
  by_cases haborted : c.aborted = true
  · rw [if_pos haborted] at h
    cases h
  · constructor
    · simpa using haborted
    rw [if_neg haborted] at h
    cases e with
    | sendMessage payload garbage =>
        cases h
        exact Moves.sendMessage
    | sendRequest payload callbacks garbage =>
        cases h
        exact Moves.sendRequest
    | io e =>
        rcases Option.map_eq_some_iff.mp h with ⟨s, hs, rfl⟩
        exact Moves.io hs
    | readDone =>
        rcases Option.map_eq_some_iff.mp h with ⟨⟨r, s⟩, hs, rfl⟩
        unfold onRead
        cases htarget : r.target with
        | packetHeader => exact Moves.header hs htarget
        | packet => exact Moves.packet hs htarget
    | readFail =>
        rcases Option.map_eq_some_iff.mp h with ⟨s, hs, rfl⟩
        exact Moves.readFail hs
    | writeDone index =>
        rcases Option.map_eq_some_iff.mp h with ⟨⟨w, s⟩, hs, rfl⟩
        exact Moves.writeDone hs
    | writeFail index =>
        rcases Option.map_eq_some_iff.mp h with ⟨⟨w, s⟩, hs, rfl⟩
        exact Moves.writeFail hs

structure SameTraffic (c d : Client) : Prop where
  socket : d.socket = c.socket
  sent : d.sent = c.sent
  answerable : d.answerable = c.answerable

theorem onResponse_sameTraffic (packet : Protocol.Packet) (c : Client) :
    SameTraffic c (c.onResponse packet) := by
  unfold onResponse
  cases c.transactions.lookup packet.transaction.id.toInt32 with
  | none => exact ⟨rfl, rfl, rfl⟩
  | some callbacks => exact ⟨rfl, rfl, rfl⟩

theorem onResponse_handed (packet : Protocol.Packet) (c : Client) :
    (c.onResponse packet).handed = c.handed ∧
      (c.onResponse packet).aborted = c.aborted := by
  unfold onResponse
  cases c.transactions.lookup packet.transaction.id.toInt32 with
  | none => exact ⟨rfl, rfl⟩
  | some callbacks => exact ⟨rfl, rfl⟩

theorem onNewPacket_sameTraffic (platform : Platform) (buffer : Bytes)
    (c : Client) : SameTraffic c (c.onNewPacket platform buffer) := by
  unfold onNewPacket
  cases hkind : (platform.parse buffer).kind with
  | message =>
      simp only [hkind]
      exact ⟨rfl, rfl, rfl⟩
  | request =>
      simp only [hkind]
      exact ⟨rfl, rfl, rfl⟩
  | response =>
      simp only [hkind]
      have hsame := onResponse_sameTraffic (platform.parse buffer)
        { c with handed := c.handed ++ [buffer] }
      exact ⟨hsame.socket, hsame.sent, hsame.answerable⟩
  | unrecognized value =>
      simp only [hkind]
      exact ⟨rfl, rfl, rfl⟩

theorem onNewPacket_handed {platform : Platform} {buffer : Bytes}
    (hkind : (platform.parse buffer).kind = Protocol.Kind.response)
    (c : Client) :
    (c.onNewPacket platform buffer).handed = c.handed ++ [buffer] ∧
      (c.onNewPacket platform buffer).aborted = c.aborted := by
  unfold onNewPacket
  simp only [hkind]
  exact onResponse_handed _ _

end Steps

end Client

end Protolink
end Protort
