import Protort.Link.Reader

/-!
# The connection of the protolink layer

A connection reads packets for ever.  A request is answered at once with what
the callback returns; the response is put together in the same buffer into which
packets are read, and the next header is read while the response is still being
written.  A response that arrives fails an assertion.
-/

namespace Protort
namespace Protolink

open Lib (Bytes Memory PendingRead Socket IoEvent)
open Link (Buffer Reader maxPacketSize)

/-- `handed` are the buffers that `on_new_packet` received, `answered` the
requests that `on_new_request` was called for together with what it returned;
a failed assertion ends the program. -/
structure Connection where
  socket : Socket Buffer Unit
  handed : List Bytes
  answered : List (Protocol.Packet × Protocol.Payload)
  aborted : Bool

namespace Connection

/-- What happens to a connection.  When a packet has been read, `answer` is what
`on_new_request` returns if it is called, and `garbage` what the buffer holds
after a response that does not fit. -/
inductive Event where
  | io (event : IoEvent)
  | readDone (answer : Protocol.Payload) (garbage : Memory)
  | readFail
  | writeDone (index : Nat)
  | writeFail (index : Nat)

def new (memory : Buffer -> Memory) : Connection :=
  { socket := Socket.connected memory
    handed := []
    answered := []
    aborted := false }

def doReadHeader (c : Connection) : Connection :=
  { c with socket := Link.doReadHeader c.socket }

def start (c : Connection) : Connection :=
  c.doReadHeader

def onHeaderRead (platform : Platform) (c : Connection) : Connection :=
  { c with socket := Link.onHeaderRead platform c.socket }

/-- `packet_buffer_` is no longer than a packet, the header included. -/
def asyncSend (platform : Platform) (garbage : Memory) (packet : Bytes)
    (c : Connection) : Connection :=
  { c with
    socket :=
      Link.sendPacket platform maxPacketSize garbage packet () c.socket }

def sendResponse (platform : Platform) (garbage : Memory)
    (payload : Protocol.Payload) (id : Int32) (c : Connection) : Connection :=
  let packet : Protocol.Packet :=
    { kind := Protocol.Kind.response
      transaction := { id := id.toUInt32 }
      payload := payload }
  c.asyncSend platform garbage (platform.serialize packet)

def onNewPacket (platform : Platform) (answer : Protocol.Payload)
    (garbage : Memory) (buffer : Bytes) (c : Connection) : Connection :=
  let packet := platform.parse buffer
  let c := { c with handed := c.handed ++ [buffer] }
  match packet.kind with
  | Protocol.Kind.response => { c with aborted := true }
  | Protocol.Kind.request =>
      let c := { c with answered := c.answered ++ [(packet, answer)] }
      c.sendResponse platform garbage answer packet.transaction.id.toInt32
  | Protocol.Kind.message => c
  | Protocol.Kind.unrecognized _ => c

def onPacketRead (platform : Platform) (answer : Protocol.Payload)
    (garbage : Memory) (bytes : Nat) (c : Connection) : Connection :=
  let buffer := (c.socket.memory Buffer.packet).read 0 bytes
  let c := c.onNewPacket platform answer garbage buffer
  if c.aborted then c else c.doReadHeader

def onRead (platform : Platform) (answer : Protocol.Payload)
    (garbage : Memory) (r : PendingRead Buffer) (c : Connection) :
    Connection :=
  match r.target with
  | Buffer.packetHeader => c.onHeaderRead platform
  | Buffer.packet => c.onPacketRead platform answer garbage r.size

/-- A read handler that is called with an error returns at once, and the
handler of a write only tells the callback. -/
def step (platform : Platform) (c : Connection) (e : Event) :
    Option Connection :=
  if c.aborted then
    none
  else
    match e with
    | Event.io e => (c.socket.progress e).map (fun s => { c with socket := s })
    | Event.readDone answer garbage =>
        c.socket.takeRead.map (fun done =>
          onRead platform answer garbage done.1 { c with socket := done.2 })
    | Event.readFail =>
        c.socket.failRead.map (fun s => { c with socket := s })
    | Event.writeDone index =>
        (c.socket.takeWrite index).map
          (fun done => { c with socket := done.2 })
    | Event.writeFail index =>
        (c.socket.failWrite index).map
          (fun done => { c with socket := done.2 })

def response (platform : Platform) (request : Protocol.Packet)
    (payload : Protocol.Payload) : Bytes :=
  platform.serialize
    { kind := Protocol.Kind.response
      transaction := request.transaction
      payload := payload }

def responses (platform : Platform) (c : Connection) : List Bytes :=
  c.answered.map (fun exchange => response platform exchange.1 exchange.2)

def Reading : Event -> Prop
  | Event.io (IoEvent.readSome _) => True
  | Event.io _ => False
  | Event.readDone _ _ => True
  | Event.readFail => True
  | Event.writeDone _ => False
  | Event.writeFail _ => False

def reader (platform : Platform) : Reader Connection Event :=
  { step := step platform
    reading := Reading
    arrived := fun c => c.socket.arrived
    handed := fun c => c.handed
    closed := fun c => c.socket.closed }

/-!
## What the handlers leave alone
-/

section Handlers

variable {platform : Platform} {answer : Protocol.Payload} {garbage : Memory}
  {c d : Connection}

theorem onRead_packetHeader {r : PendingRead Buffer}
    (h : r.target = Buffer.packetHeader) :
    onRead platform answer garbage r c = c.onHeaderRead platform := by
  rw [onRead, h]

theorem onRead_packet {r : PendingRead Buffer} (h : r.target = Buffer.packet) :
    onRead platform answer garbage r c =
      c.onPacketRead platform answer garbage r.size := by
  rw [onRead, h]

theorem step_eq_none_of_aborted {e : Event} (h : c.aborted = true) :
    step platform c e = none := by
  unfold step
  rw [if_pos h]

inductive Moves (platform : Platform) (c : Connection) :
    Event -> Connection -> Prop where
  | io {e : IoEvent} {s : Socket Buffer Unit} :
      c.socket.progress e = some s ->
      Moves platform c (Event.io e) { c with socket := s }
  | header {answer : Protocol.Payload} {garbage : Memory}
      {r : PendingRead Buffer} {s : Socket Buffer Unit} :
      c.socket.takeRead = some (r, s) -> r.target = Buffer.packetHeader ->
      Moves platform c (Event.readDone answer garbage)
        (onHeaderRead platform { c with socket := s })
  | packet {answer : Protocol.Payload} {garbage : Memory}
      {r : PendingRead Buffer} {s : Socket Buffer Unit} :
      c.socket.takeRead = some (r, s) -> r.target = Buffer.packet ->
      Moves platform c (Event.readDone answer garbage)
        (onPacketRead platform answer garbage r.size { c with socket := s })
  | readFail {s : Socket Buffer Unit} :
      c.socket.failRead = some s ->
      Moves platform c Event.readFail { c with socket := s }
  | writeDone {index : Nat} {w : Lib.PendingWrite Buffer Unit}
      {s : Socket Buffer Unit} :
      c.socket.takeWrite index = some (w, s) ->
      Moves platform c (Event.writeDone index) { c with socket := s }
  | writeFail {index : Nat} {w : Lib.PendingWrite Buffer Unit}
      {s : Socket Buffer Unit} :
      c.socket.failWrite index = some (w, s) ->
      Moves platform c (Event.writeFail index) { c with socket := s }

theorem step_moves {e : Event} (h : step platform c e = some d) :
    c.aborted = false ∧ Moves platform c e d := by
  by_cases haborted : c.aborted = true
  · rw [step_eq_none_of_aborted haborted] at h
    cases h
  · constructor
    · simpa using haborted
    unfold step at h
    rw [if_neg haborted] at h
    cases e with
    | io e =>
        rcases Option.map_eq_some_iff.mp h with ⟨s, hs, rfl⟩
        exact Moves.io hs
    | readDone answer garbage =>
        rcases Option.map_eq_some_iff.mp h with ⟨⟨r, s⟩, hs, rfl⟩
        cases htarget : r.target with
        | packetHeader =>
            rw [onRead_packetHeader htarget]
            exact Moves.header hs htarget
        | packet =>
            rw [onRead_packet htarget]
            exact Moves.packet hs htarget
    | readFail =>
        rcases Option.map_eq_some_iff.mp h with ⟨s, hs, rfl⟩
        exact Moves.readFail hs
    | writeDone index =>
        rcases Option.map_eq_some_iff.mp h with ⟨⟨w, s⟩, hs, rfl⟩
        exact Moves.writeDone hs
    | writeFail index =>
        rcases Option.map_eq_some_iff.mp h with ⟨⟨w, s⟩, hs, rfl⟩
        exact Moves.writeFail hs

theorem onNewPacket_cases (platform : Platform) (answer : Protocol.Payload)
    (garbage : Memory) (buffer : Bytes) (c : Connection) :
    ((platform.parse buffer).kind = Protocol.Kind.response ∧
      c.onNewPacket platform answer garbage buffer =
        { c with
          handed := c.handed ++ [buffer]
          aborted := true }) ∨
    ((platform.parse buffer).kind = Protocol.Kind.request ∧
      c.onNewPacket platform answer garbage buffer =
        { c with
          socket := Link.sendPacket platform maxPacketSize garbage
            (response platform (platform.parse buffer) answer) () c.socket
          handed := c.handed ++ [buffer]
          answered := c.answered ++ [(platform.parse buffer, answer)] }) ∨
    ((platform.parse buffer).kind ≠ Protocol.Kind.response ∧
      (platform.parse buffer).kind ≠ Protocol.Kind.request ∧
      c.onNewPacket platform answer garbage buffer =
        { c with handed := c.handed ++ [buffer] }) := by
  unfold onNewPacket
  cases hkind : (platform.parse buffer).kind with
  | response =>
      refine Or.inl ⟨rfl, ?_⟩
      simp only [hkind]
  | request =>
      refine Or.inr (Or.inl ⟨rfl, ?_⟩)
      simp only [hkind]
      rfl
  | message =>
      refine Or.inr (Or.inr ⟨nofun, nofun, ?_⟩)
      simp only [hkind]
  | unrecognized value =>
      refine Or.inr (Or.inr ⟨nofun, nofun, ?_⟩)
      simp only [hkind]

end Handlers

end Connection

end Protolink
end Protort
