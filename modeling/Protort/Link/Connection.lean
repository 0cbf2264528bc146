import Protort.Link.Reader

/-!
# The connection of the link layer

An accepted connection reads packets for ever and hands each one to its
callback.  It writes nothing.
-/

namespace Protort
namespace Link

open Lib (Bytes Memory PendingRead Socket IoEvent)

/-- `handed` are the buffers that `on_new_packet` of the callback received. -/
structure Connection where
  socket : Socket Buffer Unit
  handed : List Bytes

namespace Connection

inductive Event where
  | io (event : IoEvent)
  | readDone
  | readFail
deriving DecidableEq, Repr

def new (memory : Buffer -> Memory) : Connection :=
  { socket := Socket.connected memory
    handed := [] }

def doReadHeader (c : Connection) : Connection :=
  { c with socket := Link.doReadHeader c.socket }

def start (c : Connection) : Connection :=
  c.doReadHeader

def onHeaderRead (platform : Platform) (c : Connection) : Connection :=
  { c with socket := Link.onHeaderRead platform c.socket }

def onPacketRead (bytes : Nat) (c : Connection) : Connection :=
  let buffer := (c.socket.memory Buffer.packet).read 0 bytes
  doReadHeader { c with handed := c.handed ++ [buffer] }

def onRead (platform : Platform) (r : PendingRead Buffer) (c : Connection) :
    Connection :=
  match r.target with
  | Buffer.packetHeader => c.onHeaderRead platform
  | Buffer.packet => c.onPacketRead r.size

/-- A handler that is called with an error returns at once. -/
def step (platform : Platform) (c : Connection) : Event -> Option Connection
  | Event.io e => (c.socket.progress e).map (fun s => { c with socket := s })
  | Event.readDone =>
      c.socket.takeRead.map
        (fun done => onRead platform done.1 { c with socket := done.2 })
  | Event.readFail =>
      c.socket.failRead.map (fun s => { c with socket := s })

def Reading : Event -> Prop
  | Event.io (IoEvent.readSome _) => True
  | Event.io _ => False
  | Event.readDone => True
  | Event.readFail => True

def reader (platform : Platform) : Reader Connection Event :=
  { step := step platform
    reading := Reading
    arrived := fun c => c.socket.arrived
    handed := fun c => c.handed
    closed := fun c => c.socket.closed }

/-!
## The read loop
-/

section ReadLoop

variable {platform : Platform} {c d : Connection}

theorem onRead_packetHeader {r : PendingRead Buffer}
    (h : r.target = Buffer.packetHeader) :
    onRead platform r c = c.onHeaderRead platform := by
  rw [onRead, h]

theorem onRead_packet {r : PendingRead Buffer} (h : r.target = Buffer.packet) :
    onRead platform r c = c.onPacketRead r.size := by
  rw [onRead, h]

def Invariant (platform : Platform) (c : Connection) : Prop :=
  Receiving platform c.handed false c.socket

theorem invariant_start (memory : Buffer -> Memory) :
    Invariant platform (new memory).start := by
  refine Receiving.header rfl rfl (At.doReadHeader ?_)
  exact
    { fits := Lib.Framing.fits_nil
      reads := rfl
      received := rfl
      holds := trivial }

theorem step_invariant {e : Event} (hstep : step platform c e = some d)
    (h : Invariant platform c) : Invariant platform d := by
  cases e with
  | io e =>
      rcases Option.map_eq_some_iff.mp hstep with ⟨s, hs, rfl⟩
      exact Receiving.progress h hs
  | readDone =>
      rcases Option.map_eq_some_iff.mp hstep with ⟨⟨r, s⟩, hs, rfl⟩
      cases htarget : r.target with
      | packetHeader =>
          rw [onRead_packetHeader htarget]
          exact (Receiving.takeHeader h hs htarget).right
      | packet =>
          rw [onRead_packet htarget]
          rcases Receiving.takePacket h hs htarget with ⟨_, hopen, hat⟩
          exact Receiving.header rfl hopen hat.doReadHeader
  | readFail =>
      rcases Option.map_eq_some_iff.mp hstep with ⟨s, hs, rfl⟩
      exact Receiving.failRead h hs

theorem step_readWork {e : Event} (he : Reading e)
    (hstep : step platform c e = some d) (h : Invariant platform c) :
    readWork d.socket < readWork c.socket := by
  cases e with
  | io e =>
      cases e with
      | readSome count =>
          rcases Option.map_eq_some_iff.mp hstep with ⟨s, hs, rfl⟩
          exact readWork_readSome hs
      | arrive bytes => cases he
      | finish => cases he
      | writeSome index count => cases he
  | readDone =>
      rcases Option.map_eq_some_iff.mp hstep with ⟨⟨r, s⟩, hs, rfl⟩
      cases htarget : r.target with
      | packetHeader =>
          rw [onRead_packetHeader htarget]
          exact Receiving.readWork_header h hs htarget
      | packet =>
          rw [onRead_packet htarget]
          exact (readWork_doReadHeader s).trans_lt
            (readWork_packet hs htarget)
  | readFail =>
      rcases Option.map_eq_some_iff.mp hstep with ⟨s, hs, rfl⟩
      exact readWork_failRead hs

theorem quiet_socket (h : (reader platform).Quiet c) : c.socket.Quiet := by
  refine ⟨?_, ?_, ?_⟩
  · intro count
    exact Option.map_eq_none_iff.mp
      (h (Event.io (IoEvent.readSome count)) trivial)
  · exact Option.map_eq_none_iff.mp (h Event.readDone trivial)
  · exact Option.map_eq_none_iff.mp (h Event.readFail trivial)

theorem handsOn (platform : Platform) (memory : Buffer -> Memory)
    {packets : List Bytes} {rest : Bytes}
    (hpackets : platform.framing.Fits packets)
    (hrest : platform.framing.Stuck rest) :
    (reader platform).HandsOn (new memory).start
      (platform.framing.frames packets ++ rest) packets
      (platform.framing.Oversized rest) := by
  refine Reader.handsOn_of_invariant (reader platform)
    (fun c => readWork c.socket) (invariant_start memory)
    step_invariant step_readWork ?_ ?_
  · intro c h harrived
    rcases h.at with ⟨position, hat⟩
    exact hat.handed_isPrefix hpackets hrest harrived
  · intro c h harrived hquiet
    exact Receiving.complete h hpackets hrest harrived (quiet_socket hquiet)

end ReadLoop

end Connection

end Link
end Protort
