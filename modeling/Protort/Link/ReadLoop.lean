import Protort.Lib.Carrying
import Protort.Link.PacketHeader

/-!
# Reading and writing packets on a socket

The connections of the link layer and of the protolink layer and the protolink
client read packets by the same handlers: the header goes into `packet_header_`,
and a header that is not refused starts a read of the packet into the buffer of
the class.  The client and the connection of the protolink layer also put
packets into that buffer to send them.
-/

namespace Protort
namespace Link

open Lib (Bytes Framing Memory Socket)

inductive Buffer where
  | packetHeader
  | packet
deriving DecidableEq, Repr

section Handlers

variable {tag : Type} (platform : Platform)

def doReadHeader (s : Socket Buffer tag) : Socket Buffer tag :=
  s.asyncRead Buffer.packetHeader headerSize

/-- The field of `packet_header_`. -/
def packetSize (s : Socket Buffer tag) : Nat :=
  platform.framing.decode ((s.memory Buffer.packetHeader).read 0 headerSize)

def doReadPacket (s : Socket Buffer tag) : Socket Buffer tag :=
  s.asyncRead Buffer.packet (packetSize platform s)

def onHeaderRead (s : Socket Buffer tag) : Socket Buffer tag :=
  if packetSize platform s > maxPacketSize then
    s.close
  else
    doReadPacket platform s

/-- Write the header and the packet into the buffer and start to send both.
A packet that does not fit is copied past the end of the buffer; what the buffer
holds afterwards is not determined. -/
def sendPacket (capacity : Nat) (garbage : Memory) (packet : Bytes) (x : tag)
    (s : Socket Buffer tag) : Socket Buffer tag :=
  let filled :=
    if headerSize + packet.length <= capacity then
      (s.store Buffer.packet 0
        (platform.framing.encode packet.length)).store
          Buffer.packet headerSize packet
    else
      { s with memory := Function.update s.memory Buffer.packet garbage }
  filled.asyncWrite Buffer.packet (headerSize + packet.length) x

end Handlers

section Sending

variable {tag : Type} (platform : Platform) (capacity : Nat)
  (garbage : Memory) (packet : Bytes) (x : tag) (s : Socket Buffer tag)

@[simp] theorem sendPacket_reads :
    (sendPacket platform capacity garbage packet x s).reads = s.reads := by
  unfold sendPacket
  split <;> rfl

@[simp] theorem sendPacket_received :
    (sendPacket platform capacity garbage packet x s).received =
      s.received := by
  unfold sendPacket
  split <;> rfl

@[simp] theorem sendPacket_inbox :
    (sendPacket platform capacity garbage packet x s).inbox = s.inbox := by
  unfold sendPacket
  split <;> rfl

@[simp] theorem sendPacket_closed :
    (sendPacket platform capacity garbage packet x s).closed = s.closed := by
  unfold sendPacket
  split <;> rfl

@[simp] theorem sendPacket_ended :
    (sendPacket platform capacity garbage packet x s).ended = s.ended := by
  unfold sendPacket
  split <;> rfl

@[simp] theorem sendPacket_wire :
    (sendPacket platform capacity garbage packet x s).wire = s.wire := by
  unfold sendPacket
  split <;> rfl

theorem sendPacket_writes :
    (sendPacket platform capacity garbage packet x s).writes =
      s.writes ++
        [{ source := Buffer.packet
           size := headerSize + packet.length
           done := 0
           tag := x }] := by
  unfold sendPacket
  split <;> rfl

theorem sendPacket_arrived :
    (sendPacket platform capacity garbage packet x s).arrived = s.arrived := by
  rw [Socket.arrived, Socket.arrived, sendPacket_received, sendPacket_inbox]

theorem onHeaderRead_arrived :
    (onHeaderRead platform s).arrived = s.arrived := by
  unfold onHeaderRead
  split <;> rfl

@[simp] theorem onHeaderRead_ended :
    (onHeaderRead platform s).ended = s.ended := by
  unfold onHeaderRead
  split <;> rfl

@[simp] theorem onHeaderRead_wire :
    (onHeaderRead platform s).wire = s.wire := by
  unfold onHeaderRead
  split <;> rfl

@[simp] theorem onHeaderRead_writes :
    (onHeaderRead platform s).writes = s.writes := by
  unfold onHeaderRead
  split <;> rfl

theorem sendPacket_packetHeader :
    (sendPacket platform capacity garbage packet x s).memory
        Buffer.packetHeader = s.memory Buffer.packetHeader := by
  unfold sendPacket
  split <;> rfl

theorem length_frame (platform : Platform) (packet : Bytes) :
    (platform.framing.frame packet).length = headerSize + packet.length := by
  rw [Framing.frame, List.length_append, platform.framing.length_encode,
    Platform.framing_headerSize]

theorem read_stored :
    (((s.store Buffer.packet 0
      (platform.framing.encode packet.length)).store
        Buffer.packet headerSize packet).memory Buffer.packet).read 0
          (headerSize + packet.length) = platform.framing.frame packet := by
  have hread := Memory.read_write (s.memory Buffer.packet) 0
    (platform.framing.encode packet.length)
  rw [platform.framing.length_encode, Platform.framing_headerSize] at hread
  have hextend := Memory.read_write_extend
    ((s.memory Buffer.packet).write 0 (platform.framing.encode packet.length))
    0 headerSize packet
  rw [hread, Nat.zero_add] at hextend
  simpa [Socket.store, Framing.frame] using hextend

/-- A packet that fits is sent as its frame, when no other write has bytes left
to take from the buffer. -/
theorem carries_sendPacket {pieces : List Bytes}
    (hfits : headerSize + packet.length <= capacity)
    (h : s.Carries pieces) (hidle : s.pending = []) :
    (sendPacket platform capacity garbage packet x s).Carries
      (pieces ++ [platform.framing.frame packet]) := by
  have hspares : forall start count,
      s.LeavesPending Buffer.packet start count := by
    intro start count w hw
    rw [hidle] at hw
    cases hw
  have hheader := h.store (hspares 0 (platform.framing.encode
    packet.length).length)
  have hfilled := hheader.store (hspares headerSize packet.length)
  have hbuffer := read_stored platform packet s
  rw [← length_frame platform] at hbuffer
  have hsent := hfilled.asyncWrite hidle x hbuffer
  rw [length_frame] at hsent
  unfold sendPacket
  rw [if_pos hfits]
  exact hsent

theorem carries_doReadHeader {pieces : List Bytes} (h : s.Carries pieces) :
    (doReadHeader s).Carries pieces :=
  h.congr rfl rfl rfl (fun hc => hc)

theorem carries_onHeaderRead {pieces : List Bytes} (h : s.Carries pieces) :
    (onHeaderRead platform s).Carries pieces := by
  unfold onHeaderRead
  by_cases hsize : packetSize platform s > maxPacketSize
  · rw [if_pos hsize]
    exact h.congr rfl rfl rfl (fun _ => rfl)
  · rw [if_neg hsize]
    exact h.congr rfl rfl rfl (fun hc => hc)

end Sending

end Link
end Protort
