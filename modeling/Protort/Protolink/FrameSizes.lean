import Protort.Protolink.Client
import Protort.Protolink.Connection

/-!
# Sizes of frames

Both sides refuse a header that announces more than the maximal size, and
neither looks at the size of a packet before it sends it.  The buffer of the
client has room for the header and a packet of the maximal size; that of the
connection has room for such a packet only.
-/

namespace Protort
namespace Protolink

open Lib (Bytes Memory Socket)
open Link (Buffer maxPacketSize headerSize)

structure Transmits {tag : Type} (sender : Platform) (packet : Bytes)
    (before after : Socket Buffer tag) : Prop where
  started : exists x, after.writes = before.writes ++
    [{ source := Buffer.packet
       size := headerSize + packet.length
       done := 0
       tag := x }]
  frame : (after.memory Buffer.packet).read 0 (headerSize + packet.length) =
    sender.framing.frame packet

/-- What the two ends of a connection are to agree on.  What is transmitted has
been copied within the buffer of the sender, and the peer goes on reading after
its header; and a packet that is not too large for the peer is transmitted. -/
structure SizesAgree {tag tag' : Type} (capacity : Nat)
    (send : Memory -> Socket Buffer tag -> Socket Buffer tag)
    (onHeaderRead : Socket Buffer tag' -> Socket Buffer tag')
    (sender : Platform) (packet : Bytes) : Prop where
  sound : forall garbage s, (send garbage s).writes = s.writes ∨
    headerSize + packet.length <= capacity ∧
      forall peer : Socket Buffer tag', peer.closed = false ->
        (peer.memory Buffer.packetHeader).read 0 headerSize =
          sender.framing.encode packet.length ->
        (onHeaderRead peer).closed = false
  complete : packet.length <= maxPacketSize -> forall garbage s,
    Transmits sender packet s (send garbage s)

/-- The size of a packet as the peer reads it from the header. -/
def announcedSize (sender peer : Platform) (packet : Bytes) : Nat :=
  peer.framing.decode (sender.framing.encode packet.length)

def clientSend (platform : Platform) (packet : Bytes) (kind : Protocol.Kind)
    (c : Client) (garbage : Memory) (s : Socket Buffer Protocol.Kind) :
    Socket Buffer Protocol.Kind :=
  (Client.doSendPacket platform garbage packet kind
    { c with socket := s }).socket

def clientOnHeaderRead (platform : Platform) (c : Client)
    (s : Socket Buffer Protocol.Kind) : Socket Buffer Protocol.Kind :=
  (Client.onHeaderRead platform { c with socket := s }).socket

def connectionSend (platform : Platform) (packet : Bytes) (c : Connection)
    (garbage : Memory) (s : Socket Buffer Unit) : Socket Buffer Unit :=
  (Connection.asyncSend platform garbage packet { c with socket := s }).socket

def connectionOnHeaderRead (platform : Platform) (c : Connection)
    (s : Socket Buffer Unit) : Socket Buffer Unit :=
  (Connection.onHeaderRead platform { c with socket := s }).socket

section Sizes

variable {tag tag' : Type} {sender peer : Platform} {packet : Bytes}

theorem announcedSize_eq (horder : sender.byteOrder = peer.byteOrder)
    (hsize : packet.length <= maxPacketSize) :
    announcedSize sender peer packet = packet.length := by
  unfold announcedSize Platform.framing
  rw [horder]
  exact (Link.framing peer.byteOrder).decode_encode packet.length hsize

theorem writes_sendPacket (platform : Platform) (capacity : Nat)
    (garbage : Memory) (packet : Bytes) (x : tag) (s : Socket Buffer tag) :
    (Link.sendPacket platform capacity garbage packet x s).writes =
      s.writes ++
        [{ source := Buffer.packet
           size := headerSize + packet.length
           done := 0
           tag := x }] := by
  unfold Link.sendPacket
  split <;> rfl

theorem buffer_sendPacket {capacity : Nat}
    (hfits : headerSize + packet.length <= capacity) (garbage : Memory)
    (x : tag) (s : Socket Buffer tag) :
    ((Link.sendPacket sender capacity garbage packet x s).memory
      Buffer.packet).read 0 (headerSize + packet.length) =
        sender.framing.frame packet := by
  unfold Link.sendPacket
  rw [if_pos hfits]
  exact Link.read_stored sender packet s

/-- The peer closes the connection exactly when the size that it reads is too
large. -/
theorem onHeaderRead_open {s : Socket Buffer tag} (hopen : s.closed = false) :
    (Link.onHeaderRead peer s).closed = false <->
      Link.packetSize peer s <= maxPacketSize := by
  unfold Link.onHeaderRead
  by_cases hsize : Link.packetSize peer s > maxPacketSize
  · rw [if_pos hsize]
    exact iff_of_false (fun h => by cases h) (by omega)
  · rw [if_neg hsize]
    exact iff_of_true hopen (by omega)

/-- Every packet is sent, so that it has to fit into the buffer with its header
and to be accepted. -/
theorem sizesAgree_sendPacket_iff (capacity : Nat) (x : tag) :
    SizesAgree capacity
        (fun garbage => Link.sendPacket sender capacity garbage packet x)
        (Link.onHeaderRead peer : Socket Buffer tag' -> Socket Buffer tag')
        sender packet <->
      headerSize + packet.length <= capacity ∧
        announcedSize sender peer packet <= maxPacketSize := by
  constructor
  · intro h
    rcases h.sound (fun _ => 0) (Socket.connected (fun _ _ => 0)) with
      hnone | ⟨hfits, haccepted⟩
    · rw [writes_sendPacket] at hnone
      exact absurd (List.append_right_eq_self.mp hnone) (List.cons_ne_nil _ _)
    · refine ⟨hfits, ?_⟩
      have hread := Memory.read_write (fun _ => 0) 0
        (sender.framing.encode packet.length)
      rw [sender.framing.length_encode, Platform.framing_headerSize] at hread
      have hopen := haccepted (Socket.connected (fun _ =>
        Memory.write (fun _ => 0) 0 (sender.framing.encode packet.length)))
        rfl hread
      rw [onHeaderRead_open rfl] at hopen
      unfold Link.packetSize at hopen
      unfold announcedSize
      rw [← hread]
      exact hopen
  · intro h
    rcases h with ⟨hfits, haccepted⟩
    exact
      { sound := by
          intro garbage s
          refine Or.inr ⟨hfits, ?_⟩
          intro u hopen hheader
          rw [onHeaderRead_open hopen]
          unfold Link.packetSize
          rw [hheader]
          exact haccepted
        complete := fun _ garbage s =>
          { started := ⟨x, writes_sendPacket _ _ _ _ _ _⟩
            frame := buffer_sendPacket hfits garbage x s } }

end Sizes

/-- The two ends agree on a packet from the client when it is not larger than
the maximal size, and on one from the connection when it is not so together with
its header; besides, the peer has to read no larger size than the maximal one,
which it does when it has the same byte order. -/
theorem sizesAgree_iff (sender peer : Platform) (packet : Bytes)
    (kind : Protocol.Kind) (client : Client) (connection : Connection) :
    (SizesAgree (maxPacketSize + headerSize)
        (clientSend sender packet kind client)
        (connectionOnHeaderRead peer connection) sender packet <->
      packet.length <= maxPacketSize ∧
        announcedSize sender peer packet <= maxPacketSize) ∧
    (SizesAgree maxPacketSize (connectionSend sender packet connection)
        (clientOnHeaderRead peer client) sender packet <->
      headerSize + packet.length <= maxPacketSize ∧
        announcedSize sender peer packet <= maxPacketSize) := by
  constructor
  · have hclient := @sizesAgree_sendPacket_iff Protocol.Kind Unit sender peer
      packet (maxPacketSize + headerSize) kind
    rw [Nat.add_comm maxPacketSize headerSize, Nat.add_le_add_iff_left]
      at hclient
    exact hclient
  · exact sizesAgree_sendPacket_iff maxPacketSize ()

def largestPacket : Bytes :=
  List.replicate maxPacketSize 0

/-- The client would accept it, but the buffer of the connection is too short by
the header. -/
theorem largestPacket_overflows :
    largestPacket.length <= maxPacketSize ∧
    announcedSize Platform.loopback Platform.loopback largestPacket <=
      maxPacketSize ∧
    ¬ SizesAgree maxPacketSize
        (connectionSend Platform.loopback largestPacket
          (Connection.new (fun _ _ => 0)))
        (clientOnHeaderRead Platform.loopback (Client.new (fun _ _ => 0)))
        Platform.loopback largestPacket := by
  have hlength : largestPacket.length = maxPacketSize :=
    List.length_replicate
  have hle := Nat.le_of_eq hlength
  refine ⟨hle, ?_, ?_⟩
  · rw [announcedSize_eq rfl hle]
    exact hle
  · intro h
    have hfits := ((@sizesAgree_sendPacket_iff Unit Protocol.Kind
      Platform.loopback Platform.loopback largestPacket maxPacketSize
      ()).mp h).left
    rw [hlength] at hfits
    exact absurd hfits (by decide)

end Protolink
end Protort
