import Protort.Protocol.Messages

/-!
# The platform

What the program takes from the machine, the operating system and its
libraries.  Every function that needs any of it receives a platform, and a run
may meet another one at every step.
-/

namespace Protort

open Lib (Bytes ByteOrder)

/-- `boost::asio::ip::address_v6`. -/
structure AddressV6 where
  bits : BitVec 128
  scopeId : Nat
deriving DecidableEq, Repr

/-- `boost::asio::ip::address`. -/
inductive Address where
  | v4 : UInt32 -> Address
  | v6 : AddressV6 -> Address
deriving DecidableEq, Repr

structure Platform where
  /-- Native byte order. -/
  byteOrder : ByteOrder
  /-- `address_v4::from_string`, which throws where this is `none`. -/
  fromString : String -> Option UInt32
  /-- `address_v6::from_string`, which throws where this is `none`. -/
  fromStringV6 : String -> Option AddressV6
  /-- Whether an acceptor can be bound to a port and put to listening. -/
  bind : UInt16 -> Bool
  /-- Seconds on the steady clock. -/
  now : Nat
  /-- The random value, as the bits of a `float`, and the time that a generator
  at an address stamps on its next packet. -/
  draw : Nat -> UInt32 × UInt64
  /-- Multiplication of a `float` by 100, on its bits. -/
  timesHundred : UInt32 -> UInt32
  /-- The padding between the fields of a packed structure. -/
  padding : UInt32
  /-- The memory that follows the characters of a string. -/
  beyond : Bytes -> Bytes
  /-- `ByteSize` of a payload, as far as a 32-bit counter sees it. -/
  byteSize : Protocol.Payload -> UInt32
  /-- `SerializeAsString`. -/
  serialize : Protocol.Packet -> Bytes
  /-- `ParseFromArray`, which leaves behind what it could read. -/
  parse : Bytes -> Protocol.Packet

/-- `address::from_string`, which reads either kind of address and throws where
this is `none`. -/
def Platform.addressFromString (env : Platform) (s : String) :
    Option Address :=
  match env.fromStringV6 s with
  | some address => some (Address.v6 address)
  | none => (env.fromString s).map Address.v4

theorem Platform.addressFromString_isSome_iff {env : Platform} {s : String} :
    (env.addressFromString s).isSome <->
      (env.fromStringV6 s).isSome ∨ (env.fromString s).isSome := by
  unfold Platform.addressFromString
  cases env.fromStringV6 s <;> simp

/-!
## Packets on the wire

The bytes of packets with small transaction ids and small payloads, as far as
the examples of this development need them.
-/

def wireKind (kind : Protocol.Kind) (id : UInt32) : Bytes :=
  let transaction : Bytes :=
    if id = 0 then [0x12, 0x00] else [0x12, 0x02, 0x08, id.toUInt8]
  match kind with
  | Protocol.Kind.request => [0x08, 0x01] ++ transaction
  | Protocol.Kind.response => [0x08, 0x02] ++ transaction
  | _ => []

def wirePayload (payload : Protocol.Payload) : Bytes :=
  match payload with
  | Protocol.Payload.payload bytes =>
      [0x1a, UInt8.ofNat (bytes.length + 2), 0x22, UInt8.ofNat bytes.length] ++
        bytes
  | _ => [0x1a, 0x00]

def wirePacket (packet : Protocol.Packet) : Bytes :=
  wireKind packet.kind packet.transaction.id ++ wirePayload packet.payload

def parsePacket (bytes : Bytes) : Protocol.Packet :=
  match bytes with
  | 0x08 :: kind :: 0x12 :: rest =>
      let id : UInt32 :=
        match rest with
        | 0x02 :: 0x08 :: id :: _ => id.toUInt32
        | _ => 0
      { kind :=
          if kind = 1 then Protocol.Kind.request else Protocol.Kind.response
        transaction := { id := id }
        payload := Protocol.Payload.notSet }
  | _ => default

/-- A little-endian machine on which every port is free and names are not
resolved: of all strings only the two loopback addresses are addresses. -/
def Platform.loopback : Platform :=
  { byteOrder := ByteOrder.little
    fromString := fun s => if s = "127.0.0.1" then some 2130706433 else none
    fromStringV6 := fun s => if s = "::1" then some ⟨1, 0⟩ else none
    bind := fun _ => true
    now := 0
    draw := fun _ => (0, 0)
    timesHundred := fun bits => bits
    padding := 0
    beyond := fun _ => []
    byteSize := fun _ => 0
    serialize := wirePacket
    parse := parsePacket }

end Protort
