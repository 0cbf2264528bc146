import Protort.Lib.Framing
import Protort.Platform

/-!
# The packet header

Every packet of the link layer is preceded by a header of fixed size that holds
the size of the packet in the byte order of the machine.
-/

namespace Protort
namespace Link

open Lib (ByteOrder Framing)

/-- `sizeof(packet_header)`, a `uint32_t`. -/
def headerSize : Nat := 4

def maxPacketSize : Nat := 1024 * 1024

def framing (order : ByteOrder) : Framing :=
  order.framing headerSize maxPacketSize (by decide)

end Link

def Platform.framing (platform : Platform) : Lib.Framing :=
  Link.framing platform.byteOrder

@[simp] theorem Platform.framing_headerSize (platform : Platform) :
    platform.framing.headerSize = Link.headerSize := rfl

end Protort
