import Protort.Node.Fifo
import Protort.Node.Payloads

/-!
# What components make of what they read

A packet is read as the structure in it, and the bytes between the fields do not
count.  On machines of one byte order that multiply alike, what a component
makes of a packet follows from the structure alone.
-/

namespace Protort
namespace System

open Lib (Bytes ByteOrder)
open Components (Component Data Intact Readable)

/-- Machines of one byte order that multiply alike. -/
def Alike (order : ByteOrder) (scale : UInt32 -> UInt32) (env : Platform) :
    Prop :=
  env.byteOrder = order ∧ env.timesHundred = scale

def reader (order : ByteOrder) : Platform :=
  { Platform.loopback with byteOrder := order }

def readPayload (order : ByteOrder) (payload : Bytes) : Data :=
  Data.unpack (reader order) payload

/-- The outputs of a component of a kind for a structure at an input. -/
def made (scale : UInt32 -> UInt32) (kind : Protocol.ComponentKind)
    (inPort : Parser.PortId) (d : Data) : List (Parser.PortId × Data) :=
  match kind with
  | Protocol.ComponentKind.retranslator =>
      if inPort = 0 ∨ inPort = 1 then [(0, d), (1, d)] else []
  | Protocol.ComponentKind.calc => [(0, { d with val := scale d.val })]
  | _ => []

section Machines

variable {order : ByteOrder} {scale : UInt32 -> UInt32} {env : Platform}

theorem readPayload_of_intact {d : Data} {payload : Bytes}
    (h : Intact order d payload) : readPayload order payload = d :=
  h.right (reader order) rfl

theorem process_made (henv : Alike order scale env) (c : Component)
    (inPort : Parser.PortId) {d : Data} {payload : Bytes}
    (hpayload : Intact order d payload) :
    (forall output, output ∈ ((c.process env inPort payload).map
        Node.flatten).getD [] -> Readable order output.2) ∧
    (((c.process env inPort payload).map Node.flatten).getD []).map
        (fun output => (output.1, readPayload order output.2)) =
      made scale c.kind inPort d := by
  constructor
  · intro output houtput
    cases hprocess : c.process env inPort payload with
    | none =>
        rw [hprocess] at houtput
        cases houtput
    | some outputs =>
        rw [hprocess] at houtput
        rcases Node.payload_of_mem_flatten houtput with ⟨out, hout, heq⟩
        rw [← heq]
        exact ⟨_, Components.process_intact henv.left hpayload hprocess hout⟩
  · unfold Component.process made
    cases c.kind with
    | retranslator =>
        by_cases hport : inPort = 0 ∨ inPort = 1
        · simp only [if_pos hport, Option.map_some, Option.getD_some]
          show [(_, _), (_, _)] = _
          rw [readPayload_of_intact hpayload]
        · simp only [if_neg hport]
          rfl
    | «calc» =>
        have hscaled := Data.intact_pack henv.left
          { Data.unpack env payload with
            val := env.timesHundred (Data.unpack env payload).val }
        have hread := readPayload_of_intact hscaled
        rw [hpayload.right env henv.left, henv.right] at hread
        simp only [Option.map_some, Option.getD_some]
        show [(_, _)] = _
        rw [hpayload.right env henv.left, henv.right, hread]
    | _ => rfl

/-!
## One port
-/

def stage (scale : UInt32 -> UInt32) (c : Component)
    (inPort port : Parser.PortId) (d : Data) : List Data :=
  (made scale c.kind inPort d).flatMap (Node.onPort port)

theorem map_flatMap_onPort {A B : Type} (f : A -> B) (port : Parser.PortId)
    (outputs : List (Parser.PortId × A)) :
    (outputs.flatMap (Node.onPort port)).map f =
      (outputs.map (fun output => (output.1, f output.2))).flatMap
        (Node.onPort port) := by
  rw [List.map_flatMap, List.flatMap_map]
  congr 1
  funext output
  unfold Node.onPort
  split_ifs <;> rfl

theorem process_stage (henv : Alike order scale env) (c : Component)
    (inPort port : Parser.PortId) {payload : Bytes}
    (hpayload : Readable order payload) :
    ((((c.process env inPort payload).map Node.flatten).getD []).flatMap
        (Node.onPort port)).map (readPayload order) =
      stage scale c inPort port (readPayload order payload) := by
  rcases hpayload with ⟨d, hintact⟩
  rw [map_flatMap_onPort, (process_made henv c inPort hintact).right,
    readPayload_of_intact hintact]
  rfl

end Machines

end System
end Protort
