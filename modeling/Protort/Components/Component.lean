import Protort.Platform

/-!
# Components

The kinds of component, the packet contents they exchange and what each of them
does with a packet.  A component never delivers anything itself: it hands the
list of its outputs to the router of its node.
-/

namespace Protort
namespace Components

open Lib (Bytes)
open Protocol (ComponentKind)

/-!
## Kinds and their names
-/

/-- The kind with a given name; the source asserts that there is one. -/
def getComponentKind (kind : String) : Option ComponentKind :=
  if kind = "generator" then
    some ComponentKind.generator
  else if kind = "retranslator" then
    some ComponentKind.retranslator
  else if kind = "terminator" then
    some ComponentKind.terminator
  else if kind = "calc" then
    some ComponentKind.calc
  else if kind = "history" then
    some ComponentKind.history
  else if kind = "timed_generator" then
    some ComponentKind.timedGenerator
  else
    none

/-- The name of a kind; the source asserts that the value is one it knows. -/
def getComponentKindName (kind : ComponentKind) : Option String :=
  match kind with
  | ComponentKind.generator => some "generator"
  | ComponentKind.retranslator => some "retranslator"
  | ComponentKind.terminator => some "terminator"
  | ComponentKind.calc => some "calc"
  | ComponentKind.history => some "history"
  | ComponentKind.timedGenerator => some "timed_generator"
  | ComponentKind.unrecognized _ => none

theorem getComponentKind_of_name
    {kind : ComponentKind} {name : String}
    (h : getComponentKindName kind = some name) :
    getComponentKind name = some kind := by
  cases kind with
  | unrecognized value => cases h
  | _ =>
      cases h
      rfl

theorem getComponentKindName_of_kind
    {kind : ComponentKind} {name : String}
    (h : getComponentKind name = some kind) :
    getComponentKindName kind = some name := by
  unfold getComponentKind at h
  split_ifs at h with h1 h2 h3 h4 h5 h6
  · cases h
    rw [h1]
    rfl
  · cases h
    rw [h2]
    rfl
  · cases h
    rw [h3]
    rfl
  · cases h
    rw [h4]
    rfl
  · cases h
    rw [h5]
    rfl
  · cases h
    rw [h6]
    rfl

/-!
## Packet contents
-/

/-- The structure that generators emit, its value as the bits of a `float`. -/
structure Data where
  val : UInt32
  time : UInt64
  address : UInt64
deriving DecidableEq, Repr

/-- `sizeof(data)`: four bytes of padding keep `time` aligned. -/
def Data.size : Nat := 24

def Data.pack (env : Platform) (d : Data) : Bytes :=
  env.byteOrder.encode 4 d.val.toNat ++
    env.byteOrder.encode 4 env.padding.toNat ++
      env.byteOrder.encode 8 d.time.toNat ++
        env.byteOrder.encode 8 d.address.toNat

/-- The length of the string is not looked at: a short one is read past its
end. -/
def Data.unpack (env : Platform) (str : Bytes) : Data :=
  let raw := str ++ env.beyond str
  { val := UInt32.ofNat (env.byteOrder.decode (raw.take 4))
    time := UInt64.ofNat (env.byteOrder.decode ((raw.drop 8).take 8))
    address := UInt64.ofNat (env.byteOrder.decode ((raw.drop 16).take 8)) }

/-!
## Component objects
-/

structure Output where
  payload : Bytes
  ports : List Parser.PortId
deriving DecidableEq, Repr

/-- The source of a packet: the component and how many outputs it had emitted
before.  This is bookkeeping for the proofs, no packet carries it. -/
structure Origin where
  component : String
  index : Nat
deriving DecidableEq, Repr

/-- One call of `do_process`, as the proofs record it. -/
structure Delivery where
  origin : Option Origin
  inPort : Parser.PortId
  payload : Bytes
deriving DecidableEq, Repr

/-- A component object.  `router` is the router it was created for and
`compInst` the table entry its `comp_inst_` points at; `started` is the flag of
the generators.  The list of deliveries is bookkeeping. -/
structure Component where
  address : Nat
  router : Nat
  kind : ComponentKind
  compInst : Option String
  inPacketCount : UInt32
  started : Bool
  received : List Delivery
deriving DecidableEq

namespace Component

/-- The `process` override of each kind.  A history writes to its file only. -/
def process (env : Platform) (c : Component)
    (inputPort : Parser.PortId) (payload : Bytes) : Option (List Output) :=
  match c.kind with
  | ComponentKind.retranslator =>
      if inputPort = 0 ∨ inputPort = 1 then
        some [{ payload := payload, ports := [0, 1] }]
      else
        none
  | ComponentKind.calc =>
      let d := Data.unpack env payload
      let scaled := { d with val := env.timesHundred d.val }
      some [{ payload := scaled.pack env, ports := [0] }]
  | _ => none

def doProcess (env : Platform) (c : Component) (origin : Option Origin)
    (inputPort : Parser.PortId) (payload : Bytes) :
    Component × Option (List Output) :=
  ({ c with
      inPacketCount := c.inPacketCount + 1
      received := c.received ++ [⟨origin, inputPort, payload⟩] },
    c.process env inputPort payload)

def isGenerator (c : Component) : Bool :=
  match c.kind with
  | ComponentKind.generator => true
  | ComponentKind.timedGenerator => true
  | _ => false

/-- The outputs of one `generate`; `none` when the generator is stopped. -/
def generate (env : Platform) (c : Component) : Option (List Output) :=
  if c.started then
    let (val, time) := env.draw c.address
    let d : Data :=
      { val := val, time := time, address := UInt64.ofNat c.address }
    some [{ payload := d.pack env, ports := [0, 1] }]
  else
    none

end Component

end Components
end Protort
