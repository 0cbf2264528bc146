import Mathlib.Data.List.Basic

/-!
# Application and deployment schemes

The data that the parser reads from the two XML schemes: the component graph of
an application and its placement on network nodes.
-/

namespace Protort
namespace Parser

/-- Identifier of an input or output of a component, a `uint32_t`. -/
abbrev PortId : Type := UInt32

structure Component where
  name : String
  kind : String
deriving DecidableEq, Repr, Inhabited

structure Connection where
  source : String
  sourceOut : PortId
  dest : String
  destIn : PortId
deriving DecidableEq, Repr, Inhabited

structure Address where
  ipAddress : String
  port : PortId
  configPort : PortId
deriving DecidableEq, Repr, Inhabited

/-- A network node and, if it has one, the address of its backup node. -/
structure Node where
  name : String
  host : Address
  pairnode : Option Address
deriving DecidableEq, Repr, Inhabited

structure Mapping where
  compName : String
  nodeName : String
deriving DecidableEq, Repr, Inhabited

/-- Everything the two schemes describe, in document order. -/
structure Configuration where
  components : List Component
  connections : List Connection
  nodes : List Node
  mappings : List Mapping
deriving DecidableEq, Repr, Inhabited

end Parser
end Protort
