import Protort.Lib.Exceptions
import Protort.Parser.Configuration
import Protort.Parser.Ptree

/-!
# The parser of the two schemes

`parse_app` and `parse_deploy` go through the children of one element and append
to the vectors of a configuration what each child says.  An exception ends the
loop, and the vectors stay as they are then.

Whether a text is a `uint32_t` is for the stream that reads it to say.
-/

namespace Protort
namespace Parser

open Lib.Exceptions

/-- What the parser throws, and what `read_xml` and `get` throw. -/
inductive Failure where
  | unreadable
  | badPath (path : List String)
  | badData (path : List String)
  | invalidArgument (what : String)
deriving DecidableEq, Repr

abbrev Parsing (value : Type) : Type := EStateM Failure Configuration value

/-- The text of an integer that a stream reads to its end. -/
abbrev Stream : Type := String -> Option UInt32

/-!
## Values in a tree
-/

/-- `get<std::string>`. -/
def getString (t : Ptree) (path : List String) : Parsing String :=
  match t.getChild path with
  | some child => pure child.data
  | none => throw (Failure.badPath path)

/-- `get<port_id>`. -/
def getPortId (stream : Stream) (t : Ptree) (path : List String) :
    Parsing PortId :=
  match t.getChild path with
  | some child =>
      match stream child.data with
      | some port => pure port
      | none => throw (Failure.badData path)
  | none => throw (Failure.badPath path)

/-- `get<port_id>` with a default, which stands in for what is missing and for
what is no number. -/
def getPortIdOr (stream : Stream) (t : Ptree) (path : List String)
    (default : PortId) : Parsing PortId :=
  pure (((t.getChild path).bind (fun child => stream child.data)).getD default)

/-!
## Elements
-/

def parseComponent (v : Ptree) : Parsing PUnit := do
  let name ← getString v [xmlattr, "name"]
  let kind ← getString v [xmlattr, "kind"]
  modify (fun conf => { conf with
    components := conf.components ++ [{ name := name, kind := kind }] })

def parseConnection (stream : Stream) (v : Ptree) : Parsing PUnit := do
  let source ← getString v [xmlattr, "source"]
  let sourceOut ← getPortId stream v [xmlattr, "source_out"]
  let dest ← getString v [xmlattr, "dest"]
  let destIn ← getPortId stream v [xmlattr, "dest_in"]
  modify (fun conf => { conf with
    connections := conf.connections ++
      [{ source := source
         sourceOut := sourceOut
         dest := dest
         destIn := destIn }] })

def parseMap (v : Ptree) : Parsing PUnit := do
  let compName ← getString v [xmlattr, "instance"]
  let nodeName ← getString v [xmlattr, "node"]
  modify (fun conf => { conf with
    mappings := conf.mappings ++
      [{ compName := compName, nodeName := nodeName }] })

def initAddress (stream : Stream) (v : Ptree) : Parsing Address := do
  let ipAddress ← getString v [xmlattr, "address"]
  let port ← getPortId stream v [xmlattr, "port"]
  let configPort ← getPortIdOr stream v [xmlattr, "config_port"] 100
  pure { ipAddress := ipAddress, port := port, configPort := configPort }

def parseNode (stream : Stream) (v : Ptree) : Parsing PUnit :=
  let childSize := v.children.length
  if childSize > 2 then do
    let name ← getString v [xmlattr, "name"]
    throw (Failure.invalidArgument ("In the node name (" ++ name ++
      "): Expected no more than one child node: 'pairnode'"))
  else if childSize = 0 then
    throw (Failure.invalidArgument "Incorrectly entered node.")
  else do
    let name ← getString v [xmlattr, "name"]
    let host ← initAddress stream v
    match v.find "pairnode" with
    | some i => do
        let pairnode ← initAddress stream i
        modify (fun conf => { conf with
          nodes := conf.nodes ++
            [{ name := name, host := host, pairnode := some pairnode }] })
    | none =>
        modify (fun conf => { conf with
          nodes := conf.nodes ++
            [{ name := name, host := host, pairnode := none }] })

/-!
## Documents
-/

def unknownTag (filename : String) : Failure :=
  Failure.invalidArgument ("Unknown tag in the file " ++ filename ++ ".")

def parseAppChild (stream : Stream) (filename : String) (v : String × Ptree) :
    Parsing PUnit :=
  if v.1 = "instance" then
    parseComponent v.2
  else if v.1 = "connection" then
    parseConnection stream v.2
  else
    throw (unknownTag filename)

def parseDeployChild (stream : Stream) (filename : String)
    (v : String × Ptree) : Parsing PUnit :=
  if v.1 = "node" then
    parseNode stream v.2
  else if v.1 = "map" then
    parseMap v.2
  else
    throw (unknownTag filename)

/-- The body of the `try` blocks: `pt` is what `read_xml` makes of the file, if
it can read it. -/
def parseRoot (tag : String) (child : String × Ptree -> Parsing PUnit)
    (pt : Option Ptree) : Parsing PUnit :=
  match pt with
  | none => throw Failure.unreadable
  | some pt =>
      match pt.getChild [tag] with
      | none => throw (Failure.badPath [tag])
      | some root => root.children.forM child

/-- The `catch` block: whether the parser got to the end, and the vectors. -/
def caught (result : EStateM.Result Failure Configuration PUnit) :
    Bool × Configuration :=
  match result with
  | EStateM.Result.ok _ conf => (true, conf)
  | EStateM.Result.error _ conf => (false, conf)

def parseApp (stream : Stream) (filename : String) (pt : Option Ptree)
    (conf : Configuration) : Bool × Configuration :=
  caught (parseRoot "app" (parseAppChild stream filename) pt conf)

def parseDeploy (stream : Stream) (filename : String) (pt : Option Ptree)
    (conf : Configuration) : Bool × Configuration :=
  caught (parseRoot "deploy" (parseDeployChild stream filename) pt conf)

end Parser
end Protort
