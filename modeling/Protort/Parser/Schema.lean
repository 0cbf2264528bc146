import Mathlib.Data.List.Basic
import Protort.Parser.Parsing

/-!
# The schema of the two schemes

What the documents of an application and of a deployment should look like when
their comments are left out, and which of them the parser accepts.
-/

namespace Protort
namespace Parser

/-!
## Attributes
-/

def Found (x : Xml) (name : String) : Prop :=
  (x.attr name).isSome = true

def Number (stream : Stream) (x : Xml) (name : String) : Prop :=
  ((x.attr name).bind stream).isSome = true

def NumberIfAny (stream : Stream) (x : Xml) (name : String) : Prop :=
  forall text, x.attr name = some text -> (stream text).isSome = true

def HasAddress (stream : Stream) (x : Xml) : Prop :=
  Found x "address" ∧ Number stream x "port"

/-!
## What elements stand for
-/

def textOf (x : Xml) (name : String) : String :=
  (x.attr name).getD ""

def numberOf (stream : Stream) (x : Xml) (name : String) : PortId :=
  ((x.attr name).bind stream).getD 0

def componentOf (x : Xml) : Component :=
  { name := textOf x "name"
    kind := textOf x "kind" }

def connectionOf (stream : Stream) (x : Xml) : Connection :=
  { source := textOf x "source"
    sourceOut := numberOf stream x "source_out"
    dest := textOf x "dest"
    destIn := numberOf stream x "dest_in" }

def mappingOf (x : Xml) : Mapping :=
  { compName := textOf x "instance"
    nodeName := textOf x "node" }

def addressOf (stream : Stream) (x : Xml) : Address :=
  { ipAddress := textOf x "address"
    port := numberOf stream x "port"
    configPort := ((x.attr "config_port").bind stream).getD 100 }

def pairnodeOf (x : Xml) : Option Xml :=
  x.contents.find? (fun child => decide (child.key = "pairnode"))

def nodeOf (stream : Stream) (x : Xml) : Node :=
  { name := textOf x "name"
    host := addressOf stream x
    pairnode := (pairnodeOf x).map (addressOf stream) }

/-!
## The schema
-/

def InstanceForm (x : Xml) : Prop :=
  Found x "name" ∧ Found x "kind"

def ConnectionForm (stream : Stream) (x : Xml) : Prop :=
  Found x "source" ∧ Number stream x "source_out" ∧ Found x "dest" ∧
    Number stream x "dest_in"

def MapForm (x : Xml) : Prop :=
  Found x "instance" ∧ Found x "node"

def AddressForm (stream : Stream) (x : Xml) : Prop :=
  HasAddress stream x ∧ NumberIfAny stream x "config_port"

def NodeForm (stream : Stream) (x : Xml) : Prop :=
  Found x "name" ∧ AddressForm stream x ∧ x.children.length <= 1 ∧
    forall child, child ∈ x.children ->
      child.key = "pairnode" ∧ AddressForm stream child

def AppForm (stream : Stream) (x : Xml) : Prop :=
  (x.key = "instance" ∧ InstanceForm x) ∨
    (x.key = "connection" ∧ ConnectionForm stream x)

def DeployForm (stream : Stream) (x : Xml) : Prop :=
  (x.key = "map" ∧ MapForm x) ∨ (x.key = "node" ∧ NodeForm stream x)

/-- The element with a tag has nothing but children of some form. -/
def Conforms (tag : String) (form : Xml -> Prop) (document : List Xml) : Prop :=
  exists root, rootOf tag document = some root ∧ root.attributes = [] ∧
    forall x, x ∈ root.children -> form x

def childrenOf (tag : String) (document : List Xml) : List Xml :=
  match rootOf tag document with
  | some root => root.children
  | none => []

def named (key : String) (xs : List Xml) : List Xml :=
  xs.filter (fun x => decide (x.key = key))

def grownByApp (stream : Stream) (document : List Xml) (conf : Configuration) :
    Configuration :=
  { conf with
    components := conf.components ++
      (named "instance" (childrenOf "app" document)).map componentOf
    connections := conf.connections ++
      (named "connection" (childrenOf "app" document)).map
        (connectionOf stream) }

def grownByDeploy (stream : Stream) (document : List Xml)
    (conf : Configuration) : Configuration :=
  { conf with
    nodes := conf.nodes ++
      (named "node" (childrenOf "deploy" document)).map (nodeOf stream)
    mappings := conf.mappings ++
      (named "map" (childrenOf "deploy" document)).map mappingOf }

def outcome (result : Bool × Configuration) : Option Configuration :=
  if result.1 then some result.2 else none

/-- A parser accepts a document exactly when it has some form, appends what is
in it, and does not care about its comments. -/
structure FollowsSchema
    (parse : List Xml -> Configuration -> Bool × Configuration)
    (schema : List Xml -> Prop)
    (grown : List Xml -> Configuration -> Configuration)
    (document : List Xml) (conf : Configuration) : Prop where
  accepts : (parse document conf).1 = true <-> schema document
  grows : (parse document conf).1 = true ->
    (parse document conf).2 = grown document conf
  comments : outcome (parse (stripAll document) conf) =
    outcome (parse document conf)

/-!
## What decides

A document that is wrong in any case is rejected in any case.  Otherwise the
parser minds comments and overlooks some other things.
-/

/-- A node as far as it has to be one for the parser. -/
def NodeLoose (stream : Stream) (x : Xml) : Prop :=
  Found x "name" ∧ HasAddress stream x ∧ x.children.length <= 1 ∧
    forall child, child ∈ x.children -> child.key = "pairnode" ->
      HasAddress stream child

/-- The nodes that the parser takes: it counts the children, comments too. -/
def NodeTaken (stream : Stream) (x : Xml) : Prop :=
  Found x "name" ∧ HasAddress stream x ∧ x.contents.length <= 1 ∧
    forall child, pairnodeOf x = some child -> HasAddress stream child

def DeployLoose (stream : Stream) (x : Xml) : Prop :=
  (x.key = "map" ∧ MapForm x) ∨ (x.key = "node" ∧ NodeLoose stream x)

/-- A node in which a comment stands alone if at all, each child element is a
pairnode, and the configuration ports are numbers. -/
def NodePlain (stream : Stream) (x : Xml) : Prop :=
  (forall child, child ∈ x.contents -> child.isComment = true ->
    x.contents.length = 1) ∧
  (forall child, child ∈ x.children ->
    child.key = "pairnode" ∧ NumberIfAny stream child "config_port") ∧
  NumberIfAny stream x "config_port"

def DeployPlain (stream : Stream) (x : Xml) : Prop :=
  x.key = "node" -> NodePlain stream x

/-- No comment stands right in the element with a tag, and its children are
plain. -/
def Plain (tag : String) (plain : Xml -> Prop) (document : List Xml) : Prop :=
  forall root, rootOf tag document = some root ->
    (forall x, x ∈ root.contents -> x.isComment = false) ∧
      forall x, x ∈ root.children -> plain x

/-!
## Comments in elements
-/

section Comments

variable {stream : Stream}

theorem found_strip (x : Xml) (name : String) :
    Found x.strip name <-> Found x name := by
  unfold Found
  rw [x.attr_strip]

theorem number_strip (x : Xml) (name : String) :
    Number stream x.strip name <-> Number stream x name := by
  unfold Number
  rw [x.attr_strip]

theorem hasAddress_strip (x : Xml) :
    HasAddress stream x.strip <-> HasAddress stream x :=
  and_congr (found_strip x "address") (number_strip x "port")

theorem textOf_strip (x : Xml) (name : String) :
    textOf x.strip name = textOf x name := by
  unfold textOf
  rw [x.attr_strip]

theorem numberOf_strip (x : Xml) (name : String) :
    numberOf stream x.strip name = numberOf stream x name := by
  unfold numberOf
  rw [x.attr_strip]

theorem addressOf_strip (x : Xml) :
    addressOf stream x.strip = addressOf stream x := by
  unfold addressOf
  rw [textOf_strip, numberOf_strip, x.attr_strip]

theorem pairnodeOf_strip (x : Xml) :
    pairnodeOf x.strip = (pairnodeOf x).map Xml.strip := by
  have hcontents : x.strip.contents = stripAll x.contents := by
    rw [x.contents_strip, stripAll_eq]
    rfl
  unfold pairnodeOf
  rw [hcontents]
  exact find_stripAll x.contents (by decide)

theorem nodeOf_strip (x : Xml) :
    nodeOf stream x.strip = nodeOf stream x := by
  unfold nodeOf
  rw [textOf_strip, addressOf_strip, pairnodeOf_strip, Option.map_map]
  congr 2
  funext child
  exact addressOf_strip child

theorem mem_children_of_pairnodeOf {x child : Xml}
    (h : pairnodeOf x = some child) :
    child ∈ x.children ∧ child.key = "pairnode" := by
  unfold pairnodeOf at h
  have hfound := List.find?_some h
  have hkey : child.key = "pairnode" := of_decide_eq_true hfound
  refine ⟨List.mem_filter.mpr ⟨List.mem_of_find?_eq_some h, ?_⟩, hkey⟩
  cases hcomment : child.isComment with
  | false => rfl
  | true =>
      rw [Xml.isComment_iff.mp hcomment] at hkey
      exact absurd hkey (by decide)

theorem exists_pairnodeOf {x child : Xml} (h : child ∈ x.contents)
    (hkey : child.key = "pairnode") : exists found, pairnodeOf x = some found :=
  Option.isSome_iff_exists.mp
    (List.find?_isSome.mpr ⟨child, h, decide_eq_true hkey⟩)

theorem eq_of_length_le_one {xs : List Xml} (h : xs.length <= 1) {x y : Xml}
    (hx : x ∈ xs) (hy : y ∈ xs) : x = y := by
  match xs, h with
  | [z], _ => rw [List.mem_singleton.mp hx, List.mem_singleton.mp hy]

theorem nodeTaken_strip (x : Xml) :
    NodeTaken stream x.strip <-> NodeLoose stream x := by
  unfold NodeTaken NodeLoose
  rw [found_strip, hasAddress_strip, x.contents_strip, List.length_map,
    pairnodeOf_strip]
  refine and_congr_right' (and_congr_right' (and_congr_right fun hone => ?_))
  constructor
  · intro h child hchild hkey
    have hcontents : child ∈ x.contents := (List.mem_filter.mp hchild).left
    rcases exists_pairnodeOf hcontents hkey with ⟨found, hfound⟩
    have hsame := eq_of_length_le_one hone hchild
      (mem_children_of_pairnodeOf hfound).left
    rw [hsame, ← hasAddress_strip]
    rw [hfound] at h
    exact h found.strip rfl
  · intro h child hchild
    rcases Option.map_eq_some_iff.mp hchild with ⟨found, hfound, rfl⟩
    rcases mem_children_of_pairnodeOf hfound with ⟨hmem, hkey⟩
    rw [hasAddress_strip]
    exact h found hmem hkey

theorem nodeLoose_of_taken {x : Xml} (h : NodeTaken stream x) :
    NodeLoose stream x := by
  rcases h with ⟨hname, haddress, hone, hpairnode⟩
  refine ⟨hname, haddress, Nat.le_trans (List.length_filter_le _ _) hone, ?_⟩
  intro child hchild hkey
  have hcontents : child ∈ x.contents := (List.mem_filter.mp hchild).left
  rcases exists_pairnodeOf hcontents hkey with ⟨found, hfound⟩
  have hsame := eq_of_length_le_one hone hcontents
    (List.mem_of_find?_eq_some hfound)
  rw [hsame]
  exact hpairnode found hfound

theorem nodeLoose_of_form {x : Xml} (h : NodeForm stream x) :
    NodeLoose stream x := by
  rcases h with ⟨hname, haddress, hone, hchildren⟩
  exact ⟨hname, haddress.left, hone,
    fun child hchild _ => (hchildren child hchild).right.left⟩

/-- A node that is loosely right is taken, and has the form, exactly when there
is nothing in it that the parser minds or overlooks. -/
theorem nodePlain_iff {x : Xml} (hloose : NodeLoose stream x) :
    NodeTaken stream x ∧ NodeForm stream x <-> NodePlain stream x := by
  rcases hloose with ⟨hname, haddress, hone, hpairnode⟩
  constructor
  · intro h
    rcases h with ⟨⟨_, _, hcontents, _⟩, ⟨_, hform, _, hchildren⟩⟩
    refine ⟨?_, ?_, hform.right⟩
    · intro child hchild _
      exact Nat.le_antisymm hcontents (List.length_pos_of_mem hchild)
    · intro child hchild
      rcases hchildren child hchild with ⟨hkey, hform⟩
      exact ⟨hkey, hform.right⟩
  · intro h
    rcases h with ⟨hcomments, hchildren, hconfig⟩
    have hcontents : x.contents.length <= 1 := by
      by_cases hany : exists child, child ∈ x.contents ∧ child.isComment = true
      · rcases hany with ⟨child, hchild, hcomment⟩
        exact Nat.le_of_eq (hcomments child hchild hcomment)
      · have hall : x.children = x.contents := by
          apply List.filter_eq_self.mpr
          intro child hchild
          have hnot : ¬ child.isComment = true :=
            fun hcomment => hany ⟨child, hchild, hcomment⟩
          rw [Bool.eq_false_iff.mpr hnot]
          rfl
        rw [hall] at hone
        exact hone
    constructor
    · refine ⟨hname, haddress, hcontents, ?_⟩
      intro child hchild
      rcases mem_children_of_pairnodeOf hchild with ⟨hmem, hkey⟩
      exact hpairnode child hmem hkey
    · refine ⟨hname, ⟨haddress, hconfig⟩, hone, ?_⟩
      intro child hchild
      rcases hchildren child hchild with ⟨hkey, hconfig⟩
      exact ⟨hkey, hpairnode child hchild hkey, hconfig⟩

end Comments

end Parser
end Protort
