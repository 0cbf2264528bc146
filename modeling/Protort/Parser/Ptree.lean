import Mathlib.Logic.Basic

/-!
# Property trees

The trees that `read_xml` makes of XML documents.  The attributes of an element
come first, under a child of their own; text goes into the data of its element;
comments are children like any other.
-/

namespace Protort
namespace Parser

inductive Ptree where
  | mk (data : String) (children : List (String × Ptree))

namespace Ptree

def data : Ptree -> String
  | mk data _ => data

def children : Ptree -> List (String × Ptree)
  | mk _ children => children

def find (t : Ptree) (key : String) : Option Ptree :=
  (t.children.find? (fun child => decide (child.1 = key))).map Prod.snd

/-- `get_child`: one child after another along the path. -/
def getChild (t : Ptree) : List String -> Option Ptree
  | [] => some t
  | key :: path => (t.find key).bind (fun child => child.getChild path)

end Ptree

/-- The name of an element, which ends where the reader finds a `>`. -/
structure ElementName where
  text : String
  ends : '>' ∉ text.toList
deriving DecidableEq

inductive Xml where
  | element (name : ElementName) (attributes : List (String × String))
      (text : String) (contents : List Xml)
  | comment (text : String)

/-- The key of the child that holds the attributes. -/
def xmlattr : String := "<xmlattr>"

def xmlcomment : String := "<xmlcomment>"

def attributeChildren (attributes : List (String × String)) :
    List (String × Ptree) :=
  match attributes with
  | [] => []
  | _ => [(xmlattr, Ptree.mk "" (attributes.map (fun attr =>
      (attr.1, Ptree.mk attr.2 []))))]

mutual

/-- `read_xml_node`. -/
def Xml.deliver : Xml -> String × Ptree
  | Xml.element name attributes text contents =>
      (name.text,
        Ptree.mk text (attributeChildren attributes ++ deliverAll contents))
  | Xml.comment text => (xmlcomment, Ptree.mk text [])

def deliverAll : List Xml -> List (String × Ptree)
  | [] => []
  | x :: rest => x.deliver :: deliverAll rest

end

/-- `read_xml` with default flags. -/
def readXml (document : List Xml) : Ptree :=
  Ptree.mk "" (deliverAll document)

mutual

def Xml.strip : Xml -> Xml
  | Xml.element name attributes text contents =>
      Xml.element name attributes text (stripAll contents)
  | Xml.comment text => Xml.comment text

def stripAll : List Xml -> List Xml
  | [] => []
  | x :: rest =>
      match x with
      | Xml.element _ _ _ _ => x.strip :: stripAll rest
      | Xml.comment _ => stripAll rest

end

/-!
## Reading documents
-/

namespace Xml

def key : Xml -> String
  | element name _ _ _ => name.text
  | comment _ => xmlcomment

def attributes : Xml -> List (String × String)
  | element _ attributes _ _ => attributes
  | comment _ => []

def contents : Xml -> List Xml
  | element _ _ _ contents => contents
  | comment _ => []

def isComment : Xml -> Bool
  | element _ _ _ _ => false
  | comment _ => true

def attr (x : Xml) (name : String) : Option String :=
  (x.attributes.find? (fun attr => decide (attr.1 = name))).map
    Prod.snd

def children (x : Xml) : List Xml :=
  x.contents.filter (fun child => !child.isComment)

end Xml

def rootOf (tag : String) (document : List Xml) : Option Xml :=
  document.find? (fun x => decide (x.key = tag))

theorem ElementName.ne_of_ends (name : ElementName) {key : String}
    (h : '>' ∈ key.toList) : name.text ≠ key := by
  intro heq
  apply name.ends
  rw [heq]
  exact h

theorem ElementName.ne_xmlattr (name : ElementName) : name.text ≠ xmlattr :=
  name.ne_of_ends (by decide)

theorem ElementName.ne_xmlcomment (name : ElementName) :
    name.text ≠ xmlcomment :=
  name.ne_of_ends (by decide)

theorem Xml.key_ne_xmlattr (x : Xml) : x.key ≠ xmlattr := by
  cases x with
  | element name attributes text contents => exact name.ne_xmlattr
  | comment text =>
      show xmlcomment ≠ xmlattr
      decide

theorem Xml.isComment_iff {x : Xml} :
    x.isComment = true <-> x.key = xmlcomment := by
  cases x with
  | element name attributes text contents =>
      exact iff_of_false nofun name.ne_xmlcomment
  | comment text => exact iff_of_true rfl rfl

theorem Xml.isComment_of_key {x : Xml} {tag : String} (hkey : x.key = tag)
    (htag : tag ≠ xmlcomment) : x.isComment = false := by
  apply Bool.eq_false_iff.mpr
  intro hcomment
  exact htag (hkey.symm.trans (Xml.isComment_iff.mp hcomment))

theorem deliver_fst (x : Xml) : x.deliver.1 = x.key := by
  cases x with
  | element name attributes text contents =>
      unfold Xml.deliver
      rfl
  | comment text =>
      unfold Xml.deliver
      rfl

theorem deliverAll_eq_map (xs : List Xml) :
    deliverAll xs = xs.map Xml.deliver := by
  induction xs with
  | nil =>
      unfold deliverAll
      rfl
  | cons x rest ih =>
      unfold deliverAll
      rw [ih, List.map_cons]

/-- The children of a tree are the attributes and the contents. -/
theorem children_deliver (x : Xml) : x.deliver.2.children =
    attributeChildren x.attributes ++ x.contents.map Xml.deliver := by
  cases x with
  | element name attributes text contents =>
      unfold Xml.deliver
      rw [deliverAll_eq_map]
      rfl
  | comment text =>
      unfold Xml.deliver
      rfl

theorem find_deliverAll (xs : List Xml) (key : String) :
    (xs.map Xml.deliver).find? (fun child => decide (child.1 = key)) =
      (xs.find? (fun x => decide (x.key = key))).map Xml.deliver := by
  rw [List.find?_map]
  congr 2
  funext x
  show decide (x.deliver.1 = key) = _
  rw [deliver_fst]

theorem find_readXml (document : List Xml) (tag : String) :
    (readXml document).find tag =
      (rootOf tag document).map (fun x => x.deliver.2) := by
  unfold readXml Ptree.find rootOf
  show ((deliverAll document).find? _).map _ = _
  rw [deliverAll_eq_map, find_deliverAll, Option.map_map]
  rfl

theorem find_deliver (x : Xml) {key : String} (h : key ≠ xmlattr) :
    x.deliver.2.find key =
      (x.contents.find? (fun child => decide (child.key = key))).map
        (fun child => child.deliver.2) := by
  unfold Ptree.find
  rw [children_deliver, List.find?_append, find_deliverAll]
  have hattributes : (attributeChildren x.attributes).find?
      (fun child => decide (child.1 = key)) = none := by
    unfold attributeChildren
    cases x.attributes with
    | nil => rfl
    | cons attr rest =>
        apply List.find?_eq_none.mpr
        intro child hchild
        rw [List.mem_singleton.mp hchild]
        exact mt of_decide_eq_true (Ne.symm h)
  rw [hattributes, Option.none_or, Option.map_map]
  rfl

theorem getChild_attr (x : Xml) (name : String) :
    x.deliver.2.getChild [xmlattr, name] =
      (x.attr name).map (fun value => Ptree.mk value []) := by
  have hcontents : (x.contents.map Xml.deliver).find?
      (fun child => decide (child.1 = xmlattr)) = none := by
    rw [find_deliverAll]
    apply Option.map_eq_none_iff.mpr
    apply List.find?_eq_none.mpr
    intro child _
    exact mt of_decide_eq_true child.key_ne_xmlattr
  unfold Ptree.getChild Ptree.find Xml.attr
  rw [children_deliver, List.find?_append, hcontents, Option.or_none]
  unfold attributeChildren
  cases hattributes : x.attributes with
  | nil => rfl
  | cons attr rest =>
      simp only [List.find?_singleton, decide_true, if_true, Option.map_some,
        Option.bind_some]
      unfold Ptree.getChild Ptree.getChild Ptree.find Ptree.children
      simp only
      rw [List.find?_map, Option.map_map, Option.map_map, Option.bind_fun_some]
      rfl

/-!
## Documents without comments
-/

namespace Xml

theorem key_strip (x : Xml) : x.strip.key = x.key := by
  cases x with
  | element name attributes text contents =>
      unfold strip
      rfl
  | comment text =>
      unfold strip
      rfl

theorem attributes_strip (x : Xml) : x.strip.attributes = x.attributes := by
  cases x with
  | element name attributes text contents =>
      unfold strip
      rfl
  | comment text =>
      unfold strip
      rfl

theorem attr_strip (x : Xml) (name : String) :
    x.strip.attr name = x.attr name := by
  unfold attr
  rw [attributes_strip]

end Xml

theorem stripAll_eq (xs : List Xml) :
    stripAll xs = (xs.filter (fun x => !x.isComment)).map Xml.strip := by
  induction xs with
  | nil =>
      unfold stripAll
      rfl
  | cons x rest ih =>
      unfold stripAll
      cases x with
      | element name attributes text contents =>
          rw [List.filter_cons_of_pos (by rfl), List.map_cons, ← ih]
      | comment text =>
          rw [List.filter_cons_of_neg (by exact Bool.false_ne_true), ← ih]

theorem Xml.contents_strip (x : Xml) :
    x.strip.contents = x.children.map Xml.strip := by
  cases x with
  | element name attributes text contents =>
      unfold Xml.strip
      exact stripAll_eq contents
  | comment text =>
      unfold Xml.strip
      rfl

theorem find_stripAll (xs : List Xml) {key : String} (h : key ≠ xmlcomment) :
    (stripAll xs).find? (fun x => decide (x.key = key)) =
      (xs.find? (fun x => decide (x.key = key))).map Xml.strip := by
  rw [stripAll_eq, List.find?_map, List.find?_filter]
  congr 2
  funext x
  show decide ((!x.isComment) = true ∧ decide (x.strip.key = key) = true) = _
  rw [x.key_strip]
  apply decide_eq_decide.mpr
  rw [decide_eq_true_iff]
  constructor
  · intro hx
    exact hx.right
  · intro hkey
    refine ⟨?_, hkey⟩
    cases hcomment : x.isComment with
    | false => rfl
    | true => exact absurd (hkey ▸ Xml.isComment_iff.mp hcomment) h

end Parser
end Protort
