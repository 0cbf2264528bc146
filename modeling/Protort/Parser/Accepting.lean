import Mathlib.Tactic.SplitIfs
import Protort.Parser.Schema

/-!
# Which documents the parser accepts

The parser is one loop over the children of an element, and takes each child or
throws, whatever the vectors hold by then.
-/

namespace Protort
namespace Parser

open Lib.Exceptions

/-!
## What the parser makes of a delivered element
-/

section Elements

variable {stream : Stream} {filename : String}

theorem getString_does (x : Xml) (name : String) :
    Does (Found x name) (textOf x name) id
      (getString x.deliver.2 [xmlattr, name]) := by
  unfold Found textOf getString
  rw [getChild_attr]
  cases x.attr name with
  | some text => exact (does_pure text).congr (iff_of_true trivial rfl)
  | none => exact does_throw nofun

theorem getPortId_does (x : Xml) (name : String) :
    Does (Number stream x name) (numberOf stream x name) id
      (getPortId stream x.deliver.2 [xmlattr, name]) := by
  unfold Number numberOf getPortId
  rw [getChild_attr]
  cases x.attr name with
  | some text =>
      simp only [Option.map_some, Option.bind_some, Ptree.data]
      cases stream text with
      | some port => exact (does_pure port).congr (iff_of_true trivial rfl)
      | none => exact does_throw nofun
  | none => exact does_throw nofun

theorem getPortIdOr_does (x : Xml) (name : String) (default : PortId) :
    Does True (((x.attr name).bind stream).getD default) id
      (getPortIdOr stream x.deliver.2 [xmlattr, name] default) := by
  unfold getPortIdOr
  rw [getChild_attr, Option.bind_map]
  exact does_pure _

theorem initAddress_does (x : Xml) :
    Does (HasAddress stream x) (addressOf stream x) id
      (initAddress stream x.deliver.2) := by
  unfold initAddress
  refine Does.congr (Does.bind (getString_does x "address")
    (Does.bind (getPortId_does x "port")
      (Does.bind (getPortIdOr_does x "config_port" 100) (does_pure _)))) ?_
  rw [and_true, and_true]
  rfl

theorem parseComponent_does (x : Xml) :
    Does (InstanceForm x) PUnit.unit
      (fun conf => { conf with
        components := conf.components ++ [componentOf x] })
      (parseComponent x.deliver.2) := by
  unfold parseComponent
  refine Does.congr (Does.bind (getString_does x "name")
    (Does.bind (getString_does x "kind") (does_modify _))) ?_
  rw [and_true]
  rfl

theorem parseConnection_does (x : Xml) :
    Does (ConnectionForm stream x) PUnit.unit
      (fun conf => { conf with
        connections := conf.connections ++ [connectionOf stream x] })
      (parseConnection stream x.deliver.2) := by
  unfold parseConnection
  refine Does.congr (Does.bind (getString_does x "source")
    (Does.bind (getPortId_does x "source_out")
      (Does.bind (getString_does x "dest")
        (Does.bind (getPortId_does x "dest_in") (does_modify _))))) ?_
  rw [and_true]
  rfl

theorem parseMap_does (x : Xml) :
    Does (MapForm x) PUnit.unit
      (fun conf => { conf with
        mappings := conf.mappings ++ [mappingOf x] })
      (parseMap x.deliver.2) := by
  unfold parseMap
  refine Does.congr (Does.bind (getString_does x "instance")
    (Does.bind (getString_does x "node") (does_modify _))) ?_
  rw [and_true]
  rfl

def addNode (node : Node) (conf : Configuration) : Configuration :=
  { conf with nodes := conf.nodes ++ [node] }

theorem length_attributeChildren {x : Xml} {name : String}
    (h : Found x name) : (attributeChildren x.attributes).length = 1 := by
  unfold attributeChildren
  cases hattributes : x.attributes with
  | nil =>
      unfold Found Xml.attr at h
      rw [hattributes] at h
      cases h
  | cons attr rest => rfl

theorem parseNode_does (x : Xml) :
    Does (NodeTaken stream x) PUnit.unit (addNode (nodeOf stream x))
      (parseNode stream x.deliver.2) := by
  have hname := getString_does x "name"
  have hlength : x.deliver.2.children.length =
      (attributeChildren x.attributes).length + x.contents.length := by
    rw [children_deliver, List.length_append, List.length_map]
  have hfind : x.deliver.2.find "pairnode" =
      (pairnodeOf x).map (fun child => child.deliver.2) :=
    find_deliver x (by decide)
  have hmany : 1 < x.contents.length -> ¬ NodeTaken stream x :=
    fun hmany h => absurd h.right.right.left (Nat.not_le_of_lt hmany)
  unfold parseNode
  simp only
  by_cases hfound : Found x "name"
  · rw [hlength, length_attributeChildren hfound]
    by_cases htwo : 1 + x.contents.length > 2
    · rw [if_pos htwo]
      refine Does.congr (Does.bind hname (does_throw (P := False) id)) ?_
      exact iff_of_false (fun h => h.right) (hmany (by omega))
    · have hzero : ¬ 1 + x.contents.length = 0 := by omega
      have hless : x.contents.length <= 1 := by omega
      rw [if_neg htwo, if_neg hzero, hfind]
      unfold NodeTaken nodeOf
      cases hpair : pairnodeOf x with
      | none =>
          refine Does.congr (Does.bind hname
            (Does.bind (initAddress_does x) (does_modify _))) ?_
          exact and_congr_right' (and_congr_right' (iff_of_true trivial
            ⟨hless, nofun⟩))
      | some child =>
          refine Does.congr (Does.bind hname
            (Does.bind (initAddress_does x)
              (Does.bind (initAddress_does child) (does_modify _)))) ?_
          apply and_congr_right'
          apply and_congr_right'
          rw [and_true]
          constructor
          · intro hchild
            refine ⟨hless, ?_⟩
            intro other hother
            rw [← Option.some.inj hother]
            exact hchild
          · intro h
            exact h.right child rfl
  · have hnot : ¬ NodeTaken stream x := fun h => hfound h.left
    split_ifs
    · exact hname.bind_throws hfound hnot _
    · exact does_throw hnot
    · exact hname.bind_throws hfound hnot _

end Elements

/-!
## Documents

Both parsers are the same loop.  What it needs to know about a child is which
children the parser takes, which it would take without the comments in them, and
which the schema has.
-/

section Documents

structure Handles (child : String × Ptree -> Parsing PUnit)
    (taken loose form plain : Xml -> Prop)
    (add : Xml -> Configuration -> Configuration) : Prop where
  attributes : forall t, Does False PUnit.unit id (child (xmlattr, t))
  element : forall x, Does (taken x) PUnit.unit (add x) (child x.deliver)
  noComment : forall x, taken x -> x.isComment = false
  takenStrip : forall x, taken x.strip <-> loose x
  addStrip : forall x, add x.strip = add x
  looseTaken : forall x, taken x -> loose x
  looseForm : forall x, form x -> loose x
  decides : forall x, loose x -> (taken x ∧ form x <-> plain x)

/-- The element with a tag has nothing in it but what the parser takes. -/
def Accepted (tag : String) (taken : Xml -> Prop) (document : List Xml) :
    Prop :=
  exists root, rootOf tag document = some root ∧ root.attributes = [] ∧
    forall x, x ∈ root.contents -> taken x

def contentsOf (tag : String) (document : List Xml) : List Xml :=
  match rootOf tag document with
  | some root => root.contents
  | none => []

def addAll (add : Xml -> Configuration -> Configuration) (xs : List Xml)
    (conf : Configuration) : Configuration :=
  xs.foldl (fun conf x => add x conf) conf

variable {tag : String} {child : String × Ptree -> Parsing PUnit}
  {taken loose form plain : Xml -> Prop}
  {add : Xml -> Configuration -> Configuration} {document : List Xml}

theorem getChild_readXml (tag : String) (document : List Xml) :
    (readXml document).getChild [tag] =
      (rootOf tag document).map (fun x => x.deliver.2) := by
  unfold Ptree.getChild
  rw [find_readXml]
  cases rootOf tag document with
  | none => rfl
  | some root => rfl

theorem parseRoot_does (tag : String)
    (h : Handles child taken loose form plain add) (document : List Xml) :
    Does (Accepted tag taken document) PUnit.unit
      (addAll add (contentsOf tag document))
      (parseRoot tag child (some (readXml document))) := by
  unfold parseRoot Accepted contentsOf
  simp only [getChild_readXml]
  cases rootOf tag document with
  | none =>
      apply does_throw
      intro hroot
      rcases hroot with ⟨root, heq, _⟩
      cases heq
  | some root =>
      simp only [Option.map_some, Option.some.injEq, exists_eq_left']
      rw [children_deliver]
      unfold attributeChildren
      cases hattributes : root.attributes with
      | nil =>
          have hloop := does_forM (f := fun x : Xml => child x.deliver)
            (fun x (_ : x ∈ root.contents) => h.element x)
          have hmap : (root.contents.map Xml.deliver).forM child =
              root.contents.forM (fun x => child x.deliver) :=
            List.forM_map
          rw [List.nil_append, hmap]
          exact hloop.congr (iff_and_self.mpr (fun _ => rfl))
      | cons attr rest =>
          have hnot : ¬ (attr :: rest = [] ∧
              forall x, x ∈ root.contents -> taken x) := by
            intro hnone
            cases hnone.left
          exact (h.attributes _).bind_throws not_false hnot _

theorem caught_fst {P : Prop} {g : Configuration -> Configuration}
    {m : Parsing PUnit} (h : Does P PUnit.unit g m) (conf : Configuration) :
    (caught (m conf)).1 = true <-> P := by
  by_cases hp : P
  · rw [(h conf).left hp]
    exact iff_of_true rfl hp
  · rcases (h conf).right hp with ⟨e, conf', he⟩
    rw [he]
    exact iff_of_false nofun hp

theorem caught_snd {P : Prop} {g : Configuration -> Configuration}
    {m : Parsing PUnit} (h : Does P PUnit.unit g m) {conf : Configuration}
    (hp : P) : (caught (m conf)).2 = g conf := by
  rw [(h conf).left hp]
  rfl

theorem rootOf_stripAll (htag : tag ≠ xmlcomment) (document : List Xml) :
    rootOf tag (stripAll document) = (rootOf tag document).map Xml.strip :=
  find_stripAll document htag

theorem accepted_stripAll (h : Handles child taken loose form plain add)
    (htag : tag ≠ xmlcomment) :
    Accepted tag taken (stripAll document) <->
      Conforms tag loose document := by
  unfold Accepted Conforms
  rw [rootOf_stripAll htag]
  cases rootOf tag document with
  | none =>
      apply iff_of_false
      · intro hroot
        rcases hroot with ⟨root, heq, _⟩
        cases heq
      · intro hroot
        rcases hroot with ⟨root, heq, _⟩
        cases heq
  | some root =>
      simp only [Option.map_some, Option.some.injEq, exists_eq_left']
      rw [root.attributes_strip, root.contents_strip, List.forall_mem_map]
      simp only [h.takenStrip]

theorem accepted_iff (h : Handles child taken loose form plain add) :
    Accepted tag taken document <->
      exists root, rootOf tag document = some root ∧ root.attributes = [] ∧
        (forall x, x ∈ root.contents -> x.isComment = false) ∧
        forall x, x ∈ root.children -> taken x := by
  unfold Accepted Xml.children
  refine exists_congr fun root => and_congr_right' (and_congr_right' ?_)
  simp only [List.mem_filter, Bool.not_eq_true']
  constructor
  · intro htaken
    exact ⟨fun x hx => h.noComment x (htaken x hx),
      fun x hx => htaken x hx.left⟩
  · intro hboth x hx
    exact hboth.right x ⟨hx, hboth.left x hx⟩

theorem contentsOf_accepted (h : Handles child taken loose form plain add)
    (haccepted : Accepted tag taken document) :
    contentsOf tag document = childrenOf tag document := by
  rcases (accepted_iff h).mp haccepted with ⟨root, hroot, _, hcomments, _⟩
  unfold contentsOf childrenOf
  rw [hroot]
  symm
  apply List.filter_eq_self.mpr
  intro x hx
  rw [hcomments x hx]
  rfl

theorem addAll_stripAll (h : Handles child taken loose form plain add)
    (htag : tag ≠ xmlcomment) :
    addAll add (contentsOf tag (stripAll document)) =
      addAll add (childrenOf tag document) := by
  funext conf
  unfold addAll contentsOf childrenOf
  rw [rootOf_stripAll htag]
  cases rootOf tag document with
  | none => rfl
  | some root =>
      simp only [Option.map_some]
      rw [root.contents_strip, List.foldl_map]
      simp only [h.addStrip]

theorem conforms_of_accepted (h : Handles child taken loose form plain add)
    (haccepted : Accepted tag taken document) :
    Conforms tag loose document := by
  rcases (accepted_iff h).mp haccepted with
    ⟨root, hroot, hattributes, _, htaken⟩
  exact ⟨root, hroot, hattributes, fun x hx => h.looseTaken x (htaken x hx)⟩

theorem conforms_of_form (h : Handles child taken loose form plain add)
    (hform : Conforms tag form document) : Conforms tag loose document := by
  rcases hform with ⟨root, hroot, hattributes, hform⟩
  exact ⟨root, hroot, hattributes, fun x hx => h.looseForm x (hform x hx)⟩

/-- What is loosely right is taken and in the schema when there is nothing in it
that the parser minds or overlooks. -/
theorem accepted_and_form_iff (h : Handles child taken loose form plain add)
    (hloose : Conforms tag loose document) :
    Accepted tag taken document ∧ Conforms tag form document <->
      Plain tag plain document := by
  rcases hloose with ⟨root, hroot, hattributes, hloose⟩
  constructor
  · intro hboth
    rcases (accepted_iff h).mp hboth.left with ⟨r, hr, _, hnone, htaken⟩
    rcases Option.some.inj (hroot.symm.trans hr) with rfl
    rcases hboth.right with ⟨r, hr, _, hform⟩
    rcases Option.some.inj (hroot.symm.trans hr) with rfl
    intro r hr
    rcases Option.some.inj (hroot.symm.trans hr) with rfl
    exact ⟨hnone, fun x hx => (h.decides x (hloose x hx)).mp
      ⟨htaken x hx, hform x hx⟩⟩
  · intro hplain
    rcases hplain root hroot with ⟨hnone, hplain⟩
    have hboth := fun x hx => (h.decides x (hloose x hx)).mpr (hplain x hx)
    exact ⟨(accepted_iff h).mpr ⟨root, hroot, hattributes, hnone,
      fun x hx => (hboth x hx).left⟩,
      ⟨root, hroot, hattributes, fun x hx => (hboth x hx).right⟩⟩

theorem followsSchema_iff (h : Handles child taken loose form plain add)
    (htag : tag ≠ xmlcomment)
    {grown : List Xml -> Configuration -> Configuration}
    (hgrown : Conforms tag loose document -> forall conf,
      addAll add (childrenOf tag document) conf = grown document conf)
    (conf : Configuration) :
    FollowsSchema
        (fun document => fun conf =>
          caught (parseRoot tag child (some (readXml document)) conf))
        (Conforms tag form) grown document conf <->
      (¬ Conforms tag loose document ∨ Plain tag plain document) := by
  have hdoes := parseRoot_does tag h document
  have hstripped := parseRoot_does tag h (stripAll document)
  have haccepts := caught_fst hdoes conf
  have hloose := (caught_fst hstripped conf).trans (accepted_stripAll h htag)
  by_cases hconforms : Conforms tag loose document
  · rw [← accepted_and_form_iff h hconforms,
      or_iff_right (not_not_intro hconforms)]
    constructor
    · intro hfollows
      have hcomments := hfollows.comments
      unfold outcome at hcomments
      rw [if_pos (hloose.mpr hconforms)] at hcomments
      by_cases haccepted : Accepted tag taken document
      · exact ⟨haccepted, hfollows.accepts.mp (haccepts.mpr haccepted)⟩
      · rw [if_neg (fun hfst => haccepted (haccepts.mp hfst))] at hcomments
        cases hcomments
    · intro hboth
      rcases hboth with ⟨haccepted, hform⟩
      have hend : (caught (parseRoot tag child (some (readXml document))
          conf)).2 = grown document conf := by
        rw [caught_snd hdoes haccepted, contentsOf_accepted h haccepted,
          hgrown hconforms]
      refine ⟨haccepts.trans (iff_of_true haccepted hform), fun _ => hend, ?_⟩
      unfold outcome
      rw [if_pos (hloose.mpr hconforms), if_pos (haccepts.mpr haccepted), hend,
        caught_snd hstripped ((accepted_stripAll h htag).mpr hconforms),
        addAll_stripAll h htag, hgrown hconforms]
  · refine iff_of_true ?_ (Or.inl hconforms)
    have haccepted : ¬ Accepted tag taken document :=
      fun haccepted => hconforms (conforms_of_accepted h haccepted)
    have hform : ¬ Conforms tag form document :=
      fun hform => hconforms (conforms_of_form h hform)
    refine ⟨haccepts.trans (iff_of_false haccepted hform),
      fun hfst => absurd (haccepts.mp hfst) haccepted, ?_⟩
    unfold outcome
    rw [if_neg (fun hfst => hconforms (hloose.mp hfst)),
      if_neg (fun hfst => haccepted (haccepts.mp hfst))]

end Documents

/-!
## Applications and deployments
-/

section Schemes

variable {stream : Stream} {filename : String}

def DeployTaken (stream : Stream) (x : Xml) : Prop :=
  (x.key = "map" ∧ MapForm x) ∨ (x.key = "node" ∧ NodeTaken stream x)

def addApp (stream : Stream) (x : Xml) (conf : Configuration) : Configuration :=
  if x.key = "instance" then
    { conf with components := conf.components ++ [componentOf x] }
  else
    { conf with connections := conf.connections ++ [connectionOf stream x] }

def addDeploy (stream : Stream) (x : Xml) (conf : Configuration) :
    Configuration :=
  if x.key = "node" then
    addNode (nodeOf stream x) conf
  else
    { conf with mappings := conf.mappings ++ [mappingOf x] }

theorem app_handles :
    Handles (parseAppChild stream filename) (AppForm stream) (AppForm stream)
      (AppForm stream) (fun _ => True) (addApp stream) where
  attributes := by
    intro t
    exact does_throw not_false
  element := by
    intro x
    unfold AppForm addApp parseAppChild
    rw [deliver_fst]
    by_cases hinstance : x.key = "instance"
    · simp only [if_pos hinstance]
      refine (parseComponent_does x).congr ?_
      rw [hinstance]
      simp
    · simp only [if_neg hinstance]
      by_cases hconnection : x.key = "connection"
      · rw [if_pos hconnection]
        refine (parseConnection_does x).congr ?_
        rw [hconnection]
        simp
      · rw [if_neg hconnection]
        apply does_throw
        intro h
        rcases h with ⟨hkey, _⟩ | ⟨hkey, _⟩
        · exact hinstance hkey
        · exact hconnection hkey
  noComment := by
    intro x h
    rcases h with ⟨hkey, _⟩ | ⟨hkey, _⟩
    · exact Xml.isComment_of_key hkey (by decide)
    · exact Xml.isComment_of_key hkey (by decide)
  takenStrip := by
    intro x
    unfold AppForm InstanceForm ConnectionForm
    simp only [x.key_strip, found_strip, number_strip]
  addStrip := by
    intro x
    unfold addApp componentOf connectionOf
    simp only [x.key_strip, textOf_strip, numberOf_strip]
  looseTaken := fun _ h => h
  looseForm := fun _ h => h
  decides := fun _ h => iff_of_true ⟨h, h⟩ trivial

theorem deploy_handles :
    Handles (parseDeployChild stream filename) (DeployTaken stream)
      (DeployLoose stream) (DeployForm stream) (DeployPlain stream)
      (addDeploy stream) where
  attributes := by
    intro t
    exact does_throw not_false
  element := by
    intro x
    unfold DeployTaken addDeploy parseDeployChild
    rw [deliver_fst]
    by_cases hnode : x.key = "node"
    · simp only [if_pos hnode]
      refine (parseNode_does x).congr ?_
      rw [hnode]
      simp
    · simp only [if_neg hnode]
      by_cases hmap : x.key = "map"
      · rw [if_pos hmap]
        refine (parseMap_does x).congr ?_
        rw [hmap]
        simp
      · rw [if_neg hmap]
        apply does_throw
        intro h
        rcases h with ⟨hkey, _⟩ | ⟨hkey, _⟩
        · exact hmap hkey
        · exact hnode hkey
  noComment := by
    intro x h
    rcases h with ⟨hkey, _⟩ | ⟨hkey, _⟩
    · exact Xml.isComment_of_key hkey (by decide)
    · exact Xml.isComment_of_key hkey (by decide)
  takenStrip := by
    intro x
    unfold DeployTaken DeployLoose MapForm
    rw [x.key_strip, found_strip, found_strip, nodeTaken_strip]
  addStrip := by
    intro x
    unfold addDeploy mappingOf
    simp only [x.key_strip, textOf_strip, nodeOf_strip]
  looseTaken := by
    intro x h
    exact h.imp_right (fun h => ⟨h.left, nodeLoose_of_taken h.right⟩)
  looseForm := by
    intro x h
    exact h.imp_right (fun h => ⟨h.left, nodeLoose_of_form h.right⟩)
  decides := by
    intro x h
    unfold DeployTaken DeployForm DeployPlain
    rcases h with ⟨hkey, hmap⟩ | ⟨hkey, hloose⟩
    · rw [hkey]
      exact iff_of_true ⟨Or.inl ⟨rfl, hmap⟩, Or.inl ⟨rfl, hmap⟩⟩
        (fun h => absurd h (by decide))
    · rw [hkey, ← nodePlain_iff hloose]
      simp

theorem addAll_app {xs : List Xml}
    (h : forall x, x ∈ xs -> AppForm stream x) (conf : Configuration) :
    addAll (addApp stream) xs conf =
      { conf with
        components := conf.components ++ (named "instance" xs).map componentOf
        connections := conf.connections ++
          (named "connection" xs).map (connectionOf stream) } := by
  induction xs generalizing conf with
  | nil =>
      unfold named
      simp [addAll]
  | cons x rest ih =>
      have hstep : addAll (addApp stream) (x :: rest) conf =
          addAll (addApp stream) rest (addApp stream x conf) := rfl
      rw [hstep, ih (fun y hy => h y (List.mem_cons_of_mem x hy))]
      unfold addApp named
      rcases h x List.mem_cons_self with ⟨hkey, _⟩ | ⟨hkey, _⟩
      · simp [hkey]
      · simp [hkey]

theorem addAll_deploy {xs : List Xml}
    (h : forall x, x ∈ xs -> DeployLoose stream x) (conf : Configuration) :
    addAll (addDeploy stream) xs conf =
      { conf with
        nodes := conf.nodes ++ (named "node" xs).map (nodeOf stream)
        mappings := conf.mappings ++ (named "map" xs).map mappingOf } := by
  induction xs generalizing conf with
  | nil =>
      unfold named
      simp [addAll]
  | cons x rest ih =>
      have hstep : addAll (addDeploy stream) (x :: rest) conf =
          addAll (addDeploy stream) rest (addDeploy stream x conf) := rfl
      rw [hstep, ih (fun y hy => h y (List.mem_cons_of_mem x hy))]
      unfold addDeploy addNode named
      rcases h x List.mem_cons_self with ⟨hkey, _⟩ | ⟨hkey, _⟩
      · simp [hkey]
      · simp [hkey]

theorem mem_childrenOf {tag : String} {form : Xml -> Prop}
    {document : List Xml} (h : Conforms tag form document) (x : Xml)
    (hx : x ∈ childrenOf tag document) : form x := by
  rcases h with ⟨root, hroot, _, hform⟩
  unfold childrenOf at hx
  rw [hroot] at hx
  exact hform x hx

def parseAppDocument (stream : Stream) (filename : String)
    (document : List Xml) (conf : Configuration) : Bool × Configuration :=
  parseApp stream filename (some (readXml document)) conf

def parseDeployDocument (stream : Stream) (filename : String)
    (document : List Xml) (conf : Configuration) : Bool × Configuration :=
  parseDeploy stream filename (some (readXml document)) conf

/-- A document of an application that is wrong in any case, or without comments
beside its elements; and a document of a deployment likewise, where nodes have
nothing to mind or to overlook either. -/
theorem parser_follows_schema_iff (stream : Stream) (filename : String)
    (document : List Xml) (conf : Configuration) :
    (FollowsSchema (parseAppDocument stream filename)
        (Conforms "app" (AppForm stream)) (grownByApp stream) document conf <->
      (¬ Conforms "app" (AppForm stream) document ∨
        Plain "app" (fun _ => True) document)) ∧
    (FollowsSchema (parseDeployDocument stream filename)
        (Conforms "deploy" (DeployForm stream)) (grownByDeploy stream)
        document conf <->
      (¬ Conforms "deploy" (DeployLoose stream) document ∨
        Plain "deploy" (DeployPlain stream) document)) := by
  constructor
  · exact followsSchema_iff app_handles (by decide)
      (fun h conf => addAll_app (mem_childrenOf h) conf) conf
  · exact followsSchema_iff deploy_handles (by decide)
      (fun h conf => addAll_deploy (mem_childrenOf h) conf) conf

def decimal (text : String) : Option UInt32 :=
  text.toNat?.bind (fun n =>
    if n < UInt32.size then some (UInt32.ofNat n) else none)

/-- `deploy1.xml`: a comment stands where a node might. -/
def deploy1 : List Xml :=
  [Xml.comment " Схема развертывания #1 ",
    Xml.element ⟨"deploy", by decide⟩ [] "\n\n" [Xml.comment " TODO "]]

/-- This scheme is in the repository.  The parser takes it without its comment
only. -/
theorem deploy1_rejected :
    Conforms "deploy" (DeployForm decimal) deploy1 ∧
    (parseDeployDocument decimal "deploy1.xml" deploy1 default).1 = false ∧
    (parseDeployDocument decimal "deploy1.xml" (stripAll deploy1)
      default).1 = true ∧
    ¬ FollowsSchema (parseDeployDocument decimal "deploy1.xml")
      (Conforms "deploy" (DeployForm decimal)) (grownByDeploy decimal) deploy1
      default := by
  have hconforms : Conforms "deploy" (DeployForm decimal) deploy1 :=
    ⟨_, rfl, rfl, nofun⟩
  have hrejected :
      (parseDeployDocument decimal "deploy1.xml" deploy1 default).1 = false := by
    decide +kernel
  refine ⟨hconforms, hrejected, by decide +kernel, ?_⟩
  intro h
  have haccepted := h.accepts.mpr hconforms
  rw [hrejected] at haccepted
  cases haccepted

end Schemes

end Parser
end Protort
