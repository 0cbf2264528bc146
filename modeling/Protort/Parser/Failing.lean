import Protort.Parser.Accepting

/-!
# Files that the parser rejects

What a file says is appended element by element.  An element that is wrong adds
nothing, but the elements before it stay in the vectors.
-/

namespace Protort
namespace Parser

open Lib.Exceptions

/-!
## Elements that are wrong
-/

section Elements

variable {stream : Stream} {filename : String}

theorem getString_reads (t : Ptree) (path : List String) :
    Reads (getString t path) := by
  unfold getString
  cases t.getChild path with
  | some child => exact reads_pure _
  | none => exact reads_throw _

theorem getPortId_reads (t : Ptree) (path : List String) :
    Reads (getPortId stream t path) := by
  unfold getPortId
  cases t.getChild path with
  | some child =>
      simp only
      cases stream child.data with
      | some port => exact reads_pure _
      | none => exact reads_throw _
  | none => exact reads_throw _

theorem initAddress_reads (t : Ptree) : Reads (initAddress stream t) := by
  unfold initAddress
  apply (getString_reads _ _).bind
  intro _
  apply (getPortId_reads _ _).bind
  intro _
  unfold getPortIdOr
  exact (reads_pure _).bind (fun _ => reads_pure _)

theorem parseComponent_atomic (t : Ptree) : Atomic (parseComponent t) := by
  unfold parseComponent
  apply (getString_reads _ _).bind_atomic
  intro _
  apply (getString_reads _ _).bind_atomic
  intro _
  exact atomic_modify _

theorem parseConnection_atomic (t : Ptree) :
    Atomic (parseConnection stream t) := by
  unfold parseConnection
  apply (getString_reads _ _).bind_atomic
  intro _
  apply (getPortId_reads _ _).bind_atomic
  intro _
  apply (getString_reads _ _).bind_atomic
  intro _
  apply (getPortId_reads _ _).bind_atomic
  intro _
  exact atomic_modify _

theorem parseMap_atomic (t : Ptree) : Atomic (parseMap t) := by
  unfold parseMap
  apply (getString_reads _ _).bind_atomic
  intro _
  apply (getString_reads _ _).bind_atomic
  intro _
  exact atomic_modify _

theorem parseNode_atomic (t : Ptree) : Atomic (parseNode stream t) := by
  unfold parseNode
  simp only
  split_ifs
  · exact (getString_reads _ _).bind_atomic
      (fun _ => (reads_throw _).atomic)
  · exact (reads_throw _).atomic
  · apply (getString_reads _ _).bind_atomic
    intro _
    apply (initAddress_reads t).bind_atomic
    intro _
    cases t.find "pairnode" with
    | some i =>
        exact (initAddress_reads i).bind_atomic (fun _ => atomic_modify _)
    | none => exact atomic_modify _

theorem parseAppChild_atomic (v : String × Ptree) :
    Atomic (parseAppChild stream filename v) := by
  unfold parseAppChild
  split_ifs
  · exact parseComponent_atomic v.2
  · exact parseConnection_atomic v.2
  · exact (reads_throw _).atomic

theorem parseDeployChild_atomic (v : String × Ptree) :
    Atomic (parseDeployChild stream filename v) := by
  unfold parseDeployChild
  split_ifs
  · exact parseNode_atomic v.2
  · exact parseMap_atomic v.2
  · exact (reads_throw _).atomic

end Elements

/-!
## What is left in the vectors
-/

/-- The element with a tag begins with something that the parser does not
take. -/
def FailsAtOnce (tag : String) (taken : Xml -> Prop) (document : List Xml) :
    Prop :=
  forall root, rootOf tag document = some root -> root.attributes = [] ->
    forall x, root.contents.head? = some x -> ¬ taken x

def entries (conf : Configuration) : Nat :=
  conf.components.length + conf.connections.length + conf.nodes.length +
    conf.mappings.length

section Documents

variable {tag : String} {child : String × Ptree -> Parsing PUnit}
  {taken loose form plain : Xml -> Prop}
  {add : Xml -> Configuration -> Configuration} {document : List Xml}

theorem caught_snd_eq (result : EStateM.Result Failure Configuration PUnit) :
    (caught result).2 = finalState result := by
  cases result with
  | ok _ conf => rfl
  | error _ conf => rfl

/-- The vectors hold the elements that the parser has taken, up to the first one
that it has not. -/
theorem parseRoot_leaves (tag : String) (document : List Xml)
    (h : Handles child taken loose form plain add)
    (hatomic : forall v, Atomic (child v)) (conf : Configuration) :
    exists front, finalState (parseRoot tag child (some (readXml document))
        conf) = addAll add front conf ∧
      (FailsAtOnce tag taken document -> front = []) ∧
      (front = [] ->
        Accepted tag taken document ∨ FailsAtOnce tag taken document) := by
  unfold parseRoot FailsAtOnce Accepted
  simp only [getChild_readXml]
  cases rootOf tag document with
  | none =>
      refine ⟨[], rfl, fun _ => rfl, fun _ => Or.inr ?_⟩
      intro root hroot
      cases hroot
  | some root =>
      simp only [Option.map_some, Option.some.injEq, exists_eq_left',
        forall_eq']
      rw [children_deliver]
      unfold attributeChildren
      cases hattributes : root.attributes with
      | cons attr rest =>
          simp only [List.cons_append, List.nil_append]
          refine ⟨[], ?_, fun _ => rfl, fun _ => Or.inr ?_⟩
          · rcases (h.attributes _ conf).right not_false with ⟨e, conf', he⟩
            have hforM : forall t vs,
                ((xmlattr, t) :: vs).forM child conf =
                  (child (xmlattr, t) >>= fun _ => vs.forM child) conf :=
              fun _ _ => rfl
            rw [hforM, bind_error he]
            exact hatomic _ conf e conf' he
          · intro hnil
            cases hnil
      | nil =>
          have hmap : (root.contents.map Xml.deliver).forM child =
              root.contents.forM (fun x => child x.deliver) :=
            List.forM_map
          simp only [List.nil_append, forall_const, true_and]
          rw [hmap]
          rcases forM_leaves (f := fun x : Xml => child x.deliver)
            (fun x (_ : x ∈ root.contents) => h.element x)
            (fun x => hatomic x.deliver) conf with
            ⟨front, back, hsplit, hfront, hback, hfinal⟩
          refine ⟨front, hfinal, ?_, ?_⟩
          · intro hfails
            cases front with
            | nil => rfl
            | cons x rest =>
                rw [hsplit] at hfails
                exact absurd (hfront x List.mem_cons_self) (hfails x rfl)
          · intro hnil
            rw [hsplit, hnil, List.nil_append]
            exact Or.inr hback

theorem parseRoot_keeps_iff (h : Handles child taken loose form plain add)
    (hatomic : forall v, Atomic (child v))
    (hadd : forall x conf, entries (add x conf) = entries conf + 1)
    (conf : Configuration) :
    ((caught (parseRoot tag child (some (readXml document)) conf)).1 = false ->
      (caught (parseRoot tag child (some (readXml document)) conf)).2 = conf) <->
      (Accepted tag taken document ∨ FailsAtOnce tag taken document) := by
  have haccepts := caught_fst (parseRoot_does tag h document) conf
  have hall : forall xs conf,
      entries (addAll add xs conf) = entries conf + xs.length := by
    intro xs
    induction xs with
    | nil => exact fun _ => rfl
    | cons x rest ih =>
        intro conf
        show entries (addAll add rest (add x conf)) = _
        rw [ih, hadd, List.length_cons]
        omega
  rcases parseRoot_leaves tag document h hatomic conf with
    ⟨front, hfinal, hfails, hnil⟩
  rw [caught_snd_eq, hfinal]
  by_cases haccepted : Accepted tag taken document
  · apply iff_of_true
    · intro hrejected
      rw [haccepts.mpr haccepted] at hrejected
      cases hrejected
    · exact Or.inl haccepted
  · have hrejected := Bool.eq_false_iff.mpr (mt haccepts.mp haccepted)
    constructor
    · intro hkeeps
      apply hnil
      have hsize := hall front conf
      rw [hkeeps hrejected] at hsize
      exact List.length_eq_zero_iff.mp (by omega)
    · intro hcases _
      rw [hfails (hcases.resolve_left haccepted)]
      rfl

end Documents

/-!
## Applications and deployments
-/

section Schemes

variable {stream : Stream} {filename : String}

theorem entries_addApp (x : Xml) (conf : Configuration) :
    entries (addApp stream x conf) = entries conf + 1 := by
  unfold addApp entries
  split_ifs
  · simp only [List.length_append, List.length_singleton]
    omega
  · simp only [List.length_append, List.length_singleton]
    omega

theorem entries_addDeploy (x : Xml) (conf : Configuration) :
    entries (addDeploy stream x conf) = entries conf + 1 := by
  unfold addDeploy addNode entries
  split_ifs
  · simp only [List.length_append, List.length_singleton]
    omega
  · simp only [List.length_append, List.length_singleton]
    omega

/-- The parser leaves the vectors as they were when it returns false. -/
def KeepsOnFailure (parse : Option Ptree -> Configuration -> Bool × Configuration)
    (file : Option (List Xml)) (conf : Configuration) : Prop :=
  (parse (file.map readXml) conf).1 = false ->
    (parse (file.map readXml) conf).2 = conf

/-- A file that is rejected, if it can be read at all, leaves the vectors as they
were exactly when the parser stumbles over the first element of its root. -/
theorem keepsOnFailure_iff (stream : Stream) (filename : String)
    (file : Option (List Xml)) (conf : Configuration) :
    (KeepsOnFailure (parseApp stream filename) file conf <->
      forall document, file = some document ->
        Accepted "app" (AppForm stream) document ∨
          FailsAtOnce "app" (AppForm stream) document) ∧
    (KeepsOnFailure (parseDeploy stream filename) file conf <->
      forall document, file = some document ->
        Accepted "deploy" (DeployTaken stream) document ∨
          FailsAtOnce "deploy" (DeployTaken stream) document) := by
  cases file with
  | none =>
      constructor
      · apply iff_of_true
        · exact fun _ => rfl
        · intro document hfile
          cases hfile
      · apply iff_of_true
        · exact fun _ => rfl
        · intro document hfile
          cases hfile
  | some document =>
      simp only [Option.some.injEq, forall_eq']
      exact ⟨parseRoot_keeps_iff app_handles parseAppChild_atomic
          entries_addApp conf,
        parseRoot_keeps_iff deploy_handles parseDeployChild_atomic
          entries_addDeploy conf⟩

def halfApp : List Xml :=
  [Xml.element ⟨"app", by decide⟩ [] ""
    [Xml.element ⟨"instance", by decide⟩
        [("name", "a"), ("kind", "generator")] "" [],
      Xml.element ⟨"component", by decide⟩ [] "" []]]

theorem halfApp_stays :
    (parseApp decimal "app.xml" (some (readXml halfApp)) default).1 = false ∧
    (parseApp decimal "app.xml" (some (readXml halfApp)) default).2.components =
      [⟨"a", "generator"⟩] ∧
    ¬ KeepsOnFailure (parseApp decimal "app.xml") (some halfApp) default := by
  have hrejected : (parseApp decimal "app.xml" (some (readXml halfApp))
      default).1 = false := by
    decide +kernel
  have hstays : (parseApp decimal "app.xml" (some (readXml halfApp))
      default).2.components = [⟨"a", "generator"⟩] := by
    decide +kernel
  refine ⟨hrejected, hstays, ?_⟩
  intro hkeeps
  have hcomponents := congrArg Configuration.components (hkeeps hrejected)
  rw [show (some halfApp).map readXml = some (readXml halfApp) from rfl,
    hstays] at hcomponents
  cases hcomponents

end Schemes

end Parser
end Protort
