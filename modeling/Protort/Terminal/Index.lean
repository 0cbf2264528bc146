import Protort.Terminal.Deploy

/-!
# The index of a configuration

What the five maps of the terminal hold after `parseDeploy`.  The mapping loop
is a loop over an expanded list, in which the mapping to a node with a backup
is preceded by the mapping to the backup, and the node loop is one over the list
of nodes expanded in the same way.
-/

namespace Protort
namespace Terminal

open Lib (Table)

/-!
## Backup names
-/

theorem pairnodeName_injective {x y : String}
    (h : pairnodeName x = pairnodeName y) : x = y := by
  have hlist := congrArg String.toList h
  unfold pairnodeName at hlist
  rw [String.toList_append, String.toList_append] at hlist
  exact String.toList_inj.mp (List.append_cancel_left hlist)

theorem pairnodeName_ne_self (x : String) : pairnodeName x ≠ x := by
  intro h
  have hlength := congrArg String.length h
  unfold pairnodeName at hlength
  rw [String.length_append] at hlength
  have hpos : 0 < "pairnode.".length := by decide
  omega

def backupNode (node : Parser.Node) (host : Parser.Address) : Parser.Node :=
  { name := pairnodeName node.name, host := host, pairnode := none }

def expandNode (node : Parser.Node) : List Parser.Node :=
  match node.pairnode with
  | some host => [backupNode node host, node]
  | none => [node]

theorem mem_expandNode {x node : Parser.Node} :
    x ∈ expandNode node <->
      x = node ∨ exists host, node.pairnode = some host ∧
        x = backupNode node host := by
  unfold expandNode
  cases node.pairnode with
  | none => simp
  | some host => simp [or_comm]

def expandMapping (paired : String -> Bool) (mapping : Parser.Mapping) :
    List Parser.Mapping :=
  if paired mapping.nodeName then
    [{ compName := mapping.compName
       nodeName := pairnodeName mapping.nodeName }, mapping]
  else
    [mapping]

theorem mem_expandMapping {paired : String -> Bool}
    {x mapping : Parser.Mapping} :
    x ∈ expandMapping paired mapping <->
      x = mapping ∨ paired mapping.nodeName = true ∧
        x = ⟨mapping.compName, pairnodeName mapping.nodeName⟩ := by
  unfold expandMapping
  by_cases h : paired mapping.nodeName = true
  · rw [if_pos h]
    simp [h, or_comm]
  · rw [if_neg h]
    simp [h]

theorem compName_of_mem_expandMapping {paired : String -> Bool}
    {x mapping : Parser.Mapping} (h : x ∈ expandMapping paired mapping) :
    x.compName = mapping.compName := by
  rcases mem_expandMapping.mp h with rfl | ⟨_, rfl⟩
  · rfl
  · rfl

/-!
## The loops of `parseDeploy`
-/

namespace DeployConfiguration

theorem addNode_eq (mapNode : Table String Parser.Node)
    (node : Parser.Node) :
    addNode mapNode node =
      Table.insertAll (fun x => x.name) id mapNode (expandNode node) := by
  unfold addNode expandNode
  cases node.pairnode with
  | none => rfl
  | some host => rfl

theorem foldl_addNode_eq (nodes : List Parser.Node)
    (mapNode : Table String Parser.Node) :
    nodes.foldl addNode mapNode =
      Table.insertAll (fun x => x.name) id mapNode
        (nodes.flatMap expandNode) := by
  induction nodes generalizing mapNode with
  | nil => rfl
  | cons node rest ih =>
      rw [List.foldl_cons, ih, addNode_eq, List.flatMap_cons]
      unfold Table.insertAll
      rw [List.foldl_append]

def mapAll (dc : DeployConfiguration) (mappings : List Parser.Mapping) :
    DeployConfiguration :=
  mappings.foldl map dc

theorem mapAll_mapNodeWithComponents
    (dc : DeployConfiguration) (mappings : List Parser.Mapping) :
    (dc.mapAll mappings).mapNodeWithComponents =
      Table.collect (fun m => m.nodeName) dc.mapNodeWithComponents
        mappings := by
  induction mappings generalizing dc with
  | nil => rfl
  | cons m rest ih => exact ih (dc.map m)

theorem mapAll_mapComponentNode
    (dc : DeployConfiguration) (mappings : List Parser.Mapping) :
    (dc.mapAll mappings).mapComponentNode =
      Table.insertAll (fun m => m.compName) id dc.mapComponentNode
        mappings := by
  induction mappings generalizing dc with
  | nil => rfl
  | cons m rest ih => exact ih (dc.map m)

theorem mapAll_rest
    (dc : DeployConfiguration) (mappings : List Parser.Mapping) :
    (dc.mapAll mappings).mapNode = dc.mapNode ∧
      (dc.mapAll mappings).mapComponents = dc.mapComponents ∧
      (dc.mapAll mappings).mapComponentWithConnections =
        dc.mapComponentWithConnections := by
  induction mappings generalizing dc with
  | nil => exact ⟨rfl, rfl, rfl⟩
  | cons m rest ih => exact ih (dc.map m)

def paired (dc : DeployConfiguration) (name : String) : Bool :=
  (Table.get dc.mapNode name).pairnode.isSome

theorem addMapping_eq (dc : DeployConfiguration) (m : Parser.Mapping) :
    dc.addMapping m =
      { dc with mapNode := dc.mapNode.touch m.nodeName }.mapAll
        (expandMapping dc.paired m) := by
  unfold addMapping expandMapping paired
  by_cases h : (Table.get dc.mapNode m.nodeName).pairnode.isSome = true
  · rw [if_pos h, if_pos h]
    rfl
  · rw [if_neg h, if_neg h]
    rfl

theorem addMapping_get_mapNode (dc : DeployConfiguration) (m : Parser.Mapping)
    (name : String) :
    Table.get (dc.addMapping m).mapNode name = Table.get dc.mapNode name := by
  rw [addMapping_eq, (mapAll_rest _ _).left]
  exact Table.get_touch dc.mapNode m.nodeName name

theorem addMapping_paired (dc : DeployConfiguration) (m : Parser.Mapping) :
    (dc.addMapping m).paired = dc.paired := by
  funext name
  unfold paired
  rw [addMapping_get_mapNode]

/-- The mappings after expansion, in the order in which they are entered. -/
def expandMappings (dc : DeployConfiguration)
    (mappings : List Parser.Mapping) : List Parser.Mapping :=
  mappings.flatMap (expandMapping dc.paired)

structure Indexed (dc result : DeployConfiguration)
    (mappings : List Parser.Mapping) : Prop where
  getNode : forall name,
    Table.get result.mapNode name = Table.get dc.mapNode name
  memNode : forall name,
    name ∈ result.mapNode <->
      name ∈ dc.mapNode ∨ exists m, m ∈ mappings ∧ m.nodeName = name
  components : result.mapComponents = dc.mapComponents
  connections :
    result.mapComponentWithConnections = dc.mapComponentWithConnections
  nodeWithComponents :
    result.mapNodeWithComponents =
      Table.collect (fun m => m.nodeName) dc.mapNodeWithComponents
        (dc.expandMappings mappings)
  componentNode :
    result.mapComponentNode =
      Table.insertAll (fun m => m.compName) id dc.mapComponentNode
        (dc.expandMappings mappings)

theorem indexed_foldl_addMapping
    (dc : DeployConfiguration) (mappings : List Parser.Mapping) :
    Indexed dc (mappings.foldl addMapping dc) mappings := by
  induction mappings generalizing dc with
  | nil =>
      exact
        { getNode := fun _ => rfl
          memNode := by simp
          components := rfl
          connections := rfl
          nodeWithComponents := rfl
          componentNode := rfl }
  | cons m rest ih =>
      have h := ih (dc.addMapping m)
      have hrest := mapAll_rest
        { dc with mapNode := dc.mapNode.touch m.nodeName }
        (expandMapping dc.paired m)
      have hexpand : (dc.addMapping m).expandMappings rest =
          dc.expandMappings rest := by
        unfold expandMappings
        rw [addMapping_paired]
      rw [List.foldl_cons]
      exact
        { getNode := fun name =>
            (h.getNode name).trans (addMapping_get_mapNode dc m name)
          memNode := by
            intro name
            rw [h.memNode, addMapping_eq, hrest.left, Table.mem_touch]
            constructor
            · intro hcases
              rcases hcases with (rfl | hname) | ⟨m', hm', rfl⟩
              · exact Or.inr ⟨m, List.mem_cons_self, rfl⟩
              · exact Or.inl hname
              · exact Or.inr ⟨m', List.mem_cons_of_mem m hm', rfl⟩
            · intro hcases
              rcases hcases with hname | ⟨m', hm', hname⟩
              · exact Or.inl (Or.inr hname)
              · rcases List.mem_cons.mp hm' with rfl | hrest'
                · exact Or.inl (Or.inl hname.symm)
                · exact Or.inr ⟨m', hrest', hname⟩
          components := by
            rw [h.components, addMapping_eq]
            exact hrest.right.left
          connections := by
            rw [h.connections, addMapping_eq]
            exact hrest.right.right
          nodeWithComponents := by
            rw [h.nodeWithComponents, hexpand, addMapping_eq,
              mapAll_mapNodeWithComponents]
            unfold expandMappings Table.collect
            rw [List.flatMap_cons, List.foldl_append]
          componentNode := by
            rw [h.componentNode, hexpand, addMapping_eq,
              mapAll_mapComponentNode]
            unfold expandMappings Table.insertAll
            rw [List.flatMap_cons, List.foldl_append] }

end DeployConfiguration

end Terminal
end Protort
