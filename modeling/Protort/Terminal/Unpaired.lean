import Protort.Terminal.Deployable

/-!
# Configurations without backups

Where no node has a backup, the index of the terminal is the lists of the
configuration under their names.  A name may stand in a list more than once; then
the last entry is found.
-/

namespace Protort
namespace Terminal

open Lib (Table lastEntry)

def Unpaired (cfg : Parser.Configuration) : Prop :=
  forall n, n ∈ cfg.nodes -> n.pairnode = none

def lastPlace (cfg : Parser.Configuration) (c : String) : String :=
  ((lastEntry (fun m => m.compName) cfg.mappings c).map
    (fun m => m.nodeName)).getD ""

def lastHost (cfg : Parser.Configuration) (x : String) : Parser.Address :=
  ((lastEntry (fun n => n.name) cfg.nodes x).map
    (fun n => n.host)).getD default

def lastKind (cfg : Parser.Configuration) (c : String) : String :=
  ((lastEntry (fun comp => comp.name) cfg.components c).map
    (fun comp => comp.kind)).getD ""

variable {cfg : Parser.Configuration}

theorem get_insertAll_empty {item : Type} {value : Type} [Inhabited value]
    (keyOf : item -> String) (valueOf : item -> value) (xs : List item)
    (k : String) :
    Table.get (Table.insertAll keyOf valueOf ∅ xs) k =
      ((lastEntry keyOf xs k).map valueOf).getD default := by
  unfold Table.get
  rw [Table.lookup_insertAll]
  have hempty : (∅ : Table String value).lookup k = none :=
    Finmap.lookup_empty k
  rw [hempty, Option.or_none]

theorem get_mapComponents_kind (cfg : Parser.Configuration) (c : String) :
    (Table.get (parseDeploy cfg).mapComponents c).kind = lastKind cfg c := by
  rw [(parseDeploy_indexed cfg).components]
  show (Table.get (Table.insertAll _ id ∅ cfg.components) c).kind = _
  rw [get_insertAll_empty]
  unfold lastKind
  cases lastEntry (fun comp : Parser.Component => comp.name) cfg.components c
    with
  | none => rfl
  | some comp => rfl

namespace Unpaired

theorem get_mapNode (h : Unpaired cfg) (x : String) :
    Table.get (parseDeploy cfg).mapNode x =
      (lastEntry (fun n => n.name) cfg.nodes x).getD default := by
  have hexpand : forall nodes : List Parser.Node,
      (forall n, n ∈ nodes -> n.pairnode = none) ->
        nodes.flatMap expandNode = nodes := by
    intro nodes hnodes
    induction nodes with
    | nil => rfl
    | cons n rest ih =>
        rw [List.flatMap_cons,
          ih (fun y hy => hnodes y (List.mem_cons_of_mem n hy))]
        unfold expandNode
        rw [hnodes n List.mem_cons_self]
        rfl
  rw [(parseDeploy_indexed cfg).getNode]
  show Table.get (cfg.nodes.foldl DeployConfiguration.addNode ∅) x = _
  rw [DeployConfiguration.foldl_addNode_eq, hexpand cfg.nodes h,
    get_insertAll_empty, Option.map_id]
  rfl

theorem host_mapNode (h : Unpaired cfg) (x : String) :
    (Table.get (parseDeploy cfg).mapNode x).host = lastHost cfg x := by
  rw [h.get_mapNode]
  unfold lastHost
  cases lastEntry (fun n : Parser.Node => n.name) cfg.nodes x with
  | none => rfl
  | some n => rfl

theorem name_mapNode (h : Unpaired cfg) {x : String}
    (hx : x = "" ∨ exists n, n ∈ cfg.nodes ∧ n.name = x) :
    (Table.get (parseDeploy cfg).mapNode x).name = x := by
  rw [h.get_mapNode]
  cases hlast : lastEntry (fun n : Parser.Node => n.name) cfg.nodes x with
  | some n => exact (Lib.lastEntry_eq_some hlast).right
  | none =>
      rcases hx with rfl | hdeclared
      · rfl
      · have hsome := Lib.lastEntry_isSome_iff.mpr hdeclared
        rw [hlast] at hsome
        cases hsome

theorem expandMappings_eq (h : Unpaired cfg) :
    (indexStart cfg).expandMappings cfg.mappings = cfg.mappings := by
  have hpaired : forall x, (indexStart cfg).paired x = false := by
    intro x
    unfold DeployConfiguration.paired
    rw [← (parseDeploy_indexed cfg).getNode, h.get_mapNode]
    cases hlast : lastEntry (fun n : Parser.Node => n.name) cfg.nodes x with
    | none => rfl
    | some n =>
        show n.pairnode.isSome = false
        rw [h n (Lib.lastEntry_eq_some hlast).left]
        rfl
  unfold DeployConfiguration.expandMappings
  induction cfg.mappings with
  | nil => rfl
  | cons m rest ih =>
      rw [List.flatMap_cons, ih]
      unfold expandMapping
      rw [hpaired]
      rfl

theorem get_mapComponentNode (h : Unpaired cfg) (c : String) :
    (Table.get (parseDeploy cfg).mapComponentNode c).nodeName =
      lastPlace cfg c := by
  rw [(parseDeploy_indexed cfg).componentNode, h.expandMappings_eq]
  show (Table.get (Table.insertAll _ id ∅ cfg.mappings) c).nodeName = _
  rw [get_insertAll_empty]
  unfold lastPlace
  cases lastEntry (fun m : Parser.Mapping => m.compName) cfg.mappings c with
  | none => rfl
  | some m => rfl

theorem listed_mapNodeWithComponents (h : Unpaired cfg) (x : String) :
    (Table.get (parseDeploy cfg).mapNodeWithComponents x).map
      (fun m => m.compName) = placedComponents cfg x := by
  rw [(parseDeploy_indexed cfg).nodeWithComponents, h.expandMappings_eq]
  show (Table.get (Table.collect _ ∅ cfg.mappings) x).map _ = _
  rw [Table.get_collect]
  rfl

end Unpaired

end Terminal
end Protort
