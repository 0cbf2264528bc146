import Mathlib.Data.List.Nodup
import Protort.Terminal.Index

/-!
# Configurations that can be deployed

The conditions under which a configuration names everything it uses exactly
once, and what the index of the terminal holds for such a configuration: every
lookup finds the declared entry.
-/

namespace Protort
namespace Terminal

open Lib (Table)

/-- Every name is declared once, every component is placed once, and everything
that is used is declared.  A node with a backup must not find the name of the
backup taken. -/
structure Deployable (env : Platform) (cfg : Parser.Configuration) : Prop where
  componentNames : (cfg.components.map (fun c => c.name)).Nodup
  nodeNames : (cfg.nodes.map (fun n => n.name)).Nodup
  backupNames : forall n, n ∈ cfg.nodes -> n.pairnode.isSome ->
    forall m, m ∈ cfg.nodes -> m.name ≠ pairnodeName n.name
  kinds : forall c, c ∈ cfg.components ->
    (Components.getComponentKind c.kind).isSome
  addresses : forall n, n ∈ cfg.nodes ->
    (env.fromString n.host.ipAddress).isSome
  mappedOnce : forall c, c ∈ cfg.components ->
    cfg.mappings.countP (fun m => m.compName = c.name) = 1
  mappedComponents : forall m, m ∈ cfg.mappings ->
    exists c, c ∈ cfg.components ∧ c.name = m.compName
  mappedNodes : forall m, m ∈ cfg.mappings ->
    exists n, n ∈ cfg.nodes ∧ n.name = m.nodeName
  sources : forall conn, conn ∈ cfg.connections ->
    exists c, c ∈ cfg.components ∧ c.name = conn.source
  destinations : forall conn, conn ∈ cfg.connections ->
    exists c, c ∈ cfg.components ∧ c.name = conn.dest

def placedOn (cfg : Parser.Configuration) (comp : String) : String :=
  (Table.get (parseDeploy cfg).mapComponentNode comp).nodeName

def placedComponents (cfg : Parser.Configuration) (node : String) :
    List String :=
  (cfg.mappings.filter (fun m => m.nodeName = node)).map (fun m => m.compName)

def connectionsFrom (cfg : Parser.Configuration) (comp : String) :
    List Parser.Connection :=
  cfg.connections.filter (fun conn => decide (conn.source = comp))

/-!
## The index under no assumption
-/

def indexStart (cfg : Parser.Configuration) : DeployConfiguration :=
  { mapComponentNode := ∅
    mapComponents := Table.insertAll (fun component => component.name) id ∅
      cfg.components
    mapNode := cfg.nodes.foldl DeployConfiguration.addNode ∅
    mapNodeWithComponents := ∅
    mapComponentWithConnections :=
      Table.collect (fun connection => connection.source) ∅ cfg.connections }

theorem parseDeploy_indexed (cfg : Parser.Configuration) :
    DeployConfiguration.Indexed (indexStart cfg) (parseDeploy cfg)
      cfg.mappings :=
  DeployConfiguration.indexed_foldl_addMapping (indexStart cfg) cfg.mappings

theorem get_mapComponentWithConnections
    (cfg : Parser.Configuration) (comp : String) :
    Table.get (parseDeploy cfg).mapComponentWithConnections comp =
      connectionsFrom cfg comp := by
  rw [(parseDeploy_indexed cfg).connections]
  have h := Table.get_collect
    (fun connection : Parser.Connection => connection.source) ∅
    cfg.connections comp
  exact h

/-!
## Lists of expanded mappings
-/

theorem filter_expandMapping_declared {paired : String -> Bool} {name : String}
    {ms : List Parser.Mapping}
    (h : forall m, m ∈ ms -> paired m.nodeName = true ->
      pairnodeName m.nodeName ≠ name) :
    (ms.flatMap (expandMapping paired)).filter
        (fun m => decide (m.nodeName = name)) =
      ms.filter (fun m => decide (m.nodeName = name)) := by
  induction ms with
  | nil => rfl
  | cons m rest ih =>
      have hrest := ih (fun x hx => h x (List.mem_cons_of_mem m hx))
      rw [List.flatMap_cons, List.filter_append, hrest]
      by_cases hp : paired m.nodeName = true
      · have hne := h m List.mem_cons_self hp
        unfold expandMapping
        rw [if_pos hp]
        by_cases hm : m.nodeName = name
        · subst name
          simp [hne]
        · simp [hm, hne]
      · unfold expandMapping
        rw [if_neg hp]
        by_cases hm : m.nodeName = name
        · simp [hm]
        · simp [hm]

theorem filter_expandMapping_backup {paired : String -> Bool} {name : String}
    {ms : List Parser.Mapping} (hname : paired name = true)
    (h : forall m, m ∈ ms -> m.nodeName ≠ pairnodeName name) :
    (ms.flatMap (expandMapping paired)).filter
        (fun m => decide (m.nodeName = pairnodeName name)) =
      (ms.filter (fun m => decide (m.nodeName = name))).map
        (fun m => ⟨m.compName, pairnodeName name⟩) := by
  induction ms with
  | nil => rfl
  | cons m rest ih =>
      have hrest := ih (fun x hx => h x (List.mem_cons_of_mem m hx))
      have hne := h m List.mem_cons_self
      rw [List.flatMap_cons, List.filter_append, hrest]
      by_cases hm : m.nodeName = name
      · have hself : name ≠ pairnodeName name := hm ▸ hne
        simp [expandMapping, hm, hname, hself]
      · have hpair : pairnodeName m.nodeName ≠ pairnodeName name :=
          fun heq => hm (pairnodeName_injective heq)
        by_cases hp : paired m.nodeName = true
        · simp [expandMapping, hp, hm, hne, hpair]
        · simp [expandMapping, hp, hm, hne]

/-- The mapping itself is entered after the one to the backup, so with distinct
component names it is the one that is kept. -/
theorem lookup_insertAll_expandMapping
    {paired : String -> Bool} {ms : List Parser.Mapping} {m : Parser.Mapping}
    (t : Table String Parser.Mapping)
    (hnames : (ms.map (fun m => m.compName)).Nodup) (hm : m ∈ ms) :
    (Table.insertAll (fun m => m.compName) id t
      (ms.flatMap (expandMapping paired))).lookup m.compName = some m := by
  induction ms generalizing t with
  | nil => cases hm
  | cons x rest ih =>
      rw [List.map_cons, List.nodup_cons] at hnames
      have hsplit :
          Table.insertAll (fun m => m.compName) id t
              ((x :: rest).flatMap (expandMapping paired)) =
            Table.insertAll (fun m => m.compName) id
              (Table.insertAll (fun m => m.compName) id t
                (expandMapping paired x))
              (rest.flatMap (expandMapping paired)) := by
        unfold Table.insertAll
        rw [List.flatMap_cons, List.foldl_append]
      rw [hsplit]
      rcases List.mem_cons.mp hm with rfl | hrest
      · have hlater : forall y,
            y ∈ rest.flatMap (expandMapping paired) ->
              y.compName ≠ m.compName := by
          intro y hy heq
          rcases List.mem_flatMap.mp hy with ⟨z, hz, hyz⟩
          apply hnames.left
          rw [← heq, compName_of_mem_expandMapping hyz]
          exact List.mem_map_of_mem hz
        rw [Table.lookup_insertAll_of_forall_ne _ hlater]
        unfold expandMapping Table.insertAll
        by_cases hp : paired m.nodeName = true
        · rw [if_pos hp]
          exact Finmap.lookup_insert _
        · rw [if_neg hp]
          exact Finmap.lookup_insert _
      · exact ih _ hnames.right hrest

/-!
## The index of a deployable configuration
-/

namespace Deployable

variable {env : Platform} {cfg : Parser.Configuration}

theorem mappingNames (h : Deployable env cfg) :
    (cfg.mappings.map (fun m => m.compName)).Nodup := by
  rw [List.nodup_iff_count_le_one]
  intro name
  by_cases hname : name ∈ cfg.mappings.map (fun m => m.compName)
  · rcases List.mem_map.mp hname with ⟨m, hm, rfl⟩
    rcases h.mappedComponents m hm with ⟨c, hc, hcm⟩
    have honce := h.mappedOnce c hc
    rw [List.count, List.countP_map, ← hcm]
    have hpred : ((fun x => x == c.name) ∘
        fun m : Parser.Mapping => m.compName) =
          fun m => decide (m.compName = c.name) := by
      funext x
      exact beq_eq_decide x.compName c.name
    rw [hpred, honce]
  · rw [List.count_eq_zero_of_not_mem hname]
    exact Nat.zero_le 1

theorem expandedNames (h : Deployable env cfg) :
    ((cfg.nodes.flatMap expandNode).map (fun n => n.name)).Nodup := by
  have hback := h.backupNames
  have hnames := h.nodeNames
  generalize cfg.nodes = nodes at hback hnames
  rw [List.map_flatMap, List.nodup_flatMap]
  constructor
  · intro n _
    unfold expandNode
    cases hpair : n.pairnode with
    | none => simp
    | some host => simp [backupNode, pairnodeName_ne_self]
  · rw [List.Nodup, List.pairwise_map] at hnames
    refine List.Pairwise.imp_of_mem ?_ hnames
    intro n m hn hm hne name hname hname'
    rcases List.mem_map.mp hname with ⟨x, hx, rfl⟩
    rcases List.mem_map.mp hname' with ⟨y, hy, hyx⟩
    rcases mem_expandNode.mp hx with rfl | ⟨host, hpair, rfl⟩
    · rcases mem_expandNode.mp hy with rfl | ⟨host, hpair, rfl⟩
      · exact hne hyx.symm
      · exact hback m hm (by simp [hpair]) x hn hyx.symm
    · rcases mem_expandNode.mp hy with rfl | ⟨host', hpair', rfl⟩
      · exact hback n hn (by simp [hpair]) y hm hyx
      · exact hne (pairnodeName_injective hyx.symm)

theorem get_mapNode_of_mem (h : Deployable env cfg) {x : Parser.Node}
    (hx : x ∈ cfg.nodes.flatMap expandNode) :
    Table.get (parseDeploy cfg).mapNode x.name = x := by
  rw [(parseDeploy_indexed cfg).getNode]
  apply Table.get_of_lookup
  have hlookup :
      (Table.insertAll (fun n => n.name) id ∅
        (cfg.nodes.flatMap expandNode)).lookup x.name = some x :=
    Table.lookup_insertAll_of_mem ∅ h.expandedNames hx
  rw [← DeployConfiguration.foldl_addNode_eq] at hlookup
  exact hlookup

theorem get_mapNode (h : Deployable env cfg) {n : Parser.Node}
    (hn : n ∈ cfg.nodes) : Table.get (parseDeploy cfg).mapNode n.name = n :=
  h.get_mapNode_of_mem
    (List.mem_flatMap.mpr ⟨n, hn, mem_expandNode.mpr (Or.inl rfl)⟩)

theorem mem_mapNode (h : Deployable env cfg) {name : String} :
    name ∈ (parseDeploy cfg).mapNode <->
      exists n, n ∈ cfg.nodes ∧
        (name = n.name ∨
          n.pairnode.isSome ∧ name = pairnodeName n.name) := by
  rw [(parseDeploy_indexed cfg).memNode]
  show name ∈ cfg.nodes.foldl DeployConfiguration.addNode ∅ ∨ _ <-> _
  rw [DeployConfiguration.foldl_addNode_eq, Table.mem_insertAll]
  constructor
  · intro hcases
    rcases hcases with (hempty | ⟨x, hx, rfl⟩) | ⟨m, hm, rfl⟩
    · exact absurd hempty Finmap.notMem_empty
    · rcases List.mem_flatMap.mp hx with ⟨n, hn, hxn⟩
      exists n
      constructor
      · exact hn
      rcases mem_expandNode.mp hxn with rfl | ⟨host, hpair, rfl⟩
      · exact Or.inl rfl
      · exact Or.inr ⟨by simp [hpair], rfl⟩
    · rcases h.mappedNodes m hm with ⟨n, hn, hnm⟩
      exact ⟨n, hn, Or.inl hnm.symm⟩
  · intro h
    rcases h with ⟨n, hn, hname⟩
    apply Or.inl
    apply Or.inr
    rcases hname with rfl | ⟨hpair, rfl⟩
    · exact ⟨n, List.mem_flatMap.mpr
        ⟨n, hn, mem_expandNode.mpr (Or.inl rfl)⟩, rfl⟩
    · rcases Option.isSome_iff_exists.mp hpair with ⟨host, hhost⟩
      exact ⟨backupNode n host, List.mem_flatMap.mpr
        ⟨n, hn, mem_expandNode.mpr (Or.inr ⟨host, hhost, rfl⟩)⟩, rfl⟩

theorem placedOn_eq (h : Deployable env cfg) {m : Parser.Mapping}
    (hm : m ∈ cfg.mappings) : placedOn cfg m.compName = m.nodeName := by
  have hlookup :
      (parseDeploy cfg).mapComponentNode.lookup m.compName = some m := by
    rw [(parseDeploy_indexed cfg).componentNode]
    exact lookup_insertAll_expandMapping ∅ h.mappingNames hm
  unfold placedOn
  rw [Table.get_of_lookup hlookup]

theorem exists_mapping (h : Deployable env cfg) {c : Parser.Component}
    (hc : c ∈ cfg.components) :
    exists m, m ∈ cfg.mappings ∧ m.compName = c.name := by
  have hpos : 0 < cfg.mappings.countP (fun m => m.compName = c.name) := by
    rw [h.mappedOnce c hc]
    exact Nat.one_pos
  rcases List.countP_pos_iff.mp hpos with ⟨m, hm, hname⟩
  exact ⟨m, hm, by simpa using hname⟩

theorem mem_placedComponents {comp node : String} :
    comp ∈ placedComponents cfg node <->
      { compName := comp, nodeName := node } ∈ cfg.mappings := by
  unfold placedComponents
  rw [List.mem_map]
  constructor
  · intro h
    rcases h with ⟨m, hm, rfl⟩
    rcases List.mem_filter.mp hm with ⟨hmem, hnode⟩
    have hnode' : m.nodeName = node := by simpa using hnode
    subst node
    exact hmem
  · intro hm
    exact ⟨_, List.mem_filter.mpr ⟨hm, by simp⟩, rfl⟩

theorem placedComponents_nodup (h : Deployable env cfg) (node : String) :
    (placedComponents cfg node).Nodup :=
  h.mappingNames.sublist (List.Sublist.map _ List.filter_sublist)

theorem get_mapComponents (h : Deployable env cfg) {c : Parser.Component}
    (hc : c ∈ cfg.components) :
    Table.get (parseDeploy cfg).mapComponents c.name = c := by
  rw [(parseDeploy_indexed cfg).components]
  exact Table.get_of_lookup
    (Table.lookup_insertAll_of_mem  ∅ h.componentNames hc)

theorem paired_iff (h : Deployable env cfg) {n : Parser.Node}
    (hn : n ∈ cfg.nodes) :
    (indexStart cfg).paired n.name = n.pairnode.isSome := by
  have hnode := h.get_mapNode hn
  rw [(parseDeploy_indexed cfg).getNode] at hnode
  unfold DeployConfiguration.paired
  rw [hnode]

theorem get_mapNodeWithComponents (h : Deployable env cfg) {n : Parser.Node}
    (hn : n ∈ cfg.nodes) :
    (Table.get (parseDeploy cfg).mapNodeWithComponents n.name).map
        (fun m => m.compName) =
      placedComponents cfg n.name := by
  rw [(parseDeploy_indexed cfg).nodeWithComponents]
  have hget := Table.get_collect (fun m : Parser.Mapping => m.nodeName) ∅
    ((indexStart cfg).expandMappings cfg.mappings) n.name
  have hother : forall m, m ∈ cfg.mappings ->
      (indexStart cfg).paired m.nodeName = true ->
        pairnodeName m.nodeName ≠ n.name := by
    intro m hm hpair heq
    rcases h.mappedNodes m hm with ⟨k, hk, hkm⟩
    rw [← hkm, h.paired_iff hk] at hpair
    exact h.backupNames k hk hpair n hn (hkm ▸ heq.symm)
  have hfilter := filter_expandMapping_declared hother
  unfold DeployConfiguration.expandMappings at hget
  rw [hfilter] at hget
  exact congrArg (List.map (fun m => m.compName)) hget

theorem get_mapNodeWithComponents_backup (h : Deployable env cfg)
    {n : Parser.Node} (hn : n ∈ cfg.nodes) (hpair : n.pairnode.isSome) :
    (Table.get (parseDeploy cfg).mapNodeWithComponents
        (pairnodeName n.name)).map (fun m => m.compName) =
      placedComponents cfg n.name := by
  rw [(parseDeploy_indexed cfg).nodeWithComponents]
  have hget := Table.get_collect (fun m : Parser.Mapping => m.nodeName) ∅
    ((indexStart cfg).expandMappings cfg.mappings) (pairnodeName n.name)
  have hpaired : (indexStart cfg).paired n.name = true := by
    rw [h.paired_iff hn, hpair]
  have hother : forall m, m ∈ cfg.mappings ->
      m.nodeName ≠ pairnodeName n.name := by
    intro m hm heq
    rcases h.mappedNodes m hm with ⟨k, hk, hkm⟩
    exact h.backupNames n hn hpair k hk (hkm.trans heq)
  have hfilter := filter_expandMapping_backup hpaired hother
  unfold DeployConfiguration.expandMappings at hget
  rw [hfilter] at hget
  have hmap := congrArg
    (List.map (fun m : Parser.Mapping => m.compName)) hget
  refine hmap.trans ?_
  unfold placedComponents
  rw [Table.get_empty]
  show List.map _ ([] ++ _) = _
  rw [List.nil_append, List.map_map]
  rfl

end Deployable

end Terminal
end Protort
