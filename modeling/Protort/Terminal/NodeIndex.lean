import Mathlib.Data.List.Perm.Basic
import Protort.Terminal.Deployable

/-!
# The nodes of the terminal

Setup opens a connection for every entry of the node map, in an order that is
not under control.  The map has an entry for every declared node and for every
backup, but also for a node that only a mapping names: the loop over the
mappings indexes the map, which enters a node without a name and an address.
And of the declarations of one name only the last is kept, among them a backup
whose name a node was given.
-/

namespace Protort
namespace Terminal

open Lib (Table)

structure ConfigEndpoint where
  address : Address
  port : UInt16
deriving DecidableEq, Repr

structure NodeConnection where
  name : String
  endpoint : ConfigEndpoint
deriving DecidableEq, Repr

/-- `RemoteNode::init`, which throws when the address cannot be read.  Here it
may be of either kind, while the nodes read those of version 4 alone. -/
def initRemoteNode (env : Platform) (nodeInformation : Parser.Node) :
    Option NodeConnection :=
  (env.addressFromString nodeInformation.host.ipAddress).map (fun address =>
    { name := nodeInformation.name
      endpoint :=
        { address := address
          port := nodeInformation.host.configPort.toUInt16 } })

/-- The connections that are opened before the first exception, if there is
one. -/
def initRemoteNodes (env : Platform) (nodes : List Parser.Node) :
    List NodeConnection :=
  match nodes with
  | [] => []
  | node :: rest =>
      match initRemoteNode env node with
      | some connection => connection :: initRemoteNodes env rest
      | none => []

/-- The loop of `createRemoteNodes`, over the keys of the map in some order. -/
def createRemoteNodes (env : Platform) (dc : DeployConfiguration)
    (order : List String) : List NodeConnection :=
  initRemoteNodes env (order.map (Table.get dc.mapNode))

/-- An order in which a map can be walked. -/
def WalksKeys (t : Table String Parser.Node) (order : List String) : Prop :=
  order.Nodup ∧ forall k, k ∈ order <-> k ∈ t

theorem exists_walksKeys (t : Table String Parser.Node) :
    exists order, WalksKeys t order := by
  exists t.keys.toList
  constructor
  · exact Finset.nodup_toList t.keys
  · intro k
    rw [Finset.mem_toList]
    exact Finmap.mem_keys

def declaredNodes (cfg : Parser.Configuration) : List Parser.Node :=
  cfg.nodes.flatMap expandNode

/-!
## What the index and the connections are to be
-/

/-- The keys are the declared names, and every entry is the one declared under
its key. -/
structure IndexClosed (cfg : Parser.Configuration) : Prop where
  keys : forall k, k ∈ (parseDeploy cfg).mapNode <->
    exists node, node ∈ declaredNodes cfg ∧ node.name = k
  names : forall k, k ∈ (parseDeploy cfg).mapNode ->
    (Table.get (parseDeploy cfg).mapNode k).name = k
  addresses : forall node, node ∈ declaredNodes cfg ->
    (Table.get (parseDeploy cfg).mapNode node.name).host = node.host

def OneForEach (env : Platform) (cfg : Parser.Configuration) : Prop :=
  forall order, WalksKeys (parseDeploy cfg).mapNode order ->
    ((createRemoteNodes env (parseDeploy cfg) order).map some).Perm
      ((declaredNodes cfg).map (initRemoteNode env))

structure OneForEachName (env : Platform) (cfg : Parser.Configuration)
    (order : List String) : Prop where
  opened : forall node, node ∈ declaredNodes cfg ->
    exists connection, initRemoteNode env node = some connection ∧
      (createRemoteNodes env (parseDeploy cfg) order).filter
        (fun c => decide (c.name = node.name)) = [connection]
  declared : forall connection,
    connection ∈ createRemoteNodes env (parseDeploy cfg) order ->
      exists node, node ∈ declaredNodes cfg ∧
        initRemoteNode env node = some connection

def MappingsDeclared (cfg : Parser.Configuration) : Prop :=
  forall m, m ∈ cfg.mappings ->
    exists node, node ∈ declaredNodes cfg ∧ node.name = m.nodeName

/-- What is declared under one name has one address. -/
def DeclarationsAgree (cfg : Parser.Configuration) : Prop :=
  forall x, x ∈ declaredNodes cfg -> forall y, y ∈ declaredNodes cfg ->
    x.name = y.name -> x.host = y.host

/-- Every address is one of version 6 or one of version 4. -/
def AddressesReadable (env : Platform) (cfg : Parser.Configuration) : Prop :=
  forall node, node ∈ declaredNodes cfg ->
    (env.fromStringV6 node.host.ipAddress).isSome ∨
      (env.fromString node.host.ipAddress).isSome

/-!
## The index
-/

section Index

variable {cfg : Parser.Configuration}

/-- The last declaration of a name is the one that is found. -/
theorem get_mapNode_eq (cfg : Parser.Configuration) (k : String) :
    Table.get (parseDeploy cfg).mapNode k =
      (Lib.lastEntry (fun node : Parser.Node => node.name)
        (declaredNodes cfg) k).getD default := by
  rw [(parseDeploy_indexed cfg).getNode]
  show Table.get (cfg.nodes.foldl DeployConfiguration.addNode ∅) k = _
  rw [DeployConfiguration.foldl_addNode_eq]
  unfold Table.get
  rw [Table.lookup_insertAll, Finmap.lookup_empty, Option.or_none,
    Option.map_id]
  rfl

theorem get_mapNode_declared {node : Parser.Node}
    (hnode : node ∈ declaredNodes cfg) :
    Table.get (parseDeploy cfg).mapNode node.name ∈ declaredNodes cfg ∧
      (Table.get (parseDeploy cfg).mapNode node.name).name = node.name := by
  have hsome : (Lib.lastEntry (fun node : Parser.Node => node.name)
      (declaredNodes cfg) node.name).isSome :=
    Lib.lastEntry_isSome_iff.mpr ⟨node, hnode, rfl⟩
  rcases Option.isSome_iff_exists.mp hsome with ⟨last, hlast⟩
  rw [get_mapNode_eq, hlast]
  exact Lib.lastEntry_eq_some hlast

theorem mem_mapNode_iff (cfg : Parser.Configuration) (k : String) :
    k ∈ (parseDeploy cfg).mapNode <->
      (exists node, node ∈ declaredNodes cfg ∧ node.name = k) ∨
        exists m, m ∈ cfg.mappings ∧ m.nodeName = k := by
  rw [(parseDeploy_indexed cfg).memNode]
  show k ∈ cfg.nodes.foldl DeployConfiguration.addNode ∅ ∨ _ <-> _
  rw [DeployConfiguration.foldl_addNode_eq, Table.mem_insertAll]
  have hempty : k ∉ (∅ : Table String Parser.Node) := Finmap.notMem_empty
  simp only [hempty, false_or]
  exact Iff.rfl

theorem indexClosed_iff (cfg : Parser.Configuration) :
    IndexClosed cfg <-> MappingsDeclared cfg ∧ DeclarationsAgree cfg := by
  constructor
  · intro h
    constructor
    · intro m hm
      exact (h.keys m.nodeName).mp
        ((mem_mapNode_iff cfg m.nodeName).mpr (Or.inr ⟨m, hm, rfl⟩))
    · intro x hx y hy hname
      rw [← h.addresses x hx, ← h.addresses y hy, hname]
  · intro h
    rcases h with ⟨hmapped, hagree⟩
    have hkeys : forall k, k ∈ (parseDeploy cfg).mapNode <->
        exists node, node ∈ declaredNodes cfg ∧ node.name = k := by
      intro k
      rw [mem_mapNode_iff]
      constructor
      · intro hcases
        rcases hcases with hdeclared | ⟨m, hm, rfl⟩
        · exact hdeclared
        · exact hmapped m hm
      · exact Or.inl
    exact
      { keys := hkeys
        names := by
          intro k hk
          rcases (hkeys k).mp hk with ⟨node, hnode, rfl⟩
          exact (get_mapNode_declared hnode).right
        addresses := by
          intro node hnode
          rcases get_mapNode_declared hnode with ⟨hlast, hname⟩
          exact hagree _ hlast node hnode hname }

end Index

/-!
## The connections
-/

section Connections

variable {env : Platform} {cfg : Parser.Configuration}

theorem initRemoteNode_congr {x y : Parser.Node} (hname : x.name = y.name)
    (hhost : x.host = y.host) :
    initRemoteNode env x = initRemoteNode env y := by
  unfold initRemoteNode
  rw [hname, hhost]

theorem initRemoteNode_isSome_iff {node : Parser.Node} :
    (initRemoteNode env node).isSome <->
      (env.fromStringV6 node.host.ipAddress).isSome ∨
        (env.fromString node.host.ipAddress).isSome := by
  unfold initRemoteNode
  rw [Option.isSome_map]
  exact Platform.addressFromString_isSome_iff

example : (initRemoteNode Platform.loopback
    { name := "a"
      host := { ipAddress := "::1", port := 100, configPort := 200 }
      pairnode := none }).isSome = true := by
  decide +kernel

theorem name_of_initRemoteNode {node : Parser.Node}
    {connection : NodeConnection}
    (h : initRemoteNode env node = some connection) :
    connection.name = node.name := by
  unfold initRemoteNode at h
  rcases Option.map_eq_some_iff.mp h with ⟨address, _, rfl⟩
  rfl

theorem map_some_initRemoteNodes {nodes : List Parser.Node}
    (h : forall node, node ∈ nodes -> (initRemoteNode env node).isSome) :
    (initRemoteNodes env nodes).map some =
      nodes.map (initRemoteNode env) := by
  induction nodes with
  | nil => rfl
  | cons node rest ih =>
      rcases Option.isSome_iff_exists.mp (h node List.mem_cons_self) with
        ⟨connection, hconnection⟩
      have hrest := ih (fun x hx => h x (List.mem_cons_of_mem node hx))
      unfold initRemoteNodes
      simp only [hconnection, List.map_cons, hrest]

theorem names_initRemoteNodes (env : Platform) (nodes : List Parser.Node) :
    ((initRemoteNodes env nodes).map (fun c => c.name)).Sublist
      (nodes.map (fun node => node.name)) := by
  induction nodes with
  | nil => exact List.Sublist.refl []
  | cons node rest ih =>
      unfold initRemoteNodes
      cases hinit : initRemoteNode env node with
      | none => exact List.nil_sublist _
      | some connection =>
          show List.Sublist (connection.name :: _) (node.name :: _)
          rw [name_of_initRemoteNode hinit]
          exact List.Sublist.cons_cons node.name ih

namespace IndexClosed

variable {order : List String}

theorem names_walked (h : IndexClosed cfg)
    (horder : WalksKeys (parseDeploy cfg).mapNode order) :
    (order.map (Table.get (parseDeploy cfg).mapNode)).map
      (fun node => node.name) = order := by
  rw [List.map_map]
  calc order.map _ = order.map id :=
        List.map_congr_left (fun k hk => h.names k ((horder.right k).mp hk))
    _ = order := List.map_id order

theorem names_opened_nodup (h : IndexClosed cfg)
    (horder : WalksKeys (parseDeploy cfg).mapNode order) :
    ((createRemoteNodes env (parseDeploy cfg) order).map
      (fun c => c.name)).Nodup := by
  have hnames := names_initRemoteNodes env
    (order.map (Table.get (parseDeploy cfg).mapNode))
  rw [h.names_walked horder] at hnames
  exact horder.left.sublist hnames

theorem initRemoteNode_get (h : IndexClosed cfg) {node : Parser.Node}
    (hnode : node ∈ declaredNodes cfg) :
    initRemoteNode env (Table.get (parseDeploy cfg).mapNode node.name) =
      initRemoteNode env node :=
  initRemoteNode_congr (get_mapNode_declared hnode).right
    (h.addresses node hnode)

theorem map_some_opened (h : IndexClosed cfg)
    (hread : AddressesReadable env cfg)
    (horder : WalksKeys (parseDeploy cfg).mapNode order) :
    (createRemoteNodes env (parseDeploy cfg) order).map some =
      (order.map (Table.get (parseDeploy cfg).mapNode)).map
        (initRemoteNode env) := by
  apply map_some_initRemoteNodes
  intro x hx
  rcases List.mem_map.mp hx with ⟨k, hk, rfl⟩
  rcases (h.keys k).mp ((horder.right k).mp hk) with ⟨node, hnode, rfl⟩
  rw [h.initRemoteNode_get hnode]
  exact initRemoteNode_isSome_iff.mpr (hread node hnode)

/-- A connection is opened exactly for what is declared. -/
theorem mem_opened_iff (h : IndexClosed cfg)
    (hread : AddressesReadable env cfg)
    (horder : WalksKeys (parseDeploy cfg).mapNode order)
    (connection : NodeConnection) :
    connection ∈ createRemoteNodes env (parseDeploy cfg) order <->
      exists node, node ∈ declaredNodes cfg ∧
        initRemoteNode env node = some connection := by
  have hmem : connection ∈ createRemoteNodes env (parseDeploy cfg) order <->
      some connection ∈
        (createRemoteNodes env (parseDeploy cfg) order).map some := by
    simp
  rw [hmem, h.map_some_opened hread horder]
  constructor
  · intro hconnection
    rcases List.mem_map.mp hconnection with ⟨x, hx, hinit⟩
    rcases List.mem_map.mp hx with ⟨k, hk, rfl⟩
    rcases (h.keys k).mp ((horder.right k).mp hk) with ⟨node, hnode, rfl⟩
    exact ⟨node, hnode, (h.initRemoteNode_get hnode).symm.trans hinit⟩
  · intro hdeclared
    rcases hdeclared with ⟨node, hnode, hinit⟩
    apply List.mem_map.mpr
    refine ⟨Table.get (parseDeploy cfg).mapNode node.name,
      List.mem_map_of_mem ?_, (h.initRemoteNode_get hnode).trans hinit⟩
    exact (horder.right node.name).mpr
      ((h.keys node.name).mpr ⟨node, hnode, rfl⟩)

theorem oneForEachName (h : IndexClosed cfg)
    (hread : AddressesReadable env cfg)
    (horder : WalksKeys (parseDeploy cfg).mapNode order) :
    OneForEachName env cfg order :=
  { opened := by
      intro node hnode
      have hsome : (initRemoteNode env node).isSome :=
        initRemoteNode_isSome_iff.mpr (hread node hnode)
      rcases Option.isSome_iff_exists.mp hsome with ⟨connection, hinit⟩
      have hmem := (h.mem_opened_iff hread horder connection).mpr
        ⟨node, hnode, hinit⟩
      have hone :=
        Lib.filter_key_eq_singleton (h.names_opened_nodup horder) hmem
      rw [name_of_initRemoteNode hinit] at hone
      exact ⟨connection, hinit, hone⟩
    declared := fun connection hconnection =>
      (h.mem_opened_iff hread horder connection).mp hconnection }

theorem walked_perm (h : IndexClosed cfg)
    (hnames : ((declaredNodes cfg).map (fun node => node.name)).Nodup)
    (horder : WalksKeys (parseDeploy cfg).mapNode order) :
    (order.map (Table.get (parseDeploy cfg).mapNode)).Perm
      (declaredNodes cfg) := by
  have hget : forall node, node ∈ declaredNodes cfg ->
      Table.get (parseDeploy cfg).mapNode node.name = node := by
    intro node hnode
    rcases get_mapNode_declared hnode with ⟨hlast, hname⟩
    exact List.inj_on_of_nodup_map hnames hlast hnode hname
  have hwalked := h.names_walked horder
  apply (List.perm_ext_iff_of_nodup ?_ (List.Nodup.of_map _ hnames)).mpr
  · intro node
    constructor
    · intro hnode
      rcases List.mem_map.mp hnode with ⟨k, hk, rfl⟩
      rcases (h.keys k).mp ((horder.right k).mp hk) with ⟨x, hx, rfl⟩
      exact (get_mapNode_declared hx).left
    · intro hnode
      apply List.mem_map.mpr
      refine ⟨node.name, ?_, hget node hnode⟩
      exact (horder.right node.name).mpr
        ((h.keys node.name).mpr ⟨node, hnode, rfl⟩)
  · apply List.Nodup.of_map (fun node : Parser.Node => node.name)
    rw [hwalked]
    exact horder.left

theorem oneForEach_iff (h : IndexClosed cfg) :
    OneForEach env cfg <->
      ((declaredNodes cfg).map (fun node => node.name)).Nodup ∧
        AddressesReadable env cfg := by
  constructor
  · intro hone
    rcases exists_walksKeys (parseDeploy cfg).mapNode with ⟨order, horder⟩
    have hperm := hone order horder
    have hread : AddressesReadable env cfg := by
      intro node hnode
      have hmem := hperm.mem_iff.mpr
        (List.mem_map_of_mem (f := initRemoteNode env) hnode)
      rcases List.mem_map.mp hmem with ⟨connection, _, hinit⟩
      apply initRemoteNode_isSome_iff.mp
      rw [← hinit]
      rfl
    constructor
    · have hnamed := hperm.map (Option.map (fun c => c.name))
      rw [List.map_map, List.map_map] at hnamed
      have hleft : ((createRemoteNodes env (parseDeploy cfg) order).map
          (Option.map (fun c => c.name) ∘ some)) =
          ((createRemoteNodes env (parseDeploy cfg) order).map
            (fun c => c.name)).map some := by
        rw [List.map_map]
        rfl
      have hright : ((declaredNodes cfg).map
          (Option.map (fun c => c.name) ∘ initRemoteNode env)) =
          ((declaredNodes cfg).map (fun node => node.name)).map some := by
        rw [List.map_map]
        apply List.map_congr_left
        intro node hnode
        have hsome := initRemoteNode_isSome_iff.mpr (hread node hnode)
        rcases Option.isSome_iff_exists.mp hsome with ⟨connection, hinit⟩
        show (initRemoteNode env node).map _ = some node.name
        rw [hinit, ← name_of_initRemoteNode hinit]
        rfl
      rw [hleft, hright] at hnamed
      apply List.Nodup.of_map some
      exact hnamed.nodup_iff.mp
        ((h.names_opened_nodup horder).map (Option.some_injective String))
    · exact hread
  · intro hcond
    rcases hcond with ⟨hnames, hread⟩
    intro order horder
    rw [h.map_some_opened hread horder]
    exact (h.walked_perm hnames horder).map (initRemoteNode env)

end IndexClosed

/-- The index is closed and one connection is opened for each declared node and
each backup exactly when the names are distinct, every mapping is to one of them
and every address can be read; or, when declarations of one name count as one,
when these have one address. -/
theorem nodeIndex_closed_iff (env : Platform) (cfg : Parser.Configuration) :
    (IndexClosed cfg ∧ OneForEach env cfg <->
      MappingsDeclared cfg ∧
      ((declaredNodes cfg).map (fun node => node.name)).Nodup ∧
      AddressesReadable env cfg) ∧
    (IndexClosed cfg ∧ (forall order,
        WalksKeys (parseDeploy cfg).mapNode order ->
          OneForEachName env cfg order) <->
      MappingsDeclared cfg ∧ DeclarationsAgree cfg ∧
      AddressesReadable env cfg) := by
  constructor
  · constructor
    · intro h
      rcases h with ⟨hclosed, hone⟩
      exact ⟨((indexClosed_iff cfg).mp hclosed).left,
        hclosed.oneForEach_iff.mp hone⟩
    · intro h
      rcases h with ⟨hmapped, hnames, hread⟩
      have hagree : DeclarationsAgree cfg := by
        intro x hx y hy hname
        rw [List.inj_on_of_nodup_map hnames hx hy hname]
      have hclosed := (indexClosed_iff cfg).mpr ⟨hmapped, hagree⟩
      exact ⟨hclosed, hclosed.oneForEach_iff.mpr ⟨hnames, hread⟩⟩
  · constructor
    · intro h
      rcases h with ⟨hclosed, hone⟩
      rcases (indexClosed_iff cfg).mp hclosed with ⟨hmapped, hagree⟩
      rcases exists_walksKeys (parseDeploy cfg).mapNode with ⟨order, horder⟩
      refine ⟨hmapped, hagree, ?_⟩
      intro node hnode
      rcases (hone order horder).opened node hnode with ⟨connection, hinit, _⟩
      apply initRemoteNode_isSome_iff.mp
      rw [hinit]
      rfl
    · intro h
      rcases h with ⟨hmapped, hagree, hread⟩
      have hclosed := (indexClosed_iff cfg).mpr ⟨hmapped, hagree⟩
      exact ⟨hclosed, fun order horder =>
        hclosed.oneForEachName hread horder⟩

end Connections

def danglingMapping : Parser.Configuration :=
  { components := [⟨"x", "generator"⟩, ⟨"y", "terminator"⟩]
    connections := []
    nodes := [⟨"a", ⟨"127.0.0.1", 100, 200⟩, none⟩]
    mappings := [⟨"x", "a"⟩, ⟨"y", "b"⟩] }

/-- The undeclared node gets an entry with no name and no address, and in one of
the two orders Setup fails before any connection is opened. -/
theorem danglingMapping_indexed :
    "b" ∈ (parseDeploy danglingMapping).mapNode ∧
    Table.get (parseDeploy danglingMapping).mapNode "b" = default ∧
    WalksKeys (parseDeploy danglingMapping).mapNode ["b", "a"] ∧
    createRemoteNodes Platform.loopback (parseDeploy danglingMapping)
      ["b", "a"] = [] ∧
    ¬ IndexClosed danglingMapping := by
  have hkey : "b" ∈ (parseDeploy danglingMapping).mapNode := by
    decide +kernel
  refine ⟨hkey, by decide +kernel, ?_, by decide +kernel, ?_⟩
  · constructor
    · decide
    · intro k
      rw [mem_mapNode_iff]
      simp [danglingMapping, declaredNodes, expandNode, or_comm, eq_comm]
  · intro hclosed
    rcases (hclosed.keys "b").mp hkey with ⟨node, hnode, hname⟩
    have hdeclared : declaredNodes danglingMapping =
        [⟨"a", ⟨"127.0.0.1", 100, 200⟩, none⟩] := rfl
    rw [hdeclared, List.mem_singleton] at hnode
    rw [hnode] at hname
    exact absurd hname (by decide)

end Terminal
end Protort
