import Protort.Terminal.Deployable

/-!
# The projection onto a node

What `asyncDeploy` puts into the packet, read off the index it was given.  The
entries that indexing adds to the maps never change what a later lookup finds,
and leaving out a map entry or a node that was already added never changes which
entry of a name comes first; so the packet agrees, as far as first entries go,
with the one that repeats them.
-/

namespace Protort
namespace Terminal

open Lib (Table firstEntry)
open Protocol.Deploy (Map NodeInfo Instance)

/-- Two indices that answer every lookup in the same way. -/
structure SameLookups (dc dc' : DeployConfiguration) : Prop where
  componentNode : forall c,
    Table.get dc'.mapComponentNode c = Table.get dc.mapComponentNode c
  components : forall c,
    Table.get dc'.mapComponents c = Table.get dc.mapComponents c
  node : forall c, Table.get dc'.mapNode c = Table.get dc.mapNode c
  nodeWithComponents : forall c,
    Table.get dc'.mapNodeWithComponents c =
      Table.get dc.mapNodeWithComponents c
  componentWithConnections : forall c,
    Table.get dc'.mapComponentWithConnections c =
      Table.get dc.mapComponentWithConnections c

/-!
## The packet without de-duplication
-/

def destNodeName (dc : DeployConfiguration) (conn : Parser.Connection) :
    String :=
  (Table.get dc.mapComponentNode conn.dest).nodeName

def destNode (dc : DeployConfiguration) (conn : Parser.Connection) :
    Parser.Node :=
  Table.get dc.mapNode (destNodeName dc conn)

def remoteConnections (dc : DeployConfiguration) (currentNode : String)
    (conns : List Parser.Connection) : List Parser.Connection :=
  conns.filter (fun conn => decide (destNodeName dc conn ≠ currentNode))

def remoteMaps (dc : DeployConfiguration) (currentNode : String)
    (conns : List Parser.Connection) : List Map :=
  (remoteConnections dc currentNode conns).map (fun conn =>
    ⟨(destNode dc conn).name, conn.dest⟩)

def remoteInfos (dc : DeployConfiguration) (currentNode : String)
    (conns : List Parser.Connection) : List NodeInfo :=
  (remoteConnections dc currentNode conns).map (fun conn =>
    nodeInfoMessage (destNode dc conn).name (destNode dc conn).host)

def componentMaps (dc : DeployConfiguration) (currentNode comp : String) :
    List Map :=
  ⟨currentNode, comp⟩ :: remoteMaps dc currentNode
    (Table.get dc.mapComponentWithConnections comp)

theorem remoteMaps_append (dc : DeployConfiguration) (currentNode : String)
    (xs ys : List Parser.Connection) :
    remoteMaps dc currentNode (xs ++ ys) =
      remoteMaps dc currentNode xs ++ remoteMaps dc currentNode ys := by
  simp [remoteMaps, remoteConnections]

theorem remoteInfos_append (dc : DeployConfiguration) (currentNode : String)
    (xs ys : List Parser.Connection) :
    remoteInfos dc currentNode (xs ++ ys) =
      remoteInfos dc currentNode xs ++ remoteInfos dc currentNode ys := by
  simp [remoteInfos, remoteConnections]

/-!
## The loops
-/

/-- A projection that agrees with the lists of everything handed to it. -/
structure Projected (dc : DeployConfiguration) (this : NodeInfo)
    (instances : List Instance) (conns : List Parser.Connection)
    (allMaps : List Map) (allInfos : List NodeInfo) (p : Projection) :
    Prop where
  thisNode : p.configuration.thisNodeInfo = this
  lookups : SameLookups dc p.deployConfiguration
  instances : p.configuration.instances = instances
  connections : p.configuration.connections = conns.map connectionMessage
  maps : forall d,
    firstEntry (fun m : Map => m.instanceName) p.configuration.maps d =
      firstEntry (fun m : Map => m.instanceName) allMaps d
  infos : forall x,
    firstEntry (fun i : NodeInfo => i.name) p.configuration.nodeInfos x =
      firstEntry (fun i : NodeInfo => i.name) allInfos x
  addedMaps : forall d, d ∈ p.addedMaps ->
    (firstEntry (fun m : Map => m.instanceName) allMaps d).isSome
  addedNodes : forall x, x ∈ p.addedNodes ->
    (firstEntry (fun i : NodeInfo => i.name) allInfos x).isSome

namespace Projected

variable {dc : DeployConfiguration} {this : NodeInfo}
  {instances : List Instance} {conns : List Parser.Connection} {allMaps : List Map}
  {allInfos : List NodeInfo} {p : Projection}

theorem addRemote (h : Projected dc this instances conns allMaps allInfos p)
    (node : Parser.Node) (dest : String) :
    Projected dc this instances conns (allMaps ++ [⟨node.name, dest⟩])
      (allInfos ++ [nodeInfoMessage node.name node.host])
      (p.addRemote node dest) := by
  have hmaps := Lib.firstEntry_append_unless_seen
    (⟨node.name, dest⟩ : Map) h.maps h.addedMaps
  have hinfos := Lib.firstEntry_append_unless_seen
    (nodeInfoMessage node.name node.host) h.infos h.addedNodes
  exact
    { thisNode := h.thisNode
      lookups := h.lookups
      instances := h.instances
      connections := h.connections
      maps := hmaps.left
      infos := hinfos.left
      addedMaps := hmaps.right
      addedNodes := hinfos.right }

theorem addConnection (h : Projected dc this instances conns allMaps allInfos p)
    (currentNode : String) (conn : Parser.Connection) :
    Projected dc this instances (conns ++ [conn])
      (allMaps ++ remoteMaps dc currentNode [conn])
      (allInfos ++ remoteInfos dc currentNode [conn])
      (p.addConnection currentNode conn) := by
  have hname :
      (Table.get p.deployConfiguration.mapComponentNode conn.dest).nodeName =
        destNodeName dc conn := by
    rw [h.lookups.componentNode]
    rfl
  have hnode : Table.get p.deployConfiguration.mapNode
      (destNodeName dc conn) = destNode dc conn :=
    h.lookups.node (destNodeName dc conn)
  unfold Projection.addConnection
  simp only [hname, hnode]
  by_cases hremote : destNodeName dc conn ≠ currentNode
  · rw [if_pos hremote]
    have hmaps : remoteMaps dc currentNode [conn] =
        [⟨(destNode dc conn).name, conn.dest⟩] := by
      simp [remoteMaps, remoteConnections, hremote]
    have hinfos : remoteInfos dc currentNode [conn] =
        [nodeInfoMessage (destNode dc conn).name (destNode dc conn).host] := by
      simp [remoteInfos, remoteConnections, hremote]
    rw [hmaps, hinfos]
    apply addRemote
    exact
      { thisNode := h.thisNode
        lookups :=
          { componentNode := fun c =>
              (Table.get_touch _ _ c).trans (h.lookups.componentNode c)
            components := h.lookups.components
            node := fun c => (Table.get_touch _ _ c).trans (h.lookups.node c)
            nodeWithComponents := h.lookups.nodeWithComponents
            componentWithConnections := h.lookups.componentWithConnections }
        instances := h.instances
        connections := by
          rw [List.map_append, ← h.connections]
          rfl
        maps := h.maps
        infos := h.infos
        addedMaps := h.addedMaps
        addedNodes := h.addedNodes }
  · rw [if_neg hremote]
    have hmaps : remoteMaps dc currentNode [conn] = [] := by
      simp [remoteMaps, remoteConnections, hremote]
    have hinfos : remoteInfos dc currentNode [conn] = [] := by
      simp [remoteInfos, remoteConnections, hremote]
    rw [hmaps, hinfos, List.append_nil, List.append_nil]
    exact
      { thisNode := h.thisNode
        lookups :=
          { componentNode := fun c =>
              (Table.get_touch _ _ c).trans (h.lookups.componentNode c)
            components := h.lookups.components
            node := h.lookups.node
            nodeWithComponents := h.lookups.nodeWithComponents
            componentWithConnections := h.lookups.componentWithConnections }
        instances := h.instances
        connections := by
          rw [List.map_append, ← h.connections]
          rfl
        maps := h.maps
        infos := h.infos
        addedMaps := h.addedMaps
        addedNodes := h.addedNodes }

theorem foldl_addConnection
    (h : Projected dc this instances conns allMaps allInfos p)
    (currentNode : String) (more : List Parser.Connection) :
    Projected dc this instances (conns ++ more)
      (allMaps ++ remoteMaps dc currentNode more)
      (allInfos ++ remoteInfos dc currentNode more)
      (more.foldl (Projection.addConnection currentNode) p) := by
  have hstart : Projected dc this instances (conns ++ [])
      (allMaps ++ remoteMaps dc currentNode [])
      (allInfos ++ remoteInfos dc currentNode []) p := by
    simpa [remoteMaps, remoteInfos, remoteConnections] using h
  have hstep : forall front conn q, conn ∈ more ->
      Projected dc this instances (conns ++ front)
        (allMaps ++ remoteMaps dc currentNode front)
        (allInfos ++ remoteInfos dc currentNode front) q ->
      Projected dc this instances (conns ++ (front ++ [conn]))
        (allMaps ++ remoteMaps dc currentNode (front ++ [conn]))
        (allInfos ++ remoteInfos dc currentNode (front ++ [conn]))
        (q.addConnection currentNode conn) := by
    intro front conn q _ hq
    rw [remoteMaps_append, remoteInfos_append, ← List.append_assoc,
      ← List.append_assoc, ← List.append_assoc]
    exact hq.addConnection currentNode conn
  exact Lib.Loops.foldl_inv
    (fun front q => Projected dc this instances (conns ++ front)
      (allMaps ++ remoteMaps dc currentNode front)
      (allInfos ++ remoteInfos dc currentNode front) q)
    hstep hstart

theorem addComponent (h : Projected dc this instances conns allMaps allInfos p)
    (currentNode : String) (m : Parser.Mapping)
    {kind : Protocol.ComponentKind}
    (hkind : Components.getComponentKind
      (Table.get dc.mapComponents m.compName).kind = some kind) :
    exists p', p.addComponent currentNode m = some p' ∧
      Projected dc this (instances ++ [⟨m.compName, kind⟩])
        (conns ++ Table.get dc.mapComponentWithConnections m.compName)
        (allMaps ++ componentMaps dc currentNode m.compName)
        (allInfos ++ remoteInfos dc currentNode
          (Table.get dc.mapComponentWithConnections m.compName))
        p' := by
  unfold Projection.addComponent
  simp only [h.lookups.components, hkind, h.lookups.componentWithConnections]
  refine ⟨_, rfl, ?_⟩
  have hcons : allMaps ++ componentMaps dc currentNode m.compName =
      (allMaps ++ [⟨currentNode, m.compName⟩]) ++ remoteMaps dc currentNode
        (Table.get dc.mapComponentWithConnections m.compName) := by
    simp [componentMaps]
  rw [hcons]
  apply foldl_addConnection
  exact
    { thisNode := h.thisNode
      lookups :=
        { componentNode := h.lookups.componentNode
          components := fun c =>
            (Table.get_touch _ _ c).trans (h.lookups.components c)
          node := h.lookups.node
          nodeWithComponents := h.lookups.nodeWithComponents
          componentWithConnections := fun c =>
            (Table.get_touch _ _ c).trans
              (h.lookups.componentWithConnections c) }
      instances := by rw [← h.instances]
      connections := h.connections
      maps := by
        intro d
        rw [Lib.firstEntry_append, Lib.firstEntry_append, h.maps]
      infos := h.infos
      addedMaps := fun d hd =>
        Lib.firstEntry_isSome_append_left _ (h.addedMaps d hd)
      addedNodes := h.addedNodes }

end Projected

/-!
## The packet
-/

def KindsOf (dc : DeployConfiguration) (comps : List String)
    (instances : List Instance) : Prop :=
  instances.map (fun i => (i.name, some i.kind)) =
    comps.map (fun c => (c,
      Components.getComponentKind (Table.get dc.mapComponents c).kind))

/-- What the packet for a node agrees with. -/
structure PacketFor (dc : DeployConfiguration) (currentNode : String)
    (comps : List String) (config : Protocol.Deploy.Config) : Prop where
  thisName : config.thisNodeInfo.name = currentNode
  thisPort : config.thisNodeInfo.port =
    (Table.get dc.mapNode currentNode).host.port
  instances : KindsOf dc comps config.instances
  connections : config.connections =
    (comps.flatMap (fun c =>
      Table.get dc.mapComponentWithConnections c)).map connectionMessage
  maps : forall d,
    firstEntry (fun m : Map => m.instanceName) config.maps d =
      firstEntry (fun m : Map => m.instanceName)
        (comps.flatMap (componentMaps dc currentNode)) d
  infos : forall x,
    firstEntry (fun i : NodeInfo => i.name) config.nodeInfos x =
      firstEntry (fun i : NodeInfo => i.name)
        (nodeInfoMessage currentNode (Table.get dc.mapNode currentNode).host ::
          comps.flatMap (fun c => remoteInfos dc currentNode
            (Table.get dc.mapComponentWithConnections c))) x

def ProjectedAll (dc : DeployConfiguration) (currentNode : String)
    (comps : List String) (p : Projection) : Prop :=
  exists instances, KindsOf dc comps instances ∧
    Projected dc (projectionStart currentNode dc).configuration.thisNodeInfo
      instances
      (comps.flatMap (fun c => Table.get dc.mapComponentWithConnections c))
      (comps.flatMap (componentMaps dc currentNode))
      (nodeInfoMessage currentNode (Table.get dc.mapNode currentNode).host ::
        comps.flatMap (fun c => remoteInfos dc currentNode
          (Table.get dc.mapComponentWithConnections c)))
      p

theorem projectedAll_start (dc : DeployConfiguration) (currentNode : String) :
    ProjectedAll dc currentNode [] (projectionStart currentNode dc) := by
  exists []
  constructor
  · exact rfl
  exact
    { thisNode := rfl
      lookups :=
        { componentNode := fun _ => rfl
          components := fun _ => rfl
          node := fun c => Table.get_touch _ _ c
          nodeWithComponents := fun c => Table.get_touch _ _ c
          componentWithConnections := fun _ => rfl }
      instances := rfl
      connections := rfl
      maps := fun _ => rfl
      infos := fun _ => rfl
      addedMaps := fun d hd => absurd hd (Finset.notMem_empty d)
      addedNodes := fun x hx => absurd hx (Finset.notMem_empty x) }

theorem projectedAll_snoc {dc : DeployConfiguration} {currentNode : String}
    {comps : List String} {p : Projection} {m : Parser.Mapping}
    (h : ProjectedAll dc currentNode comps p)
    (hkind : (Components.getComponentKind
      (Table.get dc.mapComponents m.compName).kind).isSome) :
    exists p', p.addComponent currentNode m = some p' ∧
      ProjectedAll dc currentNode (comps ++ [m.compName]) p' := by
  rcases h with ⟨instances, hkinds, hproj⟩
  rcases Option.isSome_iff_exists.mp hkind with ⟨kind, hk⟩
  rcases hproj.addComponent currentNode m hk with ⟨p', hadd, hproj'⟩
  refine ⟨p', hadd, instances ++ [⟨m.compName, kind⟩], ?_, ?_⟩
  · unfold KindsOf at hkinds ⊢
    rw [List.map_append, List.map_append, hkinds]
    simp [hk]
  · simpa using hproj'

theorem asyncDeploy_packet {dc : DeployConfiguration} {currentNode : String}
    {comps : List String}
    (hlisted : (Table.get dc.mapNodeWithComponents currentNode).map
      (fun m => m.compName) = comps)
    (hkinds : forall c, c ∈ comps ->
      (Components.getComponentKind (Table.get dc.mapComponents c).kind).isSome) :
    exists p, asyncDeploy currentNode dc = some p ∧
      SameLookups dc p.deployConfiguration ∧
      PacketFor dc currentNode comps p.configuration := by
  have hstep : forall front m q,
      m ∈ Table.get dc.mapNodeWithComponents currentNode ->
      ProjectedAll dc currentNode (front.map (fun m => m.compName)) q ->
      exists q', q.addComponent currentNode m = some q' ∧
        ProjectedAll dc currentNode
          ((front ++ [m]).map (fun m => m.compName)) q' := by
    intro front m q hm hq
    have hmem : m.compName ∈ comps := by
      rw [← hlisted]
      exact List.mem_map_of_mem hm
    rcases projectedAll_snoc hq (hkinds m.compName hmem) with ⟨q', hadd, hq'⟩
    exists q'
    constructor
    · exact hadd
    rw [List.map_append]
    exact hq'
  have hstart : ProjectedAll dc currentNode
      (([] : List Parser.Mapping).map (fun m => m.compName))
      (projectionStart currentNode dc) :=
    projectedAll_start dc currentNode
  have hloop := Lib.Loops.foldlM_inv
    (fun front q => ProjectedAll dc currentNode
      (front.map (fun m : Parser.Mapping => m.compName)) q)
    hstep hstart
  rcases hloop with ⟨p, hrun, instances, hinsts, hproj⟩
  rw [List.nil_append, hlisted] at hinsts hproj
  exists p
  constructor
  · exact hrun
  constructor
  · exact hproj.lookups
  exact
    { thisName := by
        rw [hproj.thisNode]
        rfl
      thisPort := by
        rw [hproj.thisNode]
        rfl
      instances := by
        rw [hproj.instances]
        exact hinsts
      connections := hproj.connections
      maps := hproj.maps
      infos := hproj.infos }

end Terminal
end Protort
