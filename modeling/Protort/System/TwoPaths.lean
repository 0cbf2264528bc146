import Mathlib.Data.List.Find
import Protort.Node.Configured
import Protort.System.EndToEnd
import Protort.Terminal.Unpaired

/-!
# Two ways to deploy

A node that is given a whole configuration takes the first of several entries;
the terminal takes the last, and its packet goes to a node that takes the first.
-/

namespace Protort
namespace System

open Lib (Table firstEntry lastEntry)
open Lib.Exceptions
open Terminal
open Node (NodeInfo Endpoint)
open Protocol.Deploy (Map)

/-- A configuration without backups that declares what it maps and connects. -/
structure Named (cfg : Parser.Configuration) : Prop where
  unpaired : Unpaired cfg
  mappedComponents : forall m, m ∈ cfg.mappings ->
    exists c, c ∈ cfg.components ∧ c.name = m.compName
  mappedNodes : forall m, m ∈ cfg.mappings ->
    exists n, n ∈ cfg.nodes ∧ n.name = m.nodeName
  sources : forall conn, conn ∈ cfg.connections ->
    exists c, c ∈ cfg.components ∧ c.name = conn.source
  destinations : forall conn, conn ∈ cfg.connections ->
    exists c, c ∈ cfg.components ∧ c.name = conn.dest

structure SameRouters (r r' : Node.Router) : Prop where
  names : forall c, c ∈ r.components <-> c ∈ r'.components
  kinds : forall c, c ∈ r.components ->
    (r.objectAt c).map (fun object => object.kind) =
      (r'.objectAt c).map (fun object => object.kind)
  localRoutes : forall c, c ∈ r.components -> forall p,
    (r.routesAt c p).localRoutes = (r'.routesAt c p).localRoutes
  remoteRoutes : forall c, c ∈ r.components -> forall p,
    (r.routesAt c p).remoteRoutes.map (fun route =>
        (route.target, route.client.endpoint)) =
      (r'.routesAt c p).remoteRoutes.map (fun route =>
        (route.target, route.client.endpoint))

/-- Both ways give a router to a node that has a new one, and the routers are
the same. -/
def PathsAgree (env : Platform) (cfg : Parser.Configuration) (node : String)
    (n : Protort.Node) : Prop :=
  exists direct p terminal,
    Node.deployFromConfig env cfg { n with nodeName := node } =
      EStateM.Result.ok PUnit.unit direct ∧
    asyncDeploy node (parseDeploy cfg) = some p ∧
    Node.deployFromPacket env p.configuration n =
      EStateM.Result.ok PUnit.unit terminal ∧
    SameRouters direct.router terminal.router

/-!
## What decides
-/

section Places

variable (env : Platform) (cfg : Parser.Configuration) (node : String)

def firstPlace (c : String) : String :=
  ((firstEntry (fun m => m.compName) cfg.mappings c).map
    (fun m => m.nodeName)).getD ""

def firstInfo (c : String) : NodeInfo :=
  ((firstEntry (fun m => m.compName) cfg.mappings c).map (fun m =>
    ((firstEntry (fun n => n.name) cfg.nodes m.nodeName).map
      NodeInfo.ofNode).getD default)).getD default

def lastInfo (x : String) : NodeInfo :=
  { name := x
    address := (lastHost cfg x).ipAddress
    port := (lastHost cfg x).port }

/-- Which components are said to be where, in this order, when each component
that is mapped to a node is followed by what it is connected to elsewhere by its
last mapping. -/
def announced : List (String × String) :=
  (placedComponents cfg node).flatMap (fun c =>
    (c, node) :: ((connectionsFrom cfg c).filter (fun conn =>
      decide (lastPlace cfg conn.dest ≠ node))).map (fun conn =>
        (conn.dest, lastPlace cfg conn.dest)))

def announcedPlace (c : String) : String :=
  ((firstEntry Prod.fst (announced cfg node) c).map Prod.snd).getD ""

/-- The address by the first connection that leads from the components that are
first mapped to a node to those that are first mapped to another. -/
def openingInfo (x : String) : NodeInfo :=
  ((cfg.connections.find? (fun conn =>
    decide (firstPlace cfg conn.source = node ∧
      firstPlace cfg conn.dest = x))).map (fun conn =>
        firstInfo cfg conn.dest)).getD default

def endpointOf (info : NodeInfo) : Option Endpoint :=
  (env.fromString info.address).map (fun address =>
    ⟨address, info.port.toUInt16⟩)

/-- What repeated entries do not spoil. -/
structure SamePlaces : Prop where
  -- the first mapping names the node when the first announcement does
  placed : forall comp, comp ∈ cfg.components ->
    (firstPlace cfg comp.name = node <->
      comp.name ∈ placedComponents cfg node ∧
        announcedPlace cfg node comp.name = node)
  -- a component with connections is mapped to the node once
  once : forall conn, conn ∈ cfg.connections ->
    firstPlace cfg conn.source = node ->
      (placedComponents cfg node).count conn.source = 1
  -- a connection that leaves the node finds one address for the other
  away : forall conn, conn ∈ cfg.connections ->
    firstPlace cfg conn.source = node -> firstPlace cfg conn.dest ≠ node ->
      exists endpoint,
        endpointOf env (openingInfo cfg node (firstPlace cfg conn.dest)) =
            some endpoint ∧
          endpointOf env (lastInfo cfg (announcedPlace cfg node conn.dest)) =
            some endpoint

/-- What both ways need: kinds that are known, ports that can be bound, and
entries that both read in the same way. -/
structure SuitsBothWays (port : UInt32) : Prop where
  kinds : forall comp, comp ∈ cfg.components ->
    firstPlace cfg comp.name = node ->
      (Components.getComponentKind comp.kind).isSome
  listedKinds : forall c, c ∈ placedComponents cfg node ->
    (Components.getComponentKind (lastKind cfg c)).isSome
  bound : env.bind port.toUInt16 = true ∧
    env.bind (lastHost cfg node).port.toUInt16 = true
  places : SamePlaces env cfg node

end Places

theorem endpointOf_eq_some {env : Platform} {info : NodeInfo}
    {endpoint : Endpoint} :
    endpointOf env info = some endpoint <->
      Node.LeadsTo env info endpoint := by
  unfold endpointOf Node.LeadsTo
  rw [Option.map_eq_some_iff]
  constructor
  · intro h
    rcases h with ⟨address, haddress, rfl⟩
    exact ⟨haddress, rfl⟩
  · intro h
    refine ⟨endpoint.address, h.left, ?_⟩
    rw [← h.right]

/-!
## The whole configuration
-/

section Direct

variable {env : Platform} {cfg : Parser.Configuration} {node : String}

theorem homeOf_first (cfg : Parser.Configuration) (c : String) :
    Node.homeOf cfg c = firstInfo cfg c := by
  unfold Node.homeOf Node.compToNode Table.get firstInfo
  simp only
  rw [Table.lookup_emplaceAll_empty]
  congr 2
  funext m
  rw [Table.lookup_emplaceAll_empty]

theorem name_firstInfo (h : Named cfg) (c : String) :
    (firstInfo cfg c).name = firstPlace cfg c := by
  unfold firstInfo firstPlace
  cases hfirst : firstEntry (fun m : Parser.Mapping => m.compName)
      cfg.mappings c with
  | none => rfl
  | some m =>
      have hm := (Lib.firstEntry_eq_some hfirst).left
      have hsome := Lib.firstEntry_isSome_iff.mpr (h.mappedNodes m hm)
      rcases Option.isSome_iff_exists.mp hsome with ⟨n, hn⟩
      simp only [Option.map_some, Option.getD_some, hn]
      exact (Lib.firstEntry_eq_some hn).right

theorem homeOf_firstPlace (h : Named cfg) (c : String) :
    (Node.homeOf cfg c).name = firstPlace cfg c := by
  rw [homeOf_first, name_firstInfo h]

theorem mem_instancesOn_first (h : Named cfg) {c : String} :
    c ∈ Node.instancesOn cfg node <->
      firstPlace cfg c = node ∧
        exists comp, comp ∈ cfg.components ∧ comp.name = c := by
  rw [Node.mem_instancesOn]
  constructor
  · intro hc
    rcases hc with ⟨comp, hcomp, rfl, hhome⟩
    exact ⟨(homeOf_firstPlace h comp.name).symm.trans hhome, comp, hcomp, rfl⟩
  · intro hc
    rcases hc with ⟨hplace, comp, hcomp, rfl⟩
    exact ⟨comp, hcomp, rfl, (homeOf_firstPlace h comp.name).trans hplace⟩

theorem source_mem_instancesOn (h : Named cfg) {conn : Parser.Connection}
    (hconn : conn ∈ cfg.connections) :
    conn.source ∈ Node.instancesOn cfg node <->
      firstPlace cfg conn.source = node := by
  rw [mem_instancesOn_first h]
  exact and_iff_left (h.sources conn hconn)

theorem destinationsBuilt_first (h : Named cfg) :
    Node.DestinationsBuilt cfg node := by
  intro conn hconn _ hhere
  exact (mem_instancesOn_first h).mpr
    ⟨(homeOf_firstPlace h conn.dest).symm.trans hhere,
      h.destinations conn hconn⟩

theorem opening_first (h : Named cfg) (x : String) :
    Node.opening cfg node x = cfg.connections.find? (fun conn =>
      decide (firstPlace cfg conn.source = node ∧
        firstPlace cfg conn.dest = x)) := by
  unfold Node.opening
  apply List.find?_congr
  intro conn hconn
  apply decide_eq_decide.mpr
  show conn.source ∈ Node.instancesOn cfg node ∧
    (Node.homeOf cfg conn.dest).name = x <-> _
  rw [source_mem_instancesOn h hconn, homeOf_firstPlace h]

end Direct

/-!
## The packet
-/

section Packets

variable {env : Platform} {cfg : Parser.Configuration} {node : String}

theorem listed_placed (h : Named cfg) (node : String) :
    listed cfg node = placedComponents cfg node :=
  h.unpaired.listed_mapNodeWithComponents node

theorem placedOn_lastPlace (h : Named cfg) (c : String) :
    placedOn cfg c = lastPlace cfg c :=
  h.unpaired.get_mapComponentNode c

theorem lastPlace_declared (h : Named cfg) (c : String) :
    lastPlace cfg c = "" ∨
      exists n, n ∈ cfg.nodes ∧ n.name = lastPlace cfg c := by
  unfold lastPlace
  cases hlast : lastEntry (fun m : Parser.Mapping => m.compName)
      cfg.mappings c with
  | none => exact Or.inl rfl
  | some m =>
      exact Or.inr (h.mappedNodes m (Lib.lastEntry_eq_some hlast).left)

theorem destNode_name (h : Named cfg) (conn : Parser.Connection) :
    (destNode (parseDeploy cfg) conn).name = lastPlace cfg conn.dest := by
  unfold destNode
  rw [placedOn_eq_destNodeName, placedOn_lastPlace h]
  exact h.unpaired.name_mapNode (lastPlace_declared h conn.dest)

theorem destNode_host (h : Named cfg) (conn : Parser.Connection) :
    (destNode (parseDeploy cfg) conn).host =
      lastHost cfg (lastPlace cfg conn.dest) := by
  unfold destNode
  rw [placedOn_eq_destNodeName, placedOn_lastPlace h]
  exact h.unpaired.host_mapNode _

theorem packetMaps_eq (h : Named cfg) :
    packetMaps cfg node =
      (announced cfg node).map (fun e => (⟨e.2, e.1⟩ : Map)) := by
  unfold packetMaps announced
  rw [listed_placed h, List.map_flatMap]
  apply List.flatMap_congr
  intro c _
  unfold componentMaps remoteMaps remoteConnections
  rw [get_mapComponentWithConnections, List.map_cons, List.map_map]
  have hfilter : (connectionsFrom cfg c).filter (fun conn =>
        decide (destNodeName (parseDeploy cfg) conn ≠ node)) =
      (connectionsFrom cfg c).filter (fun conn =>
        decide (lastPlace cfg conn.dest ≠ node)) := by
    apply List.filter_congr
    intro conn _
    rw [placedOn_eq_destNodeName, placedOn_lastPlace h]
  rw [hfilter]
  congr 1
  apply List.map_congr_left
  intro conn _
  rw [destNode_name h]
  rfl

/-- Every entry of the packet for a node has the address of its last entry. -/
theorem packetInfos_last (h : Named cfg) {i : Protocol.Deploy.NodeInfo}
    (hi : i ∈ packetInfos cfg node) :
    i = nodeInfoMessage i.name (lastHost cfg i.name) := by
  unfold packetInfos at hi
  rw [h.unpaired.host_mapNode] at hi
  rcases List.mem_cons.mp hi with rfl | hremote
  · rfl
  · rcases List.mem_flatMap.mp hremote with ⟨c, _, hic⟩
    rcases List.mem_map.mp hic with ⟨conn, _, rfl⟩
    rw [destNode_name h, destNode_host h]
    rfl

variable {config : Protocol.Deploy.Config} {conf : Parser.Configuration}

theorem homeOf_announced (h : Named cfg)
    (hread : ReadFor cfg node config conf) (c : String) :
    Node.homeOf conf c =
      ((firstEntry Prod.fst (announced cfg node) c).map (fun e =>
        lastInfo cfg e.2)).getD default := by
  have hmaps : firstEntry (fun m : Map => m.instanceName) config.maps c =
      (firstEntry Prod.fst (announced cfg node) c).map
        (fun e => (⟨e.2, e.1⟩ : Map)) := by
    rw [hread.packet.maps]
    show firstEntry _ (packetMaps cfg node) c = _
    rw [packetMaps_eq h, Lib.firstEntry_map]
  rw [homeOf_packet hread.nodes hread.mappings, hmaps, Option.map_map]
  cases hfirst : firstEntry Prod.fst (announced cfg node) c with
  | none => rfl
  | some e =>
      have hmem : (⟨e.2, e.1⟩ : Map) ∈ packetMaps cfg node := by
        rw [packetMaps_eq h]
        exact List.mem_map_of_mem (Lib.firstEntry_eq_some hfirst).left
      rcases exists_info_of_map hmem with ⟨i, hi, hname⟩
      have hinfo : firstEntry (fun i : Protocol.Deploy.NodeInfo => i.name)
          (packetInfos cfg node) i.name = some i := by
        refine Lib.firstEntry_of_agree hi (fun j hj hji => ?_)
        rw [packetInfos_last h hj, packetInfos_last h hi, hji]
      have hname' : i.name = e.2 := hname
      show infoOfPacket config e.2 = lastInfo cfg e.2
      unfold infoOfPacket
      rw [hread.packet.infos, ← hname']
      show (Option.map _ (firstEntry _ (packetInfos cfg node)
        i.name)).getD _ = _
      rw [hinfo, packetInfos_last h hi]
      rfl

theorem homeOf_announcedPlace (h : Named cfg)
    (hread : ReadFor cfg node config conf) (c : String) :
    (Node.homeOf conf c).name = announcedPlace cfg node c := by
  rw [homeOf_announced h hread]
  unfold announcedPlace
  cases firstEntry Prod.fst (announced cfg node) c with
  | none => rfl
  | some e => rfl

theorem mem_instancesOn_announced (h : Named cfg)
    (hread : ReadFor cfg node config conf) {c : String} :
    c ∈ Node.instancesOn conf node <->
      c ∈ placedComponents cfg node ∧ announcedPlace cfg node c = node := by
  rw [Node.mem_instancesOn, hread.components, listed_placed h]
  constructor
  · intro hc
    rcases hc with ⟨comp, hcomp, rfl, hhome⟩
    rcases List.mem_map.mp hcomp with ⟨d, hd, rfl⟩
    exact ⟨hd, (homeOf_announcedPlace h hread d).symm.trans hhome⟩
  · intro hc
    exact ⟨_, List.mem_map_of_mem hc.left, rfl,
      (homeOf_announcedPlace h hread c).trans hc.right⟩

theorem mem_connections_placed (h : Named cfg)
    (hread : ReadFor cfg node config conf) {conn : Parser.Connection} :
    conn ∈ conf.connections <->
      conn ∈ cfg.connections ∧ conn.source ∈ placedComponents cfg node := by
  rw [hread.mem_connections, listed_placed h]

theorem mem_announced {e : String × String} :
    e ∈ announced cfg node <->
      (e.1 ∈ placedComponents cfg node ∧ e.2 = node) ∨
      (e.2 = lastPlace cfg e.1 ∧ e.2 ≠ node ∧
        exists conn, conn ∈ cfg.connections ∧
          conn.source ∈ placedComponents cfg node ∧ conn.dest = e.1) := by
  unfold announced
  rw [List.mem_flatMap]
  constructor
  · intro h
    rcases h with ⟨c, hc, he⟩
    rcases List.mem_cons.mp he with rfl | hremote
    · exact Or.inl ⟨hc, rfl⟩
    · rcases List.mem_map.mp hremote with ⟨conn, hconn, rfl⟩
      rcases List.mem_filter.mp hconn with ⟨hfrom, haway⟩
      rcases List.mem_filter.mp hfrom with ⟨hmem, hsource⟩
      rcases of_decide_eq_true hsource with rfl
      exact Or.inr ⟨rfl, of_decide_eq_true haway, conn, hmem, hc, rfl⟩
  · intro h
    rcases h with ⟨hc, hnode⟩ | ⟨hlast, haway, conn, hconn, hsource, hdest⟩
    · refine ⟨e.1, hc, List.mem_cons.mpr (Or.inl ?_)⟩
      rw [← hnode]
    · refine ⟨conn.source, hsource, List.mem_cons_of_mem _ ?_⟩
      refine List.mem_map.mpr ⟨conn, List.mem_filter.mpr ⟨?_, ?_⟩, ?_⟩
      · exact List.mem_filter.mpr ⟨hconn, decide_eq_true rfl⟩
      · rw [hdest, ← hlast]
        exact decide_eq_true haway
      · rw [hdest, ← hlast]

theorem kindNameOf_read (hread : ReadFor cfg node config conf) {c : String}
    (hc : c ∈ listed cfg node) :
    Node.kindNameOf conf.components c = lastKind cfg c := by
  unfold Node.kindNameOf
  rw [hread.components]
  have hsome : (lastEntry (fun comp : Parser.Component => comp.name)
      ((listed cfg node).map (fun c => ({
        name := c
        kind := (Table.get (parseDeploy cfg).mapComponents c).kind } :
          Parser.Component))) c).isSome :=
    Lib.lastEntry_isSome_iff.mpr ⟨_, List.mem_map_of_mem hc, rfl⟩
  rcases Option.isSome_iff_exists.mp hsome with ⟨comp, hcomp⟩
  rw [hcomp]
  rcases Lib.lastEntry_eq_some hcomp with ⟨hmem, hname⟩
  rcases List.mem_map.mp hmem with ⟨d, _, rfl⟩
  rw [← hname]
  exact get_mapComponents_kind cfg d

theorem asyncDeploy_returns_iff (h : Named cfg) :
    (exists p, asyncDeploy node (parseDeploy cfg) = some p) <->
      forall c, c ∈ placedComponents cfg node ->
        (Components.getComponentKind (lastKind cfg c)).isSome := by
  rw [← listed_placed h]
  constructor
  · intro hp
    rcases hp with ⟨p, hp⟩
    have hloop : forall (ms : List Parser.Mapping) (front : List String)
        (q : Projection), ProjectedAll (parseDeploy cfg) node front q ->
          ms.foldlM (Projection.addComponent node) q = some p ->
            forall m, m ∈ ms -> (Components.getComponentKind
              (lastKind cfg m.compName)).isSome := by
      intro ms
      induction ms with
      | nil =>
          intro _ _ _ _ m hm
          cases hm
      | cons m rest ih =>
          intro front q hq hfold
          rw [List.foldlM_cons] at hfold
          rcases Option.bind_eq_some_iff.mp hfold with ⟨q', hadd, hrest⟩
          have hkind : (Components.getComponentKind
              (lastKind cfg m.compName)).isSome := by
            rcases hq with ⟨_, _, hprojected⟩
            rcases Option.map_eq_some_iff.mp hadd with ⟨kind, hkind, _⟩
            rw [hprojected.lookups.components, get_mapComponents_kind] at hkind
            rw [hkind]
            rfl
          rw [← get_mapComponents_kind] at hkind
          rcases projectedAll_snoc hq hkind with ⟨q'', hadd', hq'⟩
          rw [hadd] at hadd'
          rcases Option.some.inj hadd' with rfl
          rw [get_mapComponents_kind] at hkind
          intro m' hm'
          rcases List.mem_cons.mp hm' with rfl | hm'
          · exact hkind
          · exact ih _ q' hq' hrest m' hm'
    intro c hc
    rcases List.mem_map.mp hc with ⟨m, hm, rfl⟩
    exact hloop _ [] _ (projectedAll_start _ node) hp m hm
  · intro hkinds
    rcases @asyncDeploy_packet (parseDeploy cfg) node (listed cfg node) rfl
      (fun c hc => by
        rw [get_mapComponents_kind]
        exact hkinds c hc) with ⟨p, hp, _⟩
    exact ⟨p, hp⟩

end Packets

/-!
## Repetitions
-/

section Repetitions

variable {cfg : Parser.Configuration}

theorem filter_flatMap_count {comp : String} {q : Parser.Connection -> Bool}
    (hq : forall conn, q conn = true -> conn.source = comp)
    (comps : List String) :
    (comps.flatMap (connectionsFrom cfg)).filter q =
      (List.replicate (comps.count comp) (cfg.connections.filter q)).flatten := by
  induction comps with
  | nil => rfl
  | cons c rest ih =>
      rw [List.flatMap_cons, List.filter_append, ih]
      by_cases hc : c = comp
      · subst c
        rw [filter_connectionsFrom_self hq, List.count_cons_self,
          List.replicate_succ, List.flatten_cons]
      · rw [filter_connectionsFrom_ne hq hc, List.nil_append,
          List.count_cons_of_ne hc]

theorem length_routesOf (home : String -> String) (node : String)
    (conns : List Parser.Connection) (c : String) (p : Parser.PortId) :
    (Node.localRoutesOf home node conns c p).length +
        (Node.remoteRoutesOf home node conns c p).length =
      (conns.filter (fun conn =>
        decide (conn.source = c ∧ conn.sourceOut = p))).length := by
  unfold Node.localRoutesOf Node.remoteRoutesOf
  rw [List.length_map, List.length_map]
  induction conns with
  | nil => rfl
  | cons conn rest ih =>
      by_cases hport : conn.source = c ∧ conn.sourceOut = p
      · rcases hport with ⟨hsource, hout⟩
        by_cases hhome : home conn.dest = node
        · simp [hsource, hout, hhome] at ih ⊢
          omega
        · simp [hsource, hout, hhome] at ih ⊢
          omega
      · have hnot : forall P : Prop,
            ¬ (conn.source = c ∧ conn.sourceOut = p ∧ P) :=
          fun P h => hport ⟨h.left, h.right.left⟩
        simp [hport, hnot] at ih ⊢
        exact ih

end Repetitions

/-!
## The routers
-/

section Endpoints

variable {env : Platform} {conf : Parser.Configuration} {node : String}
  {r : Node.Router}

theorem remoteRoute_spec (h : Node.Configured env conf node r) {c : String}
    (hc : c ∈ r.components) {p : Parser.PortId} {route : Node.RemoteRoute}
    (hroute : route ∈ (r.routesAt c p).remoteRoutes) :
    exists conn first, conn ∈ conf.connections ∧ conn.source = c ∧
      conn.dest = route.name ∧
      (Node.homeOf conf conn.dest).name ≠ node ∧
      Node.opening conf node (Node.homeOf conf conn.dest).name = some first ∧
      endpointOf env (Node.homeOf conf first.dest) =
        some route.client.endpoint := by
  have htarget : route.target ∈ Node.remoteRoutesOf
      (fun d => (Node.homeOf conf d).name) node conf.connections c p := by
    rw [← h.built.remoteRoutes c hc p]
    exact List.mem_map_of_mem hroute
  rcases List.mem_map.mp htarget with ⟨conn, hconn, heq⟩
  rcases List.mem_filter.mp hconn with ⟨hmem, hport⟩
  rcases of_decide_eq_true hport with ⟨hsource, _, haway⟩
  have hdest : conn.dest = route.name := congrArg Prod.snd heq
  have hinstance : conn.source ∈ Node.instancesOn conf node := by
    rw [hsource, Node.mem_instancesOn]
    rcases (h.built.mem c).mp hc with ⟨hhome, comp, hcomp, rfl⟩
    exact ⟨comp, hcomp, rfl, hhome⟩
  have hsome : (Node.opening conf node
      (Node.homeOf conf conn.dest).name).isSome :=
    List.find?_isSome.mpr ⟨conn, hmem, decide_eq_true ⟨hinstance, rfl⟩⟩
  rcases Option.isSome_iff_exists.mp hsome with ⟨first, hfirst⟩
  rcases h.opened _ first haway hfirst with ⟨client, hclient, hleads⟩
  have hkept := h.built.remoteClients c hc p route hroute
  rw [← hdest, hclient] at hkept
  rcases Option.some.inj hkept with rfl
  exact ⟨conn, first, hmem, hsource, hdest, haway, hfirst,
    endpointOf_eq_some.mpr hleads⟩

theorem exists_remoteRoute (h : Node.Configured env conf node r)
    {conn : Parser.Connection} (hconn : conn ∈ conf.connections)
    (hsource : conn.source ∈ r.components)
    (haway : (Node.homeOf conf conn.dest).name ≠ node) :
    exists route, route ∈
        (r.routesAt conn.source conn.sourceOut).remoteRoutes ∧
      route.target = (conn.destIn, conn.dest) := by
  have htarget : (conn.destIn, conn.dest) ∈ Node.remoteRoutesOf
      (fun d => (Node.homeOf conf d).name) node conf.connections conn.source
        conn.sourceOut :=
    List.mem_map.mpr ⟨conn, List.mem_filter.mpr
      ⟨hconn, decide_eq_true ⟨rfl, rfl, haway⟩⟩, rfl⟩
  rw [← h.built.remoteRoutes _ hsource] at htarget
  rcases List.mem_map.mp htarget with ⟨route, hroute, heq⟩
  exact ⟨route, hroute, heq⟩

/-- The routes with their endpoints, when each endpoint goes with a name. -/
theorem remoteRoutes_endpoints (h : Node.Configured env conf node r)
    (endpoint : String -> Option Endpoint) {c : String}
    (hc : c ∈ r.components) {p : Parser.PortId}
    (hendpoint : forall route, route ∈ (r.routesAt c p).remoteRoutes ->
      endpoint route.name = some route.client.endpoint) :
    (r.routesAt c p).remoteRoutes.map (fun route =>
        (route.target, some route.client.endpoint)) =
      (Node.remoteRoutesOf (fun d => (Node.homeOf conf d).name) node
        conf.connections c p).map (fun target =>
          (target, endpoint target.2)) := by
  rw [← h.built.remoteRoutes c hc p, List.map_map]
  apply List.map_congr_left
  intro route hroute
  show _ = (route.target, endpoint route.name)
  rw [hendpoint route hroute]

end Endpoints

section Terminal

variable {env : Platform} {cfg : Parser.Configuration} {node : String}
  {config : Protocol.Deploy.Config} {conf : Parser.Configuration}

theorem unannounced {conn : Parser.Connection}
    (hconn : conn ∈ cfg.connections)
    (hsource : conn.source ∈ placedComponents cfg node)
    (hnone : firstEntry Prod.fst (announced cfg node) conn.dest = none) :
    node = "" ∧ firstPlace cfg conn.dest = "" := by
  have hnot : forall e, e ∈ announced cfg node -> e.1 ≠ conn.dest := by
    intro e he heq
    have hsome := Lib.firstEntry_isSome_iff.mpr ⟨e, he, heq⟩
    rw [hnone] at hsome
    cases hsome
  have hlast : lastPlace cfg conn.dest = node := by
    by_contra haway
    exact hnot (conn.dest, lastPlace cfg conn.dest)
      (mem_announced.mpr (Or.inr ⟨rfl, haway, conn, hconn, hsource, rfl⟩)) rfl
  have hunmapped : forall m, m ∈ cfg.mappings -> m.compName ≠ conn.dest := by
    intro m hm heq
    have hsome := Lib.lastEntry_isSome_iff.mpr ⟨m, hm, heq⟩
    rcases Option.isSome_iff_exists.mp hsome with ⟨last, hlastEntry⟩
    rcases Lib.lastEntry_eq_some hlastEntry with ⟨hmem, hname⟩
    unfold lastPlace at hlast
    rw [hlastEntry] at hlast
    have hnode : last.nodeName = node := hlast
    refine hnot (conn.dest, node) (mem_announced.mpr (Or.inl ⟨?_, rfl⟩)) rfl
    rw [← hname]
    exact List.mem_map_of_mem (List.mem_filter.mpr
      ⟨hmem, decide_eq_true hnode⟩)
  constructor
  · rw [← hlast]
    unfold lastPlace lastEntry firstEntry
    rw [List.find?_eq_none.mpr (fun m hm hd => hunmapped m
      (List.mem_reverse.mp hm) (of_decide_eq_true hd))]
    rfl
  · unfold firstPlace firstEntry
    rw [List.find?_eq_none.mpr (fun m hm hd => hunmapped m hm
      (of_decide_eq_true hd))]
    rfl

/-- The address that the packet gives the other end of a connection. -/
theorem homeOf_away (h : Named cfg) (hread : ReadFor cfg node config conf)
    {conn : Parser.Connection} (hconn : conn ∈ conf.connections)
    (haway : announcedPlace cfg node conn.dest ≠ node) :
    Node.homeOf conf conn.dest =
      lastInfo cfg (announcedPlace cfg node conn.dest) := by
  rcases (mem_connections_placed h hread).mp hconn with ⟨hmem, hsource⟩
  rw [homeOf_announced h hread]
  unfold announcedPlace at haway ⊢
  cases hfirst : firstEntry Prod.fst (announced cfg node) conn.dest with
  | some e => rfl
  | none =>
      rcases unannounced hmem hsource hfirst with ⟨hnode, _⟩
      rw [hfirst] at haway
      exact absurd hnode.symm haway

end Terminal

/-!
## Agreement
-/

section Agreement

variable {env : Platform} {cfg : Parser.Configuration} {node : String}
  {config : Protocol.Deploy.Config} {conf : Parser.Configuration}
  {r r' : Node.Router}

theorem mem_direct (h : Named cfg) (hr : Node.Configured env cfg node r)
    {c : String} : c ∈ r.components <->
      firstPlace cfg c = node ∧
        exists comp, comp ∈ cfg.components ∧ comp.name = c := by
  rw [hr.built.mem, homeOf_firstPlace h]

theorem mem_terminal (h : Named cfg) (hread : ReadFor cfg node config conf)
    (hr : Node.Configured env conf node r') {c : String} :
    c ∈ r'.components <->
      c ∈ placedComponents cfg node ∧ announcedPlace cfg node c = node := by
  rw [hr.built.mem, ← mem_instancesOn_announced h hread,
    Node.mem_instancesOn]
  constructor
  · intro hc
    rcases hc with ⟨hhome, comp, hcomp, rfl⟩
    exact ⟨comp, hcomp, rfl, hhome⟩
  · intro hc
    rcases hc with ⟨comp, hcomp, rfl, hhome⟩
    exact ⟨hhome, comp, hcomp, rfl⟩

theorem filter_read (h : Named cfg) (hread : ReadFor cfg node config conf)
    {c : String} {q : Parser.Connection -> Bool}
    (hq : forall conn, q conn = true -> conn.source = c) :
    conf.connections.filter q =
      (List.replicate ((placedComponents cfg node).count c)
        (cfg.connections.filter q)).flatten := by
  rw [hread.connections, listed_placed h]
  exact filter_flatMap_count hq _

theorem placed_of_same (h : Named cfg) (hread : ReadFor cfg node config conf)
    (hr : Node.Configured env cfg node r)
    (hr' : Node.Configured env conf node r') (hsame : SameRouters r r')
    {comp : Parser.Component} (hcomp : comp ∈ cfg.components) :
    firstPlace cfg comp.name = node <->
      comp.name ∈ placedComponents cfg node ∧
        announcedPlace cfg node comp.name = node := by
  rw [← mem_terminal h hread hr', ← hsame.names, mem_direct h hr]
  exact (and_iff_left ⟨comp, hcomp, rfl⟩).symm

theorem once_of_same (h : Named cfg) (hread : ReadFor cfg node config conf)
    (hr : Node.Configured env cfg node r)
    (hr' : Node.Configured env conf node r') (hsame : SameRouters r r')
    {conn : Parser.Connection} (hconn : conn ∈ cfg.connections)
    (hplace : firstPlace cfg conn.source = node) :
    (placedComponents cfg node).count conn.source = 1 := by
  have hc : conn.source ∈ r.components :=
    (mem_direct h hr).mpr ⟨hplace, h.sources conn hconn⟩
  have hc' := (hsame.names _).mp hc
  have hlocal := congrArg List.length
    (hsame.localRoutes _ hc conn.sourceOut)
  have hremote := congrArg List.length
    (hsame.remoteRoutes _ hc conn.sourceOut)
  rw [hr.built.localRoutes _ hc, hr'.built.localRoutes _ hc'] at hlocal
  rw [List.length_map, List.length_map] at hremote
  have htargets := congrArg List.length
    (hr.built.remoteRoutes _ hc conn.sourceOut)
  have htargets' := congrArg List.length
    (hr'.built.remoteRoutes _ hc' conn.sourceOut)
  rw [List.length_map] at htargets htargets'
  have hdirect := length_routesOf (fun d => (Node.homeOf cfg d).name) node
    cfg.connections conn.source conn.sourceOut
  have hterminal := length_routesOf (fun d => (Node.homeOf conf d).name) node
    conf.connections conn.source conn.sourceOut
  rw [filter_read h hread (c := conn.source)
    (fun other hother => (of_decide_eq_true hother).left),
    List.length_flatten, List.map_replicate, List.sum_replicate_nat]
    at hterminal
  have hpos : 0 < (cfg.connections.filter (fun other =>
      decide (other.source = conn.source ∧
        other.sourceOut = conn.sourceOut))).length :=
    List.length_pos_of_mem (List.mem_filter.mpr
      ⟨hconn, decide_eq_true ⟨rfl, rfl⟩⟩)
  have htotal : (placedComponents cfg node).count conn.source *
      (cfg.connections.filter (fun other =>
        decide (other.source = conn.source ∧
          other.sourceOut = conn.sourceOut))).length =
      1 * (cfg.connections.filter (fun other =>
        decide (other.source = conn.source ∧
          other.sourceOut = conn.sourceOut))).length := by
    omega
  exact Nat.eq_of_mul_eq_mul_right hpos htotal

theorem openingInfo_eq (h : Named cfg) {x : String}
    {first : Parser.Connection}
    (hfirst : Node.opening cfg node x = some first) :
    openingInfo cfg node x = Node.homeOf cfg first.dest := by
  rw [opening_first h] at hfirst
  unfold openingInfo
  rw [hfirst, homeOf_first]
  rfl

theorem endpoint_direct (h : Named cfg) (hr : Node.Configured env cfg node r)
    {c : String} (hc : c ∈ r.components) {p : Parser.PortId}
    {route : Node.RemoteRoute}
    (hroute : route ∈ (r.routesAt c p).remoteRoutes) :
    endpointOf env (openingInfo cfg node (firstPlace cfg route.name)) =
      some route.client.endpoint := by
  rcases remoteRoute_spec hr hc hroute with
    ⟨conn, first, _, _, hdest, _, hfirst, hendpoint⟩
  rw [homeOf_firstPlace h, hdest] at hfirst
  rw [openingInfo_eq h hfirst]
  exact hendpoint

theorem endpoint_terminal (h : Named cfg)
    (hread : ReadFor cfg node config conf)
    (hr' : Node.Configured env conf node r') {c : String}
    (hc : c ∈ r'.components) {p : Parser.PortId} {route : Node.RemoteRoute}
    (hroute : route ∈ (r'.routesAt c p).remoteRoutes) :
    endpointOf env (lastInfo cfg (announcedPlace cfg node route.name)) =
      some route.client.endpoint := by
  rcases remoteRoute_spec hr' hc hroute with
    ⟨conn, first, _, _, hdest, haway, hfirst, hendpoint⟩
  have hmem : first ∈ conf.connections := List.mem_of_find?_eq_some hfirst
  have hfor : (Node.homeOf conf first.dest).name =
      (Node.homeOf conf conn.dest).name := by
    have hleaves := List.find?_some hfirst
    exact (of_decide_eq_true hleaves).right
  rw [homeOf_announcedPlace h hread] at haway
  rw [homeOf_announcedPlace h hread, homeOf_announcedPlace h hread] at hfor
  have hinfo := homeOf_away h hread hmem (by
    rw [hfor]
    exact haway)
  rw [← hdest, ← hfor, ← hinfo]
  exact hendpoint

theorem away_of_same (h : Named cfg) (hread : ReadFor cfg node config conf)
    (hr : Node.Configured env cfg node r)
    (hr' : Node.Configured env conf node r') (hsame : SameRouters r r')
    {conn : Parser.Connection} (hconn : conn ∈ cfg.connections)
    (hplace : firstPlace cfg conn.source = node)
    (haway : firstPlace cfg conn.dest ≠ node) :
    exists endpoint,
      endpointOf env (openingInfo cfg node (firstPlace cfg conn.dest)) =
          some endpoint ∧
        endpointOf env (lastInfo cfg (announcedPlace cfg node conn.dest)) =
          some endpoint := by
  have hc : conn.source ∈ r.components :=
    (mem_direct h hr).mpr ⟨hplace, h.sources conn hconn⟩
  have hc' := (hsame.names _).mp hc
  have haway' : (Node.homeOf cfg conn.dest).name ≠ node := by
    rw [homeOf_firstPlace h]
    exact haway
  rcases exists_remoteRoute hr hconn hc haway' with ⟨route, hroute, htarget⟩
  have hmem : (route.target, route.client.endpoint) ∈
      (r'.routesAt conn.source conn.sourceOut).remoteRoutes.map (fun route =>
        (route.target, route.client.endpoint)) := by
    rw [← hsame.remoteRoutes _ hc]
    exact List.mem_map_of_mem hroute
  rcases List.mem_map.mp hmem with ⟨route', hroute', heq⟩
  rcases Prod.mk.injEq .. ▸ heq with ⟨htarget', hendpoint'⟩
  have hname : route.name = conn.dest := congrArg Prod.snd htarget
  have hname' : route'.name = conn.dest :=
    (congrArg Prod.snd htarget').trans hname
  refine ⟨route.client.endpoint, ?_, ?_⟩
  · rw [← hname]
    exact endpoint_direct h hr hc hroute
  · rw [← hname', ← hendpoint']
    exact endpoint_terminal h hread hr' hc' hroute'

theorem here_iff (h : Named cfg) (hplaces : SamePlaces env cfg node)
    {conn : Parser.Connection} (hconn : conn ∈ cfg.connections)
    (hplace : firstPlace cfg conn.source = node) :
    firstPlace cfg conn.dest = node <->
      announcedPlace cfg node conn.dest = node := by
  rcases h.sources conn hconn with ⟨source, hsource, hname⟩
  have hlisted : conn.source ∈ placedComponents cfg node := by
    rw [← hname] at hplace ⊢
    exact ((hplaces.placed source hsource).mp hplace).left
  rcases h.destinations conn hconn with ⟨dest, hdest, hdname⟩
  have hplaced := hplaces.placed dest hdest
  rw [hdname] at hplaced
  constructor
  · intro hfirst
    exact (hplaced.mp hfirst).right
  · intro hannounced
    cases hentry : firstEntry Prod.fst (announced cfg node) conn.dest with
    | none =>
        rcases unannounced hconn hlisted hentry with ⟨hnode, hempty⟩
        exact hempty.trans hnode.symm
    | some e =>
        have hnode : e.2 = node := by
          unfold announcedPlace at hannounced
          rw [hentry] at hannounced
          exact hannounced
        rcases Lib.firstEntry_eq_some hentry with ⟨hmem, hcomp⟩
        rcases mem_announced.mp hmem with ⟨hlisted, _⟩ | ⟨_, haway, _⟩
        · rw [hcomp] at hlisted
          exact hplaced.mpr ⟨hlisted, hannounced⟩
        · exact absurd hnode haway

theorem filter_read_once (h : Named cfg)
    (hread : ReadFor cfg node config conf)
    (hplaces : SamePlaces env cfg node) {c : String}
    (hplace : firstPlace cfg c = node) {q : Parser.Connection -> Bool}
    (hq : forall conn, q conn = true -> conn.source = c) :
    conf.connections.filter q = cfg.connections.filter q := by
  rw [filter_read h hread hq]
  cases hconns : cfg.connections.filter q with
  | nil => simp
  | cons conn rest =>
      have hconn : conn ∈ cfg.connections.filter q := by
        rw [hconns]
        exact List.mem_cons_self
      rcases List.mem_filter.mp hconn with ⟨hmem, hqconn⟩
      have hsource := hq conn hqconn
      have honce := hplaces.once conn hmem (hsource ▸ hplace)
      rw [hsource] at honce
      rw [honce, List.replicate_one, List.flatten_singleton]

theorem routesOf_same (h : Named cfg) (hread : ReadFor cfg node config conf)
    (hplaces : SamePlaces env cfg node) {c : String}
    (hplace : firstPlace cfg c = node) (p : Parser.PortId) :
    Node.localRoutesOf (fun d => (Node.homeOf conf d).name) node
        conf.connections c p =
      Node.localRoutesOf (fun d => (Node.homeOf cfg d).name) node
        cfg.connections c p ∧
    Node.remoteRoutesOf (fun d => (Node.homeOf conf d).name) node
        conf.connections c p =
      Node.remoteRoutesOf (fun d => (Node.homeOf cfg d).name) node
        cfg.connections c p := by
  have hiff : forall conn, conn ∈ cfg.connections -> conn.source = c ->
      ((Node.homeOf conf conn.dest).name = node <->
        (Node.homeOf cfg conn.dest).name = node) := by
    intro conn hconn hsource
    rw [homeOf_announcedPlace h hread, homeOf_firstPlace h]
    exact (here_iff h hplaces hconn (hsource ▸ hplace)).symm
  constructor
  · unfold Node.localRoutesOf
    rw [filter_read_once h hread hplaces hplace
      (fun conn hconn => (of_decide_eq_true hconn).left)]
    congr 1
    apply List.filter_congr
    intro conn hconn
    apply decide_eq_decide.mpr
    exact and_congr_right fun hsource =>
      and_congr_right' (hiff conn hconn hsource)
  · unfold Node.remoteRoutesOf
    rw [filter_read_once h hread hplaces hplace
      (fun conn hconn => (of_decide_eq_true hconn).left)]
    congr 1
    apply List.filter_congr
    intro conn hconn
    apply decide_eq_decide.mpr
    exact and_congr_right fun hsource =>
      and_congr_right' (not_congr (hiff conn hconn hsource))

theorem remoteRoutes_same (h : Named cfg)
    (hread : ReadFor cfg node config conf)
    (hr : Node.Configured env cfg node r)
    (hr' : Node.Configured env conf node r')
    (hplaces : SamePlaces env cfg node) {c : String}
    (hc : c ∈ r.components) (hc' : c ∈ r'.components) (p : Parser.PortId) :
    (r.routesAt c p).remoteRoutes.map (fun route =>
        (route.target, route.client.endpoint)) =
      (r'.routesAt c p).remoteRoutes.map (fun route =>
        (route.target, route.client.endpoint)) := by
  have hplace := ((mem_direct h hr).mp hc).left
  have hdirect := remoteRoutes_endpoints hr
    (fun d => endpointOf env (openingInfo cfg node (firstPlace cfg d))) hc
    (fun route hroute => endpoint_direct h hr hc (p := p) hroute)
  have hterminal := remoteRoutes_endpoints hr'
    (fun d => endpointOf env (lastInfo cfg (announcedPlace cfg node d))) hc'
    (fun route hroute => endpoint_terminal h hread hr' hc' (p := p) hroute)
  rw [(routesOf_same h hread hplaces hplace p).right] at hterminal
  have hsome : Function.Injective (fun x : (Parser.PortId × String) × Endpoint
      => (x.1, some x.2)) := by
    intro x y hxy
    have heq : (x.1, some x.2) = (y.1, some y.2) := hxy
    have htarget := congrArg Prod.fst heq
    have hendpoint := congrArg Prod.snd heq
    exact Prod.ext htarget (Option.some.inj hendpoint)
  apply List.map_injective_iff.mpr hsome
  rw [List.map_map, List.map_map]
  refine hdirect.trans (Eq.trans ?_ hterminal.symm)
  apply List.map_congr_left
  intro target htarget
  rcases List.mem_map.mp htarget with ⟨conn, hconn, rfl⟩
  rcases List.mem_filter.mp hconn with ⟨hmem, hport⟩
  rcases of_decide_eq_true hport with ⟨hsource, _, haway⟩
  have haway' : firstPlace cfg conn.dest ≠ node := by
    rw [← homeOf_firstPlace h]
    exact haway
  rcases hplaces.away conn hmem (hsource ▸ hplace) haway' with
    ⟨endpoint, hfirst, hlast⟩
  exact Prod.ext rfl (hfirst.trans hlast.symm)

/-- Two routers that were built both ways are the same exactly when repeated
entries spoil nothing. -/
theorem sameRouters_iff (h : Named cfg) (hread : ReadFor cfg node config conf)
    (hr : Node.Configured env cfg node r)
    (hr' : Node.Configured env conf node r') :
    SameRouters r r' <-> SamePlaces env cfg node := by
  constructor
  · intro hsame
    exact
      { placed := fun comp hcomp => placed_of_same h hread hr hr' hsame hcomp
        once := fun conn hconn hplace =>
          once_of_same h hread hr hr' hsame hconn hplace
        away := fun conn hconn hplace haway =>
          away_of_same h hread hr hr' hsame hconn hplace haway }
  · intro hplaces
    have hnames : forall c, c ∈ r.components <-> c ∈ r'.components := by
      intro c
      rw [mem_direct h hr, mem_terminal h hread hr']
      constructor
      · intro hc
        rcases hc with ⟨hplace, comp, hcomp, rfl⟩
        exact (hplaces.placed comp hcomp).mp hplace
      · intro hc
        rcases List.mem_map.mp hc.left with ⟨m, hm, hname⟩
        rcases h.mappedComponents m (List.mem_filter.mp hm).left with
          ⟨comp, hcomp, hcompName⟩
        have heq : comp.name = c := hcompName.trans hname
        rw [← heq] at hc ⊢
        exact ⟨(hplaces.placed comp hcomp).mpr hc, comp, hcomp, rfl⟩
    exact
      { names := hnames
        kinds := by
          intro c hc
          rcases hr.kinds c hc with ⟨object, hobject, hkind⟩
          have hc' := (hnames c).mp hc
          rcases hr'.kinds c hc' with ⟨object', hobject', hkind'⟩
          have hlisted := ((mem_terminal h hread hr').mp hc').left
          rw [← listed_placed h] at hlisted
          rw [kindNameOf_read hread hlisted] at hkind'
          have hsame := hkind.symm.trans hkind'
          rw [hobject, hobject']
          exact hsame
        localRoutes := by
          intro c hc p
          have hplace := ((mem_direct h hr).mp hc).left
          rw [hr.built.localRoutes c hc,
            hr'.built.localRoutes c ((hnames c).mp hc)]
          exact (routesOf_same h hread hplaces hplace p).left.symm
        remoteRoutes := by
          intro c hc p
          exact remoteRoutes_same h hread hr hr' hplaces hc
            ((hnames c).mp hc) p }

theorem full_of_same (hr : Node.Configured env cfg node r)
    (hsame : SameRouters r r') : r'.Full := by
  intro c hc'
  have hc := (hsame.names c).mpr hc'
  rcases hr.kinds c hc with ⟨object, hobject, _⟩
  have hkinds := hsame.kinds c hc
  rw [hobject] at hkinds
  rcases Option.map_eq_some_iff.mp hkinds.symm with ⟨object', hobject', _⟩
  exact ⟨object', hobject'⟩

end Agreement

/-!
## The connections of both ways
-/

section Wires

variable {env : Platform} {cfg : Parser.Configuration} {node : String}
  {config : Protocol.Deploy.Config} {conf : Parser.Configuration}

theorem isSome_of_endpointOf {info : NodeInfo} {endpoint : Endpoint}
    (h : endpointOf env info = some endpoint) :
    (env.fromString info.address).isSome := by
  rw [(endpointOf_eq_some.mp h).left]
  rfl

theorem wirable_first (h : Named cfg) (hplaces : SamePlaces env cfg node) :
    Node.Wirable env cfg node := by
  apply Node.wirable_of_opening (destinationsBuilt_first h)
  intro x conn hx hopening
  have hfind := hopening
  rw [opening_first h] at hfind
  have hmem := List.mem_of_find?_eq_some hfind
  have hleaves := List.find?_some hfind
  rcases of_decide_eq_true hleaves with ⟨hsource, rfl⟩
  rcases hplaces.away conn hmem hsource hx with ⟨endpoint, hfirst, _⟩
  rw [openingInfo_eq h hopening] at hfirst
  exact isSome_of_endpointOf hfirst

theorem firstPlace_of_announced (h : Named cfg)
    (hread : ReadFor cfg node config conf)
    (hplaces : SamePlaces env cfg node) {conn : Parser.Connection}
    (hconn : conn ∈ cfg.connections)
    (hsource : conn.source ∈ Node.instancesOn conf node) :
    firstPlace cfg conn.source = node := by
  rcases h.sources conn hconn with ⟨comp, hcomp, hname⟩
  rw [mem_instancesOn_announced h hread, ← hname] at hsource
  rw [← hname]
  exact (hplaces.placed comp hcomp).mpr hsource

theorem destinationsBuilt_announced (h : Named cfg)
    (hread : ReadFor cfg node config conf)
    (hplaces : SamePlaces env cfg node) :
    Node.DestinationsBuilt conf node := by
  intro conn hconn hsource hhere
  have hmem := ((mem_connections_placed h hread).mp hconn).left
  have hplace := firstPlace_of_announced h hread hplaces hmem hsource
  have hannounced : announcedPlace cfg node conn.dest = node :=
    (homeOf_announcedPlace h hread conn.dest).symm.trans hhere
  have hfirst := (here_iff h hplaces hmem hplace).mpr hannounced
  rcases h.destinations conn hmem with ⟨dest, hdest, hname⟩
  rw [mem_instancesOn_announced h hread, ← hname]
  rw [← hname] at hfirst
  exact (hplaces.placed dest hdest).mp hfirst

theorem wirable_announced (h : Named cfg)
    (hread : ReadFor cfg node config conf)
    (hplaces : SamePlaces env cfg node) :
    Node.Wirable env conf node := by
  apply Node.wirable_of_opening (destinationsBuilt_announced h hread hplaces)
  intro x conn hx hopening
  have hconn := List.mem_of_find?_eq_some hopening
  have hleaves := List.find?_some hopening
  rcases of_decide_eq_true hleaves with ⟨hsource, hhome⟩
  have hmem := ((mem_connections_placed h hread).mp hconn).left
  have hplace := firstPlace_of_announced h hread hplaces hmem hsource
  have haway : announcedPlace cfg node conn.dest ≠ node := by
    rw [← homeOf_announcedPlace h hread]
    intro hnode
    exact hx (hhome.symm.trans hnode)
  have haway' : firstPlace cfg conn.dest ≠ node := by
    rw [ne_eq, here_iff h hplaces hmem hplace]
    exact haway
  rcases hplaces.away conn hmem hplace haway' with ⟨endpoint, _, hlast⟩
  rw [← homeOf_away h hread hconn haway] at hlast
  exact isSome_of_endpointOf hlast

end Wires

/-!
## Both deployments
-/

section Deployments

variable {env : Platform} {cfg : Parser.Configuration} {node : String}
  {n direct terminal : Protort.Node} {p : Projection}

theorem exists_read (h : Named cfg)
    (hp : asyncDeploy node (parseDeploy cfg) = some p) :
    exists conf, Node.configurationOfPacket p.configuration = some conf ∧
      ReadFor cfg node p.configuration conf := by
  have hkinds := (asyncDeploy_returns_iff h).mp ⟨p, hp⟩
  rcases @asyncDeploy_packet (parseDeploy cfg) node (listed cfg node) rfl
    (fun c hc => by
      rw [get_mapComponents_kind]
      rw [listed_placed h] at hc
      exact hkinds c hc) with ⟨p', hp', _, hpacket⟩
  rcases Option.some.inj (hp.symm.trans hp') with rfl
  exact readFor_of_packet hpacket

theorem port_read (h : Named cfg) {config : Protocol.Deploy.Config}
    {conf : Parser.Configuration} (hread : ReadFor cfg node config conf) :
    config.thisNodeInfo.port = (lastHost cfg node).port := by
  rw [hread.packet.thisPort, h.unpaired.host_mapNode]

theorem direct_configured (h : Named cfg) (hempty : n.router.components = ∅)
    (hclients : n.router.clients = ∅)
    (hdirect : Node.deployFromConfig env cfg { n with nodeName := node } =
      EStateM.Result.ok PUnit.unit direct) :
    Node.Configured env cfg node direct.router := by
  rcases Node.deployFromConfig_ok_iff.mp hdirect with ⟨m, hloops, _, rfl⟩
  exact (Node.deployLoops_configured
    (n := { n with nodeName := node }) hempty hclients
    (destinationsBuilt_first h) hloops).right

theorem terminal_configured {config : Protocol.Deploy.Config}
    {conf : Parser.Configuration}
    (hconf : Node.configurationOfPacket config = some conf)
    (hread : ReadFor cfg node config conf)
    (hempty : n.router.components = ∅) (hclients : n.router.clients = ∅)
    (hbuilt : terminal.router.Full ∨ Node.DestinationsBuilt conf node)
    (hterminal : Node.deployFromPacket env config n =
      EStateM.Result.ok PUnit.unit terminal) :
    Node.Configured env conf node terminal.router := by
  rcases Node.deployFromPacket_ok_iff.mp hterminal with
    ⟨conf', m, hconf', hloops, _, rfl⟩
  rcases Option.some.inj (hconf.symm.trans hconf') with rfl
  have hname : (Node.named config n).nodeName = node := hread.packet.thisName
  have hdests : Node.DestinationsBuilt conf (Node.named config n).nodeName := by
    rcases hbuilt with hfull | hdests
    · exact (Node.deployLoops_full_iff (n := Node.named config n) hempty
        hclients (fun comp hcomp => Node.kind_of_packet hconf hcomp)
        hloops).mp hfull
    · rw [hname]
      exact hdests
  have hbuilt := (Node.deployLoops_configured (n := Node.named config n)
    hempty hclients hdests hloops).right
  rw [hname] at hbuilt
  exact hbuilt

theorem terminal_returns {config : Protocol.Deploy.Config}
    {conf : Parser.Configuration}
    (hconf : Node.configurationOfPacket config = some conf)
    (hread : ReadFor cfg node config conf)
    (hempty : n.router.components = ∅) (hclients : n.router.clients = ∅)
    (hwirable : Node.Wirable env conf node)
    (hbind : env.bind config.thisNodeInfo.port.toUInt16 = true) :
    exists terminal, Node.deployFromPacket env config n =
      EStateM.Result.ok PUnit.unit terminal := by
  have hname : (Node.named config n).nodeName = node := hread.packet.thisName
  have hloops := (@Node.deployLoops_ok_iff env conf (Node.named config n)
    hempty hclients).mpr
    ⟨fun comp hcomp _ => Node.kind_of_packet hconf hcomp, by
      rw [hname]
      exact hwirable⟩
  rcases hloops with ⟨m, hrun⟩
  exact ⟨_, Node.deployFromPacket_ok_iff.mpr ⟨conf, m, hconf, hrun, hbind, rfl⟩⟩

theorem direct_returns_iff (h : Named cfg) (hempty : n.router.components = ∅)
    (hclients : n.router.clients = ∅) :
    (exists direct, Node.deployFromConfig env cfg
        { n with nodeName := node } =
          EStateM.Result.ok PUnit.unit direct) <->
      (forall comp, comp ∈ cfg.components ->
        firstPlace cfg comp.name = node ->
          (Components.getComponentKind comp.kind).isSome) ∧
      Node.Wirable env cfg node ∧ env.bind n.port.toUInt16 = true := by
  have hloops := @Node.deployLoops_ok_iff env cfg
    { n with nodeName := node } hempty hclients
  have hfirst : (forall comp, comp ∈ cfg.components ->
      (Node.homeOf cfg comp.name).name = node ->
        (Components.getComponentKind comp.kind).isSome) <->
      (forall comp, comp ∈ cfg.components ->
        firstPlace cfg comp.name = node ->
          (Components.getComponentKind comp.kind).isSome) := by
    refine forall_congr' fun comp => imp_congr_right fun _ => ?_
    rw [homeOf_firstPlace h]
  constructor
  · intro hdirect
    rcases hdirect with ⟨direct, hdirect⟩
    rcases Node.deployFromConfig_ok_iff.mp hdirect with ⟨m, hrun, hbind, _⟩
    rcases hloops.mp ⟨m, hrun⟩ with ⟨hkinds, hwirable⟩
    exact ⟨hfirst.mp hkinds, hwirable, hbind⟩
  · intro hsuits
    rcases hsuits with ⟨hkinds, hwirable, hbind⟩
    rcases hloops.mpr ⟨hfirst.mpr hkinds, hwirable⟩ with ⟨m, hrun⟩
    exact ⟨_, Node.deployFromConfig_ok_iff.mpr ⟨m, hrun, hbind, rfl⟩⟩

/-- The two ways to deploy give a node the same router exactly when both can be
gone and repeated entries are read in the same way. -/
theorem deployment_paths_agree_iff (h : Named cfg)
    (hempty : n.router.components = ∅) (hclients : n.router.clients = ∅) :
    PathsAgree env cfg node n <-> SuitsBothWays env cfg node n.port := by
  constructor
  · intro hagree
    rcases hagree with ⟨direct, p, terminal, hdirect, hp, hterminal, hsame⟩
    rcases exists_read h hp with ⟨conf, hconf, hread⟩
    have hr := direct_configured h hempty hclients hdirect
    have hr' := terminal_configured hconf hread hempty hclients
      (Or.inl (full_of_same hr hsame)) hterminal
    rcases (direct_returns_iff h hempty hclients).mp ⟨direct, hdirect⟩ with
      ⟨hkinds, _, hbind⟩
    rcases Node.deployFromPacket_ok_iff.mp hterminal with
      ⟨_, _, _, _, hbind', _⟩
    rw [port_read h hread] at hbind'
    exact
      { kinds := hkinds
        listedKinds := (asyncDeploy_returns_iff h).mp ⟨p, hp⟩
        bound := ⟨hbind, hbind'⟩
        places := (sameRouters_iff h hread hr hr').mp hsame }
  · intro hsuits
    have hplaces := hsuits.places
    rcases (direct_returns_iff h hempty hclients).mpr
      ⟨hsuits.kinds, wirable_first h hplaces, hsuits.bound.left⟩ with
      ⟨direct, hdirect⟩
    rcases (asyncDeploy_returns_iff h).mpr hsuits.listedKinds with ⟨p, hp⟩
    rcases exists_read h hp with ⟨conf, hconf, hread⟩
    have hbind := hsuits.bound.right
    rw [← port_read h hread] at hbind
    rcases terminal_returns hconf hread hempty hclients
      (wirable_announced h hread hplaces) hbind with ⟨terminal, hterminal⟩
    have hr := direct_configured h hempty hclients hdirect
    have hr' := terminal_configured hconf hread hempty hclients
      (Or.inr (destinationsBuilt_announced h hread hplaces)) hterminal
    exact ⟨direct, p, terminal, hdirect, hp, hterminal,
      (sameRouters_iff h hread hr hr').mpr hplaces⟩

theorem suitsBothWays_twoNodes :
    SuitsBothWays Platform.loopback twoNodes "n1" (Node.new 100 0).port :=
  { kinds := by decide +kernel
    listedKinds := by decide +kernel
    bound := ⟨rfl, rfl⟩
    places :=
      { placed := by decide +kernel
        once := by decide +kernel
        away := by
          have haway : forall conn, conn ∈ twoNodes.connections ->
              firstPlace twoNodes conn.dest ≠ "n1" -> conn.dest = "t" := by
            decide +kernel
          intro conn hconn _ hdest
          rw [haway conn hconn hdest]
          exact ⟨⟨2130706433, 200⟩, by decide +kernel, by decide +kernel⟩ } }

theorem deployment_paths_agree_twoNodes :
    PathsAgree Platform.loopback twoNodes "n1" (Node.new 100 0) := by
  have hnamed : Named twoNodes :=
    { unpaired := by
        unfold Unpaired
        decide
      mappedComponents := by decide
      mappedNodes := by decide
      sources := by decide
      destinations := by decide }
  exact (deployment_paths_agree_iff hnamed rfl rfl).mpr suitsBothWays_twoNodes

/-- One node, whose generator is mapped to it twice. -/
def mappedTwice : Parser.Configuration :=
  { components := [⟨"g", "generator"⟩, ⟨"t", "terminator"⟩]
    connections := [⟨"g", 0, "t", 0⟩]
    nodes := [⟨"n1", ⟨"127.0.0.1", 100, 101⟩, none⟩]
    mappings := [⟨"g", "n1"⟩, ⟨"t", "n1"⟩, ⟨"g", "n1"⟩] }

def routesAfter (result : EStateM.Result Node.Fault Protort.Node PUnit) :
    Option (List Node.LocalRoute) :=
  match result with
  | EStateM.Result.ok _ n => some (n.router.routesAt "g" 0).localRoutes
  | EStateM.Result.error _ _ => none

/-- Its connection is in the packet twice, and each of its packets reaches the
terminator twice. -/
theorem mappedTwice_disagrees :
    Named mappedTwice ∧
    (exists x, x ∈ mappedTwice.nodes ∧ x.name = "n1") ∧
    routesAfter (Node.deployFromConfig Platform.loopback mappedTwice
      { Node.new 100 0 with nodeName := "n1" }) = some [⟨0, "t"⟩] ∧
    (asyncDeploy "n1" (parseDeploy mappedTwice)).bind (fun p =>
      routesAfter (Node.deployFromPacket Platform.loopback p.configuration
        (Node.new 100 0))) = some [⟨0, "t"⟩, ⟨0, "t"⟩] ∧
    ¬ PathsAgree Platform.loopback mappedTwice "n1" (Node.new 100 0) := by
  have hnamed : Named mappedTwice :=
    { unpaired := by
        unfold Unpaired
        decide
      mappedComponents := by decide
      mappedNodes := by decide
      sources := by decide
      destinations := by decide }
  have hdeployed : routesAfter (Node.deployFromConfig Platform.loopback
      mappedTwice { Node.new 100 0 with nodeName := "n1" }) =
        some [⟨0, "t"⟩] ∧
      "g" ∈ placedComponents mappedTwice "n1" := by
    decide +kernel
  have hpacket : (asyncDeploy "n1" (parseDeploy mappedTwice)).bind (fun p =>
      routesAfter (Node.deployFromPacket Platform.loopback p.configuration
        (Node.new 100 0))) = some [⟨0, "t"⟩, ⟨0, "t"⟩] := by
    decide +kernel
  refine ⟨hnamed, by decide, hdeployed.left, hpacket, ?_⟩
  intro hagree
  rcases hagree with ⟨direct, p, terminal, hdirect, hp, hterminal, hsame⟩
  have hr := direct_configured hnamed rfl rfl hdirect
  have hg : "g" ∈ direct.router.components :=
    (mem_direct hnamed hr).mpr ⟨by decide +kernel, by decide⟩
  have hroutes := hsame.localRoutes "g" hg 0
  rw [hdirect] at hdeployed
  rw [hp] at hpacket
  have hone := Option.some.inj hdeployed.left
  have htwo : routesAfter (Node.deployFromPacket Platform.loopback
      p.configuration (Node.new 100 0)) = some [⟨0, "t"⟩, ⟨0, "t"⟩] := hpacket
  rw [hterminal] at htwo
  have htwo := Option.some.inj htwo
  rw [hroutes] at hone
  cases hone.symm.trans htwo

end Deployments

end System
end Protort
