import Protort.System.Placement

/-!
# The router that a deployment builds

Parsing, projection, transport and rebuilding in one: for every key of the
terminal's node map the router that the receiving node builds is described by
the configuration and by where the packet places the components.
-/

namespace Protort
namespace System

open Lib (Table)
open Lib.Exceptions
open Terminal

/-!
## Grouped connections

The packet lists the connections component by component.
-/

section Grouping

variable {cfg : Parser.Configuration} {comp : String}
  {q : Parser.Connection -> Bool}

theorem filter_connectionsFrom_self
    (hq : forall conn, q conn = true -> conn.source = comp) :
    (connectionsFrom cfg comp).filter q = cfg.connections.filter q := by
  unfold connectionsFrom
  rw [List.filter_filter]
  apply List.filter_congr
  intro conn _
  by_cases h : q conn = true
  · simp [h, hq conn h]
  · simp [h]

theorem filter_connectionsFrom_ne
    (hq : forall conn, q conn = true -> conn.source = comp) {other : String}
    (hne : other ≠ comp) :
    (connectionsFrom cfg other).filter q = [] := by
  rw [List.filter_eq_nil_iff]
  intro conn hconn hqc
  have hsource := (List.mem_filter.mp hconn).right
  exact hne ((of_decide_eq_true hsource).symm.trans (hq conn hqc))

theorem filter_flatMap_connectionsFrom
    (hq : forall conn, q conn = true -> conn.source = comp)
    {comps : List String} (hnodup : comps.Nodup) (hcomp : comp ∈ comps) :
    (comps.flatMap (connectionsFrom cfg)).filter q =
      cfg.connections.filter q := by
  induction comps with
  | nil => cases hcomp
  | cons c rest ih =>
      rw [List.nodup_cons] at hnodup
      rw [List.flatMap_cons, List.filter_append]
      by_cases hc : c = comp
      · subst c
        have hrest : (rest.flatMap (connectionsFrom cfg)).filter q = [] := by
          rw [List.filter_eq_nil_iff]
          intro conn hconn hqc
          rcases List.mem_flatMap.mp hconn with ⟨other, hother, hfrom⟩
          have hsource := of_decide_eq_true (List.mem_filter.mp hfrom).right
          exact hnodup.left ((hq conn hqc) ▸ hsource ▸ hother)
        rw [hrest, List.append_nil, filter_connectionsFrom_self hq]
      · rw [filter_connectionsFrom_ne hq hc, List.nil_append]
        rcases List.mem_cons.mp hcomp with heq | hrest
        · exact absurd heq.symm hc
        · exact ih hnodup.right hrest

theorem localRoutesOf_grouped (home : String -> String) (node : String)
    {comps : List String} (hnodup : comps.Nodup) (hcomp : comp ∈ comps)
    (port : Parser.PortId) :
    Node.localRoutesOf home node (comps.flatMap (connectionsFrom cfg)) comp
        port =
      Node.localRoutesOf home node cfg.connections comp port := by
  unfold Node.localRoutesOf
  rw [filter_flatMap_connectionsFrom
    (fun conn hconn => (of_decide_eq_true hconn).left) hnodup hcomp]

theorem remoteRoutesOf_grouped (home : String -> String) (node : String)
    {comps : List String} (hnodup : comps.Nodup) (hcomp : comp ∈ comps)
    (port : Parser.PortId) :
    Node.remoteRoutesOf home node (comps.flatMap (connectionsFrom cfg)) comp
        port =
      Node.remoteRoutesOf home node cfg.connections comp port := by
  unfold Node.remoteRoutesOf
  rw [filter_flatMap_connectionsFrom
    (fun conn hconn => (of_decide_eq_true hconn).left) hnodup hcomp]

end Grouping

theorem localRoutesOf_congr {home home' : String -> String} {node : String}
    {conns : List Parser.Connection} {comp : String} (port : Parser.PortId)
    (h : forall conn, conn ∈ conns -> conn.source = comp ->
      home conn.dest = home' conn.dest) :
    Node.localRoutesOf home node conns comp port =
      Node.localRoutesOf home' node conns comp port := by
  unfold Node.localRoutesOf
  congr 1
  apply List.filter_congr
  intro conn hconn
  by_cases hsource : conn.source = comp
  · rw [h conn hconn hsource]
  · simp [hsource]

theorem remoteRoutesOf_congr {home home' : String -> String} {node : String}
    {conns : List Parser.Connection} {comp : String} (port : Parser.PortId)
    (h : forall conn, conn ∈ conns -> conn.source = comp ->
      home conn.dest = home' conn.dest) :
    Node.remoteRoutesOf home node conns comp port =
      Node.remoteRoutesOf home' node conns comp port := by
  unfold Node.remoteRoutesOf
  congr 1
  apply List.filter_congr
  intro conn hconn
  by_cases hsource : conn.source = comp
  · rw [h conn hconn hsource]
  · simp [hsource]

/-!
## The router for a key
-/

/-- A router that runs the components of a list that have their home on the
node, with the connections of the configuration as its routes. -/
structure RouterFor (env : Platform) (cfg : Parser.Configuration)
    (home : String -> String) (comps : List String) (node : String)
    (r : Node.Router) : Prop where
  mem : forall c, c ∈ r.components <-> c ∈ comps ∧ home c = node
  components : forall c, c ∈ r.components ->
    exists comp address kind, comp ∈ cfg.components ∧ comp.name = c ∧
      Components.getComponentKind comp.kind = some kind ∧
      (Table.get r.components c).component =
        some (Node.newComponent address r.address kind c)
  names : forall c, c ∈ r.components -> (Table.get r.components c).name = c
  emitted : forall c, c ∈ r.components ->
    (Table.get r.components c).emitted = []
  localRoutes : forall c, c ∈ r.components -> forall p,
    (r.routesAt c p).localRoutes =
      Node.localRoutesOf home node cfg.connections c p
  remoteRoutes : forall c, c ∈ r.components -> forall p,
    (r.routesAt c p).remoteRoutes.map Node.RemoteRoute.target =
      Node.remoteRoutesOf home node cfg.connections c p
  remoteClients : forall c, c ∈ r.components -> forall p route,
    route ∈ (r.routesAt c p).remoteRoutes ->
      r.clients.lookup (home route.name) = some route.client
  clients : forall x client, r.clients.lookup x = some client -> x ≠ node ∧
    exists n, n ∈ cfg.nodes ∧ n.name = x ∧
      env.fromString n.host.ipAddress = some client.endpoint.address ∧
      client.endpoint.port = n.host.port.toUInt16

section Keys

variable {env : Platform} {cfg : Parser.Configuration} {key : String}

structure ReadFor (cfg : Parser.Configuration) (key : String)
    (config : Protocol.Deploy.Config) (conf : Parser.Configuration) : Prop where
  packet : PacketFor (parseDeploy cfg) key (listed cfg key) config
  components : conf.components = (listed cfg key).map (fun c =>
    { name := c
      kind := (Table.get (parseDeploy cfg).mapComponents c).kind })
  connections : conf.connections =
    (listed cfg key).flatMap (connectionsFrom cfg)
  nodes : conf.nodes = config.nodeInfos.map Node.nodeOfInfo
  mappings : conf.mappings = config.maps.map Node.mappingOfMap

namespace ReadFor

variable {config : Protocol.Deploy.Config} {conf : Parser.Configuration}

theorem home (hread : ReadFor cfg key config conf) (h : Deployable env cfg)
    (comp : String) :
    (Node.homeOf conf comp).name = packetHome cfg key comp :=
  homeOf_name h hread.packet hread.nodes hread.mappings comp

theorem mem_connections (hread : ReadFor cfg key config conf)
    {conn : Parser.Connection} :
    conn ∈ conf.connections <->
      conn ∈ cfg.connections ∧ conn.source ∈ listed cfg key := by
  rw [hread.connections, List.mem_flatMap]
  constructor
  · intro h
    rcases h with ⟨c, hc, hconn⟩
    rcases List.mem_filter.mp hconn with ⟨hmem, hsource⟩
    have hsource' : conn.source = c := of_decide_eq_true hsource
    exact ⟨hmem, hsource' ▸ hc⟩
  · intro h
    rcases h with ⟨hmem, hsource⟩
    exact ⟨conn.source, hsource,
      List.mem_filter.mpr ⟨hmem, decide_eq_true rfl⟩⟩

theorem address_of_away (hread : ReadFor cfg key config conf)
    (h : Deployable env cfg) (hkey : key ∈ (parseDeploy cfg).mapNode)
    {conn : Parser.Connection} (hconn : conn ∈ conf.connections)
    (haway : (Node.homeOf conf conn.dest).name ≠ key) :
    exists n, n ∈ cfg.nodes ∧ n.name = (Node.homeOf conf conn.dest).name ∧
      (Node.homeOf conf conn.dest).address = n.host.ipAddress ∧
      (Node.homeOf conf conn.dest).port = n.host.port := by
  rcases hread.mem_connections.mp hconn with ⟨hmem, hsource⟩
  rcases packetHome_cases h hkey (Or.inr ⟨conn, hmem, hsource, rfl⟩) with
    ⟨m, hm, _, hcase⟩
  rw [homeOf_eq h hread.packet hread.nodes hread.mappings hm] at haway ⊢
  rcases hcase with ⟨_, hnode⟩ | ⟨hplaced, _⟩
  · exact absurd hnode haway
  · rcases h.destinations conn hmem with ⟨c, hc, hname⟩
    rcases placedOn_declared h hc with ⟨n, hn, hnplaced⟩
    have hnode : n.name = m.nodeName := by
      rw [hnplaced, hname, hplaced]
    refine ⟨n, hn, hnode, ?_, ?_⟩
    · rw [← hnode]
      exact congrArg (fun n : Parser.Node => n.host.ipAddress)
        (h.get_mapNode hn)
    · rw [← hnode]
      exact congrArg (fun n : Parser.Node => n.host.port) (h.get_mapNode hn)

theorem buildable (hread : ReadFor cfg key config conf)
    (h : Deployable env cfg) (hkey : key ∈ (parseDeploy cfg).mapNode) :
    Node.Buildable env conf key :=
  { kinds := by
      intro comp hcomp _
      rw [hread.components] at hcomp
      rcases List.mem_map.mp hcomp with ⟨c, hc, rfl⟩
      rcases listed_declared h hkey hc with ⟨decl, hdecl, rfl⟩
      rw [h.get_mapComponents hdecl]
      exact h.kinds decl hdecl
    localDests := by
      intro conn hconn hhome
      rcases hread.mem_connections.mp hconn with ⟨hmem, hsource⟩
      rw [hread.home h] at hhome
      rcases packetHome_cases h hkey (Or.inr ⟨conn, hmem, hsource, rfl⟩) with
        ⟨m, _, hm, ⟨hlisted, _⟩ | ⟨_, haway⟩⟩
      · rw [hread.components]
        exact ⟨_, List.mem_map_of_mem hlisted, rfl⟩
      · exact absurd (hm.symm.trans hhome) haway
    addresses := by
      intro conn hconn haway
      rcases hread.address_of_away h hkey hconn haway with
        ⟨n, hn, _, haddress, _⟩
      rw [haddress]
      exact h.addresses n hn }

theorem routerFor (hread : ReadFor cfg key config conf)
    (h : Deployable env cfg) (hkey : key ∈ (parseDeploy cfg).mapNode)
    {r : Node.Router} (hr : Node.RouterBuilt env conf key r) :
    RouterFor env cfg (packetHome cfg key) (listed cfg key) key r := by
  have hhome : (fun d => (Node.homeOf conf d).name) = packetHome cfg key := by
    funext d
    exact hread.home h d
  have hmem : forall c, c ∈ r.components <->
      c ∈ listed cfg key ∧ packetHome cfg key c = key := by
    intro c
    rw [hr.mem c, hread.home h, hread.components]
    constructor
    · intro h
      rcases h with ⟨hc, comp, hcomp, rfl⟩
      rcases List.mem_map.mp hcomp with ⟨c, hlisted, rfl⟩
      exact ⟨hlisted, hc⟩
    · intro h
      rcases h with ⟨hlisted, hc⟩
      exact ⟨hc, _, List.mem_map_of_mem hlisted, rfl⟩
  exact
    { mem := hmem
      components := by
        intro c hc
        rcases hr.components c hc with
          ⟨comp, address, kind, hcomp, rfl, hkind, hobject⟩
        rw [hread.components] at hcomp
        rcases List.mem_map.mp hcomp with ⟨c, hlisted, rfl⟩
        rcases listed_declared h hkey hlisted with ⟨decl, hdecl, rfl⟩
        rw [h.get_mapComponents hdecl] at hkind
        exact ⟨decl, address, kind, hdecl, rfl, hkind, hobject⟩
      names := hr.names
      emitted := hr.emitted
      localRoutes := by
        intro c hc p
        rw [hr.localRoutes c hc p, hhome, hread.connections]
        exact localRoutesOf_grouped _ _ (listed_nodup h hkey)
          ((hmem c).mp hc).left p
      remoteRoutes := by
        intro c hc p
        rw [hr.remoteRoutes c hc p, hhome, hread.connections]
        exact remoteRoutesOf_grouped _ _ (listed_nodup h hkey)
          ((hmem c).mp hc).left p
      remoteClients := by
        intro c hc p route hroute
        rw [← hread.home h]
        exact hr.remoteClients c hc p route hroute
      clients := by
        intro x client hx
        rcases hr.clients x client hx with
          ⟨conn, hconn, _, rfl, hne, haddress, hport⟩
        rcases hread.address_of_away h hkey hconn hne with
          ⟨n, hn, hname, hnaddress, hnport⟩
        rw [hnaddress] at haddress
        rw [hnport] at hport
        exact ⟨hne, n, hn, hname, haddress, hport⟩ }

end ReadFor

theorem readFor_of_packet {config : Protocol.Deploy.Config}
    (hpacket : PacketFor (parseDeploy cfg) key (listed cfg key) config) :
    exists conf, Node.configurationOfPacket config = some conf ∧
      ReadFor cfg key config conf := by
  refine ⟨_, configurationOfPacket_eq hpacket, ?_⟩
  exact
    { packet := hpacket
      components := rfl
      connections := by
        have hfrom : (fun c => Table.get
            (parseDeploy cfg).mapComponentWithConnections c) =
              connectionsFrom cfg := by
          funext c
          exact get_mapComponentWithConnections cfg c
        rw [hfrom]
      nodes := rfl
      mappings := rfl }

/-- Deploying the packet for a key: nothing fails before the port is opened,
and the router stands by then. -/
theorem deploy_key (h : Deployable env cfg)
    (hkey : key ∈ (parseDeploy cfg).mapNode) {n : Protort.Node}
    (hcomponents : n.router.components = ∅)
    (hclients : n.router.clients = ∅) :
    exists p, asyncDeploy key (parseDeploy cfg) = some p ∧
      exists n', Node.deployFromPacket env p.configuration n =
          Node.listen env
            (Table.get (parseDeploy cfg).mapNode key).host.port n' ∧
        n'.service = n.service ∧ n'.outbox = n.outbox ∧
        RouterFor env cfg (packetHome cfg key) (listed cfg key) key
          n'.router := by
  have hkinds : forall c, c ∈ listed cfg key ->
      (Components.getComponentKind
        (Table.get (parseDeploy cfg).mapComponents c).kind).isSome := by
    intro c hc
    rcases listed_declared h hkey hc with ⟨comp, hcomp, rfl⟩
    rw [h.get_mapComponents hcomp]
    exact h.kinds comp hcomp
  rcases @asyncDeploy_packet (parseDeploy cfg) key (listed cfg key) rfl hkinds
    with ⟨p, hp, _, hpacket⟩
  rcases readFor_of_packet hpacket with ⟨conf, hparsed, hread⟩
  have hconf := hread.buildable h hkey
  rw [← hpacket.thisName] at hconf
  rcases Node.deployFromPacket_built hparsed hcomponents hclients hconf with
    ⟨n', hrun, hservice, houtbox, hrouter⟩
  rw [hpacket.thisPort] at hrun
  rw [hpacket.thisName] at hrouter
  exact ⟨p, hp, n', hrun, hservice, houtbox,
    hread.routerFor h hkey hrouter⟩

end Keys

end System
end Protort
