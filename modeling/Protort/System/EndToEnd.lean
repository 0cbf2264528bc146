import Protort.System.Deployment

/-!
# End-to-end deployment

The packet of a declared node names one home for every component, the one its
mapping gives it.  So each node builds exactly what the configuration places
there.  Without backup nodes the condition that a deployable configuration puts
on their names is empty.
-/

namespace Protort
namespace System

open Lib (Table firstEntry)
open Lib.Exceptions
open Terminal

def mappedTo (cfg : Parser.Configuration) (comp : String) : String :=
  ((firstEntry (fun m : Parser.Mapping => m.compName) cfg.mappings comp).map
    (fun m => m.nodeName)).getD ""

section Mapped

variable {env : Platform} {cfg : Parser.Configuration}

theorem mappedTo_eq (h : Deployable env cfg) {m : Parser.Mapping}
    (hm : m ∈ cfg.mappings) : mappedTo cfg m.compName = m.nodeName := by
  have hfirst : firstEntry (fun m : Parser.Mapping => m.compName)
      cfg.mappings m.compName = some m :=
    Lib.firstEntry_of_agree hm
      (fun x hx hname => List.inj_on_of_nodup_map h.mappingNames hx hm hname)
  unfold mappedTo
  rw [hfirst]
  rfl

theorem placedOn_eq_mappedTo (h : Deployable env cfg) {c : Parser.Component}
    (hc : c ∈ cfg.components) : placedOn cfg c.name = mappedTo cfg c.name := by
  rcases h.exists_mapping hc with ⟨m, hm, hname⟩
  rw [← hname, h.placedOn_eq hm, mappedTo_eq h hm]

theorem mem_placedComponents_iff (h : Deployable env cfg)
    {c : Parser.Component} (hc : c ∈ cfg.components) {node : String} :
    c.name ∈ placedComponents cfg node <-> mappedTo cfg c.name = node := by
  rw [Deployable.mem_placedComponents]
  constructor
  · intro hm
    exact mappedTo_eq h hm
  · intro heq
    subst heq
    rcases h.exists_mapping hc with ⟨m, hm, hname⟩
    rw [← hname, mappedTo_eq h hm]
    exact hm

end Mapped

/-- A router that runs what a configuration maps to a node: these components
with their kinds, and for each of their outputs the connections to the node
itself as local routes and the others as remote routes, each over the one client
of the destination's node. -/
structure DeployedAs (env : Platform) (cfg : Parser.Configuration)
    (node : String) (r : Node.Router) : Prop where
  components : forall c, c ∈ r.components <->
    { compName := c, nodeName := node } ∈ cfg.mappings
  objects : forall c, c ∈ r.components ->
    exists comp address kind, comp ∈ cfg.components ∧ comp.name = c ∧
      Components.getComponentKind comp.kind = some kind ∧
      (Table.get r.components c).component =
        some (Node.newComponent address r.address kind c)
  names : forall c, c ∈ r.components -> (Table.get r.components c).name = c
  emitted : forall c, c ∈ r.components ->
    (Table.get r.components c).emitted = []
  localRoutes : forall c, c ∈ r.components -> forall p,
    (r.routesAt c p).localRoutes =
      Node.localRoutesOf (mappedTo cfg) node cfg.connections c p
  remoteRoutes : forall c, c ∈ r.components -> forall p,
    (r.routesAt c p).remoteRoutes.map Node.RemoteRoute.target =
      Node.remoteRoutesOf (mappedTo cfg) node cfg.connections c p
  remoteClients : forall c, c ∈ r.components -> forall p route,
    route ∈ (r.routesAt c p).remoteRoutes ->
      r.clients.lookup (mappedTo cfg route.name) = some route.client
  clients : forall x client, r.clients.lookup x = some client -> x ≠ node ∧
    exists n, n ∈ cfg.nodes ∧ n.name = x ∧
      env.fromString n.host.ipAddress = some client.endpoint.address ∧
      client.endpoint.port = n.host.port.toUInt16

section Declared

variable {env : Platform} {cfg : Parser.Configuration} {N : Parser.Node}

theorem mem_mapNode_of_mem (h : Deployable env cfg) (hN : N ∈ cfg.nodes) :
    N.name ∈ (parseDeploy cfg).mapNode :=
  h.mem_mapNode.mpr ⟨N, hN, Or.inl rfl⟩

theorem packetHome_declared (h : Deployable env cfg) (hN : N ∈ cfg.nodes)
    {c : Parser.Component} (hc : c ∈ cfg.components)
    (hcomp : c.name ∈ listed cfg N.name ∨
      exists conn, conn ∈ cfg.connections ∧
        conn.source ∈ listed cfg N.name ∧ conn.dest = c.name) :
    packetHome cfg N.name c.name = mappedTo cfg c.name := by
  rcases packetHome_cases h (mem_mapNode_of_mem h hN) hcomp with
    ⟨m, _, hhome, ⟨hlisted, hnode⟩ | ⟨hplaced, _⟩⟩
  · rw [hhome, hnode]
    unfold listed at hlisted
    rw [h.get_mapNodeWithComponents hN] at hlisted
    exact ((mem_placedComponents_iff h hc).mp hlisted).symm
  · rw [hhome, hplaced, placedOn_eq_mappedTo h hc]

/-- With one home for every component the two descriptions of a router agree. -/
theorem deployedAs_of_routerFor (h : Deployable env cfg) (hN : N ∈ cfg.nodes)
    {r : Node.Router}
    (hr : RouterFor env cfg (packetHome cfg N.name) (listed cfg N.name)
      N.name r) :
    DeployedAs env cfg N.name r := by
  have hlisted : listed cfg N.name = placedComponents cfg N.name :=
    h.get_mapNodeWithComponents hN
  have hhome : forall conn, conn ∈ cfg.connections ->
      conn.source ∈ r.components ->
        packetHome cfg N.name conn.dest = mappedTo cfg conn.dest := by
    intro conn hconn hsource
    rcases h.destinations conn hconn with ⟨c, hc, hname⟩
    have hsource' := ((hr.mem conn.source).mp hsource).left
    rw [← hname]
    exact packetHome_declared h hN hc
      (Or.inr ⟨conn, hconn, hsource', hname.symm⟩)
  exact
    { components := by
        intro c
        rw [hr.mem c, hlisted, ← Deployable.mem_placedComponents]
        constructor
        · intro hc
          exact hc.left
        · intro hc
          constructor
          · exact hc
          rcases h.mappedComponents _ (Deployable.mem_placedComponents.mp hc)
            with ⟨comp, hcomp, rfl⟩
          rw [packetHome_declared h hN hcomp (Or.inl (hlisted ▸ hc))]
          exact (mem_placedComponents_iff h hcomp).mp hc
      objects := hr.components
      names := hr.names
      emitted := hr.emitted
      localRoutes := by
        intro c hc p
        rw [hr.localRoutes c hc p]
        exact localRoutesOf_congr p (fun conn hconn hsource =>
          hhome conn hconn (hsource ▸ hc))
      remoteRoutes := by
        intro c hc p
        rw [hr.remoteRoutes c hc p]
        exact remoteRoutesOf_congr p (fun conn hconn hsource =>
          hhome conn hconn (hsource ▸ hc))
      remoteClients := by
        intro c hc p route hroute
        rw [← hr.remoteClients c hc p route hroute]
        have htarget : route.target ∈ Node.remoteRoutesOf
            (packetHome cfg N.name) N.name cfg.connections c p := by
          rw [← hr.remoteRoutes c hc p]
          exact List.mem_map_of_mem hroute
        rcases List.mem_map.mp htarget with ⟨conn, hconn, heq⟩
        rcases List.mem_filter.mp hconn with ⟨hmem, hfilter⟩
        have hsource := (of_decide_eq_true hfilter).left
        have hname : conn.dest = route.name := congrArg Prod.snd heq
        rw [← hname, hhome conn hmem (hsource ▸ hc)]
      clients := hr.clients }

end Declared

/-- Whatever the state of the receiving node, as long as its router is fresh:
the packet for a declared node is built, nothing fails before the port is
opened, and the router runs what the configuration maps to the node. -/
theorem deploy_declared {env : Platform} {cfg : Parser.Configuration}
    (h : Deployable env cfg) {N : Parser.Node} (hN : N ∈ cfg.nodes)
    (n : Protort.Node) (hcomponents : n.router.components = ∅)
    (hclients : n.router.clients = ∅) :
    exists p, asyncDeploy N.name (parseDeploy cfg) = some p ∧
      DeployedAs env cfg N.name
        (finalState (Node.deployFromPacket env p.configuration n)).router ∧
      (env.bind N.host.port.toUInt16 = true ->
        exists n', Node.deployFromPacket env p.configuration n =
          EStateM.Result.ok PUnit.unit n') := by
  rcases deploy_key h (mem_mapNode_of_mem h hN) hcomponents hclients with
    ⟨p, hp, n', hrun, _, _, hrouter⟩
  refine ⟨p, hp, ?_, ?_⟩
  · rw [hrun, Node.router_listen]
    exact deployedAs_of_routerFor h hN hrouter
  · intro hbind
    rw [h.get_mapNode hN] at hrun
    rw [hrun]
    unfold Node.listen
    rw [run_modify_bind, run_ite, if_pos hbind]
    exact ⟨_, rfl⟩

/-- Two nodes: a generator and a retranslator on the first, a terminator on the
second. -/
def twoNodes : Parser.Configuration :=
  { components :=
      [⟨"g", "generator"⟩, ⟨"r", "retranslator"⟩, ⟨"t", "terminator"⟩]
    connections :=
      [⟨"g", 0, "r", 0⟩, ⟨"r", 0, "t", 0⟩, ⟨"g", 1, "t", 1⟩]
    nodes :=
      [⟨"n1", ⟨"127.0.0.1", 100, 101⟩, none⟩,
        ⟨"n2", ⟨"127.0.0.1", 200, 201⟩, none⟩]
    mappings := [⟨"r", "n1"⟩, ⟨"t", "n2"⟩, ⟨"g", "n1"⟩] }

theorem twoNodes_deployable : Deployable Platform.loopback twoNodes :=
  { componentNames := by decide
    nodeNames := by decide
    backupNames := by decide
    kinds := by decide
    addresses := by decide
    mappedOnce := by decide
    mappedComponents := by decide
    mappedNodes := by decide
    sources := by decide
    destinations := by decide }

theorem deploy_declared_twoNodes :
    exists p, asyncDeploy "n1" (parseDeploy twoNodes) = some p ∧
      DeployedAs Platform.loopback twoNodes "n1"
        (finalState (Node.deployFromPacket Platform.loopback p.configuration
          (Node.new 0 0))).router ∧
      (Platform.loopback.bind 100 = true ->
        exists n', Node.deployFromPacket Platform.loopback p.configuration
          (Node.new 0 0) = EStateM.Result.ok PUnit.unit n') :=
  deploy_declared twoNodes_deployable
    (List.mem_cons_self : twoNodes.nodes.head (by decide) ∈ twoNodes.nodes)
    (Node.new 0 0) rfl rfl

end System
end Protort
