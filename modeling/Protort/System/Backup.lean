import Protort.System.EndToEnd

/-!
# Backup nodes

A backup node is listed with the components of its node, and the packet for it
names it as the home of each of them.  But a connection between two of these
components counts as one to another node, because the destination's own mapping
is to the declared node: it adds a map entry that names that node, and if the
destination is listed after the source, this entry comes before the one that
names the backup.  The backup then leaves the component out.
-/

namespace Protort
namespace System

open Lib.Exceptions
open Terminal
open Protocol.Deploy (Map)

def deployedRouter (env : Platform) (p : Projection) (n : Protort.Node) :
    Node.Router :=
  (finalState (Node.deployFromPacket env p.configuration n)).router

/-- Every key of the node map runs the components listed for it, and a backup
has the same local routes between them as its node. -/
structure FaithfulReplicas (env : Platform) (cfg : Parser.Configuration) :
    Prop where
  components : forall key, key ∈ (parseDeploy cfg).mapNode ->
    forall n : Protort.Node, n.router.components = ∅ ->
      n.router.clients = ∅ ->
        exists p, asyncDeploy key (parseDeploy cfg) = some p ∧
          forall c, c ∈ (deployedRouter env p n).components <->
            c ∈ listed cfg key
  localRoutes : forall N, N ∈ cfg.nodes -> N.pairnode.isSome ->
    forall conn, conn ∈ cfg.connections ->
      { compName := conn.source, nodeName := N.name } ∈ cfg.mappings ->
      { compName := conn.dest, nodeName := N.name } ∈ cfg.mappings ->
    forall (n : Protort.Node) (p : Projection),
      n.router.components = ∅ -> n.router.clients = ∅ ->
      asyncDeploy N.name (parseDeploy cfg) = some p ->
    forall (n' : Protort.Node) (p' : Projection),
      n'.router.components = ∅ -> n'.router.clients = ∅ ->
      asyncDeploy (pairnodeName N.name) (parseDeploy cfg) = some p' ->
      (⟨conn.destIn, conn.dest⟩ ∈ ((deployedRouter env p' n').routesAt
          conn.source conn.sourceOut).localRoutes <->
        ⟨conn.destIn, conn.dest⟩ ∈ ((deployedRouter env p n).routesAt
          conn.source conn.sourceOut).localRoutes)

/-- No component of a node with a backup is connected to one that is mapped to
the node later. -/
def MappedBackwards (cfg : Parser.Configuration) : Prop :=
  forall N, N ∈ cfg.nodes -> N.pairnode.isSome ->
    forall conn, conn ∈ cfg.connections ->
      ¬ [(⟨conn.source, N.name⟩ : Parser.Mapping),
        ⟨conn.dest, N.name⟩].Sublist cfg.mappings

section Backup

variable {env : Platform} {cfg : Parser.Configuration} {N : Parser.Node}

theorem sublist_placedComponents {node a b : String} :
    [a, b].Sublist (placedComponents cfg node) <->
      [(⟨a, node⟩ : Parser.Mapping), ⟨b, node⟩].Sublist cfg.mappings := by
  unfold placedComponents
  constructor
  · intro h
    rcases List.sublist_map_iff.mp h with ⟨ms, hms, heq⟩
    have hnode : forall m, m ∈ ms -> m.nodeName = node := by
      intro m hm
      exact of_decide_eq_true (List.mem_filter.mp (hms.subset hm)).right
    rcases List.map_eq_cons_iff.mp heq.symm with ⟨x, xs, rfl, hx, hxs⟩
    rcases List.map_eq_cons_iff.mp hxs with ⟨y, ys, rfl, hy, hys⟩
    rcases List.map_eq_nil_iff.mp hys with rfl
    have hxnode := hnode x List.mem_cons_self
    have hynode := hnode y (List.mem_cons_of_mem x List.mem_cons_self)
    have hpair : [(⟨a, node⟩ : Parser.Mapping), ⟨b, node⟩] = [x, y] := by
      rw [← hx, ← hy, ← hynode]
      nth_rewrite 1 [hynode, ← hxnode]
      rfl
    rw [hpair]
    exact hms.trans List.filter_sublist
  · intro h
    have hfilter := h.filter (fun m => decide (m.nodeName = node))
    have hmap := List.Sublist.map (fun m => m.compName) hfilter
    simpa using hmap

theorem mem_mapNode_backup (h : Deployable env cfg) (hN : N ∈ cfg.nodes)
    (hpair : N.pairnode.isSome) :
    pairnodeName N.name ∈ (parseDeploy cfg).mapNode :=
  h.mem_mapNode.mpr ⟨N, hN, Or.inr ⟨hpair, rfl⟩⟩

theorem placedOn_ne_backup (h : Deployable env cfg) (hN : N ∈ cfg.nodes)
    (hpair : N.pairnode.isSome) {conn : Parser.Connection}
    (hconn : conn ∈ cfg.connections) :
    placedOn cfg conn.dest ≠ pairnodeName N.name := by
  have hdest := destNode_declared h hconn
  rw [← hdest.right]
  exact h.backupNames N hN hpair _ hdest.left

theorem packetHome_backup_iff (h : Deployable env cfg) (hN : N ∈ cfg.nodes)
    (hpair : N.pairnode.isSome) {comp : String}
    (hcomp : comp ∈ placedComponents cfg N.name) :
    packetHome cfg (pairnodeName N.name) comp = pairnodeName N.name <->
      forall conn, conn ∈ cfg.connections -> conn.dest = comp ->
        ¬ [conn.source, comp].Sublist (placedComponents cfg N.name) := by
  have hkey := mem_mapNode_backup h hN hpair
  have hlisted : listed cfg (pairnodeName N.name) =
      placedComponents cfg N.name :=
    h.get_mapNodeWithComponents_backup hN hpair
  have hfrom : forall c y, y ∈ remoteMaps (parseDeploy cfg)
      (pairnodeName N.name) (connectionsFrom cfg c) <->
      exists conn, conn ∈ cfg.connections ∧ conn.source = c ∧
        y = ⟨placedOn cfg conn.dest, conn.dest⟩ := by
    intro c y
    unfold remoteMaps remoteConnections
    rw [List.mem_map]
    constructor
    · intro h
      rcases h with ⟨conn, hconn, rfl⟩
      rcases List.mem_filter.mp hconn with ⟨hmem, _⟩
      rcases List.mem_filter.mp hmem with ⟨hmem, hsource⟩
      exists conn
      constructor
      · exact hmem
      constructor
      · exact of_decide_eq_true hsource
      rw [(destNode_declared h hmem).right]
    · intro h
      rcases h with ⟨conn, hconn, hsource, rfl⟩
      refine ⟨conn, List.mem_filter.mpr ⟨?_, ?_⟩, ?_⟩
      · exact List.mem_filter.mpr ⟨hconn, decide_eq_true hsource⟩
      · exact decide_eq_true (placedOn_ne_backup h hN hpair hconn)
      · rw [(destNode_declared h hconn).right]
  have hblocks := @Lib.firstEntry_blocks Map String _
    (fun m : Map => m.instanceName)
    (fun c => ⟨pairnodeName N.name, c⟩)
    (fun c => remoteMaps (parseDeploy cfg) (pairnodeName N.name)
      (connectionsFrom cfg c))
    (fun m => m.nodeName = pairnodeName N.name)
    (fun _ => rfl) (fun _ => rfl)
    (fun c y hy => by
      rcases (hfrom c y).mp hy with ⟨conn, hconn, _, rfl⟩
      exact placedOn_ne_backup h hN hpair hconn)
    (placedComponents cfg N.name) (h.placedComponents_nodup N.name) comp hcomp
  have hmaps : packetMaps cfg (pairnodeName N.name) =
      (placedComponents cfg N.name).flatMap (fun c =>
        ⟨pairnodeName N.name, c⟩ :: remoteMaps (parseDeploy cfg)
          (pairnodeName N.name) (connectionsFrom cfg c)) := by
    unfold packetMaps
    rw [hlisted]
    congr 1
    funext c
    unfold componentMaps
    rw [get_mapComponentWithConnections]
  rw [← hmaps] at hblocks
  constructor
  · intro hhome conn hconn hdest hsub
    rcases packetHome_cases h hkey (Or.inl (hlisted ▸ hcomp)) with
      ⟨m, hm, hnode, _⟩
    have hnone := hblocks.mp ⟨m, hm, hnode.symm.trans hhome⟩ conn.source hsub
      ⟨placedOn cfg conn.dest, conn.dest⟩
      ((hfrom conn.source _).mpr ⟨conn, hconn, rfl, rfl⟩)
    exact hnone hdest
  · intro hnone
    have hfirst := hblocks.mpr (fun c hsub y hy hname => by
      rcases (hfrom c y).mp hy with ⟨conn, hconn, rfl, rfl⟩
      exact hnone conn hconn hname hsub)
    rcases hfirst with ⟨m, hm, hnode⟩
    unfold packetHome
    rw [hm]
    exact hnode

/-!
## What goes wrong and what does not
-/

/-- A connection to a component that is mapped later makes the backup leave
that component out. -/
theorem backup_leaves_out (h : Deployable env cfg) (hN : N ∈ cfg.nodes)
    (hpair : N.pairnode.isSome) {conn : Parser.Connection}
    (hconn : conn ∈ cfg.connections)
    (hsub : [(⟨conn.source, N.name⟩ : Parser.Mapping),
      ⟨conn.dest, N.name⟩].Sublist cfg.mappings) :
    ¬ FaithfulReplicas env cfg := by
  intro hfaithful
  have hkey := mem_mapNode_backup h hN hpair
  rcases hfaithful.components _ hkey (Node.new 0 0) rfl rfl with
    ⟨p, hp, hsame⟩
  rcases @deploy_key env cfg _ h hkey (Node.new 0 0) rfl rfl with
    ⟨p', hp', n', hrun, _, _, hrouter⟩
  rcases Option.some.inj (hp.symm.trans hp') with rfl
  have hmem : conn.dest ∈ placedComponents cfg N.name :=
    Deployable.mem_placedComponents.mpr
      (hsub.subset (List.mem_cons_of_mem _ List.mem_cons_self))
  have hlisted : conn.dest ∈ listed cfg (pairnodeName N.name) := by
    unfold listed
    rw [h.get_mapNodeWithComponents_backup hN hpair]
    exact hmem
  have hrun' := (hsame conn.dest).mpr hlisted
  unfold deployedRouter at hrun'
  rw [hrun, Node.router_listen] at hrun'
  have hhome := ((hrouter.mem conn.dest).mp hrun').right
  exact (packetHome_backup_iff h hN hpair hmem).mp hhome conn hconn rfl
    (sublist_placedComponents.mpr hsub)

theorem packetHome_of_mappedBackwards (h : Deployable env cfg)
    (horder : MappedBackwards cfg) {key comp : String}
    (hkey : key ∈ (parseDeploy cfg).mapNode)
    (hcomp : comp ∈ listed cfg key) : packetHome cfg key comp = key := by
  rcases h.mem_mapNode.mp hkey with ⟨M, hM, rfl | ⟨hpair, rfl⟩⟩
  · rcases listed_declared h hkey hcomp with ⟨c, hc, rfl⟩
    rw [packetHome_declared h hM hc (Or.inl hcomp)]
    unfold listed at hcomp
    rw [h.get_mapNodeWithComponents hM] at hcomp
    exact (mem_placedComponents_iff h hc).mp hcomp
  · unfold listed at hcomp
    rw [h.get_mapNodeWithComponents_backup hM hpair] at hcomp
    rw [packetHome_backup_iff h hM hpair hcomp]
    intro conn hconn hdest hsub
    subst comp
    exact horder M hM hpair conn hconn (sublist_placedComponents.mp hsub)

theorem faithful_of_mappedBackwards (h : Deployable env cfg)
    (horder : MappedBackwards cfg) : FaithfulReplicas env cfg := by
  have hcomponents : forall key, key ∈ (parseDeploy cfg).mapNode ->
      forall (n : Protort.Node), n.router.components = ∅ ->
        n.router.clients = ∅ ->
        exists p, asyncDeploy key (parseDeploy cfg) = some p ∧
          (forall c, c ∈ (deployedRouter env p n).components <->
            c ∈ listed cfg key) ∧
          RouterFor env cfg (packetHome cfg key) (listed cfg key) key
            (deployedRouter env p n) := by
    intro key hkey n hn hclients
    rcases deploy_key h hkey hn hclients with ⟨p, hp, n', hrun, _, _, hrouter⟩
    have hdeployed : deployedRouter env p n = n'.router := by
      unfold deployedRouter
      rw [hrun, Node.router_listen]
    rw [← hdeployed] at hrouter
    refine ⟨p, hp, fun c => ?_, hrouter⟩
    rw [hrouter.mem c]
    constructor
    · intro hc
      exact hc.left
    · intro hc
      exact ⟨hc, packetHome_of_mappedBackwards h horder hkey hc⟩
  have hlocal : forall key, key ∈ (parseDeploy cfg).mapNode ->
      forall conn, conn ∈ cfg.connections -> conn.source ∈ listed cfg key ->
        conn.dest ∈ listed cfg key ->
      forall (n : Protort.Node) (p : Projection), n.router.components = ∅ ->
        n.router.clients = ∅ -> asyncDeploy key (parseDeploy cfg) = some p ->
        ⟨conn.destIn, conn.dest⟩ ∈ ((deployedRouter env p n).routesAt
          conn.source conn.sourceOut).localRoutes := by
    intro key hkey conn hconn hsource hdest n p hn hclients hp
    rcases hcomponents key hkey n hn hclients with ⟨p', hp', hmem, hrouter⟩
    rcases Option.some.inj (hp.symm.trans hp') with rfl
    rw [hrouter.localRoutes conn.source ((hmem conn.source).mpr hsource)]
    refine List.mem_map.mpr ⟨conn, List.mem_filter.mpr ⟨hconn, ?_⟩, rfl⟩
    exact decide_eq_true ⟨rfl, rfl,
      packetHome_of_mappedBackwards h horder hkey hdest⟩
  exact
    { components := by
        intro key hkey n hn hclients
        rcases hcomponents key hkey n hn hclients with ⟨p, hp, hmem, _⟩
        exact ⟨p, hp, hmem⟩
      localRoutes := by
        intro M hM hpair conn hconn hsource hdest n p hn hclients hp
          n' p' hn' hclients' hp'
        have hlisted : listed cfg M.name = placedComponents cfg M.name :=
          h.get_mapNodeWithComponents hM
        have hbackup : listed cfg (pairnodeName M.name) =
            placedComponents cfg M.name :=
          h.get_mapNodeWithComponents_backup hM hpair
        rw [← Deployable.mem_placedComponents] at hsource hdest
        have hon := hlocal M.name (mem_mapNode_of_mem h hM) conn hconn
          (hlisted ▸ hsource) (hlisted ▸ hdest) n p hn hclients hp
        have hoff := hlocal (pairnodeName M.name)
          (mem_mapNode_backup h hM hpair) conn hconn
          (hbackup ▸ hsource) (hbackup ▸ hdest) n' p' hn' hclients' hp'
        exact ⟨fun _ => hon, fun _ => hoff⟩ }

end Backup

/-- Backups are faithful exactly when no connection inside a node that has one
goes to a component that is mapped later. -/
theorem faithful_iff_mappedBackwards {env : Platform}
    {cfg : Parser.Configuration} (h : Deployable env cfg) :
    FaithfulReplicas env cfg <-> MappedBackwards cfg := by
  constructor
  · intro hfaithful N hN hpair conn hconn hsub
    exact backup_leaves_out h hN hpair hconn hsub hfaithful
  · exact faithful_of_mappedBackwards h

/-- A node with a backup and two components, connected in the order in which
they are mapped. -/
def backedUp : Parser.Configuration :=
  { components := [⟨"a", "generator"⟩, ⟨"b", "terminator"⟩]
    connections := [⟨"a", 0, "b", 0⟩]
    nodes :=
      [⟨"n1", ⟨"127.0.0.1", 100, 101⟩, some ⟨"127.0.0.1", 200, 201⟩⟩]
    mappings := [⟨"a", "n1"⟩, ⟨"b", "n1"⟩] }

theorem backedUp_deployable : Deployable Platform.loopback backedUp :=
  { componentNames := by decide
    nodeNames := by decide
    backupNames := by decide
    kinds := by decide
    addresses := by decide
    mappedOnce := by decide
    mappedComponents := by decide
    mappedNodes := by decide
    sources := by decide
    destinations := by decide }

theorem faithful_iff_mappedBackwards_backedUp :
    FaithfulReplicas Platform.loopback backedUp <-> MappedBackwards backedUp :=
  faithful_iff_mappedBackwards backedUp_deployable

/-- Its backup runs `a` only. -/
theorem backedUp_not_faithful :
    Deployable Platform.loopback backedUp ∧
      ¬ FaithfulReplicas Platform.loopback backedUp :=
  ⟨backedUp_deployable,
    backup_leaves_out backedUp_deployable
      (List.mem_cons_self : backedUp.nodes.head (by decide) ∈ backedUp.nodes)
      (by decide)
      (List.mem_cons_self :
        backedUp.connections.head (by decide) ∈ backedUp.connections)
      (List.Sublist.refl _)⟩

end System
end Protort
