import Protort.System.Packet

/-!
# Where a packet places the components

The map entries of a packet name the node itself for every component that is
listed for it, and the declared node for the destination of every connection
that leaves the node.  Which of several entries of a component comes first
decides where the receiving node takes the component to be.
-/

namespace Protort
namespace System

open Lib (Table firstEntry)
open Terminal
open Protocol.Deploy (Map)

def listed (cfg : Parser.Configuration) (key : String) : List String :=
  (Table.get (parseDeploy cfg).mapNodeWithComponents key).map
    (fun m => m.compName)

def packetMaps (cfg : Parser.Configuration) (key : String) : List Map :=
  (listed cfg key).flatMap (componentMaps (parseDeploy cfg) key)

def packetInfos (cfg : Parser.Configuration) (key : String) :
    List Protocol.Deploy.NodeInfo :=
  nodeInfoMessage key (Table.get (parseDeploy cfg).mapNode key).host ::
    (listed cfg key).flatMap (fun c => remoteInfos (parseDeploy cfg) key
      (Table.get (parseDeploy cfg).mapComponentWithConnections c))

/-- The node that the first map entry of a component names. -/
def packetHome (cfg : Parser.Configuration) (key comp : String) : String :=
  ((firstEntry (fun m : Map => m.instanceName) (packetMaps cfg key) comp).map
    (fun m => m.nodeName)).getD ""

def infoOfKey (cfg : Parser.Configuration) (key : String) : Node.NodeInfo :=
  { name := key
    address := (Table.get (parseDeploy cfg).mapNode key).host.ipAddress
    port := (Table.get (parseDeploy cfg).mapNode key).host.port }

theorem placedOn_eq_destNodeName (cfg : Parser.Configuration)
    (conn : Parser.Connection) :
    destNodeName (parseDeploy cfg) conn = placedOn cfg conn.dest := rfl

/-!
## The entries of a packet
-/

section Entries

variable {env : Platform} {cfg : Parser.Configuration} {key : String}

theorem placedOn_declared (h : Deployable env cfg) {c : Parser.Component}
    (hc : c ∈ cfg.components) :
    exists n, n ∈ cfg.nodes ∧ n.name = placedOn cfg c.name := by
  rcases h.exists_mapping hc with ⟨m, hm, hname⟩
  rcases h.mappedNodes m hm with ⟨n, hn, hnm⟩
  exists n
  constructor
  · exact hn
  rw [hnm, ← h.placedOn_eq hm, hname]

theorem listed_of_key (h : Deployable env cfg)
    (hkey : key ∈ (parseDeploy cfg).mapNode) :
    exists n, n ∈ cfg.nodes ∧ listed cfg key = placedComponents cfg n.name ∧
      (key = n.name ∨ n.pairnode.isSome ∧ key = pairnodeName n.name) := by
  rcases h.mem_mapNode.mp hkey with ⟨n, hn, rfl | ⟨hpair, rfl⟩⟩
  · exact ⟨n, hn, h.get_mapNodeWithComponents hn, Or.inl rfl⟩
  · exact ⟨n, hn, h.get_mapNodeWithComponents_backup hn hpair,
      Or.inr ⟨hpair, rfl⟩⟩

theorem listed_nodup (h : Deployable env cfg)
    (hkey : key ∈ (parseDeploy cfg).mapNode) : (listed cfg key).Nodup := by
  rcases listed_of_key h hkey with ⟨n, _, hlisted, _⟩
  rw [hlisted]
  exact h.placedComponents_nodup n.name

theorem listed_declared (h : Deployable env cfg)
    (hkey : key ∈ (parseDeploy cfg).mapNode) {comp : String}
    (hcomp : comp ∈ listed cfg key) :
    exists c, c ∈ cfg.components ∧ c.name = comp := by
  rcases listed_of_key h hkey with ⟨n, _, hlisted, _⟩
  rw [hlisted] at hcomp
  exact h.mappedComponents _ (Deployable.mem_placedComponents.mp hcomp)

theorem mem_listed_of_placedOn (h : Deployable env cfg)
    (hkey : key ∈ (parseDeploy cfg).mapNode) {c : Parser.Component}
    (hc : c ∈ cfg.components) (hplaced : placedOn cfg c.name = key) :
    c.name ∈ listed cfg key := by
  rcases h.exists_mapping hc with ⟨m, hm, hname⟩
  have hnode : m.nodeName = key := by
    rw [← h.placedOn_eq hm, hname, hplaced]
  rcases listed_of_key h hkey with ⟨n, hn, hlisted, rfl | ⟨hpair, hback⟩⟩
  · rw [hlisted, Deployable.mem_placedComponents, ← hname, ← hnode]
    exact hm
  · rcases h.mappedNodes m hm with ⟨other, hother, hname'⟩
    exact absurd (hname'.trans (hnode.trans hback))
      (h.backupNames n hn hpair other hother)

theorem destNode_declared (h : Deployable env cfg) {conn : Parser.Connection}
    (hconn : conn ∈ cfg.connections) :
    destNode (parseDeploy cfg) conn ∈ cfg.nodes ∧
      (destNode (parseDeploy cfg) conn).name = placedOn cfg conn.dest := by
  rcases h.destinations conn hconn with ⟨c, hc, hname⟩
  rcases placedOn_declared h hc with ⟨n, hn, hplaced⟩
  have hdest : destNode (parseDeploy cfg) conn = n := by
    unfold destNode
    rw [placedOn_eq_destNodeName, ← hname, ← hplaced, h.get_mapNode hn]
  rw [hdest]
  exact ⟨hn, hplaced.trans (congrArg (placedOn cfg) hname)⟩

theorem mem_packetMaps (h : Deployable env cfg) {m : Map} :
    m ∈ packetMaps cfg key <->
      (m.instanceName ∈ listed cfg key ∧ m.nodeName = key) ∨
      (m.nodeName = placedOn cfg m.instanceName ∧ m.nodeName ≠ key ∧
        exists conn, conn ∈ cfg.connections ∧
          conn.source ∈ listed cfg key ∧ conn.dest = m.instanceName) := by
  unfold packetMaps
  rw [List.mem_flatMap]
  constructor
  · intro h
    rcases h with ⟨c, hc, hm⟩
    rcases List.mem_cons.mp hm with rfl | hremote
    · exact Or.inl ⟨hc, rfl⟩
    · rcases List.mem_map.mp hremote with ⟨conn, hconn, rfl⟩
      rcases List.mem_filter.mp hconn with ⟨hfrom, haway⟩
      rw [get_mapComponentWithConnections] at hfrom
      rcases List.mem_filter.mp hfrom with ⟨hmem, hsource⟩
      have hdest := destNode_declared h hmem
      have hsource' : conn.source = c := by simpa using hsource
      subst c
      refine Or.inr ⟨hdest.right, ?_, conn, hmem, hc, rfl⟩
      change (destNode (parseDeploy cfg) conn).name ≠ key
      rw [hdest.right]
      exact of_decide_eq_true haway
  · intro hcases
    rcases hcases with
      ⟨hc, hnode⟩ | ⟨hplaced, haway, conn, hconn, hsource, hdest⟩
    · refine ⟨m.instanceName, hc, List.mem_cons.mpr (Or.inl ?_)⟩
      rw [← hnode]
    · refine ⟨conn.source, hsource, List.mem_cons.mpr (Or.inr ?_)⟩
      rw [get_mapComponentWithConnections]
      refine List.mem_map.mpr ⟨conn, List.mem_filter.mpr ⟨?_, ?_⟩, ?_⟩
      · exact List.mem_filter.mpr ⟨hconn, by simp⟩
      · rw [placedOn_eq_destNodeName, hdest, ← hplaced]
        simpa using haway
      · rw [(destNode_declared h hconn).right, hdest, ← hplaced]

theorem mem_packetInfos (h : Deployable env cfg)
    {i : Protocol.Deploy.NodeInfo} (hi : i ∈ packetInfos cfg key) :
    i = nodeInfoMessage i.name
      (Table.get (parseDeploy cfg).mapNode i.name).host := by
  rcases List.mem_cons.mp hi with rfl | hremote
  · rfl
  · rcases List.mem_flatMap.mp hremote with ⟨c, _, hic⟩
    rcases List.mem_map.mp hic with ⟨conn, hconn, rfl⟩
    rcases List.mem_filter.mp hconn with ⟨hfrom, _⟩
    rw [get_mapComponentWithConnections] at hfrom
    have hmem := (List.mem_filter.mp hfrom).left
    have hdest := destNode_declared h hmem
    have hnode := h.get_mapNode hdest.left
    exact (congrArg (fun n : Parser.Node => nodeInfoMessage
      (destNode (parseDeploy cfg) conn).name n.host) hnode).symm

theorem exists_info_of_map {m : Map} (hm : m ∈ packetMaps cfg key) :
    exists i, i ∈ packetInfos cfg key ∧ i.name = m.nodeName := by
  unfold packetMaps at hm
  rcases List.mem_flatMap.mp hm with ⟨c, hc, hmc⟩
  rcases List.mem_cons.mp hmc with rfl | hremote
  · exact ⟨_, List.mem_cons_self, rfl⟩
  · rcases List.mem_map.mp hremote with ⟨conn, hconn, rfl⟩
    refine ⟨_, List.mem_cons_of_mem _ (List.mem_flatMap.mpr
      ⟨c, hc, List.mem_map.mpr ⟨conn, hconn, rfl⟩⟩), rfl⟩

end Entries

/-!
## The home of a component
-/

section Homes

variable {env : Platform} {cfg : Parser.Configuration} {key : String}
  {config : Protocol.Deploy.Config} {conf : Parser.Configuration}

theorem infoOfPacket_eq (h : Deployable env cfg)
    (hpacket : PacketFor (parseDeploy cfg) key (listed cfg key) config)
    {m : Map} (hm : m ∈ packetMaps cfg key) :
    infoOfPacket config m.nodeName = infoOfKey cfg m.nodeName := by
  rcases exists_info_of_map hm with ⟨i, hi, hname⟩
  have hfirst : firstEntry (fun i : Protocol.Deploy.NodeInfo => i.name)
      (packetInfos cfg key) i.name = some i := by
    refine Lib.firstEntry_of_agree hi (fun j hj hji => ?_)
    rw [mem_packetInfos h hj, mem_packetInfos h hi, hji]
  unfold infoOfPacket
  rw [hpacket.infos, ← hname]
  show (Option.map _ (firstEntry _ (packetInfos cfg key) i.name)).getD _ = _
  rw [hfirst, mem_packetInfos h hi]
  rfl

theorem homeOf_eq (h : Deployable env cfg)
    (hpacket : PacketFor (parseDeploy cfg) key (listed cfg key) config)
    (hnodes : conf.nodes = config.nodeInfos.map Node.nodeOfInfo)
    (hmappings : conf.mappings = config.maps.map Node.mappingOfMap)
    {comp : String} {m : Map}
    (hm : firstEntry (fun m : Map => m.instanceName)
      (packetMaps cfg key) comp = some m) :
    Node.homeOf conf comp = infoOfKey cfg m.nodeName := by
  rw [homeOf_packet hnodes hmappings, hpacket.maps]
  show (Option.map _ (firstEntry _ (packetMaps cfg key) comp)).getD _ = _
  rw [hm]
  exact infoOfPacket_eq h hpacket (Lib.firstEntry_eq_some hm).left

theorem homeOf_name (h : Deployable env cfg)
    (hpacket : PacketFor (parseDeploy cfg) key (listed cfg key) config)
    (hnodes : conf.nodes = config.nodeInfos.map Node.nodeOfInfo)
    (hmappings : conf.mappings = config.maps.map Node.mappingOfMap)
    (comp : String) :
    (Node.homeOf conf comp).name = packetHome cfg key comp := by
  cases hm : firstEntry (fun m : Map => m.instanceName)
      (packetMaps cfg key) comp with
  | some m =>
      rw [homeOf_eq h hpacket hnodes hmappings hm]
      unfold packetHome
      rw [hm]
      rfl
  | none =>
      rw [homeOf_packet hnodes hmappings, hpacket.maps]
      change firstEntry _ ((listed cfg key).flatMap _) comp = none at hm
      unfold packetHome packetMaps
      rw [hm]
      rfl

/-- A component that is listed for the key, or that a listed one is connected
to, has an entry; it names the key for a listed one only. -/
theorem packetHome_cases (h : Deployable env cfg)
    (hkey : key ∈ (parseDeploy cfg).mapNode) {comp : String}
    (hcomp : comp ∈ listed cfg key ∨
      exists conn, conn ∈ cfg.connections ∧ conn.source ∈ listed cfg key ∧
        conn.dest = comp) :
    exists m, firstEntry (fun m : Map => m.instanceName)
        (packetMaps cfg key) comp = some m ∧ packetHome cfg key comp = m.nodeName ∧
      (comp ∈ listed cfg key ∧ m.nodeName = key ∨
        m.nodeName = placedOn cfg comp ∧ m.nodeName ≠ key) := by
  have hentry : exists m, m ∈ packetMaps cfg key ∧ m.instanceName = comp := by
    rcases hcomp with hlisted | ⟨conn, hconn, hsource, hdest⟩
    · exact ⟨⟨key, comp⟩, (mem_packetMaps h).mpr (Or.inl ⟨hlisted, rfl⟩), rfl⟩
    · by_cases hplaced : placedOn cfg comp = key
      · rcases h.destinations conn hconn with ⟨c, hc, hname⟩
        rw [← hdest, ← hname] at hplaced
        have hlisted := mem_listed_of_placedOn h hkey hc hplaced
        rw [hname, hdest] at hlisted
        exact ⟨⟨key, comp⟩, (mem_packetMaps h).mpr (Or.inl ⟨hlisted, rfl⟩),
          rfl⟩
      · exact ⟨⟨placedOn cfg comp, comp⟩, (mem_packetMaps h).mpr
          (Or.inr ⟨rfl, hplaced, conn, hconn, hsource, hdest⟩), rfl⟩
  have hsome := Lib.firstEntry_isSome_iff.mpr hentry
  rcases Option.isSome_iff_exists.mp hsome with ⟨m, hm⟩
  rcases Lib.firstEntry_eq_some hm with ⟨hmem, hname⟩
  refine ⟨m, hm, ?_, ?_⟩
  · unfold packetHome
    rw [hm]
    rfl
  · rcases (mem_packetMaps h).mp hmem with ⟨hlisted, hnode⟩ | ⟨hplaced, haway, _⟩
    · exact Or.inl ⟨hname ▸ hlisted, hnode⟩
    · exact Or.inr ⟨hname ▸ hplaced, haway⟩

end Homes

end System
end Protort
