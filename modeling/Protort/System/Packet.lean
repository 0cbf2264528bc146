import Protort.Node.Deployment
import Protort.Terminal.Projection

/-!
# What a node reads from its packet

The node resolves every component of the packet through two local maps, the
first entry of a name winning in each.  For a deployable configuration that
gives back the network node that the first map entry of the component names,
with the address under which the configuration declares it.
-/

namespace Protort
namespace System

open Lib (Table firstEntry)
open Terminal

/-!
## Reading the packet
-/

theorem mapM_componentOfInstance {dc : DeployConfiguration}
    {comps : List String} {instances : List Protocol.Deploy.Instance}
    (h : KindsOf dc comps instances) :
    instances.mapM Node.componentOfInstance =
      some (comps.map (fun c =>
        { name := c, kind := (Table.get dc.mapComponents c).kind })) := by
  induction comps generalizing instances with
  | nil =>
      have hnil : instances = [] := List.map_eq_nil_iff.mp h
      rw [hnil]
      rfl
  | cons c rest ih =>
      cases instances with
      | nil => cases h
      | cons i others =>
          unfold KindsOf at h
          rw [List.map_cons, List.map_cons, List.cons.injEq,
            Prod.mk.injEq] at h
          rcases h with ⟨⟨rfl, hkind⟩, hrest⟩
          have hname := Components.getComponentKindName_of_kind hkind.symm
          rw [List.mapM_cons, ih hrest]
          unfold Node.componentOfInstance
          rw [hname]
          rfl

theorem connectionOfPacket_message (conn : Parser.Connection) :
    Node.connectionOfPacket (connectionMessage conn) = conn := rfl

/-- The configuration that a node reads from a packet, up to the entries of its
two tables. -/
theorem configurationOfPacket_eq {dc : DeployConfiguration}
    {node : String} {comps : List String} {config : Protocol.Deploy.Config}
    (h : PacketFor dc node comps config) :
    Node.configurationOfPacket config = some
      { components := comps.map (fun c =>
          { name := c, kind := (Table.get dc.mapComponents c).kind })
        connections := comps.flatMap (fun c =>
          Table.get dc.mapComponentWithConnections c)
        nodes := config.nodeInfos.map Node.nodeOfInfo
        mappings := config.maps.map Node.mappingOfMap } := by
  unfold Node.configurationOfPacket
  rw [mapM_componentOfInstance h.instances, h.connections, List.map_map]
  have hid : Node.connectionOfPacket ∘ connectionMessage = id := by
    funext conn
    exact connectionOfPacket_message conn
  rw [hid, List.map_id]
  rfl

def infoOfPacket (config : Protocol.Deploy.Config) (node : String) :
    Node.NodeInfo :=
  ((firstEntry (fun i : Protocol.Deploy.NodeInfo => i.name)
    config.nodeInfos node).map (fun i =>
      { name := i.name, address := i.address, port := i.port })).getD default

theorem homeOf_packet {config : Protocol.Deploy.Config}
    {conf : Parser.Configuration}
    (hnodes : conf.nodes = config.nodeInfos.map Node.nodeOfInfo)
    (hmappings : conf.mappings = config.maps.map Node.mappingOfMap)
    (comp : String) :
    Node.homeOf conf comp =
      ((firstEntry (fun m : Protocol.Deploy.Map => m.instanceName)
        config.maps comp).map (fun m =>
          infoOfPacket config m.nodeName)).getD default := by
  unfold Node.homeOf Node.compToNode Table.get
  simp only []
  rw [Table.lookup_emplaceAll_empty, hmappings, Lib.firstEntry_map,
    Option.map_map]
  congr 2
  funext m
  show (Option.getD _ _) = infoOfPacket config m.nodeName
  rw [Table.lookup_emplaceAll_empty, hnodes, Lib.firstEntry_map,
    Option.map_map]
  rfl

end System
end Protort
