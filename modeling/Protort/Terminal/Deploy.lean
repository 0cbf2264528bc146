import Protort.Components.Component
import Protort.Lib.Table

/-!
# The terminal's side of a deployment

`parseDeploy` indexes a configuration by name, once per setup, and
`asyncDeploy` projects the index onto one node and builds the packet for it.
The projection indexes the five maps with `operator[]`, so it also inserts empty
entries into them; the maps are shared by the projections for all nodes.
-/

namespace Protort
namespace Terminal

open Lib (Table)
open Protocol.Deploy (Config)

/-- The name under which the backup node of a node is kept. -/
def pairnodeName (name : String) : String :=
  "pairnode." ++ name

structure DeployConfiguration where
  mapComponentNode : Table String Parser.Mapping
  mapComponents : Table String Parser.Component
  mapNode : Table String Parser.Node
  mapNodeWithComponents : Table String (List Parser.Mapping)
  mapComponentWithConnections : Table String (List Parser.Connection)
deriving DecidableEq

namespace DeployConfiguration

/-- The body of the loop over the nodes: a backup node first, then the node. -/
def addNode (mapNode : Table String Parser.Node) (node : Parser.Node) :
    Table String Parser.Node :=
  match node.pairnode with
  | some pairnode =>
      let tmpPairnode : Parser.Node :=
        { name := pairnodeName node.name, host := pairnode, pairnode := none }
      (mapNode.insert tmpPairnode.name tmpPairnode).insert node.name node
  | none => mapNode.insert node.name node

def map (dc : DeployConfiguration) (mapping : Parser.Mapping) :
    DeployConfiguration :=
  { dc with
    mapNodeWithComponents :=
      dc.mapNodeWithComponents.pushBack mapping.nodeName mapping
    mapComponentNode := dc.mapComponentNode.insert mapping.compName mapping }

/-- The body of the loop over the mappings: a mapping to a node that has a
backup is entered for the backup first. -/
def addMapping (dc : DeployConfiguration) (mapping : Parser.Mapping) :
    DeployConfiguration :=
  let node := Table.get dc.mapNode mapping.nodeName
  let indexed := { dc with mapNode := dc.mapNode.touch mapping.nodeName }
  if node.pairnode.isSome then
    let tmpMappingPairnode : Parser.Mapping :=
      { compName := mapping.compName
        nodeName := pairnodeName mapping.nodeName }
    (indexed.map tmpMappingPairnode).map mapping
  else
    indexed.map mapping

end DeployConfiguration

/-- All five maps are cleared first, so nothing of an earlier configuration is
left. -/
def parseDeploy (config : Parser.Configuration) : DeployConfiguration :=
  config.mappings.foldl DeployConfiguration.addMapping
    { mapComponentNode := ∅
      mapComponents := Table.insertAll (fun component => component.name) id ∅
        config.components
      mapNode := config.nodes.foldl DeployConfiguration.addNode ∅
      mapNodeWithComponents := ∅
      mapComponentWithConnections :=
        Table.collect (fun connection => connection.source) ∅
          config.connections }

/-!
## Projection onto a node
-/

/-- What the loops of `asyncDeploy` work on. -/
structure Projection where
  deployConfiguration : DeployConfiguration
  configuration : Config
  addedNodes : Finset String
  addedMaps : Finset String
deriving DecidableEq

def connectionMessage (connection : Parser.Connection) :
    Protocol.Deploy.Connection :=
  { source := { name := connection.source, port := connection.sourceOut }
    destination := { name := connection.dest, port := connection.destIn } }

def nodeInfoMessage (name : String) (host : Parser.Address) :
    Protocol.Deploy.NodeInfo :=
  { name := name, port := host.port, address := host.ipAddress }

namespace Projection

/-- Tell the node where a component of another node lives.  Both sets only
keep an entry from being added twice; to insert a member changes nothing. -/
def addRemote (p : Projection) (node : Parser.Node) (dest : String) :
    Projection :=
  { p with
    configuration := { p.configuration with
      nodeInfos :=
        if node.name ∈ p.addedNodes then
          p.configuration.nodeInfos
        else
          p.configuration.nodeInfos ++ [nodeInfoMessage node.name node.host]
      maps :=
        if dest ∈ p.addedMaps then
          p.configuration.maps
        else
          p.configuration.maps ++ [⟨node.name, dest⟩] }
    addedNodes := insert node.name p.addedNodes
    addedMaps := insert dest p.addedMaps }

/-- The body of the inner loop, over the connections of a component. -/
def addConnection (currentNode : String) (p : Projection)
    (connection : Parser.Connection) : Projection :=
  let dc := p.deployConfiguration
  let nodeName := (Table.get dc.mapComponentNode connection.dest).nodeName
  let looked := { p with
    deployConfiguration := { dc with
      mapComponentNode := dc.mapComponentNode.touch connection.dest }
    configuration := { p.configuration with
      connections := p.configuration.connections ++
        [connectionMessage connection] } }
  if nodeName ≠ currentNode then
    { looked with
      deployConfiguration := { looked.deployConfiguration with
        mapNode := dc.mapNode.touch nodeName } }.addRemote
      (Table.get dc.mapNode nodeName) connection.dest
  else
    looked

/-- The body of the outer loop, over the components mapped to the node. -/
def addComponent (currentNode : String) (p : Projection)
    (component : Parser.Mapping) : Option Projection :=
  let dc := p.deployConfiguration
  let name := component.compName
  (Components.getComponentKind (Table.get dc.mapComponents name).kind).map
    (fun kind =>
      let placed := { p with
        deployConfiguration := { dc with
          mapComponents := dc.mapComponents.touch name
          mapComponentWithConnections :=
            dc.mapComponentWithConnections.touch name }
        configuration := { p.configuration with
          instances := p.configuration.instances ++ [⟨name, kind⟩]
          maps := p.configuration.maps ++ [⟨currentNode, name⟩] } }
      (Table.get dc.mapComponentWithConnections name).foldl
        (addConnection currentNode) placed)

end Projection

def projectionStart (currentNode : String) (dc : DeployConfiguration) :
    Projection :=
  let host := (Table.get dc.mapNode currentNode).host
  { deployConfiguration := { dc with
      mapNode := dc.mapNode.touch currentNode
      mapNodeWithComponents := dc.mapNodeWithComponents.touch currentNode }
    configuration :=
      { thisNodeInfo := { name := currentNode, address := "", port := host.port }
        nodeInfos := [nodeInfoMessage currentNode host]
        instances := []
        maps := []
        connections := [] }
    addedNodes := ∅
    addedMaps := ∅ }

/-- The configuration that is sent to a node, and the maps as they are left
behind; `none` when the kind of a component is not known. -/
def asyncDeploy (currentNode : String) (dc : DeployConfiguration) :
    Option Projection :=
  (Table.get dc.mapNodeWithComponents currentNode).foldlM
    (Projection.addComponent currentNode) (projectionStart currentNode dc)

end Terminal
end Protort
