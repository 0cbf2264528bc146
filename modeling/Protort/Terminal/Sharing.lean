import Protort.Terminal.Projection

/-!
# The index that all packets share

Deploy builds the packets of all nodes from one index, and every packet leaves
behind the entries that its lookups have inserted.  A lookup finds in them what
it would have found without, so that the packets do not depend on the order of
the nodes, nor on how often a node is deployed.
-/

namespace Protort
namespace Terminal

open Lib (Table)
open Protocol.Deploy (Config)

namespace SameLookups

variable {dc dc' dc'' : DeployConfiguration}

theorem refl (dc : DeployConfiguration) : SameLookups dc dc :=
  { componentNode := fun _ => rfl
    components := fun _ => rfl
    node := fun _ => rfl
    nodeWithComponents := fun _ => rfl
    componentWithConnections := fun _ => rfl }

theorem symm (h : SameLookups dc dc') : SameLookups dc' dc :=
  { componentNode := fun c => (h.componentNode c).symm
    components := fun c => (h.components c).symm
    node := fun c => (h.node c).symm
    nodeWithComponents := fun c => (h.nodeWithComponents c).symm
    componentWithConnections := fun c =>
      (h.componentWithConnections c).symm }

theorem trans (h : SameLookups dc dc') (h' : SameLookups dc' dc'') :
    SameLookups dc dc'' :=
  { componentNode := fun c => (h'.componentNode c).trans (h.componentNode c)
    components := fun c => (h'.components c).trans (h.components c)
    node := fun c => (h'.node c).trans (h.node c)
    nodeWithComponents := fun c =>
      (h'.nodeWithComponents c).trans (h.nodeWithComponents c)
    componentWithConnections := fun c =>
      (h'.componentWithConnections c).trans (h.componentWithConnections c) }

end SameLookups

/-!
## What the loops leave behind
-/

theorem sameLookups_projectionStart (currentNode : String)
    (dc : DeployConfiguration) :
    SameLookups dc (projectionStart currentNode dc).deployConfiguration :=
  { SameLookups.refl dc with
    node := Table.get_touch _ currentNode
    nodeWithComponents := Table.get_touch _ currentNode }

theorem sameLookups_addConnection (currentNode : String) (p : Projection)
    (conn : Parser.Connection) :
    SameLookups p.deployConfiguration
      (p.addConnection currentNode conn).deployConfiguration := by
  unfold Projection.addConnection
  by_cases hremote : (Table.get p.deployConfiguration.mapComponentNode
      conn.dest).nodeName ≠ currentNode
  · rw [if_pos hremote]
    exact
      { SameLookups.refl p.deployConfiguration with
        componentNode := Table.get_touch _ conn.dest
        node := Table.get_touch _ _ }
  · rw [if_neg hremote]
    exact
      { SameLookups.refl p.deployConfiguration with
        componentNode := Table.get_touch _ conn.dest }

theorem sameLookups_foldl_addConnection (currentNode : String)
    (conns : List Parser.Connection) (p : Projection) :
    SameLookups p.deployConfiguration
      (conns.foldl (Projection.addConnection currentNode)
        p).deployConfiguration := by
  induction conns generalizing p with
  | nil => exact SameLookups.refl p.deployConfiguration
  | cons conn rest ih =>
      exact (sameLookups_addConnection currentNode p conn).trans
        (ih (p.addConnection currentNode conn))

theorem sameLookups_addComponent {currentNode : String} {p q : Projection}
    {m : Parser.Mapping} (h : p.addComponent currentNode m = some q) :
    SameLookups p.deployConfiguration q.deployConfiguration := by
  unfold Projection.addComponent at h
  rcases Option.map_eq_some_iff.mp h with ⟨kind, _, rfl⟩
  refine SameLookups.trans ?_
    (sameLookups_foldl_addConnection currentNode _ _)
  exact
    { SameLookups.refl p.deployConfiguration with
      components := Table.get_touch _ m.compName
      componentWithConnections := Table.get_touch _ m.compName }

theorem sameLookups_foldlM_addComponent {currentNode : String}
    {ms : List Parser.Mapping} {p q : Projection}
    (h : ms.foldlM (Projection.addComponent currentNode) p = some q) :
    SameLookups p.deployConfiguration q.deployConfiguration := by
  induction ms generalizing p with
  | nil =>
      rw [List.foldlM_nil] at h
      cases h
      exact SameLookups.refl q.deployConfiguration
  | cons m rest ih =>
      rw [List.foldlM_cons] at h
      rcases Option.bind_eq_some_iff.mp h with ⟨p', hadd, hrest⟩
      exact (sameLookups_addComponent hadd).trans (ih hrest)

theorem sameLookups_asyncDeploy {currentNode : String}
    {dc : DeployConfiguration} {p : Projection}
    (h : asyncDeploy currentNode dc = some p) :
    SameLookups dc p.deployConfiguration :=
  (sameLookups_projectionStart currentNode dc).trans
    (sameLookups_foldlM_addComponent h)

/-!
## Packets from two indices
-/

/-- Two calls that have come equally far with the packet of a node. -/
structure SamePacket (p p' : Projection) : Prop where
  lookups : SameLookups p.deployConfiguration p'.deployConfiguration
  configuration : p'.configuration = p.configuration
  addedNodes : p'.addedNodes = p.addedNodes
  addedMaps : p'.addedMaps = p.addedMaps

namespace SamePacket

variable {p p' : Projection}

theorem addConnection (h : SamePacket p p') (currentNode : String)
    (conn : Parser.Connection) :
    SamePacket (p.addConnection currentNode conn)
      (p'.addConnection currentNode conn) := by
  have hlookups := (sameLookups_addConnection currentNode p conn).symm.trans
    (h.lookups.trans (sameLookups_addConnection currentNode p' conn))
  rcases p with ⟨dc, config, nodes, maps⟩
  rcases p' with ⟨dc', config', nodes', maps'⟩
  rcases h with ⟨hdc, rfl, rfl, rfl⟩
  refine ⟨hlookups, ?_, ?_, ?_⟩
  all_goals
    unfold Projection.addConnection
    simp only [hdc.componentNode conn.dest]
    by_cases hremote :
        (Table.get dc.mapComponentNode conn.dest).nodeName ≠ currentNode
    · rw [if_pos hremote, if_pos hremote]
      unfold Projection.addRemote
      simp only [hdc.node]
    · rw [if_neg hremote, if_neg hremote]

theorem addComponent (h : SamePacket p p') (currentNode : String)
    (m : Parser.Mapping) :
    Option.Rel SamePacket (p.addComponent currentNode m)
      (p'.addComponent currentNode m) := by
  unfold Projection.addComponent
  simp only [h.lookups.components, h.lookups.componentWithConnections]
  cases Components.getComponentKind
      (Table.get p.deployConfiguration.mapComponents m.compName).kind with
  | none => exact Option.Rel.none
  | some kind =>
      apply Option.Rel.some
      apply List.foldl_rel
      · exact
          { lookups :=
              { h.lookups with
                components := fun c => by
                  simp only [Table.get_touch, h.lookups.components]
                componentWithConnections := fun c => by
                  simp only [Table.get_touch,
                    h.lookups.componentWithConnections] }
            configuration := by simp only [h.configuration]
            addedNodes := h.addedNodes
            addedMaps := h.addedMaps }
      · intro conn _ q q' hq
        exact hq.addConnection currentNode conn

end SamePacket

/-- The packet of a node is decided by what lookups find. -/
theorem asyncDeploy_samePacket {dc dc' : DeployConfiguration}
    (h : SameLookups dc dc') (currentNode : String) :
    Option.Rel SamePacket (asyncDeploy currentNode dc)
      (asyncDeploy currentNode dc') := by
  unfold asyncDeploy
  rw [h.nodeWithComponents]
  apply Lib.Loops.foldlM_rel
  · intro p p' m hp
    exact hp.addComponent currentNode m
  · exact
      { lookups := (sameLookups_projectionStart currentNode dc).symm.trans
          (h.trans (sameLookups_projectionStart currentNode dc'))
        configuration := by
          unfold projectionStart
          simp only [h.node]
        addedNodes := rfl
        addedMaps := rfl }

/-!
## A sequence of calls
-/

def packetFor (dc : DeployConfiguration) (currentNode : String) :
    Option Config :=
  (asyncDeploy currentNode dc).map (fun p => p.configuration)

/-- Calls one after the other on one index: the packets and the index that is
left behind, unless one of the calls throws. -/
def deployNodes (dc : DeployConfiguration) (names : List String) :
    Option (List Config × DeployConfiguration) :=
  match names with
  | [] => some ([], dc)
  | name :: rest =>
      (asyncDeploy name dc).bind (fun p =>
        (deployNodes p.deployConfiguration rest).map (fun result =>
          (p.configuration :: result.1, result.2)))

def KindsKnown (cfg : Parser.Configuration) : Prop :=
  forall m, m ∈ cfg.mappings ->
    (Components.getComponentKind
      (Table.get (parseDeploy cfg).mapComponents m.compName).kind).isSome

theorem packetFor_eq {dc dc' : DeployConfiguration} (h : SameLookups dc dc')
    (name : String) : packetFor dc' name = packetFor dc name := by
  unfold packetFor
  have hsame := asyncDeploy_samePacket h name
  generalize asyncDeploy name dc = call at hsame
  generalize asyncDeploy name dc' = call' at hsame
  cases hsame with
  | none => rfl
  | some hpacket => exact congrArg some hpacket.configuration

theorem deployNodes_packets {dc dc' : DeployConfiguration}
    (h : SameLookups dc dc') (names : List String) :
    (deployNodes dc' names).map Prod.fst = names.mapM (packetFor dc) := by
  induction names generalizing dc' with
  | nil => rfl
  | cons name rest ih =>
      rw [List.mapM_cons, ← packetFor_eq h name]
      unfold deployNodes packetFor
      cases hcall : asyncDeploy name dc' with
      | none => rfl
      | some p =>
          have hrest := ih (h.trans (sameLookups_asyncDeploy hcall))
          unfold packetFor at hrest
          rw [← hrest]
          show Option.map Prod.fst (Option.map _ _) = _
          cases deployNodes p.deployConfiguration rest with
          | none => rfl
          | some result => rfl

theorem deployNodes_isSome {dc dc' : DeployConfiguration}
    (h : SameLookups dc dc') (hcalls : forall name, (packetFor dc name).isSome)
    (names : List String) : (deployNodes dc' names).isSome := by
  induction names generalizing dc' with
  | nil => rfl
  | cons name rest ih =>
      have hcall := hcalls name
      rw [← packetFor_eq h name] at hcall
      unfold packetFor at hcall
      rw [Option.isSome_map] at hcall
      rcases Option.isSome_iff_exists.mp hcall with ⟨p, hp⟩
      unfold deployNodes
      rw [hp, Option.bind_some, Option.isSome_map]
      exact ih (h.trans (sameLookups_asyncDeploy hp))

theorem compName_of_listed {cfg : Parser.Configuration} {name : String}
    {m : Parser.Mapping}
    (h : m ∈ Table.get (parseDeploy cfg).mapNodeWithComponents name) :
    exists x, x ∈ cfg.mappings ∧ x.compName = m.compName := by
  rw [(parseDeploy_indexed cfg).nodeWithComponents, Table.get_collect] at h
  have hempty : Table.get (indexStart cfg).mapNodeWithComponents name = [] :=
    rfl
  rw [hempty, List.nil_append] at h
  rcases List.mem_flatMap.mp (List.mem_filter.mp h).left with ⟨x, hx, hm⟩
  exact ⟨x, hx, (compName_of_mem_expandMapping hm).symm⟩

theorem packetFor_isSome {cfg : Parser.Configuration} (h : KindsKnown cfg)
    (name : String) : (packetFor (parseDeploy cfg) name).isSome := by
  have hkinds : forall c, c ∈ (Table.get
      (parseDeploy cfg).mapNodeWithComponents name).map
        (fun m => m.compName) ->
      (Components.getComponentKind
        (Table.get (parseDeploy cfg).mapComponents c).kind).isSome := by
    intro c hc
    rcases List.mem_map.mp hc with ⟨m, hm, rfl⟩
    rcases compName_of_listed hm with ⟨x, hx, hname⟩
    rw [← hname]
    exact h x hx
  rcases asyncDeploy_packet rfl hkinds with ⟨p, hcall, _⟩
  unfold packetFor
  rw [hcall]
  rfl

/-- The packets of any sequence of calls are those that calls on the untouched
index build, and with known kinds every call builds one. -/
theorem packets_of_untouched (cfg : Parser.Configuration)
    (names : List String) :
    (deployNodes (parseDeploy cfg) names).map Prod.fst =
      names.mapM (packetFor (parseDeploy cfg)) ∧
    (KindsKnown cfg -> (deployNodes (parseDeploy cfg) names).isSome) := by
  have hsame := SameLookups.refl (parseDeploy cfg)
  constructor
  · exact deployNodes_packets hsame names
  · intro hkinds
    exact deployNodes_isSome hsame (packetFor_isSome hkinds) names

end Terminal
end Protort
