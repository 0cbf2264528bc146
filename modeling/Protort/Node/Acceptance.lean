import Protort.Node.Running

/-!
# Requests that a node can handle

The handler of a request returns exactly when the request is one of four kinds,
every entry of the tables it goes through has a component, and what it deploys
can be deployed: the kinds are known, every address that is needed is one, and
the port is free.
-/

namespace Protort
namespace Node

open Lib (Table)
open Lib.Exceptions

/-!
## Wiring
-/

/-- What the loop over the connections has to know: the names of the entries
and of the nodes that have a client. -/
structure Wiring where
  entries : List String
  clients : List String
deriving DecidableEq, Repr

namespace Wiring

def next (comps : Table String NodeInfo) (node : String) (w : Wiring)
    (conn : Parser.Connection) : Wiring :=
  if conn.source ∈ w.entries then
    if (Table.get comps conn.dest).name = node then
      { w with entries := conn.dest :: w.entries }
    else
      { w with clients := (Table.get comps conn.dest).name :: w.clients }
  else
    w

def check (env : Platform) (comps : Table String NodeInfo) (node : String)
    (w : Wiring) (conn : Parser.Connection) : Prop :=
  conn.source ∈ w.entries -> (Table.get comps conn.dest).name ≠ node ->
    (Table.get comps conn.dest).name ∉ w.clients ->
      (env.fromString (Table.get comps conn.dest).address).isSome

instance (env : Platform) (comps : Table String NodeInfo) (node : String)
    (w : Wiring) (conn : Parser.Connection) :
    Decidable (w.check env comps node conn) :=
  inferInstanceAs (Decidable (_ -> _))

end Wiring

def instancesOn (conf : Parser.Configuration) (node : String) :
    List String :=
  (conf.components.filter (fun comp =>
    decide ((Table.get (compToNode conf) comp.name).name = node))).map
      (fun comp => comp.name)

def Wirable (env : Platform) (conf : Parser.Configuration) (node : String) :
    Prop :=
  Passes (Wiring.check env (compToNode conf) node)
    (Wiring.next (compToNode conf) node)
    { entries := instancesOn conf node, clients := [] } conf.connections

/-- Every connection between components of a node leads to one of its
instances. -/
def DestinationsBuilt (conf : Parser.Configuration) (node : String) : Prop :=
  forall conn, conn ∈ conf.connections ->
    conn.source ∈ instancesOn conf node ->
      (Table.get (compToNode conf) conn.dest).name = node ->
        conn.dest ∈ instancesOn conf node

def Router.Full (r : Router) : Prop :=
  forall c, c ∈ r.components -> exists object, r.objectAt c = some object

/-- A configuration that can be deployed, and whose router can be started if it
is to be started. -/
def AcceptsConfig (env : Platform) (config : Protocol.Deploy.Config)
    (started : Bool) : Prop :=
  exists conf, configurationOfPacket config = some conf ∧
    Wirable env conf config.thisNodeInfo.name ∧
    env.bind config.thisNodeInfo.port.toUInt16 = true ∧
    (started = true -> DestinationsBuilt conf config.thisNodeInfo.name)

/-- A request that a node can handle. -/
def Accepts (env : Platform) (n : Protort.Node) (payload : Protocol.Payload) :
    Prop :=
  isDispatched payload = true ∧ n.router.Full ∧
    match payload.asDeployPacket.kind with
    | Protocol.Deploy.PacketKind.deployConfig =>
        AcceptsConfig env
          payload.asDeployPacket.request.deployConfigRequest.config
          n.router.started
    | Protocol.Deploy.PacketKind.start => True
    | Protocol.Deploy.PacketKind.stop => True
    | Protocol.Deploy.PacketKind.getStatus => True
    | _ => False

instance (r : Router) : Decidable r.Full :=
  decidable_of_iff
    (forall c, c ∈ r.components.keys -> (r.objectAt c).isSome)
    (by
      unfold Router.Full
      simp only [Finmap.mem_keys, Option.isSome_iff_exists])

instance (env : Platform) (conf : Parser.Configuration) (node : String) :
    Decidable (Wirable env conf node) :=
  inferInstanceAs (Decidable (Passes _ _ _ _))

instance (conf : Parser.Configuration) (node : String) :
    Decidable (DestinationsBuilt conf node) :=
  inferInstanceAs (Decidable (forall conn, conn ∈ conf.connections -> _))

instance (env : Platform) (config : Protocol.Deploy.Config) (started : Bool) :
    Decidable (AcceptsConfig env config started) :=
  match h : configurationOfPacket config with
  | none => isFalse (by simp [AcceptsConfig, h])
  | some conf =>
      decidable_of_iff
        (Wirable env conf config.thisNodeInfo.name ∧
          env.bind config.thisNodeInfo.port.toUInt16 = true ∧
          (started = true -> DestinationsBuilt conf config.thisNodeInfo.name))
        (by simp [AcceptsConfig, h])

instance (env : Platform) (n : Protort.Node) (payload : Protocol.Payload) :
    Decidable (Accepts env n payload) :=
  @instDecidableAnd _ _ _ (@instDecidableAnd _ _ _
    (match payload.asDeployPacket.kind with
    | Protocol.Deploy.PacketKind.deployConfig =>
        inferInstanceAs (Decidable (AcceptsConfig _ _ _))
    | Protocol.Deploy.PacketKind.start => isTrue trivial
    | Protocol.Deploy.PacketKind.stop => isTrue trivial
    | Protocol.Deploy.PacketKind.getStatus => isTrue trivial
    | Protocol.Deploy.PacketKind.getConfig => isFalse id
    | Protocol.Deploy.PacketKind.update => isFalse id
    | Protocol.Deploy.PacketKind.switch => isFalse id
    | Protocol.Deploy.PacketKind.unrecognized _ => isFalse id))

/-!
## One connection
-/

section Connections

variable {env : Platform} {comps : Table String NodeInfo}
  {conn : Parser.Connection} {n m : Protort.Node}

theorem adds_iff {first second added old : Prop} (hfirst : first)
    (hsecond : second) : added ∨ old <-> old ∨ (first ∧ second ∧ added) := by
  constructor
  · intro hcases
    rcases hcases with hadded | hold
    · exact Or.inr ⟨hfirst, hsecond, hadded⟩
    · exact Or.inl hold
  · intro hcases
    rcases hcases with hold | ⟨_, _, hadded⟩
    · exact Or.inr hold
    · exact Or.inl hadded

structure Connected (comps : Table String NodeInfo) (conn : Parser.Connection)
    (n m : Protort.Node) : Prop where
  nodeName : m.nodeName = n.nodeName
  objects : forall c, m.router.objectAt c = n.router.objectAt c
  entries : forall c, c ∈ m.router.components <->
    c ∈ n.router.components ∨ (conn.source ∈ n.router.components ∧
      (Table.get comps conn.dest).name = n.nodeName ∧ c = conn.dest)
  clients : forall x, x ∈ m.router.clients <->
    x ∈ n.router.clients ∨ (conn.source ∈ n.router.components ∧
      (Table.get comps conn.dest).name ≠ n.nodeName ∧
      x = (Table.get comps conn.dest).name)

theorem objectAt_updateRoutes (r : Router) (source : String)
    (port : Parser.PortId) (f : Routes -> Routes) (c : String) :
    (r.updateRoutes source port f).objectAt c = r.objectAt c := by
  unfold Router.objectAt
  exact Router.component_updateRoutes r source port f c

theorem clientFor_returns_iff {info : NodeInfo} :
    (exists client m, clientFor env info n = EStateM.Result.ok client m) <->
      (info.name ∉ n.router.clients ->
        (env.fromString info.address).isSome) := by
  cases hclient : n.router.clients.lookup info.name with
  | some client =>
      have hmem := Finmap.mem_of_lookup_eq_some hclient
      exact ⟨fun _ h => absurd hmem h,
        fun _ => ⟨client, n, clientFor_found hclient⟩⟩
  | none =>
      have hmem := Finmap.lookup_eq_none.mp hclient
      cases haddr : env.fromString info.address with
      | some addr =>
          exact ⟨fun _ _ => rfl, fun _ => ⟨_, _, clientFor_new hclient haddr⟩⟩
      | none =>
          constructor
          · intro h
            rcases h with ⟨client, m, hrun⟩
            rw [clientFor_bad hclient haddr] at hrun
            cases hrun
          · intro h
            cases h hmem

theorem deployConnection_returns_iff :
    (exists m, deployConnection env comps conn n =
      EStateM.Result.ok PUnit.unit m) <->
      (conn.source ∈ n.router.components ->
        (Table.get comps conn.dest).name ≠ n.nodeName ->
          (Table.get comps conn.dest).name ∉ n.router.clients ->
            (env.fromString (Table.get comps conn.dest).address).isSome) := by
  by_cases hsource : conn.source ∈ n.router.components
  · by_cases hhere : (Table.get comps conn.dest).name = n.nodeName
    · exact ⟨fun _ _ haway => absurd hhere haway,
        fun _ => ⟨_, deployConnection_here hsource hhere⟩⟩
    · have hclient : (exists client m, clientFor env
            (Table.get comps conn.dest) n = EStateM.Result.ok client m) <->
          _ := clientFor_returns_iff
      constructor
      · intro h _ _
        rcases h with ⟨m, hrun⟩
        apply hclient.mp
        unfold deployConnection at hrun
        rw [run_get_bind, run_ite, if_pos hsource] at hrun
        simp only [run_ite, if_neg hhere] at hrun
        rcases ok_of_bind hrun with ⟨client, m', hclient', _⟩
        exact ⟨client, m', hclient'⟩
      · intro h
        rcases hclient.mpr (h hsource hhere) with ⟨client, m, hrun⟩
        exact ⟨_, deployConnection_remote hsource hhere hrun⟩
  · exact ⟨fun _ h => absurd h hsource,
      fun _ => ⟨_, deployConnection_elsewhere hsource⟩⟩

theorem deployConnection_connected
    (hrun : deployConnection env comps conn n =
      EStateM.Result.ok PUnit.unit m) : Connected comps conn n m := by
  cases deployConnection_cases hrun with
  | here hsource hhere =>
      have hsource' : conn.source ∈
          Table.touch n.router.components conn.dest :=
        Table.mem_touch.mpr (Or.inr hsource)
      exact
        { nodeName := rfl
          objects := by
            intro c
            refine (objectAt_updateRoutes _ _ _ _ c).trans ?_
            unfold Router.objectAt
            rw [Table.get_touch]
          entries := by
            intro c
            refine (Router.mem_updateRoutes _ _ hsource').trans ?_
            rw [Table.mem_touch]
            exact adds_iff hsource hhere
          clients := by
            intro x
            exact (or_iff_left fun hx => hx.right.left hhere).symm }
  | known client hsource haway hclient =>
      exact
        { nodeName := rfl
          objects := fun c => objectAt_updateRoutes _ _ _ _ c
          entries := by
            intro c
            refine (Router.mem_updateRoutes _ _ hsource).trans ?_
            exact (or_iff_left fun hc => haway hc.right.left).symm
          clients := by
            intro x
            refine (or_iff_left_of_imp ?_).symm
            intro hx
            rcases hx with ⟨_, _, rfl⟩
            exact Finmap.mem_of_lookup_eq_some hclient }
  | fresh client hsource haway _ =>
      exact
        { nodeName := rfl
          objects := fun c => objectAt_updateRoutes _ _ _ _ c
          entries := by
            intro c
            refine (Router.mem_updateRoutes _ _ hsource).trans ?_
            exact (or_iff_left fun hc => haway hc.right.left).symm
          clients := by
            intro x
            refine Finmap.mem_insert.trans ?_
            exact adds_iff hsource haway }
  | elsewhere hsource =>
      exact
        { nodeName := rfl
          objects := fun _ => rfl
          entries := fun c => (or_iff_left fun hc => hsource hc.left).symm
          clients := fun x => (or_iff_left fun hx => hsource hx.left).symm }

end Connections

/-!
## Both loops
-/

section Loops

variable {env : Platform} {conf : Parser.Configuration}
  {n m : Protort.Node}

structure Wiring.Matches (node : String) (w : Wiring) (n : Protort.Node) :
    Prop where
  nodeName : n.nodeName = node
  entries : forall c, c ∈ w.entries <-> c ∈ n.router.components
  clients : forall x, x ∈ w.clients <-> x ∈ n.router.clients

theorem Wiring.Matches.step {comps : Table String NodeInfo} {node : String}
    {w : Wiring} {conn : Parser.Connection} (h : w.Matches node n)
    (hconn : Connected comps conn n m) :
    (w.next comps node conn).Matches node m := by
  have hentries := h.entries conn.source
  unfold Wiring.next
  by_cases hsource : conn.source ∈ w.entries
  · rw [if_pos hsource]
    rw [hentries] at hsource
    by_cases hhere : (Table.get comps conn.dest).name = node
    · rw [if_pos hhere]
      rw [← h.nodeName] at hhere
      exact
        { nodeName := hconn.nodeName.trans h.nodeName
          entries := by
            intro c
            rw [List.mem_cons, hconn.entries, h.entries]
            exact adds_iff hsource hhere
          clients := by
            intro x
            rw [hconn.clients, h.clients]
            exact (or_iff_left fun hx => hx.right.left hhere).symm }
    · rw [if_neg hhere]
      rw [← h.nodeName] at hhere
      exact
        { nodeName := hconn.nodeName.trans h.nodeName
          entries := by
            intro c
            rw [hconn.entries, h.entries]
            exact (or_iff_left fun hc => hhere hc.right.left).symm
          clients := by
            intro x
            rw [List.mem_cons, hconn.clients, h.clients]
            exact adds_iff hsource hhere }
  · rw [if_neg hsource]
    rw [hentries] at hsource
    exact
      { nodeName := hconn.nodeName.trans h.nodeName
        entries := by
          intro c
          rw [hconn.entries, h.entries]
          exact (or_iff_left fun hc => hsource hc.left).symm
        clients := by
          intro x
          rw [hconn.clients, h.clients]
          exact (or_iff_left fun hx => hsource hx.left).symm }

theorem deployConnections_returns_iff {comps : Table String NodeInfo}
    {conns : List Parser.Connection} {node : String} {w : Wiring}
    (h : w.Matches node n) :
    (exists m, conns.forM (deployConnection env comps) n =
      EStateM.Result.ok PUnit.unit m) <->
      Passes (Wiring.check env comps node) (Wiring.next comps node) w
        conns := by
  apply forM_ok_iff (R := Wiring.Matches node) _ _ h
  · intro w n conn hw
    rw [deployConnection_returns_iff]
    unfold Wiring.check
    rw [hw.entries, hw.nodeName, hw.clients]
  · intro w n m conn hw hrun
    exact hw.step (deployConnection_connected hrun)

theorem deployConnections_grow {comps : Table String NodeInfo}
    {conns : List Parser.Connection}
    (hrun : conns.forM (deployConnection env comps) n =
      EStateM.Result.ok PUnit.unit m) :
    (forall c, m.router.objectAt c = n.router.objectAt c) ∧
      forall c, c ∈ n.router.components -> c ∈ m.router.components := by
  refine forM_keeps (fun l : Protort.Node =>
    (forall c, l.router.objectAt c = n.router.objectAt c) ∧
      forall c, c ∈ n.router.components -> c ∈ l.router.components)
    ?_ ?_ hrun
  · intro conn l l' h hstep
    rcases h with ⟨hobjects, hentries⟩
    have hconn := deployConnection_connected hstep
    constructor
    · intro c
      exact (hconn.objects c).trans (hobjects c)
    · intro c hc
      exact (hconn.entries c).mpr (Or.inl (hentries c hc))
  · exact ⟨fun _ => rfl, fun _ hc => hc⟩

/-- Which entries of a table have a component after some connections. -/
theorem deployConnections_full_iff {comps : Table String NodeInfo}
    {conns : List Parser.Connection} (hfull : n.router.Full)
    (hrun : conns.forM (deployConnection env comps) n =
      EStateM.Result.ok PUnit.unit m) :
    m.router.Full <-> forall conn, conn ∈ conns ->
      conn.source ∈ n.router.components ->
        (Table.get comps conn.dest).name = n.nodeName ->
          conn.dest ∈ n.router.components := by
  induction conns generalizing n with
  | nil =>
      cases hrun
      exact iff_of_true hfull (fun _ h => absurd h List.not_mem_nil)
  | cons conn rest ih =>
      rcases ok_of_bind hrun with ⟨_, n1, hfirst, hsplit⟩
      have hconn := deployConnection_connected hfirst
      by_cases hbad : conn.source ∈ n.router.components ∧
          (Table.get comps conn.dest).name = n.nodeName ∧
            conn.dest ∉ n.router.components
      · rcases hbad with ⟨hsource, hhere, hdest⟩
        refine iff_of_false ?_ (fun h => hdest
          (h conn List.mem_cons_self hsource hhere))
        -- the entry that is made stays without a component
        intro hall
        rcases deployConnections_grow hsplit with ⟨hobjects, hmem⟩
        have hentry : conn.dest ∈ n1.router.components :=
          (hconn.entries _).mpr (Or.inr ⟨hsource, hhere, rfl⟩)
        rcases hall conn.dest (hmem conn.dest hentry) with ⟨object, hobject⟩
        rw [hobjects, hconn.objects] at hobject
        exact hdest (mem_of_objectAt hobject)
      · have hsame : forall c, c ∈ n1.router.components <->
            c ∈ n.router.components := by
          intro c
          rw [hconn.entries]
          refine or_iff_left_of_imp ?_
          intro hadded
          rcases hadded with ⟨hsource, hhere, rfl⟩
          by_contra hdest
          exact hbad ⟨hsource, hhere, hdest⟩
        have hfull1 : n1.router.Full := by
          intro c hc
          rw [hconn.objects]
          exact hfull c ((hsame c).mp hc)
        rw [ih hfull1 hsplit]
        constructor
        · intro h other hother hsource hhere
          rcases List.mem_cons.mp hother with rfl | hrest
          · by_contra hdest
            exact hbad ⟨hsource, hhere, hdest⟩
          · have hdest := h other hrest ((hsame _).mpr hsource)
              (hhere.trans hconn.nodeName.symm)
            exact (hsame _).mp hdest
        · intro h other hother hsource hhere
          exact (hsame _).mpr (h other (List.mem_cons_of_mem conn hother)
            ((hsame _).mp hsource) (hhere.trans hconn.nodeName))

theorem mem_instancesOn {node c : String} :
    c ∈ instancesOn conf node <-> exists comp, comp ∈ conf.components ∧
      comp.name = c ∧ (Table.get (compToNode conf) comp.name).name = node := by
  unfold instancesOn
  rw [List.mem_map]
  constructor
  · intro h
    rcases h with ⟨comp, hcomp, rfl⟩
    rcases List.mem_filter.mp hcomp with ⟨hmem, hhere⟩
    exact ⟨comp, hmem, rfl, of_decide_eq_true hhere⟩
  · intro h
    rcases h with ⟨comp, hmem, rfl, hhere⟩
    exact ⟨comp, List.mem_filter.mpr ⟨hmem, decide_eq_true hhere⟩, rfl⟩

theorem exists_of_mem_mapM {α β : Type} {f : α -> Option β} {xs : List α}
    {ys : List β} (hmap : xs.mapM f = some ys) {y : β} (hy : y ∈ ys) :
    exists x, x ∈ xs ∧ f x = some y := by
  induction xs generalizing ys with
  | nil =>
      cases hmap
      exact absurd hy List.not_mem_nil
  | cons x rest ih =>
      rw [List.mapM_cons] at hmap
      rcases Option.bind_eq_some_iff.mp hmap with ⟨z, hz, hrest⟩
      rcases Option.bind_eq_some_iff.mp hrest with ⟨zs, hzs, heq⟩
      cases heq
      rcases List.mem_cons.mp hy with rfl | hy
      · exact ⟨x, List.mem_cons_self, hz⟩
      · rcases ih hzs hy with ⟨x', hx', hfx⟩
        exact ⟨x', List.mem_cons_of_mem x hx', hfx⟩

theorem kind_of_packet {config : Protocol.Deploy.Config}
    (hconf : configurationOfPacket config = some conf)
    {comp : Parser.Component} (hcomp : comp ∈ conf.components) :
    (Components.getComponentKind comp.kind).isSome := by
  unfold configurationOfPacket at hconf
  rcases Option.map_eq_some_iff.mp hconf with ⟨components, hmap, rfl⟩
  rcases exists_of_mem_mapM hmap hcomp with ⟨inst, _, hinst⟩
  unfold componentOfInstance at hinst
  rcases Option.map_eq_some_iff.mp hinst with ⟨kind, hkind, rfl⟩
  rw [Components.getComponentKind_of_name hkind]
  rfl

/-- What the loop over the components leaves in an empty table. -/
theorem instances_matches (hclients : n.router.clients = ∅)
    (hbuilt : ComponentsBuilt (compToNode conf) n conf.components m) :
    Wiring.Matches n.nodeName
        { entries := instancesOn conf n.nodeName, clients := [] } m ∧
      m.router.Full := by
  constructor
  · exact
      { nodeName := hbuilt.outside.nodeName
        entries := fun c => by
          rw [mem_instancesOn, hbuilt.mem]
        clients := fun x => by
          rw [hbuilt.clients, hclients]
          exact iff_of_false List.not_mem_nil Finmap.notMem_empty }
  · intro c hc
    rcases Finmap.mem_iff.mp hc with ⟨inst, hinst⟩
    rcases hbuilt.instances c inst hinst with ⟨comp, _, _, address, kind, _,
      rfl⟩
    exact ⟨_, by
      unfold Router.objectAt Table.get
      rw [hinst]
      rfl⟩

/-- Into an empty table, both loops return when the connections can be made,
and every entry has a component when each of them leads to an instance. -/
theorem deployLoops_returns_iff (hempty : n.router.components = ∅)
    (hclients : n.router.clients = ∅)
    (hkinds : forall comp, comp ∈ conf.components ->
      (Components.getComponentKind comp.kind).isSome) :
    (exists m, deployLoops env conf n = EStateM.Result.ok PUnit.unit m) <->
      Wirable env conf n.nodeName := by
  rcases deployComponents_ok (compToNode conf) hempty
    (fun comp hcomp _ => hkinds comp hcomp) with ⟨k, hrun, hbuilt⟩
  unfold deployLoops
  rw [bind_ok hrun]
  exact deployConnections_returns_iff
    (instances_matches hclients hbuilt).left

theorem deployLoops_full_iff (hempty : n.router.components = ∅)
    (hclients : n.router.clients = ∅)
    (hkinds : forall comp, comp ∈ conf.components ->
      (Components.getComponentKind comp.kind).isSome)
    (hloops : deployLoops env conf n = EStateM.Result.ok PUnit.unit m) :
    m.router.Full <-> DestinationsBuilt conf n.nodeName := by
  rcases deployComponents_ok (compToNode conf) hempty
    (fun comp hcomp _ => hkinds comp hcomp) with ⟨k, hrun, hbuilt⟩
  rcases instances_matches hclients hbuilt with ⟨hmatches, hfull⟩
  unfold deployLoops at hloops
  rw [bind_ok hrun] at hloops
  rw [deployConnections_full_iff hfull hloops, hmatches.nodeName]
  unfold DestinationsBuilt
  refine forall_congr' fun conn => imp_congr_right fun _ => ?_
  rw [← hmatches.entries, ← hmatches.entries]

end Loops

/-!
## Requests
-/

section Requests

variable {env : Platform} {n : Protort.Node}

theorem complete_iff_full : Complete n n.router.address <-> n.router.Full := by
  have hr : n.findRouter n.router.address = some n.router :=
    findRouter_current n
  have hcomponent : forall c, n.findComponent ⟨n.router.address, c⟩ =
      n.router.objectAt c := by
    intro c
    rw [findComponent_eq_bind, hr]
    rfl
  constructor
  · intro h c hc
    have href : (⟨n.router.address, c⟩ : ComponentRef) ∈
        componentRefs n n.router.address :=
      (Switch.mem_componentRefs hr).mpr ⟨rfl, hc⟩
    rw [← hcomponent]
    exact h _ href
  · intro h ref href
    rcases ref with ⟨address, c⟩
    rcases (Switch.mem_componentRefs hr).mp href with ⟨rfl, hc⟩
    rw [hcomponent]
    exact h c hc

theorem componentStatuses_returns_iff {refs : List ComponentRef} :
    (exists statuses m, refs.mapM (componentStatus n) n =
      EStateM.Result.ok statuses m) <->
      forall ref, ref ∈ refs -> exists c, n.findComponent ref = some c := by
  induction refs with
  | nil =>
      exact iff_of_true ⟨[], n, rfl⟩ (fun _ h => absurd h List.not_mem_nil)
  | cons ref rest ih =>
      rw [List.mapM_cons]
      cases hc : n.findComponent ref with
      | none =>
          have hthrows : componentStatus n ref n =
              EStateM.Result.error Fault.nullComponent n := by
            unfold componentStatus
            rw [hc]
            rfl
          constructor
          · intro h
            rcases h with ⟨statuses, m, hrun⟩
            rcases ok_of_bind hrun with ⟨_, _, hreturns, _⟩
            rw [hthrows] at hreturns
            cases hreturns
          · intro h
            rcases h ref List.mem_cons_self with ⟨c, hsome⟩
            rw [hc] at hsome
            cases hsome
      | some c =>
          have hreturns : exists status, componentStatus n ref n =
              EStateM.Result.ok status n := by
            unfold componentStatus
            rw [hc]
            exact ⟨_, rfl⟩
          rcases hreturns with ⟨status, hstatus⟩
          rw [bind_ok hstatus, List.forall_mem_cons, ← ih, hc]
          constructor
          · intro h
            rcases h with ⟨statuses, m, hrun⟩
            rcases ok_of_bind hrun with ⟨rests, m', hrest, _⟩
            exact ⟨⟨c, rfl⟩, rests, m', hrest⟩
          · intro h
            rcases h with ⟨_, statuses, m, hrest⟩
            exact ⟨status :: statuses, m, by
              rw [bind_ok hrest]
              rfl⟩

theorem statusResponse_returns_iff :
    (exists response, statusResponse env n =
      EStateM.Result.ok response n) <-> Complete n n.router.address := by
  refine Iff.trans ?_ componentStatuses_returns_iff
  constructor
  · intro h
    rcases h with ⟨response, hrun⟩
    unfold statusResponse at hrun
    rw [run_get_bind] at hrun
    rcases ok_of_bind hrun with ⟨statuses, m, hstatuses, _⟩
    exact ⟨statuses, m, hstatuses⟩
  · intro h
    rcases h with ⟨statuses, m, hstatuses⟩
    have hstatus : exists response,
        statusResponse env n = EStateM.Result.ok response m := by
      unfold statusResponse
      rw [run_get_bind, bind_ok hstatuses]
      exact ⟨_, rfl⟩
    rcases hstatus with ⟨response, hstatus⟩
    have hsame := statusResponse_keeps hstatus
    subst hsame
    exact ⟨response, hstatus⟩

/-- A deployment into a new router returns, and its router can be started if
it is to be, exactly when the configuration is accepted. -/
theorem deployFromPacket_returns_iff {config : Protocol.Deploy.Config}
    {started : Bool} :
    (exists m, deployFromPacket env config n.exchanged =
        EStateM.Result.ok PUnit.unit m ∧
        (started = true -> Complete m m.router.address)) <->
      AcceptsConfig env config started := by
  have hkinds : forall conf, configurationOfPacket config = some conf ->
      forall comp, comp ∈ conf.components ->
        (Components.getComponentKind comp.kind).isSome :=
    fun conf hconf comp hcomp => kind_of_packet hconf hcomp
  constructor
  · intro h
    rcases h with ⟨m', hdeploy, hcomplete⟩
    rcases deployFromPacket_ok_iff.mp hdeploy with ⟨conf, m, hconf, hloops,
      hbind, rfl⟩
    refine ⟨conf, hconf, ?_, hbind, ?_⟩
    · exact (deployLoops_returns_iff (n := named config n.exchanged) rfl rfl
        (hkinds conf hconf)).mp ⟨m, hloops⟩
    · intro hstarted
      have hfull : m.router.Full :=
        complete_iff_full.mp (hcomplete hstarted)
      exact (deployLoops_full_iff (n := named config n.exchanged) rfl rfl
        (hkinds conf hconf) hloops).mp hfull
  · intro h
    rcases h with ⟨conf, hconf, hwirable, hbind, hdestinations⟩
    rcases (deployLoops_returns_iff (n := named config n.exchanged) rfl rfl
      (hkinds conf hconf)).mpr hwirable with ⟨m, hloops⟩
    refine ⟨_, deployFromPacket_ok_iff.mpr ⟨conf, m, hconf, hloops, hbind,
      rfl⟩, ?_⟩
    intro hstarted
    exact complete_iff_full.mpr ((deployLoops_full_iff
      (n := named config n.exchanged) rfl rfl (hkinds conf hconf)
        hloops).mpr (hdestinations hstarted))

theorem onNewRequest_returns_iff {payload : Protocol.Payload} :
    (exists response n', onNewRequest env payload n =
      EStateM.Result.ok response n') <-> Accepts env n payload := by
  have hserved : (exists response n', onNewRequest env payload n =
      EStateM.Result.ok response n') <-> isDispatched payload = true ∧
        exists response n', Served env n payload.asDeployPacket response n' := by
    constructor
    · intro h
      rcases h with ⟨response, n', hrun⟩
      rcases onNewRequest_ok_iff.mp hrun with ⟨hpayload, h⟩
      exact ⟨hpayload, response, n', h⟩
    · intro h
      rcases h with ⟨hpayload, response, n', h⟩
      exact ⟨response, n', onNewRequest_ok_iff.mpr ⟨hpayload, h⟩⟩
  rw [hserved]
  refine and_congr_right fun _ => ?_
  rw [← complete_iff_full]
  constructor
  · intro h
    rcases h with ⟨response, n', h⟩
    cases h with
    | deployConfig hkind hdeploy hstart hstop =>
        rw [hkind]
        exact ⟨hstop, deployFromPacket_returns_iff.mp ⟨_, hdeploy, hstart⟩⟩
    | start hkind hcomplete =>
        rw [hkind]
        exact ⟨hcomplete, trivial⟩
    | stop hkind hcomplete =>
        rw [hkind]
        exact ⟨hcomplete, trivial⟩
    | getStatus hkind hstatus =>
        rw [hkind]
        exact ⟨statusResponse_returns_iff.mp ⟨_, hstatus⟩, trivial⟩
  · intro h
    rcases h with ⟨hcomplete, hkind⟩
    cases hpacket : payload.asDeployPacket.kind with
    | deployConfig =>
        rw [hpacket] at hkind
        rcases deployFromPacket_returns_iff.mpr hkind with ⟨m, hdeploy, hstart⟩
        exact ⟨_, _, Served.deployConfig hpacket hdeploy hstart hcomplete⟩
    | start => exact ⟨_, _, Served.start hpacket hcomplete⟩
    | stop => exact ⟨_, _, Served.stop hpacket hcomplete⟩
    | getStatus =>
        rcases statusResponse_returns_iff.mpr hcomplete with ⟨_, hstatus⟩
        exact ⟨_, _, Served.getStatus hpacket hstatus⟩
    | _ =>
        rw [hpacket] at hkind
        exact absurd hkind id

end Requests

end Node
end Protort
