import Protort.Node.Acceptance

/-!
# Component instances that a deployment builds

The loop over the components makes complete instances.  The loop over the
connections takes the address of the entry of every destination that counts as
local, and makes an empty entry where there is none.
-/

namespace Protort
namespace Node

open Lib (Table)
open Lib.Exceptions

/-- Every entry is a complete instance, and so is every entry that a local
route leads to. -/
structure Router.Instances (r : Router) : Prop where
  entries : forall k inst, r.components.lookup k = some inst ->
    inst.name = k ∧ exists c, inst.component = some c ∧ c.compInst = some k
  routes : forall k inst port routes, r.components.lookup k = some inst ->
    inst.portToRoutes.lookup port = some routes ->
      forall route, route ∈ routes.localRoutes -> exists dest c,
        r.components.lookup route.component = some dest ∧
          dest.component = some c

/-- No null component is dereferenced by the loops over the entries of the
current router, and no packet is handed to one. -/
structure NullFree (n : Protort.Node) : Prop where
  start : forall env n', startRouter env n.router.address n ≠
    EStateM.Result.error Fault.nullComponent n'
  stop : forall n', stopRouter n.router.address n ≠
    EStateM.Result.error Fault.nullComponent n'
  status : forall env n', statusResponse env n ≠
    EStateM.Result.error Fault.nullComponent n'
  packets : forall env k outputs ref origin inPort payload,
    k ∈ n.router.components ->
      Effect.post (Task.doProcess ref origin inPort payload) ∈
          (n.router.doRoute env k outputs).2 ->
        exists c, n.findComponent ref = some c

/-- The node that `deployFromConfig` leaves, whether it returns or throws. -/
def afterDeployment (env : Platform) (conf : Parser.Configuration)
    (n : Protort.Node) : Protort.Node :=
  finalState (deployFromConfig env conf n)

def instancesWiring (conf : Parser.Configuration) (n : Protort.Node) :
    Wiring :=
  { entries := instancesOn conf n.nodeName ++
      Table.sortedKeys n.router.components
    clients := Table.sortedKeys n.router.clients }

/-- The connections up to the first one that needs a client with an address
that is none. -/
def reachedConnections (env : Platform) (conf : Parser.Configuration)
    (n : Protort.Node) : List Parser.Connection :=
  passing (Wiring.check env (compToNode conf) n.nodeName)
    (Wiring.next (compToNode conf) n.nodeName) (instancesWiring conf n)
    conf.connections

/-- Every connection that is reached and is between components of the node leads
to one that is declared, or was there before. -/
def DestinationsDeclared (env : Platform) (conf : Parser.Configuration)
    (n : Protort.Node) : Prop :=
  forall conn, conn ∈ reachedConnections env conf n ->
    conn.source ∈ (instancesWiring conf n).entries ->
      (Table.get (compToNode conf) conn.dest).name = n.nodeName ->
        conn.dest ∈ (instancesWiring conf n).entries

/-!
## What holds of every table
-/

abbrev Router.Labelled (r : Router) : Prop :=
  r.Holds (fun k name object => name = k ∧ object.compInst = some k)

theorem Router.objectAt_of_lookup {r : Router} {k : String}
    {inst : ComponentInstance} (h : r.components.lookup k = some inst) :
    r.objectAt k = inst.component :=
  congrArg ComponentInstance.component (Table.get_of_lookup h)

theorem Router.mem_localRoutes {r : Router} {k : String}
    {port : Parser.PortId} {route : LocalRoute} :
    route ∈ (r.routesAt k port).localRoutes <->
      exists inst routes, r.components.lookup k = some inst ∧
        inst.portToRoutes.lookup port = some routes ∧
          route ∈ routes.localRoutes := by
  unfold Router.routesAt
  constructor
  · intro hroute
    cases hinst : r.components.lookup k with
    | none =>
        rw [Table.get_of_notMem (Finmap.lookup_eq_none.mp hinst)] at hroute
        cases hroute
    | some inst =>
        rw [Table.get_of_lookup hinst] at hroute
        cases hroutes : inst.portToRoutes.lookup port with
        | none =>
            rw [Table.get_of_notMem (Finmap.lookup_eq_none.mp hroutes)]
              at hroute
            cases hroute
        | some routes =>
            rw [Table.get_of_lookup hroutes] at hroute
            exact ⟨inst, routes, rfl, hroutes, hroute⟩
  · intro h
    rcases h with ⟨inst, routes, hinst, hroutes, hroute⟩
    rw [Table.get_of_lookup hinst, Table.get_of_lookup hroutes]
    exact hroute

theorem Router.instances_iff {r : Router} :
    r.Instances <-> r.Labelled ∧ r.Full := by
  constructor
  · intro h
    have hentry : forall k, k ∈ r.components -> exists object,
        r.objectAt k = some object ∧ (Table.get r.components k).name = k ∧
          object.compInst = some k := by
      intro k hk
      rcases Finmap.mem_iff.mp hk with ⟨inst, hinst⟩
      rcases h.entries k inst hinst with ⟨hname, c, hc, hself⟩
      rw [Router.objectAt_of_lookup hinst, Table.get_of_lookup hinst]
      exact ⟨c, hc, hname, hself⟩
    constructor
    · constructor
      · intro k object hobject
        rcases hentry k (mem_of_objectAt hobject) with
          ⟨c, hc, hname, hself⟩
        rw [hobject] at hc
        cases hc
        exact ⟨hname, hself⟩
      · intro k port route hroute
        rcases Router.mem_localRoutes.mp hroute with
          ⟨inst, routes, hinst, hroutes, hmem⟩
        rcases h.routes k inst port routes hinst hroutes route hmem with
          ⟨dest, _, hdest, _⟩
        exact Finmap.mem_of_lookup_eq_some hdest
    · intro k hk
      rcases hentry k hk with ⟨c, hc, _⟩
      exact ⟨c, hc⟩
  · intro h
    rcases h with ⟨hlabelled, hfull⟩
    constructor
    · intro k inst hinst
      rcases hfull k (Finmap.mem_of_lookup_eq_some hinst) with ⟨c, hc⟩
      rcases hlabelled.objects k c hc with ⟨hname, hself⟩
      rw [Table.get_of_lookup hinst] at hname
      rw [Router.objectAt_of_lookup hinst] at hc
      exact ⟨hname, c, hc, hself⟩
    · intro k inst port routes hinst hroutes route hroute
      have hmem : route.component ∈ r.components :=
        hlabelled.routes k port route
          (Router.mem_localRoutes.mpr ⟨inst, routes, hinst, hroutes, hroute⟩)
      rcases hfull route.component hmem with ⟨c, hc⟩
      rcases Finmap.mem_iff.mp hmem with ⟨dest, hdest⟩
      rw [Router.objectAt_of_lookup hdest] at hc
      exact ⟨dest, c, hdest, hc⟩

theorem Router.Instances.sameTable {r r' : Router} (h : r.Instances)
    (htable : Router.SameTable { r with started := r'.started } r') :
    r'.Instances := by
  rcases Router.instances_iff.mp h with ⟨hlabelled, hfull⟩
  have hview : forall k, (r'.objectAt k).map viewObject =
      (r.objectAt k).map viewObject := htable.objects
  apply Router.instances_iff.mpr
  constructor
  · constructor
    · intro k object' hobject'
      have hmap := hview k
      rw [hobject', Option.map_some] at hmap
      rcases Option.map_eq_some_iff.mp hmap.symm with
        ⟨object, hobject, hsame⟩
      rcases hlabelled.objects k object hobject with ⟨hname, hself⟩
      have hself' : object'.compInst = object.compInst :=
        congrArg ObjectView.compInst hsame.symm
      exact ⟨(htable.names k).trans hname, hself'.trans hself⟩
    · intro k port route hroute
      rw [htable.routes] at hroute
      exact (htable.mem _).mpr (hlabelled.routes k port route hroute)
  · intro k hk
    rcases hfull k ((htable.mem k).mp hk) with ⟨object, hobject⟩
    have hmap := hview k
    rw [hobject, Option.map_some] at hmap
    rcases Option.map_eq_some_iff.mp hmap with ⟨object', hobject', _⟩
    exact ⟨object', hobject'⟩

theorem Router.Instances.nullFree {n : Protort.Node}
    (h : n.router.Instances) : NullFree n := by
  rcases Router.instances_iff.mp h with ⟨hlabelled, hfull⟩
  have hcomplete : Complete n n.router.address := complete_iff_full.mpr hfull
  refine
    { start := ?_
      stop := ?_
      status := ?_
      packets := ?_ }
  · intro env n' hrun
    rw [startRouter_ok env hcomplete] at hrun
    cases hrun
  · intro n' hrun
    rw [stopRouter_ok hcomplete] at hrun
    cases hrun
  · intro env n' hrun
    rcases statusResponse_returns_iff.mpr hcomplete with
      ⟨response, hresponse⟩
    rw [hresponse] at hrun
    cases hrun
  · intro env k outputs ref origin inPort payload hk hpost
    rcases Router.doRoute_posts env hk hpost with
      ⟨_, origin', port, output, route, _, _, hroute, heq⟩
    cases heq
    rcases hfull _ (hlabelled.routes k port route hroute) with ⟨c, hc⟩
    exact ⟨c, findComponent_eq_some.mpr
      ⟨n.router, findRouter_current n, hc⟩⟩

/-!
## The loops
-/

section Loops

variable {env : Platform} {comps : Table String NodeInfo}
  {conn : Parser.Connection} {n m : Protort.Node}

structure Made (comps : Table String NodeInfo) (n : Protort.Node)
    (front : List Parser.Component) (m : Protort.Node) : Prop where
  nodeName : m.nodeName = n.nodeName
  clients : m.router.clients = n.router.clients
  mem : forall k, k ∈ m.router.components <->
    (exists comp, comp ∈ front ∧ comp.name = k ∧
      (Table.get comps comp.name).name = n.nodeName) ∨
        k ∈ n.router.components
  labelled : m.router.Labelled
  full : m.router.Full

theorem Made.step {front : List Parser.Component} {comp : Parser.Component}
    (h : Made comps n front m)
    (hkind : (Components.getComponentKind comp.kind).isSome) :
    exists m', deployComponent comps comp m =
      EStateM.Result.ok PUnit.unit m' ∧ Made comps n (front ++ [comp]) m' := by
  by_cases hhere : (Table.get comps comp.name).name = m.nodeName
  · rcases Option.isSome_iff_exists.mp hkind with ⟨kind, hk⟩
    refine ⟨_, deployComponent_here hhere hk, ?_⟩
    rw [h.nodeName] at hhere
    exact
      { nodeName := h.nodeName
        clients := h.clients
        mem := by
          intro k
          rw [Finmap.mem_insert, h.mem k, Lib.Loops.exists_mem_snoc, or_comm,
            or_right_comm]
          apply or_congr_left
          apply or_congr_right
          constructor
          · intro hk'
            exact ⟨hk'.symm, hhere⟩
          · intro hk'
            exact hk'.left.symm
        labelled := h.labelled.insert ⟨rfl, rfl⟩
        full := by
          intro k hk'
          show exists object, (Table.get
            (Finmap.insert comp.name _ m.router.components) k).component =
              some object
          rw [Table.get_insert]
          by_cases hname : k = comp.name
          · rw [if_pos hname]
            exact ⟨_, rfl⟩
          · rw [if_neg hname]
            rcases Finmap.mem_insert.mp hk' with heq | hold
            · exact absurd heq hname
            · exact h.full k hold }
  · refine ⟨m, deployComponent_elsewhere hhere, ?_⟩
    rw [h.nodeName] at hhere
    exact
      { nodeName := h.nodeName
        clients := h.clients
        mem := by
          intro k
          rw [h.mem k, Lib.Loops.exists_mem_snoc]
          apply or_congr_left
          exact (or_iff_left (fun hk' => hhere hk'.right)).symm
        labelled := h.labelled
        full := h.full }

theorem made_all {components : List Parser.Component}
    (hkinds : forall comp, comp ∈ components ->
      (Components.getComponentKind comp.kind).isSome)
    (hn : n.router.Instances) :
    exists m, components.forM (deployComponent comps) n =
      EStateM.Result.ok PUnit.unit m ∧ Made comps n components m := by
  rcases Router.instances_iff.mp hn with ⟨hlabelled, hfull⟩
  have hstart : Made comps n [] n :=
    { nodeName := rfl
      clients := rfl
      mem := by
        intro k
        refine (or_iff_right ?_).symm
        intro h
        rcases h with ⟨comp, hcomp, _⟩
        exact absurd hcomp List.not_mem_nil
      labelled := hlabelled
      full := hfull }
  have hloop : exists m, components.forM (deployComponent comps) n =
      EStateM.Result.ok PUnit.unit m ∧ Made comps n ([] ++ components) m :=
    forM_ok (Made comps n)
      (fun front comp back m heq hm => hm.step (hkinds comp (by
        rw [List.nil_append] at heq
        rw [heq]
        exact List.mem_append_right front List.mem_cons_self)))
      hstart
  rw [List.nil_append] at hloop
  exact hloop

theorem deployConnection_throws {e : Fault}
    (hrun : deployConnection env comps conn n = EStateM.Result.error e m) :
    m = n := by
  by_cases hsource : conn.source ∈ n.router.components
  · by_cases hhere : (Table.get comps conn.dest).name = n.nodeName
    · rw [deployConnection_here hsource hhere] at hrun
      cases hrun
    · cases hclient : n.router.clients.lookup
          (Table.get comps conn.dest).name with
      | some client =>
          rw [deployConnection_remote hsource hhere
            (clientFor_found hclient)] at hrun
          cases hrun
      | none =>
          cases haddr : env.fromString (Table.get comps conn.dest).address with
          | none =>
              rw [deployConnection_bad hsource hhere hclient haddr] at hrun
              cases hrun
              rfl
          | some addr =>
              rw [deployConnection_remote hsource hhere
                (clientFor_new hclient haddr)] at hrun
              cases hrun
  · rw [deployConnection_elsewhere hsource] at hrun
    cases hrun

theorem Made.wiring {conf : Parser.Configuration}
    (h : Made (compToNode conf) n conf.components m) :
    Wiring.Matches n.nodeName (instancesWiring conf n) m :=
  { nodeName := h.nodeName
    entries := by
      intro k
      show k ∈ instancesOn conf n.nodeName ++ _ <-> _
      rw [List.mem_append, mem_instancesOn, h.mem]
      refine or_congr_right ?_
      unfold Table.sortedKeys
      rw [Finset.mem_sort, Finmap.mem_keys]
    clients := by
      intro x
      show x ∈ Table.sortedKeys n.router.clients <-> _
      unfold Table.sortedKeys
      rw [Finset.mem_sort, Finmap.mem_keys, h.clients] }

end Loops

/-- The router of a deployment is what the connections that are reached make of
the instances. -/
theorem afterDeployment_router {env : Platform} {conf : Parser.Configuration}
    {n : Protort.Node} (hkinds : forall comp, comp ∈ conf.components ->
      (Components.getComponentKind comp.kind).isSome)
    (hn : n.router.Instances) :
    exists m m', Made (compToNode conf) n conf.components m ∧
      (reachedConnections env conf n).forM
          (deployConnection env (compToNode conf)) m =
        EStateM.Result.ok PUnit.unit m' ∧
      (afterDeployment env conf n).router = m'.router := by
  rcases made_all hkinds hn with ⟨m, hloop, hmade⟩
  have hcheck : forall {w m} conn, Wiring.Matches n.nodeName w m ->
      ((exists m', deployConnection env (compToNode conf) conn m =
          EStateM.Result.ok PUnit.unit m') <->
        Wiring.check env (compToNode conf) n.nodeName w conn) := by
    intro w m conn hw
    rw [deployConnection_returns_iff]
    unfold Wiring.check
    rw [hw.entries, hw.nodeName, hw.clients]
  have hreached : (reachedConnections env conf n).forM
        (deployConnection env (compToNode conf)) m =
      EStateM.Result.ok PUnit.unit (finalState (conf.connections.forM
        (deployConnection env (compToNode conf)) m)) := by
    unfold reachedConnections
    exact forM_passing (f := deployConnection env (compToNode conf))
      (R := Wiring.Matches n.nodeName) hcheck
      (fun conn hw hrun => hw.step (deployConnection_connected hrun))
      (fun hrun => deployConnection_throws hrun) hmade.wiring
  refine ⟨m, _, hmade, hreached, ?_⟩
  unfold afterDeployment
  rw [deployFromConfig_eq]
  unfold deployLoops
  rw [bind_assoc, bind_ok hloop]
  cases hrun : conf.connections.forM
      (deployConnection env (compToNode conf)) m with
  | error e m' =>
      rw [bind_error hrun]
  | ok u m' =>
      rw [bind_ok hrun, run_get_bind, router_listen]
      rfl

/-- A deployment of components of known kinds builds complete instances, whose
router never meets a null component, exactly when every connection that it
reaches, between components of the node, leads to one that is declared. -/
theorem deploys_instances_iff {env : Platform} {conf : Parser.Configuration}
    {n : Protort.Node} (hkinds : forall comp, comp ∈ conf.components ->
      (Components.getComponentKind comp.kind).isSome)
    (hn : n.router.Instances) :
    ((afterDeployment env conf n).router.Instances ∧
      forall n' : Protort.Node, Router.SameTable
        { (afterDeployment env conf n).router with started := n'.router.started }
          n'.router -> NullFree n') <->
      DestinationsDeclared env conf n := by
  rcases @afterDeployment_router env conf n hkinds hn with
    ⟨m, m', hmade, hconns, hrouter⟩
  have hlabelled : m'.router.Labelled :=
    forM_keeps (fun m => m.router.Labelled)
      (fun _ _ _ hinv hstep => deployConnection_holds hinv hstep)
      hmade.labelled hconns
  have hfull : m'.router.Full <-> DestinationsDeclared env conf n := by
    rw [deployConnections_full_iff hmade.full hconns, hmade.nodeName]
    unfold DestinationsDeclared
    refine forall_congr' fun conn => imp_congr_right fun _ => ?_
    rw [hmade.wiring.entries, hmade.wiring.entries]
  rw [hrouter, ← hfull]
  constructor
  · intro h
    exact (Router.instances_iff.mp h.left).right
  · intro h
    have hinstances : m'.router.Instances :=
      Router.instances_iff.mpr ⟨hlabelled, h⟩
    constructor
    · exact hinstances
    · intro n' htable
      exact (hinstances.sameTable htable).nullFree

/-- Two components of a node of which the second one is mapped, and declared
when it is in the list. -/
def pairOn (components : List Parser.Component) : Parser.Configuration :=
  { components := components
    connections := [⟨"a", 0, "b", 0⟩]
    nodes := [⟨"n1", ⟨"127.0.0.1", 100, 100⟩, none⟩]
    mappings := [⟨"a", "n1"⟩, ⟨"b", "n1"⟩] }

def freshNode : Protort.Node :=
  { Node.new 100 0 with nodeName := "n1" }

theorem Router.Instances.new (address : Nat) :
    (Router.new address).Instances := by
  constructor
  · intro k inst hinst
    cases hinst
  · intro k inst port routes hinst
    cases hinst

theorem deploys_instances_pair :
    (afterDeployment Platform.loopback
      (pairOn [⟨"a", "retranslator"⟩, ⟨"b", "terminator"⟩])
        freshNode).router.Instances := by
  have hkinds : forall comp, comp ∈ (pairOn [⟨"a", "retranslator"⟩,
      ⟨"b", "terminator"⟩]).components ->
        (Components.getComponentKind comp.kind).isSome := by
    decide
  have hdeclared : DestinationsDeclared Platform.loopback
      (pairOn [⟨"a", "retranslator"⟩, ⟨"b", "terminator"⟩]) freshNode := by
    unfold DestinationsDeclared
    decide +kernel
  exact ((deploys_instances_iff hkinds (Router.Instances.new 0)).mpr
    hdeclared).left

/-- The entry of a component that is mapped but not declared stays empty, and
the router cannot be started. -/
theorem undeclared_not_built :
    (forall comp, comp ∈ (pairOn [⟨"a", "retranslator"⟩]).components ->
      (Components.getComponentKind comp.kind).isSome) ∧
    "b" ∈ (afterDeployment Platform.loopback (pairOn [⟨"a", "retranslator"⟩])
      freshNode).router.components ∧
    (afterDeployment Platform.loopback (pairOn [⟨"a", "retranslator"⟩])
      freshNode).router.objectAt "b" = none ∧
    ¬ (afterDeployment Platform.loopback (pairOn [⟨"a", "retranslator"⟩])
      freshNode).router.Instances := by
  have hentry : "b" ∈ (afterDeployment Platform.loopback
      (pairOn [⟨"a", "retranslator"⟩]) freshNode).router.components ∧
    (afterDeployment Platform.loopback (pairOn [⟨"a", "retranslator"⟩])
      freshNode).router.objectAt "b" = none := by
    decide +kernel
  refine ⟨by decide, hentry.left, hentry.right, ?_⟩
  intro h
  rcases (Router.instances_iff.mp h).right "b" hentry.left with ⟨c, hc⟩
  rw [hentry.right] at hc
  cases hc

end Node
end Protort
