import Protort.Node.Configured
import Protort.Node.Workers

/-!
# Deployments that interleave

A handler builds its router, and names the node, through the node and not
through the router it has made.  When another request exchanges the router in
the meantime, it works on the router of that request.  Nothing is mixed as long
as what it does there makes no difference.
-/

namespace Protort
namespace Node

open Lib (Table Run Steps Guarded execute)
open Lib.Exceptions

/-!
## Routers with the same entries
-/

section SameRouters

variable {r r' : Router}

theorem SameRouter.refl (r : Router) : SameRouter r r :=
  ⟨rfl, rfl, rfl⟩

theorem SameRouter.trans {r r' r'' : Router} (h : SameRouter r r')
    (h' : SameRouter r' r'') : SameRouter r r'' :=
  ⟨h'.left.trans h.left, h'.right.left.trans h.right.left,
    h'.right.right.trans h.right.right⟩

theorem SameRouter.mem_iff (h : SameRouter r r') (c : String) :
    c ∈ r'.components <-> c ∈ r.components := by
  have hentry := congrFun h.right.left c
  unfold Router.entries at hentry
  rw [← Finmap.lookup_isSome, ← Finmap.lookup_isSome,
    ← Option.isSome_map (f := viewEntry), hentry, Option.isSome_map]

theorem SameRouter.viewEntry_get (h : SameRouter r r') (c : String) :
    viewEntry (Table.get r'.components c) =
      viewEntry (Table.get r.components c) := by
  have hentry := congrFun h.right.left c
  unfold Router.entries at hentry
  cases hr : r.components.lookup c with
  | some inst =>
      rw [hr] at hentry
      rcases Option.map_eq_some_iff.mp hentry with ⟨inst', hr', hview⟩
      rw [Table.get_of_lookup hr, Table.get_of_lookup hr']
      exact hview
  | none =>
      rw [hr] at hentry
      have hr' := Option.map_eq_none_iff.mp hentry
      rw [Table.get_of_notMem (Finmap.lookup_eq_none.mp hr),
        Table.get_of_notMem (Finmap.lookup_eq_none.mp hr')]

theorem SameRouter.insert (h : SameRouter r r') (name : String)
    {inst inst' : ComponentInstance} (hinst : viewEntry inst' = viewEntry inst) :
    SameRouter { r with components := r.components.insert name inst }
      { r' with components := r'.components.insert name inst' } := by
  refine ⟨h.left, ?_, h.right.right⟩
  funext c
  have hentry := congrFun h.right.left c
  unfold Router.entries at hentry ⊢
  rw [Table.lookup_insert_eq_ite, Table.lookup_insert_eq_ite]
  by_cases hc : c = name
  · rw [if_pos hc, if_pos hc, Option.map_some, Option.map_some, hinst]
  · rw [if_neg hc, if_neg hc]
    exact hentry

theorem SameRouter.touch (h : SameRouter r r') (name : String) :
    SameRouter { r with components := Table.touch r.components name }
      { r' with components := Table.touch r'.components name } := by
  by_cases hname : name ∈ r.components
  · rw [Table.touch_of_mem hname, Table.touch_of_mem ((h.mem_iff name).mpr hname)]
    exact h
  · unfold Table.touch Table.emplace
    rw [if_neg hname, if_neg (fun h' => hname ((h.mem_iff name).mp h'))]
    exact h.insert name rfl

theorem SameRouter.updateRoutes (h : SameRouter r r') (source : String)
    (port : Parser.PortId) (f : Routes -> Routes) :
    SameRouter (r.updateRoutes source port f)
      (r'.updateRoutes source port f) := by
  apply h.insert
  have hview := h.viewEntry_get source
  unfold viewEntry ComponentInstance.updateRoutes at *
  injection hview with hobject hname hroutes
  rw [hobject, hname, hroutes]

theorem SameRouter.insertClient (h : SameRouter r r') (x : String)
    (client : Client) :
    SameRouter { r with clients := r.clients.insert x client }
      { r' with clients := r'.clients.insert x client } := by
  refine ⟨h.left, h.right.left, ?_⟩
  show r'.clients.insert x client = r.clients.insert x client
  rw [h.right.right]

end SameRouters

/-!
## Building the same
-/

structure Matches (m n : Protort.Node) : Prop where
  router : SameRouter m.router n.router
  next : n.next = m.next
  nodeName : n.nodeName = m.nodeName

section Building

variable {env : Platform} {comps : Table String NodeInfo}
  {m n n' : Protort.Node}

theorem Matches.component (h : Matches m n) {comp : Parser.Component}
    (hrun : deployComponent comps comp n =
      EStateM.Result.ok PUnit.unit n') :
    exists m', deployComponent comps comp m =
        EStateM.Result.ok PUnit.unit m' ∧
      Matches m' n' := by
  cases deployComponent_cases hrun with
  | here kind hhere hkind =>
      rw [h.nodeName] at hhere
      refine ⟨_, deployComponent_here hhere hkind, ?_⟩
      have hinst : newComponent n.next n.router.address kind comp.name =
          newComponent m.next m.router.address kind comp.name := by
        rw [h.next, h.router.left]
      exact
        { router := h.router.insert comp.name (by rw [hinst])
          next := congrArg Nat.succ h.next
          nodeName := h.nodeName }
  | elsewhere haway =>
      rw [h.nodeName] at haway
      exact ⟨m, deployComponent_elsewhere haway, h⟩

theorem Matches.client (h : Matches m n) {info : NodeInfo} {client : Client}
    (hrun : clientFor env info n = EStateM.Result.ok client n') :
    exists m', clientFor env info m = EStateM.Result.ok client m' ∧
      Matches m' n' := by
  cases hclient : n.router.clients.lookup info.name with
  | some known =>
      rw [clientFor_found hclient] at hrun
      cases hrun
      rw [h.router.right.right] at hclient
      exact ⟨m, clientFor_found hclient, h⟩
  | none =>
      cases haddr : env.fromString info.address with
      | none =>
          rw [clientFor_bad hclient haddr] at hrun
          cases hrun
      | some addr =>
          rw [clientFor_new hclient haddr] at hrun
          cases hrun
          rw [h.router.right.right] at hclient
          rw [h.next]
          exact ⟨_, clientFor_new hclient haddr,
            { router := h.router.insertClient info.name _
              next := rfl
              nodeName := h.nodeName }⟩

theorem Matches.connection (h : Matches m n) {conn : Parser.Connection}
    (hrun : deployConnection env comps conn n =
      EStateM.Result.ok PUnit.unit n') :
    exists m', deployConnection env comps conn m =
        EStateM.Result.ok PUnit.unit m' ∧
      Matches m' n' := by
  have hmem := h.router.mem_iff conn.source
  by_cases hsource : conn.source ∈ n.router.components
  · by_cases hhere : (Table.get comps conn.dest).name = n.nodeName
    · rw [deployConnection_here hsource hhere] at hrun
      cases hrun
      rw [h.nodeName] at hhere
      exact ⟨_, deployConnection_here (hmem.mp hsource) hhere,
        { router := (h.router.touch conn.dest).updateRoutes _ _ _
          next := h.next
          nodeName := h.nodeName }⟩
    · cases hclient : clientFor env (Table.get comps conn.dest) n with
      | error e l =>
          unfold deployConnection at hrun
          rw [run_get_bind, run_ite, if_pos hsource] at hrun
          simp only [run_ite, if_neg hhere, bind_error hclient] at hrun
          cases hrun
      | ok client l =>
          rw [deployConnection_remote hsource hhere hclient] at hrun
          cases hrun
          rcases h.client hclient with ⟨l', hclient', hl⟩
          rw [h.nodeName] at hhere
          exact ⟨_, deployConnection_remote (hmem.mp hsource) hhere hclient',
            { router := hl.router.updateRoutes _ _ _
              next := hl.next
              nodeName := hl.nodeName }⟩
  · rw [deployConnection_elsewhere hsource] at hrun
    cases hrun
    exact ⟨m, deployConnection_elsewhere (fun h' => hsource (hmem.mpr h')), h⟩

theorem Matches.build (h : Matches m n) {piece : Piece}
    (hrun : piece.build env comps n = EStateM.Result.ok PUnit.unit n') :
    exists m', piece.build env comps m = EStateM.Result.ok PUnit.unit m' ∧
      Matches m' n' := by
  cases piece with
  | component comp => exact h.component hrun
  | connection conn => exact h.connection hrun

theorem build_congr {env' : Platform}
    (henv : env'.fromString = env.fromString) (piece : Piece) :
    piece.build env' comps = piece.build env comps := by
  cases piece with
  | component comp => rfl
  | connection conn =>
      unfold Piece.build deployConnection clientFor
      rw [henv]

theorem build_outside (piece : Piece) :
    Within SameOutside (piece.build env comps) := by
  cases piece with
  | component comp => exact deployComponent_outside comps comp
  | connection conn => exact deployConnection_outside env comps conn

end Building

/-!
## Nodes between the acts of a handler
-/

structure StillThere (n n' : Protort.Node) : Prop where
  router : SameRouter n.router n'.router
  next : n'.next = n.next
  nodeName : n'.nodeName = n.nodeName
  port : n'.port = n.port

theorem setFlag_sameDeployment (w : Switch) (n : Protort.Node)
    (ref : ComponentRef) : SameDeployment n (w.setFlag n ref) := by
  unfold Switch.setFlag
  cases hc : n.findComponent ref with
  | none => exact SameDeployment.refl n
  | some c =>
      by_cases hgen : c.isGenerator = true
      · have hview : viewObject (w.switched c) = viewObject c := by
          unfold Switch.switched
          rw [if_pos hgen]
          rfl
        simp only [hgen, if_true]
        exact updateComponent_sameDeployment hc hview
      · simp only [hgen]
        exact SameDeployment.refl n

theorem switchRouter_sameDeployment (w : Switch) (address : Nat)
    (n : Protort.Node) : SameDeployment n (switchRouter w address n) := by
  have hflagged : SameDeployment n (w.flagged address n) :=
    List.foldlRecOn (componentRefs n address) w.setFlag
      (setStarted_sameDeployment address w.started n)
      (fun m hm ref _ => SameDeployment.trans n m _ hm
        (setFlag_sameDeployment w m ref))
  exact SameDeployment.trans n _ _ hflagged (performAll_sameDeployment _ _)

theorem stillThere_switchRouter (w : Switch) (address : Nat)
    (n : Protort.Node) : StillThere n (switchRouter w address n) := by
  have hsame := switchRouter_sameDeployment w address n
  exact
    { router := ⟨congrArg Deployment.router hsame,
        congrArg Deployment.entries hsame, congrArg Deployment.clients hsame⟩
      next := (switchRouter_spec w address n).next
      nodeName := congrArg Deployment.nodeName hsame
      port := congrArg Deployment.port hsame }

theorem stillThere_restarted (env : Platform) (wasStarted : Bool)
    (n : Protort.Node) : StillThere n (restarted env wasStarted n) := by
  unfold restarted
  cases wasStarted with
  | true => exact stillThere_switchRouter _ _ n
  | false => exact ⟨SameRouter.refl n.router, rfl, rfl, rfl⟩

/-- A node is as the deployment of a configuration on its own leaves it: the
router, with its components, routes and clients, is built by both loops into a
new one. -/
structure Deployed (env : Platform) (config : Protocol.Deploy.Config)
    (n : Protort.Node) : Prop where
  router : exists conf before after,
    configurationOfPacket config = some conf ∧
      before.router = Router.new n.router.address ∧
      before.nodeName = config.thisNodeInfo.name ∧
      deployLoops env conf before = EStateM.Result.ok PUnit.unit after ∧
      SameRouter after.router n.router
  nodeName : n.nodeName = config.thisNodeInfo.name
  port : n.port = config.thisNodeInfo.port

def Built (env : Platform) (conf : Parser.Configuration) (front : List Piece)
    (n : Protort.Node) : Prop :=
  exists before after,
    before.router = Router.new n.router.address ∧
      before.nodeName = n.nodeName ∧
      front.forM (Piece.build env (compToNode conf)) before =
        EStateM.Result.ok PUnit.unit after ∧
      Matches after n

/-- How far the deployment of a configuration has come on a node. -/
inductive Progress (env : Platform) (config : Protocol.Deploy.Config)
    (n : Protort.Node) : Stage -> Prop where
  | naming : SameRouter (Router.new n.router.address) n.router ->
      Progress env config n Stage.naming
  | numbering : SameRouter (Router.new n.router.address) n.router ->
      n.nodeName = config.thisNodeInfo.name ->
      Progress env config n Stage.numbering
  | building (conf : Parser.Configuration) (front left : List Piece) :
      configurationOfPacket config = some conf ->
      pieces conf = front ++ left ->
      Built env conf front n ->
      n.nodeName = config.thisNodeInfo.name ->
      n.port = config.thisNodeInfo.port ->
      Progress env config n (Stage.building (compToNode conf) left)
  | starting : Deployed env config n ->
      Progress env config n Stage.starting
  | stopping : Deployed env config n ->
      Progress env config n Stage.stopping
  | finished : Deployed env config n ->
      Progress env config n Stage.finished

section Between

variable {env env' : Platform} {config : Protocol.Deploy.Config}
  {conf : Parser.Configuration} {n n' : Protort.Node} {front : List Piece}

theorem Deployed.stillThere (h : Deployed env config n)
    (hn : StillThere n n') : Deployed env config n' := by
  rcases h.router with ⟨conf, before, after, hconf, hnew, hname, hrun, hsame⟩
  rw [← hn.router.left] at hnew
  exact
    { router := ⟨conf, before, after, hconf, hnew, hname, hrun,
        hsame.trans hn.router⟩
      nodeName := hn.nodeName.trans h.nodeName
      port := hn.port.trans h.port }

theorem Built.stillThere (h : Built env conf front n)
    (hn : StillThere n n') : Built env conf front n' := by
  rcases h with ⟨before, after, hnew, hname, hrun, hmatches⟩
  rw [← hn.router.left] at hnew
  exact ⟨before, after, hnew, hname.trans hn.nodeName.symm, hrun,
    { router := hmatches.router.trans hn.router
      next := hn.next.trans hmatches.next
      nodeName := hn.nodeName.trans hmatches.nodeName }⟩

theorem stillThere_new (hn : StillThere n n')
    (h : SameRouter (Router.new n.router.address) n.router) :
    SameRouter (Router.new n'.router.address) n'.router := by
  rw [hn.router.left]
  exact h.trans hn.router

theorem Progress.stillThere {stage : Stage}
    (h : Progress env config n stage) (hn : StillThere n n') :
    Progress env config n' stage := by
  cases h with
  | naming hnew => exact Progress.naming (stillThere_new hn hnew)
  | numbering hnew hname =>
      exact Progress.numbering (stillThere_new hn hnew)
        (hn.nodeName.trans hname)
  | building conf front left hconf hpieces hbuilt hname hport =>
      exact Progress.building conf front left hconf hpieces
        (hbuilt.stillThere hn) (hn.nodeName.trans hname)
        (hn.port.trans hport)
  | starting hdeployed => exact Progress.starting (hdeployed.stillThere hn)
  | stopping hdeployed => exact Progress.stopping (hdeployed.stillThere hn)
  | finished hdeployed => exact Progress.finished (hdeployed.stillThere hn)

theorem Built.step {piece : Piece} (h : Built env conf front n)
    (henv : env'.fromString = env.fromString)
    (hrun : piece.build env' (compToNode conf) n =
      EStateM.Result.ok PUnit.unit n') :
    Built env conf (front ++ [piece]) n' := by
  rcases h with ⟨before, after, hnew, hname, hfront, hmatches⟩
  have houtside := @build_outside env' (compToNode conf) piece n
  rw [hrun, finalState_ok] at houtside
  rw [build_congr henv] at hrun
  rcases hmatches.build hrun with ⟨after', hrun', hmatches'⟩
  refine ⟨before, after', ?_, ?_, ?_, hmatches'⟩
  · rw [houtside.address]
    exact hnew
  · rw [houtside.nodeName]
    exact hname
  · rw [forM_append_ok hfront]
    show (piece.build env (compToNode conf) >>= fun _ => pure PUnit.unit)
      after = _
    rw [bind_ok hrun']
    rfl

theorem Built.deployed (h : Built env conf (pieces conf) n)
    (hconf : configurationOfPacket config = some conf)
    (hname : n.nodeName = config.thisNodeInfo.name)
    (hport : n.port = config.thisNodeInfo.port) :
    Deployed env config n := by
  rcases h with ⟨before, after, hnew, hbefore, hrun, hmatches⟩
  rw [← deployLoops_pieces] at hrun
  exact
    { router := ⟨conf, before, after, hconf, hnew, hbefore.trans hname, hrun,
        hmatches.router⟩
      nodeName := hname
      port := hport }

/-- The handler whose router is the current one gets on with its
configuration. -/
theorem Progress.step {h h' : Handling}
    (hprogress : Progress env config n h.stage)
    (henv : env'.fromString = env.fromString)
    (hacted : Acted env' config h n h' n') :
    Progress env config n' h'.stage := by
  cases hacted with
  | reading hstage =>
      rw [hstage] at hprogress
      cases hprogress
  | exchanging hstage =>
      rw [hstage] at hprogress
      cases hprogress
  | naming hstage =>
      rw [hstage] at hprogress
      cases hprogress with
      | naming hnew => exact Progress.numbering hnew rfl
  | numbering conf hstage hconf =>
      rw [hstage] at hprogress
      cases hprogress with
      | numbering hnew hname =>
          refine Progress.building conf [] (pieces conf) hconf rfl ?_ hname rfl
          exact ⟨{ n with router := Router.new n.router.address }, _, rfl, rfl,
            rfl,
            { router := hnew
              next := rfl
              nodeName := rfl }⟩
  | building comps piece left _ hstage hrun =>
      rw [hstage] at hprogress
      cases hprogress with
      | building conf front _ hconf hpieces hbuilt hname hport =>
          have houtside := @build_outside env' (compToNode conf) piece n
          rw [hrun, finalState_ok] at houtside
          refine Progress.building conf (front ++ [piece]) left hconf ?_
            (hbuilt.step henv hrun) (houtside.nodeName.trans hname)
            (houtside.port.trans hport)
          rw [hpieces, List.append_assoc]
          rfl
  | listening comps hstage =>
      rw [hstage] at hprogress
      cases hprogress with
      | building conf front _ hconf hpieces hbuilt hname hport =>
          rw [List.append_nil] at hpieces
          subst front
          exact Progress.starting ((hbuilt.deployed hconf hname hport).stillThere
            ⟨SameRouter.refl n.router, rfl, rfl, rfl⟩)
  | starting hstage =>
      rw [hstage] at hprogress
      cases hprogress with
      | starting hdeployed =>
          exact Progress.stopping (hdeployed.stillThere
            (stillThere_restarted env' _ n))
  | stopping hstage =>
      rw [hstage] at hprogress
      cases hprogress with
      | stopping hdeployed =>
          exact Progress.finished (hdeployed.stillThere
            (stillThere_switchRouter _ _ n))
  | finished hstage => exact hprogress

theorem Deployed.mem (h : Deployed env config n)
    (hconf : configurationOfPacket config = some conf)
    (hdests : DestinationsBuilt conf config.thisNodeInfo.name) (c : String) :
    c ∈ n.router.components <->
      (homeOf conf c).name = config.thisNodeInfo.name ∧
        exists comp, comp ∈ conf.components ∧ comp.name = c := by
  rcases h.router with ⟨conf', before, after, hconf', hnew, hname, hrun, hsame⟩
  rcases Option.some.inj (hconf.symm.trans hconf') with rfl
  rw [← hname] at hdests ⊢
  have hconfigured := (deployLoops_configured (by rw [hnew]; rfl)
    (by rw [hnew]; rfl) hdests hrun).right
  rw [hsame.mem_iff]
  exact hconfigured.built.mem c

end Between

/-!
## Acts on the router of another request
-/

def Stage.unnamed (stage : Stage) : Bool :=
  match stage with
  | Stage.naming => true
  | _ => false

def Stage.unnumbered (stage : Stage) : Bool :=
  match stage with
  | Stage.naming => true
  | Stage.numbering => true
  | _ => false

/-- An act makes no difference to a router and a node that another handler has
come to a stage with: nothing is inserted, and name and port are what they were
or are still to be set by the other one. -/
def Neutral (config : Protocol.Deploy.Config) (other : Stage)
    (n : Protort.Node) (stage : Stage) : Prop :=
  match stage with
  | Stage.naming =>
      n.nodeName = config.thisNodeInfo.name ∨ other.unnamed = true
  | Stage.numbering =>
      n.port = config.thisNodeInfo.port ∨ other.unnumbered = true
  | Stage.building comps (Piece.component comp :: _) =>
      (Table.get comps comp.name).name ≠ n.nodeName
  | Stage.building _ (Piece.connection conn :: _) =>
      conn.source ∉ n.router.components
  | _ => True

instance (config : Protocol.Deploy.Config) (other : Stage) (n : Protort.Node)
    (stage : Stage) : Decidable (Neutral config other n stage) :=
  match stage with
  | Stage.naming => instDecidableOr
  | Stage.numbering => instDecidableOr
  | Stage.building _ (Piece.component _ :: _) => instDecidableNot
  | Stage.building _ (Piece.connection _ :: _) => instDecidableNot
  | Stage.building _ [] => instDecidableTrue
  | Stage.reading => instDecidableTrue
  | Stage.exchanging => instDecidableTrue
  | Stage.starting => instDecidableTrue
  | Stage.stopping => instDecidableTrue
  | Stage.finished => instDecidableTrue

/-- The router that a handler works on is the one it has made, or its act makes
no difference there. -/
def Harmless (configs : Bool -> Protocol.Deploy.Config) (s : Workers)
    (event : Bool × Platform) : Prop :=
  (s.place event.1).newRouter = some s.shared.router.address ∨
    Neutral (configs event.1) (s.place (!event.1)).stage s.shared
      (s.place event.1).stage

instance (configs : Bool -> Protocol.Deploy.Config) (s : Workers)
    (event : Bool × Platform) : Decidable (Harmless configs s event) :=
  instDecidableOr

def Router.Stopped (r : Router) : Prop :=
  r.started = false ∧
    forall c object, r.objectAt c = some object -> object.isGenerator = true ->
      object.started = false

/-- One of the two configurations is deployed, and the router that was made for
the other one is stopped. -/
def Unmixed (env : Platform) (configs : Bool -> Protocol.Deploy.Config)
    (s : Workers) : Prop :=
  exists i, Deployed env (configs i) s.shared ∧
    exists address r, (s.place (!i)).newRouter = some address ∧
      s.shared.findRouter address = some r ∧ r.Stopped

section Acts

variable {env env' : Platform} {config own : Protocol.Deploy.Config}
  {h h' : Handling} {n n' : Protort.Node} {address : Nat} {r : Router}

/-- Only the exchange changes which router a handler has made and which one is
the current one. -/
theorem Acted.routers (hacted : Acted env config h n h' n')
    (hstage : h.stage ≠ Stage.exchanging) :
    h'.newRouter = h.newRouter ∧ h'.oldRouter = h.oldRouter ∧
      n'.router.address = n.router.address := by
  cases hacted with
  | exchanging hexchanging => exact absurd hexchanging hstage
  | building comps piece left _ _ hrun =>
      have houtside := @build_outside env comps piece n
      rw [hrun] at houtside
      exact ⟨rfl, rfl, houtside.address⟩
  | starting _ => exact ⟨rfl, rfl, (stillThere_restarted env _ n).router.left⟩
  | stopping _ =>
      exact ⟨rfl, rfl, (stillThere_switchRouter _ _ n).router.left⟩
  | _ => exact ⟨rfl, rfl, rfl⟩

theorem Acted.findRouter (hacted : Acted env config h n h' n')
    (hstage : h.stage ≠ Stage.exchanging)
    (hcurrent : address ≠ n.router.address)
    (hstopping : h.stage = Stage.stopping -> address ≠ h.oldRouter)
    (hr : n.findRouter address = some r) : n'.findRouter address = some r := by
  cases hacted with
  | exchanging hexchanging => exact absurd hexchanging hstage
  | building comps piece left _ _ hrun =>
      have houtside := @build_outside env comps piece n
      rw [hrun] at houtside
      have haddress : n'.router.address = n.router.address := houtside.address
      have hretired : n'.retired = n.retired := houtside.retired
      rw [findRouter_of_ne (Ne.symm hcurrent)] at hr
      rw [findRouter_of_ne (by
        rw [haddress]
        exact Ne.symm hcurrent), hretired]
      exact hr
  | starting _ => exact findRouter_restarted env _ hcurrent hr
  | stopping hstop =>
      exact (switchRouter_spec _ _ n).others address r (hstopping hstop) hr
  | _ => exact hr

theorem Router.Stopped.switched
    (hr : n.findRouter address = some r) : exists r',
      (switchRouter Switch.stop address n).findRouter address = some r' ∧
        r'.Stopped := by
  rcases (switchRouter_spec Switch.stop address n).router r hr with
    ⟨r', hr', htable, hobjects⟩
  refine ⟨r', hr', htable.started, ?_⟩
  intro c object hobject hgen
  rw [hobjects] at hobject
  rcases Option.map_eq_some_iff.mp hobject with ⟨before, _, rfl⟩
  unfold Switch.switched at hgen ⊢
  by_cases hbefore : before.isGenerator = true
  · rw [if_pos hbefore]
    rfl
  · rw [if_neg hbefore] at hgen
    exact absurd hgen hbefore

theorem build_neutral {comps : Table String NodeInfo} {piece : Piece}
    {left : List Piece} {other : Stage}
    (hneutral : Neutral config other n
      (Stage.building comps (piece :: left)))
    (hrun : piece.build env comps n = EStateM.Result.ok PUnit.unit n') :
    n' = n := by
  cases piece with
  | component comp =>
      change deployComponent comps comp n = _ at hrun
      rw [deployComponent_elsewhere hneutral] at hrun
      cases hrun
      rfl
  | connection conn =>
      change deployConnection env comps conn n = _ at hrun
      rw [deployConnection_elsewhere hneutral] at hrun
      cases hrun
      rfl

/-- An act that makes no difference does not, as far as the other handler has
come. -/
theorem Acted.neutral {other : Stage} (hacted : Acted env' own h n h' n')
    (hstage : h.stage ≠ Stage.exchanging)
    (hneutral : Neutral own other n h.stage)
    (hprogress : Progress env config n other) :
    Progress env config n' other := by
  cases hacted with
  | reading _ => exact hprogress
  | exchanging hexchanging => exact absurd hexchanging hstage
  | naming hnaming =>
      rw [hnaming] at hneutral
      rcases hneutral with hsame | hunnamed
      · exact hprogress.stillThere ⟨SameRouter.refl _, rfl, hsame.symm, rfl⟩
      · cases hprogress with
        | naming hnew => exact Progress.naming hnew
        | _ => cases hunnamed
  | numbering conf hnumbering _ =>
      rw [hnumbering] at hneutral
      rcases hneutral with hsame | hunnumbered
      · exact hprogress.stillThere ⟨SameRouter.refl _, rfl, rfl, hsame.symm⟩
      · cases hprogress with
        | naming hnew => exact Progress.naming hnew
        | numbering hnew hname => exact Progress.numbering hnew hname
        | _ => cases hunnumbered
  | building comps piece left _ hbuilding hrun =>
      rw [hbuilding] at hneutral
      rw [build_neutral hneutral hrun]
      exact hprogress
  | listening comps _ =>
      exact hprogress.stillThere ⟨SameRouter.refl _, rfl, rfl, rfl⟩
  | starting _ => exact hprogress.stillThere (stillThere_restarted env' _ n)
  | stopping _ =>
      exact hprogress.stillThere (stillThere_switchRouter _ _ n)
  | finished _ => exact hprogress

end Acts

/-!
## Runs of two handlers
-/

structure HasLead (env : Platform) (config : Protocol.Deploy.Config)
    (h : Handling) (n : Protort.Node) : Prop where
  made : h.newRouter = some n.router.address
  after : n.router.address = h.oldRouter + 1
  progress : Progress env config n h.stage
  old : exists r, n.findRouter h.oldRouter = some r ∧
    (h.stage = Stage.finished -> r.Stopped)

structure HasNoRouter (h : Handling) : Prop where
  newRouter : h.newRouter = none
  stage : h.stage = Stage.reading ∨ h.stage = Stage.exchanging

structure Replaced (h other : Handling) : Prop where
  newRouter : h.newRouter = some other.oldRouter
  after : other.oldRouter = h.oldRouter + 1

/-- One of two handlers that were both at work leads, or none of them does. -/
def Led (env : Platform) (configs : Bool -> Protocol.Deploy.Config)
    (s : Workers) : Prop :=
  (forall i, HasNoRouter (s.place i)) ∨
    exists i, HasLead env (configs i) (s.place i) s.shared ∧
      (HasNoRouter (s.place (!i)) ∨ Replaced (s.place (!i)) (s.place i))

section Runs

variable {env env' : Platform} {configs : Bool -> Protocol.Deploy.Config}
  {config : Protocol.Deploy.Config} {h h' other : Handling}
  {n n' : Protort.Node}

theorem hasLead_of_exchanging (hstage : h.stage = Stage.exchanging)
    (hact : h.act env' config n = EStateM.Result.ok h' n') :
    HasLead env config h' n' ∧ h'.oldRouter = n.router.address := by
  unfold Handling.act at hact
  rw [hstage] at hact
  cases hact
  refine
    ⟨{ made := rfl
       after := rfl
       progress := Progress.naming (SameRouter.refl _)
       old := ⟨n.router, ?_, fun hfinished => by cases hfinished⟩ }, rfl⟩
  rw [findRouter_of_ne (Nat.succ_ne_self n.router.address)]
  exact List.find?_cons_of_pos (decide_eq_true rfl)

theorem hasNoRouter_of_reading (hwaits : HasNoRouter h)
    (hstage : h.stage = Stage.reading)
    (hact : h.act env' config n = EStateM.Result.ok h' n') :
    HasNoRouter h' ∧ n' = n := by
  unfold Handling.act at hact
  rw [hstage] at hact
  cases hact
  exact ⟨⟨hwaits.newRouter, Or.inr rfl⟩, rfl⟩

theorem HasLead.step (hleads : HasLead env config h n)
    (henv : env'.fromString = env.fromString)
    (hact : h.act env' config n = EStateM.Result.ok h' n') :
    HasLead env config h' n' ∧ h'.oldRouter = h.oldRouter := by
  have hacted := act_cases hact
  have hstage : h.stage ≠ Stage.exchanging := by
    intro hexchanging
    have hprogress := hleads.progress
    rw [hexchanging] at hprogress
    cases hprogress
  rcases hacted.routers hstage with ⟨hnew, hold, hcurrent⟩
  rcases hleads.old with ⟨r, hr, hstopped⟩
  refine
    ⟨{ made := ?_
       after := ?_
       progress := hleads.progress.step henv hacted
       old := ?_ }, hold⟩
  · rw [hnew, hcurrent]
    exact hleads.made
  · rw [hcurrent, hold]
    exact hleads.after
  · rw [hold]
    by_cases hstopping : h.stage = Stage.stopping
    · rcases act_stopping hstopping hact with ⟨_, rfl⟩
      rcases Router.Stopped.switched hr with ⟨r', hr', hstopped'⟩
      exact ⟨r', hr', fun _ => hstopped'⟩
    · have hne : h.oldRouter ≠ n.router.address := by
        rw [hleads.after]
        exact Nat.ne_of_lt (Nat.lt_succ_self h.oldRouter)
      refine ⟨r, hacted.findRouter hstage hne
        (fun hstop => absurd hstop hstopping) hr, ?_⟩
      intro hfinished
      exact hstopped ((hacted.of_finished hfinished).resolve_left hstopping)

/-- What the other handler does makes no difference to the one in the lead. -/
theorem HasLead.other_step {own : Protocol.Deploy.Config}
    (hleads : HasLead env config other n) (hreplaced : Replaced h other)
    (hstage : h.stage ≠ Stage.exchanging)
    (hneutral : Neutral own other.stage n h.stage)
    (hact : h.act env' own n = EStateM.Result.ok h' n') :
    HasLead env config other n' ∧ Replaced h' other := by
  have hacted := act_cases hact
  rcases hacted.routers hstage with ⟨hnew, hold, hcurrent⟩
  rcases hleads.old with ⟨r, hr, hstopped⟩
  have hne : other.oldRouter ≠ n.router.address := by
    rw [hleads.after]
    exact Nat.ne_of_lt (Nat.lt_succ_self other.oldRouter)
  have holder : other.oldRouter ≠ h.oldRouter := by
    rw [hreplaced.after]
    exact Nat.succ_ne_self h.oldRouter
  constructor
  · exact
      { made := by
          rw [hcurrent]
          exact hleads.made
        after := hcurrent.trans hleads.after
        progress := hacted.neutral hstage hneutral hleads.progress
        old := ⟨r, hacted.findRouter hstage hne (fun _ => holder) hr,
          hstopped⟩ }
  · exact
      { newRouter := hnew.trans hreplaced.newRouter
        after := by
          rw [hold]
          exact hreplaced.after }

theorem HasLead.exchanged {own : Protocol.Deploy.Config}
    (hleads : HasLead env config other n) (hstage : h.stage = Stage.exchanging)
    (hact : h.act env' own n = EStateM.Result.ok h' n') :
    HasLead env own h' n' ∧ Replaced other h' := by
  rcases hasLead_of_exchanging hstage hact with ⟨hleads', hold⟩
  refine ⟨hleads',
    { newRouter := ?_
      after := ?_ }⟩
  · rw [hold]
    exact hleads.made
  · rw [hold]
    exact hleads.after

variable {s t : Workers} {i j : Bool}

theorem led_of_waiting (hall : forall i, HasNoRouter (s.place i))
    (hact : (s.place j).act env' (configs j) s.shared =
      EStateM.Result.ok (t.place j) t.shared)
    (hplace : t.place (!j) = s.place (!j)) : Led env configs t := by
  have hother : HasNoRouter (t.place (!j)) := by
    rw [hplace]
    exact hall (!j)
  rcases (hall j).stage with hreading | hexchanging
  · have hwaits := (hasNoRouter_of_reading (hall j) hreading hact).left
    refine Or.inl fun i => ?_
    rcases Bool.eq_or_eq_not i j with rfl | rfl
    · exact hwaits
    · exact hother
  · exact Or.inr ⟨j, (hasLead_of_exchanging hexchanging hact).left,
      Or.inl hother⟩

theorem led_step (hled : Led env configs s)
    (henv : env'.fromString = env.fromString)
    (hharmless : Harmless configs s (j, env'))
    (hstep : Workers.step configs s (j, env') = some t) :
    Led env configs t := by
  rcases step_acts hstep with ⟨hact, hplace⟩
  rcases hled with hall | ⟨i, hleads, hother⟩
  · exact led_of_waiting hall hact hplace
  · rcases Bool.eq_or_eq_not j i with rfl | rfl
    · -- its own act
      rcases hleads.step henv hact with ⟨hleads', hold⟩
      refine Or.inr ⟨j, hleads', ?_⟩
      rw [hplace]
      rcases hother with hwaits | hreplaced
      · exact Or.inl hwaits
      · exact Or.inr
          { newRouter := by
              rw [hold]
              exact hreplaced.newRouter
            after := by
              rw [hold]
              exact hreplaced.after }
    · -- an act of the other one
      rw [Bool.not_not] at hplace
      by_cases hexchanging : (s.place (!i)).stage = Stage.exchanging
      · rcases hleads.exchanged hexchanging hact with ⟨hleads', hreplaced⟩
        refine Or.inr ⟨!i, hleads', Or.inr ?_⟩
        rw [Bool.not_not, hplace]
        exact hreplaced
      · refine Or.inr ⟨i, ?_⟩
        rw [hplace]
        rcases hother with hwaits | hreplaced
        · have hreading := hwaits.stage.resolve_right hexchanging
          rcases hasNoRouter_of_reading hwaits hreading hact with ⟨hwaits', hn⟩
          rw [hn]
          exact ⟨hleads, Or.inl hwaits'⟩
        · have hneutral : Neutral (configs (!i)) (s.place i).stage s.shared
              (s.place (!i)).stage := by
            rcases hharmless with hmade | hneutral
            · have hcurrent := Option.some.inj
                (hmade.symm.trans hreplaced.newRouter)
              exact absurd (hcurrent.symm.trans hleads.after)
                (Ne.symm (Nat.succ_ne_self _))
            · rw [Bool.not_not] at hneutral
              exact hneutral
          rcases hleads.other_step hreplaced hexchanging hneutral hact with
            ⟨hleads', hreplaced'⟩
          exact ⟨hleads', Or.inr hreplaced'⟩

theorem led_run {events : List (Bool × Platform)}
    (henv : forall event, event ∈ events ->
      event.2.fromString = env.fromString)
    (hrun : Run (Guarded (Harmless configs) (Steps (Workers.step configs)))
      s events t) (hled : Led env configs s) : Led env configs t := by
  induction hrun with
  | nil s => exact hled
  | @cons s u t event events hstep _ ih =>
      rcases hstep with ⟨hharmless, hstep⟩
      exact ih (fun e he => henv e (List.mem_cons_of_mem event he))
        (led_step hled (henv event List.mem_cons_self) hharmless hstep)

/-- When both handlers have finished, one has led to the end. -/
theorem unmixed_of_led (hled : Led env configs s)
    (hfinished : forall i, (s.place i).stage = Stage.finished) :
    Unmixed env configs s := by
  have hwaiting : forall i, ¬ HasNoRouter (s.place i) := by
    intro i hwaits
    have hstage := hwaits.stage
    rw [hfinished i] at hstage
    rcases hstage with h | h
    · cases h
    · cases h
  rcases hled with hall | ⟨i, hleads, hother⟩
  · exact absurd (hall true) (hwaiting true)
  · have hreplaced := hother.resolve_left (hwaiting (!i))
    have hprogress := hleads.progress
    rw [hfinished i] at hprogress
    cases hprogress with
    | finished hdeployed =>
        rcases hleads.old with ⟨r, hr, hstopped⟩
        exact ⟨i, hdeployed, (s.place i).oldRouter, r, hreplaced.newRouter, hr,
          hstopped (hfinished i)⟩

/-- Two deployments do not mix when every act is on a router of its handler's
own or makes no difference to the other one's. -/
theorem concurrent_deployments_unmixed {events : List (Bool × Platform)}
    (henv : forall event, event ∈ events ->
      event.2.fromString = env.fromString)
    (hrun : Run (Guarded (Harmless configs) (Steps (Workers.step configs)))
      (Workers.new n) events s)
    (hfinished : forall i, (s.place i).stage = Stage.finished) :
    Unmixed env configs s := by
  have hnew : Led env configs (Workers.new n) :=
    Or.inl (fun i => ⟨rfl, Or.inl rfl⟩)
  exact unmixed_of_led (led_run henv hrun hnew) hfinished

end Runs

/-!
## Two deployments of one component each
-/

def oneComponent (name : String) : Protocol.Deploy.Config :=
  { thisNodeInfo := ⟨"n1", "127.0.0.1", 200⟩
    nodeInfos := [⟨"n1", "127.0.0.1", 200⟩]
    instances := [⟨name, Protocol.ComponentKind.retranslator⟩]
    maps := [⟨"n1", name⟩]
    connections := [] }

def twoRequests (i : Bool) : Protocol.Deploy.Config :=
  if i then oneComponent "b" else oneComponent "a"

def acts (handlers : List Bool) : List (Bool × Platform) :=
  handlers.map (fun i => (i, Platform.loopback))

def outcome (s : Workers) : Option (Bool × Bool) :=
  match (s.place false).stage, (s.place true).stage with
  | Stage.finished, Stage.finished =>
      some (decide ("a" ∈ s.shared.router.components),
        decide ("b" ∈ s.shared.router.components))
  | _, _ => none

theorem finished_of_outcome {s : Workers} {present : Bool × Bool}
    (h : outcome s = some present) (i : Bool) :
    (s.place i).stage = Stage.finished := by
  unfold outcome at h
  cases hfalse : (s.place false).stage with
  | finished =>
      cases htrue : (s.place true).stage with
      | finished =>
          cases i with
          | false => exact hfalse
          | true => exact htrue
      | _ =>
          rw [hfalse, htrue] at h
          cases h
  | _ =>
      rw [hfalse] at h
      cases h

/-- The first handler has built its router when the second one comes in, and
stops the old one afterwards. -/
def overlapping : List (Bool × Platform) :=
  acts [false, false, false, false, false, false, true, true, false, false,
    true, true, true, true, true, true]

theorem concurrent_deployments_unmixed_overlapping :
    exists s, Run (Guarded (Harmless twoRequests)
        (Steps (Workers.step twoRequests)))
        (Workers.new (Node.new 100 0)) overlapping s ∧
      Unmixed Platform.loopback twoRequests s := by
  have hend : (execute (fun s event =>
      if Harmless twoRequests s event then Workers.step twoRequests s event
      else none) (Workers.new (Node.new 100 0)) overlapping).bind outcome =
        some (false, true) := by
    decide +kernel
  rcases Option.bind_eq_some_iff.mp hend with ⟨s, hexecute, houtcome⟩
  have hrun := Run.guarded_of_execute hexecute
  refine ⟨s, hrun, concurrent_deployments_unmixed ?_ hrun
    (finished_of_outcome houtcome)⟩
  intro event hevent
  rcases List.mem_map.mp hevent with ⟨i, _, rfl⟩
  rfl

/-- The second handler exchanges the router right after the first one has, and
is done before that one goes on. -/
def mixing : List (Bool × Platform) :=
  acts [false, false, true, true, true, true, true, true, true, true,
    false, false, false, false, false, false]

def oneComponentRead (name : String) : Parser.Configuration :=
  { components := [⟨name, "retranslator"⟩]
    connections := []
    nodes := [⟨"n1", ⟨"127.0.0.1", 200, 0⟩, none⟩]
    mappings := [⟨name, "n1"⟩] }

theorem eq_of_deployed {name c : String} {env : Platform} {n : Protort.Node}
    (h : Deployed env (oneComponent name) n)
    (hc : c ∈ n.router.components) : c = name := by
  have hconf : configurationOfPacket (oneComponent name) =
      some (oneComponentRead name) := rfl
  have hdests : DestinationsBuilt (oneComponentRead name)
      (oneComponent name).thisNodeInfo.name :=
    fun _ hconn => absurd hconn List.not_mem_nil
  rcases (h.mem hconf hdests c).mp hc with ⟨_, comp, hcomp, rfl⟩
  rw [List.mem_singleton.mp hcomp]

/-- The current router ends up with the components of both configurations. -/
theorem concurrent_deployments_mix :
    exists s, execute (Workers.step twoRequests)
        (Workers.new (Node.new 100 0)) mixing = some s ∧
      (forall i, (s.place i).stage = Stage.finished) ∧
      "a" ∈ s.shared.router.components ∧ "b" ∈ s.shared.router.components ∧
      ¬ Unmixed Platform.loopback twoRequests s := by
  have hend : (execute (Workers.step twoRequests)
      (Workers.new (Node.new 100 0)) mixing).bind outcome =
        some (true, true) := by
    decide +kernel
  rcases Option.bind_eq_some_iff.mp hend with ⟨s, hexecute, houtcome⟩
  have hfinished := finished_of_outcome houtcome
  unfold outcome at houtcome
  rw [hfinished false, hfinished true] at houtcome
  have hpresent := Option.some.inj houtcome
  rw [Prod.mk.injEq, decide_eq_true_iff, decide_eq_true_iff] at hpresent
  refine ⟨s, hexecute, hfinished, hpresent.left, hpresent.right, ?_⟩
  intro hunmixed
  rcases hunmixed with ⟨i, hdeployed, _⟩
  cases i with
  | false =>
      exact absurd (eq_of_deployed hdeployed hpresent.right) (by decide)
  | true => exact absurd (eq_of_deployed hdeployed hpresent.left) (by decide)

end Node
end Protort
