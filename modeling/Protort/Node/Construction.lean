import Protort.Node.Redeployment
import Protort.Node.Switching

/-!
# Deployments of any configuration

A configuration need not be a sensible one: a connection may lead to a component
that no instance stands for, and its entry is made without an object then.  What
every deployment builds, whatever it is given: objects that know their entry and
are stopped, and routes that lead to entries.
-/

namespace Protort
namespace Node

open Lib (Table)
open Lib.Exceptions
open Components (Component)

/-!
## Routers as a deployment makes them
-/

structure Unstarted (r : Router) : Prop where
  started : r.started = false
  objects : forall c object, r.objectAt c = some object ->
    object.router = r.address ∧ object.compInst = some c ∧
      object.started = false
  routes : forall c p route, route ∈ (r.routesAt c p).localRoutes ->
    route.component ∈ r.components

structure Router.Holds (P : String -> String -> Component -> Prop)
    (r : Router) : Prop where
  objects : forall c object, r.objectAt c = some object ->
    P c (Table.get r.components c).name object
  routes : forall c p route, route ∈ (r.routesAt c p).localRoutes ->
    route.component ∈ r.components

theorem unstarted_iff {r : Router} :
    Unstarted r <-> r.started = false ∧
      r.Holds (fun c _ object => object.router = r.address ∧
        object.compInst = some c ∧ object.started = false) := by
  constructor
  · intro h
    exact ⟨h.started, h.objects, h.routes⟩
  · intro h
    exact ⟨h.left, h.right.objects, h.right.routes⟩

theorem Unstarted.new (address : Nat) : Unstarted (Router.new address) :=
  { started := rfl
    objects := fun _ _ h => absurd h nofun
    routes := fun _ _ _ h => absurd h List.not_mem_nil }

section Holds

variable {P : String -> String -> Component -> Prop} {r : Router}

theorem Router.Holds.congr {r' : Router} (h : r.Holds P)
    (hcomponents : r'.components = r.components) : r'.Holds P := by
  refine
    { objects := ?_
      routes := ?_ }
  · intro c object hobject
    unfold Router.objectAt at hobject
    rw [hcomponents] at hobject ⊢
    exact h.objects c object hobject
  · intro c p route hroute
    unfold Router.routesAt at hroute
    rw [hcomponents] at hroute ⊢
    exact h.routes c p route hroute

theorem Router.Holds.insert (h : r.Holds P) {name : String}
    {object : Component} (hobject : P name name object) :
    Router.Holds P { r with
      components := r.components.insert name
        { component := some object
          name := name
          portToRoutes := ∅
          emitted := [] } } := by
  refine
    { objects := ?_
      routes := ?_ }
  · intro c other hother
    unfold Router.objectAt at hother
    rw [Table.get_insert] at hother ⊢
    by_cases hc : c = name
    · rw [if_pos hc] at hother ⊢
      rcases Option.some.inj hother with rfl
      rw [hc]
      exact hobject
    · rw [if_neg hc] at hother ⊢
      exact h.objects c other hother
  · intro c p route hroute
    unfold Router.routesAt at hroute
    rw [Table.get_insert] at hroute
    show route.component ∈ Finmap.insert name _ r.components
    rw [Finmap.mem_insert]
    by_cases hc : c = name
    · rw [if_pos hc] at hroute
      exact absurd hroute List.not_mem_nil
    · rw [if_neg hc] at hroute
      exact Or.inr (h.routes c p route hroute)

theorem Router.Holds.touch (h : r.Holds P) (name : String) :
    Router.Holds P
      { r with components := Table.touch r.components name } := by
  refine
    { objects := ?_
      routes := ?_ }
  · intro c object hobject
    unfold Router.objectAt at hobject
    rw [Table.get_touch] at hobject ⊢
    exact h.objects c object hobject
  · intro c p route hroute
    unfold Router.routesAt at hroute
    rw [Table.get_touch] at hroute
    exact Table.mem_touch.mpr (Or.inr (h.routes c p route hroute))

theorem Router.Holds.updateRoutes (h : r.Holds P)
    {source : String} (hsource : source ∈ r.components) (port : Parser.PortId)
    (f : Routes -> Routes)
    (hf : forall routes route, route ∈ (f routes).localRoutes ->
      route ∈ routes.localRoutes ∨ route.component ∈ r.components) :
    (r.updateRoutes source port f).Holds P := by
  refine
    { objects := ?_
      routes := ?_ }
  · intro c object hobject
    unfold Router.objectAt at hobject
    rw [Router.component_updateRoutes] at hobject
    rw [Router.name_updateRoutes]
    exact h.objects c object hobject
  · intro c p route hroute
    rw [Router.mem_updateRoutes port f hsource]
    rw [Router.routesAt_updateRoutes] at hroute
    by_cases hc : c = source ∧ p = port
    · rw [if_pos hc] at hroute
      rcases hf _ route hroute with hold | hnew
      · exact h.routes source port route hold
      · exact hnew
    · rw [if_neg hc] at hroute
      exact h.routes c p route hroute

end Holds

/-!
## The loops
-/

section Loops

variable {env : Platform} {comps : Table String NodeInfo}
  {comp : Parser.Component} {conn : Parser.Connection} {n n' : Protort.Node}

theorem deployComponent_here_bad
    (h : (Table.get comps comp.name).name = n.nodeName)
    (hkind : Components.getComponentKind comp.kind = none) :
    deployComponent comps comp n =
      EStateM.Result.error Fault.assertion n := by
  unfold deployComponent createComponent
  rw [run_get_bind, run_ite, if_pos h, hkind]
  rfl

theorem deployConnection_here (hsource : conn.source ∈ n.router.components)
    (hhere : (Table.get comps conn.dest).name = n.nodeName) :
    deployConnection env comps conn n = EStateM.Result.ok PUnit.unit
      { n with
        router := { n.router with
          components := Table.touch n.router.components conn.dest
            }.pushLocalRoute conn.source conn.sourceOut
              ⟨conn.destIn, conn.dest⟩ } := by
  unfold deployConnection modifyRouter
  rw [run_get_bind, run_ite, if_pos hsource]
  simp only [run_ite, if_pos hhere, run_modify_bind, run_modify]

theorem deployConnection_bad (hsource : conn.source ∈ n.router.components)
    (haway : (Table.get comps conn.dest).name ≠ n.nodeName)
    (hclient : n.router.clients.lookup (Table.get comps conn.dest).name = none)
    (haddr : env.fromString (Table.get comps conn.dest).address = none) :
    deployConnection env comps conn n =
      EStateM.Result.error (Fault.exception Exception.invalidAddress) n := by
  unfold deployConnection
  rw [run_get_bind, run_ite, if_pos hsource]
  simp only [run_ite, if_neg haway]
  exact bind_error (clientFor_bad hclient haddr)

/-- What the body of the loop over the components does when it returns. -/
inductive ComponentDeployed (comps : Table String NodeInfo)
    (comp : Parser.Component) (n : Protort.Node) : Protort.Node -> Prop where
  | here (kind : Protocol.ComponentKind) :
      (Table.get comps comp.name).name = n.nodeName ->
      Components.getComponentKind comp.kind = some kind ->
      ComponentDeployed comps comp n
        { n with
          next := n.next + 1
          router := { n.router with
            components := n.router.components.insert comp.name
              { component := some
                  (newComponent n.next n.router.address kind comp.name)
                name := comp.name
                portToRoutes := ∅
                emitted := [] } } }
  | elsewhere :
      (Table.get comps comp.name).name ≠ n.nodeName ->
      ComponentDeployed comps comp n n

theorem deployComponent_cases (hrun : deployComponent comps comp n =
    EStateM.Result.ok PUnit.unit n') : ComponentDeployed comps comp n n' := by
  by_cases hhere : (Table.get comps comp.name).name = n.nodeName
  · cases hkind : Components.getComponentKind comp.kind with
    | none =>
        rw [deployComponent_here_bad hhere hkind] at hrun
        cases hrun
    | some kind =>
        rw [deployComponent_here hhere hkind] at hrun
        cases hrun
        exact ComponentDeployed.here kind hhere hkind
  · rw [deployComponent_elsewhere hhere] at hrun
    cases hrun
    exact ComponentDeployed.elsewhere hhere

/-- What the body of the loop over the connections does when it returns: a
local route, a remote route through a client that is there, one through a new
client, or nothing. -/
inductive ConnectionDeployed (env : Platform) (comps : Table String NodeInfo)
    (conn : Parser.Connection) (n : Protort.Node) : Protort.Node -> Prop where
  | here :
      conn.source ∈ n.router.components ->
      (Table.get comps conn.dest).name = n.nodeName ->
      ConnectionDeployed env comps conn n
        { n with
          router := { n.router with
            components := Table.touch n.router.components conn.dest
              }.pushLocalRoute conn.source conn.sourceOut
                ⟨conn.destIn, conn.dest⟩ }
  | known (client : Client) :
      conn.source ∈ n.router.components ->
      (Table.get comps conn.dest).name ≠ n.nodeName ->
      n.router.clients.lookup (Table.get comps conn.dest).name =
        some client ->
      ConnectionDeployed env comps conn n
        { n with
          router := n.router.pushRemoteRoute conn.source conn.sourceOut
            ⟨conn.destIn, conn.dest, client⟩ }
  | fresh (client : Client) :
      conn.source ∈ n.router.components ->
      (Table.get comps conn.dest).name ≠ n.nodeName ->
      client.address = n.next ->
      ConnectionDeployed env comps conn n
        { n with
          next := n.next + 1
          router := { n.router with
            clients := n.router.clients.insert
              (Table.get comps conn.dest).name client
              }.pushRemoteRoute conn.source conn.sourceOut
                ⟨conn.destIn, conn.dest, client⟩ }
  | elsewhere :
      conn.source ∉ n.router.components ->
      ConnectionDeployed env comps conn n n

theorem deployConnection_cases (hrun : deployConnection env comps conn n =
    EStateM.Result.ok PUnit.unit n') :
    ConnectionDeployed env comps conn n n' := by
  by_cases hsource : conn.source ∈ n.router.components
  · by_cases hhere : (Table.get comps conn.dest).name = n.nodeName
    · rw [deployConnection_here hsource hhere] at hrun
      cases hrun
      exact ConnectionDeployed.here hsource hhere
    · cases hclient : n.router.clients.lookup
          (Table.get comps conn.dest).name with
      | some client =>
          rw [deployConnection_remote hsource hhere
            (clientFor_found hclient)] at hrun
          cases hrun
          exact ConnectionDeployed.known client hsource hhere hclient
      | none =>
          cases haddr : env.fromString (Table.get comps conn.dest).address with
          | none =>
              rw [deployConnection_bad hsource hhere hclient haddr] at hrun
              cases hrun
          | some addr =>
              rw [deployConnection_remote hsource hhere
                (clientFor_new hclient haddr)] at hrun
              cases hrun
              exact ConnectionDeployed.fresh _ hsource hhere rfl
  · rw [deployConnection_elsewhere hsource] at hrun
    cases hrun
    exact ConnectionDeployed.elsewhere hsource

theorem deployConnection_holds {P : String -> String -> Component -> Prop}
    (h : n.router.Holds P)
    (hrun : deployConnection env comps conn n =
      EStateM.Result.ok PUnit.unit n') : n'.router.Holds P := by
  cases deployConnection_cases hrun with
  | here hsource _ =>
      refine (h.touch conn.dest).updateRoutes
        (Table.mem_touch.mpr (Or.inr hsource)) conn.sourceOut _ ?_
      intro routes route hroute
      rcases List.mem_append.mp hroute with hold | hnew
      · exact Or.inl hold
      · rcases List.mem_singleton.mp hnew with rfl
        exact Or.inr (Table.mem_touch.mpr (Or.inl rfl))
  | known client hsource _ _ =>
      exact h.updateRoutes hsource conn.sourceOut _
        (fun _ _ hroute => Or.inl hroute)
  | fresh client hsource _ _ =>
      have hclients : Router.Holds P { n.router with
          clients := n.router.clients.insert (Table.get comps conn.dest).name
            client } := h.congr rfl
      exact hclients.updateRoutes hsource conn.sourceOut _
        (fun _ _ hroute => Or.inl hroute)
  | elsewhere _ => exact h

theorem deployComponent_unstarted (h : Unstarted n.router)
    (hrun : deployComponent comps comp n =
      EStateM.Result.ok PUnit.unit n') : Unstarted n'.router := by
  cases deployComponent_cases hrun with
  | here kind _ _ =>
      rcases unstarted_iff.mp h with ⟨hstarted, hholds⟩
      exact unstarted_iff.mpr ⟨hstarted, hholds.insert ⟨rfl, rfl, rfl⟩⟩
  | elsewhere _ => exact h

theorem deployConnection_unstarted (h : Unstarted n.router)
    (hrun : deployConnection env comps conn n =
      EStateM.Result.ok PUnit.unit n') : Unstarted n'.router := by
  have houtside := deployConnection_outside env comps conn n
  rw [hrun, finalState_ok] at houtside
  rcases unstarted_iff.mp h with ⟨hstarted, hholds⟩
  rw [← houtside.started] at hstarted
  rw [← houtside.address] at hholds
  exact unstarted_iff.mpr ⟨hstarted, deployConnection_holds hholds hrun⟩

theorem deployLoops_unstarted {conf : Parser.Configuration}
    (h : Unstarted n.router)
    (hrun : deployLoops env conf n = EStateM.Result.ok PUnit.unit n') :
    Unstarted n'.router := by
  rcases ok_of_bind hrun with ⟨_, n1, hcomponents, hconnections⟩
  have h1 : Unstarted n1.router :=
    forM_keeps (fun m => Unstarted m.router)
      (fun _ _ _ hinv hstep => deployComponent_unstarted hinv hstep)
      h hcomponents
  exact forM_keeps (fun m => Unstarted m.router)
    (fun _ _ _ hinv hstep => deployConnection_unstarted hinv hstep)
    h1 hconnections

end Loops

/-!
## Deployments that return
-/

section Packets

variable {env : Platform} {config : Protocol.Deploy.Config}
  {n n' : Protort.Node}

def named (config : Protocol.Deploy.Config) (n : Protort.Node) :
    Protort.Node :=
  { n with
    nodeName := config.thisNodeInfo.name
    port := config.thisNodeInfo.port }

theorem deployFromPacket_eq {conf : Parser.Configuration}
    (hconf : configurationOfPacket config = some conf) (env : Platform)
    (n : Protort.Node) :
    deployFromPacket env config n =
      deployFromConfig env conf (named config n) := by
  unfold deployFromPacket
  rw [run_modify_bind, hconf]
  rfl

theorem deployFromPacket_bad (hconf : configurationOfPacket config = none)
    (env : Platform) (n : Protort.Node) :
    deployFromPacket env config n =
      EStateM.Result.error Fault.assertion (named config n) := by
  unfold deployFromPacket
  rw [run_modify_bind, hconf]
  rfl

theorem listen_ok {port : UInt32} (h : env.bind port.toUInt16 = true)
    (n : Protort.Node) :
    listen env port n = EStateM.Result.ok PUnit.unit
      { n with
        server := { isOpen := true, listening := some port.toUInt16 } } := by
  unfold listen
  rw [run_modify_bind, run_ite, if_pos h]
  rfl

theorem listen_bad {port : UInt32} (h : ¬ env.bind port.toUInt16 = true)
    (n : Protort.Node) :
    listen env port n =
      EStateM.Result.error (Fault.exception Exception.cannotBind)
        { n with server := { isOpen := true, listening := none } } := by
  unfold listen
  rw [run_modify_bind, run_ite, if_neg h]
  rfl

theorem deployFromConfig_ok_iff {conf : Parser.Configuration} :
    deployFromConfig env conf n = EStateM.Result.ok PUnit.unit n' <->
      exists m, deployLoops env conf n = EStateM.Result.ok PUnit.unit m ∧
        env.bind n.port.toUInt16 = true ∧
        n' = { m with
          server :=
            { isOpen := true
              listening := some n.port.toUInt16 } } := by
  rw [deployFromConfig_eq]
  cases hloops : deployLoops env conf n with
  | error e m =>
      rw [bind_error hloops]
      constructor
      · intro h
        cases h
      · intro h
        rcases h with ⟨m', hrun, _⟩
        cases hrun
  | ok x m =>
      have houtside := deployLoops_outside env conf n
      rw [hloops] at houtside
      have hport : m.port = n.port := houtside.port
      rw [bind_ok hloops, run_get_bind, hport]
      by_cases hbind : env.bind n.port.toUInt16 = true
      · rw [listen_ok hbind]
        constructor
        · intro h
          cases h
          exact ⟨m, rfl, hbind, rfl⟩
        · intro h
          rcases h with ⟨m', hrun, _, rfl⟩
          cases hrun
          rfl
      · rw [listen_bad hbind]
        constructor
        · intro h
          cases h
        · intro h
          rcases h with ⟨_, _, h, _⟩
          exact absurd h hbind

theorem deployFromPacket_ok_iff :
    deployFromPacket env config n = EStateM.Result.ok PUnit.unit n' <->
      exists conf m, configurationOfPacket config = some conf ∧
        deployLoops env conf (named config n) =
          EStateM.Result.ok PUnit.unit m ∧
        env.bind config.thisNodeInfo.port.toUInt16 = true ∧
        n' = { m with
          server :=
            { isOpen := true
              listening := some config.thisNodeInfo.port.toUInt16 } } := by
  cases hconf : configurationOfPacket config with
  | none =>
      rw [deployFromPacket_bad hconf]
      constructor
      · intro h
        cases h
      · intro h
        rcases h with ⟨conf, m, h, _⟩
        cases h
  | some conf =>
      rw [deployFromPacket_eq hconf, deployFromConfig_ok_iff]
      constructor
      · intro h
        rcases h with ⟨m, hloops, hbind, rfl⟩
        exact ⟨conf, m, rfl, hloops, hbind, rfl⟩
      · intro h
        rcases h with ⟨conf', m, hsome, hloops, hbind, rfl⟩
        rcases Option.some.inj hsome with rfl
        exact ⟨m, hloops, hbind, rfl⟩

/-- What a deployment into a new router leaves as it was, and what it has
built. -/
structure Rebuilt (n n' : Protort.Node) : Prop where
  address : n'.router.address = n.router.address
  retired : n'.retired = n.retired
  service : n'.service = n.service
  outbox : n'.outbox = n.outbox
  router : Unstarted n'.router

theorem deployFromPacket_rebuilt (hnew : Unstarted n.router)
    (h : deployFromPacket env config n =
      EStateM.Result.ok PUnit.unit n') : Rebuilt n n' := by
  rcases deployFromPacket_ok_iff.mp h with ⟨conf, m, _, hloops, _, rfl⟩
  have houtside := deployLoops_outside env conf (named config n)
  rw [hloops] at houtside
  have hbuilt : Unstarted m.router :=
    deployLoops_unstarted (n := named config n) hnew hloops
  exact
    { address := houtside.address
      retired := houtside.retired
      service := houtside.service
      outbox := houtside.outbox
      router := hbuilt }

end Packets

end Node
end Protort
