import Protort.Node.Deployment

/-!
# Requests and what they change

Which parts of a node a request may change.  Starting and stopping a router
changes flags, timers and queued work only.  A deployment exchanges the router
before anything else, and an exception leaves it at that.
-/

namespace Protort
namespace Node

open Lib (Table)
open Lib.Exceptions
open Components (Component)

/-!
## The deployment of a node

What is deployed on a node, without the flags, the counters and the queues that
running it changes.
-/

structure ObjectView where
  address : Nat
  router : Nat
  kind : Protocol.ComponentKind
  compInst : Option String
deriving DecidableEq

structure EntryView where
  object : Option ObjectView
  name : String
  portToRoutes : Table Parser.PortId Routes

structure Deployment where
  router : Nat
  entries : String -> Option EntryView
  clients : Table String Client
  nodeName : String
  port : UInt32
  server : Server

def viewObject (c : Component) : ObjectView :=
  { address := c.address
    router := c.router
    kind := c.kind
    compInst := c.compInst }

def viewEntry (inst : ComponentInstance) : EntryView :=
  { object := inst.component.map viewObject
    name := inst.name
    portToRoutes := inst.portToRoutes }

def Router.entries (r : Router) (c : String) : Option EntryView :=
  (r.components.lookup c).map viewEntry

/-- The current router, with its components, routes and clients, the name and
the port of a node and the endpoint it listens on. -/
def deployment (n : Protort.Node) : Deployment :=
  { router := n.router.address
    entries := n.router.entries
    clients := n.router.clients
    nodeName := n.nodeName
    port := n.port
    server := n.server }

def SameDeployment (n n' : Protort.Node) : Prop :=
  n'.deployment = n.deployment

theorem SameDeployment.refl (n : Protort.Node) : SameDeployment n n := rfl

theorem SameDeployment.trans (n n' n'' : Protort.Node)
    (h : SameDeployment n n') (h' : SameDeployment n' n'') :
    SameDeployment n n'' :=
  Eq.trans h' h

/-!
## Updates behind pointers
-/

def SameRouter (r r' : Router) : Prop :=
  r'.address = r.address ∧ r'.entries = r.entries ∧ r'.clients = r.clients

theorem updateRouter_sameDeployment {n : Protort.Node} {r r' : Router}
    {address : Nat} (hfind : n.findRouter address = some r)
    (h : SameRouter r r') : SameDeployment n (n.updateRouter r') := by
  rcases h with ⟨haddress, hentries, hclients⟩
  unfold SameDeployment updateRouter
  by_cases hcurrent : n.router.address = r'.address
  · rw [if_pos hcurrent]
    have hr : r = n.router := by
      unfold findRouter at hfind
      by_cases hfound : n.router.address = address
      · rw [if_pos hfound] at hfind
        exact (Option.some.inj hfind).symm
      · rw [if_neg hfound] at hfind
        have hmatch := List.find?_some hfind
        have hraddress : r.address = address := of_decide_eq_true hmatch
        exact absurd (hcurrent.trans (haddress.trans hraddress)) hfound
    subst r
    unfold deployment
    rw [haddress, hentries, hclients]
  · rw [if_neg hcurrent]
    rfl

theorem sameRouter_setComponent {r : Router} {name : String}
    {inst : ComponentInstance} {c c' : Component}
    (hinst : r.components.lookup name = some inst)
    (hc : inst.component = some c) (hview : viewObject c' = viewObject c) :
    SameRouter r (Router.setComponent r name c') := by
  refine ⟨rfl, ?_, rfl⟩
  funext other
  unfold Router.entries Router.setComponent
  rw [Table.lookup_insert_eq_ite]
  by_cases hother : other = name
  · subst other
    rw [if_pos rfl, hinst, Table.get_of_lookup hinst]
    show some (viewEntry _) = some (viewEntry inst)
    unfold viewEntry
    rw [hc]
    show some ({ object := some (viewObject c'), .. } : EntryView) = _
    rw [hview]
    rfl
  · rw [if_neg hother]

theorem updateComponent_sameDeployment {n : Protort.Node}
    {ref : ComponentRef} {c c' : Component}
    (hfind : n.findComponent ref = some c)
    (hview : viewObject c' = viewObject c) :
    SameDeployment n (n.updateComponent ref c') := by
  unfold findComponent at hfind
  rcases Option.bind_eq_some_iff.mp hfind with ⟨r, hr, hentry⟩
  rcases Option.bind_eq_some_iff.mp hentry with ⟨inst, hinst, hc⟩
  unfold updateComponent
  rw [hr]
  exact updateRouter_sameDeployment hr (sameRouter_setComponent hinst hc hview)

theorem perform_sameDeployment (n : Protort.Node) (effect : Effect) :
    SameDeployment n (n.perform effect) := by
  cases effect with
  | post task => rfl
  | cancelWaits ref => rfl
  | send client origin payload => rfl

theorem performAll_sameDeployment (n : Protort.Node) (effects : List Effect) :
    SameDeployment n (n.performAll effects) := by
  induction effects generalizing n with
  | nil => rfl
  | cons effect rest ih =>
      exact SameDeployment.trans n (n.perform effect) _
        (perform_sameDeployment n effect) (ih (n.perform effect))

theorem setStarted_sameDeployment (address : Nat) (started : Bool)
    (n : Protort.Node) : SameDeployment n (setStarted address started n) := by
  unfold setStarted
  cases hfind : n.findRouter address with
  | none => exact SameDeployment.refl n
  | some r => exact updateRouter_sameDeployment hfind ⟨rfl, rfl, rfl⟩

/-!
## Starting and stopping
-/

theorem startComponent_sameDeployment (env : Platform) (ref : ComponentRef) :
    Within SameDeployment (startComponent env ref) := by
  intro n
  unfold startComponent dereference
  cases hfind : n.findComponent ref with
  | none =>
      simp only [run_get_bind, bind_assoc, hfind]
      rfl
  | some c =>
      simp only [run_get_bind, bind_assoc, hfind, pure_bind]
      by_cases hgen : c.isGenerator = true
      · simp only [hgen, if_true, run_modify, finalState_ok]
        have hstart : SameDeployment n
            (n.updateComponent ref { c with started := true }) :=
          updateComponent_sameDeployment hfind rfl
        exact SameDeployment.trans n _ _ hstart
          (performAll_sameDeployment _ _)
      · simp only [hgen]
        rfl

theorem stopComponent_sameDeployment (ref : ComponentRef) :
    Within SameDeployment (stopComponent ref) := by
  intro n
  unfold stopComponent dereference
  cases hfind : n.findComponent ref with
  | none =>
      simp only [run_get_bind, bind_assoc, hfind]
      rfl
  | some c =>
      simp only [run_get_bind, bind_assoc, hfind, pure_bind]
      have hstop : SameDeployment n
          (n.updateComponent ref { c with started := false }) :=
        updateComponent_sameDeployment hfind rfl
      by_cases hgen : c.isGenerator = true
      · simp only [hgen, if_true, run_modify_bind]
        by_cases htimed : c.kind = Protocol.ComponentKind.timedGenerator
        · rw [if_pos htimed]
          exact SameDeployment.trans n _ _ hstop
            (perform_sameDeployment
              (n.updateComponent ref { c with started := false })
              (Effect.cancelWaits ref))
        · rw [if_neg htimed]
          exact hstop
      · simp only [hgen]
        rfl

theorem startRouter_sameDeployment (env : Platform) (address : Nat) :
    Within SameDeployment (startRouter env address) := by
  intro n
  unfold startRouter
  rw [run_modify_bind, run_get_bind]
  have hloop := within_forM SameDeployment.refl SameDeployment.trans
    (fun ref (_ : ref ∈ componentRefs (setStarted address true n) address) =>
      startComponent_sameDeployment env ref)
  exact SameDeployment.trans n _ _
    (setStarted_sameDeployment address true n) (hloop _)

theorem stopRouter_sameDeployment (address : Nat) :
    Within SameDeployment (stopRouter address) := by
  intro n
  unfold stopRouter
  rw [run_modify_bind, run_get_bind]
  have hloop := within_forM SameDeployment.refl SameDeployment.trans
    (fun ref (_ : ref ∈ componentRefs (setStarted address false n) address) =>
      stopComponent_sameDeployment ref)
  exact SameDeployment.trans n _ _
    (setStarted_sameDeployment address false n) (hloop _)

/-- Starting a router can fail on an entry without a component only. -/
theorem startRouter_throws (env : Platform) (address : Nat) :
    Throws (fun e => e = Fault.nullComponent) (startRouter env address) := by
  have hcomponent : forall ref,
      Throws (fun e => e = Fault.nullComponent) (startComponent env ref) := by
    intro ref n e n' hrun
    unfold startComponent dereference at hrun
    cases hfind : n.findComponent ref with
    | none =>
        simp only [run_get_bind, bind_assoc, hfind] at hrun
        injection hrun with he _
        exact he.symm
    | some c =>
        simp only [run_get_bind, bind_assoc, hfind, pure_bind] at hrun
        by_cases hgen : c.isGenerator = true
        · simp only [hgen, if_true, run_modify] at hrun
          cases hrun
        · simp only [hgen] at hrun
          cases hrun
  intro n e n' hrun
  unfold startRouter at hrun
  rw [run_modify_bind, run_get_bind] at hrun
  exact throws_forM (fun ref _ => hcomponent ref) _ e n' hrun

theorem stopRouter_throws (address : Nat) :
    Throws (fun e => e = Fault.nullComponent) (stopRouter address) := by
  have hcomponent : forall ref,
      Throws (fun e => e = Fault.nullComponent) (stopComponent ref) := by
    intro ref n e n' hrun
    unfold stopComponent dereference at hrun
    cases hfind : n.findComponent ref with
    | none =>
        simp only [run_get_bind, bind_assoc, hfind] at hrun
        injection hrun with he _
        exact he.symm
    | some c =>
        simp only [run_get_bind, bind_assoc, hfind, pure_bind] at hrun
        by_cases hgen : c.isGenerator = true
        · simp only [hgen, if_true, run_modify_bind] at hrun
          by_cases htimed : c.kind = Protocol.ComponentKind.timedGenerator
          · rw [if_pos htimed] at hrun
            cases hrun
          · rw [if_neg htimed] at hrun
            cases hrun
        · simp only [hgen] at hrun
          cases hrun
  intro n e n' hrun
  unfold stopRouter at hrun
  rw [run_modify_bind, run_get_bind] at hrun
  exact throws_forM (fun ref _ => hcomponent ref) _ e n' hrun

theorem componentStatus_sameDeployment (n : Protort.Node)
    (ref : ComponentRef) : Within SameDeployment (componentStatus n ref) := by
  intro s
  unfold componentStatus
  cases n.findComponent ref with
  | none => rfl
  | some c => rfl

theorem statusResponse_sameDeployment (env : Platform) :
    Within SameDeployment (statusResponse env) := by
  intro n
  unfold statusResponse
  rw [run_get_bind]
  have hloop := within_mapM SameDeployment.refl SameDeployment.trans
    (fun ref (_ : ref ∈ componentRefs n n.router.address) =>
      componentStatus_sameDeployment n ref)
  exact within_bind SameDeployment.trans hloop
    (fun _ => within_pure SameDeployment.refl _) n

/-!
## Building and failing
-/

theorem deployComponent_outside (comps : Table String NodeInfo)
    (comp : Parser.Component) :
    Within SameOutside (deployComponent comps comp) := by
  intro n
  by_cases hhere : (Table.get comps comp.name).name = n.nodeName
  · cases hkind : Components.getComponentKind comp.kind with
    | some kind =>
        rw [deployComponent_here hhere hkind]
        exact ⟨rfl, rfl, rfl, rfl, rfl, rfl, rfl, rfl⟩
    | none =>
        unfold deployComponent createComponent
        rw [run_get_bind, run_ite, if_pos hhere, hkind]
        exact SameOutside.refl n
  · rw [deployComponent_elsewhere hhere]
    exact SameOutside.refl n

theorem clientFor_outside (env : Platform) (info : NodeInfo) :
    Within SameOutside (clientFor env info) := by
  intro n
  cases hclient : n.router.clients.lookup info.name with
  | some client =>
      rw [clientFor_found hclient]
      exact SameOutside.refl n
  | none =>
      cases haddr : env.fromString info.address with
      | some addr =>
          rw [clientFor_new hclient haddr]
          exact ⟨rfl, rfl, rfl, rfl, rfl, rfl, rfl, rfl⟩
      | none =>
          rw [clientFor_bad hclient haddr]
          exact SameOutside.refl n

theorem deployConnection_outside (env : Platform)
    (comps : Table String NodeInfo) (conn : Parser.Connection) :
    Within SameOutside (deployConnection env comps conn) := by
  intro n
  by_cases hsource : conn.source ∈ n.router.components
  · unfold deployConnection
    rw [run_get_bind, run_ite, if_pos hsource]
    simp only [run_ite]
    by_cases hhere : (Table.get comps conn.dest).name = n.nodeName
    · rw [if_pos hhere]
      exact ⟨rfl, rfl, rfl, rfl, rfl, rfl, rfl, rfl⟩
    · rw [if_neg hhere]
      refine within_bind SameOutside.trans (clientFor_outside env _) ?_ n
      intro client n1
      exact ⟨rfl, rfl, rfl, rfl, rfl, rfl, rfl, rfl⟩
  · rw [deployConnection_elsewhere hsource]
    exact SameOutside.refl n

/-- The two loops of `deployFromConfig`. -/
def deployLoops (env : Platform) (conf : Parser.Configuration) :
    Handler PUnit := do
  conf.components.forM (deployComponent (compToNode conf))
  conf.connections.forM (deployConnection env (compToNode conf))

theorem deployFromConfig_eq (env : Platform) (conf : Parser.Configuration) :
    deployFromConfig env conf = (do
      deployLoops env conf
      let n ← get
      listen env n.port) := by
  unfold deployFromConfig deployLoops
  rw [bind_assoc]

theorem deployLoops_outside (env : Platform) (conf : Parser.Configuration) :
    Within SameOutside (deployLoops env conf) :=
  within_bind SameOutside.trans
    (within_forM SameOutside.refl SameOutside.trans
      (fun comp _ => deployComponent_outside _ comp))
    (fun _ => within_forM SameOutside.refl SameOutside.trans
      (fun conn _ => deployConnection_outside env _ conn))

theorem deployLoops_throws (env : Platform) (conf : Parser.Configuration) :
    Throws (fun e => e ≠ Fault.exception Exception.cannotBind)
      (deployLoops env conf) := by
  refine throws_bind (throws_forM ?_) (fun _ => throws_forM ?_)
  · intro comp _ n e n' hrun
    by_cases hhere : (Table.get (compToNode conf) comp.name).name = n.nodeName
    · cases hkind : Components.getComponentKind comp.kind with
      | some kind =>
          rw [deployComponent_here hhere hkind] at hrun
          cases hrun
      | none =>
          unfold deployComponent createComponent at hrun
          rw [run_get_bind, run_ite, if_pos hhere, hkind] at hrun
          injection hrun with he _
          rw [← he]
          exact fun h => by cases h
    · rw [deployComponent_elsewhere hhere] at hrun
      cases hrun
  · intro conn _ n e n' hrun
    by_cases hsource : conn.source ∈ n.router.components
    · unfold deployConnection at hrun
      rw [run_get_bind, run_ite, if_pos hsource] at hrun
      simp only [run_ite] at hrun
      by_cases hhere :
          (Table.get (compToNode conf) conn.dest).name = n.nodeName
      · rw [if_pos hhere] at hrun
        cases hrun
      · rw [if_neg hhere] at hrun
        cases hclient : n.router.clients.lookup
            (Table.get (compToNode conf) conn.dest).name with
        | some client =>
            rw [bind_ok (clientFor_found hclient)] at hrun
            cases hrun
        | none =>
            cases haddr : env.fromString
                (Table.get (compToNode conf) conn.dest).address with
            | some addr =>
                rw [bind_ok (clientFor_new hclient haddr)] at hrun
                cases hrun
            | none =>
                rw [bind_error (clientFor_bad hclient haddr)] at hrun
                injection hrun with he _
                rw [← he]
                exact fun h => by cases h
    · rw [deployConnection_elsewhere hsource] at hrun
      cases hrun

/-- The parts of a node that a deployment sets before its loops, and those it
does not touch even when it fails. -/
structure DeploysOver (config : Protocol.Deploy.Config)
    (n n' : Protort.Node) : Prop where
  address : n'.router.address = n.router.address
  started : n'.router.started = n.router.started
  retired : n'.retired = n.retired
  nodeName : n'.nodeName = config.thisNodeInfo.name
  port : n'.port = config.thisNodeInfo.port

theorem deployFromPacket_over (env : Platform)
    (config : Protocol.Deploy.Config) :
    Within (DeploysOver config) (deployFromPacket env config) := by
  intro n
  unfold deployFromPacket
  rw [run_modify_bind]
  cases hconf : configurationOfPacket config with
  | none => exact ⟨rfl, rfl, rfl, rfl, rfl⟩
  | some conf =>
      have hloops := deployLoops_outside env conf
        { n with
          nodeName := config.thisNodeInfo.name
          port := config.thisNodeInfo.port }
      show DeploysOver config n (finalState (deployFromConfig env conf _))
      rw [deployFromConfig_eq]
      cases hrun : deployLoops env conf
          { n with
            nodeName := config.thisNodeInfo.name
            port := config.thisNodeInfo.port } with
      | error e n1 =>
          rw [hrun] at hloops
          rw [bind_error hrun]
          exact ⟨hloops.address, hloops.started, hloops.retired,
            hloops.nodeName, hloops.port⟩
      | ok x n1 =>
          rw [hrun] at hloops
          rw [bind_ok hrun, run_get_bind]
          unfold listen
          rw [run_modify_bind, run_ite]
          by_cases hbind : env.bind n1.port.toUInt16 = true
          · rw [if_pos hbind]
            exact ⟨hloops.address, hloops.started, hloops.retired,
              hloops.nodeName, hloops.port⟩
          · rw [if_neg hbind]
            exact ⟨hloops.address, hloops.started, hloops.retired,
              hloops.nodeName, hloops.port⟩

/-- The port is opened last, and the old acceptor is closed before that. -/
theorem deployFromPacket_server {env : Platform}
    {config : Protocol.Deploy.Config} {n n' : Protort.Node} {e : Exception}
    (h : deployFromPacket env config n =
      EStateM.Result.error (Fault.exception e) n') :
    (e = Exception.cannotBind -> n'.server.listening = none) ∧
      (e = Exception.invalidAddress -> n'.server = n.server) := by
  unfold deployFromPacket at h
  rw [run_modify_bind] at h
  cases hconf : configurationOfPacket config with
  | none =>
      rw [hconf] at h
      cases h
  | some conf =>
      rw [hconf] at h
      change deployFromConfig env conf _ = _ at h
      rw [deployFromConfig_eq] at h
      have hloops := deployLoops_outside env conf
        { n with
          nodeName := config.thisNodeInfo.name
          port := config.thisNodeInfo.port }
      cases hrun : deployLoops env conf
          { n with
            nodeName := config.thisNodeInfo.name
            port := config.thisNodeInfo.port } with
      | error e1 n1 =>
          rw [bind_error hrun] at h
          rw [hrun] at hloops
          injection h with he hn
          subst e1 n1
          constructor
          · intro heq
            subst heq
            exact absurd rfl (deployLoops_throws env conf _ _ _ hrun)
          · intro _
            exact hloops.server
      | ok x n1 =>
          rw [bind_ok hrun, run_get_bind] at h
          unfold listen at h
          rw [run_modify_bind, run_ite] at h
          by_cases hbind : env.bind n1.port.toUInt16 = true
          · rw [if_pos hbind] at h
            cases h
          · rw [if_neg hbind] at h
            injection h with he hn
            injection he with he
            subst e n'
            exact ⟨fun _ => rfl, fun h => by cases h⟩

end Node
end Protort
