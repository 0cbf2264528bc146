import Protort.Lib.Relating
import Protort.Node.Silence

/-!
# What handlers look at

The handlers of a node look at its current router, at its name, its port and the
next free address, but neither at the queue nor at what was sent, and of the
routers that were replaced at those only that a task belongs to.  Nodes that
agree in what is looked at, and are kept so by the ways in which a handler
changes them, cannot be told apart by any handler.
-/

namespace Protort
namespace Node

open Lib (Table Relates SameResult relates_pure relates_throw relates_modify
  relates_get_bind relates_forM relates_mapM)
open Components (Component Output Origin)

/-!
## Congruences
-/

/-- A relation that no handler gets out of.  Routers at live addresses are the
same. -/
structure Congruence (live : Nat -> Prop)
    (R : Protort.Node -> Protort.Node -> Prop) : Prop where
  router : forall {n m}, R n m -> n.router = m.router
  next : forall {n m}, R n m -> n.next = m.next
  nodeName : forall {n m}, R n m -> n.nodeName = m.nodeName
  port : forall {n m}, R n m -> n.port = m.port
  startTime : forall {n m}, R n m -> n.startTime = m.startTime
  current : forall {n m}, R n m -> live n.router.address
  found : forall {n m address}, R n m -> live address ->
    n.findRouter address = m.findRouter address
  routed : forall {n m r}, R n m -> live r.address ->
    R (n.updateRouter r) (m.updateRouter r)
  allocated : forall {n m next}, R n m ->
    R { n with next := next } { m with next := next }
  named : forall {n m nodeName port}, R n m ->
    R { n with nodeName := nodeName, port := port }
      { m with nodeName := nodeName, port := port }
  served : forall {n m server}, R n m ->
    R { n with server := server } { m with server := server }
  exchanged : forall {n m}, R n m -> R n.exchanged m.exchanged
  performed : forall {n m effect}, R n m ->
    R (n.perform effect) (m.perform effect)

section Handlers

variable {live : Nat -> Prop} {R : Protort.Node -> Protort.Node -> Prop}
  {n m : Protort.Node} {ref : ComponentRef} {address : Nat}

namespace Congruence

theorem performedAll (hR : Congruence live R) (h : R n m)
    (effects : List Effect) :
    R (n.performAll effects) (m.performAll effects) := by
  induction effects generalizing n m with
  | nil => exact h
  | cons effect rest ih => exact ih (hR.performed h)

theorem foundComponent (hR : Congruence live R) (h : R n m)
    (href : live ref.router) : n.findComponent ref = m.findComponent ref := by
  unfold findComponent
  rw [hR.found h href]

theorem refs (hR : Congruence live R) (h : R n m) (hlive : live address) :
    componentRefs n address = componentRefs m address := by
  unfold componentRefs
  rw [hR.found h hlive]

theorem componentUpdated (hR : Congruence live R) (h : R n m)
    (href : live ref.router) (c : Component) :
    R (n.updateComponent ref c) (m.updateComponent ref c) := by
  unfold updateComponent
  rw [hR.found h href]
  cases hr : m.findRouter ref.router with
  | none => exact h
  | some r =>
      have haddress : r.address = ref.router := address_of_findRouter hr
      rw [← haddress] at href
      exact @routed _ _ hR _ _ (Router.setComponent r ref.name c) h href

theorem flagged (hR : Congruence live R) (h : R n m) (hlive : live address)
    (started : Bool) :
    R (setStarted address started n) (setStarted address started m) := by
  unfold setStarted
  rw [hR.found h hlive]
  cases hr : m.findRouter address with
  | none => exact h
  | some r =>
      have haddress : r.address = address := address_of_findRouter hr
      rw [← haddress] at hlive
      exact @routed _ _ hR _ _ { r with started := started } h hlive

theorem rebuilt (hR : Congruence live R) (h : R n m) {f : Router -> Router}
    (hf : forall r, (f r).address = r.address) :
    R { n with router := f n.router } { m with router := f m.router } := by
  have hlive : live (f n.router).address := by
    rw [hf]
    exact hR.current h
  have hn := updateRouter_current (hf n.router)
  have hm := updateRouter_current (hf m.router)
  have hafter := hR.routed h hlive
  rw [hn, hR.router h, hm] at hafter
  rw [hR.router h]
  exact hafter

end Congruence

/-!
## Starting and stopping
-/

theorem relates_dereference (hR : Congruence live R) (href : live ref.router) :
    Relates R (dereference ref) := by
  refine relates_get_bind (fun n m h => ?_)
  rw [hR.foundComponent h href]
  cases m.findComponent ref with
  | none => exact relates_throw _ n m h
  | some c => exact relates_pure c n m h

theorem relates_startComponent (hR : Congruence live R) (env : Platform)
    (href : live ref.router) : Relates R (startComponent env ref) :=
  (relates_dereference hR href).bind (fun _ => Relates.ite
    (relates_modify (fun _ _ h =>
      hR.performedAll (hR.componentUpdated h href _) _))
    (relates_pure PUnit.unit))

theorem relates_stopComponent (hR : Congruence live R)
    (href : live ref.router) : Relates R (stopComponent ref) :=
  (relates_dereference hR href).bind (fun _ => Relates.ite
    ((relates_modify (fun _ _ h => hR.componentUpdated h href _)).bind
      (fun _ => Relates.ite
        (relates_modify (fun _ _ h => hR.performed h))
        (relates_pure PUnit.unit)))
    (relates_pure PUnit.unit))

theorem relates_startRouter (hR : Congruence live R) (env : Platform)
    (hlive : live address) : Relates R (startRouter env address) := by
  refine (relates_modify (fun _ _ h => hR.flagged h hlive true)).bind
    (fun _ => relates_get_bind (fun n m h => ?_))
  rw [hR.refs h hlive]
  refine relates_forM (fun ref href => relates_startComponent hR env ?_) n m h
  rw [Switch.router_of_mem_componentRefs href]
  exact hlive

theorem relates_stopRouter (hR : Congruence live R) (hlive : live address) :
    Relates R (stopRouter address) := by
  refine (relates_modify (fun _ _ h => hR.flagged h hlive false)).bind
    (fun _ => relates_get_bind (fun n m h => ?_))
  rw [hR.refs h hlive]
  refine relates_forM (fun ref href => relates_stopComponent hR ?_) n m h
  rw [Switch.router_of_mem_componentRefs href]
  exact hlive

/-!
## Deploying
-/

theorem relates_modifyRouter (hR : Congruence live R) {f : Router -> Router}
    (hf : forall r, (f r).address = r.address) :
    Relates R (modifyRouter f) :=
  relates_modify (fun _ _ h => hR.rebuilt h hf)

theorem relates_allocate (hR : Congruence live R) : Relates R allocate := by
  refine relates_get_bind (fun n m h => ?_)
  rw [hR.next h]
  exact SameResult.ok m.next (hR.allocated h)

theorem relates_createComponent (hR : Congruence live R) (kind : String) :
    Relates R (createComponent kind) := by
  unfold createComponent
  cases Components.getComponentKind kind with
  | none => exact relates_throw _
  | some kind =>
      refine (relates_allocate hR).bind (fun address =>
        relates_get_bind (fun n m h => ?_))
      rw [hR.router h]
      exact relates_pure _ n m h

theorem relates_deployComponent (hR : Congruence live R)
    (comps : Table String NodeInfo) (comp : Parser.Component) :
    Relates R (deployComponent comps comp) := by
  refine relates_get_bind (fun n m h => ?_)
  rw [hR.nodeName h]
  exact Relates.ite ((relates_createComponent hR comp.kind).bind
    (fun _ => relates_modifyRouter hR (by exact fun _ => rfl)))
    (relates_pure PUnit.unit) n m h

theorem relates_clientFor (hR : Congruence live R) (env : Platform)
    (info : NodeInfo) : Relates R (clientFor env info) := by
  refine relates_get_bind (fun n m h => ?_)
  rw [hR.router h]
  cases m.router.clients.lookup info.name with
  | some client => exact relates_pure client n m h
  | none =>
      cases env.fromString info.address with
      | none => exact relates_throw _ n m h
      | some addr =>
          exact (relates_allocate hR).bind (fun address =>
            (relates_modifyRouter hR (by exact fun _ => rfl)).bind
              (fun _ => relates_pure _)) n m h

theorem relates_deployConnection (hR : Congruence live R) (env : Platform)
    (comps : Table String NodeInfo) (conn : Parser.Connection) :
    Relates R (deployConnection env comps conn) := by
  refine relates_get_bind (fun n m h => ?_)
  rw [hR.nodeName h, hR.router h]
  exact Relates.ite
    (Relates.ite
      ((relates_modifyRouter hR (by exact fun _ => rfl)).bind
        (fun _ => relates_modifyRouter hR (by exact fun _ => rfl)))
      ((relates_clientFor hR env _).bind
        (fun _ => relates_modifyRouter hR (by exact fun _ => rfl))))
    (relates_pure PUnit.unit) n m h

theorem relates_listen (hR : Congruence live R) (env : Platform)
    (port : UInt32) : Relates R (listen env port) :=
  (relates_modify (fun _ _ h => hR.served h)).bind (fun _ => Relates.ite
    (relates_modify (fun _ _ h => hR.served h)) (relates_throw _))

theorem relates_deployFromConfig (hR : Congruence live R) (env : Platform)
    (conf : Parser.Configuration) :
    Relates R (deployFromConfig env conf) := by
  refine (relates_forM (fun _ _ => relates_deployComponent hR _ _)).bind
    (fun _ => (relates_forM (fun _ _ =>
      relates_deployConnection hR env _ _)).bind (fun _ =>
        relates_get_bind (fun n m h => ?_)))
  rw [hR.port h]
  exact relates_listen hR env m.port n m h

theorem relates_deployFromPacket (hR : Congruence live R) (env : Platform)
    (config : Protocol.Deploy.Config) :
    Relates R (deployFromPacket env config) := by
  refine (relates_modify (fun _ _ h => hR.named h)).bind (fun _ => ?_)
  cases configurationOfPacket config with
  | none => exact relates_throw _
  | some conf => exact relates_deployFromConfig hR env conf

theorem relates_restart (hR : Congruence live R) (env : Platform)
    (wasStarted : Bool) {next : Handler Protocol.Payload}
    (hnext : Relates R next) : Relates R (do
      if wasStarted then
        let n ← get
        startRouter env n.router.address
      next) := by
  refine Relates.ite (relates_get_bind (fun n m h => ?_)) hnext
  rw [hR.router h]
  have hlive := hR.current h
  rw [hR.router h] at hlive
  exact ((relates_startRouter hR env hlive).bind (fun _ => hnext)) n m h

theorem relates_finishDeploy (hR : Congruence live R) (env : Platform)
    (wasStarted : Bool) (hlive : live address) :
    Relates R (finishDeploy env wasStarted address) :=
  relates_restart hR env wasStarted
    ((relates_stopRouter hR hlive).bind (fun _ => relates_pure _))

/-!
## Requests, messages and tasks
-/

theorem relates_statusResponse (hR : Congruence live R) (env : Platform) :
    Relates R (statusResponse env) := by
  refine relates_get_bind (fun n m h => ?_)
  have hlive := hR.current h
  rw [hR.router h] at hlive
  have hstatus : (componentRefs m m.router.address).mapM (componentStatus n) =
      (componentRefs m m.router.address).mapM (componentStatus m) := by
    refine Lib.mapM_congr (fun ref href => ?_)
    have hrouter := Switch.router_of_mem_componentRefs href
    unfold componentStatus
    rw [hR.foundComponent h (hrouter ▸ hlive)]
  rw [hR.router h, hR.nodeName h, hR.startTime h, hR.refs h hlive, hstatus]
  refine (relates_mapM (fun ref _ => ?_)).bind (fun _ => relates_pure _) n m h
  unfold componentStatus
  cases m.findComponent ref with
  | none => exact relates_throw _
  | some c => exact relates_pure _

theorem relates_processDeployRequest (hR : Congruence live R) (env : Platform)
    (packet : Protocol.Deploy.Packet) :
    Relates R (processDeployRequest env packet) := by
  intro n m h
  have hlive := hR.current h
  rw [hR.router h] at hlive
  cases hkind : packet.kind with
  | deployConfig =>
      rw [processDeployRequest_deployConfig hkind,
        processDeployRequest_deployConfig hkind, hR.router h]
      exact (relates_deployFromPacket hR env _).bind
        (fun _ => relates_finishDeploy hR env _ hlive) _ _ (hR.exchanged h)
  | start =>
      unfold processDeployRequest
      rw [hkind]
      refine relates_get_bind (fun n m h => ?_) n m h
      have hlive := hR.current h
      rw [hR.router h] at hlive ⊢
      exact (relates_startRouter hR env hlive).bind
        (fun _ => relates_pure _) n m h
  | stop =>
      unfold processDeployRequest
      rw [hkind]
      refine relates_get_bind (fun n m h => ?_) n m h
      have hlive := hR.current h
      rw [hR.router h] at hlive ⊢
      exact (relates_stopRouter hR hlive).bind (fun _ => relates_pure _) n m h
  | getStatus =>
      unfold processDeployRequest
      rw [hkind]
      exact relates_statusResponse hR env n m h
  | _ =>
      unfold processDeployRequest
      rw [hkind]
      exact relates_throw _ n m h

theorem relates_onNewRequest (hR : Congruence live R) (env : Platform)
    (payload : Protocol.Payload) : Relates R (onNewRequest env payload) := by
  unfold onNewRequest processRequest
  cases payload with
  | communicationPacket packet =>
      exact relates_processDeployRequest hR env _
  | deployPacket packet => exact relates_processDeployRequest hR env _
  | _ => exact relates_throw _

theorem relates_onNewMessage (hR : Congruence live R) (env : Platform)
    (origin : Option Origin) (payload : Protocol.Payload) :
    Relates R (onNewMessage env origin payload) := by
  refine relates_modify (fun n m h => ?_)
  simp only
  rw [hR.router h]
  refine hR.performedAll ?_ _
  have hafter := @Congruence.rebuilt _ _ _ _ hR h (fun r => (Router.route
    { r with inBytes := r.inBytes + env.byteSize payload } origin
      payload.asCommunicationPacket.destination.name
      payload.asCommunicationPacket.destination.port
      payload.asCommunicationPacket.payload).1) (fun r => by
        rw [Router.route_fst])
  rw [hR.router h] at hafter
  exact hafter

theorem Router.address_doRoute (env : Platform) (r : Router) (c : String)
    (outputs : List Output) :
    (r.doRoute env c outputs).1.address = r.address := by
  have houtput : forall (r : Router) (output : Output),
      (routeOutput env c output r).1.address = r.address := by
    intro r output
    exact @List.foldlRecOn _ _ (fun acc : Router × List Effect =>
      acc.1.address = r.address) output.ports _ (r, []) rfl
      (fun _ h port _ => h)
  unfold doRoute
  split_ifs
  · exact @List.foldlRecOn _ _ (fun acc : Router × List Effect =>
      acc.1.address = r.address) outputs _ (r, []) rfl
      (fun _ h output _ => (houtput _ output).trans h)
  · rfl

theorem relates_runTask (hR : Congruence live R) (env : Platform)
    {task : Task} (hlive : live task.router) :
    Relates R (runTask env task) := by
  unfold runTask
  cases task with
  | doProcess ref origin inPort payload =>
      refine (relates_dereference hR hlive).bind (fun c =>
        (relates_modify (fun _ _ h => hR.componentUpdated h hlive _)).bind
          (fun _ => ?_))
      cases c.process env inPort payload with
      | none => exact relates_pure PUnit.unit
      | some outputs => exact relates_modify (fun _ _ h => hR.performed h)
  | doRoute address compInst outputs =>
      cases compInst with
      | none => exact relates_throw _
      | some name =>
          refine relates_get_bind (fun n m h => ?_)
          change live address at hlive
          rw [hR.found h hlive]
          cases hr : m.findRouter address with
          | none => exact relates_pure PUnit.unit n m h
          | some r =>
              rw [← address_of_findRouter hr,
                ← Router.address_doRoute env r name outputs] at hlive
              exact Lib.relates_set
                (hR.performedAll (hR.routed h hlive) _)
  | generate ref =>
      exact (relates_dereference hR hlive).bind (fun c =>
        relates_modify (fun _ _ h => hR.performedAll h _))
  | timerWait ref cancelled =>
      exact (relates_dereference hR hlive).bind (fun c =>
        relates_modify (fun _ _ h => hR.performedAll h _))

end Handlers

/-!
## What arrives
-/

def Event.arrives : Event -> Bool
  | Event.run _ _ => false
  | _ => true

theorem rel_returned {value : Type} {R : Protort.Node -> Protort.Node -> Prop}
    {r r' : EStateM.Result Fault Protort.Node value} (h : SameResult R r r') :
    Option.Rel R (returned r) (returned r') := by
  cases h with
  | ok x hR => exact Option.Rel.some hR
  | error e _ => exact Option.Rel.none

section Arrivals

variable {n n' : Protort.Node} {event : Event}

/-- What arrives has the same effect on nodes that are related. -/
theorem Congruence.arrived {live : Nat -> Prop}
    {R : Protort.Node -> Protort.Node -> Prop} (hR : Congruence live R)
    (h : R n n') (harrives : event.arrives = true) :
    Option.Rel R (step n event) (step n' event) := by
  cases event with
  | request env payload =>
      exact rel_returned (relates_onNewRequest hR env payload _ _ h)
  | message env origin payload =>
      exact rel_returned (relates_onNewMessage hR env origin payload _ _ h)
  | run env index => cases harrives

/-- What arrives queues tasks of the router that is the current one then. -/
theorem arrived_spec (hn : Consistent n) (hstep : step n event = some n')
    (harrives : event.arrives = true) :
    n.router.address <= n'.router.address ∧
      exists effects : List Effect,
        n'.service = effects.foldl serve n.service ∧
        PostsFor n'.router.address effects := by
  cases event with
  | request env payload =>
      rcases returned_eq_some.mp hstep with ⟨response, hrun⟩
      rcases (onNewRequest_ok_iff.mp hrun).right.queues hn.sound with
        ⟨_, hle, effects, hservice, hposted⟩
      exact ⟨hle, effects, hservice,
        fun task htask => (hposted task htask).left⟩
  | message env origin payload =>
      rcases message_spec hstep with ⟨m, hworked, hservice, _, rfl⟩
      have haddress : (m.performAll
          (n.messageEffects origin payload)).router.address =
            n.router.address := by
        rw [router_performAll, hworked.current]
      refine ⟨haddress.ge, n.messageEffects origin payload, ?_, ?_⟩
      · rw [service_performAll, hservice]
      · intro task htask
        rw [haddress]
        unfold messageEffects at htask
        rw [Router.route_snd] at htask
        split_ifs at htask
        · cases List.mem_singleton.mp htask
          rfl
        · cases htask
  | run env index => cases harrives

end Arrivals

/-!
## Messages that were sent before
-/

def SentBefore (before : List Outgoing) (n m : Protort.Node) : Prop :=
  m = { n with outbox := before ++ n.outbox }

section SentBefore

variable {before : List Outgoing} {n m : Protort.Node}

theorem SentBefore.updateRouter (h : SentBefore before n m) (r : Router) :
    SentBefore before (n.updateRouter r) (m.updateRouter r) := by
  subst h
  unfold SentBefore Node.updateRouter
  by_cases hcurrent : n.router.address = r.address
  · simp only [hcurrent, if_true]
  · simp only [hcurrent, if_false]

theorem SentBefore.perform (h : SentBefore before n m) (effect : Effect) :
    SentBefore before (n.perform effect) (m.perform effect) := by
  subst h
  unfold SentBefore
  cases effect with
  | post task => rfl
  | cancelWaits ref => rfl
  | send client origin payload =>
      simp only [Node.perform, List.append_assoc]

theorem sentBefore_congruence (before : List Outgoing) :
    Congruence (fun _ => True) (SentBefore before) :=
  { router := fun h => h ▸ rfl
    next := fun h => h ▸ rfl
    nodeName := fun h => h ▸ rfl
    port := fun h => h ▸ rfl
    startTime := fun h => h ▸ rfl
    current := fun _ => trivial
    found := fun h _ => h ▸ rfl
    routed := fun h _ => h.updateRouter _
    allocated := fun h => h ▸ rfl
    named := fun h => h ▸ rfl
    served := fun h => h ▸ rfl
    exchanged := fun h => h ▸ rfl
    performed := fun h => h.perform _ }

theorem SentBefore.step (h : SentBefore before n m) (event : Event) :
    Option.Rel (SentBefore before) (step n event) (step m event) := by
  have hR := sentBefore_congruence before
  cases event with
  | request env payload => exact hR.arrived h rfl
  | message env origin payload => exact hR.arrived h rfl
  | run env index =>
      subst h
      cases htask : n.service[index]? with
      | none =>
          simp only [Node.step, htask]
          exact Option.Rel.none
      | some task =>
          simp only [Node.step, htask]
          exact rel_returned (relates_runTask hR env trivial _ _ rfl)

end SentBefore

end Node
end Protort
