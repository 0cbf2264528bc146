import Protort.Node.Requests

/-!
# Requests that replace the router

A request is dispatched by the kind of its deploy packet, and the kind that
stands for nothing at all is the one that deploys.  Once a deployment has begun,
the old router is gone, whatever happens next.
-/

namespace Protort
namespace Node

open Lib (Table)
open Lib.Exceptions

/-!
## Failed deployments
-/

def exchanged (n : Protort.Node) : Protort.Node :=
  { n with
    router := Router.new (n.router.address + 1)
    retired := n.router :: n.retired }

/-- The rest of a deployment once it has been built. -/
def finishDeploy (env : Platform) (routerPreviousState : Bool)
    (oldRouter : Nat) : Handler Protocol.Payload := do
  if routerPreviousState then
    let n ← get
    startRouter env n.router.address
  stopRouter oldRouter
  pure default

theorem processDeployRequest_deployConfig {packet : Protocol.Deploy.Packet}
    (hkind : packet.kind = Protocol.Deploy.PacketKind.deployConfig)
    (env : Platform) (n : Protort.Node) :
    processDeployRequest env packet n =
      (deployFromPacket env packet.request.deployConfigRequest.config >>=
        fun _ => finishDeploy env n.router.started n.router.address)
          n.exchanged := by
  unfold processDeployRequest
  rw [hkind]
  rfl

theorem finishDeploy_throws (env : Platform) (started : Bool)
    (oldRouter : Nat) :
    Throws (fun e => e = Fault.nullComponent)
      (finishDeploy env started oldRouter) := by
  have hstop : Throws (fun e => e = Fault.nullComponent)
      (stopRouter oldRouter >>= fun _ =>
        (pure default : Handler Protocol.Payload)) :=
    throws_bind (stopRouter_throws oldRouter)
      (fun _ n e n' hrun => by cases hrun)
  intro n e n' hrun
  unfold finishDeploy at hrun
  cases started with
  | true =>
      have hstart := throws_bind (startRouter_throws env n.router.address)
        (fun _ => hstop)
      exact hstart n e n' hrun
  | false => exact hstop n e n' hrun

/-- An exception out of a deployment is one of building the new router. -/
theorem deployFromPacket_of_exception {env : Platform}
    {packet : Protocol.Deploy.Packet} {n n' : Protort.Node} {e : Exception}
    (hkind : packet.kind = Protocol.Deploy.PacketKind.deployConfig)
    (h : processDeployRequest env packet n =
      EStateM.Result.error (Fault.exception e) n') :
    deployFromPacket env packet.request.deployConfigRequest.config
        n.exchanged =
      EStateM.Result.error (Fault.exception e) n' := by
  rw [processDeployRequest_deployConfig hkind] at h
  cases hrun : deployFromPacket env
      packet.request.deployConfigRequest.config n.exchanged with
  | ok x n1 =>
      rw [bind_ok hrun] at h
      have hfault := finishDeploy_throws env _ _ _ _ _ h
      cases hfault
  | error e1 n1 =>
      rw [bind_error hrun] at h
      injection h with he hn
      rw [he, hn]

/-- The router with everything in it, name, port and endpoint of a node are
what they were. -/
structure LeftAsItWas (n n' : Protort.Node) : Prop where
  router : n'.router = n.router
  nodeName : n'.nodeName = n.nodeName
  port : n'.port = n.port
  listening : n'.server.listening = n.server.listening

/-- A deployment that throws has replaced the router for good: the new one is
in place and stopped, the old one is not stopped, name and port are those of the
request, and if the port could not be opened nothing is listening any more. -/
theorem failed_deployment_replaces {env : Platform}
    {packet : Protocol.Deploy.Packet} {n n' : Protort.Node} {e : Exception}
    (hkind : packet.kind = Protocol.Deploy.PacketKind.deployConfig)
    (h : processDeployRequest env packet n =
      EStateM.Result.error (Fault.exception e) n') :
    ¬ LeftAsItWas n n' ∧
      n'.router.address ≠ n.router.address ∧
      n'.router.started = false ∧
      n.router ∈ n'.retired ∧
      n'.nodeName =
        packet.request.deployConfigRequest.config.thisNodeInfo.name ∧
      n'.port =
        packet.request.deployConfigRequest.config.thisNodeInfo.port ∧
      (e = Exception.cannotBind -> n'.server.listening = none) := by
  have hdeploy := deployFromPacket_of_exception hkind h
  have hover := deployFromPacket_over env
    packet.request.deployConfigRequest.config n.exchanged
  rw [hdeploy] at hover
  have haddress : n'.router.address = n.router.address + 1 := hover.address
  have hnew : n'.router.address ≠ n.router.address := by
    omega
  refine ⟨?_, hnew, hover.started, ?_, hover.nodeName, hover.port,
    (deployFromPacket_server hdeploy).left⟩
  · intro hleft
    exact hnew (congrArg Router.address hleft.router)
  · have hretired : n'.retired = n.router :: n.retired := hover.retired
    rw [hretired]
    exact List.mem_cons_self

def running : Protort.Node :=
  { new 100 0 with
    router := { Router.new 0 with
      components := (∅ : Table String ComponentInstance).insert "a"
        { component := some (newComponent 1 0
            Protocol.ComponentKind.terminator "a")
          name := "a"
          portToRoutes := ∅
          emitted := [] }
      started := true }
    server := { isOpen := true, listening := some 100 }
    nodeName := "n0" }

def hostNameRequest : Protocol.Deploy.Packet :=
  { kind := Protocol.Deploy.PacketKind.deployConfig
    payload := Protocol.Deploy.PacketPayload.request
      (Protocol.Deploy.Request.deployConfig
        { config :=
            { thisNodeInfo := { name := "n1", address := "", port := 200 }
              nodeInfos := [⟨"n1", "127.0.0.1", 200⟩, ⟨"n2", "localhost", 300⟩]
              instances := [⟨"b", Protocol.ComponentKind.retranslator⟩]
              maps := [⟨"n1", "b"⟩, ⟨"n2", "c"⟩]
              connections := [⟨⟨0, "b"⟩, ⟨0, "c"⟩⟩] } }) }

def afterHostNameRequest : Protort.Node :=
  finalState (processDeployRequest Platform.loopback hostNameRequest running)

theorem hostNameRequest_throws :
    processDeployRequest Platform.loopback hostNameRequest running =
      EStateM.Result.error (Fault.exception Exception.invalidAddress)
        afterHostNameRequest := by
  rfl

theorem failed_deployment_replaces_running :
    ¬ LeftAsItWas running afterHostNameRequest ∧
      afterHostNameRequest.router.address ≠ running.router.address ∧
      afterHostNameRequest.router.started = false ∧
      running.router ∈ afterHostNameRequest.retired ∧
      afterHostNameRequest.nodeName = "n1" ∧
      afterHostNameRequest.port = 200 ∧
      (Exception.invalidAddress = Exception.cannotBind ->
        afterHostNameRequest.server.listening = none) :=
  failed_deployment_replaces rfl hostNameRequest_throws

/-- The request throws, and the running node has lost its component. -/
theorem hostNameRequest_not_atomic :
    processDeployRequest Platform.loopback hostNameRequest running =
      EStateM.Result.error (Fault.exception Exception.invalidAddress)
        afterHostNameRequest ∧
      "a" ∈ running.router.components ∧
      ¬ "a" ∈ afterHostNameRequest.router.components ∧
      ¬ LeftAsItWas running afterHostNameRequest := by
  constructor
  · exact hostNameRequest_throws
  constructor
  · decide +kernel
  constructor
  · decide +kernel
  intro hleft
  have hname : afterHostNameRequest.nodeName = running.nodeName :=
    hleft.nodeName
  revert hname
  decide +kernel

/-!
## Requests without a configuration
-/

def carriesDeployConfig (payload : Protocol.Payload) : Bool :=
  match payload with
  | Protocol.Payload.deployPacket packet =>
      match packet.payload with
      | Protocol.Deploy.PacketPayload.request
          (Protocol.Deploy.Request.deployConfig _) => true
      | _ => false
  | _ => false

/-- Whether a payload without a `deploy_config` reads as a deployment of the
default configuration: a communication packet does, and so does a deploy packet
of the kind `DeployConfig`, which is also the kind that is read where none was
set. -/
def defaultsToDeployConfig (payload : Protocol.Payload) : Bool :=
  match payload with
  | Protocol.Payload.communicationPacket _ => true
  | Protocol.Payload.deployPacket packet =>
      decide (packet.kind = Protocol.Deploy.PacketKind.deployConfig) &&
        !carriesDeployConfig payload
  | _ => false

/-- The node after it has handled a request, whether that returned or not. -/
def handle (env : Platform) (payload : Protocol.Payload)
    (n : Protort.Node) : Protort.Node :=
  finalState (onNewRequest env payload n)

def handleAll (requests : List (Platform × Protocol.Payload))
    (n : Protort.Node) : Protort.Node :=
  requests.foldl (fun n request => handle request.1 request.2 n) n

/-- Every request of the sequence that carries no configuration leaves the
deployment as it finds it. -/
def OnlyConfigReplaces (requests : List (Platform × Protocol.Payload))
    (n : Protort.Node) : Prop :=
  forall front env payload back,
    requests = front ++ (env, payload) :: back ->
      carriesDeployConfig payload = false ->
        SameDeployment (handleAll front n)
          (handleAll (front ++ [(env, payload)]) n)

theorem handleAll_snoc (front : List (Platform × Protocol.Payload))
    (env : Platform) (payload : Protocol.Payload) (n : Protort.Node) :
    handleAll (front ++ [(env, payload)]) n =
      handle env payload (handleAll front n) := by
  unfold handleAll
  rw [List.foldl_append]
  rfl

/-- A deployment puts a new router in place, even when it fails. -/
theorem deployConfig_replaces {packet : Protocol.Deploy.Packet}
    (hkind : packet.kind = Protocol.Deploy.PacketKind.deployConfig)
    (env : Platform) (n : Protort.Node) :
    (finalState (processDeployRequest env packet n)).router.address =
      n.router.address + 1 := by
  rw [processDeployRequest_deployConfig hkind]
  have hover := deployFromPacket_over env
    packet.request.deployConfigRequest.config n.exchanged
  cases hrun : deployFromPacket env
      packet.request.deployConfigRequest.config n.exchanged with
  | error e n1 =>
      rw [hrun] at hover
      rw [bind_error hrun]
      exact hover.address
  | ok x n1 =>
      rw [hrun] at hover
      rw [bind_ok hrun]
      have hstop := within_bind SameDeployment.trans
        (stopRouter_sameDeployment n.router.address)
        (fun _ => within_pure SameDeployment.refl
          (default : Protocol.Payload))
      have hfinish : SameDeployment n1 (finalState
          (finishDeploy env n.router.started n.router.address n1)) := by
        unfold finishDeploy
        cases n.router.started with
        | true =>
            exact within_bind SameDeployment.trans
              (startRouter_sameDeployment env n1.router.address)
              (fun _ => hstop) n1
        | false => exact hstop n1
      have haddress := congrArg Deployment.router hfinish
      exact haddress.trans hover.address

theorem otherKind_keeps {packet : Protocol.Deploy.Packet}
    (hkind : packet.kind ≠ Protocol.Deploy.PacketKind.deployConfig)
    (env : Platform) :
    Within SameDeployment (processDeployRequest env packet) := by
  intro n
  unfold processDeployRequest
  cases hpacket : packet.kind with
  | deployConfig => exact absurd hpacket hkind
  | start =>
      exact within_bind SameDeployment.trans
        (startRouter_sameDeployment env n.router.address)
        (fun _ => within_pure SameDeployment.refl
          (default : Protocol.Payload)) n
  | stop =>
      exact within_bind SameDeployment.trans
        (stopRouter_sameDeployment n.router.address)
        (fun _ => within_pure SameDeployment.refl
          (default : Protocol.Payload)) n
  | getStatus => exact statusResponse_sameDeployment env n
  | getConfig => exact SameDeployment.refl n
  | update => exact SameDeployment.refl n
  | switch => exact SameDeployment.refl n
  | unrecognized value => exact SameDeployment.refl n

theorem handle_keeps {payload : Protocol.Payload}
    (hcarries : carriesDeployConfig payload = false)
    (hdefaults : defaultsToDeployConfig payload = false)
    (env : Platform) (n : Protort.Node) :
    SameDeployment n (handle env payload n) := by
  cases payload with
  | communicationPacket packet => cases hdefaults
  | deployPacket packet =>
      have hkind :
          packet.kind ≠ Protocol.Deploy.PacketKind.deployConfig := by
        intro hkind
        unfold defaultsToDeployConfig at hdefaults
        simp [hkind, hcarries] at hdefaults
      exact otherKind_keeps hkind env n
  | notSet => exact SameDeployment.refl n
  | backupPacket packet => exact SameDeployment.refl n
  | payload bytes => exact SameDeployment.refl n
  | anyPayload typeUrl value => exact SameDeployment.refl n

theorem handle_replaces {payload : Protocol.Payload}
    (hdefaults : defaultsToDeployConfig payload = true)
    (env : Platform) (n : Protort.Node) :
    carriesDeployConfig payload = false ∧
      ¬ SameDeployment n (handle env payload n) := by
  have hchanged : forall packet : Protocol.Deploy.Packet,
      packet.kind = Protocol.Deploy.PacketKind.deployConfig ->
        ¬ SameDeployment n
          (finalState (processDeployRequest env packet n)) := by
    intro packet hkind hsame
    have haddress := congrArg Deployment.router hsame
    change (finalState (processDeployRequest env packet n)).router.address =
      n.router.address at haddress
    rw [deployConfig_replaces hkind] at haddress
    omega
  cases payload with
  | communicationPacket packet => exact ⟨rfl, hchanged default rfl⟩
  | deployPacket packet =>
      unfold defaultsToDeployConfig at hdefaults
      rw [Bool.and_eq_true, decide_eq_true_iff, Bool.not_eq_true'] at hdefaults
      exact ⟨hdefaults.right, hchanged packet hdefaults.left⟩
  | notSet => cases hdefaults
  | backupPacket packet => cases hdefaults
  | payload bytes => cases hdefaults
  | anyPayload typeUrl value => cases hdefaults

/-- A sequence of requests keeps the rule exactly when none of them reads as a
deployment that it does not carry. -/
theorem onlyConfigReplaces_iff (requests : List (Platform × Protocol.Payload))
    (n : Protort.Node) :
    OnlyConfigReplaces requests n <->
      forall request, request ∈ requests ->
        defaultsToDeployConfig request.2 = false := by
  constructor
  · intro honly request hrequest
    by_contra hdefaults
    rcases List.append_of_mem hrequest with ⟨front, back, hsplit⟩
    have hchange := handle_replaces (Bool.eq_true_of_not_eq_false hdefaults)
      request.1 (handleAll front n)
    have hsame := honly front request.1 request.2 back hsplit hchange.left
    rw [handleAll_snoc] at hsame
    exact hchange.right hsame
  · intro hnone front env payload back hsplit hcarries
    have hmem : (env, payload) ∈ requests := by
      rw [hsplit]
      exact List.mem_append_right front List.mem_cons_self
    rw [handleAll_snoc]
    exact handle_keeps hcarries (hnone _ hmem) env (handleAll front n)

/-- A request with a communication packet takes the component of the running
node away. -/
theorem communicationRequest_replaces :
    ¬ OnlyConfigReplaces
        [(Platform.loopback, Protocol.Payload.communicationPacket default)]
        running ∧
      "a" ∈ running.router.components ∧
      ¬ "a" ∈ (handle Platform.loopback
        (Protocol.Payload.communicationPacket default)
          running).router.components := by
  refine ⟨?_, by decide +kernel, by decide +kernel⟩
  intro honly
  have hsame := honly [] Platform.loopback
    (Protocol.Payload.communicationPacket default) [] rfl rfl
  exact (handle_replaces rfl Platform.loopback running).right hsame

end Node
end Protort
