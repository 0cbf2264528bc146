import Protort.Node.Construction

/-!
# Requests that return

What a request has done when the handler returns, and when it does return: the
kind of its deploy packet is one of four, what it deploys can be deployed, and
no router that is started or stopped on the way has an entry without a
component.
-/

namespace Protort
namespace Node

open Lib.Exceptions

/-- A deployment starts the new router when the old one was started. -/
def restarted (env : Platform) (wasStarted : Bool) (n : Protort.Node) :
    Protort.Node :=
  if wasStarted then
    switchRouter (Switch.start env) n.router.address n
  else
    n

/-- What a request with a deploy packet answers, and the node afterwards. -/
inductive Served (env : Platform) (n : Protort.Node) :
    Protocol.Deploy.Packet -> Protocol.Payload -> Protort.Node -> Prop where
  | deployConfig {packet : Protocol.Deploy.Packet} {m : Protort.Node} :
      packet.kind = Protocol.Deploy.PacketKind.deployConfig ->
      deployFromPacket env packet.request.deployConfigRequest.config
          n.exchanged =
        EStateM.Result.ok PUnit.unit m ->
      (n.router.started = true -> Complete m m.router.address) ->
      Complete n n.router.address ->
      Served env n packet default
        (switchRouter Switch.stop n.router.address
          (restarted env n.router.started m))
  | start {packet : Protocol.Deploy.Packet} :
      packet.kind = Protocol.Deploy.PacketKind.start ->
      Complete n n.router.address ->
      Served env n packet default
        (switchRouter (Switch.start env) n.router.address n)
  | stop {packet : Protocol.Deploy.Packet} :
      packet.kind = Protocol.Deploy.PacketKind.stop ->
      Complete n n.router.address ->
      Served env n packet default
        (switchRouter Switch.stop n.router.address n)
  | getStatus {packet : Protocol.Deploy.Packet}
      {response : Protocol.Payload} :
      packet.kind = Protocol.Deploy.PacketKind.getStatus ->
      statusResponse env n = EStateM.Result.ok response n ->
      Served env n packet response n

theorem Served.of_deployConfig {env : Platform} {n n' : Protort.Node}
    {packet : Protocol.Deploy.Packet} {response : Protocol.Payload}
    (h : Served env n packet response n')
    (hkind : packet.kind = Protocol.Deploy.PacketKind.deployConfig) :
    exists m, deployFromPacket env packet.request.deployConfigRequest.config
        n.exchanged = EStateM.Result.ok PUnit.unit m ∧
      n' = switchRouter Switch.stop n.router.address
        (restarted env n.router.started m) := by
  cases h with
  | @deployConfig m _ hdeploy _ _ => exact ⟨m, hdeploy, rfl⟩
  | start hother _ => cases hkind.symm.trans hother
  | stop hother _ => cases hkind.symm.trans hother
  | getStatus hother _ => cases hkind.symm.trans hother

/-!
## Routers apart from the one that is built
-/

theorem findRouter_rebuilt {n m : Protort.Node}
    (haddress : m.router.address = n.router.address + 1)
    (hretired : m.retired = n.router :: n.retired) (address : Nat) :
    m.findRouter address =
      if address = n.router.address + 1 then some m.router
      else n.findRouter address := by
  unfold findRouter
  rw [haddress, hretired]
  by_cases hnew : n.router.address + 1 = address
  · rw [if_pos hnew, if_pos hnew.symm]
  · rw [if_neg hnew, if_neg (Ne.symm hnew), List.find?_cons]
    by_cases hold : n.router.address = address
    · rw [if_pos hold]
      simp only [hold, decide_true]
    · rw [if_neg hold]
      simp only [hold, decide_false]

theorem complete_congr {n m : Protort.Node} {address : Nat}
    (hfind : m.findRouter address = n.findRouter address) :
    Complete m address <-> Complete n address := by
  have hrefs : componentRefs m address = componentRefs n address := by
    unfold componentRefs
    rw [hfind]
  unfold Complete
  rw [hrefs]
  refine forall_congr' fun ref => imp_congr_right fun href => ?_
  have hrouter := Switch.router_of_mem_componentRefs href
  rw [findComponent_eq_bind, findComponent_eq_bind, hrouter, hfind]

theorem findRouter_restarted (env : Platform) (wasStarted : Bool)
    {n : Protort.Node} {address : Nat} {r : Router}
    (haddress : address ≠ n.router.address)
    (hr : n.findRouter address = some r) :
    (restarted env wasStarted n).findRouter address = some r := by
  unfold restarted
  cases wasStarted with
  | true => exact (switchRouter_spec _ _ n).others address r haddress hr
  | false => exact hr

theorem Unstarted.empty (n : Protort.Node) : Unstarted n.exchanged.router :=
  Unstarted.new (n.router.address + 1)

section Requests

variable {env : Platform} {packet : Protocol.Deploy.Packet}
  {response : Protocol.Payload} {n n' : Protort.Node}

theorem complete_old {config : Protocol.Deploy.Config} {m : Protort.Node}
    (hdeploy : deployFromPacket env config n.exchanged =
      EStateM.Result.ok PUnit.unit m) (wasStarted : Bool) :
    Complete (restarted env wasStarted m) n.router.address <->
      Complete n n.router.address := by
  have hbuilt := deployFromPacket_rebuilt (Unstarted.empty n) hdeploy
  have hne : n.router.address ≠ m.router.address := by
    rw [hbuilt.address]
    exact Nat.ne_of_lt (Nat.lt_succ_self n.router.address)
  apply complete_congr
  have hm : m.findRouter n.router.address = some n.router := by
    rw [findRouter_rebuilt hbuilt.address hbuilt.retired,
      if_neg (Nat.ne_of_lt (Nat.lt_succ_self n.router.address)),
      findRouter_current]
  rw [findRouter_restarted env wasStarted hne hm, findRouter_current]

theorem finishDeploy_eq (wasStarted : Bool) (old : Nat) (m : Protort.Node)
    (hstart : wasStarted = true -> Complete m m.router.address)
    (hstop : Complete (restarted env wasStarted m) old) :
    finishDeploy env wasStarted old m = EStateM.Result.ok default
      (switchRouter Switch.stop old (restarted env wasStarted m)) := by
  unfold finishDeploy restarted at *
  cases wasStarted with
  | true =>
      simp only [if_true] at *
      rw [run_get_bind, bind_ok (startRouter_ok env (hstart trivial)),
        bind_ok (stopRouter_ok hstop)]
      rfl
  | false =>
      simp only [Bool.false_eq_true, if_false] at *
      rw [bind_ok (stopRouter_ok hstop)]
      rfl

theorem finishDeploy_inv {wasStarted : Bool} {old : Nat} {m : Protort.Node}
    (h : finishDeploy env wasStarted old m =
      EStateM.Result.ok response n') :
    (wasStarted = true -> Complete m m.router.address) ∧
      Complete (restarted env wasStarted m) old := by
  have hstopped : forall m' : Protort.Node,
      (stopRouter old >>= fun _ => (pure default :
        Handler Protocol.Payload)) m' = EStateM.Result.ok response n' ->
          Complete m' old := by
    intro m' hrun
    rcases ok_of_bind hrun with ⟨_, m'', hstop, _⟩
    exact complete_of_stopRouter hstop
  unfold finishDeploy at h
  cases wasStarted with
  | true =>
      simp only [if_true] at h
      rw [run_get_bind] at h
      rcases ok_of_bind h with ⟨_, m', hstart, hrest⟩
      have hcomplete := complete_of_startRouter hstart
      rw [startRouter_ok env hcomplete] at hstart
      cases hstart
      exact ⟨fun _ => hcomplete, hstopped _ hrest⟩
  | false => exact ⟨fun h => absurd h Bool.false_ne_true, hstopped _ h⟩

theorem statusResponse_keeps (h : statusResponse env n =
    EStateM.Result.ok response n') : n' = n := by
  have hsame := within_mapM (R := fun s s' => s' = s) (fun _ => rfl)
    (fun _ _ _ h h' => h'.trans h)
    (fun ref (_ : ref ∈ componentRefs n n.router.address) =>
      (fun s => by
        unfold componentStatus
        cases n.findComponent ref with
        | none => rfl
        | some c => rfl :
        Within (fun s s' => s' = s) (componentStatus n ref)))
  unfold statusResponse at h
  rw [run_get_bind] at h
  rcases ok_of_bind h with ⟨statuses, m, hrun, hrest⟩
  have hm := hsame n
  rw [hrun] at hm
  cases hrest
  exact hm

theorem processDeployRequest_ok_iff :
    processDeployRequest env packet n = EStateM.Result.ok response n' <->
      Served env n packet response n' := by
  constructor
  · intro h
    cases hkind : packet.kind with
    | deployConfig =>
        rw [processDeployRequest_deployConfig hkind] at h
        rcases ok_of_bind h with ⟨_, m, hdeploy, hfinish⟩
        rcases finishDeploy_inv hfinish with ⟨hstart, hstop⟩
        rw [finishDeploy_eq _ _ m hstart hstop] at hfinish
        cases hfinish
        exact Served.deployConfig hkind hdeploy hstart
          ((complete_old hdeploy _).mp hstop)
    | start =>
        unfold processDeployRequest at h
        rw [hkind] at h
        simp only [run_get_bind] at h
        rcases ok_of_bind h with ⟨_, m, hstart, hreply⟩
        have hcomplete := complete_of_startRouter hstart
        rw [startRouter_ok env hcomplete] at hstart
        cases hstart
        cases hreply
        exact Served.start hkind hcomplete
    | stop =>
        unfold processDeployRequest at h
        rw [hkind] at h
        simp only [run_get_bind] at h
        rcases ok_of_bind h with ⟨_, m, hstop, hreply⟩
        have hcomplete := complete_of_stopRouter hstop
        rw [stopRouter_ok hcomplete] at hstop
        cases hstop
        cases hreply
        exact Served.stop hkind hcomplete
    | getStatus =>
        unfold processDeployRequest at h
        rw [hkind] at h
        simp only at h
        have hn := statusResponse_keeps h
        subst n'
        exact Served.getStatus hkind h
    | _ =>
        unfold processDeployRequest at h
        rw [hkind] at h
        cases h
  · intro h
    cases h with
    | deployConfig hkind hdeploy hstart hstop =>
        rw [processDeployRequest_deployConfig hkind, bind_ok hdeploy]
        exact finishDeploy_eq _ _ _ hstart ((complete_old hdeploy _).mpr hstop)
    | start hkind hcomplete =>
        unfold processDeployRequest
        rw [hkind]
        simp only [run_get_bind]
        rw [bind_ok (startRouter_ok env hcomplete)]
        rfl
    | stop hkind hcomplete =>
        unfold processDeployRequest
        rw [hkind]
        simp only [run_get_bind]
        rw [bind_ok (stopRouter_ok hcomplete)]
        rfl
    | getStatus hkind hstatus =>
        unfold processDeployRequest
        rw [hkind]
        exact hstatus

def isDispatched (payload : Protocol.Payload) : Bool :=
  match payload with
  | Protocol.Payload.communicationPacket _ => true
  | Protocol.Payload.deployPacket _ => true
  | _ => false

theorem onNewRequest_ok_iff {payload : Protocol.Payload} :
    onNewRequest env payload n = EStateM.Result.ok response n' <->
      isDispatched payload = true ∧
        Served env n payload.asDeployPacket response n' := by
  rw [← processDeployRequest_ok_iff]
  unfold onNewRequest processRequest isDispatched
  cases payload with
  | communicationPacket packet => simp
  | deployPacket packet => simp
  | _ =>
      constructor
      · intro h
        cases h
      · intro h
        rcases h with ⟨h, _⟩
        cases h

end Requests

end Node
end Protort
