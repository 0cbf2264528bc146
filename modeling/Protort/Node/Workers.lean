import Protort.Lib.Interleaving
import Protort.Node.Serving

/-!
# Deployments on worker threads

The service of a node runs on several threads, and each of them may handle a
request.  Only the exchange of the router is atomic: what follows it is a series
of acts on whatever the node has become in the meantime.  An act here is what one
handler does between two points where another may come in between.
-/

namespace Protort
namespace Node

open Lib (Table Threads Run Steps)
open Lib.Exceptions

/-!
## Routers built piece by piece
-/

/-- One turn of one of the two loops of a deployment. -/
inductive Piece where
  | component (comp : Parser.Component)
  | connection (conn : Parser.Connection)

def pieces (conf : Parser.Configuration) : List Piece :=
  conf.components.map Piece.component ++
    conf.connections.map Piece.connection

def Piece.build (env : Platform) (comps : Table String NodeInfo)
    (piece : Piece) : Handler PUnit :=
  match piece with
  | Piece.component comp => deployComponent comps comp
  | Piece.connection conn => deployConnection env comps conn

theorem deployLoops_pieces (env : Platform) (conf : Parser.Configuration) :
    deployLoops env conf =
      (pieces conf).forM (Piece.build env (compToNode conf)) := by
  unfold deployLoops pieces
  simp only [List.forM_eq_forM, List.forM_append, List.forM_map]
  rfl

/-!
## Handlers
-/

/-- How far the handler of a `DeployConfig` request has come. -/
inductive Stage where
  | reading
  | exchanging
  | naming
  | numbering
  | building (comps : Table String NodeInfo) (left : List Piece)
  | starting
  | stopping
  | finished

/-- A handler with its local variables.  The new router is one of them, but is
read again only as a part of the node. -/
structure Handling where
  stage : Stage
  routerPreviousState : Bool
  newRouter : Option Nat
  oldRouter : Nat

def Handling.new : Handling :=
  { stage := Stage.reading
    routerPreviousState := false
    newRouter := none
    oldRouter := 0 }

def Handling.act (env : Platform) (config : Protocol.Deploy.Config)
    (h : Handling) : Handler Handling :=
  match h.stage with
  | Stage.reading => do
      let n ← get
      pure { h with
        stage := Stage.exchanging
        routerPreviousState := n.router.started }
  | Stage.exchanging => do
      let oldRouter ← exchangeRouter
      pure { h with
        stage := Stage.naming
        newRouter := some (oldRouter + 1)
        oldRouter := oldRouter }
  | Stage.naming => do
      modify (fun n => { n with nodeName := config.thisNodeInfo.name })
      pure { h with stage := Stage.numbering }
  | Stage.numbering => do
      modify (fun n => { n with port := config.thisNodeInfo.port })
      match configurationOfPacket config with
      | some conf =>
          pure { h with
            stage := Stage.building (compToNode conf) (pieces conf) }
      | none => throw Fault.assertion
  | Stage.building comps (piece :: left) => do
      piece.build env comps
      pure { h with stage := Stage.building comps left }
  | Stage.building _ [] => do
      let n ← get
      listen env n.port
      pure { h with stage := Stage.starting }
  | Stage.starting => do
      if h.routerPreviousState then
        let n ← get
        startRouter env n.router.address
      pure { h with stage := Stage.stopping }
  | Stage.stopping => do
      stopRouter h.oldRouter
      pure { h with stage := Stage.finished }
  | Stage.finished => pure h

/-- What is left of `process_deploy_request`. -/
def Handling.remaining (env : Platform) (config : Protocol.Deploy.Config)
    (h : Handling) : Handler Protocol.Payload :=
  match h.stage with
  | Stage.reading => do
      let n ← get
      let oldRouter ← exchangeRouter
      deployFromPacket env config
      finishDeploy env n.router.started oldRouter
  | Stage.exchanging => do
      let oldRouter ← exchangeRouter
      deployFromPacket env config
      finishDeploy env h.routerPreviousState oldRouter
  | Stage.naming => do
      deployFromPacket env config
      finishDeploy env h.routerPreviousState h.oldRouter
  | Stage.numbering => do
      modify (fun n => { n with port := config.thisNodeInfo.port })
      match configurationOfPacket config with
      | some conf => deployFromConfig env conf
      | none => throw Fault.assertion
      finishDeploy env h.routerPreviousState h.oldRouter
  | Stage.building comps left => do
      left.forM (Piece.build env comps)
      let n ← get
      listen env n.port
      finishDeploy env h.routerPreviousState h.oldRouter
  | Stage.starting => finishDeploy env h.routerPreviousState h.oldRouter
  | Stage.stopping => do
      stopRouter h.oldRouter
      pure default
  | Stage.finished => pure default

theorem act_remaining (env : Platform) (config : Protocol.Deploy.Config)
    (h : Handling) :
    (h.act env config >>= Handling.remaining env config) =
      h.remaining env config := by
  rcases h with ⟨stage, wasStarted, newRouter, oldRouter⟩
  unfold Handling.act Handling.remaining
  cases stage with
  | reading => rfl
  | exchanging => rfl
  | naming =>
      unfold deployFromPacket
      simp only [bind_assoc, pure_bind]
      funext n
      cases configurationOfPacket config with
      | none => rfl
      | some conf => rfl
  | numbering =>
      cases configurationOfPacket config with
      | none => rfl
      | some conf =>
          simp only [bind_assoc, pure_bind, deployFromConfig_eq,
            deployLoops_pieces]
  | building comps left =>
      cases left with
      | nil =>
          simp only [bind_assoc, pure_bind]
          rfl
      | cons piece left =>
          have hforM : (piece :: left).forM (Piece.build env comps) =
              (piece.build env comps >>= fun _ =>
                left.forM (Piece.build env comps)) := rfl
          simp only [hforM, bind_assoc, pure_bind]
  | starting =>
      cases wasStarted with
      | true =>
          unfold finishDeploy
          simp only [bind_assoc, pure_bind, if_true]
      | false => rfl
  | stopping => simp only [bind_assoc, pure_bind]
  | finished => rfl

theorem remaining_new (env : Platform) {packet : Protocol.Deploy.Packet}
    (hkind : packet.kind = Protocol.Deploy.PacketKind.deployConfig) :
    Handling.new.remaining env packet.request.deployConfigRequest.config =
      processDeployRequest env packet := by
  unfold processDeployRequest
  rw [hkind]
  rfl

inductive Acted (env : Platform) (config : Protocol.Deploy.Config)
    (h : Handling) (n : Protort.Node) : Handling -> Protort.Node -> Prop where
  | reading : h.stage = Stage.reading ->
      Acted env config h n
        { h with
          stage := Stage.exchanging
          routerPreviousState := n.router.started } n
  | exchanging : h.stage = Stage.exchanging ->
      Acted env config h n
        { h with
          stage := Stage.naming
          newRouter := some (n.router.address + 1)
          oldRouter := n.router.address } n.exchanged
  | naming : h.stage = Stage.naming ->
      Acted env config h n { h with stage := Stage.numbering }
        { n with nodeName := config.thisNodeInfo.name }
  | numbering (conf : Parser.Configuration) : h.stage = Stage.numbering ->
      configurationOfPacket config = some conf ->
      Acted env config h n
        { h with stage := Stage.building (compToNode conf) (pieces conf) }
        { n with port := config.thisNodeInfo.port }
  | building (comps : Table String NodeInfo) (piece : Piece)
      (left : List Piece) (n' : Protort.Node) :
      h.stage = Stage.building comps (piece :: left) ->
      piece.build env comps n = EStateM.Result.ok PUnit.unit n' ->
      Acted env config h n { h with stage := Stage.building comps left } n'
  | listening (comps : Table String NodeInfo) :
      h.stage = Stage.building comps [] ->
      Acted env config h n { h with stage := Stage.starting }
        { n with
          server := { isOpen := true, listening := some n.port.toUInt16 } }
  | starting : h.stage = Stage.starting ->
      Acted env config h n { h with stage := Stage.stopping }
        (restarted env h.routerPreviousState n)
  | stopping : h.stage = Stage.stopping ->
      Acted env config h n { h with stage := Stage.finished }
        (switchRouter Switch.stop h.oldRouter n)
  | finished : h.stage = Stage.finished -> Acted env config h n h n

section Acts

variable {env : Platform} {config : Protocol.Deploy.Config}
  {h h' : Handling} {n n' : Protort.Node}

theorem act_stopping (hstage : h.stage = Stage.stopping)
    (hact : h.act env config n = EStateM.Result.ok h' n') :
    h' = { h with stage := Stage.finished } ∧
      n' = switchRouter Switch.stop h.oldRouter n := by
  unfold Handling.act at hact
  rw [hstage] at hact
  rcases ok_of_bind hact with ⟨_, m, hstop, hrest⟩
  rw [stopRouter_ok (complete_of_stopRouter hstop)] at hstop
  cases hstop
  cases hrest
  exact ⟨rfl, rfl⟩

theorem act_cases (hact : h.act env config n = EStateM.Result.ok h' n') :
    Acted env config h n h' n' := by
  have hstopped := fun hstage => act_stopping hstage hact
  unfold Handling.act at hact
  cases hstage : h.stage with
  | reading =>
      rw [hstage] at hact
      cases hact
      exact Acted.reading hstage
  | exchanging =>
      rw [hstage] at hact
      cases hact
      exact Acted.exchanging hstage
  | naming =>
      rw [hstage] at hact
      cases hact
      exact Acted.naming hstage
  | numbering =>
      rw [hstage] at hact
      cases hconf : configurationOfPacket config with
      | none =>
          rw [hconf] at hact
          cases hact
      | some conf =>
          rw [hconf] at hact
          cases hact
          exact Acted.numbering conf hstage hconf
  | building comps left =>
      rw [hstage] at hact
      cases left with
      | nil =>
          simp only [run_get_bind] at hact
          rcases ok_of_bind hact with ⟨_, m, hlisten, hrest⟩
          by_cases hbind : env.bind n.port.toUInt16 = true
          · rw [listen_ok hbind] at hlisten
            cases hlisten
            cases hrest
            exact Acted.listening comps hstage
          · rw [listen_bad hbind] at hlisten
            cases hlisten
      | cons piece left =>
          rcases ok_of_bind hact with ⟨_, m, hbuild, hrest⟩
          cases hrest
          exact Acted.building comps piece left _ hstage hbuild
  | starting =>
      rw [hstage] at hact
      have hacted := @Acted.starting env config h n hstage
      unfold restarted at hacted
      cases hprevious : h.routerPreviousState with
      | true =>
          rw [hprevious] at hact hacted
          simp only [if_true, run_get_bind] at hact
          rcases ok_of_bind hact with ⟨_, m, hstart, hrest⟩
          rw [startRouter_ok env (complete_of_startRouter hstart)] at hstart
          cases hstart
          cases hrest
          exact hacted
      | false =>
          rw [hprevious] at hact hacted
          cases hact
          exact hacted
  | stopping =>
      rcases hstopped hstage with ⟨rfl, rfl⟩
      exact Acted.stopping hstage
  | finished =>
      rw [hstage] at hact
      cases hact
      exact Acted.finished hstage

theorem Acted.of_finished (hacted : Acted env config h n h' n')
    (hfinished : h'.stage = Stage.finished) :
    h.stage = Stage.stopping ∨ h.stage = Stage.finished := by
  cases hacted with
  | stopping hstage => exact Or.inl hstage
  | finished hstage => exact Or.inr hstage
  | _ => cases hfinished

end Acts

/-!
## Two handlers
-/

abbrev Workers : Type := Threads Bool Handling Protort.Node

def Workers.new (n : Protort.Node) : Workers :=
  { shared := n
    place := fun _ => Handling.new }

/-- An act of one of the handlers, with what the platform has for it. -/
def Workers.step (configs : Bool -> Protocol.Deploy.Config) :
    Workers -> Bool × Platform -> Option Workers :=
  Threads.step (fun i env h => h.act env (configs i))

theorem step_acts {configs : Bool -> Protocol.Deploy.Config}
    {s t : Workers} {i : Bool} {env : Platform}
    (h : Workers.step configs s (i, env) = some t) :
    (s.place i).act env (configs i) s.shared =
        EStateM.Result.ok (t.place i) t.shared ∧
      t.place (!i) = s.place (!i) := by
  constructor
  · rcases Threads.step_eq_some.mp h with ⟨next, hact, hplace⟩
    rw [hplace, Function.update_self]
    exact hact
  · exact Threads.place_of_ne h (Bool.not_ne_self i)

/-- A handler that nothing comes in between of does what the request does. -/
theorem processes_of_alone {configs : Bool -> Protocol.Deploy.Config}
    {packet : Protocol.Deploy.Packet}
    (hkind : packet.kind = Protocol.Deploy.PacketKind.deployConfig)
    {n : Protort.Node} {s : Workers} {i : Bool} {env : Platform}
    {events : List (Bool × Platform)}
    (hrun : Run (Steps (Workers.step configs)) (Workers.new n) events s)
    (halone : forall event, event ∈ events -> event = (i, env))
    (hconfig : configs i = packet.request.deployConfigRequest.config)
    (hfinished : (s.place i).stage = Stage.finished) :
    processDeployRequest env packet n =
      EStateM.Result.ok default s.shared := by
  have hact : forall h : Handling,
      (h.act env (configs i) >>= Handling.remaining env (configs i)) =
        h.remaining env (configs i) := act_remaining env (configs i)
  have hremaining := @Threads.remaining_of_alone _ _ _ _ _ _ _
    (fun i env (h : Handling) => h.act env (configs i)) _ i env hact _ _ _
    hrun halone
  rw [← remaining_new env hkind, ← hconfig]
  refine hremaining.symm.trans ?_
  unfold Handling.remaining
  rw [hfinished]
  rfl

end Node
end Protort
