import Mathlib.Algebra.BigOperators.Group.List.Basic
import Protort.Node.Acceptance
import Protort.Node.Draining
import Protort.Node.Silence

/-!
# What a node counts

The counters of the current router and of its components, and how each event
other than a deployment changes them: messages count when they are handed to a
client and when they arrive, whatever becomes of them, and a packet counts for
the component that processes it.
-/

namespace Protort
namespace Node

open Lib (Bytes Table)
open Lib.Exceptions
open Components (Component Output Origin)

structure Counters where
  inBytes : UInt32
  outBytes : UInt32
  inPackets : UInt32
  outPackets : UInt32
deriving DecidableEq, Repr

def Router.counters (r : Router) : Counters :=
  { inBytes := r.inBytes
    outBytes := r.outBytes
    inPackets := r.inPackets
    outPackets := r.outPackets }

/-- The size of some messages, as far as a 32-bit counter sees it. -/
def bytesOf (env : Platform) (messages : List Outgoing) : UInt32 :=
  (messages.map (fun m => env.byteSize m.payload)).sum

namespace Counters

def sent (env : Platform) (messages : List Outgoing) (k : Counters) :
    Counters :=
  { k with
    outBytes := k.outBytes + bytesOf env messages
    outPackets := k.outPackets + UInt32.ofNat messages.length }

def received (env : Platform) (payload : Protocol.Payload) (k : Counters) :
    Counters :=
  { k with
    inBytes := k.inBytes + env.byteSize payload
    inPackets := k.inPackets + 1 }

theorem sent_nil (env : Platform) (k : Counters) : k.sent env [] = k := by
  have hzero : UInt32.ofNat 0 = 0 := rfl
  unfold sent bytesOf
  simp only [List.map_nil, List.sum_nil, List.length_nil, hzero, add_zero]

theorem sent_append (env : Platform) (xs ys : List Outgoing) (k : Counters) :
    k.sent env (xs ++ ys) = (k.sent env xs).sent env ys := by
  unfold sent bytesOf
  simp only [List.map_append, List.sum_append, List.length_append,
    UInt32.ofNat_add, add_assoc]

end Counters

def Event.isDeployment (event : Event) : Bool :=
  match event with
  | Event.request _ payload => decide
      (payload.asDeployPacket.kind = Protocol.Deploy.PacketKind.deployConfig)
  | _ => false

/-- One for a call of `do_process` on a component of the current router. -/
def processed (c : String) (n : Protort.Node) (event : Event) : Nat :=
  match event with
  | Event.run _ index =>
      match n.service[index]? with
      | some (Task.doProcess ref _ _ _) =>
          if ref = ⟨n.router.address, c⟩ then 1 else 0
      | _ => 0
  | _ => 0

/-- The packets that `do_route` dispatches from a component of the current
router. -/
def dispatched (c : String) (n : Protort.Node) (event : Event) : Nat :=
  match event with
  | Event.run env index =>
      match n.service[index]? with
      | some (Task.doRoute address (some name) outputs) =>
          if address = n.router.address ∧ name = c then
            (n.router.doRoute env name outputs).2.length
          else
            0
      | _ => 0
  | _ => 0

/-!
## Sending
-/

theorem sends_append (xs ys : List Effect) :
    sends (xs ++ ys) = sends xs ++ sends ys :=
  List.filterMap_append

namespace Router

/-- What the counters of a router show of the messages among some effects. -/
def CountsSends (env : Platform) (r : Router)
    (result : Router × List Effect) : Prop :=
  result.1.counters = r.counters.sent env (sends result.2)

theorem CountsSends.nil (env : Platform) (r : Router) :
    CountsSends env r (r, []) :=
  (Counters.sent_nil env r.counters).symm

theorem CountsSends.append {env : Platform} {r r1 r2 : Router}
    {e1 e2 : List Effect} (h1 : CountsSends env r (r1, e1))
    (h2 : CountsSends env r1 (r2, e2)) :
    CountsSends env r (r2, e1 ++ e2) := by
  unfold CountsSends at *
  rw [sends_append, Counters.sent_append, ← h1]
  exact h2

/-- Every remote route of a port is one message, and counted as one. -/
theorem routePort_countsSends (env : Platform) (c : String) (payload : Bytes)
    (r : Router) (port : Parser.PortId) :
    CountsSends env r (routePort env c payload r port) := by
  unfold CountsSends routePort
  simp only
  rw [sends_append]
  have hposts : forall routes : List LocalRoute, sends (routes.map (fun route =>
      Effect.post (Task.doProcess ⟨r.address, route.component⟩
        (some ⟨(Table.get r.components c).name,
          (Table.get r.components c).emitted.length⟩) route.inPort
            payload))) = [] := by
    intro routes
    unfold sends
    rw [List.filterMap_map]
    exact List.filterMap_eq_nil_iff.mpr (fun _ _ => rfl)
  have hsends : forall packets : List (Client × Protocol.Payload),
      sends (packets.map (fun packet => Effect.send packet.1
        ⟨(Table.get r.components c).name,
          (Table.get r.components c).emitted.length⟩ packet.2)) =
      packets.map (fun packet => ⟨packet.1,
        ⟨(Table.get r.components c).name,
          (Table.get r.components c).emitted.length⟩, packet.2⟩) := by
    intro packets
    unfold sends
    rw [List.filterMap_map]
    exact congrFun List.filterMap_eq_map' packets
  rw [hposts, hsends, List.nil_append]
  unfold Counters.sent bytesOf counters
  simp only [List.map_map, List.length_map]
  rfl

theorem routeOutput_countsSends (env : Platform) (c : String)
    (output : Output) (r : Router) :
    CountsSends env r (routeOutput env c output r) :=
  List.foldlRecOn _ _ (CountsSends.nil env r)
    (fun acc hacc port _ => CountsSends.append hacc
      (routePort_countsSends env c output.payload acc.1 port))

theorem doRoute_countsSends (env : Platform) (r : Router) (c : String)
    (outputs : List Output) : CountsSends env r (r.doRoute env c outputs) := by
  unfold doRoute
  by_cases hstarted : r.started = true
  · rw [if_pos hstarted]
    exact List.foldlRecOn _ _ (CountsSends.nil env r)
      (fun acc hacc output _ => CountsSends.append hacc
        (routeOutput_countsSends env c output acc.1))
  · rw [if_neg hstarted]
    exact CountsSends.nil env r

theorem objectAt_doRoute (env : Platform) {r : Router} {c : String}
    (hc : c ∈ r.components) (outputs : List Output) (d : String) :
    (r.doRoute env c outputs).1.objectAt d = r.objectAt d := by
  by_cases hstarted : r.started = true
  · exact (doRoute_sent env hstarted hc outputs).objects d
  · unfold doRoute
    rw [if_neg hstarted]

end Router

/-!
## The current router
-/

section Current

variable {env : Platform} {n n' : Protort.Node}

theorem counters_setComponent (r : Router) (name : String) (c : Component) :
    (Router.setComponent r name c).counters = r.counters :=
  rfl

theorem router_updateRouter_ne {r : Router}
    (h : n.router.address ≠ r.address) :
    (n.updateRouter r).router = n.router := by
  unfold updateRouter
  rw [if_neg h]

theorem counters_updateComponent (n : Protort.Node) (ref : ComponentRef)
    (c : Component) :
    (n.updateComponent ref c).router.counters = n.router.counters := by
  cases hr : n.findRouter ref.router with
  | none =>
      unfold updateComponent
      rw [hr]
  | some r =>
      rw [updateComponent_eq hr]
      by_cases hcurrent : n.router.address = r.address
      · rw [updateRouter_current (by exact hcurrent.symm)]
        have haddress := address_of_findRouter hr
        rw [← haddress, ← hcurrent, findRouter_current] at hr
        rcases Option.some.inj hr with rfl
        exact counters_setComponent _ _ _
      · rw [router_updateRouter_ne (by exact hcurrent)]

theorem counters_setStarted (address : Nat) (started : Bool)
    (n : Protort.Node) :
    (setStarted address started n).router.counters = n.router.counters := by
  unfold setStarted
  cases hr : n.findRouter address with
  | none => rfl
  | some r =>
      by_cases hcurrent : n.router.address = r.address
      · simp only
        rw [updateRouter_current (by exact hcurrent.symm)]
        have haddress := address_of_findRouter hr
        rw [← haddress, ← hcurrent, findRouter_current] at hr
        rcases Option.some.inj hr with rfl
        rfl
      · simp only
        rw [router_updateRouter_ne (by exact hcurrent)]

theorem counters_switchRouter (w : Switch) (address : Nat)
    (n : Protort.Node) :
    (switchRouter w address n).router.counters = n.router.counters := by
  have hflag : forall (m : Protort.Node) (ref : ComponentRef),
      (w.setFlag m ref).router.counters = m.router.counters := by
    intro m ref
    unfold Switch.setFlag
    cases m.findComponent ref with
    | none => rfl
    | some c =>
        simp only
        by_cases hgen : c.isGenerator = true
        · rw [if_pos hgen, counters_updateComponent]
        · rw [if_neg hgen]
  unfold switchRouter Switch.flagged
  rw [router_performAll]
  generalize componentRefs n address = refs
  rw [← counters_setStarted address w.started n]
  generalize setStarted address w.started n = m
  induction refs generalizing m with
  | nil => rfl
  | cons ref rest ih => exact (ih (w.setFlag m ref)).trans (hflag m ref)

theorem inPacketCount_eq (n : Protort.Node) (d : String) :
    inPacketCount n d =
      match n.findComponent ⟨n.router.address, d⟩ with
      | some c => c.inPacketCount
      | none => 0 := by
  rw [findComponent_eq_bind, findRouter_current]
  rfl

theorem inPacketCount_switched {w : Switch} (c : Component) :
    (w.switched c).inPacketCount = c.inPacketCount := by
  unfold Switch.switched
  split_ifs <;> rfl

theorem inPacketCount_switchRouter (w : Switch) (n : Protort.Node)
    (d : String) :
    inPacketCount (switchRouter w n.router.address n) d =
      inPacketCount n d := by
  have hspec := switchRouter_spec w n.router.address n
  rcases hspec.router n.router (findRouter_current n) with
    ⟨r', hr', _, hobjects⟩
  unfold inPacketCount
  rw [router_of_find hspec.current hr', hobjects]
  cases n.router.objectAt d with
  | none => rfl
  | some c => exact inPacketCount_switched c

/-- Outputs are sent by the current router only: a router that was replaced is
stopped and drops them. -/
theorem doRoute_current {address : Nat} {r : Router} {name : String}
    (hold : OldStopped n) (hr : n.findRouter address = some r)
    (hname : name ∈ r.components) (env : Platform) (outputs : List Output) :
    (n.updateRouter (r.doRoute env name outputs).1).router =
        (if address = n.router.address then
          (n.router.doRoute env name outputs).1 else n.router) ∧
      (r.doRoute env name outputs).2 =
        (if address = n.router.address then
          (n.router.doRoute env name outputs).2 else []) ∧
      forall d, (n.updateRouter
        (r.doRoute env name outputs).1).router.objectAt d =
          n.router.objectAt d := by
  have htable := (Router.doRoute_sameFlags env hname outputs).table
  have haddress := address_of_findRouter hr
  by_cases hcurrent : address = n.router.address
  · rw [if_pos hcurrent, if_pos hcurrent]
    rw [updateRouter_current
      (htable.address.trans (haddress.trans hcurrent))]
    rw [hcurrent, findRouter_current] at hr
    rcases Option.some.inj hr with rfl
    exact ⟨rfl, rfl, Router.objectAt_doRoute env hname outputs⟩
  · have hrouter : (n.updateRouter (r.doRoute env name outputs).1).router =
        n.router := by
      apply router_updateRouter_ne
      rw [htable.address, haddress]
      exact Ne.symm hcurrent
    rw [if_neg hcurrent, if_neg hcurrent, hrouter]
    refine ⟨rfl, ?_, fun _ => rfl⟩
    unfold Router.doRoute
    rw [if_neg (Bool.eq_false_iff.mp (hold address r hcurrent hr))]

/-!
## Events
-/

theorem run_counters {index : Nat} (hn : Consistent n)
    (hstep : step n (Event.run env index) = some n') :
    exists messages, n'.outbox = n.outbox ++ messages ∧
      n'.router.counters = n.router.counters.sent env messages := by
  have hquiet : forall m : Protort.Node, forall effects,
      sends effects = [] -> m.outbox = n.outbox ->
      m.router.counters = n.router.counters ->
        exists messages, (m.performAll effects).outbox =
            n.outbox ++ messages ∧
          (m.performAll effects).router.counters =
            n.router.counters.sent env messages := by
    intro m effects hsends houtbox hcounters
    exists []
    rw [outbox_performAll, router_performAll, hsends, houtbox, hcounters,
      Counters.sent_nil]
    exact ⟨rfl, rfl⟩
  rcases step_run hstep with ⟨task, hget, hrun⟩
  have hsound : TaskSound { n with service := n.service.eraseIdx index }
      task := hn.sound.tasks task (List.mem_of_getElem? hget)
  cases task with
  | doProcess ref origin inPort payload =>
      rcases hsound with ⟨c, hc⟩
      rw [runTask_doProcess env hc] at hrun
      cases hrun
      refine hquiet _ _ ?_ (outbox_updateComponent _ _ _)
        (counters_updateComponent _ _ _)
      rcases processEffects_cases env c inPort payload with
        hnone | ⟨outputs, _, hone⟩
      · rw [hnone]
        rfl
      · rw [hone]
        rfl
  | doRoute address compInst outputs =>
      rcases hsound with ⟨r, name, hr, rfl, hname⟩
      rw [runTask_doRoute env hr] at hrun
      cases hrun
      have hold : OldStopped { n with
          service := n.service.eraseIdx index } := hn.oldStopped
      rcases doRoute_current hold hr hname env outputs with
        ⟨hrouter, heffects, _⟩
      rw [outbox_performAll, router_performAll, outbox_updateRouter, hrouter,
        heffects]
      refine ⟨_, rfl, ?_⟩
      by_cases hcurrent : address = n.router.address
      · rw [if_pos hcurrent, if_pos hcurrent]
        exact Router.doRoute_countsSends env n.router name outputs
      · rw [if_neg hcurrent, if_neg hcurrent]
        exact (Counters.sent_nil env n.router.counters).symm
  | generate ref =>
      rcases hsound with ⟨c, hc, _⟩
      rw [runTask_generate env hc] at hrun
      cases hrun
      exact hquiet _ _ (sends_generateEffects env ref c) rfl rfl
  | timerWait ref cancelled =>
      rcases hsound with ⟨c, hc, _⟩
      rw [runTask_timerWait env hc] at hrun
      cases hrun
      exact hquiet _ _ (sends_generateEffects env ref c) rfl rfl

theorem message_counters {origin : Option Origin}
    {payload : Protocol.Payload}
    (hstep : step n (Event.message env origin payload) = some n') :
    n'.outbox = n.outbox ∧
      n'.router.counters = n.router.counters.received env payload ∧
      forall c, n'.router.objectAt c = n.router.objectAt c := by
  have houtbox : n'.outbox = n.outbox := by
    rcases message_spec hstep with ⟨m, _, _, houtbox, rfl⟩
    rw [outbox_performAll, sends_messageEffects, List.append_nil, houtbox]
  unfold step at hstep
  rcases returned_eq_some.mp hstep with ⟨_, hrun⟩
  unfold onNewMessage at hrun
  simp only [run_modify, Router.route_fst] at hrun
  cases hrun
  rw [router_performAll]
  exact ⟨houtbox, rfl, fun _ => rfl⟩

theorem request_counts {payload : Protocol.Payload}
    (hkept : (Event.request env payload).isDeployment = false)
    (hstep : step n (Event.request env payload) = some n') :
    n'.outbox = n.outbox ∧ n'.router.counters = n.router.counters ∧
      forall c, inPacketCount n' c = inPacketCount n c := by
  rcases returned_eq_some.mp hstep with ⟨response, hrun⟩
  cases (onNewRequest_ok_iff.mp hrun).right with
  | deployConfig hkind _ _ _ => exact absurd hkind (of_decide_eq_false hkept)
  | start _ _ =>
      exact ⟨outbox_start env _ n, counters_switchRouter _ _ n,
        inPacketCount_switchRouter _ n⟩
  | stop _ _ =>
      exact ⟨outbox_stop _ n, counters_switchRouter _ _ n,
        inPacketCount_switchRouter _ n⟩
  | getStatus _ _ => exact ⟨rfl, rfl, fun _ => rfl⟩

theorem run_inPacketCount {index : Nat} (hn : Consistent n)
    (hstep : step n (Event.run env index) = some n') (d : String) :
    inPacketCount n' d =
      inPacketCount n d +
        UInt32.ofNat (processed d n (Event.run env index)) := by
  have hzero : UInt32.ofNat 0 = 0 := rfl
  rcases step_run hstep with ⟨task, hget, hrun⟩
  have hsound : TaskSound { n with service := n.service.eraseIdx index }
      task := hn.sound.tasks task (List.mem_of_getElem? hget)
  unfold processed
  simp only [hget]
  cases task with
  | doProcess ref origin inPort payload =>
      rcases hsound with ⟨c, hc⟩
      rw [runTask_doProcess env hc] at hrun
      cases hrun
      have hcurrent := (@updateComponent_worked _ ref c
        (c.doProcess env origin inPort payload).1 hc rfl rfl).current
      rw [inPacketCount_performAll, inPacketCount_eq, hcurrent,
        findComponent_updateComponent hc, inPacketCount_eq]
      have hc' : n.findComponent ref = some c := hc
      by_cases href : ref = ⟨n.router.address, d⟩
      · rw [if_pos href.symm, ← href, hc']
        simp only [if_true]
        rfl
      · rw [if_neg (Ne.symm href)]
        simp only [if_neg href]
        rw [hzero, add_zero]
        rfl
  | doRoute address compInst outputs =>
      rcases hsound with ⟨r, name, hr, rfl, hname⟩
      rw [runTask_doRoute env hr] at hrun
      cases hrun
      have hold : OldStopped { n with
          service := n.service.eraseIdx index } := hn.oldStopped
      rw [inPacketCount_performAll, hzero, add_zero]
      unfold inPacketCount
      rw [(doRoute_current hold hr hname env outputs).right.right]
  | generate ref =>
      rcases hsound with ⟨c, hc, _⟩
      rw [runTask_generate env hc] at hrun
      cases hrun
      rw [inPacketCount_performAll, hzero, add_zero]
      rfl
  | timerWait ref cancelled =>
      rcases hsound with ⟨c, hc, _⟩
      rw [runTask_timerWait env hc] at hrun
      cases hrun
      rw [inPacketCount_performAll, hzero, add_zero]
      rfl

/-- What an event adds to the packets of a component is what it processes. -/
theorem step_inPacketCount {event : Event} (hn : Consistent n)
    (hkept : event.isDeployment = false) (hstep : step n event = some n')
    (d : String) :
    inPacketCount n' d =
      inPacketCount n d + UInt32.ofNat (processed d n event) := by
  have hzero : UInt32.ofNat 0 = 0 := rfl
  cases event with
  | request env payload =>
      unfold processed
      rw [(request_counts hkept hstep).right.right d, hzero, add_zero]
  | message env origin payload =>
      unfold processed inPacketCount
      rw [(message_counters hstep).right.right d, hzero, add_zero]
  | run env index => exact run_inPacketCount hn hstep d

theorem step_table {event : Event} (hn : Consistent n)
    (hkept : event.isDeployment = false) (hstep : step n event = some n') :
    Router.SameTable { n.router with started := n'.router.started }
      n'.router := by
  have hworked : Worked n n' -> Router.SameTable
      { n.router with started := n'.router.started } n'.router := by
    intro h
    rcases h.routers _ _ (findRouter_current n) with ⟨r', hr', hsame⟩
    rw [router_of_find h.current hr']
    have hstarted : r'.started = n.router.started := hsame.table.started
    rw [hstarted]
    exact hsame.table
  have hswitched : forall w : Switch, n' = switchRouter w n.router.address n ->
      Router.SameTable { n.router with started := n'.router.started }
        n'.router := by
    intro w heq
    have hspec := switchRouter_spec w n.router.address n
    rcases hspec.router _ (findRouter_current n) with ⟨r', hr', htable, _⟩
    rw [heq, router_of_find hspec.current hr']
    have hstarted : r'.started = w.started := htable.started
    rw [hstarted]
    exact htable
  cases event with
  | request env payload =>
      rcases returned_eq_some.mp hstep with ⟨response, hrun⟩
      cases (onNewRequest_ok_iff.mp hrun).right with
      | deployConfig hkind _ _ _ =>
          exact absurd hkind (of_decide_eq_false hkept)
      | start _ _ => exact hswitched _ rfl
      | stop _ _ => exact hswitched _ rfl
      | getStatus _ _ => exact Router.SameTable.refl n.router
  | message env origin payload =>
      rcases message_spec hstep with ⟨m, hm, _, _, rfl⟩
      exact hworked (hm.trans (performAll_worked m _))
  | run env index =>
      rcases run_spec hn.sound hstep with
        ⟨_, effects, m, _, _, _, _, hm, _, _, rfl⟩
      exact hworked (hm.trans (performAll_worked m effects))

theorem full_of_sameTable {r r' : Router}
    (h : Router.SameTable { r with started := r'.started } r') :
    r'.Full <-> r.Full := by
  have hviews : forall c, (r'.objectAt c).map viewObject =
      (r.objectAt c).map viewObject := h.objects
  have hsome : forall c, (exists object, r'.objectAt c = some object) <->
      exists object, r.objectAt c = some object := by
    intro c
    rw [← Option.isSome_iff_exists, ← Option.isSome_iff_exists,
      ← Option.isSome_map (f := viewObject), hviews, Option.isSome_map]
  unfold Router.Full
  refine forall_congr' fun c => ?_
  rw [hsome c]
  exact imp_congr_left (h.mem c)

end Current

/-!
## Deployments
-/

def JustDeployed (n : Protort.Node) : Prop :=
  exists m env payload, Reachable m ∧
    (Event.request env payload).isDeployment = true ∧
    step m (Event.request env payload) = some n

section Deployments

variable {env : Platform} {conf : Parser.Configuration} {n n' : Protort.Node}

theorem deployLoops_counters (hrun : deployLoops env conf n =
    EStateM.Result.ok PUnit.unit n') :
    n'.router.counters = n.router.counters := by
  rcases ok_of_bind hrun with ⟨_, n1, hcomponents, hconnections⟩
  have h1 : n1.router.counters = n.router.counters :=
    forM_keeps (fun m => m.router.counters = n.router.counters)
      (fun comp m m' hm hstep => by
        cases deployComponent_cases hstep with
        | _ => exact hm)
      rfl hcomponents
  exact forM_keeps (fun m => m.router.counters = n.router.counters)
    (fun conn m m' hm hstep => by
      cases deployConnection_cases hstep with
      | _ => exact hm)
    h1 hconnections

theorem deployLoops_uncounted
    (h : n.router.Holds (fun _ _ object => object.inPacketCount = 0))
    (hrun : deployLoops env conf n = EStateM.Result.ok PUnit.unit n') :
    n'.router.Holds (fun _ _ object => object.inPacketCount = 0) := by
  rcases ok_of_bind hrun with ⟨_, n1, hcomponents, hconnections⟩
  have h1 : n1.router.Holds (fun _ _ object => object.inPacketCount = 0) :=
    forM_keeps (fun m => m.router.Holds
        (fun _ _ object => object.inPacketCount = 0))
      (fun comp m m' hm hstep => by
        cases deployComponent_cases hstep with
        | here kind _ _ => exact hm.insert rfl
        | elsewhere _ => exact hm)
      h hcomponents
  exact forM_keeps (fun m => m.router.Holds
      (fun _ _ object => object.inPacketCount = 0))
    (fun conn m m' hm hstep => deployConnection_holds hm hstep)
    h1 hconnections

theorem deployFromPacket_uncounted {config : Protocol.Deploy.Config}
    (hdeploy : deployFromPacket env config n.exchanged =
      EStateM.Result.ok PUnit.unit n') :
    n'.router.counters = ⟨0, 0, 0, 0⟩ ∧ forall c, inPacketCount n' c = 0 := by
  rcases deployFromPacket_ok_iff.mp hdeploy with
    ⟨conf, loops, _, hloops, _, rfl⟩
  have hempty : Router.Holds (fun _ _ object => object.inPacketCount = 0)
      (Router.new (n.router.address + 1)) :=
    ⟨fun _ _ h => absurd h nofun,
      fun _ _ _ h => absurd h List.not_mem_nil⟩
  have hholds := deployLoops_uncounted (n := named _ n.exchanged) hempty hloops
  have hcounters : loops.router.counters = ⟨0, 0, 0, 0⟩ :=
    deployLoops_counters (n := named _ n.exchanged) hloops
  have hcount : forall c, inPacketCount loops c = 0 := by
    intro c
    unfold inPacketCount
    cases hobject : loops.router.objectAt c with
    | none => rfl
    | some object => exact hholds.objects c object hobject
  exact ⟨hcounters, hcount⟩

theorem JustDeployed.uncounted (h : JustDeployed n) :
    Consistent n ∧ n.router.counters = ⟨0, 0, 0, 0⟩ ∧
      forall c, inPacketCount n c = 0 := by
  rcases h with ⟨m, env, payload, hm, hdeployment, hstep⟩
  refine ⟨step_consistent hstep hm.consistent, ?_⟩
  rcases returned_eq_some.mp hstep with ⟨response, hrun⟩
  rcases (onNewRequest_ok_iff.mp hrun).right.of_deployConfig
    (of_decide_eq_true hdeployment) with ⟨k, hdeploy, rfl⟩
  have hbuilt := deployFromPacket_rebuilt (Unstarted.empty m) hdeploy
  rcases deployFromPacket_uncounted hdeploy with ⟨hcounters, hcount⟩
  -- stopping the old router does not reach the new one
  have hrouter := (hbuilt.replaced env m.router.started).left
  unfold inPacketCount
  rw [hrouter]
  unfold restarted
  cases m.router.started with
  | true =>
      exact ⟨(counters_switchRouter _ _ _).trans hcounters,
        fun c => (inPacketCount_switchRouter _ _ c).trans (hcount c)⟩
  | false => exact ⟨hcounters, hcount⟩

end Deployments

end Node
end Protort
