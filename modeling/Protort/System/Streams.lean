import Mathlib.Data.Fintype.Basic
import Protort.System.Fifo
import Protort.System.Machines

/-!
# Components as functions of streams

While the packets of every connection keep their order, a component with one
connection into it makes one stream of another, and a row of such components
makes at its end what the composition of their functions makes of the stream at
its beginning, in whatever order the nodes take their turns.  The streams are of
the structures in the packets: what stands between their fields may differ from
one packet to the next.
-/

namespace Protort
namespace System

open Lib (Bytes ByteOrder Run Steps Guarded)
open Components (Component Data Output Readable)

namespace Nodes

open Node (Via Job Tracked Following Stays Task Effect Outgoing RemoteRoute)

universe u

/-!
## What a component makes of a packet
-/

def givenBy (address : Nat) (name : String) :
    Task -> List (Parser.PortId × Bytes)
  | Task.doProcess ref _ inPort payload =>
      if ref = ⟨address, name⟩ then [(inPort, payload)] else []
  | _ => []

def givenTo (t : Tracked) (address : Nat) (name : String) :
    List (Parser.PortId × Bytes) :=
  t.ran.flatMap (fun job => givenBy address name job.1)

theorem stage_congr {c c' : Component} (h : c'.kind = c.kind)
    (scale : UInt32 -> UInt32) (inPort port : Parser.PortId) :
    stage scale c' inPort port = stage scale c inPort port := by
  unfold stage
  rw [h]

section Tasks

variable {order : ByteOrder} {scale : UInt32 -> UInt32} {env : Platform}
  {n : Protort.Node} {name : String} {c : Component} {port : Parser.PortId}

/-- A component that is found under a name is the one that is deployed there, up
to its counters. -/
def DeployedAt (n : Protort.Node) (name : String) (c : Component) : Prop :=
  (n.router.objectAt name).map Node.viewObject = some (Node.viewObject c)

theorem DeployedAt.kind_eq {c' : Component} (h : DeployedAt n name c)
    (hc' : n.findComponent ⟨n.router.address, name⟩ = some c') :
    c'.kind = c.kind := by
  rcases Option.map_eq_some_iff.mp h with ⟨object, hobject, hview⟩
  rw [Node.findComponent_current hobject] at hc'
  rcases Option.some.inj hc' with rfl
  exact congrArg Node.ObjectView.kind hview

theorem emittedBy_outputs (hn : n.Consistent) {ref : Node.ComponentRef}
    {c' : Component} (hc' : n.findComponent ref = some c')
    (outputs : List Output) :
    Node.emittedBy n.router.address name port
        (Task.doRoute c'.router c'.compInst outputs) =
      if ref = ⟨n.router.address, name⟩ then
        (Node.flatten outputs).flatMap (Node.onPort port)
      else
        [] := by
  rcases hn.sound.own hc' with ⟨hrouter, hinst⟩
  rw [hrouter, hinst, Node.emittedBy_doRoute]
  refine if_congr ?_ rfl rfl
  rcases ref with ⟨address, other⟩
  simp only [Node.ComponentRef.mk.injEq]

theorem emittedBy_turn (hn : n.Consistent) (hc : DeployedAt n name c)
    (hgen : c.isGenerator = false) {ref : Node.ComponentRef} {c' : Component}
    (hc' : n.findComponent ref = some c') (hturn : c'.isGenerator = true)
    (outputs : List Output) :
    Node.emittedBy n.router.address name port
      (Task.doRoute c'.router c'.compInst outputs) = [] := by
  rw [emittedBy_outputs hn hc']
  refine if_neg (fun hsame => ?_)
  subst hsame
  have hkind := hc.kind_eq hc'
  unfold Component.isGenerator at hgen hturn
  rw [hkind, hgen] at hturn
  cases hturn

theorem emittedBy_processEffects (hn : n.Consistent) {ref : Node.ComponentRef}
    {c' : Component} (hc' : n.findComponent ref = some c')
    (inPort : Parser.PortId) (payload : Bytes) :
    (Node.posted (Node.processEffects env c' inPort payload)).flatMap
        (Node.emittedBy n.router.address name port) =
      if ref = ⟨n.router.address, name⟩ then
        (((c'.process env inPort payload).map Node.flatten).getD []).flatMap
          (Node.onPort port)
      else
        [] := by
  unfold Node.processEffects
  cases hprocess : c'.process env inPort payload with
  | none => exact (ite_self _).symm
  | some outputs =>
      refine Eq.trans ?_ (emittedBy_outputs hn hc' outputs)
      exact List.flatMap_singleton _ _

theorem emittedBy_posted (hn : n.Consistent) (hc : DeployedAt n name c)
    (hgen : c.isGenerator = false) (halike : Alike order scale env)
    {task : Task} (hwhole : task.Whole order n.router.address)
    {effects : List Effect} (hasks : Node.TaskAsks env n task effects) :
    ((Node.posted effects).flatMap
        (Node.emittedBy n.router.address name port)).map (readPayload order) =
      (givenBy n.router.address name task).flatMap (fun given =>
        stage scale c given.1 port (readPayload order given.2)) := by
  have hturn : forall {ref : Node.ComponentRef} {c' : Component},
      n.findComponent ref = some c' -> c'.isGenerator = true ->
      (Node.posted (Node.generateEffects env ref c')).flatMap
        (Node.emittedBy n.router.address name port) = [] := by
    intro ref c' hc' hgen'
    rw [List.flatMap_eq_nil_iff]
    intro task htask
    rcases Node.post_generateEffects (Node.mem_posted.mp htask) with
      ⟨outputs, _, rfl⟩ | ⟨_, rfl⟩ | ⟨_, rfl⟩
    · exact emittedBy_turn hn hc hgen hc' hgen' outputs
    · rfl
    · rfl
  cases hasks with
  | @doProcess ref c' origin inPort payload hc' =>
      rw [emittedBy_processEffects hn hc']
      by_cases hsame : ref = ⟨n.router.address, name⟩
      · subst hsame
        have hreadable : Readable order payload :=
          hwhole rfl payload (List.mem_singleton.mpr rfl)
        have hgiven : givenBy n.router.address name
            (Task.doProcess ⟨n.router.address, name⟩ origin inPort payload) =
              [(inPort, payload)] := if_pos rfl
        rw [if_pos rfl, process_stage halike c' inPort port hreadable,
          stage_congr (hc.kind_eq hc'), hgiven, List.flatMap_singleton]
      · have hgiven : givenBy n.router.address name
            (Task.doProcess ref origin inPort payload) = [] := if_neg hsame
        rw [if_neg hsame, hgiven]
        rfl
  | @doRoute address r other outputs hr hother =>
      have hnone : (Node.posted (r.doRoute env other outputs).2).flatMap
          (Node.emittedBy n.router.address name port) = [] := by
        rw [List.flatMap_eq_nil_iff]
        intro task htask
        rcases (Node.Router.doRoute_posts env hother
          (Node.mem_posted.mp htask)).right with ⟨_, _, _, _, _, _, _, rfl⟩
        rfl
      rw [hnone]
      rfl
  | generate hc' hkind =>
      rw [hturn hc' (Node.isGenerator_of_kind (Or.inl hkind))]
      rfl
  | timerWait cancelled hc' hkind =>
      rw [hturn hc' (Node.isGenerator_of_kind (Or.inr hkind))]
      rfl

theorem emittedBy_request (hn : n.Consistent) (hc : DeployedAt n name c)
    (hgen : c.isGenerator = false) {env' : Platform} {task : Task}
    (hemits : Node.Emits env' n task) :
    Node.emittedBy n.router.address name port task = [] := by
  rcases hemits with ⟨ref, c', outputs, hc', hgen', rfl, _⟩ | hnone
  · rcases hn.sound.own hc' with ⟨hrouter, hinst⟩
    have hturn := @emittedBy_turn n name c port hn hc hgen ref c' hc' hgen'
      outputs
    rw [hrouter, hinst] at hturn
    exact hturn
  · cases task with
    | doRoute address compInst outputs =>
        have hempty : outputs = [] := List.map_eq_nil_iff.mp hnone
        subst hempty
        cases compInst with
        | none => rfl
        | some other =>
            rw [Node.emittedBy_doRoute]
            exact ite_self _
    | _ => rfl

end Tasks

/-- All packets can be read, and what a component has emitted is what it made of
the packets that it was given, one after the other. -/
structure Works (order : ByteOrder) (scale : UInt32 -> UInt32)
    (r : Node.Router) (t : Tracked) : Prop where
  objects : forall name, (t.node.router.objectAt name).map Node.viewObject =
    (r.objectAt name).map Node.viewObject
  whole : Node.Whole order t.node
  queued : forall task, task ∈ t.queued -> task.Whole order r.address
  emitted : forall {name c port}, r.objectAt name = some c ->
    c.isGenerator = false ->
      (t.emittedOn r.address name port).map (readPayload order) =
        (givenTo t r.address name).flatMap (fun given =>
          stage scale c given.1 port (readPayload order given.2))

/-- The payload of a message can be read, if an event brings one. -/
def Bears (order : ByteOrder) (event : Node.Event) : Prop :=
  match event with
  | Node.Event.message _ _ payload =>
      Readable order payload.asCommunicationPacket.payload
  | _ => True

section Works

variable {order : ByteOrder} {scale : UInt32 -> UInt32} {r : Node.Router}
  {t t' : Tracked} {event : Node.Event}

theorem Works.deployedAt (h : Works order scale r t) {name : String}
    {c : Component} (hobject : r.objectAt name = some c) :
    DeployedAt t.node name c := by
  unfold DeployedAt
  rw [h.objects, hobject]
  rfl

theorem Works.readable (h : Works order scale r t) {name : String}
    {port : Parser.PortId} {payload : Bytes}
    (hpayload : payload ∈ t.emittedOn r.address name port) :
    Readable order payload := by
  rcases List.mem_flatMap.mp hpayload with ⟨task, htask, hmem⟩
  have hwhole := h.queued task htask
  cases task with
  | doRoute address compInst outputs =>
      cases compInst with
      | none => cases hmem
      | some other =>
          rw [Node.emittedBy_doRoute] at hmem
          split_ifs at hmem with hsame
          · rcases List.mem_flatMap.mp hmem with ⟨output, houtput, hport⟩
            unfold Node.onPort at hport
            split_ifs at hport with heq
            · rcases List.mem_singleton.mp hport with rfl
              rcases Node.payload_of_mem_flatten houtput with
                ⟨out, hout, hpayload⟩
              exact hwhole hsame.left _
                (List.mem_map.mpr ⟨out, hout, hpayload⟩)
            · cases hport
          · cases hmem
  | _ => cases hmem

/-- All packets of a node can be read after a step. -/
theorem Works.whole_step (h : Works order scale r t) (hn : t.node.Consistent)
    (hkept : event.isDeployment = false)
    (halike : Alike order scale (ownPlatform event))
    (hbears : Bears order event)
    {n' : Protort.Node} (hn' : Node.step t.node event = some n') :
    Node.Whole order n' := by
  have haddress : n'.router.address = t.node.router.address :=
    (Node.step_table hn hkept hn').address
  cases event with
  | request env payload => exact h.whole.request hn halike.left haddress hn'
  | message env origin payload => exact h.whole.message hbears haddress hn'
  | run env index => exact h.whole.run hn halike.left haddress hn'

section Emissions

variable {env : Platform} {n : Protort.Node} {name : String} {c : Component}
  (port : Parser.PortId)

theorem Works.emitted_request {payload : Protocol.Payload}
    (h : Works order scale r t) (hfollowing : Following r t)
    (hkept : (Node.Event.request env payload).isDeployment = false)
    (hn : Node.step t.node (Node.Event.request env payload) = some n)
    (hobject : r.objectAt name = some c) (hgen : c.isGenerator = false) :
    (t.advance none n).emittedOn r.address name port =
      t.emittedOn r.address name port := by
  have hconsistent := hfollowing.stays.consistent
  have htable := Node.step_table hconsistent hkept hn
  rcases Node.returned_eq_some.mp hn with ⟨response, hrun⟩
  rcases (Node.onNewRequest_ok_iff.mp hrun).right.emits hconsistent.sound with
    ⟨effects, hservice, hemits⟩
  have hafter := (Node.Consistent.step hn hconsistent).left
  have hdeployed : DeployedAt n name c := by
    refine (htable.objects name).trans ((h.objects name).trans ?_)
    rw [hobject]
    rfl
  have haddress : n.router.address = r.address :=
    htable.address.trans hfollowing.stays.address
  have hnone : (Node.posted effects).flatMap
      (Node.emittedBy r.address name port) = [] := by
    rw [List.flatMap_eq_nil_iff, ← haddress]
    intro task htask
    exact emittedBy_request hafter hdeployed hgen
      (hemits task (Node.mem_posted.mp htask))
  rw [(emittedOn_advance none hfollowing.length hservice r.address name
    port).left, hnone, List.append_nil]

theorem emittedOn_message {origin : Option Components.Origin}
    {payload : Protocol.Payload} (hfollowing : Following r t)
    (hn : Node.step t.node (Node.Event.message env origin payload) = some n) :
    (t.advance none n).emittedOn r.address name port =
      t.emittedOn r.address name port := by
  rcases Node.message_spec hn with ⟨m, _, hservice, _, rfl⟩
  have hnone : (Node.posted (t.node.messageEffects origin payload)).flatMap
      (Node.emittedBy r.address name port) = [] := by
    unfold Node.messageEffects
    rw [Node.Router.route_snd]
    split_ifs <;> rfl
  rw [(emittedOn_advance none hfollowing.length
    (by rw [Node.service_performAll, hservice]) r.address name port).left,
    hnone, List.append_nil]

theorem Works.emitted_run {index : Nat} {task : Task} {effects : List Effect}
    (h : Works order scale r t) (hfollowing : Following r t)
    (halike : Alike order scale env)
    (hget : t.node.service[index]? = some task)
    (hasks : Node.TaskAsks env t.node task effects)
    (hservice : n.service =
      effects.foldl Node.serve (t.node.service.eraseIdx index))
    (hobject : r.objectAt name = some c) (hgen : c.isGenerator = false) :
    (((t.take index task).advance (some task) n).emittedOn r.address name
        port).map (readPayload order) =
      (givenTo (t.take index task) r.address name).flatMap (fun given =>
        stage scale c given.1 port (readPayload order given.2)) := by
  have htaken : (t.take index task).vias.length =
      (t.node.service.eraseIdx index).length := by
    show (t.vias.eraseIdx index).length = _
    rw [List.length_eraseIdx, List.length_eraseIdx, hfollowing.length]
  have hmade := @emittedBy_posted order scale env t.node name c port
    hfollowing.stays.consistent (h.deployedAt hobject) hgen halike task
    (h.whole.service task (List.mem_of_getElem? hget)) effects hasks
  rw [hfollowing.stays.address] at hmade
  have hgiven : givenTo (t.take index task) r.address name =
      givenTo t r.address name ++ givenBy r.address name task := by
    show (t.ran ++ [_]).flatMap _ = _
    rw [List.flatMap_append, List.flatMap_singleton]
    rfl
  rw [(emittedOn_advance (some task) htaken hservice r.address name port).left,
    List.map_append, hmade, hgiven, List.flatMap_append]
  exact congrArg (fun made => made ++ _) (h.emitted hobject hgen)

end Emissions

/-- Every step of a node keeps this. -/
theorem Works.step (h : Works order scale r t) (hfollowing : Following r t)
    (hkept : event.isDeployment = false)
    (halike : Alike order scale (ownPlatform event))
    (hbears : Bears order event)
    (hstep : t.step event = some t') : Works order scale r t' := by
  rcases Option.map_eq_some_iff.mp hstep with ⟨n', hn', rfl⟩
  have hn := hfollowing.stays.consistent
  have htable := Node.step_table hn hkept hn'
  have hobjects : forall name, (n'.router.objectAt name).map Node.viewObject =
      (r.objectAt name).map Node.viewObject :=
    fun name => (htable.objects name).trans (h.objects name)
  have haddress : n'.router.address = r.address :=
    htable.address.trans hfollowing.stays.address
  have hwhole := h.whole_step hn hkept halike hbears hn'
  have hqueued : forall count task,
      task ∈ t.queued ++ n'.service.drop count ->
        task.Whole order r.address := by
    intro count task htask
    rcases List.mem_append.mp htask with hold | hposted
    · exact h.queued task hold
    · rw [← haddress]
      exact hwhole.service task (List.mem_of_mem_drop hposted)
  cases event with
  | request env' payload =>
      refine
        { objects := hobjects
          whole := hwhole
          queued := hqueued _
          emitted := ?_ }
      intro name c port hobject hgen
      show ((t.advance none n').emittedOn r.address name port).map _ = _
      rw [h.emitted_request port hfollowing hkept hn' hobject hgen]
      exact h.emitted hobject hgen
  | message env' origin payload =>
      refine
        { objects := hobjects
          whole := hwhole
          queued := hqueued _
          emitted := ?_ }
      intro name c port hobject hgen
      show ((t.advance none n').emittedOn r.address name port).map _ = _
      rw [emittedOn_message port hfollowing hn']
      exact h.emitted hobject hgen
  | run env' index =>
      rcases Node.run_spec hn.sound hn' with ⟨task, effects, m, hget, hsound,
        heffects, _, _, hservice, _, rfl⟩
      simp only [hget]
      refine
        { objects := hobjects
          whole := hwhole
          queued := hqueued _
          emitted := ?_ }
      intro name c port hobject hgen
      exact h.emitted_run port hfollowing halike hget (hsound.asks heffects)
        (by rw [Node.service_performAll, hservice]) hobject hgen

end Works

/-!
## Where packets come from
-/

variable {ι : Type u}

/-- A connection of the system: a port of a component of a node and a position
among the local routes of that port, or among the remote ones and then with the
client. -/
structure Edge (ι : Type u) where
  source : ι
  via : Via
  client : Option Node.Client

namespace Edge

def LeadsTo (peer : ι -> Node.Client -> Option ι) (sys : ι -> Protort.Node)
    (edge : Edge ι) (y : ι) (name : String) (inPort : Parser.PortId) : Prop :=
  let routes := (sys edge.source).router.routesAt edge.via.source edge.via.port
  match edge.client with
  | none =>
      edge.source = y ∧ routes.localRoutes[edge.via.index]? = some ⟨inPort, name⟩
  | some client =>
      routes.remoteRoutes[edge.via.index]? = some ⟨inPort, name, client⟩ ∧
        peer edge.source client = some y ∧ name ∈ (sys y).router.components

def Brought (edge : Edge ι) (via : Option Via) (way : Option (Way ι)) : Prop :=
  match edge.client with
  | none => via = some edge.via
  | some client => way = some ⟨edge.source, client, edge.via⟩

def IsOnly (peer : ι -> Node.Client -> Option ι) (sys : ι -> Protort.Node)
    (edge : Edge ι) (y : ι) (name : String) (inPort : Parser.PortId) : Prop :=
  edge.LeadsTo peer sys y name inPort ∧
    forall other inPort', Edge.LeadsTo peer sys other y name inPort' ->
      other = edge

theorem IsOnly.inPort_eq {peer : ι -> Node.Client -> Option ι}
    {sys : ι -> Protort.Node} {edge : Edge ι} {y : ι} {name : String}
    {inPort inPort' : Parser.PortId} (h : edge.IsOnly peer sys y name inPort)
    (hleads : edge.LeadsTo peer sys y name inPort') : inPort' = inPort := by
  have hhere := h.left
  unfold LeadsTo at hhere hleads
  cases hclient : edge.client with
  | none =>
      rw [hclient] at hhere hleads
      have hroute := hhere.right.symm.trans hleads.right
      cases hroute
      rfl
  | some client =>
      rw [hclient] at hhere hleads
      have hroute := hhere.left.symm.trans hleads.left
      cases hroute
      rfl

end Edge

/-- A task that hands a packet to a component of the router that is followed
came over a connection to it. -/
def Came (peer : ι -> Node.Client -> Option ι) (sys : ι -> Protort.Node)
    (y : ι) : Task × Option Via × Option (Way ι) -> Prop
  | (Task.doProcess ref _ inPort _, via, way) =>
      ref.router = (sys y).router.address -> exists edge : Edge ι,
        edge.LeadsTo peer sys y ref.name inPort ∧ edge.Brought via way
  | _ => True

def GoesAlong (sys : ι -> Protort.Node) (x : ι) :
    Outgoing × Option Via -> Prop
  | (m, mark) => exists via route, mark = some via ∧
      ((sys x).router.routesAt via.source via.port).remoteRoutes[via.index]? =
        some route ∧ m.client = route.client ∧
      m.payload.asCommunicationPacket.destination =
        { port := route.inPort, name := route.name }

def Track.entries (t : Track ι) : List (Task × Option Via × Option (Way ι)) :=
  t.own.node.service.zip (t.own.vias.zip t.ways)

section Posted

variable {peer : ι -> Node.Client -> Option ι} {sys : ι -> Protort.Node} {y : ι}

theorem came_settle {task : Task} {tags : Option Via × Option (Way ι)} :
    Came peer sys y (Node.settle task, tags) <->
      Came peer sys y (task, tags) := by
  cases task with
  | _ => rfl

theorem came_serve {kept : List Task} {vias newVias : List (Option Via)}
    {ways newWays : List (Option (Way ι))} {effects : List Effect}
    (hvias : vias.length = kept.length) (hways : ways.length = kept.length)
    (hkept : forall entry, entry ∈ kept.zip (vias.zip ways) ->
      Came peer sys y entry)
    (hnew : forall entry, entry ∈
      (Node.posted effects).zip (newVias.zip newWays) -> Came peer sys y entry)
    {entry : Task × Option Via × Option (Way ι)}
    (hentry : entry ∈ (effects.foldl Node.serve kept).zip
      ((vias ++ newVias).zip (ways ++ newWays))) : Came peer sys y entry := by
  rcases entry with ⟨task, tags⟩
  have hsettled : (Node.settle task, tags) ∈
      ((effects.foldl Node.serve kept).map Node.settle).zip
        ((vias ++ newVias).zip (ways ++ newWays)) := by
    rw [List.zip_map_left]
    exact List.mem_map_of_mem hentry
  have hlength : (kept.map Node.settle).length = (vias.zip ways).length := by
    rw [List.length_map, List.length_zip, hvias, hways, Nat.min_self]
  rw [Node.map_settle_serve, List.zip_append (hvias.trans hways.symm),
    List.zip_append hlength, List.zip_map_left, List.zip_map_left]
    at hsettled
  rw [← came_settle]
  rcases List.mem_append.mp hsettled with hold | hposted
  · rcases List.mem_map.mp hold with ⟨⟨task', tags'⟩, hmem, heq⟩
    rw [← heq]
    exact came_settle.mpr (hkept _ hmem)
  · rcases List.mem_map.mp hposted with ⟨⟨task', tags'⟩, hmem, heq⟩
    rw [← heq]
    exact came_settle.mpr (hnew _ hmem)

end Posted

theorem routed_or_quiet {env : Platform} {n : Protort.Node} {task : Task}
    {effects : List Effect} (hn : n.Consistent)
    (hasks : Node.TaskAsks env n task effects) :
    (exists name index outputs,
      task = Task.doRoute n.router.address (some name) outputs ∧
      n.router.started = true ∧
      effects = n.router.allEffects name index (Node.flatten outputs)) ∨
    (Node.sends effects = [] ∧ forall ref origin inPort payload,
      Task.doProcess ref origin inPort payload ∉ Node.posted effects) := by
  have hturn : forall {ref : Node.ComponentRef} {c : Component},
      Node.sends (Node.generateEffects env ref c) = [] ∧
        forall ref' origin inPort payload,
          Task.doProcess ref' origin inPort payload ∉
            Node.posted (Node.generateEffects env ref c) := by
    intro ref c
    refine ⟨Node.sends_generateEffects _ _ _, ?_⟩
    intro ref' origin inPort payload hposted
    rcases Node.post_generateEffects (Node.mem_posted.mp hposted) with
      ⟨outputs, _, heq⟩ | ⟨_, heq⟩ | ⟨_, heq⟩
    · cases heq
    · cases heq
    · cases heq
  cases hasks with
  | @doProcess ref c origin inPort payload hc =>
      right
      rcases Node.processEffects_cases env c inPort payload with
        hnone | ⟨outputs, _, hroute⟩
      · rw [hnone]
        exact ⟨rfl, fun _ _ _ _ => List.not_mem_nil⟩
      · rw [hroute]
        refine ⟨rfl, fun _ _ _ _ hposted => ?_⟩
        cases List.mem_singleton.mp hposted
  | @doRoute address r name outputs hr hname =>
      by_cases hcurrent : address = n.router.address
      · subst hcurrent
        rw [Node.findRouter_current] at hr
        rcases Option.some.inj hr with rfl
        cases hstarted : n.router.started with
        | true =>
            exact Or.inl ⟨name, _, outputs, rfl, rfl,
              (Node.Router.doRoute_sent env hstarted hname outputs).effects⟩
        | false =>
            right
            unfold Node.Router.doRoute
            rw [hstarted]
            exact ⟨rfl, fun _ _ _ _ => List.not_mem_nil⟩
      · right
        have hstopped := hn.oldStopped address r hcurrent hr
        unfold Node.Router.doRoute
        rw [hstopped]
        exact ⟨rfl, fun _ _ _ _ => List.not_mem_nil⟩
  | generate hc hkind => exact Or.inr hturn
  | timerWait cancelled hc hkind => exact Or.inr hturn

/-!
## Steps
-/

variable [DecidableEq ι]

def cameOver (t : Track ι) (address : Nat) (edge : Edge ι) (name : String)
    (inPort : Parser.PortId) : List Bytes :=
  match edge.client with
  | none => t.own.processedThrough address edge.via ⟨inPort, name⟩
  | some client =>
      t.processedOver address ⟨edge.source, client, edge.via⟩
        ⟨inPort, name, client⟩

def cameBy (address : Nat) (edge : Edge ι) (name : String)
    (inPort : Parser.PortId) (task : Task) (via : Option Via)
    (way : Option (Way ι)) : List Bytes :=
  match edge.client with
  | none => Node.carriedBy address edge.via ⟨inPort, name⟩ (task, via)
  | some client =>
      handedBy address ⟨edge.source, client, edge.via⟩ ⟨inPort, name, client⟩
        (task, way)

/-- The packets of a node came over the connections of the system, and what a
component with one connection was given is what came over it. -/
structure Sourced (peer : ι -> Node.Client -> Option ι)
    (sys : ι -> Protort.Node) (y : ι) (t : Track ι) : Prop where
  entries : forall entry, entry ∈ t.entries -> Came peer sys y entry
  outbox : forall entry, entry ∈ t.own.node.outbox.zip t.marks ->
    GoesAlong sys y entry
  processed : forall {name inPort edge}, edge.IsOnly peer sys y name inPort ->
    givenTo t.own (sys y).router.address name =
      (cameOver t (sys y).router.address edge name inPort).map (fun payload =>
        (inPort, payload))

section Sourced

variable {peer : ι -> Node.Client -> Option ι} {sys : ι -> Protort.Node} {y : ι}

theorem cameBy_packet {address : Nat} {edge : Edge ι} {name : String}
    {inPort : Parser.PortId} {origin : Option Components.Origin}
    {payload : Bytes} {via : Option Via} {way : Option (Way ι)}
    (h : edge.Brought via way) :
    cameBy address edge name inPort
      (Task.doProcess ⟨address, name⟩ origin inPort payload) via way =
        [payload] := by
  rcases edge with ⟨source, edgeVia, client⟩
  cases client with
  | none => exact if_pos ⟨h, rfl, rfl⟩
  | some client => exact if_pos ⟨h, rfl, rfl⟩

theorem cameBy_other {address : Nat} {edge : Edge ι} {name : String}
    {inPort inPort' : Parser.PortId} {ref : Node.ComponentRef}
    {origin : Option Components.Origin} {payload : Bytes} {via : Option Via}
    {way : Option (Way ι)} (h : ref ≠ ⟨address, name⟩) :
    cameBy address edge name inPort (Task.doProcess ref origin inPort' payload)
      via way = [] := by
  rcases edge with ⟨source, edgeVia, client⟩
  cases client with
  | none =>
      have hnot : ¬ (via = some edgeVia ∧ ref = ⟨address, name⟩ ∧
          inPort' = inPort) := fun hsame => h hsame.right.left
      exact if_neg hnot
  | some client =>
      have hnot : ¬ (way = some ⟨source, client, edgeVia⟩ ∧
          ref = ⟨address, name⟩ ∧ inPort' = inPort) :=
        fun hsame => h hsame.right.left
      exact if_neg hnot

/-- What a component is given came over its only connection. -/
theorem givenBy_came {task : Task} {via : Option Via} {way : Option (Way ι)}
    (hcame : Came peer sys y (task, via, way)) {edge : Edge ι} {name : String}
    {inPort : Parser.PortId} (honly : edge.IsOnly peer sys y name inPort) :
    givenBy (sys y).router.address name task =
      (cameBy (sys y).router.address edge name inPort task via way).map
        (fun payload => (inPort, payload)) := by
  cases task with
  | doProcess ref origin inPort' payload =>
      by_cases hsame : ref = ⟨(sys y).router.address, name⟩
      · subst hsame
        rcases hcame rfl with ⟨other, hleads, hbrought⟩
        have hother := honly.right other inPort' hleads
        subst hother
        have hport := honly.inPort_eq hleads
        subst hport
        rw [cameBy_packet hbrought]
        exact if_pos rfl
      · rw [cameBy_other hsame]
        exact if_neg hsame
  | _ =>
      unfold cameBy
      cases edge.client with
      | _ => rfl

theorem cameOver_take (t : Track ι) (own : Tracked) (index : Nat) (task : Task)
    (address : Nat) (edge : Edge ι) (name : String) (inPort : Parser.PortId)
    (hran : own.ran = t.own.ran ++ [(task, (t.own.vias[index]?).join)]) :
    cameOver ((t.take index task).advance (some task) none own) address edge name
        inPort =
      cameOver t address edge name inPort ++
        cameBy address edge name inPort task ((t.own.vias[index]?).join)
          ((t.ways[index]?).join) := by
  unfold cameOver cameBy
  cases edge.client with
  | none =>
      show own.ran.flatMap _ = _
      rw [hran, List.flatMap_append, List.flatMap_singleton]
      rfl
  | some client =>
      show (t.brought ++ [_]).flatMap _ = _
      rw [List.flatMap_append, List.flatMap_singleton]
      rfl

omit [DecidableEq ι] in
theorem vias_advance {own : Tracked} {n : Protort.Node} (task : Option Task)
    {kept : List Task} {effects : List Effect}
    (hvias : own.vias.length = kept.length)
    (hservice : n.service = effects.foldl Node.serve kept) :
    (own.advance task n).vias =
      own.vias ++ Node.viasOf own.node.router (Node.posted effects).length
        task := by
  have hcount : (n.service.drop own.vias.length).length =
      (Node.posted effects).length := by
    rw [hservice, List.length_drop, Node.length_serve, hvias,
      Nat.add_sub_cancel_left]
  rw [← hcount]
  rfl

/-- What is queued without a task that ran. -/
theorem Sourced.queue {t : Track ι} (h : Sourced peer sys y t)
    {r : Node.Router} (hfollowed : Followed r t) {n : Protort.Node}
    {effects : List Effect}
    (hservice : n.service = effects.foldl Node.serve t.own.node.service)
    (houtbox : n.outbox = t.own.node.outbox) (tag : Option (Way ι))
    (hposted : forall task, task ∈ Node.posted effects ->
      Came peer sys y (task, none, tag)) :
    Sourced peer sys y (t.advance none tag (t.own.advance none n)) := by
  have hvias := vias_advance none hfollowed.own.length hservice
  have hways := Track.ways_advance none tag (t.own.advance none n)
    hfollowed.ways hservice
  have hmarks := Track.marks_advance none tag (t.own.advance none n)
    hfollowed.marks (houtbox.trans (List.append_nil _).symm)
  have hnone : marksOf t.own.node.router ([] : List Outgoing).length none =
      [] := rfl
  rw [hnone, List.append_nil] at hmarks
  refine
    { entries := ?_
      outbox := ?_
      processed := h.processed }
  · intro entry hentry
    unfold Track.entries at hentry
    rw [hways] at hentry
    change entry ∈ n.service.zip ((t.own.advance none n).vias.zip _) at hentry
    rw [hvias, hservice] at hentry
    refine came_serve hfollowed.own.length hfollowed.ways h.entries ?_ hentry
    rintro ⟨task, via, way⟩ hnew
    have htags := (List.of_mem_zip hnew).right
    have hvia : via = none :=
      List.eq_of_mem_replicate (List.of_mem_zip htags).left
    have hway : way = tag :=
      List.eq_of_mem_replicate (List.of_mem_zip htags).right
    rw [hvia, hway]
    exact hposted task (List.of_mem_zip hnew).left
  · intro entry hentry
    rw [hmarks] at hentry
    change entry ∈ n.outbox.zip t.marks at hentry
    rw [houtbox] at hentry
    exact h.outbox entry hentry

omit [DecidableEq ι] in
theorem Followed.mem_entries {r : Node.Router} {t : Track ι}
    (h : Followed r t) {index : Nat} {task : Task}
    (hget : t.own.node.service[index]? = some task) :
    (task, (t.own.vias[index]?).join, (t.ways[index]?).join) ∈ t.entries := by
  rcases List.getElem?_eq_some_iff.mp hget with ⟨hlt, _⟩
  have hvia : t.own.vias[index]? = some ((t.own.vias[index]?).join) := by
    rw [List.getElem?_eq_getElem (h.own.length ▸ hlt)]
    rfl
  have hway : t.ways[index]? = some ((t.ways[index]?).join) := by
    rw [List.getElem?_eq_getElem (h.ways ▸ hlt)]
    rfl
  have htags : (t.own.vias.zip t.ways)[index]? =
      some ((t.own.vias[index]?).join, (t.ways[index]?).join) :=
    List.getElem?_zip_eq_some.mpr ⟨hvia, hway⟩
  have hentry : t.entries[index]? =
      some (task, (t.own.vias[index]?).join, (t.ways[index]?).join) :=
    List.getElem?_zip_eq_some.mpr ⟨hget, htags⟩
  exact List.mem_of_getElem? hentry

omit [DecidableEq ι] in
theorem Followed.mem_outbox {r : Node.Router} {t : Track ι}
    (h : Followed r t) {index : Nat} {m : Outgoing}
    (hget : t.own.node.outbox[index]? = some m) :
    (m, (t.marks[index]?).join) ∈ t.own.node.outbox.zip t.marks := by
  rcases List.getElem?_eq_some_iff.mp hget with ⟨hlt, _⟩
  have hmark : t.marks[index]? = some ((t.marks[index]?).join) := by
    rw [List.getElem?_eq_getElem (h.marks ▸ hlt)]
    rfl
  have hentry : (t.own.node.outbox.zip t.marks)[index]? =
      some (m, (t.marks[index]?).join) :=
    List.getElem?_zip_eq_some.mpr ⟨hget, hmark⟩
  exact List.mem_of_getElem? hentry

section Ran

variable {t : Track ι} {env : Platform} {index : Nat} {task : Task}
  {n : Protort.Node} {effects : List Effect}

omit [DecidableEq ι] in
theorem came_posted {m : Protort.Node} (hstays : Stays (sys y).router m)
    (hasks : Node.TaskAsks env m task effects)
    {entry : Task × Option Via × Option (Way ι)}
    (hentry : entry ∈ (Node.posted effects).zip
      ((Node.viasOf m.router (Node.posted effects).length (some task)).zip
        (List.replicate (Node.posted effects).length none))) :
    Came peer sys y entry := by
  rcases entry with ⟨task', via, way⟩
  rcases routed_or_quiet hstays.consistent hasks with
    ⟨name, start, outputs, rfl, hstarted, rfl⟩ | ⟨_, hquiet⟩
  · have hvia : Node.viasOf m.router
        (Node.posted (m.router.allEffects name start
          (Node.flatten outputs))).length
        (some (Task.doRoute m.router.address (some name) outputs)) =
          m.router.positions Node.localExit.routes name
            (Node.flatten outputs) :=
      if_pos ⟨rfl, hstarted⟩
    rw [hvia] at hentry
    have hpair : (task', via) ∈ Node.localExit.leaving m.router name start
        (Node.flatten outputs) :=
      Lib.mem_zip_of_mem_zip_zip hentry
    rcases Node.localExit.mem_leaving hpair with
      ⟨port, payload, number, position, route, hroute, heq⟩
    cases heq
    intro _
    rw [hstays.routes] at hroute
    exact ⟨⟨y, ⟨name, port, position⟩, none⟩, ⟨rfl, hroute⟩, rfl⟩
  · have hmem := (List.of_mem_zip hentry).left
    cases task' with
    | doProcess ref origin inPort payload =>
        exact absurd hmem (hquiet ref origin inPort payload)
    | _ => exact trivial

omit [DecidableEq ι] in
theorem goesAlong_sent {m : Protort.Node} (hstays : Stays (sys y).router m)
    (hasks : Node.TaskAsks env m task effects)
    {entry : Outgoing × Option Via}
    (hentry : entry ∈ (Node.sends effects).zip
      (marksOf m.router (Node.sends effects).length (some task))) :
    GoesAlong sys y entry := by
  rcases routed_or_quiet hstays.consistent hasks with
    ⟨name, start, outputs, rfl, hstarted, rfl⟩ | ⟨hnone, _⟩
  · have hmark : marksOf m.router
        (Node.sends (m.router.allEffects name start
          (Node.flatten outputs))).length
        (some (Task.doRoute m.router.address (some name) outputs)) =
          m.router.positions remoteExit.routes name (Node.flatten outputs) :=
      if_pos ⟨rfl, hstarted⟩
    rw [hmark] at hentry
    rcases remoteExit.mem_leaving hentry with
      ⟨port, payload, number, position, route, hroute, rfl⟩
    rw [hstays.routes] at hroute
    exact ⟨⟨name, port, position⟩, route, rfl, hroute, rfl, rfl⟩
  · rw [hnone] at hentry
    cases hentry

theorem Sourced.run (h : Sourced peer sys y t)
    (hfollowed : Followed (sys y).router t)
    (hget : t.own.node.service[index]? = some task)
    (heffects : Node.taskEffects env t.own.node task = some effects)
    (hservice : n.service =
      effects.foldl Node.serve (t.own.node.service.eraseIdx index))
    (houtbox : n.outbox = t.own.node.outbox ++ Node.sends effects) :
    Sourced peer sys y (t.ran index task n) := by
  have hstays := hfollowed.own.stays
  have hasks := (hstays.consistent.sound.tasks task
    (List.mem_of_getElem? hget)).asks heffects
  have hvias : ((t.own.take index task).advance (some task) n).vias =
      t.own.vias.eraseIdx index ++ Node.viasOf t.own.node.router
        (Node.posted effects).length (some task) :=
    vias_advance (some task) (hfollowed.length_vias index) hservice
  refine
    { entries := ?_
      outbox := ?_
      processed := ?_ }
  · intro entry hentry
    unfold Track.entries at hentry
    rw [hfollowed.ways_ran task hservice] at hentry
    change entry ∈ n.service.zip
      (((t.own.take index task).advance (some task) n).vias.zip _) at hentry
    rw [hvias, hservice] at hentry
    refine came_serve (hfollowed.length_vias index)
      (hfollowed.length_ways index) ?_ ?_ hentry
    · intro entry hkept
      rw [← Lib.zip_eraseIdx, ← Lib.zip_eraseIdx] at hkept
      exact h.entries entry (List.mem_of_mem_eraseIdx hkept)
    · intro entry hnew
      exact came_posted hstays hasks hnew
  · intro entry hentry
    rw [hfollowed.marks_ran index task houtbox] at hentry
    change entry ∈ n.outbox.zip _ at hentry
    rw [houtbox, List.zip_append hfollowed.marks.symm] at hentry
    rcases List.mem_append.mp hentry with hold | hnew
    · exact h.outbox entry hold
    · exact goesAlong_sent hstays hasks hnew
  · intro name inPort edge honly
    have hentry : (task, (t.own.vias[index]?).join, (t.ways[index]?).join) ∈
        t.entries :=
      hfollowed.mem_entries hget
    have hgiven := givenBy_came (h.entries _ hentry) honly
    rw [cameOver_take t _ index task _ _ _ _ rfl, List.map_append, ← hgiven,
      ← h.processed honly]
    show (t.own.ran ++ [_]).flatMap (fun job : Job => _) = _
    rw [List.flatMap_append, List.flatMap_singleton]
    rfl

end Ran

theorem Sourced.step {t t' : Track ι} {event : Node.Event}
    (h : Sourced peer sys y t) (hfollowed : Followed (sys y).router t)
    (hown : isOwn event = true) (hstep : t.step none event = some t') :
    Sourced peer sys y t' := by
  rcases Option.map_eq_some_iff.mp hstep with ⟨own, hownStep, rfl⟩
  rcases Option.map_eq_some_iff.mp hownStep with ⟨n, hn, rfl⟩
  have hconsistent := hfollowed.own.stays.consistent
  cases event with
  | request env payload =>
      rcases Node.returned_eq_some.mp hn with ⟨response, hrun⟩
      have hserved := (Node.onNewRequest_ok_iff.mp hrun).right
      rcases hserved.emits hconsistent.sound with ⟨effects, hservice, hemits⟩
      refine h.queue hfollowed hservice (hserved.queues hconsistent.sound).left
        none (fun task htask => ?_)
      have hnone := hemits task (Node.mem_posted.mp htask)
      cases task with
      | doProcess ref origin inPort payload =>
          rcases hnone with ⟨_, _, _, _, _, heq, _⟩ | hnone
          · cases heq
          · cases hnone
      | _ => exact trivial
  | message env origin payload => cases hown
  | run env index =>
      rcases Node.run_spec hconsistent.sound hn with ⟨task, effects, m, hget,
        _, heffects, _, _, hservice, houtbox, rfl⟩
      simp only [hget]
      exact h.run hfollowed hget heffects
        (by rw [Node.service_performAll, hservice])
        (by rw [Node.outbox_performAll, houtbox])

theorem Sourced.arrive {t t' : Track ι} {tag : Option (Way ι)} {env : Platform}
    {origin : Option Components.Origin} {payload : Protocol.Payload}
    (h : Sourced peer sys y t) (hfollowed : Followed (sys y).router t)
    (hcame : payload.asCommunicationPacket.destination.name ∈
        (sys y).router.components ->
      exists edge : Edge ι, edge.LeadsTo peer sys y
        payload.asCommunicationPacket.destination.name
        payload.asCommunicationPacket.destination.port ∧
        edge.Brought none tag)
    (hstep : t.step tag (Node.Event.message env origin payload) = some t') :
    Sourced peer sys y t' := by
  rcases Option.map_eq_some_iff.mp hstep with ⟨own, hownStep, rfl⟩
  rcases Option.map_eq_some_iff.mp hownStep with ⟨n, hn, rfl⟩
  rcases Node.message_spec hn with ⟨m, _, hservice, houtbox, rfl⟩
  refine h.queue hfollowed (by rw [Node.service_performAll, hservice])
    (by rw [Node.outbox_performAll, houtbox, Node.sends_messageEffects,
      List.append_nil]) tag (fun task htask => ?_)
  unfold Node.messageEffects at htask
  rw [Node.Router.route_snd] at htask
  split_ifs at htask with hthere
  · cases List.mem_singleton.mp htask
    intro _
    exact hcame ((hfollowed.mem _).mp hthere.right)
  · cases htask

theorem Sourced.withoutMessage {t : Track ι} (h : Sourced peer sys y t)
    (index : Nat) : Sourced peer sys y (t.withoutMessage index) :=
  { entries := h.entries
    outbox := by
      intro entry hentry
      change entry ∈ (t.own.node.outbox.eraseIdx index).zip
        (t.marks.eraseIdx index) at hentry
      rw [← Lib.zip_eraseIdx] at hentry
      exact h.outbox entry (List.mem_of_mem_eraseIdx hentry)
    processed := h.processed }

end Sourced

/-- Every connection keeps the order of its packets, and every component makes
one stream of another. -/
structure InStreams (order : ByteOrder) (scale : UInt32 -> UInt32)
    (peer : ι -> Node.Client -> Option ι) (sys : ι -> Protort.Node)
    (tracks : ι -> Track ι) : Prop where
  packetsInOrder : PacketsInOrder peer sys (fun _ _ _ => []) tracks
  works : forall y, Works order scale (sys y).router (tracks y).own
  sourced : forall y, Sourced peer sys y (tracks y)

section Moves

variable {order : ByteOrder} {scale : UInt32 -> UInt32}
  {peer : ι -> Node.Client -> Option ι} {sys : ι -> Protort.Node}
  {tracks tracks' : ι -> Track ι} {event : Event ι}

omit [DecidableEq ι] in
theorem own_step {t t' : Track ι} {tag : Option (Way ι)} {event : Node.Event}
    (h : t.step tag event = some t') : t.own.step event = some t'.own := by
  rcases Option.map_eq_some_iff.mp h with ⟨own, hown, rfl⟩
  refine hown.trans (congrArg some ?_)
  cases event with
  | run env index =>
      simp only
      cases t.own.node.service[index]? with
      | none => rfl
      | some task => rfl
  | _ => rfl

theorem forall_tracks {P : ι -> Track ι -> Prop} (h : forall z, P z (tracks z))
    {x : ι} {t : Track ι} (ht : P x t) (z : ι) :
    P z (Function.update tracks x t z) := by
  by_cases hz : z = x
  · subst z
    rw [Function.update_self]
    exact ht
  · rw [Function.update_of_ne hz]
    exact h z

omit [DecidableEq ι] in
theorem Works.withoutMessage {r : Node.Router} {t : Track ι}
    (h : Works order scale r t.own) (index : Nat) :
    Works order scale r (t.withoutMessage index).own :=
  { objects := h.objects
    whole :=
      { service := h.whole.service
        outbox := fun m hm => h.whole.outbox m (List.mem_of_mem_eraseIdx hm) }
    queued := h.queued
    emitted := h.emitted }

theorem bears_of_isOwn {event : Node.Event} (h : isOwn event = true) :
    Bears order event := by
  cases event with
  | message env origin payload => cases h
  | _ => exact trivial

omit [DecidableEq ι] in
theorem GoesAlong.leadsTo {x y : ι} {m : Outgoing} {mark : Option Via}
    (h : GoesAlong sys x (m, mark)) (hy : peer x m.client = some y)
    (hname : m.payload.asCommunicationPacket.destination.name ∈
      (sys y).router.components) :
    exists edge : Edge ι, edge.LeadsTo peer sys y
        m.payload.asCommunicationPacket.destination.name
        m.payload.asCommunicationPacket.destination.port ∧
      edge.Brought none (wayOf x m mark) := by
  rcases h with ⟨via, route, rfl, hroute, hclient, hdestination⟩
  rw [hclient] at hy
  rw [hdestination] at hname ⊢
  refine ⟨⟨x, via, some route.client⟩, ⟨hroute, hy, hname⟩, ?_⟩
  show wayOf x m (some via) = some ⟨x, route.client, via⟩
  rw [← hclient]
  rfl

/-- Everything that happens in order keeps the streams. -/
theorem InStreams.step (horder : AllInOrder peer tracks event)
    (halike : Alike order scale event.platform)
    (hfollow : follow peer tracks event = some tracks')
    (h : InStreams order scale peer sys tracks) :
    InStreams order scale peer sys tracks' := by
  have hturn := h.packetsInOrder.step horder hfollow
  cases followCases hfollow with
  | @node x event t hown hstep =>
      have hfollowed := h.packetsInOrder.followed x
      exact
        { packetsInOrder := hturn
          works := forall_tracks
            (P := fun z t => Works order scale (sys z).router t.own) h.works
            ((h.works x).step hfollowed.own (kept_of_isOwn hown) halike
              (bears_of_isOwn hown) (own_step hstep))
          sourced := forall_tracks h.sourced
            ((h.sourced x).step hfollowed hown hstep) }
  | @deliver env' x y index m t hm hy hstep =>
      have hfollowed : forall z, Followed (sys z).router
          (Function.update tracks x ((tracks x).withoutMessage index) z) :=
        forall_tracks (P := fun z t => Followed (sys z).router t)
          h.packetsInOrder.followed
          ((h.packetsInOrder.followed x).withoutMessage index)
      have hworks : forall z, Works order scale (sys z).router
          (Function.update tracks x ((tracks x).withoutMessage index) z).own :=
        forall_tracks (P := fun z t => Works order scale (sys z).router t.own)
          h.works ((h.works x).withoutMessage index)
      have hsourced : forall z, Sourced peer sys z
          (Function.update tracks x ((tracks x).withoutMessage index) z) :=
        forall_tracks h.sourced ((h.sourced x).withoutMessage index)
      have hentry : (m, ((tracks x).marks[index]?).join) ∈
          (tracks x).own.node.outbox.zip (tracks x).marks :=
        (h.packetsInOrder.followed x).mem_outbox hm
      have halong := (h.sourced x).outbox _ hentry
      have hkept : (Node.Event.message env' (some m.origin)
          m.payload).isDeployment = false := rfl
      have hbears : Bears order (Node.Event.message env' (some m.origin)
          m.payload) :=
        (h.works x).whole.outbox m (List.mem_of_getElem? hm)
      exact
        { packetsInOrder := hturn
          works := forall_tracks
            (P := fun z t => Works order scale (sys z).router t.own) hworks
            ((hworks y).step (hfollowed y).own hkept halike hbears
              (own_step hstep))
          sourced := forall_tracks hsourced
            ((hsourced y).arrive (hfollowed y) (halong.leadsTo hy) hstep) }

end Moves

/-!
## Rows of components
-/

/-- A node that was deployed and has not begun: nothing of its router is
queued, and nothing is on its way. -/
structure Unbegun (n : Protort.Node) : Prop where
  consistent : n.Consistent
  pending : Node.pendingTasks n.router.address n = 0
  outbox : n.outbox = []

structure Outlet (ι : Type u) where
  node : ι
  component : String
  port : Parser.PortId

def payloadsAt (sys : ι -> Protort.Node) (tracks : ι -> Track ι)
    (o : Outlet ι) : List Bytes :=
  (tracks o.node).own.emittedOn (sys o.node).router.address o.component o.port

def emitted (order : ByteOrder) (sys : ι -> Protort.Node)
    (tracks : ι -> Track ι) (o : Outlet ι) : List Data :=
  (payloadsAt sys tracks o).map (readPayload order)

/-- Nothing that is queued holds a payload, and nothing is on its way. -/
def NothingUnderWay (tracks : ι -> Track ι) : Prop :=
  forall z, (nodesOf tracks z).outbox = [] ∧
    forall task, task ∈ (nodesOf tracks z).service -> task.payloads = []

instance [Fintype ι] (tracks : ι -> Track ι) :
    Decidable (NothingUnderWay tracks) :=
  inferInstanceAs (Decidable (forall _, _ ∧ _))

/-- A row of components, each of which has one connection, from the component in
front of it: at its end it makes a function of what is emitted at its
beginning. -/
inductive Row (scale : UInt32 -> UInt32) (peer : ι -> Node.Client -> Option ι)
    (sys : ι -> Protort.Node) (o : Outlet ι) :
    Outlet ι -> (Data -> List Data) -> Prop where
  | start : Row scale peer sys o o (fun d => [d])
  | next {edge : Edge ι} {f : Data -> List Data} {y : ι} {name : String}
      {inPort : Parser.PortId} {c : Component} (port : Parser.PortId) :
      Row scale peer sys o ⟨edge.source, edge.via.source, edge.via.port⟩ f ->
      edge.IsOnly peer sys y name inPort ->
      (sys y).router.objectAt name = some c -> c.isGenerator = false ->
      Row scale peer sys o ⟨y, name, port⟩
        (fun d => (f d).flatMap (stage scale c inPort port))

section Rows

variable {order : ByteOrder} {scale : UInt32 -> UInt32}
  {peer : ι -> Node.Client -> Option ι} {sys : ι -> Protort.Node}
  {tracks : ι -> Track ι}

omit [DecidableEq ι] in
theorem Unbegun.stays {n : Protort.Node} (h : Unbegun n) : Stays n.router n :=
  { consistent := h.consistent
    address := rfl
    routes := fun _ _ => rfl
    idle := fun _ => h.pending }

theorem Unbegun.not_own {n : Protort.Node} (h : Unbegun n) {task : Task}
    (htask : task ∈ n.service) : task.router ≠ n.router.address :=
  fun hrouter => List.countP_eq_zero.mp h.pending task htask
    (decide_eq_true hrouter)

theorem works_start {n : Protort.Node} (h : Unbegun n) :
    Works order scale n.router (Tracked.start n) := by
  have hservice : forall task, task ∈ n.service ->
      task.Whole order n.router.address :=
    fun task htask hrouter => absurd hrouter (h.not_own htask)
  refine
    { objects := fun _ => rfl
      whole :=
        { service := hservice
          outbox := by
            intro m hm
            change m ∈ n.outbox at hm
            rw [h.outbox] at hm
            cases hm }
      queued := hservice
      emitted := ?_ }
  intro name c port _ _
  refine List.map_eq_nil_iff.mpr
    (List.flatMap_eq_nil_iff.mpr (fun task htask => ?_))
  have hrouter := h.not_own htask
  cases task with
  | doRoute address compInst outputs =>
      cases compInst with
      | none => rfl
      | some other => exact if_neg (fun hsame => hrouter hsame.left)
  | _ => rfl

theorem sourced_start {y : ι} (h : Unbegun (sys y)) :
    Sourced peer sys y (Track.start (sys y)) := by
  refine
    { entries := ?_
      outbox := ?_
      processed := ?_ }
  · rintro ⟨task, via, way⟩ hentry
    have hrouter := h.not_own (List.of_mem_zip hentry).left
    cases task with
    | doProcess ref origin inPort payload =>
        exact fun hsame => absurd hsame hrouter
    | _ => exact trivial
  · intro entry hentry
    have hmem : entry.1 ∈ (sys y).outbox := (List.of_mem_zip hentry).left
    rw [h.outbox] at hmem
    cases hmem
  · intro name inPort edge _
    unfold cameOver
    cases edge.client with
    | _ => rfl

theorem inStreams_start (hsys : forall z, Unbegun (sys z)) :
    InStreams order scale peer sys (fun z => Track.start (sys z)) :=
  { packetsInOrder := packetsInOrder_start (fun z => (hsys z).stays)
    works := fun y => works_start (hsys y)
    sourced := fun y => sourced_start (hsys y) }

omit [DecidableEq ι] in
theorem emittedBy_silent {address : Nat} {c : String} {port : Parser.PortId}
    {task : Task} (h : task.payloads = []) :
    Node.emittedBy address c port task = [] := by
  cases task with
  | doRoute router compInst outputs =>
      have hempty : outputs = [] := List.map_eq_nil_iff.mp h
      subst hempty
      cases compInst with
      | none => rfl
      | some name => exact ite_self _
  | _ => rfl

omit [DecidableEq ι] in
theorem NothingUnderWay.unrouted (h : NothingUnderWay tracks) (x : ι)
    (address : Nat) (via : Via) : (tracks x).unrouted address via = [] :=
  List.flatMap_eq_nil_iff.mpr (fun task htask =>
    emittedBy_silent ((h x).right task htask))

/-- What came over a connection is the beginning of what was emitted on the port
that it starts from, and all of that when nothing is under way. -/
theorem InStreams.edge (h : InStreams order scale peer sys tracks)
    {edge : Edge ι} {y : ι} {name : String} {inPort : Parser.PortId}
    (hleads : edge.LeadsTo peer sys y name inPort) :
    exists rest,
      cameOver (tracks y) (sys y).router.address edge name inPort ++ rest =
        payloadsAt sys tracks
          ⟨edge.source, edge.via.source, edge.via.port⟩ ∧
      (NothingUnderWay tracks -> rest = []) := by
  rcases edge with ⟨source, via, client⟩
  cases client with
  | none =>
      rcases hleads with ⟨rfl, hroute⟩
      have hfollowing := (h.packetsInOrder.followed source).own
      have hordered := hfollowing.ordered via ⟨inPort, name⟩ hroute
      unfold Lib.Ordered at hordered
      rw [Node.flatMap_settleJob, Node.flatMap_settleJob,
        Node.flatMap_heldBy hfollowing.length] at hordered
      refine ⟨_, hordered, fun hsilent => ?_⟩
      have hunrouted := hsilent.unrouted source (sys source).router.address via
      unfold Track.unrouted at hunrouted
      rw [hunrouted, List.append_nil]
      refine List.flatMap_eq_nil_iff.mpr ?_
      rintro ⟨task, tag⟩ hentry
      have hnone := (hsilent source).right task (List.of_mem_zip hentry).left
      cases task with
      | doProcess ref origin inPort' payload => cases hnone
      | _ => rfl
  | some client =>
      rcases hleads with ⟨hroute, hreaches, hcomponent⟩
      have hordered := h.packetsInOrder.ordered
        (x := source) (y := y) ⟨hroute, hreaches, hcomponent⟩
      rw [List.append_nil, List.append_assoc, List.append_assoc] at hordered
      refine ⟨_, hordered, fun hsilent => ?_⟩
      rw [hsilent.unrouted, List.append_nil]
      unfold Track.queuedOver Track.onTheWay
      have hway : (tracks source).own.node.outbox = [] := (hsilent source).left
      rw [hway, List.zip_nil_left, List.flatMap_nil, List.append_nil]
      refine List.flatMap_eq_nil_iff.mpr ?_
      rintro ⟨task, tag⟩ hentry
      have hnone := (hsilent y).right task (List.of_mem_zip hentry).left
      cases task with
      | doProcess ref origin inPort' payload => cases hnone
      | _ => rfl

/-- The run lemma. -/
theorem run_inStreams {tracks' : ι -> Track ι} {events : List (Event ι)}
    (hrun : Run (Guarded (AllInOrder peer) (Steps (follow peer))) tracks events
      tracks')
    (halike : forall event, event ∈ events ->
      Alike order scale event.platform)
    (h : InStreams order scale peer sys tracks) :
    InStreams order scale peer sys tracks' := by
  induction hrun with
  | nil tracks => exact h
  | @cons tracks next tracks' event events hstep _ ih =>
      have hnext := h.step hstep.left (halike event List.mem_cons_self)
        hstep.right
      exact ih (fun event' hmem => halike event'
        (List.mem_cons_of_mem event hmem)) hnext

/-- What a component with one connection has emitted is what it makes of what
came over that. -/
theorem InStreams.emitted_eq (h : InStreams order scale peer sys tracks)
    {edge : Edge ι} {y : ι} {name : String} {inPort : Parser.PortId}
    {c : Component} (honly : edge.IsOnly peer sys y name inPort)
    (hobject : (sys y).router.objectAt name = some c)
    (hgen : c.isGenerator = false) (port : Parser.PortId) :
    emitted order sys tracks ⟨y, name, port⟩ =
      ((cameOver (tracks y) (sys y).router.address edge name inPort).map
        (readPayload order)).flatMap (stage scale c inPort port) := by
  refine ((h.works y).emitted hobject hgen).trans ?_
  rw [(h.sourced y).processed honly, List.flatMap_map, List.flatMap_map]

/-- While every connection keeps the order of its packets, what is emitted at the
end of a row is the beginning of what its function makes of what was emitted at
its beginning. -/
theorem InStreams.row (h : InStreams order scale peer sys tracks)
    {o o' : Outlet ι} {f : Data -> List Data}
    (hrow : Row scale peer sys o o' f) :
    emitted order sys tracks o' <+: (emitted order sys tracks o).flatMap f ∧
      (NothingUnderWay tracks -> emitted order sys tracks o' =
        (emitted order sys tracks o).flatMap f) := by
  induction hrow with
  | start =>
      rw [List.flatMap_singleton']
      exact ⟨List.prefix_rfl, fun _ => rfl⟩
  | @next edge f y name inPort c port _ honly hobject hgen ih =>
      rcases h.edge honly.left with ⟨rest, hrest, hsilent⟩
      have hread : emitted order sys tracks
          ⟨edge.source, edge.via.source, edge.via.port⟩ =
            (cameOver (tracks y) (sys y).router.address edge name inPort).map
              (readPayload order) ++ rest.map (readPayload order) := by
        unfold emitted
        rw [← hrest, List.map_append]
      rw [h.emitted_eq honly hobject hgen port, ← List.flatMap_assoc]
      constructor
      · have hfront : (cameOver (tracks y) (sys y).router.address edge name
            inPort).map (readPayload order) <+:
              (emitted order sys tracks o).flatMap f :=
          List.IsPrefix.trans ⟨_, hread.symm⟩ ih.left
        rcases hfront with ⟨others, hothers⟩
        rw [← hothers, List.flatMap_append]
        exact List.prefix_append _ _
      · intro hquiet
        rw [← ih.right hquiet, hread, hsilent hquiet, List.map_nil,
          List.append_nil]

/-- Whatever the order in which nodes take their turns and messages arrive, as
long as the packets of every connection keep their order, on machines of one byte
order that multiply alike: all that is emitted can be read, and what is emitted
at the end of a row is the beginning of what its function makes of what was
emitted at its beginning, and all of it when nothing is under way. -/
theorem rows_are_functions (hsys : forall z, Unbegun (sys z))
    {events : List (Event ι)}
    (halike : forall event, event ∈ events ->
      Alike order scale event.platform)
    (hrun : Run (Guarded (AllInOrder peer) (Steps (follow peer)))
      (fun z => Track.start (sys z)) events tracks) :
    (forall o payload, payload ∈ payloadsAt sys tracks o ->
      Readable order payload) ∧
    forall {o o' : Outlet ι} {f : Data -> List Data},
      Row scale peer sys o o' f ->
      emitted order sys tracks o' <+: (emitted order sys tracks o).flatMap f ∧
        (NothingUnderWay tracks -> emitted order sys tracks o' =
          (emitted order sys tracks o).flatMap f) := by
  have hend := run_inStreams hrun halike (inStreams_start hsys)
  exact ⟨fun o _ hpayload => (hend.works o.node).readable hpayload,
    fun hrow => hend.row hrow⟩

end Rows

/-!
## A generator and a calc
-/

def rowConfig (x : Bool) : Protocol.Deploy.Config :=
  { thisNodeInfo := lineInfo x
    nodeInfos := [lineInfo false, lineInfo true]
    instances := [⟨"g", Protocol.ComponentKind.generator⟩,
      ⟨"c", Protocol.ComponentKind.calc⟩]
    maps := [⟨"n1", "g"⟩, ⟨"n2", "c"⟩]
    connections := [⟨⟨0, "g"⟩, ⟨0, "c"⟩⟩] }

def row (x : Bool) : Protort.Node :=
  (Lib.execute Node.step (Node.new 100 0)
    [Node.deployRequest (rowConfig x)]).getD (Node.new 100 0)

def timesHundred (bits : UInt32) : UInt32 :=
  if bits = 0x3F800000 then 0x42C80000 else
  if bits = 0x40000000 then 0x43480000 else bits

/-- Generators draw a value, and something stands between the fields of what is
packed. -/
def scaling (value padding : UInt32) : Platform :=
  { Platform.loopback with
    draw := fun _ => (value, 0)
    timesHundred := timesHundred
    padding := padding }

theorem alike_scaling (value padding : UInt32) :
    Alike ByteOrder.little timesHundred (scaling value padding) :=
  ⟨rfl, rfl⟩

/-- Two packets are generated and go to the calc, which has worked on one of
them and has queued what it made of it. -/
def rowEvents : List (Event Bool) :=
  let turn (value padding : UInt32) : Event Bool :=
    Event.node false (Node.Event.run (scaling value padding) 0)
  [Event.node true (Node.Event.request (scaling 0 0)
      (Protocol.Payload.deployPacket
        { kind := Protocol.Deploy.PacketKind.start
          payload := Protocol.Deploy.PacketPayload.notSet })),
    Event.node false (Node.Event.request (scaling 0x3F800000 1)
      (Protocol.Payload.deployPacket
        { kind := Protocol.Deploy.PacketKind.start
          payload := Protocol.Deploy.PacketPayload.notSet })),
    turn 0 0, turn 0x40000000 2, turn 0 0,
    Event.deliver (scaling 0 0) false 0, Event.deliver (scaling 0 0) false 0,
    Event.node true (Node.Event.run (scaling 0 3) 0)]

def rowRest : List (Event Bool) :=
  List.replicate 3 (Event.node true (Node.Event.run (scaling 0 4) 0))

def rowRoute : RemoteRoute :=
  ⟨0, "c", (((row false).router.routesAt "g" 0).remoteRoutes.map
    (fun route => route.client)).headD ⟨0, ⟨0, 0⟩⟩⟩

def rowEdge : Edge Bool :=
  ⟨false, ⟨"g", 0, 0⟩, some rowRoute.client⟩

theorem routesAt_row (x : Bool) (c : String) (p : Parser.PortId) :
    (row x).router.routesAt c p =
      if x = false ∧ c = "g" ∧ p = 0 then ⟨[], [rowRoute]⟩ else default := by
  have houtside : forall {name : String},
      (row x).router.components.keys = {name} -> c ≠ name ->
        (row x).router.routesAt c p = default := by
    intro name hkeys hc
    have hnot : c ∉ (row x).router.components := by
      rw [← Finmap.mem_keys, hkeys]
      exact fun hmem => hc (Finset.mem_singleton.mp hmem)
    unfold Node.Router.routesAt
    rw [Lib.Table.get_of_notMem hnot]
    rfl
  have hport : forall (name : String) (ports : Finset Parser.PortId),
      (Lib.Table.get (row x).router.components name).portToRoutes.keys =
          ports ->
        p ∉ ports -> (row x).router.routesAt name p = default := by
    intro name ports hkeys hp
    rw [← hkeys, Finmap.mem_keys] at hp
    unfold Node.Router.routesAt
    exact Lib.Table.get_of_notMem hp
  cases x with
  | false =>
      by_cases hc : c = "g"
      · subst hc
        by_cases hp : p = 0
        · subst hp
          decide +kernel
        · rw [if_neg (fun h => hp h.right.right)]
          exact hport "g" {0} (by decide +kernel)
            (fun hmem => hp (Finset.mem_singleton.mp hmem))
      · rw [if_neg (fun h => hc h.right.left)]
        exact houtside (by decide +kernel) hc
  | true =>
      rw [if_neg (fun h => Bool.noConfusion h.left)]
      by_cases hc : c = "c"
      · subst hc
        exact hport "c" ∅ (by decide +kernel) (Finset.notMem_empty p)
      · exact houtside (by decide +kernel) hc

theorem isOnly_rowEdge : rowEdge.IsOnly linePeer row true "c" 0 := by
  constructor
  · refine ⟨?_, rfl, ?_⟩
    · rw [routesAt_row]
      rfl
    · decide +kernel
  · intro other inPort hleads
    rcases other with ⟨source, ⟨c, p, index⟩, client⟩
    unfold Edge.LeadsTo at hleads
    simp only [routesAt_row] at hleads
    split_ifs at hleads with hroute
    · rcases hroute with ⟨rfl, rfl, rfl⟩
      cases client with
      | none => cases hleads.left
      | some client =>
          rcases hleads with ⟨hfound, _, _⟩
          cases index with
          | zero =>
              have hclient : rowRoute.client = client :=
                congrArg RemoteRoute.client (Option.some.inj hfound)
              subst hclient
              rfl
          | succ index => cases hfound
    · cases client with
      | none => cases hleads.right
      | some client => cases hleads.left

theorem unbegun_row (x : Bool) : Unbegun (row x) := by
  have hstep : Node.step (Node.new 100 0)
      (Node.deployRequest (rowConfig x)) = some (row x) := by
    cases x with
    | false => decide +kernel
    | true => decide +kernel
  have hdeployed : Node.JustDeployed (row x) :=
    ⟨Node.new 100 0, _, _, ⟨100, 0, [], Run.nil _⟩, rfl, hstep⟩
  refine
    { consistent := hdeployed.stays.consistent
      pending := ?_
      outbox := ?_ }
  · cases x with
    | false => decide +kernel
    | true => decide +kernel
  · cases x with
    | false => decide +kernel
    | true => decide +kernel

theorem alike_row (event : Event Bool) (h : event ∈ rowEvents ++ rowRest) :
    Alike ByteOrder.little timesHundred event.platform := by
  have hall : (rowEvents ++ rowRest).map Event.platform =
      [scaling 0 0, scaling 0x3F800000 1, scaling 0 0, scaling 0x40000000 2,
        scaling 0 0, scaling 0 0, scaling 0 0, scaling 0 3, scaling 0 4,
        scaling 0 4, scaling 0 4] := rfl
  have hmem := List.mem_map_of_mem (f := Event.platform) h
  rw [hall] at hmem
  simp only [List.mem_cons, List.not_mem_nil, or_false] at hmem
  rcases hmem with heq | heq | heq | heq | heq | heq | heq | heq | heq | heq |
    heq
  all_goals
    rw [heq]
    exact alike_scaling _ _

theorem rows_are_functions_row :
    exists tracks tracks' c,
      Run (Guarded (AllInOrder linePeer) (Steps (follow linePeer)))
        (fun z => Track.start (row z)) rowEvents tracks ∧
      Run (Guarded (AllInOrder linePeer) (Steps (follow linePeer)))
        tracks rowRest tracks' ∧
      (row true).router.objectAt "c" = some c ∧
      (payloadsAt row tracks ⟨false, "g", 0⟩).map (fun payload =>
        (payload.drop 4).take 4) = [[1, 0, 0, 0], [2, 0, 0, 0]] ∧
      (emitted ByteOrder.little row tracks ⟨false, "g", 0⟩).map
        (fun d => d.val) = [0x3F800000, 0x40000000] ∧
      (emitted ByteOrder.little row tracks ⟨true, "c", 0⟩).map
        (fun d => d.val) = [0x42C80000] ∧
      emitted ByteOrder.little row tracks ⟨true, "c", 0⟩ <+:
        (emitted ByteOrder.little row tracks ⟨false, "g", 0⟩).flatMap
          (fun d => [d].flatMap (stage timesHundred c 0 0)) ∧
      (forall payload, payload ∈ payloadsAt row tracks' ⟨true, "c", 0⟩ ->
        Readable ByteOrder.little payload) ∧
      emitted ByteOrder.little row tracks' ⟨true, "c", 0⟩ =
        (emitted ByteOrder.little row tracks' ⟨false, "g", 0⟩).flatMap
          (fun d => [d].flatMap (stage timesHundred c 0 0)) := by
  let next := fun tracks event =>
    if AllInOrder linePeer tracks event then
      follow linePeer tracks event
    else
      none
  have hfound : (Lib.execute next (fun z => Track.start (row z))
      rowEvents).bind (fun tracks =>
        (Lib.execute next tracks rowRest).map (fun tracks' =>
          ((payloadsAt row tracks ⟨false, "g", 0⟩).map (fun payload =>
            (payload.drop 4).take 4),
          (emitted ByteOrder.little row tracks ⟨false, "g", 0⟩).map
            (fun d => d.val),
          (emitted ByteOrder.little row tracks ⟨true, "c", 0⟩).map
            (fun d => d.val), decide (NothingUnderWay tracks')))) =
      some ([[1, 0, 0, 0], [2, 0, 0, 0]], [0x3F800000, 0x40000000],
        [0x42C80000], true) := by
    decide +kernel
  have hobject : ((row true).router.objectAt "c").map
      Component.isGenerator = some false := by
    decide +kernel
  rcases Option.bind_eq_some_iff.mp hfound with ⟨tracks, hfirst, hsecond⟩
  rcases Option.map_eq_some_iff.mp hsecond with ⟨tracks', hrest, hvalues⟩
  rcases Option.map_eq_some_iff.mp hobject with ⟨c, hc, hgen⟩
  simp only [Prod.mk.injEq, decide_eq_true_eq] at hvalues
  rcases hvalues with ⟨hpadding, hgenerated, hscaled, hsilent⟩
  have hrun := Run.guarded_of_execute hfirst
  have hrunRest := Run.guarded_of_execute hrest
  have halike : forall event, event ∈ rowEvents ->
      Alike ByteOrder.little timesHundred event.platform :=
    fun event hmem => alike_row event (List.mem_append_left rowRest hmem)
  have hstart : Row timesHundred linePeer row ⟨false, "g", 0⟩
      ⟨rowEdge.source, rowEdge.via.source, rowEdge.via.port⟩ _ := Row.start
  have hrow := Row.next 0 hstart isOnly_rowEdge hc hgen
  have hpart := (rows_are_functions unbegun_row halike hrun).right hrow
  have hall := rows_are_functions unbegun_row alike_row (hrun.append hrunRest)
  exact ⟨tracks, tracks', c, hrun, hrunRest, hc, hpadding, hgenerated, hscaled,
    hpart.left, hall.left ⟨true, "c", 0⟩, (hall.right hrow).right hsilent⟩

end Nodes

end System
end Protort
