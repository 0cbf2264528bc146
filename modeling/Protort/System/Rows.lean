import Protort.System.Channels
import Protort.System.Streams

/-!
# Rows of components over connections

The components of a row may be on any nodes, and what one of them sends to the
next goes as bytes over a connection, in chunks of any size at any time.

What is emitted at the end of the row is the beginning of what the composition
of its functions makes of what is emitted at its beginning, and all of that when
neither the nodes nor the connections can go on.
-/

namespace Protort
namespace System

open Lib (Bytes ByteOrder Memory Run Steps Guarded)
open Link (Buffer)
open Node (Task Tracked)
open Components (Data Readable)
open Nodes (Track InStreams Outlet Row Unbegun nodesOf)

universe u

variable {ι : Type u}

/-!
## What is queued
-/

def leftBy (event : Node.Event) (tasks : Nat) : Nat :=
  match event with
  | Node.Event.run _ _ => tasks - 1
  | _ => tasks

section TasksLeft

variable [DecidableEq ι]

/-- How many tasks of a node are left, where one node has an event of its
own. -/
def tasksLeft (nodes : ι -> Protort.Node) (own : Option (ι × Node.Event))
    (z : ι) : Nat :=
  match own with
  | some (x, event) =>
      if z = x then
        leftBy event (nodes z).service.length
      else
        (nodes z).service.length
  | none => (nodes z).service.length

theorem tasksLeft_congr {nodes nodes' : ι -> Protort.Node} {z : ι}
    (h : (nodes z).service = (nodes' z).service)
    (own : Option (ι × Node.Event)) :
    tasksLeft nodes own z = tasksLeft nodes' own z := by
  unfold tasksLeft
  rw [h]

theorem tasksLeft_of_ne {nodes : ι -> Protort.Node} {x z : ι} (h : z ≠ x)
    (event : Node.Event) :
    tasksLeft nodes (some (x, event)) z = (nodes z).service.length :=
  if_neg h

theorem tasksLeft_self (nodes : ι -> Protort.Node) (x : ι)
    (event : Node.Event) :
    tasksLeft nodes (some (x, event)) x =
      leftBy event (nodes x).service.length :=
  if_pos rfl

end TasksLeft

theorem queued_step {t t' : Tracked} {event : Node.Event}
    (hlength : t.vias.length = t.node.service.length)
    (h : t.step event = some t') :
    t'.queued = t.queued ++
      t'.node.service.drop (leftBy event t.node.service.length) := by
  rcases Option.map_eq_some_iff.mp h with ⟨n, hn, rfl⟩
  cases event with
  | request env payload =>
      unfold leftBy
      rw [← hlength]
      rfl
  | message env origin payload =>
      unfold leftBy
      rw [← hlength]
      rfl
  | run env index =>
      cases htask : t.node.service[index]? with
      | none =>
          simp only [Node.step, htask] at hn
          cases hn
      | some task =>
          rcases List.getElem?_eq_some_iff.mp htask with ⟨hindex, _⟩
          have htaken : (t.vias.eraseIdx index).length =
              t.node.service.length - 1 := by
            rw [List.length_eraseIdx_of_lt (hlength ▸ hindex), hlength]
          simp only [htask]
          show t.queued ++ n.service.drop (t.vias.eraseIdx index).length =
            t.queued ++ n.service.drop (t.node.service.length - 1)
          rw [htaken]

section Follow

variable [DecidableEq ι] {peer : ι -> Node.Client -> Option ι}
  {tracks tracks' : ι -> Track ι} {event : Nodes.Event ι}

theorem queued_follow
    (hlength : forall z,
      (tracks z).own.vias.length = (nodesOf tracks z).service.length)
    (h : Nodes.follow peer tracks event = some tracks') (z : ι) :
    (tracks' z).own.queued = (tracks z).own.queued ++
      (nodesOf tracks' z).service.drop
        (tasksLeft (nodesOf tracks) (Nodes.ownOf event) z) := by
  cases Nodes.followCases h with
  | @node x event t hown hstep =>
      unfold nodesOf
      by_cases hz : z = x
      · subst z
        simp only [Function.update_self, Nodes.ownOf, tasksLeft_self]
        exact queued_step (hlength x) (Nodes.own_step hstep)
      · simp only [Function.update_of_ne hz, Nodes.ownOf, tasksLeft_of_ne hz,
          List.drop_length, List.append_nil]
  | @deliver env x y index m t hm hy hstep =>
      have hown := Nodes.own_step hstep
      have htaken : forall {A : Type} (g : Track ι -> A),
          g ((tracks x).withoutMessage index) = g (tracks x) ->
          g (Function.update tracks x ((tracks x).withoutMessage index) z) =
            g (tracks z) :=
        fun g hg => Nodes.eq_of_withoutMessage tracks x index hg z
      have hqueued := htaken (fun t => t.own.queued) rfl
      have hservice := htaken (fun t => t.own.node.service) rfl
      have hvias := htaken (fun t => t.own.vias) rfl
      unfold nodesOf
      by_cases hz : z = y
      · subst z
        rw [Function.update_self, ← hqueued]
        show _ = _ ++ t.own.node.service.drop (tracks y).own.node.service.length
        rw [← hservice]
        apply queued_step _ hown
        rw [hvias, hservice]
        exact hlength y
      · rw [Function.update_of_ne hz, hqueued, hservice]
        show _ = _ ++ (tracks z).own.node.service.drop
          (tracks z).own.node.service.length
        rw [List.drop_length, List.append_nil]

end Follow

/-!
## Nodes with channels
-/

/-- Linked nodes with all tasks that each of them ever had in its queue. -/
structure Recorded (ι : Type u) where
  linked : Linked ι
  queued : ι -> List Task

namespace Linked

def Event.platform : Event ι -> Option Platform
  | Event.node _ event _ => some (Nodes.ownPlatform event)
  | Event.readDone _ _ env _ _ => some env
  | _ => none

/-- What may happen next while every node has one worker.  A message does not
arrive before the router it is for is started. -/
def WorkersInOrder (peer : ι -> Node.Client -> Option ι) (s : Linked ι)
    (e : Event ι) : Prop :=
  match e with
  | Event.node x event _ => Node.InOrder (Tracked.start (s.nodes x)) event
  | Event.readDone x c _ _ _ =>
      (peer x c).all (fun y =>
        ((s.channels x c).session (s.nodes y)).body.isNone ||
          (s.nodes y).router.started) = true
  | _ => True

instance (peer : ι -> Node.Client -> Option ι) (s : Linked ι) (e : Event ι) :
    Decidable (WorkersInOrder peer s e) :=
  match e with
  | Event.node x event _ =>
      inferInstanceAs
        (Decidable (Node.InOrder (Tracked.start (s.nodes x)) event))
  | Event.readDone _ _ _ _ _ => inferInstanceAs (Decidable (_ = true))
  | Event.client _ _ _ => isTrue trivial
  | Event.there _ _ _ => isTrue trivial
  | Event.connection _ _ _ => isTrue trivial

/-- No channel can go on, and nothing that is queued holds a payload. -/
def Standstill (platform : Platform) (s : Linked ι) : Prop :=
  forall z, (forall c, (s.channels z c).Settled platform) ∧
    forall task, task ∈ (s.nodes z).service -> task.payloads = []

end Linked

namespace Recorded

def start (s : Linked ι) : Recorded ι :=
  { linked := s
    queued := fun z => (s.nodes z).service }

/-- The payloads that were emitted on an output port, where `sys` are the nodes
as they were deployed. -/
def payloadsAt (sys : ι -> Protort.Node) (w : Recorded ι) (o : Outlet ι) :
    List Bytes :=
  (w.queued o.node).flatMap
    (Node.emittedBy (sys o.node).router.address o.component o.port)

def emitted (order : ByteOrder) (sys : ι -> Protort.Node) (w : Recorded ι)
    (o : Outlet ι) : List Data :=
  (payloadsAt sys w o).map (readPayload order)

variable [DecidableEq ι]

def step (platform : Platform) (peer : ι -> Node.Client -> Option ι)
    (w : Recorded ι) (e : Linked.Event ι) : Option (Recorded ι) :=
  (Linked.step platform peer w.linked e).map (fun t =>
    { linked := t
      queued := fun z => w.queued z ++ (t.nodes z).service.drop
        (tasksLeft w.linked.nodes (Linked.ownOf e) z) })

omit [DecidableEq ι] in
/-- Clients are given one message at a time, and every node has one worker. -/
def InSequence (platform : Platform) (peer : ι -> Node.Client -> Option ι)
    (w : Recorded ι) (e : Linked.Event ι) : Prop :=
  Linked.OneAtATime platform w.linked e ∧ Linked.WorkersInOrder peer w.linked e

omit [DecidableEq ι] in
instance (platform : Platform) (peer : ι -> Node.Client -> Option ι)
    (w : Recorded ι) (e : Linked.Event ι) :
    Decidable (InSequence platform peer w e) :=
  inferInstanceAs (Decidable (_ ∧ _))

/-!
## The nodes without the connections
-/

section Follows

variable {platform : Platform} {order : ByteOrder} {scale : UInt32 -> UInt32}
  {peer : ι -> Node.Client -> Option ι} {sys : ι -> Protort.Node}
  {w w' : Recorded ι} {tracks : ι -> Track ι} {s : Linked ι}

/-- The same nodes when they hand their messages over directly, each connection
in order. -/
structure Follows (platform : Platform) (order : ByteOrder)
    (scale : UInt32 -> UInt32) (peer : ι -> Node.Client -> Option ι)
    (sys : ι -> Protort.Node) (w : Recorded ι) (tracks : ι -> Track ι) :
    Prop where
  direct : Linked.Direct platform w.linked (nodesOf tracks)
  queued : forall z, w.queued z = (tracks z).own.queued
  streams : InStreams order scale peer sys tracks

omit [DecidableEq ι] in
theorem direct_service (h : Linked.Direct platform s (nodesOf tracks)) (z : ι) :
    (s.nodes z).service = (nodesOf tracks z).service :=
  (congrArg Protort.Node.service (h.node z)).symm

omit [DecidableEq ι] in
theorem direct_router (h : Linked.Direct platform s (nodesOf tracks)) (z : ι) :
    (s.nodes z).router = (nodesOf tracks z).router :=
  (congrArg Protort.Node.router (h.node z)).symm

omit [DecidableEq ι] in
theorem inOrder_congr {t t' : Tracked}
    (h : t.node.service = t'.node.service) {event : Node.Event}
    (horder : Node.InOrder t event) : Node.InOrder t' event := by
  cases event with
  | run env index =>
      unfold Node.InOrder at horder ⊢
      rw [← h]
      exact horder
  | request env payload => exact horder
  | message env origin payload => exact horder

theorem length_vias (h : InStreams order scale peer sys tracks) (z : ι) :
    (tracks z).own.vias.length = (nodesOf tracks z).service.length :=
  (h.packetsInOrder.followed z).own.length

theorem follow_of_step {event : Nodes.Event ι} {sys' : ι -> Protort.Node}
    (h : Nodes.step peer (nodesOf tracks) event = some sys') :
    exists tracks', Nodes.follow peer tracks event = some tracks' ∧
      nodesOf tracks' = sys' := by
  rw [← Nodes.nodesOf_follow] at h
  exact Option.map_eq_some_iff.mp h

theorem Follows.matched (h : Follows platform order scale peer sys w tracks)
    {t : Linked ι} {event : Nodes.Event ι} {sys' : ι -> Protort.Node}
    (horder : Nodes.AllInOrder peer tracks event)
    (halike : Alike order scale event.platform)
    (hstep : Nodes.step peer (nodesOf tracks) event = some sys')
    (hafter : Linked.Direct platform t sys') :
    exists tracks', Follows platform order scale peer sys
      { linked := t
        queued := fun z => w.queued z ++ (t.nodes z).service.drop
          (tasksLeft w.linked.nodes (Nodes.ownOf event) z) } tracks' := by
  rcases follow_of_step hstep with ⟨tracks', hfollow, rfl⟩
  refine ⟨tracks',
    { direct := hafter
      queued := ?_
      streams := h.streams.step horder halike hfollow }⟩
  intro z
  show w.queued z ++ (t.nodes z).service.drop _ = _
  rw [h.queued z, direct_service hafter z,
    tasksLeft_congr (direct_service h.direct z)]
  exact (queued_follow (length_vias h.streams) hfollow z).symm

theorem Follows.quiet (h : Follows platform order scale peer sys w tracks)
    {t : Linked ι} (hafter : Linked.Direct platform t (nodesOf tracks)) :
    Follows platform order scale peer sys
      { linked := t
        queued := fun z => w.queued z ++ (t.nodes z).service.drop
          (tasksLeft w.linked.nodes none z) } tracks := by
  refine
    { direct := hafter
      queued := ?_
      streams := h.streams }
  intro z
  show w.queued z ++
    (t.nodes z).service.drop (w.linked.nodes z).service.length = _
  rw [direct_service hafter z, direct_service h.direct z, List.drop_length,
    List.append_nil]
  exact h.queued z

/-- The step lemma. -/
theorem Follows.step (h : Follows platform order scale peer sys w tracks)
    {e : Linked.Event ι} (horderly : InSequence platform peer w e)
    (halike : forall env, e.platform = some env -> Alike order scale env)
    (hstep : step platform peer w e = some w') :
    exists tracks', Follows platform order scale peer sys w' tracks' := by
  rcases horderly with ⟨hone, horder⟩
  rcases Option.map_eq_some_iff.mp hstep with ⟨t, ht, rfl⟩
  cases h.direct.goes ht with
  | @own x event garbage n hown hn =>
      have hmoves : exists sys', Nodes.step peer (nodesOf tracks)
          (Nodes.Event.node x event) = some sys' ∧
          Linked.Direct platform (w.linked.withNode platform garbage x n)
            sys' := h.direct.own hown hn (hone.ready hn) garbage
      rcases hmoves with ⟨sys', hsys', hafter⟩
      have horder' : Nodes.AllInOrder peer tracks (Nodes.Event.node x event) :=
        inOrder_congr (direct_service h.direct x) horder
      exact h.matched horder' (halike _ rfl) hsys' hafter
  | quiet hnone hafter =>
      rw [hnone]
      exact ⟨tracks, h.quiet hafter⟩
  | @message x y c env' garbage sending ch m rest n hpeer hbody hwaiting hch
      hn =>
      rcases h.direct.deliver hpeer hwaiting hch hn sending with
        ⟨index, sys', ⟨hm, hclient, hfirst⟩, hsys', hafter⟩
      have hstarted : (nodesOf tracks y).router.started = true := by
        have hready : (((w.linked.channels x c).session
            (w.linked.nodes y)).body.isNone ||
              (w.linked.nodes y).router.started) = true := by
          have hall : (peer x c).all _ = true := horder
          rw [hpeer] at hall
          exact hall
        rw [Option.isNone_eq_false_iff.mpr hbody, Bool.false_or] at hready
        rw [← direct_router h.direct y]
        exact hready
      have horder' : Nodes.AllInOrder peer tracks
          (Nodes.Event.deliver env' x index) := by
        show ((nodesOf tracks x).outbox[index]?).all _ = true
        rw [hm, Option.all_some, Bool.and_eq_true]
        constructor
        · rw [List.all_eq_true]
          exact fun other hother => decide_eq_true (hfirst other hother)
        · rw [hclient, hpeer]
          exact hstarted
      exact h.matched horder' (halike env' rfl) hsys' hafter

/-- The run lemma. -/
theorem Follows.run (h : Follows platform order scale peer sys w tracks)
    {labels : List (Linked.Event ι)}
    (hrun : Run (Guarded (InSequence platform peer)
      (Steps (Recorded.step platform peer))) w labels w')
    (halike : forall e, e ∈ labels ->
      forall env, e.platform = some env -> Alike order scale env) :
    exists tracks', Follows platform order scale peer sys w' tracks' := by
  induction hrun generalizing tracks with
  | nil w => exact ⟨tracks, h⟩
  | @cons w next w' e labels hstep _ ih =>
      rcases h.step hstep.left (halike e List.mem_cons_self) hstep.right with
        ⟨tracks', hnext⟩
      exact ih hnext (fun e' hmem => halike e' (List.mem_cons_of_mem e hmem))

theorem follows_start (platform : Platform) (order : ByteOrder)
    (scale : UInt32 -> UInt32) (peer : ι -> Node.Client -> Option ι)
    (here there : ι -> Node.Client -> Buffer -> Memory)
    (hsys : forall z, Unbegun (sys z)) :
    Follows platform order scale peer sys (start (Linked.start here there sys))
      (fun z => Track.start (sys z)) :=
  { direct := Linked.direct_start platform here there
      (fun z => (hsys z).outbox)
    queued := fun _ => rfl
    streams := Nodes.inStreams_start hsys }

omit [DecidableEq ι] in
/-- Nothing is under way where nothing can go on. -/
theorem nothingUnderWay_of_standstill (hrest : Linked.Standstill platform s)
    (hdirect : Linked.Direct platform s (nodesOf tracks)) :
    Nodes.NothingUnderWay tracks := by
  intro z
  constructor
  · cases hout : (nodesOf tracks z).outbox with
    | nil => rfl
    | cons m rest =>
        have hnone := (hdirect.brings z m.client).settled
          ((hrest z).left m.client)
        unfold waiting at hnone
        rw [hout] at hnone
        exact absurd (decide_eq_true rfl)
          (List.filter_eq_nil_iff.mp hnone m List.mem_cons_self)
  · rw [← direct_service hdirect z]
    exact (hrest z).right

/-- A row of components on any nodes, whose packets go as bytes over connections
in chunks of any size at any time, as long as clients are given one message at a
time and every node has one worker, on machines of one byte order that multiply
alike: all that is emitted can be read, and what is emitted at the end of the row
is the beginning of what its function makes of what was emitted at its beginning,
and all of it when nothing can go on. -/
theorem rows_over_connections (platform : Platform)
    (here there : ι -> Node.Client -> Buffer -> Memory)
    (hsys : forall z, Unbegun (sys z)) {labels : List (Linked.Event ι)}
    (halike : forall e, e ∈ labels ->
      forall env, e.platform = some env -> Alike order scale env)
    (hrun : Run (Guarded (InSequence platform peer) (Steps (step platform peer)))
      (start (Linked.start here there sys)) labels w) :
    (forall o payload, payload ∈ payloadsAt sys w o ->
      Readable order payload) ∧
    forall {o o' : Outlet ι} {f : Data -> List Data},
      Row scale peer sys o o' f ->
      emitted order sys w o' <+: (emitted order sys w o).flatMap f ∧
        (Linked.Standstill platform w.linked ->
          emitted order sys w o' = (emitted order sys w o).flatMap f) := by
  have hstart := follows_start platform order scale peer here there hsys
  rcases hstart.run hrun halike with ⟨tracks, hend⟩
  have hpayloads : forall o,
      payloadsAt sys w o = Nodes.payloadsAt sys tracks o := by
    intro o
    unfold payloadsAt
    rw [hend.queued]
    rfl
  constructor
  · intro o payload hpayload
    rw [hpayloads] at hpayload
    exact (hend.streams.works o.node).readable hpayload
  · intro o o' f hrow
    unfold emitted
    rw [hpayloads, hpayloads]
    have hdone := hend.streams.row hrow
    exact ⟨hdone.left, fun hrest =>
      hdone.right (nothingUnderWay_of_standstill hrest hend.direct)⟩

end Follows

/-!
## A generator and a calc
-/

def rowPlatform : Platform :=
  Linked.messagePlatform "c" 99

/-- Two packets are generated.  The first one is brought to the calc in pieces
and worked on, of the second some bytes are on the way. -/
def rowLabels : List (Linked.Event Bool) :=
  let c := Nodes.rowRoute.client
  let own (x : Bool) (event : Node.Event) : Linked.Event Bool :=
    Linked.Event.node x event (fun _ _ => 0)
  let start (x : Bool) (value padding : UInt32) : Linked.Event Bool :=
    own x (Node.Event.request (Nodes.scaling value padding)
      (Protocol.Payload.deployPacket
        { kind := Protocol.Deploy.PacketKind.start
          payload := Protocol.Deploy.PacketPayload.notSet }))
  let turn (x : Bool) (value padding : UInt32) : Linked.Event Bool :=
    own x (Node.Event.run (Nodes.scaling value padding) 0)
  let read (count : Nat) : List (Linked.Event Bool) :=
    [Linked.Event.connection false c
      (Protolink.Connection.Event.io (Lib.IoEvent.readSome count)),
      Linked.Event.readDone false c (Nodes.scaling 0 0) (fun _ => 0)
        (fun _ _ => 0)]
  let write (count : Nat) : Linked.Event Bool :=
    Linked.Event.client false c
      (Protolink.Client.Event.io (Lib.IoEvent.writeSome 0 count))
  [start true 0 0, start false 0x3F800000 1, turn false 0 0, write 30,
    Linked.Event.there false c 20, write 14,
    Linked.Event.client false c (Protolink.Client.Event.writeDone 0),
    turn false 0x40000000 2, turn false 0 0, Linked.Event.there false c 24] ++
  read 4 ++ read 40 ++
  [turn true 0 3, write 9, Linked.Event.there false c 7]

theorem alike_rowLabels (e : Linked.Event Bool) (h : e ∈ rowLabels)
    (env : Platform) (henv : e.platform = some env) :
    Alike ByteOrder.little Nodes.timesHundred env := by
  have hall : rowLabels.filterMap Linked.Event.platform =
      [(0, 0), (0x3F800000, 1), (0, 0), (0x40000000, 2), (0, 0), (0, 0), (0, 0),
        (0, 3)].map (fun drawn => Nodes.scaling drawn.1 drawn.2) := rfl
  have hmem : env ∈ rowLabels.filterMap Linked.Event.platform :=
    List.mem_filterMap.mpr ⟨e, h, henv⟩
  rw [hall] at hmem
  rcases List.mem_map.mp hmem with ⟨drawn, _, rfl⟩
  exact Nodes.alike_scaling drawn.1 drawn.2

theorem rows_over_connections_row :
    exists w c, Run (Guarded (InSequence rowPlatform Nodes.linePeer)
        (Steps (step rowPlatform Nodes.linePeer)))
        (start (Linked.start (fun _ _ _ _ => 0) (fun _ _ _ _ => 0) Nodes.row))
        rowLabels w ∧
      (Nodes.row true).router.objectAt "c" = some c ∧
      (payloadsAt Nodes.row w ⟨false, "g", 0⟩).map (fun payload =>
        (payload.drop 4).take 4) = [[1, 0, 0, 0], [2, 0, 0, 0]] ∧
      (emitted ByteOrder.little Nodes.row w ⟨false, "g", 0⟩).map
        (fun d => d.val) = [0x3F800000, 0x40000000] ∧
      (emitted ByteOrder.little Nodes.row w ⟨true, "c", 0⟩).map
        (fun d => d.val) = [0x42C80000] ∧
      (forall payload, payload ∈ payloadsAt Nodes.row w ⟨true, "c", 0⟩ ->
        Readable ByteOrder.little payload) ∧
      emitted ByteOrder.little Nodes.row w ⟨true, "c", 0⟩ <+:
        (emitted ByteOrder.little Nodes.row w ⟨false, "g", 0⟩).flatMap
          (fun d => [d].flatMap (stage Nodes.timesHundred c 0 0)) := by
  have hfound : (Lib.execute (fun w e =>
      if InSequence rowPlatform Nodes.linePeer w e then
        step rowPlatform Nodes.linePeer w e
      else
        none) (start (Linked.start (fun _ _ _ _ => 0) (fun _ _ _ _ => 0)
          Nodes.row)) rowLabels).map
      (fun w =>
        ((payloadsAt Nodes.row w ⟨false, "g", 0⟩).map (fun payload =>
          (payload.drop 4).take 4),
        (emitted ByteOrder.little Nodes.row w ⟨false, "g", 0⟩).map
          (fun d => d.val),
        (emitted ByteOrder.little Nodes.row w ⟨true, "c", 0⟩).map
          (fun d => d.val))) =
      some ([[1, 0, 0, 0], [2, 0, 0, 0]], [0x3F800000, 0x40000000],
        [0x42C80000]) := by
    decide +kernel
  have hobject : ((Nodes.row true).router.objectAt "c").map
      Components.Component.isGenerator = some false := by
    decide +kernel
  rcases Option.map_eq_some_iff.mp hfound with ⟨w, hexecute, hvalues⟩
  rcases Option.map_eq_some_iff.mp hobject with ⟨c, hc, hgen⟩
  simp only [Prod.mk.injEq] at hvalues
  rcases hvalues with ⟨hpadding, hgenerated, hscaled⟩
  have hrun := Run.guarded_of_execute hexecute
  have hstart : Row Nodes.timesHundred Nodes.linePeer Nodes.row
      ⟨false, "g", 0⟩
      ⟨Nodes.rowEdge.source, Nodes.rowEdge.via.source, Nodes.rowEdge.via.port⟩
      _ := Row.start
  have hrow := Row.next 0 hstart Nodes.isOnly_rowEdge hc hgen
  have hresult := rows_over_connections rowPlatform _ _ Nodes.unbegun_row
    alike_rowLabels hrun
  exact ⟨w, c, hrun, hc, hpadding, hgenerated, hscaled,
    hresult.left ⟨true, "c", 0⟩, (hresult.right hrow).left⟩

end Recorded

end System
end Protort
