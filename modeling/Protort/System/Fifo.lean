import Protort.Node.Fifo
import Protort.System.Nodes

/-!
# One worker on every node

A connection between components of two nodes keeps its packets in order too,
when every node has a single worker and a client brings its messages in the
order in which they were handed to it.

The nodes are followed as one node was: what is queued keeps the connection that
it came through, and what is on its way keeps the route that it is sent along.
-/

namespace Protort
namespace System

open Lib (Bytes Run Steps Guarded)

namespace Nodes

open Node (Via Tracked Following Stays Task Effect Outgoing RemoteRoute)

universe u

variable {ι : Type u}

/-!
## Following the packets
-/

/-- A connection to another node: the node and the client that it starts from,
a port of a component and a position among the remote routes of that port. -/
structure Way (ι : Type u) where
  node : ι
  client : Node.Client
  via : Via
deriving DecidableEq

abbrev marksOf : Node.Router -> Nat -> Option Task -> List (Option Via) :=
  Node.positionsOf Node.Routes.remoteRoutes

/-- A node that is followed, with the connection from another node for each
queued task, the route for each message on its way, and the tasks that have run
with their connections. -/
structure Track (ι : Type u) where
  own : Tracked
  ways : List (Option (Way ι))
  marks : List (Option Via)
  brought : List (Task × Option (Way ι))

namespace Track

def start (n : Protort.Node) : Track ι :=
  { own := Tracked.start n
    ways := List.replicate n.service.length none
    marks := List.replicate n.outbox.length none
    brought := [] }

def take (t : Track ι) (index : Nat) (task : Task) : Track ι :=
  { t with
    ways := t.ways.eraseIdx index
    brought := t.brought ++ [(task, (t.ways[index]?).join)] }

def advance (t : Track ι) (task : Option Task) (way : Option (Way ι))
    (own : Tracked) : Track ι :=
  { t with
    own := own
    ways := t.ways ++
      List.replicate (own.node.service.length - t.ways.length) way
    marks := t.marks ++ marksOf t.own.node.router
      (own.node.outbox.length - t.marks.length) task }

def step (t : Track ι) (way : Option (Way ι)) (event : Node.Event) :
    Option (Track ι) :=
  (t.own.step event).map (fun own =>
    match event with
    | Node.Event.run _ index =>
        match t.own.node.service[index]? with
        | some task => (t.take index task).advance (some task) none own
        | none => t.advance none none own
    | _ => t.advance none way own)

def withoutMessage (t : Track ι) (index : Nat) : Track ι :=
  { t with
    own := { t.own with node := Nodes.withoutMessage t.own.node index }
    marks := t.marks.eraseIdx index }

end Track

def nodesOf (tracks : ι -> Track ι) (x : ι) : Protort.Node :=
  (tracks x).own.node

def wayOf (x : ι) (m : Outgoing) (mark : Option Via) : Option (Way ι) :=
  mark.map (fun via => ⟨x, m.client, via⟩)

/-- What may happen next while every node has one worker and every client keeps
the order of its messages.  A message does not arrive before the router it is
for is started. -/
def AllInOrder (peer : ι -> Node.Client -> Option ι) (tracks : ι -> Track ι)
    (event : Event ι) : Prop :=
  match event with
  | Event.node x event => Node.InOrder (tracks x).own event
  | Event.deliver _ x index =>
      ((nodesOf tracks x).outbox[index]?).all (fun m =>
        ((nodesOf tracks x).outbox.take index).all (fun other =>
          decide (other.client ≠ m.client)) &&
        (peer x m.client).all (fun y =>
          (nodesOf tracks y).router.started)) = true

instance (peer : ι -> Node.Client -> Option ι) (tracks : ι -> Track ι)
    (event : Event ι) : Decidable (AllInOrder peer tracks event) :=
  match event with
  | Event.node x event =>
      inferInstanceAs (Decidable (Node.InOrder (tracks x).own event))
  | Event.deliver _ _ _ => inferInstanceAs (Decidable (_ = true))

variable [DecidableEq ι]

def follow (peer : ι -> Node.Client -> Option ι) (tracks : ι -> Track ι)
    (event : Event ι) : Option (ι -> Track ι) :=
  match event with
  | Event.node x event =>
      if isOwn event then
        ((tracks x).step none event).map (Function.update tracks x)
      else
        none
  | Event.deliver env x index =>
      match (tracks x).own.node.outbox[index]? with
      | some m =>
          match peer x m.client with
          | some y =>
              let taken :=
                Function.update tracks x ((tracks x).withoutMessage index)
              ((taken y).step (wayOf x m ((tracks x).marks[index]?).join)
                (Node.Event.message env (some m.origin) m.payload)).map
                  (Function.update taken y)
          | none => none
      | none => none

def handedBy (address : Nat) (way : Way ι) (route : RemoteRoute) :
    Task × Option (Way ι) -> List Bytes
  | (Task.doProcess ref _ inPort payload, tag) =>
      if tag = some way ∧ ref = ⟨address, route.name⟩ ∧
          inPort = route.inPort then
        [payload]
      else
        []
  | _ => []

def sentAlong (via : Via) (route : RemoteRoute) :
    Outgoing × Option Via -> List Bytes
  | (m, mark) =>
      if mark = some via ∧ m.client = route.client ∧
          m.payload.asCommunicationPacket.destination =
            { port := route.inPort, name := route.name } then
        [m.payload.asCommunicationPacket.payload]
      else
        []

namespace Track

/-- The payloads that were processed at the end of a connection. -/
def processedOver (t : Track ι) (address : Nat) (way : Way ι)
    (route : RemoteRoute) : List Bytes :=
  t.brought.flatMap (handedBy address way route)

def queuedOver (t : Track ι) (address : Nat) (way : Way ι)
    (route : RemoteRoute) : List Bytes :=
  (t.own.node.service.zip t.ways).flatMap (handedBy address way route)

def onTheWay (t : Track ι) (via : Via) (route : RemoteRoute) : List Bytes :=
  (t.own.node.outbox.zip t.marks).flatMap (sentAlong via route)

/-- The payloads that a component has emitted on a port and that are not routed
yet. -/
def unrouted (t : Track ι) (address : Nat) (via : Via) : List Bytes :=
  t.own.node.service.flatMap (Node.emittedBy address via.source via.port)

end Track

/-!
## What tasks send
-/

theorem sends_outputEffects (r : Node.Router) (c : String) (index : Nat)
    (output : Parser.PortId × Bytes) :
    Node.sends (r.outputEffects c index output) =
      (r.routesAt c output.1).remoteRoutes.map (fun route =>
        ⟨route.client, ⟨(Lib.Table.get r.components c).name, index⟩,
          Node.Router.communicationPayload
            (Lib.Table.get r.components c).name output.1 route output.2⟩) := by
  have hposts : Node.sends ((r.routesAt c output.1).localRoutes.map
      (fun route => Effect.post (Task.doProcess ⟨r.address, route.component⟩
        (some ⟨(Lib.Table.get r.components c).name, index⟩) route.inPort
        output.2))) = [] := by
    unfold Node.sends
    rw [List.filterMap_map]
    exact List.filterMap_eq_nil_iff.mpr (fun _ _ => rfl)
  unfold Node.Router.outputEffects
  simp only []
  rw [Node.sends_append, hposts, List.nil_append]
  unfold Node.sends
  rw [List.filterMap_map]
  exact congrFun List.filterMap_eq_map _

def remoteExit : Node.Exit RemoteRoute Outgoing :=
  { routes := Node.Routes.remoteRoutes
    part := Node.sends
    make := fun r c index output route =>
      ⟨route.client, ⟨(Lib.Table.get r.components c).name, index⟩,
        Node.Router.communicationPayload (Lib.Table.get r.components c).name
          output.1 route output.2⟩
    nil := rfl
    append := Node.sends_append
    made := sends_outputEffects }

theorem carries_sentAlong (r : Node.Router) (via : Via) (route : RemoteRoute) :
    remoteExit.CarriesAlong r via route (sentAlong via route) := by
  constructor
  · intro m
    have hne : ¬ (none = some via ∧ m.client = route.client ∧
        m.payload.asCommunicationPacket.destination =
          { port := route.inPort, name := route.name }) :=
      fun h => Option.some_ne_none via h.left.symm
    unfold sentAlong
    exact if_neg hne
  · intro c index output entry position
    rcases via with ⟨source, viaPort, viaIndex⟩
    rcases route with ⟨inPort, name, client⟩
    rcases entry with ⟨inPort', name', client'⟩
    refine if_congr ?_ rfl rfl
    simp only [remoteExit, Node.Router.communicationPayload,
      Protocol.Payload.asCommunicationPacket, Option.some.injEq, Via.mk.injEq,
      RemoteRoute.mk.injEq, Protocol.ComponentEndpoint.mk.injEq]
    tauto

/-!
## Steps of one node
-/

section Steps

variable {r : Node.Router}

theorem handedBy_settle (address : Nat) (way : Way ι) (route : RemoteRoute)
    (task : Task) (tag : Option (Way ι)) :
    handedBy address way route (Node.settle task, tag) =
      handedBy address way route (task, tag) := by
  cases task with
  | _ => rfl

theorem handedBy_none (address : Nat) (way : Way ι) (route : RemoteRoute)
    (task : Task) : handedBy address way route (task, none) = [] := by
  cases task with
  | doProcess ref origin inPort payload =>
      have hne : ¬ (none = some way ∧ ref = ⟨address, route.name⟩ ∧
          inPort = route.inPort) :=
        fun h => Option.some_ne_none way h.left.symm
      unfold handedBy
      exact if_neg hne
  | _ => rfl

theorem handedBy_serve (address : Nat) (way : Way ι) (route : RemoteRoute)
    {service : List Task} {ways : List (Option (Way ι))}
    (hlength : ways.length = service.length) (effects : List Effect)
    (tag : Option (Way ι)) :
    ((effects.foldl Node.serve service).zip
        (ways ++ List.replicate (Node.posted effects).length tag)).flatMap
        (handedBy address way route) =
      (service.zip ways).flatMap (handedBy address way route) ++
        (Node.posted effects).flatMap (fun task =>
          handedBy address way route (task, tag)) := by
  have hsettle : forall (tasks : List Task) (tags : List (Option (Way ι))),
      ((tasks.map Node.settle).zip tags).flatMap (handedBy address way route) =
        (tasks.zip tags).flatMap (handedBy address way route) := by
    intro tasks tags
    rw [List.zip_map_left, List.flatMap_map]
    exact congrArg ((tasks.zip tags).flatMap ·)
      (funext (fun entry => handedBy_settle address way route entry.1 entry.2))
  have hnew : forall tasks : List Task,
      (tasks.zip (List.replicate tasks.length tag)).flatMap
          (handedBy address way route) =
        tasks.flatMap (fun task => handedBy address way route (task, tag)) := by
    intro tasks
    induction tasks with
    | nil => rfl
    | cons task rest ih =>
        rw [List.length_cons, List.replicate_succ, List.zip_cons_cons,
          List.flatMap_cons, List.flatMap_cons, ih]
  rw [← hsettle, Node.map_settle_serve,
    List.zip_append (by rw [List.length_map, hlength]), List.flatMap_append,
    hsettle, hsettle, hnew]

/-- A node that is followed: there is an entry for each task and each message,
and no component has come or gone. -/
structure Followed (r : Node.Router) (t : Track ι) : Prop where
  own : Following r t.own
  mem : forall c, c ∈ t.own.node.router.components <-> c ∈ r.components
  ways : t.ways.length = t.own.node.service.length
  marks : t.marks.length = t.own.node.outbox.length

/-- What a step of a node does to its connections: it takes up what came to it,
and what leaves the queue of a component is sent along the routes. -/
structure PassesOn (r : Node.Router)
    (arrived : Way ι -> RemoteRoute -> List Bytes) (t t' : Track ι) : Prop where
  followed : Followed r t'
  handed : forall way route,
    t'.processedOver r.address way route ++ t'.queuedOver r.address way route =
      t.processedOver r.address way route ++
        t.queuedOver r.address way route ++ arrived way route
  sent : forall via route,
    (r.routesAt via.source via.port).remoteRoutes[via.index]? = some route ->
      exists moved emitted,
        t'.onTheWay via route = t.onTheWay via route ++ moved ∧
        moved ++ t'.unrouted r.address via =
          t.unrouted r.address via ++ emitted ∧
        t'.own.emittedOn r.address via.source via.port =
          t.own.emittedOn r.address via.source via.port ++ emitted

theorem emittedOn_advance {own : Tracked} {n : Protort.Node}
    (task : Option Task) {kept : List Task} {effects : List Effect}
    (hlength : own.vias.length = kept.length)
    (hservice : n.service = effects.foldl Node.serve kept) (address : Nat)
    (c : String) (port : Parser.PortId) :
    (own.advance task n).emittedOn address c port =
        own.emittedOn address c port ++
          (Node.posted effects).flatMap (Node.emittedBy address c port) ∧
      n.service.flatMap (Node.emittedBy address c port) =
        kept.flatMap (Node.emittedBy address c port) ++
          (Node.posted effects).flatMap (Node.emittedBy address c port) := by
  constructor
  · have hposted : (n.service.drop own.vias.length).flatMap
        (Node.emittedBy address c port) =
          (Node.posted effects).flatMap (Node.emittedBy address c port) := by
      rw [← Node.flatMap_settle, hservice, hlength, Node.map_settle_drop,
        Node.flatMap_settle]
    rw [← hposted]
    exact List.flatMap_append
  · rw [← Node.flatMap_settle, hservice, Node.map_settle_serve,
      List.flatMap_append, Node.flatMap_settle, Node.flatMap_settle]

theorem waits_of_inOrder {own : Tracked} {env : Platform} {index : Nat}
    {task : Task} (hget : own.node.service[index]? = some task)
    (horder : Node.InOrder own (Node.Event.run env index)) :
    (forall other, other ∈ own.node.service.take index ->
      other.isWait = true) ∨ task.isWait = true := by
  rcases horder with hbefore | htimer
  · exact Or.inl (List.all_eq_true.mp hbefore)
  · rw [hget] at htimer
    exact Or.inr htimer

theorem handedBy_wait {address : Nat} {way : Way ι} {route : RemoteRoute}
    {task : Task} {tag : Option (Way ι)} (h : task.isWait = true) :
    handedBy address way route (task, tag) = [] := by
  cases task with
  | timerWait ref cancelled => rfl
  | _ => cases h

theorem emittedBy_wait {address : Nat} {c : String} {port : Parser.PortId}
    {task : Task} (h : task.isWait = true) :
    Node.emittedBy address c port task = [] := by
  cases task with
  | timerWait ref cancelled => rfl
  | _ => cases h

omit [DecidableEq ι] in
theorem Track.ways_advance {t : Track ι} (task : Option Task)
    (tag : Option (Way ι)) (own : Tracked) {kept : List Task}
    {effects : List Effect} (hways : t.ways.length = kept.length)
    (hservice : own.node.service = effects.foldl Node.serve kept) :
    (t.advance task tag own).ways =
      t.ways ++ List.replicate (Node.posted effects).length tag := by
  have hcount : own.node.service.length - t.ways.length =
      (Node.posted effects).length := by
    rw [hservice, Node.length_serve, hways, Nat.add_sub_cancel_left]
  rw [← hcount]
  rfl

omit [DecidableEq ι] in
theorem Track.marks_advance {t : Track ι} (task : Option Task)
    (tag : Option (Way ι)) (own : Tracked) {sent : List Outgoing}
    (hmarks : t.marks.length = t.own.node.outbox.length)
    (houtbox : own.node.outbox = t.own.node.outbox ++ sent) :
    (t.advance task tag own).marks =
      t.marks ++ marksOf t.own.node.router sent.length task := by
  have hcount : own.node.outbox.length - t.marks.length = sent.length := by
    rw [houtbox, List.length_append, hmarks, Nat.add_sub_cancel_left]
  rw [← hcount]
  rfl

theorem PassesOn.queue {t : Track ι} (h : Followed r t) {n : Protort.Node}
    (hown : Following r (t.own.advance none n))
    (hmem : forall c, c ∈ n.router.components <-> c ∈ r.components)
    {effects : List Effect}
    (hservice : n.service = effects.foldl Node.serve t.own.node.service)
    (houtbox : n.outbox = t.own.node.outbox) (tag : Option (Way ι)) :
    PassesOn r (fun way route => (Node.posted effects).flatMap (fun task =>
        handedBy r.address way route (task, tag))) t
      (t.advance none tag (t.own.advance none n)) := by
  have hways := Track.ways_advance none tag (t.own.advance none n) h.ways
    hservice
  have hmarks := Track.marks_advance none tag (t.own.advance none n) h.marks
    (houtbox.trans (List.append_nil _).symm)
  have hnone : marksOf t.own.node.router ([] : List Outgoing).length none =
      [] := rfl
  rw [hnone, List.append_nil] at hmarks
  refine
    { followed :=
        { own := hown
          mem := hmem
          ways := ?_
          marks := ?_ }
      handed := ?_
      sent := ?_ }
  · rw [hways, List.length_append, List.length_replicate, h.ways]
    show _ = n.service.length
    rw [hservice, Node.length_serve]
  · rw [hmarks, h.marks]
    exact congrArg List.length houtbox.symm
  · intro way route
    show t.processedOver r.address way route ++ (n.service.zip _).flatMap _ = _
    rw [hways, hservice, handedBy_serve r.address way route h.ways,
      List.append_assoc]
    rfl
  · intro via route hroute
    rcases emittedOn_advance none h.own.length hservice
      r.address via.source via.port with ⟨hemitted, hunrouted⟩
    refine ⟨[], _, ?_, hunrouted, hemitted⟩
    show (n.outbox.zip _).flatMap _ = _
    rw [hmarks, houtbox, List.append_nil]
    rfl

/-- A node that is followed, when the task at an index has run on it. -/
abbrev Track.ran (t : Track ι) (index : Nat) (task : Task) (n : Protort.Node) :
    Track ι :=
  (t.take index task).advance (some task) none
    ((t.own.take index task).advance (some task) n)

omit [DecidableEq ι] in
theorem Followed.length_vias {t : Track ι} (h : Followed r t) (index : Nat) :
    (t.own.vias.eraseIdx index).length =
      (t.own.node.service.eraseIdx index).length := by
  rw [List.length_eraseIdx, List.length_eraseIdx, h.own.length]

omit [DecidableEq ι] in
theorem Followed.length_ways {t : Track ι} (h : Followed r t) (index : Nat) :
    (t.ways.eraseIdx index).length =
      (t.own.node.service.eraseIdx index).length := by
  rw [List.length_eraseIdx, List.length_eraseIdx, h.ways]

section Ran

variable {t : Track ι} {index : Nat} {task : Task} {n : Protort.Node}
  {effects : List Effect}

omit [DecidableEq ι] in
theorem Followed.ways_ran (h : Followed r t) (task : Task)
    (hservice : n.service =
      effects.foldl Node.serve (t.own.node.service.eraseIdx index)) :
    (t.ran index task n).ways = t.ways.eraseIdx index ++
      List.replicate (Node.posted effects).length none :=
  Track.ways_advance (some task) none _ (h.length_ways index) hservice

omit [DecidableEq ι] in
theorem Followed.marks_ran (h : Followed r t) (index : Nat) (task : Task)
    (houtbox : n.outbox = t.own.node.outbox ++ Node.sends effects) :
    (t.ran index task n).marks = t.marks ++
      marksOf t.own.node.router (Node.sends effects).length (some task) :=
  Track.marks_advance (some task) none _ h.marks houtbox

theorem Followed.handed_ran (h : Followed r t) {env : Platform}
    (hget : t.own.node.service[index]? = some task)
    (hservice : n.service =
      effects.foldl Node.serve (t.own.node.service.eraseIdx index))
    (horder : Node.InOrder t.own (Node.Event.run env index)) (way : Way ι)
    (route : RemoteRoute) :
    (t.ran index task n).processedOver r.address way route ++
        (t.ran index task n).queuedOver r.address way route =
      t.processedOver r.address way route ++
        t.queuedOver r.address way route := by
  have htag : t.ways[index]? = some ((t.ways[index]?).join) := by
    rcases List.getElem?_eq_some_iff.mp hget with ⟨hlt, _⟩
    rw [List.getElem?_eq_getElem (h.ways ▸ hlt)]
    rfl
  have hjob : (t.own.node.service.zip t.ways)[index]? =
      some (task, (t.ways[index]?).join) :=
    List.getElem?_zip_eq_some.mpr ⟨hget, htag⟩
  have hfirst : (forall job,
      job ∈ (t.own.node.service.zip t.ways).take index ->
        handedBy r.address way route job = []) ∨
      handedBy r.address way route (task, (t.ways[index]?).join) = [] := by
    rcases waits_of_inOrder hget horder with hbefore | hwait
    · left
      rintro ⟨other, tag⟩ hother
      have htaken : (t.own.node.service.zip t.ways).take index =
          (t.own.node.service.take index).zip (t.ways.take index) :=
        List.take_zipWith
      rw [htaken] at hother
      exact handedBy_wait (hbefore other (List.of_mem_zip hother).left)
    · exact Or.inr (handedBy_wait hwait)
  have hpopped := Lib.flatMap_eraseIdx hjob hfirst
  have hnone : (Node.posted effects).flatMap (fun task =>
      handedBy r.address way route (task, none)) = [] :=
    List.flatMap_eq_nil_iff.mpr (fun task _ =>
      handedBy_none r.address way route task)
  show (t.brought ++ [(task, (t.ways[index]?).join)]).flatMap _ ++
    (n.service.zip (t.ran index task n).ways).flatMap _ = _
  rw [h.ways_ran task hservice, hservice,
    handedBy_serve r.address way route (h.length_ways index), hnone,
    ← Lib.zip_eraseIdx, List.flatMap_append, List.flatMap_singleton,
    List.append_nil, List.append_assoc, hpopped]
  rfl

omit [DecidableEq ι] in
theorem Followed.sent_ran (h : Followed r t) {env : Platform}
    (hget : t.own.node.service[index]? = some task)
    (heffects : Node.taskEffects env t.own.node task = some effects)
    (hservice : n.service =
      effects.foldl Node.serve (t.own.node.service.eraseIdx index))
    (houtbox : n.outbox = t.own.node.outbox ++ Node.sends effects)
    (horder : Node.InOrder t.own (Node.Event.run env index)) {via : Via}
    {route : RemoteRoute} (hroute : (r.routesAt via.source
      via.port).remoteRoutes[via.index]? = some route) :
    exists moved emitted,
      (t.ran index task n).onTheWay via route =
        t.onTheWay via route ++ moved ∧
      moved ++ (t.ran index task n).unrouted r.address via =
        t.unrouted r.address via ++ emitted ∧
      (t.ran index task n).own.emittedOn r.address via.source via.port =
        t.own.emittedOn r.address via.source via.port ++ emitted := by
  have hstays := h.own.stays
  rcases @emittedOn_advance (t.own.take index task) n (some task) _ _
    (h.length_vias index) hservice r.address via.source via.port with
      ⟨hemitted, hunrouted⟩
  have hsilent : forall {other : Task}, other.isWait = true ->
      Node.emittedBy r.address via.source via.port other = [] :=
    emittedBy_wait
  have hfirst := (waits_of_inOrder hget horder).imp
    (fun hbefore other hother => hsilent (hbefore other hother)) hsilent
  have hpopped := Lib.flatMap_eraseIdx hget hfirst
  rw [← hstays.routes] at hroute
  have hcarried : ((Node.sends effects).zip (marksOf t.own.node.router
      (Node.sends effects).length (some task))).flatMap
        (sentAlong via route) =
          Node.emittedBy t.own.node.router.address via.source via.port task :=
    (carries_sentAlong t.own.node.router via route).positionsOf
      hstays.consistent hstays.idle hroute (List.mem_of_getElem? hget) heffects
  refine ⟨Node.emittedBy r.address via.source via.port task, _, ?_, ?_,
    hemitted⟩
  · show (n.outbox.zip (t.ran index task n).marks).flatMap _ = _
    rw [h.marks_ran index task houtbox, houtbox,
      List.zip_append h.marks.symm, List.flatMap_append, hcarried,
      hstays.address]
    rfl
  · show _ ++ n.service.flatMap _ = _
    rw [hunrouted, ← List.append_assoc, hpopped]
    rfl

theorem PassesOn.run (h : Followed r t) {env : Platform}
    (hget : t.own.node.service[index]? = some task)
    (hown : Following r ((t.own.take index task).advance (some task) n))
    (hmem : forall c, c ∈ n.router.components <-> c ∈ r.components)
    (heffects : Node.taskEffects env t.own.node task = some effects)
    (hservice : n.service =
      effects.foldl Node.serve (t.own.node.service.eraseIdx index))
    (houtbox : n.outbox = t.own.node.outbox ++ Node.sends effects)
    (horder : Node.InOrder t.own (Node.Event.run env index)) :
    PassesOn r (fun _ _ => []) t (t.ran index task n) := by
  have hnew : (marksOf t.own.node.router (Node.sends effects).length
      (some task)).length = (Node.sends effects).length :=
    Node.length_positionsOf remoteExit h.own.stays.consistent h.own.stays.idle
      (List.mem_of_getElem? hget) heffects
  refine
    { followed :=
        { own := hown
          mem := hmem
          ways := ?_
          marks := ?_ }
      handed := ?_
      sent := ?_ }
  · rw [h.ways_ran task hservice, List.length_append, List.length_replicate,
      h.length_ways]
    show _ = n.service.length
    rw [hservice, Node.length_serve]
  · rw [h.marks_ran index task houtbox, List.length_append, hnew, h.marks]
    show _ = n.outbox.length
    rw [houtbox, List.length_append]
  · intro way route
    rw [List.append_nil]
    exact h.handed_ran hget hservice horder way route
  · intro via route hroute
    exact h.sent_ran hget heffects hservice houtbox horder hroute

end Ran

omit [DecidableEq ι] in
theorem Followed.mem_step {t : Track ι} (h : Followed r t)
    {event : Node.Event} (hkept : event.isDeployment = false)
    {n : Protort.Node} (hstep : Node.step t.own.node event = some n)
    (c : String) : c ∈ n.router.components <-> c ∈ r.components :=
  ((Node.step_table h.own.stays.consistent hkept hstep).mem c).trans (h.mem c)

/-- What a node does on its own. -/
theorem Followed.step {t t' : Track ι} {event : Node.Event}
    (h : Followed r t) (hallowed : isOwn event = true)
    (horder : Node.InOrder t.own event) (hstep : t.step none event = some t') :
    PassesOn r (fun _ _ => []) t t' := by
  rcases Option.map_eq_some_iff.mp hstep with ⟨own, hown, rfl⟩
  have hfollowing := h.own.step horder hown
  have hconsistent := h.own.stays.consistent
  rcases Option.map_eq_some_iff.mp hown with ⟨n, hn, rfl⟩
  have hmem := h.mem_step (kept_of_isOwn hallowed) hn
  cases event with
  | request env payload =>
      rcases Node.returned_eq_some.mp hn with ⟨response, hrun⟩
      have hqueues := (Node.onNewRequest_ok_iff.mp hrun).right.queues
        hconsistent.sound
      rcases hqueues.right.right with ⟨effects, hservice, _⟩
      have hgoes := PassesOn.queue h hfollowing hmem hservice hqueues.left none
      refine
        { followed := hgoes.followed
          handed := ?_
          sent := hgoes.sent }
      intro way route
      refine (hgoes.handed way route).trans (congrArg _ ?_)
      exact List.flatMap_eq_nil_iff.mpr (fun task _ =>
        handedBy_none r.address way route task)
  | message env origin payload => cases hallowed
  | run env index =>
      rcases Node.run_spec hconsistent.sound hn with ⟨task, effects, m, hget,
        _, heffects, _, _, hservice, houtbox, rfl⟩
      simp only [hget] at hfollowing ⊢
      exact PassesOn.run h hget hfollowing hmem heffects
        (by rw [Node.service_performAll, hservice])
        (by rw [Node.outbox_performAll, houtbox]) horder

def arrivedOver (r : Node.Router) (tag : Option (Way ι))
    (packet : Protocol.Communication.Packet) (way : Way ι)
    (route : RemoteRoute) : List Bytes :=
  if (tag = some way ∧
      packet.destination = { port := route.inPort, name := route.name }) ∧
      route.name ∈ r.components then
    [packet.payload]
  else
    []

theorem Followed.arrive {t t' : Track ι} {tag : Option (Way ι)}
    {env : Platform} {origin : Option Components.Origin}
    {payload : Protocol.Payload} (h : Followed r t)
    (hstarted : t.own.node.router.started = true)
    (hstep : t.step tag (Node.Event.message env origin payload) = some t') :
    PassesOn r (arrivedOver r tag payload.asCommunicationPacket) t t' := by
  rcases Option.map_eq_some_iff.mp hstep with ⟨own, hown, rfl⟩
  have horder : Node.InOrder t.own
      (Node.Event.message env origin payload) := ⟨rfl, nofun⟩
  have hfollowing := h.own.step horder hown
  rcases Option.map_eq_some_iff.mp hown with ⟨n, hn, rfl⟩
  have hmem := h.mem_step horder.left hn
  rcases Node.message_spec hn with ⟨m, _, hservice, houtbox, rfl⟩
  have hgoes := PassesOn.queue h hfollowing hmem
    (by rw [Node.service_performAll, hservice])
    (by rw [Node.outbox_performAll, houtbox, Node.sends_messageEffects,
      List.append_nil]) tag
  refine
    { followed := hgoes.followed
      handed := ?_
      sent := hgoes.sent }
  intro way route
  refine (hgoes.handed way route).trans (congrArg _ ?_)
  unfold Node.messageEffects arrivedOver
  rw [Node.Router.route_snd, hstarted, h.own.stays.address]
  generalize payload.asCommunicationPacket = packet
  rcases packet with ⟨source, ⟨port, name⟩, bytes⟩
  simp only [true_and, h.mem, Protocol.ComponentEndpoint.mk.injEq]
  by_cases hname : name ∈ r.components
  · rw [if_pos hname]
    show handedBy _ _ _ (Task.doProcess _ _ _ _, tag) ++ [] = _
    rw [List.append_nil]
    unfold handedBy
    refine if_congr ?_ rfl rfl
    simp only [Node.ComponentRef.mk.injEq, true_and]
    constructor
    · rintro ⟨htag, rfl, hport⟩
      exact ⟨⟨htag, hport, rfl⟩, hname⟩
    · rintro ⟨⟨htag, hport, rfl⟩, _⟩
      exact ⟨htag, rfl, hport⟩
  · rw [if_neg hname, if_neg]
    · rfl
    · rintro ⟨⟨_, _, rfl⟩, hthere⟩
      exact hname hthere

end Steps

/-!
## Steps of the nodes
-/

section Moves

variable {peer : ι -> Node.Client -> Option ι} {tracks tracks' : ι -> Track ι}
  {event : Event ι}

inductive FollowCases (peer : ι -> Node.Client -> Option ι)
    (tracks : ι -> Track ι) : Event ι -> (ι -> Track ι) -> Prop where
  | node {x : ι} {event : Node.Event} {t : Track ι} :
      isOwn event = true -> (tracks x).step none event = some t ->
      FollowCases peer tracks (Event.node x event) (Function.update tracks x t)
  | deliver {env : Platform} {x y : ι} {index : Nat} {m : Outgoing}
      {t : Track ι} :
      (tracks x).own.node.outbox[index]? = some m ->
      peer x m.client = some y ->
      (Function.update tracks x ((tracks x).withoutMessage index) y).step
        (wayOf x m ((tracks x).marks[index]?).join)
        (Node.Event.message env (some m.origin) m.payload) = some t ->
      FollowCases peer tracks (Event.deliver env x index)
        (Function.update
          (Function.update tracks x ((tracks x).withoutMessage index)) y t)

theorem followCases (h : follow peer tracks event = some tracks') :
    FollowCases peer tracks event tracks' := by
  cases event with
  | node x event =>
      rcases Option.ite_none_right_eq_some.mp h with ⟨hown, hstep⟩
      rcases Option.map_eq_some_iff.mp hstep with ⟨t, ht, rfl⟩
      exact FollowCases.node hown ht
  | deliver env x index =>
      unfold follow at h
      simp only at h
      cases hm : (tracks x).own.node.outbox[index]? with
      | none =>
          rw [hm] at h
          cases h
      | some m =>
          rw [hm] at h
          simp only at h
          cases hy : peer x m.client with
          | none =>
              rw [hy] at h
              cases h
          | some y =>
              rw [hy] at h
              rcases Option.map_eq_some_iff.mp h with ⟨t, ht, rfl⟩
              exact FollowCases.deliver hm hy ht

omit [DecidableEq ι] in
theorem node_step (t : Track ι) (tag : Option (Way ι)) (event : Node.Event) :
    (t.step tag event).map (fun t' => t'.own.node) =
      Node.step t.own.node event := by
  unfold Track.step Tracked.step
  cases hstep : Node.step t.own.node event with
  | none => rfl
  | some n =>
      cases event with
      | run env index =>
          simp only [Option.map_some]
          cases hget : t.own.node.service[index]? with
          | none => rfl
          | some task => rfl
      | _ => rfl

theorem nodesOf_update (tracks : ι -> Track ι) (x : ι) (t : Track ι) :
    nodesOf (Function.update tracks x t) =
      Function.update (nodesOf tracks) x t.own.node :=
  Function.comp_update (fun t : Track ι => t.own.node) tracks x t

theorem nodesOf_follow (tracks : ι -> Track ι) (event : Event ι) :
    (follow peer tracks event).map nodesOf =
      step peer (nodesOf tracks) event := by
  have hnode : forall (tracks : ι -> Track ι) (x : ι) (tag : Option (Way ι))
      (event : Node.Event),
      (((tracks x).step tag event).map (Function.update tracks x)).map nodesOf =
        (Node.step (nodesOf tracks x) event).map
          (Function.update (nodesOf tracks) x) := by
    intro tracks x tag event
    have hupdate : nodesOf ∘ Function.update tracks x =
        Function.update (nodesOf tracks) x ∘ fun t => t.own.node :=
      funext (nodesOf_update tracks x)
    rw [Option.map_map, hupdate, ← Option.map_map, node_step]
    rfl
  unfold step
  cases event with
  | node x event =>
      unfold follow move
      simp only
      by_cases hown : isOwn event = true
      · rw [if_pos hown, if_pos hown]
        exact hnode tracks x none event
      · rw [if_neg hown, if_neg hown]
        rfl
  | deliver env x index =>
      unfold follow move
      simp only
      show _ = (match (tracks x).own.node.outbox[index]? with
        | some m => _
        | none => none)
      cases (tracks x).own.node.outbox[index]? with
      | none => rfl
      | some m =>
          simp only
          cases peer x m.client with
          | none => rfl
          | some y =>
              simp only
              rw [hnode, nodesOf_update]
              rfl

theorem step_of_follow (h : follow peer tracks event = some tracks') :
    step peer (nodesOf tracks) event = some (nodesOf tracks') := by
  rw [← nodesOf_follow, h]
  rfl

/-- A connection from a component of one node to a component of another, as the
nodes were deployed. -/
structure Connects (peer : ι -> Node.Client -> Option ι)
    (sys : ι -> Protort.Node) (x y : ι) (via : Via) (route : RemoteRoute) :
    Prop where
  found : ((sys x).router.routesAt via.source via.port).remoteRoutes[via.index]?
    = some route
  reaches : peer x route.client = some y
  component : route.name ∈ (sys y).router.components

/-- The packets of every connection in order, where a message may be in
between: it has left the one node and did not reach the other yet. -/
structure PacketsInOrder (peer : ι -> Node.Client -> Option ι)
    (sys : ι -> Protort.Node)
    (between : ι -> Way ι -> RemoteRoute -> List Bytes) (tracks : ι -> Track ι) :
    Prop where
  followed : forall z, Followed (sys z).router (tracks z)
  ordered : forall {x y via route}, Connects peer sys x y via route ->
    (tracks y).processedOver (sys y).router.address ⟨x, route.client, via⟩
        route ++
      (tracks y).queuedOver (sys y).router.address ⟨x, route.client, via⟩
        route ++
      between y ⟨x, route.client, via⟩ route ++
      (tracks x).onTheWay via route ++
      (tracks x).unrouted (sys x).router.address via =
    (tracks x).own.emittedOn (sys x).router.address via.source via.port

variable {sys : ι -> Protort.Node}

theorem PacketsInOrder.go {between : ι -> Way ι -> RemoteRoute -> List Bytes}
    (h : PacketsInOrder peer sys between tracks)
    (hgoes : forall z,
      PassesOn (sys z).router (between z) (tracks z) (tracks' z)) :
    PacketsInOrder peer sys (fun _ _ _ => []) tracks' := by
  refine
    { followed := fun z => (hgoes z).followed
      ordered := ?_ }
  intro x y via route hconnects
  rcases (hgoes x).sent via route hconnects.found with
    ⟨moved, emitted, hway, hmoved, hemitted⟩
  rw [(hgoes y).handed, hway, hemitted, List.append_nil, ← List.append_assoc,
    List.append_assoc, hmoved, ← List.append_assoc, h.ordered hconnects]

theorem PassesOn.refl {r : Node.Router} {t : Track ι} (h : Followed r t) :
    PassesOn r (fun _ _ => []) t t :=
  { followed := h
    handed := fun _ _ => (List.append_nil _).symm
    sent := fun _ _ _ =>
      ⟨[], [], (List.append_nil _).symm, (List.append_nil _).symm,
        (List.append_nil _).symm⟩ }

omit [DecidableEq ι] in
theorem Followed.withoutMessage {r : Node.Router} {t : Track ι}
    (h : Followed r t) (index : Nat) : Followed r (t.withoutMessage index) :=
  { own :=
      { stays :=
          { consistent := consistent_withoutMessage h.own.stays.consistent index
            address := h.own.stays.address
            routes := h.own.stays.routes
            idle := h.own.stays.idle }
        length := h.own.length
        ordered := h.own.ordered }
    mem := h.mem
    ways := h.ways
    marks := by
      show (t.marks.eraseIdx index).length =
        (t.own.node.outbox.eraseIdx index).length
      rw [List.length_eraseIdx, List.length_eraseIdx, h.marks] }

theorem eq_of_withoutMessage {A : Type} (tracks : ι -> Track ι) (x : ι)
    (index : Nat) {g : Track ι -> A}
    (hg : g ((tracks x).withoutMessage index) = g (tracks x))
    (z : ι) :
    g (Function.update tracks x ((tracks x).withoutMessage index) z) =
      g (tracks z) := by
  by_cases hz : z = x
  · subst z
    rw [Function.update_self]
    exact hg
  · rw [Function.update_of_ne hz]

/-- A client keeps the order of its messages. -/
def IsFirst (n : Protort.Node) (index : Nat) (m : Outgoing) : Prop :=
  forall other, other ∈ n.outbox.take index -> other.client ≠ m.client

/-- What was in front of the other messages along a route is what came in
between. -/
theorem PacketsInOrder.take_own
    (h : PacketsInOrder peer sys (fun _ _ _ => []) tracks)
    {x y y' : ι} {index : Nat} {m : Outgoing} {via : Via} {route : RemoteRoute}
    (hconnects : Connects peer sys x y' via route)
    (hm : (nodesOf tracks x).outbox[index]? = some m)
    (hy : peer x m.client = some y)
    (hfirst : IsFirst (nodesOf tracks x) index m) :
    (if y' = y then
        arrivedOver (sys y).router
          (wayOf x m ((tracks x).marks[index]?).join)
          m.payload.asCommunicationPacket ⟨x, route.client, via⟩ route
      else
        []) ++ ((tracks x).withoutMessage index).onTheWay via route =
      (tracks x).onTheWay via route := by
  have hmark : (tracks x).marks[index]? =
      some (((tracks x).marks[index]?).join) := by
    rcases List.getElem?_eq_some_iff.mp hm with ⟨hlt, _⟩
    rw [List.getElem?_eq_getElem ((h.followed x).marks ▸ hlt)]
    rfl
  generalize ((tracks x).marks[index]?).join = mark at hmark ⊢
  have hentry : ((tracks x).own.node.outbox.zip (tracks x).marks)[index]? =
      some (m, mark) :=
    List.getElem?_zip_eq_some.mpr ⟨hm, hmark⟩
  -- the messages in front belong to other clients
  have hsilent : (forall entry,
      entry ∈ ((tracks x).own.node.outbox.zip (tracks x).marks).take index ->
        sentAlong via route entry = []) ∨
      sentAlong via route (m, mark) = [] := by
    by_cases hclient : m.client = route.client
    · left
      rintro ⟨other, tag⟩ hother
      have htaken : ((tracks x).own.node.outbox.zip (tracks x).marks).take
          index = ((tracks x).own.node.outbox.take index).zip
            ((tracks x).marks.take index) := List.take_zipWith
      rw [htaken] at hother
      have hne := hfirst other (List.of_mem_zip hother).left
      rw [hclient] at hne
      unfold sentAlong
      exact if_neg (fun hsame => hne hsame.right.left)
    · right
      unfold sentAlong
      exact if_neg (fun hsame => hclient hsame.right.left)
  have hpopped := Lib.flatMap_eraseIdx hentry hsilent
  rw [Lib.zip_eraseIdx] at hpopped
  refine Eq.trans ?_ hpopped
  refine congrArg (· ++ _) ?_
  unfold arrivedOver wayOf sentAlong
  rw [← ite_and]
  refine if_congr ?_ rfl rfl
  constructor
  · rintro ⟨_, ⟨htag, hdestination⟩, _⟩
    rcases Option.map_eq_some_iff.mp htag with ⟨via', rfl, hway⟩
    rcases Way.mk.injEq _ _ _ _ _ _ ▸ hway with ⟨_, hclient, rfl⟩
    exact ⟨rfl, hclient, hdestination⟩
  · rintro ⟨rfl, hclient, hdestination⟩
    have hsame : y' = y := by
      have hreaches := hconnects.reaches
      rw [← hclient, hy] at hreaches
      exact (Option.some.inj hreaches).symm
    subst hsame
    refine ⟨rfl, ⟨?_, hdestination⟩, hconnects.component⟩
    rw [Option.map_some, hclient]

theorem PacketsInOrder.take
    (h : PacketsInOrder peer sys (fun _ _ _ => []) tracks)
    {x y : ι} {index : Nat} {m : Outgoing}
    (hm : (nodesOf tracks x).outbox[index]? = some m)
    (hy : peer x m.client = some y)
    (hfirst : IsFirst (nodesOf tracks x) index m) :
    PacketsInOrder peer sys
      (fun z way route =>
        if z = y then
          arrivedOver (sys y).router
            (wayOf x m ((tracks x).marks[index]?).join)
            m.payload.asCommunicationPacket way route
        else
          [])
      (Function.update tracks x ((tracks x).withoutMessage index)) := by
  refine
    { followed := ?_
      ordered := ?_ }
  · intro z
    by_cases hz : z = x
    · subst z
      rw [Function.update_self]
      exact (h.followed x).withoutMessage index
    · rw [Function.update_of_ne hz]
      exact h.followed z
  · intro x' y' via route hconnects
    have hbefore := h.ordered hconnects
    rw [List.append_nil] at hbefore
    have hprocessed := eq_of_withoutMessage tracks x index
      (g := fun t => t.processedOver (sys y').router.address
        ⟨x', route.client, via⟩ route) rfl y'
    have hqueued := eq_of_withoutMessage tracks x index
      (g := fun t => t.queuedOver (sys y').router.address
        ⟨x', route.client, via⟩ route) rfl y'
    have hunrouted := eq_of_withoutMessage tracks x index
      (g := fun t => t.unrouted (sys x').router.address via)
        rfl x'
    have hemitted := eq_of_withoutMessage tracks x index
      (g := fun t => t.own.emittedOn
        (sys x').router.address via.source via.port) rfl x'
    rw [hprocessed, hqueued, hunrouted, hemitted, ← hbefore]
    have hway : (if y' = y then
          arrivedOver (sys y).router
            (wayOf x m ((tracks x).marks[index]?).join)
            m.payload.asCommunicationPacket ⟨x', route.client, via⟩ route
        else
          []) ++ (Function.update tracks x ((tracks x).withoutMessage index)
            x').onTheWay via route = (tracks x').onTheWay via route := by
      by_cases hx : x' = x
      · subst x'
        rw [Function.update_self]
        exact h.take_own hconnects hm hy hfirst
      · rw [Function.update_of_ne hx]
        have hnone : (if y' = y then
              arrivedOver (sys y).router
                (wayOf x m ((tracks x).marks[index]?).join)
                m.payload.asCommunicationPacket ⟨x', route.client, via⟩ route
            else
              []) = [] := by
          rw [ite_eq_right_iff]
          intro _
          unfold arrivedOver
          rw [if_neg]
          rintro ⟨⟨htag, _⟩, _⟩
          rcases Option.map_eq_some_iff.mp htag with ⟨mark, _, hmark⟩
          exact hx (congrArg Way.node hmark).symm
        rw [hnone, List.nil_append]
    rw [← hway, List.append_assoc, List.append_assoc, List.append_assoc,
      List.append_assoc, List.append_assoc, List.append_assoc]

theorem goes_update {between : ι -> Way ι -> RemoteRoute -> List Bytes} {x : ι}
    {t : Track ι} (hfollowed : forall z, Followed (sys z).router (tracks z))
    (hgoes : PassesOn (sys x).router (between x) (tracks x) t)
    (hnone : forall z, z ≠ x -> between z = fun _ _ => []) (z : ι) :
    PassesOn (sys z).router (between z) (tracks z)
      (Function.update tracks x t z) := by
  by_cases hz : z = x
  · subst z
    rw [Function.update_self]
    exact hgoes
  · rw [Function.update_of_ne hz, hnone z hz]
    exact PassesOn.refl (hfollowed z)

/-- Everything that happens in order leaves the packets of every connection in
order. -/
theorem PacketsInOrder.step (horder : AllInOrder peer tracks event)
    (hfollow : follow peer tracks event = some tracks')
    (h : PacketsInOrder peer sys (fun _ _ _ => []) tracks) :
    PacketsInOrder peer sys (fun _ _ _ => []) tracks' := by
  cases followCases hfollow with
  | @node x event t hown hstep =>
      have hgoes := (h.followed x).step hown horder hstep
      exact h.go (goes_update h.followed hgoes (fun _ _ => rfl))
  | @deliver env x y index m t hm hy hstep =>
      unfold AllInOrder nodesOf at horder
      simp only [hm, hy, Option.all_some, Bool.and_eq_true,
        List.all_eq_true, decide_eq_true_eq] at horder
      have htaken := h.take hm hy horder.left
      have hstarted := eq_of_withoutMessage tracks x index
        (g := fun t => t.own.node.router.started) rfl y
      have harrive := (htaken.followed y).arrive (hstarted.trans horder.right)
        hstep
      refine htaken.go (goes_update htaken.followed ?_ ?_)
      · simp only [if_true]
        exact harrive
      · intro z hz
        simp only [if_neg hz]

end Moves

/-!
## Runs
-/

section Runs

variable {peer : ι -> Node.Client -> Option ι} {sys : ι -> Protort.Node}

omit [DecidableEq ι] in
theorem followed_start {n : Protort.Node} (h : Stays n.router n) :
    Followed n.router (Track.start n : Track ι) :=
  { own := h.following
    mem := fun _ => Iff.rfl
    ways := List.length_replicate
    marks := List.length_replicate }

theorem packetsInOrder_start (hsys : forall z, Stays (sys z).router (sys z)) :
    PacketsInOrder peer sys (fun _ _ _ => [])
      (fun z => Track.start (sys z)) := by
  refine
    { followed := fun z => followed_start (hsys z)
      ordered := ?_ }
  intro x y via route _
  have hqueued : (Track.start (sys y)).queuedOver (sys y).router.address
      (⟨x, route.client, via⟩ : Way ι) route = [] := by
    refine List.flatMap_eq_nil_iff.mpr ?_
    rintro ⟨task, tag⟩ hentry
    have htag : tag = none :=
      List.eq_of_mem_replicate (List.of_mem_zip hentry).right
    subst htag
    exact handedBy_none _ _ _ task
  have hway : (Track.start (sys x) : Track ι).onTheWay via route = [] :=
    (carries_sentAlong (sys x).router via route).replicate _
  rw [hqueued, hway]
  rfl

/-- The payloads of a connection from one node to another that were emitted and
are not processed yet, the oldest first: they wait to be processed, are on the
way, or wait to be routed. -/
def underWay (sys : ι -> Protort.Node) (tracks : ι -> Track ι) (x y : ι)
    (via : Via) (route : RemoteRoute) : List Bytes :=
  (tracks y).queuedOver (sys y).router.address ⟨x, route.client, via⟩ route ++
    (tracks x).onTheWay via route ++
    (tracks x).unrouted (sys x).router.address via

theorem run_nodesOf {events : List (Event ι)} {tracks tracks' : ι -> Track ι}
    (hrun : Run (Guarded (AllInOrder peer) (Steps (follow peer))) tracks events
      tracks') :
    Run (Steps (step peer)) (nodesOf tracks) events (nodesOf tracks') := by
  induction hrun with
  | nil tracks => exact Run.nil _
  | cons hstep _ ih => exact Run.cons (step_of_follow hstep.right) ih

/-- As long as every node has one worker, its router is neither stopped nor
replaced, and every client keeps the order of its messages, what was processed
at the end of a connection between two nodes and what is under way on it are
together what was emitted on the port that it starts from: nothing is lost,
doubled or overtaken between the nodes. -/
theorem connections_keep_order
    (hsys : forall z, Stays (sys z).router (sys z)) {events : List (Event ι)}
    {tracks : ι -> Track ι}
    (hrun : Run (Guarded (AllInOrder peer) (Steps (follow peer)))
      (fun z => Track.start (sys z)) events tracks)
    {x y : ι} {via : Via} {route : RemoteRoute}
    (hconnects : Connects peer sys x y via route) :
    Run (Steps (step peer)) sys events (nodesOf tracks) ∧
      (tracks y).processedOver (sys y).router.address ⟨x, route.client, via⟩
          route ++ underWay sys tracks x y via route =
        (tracks x).own.emittedOn (sys x).router.address via.source
          via.port := by
  have hend : PacketsInOrder peer sys (fun _ _ _ => []) tracks :=
    hrun.invariant (fun hstep h => h.step hstep.left hstep.right)
      (packetsInOrder_start hsys)
  have hordered := hend.ordered hconnects
  rw [List.append_nil] at hordered
  unfold underWay
  refine ⟨run_nodesOf hrun, ?_⟩
  rw [← List.append_assoc, ← List.append_assoc, hordered]

end Runs

/-!
## Two nodes
-/

def lineInfo (x : Bool) : Protocol.Deploy.NodeInfo :=
  if x then ⟨"n2", "127.0.0.1", 200⟩ else ⟨"n1", "127.0.0.1", 100⟩

def lineConfig (x : Bool) : Protocol.Deploy.Config :=
  { thisNodeInfo := lineInfo x
    nodeInfos := [lineInfo false, lineInfo true]
    instances := [⟨"g", Protocol.ComponentKind.generator⟩,
      ⟨"h", Protocol.ComponentKind.history⟩]
    maps := [⟨"n1", "g"⟩, ⟨"n2", "h"⟩]
    connections := [⟨⟨0, "g"⟩, ⟨0, "h"⟩⟩] }

def line (x : Bool) : Protort.Node :=
  (Lib.execute Node.step (Node.new 100 0)
    [Node.deployRequest (lineConfig x)]).getD (Node.new 100 0)

def linePeer (_ : Bool) (_ : Node.Client) : Option Bool :=
  some true

def drawingOf (value : UInt32) : Platform :=
  { Platform.loopback with draw := fun _ => (value, 0) }

/-- Four packets are generated: one is processed, one has arrived, one is on its
way and one is not routed yet. -/
def lineEvents : List (Event Bool) :=
  let turn (value : UInt32) : Event Bool :=
    Event.node false (Node.Event.run (drawingOf value) 0)
  [Event.node true (Node.command Protocol.Deploy.PacketKind.start),
    Event.node false (Node.Event.request (drawingOf 1)
      (Protocol.Payload.deployPacket
        { kind := Protocol.Deploy.PacketKind.start
          payload := Protocol.Deploy.PacketPayload.notSet })),
    turn 0, turn 2, turn 0, turn 3, turn 0, turn 4,
    Event.deliver Platform.loopback false 0,
    Event.deliver Platform.loopback false 0,
    Event.node true (Node.Event.run Platform.loopback 0)]

def lineVia : Via :=
  ⟨"g", 0, 0⟩

def lineRoute : RemoteRoute :=
  ⟨0, "h", (((line false).router.routesAt "g" 0).remoteRoutes.map
    (fun route => route.client)).headD ⟨0, ⟨0, 0⟩⟩⟩

theorem stays_line (x : Bool) : Stays (line x).router (line x) := by
  have hstep : Node.step (Node.new 100 0)
      (Node.deployRequest (lineConfig x)) = some (line x) := by
    cases x with
    | false => decide +kernel
    | true => decide +kernel
  have hdeployed : Node.JustDeployed (line x) :=
    ⟨Node.new 100 0, _, _, ⟨100, 0, [], Run.nil _⟩, rfl, hstep⟩
  exact hdeployed.stays

theorem connects_line : Connects linePeer line false true lineVia lineRoute :=
  { found := by decide +kernel
    reaches := rfl
    component := by decide +kernel }

def values (payloads : List Bytes) : List UInt32 :=
  payloads.map (fun payload =>
    (Components.Data.unpack Platform.loopback payload).val)

theorem connections_keep_order_line :
    exists tracks, Run (Guarded (AllInOrder linePeer) (Steps (follow linePeer)))
        (fun z => Track.start (line z)) lineEvents tracks ∧
      values ((tracks true).processedOver (line true).router.address
        ⟨false, lineRoute.client, lineVia⟩ lineRoute) = [1] ∧
      values (underWay line tracks false true lineVia lineRoute) = [2, 3, 4] ∧
      Run (Steps (step linePeer)) line lineEvents (nodesOf tracks) ∧
      (tracks true).processedOver (line true).router.address
          ⟨false, lineRoute.client, lineVia⟩ lineRoute ++
          underWay line tracks false true lineVia lineRoute =
        (tracks false).own.emittedOn (line false).router.address
          lineVia.source lineVia.port := by
  have hfound : (Lib.execute (fun tracks event =>
      if AllInOrder linePeer tracks event then
        follow linePeer tracks event
      else
        none) (fun z => Track.start (line z)) lineEvents).map
      (fun tracks =>
        (values ((tracks true).processedOver (line true).router.address
          ⟨false, lineRoute.client, lineVia⟩ lineRoute),
        values (underWay line tracks false true lineVia lineRoute))) =
      some ([1], [2, 3, 4]) := by
    decide +kernel
  rcases Option.map_eq_some_iff.mp hfound with ⟨tracks, hexecute, hvalues⟩
  have hrun := Run.guarded_of_execute hexecute
  exact ⟨tracks, hrun, congrArg Prod.fst hvalues, congrArg Prod.snd hvalues,
    connections_keep_order stays_line hrun connects_line⟩

end Nodes

end System
end Protort
