import Protort.Lib.Fifo
import Protort.Node.Counting

/-!
# One worker

With a single worker the tasks of the service run in the order in which they
were posted; only the handler of a timer runs when its time is over.  As long as
the router of a deployment stays the current one and is not stopped, every
connection between two of its components keeps its packets in order.

Nothing in a queued packet tells two connections with the same ends apart, so
the state that is followed holds which connection each packet came through, in
the order in which `do_route` posts them.
-/

namespace Protort
namespace Node

open Lib (Bytes Table Run Steps Guarded Ordered IsIdle)
open Components (Output)

/-!
## Following the packets
-/

/-- A connection of a router: a port of a component, and a position among the
local or among the remote routes of that port. -/
structure Via where
  source : String
  port : Parser.PortId
  index : Nat
deriving DecidableEq, Repr

abbrev Job : Type := Task × Option Via

def Router.positions {A : Type} (routes : Routes -> List A) (r : Router)
    (c : String) (outputs : List (Parser.PortId × Bytes)) : List (Option Via) :=
  outputs.flatMap (fun output =>
    (routes (r.routesAt c output.1)).zipIdx.map (fun entry =>
      some ⟨c, output.1, entry.2⟩))

/-- The connections for a number of tasks that were posted or messages that were
sent: outputs leave through `do_route` of the current router when it is
started. -/
def positionsOf {A : Type} (routes : Routes -> List A) (r : Router)
    (count : Nat) : Option Task -> List (Option Via)
  | some (Task.doRoute address (some name) outputs) =>
      if address = r.address ∧ r.started = true then
        r.positions routes name (flatten outputs)
      else
        List.replicate count none
  | _ => List.replicate count none

abbrev viasOf : Router -> Nat -> Option Task -> List (Option Via) :=
  positionsOf Routes.localRoutes

/-- A node with the connection for each queued task, the jobs that have run and
the tasks that were queued, in order. -/
structure Tracked where
  node : Protort.Node
  vias : List (Option Via)
  ran : List Job
  queued : List Task
deriving DecidableEq

namespace Tracked

def start (n : Protort.Node) : Tracked :=
  { node := n
    vias := List.replicate n.service.length none
    ran := []
    queued := n.service }

def take (t : Tracked) (index : Nat) (task : Task) : Tracked :=
  { t with
    vias := t.vias.eraseIdx index
    ran := t.ran ++ [(task, (t.vias[index]?).join)] }

def advance (t : Tracked) (task : Option Task) (n : Protort.Node) : Tracked :=
  let posted := n.service.drop t.vias.length
  { t with
    node := n
    vias := t.vias ++ viasOf t.node.router posted.length task
    queued := t.queued ++ posted }

def step (t : Tracked) (event : Event) : Option Tracked :=
  (Node.step t.node event).map (fun n =>
    match event with
    | Event.run _ index =>
        match t.node.service[index]? with
        | some task => (t.take index task).advance (some task) n
        | none => t.advance none n
    | _ => t.advance none n)

end Tracked

def carriedBy (address : Nat) (via : Via) (route : LocalRoute) :
    Job -> List Bytes
  | (Task.doProcess ref _ inPort payload, tag) =>
      if tag = some via ∧ ref = ⟨address, route.component⟩ ∧
          inPort = route.inPort then
        [payload]
      else
        []
  | _ => []

def onPort {A : Type} (port : Parser.PortId) (output : Parser.PortId × A) :
    List A :=
  if output.1 = port then [output.2] else []

def emittedBy (address : Nat) (c : String) (port : Parser.PortId) :
    Task -> List Bytes
  | Task.doRoute router (some name) outputs =>
      if router = address ∧ name = c then
        (flatten outputs).flatMap (onPort port)
      else
        []
  | _ => []

def heldBy (address : Nat) (c : String) (port : Parser.PortId) (job : Job) :
    List Bytes :=
  emittedBy address c port job.1

theorem emittedBy_doRoute (address : Nat) (c : String) (port : Parser.PortId)
    (router : Nat) (name : String) (outputs : List Output) :
    emittedBy address c port (Task.doRoute router (some name) outputs) =
      if router = address ∧ name = c then
        (flatten outputs).flatMap (onPort port)
      else
        [] := rfl

/-- The payloads that were processed at the end of a connection. -/
def Tracked.processedThrough (t : Tracked) (address : Nat) (via : Via)
    (route : LocalRoute) : List Bytes :=
  t.ran.flatMap (carriedBy address via route)

def Tracked.emittedOn (t : Tracked) (address : Nat) (c : String)
    (port : Parser.PortId) : List Bytes :=
  t.queued.flatMap (emittedBy address c port)

def Task.isWait : Task -> Bool
  | Task.timerWait _ _ => true
  | _ => false

/-- What may happen next while one worker serves the queue and the router stays
started once it is: no task runs before one that was posted earlier, apart from
timers, and there is no Stop and no deployment. -/
def InOrder (t : Tracked) (event : Event) : Prop :=
  match event with
  | Event.run _ index =>
      (t.node.service.take index).all Task.isWait = true ∨
        (t.node.service[index]?).any Task.isWait = true
  | _ =>
      event.isDeployment = false ∧
        startOrStop event ≠ some Protocol.Deploy.PacketKind.stop

instance (t : Tracked) (event : Event) : Decidable (InOrder t event) :=
  match event with
  | Event.request _ _ => inferInstanceAs (Decidable (_ ∧ _))
  | Event.message _ _ _ => inferInstanceAs (Decidable (_ ∧ _))
  | Event.run _ _ => inferInstanceAs (Decidable (_ ∨ _))

/-!
## Queues up to waits
-/

def settle : Task -> Task
  | Task.timerWait ref _ => Task.timerWait ref true
  | task => task

def settleJob (job : Job) : Job :=
  (settle job.1, job.2)

theorem settle_cancelWait (ref : ComponentRef) (task : Task) :
    settle (cancelWait ref task) = settle task := by
  cases task with
  | _ => rfl

theorem carriedBy_settleJob (address : Nat) (via : Via) (route : LocalRoute)
    (job : Job) :
    carriedBy address via route (settleJob job) =
      carriedBy address via route job := by
  rcases job with ⟨task, tag⟩
  cases task with
  | _ => rfl

theorem flatMap_settleJob (address : Nat) (via : Via) (route : LocalRoute)
    (jobs : List Job) :
    (jobs.map settleJob).flatMap (carriedBy address via route) =
      jobs.flatMap (carriedBy address via route) := by
  rw [List.flatMap_map]
  exact congrArg (jobs.flatMap ·)
    (funext (carriedBy_settleJob address via route))

theorem emittedBy_settle (address : Nat) (c : String) (port : Parser.PortId)
    (task : Task) :
    emittedBy address c port (settle task) = emittedBy address c port task := by
  cases task with
  | _ => rfl

theorem flatMap_settle (address : Nat) (c : String) (port : Parser.PortId)
    (tasks : List Task) :
    (tasks.map settle).flatMap (emittedBy address c port) =
      tasks.flatMap (emittedBy address c port) := by
  rw [List.flatMap_map]
  exact congrArg (tasks.flatMap ·)
    (funext (emittedBy_settle address c port))

theorem flatMap_heldBy {tasks : List Task} {vias : List (Option Via)}
    (hlength : vias.length = tasks.length) {address : Nat} {c : String}
    {port : Parser.PortId} :
    ((tasks.zip vias).map settleJob).flatMap (heldBy address c port) =
      tasks.flatMap (emittedBy address c port) := by
  have htasks : (tasks.zip vias).map Prod.fst = tasks :=
    List.map_fst_zip hlength.ge
  nth_rewrite 2 [← htasks]
  rw [List.flatMap_map, List.flatMap_map]
  exact congrArg ((tasks.zip vias).flatMap ·)
    (funext (fun job => emittedBy_settle address c port job.1))

/-- Up to waits, effects put their tasks at the end of the queue. -/
theorem map_settle_serve (effects : List Effect) (service : List Task) :
    (effects.foldl serve service).map settle =
      service.map settle ++ (posted effects).map settle := by
  induction effects generalizing service with
  | nil => exact (List.append_nil _).symm
  | cons effect rest ih =>
      rw [List.foldl_cons, ih]
      cases effect with
      | post task =>
          show (service ++ [task]).map settle ++ _ =
            service.map settle ++ (task :: posted rest).map settle
          rw [List.map_append, List.append_assoc]
          rfl
      | cancelWaits ref =>
          show (service.map (cancelWait ref)).map settle ++ _ = _
          rw [List.map_map, show settle ∘ cancelWait ref = settle from
            funext (settle_cancelWait ref)]
          rfl
      | send client origin payload => rfl

theorem length_serve (effects : List Effect) (service : List Task) :
    (effects.foldl serve service).length =
      service.length + (posted effects).length := by
  have hmap := congrArg List.length (map_settle_serve effects service)
  rw [List.length_append, List.length_map, List.length_map, List.length_map]
    at hmap
  exact hmap

theorem map_settle_drop (effects : List Effect) (service : List Task) :
    ((effects.foldl serve service).drop service.length).map settle =
      (posted effects).map settle := by
  rw [List.map_drop, map_settle_serve]
  exact List.drop_left' (List.length_map settle)

theorem map_settleJob_zip (service : List Task) (vias : List (Option Via)) :
    (service.zip vias).map settleJob = (service.map settle).zip vias :=
  (List.zip_map_left).symm

/-!
## Outputs on their way out
-/

/-- One of the two ways out of a router: an output becomes a packet that is
posted at each of its local routes, and a message that is sent along each of its
remote ones. -/
structure Exit (A B : Type) where
  routes : Routes -> List A
  part : List Effect -> List B
  make : Router -> String -> Nat -> Parser.PortId × Bytes -> A -> B
  nil : part [] = []
  append : forall xs ys, part (xs ++ ys) = part xs ++ part ys
  made : forall r c index output, part (r.outputEffects c index output) =
    (routes (r.routesAt c output.1)).map (make r c index output)

namespace Exit

variable {A B : Type} (x : Exit A B)

def leaving (r : Router) (c : String) (index : Nat)
    (outputs : List (Parser.PortId × Bytes)) : List (B × Option Via) :=
  (x.part (r.allEffects c index outputs)).zip (r.positions x.routes c outputs)

theorem part_cons (r : Router) (c : String) (index : Nat)
    (output : Parser.PortId × Bytes) (rest : List (Parser.PortId × Bytes)) :
    x.part (r.allEffects c index (output :: rest)) =
      (x.routes (r.routesAt c output.1)).map (x.make r c index output) ++
        x.part (r.allEffects c (index + 1) rest) := by
  rw [← x.made]
  exact x.append _ _

theorem positions_cons (r : Router) (c : String)
    (output : Parser.PortId × Bytes) (rest : List (Parser.PortId × Bytes)) :
    r.positions x.routes c (output :: rest) =
      (x.routes (r.routesAt c output.1)).zipIdx.map (fun entry =>
        some ⟨c, output.1, entry.2⟩) ++ r.positions x.routes c rest :=
  List.flatMap_cons

theorem length_part (r : Router) (c : String) (index : Nat)
    (outputs : List (Parser.PortId × Bytes)) :
    (x.part (r.allEffects c index outputs)).length =
      (r.positions x.routes c outputs).length := by
  induction outputs generalizing index with
  | nil => exact congrArg List.length x.nil
  | cons output rest ih =>
      rw [part_cons, positions_cons, List.length_append, List.length_append,
        List.length_map, List.length_map, List.length_zipIdx, ih]

theorem leaving_nil (r : Router) (c : String) (index : Nat) :
    x.leaving r c index [] = [] :=
  List.zip_nil_right

theorem leaving_cons (r : Router) (c : String) (index : Nat)
    (output : Parser.PortId × Bytes) (rest : List (Parser.PortId × Bytes)) :
    x.leaving r c index (output :: rest) =
      (x.routes (r.routesAt c output.1)).zipIdx.map (fun entry =>
        (x.make r c index output entry.1, some ⟨c, output.1, entry.2⟩)) ++
          x.leaving r c (index + 1) rest := by
  have hlength : ((x.routes (r.routesAt c output.1)).map
      (x.make r c index output)).length =
        ((x.routes (r.routesAt c output.1)).zipIdx.map (fun entry =>
          (some ⟨c, output.1, entry.2⟩ : Option Via))).length := by
    rw [List.length_map, List.length_map, List.length_zipIdx]
  have hroutes := List.zipIdx_map_fst 0 (x.routes (r.routesAt c output.1))
  unfold leaving
  rw [part_cons, positions_cons, List.zip_append hlength]
  nth_rewrite 1 [← hroutes]
  rw [List.map_map, List.zip_map']
  rfl

theorem mem_leaving {r : Router} {c : String} {index : Nat}
    {outputs : List (Parser.PortId × Bytes)} {entry : B × Option Via}
    (h : entry ∈ x.leaving r c index outputs) :
    exists port payload number position route,
      (x.routes (r.routesAt c port))[position]? = some route ∧
      entry = (x.make r c number (port, payload) route,
        some ⟨c, port, position⟩) := by
  induction outputs generalizing index with
  | nil =>
      rw [leaving_nil] at h
      cases h
  | cons output rest ih =>
      rw [leaving_cons] at h
      rcases List.mem_append.mp h with hfirst | hrest
      · rcases List.mem_map.mp hfirst with ⟨⟨route, position⟩, hmem, rfl⟩
        exact ⟨output.1, output.2, index, position, route,
          List.mk_mem_zipIdx_iff_getElem?.mp hmem, rfl⟩
      · exact ih hrest

/-- What carries a payload along a connection: that which was made for its route
at its position. -/
structure CarriesAlong [DecidableEq A] (r : Router) (via : Via) (route : A)
    (carried : B × Option Via -> List Bytes) : Prop where
  untagged : forall b, carried (b, none) = []
  made : forall c index output entry position,
    carried (x.make r c index output entry, some ⟨c, output.1, position⟩) =
      if (c = via.source ∧ output.1 = via.port) ∧ position = via.index ∧
          entry = route then
        [output.2]
      else
        []

section CarriesAlong

variable [DecidableEq A] {x} {r : Router} {via : Via} {route : A}
  {carried : B × Option Via -> List Bytes}

theorem CarriesAlong.replicate (h : x.CarriesAlong r via route carried)
    (bs : List B) :
    (bs.zip (List.replicate bs.length none)).flatMap carried = [] := by
  rw [List.flatMap_eq_nil_iff]
  rintro ⟨b, tag⟩ hentry
  have htag : tag = none :=
    List.eq_of_mem_replicate (List.of_mem_zip hentry).right
  rw [htag]
  exact h.untagged b

/-- Of what an output becomes, that which leaves along a connection carries what
was emitted on its port. -/
theorem CarriesAlong.output (h : x.CarriesAlong r via route carried)
    (hroute : (x.routes (r.routesAt via.source via.port))[via.index]? =
      some route) (c : String) (index : Nat)
    (output : Parser.PortId × Bytes) :
    ((x.routes (r.routesAt c output.1)).zipIdx.map (fun entry =>
        (x.make r c index output entry.1,
          (some ⟨c, output.1, entry.2⟩ : Option Via)))).flatMap carried =
      if c = via.source then onPort via.port output else [] := by
  rw [List.flatMap_map]
  simp only [h.made]
  unfold onPort
  by_cases hsource : c = via.source
  · by_cases hport : output.1 = via.port
    · subst hsource
      have hhere : (x.routes (r.routesAt via.source output.1))[via.index]? =
          some route := by
        rw [hport]
        exact hroute
      have hentry := Lib.flatMap_zipIdx_eq hhere
        (fun entry => if entry = route then [output.2] else []) 0
      simp only [hport, true_and, if_true, ite_and, Nat.zero_add]
        at hentry ⊢
      exact hentry
    · simp only [hport, and_false, false_and, if_false, ite_self]
      exact List.flatMap_eq_nil_iff.mpr (fun _ _ => rfl)
  · simp only [hsource, false_and, if_false]
    exact List.flatMap_eq_nil_iff.mpr (fun _ _ => rfl)

theorem CarriesAlong.leaving (h : x.CarriesAlong r via route carried)
    (hroute : (x.routes (r.routesAt via.source via.port))[via.index]? =
      some route) (c : String) (index : Nat)
    (outputs : List (Parser.PortId × Bytes)) :
    (x.leaving r c index outputs).flatMap carried =
      if c = via.source then outputs.flatMap (onPort via.port) else [] := by
  induction outputs generalizing index with
  | nil =>
      rw [leaving_nil]
      exact (ite_self _).symm
  | cons output rest ih =>
      rw [leaving_cons, List.flatMap_append, h.output hroute, ih]
      by_cases hsource : c = via.source
      · simp only [if_pos hsource]
        rfl
      · simp only [if_neg hsource]
        rfl

end CarriesAlong

end Exit

def localExit : Exit LocalRoute Task :=
  { routes := Routes.localRoutes
    part := posted
    make := fun r c index output route =>
      Task.doProcess ⟨r.address, route.component⟩
        (some ⟨(Table.get r.components c).name, index⟩) route.inPort output.2
    nil := rfl
    append := posted_append
    made := posted_outputEffects }

theorem carries_carriedBy (r : Router) (via : Via) (route : LocalRoute) :
    localExit.CarriesAlong r via route (carriedBy r.address via route) := by
  constructor
  · intro task
    cases task with
    | doProcess ref origin inPort payload =>
        have hne : ¬ (none = some via ∧
            ref = ⟨r.address, route.component⟩ ∧ inPort = route.inPort) :=
          fun h => Option.some_ne_none via h.left.symm
        unfold carriedBy
        exact if_neg hne
    | _ => rfl
  · intro c index output entry position
    rcases via with ⟨source, viaPort, viaIndex⟩
    rcases route with ⟨inPort, component⟩
    rcases entry with ⟨inPort', component'⟩
    refine if_congr ?_ rfl rfl
    simp only [Option.some.injEq, Via.mk.injEq, ComponentRef.mk.injEq,
      LocalRoute.mk.injEq, true_and, and_assoc]
    tauto

section Tasks

variable {env : Platform} {n : Protort.Node} {task : Task}
  {effects : List Effect}

/-- A task either emits nothing, and then nothing leaves along a connection, or
its outputs are routed by the current router. -/
theorem routed_cases (hn : Consistent n)
    (hidle : n.router.started = false -> pendingTasks n.router.address n = 0)
    (hmem : task ∈ n.service)
    (heffects : taskEffects env n task = some effects) :
    ((forall {A : Type} (routes : Routes -> List A) count,
        positionsOf routes n.router count (some task) =
          List.replicate count none) ∧
      forall c port, emittedBy n.router.address c port task = []) ∨
    exists name index outputs,
      task = Task.doRoute n.router.address (some name) outputs ∧
      effects = n.router.allEffects name index (flatten outputs) ∧
      forall {A : Type} (routes : Routes -> List A) count,
        positionsOf routes n.router count (some task) =
          n.router.positions routes name (flatten outputs) := by
  cases (hn.sound.tasks task hmem).asks heffects with
  | doProcess origin inPort payload hc =>
      exact Or.inl ⟨fun _ _ => rfl, fun _ _ => rfl⟩
  | generate hc hkind => exact Or.inl ⟨fun _ _ => rfl, fun _ _ => rfl⟩
  | timerWait cancelled hc hkind =>
      exact Or.inl ⟨fun _ _ => rfl, fun _ _ => rfl⟩
  | @doRoute address r name outputs hr hname =>
      by_cases hcurrent : address = n.router.address
      · subst hcurrent
        rw [findRouter_current] at hr
        rcases Option.some.inj hr with rfl
        have hstarted : n.router.started = true := by
          cases hflag : n.router.started with
          | true => rfl
          | false =>
              -- a stopped router has no task that could route anything
              have hnone := List.countP_eq_zero.mp (hidle hflag) _ hmem
              exact absurd (decide_eq_true rfl) hnone
        exact Or.inr ⟨name, _, outputs, rfl,
          (Router.doRoute_sent env hstarted hname outputs).effects,
          fun _ _ => if_pos ⟨rfl, hstarted⟩⟩
      · left
        constructor
        · exact fun _ _ => if_neg (fun h => hcurrent h.left)
        · intro c port
          rw [emittedBy_doRoute]
          exact if_neg (fun h => hcurrent h.left)

variable {A B : Type} {x : Exit A B}

theorem length_positionsOf (x : Exit A B) (hn : Consistent n)
    (hidle : n.router.started = false -> pendingTasks n.router.address n = 0)
    (hmem : task ∈ n.service)
    (heffects : taskEffects env n task = some effects) :
    (positionsOf x.routes n.router (x.part effects).length
      (some task)).length = (x.part effects).length := by
  rcases routed_cases hn hidle hmem heffects with
    ⟨hnone, _⟩ | ⟨name, index, outputs, rfl, rfl, hpositions⟩
  · rw [hnone, List.length_replicate]
  · rw [hpositions, x.length_part]

theorem Exit.CarriesAlong.positionsOf [DecidableEq A] {via : Via} {route : A}
    {carried : B × Option Via -> List Bytes}
    (h : x.CarriesAlong n.router via route carried) (hn : Consistent n)
    (hidle : n.router.started = false -> pendingTasks n.router.address n = 0)
    (hroute : (x.routes (n.router.routesAt via.source via.port))[via.index]? =
      some route) (hmem : task ∈ n.service)
    (heffects : taskEffects env n task = some effects) :
    ((x.part effects).zip (positionsOf x.routes n.router
        (x.part effects).length (some task))).flatMap carried =
      emittedBy n.router.address via.source via.port task := by
  rcases routed_cases hn hidle hmem heffects with
    ⟨hnone, hemitted⟩ | ⟨name, index, outputs, rfl, rfl, hpositions⟩
  · rw [hnone, hemitted, h.replicate]
  · rw [hpositions, emittedBy_doRoute]
    refine (h.leaving hroute name index (flatten outputs)).trans ?_
    simp only [true_and]

end Tasks

/-!
## Steps
-/

/-- The router is still the one whose packets are followed, and when it is not
started nothing of it is queued. -/
structure Stays (r : Router) (n : Protort.Node) : Prop where
  consistent : Consistent n
  address : n.router.address = r.address
  routes : forall c p, n.router.routesAt c p = r.routesAt c p
  idle : n.router.started = false -> pendingTasks n.router.address n = 0

/-- There is a tag for each queued task, and every connection has its payloads
in order, up to waits. -/
structure Following (r : Router) (t : Tracked) : Prop where
  stays : Stays r t.node
  length : t.vias.length = t.node.service.length
  ordered : forall via route,
    (r.routesAt via.source via.port).localRoutes[via.index]? = some route ->
      Ordered (carriedBy r.address via route)
        (heldBy r.address via.source via.port) (t.ran.map settleJob)
        ((t.node.service.zip t.vias).map settleJob)
        (t.emittedOn r.address via.source via.port)

section Steps

variable {r : Router} {n n' : Protort.Node}

theorem startOrStop_kind {event : Event} {kind : Protocol.Deploy.PacketKind}
    (h : startOrStop event = some kind) :
    kind = Protocol.Deploy.PacketKind.start ∨
      kind = Protocol.Deploy.PacketKind.stop := by
  cases event with
  | request env payload =>
      cases payload with
      | deployPacket packet =>
          unfold startOrStop at h
          simp only [] at h
          cases hkind : packet.kind with
          | start =>
              rw [hkind] at h
              exact Or.inl (Option.some.inj h).symm
          | stop =>
              rw [hkind] at h
              exact Or.inr (Option.some.inj h).symm
          | _ =>
              rw [hkind] at h
              cases h
      | _ => cases h
  | _ => cases h

theorem Stays.step {event : Event} (h : Stays r n)
    (hkept : event.isDeployment = false)
    (hstop : startOrStop event ≠ some Protocol.Deploy.PacketKind.stop)
    (hstep : Node.step n event = some n') : Stays r n' := by
  rcases Consistent.step hstep h.consistent with ⟨hconsistent, hstarted⟩
  have htable := step_table h.consistent hkept hstep
  have haddress : n'.router.address = n.router.address := htable.address
  refine
    { consistent := hconsistent
      address := haddress.trans h.address
      routes := fun c p => (htable.routes c p).trans (h.routes c p)
      idle := ?_ }
  intro hflag
  -- it was not started before, and no Start has come
  have hcommand : startOrStop event ≠
      some Protocol.Deploy.PacketKind.start := by
    intro hstart
    rw [startedBy_eq, hstart] at hstarted
    rw [hstarted] at hflag
    cases hflag
  have hbefore : n.router.started = false := by
    rw [startedBy_eq] at hstarted
    cases hnext : startOrStop event with
    | none =>
        rw [hnext] at hstarted
        exact hstarted.symm.trans hflag
    | some kind =>
        rcases startOrStop_kind hnext with rfl | rfl
        · exact absurd hnext hcommand
        · exact absurd hnext hstop
  have hstopped : Stopped n.router.address n :=
    ⟨Nat.le_refl _, fun _ => hbefore⟩
  have hsilent := (hstopped.silent h.consistent
    (fun hstart => absurd hstart hcommand) hstep).left
  have hnone := h.idle hbefore
  rw [haddress]
  cases event with
  | request env payload => exact hsilent.right.trans hnone
  | message env origin payload => exact hsilent.right.left.trans hnone
  | run env index =>
      rcases step_run hstep with ⟨task, hget, _⟩
      have hother : task.router ≠ n.router.address := fun hrouter =>
        List.countP_eq_zero.mp hnone task (List.mem_of_getElem? hget)
          (decide_eq_true hrouter)
      exact ((hsilent task hget).right hother).trans hnone

def newJobs (r : Router) (task : Option Task) (effects : List Effect) :
    List Job :=
  ((posted effects).zip (viasOf r (posted effects).length task)).map settleJob

theorem Tracked.advance_spec {t : Tracked} {service : List Task}
    {effects : List Effect} {task : Option Task}
    (hlength : t.vias.length = service.length)
    (hservice : n'.service = effects.foldl serve service)
    (hnew : (viasOf t.node.router (posted effects).length task).length =
      (posted effects).length) :
    (t.advance task n').vias.length = n'.service.length ∧
    (n'.service.zip (t.advance task n').vias).map settleJob =
      (service.zip t.vias).map settleJob ++
        newJobs t.node.router task effects ∧
    forall address c port, (t.advance task n').emittedOn address c port =
      t.emittedOn address c port ++
        (newJobs t.node.router task effects).flatMap
          (heldBy address c port) := by
  have hcount : (n'.service.drop t.vias.length).length =
      (posted effects).length := by
    rw [hservice, List.length_drop, length_serve, hlength,
      Nat.add_sub_cancel_left]
  have hvias : (t.advance task n').vias =
      t.vias ++ viasOf t.node.router (posted effects).length task := by
    rw [← hcount]
    rfl
  refine ⟨?_, ?_, ?_⟩
  · rw [hvias, hservice, List.length_append, hnew, length_serve, hlength]
  · unfold newJobs
    simp only [map_settleJob_zip]
    rw [hvias, hservice, map_settle_serve, List.zip_append]
    rw [List.length_map, hlength]
  · intro address c port
    have hemitted : (n'.service.drop t.vias.length).flatMap
        (emittedBy address c port) =
          (newJobs t.node.router task effects).flatMap
            (heldBy address c port) := by
      unfold newJobs
      rw [flatMap_heldBy hnew, ← flatMap_settle, hservice, hlength,
        map_settle_drop, flatMap_settle]
    rw [← hemitted]
    exact List.flatMap_append

theorem Following.queue {t : Tracked} (h : Following r t)
    (hstays : Stays r n') {effects : List Effect}
    (hservice : n'.service = effects.foldl serve t.node.service) :
    Following r (t.advance none n') := by
  have hnew : (viasOf t.node.router (posted effects).length none).length =
      (posted effects).length := List.length_replicate
  rcases Tracked.advance_spec h.length hservice hnew with
    ⟨hlength, hjobs, hemitted⟩
  refine
    { stays := hstays
      length := hlength
      ordered := ?_ }
  intro via route hroute
  have hcarried : (newJobs t.node.router none effects).flatMap
      (carriedBy r.address via route) = [] := by
    unfold newJobs
    rw [flatMap_settleJob]
    exact (carries_carriedBy r via route).replicate _
  have hafter := (h.ordered via route hroute).add hcarried
  rw [← hjobs, ← hemitted] at hafter
  exact hafter

/-- Only timers run before others, and they have no packets. -/
theorem idle_of_inOrder {t : Tracked} {env : Platform} {index : Nat}
    {task : Task} (hget : t.node.service[index]? = some task)
    (horder : InOrder t (Event.run env index)) {address : Nat} {via : Via}
    {route : LocalRoute} {tag : Option Via} :
    (forall job, job ∈ ((t.node.service.zip t.vias).map settleJob).take index ->
      IsIdle (carriedBy address via route)
        (heldBy address via.source via.port) job) ∨
      IsIdle (carriedBy address via route)
        (heldBy address via.source via.port) (settleJob (task, tag)) := by
  have hidle : forall (other : Task) (mark : Option Via),
      other.isWait = true -> IsIdle (carriedBy address via route)
        (heldBy address via.source via.port) (settleJob (other, mark)) := by
    intro other mark hwait
    cases other with
    | timerWait ref cancelled => exact ⟨rfl, rfl⟩
    | _ => cases hwait
  rcases horder with hbefore | htimer
  · left
    intro job hjob
    rw [← List.map_take] at hjob
    rcases List.mem_map.mp hjob with ⟨⟨other, mark⟩, hother, rfl⟩
    have htaken : (t.node.service.zip t.vias).take index =
        (t.node.service.take index).zip (t.vias.take index) :=
      List.take_zipWith
    rw [htaken] at hother
    exact hidle other mark
      (List.all_eq_true.mp hbefore other (List.of_mem_zip hother).left)
  · right
    rw [hget] at htimer
    exact hidle task tag htimer

theorem Following.run {t : Tracked} (h : Following r t) (hstays : Stays r n')
    {env : Platform} {index : Nat} {task : Task}
    (hget : t.node.service[index]? = some task) {effects : List Effect}
    (heffects : taskEffects env t.node task = some effects)
    (hservice : n'.service =
      effects.foldl serve (t.node.service.eraseIdx index))
    (horder : InOrder t (Event.run env index)) :
    Following r ((t.take index task).advance (some task) n') := by
  have hmem := List.mem_of_getElem? hget
  have htaken : (t.take index task).vias.length =
      (t.node.service.eraseIdx index).length := by
    show (t.vias.eraseIdx index).length = _
    rw [List.length_eraseIdx, List.length_eraseIdx, h.length]
  have hnew := length_positionsOf localExit h.stays.consistent h.stays.idle
    hmem heffects
  rcases Tracked.advance_spec htaken hservice hnew with
    ⟨hlength, hjobs, hemitted⟩
  refine
    { stays := hstays
      length := hlength
      ordered := ?_ }
  intro via route hroute
  have htag : t.vias[index]? = some ((t.vias[index]?).join) := by
    rcases List.getElem?_eq_some_iff.mp hget with ⟨hlt, _⟩
    rw [List.getElem?_eq_getElem (h.length ▸ hlt)]
    rfl
  have hjob : ((t.node.service.zip t.vias).map settleJob)[index]? =
      some (settleJob (task, (t.vias[index]?).join)) := by
    rw [List.getElem?_map, List.getElem?_zip_eq_some
      (z := (task, (t.vias[index]?).join)).mpr ⟨hget, htag⟩, Option.map_some]
  have hcarried : (newJobs t.node.router (some task) effects).flatMap
      (carriedBy r.address via route) =
        heldBy r.address via.source via.port
          (settleJob (task, (t.vias[index]?).join)) := by
    unfold newJobs
    rw [flatMap_settleJob, ← h.stays.address]
    rw [← h.stays.routes] at hroute
    refine Eq.trans ?_ (emittedBy_settle _ _ _ task).symm
    exact (carries_carriedBy t.node.router via route).positionsOf
      h.stays.consistent h.stays.idle hroute hmem heffects
  have hafter := (h.ordered via route hroute).run hjob
    (idle_of_inOrder hget horder) hcarried
  have hran : ((t.take index task).advance (some task) n').ran.map settleJob =
      t.ran.map settleJob ++
        [settleJob (task, (t.vias[index]?).join)] := List.map_append
  rw [List.eraseIdx_map, Lib.zip_eraseIdx] at hafter
  rw [hran]
  show Ordered _ _ _ ((n'.service.zip
    ((t.take index task).advance (some task) n').vias).map settleJob) _
  rw [hjobs, hemitted]
  exact hafter

/-- Everything that happens in order leaves the payloads in order. -/
theorem Following.step {t t' : Tracked} {event : Event}
    (horder : InOrder t event) (hstep : t.step event = some t')
    (h : Following r t) : Following r t' := by
  rcases Option.map_eq_some_iff.mp hstep with ⟨n', hn', rfl⟩
  cases event with
  | request env payload =>
      have hstays := h.stays.step horder.left horder.right hn'
      rcases returned_eq_some.mp hn' with ⟨response, hrun⟩
      rcases ((onNewRequest_ok_iff.mp hrun).right.queues
        h.stays.consistent.sound).right.right with ⟨effects, hservice, _⟩
      exact h.queue hstays hservice
  | message env origin payload =>
      have hstays := h.stays.step horder.left horder.right hn'
      rcases message_spec hn' with ⟨m, _, hservice, _, rfl⟩
      exact h.queue hstays (by rw [service_performAll, hservice])
  | run env index =>
      have hstays := h.stays.step (rfl : (Event.run env index).isDeployment =
        false) nofun hn'
      rcases run_spec h.stays.consistent.sound hn' with
        ⟨task, effects, m, hget, _, heffects, _, _, hservice, _, rfl⟩
      simp only [hget]
      exact h.run hstays hget heffects
        (by rw [service_performAll, hservice]) horder

end Steps

/-!
## Deployments
-/

theorem Served.address_lt {env : Platform} {n n' : Protort.Node}
    {packet : Protocol.Deploy.Packet} {response : Protocol.Payload}
    (hserved : Served env n packet response n')
    (hkind : packet.kind = Protocol.Deploy.PacketKind.deployConfig) :
    n.router.address < n'.router.address := by
  rcases hserved.of_deployConfig hkind with ⟨m, hdeploy, rfl⟩
  have hbuilt := deployFromPacket_rebuilt (Unstarted.empty n) hdeploy
  rcases hbuilt.replaced env n.router.started with ⟨hrouter, haddress, _⟩
  rw [hrouter, haddress]
  exact Nat.lt_succ_self n.router.address

theorem JustDeployed.stays {n : Protort.Node} (h : JustDeployed n) :
    Stays n.router n := by
  refine
    { consistent := h.uncounted.left
      address := rfl
      routes := fun _ _ => rfl
      idle := ?_ }
  intro hstopped
  rcases h with ⟨m, env, payload, hm, hdeployment, hstep⟩
  rcases returned_eq_some.mp hstep with ⟨response, hrun⟩
  have hserved := (onNewRequest_ok_iff.mp hrun).right
  have hsound := hm.consistent.sound
  have hless := hserved.address_lt (of_decide_eq_true hdeployment)
  rcases (hserved.queues hsound).right.right with
    ⟨effects, hservice, hposted⟩
  have hold : m.service.countP (isPending n.router.address) = 0 := by
    rw [List.countP_eq_zero]
    intro task htask hpending
    have hle := (hsound.tasks task htask).router_le hsound.numbered
    have heq : task.router = n.router.address := of_decide_eq_true hpending
    omega
  have hnew : (posted effects).countP (isPending n.router.address) = 0 := by
    refine countP_posted_eq_zero (fun task htask => ?_)
    rw [(hposted task htask).right] at hstopped
    cases hstopped
  unfold pendingTasks
  rw [hservice, countP_serve (isPending_cancelWait n.router.address), hold,
    hnew]

/-- Where nothing is queued while the router is not started, the packets can be
followed from then on. -/
theorem Stays.following {n : Protort.Node} (h : Stays n.router n) :
    Following n.router (Tracked.start n) := by
  refine
    { stays := h
      length := List.length_replicate
      ordered := ?_ }
  intro via route _
  have hcarried : ((n.service.zip (List.replicate n.service.length
      none)).map settleJob).flatMap (carriedBy n.router.address via route) =
        [] := by
    rw [flatMap_settleJob]
    exact (carries_carriedBy n.router via route).replicate _
  have hstart : Ordered (carriedBy n.router.address via route)
      (heldBy n.router.address via.source via.port) [] _ _ :=
    Ordered.start hcarried
  rw [flatMap_heldBy List.length_replicate] at hstart
  exact hstart

/-- As long as one worker runs the tasks of a node in the order in which they
were posted, and the router of a deployment is neither stopped nor replaced,
what was processed through one of its connections is the beginning of what was
emitted on the port that it starts from: nothing is lost, doubled or
overtaken. -/
theorem single_worker_keeps_order {n : Protort.Node} (hn : JustDeployed n)
    {events : List Event} {t : Tracked}
    (hrun : Run (Guarded InOrder (Steps Tracked.step)) (Tracked.start n) events
      t) {via : Via} {route : LocalRoute}
    (hroute : (n.router.routesAt via.source via.port).localRoutes[via.index]? =
      some route) :
    t.processedThrough n.router.address via route <+:
      t.emittedOn n.router.address via.source via.port := by
  have hend : Following n.router t :=
    hrun.invariant (fun hstep h => h.step hstep.left hstep.right)
      hn.stays.following
  have hprefix := (hend.ordered via route hroute).processed_first
  rw [flatMap_settleJob] at hprefix
  exact hprefix

def echo : Protocol.Deploy.Config :=
  { lonely Protocol.ComponentKind.retranslator with
    connections := [⟨⟨0, "g"⟩, ⟨1, "g"⟩⟩] }

def echoNode : Protort.Node :=
  (Lib.execute step (new 100 0) [deployRequest echo]).getD (new 100 0)

def echoes : List Event :=
  let packet (value : UInt8) : Event :=
    Event.message Platform.loopback none
      (Protocol.Payload.communicationPacket
        { source := ⟨0, "a"⟩
          destination := ⟨0, "g"⟩
          payload := [value] })
  [command Protocol.Deploy.PacketKind.start, packet 1, packet 2] ++
    List.replicate 5 (Event.run Platform.loopback 0)

def echoed : Tracked :=
  (Lib.execute Tracked.step (Tracked.start echoNode) echoes).getD
    (Tracked.start echoNode)

theorem justDeployed_echoNode : JustDeployed echoNode := by
  have hstep : step (new 100 0) (deployRequest echo) = some echoNode := by
    decide +kernel
  exact ⟨new 100 0, _, _, ⟨100, 0, [], Run.nil _⟩, rfl, hstep⟩

theorem run_echoed : Run (Guarded InOrder (Steps Tracked.step))
    (Tracked.start echoNode) echoes echoed :=
  Run.guarded_of_execute (by decide +kernel)

theorem single_worker_keeps_order_echo :
    echoed.processedThrough 1 ⟨"g", 0, 0⟩ ⟨1, "g"⟩ = [[1]] ∧
      echoed.emittedOn 1 "g" 0 = [[1], [2], [1]] ∧
      echoed.processedThrough echoNode.router.address ⟨"g", 0, 0⟩ ⟨1, "g"⟩ <+:
        echoed.emittedOn echoNode.router.address "g" 0 :=
  ⟨by decide +kernel, by decide +kernel,
    single_worker_keeps_order justDeployed_echoNode run_echoed
      (by decide +kernel)⟩

end Node
end Protort
