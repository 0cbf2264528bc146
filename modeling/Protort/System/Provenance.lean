import Protort.Node.Payloads
import Protort.System.Nodes

/-!
# Where packets come from

Every queued task and every message on the way has a trail: the generator that
packed its payload, and the components that have handed the packet on since.
Trails are bookkeeping beside the nodes, and no step looks at them.  The
payloads of a task or a message are those that its trail says.
-/

namespace Protort
namespace System

open Lib (Run Steps execute ByteOrder Bytes)
open Components (Data Intact worked)
open Node (Task ComponentRef)

namespace Nodes

universe u

variable {ι : Type u}

/-!
## Trails
-/

/-- A packet passes a component, on the platform of that moment. -/
structure Hop (ι : Type u) where
  node : ι
  component : ComponentRef
  kind : Protocol.ComponentKind
  env : Platform

structure Trail (ι : Type u) where
  node : ι
  generator : ComponentRef
  stamped : Data
  hops : List (Hop ι)

namespace Trail

def through (trail : Trail ι) (hop : Hop ι) : Trail ι :=
  { trail with hops := trail.hops ++ [hop] }

/-- The value of the generator after the operation of each calc on the way. -/
def value (trail : Trail ι) : UInt32 :=
  trail.hops.foldl (fun val hop => worked hop.env hop.kind val)
    trail.stamped.val

/-- The structure in a payload: value, time and address of the generator. -/
def data (trail : Trail ι) : Data :=
  { val := trail.value
    time := trail.stamped.time
    address := trail.stamped.address }

theorem data_through (trail : Trail ι) (hop : Hop ι) :
    (trail.through hop).data =
      { trail.data with
        val := worked hop.env hop.kind trail.data.val } := by
  unfold data value through
  rw [List.foldl_append]
  rfl

end Trail

structure Tags (ι : Type u) where
  service : List (Option (Trail ι))
  outbox : List (Option (Trail ι))

def stampOf (x : ι) (env : Platform) (n : Protort.Node) (t : Task) :
    Option (Trail ι) :=
  match t with
  | Task.doRoute address (some name) _ =>
      (n.findComponent ⟨address, name⟩).map (fun c =>
        { node := x
          generator := ⟨address, name⟩
          stamped := c.stamp env
          hops := [] })
  | _ => none

/-- The trail of a task that another task, which has a trail, leaves behind. -/
def handOn (x : ι) (env : Platform) (n n' : Protort.Node) (task : Task)
    (tag : Option (Trail ι)) (t : Task) : Option (Trail ι) :=
  match task with
  | Task.doProcess ref _ _ _ =>
      (n.findComponent ref).bind (fun c =>
        tag.map (fun trail => trail.through ⟨x, ref, c.kind, env⟩))
  | Task.doRoute _ _ _ => tag
  | Task.generate _ => stampOf x env n' t
  | Task.timerWait _ _ => stampOf x env n' t

/-- The trails of a node after an event of its own.  New tasks and messages
stand at the end. -/
def trackOwn (x : ι) (n : Protort.Node) (event : Node.Event)
    (n' : Protort.Node) (tags : Tags ι) : Tags ι :=
  match event with
  | Node.Event.request env _ =>
      { tags with
        service := tags.service ++
          (n'.service.drop n.service.length).map (stampOf x env n') }
  | Node.Event.message _ _ _ => tags
  | Node.Event.run env index =>
      match n.service[index]? with
      | some task =>
          let tag := (tags.service[index]?).join
          { service := tags.service.eraseIdx index ++
              (n'.service.drop (n.service.eraseIdx index).length).map
                (handOn x env n n' task tag)
            outbox := tags.outbox ++
              (n'.outbox.drop n.outbox.length).map (fun _ => tag) }
      | none => tags

/-!
## What trails say
-/

/-- A trail begins at a generator, whose address is in the packet. -/
def Trail.Begun (sys : ι -> Protort.Node) (trail : Trail ι) : Prop :=
  exists c, (sys trail.node).findComponent trail.generator = some c ∧
    c.isGenerator = true ∧
    trail.stamped.address = UInt64.ofNat c.address

def Told (order : ByteOrder) (sys : ι -> Protort.Node)
    (payloads : List Bytes) (tag : Option (Trail ι)) : Prop :=
  forall payload, payload ∈ payloads -> exists trail, tag = some trail ∧
    trail.Begun sys ∧ Intact order trail.data payload

/-- Every payload that is queued or on the way is what its trail says. -/
structure Traced (order : ByteOrder) (sys : ι -> Protort.Node)
    (tags : ι -> Tags ι) : Prop where
  service : forall x, List.Forall₂
    (fun task tag => Told order sys task.payloads tag)
      (sys x).service (tags x).service
  outbox : forall x, List.Forall₂
    (fun m tag => Told order sys [m.bytes] tag)
      (sys x).outbox (tags x).outbox

section Told

variable {order : ByteOrder} {sys sys' : ι -> Protort.Node}
  {payloads : List Bytes} {tag : Option (Trail ι)} {x : ι} {env : Platform}

theorem Trail.Begun.keeps {trail : Trail ι} (h : trail.Begun sys)
    (hkeeps : forall z, Node.Keeps (sys z) (sys' z)) : trail.Begun sys' := by
  rcases h with ⟨c, hc, hgen, haddress⟩
  rcases (hkeeps trail.node).component hc with ⟨c', hc', hview⟩
  have hsame : c'.address = c.address :=
    congrArg Node.ObjectView.address hview
  have hkind : c'.kind = c.kind := congrArg Node.ObjectView.kind hview
  refine ⟨c', hc', ?_, ?_⟩
  · unfold Components.Component.isGenerator
    rw [hkind]
    exact hgen
  · rw [hsame]
    exact haddress

theorem Told.keeps (h : Told order sys payloads tag)
    (hkeeps : forall z, Node.Keeps (sys z) (sys' z)) :
    Told order sys' payloads tag := by
  intro payload hpayload
  rcases h payload hpayload with ⟨trail, htag, hbegun, hintact⟩
  exact ⟨trail, htag, hbegun.keeps hkeeps, hintact⟩

theorem told_stampOf (henv : env.byteOrder = order) {t : Task}
    (h : Node.Emits env (sys x) t) :
    Told order sys t.payloads (stampOf x env (sys x) t) := by
  rcases h with ⟨ref, c, outputs, hc, hgen, rfl, hintact⟩ | hnone
  · intro payload hpayload
    rcases List.mem_map.mp hpayload with ⟨output, houtput, rfl⟩
    refine ⟨{ node := x
              generator := ref
              stamped := c.stamp env
              hops := [] }, ?_, ⟨c, hc, hgen, rfl⟩, ?_⟩
    · unfold stampOf
      simp only [hc, Option.map_some]
    · rw [← henv]
      exact hintact output houtput
  · intro payload hpayload
    rw [hnone] at hpayload
    cases hpayload

variable {task : Task} {effects : List Node.Effect}

theorem handOn_told (henv : env.byteOrder = order)
    (hsound : (sys x).Sound) (hasks : Node.TaskAsks env (sys x) task effects)
    (hkeeps : forall z, Node.Keeps (sys z) (sys' z))
    (htold : Told order sys task.payloads tag) {t : Task}
    (hpost : Node.Effect.post t ∈ effects) :
    Told order sys' t.payloads
      (handOn x env (sys x) (sys' x) task tag t) := by
  cases hasks with
  | @doProcess ref c origin inPort payload hc =>
      rcases Node.processEffects_cases env c inPort payload with
        hnone | ⟨outputs, hprocess, hroute⟩
      · rw [hnone] at hpost
        cases hpost
      · rw [hroute] at hpost
        cases List.mem_singleton.mp hpost
        intro payload' hpayload'
        rcases List.mem_map.mp hpayload' with ⟨output, houtput, rfl⟩
        rcases htold payload (List.mem_singleton.mpr rfl) with
          ⟨trail, rfl, hbegun, hintact⟩
        refine ⟨trail.through ⟨x, ref, c.kind, env⟩, ?_,
          hbegun.keeps hkeeps, ?_⟩
        · unfold handOn
          simp only [hc, Option.bind_some, Option.map_some]
        · rw [Trail.data_through]
          exact Components.process_intact henv hintact hprocess houtput
  | doRoute outputs hr hname =>
      intro payload hpayload
      rcases Node.doRoute_posts_payload env hname hpost hpayload with
        ⟨output, houtput, rfl⟩
      exact (htold.keeps hkeeps) _ (List.mem_map_of_mem houtput)
  | @generate ref c hc hkind =>
      exact told_stampOf henv (hsound.generateEffects_emits (hkeeps x) hc
        (Node.isGenerator_of_kind (Or.inl hkind)) hpost)
  | @timerWait ref c cancelled hc hkind =>
      exact told_stampOf henv (hsound.generateEffects_emits (hkeeps x) hc
        (Node.isGenerator_of_kind (Or.inr hkind)) hpost)

theorem sends_told (hasks : Node.TaskAsks env (sys x) task effects)
    (hkeeps : forall z, Node.Keeps (sys z) (sys' z))
    (htold : Told order sys task.payloads tag) {m : Node.Outgoing}
    (hm : m ∈ Node.sends effects) : Told order sys' [m.bytes] tag := by
  cases hasks with
  | @doProcess ref c origin inPort payload hc =>
      rcases Node.processEffects_cases env c inPort payload with
        hnone | ⟨outputs, _, hroute⟩
      · rw [hnone] at hm
        cases hm
      · rw [hroute] at hm
        cases hm
  | doRoute outputs hr hname =>
      intro payload hpayload
      rcases List.mem_singleton.mp hpayload with rfl
      rcases Node.doRoute_sends env hname hm with ⟨output, houtput, heq⟩
      rw [← heq]
      exact (htold.keeps hkeeps) _ (List.mem_map_of_mem houtput)
  | generate hc hkind =>
      rw [Node.sends_generateEffects] at hm
      cases hm
  | timerWait cancelled hc hkind =>
      rw [Node.sends_generateEffects] at hm
      cases hm

theorem stampOf_cancelWait (x : ι) (env : Platform) (n : Protort.Node)
    (ref : ComponentRef) (t : Task) :
    stampOf x env n (Node.cancelWait ref t) = stampOf x env n t := by
  cases t with
  | _ => rfl

theorem handOn_cancelWait (x : ι) (env : Platform) (n n' : Protort.Node)
    (task : Task) (tag : Option (Trail ι)) (ref : ComponentRef) (t : Task) :
    handOn x env n n' task tag (Node.cancelWait ref t) =
      handOn x env n n' task tag t := by
  cases task with
  | doProcess _ _ _ _ => rfl
  | doRoute _ _ _ => rfl
  | generate _ => exact stampOf_cancelWait x env n' ref t
  | timerWait _ _ => exact stampOf_cancelWait x env n' ref t

theorem told_cancelWait (ref : ComponentRef) (t : Task)
    (tag : Option (Trail ι)) (h : Told order sys t.payloads tag) :
    Told order sys (Node.cancelWait ref t).payloads tag := by
  rw [Node.payloads_cancelWait]
  exact h

end Told

def New (sys : ι -> Protort.Node) : Prop :=
  forall x, exists port startTime, sys x = Node.new port startTime

def noTags : ι -> Tags ι :=
  fun _ => { service := [], outbox := [] }

section New

variable {order : ByteOrder} {sys : ι -> Protort.Node}

theorem New.consistent (h : New sys) (x : ι) : (sys x).Consistent := by
  rcases h x with ⟨port, startTime, heq⟩
  rw [heq]
  exact Node.consistent_new port startTime

theorem New.traced (h : New sys) : Traced order sys noTags := by
  constructor
  · intro x
    rcases h x with ⟨port, startTime, heq⟩
    rw [heq]
    exact List.Forall₂.nil
  · intro x
    rcases h x with ⟨port, startTime, heq⟩
    rw [heq]
    exact List.Forall₂.nil

end New

/-!
## Keeping track
-/

variable [DecidableEq ι]

/-- The trails of all nodes after an event.  A message keeps its trail when it
arrives. -/
def track (peer : ι -> Node.Client -> Option ι) (sys sys' : ι -> Protort.Node)
    (event : Event ι) (tags : ι -> Tags ι) : ι -> Tags ι :=
  match event with
  | Event.node x event =>
      Function.update tags x (trackOwn x (sys x) event (sys' x) (tags x))
  | Event.deliver _ x index =>
      match ((sys x).outbox[index]?).bind (fun m => peer x m.client) with
      | some y =>
          let tag := ((tags x).outbox[index]?).join
          let taken := Function.update tags x
            { tags x with outbox := (tags x).outbox.eraseIdx index }
          Function.update taken y
            { taken y with
              service := (taken y).service ++
                ((sys' y).service.drop (sys y).service.length).map
                  (fun _ => tag) }
      | none => tags

def trails (peer : ι -> Node.Client -> Option ι) :
    (ι -> Protort.Node) -> (ι -> Tags ι) -> List (Event ι) -> ι -> Tags ι
  | _, tags, [] => tags
  | sys, tags, event :: events =>
      match move isLocal peer sys event with
      | some sys' =>
          trails peer sys' (track peer sys sys' event tags) events
      | none => tags

/-!
## Steps
-/

section Steps

variable {order : ByteOrder} {peer : ι -> Node.Client -> Option ι}
  {sys sys' : ι -> Protort.Node} {tags : ι -> Tags ι} {x : ι}
  {n : Protort.Node}

theorem keeps_update (h : Node.Keeps (sys x) n) (z : ι) :
    Node.Keeps (sys z) (Function.update sys x n z) := by
  by_cases hz : z = x
  · subst z
    rw [Function.update_self]
    exact h
  · rw [Function.update_of_ne hz]
    exact Node.Keeps.refl (sys z)

theorem Traced.update (h : Traced order sys tags)
    (hkeeps : Node.Keeps (sys x) n) {entry : Tags ι}
    (hservice : List.Forall₂ (fun task tag =>
      Told order (Function.update sys x n) task.payloads tag)
        n.service entry.service)
    (houtbox : List.Forall₂ (fun m tag =>
      Told order (Function.update sys x n) [m.bytes] tag)
        n.outbox entry.outbox) :
    Traced order (Function.update sys x n) (Function.update tags x entry) := by
  constructor
  · intro z
    by_cases hz : z = x
    · subst z
      rw [Function.update_self, Function.update_self]
      exact hservice
    · rw [Function.update_of_ne hz, Function.update_of_ne hz]
      exact (h.service z).imp
        (fun _ _ htold => htold.keeps (keeps_update hkeeps))
  · intro z
    by_cases hz : z = x
    · subst z
      rw [Function.update_self, Function.update_self]
      exact houtbox
    · rw [Function.update_of_ne hz, Function.update_of_ne hz]
      exact (h.outbox z).imp
        (fun _ _ htold => htold.keeps (keeps_update hkeeps))

theorem request_traced {env : Platform} {payload : Protocol.Payload}
    (henv : env.byteOrder = order) (hn : (sys x).Consistent)
    (hstep : Node.step (sys x) (Node.Event.request env payload) = some n)
    (h : Traced order sys tags) :
    Traced order (Function.update sys x n)
      (Function.update tags x
        (trackOwn x (sys x) (Node.Event.request env payload) n (tags x))) := by
  have hkeeps := Node.step_keeps hstep hn
  have hall := keeps_update hkeeps
  have hself : Function.update sys x n x = n := Function.update_self x n sys
  rcases Node.returned_eq_some.mp hstep with ⟨response, hrun⟩
  have hserved := (Node.onNewRequest_ok_iff.mp hrun).right
  apply h.update hkeeps
  · rcases hserved.emits hn.sound with ⟨effects, hqueue, hposted⟩
    show List.Forall₂ _ n.service ((tags x).service ++
      (n.service.drop (sys x).service.length).map (stampOf x env n))
    rw [hqueue]
    apply Node.forall₂_serve told_cancelWait (stampOf_cancelWait x env n)
      ((h.service x).imp (fun _ _ htold => htold.keeps hall))
    intro t ht
    have htold := @told_stampOf ι order (Function.update sys x n) x env henv t
      (by
        rw [hself]
        exact hposted t ht)
    rw [hself] at htold
    exact htold
  · show List.Forall₂ _ n.outbox (tags x).outbox
    rw [(hserved.queues hn.sound).left]
    exact (h.outbox x).imp (fun _ _ htold => htold.keeps hall)

theorem run_traced {env : Platform} {index : Nat}
    (henv : env.byteOrder = order) (hn : (sys x).Consistent)
    (hstep : Node.step (sys x) (Node.Event.run env index) = some n)
    (h : Traced order sys tags) :
    Traced order (Function.update sys x n)
      (Function.update tags x
        (trackOwn x (sys x) (Node.Event.run env index) n (tags x))) := by
  have hkeeps := Node.step_keeps hstep hn
  have hall := keeps_update hkeeps
  have hself : Function.update sys x n x = n := Function.update_self x n sys
  rcases Node.run_spec hn.sound hstep with ⟨task, effects, m, htask, hsound,
    heffects, _, _, hservice, houtbox, hn'⟩
  have hasks := hsound.asks heffects
  have hqueue : n.service =
      effects.foldl Node.serve ((sys x).service.eraseIdx index) := by
    rw [hn', Node.service_performAll, hservice]
  have hsent : n.outbox = (sys x).outbox ++ Node.sends effects := by
    rw [hn', Node.outbox_performAll, houtbox]
  rcases Lib.exists_tag (h.service x) htask with ⟨tag, htag, htold⟩
  have hentry : trackOwn x (sys x) (Node.Event.run env index) n (tags x) =
      { service := (tags x).service.eraseIdx index ++
          (n.service.drop ((sys x).service.eraseIdx index).length).map
            (handOn x env (sys x) n task tag)
        outbox := (tags x).outbox ++
          (n.outbox.drop (sys x).outbox.length).map (fun _ => tag) } := by
    unfold trackOwn
    simp only [htask, htag, Option.join_some]
  rw [hentry]
  apply h.update hkeeps
  · show List.Forall₂ _ n.service ((tags x).service.eraseIdx index ++ _)
    rw [hqueue]
    apply Node.forall₂_serve told_cancelWait
      (handOn_cancelWait x env (sys x) n task tag)
      ((Lib.forall₂_eraseIdx (h.service x) index).imp
        (fun _ _ htold => htold.keeps hall))
    intro t ht
    have hposted := handOn_told henv hn.sound hasks hall htold ht
    rw [hself] at hposted
    exact hposted
  · show List.Forall₂ _ n.outbox ((tags x).outbox ++ _)
    rw [hsent, List.drop_left]
    exact Lib.forall₂_append
      ((h.outbox x).imp (fun _ _ htold => htold.keeps hall))
      (fun m hm => sends_told hasks hall htold hm)

theorem message_traced {env : Platform} {origin : Option Components.Origin}
    {payload : Protocol.Payload} {tag : Option (Trail ι)}
    (hn : (sys x).Consistent)
    (hstep : Node.step (sys x) (Node.Event.message env origin payload) =
      some n)
    (htold : Told order sys [payload.asCommunicationPacket.payload] tag)
    (h : Traced order sys tags) :
    Traced order (Function.update sys x n)
      (Function.update tags x
        { tags x with
          service := (tags x).service ++
            (n.service.drop (sys x).service.length).map (fun _ => tag) }) := by
  have hkeeps := Node.step_keeps hstep hn
  have hall := keeps_update hkeeps
  rcases Node.message_spec hstep with ⟨m, _, hservice, houtbox, hn'⟩
  have hpackets : forall task, Node.Effect.post task ∈
      (sys x).messageEffects origin payload ->
        task.payloads = [payload.asCommunicationPacket.payload] := by
    intro task htask
    unfold Node.messageEffects at htask
    rw [Node.Router.route_snd] at htask
    split_ifs at htask
    · cases List.mem_singleton.mp htask
      rfl
    · cases htask
  have hqueue : n.service =
      ((sys x).messageEffects origin payload).foldl Node.serve
        (sys x).service := by
    rw [hn', Node.service_performAll, hservice]
  have hsame : n.outbox = (sys x).outbox := by
    rw [hn', Node.outbox_performAll, houtbox, Node.sends_messageEffects,
      List.append_nil]
  apply h.update hkeeps
  · show List.Forall₂ _ n.service ((tags x).service ++ _)
    rw [hqueue]
    apply Node.forall₂_serve told_cancelWait (fun _ _ => rfl)
      ((h.service x).imp (fun _ _ htold => htold.keeps hall))
    intro t ht
    rw [hpackets t ht]
    exact htold.keeps hall
  · show List.Forall₂ _ n.outbox (tags x).outbox
    rw [hsame]
    exact (h.outbox x).imp (fun _ _ htold => htold.keeps hall)

theorem withoutMessage_traced (h : Traced order sys tags) (index : Nat) :
    Traced order (Function.update sys x (withoutMessage (sys x) index))
      (Function.update tags x
        { tags x with outbox := (tags x).outbox.eraseIdx index }) := by
  have hkeeps : Node.Keeps (sys x) (withoutMessage (sys x) index) :=
    Node.Keeps.refl (sys x)
  have hall := keeps_update hkeeps
  apply h.update hkeeps
  · exact (h.service x).imp (fun _ _ htold => htold.keeps hall)
  · exact (Lib.forall₂_eraseIdx (h.outbox x) index).imp
      (fun _ _ htold => htold.keeps hall)

/-- The step lemma: what is queued and what is on the way is what its trail
says. -/
theorem track_traced {event : Event ι}
    (henv : event.platform.byteOrder = order)
    (hn : forall z, (sys z).Consistent)
    (hmove : move isLocal peer sys event = some sys')
    (h : Traced order sys tags) :
    Traced order sys' (track peer sys sys' event tags) := by
  cases moves_of_move hmove with
  | @node x event n hlocal hstep =>
      unfold track
      simp only [Function.update_self]
      cases event with
      | request env payload => exact request_traced henv (hn x) hstep h
      | message env origin payload => cases hlocal
      | run env index => exact run_traced henv (hn x) hstep h
  | @deliver env x y index m n hm hy hstep =>
      rcases Lib.exists_tag (h.outbox x) hm with ⟨tag, htag, htold⟩
      have htaken := withoutMessage_traced (x := x) h index
      have hcons := forall_update hn
        (consistent_withoutMessage (hn x) index) (x := x)
      have hkeeps := keeps_update (n := withoutMessage (sys x) index)
        (Node.Keeps.refl (sys x))
      have hlength : (Function.update sys x (withoutMessage (sys x) index)
          y).service.length = (sys y).service.length := by
        by_cases hxy : y = x
        · subst y
          rw [Function.update_self]
          rfl
        · rw [Function.update_of_ne hxy]
      have harrived := message_traced (hcons y) hstep
        (htold.keeps hkeeps) htaken
      rw [hlength] at harrived
      unfold track
      simp only [hm, hy, htag, Option.bind_some, Option.join_some,
        Function.update_self]
      exact harrived

end Steps

/-!
## Runs
-/

section Runs

variable {order : ByteOrder} {peer : ι -> Node.Client -> Option ι}
  {sys sys' : ι -> Protort.Node} {events : List (Event ι)}

/-- The run lemma. -/
theorem trails_traced
    (hrun : Run (Steps (move isLocal peer)) sys events sys')
    (horder : forall event, event ∈ events ->
      event.platform.byteOrder = order)
    (hn : forall x, (sys x).Consistent) {tags : ι -> Tags ι}
    (h : Traced order sys tags) :
    Traced order sys' (trails peer sys tags events) := by
  induction hrun generalizing tags with
  | nil sys => exact h
  | @cons sys next sys' event events hstep _ ih =>
      have hmove : move isLocal peer sys event = some next := hstep
      have hnext := track_traced (horder event List.mem_cons_self) hn hmove h
      unfold trails
      rw [hmove]
      exact ih (fun event' hmem => horder event'
        (List.mem_cons_of_mem event hmem)) (move_consistent hmove hn) hnext

/-- In every run of any nodes, on machines of one byte order, every payload that
is queued or on the way is a whole structure, in which every machine of that
order finds, whatever is in the memory behind it, the time and address of the
generator that it comes from, and its value after the operation of each calc
that it has passed. -/
theorem payloads_intact (hnew : New sys)
    (horder : forall event, event ∈ events ->
      event.platform.byteOrder = order)
    (hrun : Run (Steps (move isLocal peer)) sys events sys') :
    Traced order sys' (trails peer sys noTags events) :=
  trails_traced hrun horder hnew.consistent hnew.traced

end Runs

/-!
## A chain of nodes
-/

def drawing : Platform :=
  { Platform.loopback with
    draw := fun _ => (0x3F800000, 1500000000)
    timesHundred := fun bits =>
      if bits = 0x3F800000 then 0x42C80000 else bits }

def chainInfo (x : Fin 3) : Protocol.Deploy.NodeInfo :=
  match x with
  | 0 => ⟨"n1", "127.0.0.1", 100⟩
  | 1 => ⟨"n2", "127.0.0.1", 200⟩
  | 2 => ⟨"n3", "127.0.0.1", 300⟩

def chainConfig (x : Fin 3) : Protocol.Deploy.Config :=
  { thisNodeInfo := chainInfo x
    nodeInfos := [chainInfo 0, chainInfo 1, chainInfo 2]
    instances := [⟨"g", Protocol.ComponentKind.generator⟩,
      ⟨"c", Protocol.ComponentKind.calc⟩,
      ⟨"h", Protocol.ComponentKind.history⟩]
    maps := [⟨"n1", "g"⟩, ⟨"n2", "c"⟩, ⟨"n3", "h"⟩]
    connections := [⟨⟨0, "g"⟩, ⟨0, "c"⟩⟩, ⟨⟨0, "c"⟩, ⟨0, "h"⟩⟩] }

def chainPeer (_ : Fin 3) (client : Node.Client) : Option (Fin 3) :=
  if client.endpoint.port = 200 then some 1 else some 2

def chain (_ : Fin 3) : Protort.Node :=
  Node.new 100 0

/-- All nodes are deployed and started, and the first packet goes to the history
by way of the calc. -/
def chainEvents : List (Event (Fin 3)) :=
  [Event.node 0 (Node.deployRequest (chainConfig 0)),
    Event.node 1 (Node.deployRequest (chainConfig 1)),
    Event.node 2 (Node.deployRequest (chainConfig 2)),
    Event.node 2 (Node.command Protocol.Deploy.PacketKind.start),
    Event.node 1 (Node.command Protocol.Deploy.PacketKind.start),
    Event.node 0 (Node.Event.request drawing
      (Protocol.Payload.deployPacket
        { kind := Protocol.Deploy.PacketKind.start
          payload := Protocol.Deploy.PacketPayload.notSet })),
    Event.node 0 (Node.Event.run drawing 0), Event.deliver drawing 0 0,
    Event.node 1 (Node.Event.run drawing 0),
    Event.node 1 (Node.Event.run drawing 0), Event.deliver drawing 1 0]

theorem chain_order (event : Event (Fin 3)) (h : event ∈ chainEvents) :
    event.platform.byteOrder = ByteOrder.little := by
  unfold chainEvents at h
  simp only [List.mem_cons, List.not_mem_nil, or_false] at h
  rcases h with rfl | rfl | rfl | rfl | rfl | rfl | rfl | rfl | rfl | rfl |
    rfl <;> rfl

/-- What the history finds is the value times one hundred, with the time and the
address of the generator. -/
theorem payloads_intact_chain :
    exists sys', Run (Steps (move isLocal chainPeer)) chain chainEvents sys' ∧
      (sys' 2).service.map (fun task =>
          task.payloads.map (Data.unpack drawing)) =
        [[{ val := 0x42C80000
            time := 1500000000
            address := 1 }]] ∧
      Traced ByteOrder.little sys'
        (trails chainPeer chain noTags chainEvents) := by
  have hfound : (execute (move isLocal chainPeer) chain chainEvents).map
      (fun sys' => (sys' 2).service.map (fun task =>
        task.payloads.map (Data.unpack drawing))) =
      some [[{ val := 0x42C80000
               time := 1500000000
               address := 1 }]] := by
    decide +kernel
  rcases Option.map_eq_some_iff.mp hfound with ⟨sys', hexecute, hdata⟩
  have hrun := Run.of_execute hexecute
  have hnew : New chain := fun _ => ⟨100, 0, rfl⟩
  exact ⟨sys', hrun, hdata, payloads_intact hnew chain_order hrun⟩

end Nodes

end System
end Protort
