import Protort.Lib.Tagging
import Protort.Node.Generators

/-!
# What packets carry

A payload is a packed structure, and unpacking does not look at its length.
What every component and every router makes of a payload that can be unpacked
can be unpacked as well.
-/

namespace Protort

open Lib (Bytes ByteOrder)

namespace Components

/-!
## Packing and unpacking
-/

/-- A payload that every machine of a byte order unpacks in the same way, and
without reading past its end. -/
def Intact (order : ByteOrder) (d : Data) (payload : Bytes) : Prop :=
  payload.length = Data.size ∧
    forall env : Platform, env.byteOrder = order ->
      Data.unpack env payload = d

/-- Every machine of a byte order unpacks the same from it. -/
def Readable (order : ByteOrder) (payload : Bytes) : Prop :=
  exists d, Intact order d payload

theorem Data.length_pack (env : Platform) (d : Data) :
    (d.pack env).length = Data.size := by
  unfold Data.pack Data.size
  simp only [List.length_append, ByteOrder.length_encode]

theorem unpack_fields {env : Platform} {val padding time address : Bytes}
    (hval : val.length = 4) (hpadding : padding.length = 4)
    (htime : time.length = 8) (haddress : address.length = 8) :
    Data.unpack env (val ++ padding ++ time ++ address) =
      { val := UInt32.ofNat (env.byteOrder.decode val)
        time := UInt64.ofNat (env.byteOrder.decode time)
        address := UInt64.ofNat (env.byteOrder.decode address) } := by
  unfold Data.unpack
  generalize env.beyond (val ++ padding ++ time ++ address) = beyond
  have hskip : (val ++ padding).length = 8 := by
    rw [List.length_append, hval, hpadding]
  have hskip' : (val ++ padding ++ time).length = 16 := by
    rw [List.length_append, hskip, htime]
  have hfirst : (val ++ padding ++ time ++ address ++ beyond).take 4 =
      val := by
    simp only [List.append_assoc]
    exact List.take_left' hval
  have hsecond : ((val ++ padding ++ time ++ address ++ beyond).drop 8).take 8 =
      time := by
    rw [List.append_assoc _ address, List.append_assoc _ time,
      List.drop_left' hskip]
    exact List.take_left' htime
  have hthird : ((val ++ padding ++ time ++ address ++ beyond).drop 16).take 8 =
      address := by
    rw [List.append_assoc _ address, List.drop_left' hskip']
    exact List.take_left' haddress
  simp only [hfirst, hsecond, hthird]

theorem Data.intact_pack {order : ByteOrder} {env : Platform}
    (henv : env.byteOrder = order) (d : Data) :
    Intact order d (d.pack env) := by
  constructor
  · exact d.length_pack env
  · intro env' henv'
    unfold Data.pack
    rw [unpack_fields (ByteOrder.length_encode _ _ _)
      (ByteOrder.length_encode _ _ _) (ByteOrder.length_encode _ _ _)
      (ByteOrder.length_encode _ _ _), henv', henv]
    rw [ByteOrder.decode_encode _ d.val.toNat_lt,
      ByteOrder.decode_encode _ d.time.toNat_lt,
      ByteOrder.decode_encode _ d.address.toNat_lt, UInt32.ofNat_toNat,
      UInt64.ofNat_toNat, UInt64.ofNat_toNat]

/-!
## Components
-/

/-- What a component of a kind makes of a value that it hands on. -/
def worked (env : Platform) (kind : Protocol.ComponentKind) (val : UInt32) :
    UInt32 :=
  match kind with
  | Protocol.ComponentKind.calc => env.timesHundred val
  | _ => val

def Component.stamp (env : Platform) (c : Component) : Data :=
  { val := (env.draw c.address).1
    time := (env.draw c.address).2
    address := UInt64.ofNat c.address }

variable {order : ByteOrder} {env : Platform} {c : Component}
  {outputs : List Output}

theorem generate_intact (henv : env.byteOrder = order)
    (h : c.generate env = some outputs) {output : Output}
    (houtput : output ∈ outputs) :
    Intact order (c.stamp env) output.payload := by
  unfold Component.generate at h
  by_cases hstarted : c.started = true
  · rw [if_pos hstarted] at h
    cases h
    rcases List.mem_singleton.mp houtput with rfl
    exact Data.intact_pack henv (c.stamp env)
  · rw [if_neg hstarted] at h
    cases h

theorem process_intact (henv : env.byteOrder = order) {d : Data}
    {inPort : Parser.PortId} {payload : Bytes} (hpayload : Intact order d payload)
    (h : c.process env inPort payload = some outputs) {output : Output}
    (houtput : output ∈ outputs) :
    Intact order { d with val := worked env c.kind d.val } output.payload := by
  unfold Component.process at h
  cases hkind : c.kind with
  | retranslator =>
      rw [hkind] at h
      simp only at h
      by_cases hport : inPort = 0 ∨ inPort = 1
      · rw [if_pos hport] at h
        cases h
        rcases List.mem_singleton.mp houtput with rfl
        exact hpayload
      · rw [if_neg hport] at h
        cases h
  | generator =>
      rw [hkind] at h
      cases h
  | timedGenerator =>
      rw [hkind] at h
      cases h
  | terminator =>
      rw [hkind] at h
      cases h
  | history =>
      rw [hkind] at h
      cases h
  | unrecognized value =>
      rw [hkind] at h
      cases h
  | _ =>
      -- a calc unpacks, scales and packs
      rw [hkind] at h
      cases h
      rcases List.mem_singleton.mp houtput with rfl
      rw [hpayload.right env henv]
      exact Data.intact_pack henv _

end Components

namespace Node

open Components

/-!
## Tasks and messages
-/

def Task.payloads : Task -> List Bytes
  | Task.doProcess _ _ _ payload => [payload]
  | Task.doRoute _ _ outputs => outputs.map (fun output => output.payload)
  | Task.generate _ => []
  | Task.timerWait _ _ => []

def Outgoing.bytes (m : Outgoing) : Bytes :=
  m.payload.asCommunicationPacket.payload

theorem payloads_cancelWait (ref : ComponentRef) (t : Task) :
    (cancelWait ref t).payloads = t.payloads := by
  cases t with
  | _ => rfl

theorem payload_of_mem_flatten {outputs : List Output}
    {sent : Parser.PortId × Bytes} (h : sent ∈ flatten outputs) :
    exists output, output ∈ outputs ∧ output.payload = sent.2 := by
  rcases List.mem_flatMap.mp h with ⟨output, houtput, hsent⟩
  rcases List.mem_map.mp hsent with ⟨port, _, rfl⟩
  exact ⟨output, houtput, rfl⟩

/-- The payloads that a router sends out are those of its outputs. -/
theorem doRoute_sends (env : Platform) {r : Router} {name : String}
    (hname : name ∈ r.components) {outputs : List Output} {m : Outgoing}
    (h : m ∈ sends (r.doRoute env name outputs).2) :
    exists output, output ∈ outputs ∧ output.payload = m.bytes := by
  rcases List.mem_filterMap.mp h with ⟨effect, heffect, hm⟩
  by_cases hstarted : r.started = true
  · rw [(Router.doRoute_sent env hstarted hname outputs).effects] at heffect
    rcases Router.mem_allEffects heffect with ⟨i, sent, hsent, hone⟩
    rcases List.mem_append.mp hone with hpost | hsend
    · rcases List.mem_map.mp hpost with ⟨route, _, rfl⟩
      cases hm
    · rcases List.mem_map.mp hsend with ⟨route, _, rfl⟩
      cases hm
      exact payload_of_mem_flatten hsent
  · unfold Router.doRoute at heffect
    rw [if_neg hstarted] at heffect
    cases heffect

theorem doRoute_posts_payload (env : Platform) {r : Router} {name : String}
    (hname : name ∈ r.components) {outputs : List Output} {task : Task}
    (h : Effect.post task ∈ (r.doRoute env name outputs).2) {payload : Bytes}
    (hpayload : payload ∈ task.payloads) :
    exists output, output ∈ outputs ∧ output.payload = payload := by
  rcases (Router.doRoute_posts env hname h).right with
    ⟨origin, port, sent, route, hsent, _, _, rfl⟩
  rcases List.mem_singleton.mp hpayload with rfl
  exact payload_of_mem_flatten hsent

theorem generateEffects_emit {env : Platform} {ref : ComponentRef}
    {c : Component} {task : Task}
    (h : Effect.post task ∈ generateEffects env ref c) :
    (exists outputs, c.generate env = some outputs ∧
      task = Task.doRoute c.router c.compInst outputs) ∨
      task.payloads = [] := by
  rcases post_generateEffects h with hroute | ⟨_, rfl⟩ | ⟨_, rfl⟩
  · exact Or.inl hroute
  · exact Or.inr rfl
  · exact Or.inr rfl

/-!
## Queues with tags
-/

universe u

section Tags

variable {tag : Type u} {R : Task -> tag -> Prop} {tagOf : Task -> tag}
  {tags : List tag} {service : List Task}

/-- The first tasks of a queue have the tags of a list, and the others, which
were posted later, those that a function gives them. -/
structure TaggedQueue (R : Task -> tag -> Prop) (tagOf : Task -> tag)
    (tags : List tag) (service : List Task) : Prop where
  old : List.Forall₂ R (service.take tags.length) tags
  new : forall t, t ∈ service.drop tags.length -> R t (tagOf t)

theorem TaggedQueue.length_le (h : TaggedQueue R tagOf tags service) :
    tags.length <= service.length := by
  have hlength := h.old.length_eq
  rw [List.length_take] at hlength
  exact hlength ▸ Nat.min_le_right _ _

theorem TaggedQueue.serve (h : TaggedQueue R tagOf tags service)
    (hold : forall ref t x, R t x -> R (cancelWait ref t) x)
    (hnew : forall ref t, tagOf (cancelWait ref t) = tagOf t) {effect : Effect}
    (hposted : forall t, effect = Effect.post t -> R t (tagOf t)) :
    TaggedQueue R tagOf tags (serve service effect) := by
  cases effect with
  | post task =>
      have hle := h.length_le
      constructor
      · show List.Forall₂ R ((service ++ [task]).take tags.length) tags
        rw [List.take_append_of_le_length hle]
        exact h.old
      · intro t ht
        change t ∈ (service ++ [task]).drop tags.length at ht
        rw [List.drop_append_of_le_length hle] at ht
        rcases List.mem_append.mp ht with hmem | hlast
        · exact h.new t hmem
        · rcases List.mem_singleton.mp hlast with rfl
          exact hposted t rfl
  | cancelWaits ref =>
      constructor
      · show List.Forall₂ R ((service.map (cancelWait ref)).take tags.length)
          tags
        rw [← List.map_take]
        exact List.forall₂_map_left_iff.mpr
          (h.old.imp (fun t x htag => hold ref t x htag))
      · intro t ht
        change t ∈ (service.map (cancelWait ref)).drop tags.length at ht
        rw [← List.map_drop] at ht
        rcases List.mem_map.mp ht with ⟨before, hbefore, rfl⟩
        rw [hnew]
        exact hold ref before _ (h.new before hbefore)
  | send client origin payload => exact h

theorem forall₂_serve
    (hold : forall ref t x, R t x -> R (cancelWait ref t) x)
    (hnew : forall ref t, tagOf (cancelWait ref t) = tagOf t)
    {effects : List Effect} (hservice : List.Forall₂ R service tags)
    (hposted : forall t, Effect.post t ∈ effects -> R t (tagOf t)) :
    List.Forall₂ R (effects.foldl Node.serve service)
      (tags ++ ((effects.foldl Node.serve service).drop service.length).map
        tagOf) := by
  have hlength := hservice.length_eq
  have hstart : TaggedQueue R tagOf tags service := by
    constructor
    · rw [← hlength, List.take_length]
      exact hservice
    · intro t ht
      rw [← hlength, List.drop_length] at ht
      cases ht
  have hend : TaggedQueue R tagOf tags (effects.foldl Node.serve service) :=
    List.foldlRecOn effects Node.serve hstart
      (fun _ hqueue effect heffect => hqueue.serve hold hnew
        (fun t ht => hposted t (ht ▸ heffect)))
  have hall := Lib.forall₂_append hend.old hend.new
  rw [List.take_append_drop] at hall
  rw [hlength]
  exact hall

end Tags

/-!
## Requests
-/

section Requests

variable {env : Platform} {n n' : Protort.Node}

/-- A task with outputs that a generator packed, or one without payloads. -/
def Emits (env : Platform) (n : Protort.Node) (task : Task) : Prop :=
  (exists ref c outputs, n.findComponent ref = some c ∧
    c.isGenerator = true ∧
    task = Task.doRoute ref.router (some ref.name) outputs ∧
    forall output, output ∈ outputs ->
      Intact env.byteOrder (c.stamp env) output.payload) ∨
    task.payloads = []

theorem Sound.generateEffects_emits {m : Protort.Node} (h : Sound m)
    (hkeeps : Keeps m n) {ref : ComponentRef} {c : Component}
    (hc : m.findComponent ref = some c) (hgen : c.isGenerator = true)
    {started : Bool} {task : Task} (hpost : Effect.post task ∈
      Node.generateEffects env ref { c with started := started }) :
    Emits env n task := by
  rcases generateEffects_emit hpost with ⟨outputs, hgenerate, rfl⟩ | hnone
  · rcases hkeeps.component hc with ⟨c', hc', hview⟩
    have haddress : c'.address = c.address := congrArg ObjectView.address hview
    have hkind : c'.kind = c.kind := congrArg ObjectView.kind hview
    refine Or.inl ⟨ref, c', outputs, hc', ?_, ?_, ?_⟩
    · unfold Component.isGenerator
      rw [hkind]
      exact hgen
    · rcases h.own hc with ⟨hrouter, hinst⟩
      simp only [hrouter, hinst]
    · intro output houtput
      have hintact := generate_intact rfl hgenerate houtput
      unfold Component.stamp at hintact ⊢
      rw [haddress]
      exact hintact
  · exact Or.inr hnone

theorem Sound.start_emits {m : Protort.Node} (h : Sound m)
    (hkeeps : Keeps m n) {address : Nat} {task : Task}
    (hpost : Effect.post task ∈ (Switch.start env).allEffects address m) :
    Emits env n task := by
  rcases Switch.of_mem_allEffects hpost with ⟨ref, c, _, hc, hgen, heffect⟩
  have hturn : Effect.post task ∈
      Node.generateEffects env ref { c with started := true } := heffect
  exact h.generateEffects_emits hkeeps hc hgen hturn

theorem Served.emits {packet : Protocol.Deploy.Packet}
    {response : Protocol.Payload} (hserved : Served env n packet response n')
    (h : Sound n) :
    exists effects : List Effect,
      n'.service = effects.foldl serve n.service ∧
      forall task, Effect.post task ∈ effects -> Emits env n' task := by
  cases hserved with
  | @deployConfig m hkind hdeploy hcomplete _ =>
      have hbuilt := deployFromPacket_rebuilt (Unstarted.empty n) hdeploy
      have hservice : m.service = n.service := hbuilt.service
      refine ⟨restartEffects env n.router.started m ++
        Switch.stop.allEffects n.router.address
          (restarted env n.router.started m), ?_, ?_⟩
      · rw [service_switchRouter, service_restarted, List.foldl_append,
          hservice]
      · intro task htask
        rcases List.mem_append.mp htask with hposted | hstopped
        · unfold restartEffects at hposted
          cases hflag : n.router.started with
          | true =>
              rw [hflag] at hposted
              exact (h.rebuilt hbuilt).start_emits
                ((keeps_restarted env true m).trans
                  (switchRouter_spec _ _ _).keeps) hposted
          | false =>
              rw [hflag] at hposted
              cases hposted
        · exact absurd hstopped (Switch.stop_posts _ _ task)
  | start hkind hcomplete =>
      exact ⟨_, service_switchRouter _ _ n, fun task htask =>
        h.start_emits (switchRouter_spec _ _ n).keeps htask⟩
  | stop hkind hcomplete =>
      exact ⟨_, service_switchRouter _ _ n,
        fun task htask => absurd htask (Switch.stop_posts n _ task)⟩
  | getStatus hkind hstatus =>
      exact ⟨[], rfl, fun task htask => absurd htask List.not_mem_nil⟩

end Requests

/-!
## Nodes whose packets can be read
-/

/-- A task that can be read, or one of another router. -/
def Task.Whole (order : ByteOrder) (address : Nat) (task : Task) : Prop :=
  task.router = address -> forall payload, payload ∈ task.payloads ->
    Readable order payload

/-- What the current router has queued and what is on its way can be read.  The
tasks of earlier routers send nothing any more, whatever they hold. -/
structure Whole (order : ByteOrder) (n : Protort.Node) : Prop where
  service : forall task, task ∈ n.service ->
    task.Whole order n.router.address
  outbox : forall m, m ∈ n.outbox -> Readable order m.bytes

section Wholeness

variable {order : ByteOrder} {env : Platform} {n n' : Protort.Node}
  {address : Nat} {task : Task} {effects : List Effect}

theorem Task.Whole.cancelWait (h : task.Whole order address)
    (ref : ComponentRef) : (Node.cancelWait ref task).Whole order address := by
  unfold Task.Whole
  rw [router_cancelWait, payloads_cancelWait]
  exact h

theorem Task.whole_of_payloads (h : task.payloads = []) :
    task.Whole order address := by
  intro _ payload hpayload
  rw [h] at hpayload
  cases hpayload

theorem Emits.whole (henv : env.byteOrder = order) (h : Emits env n task) :
    task.Whole order address := by
  rcases h with ⟨ref, c, outputs, _, _, rfl, hintact⟩ | hnone
  · intro _ payload hpayload
    rcases List.mem_map.mp hpayload with ⟨output, houtput, rfl⟩
    rw [← henv]
    exact ⟨_, hintact output houtput⟩
  · exact Task.whole_of_payloads hnone

/-- What a task posts can be read when its own payloads can. -/
theorem Sound.posts_whole (h : Sound n) (henv : env.byteOrder = order)
    (htask : TaskSound n task) (hwhole : task.Whole order address)
    (heffects : Node.taskEffects env n task = some effects) {t : Task}
    (hpost : Effect.post t ∈ effects) : t.Whole order address := by
  have hposts : t.router = task.router :=
    h.task_posts htask heffects t hpost
  cases htask.asks heffects with
  | @doProcess ref c origin inPort payload hc =>
      rcases processEffects_cases env c inPort payload with
        hnone | ⟨outputs, hprocess, hroute⟩
      · rw [hnone] at hpost
        cases hpost
      · rw [hroute] at hpost
        cases List.mem_singleton.mp hpost
        intro hrouter payload' hpayload
        rcases List.mem_map.mp hpayload with ⟨output, houtput, rfl⟩
        rcases hwhole (hposts.symm.trans hrouter) payload
          (List.mem_singleton.mpr rfl) with ⟨d, hintact⟩
        exact ⟨_, process_intact henv hintact hprocess houtput⟩
  | doRoute outputs hr hname =>
      intro hrouter payload hpayload
      rcases doRoute_posts_payload env hname hpost hpayload with
        ⟨output, houtput, rfl⟩
      exact hwhole (hposts.symm.trans hrouter) _ (List.mem_map_of_mem houtput)
  | generate hc hkind =>
      exact (h.generateEffects_emits (Keeps.refl n) hc
        (isGenerator_of_kind (Or.inl hkind)) hpost).whole henv
  | timerWait cancelled hc hkind =>
      exact (h.generateEffects_emits (Keeps.refl n) hc
        (isGenerator_of_kind (Or.inr hkind)) hpost).whole henv

theorem Consistent.sends_readable (h : Consistent n)
    (htask : TaskSound n task) (hwhole : task.Whole order n.router.address)
    (heffects : Node.taskEffects env n task = some effects) {m : Outgoing}
    (hm : m ∈ sends effects) : Readable order m.bytes := by
  cases htask.asks heffects with
  | @doProcess ref c origin inPort payload hc =>
      rcases processEffects_cases env c inPort payload with
        hnone | ⟨outputs, _, hroute⟩
      · rw [hnone] at hm
        cases hm
      · rw [hroute] at hm
        cases hm
  | @doRoute address r name outputs hr hname =>
      by_cases hcurrent : address = n.router.address
      · rcases doRoute_sends env hname hm with ⟨output, houtput, heq⟩
        rw [← heq]
        exact hwhole hcurrent _ (List.mem_map_of_mem houtput)
      · have hstopped := h.oldStopped address r hcurrent hr
        unfold Router.doRoute at hm
        rw [hstopped] at hm
        cases hm
  | generate hc hkind =>
      rw [sends_generateEffects] at hm
      cases hm
  | timerWait cancelled hc hkind =>
      rw [sends_generateEffects] at hm
      cases hm

theorem Whole.serve (h : Whole order n)
    (haddress : n'.router.address = n.router.address) {kept : List Task}
    (hkept : forall t, t ∈ kept -> t ∈ n.service)
    (hservice : n'.service = effects.foldl serve kept)
    (hposts : forall t, Effect.post t ∈ effects ->
      t.Whole order n.router.address)
    (houtbox : n'.outbox = n.outbox ++ sends effects)
    (hsends : forall m, m ∈ sends effects -> Readable order m.bytes) :
    Whole order n' := by
  constructor
  · rw [haddress, hservice]
    exact foldl_serve_forall (fun ref _ ht => ht.cancelWait ref)
      (fun t ht => h.service t (hkept t ht)) hposts
  · intro m hm
    rw [houtbox] at hm
    rcases List.mem_append.mp hm with hold | hnew
    · exact h.outbox m hold
    · exact hsends m hnew

theorem Whole.run (h : Whole order n) (hn : Consistent n)
    (henv : env.byteOrder = order) {index : Nat}
    (haddress : n'.router.address = n.router.address)
    (hstep : step n (Event.run env index) = some n') : Whole order n' := by
  rcases run_spec hn.sound hstep with ⟨task, effects, m, hget, htask, heffects,
    _, _, hservice, houtbox, rfl⟩
  have hwhole := h.service task (List.mem_of_getElem? hget)
  exact h.serve haddress (fun _ => List.mem_of_mem_eraseIdx)
    (by rw [service_performAll, hservice])
    (fun _ => hn.sound.posts_whole henv htask hwhole heffects)
    (by rw [outbox_performAll, houtbox])
    (fun _ => hn.sends_readable htask hwhole heffects)

theorem Whole.message (h : Whole order n) {origin : Option Origin}
    {payload : Protocol.Payload}
    (hpayload : Readable order payload.asCommunicationPacket.payload)
    (haddress : n'.router.address = n.router.address)
    (hstep : step n (Event.message env origin payload) = some n') :
    Whole order n' := by
  rcases message_spec hstep with ⟨m, _, hservice, houtbox, rfl⟩
  have hposts : forall t, Effect.post t ∈ n.messageEffects origin payload ->
      t.Whole order n.router.address := by
    intro t ht
    unfold messageEffects at ht
    rw [Router.route_snd] at ht
    split_ifs at ht with hthere
    · cases List.mem_singleton.mp ht
      intro _ payload' hpayload'
      rcases List.mem_singleton.mp hpayload' with rfl
      exact hpayload
    · cases ht
  exact h.serve haddress (fun _ ht => ht)
    (by rw [service_performAll, hservice]) hposts
    (by rw [outbox_performAll, houtbox])
    (fun m hm => by
      rw [sends_messageEffects] at hm
      cases hm)

theorem Whole.request (h : Whole order n) (hn : Consistent n)
    (henv : env.byteOrder = order) {payload : Protocol.Payload}
    (haddress : n'.router.address = n.router.address)
    (hstep : step n (Event.request env payload) = some n') :
    Whole order n' := by
  rcases returned_eq_some.mp hstep with ⟨response, hrun⟩
  have hserved := (onNewRequest_ok_iff.mp hrun).right
  rcases hserved.emits hn.sound with ⟨effects, hservice, hemits⟩
  constructor
  · rw [haddress, hservice]
    exact foldl_serve_forall (fun ref _ ht => ht.cancelWait ref) h.service
      (fun t ht => (hemits t ht).whole henv)
  · rw [(hserved.queues hn.sound).left]
    exact h.outbox

end Wholeness

end Node
end Protort
