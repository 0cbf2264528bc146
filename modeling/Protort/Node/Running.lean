import Protort.Node.Serving

/-!
# Nodes at work

Everything that happens to a node: requests and messages arrive in any order,
and queued tasks run in any order.  In every state that is reached the pointers
of the queued tasks lead to components, every generator has the flag of its
router, and routers that were replaced are stopped.
-/

namespace Protort
namespace Node

open Lib (Bytes Run Steps)
open Lib.Exceptions
open Components (Component Output Origin)

/-!
## Events
-/

inductive Event where
  | request (env : Platform) (payload : Protocol.Payload)
  | message (env : Platform) (origin : Option Origin)
      (payload : Protocol.Payload)
  | run (env : Platform) (index : Nat)

def returned {value : Type} (result : EStateM.Result Fault Protort.Node value) :
    Option Protort.Node :=
  match result with
  | EStateM.Result.ok _ n => some n
  | EStateM.Result.error _ _ => none

/-- The node after an event.  Any of the queued tasks may be the next to run. -/
def step (n : Protort.Node) (event : Event) : Option Protort.Node :=
  match event with
  | Event.request env payload => returned (onNewRequest env payload n)
  | Event.message env origin payload =>
      returned (onNewMessage env origin payload n)
  | Event.run env index =>
      match n.service[index]? with
      | some task =>
          returned (runTask env task
            { n with service := n.service.eraseIdx index })
      | none => none

def startOrStop (event : Event) : Option Protocol.Deploy.PacketKind :=
  match event with
  | Event.request _ (Protocol.Payload.deployPacket packet) =>
      match packet.kind with
      | Protocol.Deploy.PacketKind.start => some packet.kind
      | Protocol.Deploy.PacketKind.stop => some packet.kind
      | _ => none
  | _ => none

def lastCommand (events : List Event) : Option Protocol.Deploy.PacketKind :=
  (events.filterMap startOrStop).getLast?

theorem returned_eq_some {value : Type}
    {result : EStateM.Result Fault Protort.Node value} {n : Protort.Node} :
    returned result = some n <->
      exists x, result = EStateM.Result.ok x n := by
  cases result with
  | ok x m =>
      constructor
      · intro h
        cases h
        exact ⟨x, rfl⟩
      · intro h
        rcases h with ⟨y, h⟩
        cases h
        rfl
  | error e m =>
      constructor
      · intro h
        cases h
      · intro h
        rcases h with ⟨y, h⟩
        cases h

/-!
## Which routers there are
-/

/-- Every router ever made is there, the current one being the newest. -/
def Numbered (n : Protort.Node) : Prop :=
  n.retired.map (fun r => r.address) = (List.range n.router.address).reverse

theorem Numbered.congr {n n' : Protort.Node} (h : Numbered n)
    (hcurrent : n'.router.address = n.router.address)
    (haddresses : n'.retired.map (fun r => r.address) =
      n.retired.map (fun r => r.address)) : Numbered n' := by
  unfold Numbered
  rw [haddresses, hcurrent]
  exact h

theorem Numbered.find_iff {n : Protort.Node} (h : Numbered n)
    (address : Nat) :
    (exists r, n.findRouter address = some r) <->
      address <= n.router.address := by
  by_cases hcurrent : n.router.address = address
  · subst address
    rw [findRouter_current]
    exact ⟨fun _ => Nat.le_refl _, fun _ => ⟨_, rfl⟩⟩
  · rw [findRouter_of_ne hcurrent]
    have hmem : address ∈ n.retired.map (fun r => r.address) <->
        address < n.router.address := by
      rw [show n.retired.map (fun r => r.address) = _ from h,
        List.mem_reverse, List.mem_range]
    constructor
    · intro h
      rcases h with ⟨r, hr⟩
      exact (hmem.mp (List.mem_map.mpr
        ⟨r, List.mem_of_find?_eq_some hr, address_of_find hr⟩)).le
    · intro hle
      have hless : address < n.router.address :=
        Nat.lt_of_le_of_ne hle (Ne.symm hcurrent)
      rcases List.mem_map.mp (hmem.mpr hless) with ⟨r, hr, haddress⟩
      cases hfind : n.retired.find? (fun r => decide (r.address = address))
        with
      | some r' => exact ⟨r', rfl⟩
      | none =>
          exact absurd (decide_eq_true haddress)
            (List.find?_eq_none.mp hfind r hr)

theorem Numbered.findRouter_retired {n : Protort.Node} (h : Numbered n)
    {r : Router} (hr : r ∈ n.retired) :
    r.address ≠ n.router.address ∧ n.findRouter r.address = some r := by
  have hless : r.address < n.router.address := by
    have hmem := List.mem_map_of_mem (f := Router.address) hr
    rw [show n.retired.map (fun r => r.address) = _ from h,
      List.mem_reverse, List.mem_range] at hmem
    exact hmem
  have hne : n.router.address ≠ r.address := Ne.symm (Nat.ne_of_lt hless)
  constructor
  · exact Ne.symm hne
  rw [findRouter_of_ne hne]
  cases hfind : n.retired.find? (fun r' => decide (r'.address = r.address))
    with
  | none =>
      exact absurd (decide_eq_true rfl) (List.find?_eq_none.mp hfind r hr)
  | some r' =>
      have haddress : r'.address = r.address := address_of_find hfind
      have hnodup : (n.retired.map (fun r => r.address)).Nodup := by
        rw [show n.retired.map (fun r => r.address) = _ from h,
          List.nodup_reverse]
        exact List.nodup_range
      rw [List.inj_on_of_nodup_map hnodup
        (List.mem_of_find?_eq_some hfind) hr haddress]

/-!
## Sound nodes
-/

/-- What holds of every router: its objects know their entry, its generators
have its flag, its routes lead to entries, and when it is started every entry
has an object. -/
structure RouterSound (r : Router) : Prop where
  own : forall c object, r.objectAt c = some object ->
    object.router = r.address ∧ object.compInst = some c
  flags : forall c object, r.objectAt c = some object ->
    object.isGenerator = true -> object.started = r.started
  routes : forall c p route, route ∈ (r.routesAt c p).localRoutes ->
    route.component ∈ r.components
  complete : r.started = true -> forall c, c ∈ r.components ->
    exists object, r.objectAt c = some object

theorem Unstarted.routerSound {r : Router} (h : Unstarted r) :
    RouterSound r :=
  { own := by
      intro c object hobject
      rcases h.objects c object hobject with ⟨hrouter, hinst, _⟩
      exact ⟨hrouter, hinst⟩
    flags := by
      intro c object hobject _
      rw [(h.objects c object hobject).right.right, h.started]
    routes := h.routes
    complete := by
      intro hstarted
      rw [h.started] at hstarted
      cases hstarted }

theorem RouterSound.of_sameTable {r r' : Router} (h : RouterSound r)
    (htable : Router.SameTable { r with started := r'.started } r')
    (hflags : forall c object', r'.objectAt c = some object' ->
      object'.isGenerator = true -> object'.started = r'.started)
    (hcomplete : r'.started = true -> forall c, c ∈ r.components ->
      exists object, r.objectAt c = some object) : RouterSound r' := by
  have hviews : forall c,
      (r'.objectAt c).map viewObject = (r.objectAt c).map viewObject :=
    htable.objects
  refine
    { own := ?_
      flags := hflags
      routes := ?_
      complete := ?_ }
  · intro c object' hobject'
    have hview := hviews c
    rw [hobject', Option.map_some] at hview
    rcases Option.map_eq_some_iff.mp hview.symm with ⟨object, hobject, hsame⟩
    rcases h.own c object hobject with ⟨hrouter, hinst⟩
    have haddress : r'.address = r.address := htable.address
    rw [haddress, ← hrouter, ← hinst]
    exact ⟨congrArg ObjectView.router hsame.symm,
      congrArg ObjectView.compInst hsame.symm⟩
  · intro c p route hroute
    rw [htable.routes] at hroute
    exact (htable.mem _).mpr (h.routes c p route hroute)
  · intro hstarted c hc
    rcases hcomplete hstarted c ((htable.mem c).mp hc) with ⟨object, hobject⟩
    have hview := hviews c
    rw [hobject, Option.map_some] at hview
    rcases Option.map_eq_some_iff.mp hview with ⟨object', hobject', _⟩
    exact ⟨object', hobject'⟩

theorem RouterSound.sameFlags {r r' : Router} (h : RouterSound r)
    (hsame : Router.SameFlags r r') : RouterSound r' := by
  have hstarted : r'.started = r.started := hsame.table.started
  refine h.of_sameTable ?_ ?_ ?_
  · rw [hstarted]
    exact hsame.table
  · intro c object' hobject' hgen
    rcases hsame.symm.object hobject' with ⟨object, hobject, hview, hflag⟩
    have hkind : object.kind = object'.kind := congrArg ObjectView.kind hview
    rw [hstarted, ← hflag]
    apply h.flags c object hobject
    unfold Component.isGenerator at *
    rw [hkind]
    exact hgen
  · rw [hstarted]
    exact h.complete

theorem RouterSound.switched {r r' : Router} {w : Switch}
    (h : RouterSound r)
    (htable : Router.SameTable { r with started := w.started } r')
    (hobjects : forall c, r'.objectAt c = (r.objectAt c).map w.switched)
    (hcomplete : w.started = true -> forall c, c ∈ r.components ->
      exists object, r.objectAt c = some object) : RouterSound r' := by
  have hstarted : r'.started = w.started := htable.started
  refine h.of_sameTable ?_ ?_ ?_
  · rw [hstarted]
    exact htable
  · intro c object' hobject' hgen
    rw [hobjects] at hobject'
    rcases Option.map_eq_some_iff.mp hobject' with ⟨object, _, rfl⟩
    rw [Switch.isGenerator_switched] at hgen
    rw [hstarted, Switch.started_switched hgen]
  · rw [hstarted]
    exact hcomplete

def Keeps (n n' : Protort.Node) : Prop :=
  forall address r, n.findRouter address = some r ->
    exists r', n'.findRouter address = some r' ∧
      (forall c, c ∈ r.components -> c ∈ r'.components) ∧
      forall c, (r'.objectAt c).map viewObject =
        (r.objectAt c).map viewObject

theorem Keeps.component {n n' : Protort.Node} (h : Keeps n n')
    {ref : ComponentRef} {c : Component}
    (hc : n.findComponent ref = some c) :
    exists c', n'.findComponent ref = some c' ∧
      viewObject c' = viewObject c := by
  rcases findComponent_eq_some.mp hc with ⟨r, hr, hobject⟩
  rcases h ref.router r hr with ⟨r', hr', _, hviews⟩
  have hview := hviews ref.name
  rw [hobject, Option.map_some] at hview
  rcases Option.map_eq_some_iff.mp hview with ⟨c', hobject', hsame⟩
  exact ⟨c', findComponent_eq_some.mpr ⟨r', hr', hobject'⟩, hsame⟩

theorem TaskSound.keeps {n n' : Protort.Node} {task : Task}
    (h : TaskSound n task) (hkeeps : Keeps n n') : TaskSound n' task := by
  cases task with
  | doProcess ref origin inPort payload =>
      rcases h with ⟨c, hc⟩
      rcases hkeeps.component hc with ⟨c', hc', _⟩
      exact ⟨c', hc'⟩
  | doRoute address compInst outputs =>
      rcases h with ⟨r, name, hr, hinst, hname⟩
      rcases hkeeps address r hr with ⟨r', hr', hmem, _⟩
      exact ⟨r', name, hr', hinst, hmem name hname⟩
  | generate ref =>
      rcases h with ⟨c, hc, hkind⟩
      rcases hkeeps.component hc with ⟨c', hc', hview⟩
      have hkind' : c'.kind = c.kind := congrArg ObjectView.kind hview
      exact ⟨c', hc', hkind'.trans hkind⟩
  | timerWait ref cancelled =>
      rcases h with ⟨c, hc, hkind⟩
      rcases hkeeps.component hc with ⟨c', hc', hview⟩
      have hkind' : c'.kind = c.kind := congrArg ObjectView.kind hview
      exact ⟨c', hc', hkind'.trans hkind⟩

theorem Keeps.refl (n : Protort.Node) : Keeps n n :=
  fun _ r hr => ⟨r, hr, fun _ hc => hc, fun _ => rfl⟩

theorem Keeps.trans {n n' n'' : Protort.Node} (h : Keeps n n')
    (h' : Keeps n' n'') : Keeps n n'' := by
  intro address r hr
  rcases h address r hr with ⟨r', hr', hmem, hviews⟩
  rcases h' address r' hr' with ⟨r'', hr'', hmem', hviews'⟩
  exact ⟨r'', hr'', fun c hc => hmem' c (hmem c hc),
    fun c => (hviews' c).trans (hviews c)⟩

theorem taskSound_cancelWait {n : Protort.Node} (ref : ComponentRef)
    (task : Task) (h : TaskSound n task) :
    TaskSound n (cancelWait ref task) := by
  cases task with
  | _ => exact h

theorem Worked.keeps {n n' : Protort.Node} (h : Worked n n') :
    Keeps n n' := by
  intro address r hr
  rcases h.routers address r hr with ⟨r', hr', hsame⟩
  exact ⟨r', hr', fun c hc => (hsame.table.mem c).mpr hc, hsame.table.objects⟩

theorem SwitchedAt.keeps {w : Switch} {address : Nat} {n n' : Protort.Node}
    (h : SwitchedAt w address n n') : Keeps n n' := by
  intro other r hr
  by_cases hother : other = address
  · subst other
    rcases h.router r hr with ⟨r', hr', htable, _⟩
    exact ⟨r', hr', fun c hc => (htable.mem c).mpr hc, htable.objects⟩
  · exact ⟨r, h.others other r hother hr, fun _ hc => hc, fun _ => rfl⟩

/-- A node in which every pointer leads somewhere. -/
structure Sound (n : Protort.Node) : Prop where
  numbered : Numbered n
  routers : forall address r, n.findRouter address = some r -> RouterSound r
  tasks : forall task, task ∈ n.service -> TaskSound n task

def OldStopped (n : Protort.Node) : Prop :=
  forall address r, address ≠ n.router.address ->
    n.findRouter address = some r -> r.started = false

def EffectsSound (n : Protort.Node) (effects : List Effect) : Prop :=
  forall task, Effect.post task ∈ effects -> TaskSound n task

theorem EffectsSound.serve {n : Protort.Node} {effects : List Effect}
    {service : List Task} (h : EffectsSound n effects)
    (hservice : forall task, task ∈ service -> TaskSound n task) :
    forall task, task ∈ effects.foldl serve service -> TaskSound n task :=
  foldl_serve_forall taskSound_cancelWait hservice h

/-!
## What is queued
-/

section Queued

variable {env : Platform} {n : Protort.Node} {ref : ComponentRef}
  {c : Component}

theorem Sound.own (h : Sound n) (hc : n.findComponent ref = some c) :
    c.router = ref.router ∧ c.compInst = some ref.name := by
  rcases findComponent_eq_some.mp hc with ⟨r, hr, hobject⟩
  rcases (h.routers ref.router r hr).own ref.name c hobject with
    ⟨hrouter, hinst⟩
  exact ⟨hrouter.trans (address_of_findRouter hr), hinst⟩

theorem Sound.flag (h : Sound n) (hc : n.findComponent ref = some c)
    (hgen : c.isGenerator = true) :
    exists r, n.findRouter ref.router = some r ∧ c.started = r.started := by
  rcases findComponent_eq_some.mp hc with ⟨r, hr, hobject⟩
  exact ⟨r, hr, (h.routers _ r hr).flags ref.name c hobject hgen⟩

theorem Sound.outputs (h : Sound n) (hc : n.findComponent ref = some c)
    (outputs : List Output) :
    TaskSound n (Task.doRoute c.router c.compInst outputs) := by
  rcases findComponent_eq_some.mp hc with ⟨r, hr, hobject⟩
  rcases h.own hc with ⟨hrouter, hinst⟩
  rw [hrouter]
  exact ⟨r, ref.name, hr, hinst, mem_of_objectAt hobject⟩

theorem kind_of_isGenerator (hgen : c.isGenerator = true)
    (htimed : c.kind ≠ Protocol.ComponentKind.timedGenerator) :
    c.kind = Protocol.ComponentKind.generator := by
  unfold Component.isGenerator at hgen
  cases hkind : c.kind with
  | generator => rfl
  | timedGenerator => exact absurd hkind htimed
  | _ =>
      rw [hkind] at hgen
      cases hgen

theorem post_generateEffects {task : Task}
    (h : Effect.post task ∈ Node.generateEffects env ref c) :
    (exists outputs, c.generate env = some outputs ∧
      task = Task.doRoute c.router c.compInst outputs) ∨
    (c.kind = Protocol.ComponentKind.timedGenerator ∧
      task = Task.timerWait ref false) ∨
    (c.kind ≠ Protocol.ComponentKind.timedGenerator ∧
      task = Task.generate ref) := by
  unfold Node.generateEffects at h
  cases hgenerate : c.generate env with
  | none =>
      rw [hgenerate] at h
      cases h
  | some outputs =>
      rw [hgenerate] at h
      rcases List.mem_cons.mp h with hroute | hnext
      · cases hroute
        exact Or.inl ⟨outputs, rfl, rfl⟩
      · right
        unfold generateNext at hnext
        split at hnext
        · rcases List.mem_cons.mp hnext with hcancel | hpost
          · cases hcancel
          · cases List.mem_singleton.mp hpost
            exact Or.inl ⟨‹_›, rfl⟩
        · cases List.mem_singleton.mp hnext
          exact Or.inr ⟨‹_›, rfl⟩

theorem Sound.generateEffects (h : Sound n)
    (hc : n.findComponent ref = some c) (hgen : c.isGenerator = true)
    (env : Platform) (started : Bool) :
    EffectsSound n
      (Node.generateEffects env ref { c with started := started }) := by
  intro task htask
  rcases post_generateEffects htask with
    ⟨outputs, _, rfl⟩ | ⟨hkind, rfl⟩ | ⟨hkind, rfl⟩
  · exact h.outputs hc outputs
  · exact ⟨c, hc, hkind⟩
  · exact ⟨c, hc, kind_of_isGenerator hgen hkind⟩

def Switch.AsksSoundly (w : Switch) (n : Protort.Node) : Prop :=
  forall ref c, n.findComponent ref = some c -> c.isGenerator = true ->
    EffectsSound n (w.effects ref c)

theorem Sound.start (h : Sound n) (env : Platform) :
    Switch.AsksSoundly (Switch.start env) n :=
  fun _ _ hc hgen => h.generateEffects hc hgen env true

theorem Switch.stop_asksSoundly (n : Protort.Node) :
    Switch.AsksSoundly Switch.stop n := by
  intro ref c _ _ task htask
  unfold stop at htask
  simp only at htask
  by_cases htimed : c.kind = Protocol.ComponentKind.timedGenerator
  · rw [if_pos htimed] at htask
    cases List.mem_singleton.mp htask
  · rw [if_neg htimed] at htask
    cases htask

theorem Switch.AsksSoundly.allEffects {w : Switch} (h : w.AsksSoundly n)
    (address : Nat) : EffectsSound n (w.allEffects address n) := by
  intro task htask
  rcases of_mem_allEffects htask with ⟨ref, c, _, hc, hgen, hposted⟩
  exact h ref c hc hgen task hposted

theorem Router.mem_allEffects {r : Router} {name : String} {index : Nat}
    {outputs : List (Parser.PortId × Bytes)} {effect : Effect}
    (h : effect ∈ r.allEffects name index outputs) :
    exists i output, output ∈ outputs ∧
      effect ∈ r.outputEffects name i output := by
  induction outputs generalizing index with
  | nil => cases h
  | cons output rest ih =>
      rcases List.mem_append.mp h with hfirst | hrest
      · exact ⟨index, output, List.mem_cons_self, hfirst⟩
      · rcases ih hrest with ⟨i, output', hmem, hi⟩
        exact ⟨i, output', List.mem_cons_of_mem output hmem, hi⟩

theorem Router.doRoute_posts (env : Platform) {r : Router} {name : String}
    (hname : name ∈ r.components) {outputs : List Output} {task : Task}
    (h : Effect.post task ∈ (r.doRoute env name outputs).2) :
    r.started = true ∧ exists origin port output route,
      output ∈ flatten outputs ∧ port = output.1 ∧
      route ∈ (r.routesAt name port).localRoutes ∧
      task = Task.doProcess ⟨r.address, route.component⟩ origin route.inPort
        output.2 := by
  by_cases hstarted : r.started = true
  · constructor
    · exact hstarted
    rw [(doRoute_sent env hstarted hname outputs).effects] at h
    rcases Router.mem_allEffects h with ⟨i, output, houtput, heffect⟩
    rcases List.mem_append.mp heffect with hpost | hsend
    · rcases List.mem_map.mp hpost with ⟨route, hroute, heq⟩
      cases heq
      exact ⟨_, output.1, output, route, houtput, rfl, hroute, rfl⟩
    · rcases List.mem_map.mp hsend with ⟨route, _, heq⟩
      cases heq
  · unfold doRoute at h
    rw [if_neg hstarted] at h
    cases h

theorem Router.doRoute_packets (env : Platform) {r : Router} {name : String}
    (hname : name ∈ r.components) {outputs : List Output} {effect : Effect}
    (h : effect ∈ (r.doRoute env name outputs).2) :
    (exists ref origin inPort payload,
      effect = Effect.post (Task.doProcess ref origin inPort payload)) ∨
    exists client origin payload,
      effect = Effect.send client origin payload := by
  by_cases hstarted : r.started = true
  · rw [(doRoute_sent env hstarted hname outputs).effects] at h
    rcases Router.mem_allEffects h with ⟨i, output, _, heffect⟩
    rcases List.mem_append.mp heffect with hpost | hsend
    · rcases List.mem_map.mp hpost with ⟨route, _, rfl⟩
      exact Or.inl ⟨_, _, _, _, rfl⟩
    · rcases List.mem_map.mp hsend with ⟨route, _, rfl⟩
      exact Or.inr ⟨_, _, _, rfl⟩
  · unfold doRoute at h
    rw [if_neg hstarted] at h
    cases h

theorem isGenerator_of_kind {c : Component}
    (hkind : c.kind = Protocol.ComponentKind.generator ∨
      c.kind = Protocol.ComponentKind.timedGenerator) :
    c.isGenerator = true := by
  unfold Component.isGenerator
  rcases hkind with h | h
  · rw [h]
  · rw [h]

theorem Sound.taskEffects (h : Sound n) {task : Task}
    (htask : TaskSound n task) {effects : List Effect}
    (heffects : taskEffects env n task = some effects) :
    EffectsSound n effects := by
  cases htask.asks heffects with
  | @doProcess ref c origin inPort payload hc =>
      intro task' htask'
      rcases of_mem_processEffects htask' with ⟨outputs, _, heq⟩
      cases heq
      exact h.outputs hc outputs
  | @doRoute address r name outputs hr hname =>
      intro task' htask'
      rcases Router.doRoute_posts env hname htask' with
        ⟨hstarted, origin, port, output, route, _, _, hroute, rfl⟩
      have hrouter := h.routers address r hr
      rcases hrouter.complete hstarted route.component
        (hrouter.routes name port route hroute) with ⟨object, hobject⟩
      have haddress := address_of_findRouter hr
      refine ⟨object, findComponent_eq_some.mpr ⟨r, ?_, hobject⟩⟩
      show n.findRouter r.address = some r
      rw [haddress]
      exact hr
  | @generate ref c hc hkind =>
      exact h.generateEffects hc (isGenerator_of_kind (Or.inl hkind)) env
        c.started
  | @timerWait ref c cancelled hc hkind =>
      exact h.generateEffects hc (isGenerator_of_kind (Or.inr hkind)) env
        c.started

theorem Sound.messageEffects (h : Sound n) (origin : Option Origin)
    (payload : Protocol.Payload) :
    EffectsSound n (n.messageEffects origin payload) := by
  intro task htask
  unfold Node.messageEffects at htask
  rw [Router.route_snd] at htask
  split_ifs at htask with hrouted
  · cases List.mem_singleton.mp htask
    rcases (h.routers _ _ (findRouter_current n)).complete hrouted.left _
      hrouted.right with ⟨object, hobject⟩
    exact ⟨object, findComponent_current hobject⟩
  · cases htask

end Queued

/-!
## Steps
-/

section Steps

variable {env : Platform} {n m n' : Protort.Node}

theorem Sound.service (h : Sound n) {service : List Task}
    (hservice : forall task, task ∈ service -> task ∈ n.service) :
    Sound { n with service := service } :=
  { numbered := h.numbered
    routers := h.routers
    tasks := fun task htask => h.tasks task (hservice task htask) }

theorem Sound.worked (h : Sound n) (hworked : Worked n m)
    (htasks : forall task, task ∈ m.service -> TaskSound m task) :
    Sound m := by
  have hnumbered := h.numbered.congr hworked.current hworked.addresses
  refine
    { numbered := hnumbered
      routers := ?_
      tasks := htasks }
  intro address r' hr'
  have hle := (hnumbered.find_iff address).mp ⟨r', hr'⟩
  rw [hworked.current] at hle
  rcases (h.numbered.find_iff address).mpr hle with ⟨r, hr⟩
  rcases hworked.routers address r hr with ⟨r'', hr'', hsame⟩
  rw [hr'] at hr''
  rcases Option.some.inj hr'' with rfl
  exact (h.routers address r hr).sameFlags hsame

theorem OldStopped.worked (hnumbered : Numbered n) (h : OldStopped n)
    (hworked : Worked n m) : OldStopped m := by
  intro address r' hne hr'
  have hnumbered' := hnumbered.congr hworked.current hworked.addresses
  have hle := (hnumbered'.find_iff address).mp ⟨r', hr'⟩
  rw [hworked.current] at hle hne
  rcases (hnumbered.find_iff address).mpr hle with ⟨r, hr⟩
  rcases hworked.routers address r hr with ⟨r'', hr'', hsame⟩
  rw [hr'] at hr''
  rcases Option.some.inj hr'' with rfl
  exact hsame.table.started.trans (h address r hne hr)

theorem Sound.performed (h : Sound n) (hworked : Worked n m)
    (hservice : m.service = n.service) {effects : List Effect}
    (heffects : EffectsSound n effects) : Sound (m.performAll effects) := by
  have hall := hworked.trans (performAll_worked m effects)
  apply h.worked hall
  intro task htask
  rw [service_performAll, hservice] at htask
  exact (heffects.serve h.tasks task htask).keeps hall.keeps

theorem Sound.switched (h : Sound n) {w : Switch} (hasks : w.AsksSoundly n)
    {address : Nat}
    (hcomplete : w.started = true -> Complete n address) :
    Sound (switchRouter w address n) := by
  have hspec := switchRouter_spec w address n
  have hnumbered := h.numbered.congr hspec.current hspec.addresses
  refine
    { numbered := hnumbered
      routers := ?_
      tasks := ?_ }
  · intro other r' hr'
    have hle := (hnumbered.find_iff other).mp ⟨r', hr'⟩
    rw [hspec.current] at hle
    rcases (h.numbered.find_iff other).mpr hle with ⟨r, hr⟩
    by_cases hother : other = address
    · subst other
      rcases hspec.router r hr with ⟨r'', hr'', htable, hobjects⟩
      rw [hr'] at hr''
      rcases Option.some.inj hr'' with rfl
      refine (h.routers address r hr).switched htable hobjects ?_
      intro hstarted c hc
      rcases hcomplete hstarted ⟨address, c⟩
        ((Switch.mem_componentRefs hr).mpr ⟨rfl, hc⟩) with ⟨object, hobject⟩
      rcases findComponent_eq_some.mp hobject with ⟨r'', hr'', hobject'⟩
      rw [hr] at hr''
      rcases Option.some.inj hr'' with rfl
      exact ⟨object, hobject'⟩
    · have hsame := hspec.others other r hother hr
      rw [hr'] at hsame
      rcases Option.some.inj hsame with rfl
      exact h.routers other _ hr
  · intro task htask
    rw [service_switchRouter] at htask
    exact ((hasks.allEffects address).serve h.tasks task htask).keeps
      hspec.keeps

theorem Rebuilt.keeps (hbuilt : Rebuilt n.exchanged m)
    (hnumbered : Numbered n) : Keeps n m := by
  intro address r hr
  have hle := (hnumbered.find_iff address).mp ⟨r, hr⟩
  refine ⟨r, ?_, fun _ hc => hc, fun _ => rfl⟩
  rw [findRouter_rebuilt hbuilt.address hbuilt.retired,
    if_neg (Nat.ne_of_lt (Nat.lt_succ_of_le hle))]
  exact hr

theorem Sound.rebuilt (h : Sound n) (hbuilt : Rebuilt n.exchanged m) :
    Sound m := by
  have hfind := findRouter_rebuilt hbuilt.address hbuilt.retired
  refine
    { numbered := ?_
      routers := ?_
      tasks := ?_ }
  · unfold Numbered
    rw [hbuilt.address, hbuilt.retired]
    show n.router.address :: n.retired.map _ =
      (List.range (n.router.address + 1)).reverse
    rw [List.range_succ, List.reverse_append, show n.retired.map _ = _ from
      h.numbered]
    rfl
  · intro address r hr
    rw [hfind] at hr
    by_cases hnew : address = n.router.address + 1
    · rw [if_pos hnew] at hr
      rcases Option.some.inj hr with rfl
      exact hbuilt.router.routerSound
    · rw [if_neg hnew] at hr
      exact h.routers address r hr
  · intro task htask
    rw [hbuilt.service] at htask
    exact (h.tasks task htask).keeps (hbuilt.keeps h.numbered)

theorem router_of_find {address : Nat} {r : Router}
    (haddress : n.router.address = address)
    (hr : n.findRouter address = some r) : n.router = r := by
  rw [← haddress, findRouter_current] at hr
  exact Option.some.inj hr

theorem find_of_switched {w : Switch} {address : Nat} (hnumbered : Numbered n)
    {other : Nat} {r' : Router} (hother : other ≠ address)
    (hr' : (switchRouter w address n).findRouter other = some r') :
    n.findRouter other = some r' := by
  have hspec := switchRouter_spec w address n
  have hle := ((hnumbered.congr hspec.current hspec.addresses).find_iff
    other).mp ⟨r', hr'⟩
  rw [hspec.current] at hle
  rcases (hnumbered.find_iff other).mpr hle with ⟨r, hr⟩
  have hsame := hspec.others other r hother hr
  rw [hr'] at hsame
  rw [hr, Option.some.inj hsame]

theorem started_switchRouter (w : Switch) (n : Protort.Node) :
    (switchRouter w n.router.address n).router.started = w.started := by
  have hspec := switchRouter_spec w n.router.address n
  rcases hspec.router n.router (findRouter_current n) with
    ⟨r', hr', htable, _⟩
  rw [router_of_find hspec.current hr']
  exact htable.started

theorem started_of_switched {w : Switch} {address : Nat}
    (hnumbered : Numbered n) {r' : Router}
    (hr' : (switchRouter w address n).findRouter address = some r') :
    r'.started = w.started := by
  have hspec := switchRouter_spec w address n
  have hle := ((hnumbered.congr hspec.current hspec.addresses).find_iff
    address).mp ⟨r', hr'⟩
  rw [hspec.current] at hle
  rcases (hnumbered.find_iff address).mpr hle with ⟨r, hr⟩
  rcases hspec.router r hr with ⟨r'', hr'', htable, _⟩
  rw [hr'] at hr''
  rcases Option.some.inj hr'' with rfl
  exact htable.started

theorem OldStopped.switched (hnumbered : Numbered n) (h : OldStopped n)
    (w : Switch) : OldStopped (switchRouter w n.router.address n) := by
  intro other r' hne hr'
  rw [(switchRouter_spec w n.router.address n).current] at hne
  exact h other r' hne (find_of_switched hnumbered hne hr')

def startedAfter (packet : Protocol.Deploy.Packet) (started : Bool) : Bool :=
  match packet.kind with
  | Protocol.Deploy.PacketKind.start => true
  | Protocol.Deploy.PacketKind.stop => false
  | _ => started

theorem sound_restarted (h : Sound m) (env : Platform) {wasStarted : Bool}
    (hcomplete : wasStarted = true -> Complete m m.router.address) :
    Sound (restarted env wasStarted m) := by
  unfold restarted
  cases wasStarted with
  | true => exact h.switched (h.start env) (fun _ => hcomplete rfl)
  | false => exact h

theorem started_restarted (env : Platform) (wasStarted : Bool)
    (hstopped : m.router.started = false) :
    (restarted env wasStarted m).router.address = m.router.address ∧
      (restarted env wasStarted m).router.started = wasStarted := by
  unfold restarted
  cases wasStarted with
  | true =>
      exact ⟨(switchRouter_spec _ _ m).current,
        started_switchRouter (Switch.start env) m⟩
  | false => exact ⟨rfl, hstopped⟩

/-- The router that replaces another is started as that one was, and stopping
the old one does not reach it. -/
theorem Rebuilt.replaced (hbuilt : Rebuilt n.exchanged m) (env : Platform)
    (wasStarted : Bool) :
    (switchRouter Switch.stop n.router.address
        (restarted env wasStarted m)).router =
      (restarted env wasStarted m).router ∧
    (restarted env wasStarted m).router.address = n.router.address + 1 ∧
    (restarted env wasStarted m).router.started = wasStarted := by
  rcases started_restarted env wasStarted hbuilt.router.started with
    ⟨hcurrent, hstarted⟩
  have haddress : m.router.address = n.router.address + 1 := hbuilt.address
  have hspec := switchRouter_spec Switch.stop n.router.address
    (restarted env wasStarted m)
  have hne : m.router.address ≠ n.router.address := by omega
  have hkept := hspec.others m.router.address
    (restarted env wasStarted m).router hne
    (hcurrent ▸ findRouter_current _)
  exact ⟨router_of_find (hspec.current.trans hcurrent) hkept,
    hcurrent.trans haddress, hstarted⟩

theorem keeps_restarted (env : Platform) (wasStarted : Bool)
    (m : Protort.Node) : Keeps m (restarted env wasStarted m) := by
  unfold restarted
  cases wasStarted with
  | true => exact (switchRouter_spec _ _ m).keeps
  | false => exact Keeps.refl m

theorem Served.keeps {packet : Protocol.Deploy.Packet}
    {response : Protocol.Payload}
    (hserved : Served env n packet response n') (hnumbered : Numbered n) :
    Keeps n n' := by
  cases hserved with
  | @deployConfig m hkind hdeploy hstart hcomplete =>
      have hbuilt := deployFromPacket_rebuilt (Unstarted.empty n) hdeploy
      exact (hbuilt.keeps hnumbered).trans
        ((keeps_restarted env n.router.started m).trans
          (switchRouter_spec _ _ _).keeps)
  | start hkind hcomplete => exact (switchRouter_spec _ _ n).keeps
  | stop hkind hcomplete => exact (switchRouter_spec _ _ n).keeps
  | getStatus hkind hstatus => exact Keeps.refl n

theorem Served.sound {packet : Protocol.Deploy.Packet}
    {response : Protocol.Payload}
    (hserved : Served env n packet response n') (h : Sound n)
    (hold : OldStopped n) :
    Sound n' ∧ OldStopped n' ∧
      n'.router.started = startedAfter packet n.router.started := by
  cases hserved with
  | @deployConfig m hkind hdeploy hstart hcomplete =>
      have hbuilt := deployFromPacket_rebuilt (Unstarted.empty n) hdeploy
      have hm := h.rebuilt hbuilt
      have hm1 := sound_restarted hm env hstart
      rcases hbuilt.replaced env n.router.started with
        ⟨hrouter, hcurrent, hstarted⟩
      have haddress : m.router.address = n.router.address + 1 :=
        hbuilt.address
      refine ⟨hm1.switched (Switch.stop_asksSoundly _)
        (fun h => absurd h Bool.false_ne_true), ?_, ?_⟩
      · intro other r' hne hr'
        by_cases hother : other = n.router.address
        · subst other
          exact started_of_switched hm1.numbered hr'
        · have hr1 := find_of_switched hm1.numbered hother hr'
          rw [hrouter, hcurrent, ← haddress] at hne
          have hr : m.findRouter other = some r' := by
            revert hr1
            unfold restarted
            cases n.router.started with
            | true => exact find_of_switched hm.numbered hne
            | false => exact fun h => h
          rw [findRouter_rebuilt hbuilt.address hbuilt.retired,
            if_neg (haddress ▸ hne)] at hr
          exact hold other r' hother hr
      · rw [hrouter, hstarted]
        unfold startedAfter
        rw [hkind]
  | start hkind hcomplete =>
      refine ⟨h.switched (h.start env) (fun _ => hcomplete),
        hold.switched h.numbered _, ?_⟩
      unfold startedAfter
      rw [hkind]
      exact started_switchRouter (Switch.start env) n
  | stop hkind hcomplete =>
      refine ⟨h.switched (Switch.stop_asksSoundly n) (fun _ => hcomplete),
        hold.switched h.numbered _, ?_⟩
      unfold startedAfter
      rw [hkind]
      exact started_switchRouter Switch.stop n
  | getStatus hkind hstatus =>
      constructor
      · exact h
      constructor
      · exact hold
      unfold startedAfter
      rw [hkind]

end Steps

/-!
## Runs
-/

def startedBy (event : Event) (started : Bool) : Bool :=
  match event with
  | Event.request _ payload => startedAfter payload.asDeployPacket started
  | _ => started

theorem step_run {env : Platform} {n n' : Protort.Node} {index : Nat}
    (h : step n (Event.run env index) = some n') :
    exists task, n.service[index]? = some task ∧
      runTask env task { n with service := n.service.eraseIdx index } =
        EStateM.Result.ok PUnit.unit n' := by
  unfold step at h
  simp only at h
  cases htask : n.service[index]? with
  | none =>
      rw [htask] at h
      cases h
  | some task =>
      rw [htask] at h
      rcases returned_eq_some.mp h with ⟨x, hrun⟩
      exact ⟨task, rfl, hrun⟩

theorem step_of_runTask {env : Platform} {n n' : Protort.Node} {index : Nat}
    {task : Task} (hget : n.service[index]? = some task)
    (hrun : runTask env task { n with service := n.service.eraseIdx index } =
      EStateM.Result.ok PUnit.unit n') :
    step n (Event.run env index) = some n' := by
  unfold step
  simp only [hget]
  exact returned_eq_some.mpr ⟨_, hrun⟩

theorem Worked.of_service {n m : Protort.Node} {service : List Task}
    (h : Worked { n with service := service } m) : Worked n m :=
  { current := h.current
    addresses := h.addresses
    next := h.next
    routers := h.routers }

/-- What a queued task of a sound node does: it changes counters and asks for
sound effects. -/
theorem run_spec {env : Platform} {n n' : Protort.Node} {index : Nat}
    (h : Sound n) (hstep : step n (Event.run env index) = some n') :
    exists task effects m, n.service[index]? = some task ∧
      TaskSound n task ∧
      taskEffects env n task = some effects ∧ EffectsSound n effects ∧
      Worked n m ∧ m.service = n.service.eraseIdx index ∧
      m.outbox = n.outbox ∧ n' = m.performAll effects := by
  rcases step_run hstep with ⟨task, htask, hrun⟩
  have hsound : TaskSound n task :=
    h.tasks task (List.mem_of_getElem? htask)
  have htaken : TaskSound { n with service := n.service.eraseIdx index }
      task := hsound
  rcases runTask_ok env htaken with
    ⟨effects, m, heffects, hok, hworked, hservice, houtbox⟩
  rw [hok] at hrun
  cases hrun
  have heffects' : taskEffects env n task = some effects := by
    rw [← heffects]
    rfl
  exact ⟨task, effects, m, htask, hsound, heffects',
    h.taskEffects hsound heffects',
    hworked.of_service, hservice, houtbox, rfl⟩

theorem message_spec {env : Platform} {origin : Option Origin}
    {payload : Protocol.Payload} {n n' : Protort.Node}
    (hstep : step n (Event.message env origin payload) = some n') :
    exists m, Worked n m ∧ m.service = n.service ∧ m.outbox = n.outbox ∧
      n' = m.performAll (n.messageEffects origin payload) := by
  unfold step at hstep
  rcases returned_eq_some.mp hstep with ⟨x, hrun⟩
  rcases onNewMessage_ok env origin payload n with
    ⟨m, hok, hworked, hservice, houtbox⟩
  rw [hok] at hrun
  cases hrun
  exact ⟨m, hworked, hservice, houtbox, rfl⟩

theorem Sound.eraseIdx {n : Protort.Node} (h : Sound n) (index : Nat) :
    Sound { n with service := n.service.eraseIdx index } :=
  h.service (fun _ => List.mem_of_mem_eraseIdx)

/-- What holds in every state that a node reaches. -/
structure Consistent (n : Protort.Node) : Prop where
  sound : Sound n
  oldStopped : OldStopped n

theorem Consistent.step {n n' : Protort.Node} {event : Event}
    (hstep : step n event = some n') (h : Consistent n) :
    Consistent n' ∧
      n'.router.started = startedBy event n.router.started := by
  rcases h with ⟨h, hold⟩
  cases event with
  | request env payload =>
      rcases returned_eq_some.mp hstep with ⟨response, hrun⟩
      rcases (onNewRequest_ok_iff.mp hrun).right.sound h hold with
        ⟨hsound, hold', hstarted⟩
      exact ⟨⟨hsound, hold'⟩, hstarted⟩
  | message env origin payload =>
      rcases message_spec hstep with ⟨m, hworked, hservice, _, rfl⟩
      have hall := hworked.trans
        (performAll_worked m (n.messageEffects origin payload))
      refine ⟨⟨h.performed hworked hservice
          (h.messageEffects origin payload), hold.worked h.numbered hall⟩, ?_⟩
      rcases hall.routers _ _ (findRouter_current n) with ⟨r', hr', hsame⟩
      rw [router_of_find hall.current hr']
      exact hsame.table.started
  | run env index =>
      rcases run_spec h hstep with ⟨task, effects, m, _, _, _, heffects,
        hworked, hservice, _, rfl⟩
      have hall := hworked.trans (performAll_worked m effects)
      have herased : Worked { n with service := n.service.eraseIdx index } m :=
        ⟨hworked.current, hworked.addresses, hworked.next, hworked.routers⟩
      refine ⟨⟨(h.eraseIdx index).performed herased hservice heffects,
        hold.worked h.numbered hall⟩, ?_⟩
      rcases hall.routers _ _ (findRouter_current n) with ⟨r', hr', hsame⟩
      rw [router_of_find hall.current hr']
      exact hsame.table.started

theorem step_keeps {n n' : Protort.Node} {event : Event}
    (hstep : step n event = some n') (h : Consistent n) : Keeps n n' := by
  cases event with
  | request env payload =>
      rcases returned_eq_some.mp hstep with ⟨response, hrun⟩
      exact (onNewRequest_ok_iff.mp hrun).right.keeps h.sound.numbered
  | message env origin payload =>
      rcases message_spec hstep with ⟨m, hworked, _, _, rfl⟩
      exact (hworked.trans (performAll_worked m _)).keeps
  | run env index =>
      rcases run_spec h.sound hstep with
        ⟨_, effects, m, _, _, _, _, hworked, _, _, rfl⟩
      exact (hworked.trans (performAll_worked m effects)).keeps

theorem step_consistent {n n' : Protort.Node} {event : Event}
    (hstep : Steps step n event n') (h : Consistent n) : Consistent n' :=
  (Consistent.step hstep h).left

theorem consistent_new (port : UInt32) (startTime : Nat) :
    Consistent (new port startTime) := by
  have hfind : forall address r,
      (new port startTime).findRouter address = some r ->
        address = 0 ∧ r = Router.new 0 := by
    intro address r hr
    unfold findRouter at hr
    by_cases haddress : (new port startTime).router.address = address
    · rw [if_pos haddress] at hr
      exact ⟨haddress.symm, (Option.some.inj hr).symm⟩
    · rw [if_neg haddress] at hr
      cases hr
  constructor
  · exact
      { numbered := rfl
        routers := by
          intro address r hr
          rw [(hfind address r hr).right]
          exact (Unstarted.new 0).routerSound
        tasks := fun task htask => absurd htask List.not_mem_nil }
  · intro address r hne hr
    exact absurd (hfind address r hr).left hne

def Reachable (n : Protort.Node) : Prop :=
  exists port startTime events, Run (Steps step) (new port startTime) events n

theorem Reachable.consistent {n : Protort.Node} (h : Reachable n) :
    Consistent n := by
  rcases h with ⟨port, startTime, events, hrun⟩
  exact hrun.invariant (fun hstep hn => step_consistent hstep hn)
    (consistent_new port startTime)

/-!
## The history of requests
-/

theorem startedBy_eq (event : Event) (started : Bool) :
    startedBy event started =
      ((startOrStop event).map (fun kind =>
        decide (kind = Protocol.Deploy.PacketKind.start))).getD started := by
  cases event with
  | message env origin payload => rfl
  | run env index => rfl
  | request env payload =>
      cases payload with
      | deployPacket packet =>
          unfold startedBy startedAfter startOrStop
          simp only [Protocol.Payload.asDeployPacket]
          cases packet.kind with
          | _ => rfl
      | _ => rfl

theorem foldl_startedBy (events : List Event) (started : Bool) :
    events.foldl (fun started event => startedBy event started) started =
      ((lastCommand events).map (fun kind =>
        decide (kind = Protocol.Deploy.PacketKind.start))).getD started := by
  induction events generalizing started with
  | nil => rfl
  | cons event rest ih =>
      rw [List.foldl_cons, ih, startedBy_eq]
      unfold lastCommand
      rw [List.filterMap_cons]
      cases hcommand : startOrStop event with
      | none => rfl
      | some kind =>
          simp only [Option.map_some, Option.getD_some]
          rw [List.getLast?_cons]
          cases (rest.filterMap startOrStop).getLast? with
          | none => rfl
          | some last => rfl

/-- After any history the current router is started exactly when the last Start
or Stop request was a Start, its generators are as it is, and every router that
was replaced is stopped with all of its generators. -/
theorem running_consistent {port : UInt32} {startTime : Nat}
    {events : List Event} {n : Protort.Node}
    (hrun : Run (Steps step) (new port startTime) events n) :
    (n.router.started = true <->
      lastCommand events = some Protocol.Deploy.PacketKind.start) ∧
    (forall c object, n.router.objectAt c = some object ->
      object.isGenerator = true -> object.started = n.router.started) ∧
    forall r, r ∈ n.retired -> r.started = false ∧
      forall c object, r.objectAt c = some object ->
        object.isGenerator = true -> object.started = false := by
  have hinv := Reachable.consistent ⟨port, startTime, events, hrun⟩
  refine ⟨?_, ?_, ?_⟩
  · have hstarted := hrun.foldl_view (fun n => n.router.started)
      (fun started event => startedBy event started)
      (fun hstep hn => step_consistent hstep hn)
      (fun hstep hn => (Consistent.step hstep hn).right)
      (consistent_new port startTime)
    rw [foldl_startedBy] at hstarted
    rw [hstarted]
    cases lastCommand events with
    | none =>
        constructor
        · intro h
          cases h
        · intro h
          cases h
    | some kind =>
        show decide (kind = _) = true <-> _
        rw [decide_eq_true_iff, Option.some.injEq]
  · exact (hinv.sound.routers _ _ (findRouter_current n)).flags
  · intro r hr
    rcases hinv.sound.numbered.findRouter_retired hr with ⟨hne, hfind⟩
    have hstopped := hinv.oldStopped r.address r hne hfind
    constructor
    · exact hstopped
    intro c object hobject hgen
    rw [(hinv.sound.routers _ _ hfind).flags c object hobject hgen, hstopped]

def command (kind : Protocol.Deploy.PacketKind) : Event :=
  Event.request Platform.loopback (Protocol.Payload.deployPacket
    { kind := kind
      payload := Protocol.Deploy.PacketPayload.notSet })

def deployRequest (config : Protocol.Deploy.Config) : Event :=
  Event.request Platform.loopback (Protocol.Payload.deployPacket
    { kind := Protocol.Deploy.PacketKind.deployConfig
      payload := Protocol.Deploy.PacketPayload.request
        (Protocol.Deploy.Request.deployConfig { config := config }) })

def lonely (kind : Protocol.ComponentKind) : Protocol.Deploy.Config :=
  { thisNodeInfo := ⟨"n1", "127.0.0.1", 100⟩
    nodeInfos := [⟨"n1", "127.0.0.1", 100⟩]
    instances := [⟨"g", kind⟩]
    maps := [⟨"n1", "g"⟩]
    connections := [] }

def redeployments : List Event :=
  [command Protocol.Deploy.PacketKind.start,
    deployRequest (lonely Protocol.ComponentKind.generator),
    deployRequest (lonely Protocol.ComponentKind.timedGenerator)]

def redeployed : Protort.Node :=
  (Lib.execute step (new 100 0) redeployments).getD (new 100 0)

theorem run_redeployed :
    Run (Steps step) (new 100 0) redeployments redeployed :=
  Run.of_execute (by decide +kernel)

theorem running_consistent_redeployed :
    (redeployed.router.started = true <->
      lastCommand redeployments = some Protocol.Deploy.PacketKind.start) ∧
    (forall c object, redeployed.router.objectAt c = some object ->
      object.isGenerator = true ->
        object.started = redeployed.router.started) ∧
    forall r, r ∈ redeployed.retired -> r.started = false ∧
      forall c object, r.objectAt c = some object ->
        object.isGenerator = true -> object.started = false :=
  running_consistent run_redeployed

end Node
end Protort
