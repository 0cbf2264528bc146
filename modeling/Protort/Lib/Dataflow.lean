import Mathlib.Algebra.Order.Group.Multiset
import Mathlib.Data.Multiset.Filter
import Protort.Lib.Runs

/-!
# Dataflow graphs

Components that are wired port to port and work asynchronously.  What a
component sends through a port is delivered once along every wire that leaves
the port, in any order with everything else; a component reacts to a delivery
and may also act by itself.

Every output has a number among the outputs of its component, and a delivery
remembers the output it belongs to.  So it can be said which deliveries one
output gives rise to: those that are still pending and those that were received
make up exactly its wires.
-/

namespace Protort
namespace Lib
namespace Dataflow

universe u v w x

structure Wire (comp : Type u) (port : Type v) where
  source : comp
  sourcePort : port
  dest : comp
  destPort : port
deriving DecidableEq

structure Delivery (comp : Type u) (port : Type v) (content : Type w) where
  origin : Option (comp × Nat)
  dest : comp
  inPort : port
  content : content

/-- What components do: how they react to a content at an input, and what they
do by themselves.  A reaction need not have outputs at all. -/
structure Behaviour (port : Type v) (content : Type w) (mem : Type x) where
  react : mem -> port -> content -> mem -> Option (List (port × content)) -> Prop
  act : mem -> mem -> List (port × content) -> Prop

/-- The memories of the components, the deliveries that are pending, the outputs
that are not sent yet, those that are, and the deliveries received so far. -/
structure State (comp : Type u) (port : Type v) (content : Type w)
    (mem : Type x) where
  memory : comp -> mem
  pending : Multiset (Delivery comp port content)
  routing : Multiset (comp × List (port × content))
  emitted : comp -> List (port × content)
  received : Multiset (Delivery comp port content)

variable {comp : Type u} {port : Type v} {content : Type w} {mem : Type x}
variable [DecidableEq comp] [DecidableEq port]

def fanout (wires : List (Wire comp port)) (c : comp) (index : Nat) (p : port)
    (message : content) : Multiset (Delivery comp port content) :=
  ((wires.filter (fun wire => decide (wire.source = c ∧
    wire.sourcePort = p))).map (fun wire =>
      { origin := some (c, index)
        dest := wire.dest
        inPort := wire.destPort
        content := message }) : List (Delivery comp port content))

def fanoutAll (wires : List (Wire comp port)) (c : comp) :
    Nat -> List (port × content) -> Multiset (Delivery comp port content)
  | _, [] => 0
  | index, output :: rest =>
      fanout wires c index output.1 output.2 +
        fanoutAll wires c (index + 1) rest

def queued (c : comp) (outputs : Option (List (port × content))) :
    Multiset (comp × List (port × content)) :=
  match outputs with
  | some outputs => {(c, outputs)}
  | none => 0

inductive Event (comp : Type u) (port : Type v) (content : Type w) where
  | deliver (d : Delivery comp port content)
  | route (c : comp) (outputs : List (port × content))
  | act (c : comp)

inductive Step (wires : List (Wire comp port))
    (behaviour : Behaviour port content mem) :
    State comp port content mem -> Event comp port content ->
      State comp port content mem -> Prop where
  | deliver {s : State comp port content mem} {l : mem}
      {outputs : Option (List (port × content))}
      (d : Delivery comp port content)
      (rest : Multiset (Delivery comp port content)) :
      s.pending = d ::ₘ rest ->
      behaviour.react (s.memory d.dest) d.inPort d.content l outputs ->
      Step wires behaviour s (Event.deliver d)
        { memory := Function.update s.memory d.dest l
          pending := rest
          routing := s.routing + queued d.dest outputs
          emitted := s.emitted
          received := d ::ₘ s.received }
  | route {s : State comp port content mem} (c : comp)
      (outputs : List (port × content))
      (rest : Multiset (comp × List (port × content))) :
      s.routing = (c, outputs) ::ₘ rest ->
      Step wires behaviour s (Event.route c outputs)
        { memory := s.memory
          pending := s.pending +
            fanoutAll wires c (s.emitted c).length outputs
          routing := rest
          emitted := Function.update s.emitted c (s.emitted c ++ outputs)
          received := s.received }
  | act {s : State comp port content mem} {l : mem}
      {outputs : List (port × content)} (c : comp) :
      behaviour.act (s.memory c) l outputs ->
      Step wires behaviour s (Event.act c)
        { memory := Function.update s.memory c l
          pending := s.pending
          routing := (c, outputs) ::ₘ s.routing
          emitted := s.emitted
          received := s.received }

def StepsOf (among : comp -> Prop)
    (step : State comp port content mem -> Event comp port content ->
      State comp port content mem -> Prop) :
    State comp port content mem -> Event comp port content ->
      State comp port content mem -> Prop :=
  fun s e t =>
    match e with
    | Event.deliver d => among d.dest ∧ step s e t
    | Event.route c _ => among c ∧ step s e t
    | Event.act c => among c ∧ step s e t

/-!
## Steps by their fields
-/

section Fields

variable {wires : List (Wire comp port)}
  {behaviour : Behaviour port content mem} {s t : State comp port content mem}

omit [DecidableEq comp] [DecidableEq port] in
theorem State.ext_fields {s t : State comp port content mem}
    (hmemory : forall c, t.memory c = s.memory c)
    (hpending : t.pending = s.pending) (hrouting : t.routing = s.routing)
    (hemitted : forall c, t.emitted c = s.emitted c)
    (hreceived : t.received = s.received) : t = s := by
  cases s
  cases t
  rw [State.mk.injEq]
  exact ⟨funext hmemory, hpending, hrouting, funext hemitted, hreceived⟩

theorem Step.deliver_of (d : Delivery comp port content)
    (outputs : Option (List (port × content)))
    (hpending : s.pending = d ::ₘ t.pending)
    (hreact : behaviour.react (s.memory d.dest) d.inPort d.content
      (t.memory d.dest) outputs)
    (hmemory : forall c, c ≠ d.dest -> t.memory c = s.memory c)
    (hrouting : t.routing = s.routing + queued d.dest outputs)
    (hemitted : forall c, t.emitted c = s.emitted c)
    (hreceived : t.received = d ::ₘ s.received) :
    Step wires behaviour s (Event.deliver d) t := by
  have hmem : Function.update s.memory d.dest (t.memory d.dest) =
      t.memory := by
    funext c
    by_cases hc : c = d.dest
    · rw [hc, Function.update_self]
    · rw [Function.update_of_ne hc, hmemory c hc]
  have hstep := @Step.deliver _ _ _ _ _ _ wires behaviour s _ _ d _ hpending
    hreact
  rw [hmem, ← hrouting, ← funext hemitted, ← hreceived] at hstep
  exact hstep

theorem Step.route_of (c : comp) (outputs : List (port × content))
    (hrouting : s.routing = (c, outputs) ::ₘ t.routing)
    (hmemory : forall c', t.memory c' = s.memory c')
    (hpending : t.pending = s.pending +
      fanoutAll wires c (s.emitted c).length outputs)
    (hself : t.emitted c = s.emitted c ++ outputs)
    (hemitted : forall c', c' ≠ c -> t.emitted c' = s.emitted c')
    (hreceived : t.received = s.received) :
    Step wires behaviour s (Event.route c outputs) t := by
  have hemit : Function.update s.emitted c (s.emitted c ++ outputs) =
      t.emitted := by
    funext c'
    by_cases hc : c' = c
    · rw [hc, Function.update_self, hself]
    · rw [Function.update_of_ne hc, hemitted c' hc]
  have hstep := @Step.route _ _ _ _ _ _ wires behaviour s c outputs _ hrouting
  rw [hemit, ← funext hmemory, ← hpending, ← hreceived] at hstep
  exact hstep

theorem Step.act_of (c : comp) (outputs : List (port × content))
    (hact : behaviour.act (s.memory c) (t.memory c) outputs)
    (hmemory : forall c', c' ≠ c -> t.memory c' = s.memory c')
    (hpending : t.pending = s.pending)
    (hrouting : t.routing = (c, outputs) ::ₘ s.routing)
    (hemitted : forall c', t.emitted c' = s.emitted c')
    (hreceived : t.received = s.received) :
    Step wires behaviour s (Event.act c) t := by
  have hmem : Function.update s.memory c (t.memory c) = t.memory := by
    funext c'
    by_cases hc : c' = c
    · rw [hc, Function.update_self]
    · rw [Function.update_of_ne hc, hmemory c' hc]
  have hstep := @Step.act _ _ _ _ _ _ wires behaviour s _ _ c hact
  rw [hmem, ← hpending, ← hrouting, ← funext hemitted, ← hreceived] at hstep
  exact hstep

end Fields

/-!
## Deliveries by output
-/

def ofOutput (c : comp) (index : Nat)
    (ds : Multiset (Delivery comp port content)) :
    Multiset (Delivery comp port content) :=
  ds.filter (fun d => d.origin = some (c, index))

omit [DecidableEq port] in
@[simp] theorem ofOutput_add (c : comp) (index : Nat)
    (ds ds' : Multiset (Delivery comp port content)) :
    ofOutput c index (ds + ds') = ofOutput c index ds + ofOutput c index ds' :=
  Multiset.filter_add _ ds ds'

theorem ofOutput_fanout_self (wires : List (Wire comp port)) (c : comp)
    (index : Nat) (p : port) (message : content) :
    ofOutput c index (fanout wires c index p message) =
      fanout wires c index p message := by
  unfold ofOutput fanout
  rw [Multiset.filter_coe, List.filter_eq_self.mpr]
  intro d hd
  rcases List.mem_map.mp hd with ⟨wire, _, rfl⟩
  exact decide_eq_true rfl

theorem ofOutput_fanout_ne {c c' : comp} {index index' : Nat}
    (wires : List (Wire comp port)) (p : port) (message : content)
    (hne : ¬ (c = c' ∧ index = index')) :
    ofOutput c' index' (fanout wires c index p message) = 0 := by
  unfold ofOutput fanout
  rw [Multiset.filter_coe, List.filter_eq_nil_iff.mpr]
  · rfl
  · intro d hd
    rcases List.mem_map.mp hd with ⟨wire, _, rfl⟩
    simpa using hne

def fanoutOf (wires : List (Wire comp port)) (c : comp) (index : Nat)
    (output : Option (port × content)) :
    Multiset (Delivery comp port content) :=
  match output with
  | some output => fanout wires c index output.1 output.2
  | none => 0

theorem ofOutput_fanoutAll (wires : List (Wire comp port)) (c : comp)
    (start : Nat) (outputs : List (port × content)) (index : Nat) :
    ofOutput c (start + index) (fanoutAll wires c start outputs) =
      fanoutOf wires c (start + index) outputs[index]? := by
  induction outputs generalizing start index with
  | nil => rfl
  | cons output rest ih =>
      unfold fanoutAll
      rw [ofOutput_add]
      cases index with
      | zero =>
          have hrest : forall (xs : List (port × content)) (later : Nat),
              start < later ->
                ofOutput c start (fanoutAll wires c later xs) = 0 := by
            intro xs
            induction xs with
            | nil =>
                intro later _
                rfl
            | cons y ys ihxs =>
                intro later hlater
                unfold fanoutAll
                rw [ofOutput_add, ihxs (later + 1) (by omega),
                  ofOutput_fanout_ne wires y.1 y.2 (by omega)]
                rfl
          rw [Nat.add_zero, hrest rest (start + 1) (by omega),
            ofOutput_fanout_self, add_zero]
          rfl
      | succ k =>
          have hshift : start + (k + 1) = (start + 1) + k := by
            omega
          rw [hshift, ih (start + 1) k,
            ofOutput_fanout_ne wires output.1 output.2 (by omega), zero_add]
          rfl

theorem ofOutput_fanoutAll_before (wires : List (Wire comp port)) (c : comp)
    {start index : Nat} (outputs : List (port × content))
    (h : index < start) :
    ofOutput c index (fanoutAll wires c start outputs) = 0 := by
  induction outputs generalizing start with
  | nil => rfl
  | cons output rest ih =>
      unfold fanoutAll
      rw [ofOutput_add, ih (by omega),
        ofOutput_fanout_ne wires output.1 output.2 (by omega)]
      rfl

theorem ofOutput_fanoutAll_other (wires : List (Wire comp port)) {c c' : comp}
    (start index : Nat) (outputs : List (port × content)) (h : c ≠ c') :
    ofOutput c' index (fanoutAll wires c start outputs) = 0 := by
  induction outputs generalizing start with
  | nil => rfl
  | cons output rest ih =>
      unfold fanoutAll
      rw [ofOutput_add, ih (start + 1),
        ofOutput_fanout_ne wires output.1 output.2 (fun heq => h heq.left)]
      rfl

theorem origin_of_mem_fanoutAll {wires : List (Wire comp port)} {c : comp}
    {start : Nat} {outputs : List (port × content)}
    {d : Delivery comp port content}
    (hd : d ∈ fanoutAll wires c start outputs) : d.origin ≠ none := by
  induction outputs generalizing start with
  | nil => exact absurd hd (Multiset.notMem_zero d)
  | cons output rest ih =>
      unfold fanoutAll at hd
      rcases Multiset.mem_add.mp hd with hhead | htail
      · unfold fanout at hhead
        rcases List.mem_map.mp (Multiset.mem_coe.mp hhead) with ⟨_, _, rfl⟩
        exact Option.some_ne_none _
      · exact ih htail

/-!
## Conservation
-/

/-- Every output has the deliveries of its wires, pending or received, and there
are no others. -/
structure Conserved (wires : List (Wire comp port))
    (s : State comp port content mem) : Prop where
  outputs : forall c index,
    ofOutput c index (s.pending + s.received) =
      fanoutOf wires c index (s.emitted c)[index]?
  origins : forall d, d ∈ s.pending + s.received -> d.origin ≠ none

theorem Conserved.step {wires : List (Wire comp port)}
    {behaviour : Behaviour port content mem}
    {s t : State comp port content mem} {e : Event comp port content}
    (hstep : Step wires behaviour s e t) (h : Conserved wires s) :
    Conserved wires t := by
  cases hstep with
  | @deliver l outputs d rest hpending _ =>
      have hsame : rest + (d ::ₘ s.received) = s.pending + s.received := by
        rw [hpending, Multiset.add_cons, Multiset.cons_add]
      exact
        { outputs := fun c index => by
            show ofOutput c index (rest + (d ::ₘ s.received)) = _
            rw [hsame]
            exact h.outputs c index
          origins := fun d' hd => h.origins d' (hsame ▸ hd) }
  | route c outputs rest _ =>
      exact
        { outputs := by
            intro c' index
            show ofOutput c' index (s.pending +
              fanoutAll wires c (s.emitted c).length outputs +
                s.received) = fanoutOf wires c' index
                  (Function.update s.emitted c (s.emitted c ++ outputs) c')[index]?
            have hold := h.outputs c' index
            rw [ofOutput_add] at hold
            rw [ofOutput_add, ofOutput_add, add_right_comm, hold]
            by_cases hc : c = c'
            · subst c'
              rw [Function.update_self]
              by_cases hindex : index < (s.emitted c).length
              · rw [ofOutput_fanoutAll_before wires c outputs hindex,
                  add_zero, List.getElem?_append_left hindex]
              · have hge : (s.emitted c).length <= index := by
                  omega
                rcases Nat.exists_eq_add_of_le hge with ⟨k, rfl⟩
                rw [ofOutput_fanoutAll, List.getElem?_append_right hge,
                  List.getElem?_eq_none hge, Nat.add_sub_cancel_left]
                exact zero_add _
            · rw [ofOutput_fanoutAll_other wires _ _ outputs hc, add_zero,
                Function.update_of_ne (Ne.symm hc)]
          origins := by
            intro d hd
            rcases Multiset.mem_add.mp hd with hpending | hreceived
            · rcases Multiset.mem_add.mp hpending with hold | hnew
              · exact h.origins d (Multiset.mem_add.mpr (Or.inl hold))
              · exact origin_of_mem_fanoutAll hnew
            · exact h.origins d (Multiset.mem_add.mpr (Or.inr hreceived)) }
  | act c _ => exact ⟨h.outputs, h.origins⟩

theorem Conserved.reaches {wires : List (Wire comp port)}
    {behaviour : Behaviour port content mem}
    {s t : State comp port content mem}
    (hreach : Reaches (Step wires behaviour) s t) (h : Conserved wires s) :
    Conserved wires t := by
  rcases hreach with ⟨events, hrun⟩
  exact hrun.invariant (fun hstep hs => Conserved.step hstep hs) h

theorem conserved_of_nothing_sent (wires : List (Wire comp port))
    {s : State comp port content mem} (hpending : s.pending = 0)
    (hreceived : s.received = 0) (hemitted : forall c, s.emitted c = []) :
    Conserved wires s :=
  { outputs := by
      intro c index
      rw [hpending, hreceived, hemitted]
      rfl
    origins := by
      intro d hd
      rw [hpending, hreceived] at hd
      exact absurd hd (Multiset.notMem_zero d) }

end Dataflow
end Lib
end Protort
