import Mathlib.Algebra.Order.BigOperators.Group.Finset
import Mathlib.Data.Multiset.Bind
import Mathlib.Tactic.Abel
import Protort.Lib.Dataflow

/-!
# Outcomes of dataflow graphs

In a graph whose components only react to single contents, and in which no
content goes on for ever, what is received in the end does not depend on the
order of the steps.  The contents may differ from run to run as long as they are
read as the same values.

Some components are sources: they emit by themselves and make nothing of what
they receive.  Every value that arrives at an input has an outcome, itself and
all that follows from it.  What has been received, together with the outcomes of
what is on its way, is the outcome of what the sources have emitted.
-/

namespace Protort
namespace Lib
namespace Dataflow

universe u v w x y

variable {comp : Type u} {port : Type v} {content : Type w} {mem : Type x}
  {value : Type y}

abbrev Arrival (comp : Type u) (port : Type v) (value : Type y) : Type _ :=
  comp × port × value

/-- How contents are read, which memories belong to a component, and what it
makes of a value. -/
structure Meaning (comp : Type u) (port : Type v) (content : Type w)
    (mem : Type x) (value : Type y) where
  whole : content -> Prop
  read : content -> value
  fits : comp -> mem -> Prop
  makes : comp -> port -> value -> List (port × value)

namespace Meaning

variable (M : Meaning comp port content mem value)

def readOutput (output : port × content) : port × value :=
  (output.1, M.read output.2)

def arrival (d : Delivery comp port content) : Arrival comp port value :=
  (d.dest, d.inPort, M.read d.content)

/-- Some of the components behave as they are meant to, and those of them that
act by themselves are sources. -/
structure Explains (behaviour : Behaviour port content mem)
    (among : comp -> Prop) (sources : Finset comp) : Prop where
  react : forall {c m p message m' outputs}, among c -> M.fits c m ->
    M.whole message -> behaviour.react m p message m' outputs ->
      M.fits c m' ∧
      (forall output, output ∈ outputs.getD [] -> M.whole output.2) ∧
      (outputs.getD []).map M.readOutput = M.makes c p (M.read message)
  act : forall {c m m' outputs}, among c -> M.fits c m ->
    behaviour.act m m' outputs ->
      c ∈ sources ∧ M.fits c m' ∧
        forall output, output ∈ outputs -> M.whole output.2
  silent : forall {c}, c ∈ sources -> forall p v, M.makes c p v = []

end Meaning

/-!
## Arrivals
-/

section Arrivals

variable [DecidableEq comp] [DecidableEq port]

def arrivals (wires : List (Wire comp port)) (c : comp)
    (output : port × value) : Multiset (Arrival comp port value) :=
  ((wires.filter (fun wire => decide (wire.source = c ∧
    wire.sourcePort = output.1))).map (fun wire =>
      (wire.dest, wire.destPort, output.2)) : List (Arrival comp port value))

def sends (wires : List (Wire comp port)) (c : comp)
    (outputs : Multiset (port × value)) :
    Multiset (Arrival comp port value) :=
  outputs.bind (arrivals wires c)

variable {wires : List (Wire comp port)} {c : comp}

theorem sends_add (xs ys : Multiset (port × value)) :
    sends wires c (xs + ys) = sends wires c xs + sends wires c ys :=
  Multiset.add_bind _ _ _

theorem mem_arrivals {output : port × value} {a : Arrival comp port value}
    (h : a ∈ arrivals wires c output) :
    exists wire, wire ∈ wires ∧ wire.source = c ∧ wire.dest = a.1 := by
  rcases List.mem_map.mp (Multiset.mem_coe.mp h) with ⟨wire, hwire, rfl⟩
  rcases List.mem_filter.mp hwire with ⟨hmem, hsource⟩
  exact ⟨wire, hmem, (of_decide_eq_true hsource).left, rfl⟩

theorem map_fanoutAll (M : Meaning comp port content mem value) (index : Nat)
    (outputs : List (port × content)) :
    (fanoutAll wires c index outputs).map M.arrival =
      sends wires c (outputs.map M.readOutput) := by
  induction outputs generalizing index with
  | nil => rfl
  | cons output rest ih =>
      have hfirst : (fanout wires c index output.1 output.2).map M.arrival =
          arrivals wires c (M.readOutput output) := by
        unfold fanout arrivals
        rw [Multiset.map_coe, List.map_map]
        rfl
      unfold sends at ih ⊢
      rw [fanoutAll, Multiset.map_add, hfirst, ih, List.map_cons,
        ← Multiset.cons_coe, Multiset.cons_bind]

theorem content_of_mem_fanoutAll {index : Nat}
    {outputs : List (port × content)} {d : Delivery comp port content}
    (h : d ∈ fanoutAll wires c index outputs) :
    exists output, output ∈ outputs ∧ output.2 = d.content := by
  induction outputs generalizing index with
  | nil => exact absurd h (Multiset.notMem_zero d)
  | cons output rest ih =>
      rcases Multiset.mem_add.mp h with hfirst | hrest
      · rcases List.mem_map.mp (Multiset.mem_coe.mp hfirst) with
          ⟨wire, _, rfl⟩
        exact ⟨output, List.mem_cons_self, rfl⟩
      · rcases ih hrest with ⟨other, hother, hcontent⟩
        exact ⟨other, List.mem_cons_of_mem output hother, hcontent⟩

/-!
## Outcomes
-/

def next (wires : List (Wire comp port))
    (makes : comp -> port -> value -> List (port × value))
    (a : Arrival comp port value) : Multiset (Arrival comp port value) :=
  sends wires a.1 (makes a.1 a.2.1 a.2.2)

/-- No content goes on for ever. -/
abbrev Terminates (wires : List (Wire comp port))
    (makes : comp -> port -> value -> List (port × value)) : Prop :=
  WellFounded (fun b a => b ∈ next wires makes a)

variable {makes : comp -> port -> value -> List (port × value)}

theorem of_mem_next {a b : Arrival comp port value}
    (h : b ∈ next wires makes a) :
    makes a.1 a.2.1 a.2.2 ≠ [] ∧
      exists wire, wire ∈ wires ∧ wire.source = a.1 ∧ wire.dest = b.1 := by
  unfold next sends at h
  rcases Multiset.mem_bind.mp h with ⟨output, houtput, hb⟩
  exact ⟨List.ne_nil_of_mem (Multiset.mem_coe.mp houtput), mem_arrivals hb⟩

/-- An arrival and all that follows from it. -/
noncomputable def outcome (h : Terminates wires makes)
    (a : Arrival comp port value) : Multiset (Arrival comp port value) :=
  h.fix (fun a outcomes =>
    a ::ₘ (next wires makes a).attach.bind (fun b => outcomes b.1 b.2)) a

variable (h : Terminates wires makes)

theorem outcome_eq (a : Arrival comp port value) :
    outcome h a = a ::ₘ (next wires makes a).bind (outcome h) := by
  unfold outcome
  rw [WellFounded.fix_eq, Multiset.attach_bind_coe]

/-- What follows from all that the sources have said. -/
noncomputable def foretold (sources : Finset comp)
    (said : comp -> Multiset (port × value)) :
    Multiset (Arrival comp port value) :=
  sources.sum (fun c => (sends wires c (said c)).bind (outcome h))

theorem foretold_mono {sources : Finset comp}
    {said said' : comp -> Multiset (port × value)}
    (hsaid : forall c, c ∈ sources -> said c <= said' c) :
    foretold h sources said <= foretold h sources said' := by
  apply Finset.sum_le_sum
  intro c hc
  rcases Multiset.le_iff_exists_add.mp (hsaid c hc) with ⟨more, hmore⟩
  rw [hmore, sends_add, Multiset.add_bind]
  exact Multiset.le_add_right _ _

theorem foretold_congr {sources : Finset comp}
    {said said' : comp -> Multiset (port × value)}
    (hsaid : forall c, c ∈ sources -> said c = said' c) :
    foretold h sources said = foretold h sources said' := by
  apply Finset.sum_congr rfl
  intro c hc
  rw [hsaid c hc]

end Arrivals

/-!
## Steps
-/

section Steps

variable {M : Meaning comp port content mem value} {among : comp -> Prop}
  {sources : Finset comp} {behaviour : Behaviour port content mem}
  {s t : State comp port content mem} {e : Event comp port content}

structure Meant (M : Meaning comp port content mem value)
    (among : comp -> Prop) (s : State comp port content mem) : Prop where
  memory : forall c, among c -> M.fits c (s.memory c)
  pending : forall d, d ∈ s.pending -> M.whole d.content
  routing : forall r, r ∈ s.routing -> forall output, output ∈ r.2 ->
    M.whole output.2

structure Fresh (M : Meaning comp port content mem value)
    (among : comp -> Prop) (s : State comp port content mem) : Prop where
  memory : forall c, among c -> M.fits c (s.memory c)
  pending : s.pending = 0
  routing : s.routing = 0
  emitted : forall c, s.emitted c = []
  received : s.received = 0

theorem Fresh.meant (h : Fresh M among s) : Meant M among s := by
  refine
    { memory := h.memory
      pending := ?_
      routing := ?_ }
  · intro d hd
    rw [h.pending] at hd
    exact absurd hd (Multiset.notMem_zero d)
  · intro r hr
    rw [h.routing] at hr
    exact absurd hr (Multiset.notMem_zero r)

variable [DecidableEq comp]

theorem Meant.update (h : Meant M among s) {c : comp} {l : mem}
    (hl : M.fits c l) (c' : comp) (hc' : among c') :
    M.fits c' (Function.update s.memory c l c') := by
  by_cases hc : c' = c
  · subst c'
    rw [Function.update_self]
    exact hl
  · rw [Function.update_of_ne hc]
    exact h.memory c' hc'

variable [DecidableEq port] {wires : List (Wire comp port)}

theorem Meant.step (h : Meant M among s)
    (hexplains : M.Explains behaviour among sources)
    (hstep : StepsOf among (Step wires behaviour) s e t) :
    Meant M among t := by
  rcases e with d | ⟨c, outputs⟩ | c
  · rcases hstep with ⟨hd, hstep⟩
    cases hstep with
    | @deliver l outputs d rest hpending hreact =>
        have hwhole : M.whole d.content := by
          apply h.pending
          rw [hpending]
          exact Multiset.mem_cons_self d rest
        rcases hexplains.react hd (h.memory _ hd) hwhole hreact with
          ⟨hfits, houtputs, _⟩
        refine
          { memory := h.update hfits
            pending := ?_
            routing := ?_ }
        · intro d' hd'
          apply h.pending
          rw [hpending]
          exact Multiset.mem_cons_of_mem hd'
        · intro r hr
          rcases Multiset.mem_add.mp hr with hold | hnew
          · exact h.routing r hold
          · cases outputs with
            | none => exact absurd hnew (Multiset.notMem_zero r)
            | some outputs =>
                rw [Multiset.mem_singleton.mp hnew]
                exact houtputs
  · rcases hstep with ⟨hc, hstep⟩
    cases hstep with
    | route c outputs rest hrouting =>
        have hwhole := h.routing (c, outputs) (by
          rw [hrouting]
          exact Multiset.mem_cons_self _ rest)
        refine
          { memory := h.memory
            pending := ?_
            routing := ?_ }
        · intro d hd
          rcases Multiset.mem_add.mp hd with hold | hnew
          · exact h.pending d hold
          · rcases content_of_mem_fanoutAll hnew with
              ⟨output, houtput, hcontent⟩
            rw [← hcontent]
            exact hwhole output houtput
        · intro r hr
          apply h.routing
          rw [hrouting]
          exact Multiset.mem_cons_of_mem hr
  · rcases hstep with ⟨hc, hstep⟩
    cases hstep with
    | @act l outputs c hact =>
        rcases hexplains.act hc (h.memory c hc) hact with
          ⟨_, hfits, houtputs⟩
        refine
          { memory := h.update hfits
            pending := h.pending
            routing := ?_ }
        intro r hr
        rcases Multiset.mem_cons.mp hr with rfl | hold
        · exact houtputs
        · exact h.routing r hold

def said (M : Meaning comp port content mem value)
    (s : State comp port content mem) (c : comp) : Multiset (port × value) :=
  ((s.emitted c).map M.readOutput : List (port × value))

/-- What the outputs of other components than sources lead to. -/
def underway (M : Meaning comp port content mem value)
    (wires : List (Wire comp port)) (sources : Finset comp)
    (routing : Multiset (comp × List (port × content))) :
    Multiset (Arrival comp port value) :=
  (routing.filter (fun r => r.1 ∉ sources)).bind (fun r =>
    sends wires r.1 (r.2.map M.readOutput))

variable (hends : Terminates wires M.makes)

/-- What is received, and what will be from what is on its way. -/
noncomputable def expected (sources : Finset comp)
    (s : State comp port content mem) : Multiset (Arrival comp port value) :=
  s.received.map M.arrival + (s.pending.map M.arrival).bind (outcome hends) +
    (underway M wires sources s.routing).bind (outcome hends)

theorem underway_cons_source {c : comp} (hc : c ∈ sources)
    (outputs : List (port × content))
    (rest : Multiset (comp × List (port × content))) :
    underway M wires sources ((c, outputs) ::ₘ rest) =
      underway M wires sources rest := by
  have hfilter : ((c, outputs) ::ₘ rest).filter (fun r => r.1 ∉ sources) =
      rest.filter (fun r => r.1 ∉ sources) :=
    Multiset.filter_cons_of_neg _ (fun hnot => hnot hc)
  unfold underway
  rw [hfilter]

theorem underway_cons {c : comp} (hc : c ∉ sources)
    (outputs : List (port × content))
    (rest : Multiset (comp × List (port × content))) :
    underway M wires sources ((c, outputs) ::ₘ rest) =
      sends wires c (outputs.map M.readOutput) +
        underway M wires sources rest := by
  have hfilter : ((c, outputs) ::ₘ rest).filter (fun r => r.1 ∉ sources) =
      (c, outputs) ::ₘ rest.filter (fun r => r.1 ∉ sources) :=
    Multiset.filter_cons_of_pos _ hc
  unfold underway
  rw [hfilter, Multiset.cons_bind]

theorem underway_queued
    (hsilent : forall {c}, c ∈ sources -> forall p v, M.makes c p v = [])
    {c : comp} {p : port} {message : content}
    {outputs : Option (List (port × content))}
    (hmakes : (outputs.getD []).map M.readOutput =
      M.makes c p (M.read message))
    (routing : Multiset (comp × List (port × content))) :
    underway M wires sources (routing + queued c outputs) =
      underway M wires sources routing +
        next wires M.makes (c, p, M.read message) := by
  unfold next
  rw [← hmakes]
  cases outputs with
  | none =>
      have hsame : routing + queued c (none : Option (List (port × content))) =
          routing := add_zero routing
      rw [hsame]
      exact (add_zero _).symm
  | some outputs =>
      have hcons : routing + queued c (some outputs) =
          (c, outputs) ::ₘ routing := by
        rw [add_comm]
        exact Multiset.singleton_add _ _
      rw [hcons]
      by_cases hc : c ∈ sources
      · have hnone : outputs.map M.readOutput = [] :=
          hmakes.trans (hsilent hc p (M.read message))
        rw [underway_cons_source hc, Option.getD_some, hnone]
        exact (add_zero _).symm
      · rw [underway_cons hc, Option.getD_some, add_comm]

theorem expected_step (h : Meant M among s)
    (hexplains : M.Explains behaviour among sources)
    (hstep : StepsOf among (Step wires behaviour) s e t)
    (hbalance : expected hends sources s =
      foretold hends sources (said M s)) :
    expected hends sources t = foretold hends sources (said M t) := by
  rcases e with d | ⟨c, outputs⟩ | c
  · rcases hstep with ⟨hd, hstep⟩
    cases hstep with
    | @deliver l outputs d rest hpending hreact =>
        have hwhole : M.whole d.content := by
          apply h.pending
          rw [hpending]
          exact Multiset.mem_cons_self d rest
        rcases hexplains.react hd (h.memory _ hd) hwhole hreact with
          ⟨_, _, hmakes⟩
        refine Eq.trans ?_ hbalance
        unfold expected
        simp only [hpending, Multiset.map_cons, Multiset.cons_bind]
        rw [underway_queued hexplains.silent hmakes, Multiset.add_bind,
          outcome_eq hends (M.arrival d), ← Multiset.singleton_add,
          ← Multiset.singleton_add (M.arrival d)]
        unfold Meaning.arrival
        abel
  · rcases hstep with ⟨hc, hstep⟩
    cases hstep with
    | route c outputs rest hrouting =>
        unfold expected at hbalance ⊢
        rw [hrouting] at hbalance
        simp only [Multiset.map_add, map_fanoutAll, Multiset.add_bind]
        by_cases hsource : c ∈ sources
        · rw [underway_cons_source hsource] at hbalance
          have hsaid : foretold hends sources (said M
              { s with
                emitted := Function.update s.emitted c
                  (s.emitted c ++ outputs) }) =
              foretold hends sources (said M s) +
                (sends wires c (outputs.map M.readOutput)).bind
                  (outcome hends) := by
            unfold foretold said
            simp only
            rw [← Finset.sum_erase_add _ _ hsource,
              ← Finset.sum_erase_add _ _ hsource, Function.update_self,
              List.map_append, ← Multiset.coe_add, sends_add,
              Multiset.add_bind, add_assoc]
            congr 1
            apply Finset.sum_congr rfl
            intro c' hc'
            rw [Function.update_of_ne (Finset.ne_of_mem_erase hc')]
          refine Eq.trans ?_ hsaid.symm
          rw [← hbalance]
          abel
        · rw [underway_cons hsource, Multiset.add_bind] at hbalance
          have hsaid : foretold hends sources (said M
              { s with
                emitted := Function.update s.emitted c
                  (s.emitted c ++ outputs) }) =
              foretold hends sources (said M s) := by
            apply foretold_congr
            intro c' hc'
            unfold said
            have hne : c' ≠ c := fun heq => hsource (heq ▸ hc')
            simp only [Function.update_of_ne hne]
          refine Eq.trans ?_ hsaid.symm
          rw [← hbalance]
          abel
  · rcases hstep with ⟨hc, hstep⟩
    cases hstep with
    | @act l outputs c hact =>
        rcases hexplains.act hc (h.memory c hc) hact with ⟨hsource, _, _⟩
        refine Eq.trans ?_ hbalance
        unfold expected
        rw [underway_cons_source hsource]

theorem Fresh.balance (h : Fresh M among s) :
    expected hends sources s = foretold hends sources (said M s) := by
  unfold expected foretold said underway
  rw [h.received, h.pending, h.routing, Finset.sum_eq_zero]
  · rfl
  · intro c _
    rw [h.emitted]
    rfl

/-- What was received, with what follows from what is on its way, is what
follows from what the sources have said. -/
theorem expected_of_reaches (hexplains : M.Explains behaviour among sources)
    (h : Fresh M among s)
    (hreach : Reaches (StepsOf among (Step wires behaviour)) s t) :
    Meant M among t ∧
      expected hends sources t = foretold hends sources (said M t) := by
  rcases hreach with ⟨events, hrun⟩
  refine @Run.invariant _ _ _ (fun s => Meant M among s ∧
    expected hends sources s = foretold hends sources (said M s)) _ _ _ hrun
      ?_ ⟨h.meant, h.balance hends⟩
  intro s e t hstep hs
  exact ⟨hs.left.step hexplains hstep,
    expected_step hends hs.left hexplains hstep hs.right⟩

theorem received_le_foretold (hexplains : M.Explains behaviour among sources)
    (h : Fresh M among s)
    (hreach : Reaches (StepsOf among (Step wires behaviour)) s t) :
    t.received.map M.arrival <= foretold hends sources (said M t) := by
  rw [← (expected_of_reaches hends hexplains h hreach).right]
  unfold expected
  rw [add_assoc]
  exact Multiset.le_add_right _ _

theorem received_eq_foretold (hexplains : M.Explains behaviour among sources)
    (h : Fresh M among s)
    (hreach : Reaches (StepsOf among (Step wires behaviour)) s t)
    (hpending : t.pending = 0) (hrouting : t.routing = 0) :
    t.received.map M.arrival = foretold hends sources (said M t) := by
  rw [← (expected_of_reaches hends hexplains h hreach).right]
  unfold expected underway
  rw [hpending, hrouting, Multiset.map_zero, Multiset.zero_bind,
    Multiset.filter_zero, Multiset.zero_bind, Multiset.zero_bind, add_zero,
    add_zero]

/-!
## Without new emissions
-/

theorem card_le_outcomes (xs : Multiset (Arrival comp port value)) :
    xs.card <= (xs.bind (outcome hends)).card := by
  induction xs using Multiset.induction with
  | empty => exact Nat.zero_le _
  | cons a xs ih =>
      rw [Multiset.card_cons, Multiset.cons_bind, Multiset.card_add,
        outcome_eq hends a, Multiset.card_cons]
      omega

theorem card_le_expected (s : State comp port content mem) :
    s.received.card + s.pending.card <= (expected hends ∅ s).card := by
  have hpending := card_le_outcomes hends (s.pending.map M.arrival)
  unfold expected
  rw [Multiset.card_map] at hpending
  rw [Multiset.card_add, Multiset.card_add, Multiset.card_map]
  omega

/-- As long as no component acts by itself, what is expected stays the same. -/
theorem expected_kept (h : Meant M among s)
    (hexplains : M.Explains behaviour among sources)
    (hstep : StepsOf among (Step wires behaviour) s e t)
    (he : forall c, e ≠ Event.act c) :
    expected hends ∅ t = expected hends ∅ s := by
  rcases e with d | ⟨c, outputs⟩ | c
  · rcases hstep with ⟨hd, hstep⟩
    cases hstep with
    | @deliver l outputs d rest hpending hreact =>
        have hwhole : M.whole d.content := by
          apply h.pending
          rw [hpending]
          exact Multiset.mem_cons_self d rest
        rcases hexplains.react hd (h.memory _ hd) hwhole hreact with
          ⟨_, _, hmakes⟩
        unfold expected
        simp only [hpending, Multiset.map_cons, Multiset.cons_bind]
        rw [underway_queued (fun hnone => absurd hnone (Finset.notMem_empty _))
            hmakes, Multiset.add_bind, outcome_eq hends (M.arrival d),
          ← Multiset.singleton_add, ← Multiset.singleton_add (M.arrival d)]
        unfold Meaning.arrival
        abel
  · rcases hstep with ⟨_, hstep⟩
    cases hstep with
    | route c outputs rest hrouting =>
        unfold expected
        rw [hrouting, underway_cons (Finset.notMem_empty c), Multiset.add_bind]
        simp only [Multiset.map_add, map_fanoutAll, Multiset.add_bind]
        abel
  · exact absurd rfl (he c)

end Steps

end Dataflow
end Lib
end Protort
