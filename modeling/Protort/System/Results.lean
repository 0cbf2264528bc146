import Protort.Lib.Outcomes
import Protort.Lib.Walks
import Protort.System.Machines
import Protort.System.Transparency

/-!
# The same results everywhere

The components of an application only react to single packets, and what they
make of one depends on the structure in it alone.  So in an application whose
packets do not go round in circles it does not matter to the results which nodes
the components run on, nor in which order tasks run and messages arrive: what the
components receive follows from what the generators emit.
-/

namespace Protort
namespace System

open Lib (Bytes ByteOrder Run Reaches)
open Lib.Dataflow (Meaning Terminates foretold Fresh)
open Terminal (Deployable)
open Components (Component Data Readable)
open Relation (TransGen)

/-!
## How a configuration is meant
-/

def kindOf (cfg : Parser.Configuration) (c : String) :
    Protocol.ComponentKind :=
  ((cfg.components.find? (fun comp => comp.name = c)).bind
    (fun comp => Components.getComponentKind comp.kind)).getD default

def isSource (kind : Protocol.ComponentKind) : Bool :=
  match kind with
  | Protocol.ComponentKind.generator => true
  | Protocol.ComponentKind.timedGenerator => true
  | _ => false

def handsOn (kind : Protocol.ComponentKind) : Bool :=
  match kind with
  | Protocol.ComponentKind.retranslator => true
  | Protocol.ComponentKind.calc => true
  | _ => false

def makes (scale : UInt32 -> UInt32) (cfg : Parser.Configuration) (c : String)
    (inPort : Parser.PortId) (d : Data) : List (Parser.PortId × Data) :=
  made scale (kindOf cfg c) inPort d

def meaning (order : ByteOrder) (scale : UInt32 -> UInt32)
    (cfg : Parser.Configuration) :
    Meaning String Parser.PortId Bytes (Option Memory) Data :=
  { whole := Readable order
    read := readPayload order
    fits := fun c m =>
      forall memory, m = some memory -> memory.kind = kindOf cfg c
    makes := makes scale cfg }

/-- The components that emit by themselves. -/
def sources (cfg : Parser.Configuration) : Finset String :=
  (componentNames cfg).toFinset.filter (fun c => isSource (kindOf cfg c))

section Meanings

variable {order : ByteOrder} {scale : UInt32 -> UInt32} {env : Platform}
  {cfg : Parser.Configuration}

theorem isSource_of_isGenerator {c : Component} (h : c.isGenerator = true) :
    isSource c.kind = true := by
  unfold Component.isGenerator at h
  unfold isSource
  cases hkind : c.kind with
  | generator => rfl
  | timedGenerator => rfl
  | _ =>
      rw [hkind] at h
      cases h

/-- The component objects of a node behave as they are meant to. -/
theorem meaning_explains (order : ByteOrder) (scale : UInt32 -> UInt32)
    (cfg : Parser.Configuration) :
    (meaning order scale cfg).Explains (behaviourOn (Alike order scale))
      (fun c => c ∈ componentNames cfg) (sources cfg) := by
  refine
    { react := ?_
      act := ?_
      silent := ?_ }
  · intro c m inPort payload m' outputs _ hfits hwhole hreact
    rcases hreact with ⟨env, origin, object, henv, rfl, rfl, rfl⟩
    rcases hwhole with ⟨d, hd⟩
    have hkind : object.kind = kindOf cfg c := hfits _ rfl
    rcases process_made henv object inPort hd with ⟨hwhole, hmade⟩
    refine ⟨?_, hwhole, ?_⟩
    · intro memory hmemory
      cases hmemory
      exact hkind
    · show _ = made scale (kindOf cfg c) inPort (readPayload order payload)
      rw [readPayload_of_intact hd, ← hkind]
      exact hmade
  · intro c m m' outputs hc hfits hact
    rcases hact with ⟨env, object, generated, henv, hgen, rfl, rfl, hgenerate,
      rfl⟩
    have hkind : object.kind = kindOf cfg c := hfits _ rfl
    refine ⟨?_, ?_, ?_⟩
    · refine Finset.mem_filter.mpr ⟨List.mem_toFinset.mpr hc, ?_⟩
      rw [← hkind]
      exact isSource_of_isGenerator hgen
    · intro memory hmemory
      cases hmemory
      exact hkind
    · intro output houtput
      rcases Node.payload_of_mem_flatten houtput with ⟨out, hout, heq⟩
      rw [← heq]
      exact ⟨_, Components.generate_intact henv.left hgenerate hout⟩
  · intro c hc inPort d
    have hsource := (Finset.mem_filter.mp hc).right
    show made scale (kindOf cfg c) inPort d = []
    unfold isSource at hsource
    unfold made
    cases hkind : kindOf cfg c with
    | retranslator =>
        rw [hkind] at hsource
        cases hsource
    | «calc» =>
        rw [hkind] at hsource
        cases hsource
    | _ => rfl

end Meanings

/-!
## Applications without circles
-/

def Leads (cfg : Parser.Configuration) (c d : String) : Prop :=
  handsOn (kindOf cfg c) = true ∧
    exists conn, conn ∈ cfg.connections ∧ conn.source = c ∧ conn.dest = d

def Acyclic (cfg : Parser.Configuration) : Prop :=
  forall c, ¬ TransGen (Leads cfg) c c

theorem Acyclic.ends {cfg : Parser.Configuration} (h : Acyclic cfg)
    (scale : UInt32 -> UInt32) :
    Terminates (wires cfg) (makes scale cfg) := by
  have hleads : WellFounded (fun d c => Leads cfg c d) := by
    apply Lib.Walks.wellFounded_of_acyclic
      (cfg.connections.map (fun conn => conn.dest)).toFinset.finite_toSet _ h
    intro c d hlead
    rcases hlead with ⟨_, conn, hconn, _, rfl⟩
    exact Finset.mem_coe.mpr (List.mem_toFinset.mpr
      (List.mem_map_of_mem hconn))
  refine Subrelation.wf ?_ (InvImage.wf (fun a : String × _ => a.1) hleads)
  intro b a hb
  rcases Lib.Dataflow.of_mem_next hb with ⟨hmade, wire, hwire, hsource, hdest⟩
  rcases List.mem_map.mp hwire with ⟨conn, hconn, rfl⟩
  refine ⟨?_, conn, hconn, hsource, hdest⟩
  unfold makes made at hmade
  unfold handsOn
  cases hkind : kindOf cfg a.1 with
  | retranslator => rfl
  | «calc» => rfl
  | _ =>
      rw [hkind] at hmade
      exact absurd rfl hmade

/-!
## Steps on machines that are alike
-/

section Runs

variable {env : Platform} {cfg : Parser.Configuration}
  {peer : Node.Endpoint -> String} {on : Platform -> Prop}
  {order : ByteOrder} {scale : UInt32 -> UInt32} {start sys sys' : Network}
  {move : Move} {moves : List Move}

theorem StepOn.step (h : StepOn on cfg peer sys move sys') :
    Step cfg peer sys move sys' := by
  cases h with
  | run env _ hnode hqueue => exact StepOn.run env trivial hnode hqueue
  | deliver env _ hnode houtbox =>
      exact StepOn.deliver env trivial hnode houtbox
  | start env _ hnode => exact StepOn.start env trivial hnode

/-- What a step is in the graph: of the declared components, on the same
platforms. -/
theorem StepOn.simulated (h : Deployable env cfg)
    (hstep : StepOn on cfg peer sys move sys')
    (hinv : NetworkInv cfg peer sys) :
    Reaches (GraphStepOn on cfg) (graphOf cfg sys) (graphOf cfg sys') := by
  have hone : forall {node : String} {n' : Protort.Node},
      HandledOn on cfg peer sys node (sys node) n' ->
        Reaches (GraphStepOn on cfg) (graphOf cfg sys)
          (graphOf cfg (Function.update sys node n')) := by
    intro node n' hhandled
    have hreach := hhandled.right
    rw [Function.update_eq_self] at hreach
    exact hreach
  cases hstep with
  | run env' henv hnode hqueue =>
      exact hone (handledOn_run henv h hnode (hinv _ hnode) hqueue)
  | deliver env' henv hnode houtbox =>
      rw [(@handled_deliver env env' cfg peer sys _ h hinv hnode _ _ _ houtbox
        _ rfl).right]
      exact Reaches.refl _
  | start env' henv hnode =>
      exact hone (handledOn_start henv h hnode (hinv _ hnode))

theorem runOn_simulated (h : Deployable env cfg)
    (hrun : Run (StepOn on cfg peer) start moves sys)
    (hinv : NetworkInv cfg peer start) :
    NetworkInv cfg peer sys ∧
      Reaches (GraphStepOn on cfg) (graphOf cfg start) (graphOf cfg sys) := by
  have hstep : forall {s : Network} {a : Move} {t : Network},
      StepOn on cfg peer s a t -> NetworkInv cfg peer s ->
        NetworkInv cfg peer t :=
    fun hstep hs => (step_simulated h hstep.step hs).left
  constructor
  · exact hrun.invariant hstep hinv
  · exact hrun.simulated (graphOf cfg) (NetworkInv cfg peer) hstep
      (fun hstep hs => hstep.simulated h hs) hinv

theorem kindOf_declared (h : Deployable env cfg) {comp : Parser.Component}
    (hcomp : comp ∈ cfg.components) {kind : Protocol.ComponentKind}
    (hkind : Components.getComponentKind comp.kind = some kind) :
    kindOf cfg comp.name = kind := by
  have hfind : cfg.components.find?
      (fun other => other.name = comp.name) = some comp := by
    cases hother : cfg.components.find?
        (fun other => other.name = comp.name) with
    | none =>
        have hnone := List.find?_eq_none.mp hother comp hcomp
        exact absurd (decide_eq_true rfl) hnone
    | some other =>
        have hname : other.name = comp.name := by
          simpa using List.find?_some hother
        rw [List.inj_on_of_nodup_map h.componentNames
          (List.mem_of_find?_eq_some hother) hcomp hname]
  unfold kindOf
  rw [hfind]
  simp only [Option.bind_some, hkind, Option.getD_some]

theorem JustStarted.fresh (h : Deployable env cfg)
    (hstart : JustStarted env cfg start) (order : ByteOrder)
    (scale : UInt32 -> UInt32) :
    Fresh (meaning order scale cfg) (fun c => c ∈ componentNames cfg)
      (graphOf cfg start) := by
  have hgraph := hstart.graphStart h
  refine
    { memory := ?_
      pending := hgraph.pending
      routing := hgraph.routing
      emitted := hgraph.emitted
      received := hgraph.received }
  intro c hc memory hmemory
  rcases List.mem_map.mp hc with ⟨comp, hcomp, rfl⟩
  rcases hgraph.memory comp hcomp with ⟨address, kind, hkind, hsome⟩
  rw [hsome] at hmemory
  cases hmemory
  exact (kindOf_declared h hcomp hkind).symm

/-!
## Results
-/

/-- What the components have received: at which input, and which structure. -/
def heard (order : ByteOrder) (cfg : Parser.Configuration) (sys : Network) :
    Multiset (String × Parser.PortId × Data) :=
  (graphOf cfg sys).received.map (fun d =>
    (d.dest, d.inPort, Data.unpack (reader order) d.content))

def uttered (order : ByteOrder) (cfg : Parser.Configuration) (sys : Network)
    (c : String) : Multiset (Parser.PortId × Data) :=
  (((graphOf cfg sys).emitted c).map (fun output =>
    (output.1, Data.unpack (reader order) output.2)) :
      List (Parser.PortId × Data))

def isTurn (task : Node.Task) : Bool :=
  match task with
  | Node.Task.generate _ => true
  | Node.Task.timerWait _ _ => true
  | _ => false

/-- No packet is queued anywhere, or on the way. -/
def AtRest (cfg : Parser.Configuration) (sys : Network) : Prop :=
  forall node, node ∈ nodeNames cfg ->
    (forall task, task ∈ (sys node).service -> isTurn task = true) ∧
      (sys node).outbox = []

theorem sum_turns {item : Type} {service : List Node.Task}
    {f : Node.Task -> Multiset item}
    (hservice : forall task, task ∈ service -> isTurn task = true)
    (hf : forall task, isTurn task = true -> f task = 0) :
    (service.map f).sum = 0 := by
  apply List.sum_eq_zero
  intro x hx
  rcases List.mem_map.mp hx with ⟨task, htask, rfl⟩
  exact hf task (hservice task htask)

theorem AtRest.graph (h : AtRest cfg sys) :
    (graphOf cfg sys).pending = 0 ∧ (graphOf cfg sys).routing = 0 := by
  constructor
  · apply sum_eq_zero
    intro node hnode
    unfold Node.pendingOf
    rw [(h node hnode).right, sum_turns (h node hnode).left]
    · rfl
    · intro task htask
      cases task with
      | generate ref => rfl
      | timerWait ref cancelled => rfl
      | _ => cases htask
  · apply sum_eq_zero
    intro node hnode
    apply sum_turns (h node hnode).left
    intro task htask
    cases task with
    | generate ref => rfl
    | timerWait ref cancelled => rfl
    | _ => cases htask

/-- What was received follows from what the generators have emitted. -/
theorem heard_foretold (h : Deployable env cfg) (hpeer : PeersOf env cfg peer)
    (hacyclic : Acyclic cfg) (hstart : JustStarted env cfg start)
    (hrun : Run (StepOn (Alike order scale) cfg peer) start moves sys) :
    heard order cfg sys <= foretold (hacyclic.ends scale) (sources cfg)
        (uttered order cfg sys) ∧
      (AtRest cfg sys -> heard order cfg sys =
        foretold (hacyclic.ends scale) (sources cfg)
          (uttered order cfg sys)) := by
  have hreach := (runOn_simulated h hrun (hstart.inv hpeer)).right
  have hexplains := meaning_explains order scale cfg
  have hfresh := hstart.fresh h order scale
  have hends : Terminates (wires cfg) (meaning order scale cfg).makes :=
    hacyclic.ends scale
  have hheard : heard order cfg sys =
      (graphOf cfg sys).received.map (meaning order scale cfg).arrival := rfl
  have huttered : uttered order cfg sys =
      Lib.Dataflow.said (meaning order scale cfg) (graphOf cfg sys) := rfl
  rw [hheard, huttered]
  constructor
  · exact Lib.Dataflow.received_le_foretold hends hexplains hfresh hreach
  · intro hrest
    exact Lib.Dataflow.received_eq_foretold hends hexplains hfresh hreach
      hrest.graph.left hrest.graph.right

/-- What follows depends on the graph only. -/
theorem foretold_graph {wires' : List (Lib.Dataflow.Wire String Parser.PortId)}
    {makes' : String -> Parser.PortId -> Data -> List (Parser.PortId × Data)}
    (hwires : wires cfg = wires') (hmakes : makes scale cfg = makes')
    (hends : Terminates (wires cfg) (makes scale cfg))
    (hends' : Terminates wires' makes')
    (among : Finset String)
    (said : String -> Multiset (Parser.PortId × Data)) :
    foretold hends among said = foretold hends' among said := by
  subst hwires hmakes
  rfl

theorem sources_congr {cfg' : Parser.Configuration}
    (hcomponents : cfg'.components = cfg.components) :
    sources cfg' = sources cfg := by
  unfold sources componentNames kindOf
  rw [hcomponents]

theorem Acyclic.congr {cfg' : Parser.Configuration} (h : Acyclic cfg)
    (hcomponents : cfg'.components = cfg.components)
    (hconnections : cfg'.connections = cfg.connections) : Acyclic cfg' := by
  have hleads : Leads cfg' = Leads cfg := by
    unfold Leads kindOf
    rw [hcomponents, hconnections]
  unfold Acyclic
  rw [hleads]
  exact h

/-- Two placements of an application without circles, on machines of any byte
order that multiply alike.  A system that is at rest has received all that
another one has whose generators emitted no more, in whatever order tasks ran
and messages arrived; and two systems at rest whose generators emitted the same
have received the same. -/
theorem results_placement_independent (h : Deployable env cfg)
    (hpeer : PeersOf env cfg peer) (hacyclic : Acyclic cfg)
    (hstart : JustStarted env cfg start)
    (hrun : Run (StepOn (Alike order scale) cfg peer) start moves sys)
    {env' : Platform} {cfg' : Parser.Configuration}
    {peer' : Node.Endpoint -> String} {order' : ByteOrder}
    {start' sys' : Network} {moves' : List Move}
    (hcomponents : cfg'.components = cfg.components)
    (hconnections : cfg'.connections = cfg.connections)
    (h' : Deployable env' cfg') (hpeer' : PeersOf env' cfg' peer')
    (hstart' : JustStarted env' cfg' start')
    (hrun' : Run (StepOn (Alike order' scale) cfg' peer') start' moves' sys') :
    ((forall c, c ∈ sources cfg ->
        uttered order cfg sys c <= uttered order' cfg' sys' c) ->
      AtRest cfg' sys' -> heard order cfg sys <= heard order' cfg' sys') ∧
    ((forall c, c ∈ sources cfg ->
        uttered order cfg sys c = uttered order' cfg' sys' c) ->
      AtRest cfg sys -> AtRest cfg' sys' ->
        heard order cfg sys = heard order' cfg' sys') := by
  have hacyclic' := hacyclic.congr hcomponents hconnections
  rcases heard_foretold h hpeer hacyclic hstart hrun with ⟨hle, heq⟩
  rcases heard_foretold h' hpeer' hacyclic' hstart' hrun' with ⟨_, heq'⟩
  have hsame : foretold (hacyclic'.ends scale) (sources cfg')
      (uttered order' cfg' sys') =
        foretold (hacyclic.ends scale) (sources cfg)
          (uttered order' cfg' sys') := by
    rw [sources_congr hcomponents]
    apply foretold_graph
    · unfold wires
      rw [hconnections]
    · unfold makes kindOf
      rw [hcomponents]
  constructor
  · intro huttered hrest'
    rw [heq' hrest', hsame]
    exact hle.trans (Lib.Dataflow.foretold_mono _ huttered)
  · intro huttered hrest hrest'
    rw [heq hrest, heq' hrest', hsame]
    exact Lib.Dataflow.foretold_congr _ huttered

end Runs

end System
end Protort
