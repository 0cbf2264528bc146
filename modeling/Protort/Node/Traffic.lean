import Protort.Lib.Dataflow
import Protort.Node.Requests

/-!
# Traffic through a node

What the handlers of a node do to the deliveries that pass through it.  A task
or a message stands for deliveries that are pending, a queued `doRoute` for
outputs that are not sent yet; running a component changes its own entry and
nothing else of the table.
-/

namespace Protort
namespace Node

open Lib (Bytes Table Dataflow.Delivery)
open Lib.Exceptions
open Components (Component Output Origin)

abbrev GraphDelivery : Type :=
  Dataflow.Delivery String Parser.PortId Bytes

/-!
## Outputs and their effects
-/

def flatten (outputs : List Output) : List (Parser.PortId × Bytes) :=
  outputs.flatMap (fun output =>
    output.ports.map (fun port => (port, output.payload)))

namespace Router

def emittedAt (r : Router) (c : String) : List (Parser.PortId × Bytes) :=
  (Table.get r.components c).emitted

def objectAt (r : Router) (c : String) : Option Component :=
  (Table.get r.components c).component

def outputEffects (r : Router) (c : String) (index : Nat)
    (output : Parser.PortId × Bytes) : List Effect :=
  let origin : Origin := ⟨(Table.get r.components c).name, index⟩
  (r.routesAt c output.1).localRoutes.map (fun route =>
    Effect.post
      (Task.doProcess ⟨r.address, route.component⟩ (some origin) route.inPort
        output.2)) ++
  (r.routesAt c output.1).remoteRoutes.map (fun route =>
    Effect.send route.client origin
      (communicationPayload (Table.get r.components c).name output.1 route
        output.2))

def allEffects (r : Router) (c : String) :
    Nat -> List (Parser.PortId × Bytes) -> List Effect
  | _, [] => []
  | index, output :: rest =>
      r.outputEffects c index output ++ allEffects r c (index + 1) rest

theorem allEffects_append (r : Router) (c : String) (index : Nat)
    (xs ys : List (Parser.PortId × Bytes)) :
    r.allEffects c index (xs ++ ys) =
      r.allEffects c index xs ++ r.allEffects c (index + xs.length) ys := by
  induction xs generalizing index with
  | nil => rfl
  | cons x rest ih =>
      have hlength : index + (x :: rest).length = index + 1 + rest.length := by
        rw [List.length_cons]
        omega
      rw [List.cons_append, hlength]
      show r.outputEffects c index x ++ r.allEffects c (index + 1) _ =
        (r.outputEffects c index x ++ r.allEffects c (index + 1) rest) ++ _
      rw [ih, List.append_assoc]

/-!
## The table while components run
-/

/-- Two routers with the same entries, routes and clients, whose objects have
changed in their counters and flags at most. -/
structure SameTable (r r' : Router) : Prop where
  address : r'.address = r.address
  started : r'.started = r.started
  clients : r'.clients = r.clients
  mem : forall c, c ∈ r'.components <-> c ∈ r.components
  names : forall c, (Table.get r'.components c).name =
    (Table.get r.components c).name
  routes : forall c p, r'.routesAt c p = r.routesAt c p
  objects : forall c,
    (r'.objectAt c).map viewObject = (r.objectAt c).map viewObject

theorem SameTable.refl (r : Router) : SameTable r r :=
  { address := rfl
    started := rfl
    clients := rfl
    mem := fun _ => Iff.rfl
    names := fun _ => rfl
    routes := fun _ _ => rfl
    objects := fun _ => rfl }

theorem SameTable.trans {r r' r'' : Router} (h : SameTable r r')
    (h' : SameTable r' r'') : SameTable r r'' :=
  { address := h'.address.trans h.address
    started := h'.started.trans h.started
    clients := h'.clients.trans h.clients
    mem := fun c => (h'.mem c).trans (h.mem c)
    names := fun c => (h'.names c).trans (h.names c)
    routes := fun c p => (h'.routes c p).trans (h.routes c p)
    objects := fun c => (h'.objects c).trans (h.objects c) }

theorem SameTable.outputEffects {r r' : Router} (h : SameTable r r')
    (c : String) (index : Nat) (output : Parser.PortId × Bytes) :
    r'.outputEffects c index output = r.outputEffects c index output := by
  unfold Router.outputEffects
  rw [h.address, h.names, h.routes]

theorem SameTable.allEffects {r r' : Router} (h : SameTable r r')
    (c : String) (index : Nat) (outputs : List (Parser.PortId × Bytes)) :
    r'.allEffects c index outputs = r.allEffects c index outputs := by
  induction outputs generalizing index with
  | nil => rfl
  | cons output rest ih =>
      show r'.outputEffects c index output ++ r'.allEffects c (index + 1) rest =
        r.outputEffects c index output ++ r.allEffects c (index + 1) rest
      rw [h.outputEffects, ih]

/-!
## Sending
-/

structure Sent (c : String) (r : Router)
    (outputs : List (Parser.PortId × Bytes)) (result : Router × List Effect) :
    Prop where
  table : SameTable r result.1
  objects : forall c', result.1.objectAt c' = r.objectAt c'
  emitted : forall c', result.1.emittedAt c' =
    if c' = c then r.emittedAt c ++ outputs else r.emittedAt c'
  effects : result.2 = r.allEffects c (r.emittedAt c).length outputs

theorem Sent.nil (c : String) (r : Router) : Sent c r [] (r, []) :=
  { table := SameTable.refl r
    objects := fun _ => rfl
    emitted := by
      intro c'
      by_cases hc : c' = c
      · rw [if_pos hc, hc, List.append_nil]
      · rw [if_neg hc]
    effects := rfl }

theorem Sent.append {c : String} {r r1 r2 : Router} {e1 e2 : List Effect}
    {xs ys : List (Parser.PortId × Bytes)}
    (h1 : Sent c r xs (r1, e1)) (h2 : Sent c r1 ys (r2, e2)) :
    Sent c r (xs ++ ys) (r2, e1 ++ e2) := by
  have hself : r1.emittedAt c = r.emittedAt c ++ xs :=
    (h1.emitted c).trans (if_pos rfl)
  exact
    { table := h1.table.trans h2.table
      objects := fun c' => (h2.objects c').trans (h1.objects c')
      emitted := by
        intro c'
        refine (h2.emitted c').trans ?_
        by_cases hc : c' = c
        · rw [if_pos hc, if_pos hc, hself, List.append_assoc]
        · rw [if_neg hc, if_neg hc]
          exact (h1.emitted c').trans (if_neg hc)
      effects := by
        have he1 : e1 = r.allEffects c (r.emittedAt c).length xs := h1.effects
        have he2 : e2 = r1.allEffects c (r1.emittedAt c).length ys :=
          h2.effects
        rw [he2, h1.table.allEffects, hself, List.length_append, he1]
        exact (allEffects_append r c _ xs ys).symm }

theorem mem_insert_of_mem {r : Router} {c : String} (hc : c ∈ r.components)
    (inst : ComponentInstance) (c' : String) :
    c' ∈ Finmap.insert c inst r.components <-> c' ∈ r.components := by
  rw [Finmap.mem_insert]
  constructor
  · intro hcases
    rcases hcases with rfl | hmem
    · exact hc
    · exact hmem
  · exact Or.inr

theorem routePort_sent (env : Platform) {c : String} {r : Router}
    (hc : c ∈ r.components) (payload : Bytes) (port : Parser.PortId) :
    Sent c r [(port, payload)] (routePort env c payload r port) := by
  have hget : forall c', Table.get
      (routePort env c payload r port).1.components c' =
        if c' = c then
          { Table.get r.components c with
            portToRoutes :=
              Table.touch (Table.get r.components c).portToRoutes port
            emitted := (Table.get r.components c).emitted ++ [(port, payload)] }
        else Table.get r.components c' :=
    fun c' => Table.get_insert r.components c c' _
  exact
    { table :=
        { address := rfl
          started := rfl
          clients := rfl
          mem := mem_insert_of_mem hc _
          names := by
            intro c'
            rw [hget]
            by_cases hc' : c' = c
            · rw [if_pos hc', hc']
            · rw [if_neg hc']
          routes := by
            intro c' p
            unfold routesAt
            rw [hget]
            by_cases hc' : c' = c
            · rw [if_pos hc', hc']
              exact Table.get_touch _ _ _
            · rw [if_neg hc']
          objects := by
            intro c'
            unfold objectAt
            rw [hget]
            by_cases hc' : c' = c
            · rw [if_pos hc', hc']
            · rw [if_neg hc'] }
      objects := by
        intro c'
        unfold objectAt
        rw [hget]
        by_cases hc' : c' = c
        · rw [if_pos hc', hc']
        · rw [if_neg hc']
      emitted := by
        intro c'
        unfold emittedAt
        rw [hget]
        by_cases hc' : c' = c
        · rw [if_pos hc', if_pos hc']
        · rw [if_neg hc', if_neg hc']
      effects := by
        unfold routePort allEffects allEffects outputEffects
        simp only [List.map_map, List.append_nil]
        rfl }

theorem routeOutput_sent (env : Platform) {c : String} {r : Router}
    (hc : c ∈ r.components) (output : Output) :
    Sent c r (output.ports.map (fun port => (port, output.payload)))
      (routeOutput env c output r) := by
  have hstart : Sent c r (([] : List Parser.PortId).map
      (fun port => (port, output.payload))) (r, []) := Sent.nil c r
  have hloop := Lib.Loops.foldl_inv
    (fun front (acc : Router × List Effect) =>
      Sent c r (front.map (fun port => (port, output.payload))) acc)
    (fun front port acc (_ : port ∈ output.ports) hacc => by
      have hmem : c ∈ acc.1.components := (hacc.table.mem c).mpr hc
      have hnext := routePort_sent env hmem output.payload port
      rw [List.map_append]
      exact Sent.append hacc hnext)
    hstart
  exact hloop

/-- A started router sends every output along its routes. -/
theorem doRoute_sent (env : Platform) {c : String} {r : Router}
    (hstarted : r.started = true) (hc : c ∈ r.components)
    (outputs : List Output) :
    Sent c r (flatten outputs) (r.doRoute env c outputs) := by
  unfold doRoute
  rw [if_pos hstarted]
  have hstart : Sent c r (flatten []) (r, []) := Sent.nil c r
  have hloop := Lib.Loops.foldl_inv
    (fun front (acc : Router × List Effect) => Sent c r (flatten front) acc)
    (fun front output acc (_ : output ∈ outputs) hacc => by
      have hmem : c ∈ acc.1.components := (hacc.table.mem c).mpr hc
      have hnext := routeOutput_sent env hmem output
      have hflatten : flatten (front ++ [output]) = flatten front ++
          output.ports.map (fun port => (port, output.payload)) := by
        simp [flatten]
      rw [hflatten]
      exact Sent.append hacc hnext)
    hstart
  exact hloop

/-!
## Components at work
-/

theorem objectAt_setComponent {r : Router} (c : String) (object : Component)
    (c' : String) :
    (Router.setComponent r c object).objectAt c' =
      if c' = c then some object else r.objectAt c' := by
  unfold objectAt Router.setComponent
  rw [Table.get_insert]
  by_cases hc : c' = c
  · rw [if_pos hc, if_pos hc]
  · rw [if_neg hc, if_neg hc]

theorem emittedAt_setComponent {r : Router} (c : String) (object : Component)
    (c' : String) :
    (Router.setComponent r c object).emittedAt c' = r.emittedAt c' := by
  unfold emittedAt Router.setComponent
  rw [Table.get_insert]
  by_cases hc : c' = c
  · rw [if_pos hc, hc]
  · rw [if_neg hc]

theorem setComponent_sameTable {r : Router} {c : String}
    {object object' : Component} (hc : c ∈ r.components)
    (hobject : r.objectAt c = some object)
    (hview : viewObject object' = viewObject object) :
    SameTable r (Router.setComponent r c object') :=
  { address := rfl
    started := rfl
    clients := rfl
    mem := mem_insert_of_mem hc _
    names := by
      intro c'
      unfold Router.setComponent
      rw [Table.get_insert]
      by_cases hc' : c' = c
      · rw [if_pos hc', hc']
      · rw [if_neg hc']
    routes := by
      intro c' p
      unfold routesAt Router.setComponent
      rw [Table.get_insert]
      by_cases hc' : c' = c
      · rw [if_pos hc', hc']
      · rw [if_neg hc']
    objects := by
      intro c'
      rw [objectAt_setComponent]
      by_cases hc' : c' = c
      · rw [if_pos hc', hc', hobject]
        exact congrArg some hview
      · rw [if_neg hc'] }

end Router

theorem findComponent_current {n : Protort.Node} {c : String}
    {object : Component} (hobject : n.router.objectAt c = some object) :
    n.findComponent ⟨n.router.address, c⟩ = some object := by
  unfold findComponent findRouter
  rw [if_pos rfl]
  show ((n.router.components.lookup c).bind _) = _
  unfold Router.objectAt at hobject
  cases hlookup : n.router.components.lookup c with
  | some inst =>
      rw [Table.get_of_lookup hlookup] at hobject
      exact hobject
  | none =>
      rw [Table.get_of_notMem (Finmap.lookup_eq_none.mp hlookup)] at hobject
      cases hobject

theorem updateComponent_current (n : Protort.Node) (c : String)
    (object : Component) :
    n.updateComponent ⟨n.router.address, c⟩ object =
      { n with router := Router.setComponent n.router c object } := by
  unfold updateComponent findRouter
  rw [if_pos rfl]
  show n.updateRouter _ = _
  unfold updateRouter
  exact if_pos rfl

/-!
## Deliveries on a node
-/

def graphOrigin (origin : Option Origin) : Option (String × Nat) :=
  origin.map (fun o => (o.component, o.index))

def taskDeliveries (t : Task) : Multiset GraphDelivery :=
  match t with
  | Task.doProcess ref origin inPort payload =>
      {{ origin := graphOrigin origin
         dest := ref.name
         inPort := inPort
         content := payload }}
  | _ => 0

def taskOutputs (t : Task) :
    Multiset (String × List (Parser.PortId × Bytes)) :=
  match t with
  | Task.doRoute _ (some c) outputs => {(c, flatten outputs)}
  | _ => 0

def messageDelivery (origin : Option Origin) (payload : Protocol.Payload) :
    GraphDelivery :=
  { origin := graphOrigin origin
    dest := payload.asCommunicationPacket.destination.name
    inPort := payload.asCommunicationPacket.destination.port
    content := payload.asCommunicationPacket.payload }

def outgoingDelivery (m : Outgoing) : GraphDelivery :=
  messageDelivery (some m.origin) m.payload

def effectDeliveries (effect : Effect) : Multiset GraphDelivery :=
  match effect with
  | Effect.post t => taskDeliveries t
  | Effect.cancelWaits _ => 0
  | Effect.send _ origin payload => {messageDelivery (some origin) payload}

def effectOutputs (effect : Effect) :
    Multiset (String × List (Parser.PortId × Bytes)) :=
  match effect with
  | Effect.post t => taskOutputs t
  | _ => 0

/-- The deliveries that wait on a node or are on their way from it. -/
def pendingOf (n : Protort.Node) : Multiset GraphDelivery :=
  (n.service.map taskDeliveries).sum +
    (n.outbox.map outgoingDelivery : List GraphDelivery)

def routingOf (n : Protort.Node) :
    Multiset (String × List (Parser.PortId × Bytes)) :=
  (n.service.map taskOutputs).sum

theorem taskDeliveries_cancelWait (ref : ComponentRef) (t : Task) :
    taskDeliveries (cancelWait ref t) = taskDeliveries t := by
  cases t with
  | timerWait component cancelled => rfl
  | _ => rfl

theorem taskOutputs_cancelWait (ref : ComponentRef) (t : Task) :
    taskOutputs (cancelWait ref t) = taskOutputs t := by
  cases t with
  | timerWait component cancelled => rfl
  | _ => rfl

@[simp] theorem router_perform (n : Protort.Node) (effect : Effect) :
    (n.perform effect).router = n.router := by
  cases effect with
  | _ => rfl

theorem pendingOf_perform (n : Protort.Node) (effect : Effect) :
    pendingOf (n.perform effect) = pendingOf n + effectDeliveries effect := by
  cases effect with
  | post t =>
      unfold pendingOf perform effectDeliveries
      simp only [List.map_append, List.map_cons, List.map_nil, List.sum_append,
        List.sum_cons, List.sum_nil, add_zero]
      exact add_right_comm _ _ _
  | cancelWaits ref =>
      unfold pendingOf perform effectDeliveries
      have hmap : taskDeliveries ∘ cancelWait ref = taskDeliveries := by
        funext t
        exact taskDeliveries_cancelWait ref t
      simp only [List.map_map, hmap, add_zero]
  | send client origin payload =>
      unfold pendingOf perform effectDeliveries
      simp only [List.map_append, List.map_cons, List.map_nil,
        ← Multiset.coe_add, add_assoc]
      rfl

theorem routingOf_perform (n : Protort.Node) (effect : Effect) :
    routingOf (n.perform effect) = routingOf n + effectOutputs effect := by
  cases effect with
  | post t =>
      unfold routingOf perform effectOutputs
      simp only [List.map_append, List.map_cons, List.map_nil, List.sum_append,
        List.sum_cons, List.sum_nil, add_zero]
  | cancelWaits ref =>
      unfold routingOf perform effectOutputs
      have hmap : taskOutputs ∘ cancelWait ref = taskOutputs := by
        funext t
        exact taskOutputs_cancelWait ref t
      simp only [List.map_map, hmap, add_zero]
  | send client origin payload =>
      unfold routingOf perform effectOutputs
      rw [add_zero]

@[simp] theorem router_performAll (n : Protort.Node) (effects : List Effect) :
    (n.performAll effects).router = n.router := by
  induction effects generalizing n with
  | nil => rfl
  | cons effect rest ih =>
      exact (ih (n.perform effect)).trans (router_perform n effect)

theorem pendingOf_performAll (n : Protort.Node) (effects : List Effect) :
    pendingOf (n.performAll effects) =
      pendingOf n + (effects.map effectDeliveries).sum := by
  induction effects generalizing n with
  | nil => exact (add_zero _).symm
  | cons effect rest ih =>
      have hrest := ih (n.perform effect)
      rw [pendingOf_perform, add_assoc] at hrest
      exact hrest

theorem routingOf_performAll (n : Protort.Node) (effects : List Effect) :
    routingOf (n.performAll effects) =
      routingOf n + (effects.map effectOutputs).sum := by
  induction effects generalizing n with
  | nil => exact (add_zero _).symm
  | cons effect rest ih =>
      have hrest := ih (n.perform effect)
      rw [routingOf_perform, add_assoc] at hrest
      exact hrest

theorem routing_allEffects (r : Router) (c : String) (index : Nat)
    (outputs : List (Parser.PortId × Bytes)) :
    ((r.allEffects c index outputs).map effectOutputs).sum = 0 := by
  induction outputs generalizing index with
  | nil => rfl
  | cons output rest ih =>
      unfold Router.allEffects
      rw [List.map_append, List.sum_append, ih, add_zero]
      unfold Router.outputEffects
      rw [List.map_append, List.sum_append, List.map_map, List.map_map]
      have hposts : (effectOutputs ∘ fun route : LocalRoute =>
          Effect.post (Task.doProcess ⟨r.address, route.component⟩
            (some ⟨(Table.get r.components c).name, index⟩) route.inPort
              output.2)) = fun _ => 0 := rfl
      have hsends : (effectOutputs ∘ fun route : RemoteRoute =>
          Effect.send route.client
            ⟨(Table.get r.components c).name, index⟩
            (Router.communicationPayload (Table.get r.components c).name
              output.1 route output.2)) = fun _ => 0 := rfl
      rw [hposts, hsends]
      simp

end Node
end Protort
