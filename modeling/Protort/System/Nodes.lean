import Mathlib.Logic.Function.Basic
import Protort.Node.Counting

/-!
# Nodes that work together

Any number of nodes, each with a client for every node that it sends to.  A
node handles a request or runs a queued task, or a message of its outbox reaches
the node that its client is connected to; all in any order.
-/

namespace Protort
namespace System

namespace Nodes

universe u

variable {ι : Type u} [DecidableEq ι]

inductive Event (ι : Type u) where
  | node (x : ι) (event : Node.Event)
  | deliver (env : Platform) (x : ι) (index : Nat)

def ownPlatform (event : Node.Event) : Platform :=
  match event with
  | Node.Event.request env _ => env
  | Node.Event.message env _ _ => env
  | Node.Event.run env _ => env

def Event.platform (event : Event ι) : Platform :=
  match event with
  | Event.node _ event => ownPlatform event
  | Event.deliver env _ _ => env

/-- Whether an event is one of a node alone: messages only come from nodes. -/
def isLocal (event : Node.Event) : Bool :=
  match event with
  | Node.Event.request _ _ => true
  | Node.Event.message _ _ _ => false
  | Node.Event.run _ _ => true

def isOwn (event : Node.Event) : Bool :=
  match event with
  | Node.Event.request _ _ => !event.isDeployment
  | Node.Event.message _ _ _ => false
  | Node.Event.run _ _ => true

def withoutMessage (n : Protort.Node) (index : Nat) : Protort.Node :=
  { n with outbox := n.outbox.eraseIdx index }

/-- The nodes after an event, where `peer` says which node a client of a node is
connected to, and the nodes have only allowed events of their own. -/
def move (allowed : Node.Event -> Bool) (peer : ι -> Node.Client -> Option ι)
    (sys : ι -> Protort.Node) (event : Event ι) : Option (ι -> Protort.Node) :=
  match event with
  | Event.node x event =>
      if allowed event then
        (Node.step (sys x) event).map (Function.update sys x)
      else
        none
  | Event.deliver env x index =>
      match (sys x).outbox[index]? with
      | some m =>
          match peer x m.client with
          | some y =>
              let taken :=
                Function.update sys x (withoutMessage (sys x) index)
              (Node.step (taken y)
                (Node.Event.message env (some m.origin) m.payload)).map
                  (Function.update taken y)
          | none => none
      | none => none

/-- The nodes after an event when none of them is deployed again. -/
def step (peer : ι -> Node.Client -> Option ι) (sys : ι -> Protort.Node)
    (event : Event ι) : Option (ι -> Protort.Node) :=
  move isOwn peer sys event

inductive Moves (allowed : Node.Event -> Bool)
    (peer : ι -> Node.Client -> Option ι) (sys : ι -> Protort.Node) :
    Event ι -> (ι -> Protort.Node) -> Prop where
  | node {x : ι} {event : Node.Event} {n : Protort.Node} :
      allowed event = true -> Node.step (sys x) event = some n ->
      Moves allowed peer sys (Event.node x event) (Function.update sys x n)
  | deliver {env : Platform} {x y : ι} {index : Nat} {m : Node.Outgoing}
      {n : Protort.Node} :
      (sys x).outbox[index]? = some m -> peer x m.client = some y ->
      Node.step (Function.update sys x (withoutMessage (sys x) index) y)
        (Node.Event.message env (some m.origin) m.payload) = some n ->
      Moves allowed peer sys (Event.deliver env x index)
        (Function.update
          (Function.update sys x (withoutMessage (sys x) index)) y n)

variable {allowed : Node.Event -> Bool} {peer : ι -> Node.Client -> Option ι}
  {sys sys' : ι -> Protort.Node} {event : Event ι}

theorem moves_of_move (h : move allowed peer sys event = some sys') :
    Moves allowed peer sys event sys' := by
  cases event with
  | node x event =>
      rcases Option.ite_none_right_eq_some.mp h with ⟨hown, hstep⟩
      rcases Option.map_eq_some_iff.mp hstep with ⟨n, hn, rfl⟩
      exact Moves.node hown hn
  | deliver env x index =>
      unfold move at h
      simp only at h
      cases hm : (sys x).outbox[index]? with
      | none =>
          rw [hm] at h
          cases h
      | some m =>
          rw [hm] at h
          simp only at h
          cases hy : peer x m.client with
          | none =>
              rw [hy] at h
              cases h
          | some y =>
              rw [hy] at h
              rcases Option.map_eq_some_iff.mp h with ⟨n, hn, rfl⟩
              exact Moves.deliver hm hy hn

theorem kept_of_isOwn {event : Node.Event} (h : isOwn event = true) :
    event.isDeployment = false := by
  cases event with
  | request env payload => exact Bool.not_eq_true' _ ▸ h
  | message env origin payload => cases h
  | run env index => rfl

theorem consistent_withoutMessage {n : Protort.Node} (h : n.Consistent)
    (index : Nat) : (withoutMessage n index).Consistent :=
  { sound :=
      { numbered := h.sound.numbered
        routers := h.sound.routers
        tasks := h.sound.tasks }
    oldStopped := h.oldStopped }

theorem forall_update {P : Protort.Node -> Prop} (h : forall z, P (sys z))
    {x : ι} {n : Protort.Node} (hn : P n) (z : ι) :
    P (Function.update sys x n z) := by
  by_cases hz : z = x
  · subst z
    rw [Function.update_self]
    exact hn
  · rw [Function.update_of_ne hz]
    exact h z

theorem move_consistent (hmove : move allowed peer sys event = some sys')
    (h : forall z, (sys z).Consistent) (z : ι) : (sys' z).Consistent := by
  cases moves_of_move hmove with
  | @node x event n hown hn =>
      exact forall_update h (Node.step_consistent hn (h x)) z
  | @deliver env x y index m n hm hy hn =>
      have htaken := forall_update h
        (consistent_withoutMessage (h x) index) (x := x)
      exact forall_update htaken (Node.step_consistent hn (htaken y)) z

end Nodes

end System
end Protort
