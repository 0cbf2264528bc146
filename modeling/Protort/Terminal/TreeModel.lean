import Mathlib.Data.List.Basic
import Protort.Lib.Runs

/-!
# The tree of nodes and components

The model behind the tree view has one list of nodes, which every Setup
replaces, and a connection to every node that was ever in it, which nothing
undoes.  Its slots look the sender up in the list and take the row that they
find, also the `-1` that says that there is none.
-/

namespace Protort
namespace Terminal

open Lib (Throughout Meets)

/-- The object that an index points to.  A remote node is a number that no other
one has. -/
inductive Item where
  | node (node : Nat)
  | component (node row : Nat)
deriving DecidableEq, Repr

structure ModelIndex where
  row : Int
  column : Nat
  item : Item
deriving DecidableEq, Repr

/-- `connections` has a node once for every time it was connected. -/
structure TreeModel where
  nodes : List Nat
  connections : List Nat
deriving DecidableEq, Repr

namespace TreeModel

def lastColumn : Nat := 9

def new : TreeModel :=
  { nodes := []
    connections := [] }

/-- A setup, and the signals of the remote nodes with the number of components
that each node has at that moment. -/
inductive Event where
  | setupModelData (nodes : List Nat)
  | componentsChanged (sender : Nat) (components : Nat -> Nat)
  | statusChanged (sender : Nat) (components : Nat -> Nat)

def indexOfNode (m : TreeModel) (node : Nat) : Int :=
  match m.nodes.findIdx? (fun x => decide (x = node)) with
  | some i => i
  | none => -1

/-- `none` when the index is out of range. -/
def nodeAt (m : TreeModel) (index : Int) : Option Nat :=
  if 0 <= index then m.nodes[index.toNat]? else none

/-- `RemoteNode::componentAt`, `none` when the index is out of range. -/
def componentAt (components : Nat -> Nat) (node : Nat) (index : Int) :
    Option Item :=
  if 0 <= index ∧ index < components node then
    some (Item.component node index.toNat)
  else
    none

/-- The index of a row, which may be no valid one (the inner `none`).  The
parent of a component is a node, or else an assertion fails. -/
def index (m : TreeModel) (components : Nat -> Nat) (row : Int) (column : Nat)
    (parent : Option ModelIndex) : Option (Option ModelIndex) :=
  if parent.any (fun index => decide (index.column ≠ 0)) then
    some none
  else if m.nodes = [] then
    some none
  else
    match parent with
    | none => (m.nodeAt row).map (fun node => some ⟨row, column, Item.node node⟩)
    | some index =>
        match index.item with
        | Item.node node =>
            (componentAt components node row).map
              (fun item => some ⟨row, column, item⟩)
        | Item.component _ _ => none

/-- The ranges of which a slot says that their data have changed. -/
abbrev Ranges : Type := List (Option ModelIndex × Option ModelIndex)

def onComponentsChanged (m : TreeModel) (components : Nat -> Nat)
    (sender : Nat) : Option Ranges := do
  let parent ← m.index components (m.indexOfNode sender) 0 none
  some [(parent, parent)]

def onStatusChanged (m : TreeModel) (components : Nat -> Nat)
    (sender : Nat) : Option Ranges := do
  let idx := m.indexOfNode sender
  let parentLeft ← m.index components idx 0 none
  let parentRight ← m.index components idx lastColumn none
  if components sender = 0 then
    some [(parentLeft, parentRight)]
  else do
    let topLeft ← m.index components 0 0 parentLeft
    let bottomRight ←
      m.index components (components sender - 1) lastColumn parentLeft
    some [(parentLeft, parentRight), (topLeft, bottomRight)]

def setupModelData (nodes : List Nat) (m : TreeModel) : TreeModel :=
  { nodes := nodes
    connections := m.connections ++ nodes }

/-- A signal calls the slot once for every connection; without one it is not
heard. -/
def step (m : TreeModel) (event : Event) : Option TreeModel :=
  match event with
  | Event.setupModelData nodes => some (m.setupModelData nodes)
  | Event.componentsChanged sender components =>
      if sender ∈ m.connections then
        (m.onComponentsChanged components sender).map (fun _ => m)
      else
        some m
  | Event.statusChanged sender components =>
      if sender ∈ m.connections then
        (m.onStatusChanged components sender).map (fun _ => m)
      else
        some m

def Listed (m : TreeModel) (node : Nat) : Prop :=
  node ∈ m.nodes ∨ m.nodes = []

/-- A signal that is heard comes from a node that is still in the list. -/
def FromListed (m : TreeModel) (event : Event) : Prop :=
  match event with
  | Event.setupModelData _ => True
  | Event.componentsChanged sender _ =>
      sender ∈ m.connections -> m.Listed sender
  | Event.statusChanged sender _ =>
      sender ∈ m.connections -> m.Listed sender

/-!
## Rows of nodes
-/

section Rows

variable {m : TreeModel} {components : Nat -> Nat} {sender : Nat}

theorem index_of_empty (h : m.nodes = []) (row : Int) (column : Nat)
    (parent : Option ModelIndex) :
    m.index components row column parent = some none := by
  unfold index
  rw [if_pos h, ite_self]

theorem index_of_mem (h : sender ∈ m.nodes) (column : Nat) :
    m.index components (m.indexOfNode sender) column none =
      some (some ⟨m.indexOfNode sender, column, Item.node sender⟩) := by
  have hne : m.nodes ≠ [] := List.ne_nil_of_mem h
  have hsome : (m.nodes.findIdx? (fun x => decide (x = sender))).isSome := by
    rw [List.findIdx?_isSome, List.any_eq_true]
    exact ⟨sender, h, decide_eq_true rfl⟩
  rcases Option.isSome_iff_exists.mp hsome with ⟨i, hi⟩
  have hget : m.nodes[i]? = some sender := by
    rcases List.findIdx?_eq_some_iff_getElem.mp hi with ⟨hlt, hfound, _⟩
    rw [List.getElem?_eq_getElem hlt, of_decide_eq_true hfound]
  unfold index indexOfNode nodeAt
  rw [hi]
  simp [hne, hget]

theorem index_of_notMem (h : sender ∉ m.nodes) (hne : m.nodes ≠ [])
    (column : Nat) :
    m.index components (m.indexOfNode sender) column none = none := by
  have hnone : m.nodes.findIdx? (fun x => decide (x = sender)) = none := by
    rw [List.findIdx?_eq_none_iff]
    intro x hx
    rw [decide_eq_false_iff_not]
    intro heq
    exact h (heq ▸ hx)
  unfold index indexOfNode nodeAt
  rw [hnone]
  simp [hne]

theorem index_component (hne : m.nodes ≠ []) (components : Nat -> Nat)
    (sender : Nat) (idx row : Int) (column : Nat)
    (hrow : 0 <= row ∧ row < components sender) :
    m.index components row column (some ⟨idx, 0, Item.node sender⟩) =
      some (some ⟨row, column, Item.component sender row.toNat⟩) := by
  unfold index componentAt
  simp [hne, hrow]

theorem onComponentsChanged_isSome :
    (m.onComponentsChanged components sender).isSome <-> m.Listed sender := by
  unfold onComponentsChanged Listed
  by_cases hempty : m.nodes = []
  · simp [index_of_empty hempty, hempty]
  · by_cases hmem : sender ∈ m.nodes
    · simp [index_of_mem hmem, hmem]
    · simp [index_of_notMem hmem hempty, hmem, hempty]

theorem onStatusChanged_isSome :
    (m.onStatusChanged components sender).isSome <-> m.Listed sender := by
  unfold onStatusChanged Listed
  by_cases hempty : m.nodes = []
  · by_cases hzero : components sender = 0
    · simp [index_of_empty hempty, hempty, hzero]
    · simp [index_of_empty hempty, hempty, hzero]
  · by_cases hmem : sender ∈ m.nodes
    · by_cases hzero : components sender = 0
      · simp [index_of_mem hmem, hmem, hzero]
      · have hfirst := index_component hempty components sender
          (m.indexOfNode sender) 0 0 (by omega)
        have hlast := index_component hempty components sender
          (m.indexOfNode sender) (components sender - 1) lastColumn (by omega)
        simp [index_of_mem hmem, hmem, hzero, hfirst, hlast]
    · simp [index_of_notMem hmem hempty, hmem, hempty]

end Rows

theorem step_isSome_iff (m : TreeModel) (event : Event) :
    (exists m', m.step event = some m' ∧ True) <-> m.FromListed event := by
  simp only [and_true, ← Option.isSome_iff_exists]
  unfold step FromListed
  cases event with
  | setupModelData nodes => exact iff_of_true rfl trivial
  | componentsChanged sender components =>
      by_cases hheard : sender ∈ m.connections
      · simp [hheard, onComponentsChanged_isSome]
      · simp [hheard]
  | statusChanged sender components =>
      by_cases hheard : sender ∈ m.connections
      · simp [hheard, onStatusChanged_isSome]
      · simp [hheard]

/-- No row that the slots take is out of range, exactly when every signal that
the model hears comes from a node of its list or this list is empty. -/
theorem rows_inRange_iff (events : List Event) :
    Throughout step (fun _ _ _ => True) new events <->
      Meets step FromListed new events :=
  @Lib.throughout_iff _ _ step (fun _ _ _ => True) FromListed (fun _ => True)
    (fun _ _ _ => trivial) (fun _ => step_isSome_iff _ _) _ _ trivial

/-- A node is replaced and then gets its last response. -/
theorem replaced_signals :
    ((new.step (Event.setupModelData [1])).bind
      (fun m => m.step (Event.setupModelData [2]))) =
        some { nodes := [2], connections := [1, 2] } ∧
    indexOfNode { nodes := [2], connections := [1, 2] } 1 = -1 ∧
    ¬ Throughout step (fun _ _ _ => True) new
      [Event.setupModelData [1], Event.setupModelData [2],
        Event.statusChanged 1 (fun _ => 0)] := by
  refine ⟨rfl, rfl, ?_⟩
  intro h
  rcases h with ⟨m, hfirst, _, m', hsecond, _, m'', hthird, _⟩
  cases hfirst
  cases hsecond
  cases hthird

end TreeModel

end Terminal
end Protort
