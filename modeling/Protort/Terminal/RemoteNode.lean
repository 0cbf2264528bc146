import Protort.Lib.Runs
import Protort.Protocol.Messages

/-!
# A remote node

What the terminal shows of a node: the counters and the components of the last
status response, and the speeds since the one before.  The list of the
components is made when the first response comes that has any, and never again;
later responses are written into it index by index.
-/

namespace Protort
namespace Terminal

open Lib (Throughout Meets)
open Protocol.Deploy (ComponentStatus)

abbrev TimeOfDay : Type := Fin 86400000

structure RemoteComponent where
  name : String
  packetsReceived : UInt32
  packetsSent : UInt32
deriving DecidableEq, Repr, Inhabited

/-- The operands of the division that gives a speed. -/
structure Quotient where
  bytes : UInt32
  msecs : Int
deriving DecidableEq, Repr

/-- A time that is not set is null, and a speed that is no quotient is zero. -/
structure RemoteNode where
  uptime : UInt32
  packetsReceived : UInt32
  bytesReceived : UInt32
  packetsSent : UInt32
  bytesSent : UInt32
  downSpeed : Option Quotient
  upSpeed : Option Quotient
  isConnected : Bool
  components : List RemoteComponent
  lastStatusTime : Option TimeOfDay
deriving DecidableEq, Repr

namespace RemoteNode

def new : RemoteNode :=
  { uptime := 0
    packetsReceived := 0
    bytesReceived := 0
    packetsSent := 0
    bytesSent := 0
    downSpeed := none
    upSpeed := none
    isConnected := false
    components := []
    lastStatusTime := none }

/-- What a remote node tells the models that are connected to it. -/
inductive Signal where
  | componentsChanged
  | statusChanged
deriving DecidableEq, Repr

def msecsTo (time now : TimeOfDay) : Int :=
  (now.val : Int) - time.val

def calcSpeed (lastStatusTime : Option TimeOfDay) (now : TimeOfDay)
    (lastBytes nowBytes : UInt32) : Option Quotient :=
  lastStatusTime.map (fun time =>
    { bytes := nowBytes - lastBytes
      msecs := msecsTo time now })

def ofStatus (status : ComponentStatus) : RemoteComponent :=
  { name := status.name
    packetsReceived := status.inPacketCount
    packetsSent := status.outPacketCount }

/-- The loop over the statuses; the index of each goes into the list of the
components, whatever its length. -/
def setStatuses (components : List RemoteComponent) (i : Nat)
    (statuses : List ComponentStatus) : Option (List RemoteComponent) :=
  match statuses with
  | [] => some components
  | status :: rest =>
      if i < components.length then
        setStatuses (components.set i (ofStatus status)) (i + 1) rest
      else
        none

def statusesOf (packet : Protocol.Deploy.Packet) : List ComponentStatus :=
  packet.response.statusResponse.componentStatuses

/-- The handler of a status response, with the signals it emits; `none` when an
index is out of range. -/
def onStatusRequestFinished (now : TimeOfDay)
    (packet : Protocol.Deploy.Packet) (r : RemoteNode) :
    Option (RemoteNode × List Signal) :=
  let status := packet.response.statusResponse
  let statuses := statusesOf packet
  let appended := decide (0 < statuses.length ∧ r.components.length = 0)
  let components :=
    if appended then
      r.components ++ statuses.map (fun _ => default)
    else
      r.components
  (setStatuses components 0 statuses).map (fun components =>
    ({ uptime := status.uptime
       packetsReceived := status.inPacketsCount
       bytesReceived := status.inBytesCount
       packetsSent := status.outPacketsCount
       bytesSent := status.outBytesCount
       downSpeed := calcSpeed r.lastStatusTime now r.bytesReceived
         status.inBytesCount
       upSpeed := calcSpeed r.lastStatusTime now r.bytesSent
         status.outBytesCount
       isConnected := r.isConnected
       components := components
       lastStatusTime := some now },
      (if appended then [Signal.componentsChanged] else []) ++
        [Signal.statusChanged]))

def setConnected (value : Bool) (r : RemoteNode) : RemoteNode × List Signal :=
  ({ r with isConnected := value }, [Signal.statusChanged])

/-- The signals of its client that a remote node handles itself. -/
inductive Event where
  | connected
  | connectionFailed
  | statusRequestFinished (now : TimeOfDay) (packet : Protocol.Deploy.Packet)
deriving DecidableEq

def handle (r : RemoteNode) (event : Event) :
    Option (RemoteNode × List Signal) :=
  match event with
  | Event.connected => some (r.setConnected true)
  | Event.connectionFailed => some (r.setConnected false)
  | Event.statusRequestFinished now packet =>
      r.onStatusRequestFinished now packet

def step (r : RemoteNode) (event : Event) : Option RemoteNode :=
  (r.handle event).map Prod.fst

/-!
## The loop over the statuses
-/

theorem setStatuses_spec (statuses : List ComponentStatus)
    (front back : List RemoteComponent) :
    setStatuses (front ++ back) front.length statuses =
      if statuses.length <= back.length then
        some (front ++ statuses.map ofStatus ++ back.drop statuses.length)
      else
        none := by
  induction statuses generalizing front back with
  | nil => simp [setStatuses]
  | cons status rest ih =>
      unfold setStatuses
      cases back with
      | nil => simp
      | cons component others =>
          have hset : (front ++ component :: others).set front.length
              (ofStatus status) = (front ++ [ofStatus status]) ++ others := by
            rw [List.set_append_right _ _ (Nat.le_refl _), Nat.sub_self]
            simp
          have hnext := ih (front ++ [ofStatus status]) others
          rw [List.length_append, List.length_singleton] at hnext
          rw [if_pos (by simp), hset, hnext]
          simp

theorem setStatuses_zero (components : List RemoteComponent)
    (statuses : List ComponentStatus) :
    setStatuses components 0 statuses =
      if statuses.length <= components.length then
        some (statuses.map ofStatus ++ components.drop statuses.length)
      else
        none :=
  setStatuses_spec statuses [] components

theorem onStatusRequestFinished_eq (now : TimeOfDay)
    (packet : Protocol.Deploy.Packet) (r : RemoteNode) :
    (r.step (Event.statusRequestFinished now packet)).map
        (fun r => r.components) =
      if r.components = [] ∨
          (statusesOf packet).length <= r.components.length then
        some ((statusesOf packet).map ofStatus ++
          r.components.drop (statusesOf packet).length)
      else
        none := by
  unfold step handle onStatusRequestFinished
  simp only [Option.map_map]
  show (setStatuses _ 0 (statusesOf packet)).map id = _
  rw [Option.map_id, id, setStatuses_zero]
  generalize statusesOf packet = statuses
  by_cases hempty : r.components = []
  · rw [if_pos (Or.inl hempty), hempty]
    cases statuses with
    | nil => rfl
    | cons status rest => simp
  · have hlength : r.components.length ≠ 0 :=
      fun hzero => hempty (List.length_eq_zero_iff.mp hzero)
    simp [hempty, hlength]

/-!
## Sequences of responses
-/

/-- After a response the list has its statuses and nothing else. -/
def Mirrors (_ : RemoteNode) (event : Event) (r : RemoteNode) : Prop :=
  match event with
  | Event.statusRequestFinished _ packet =>
      r.components = (statusesOf packet).map ofStatus
  | _ => True

/-- The list is not made yet, or as long as the response. -/
def Fits (r : RemoteNode) (event : Event) : Prop :=
  match event with
  | Event.statusRequestFinished _ packet =>
      r.components = [] ∨
        (statusesOf packet).length = r.components.length
  | _ => True

theorem mirrors_iff_fits (r : RemoteNode) (event : Event) :
    (exists r', r.step event = some r' ∧ Mirrors r event r') <->
      Fits r event := by
  cases event with
  | connected => exact iff_of_true ⟨_, rfl, trivial⟩ trivial
  | connectionFailed => exact iff_of_true ⟨_, rfl, trivial⟩ trivial
  | statusRequestFinished now packet =>
      have hresult := onStatusRequestFinished_eq now packet r
      unfold Mirrors Fits
      constructor
      · intro h
        rcases h with ⟨r', hstep, hcomponents⟩
        rw [hstep, Option.map_some, hcomponents] at hresult
        split_ifs at hresult with hfits
        rcases hfits with hempty | hle
        · exact Or.inl hempty
        · have hlength := congrArg List.length (Option.some.inj hresult)
          rw [List.length_append, List.length_drop, List.length_map]
            at hlength
          exact Or.inr (by omega)
      · intro hfits
        have hle : r.components = [] ∨
            (statusesOf packet).length <= r.components.length :=
          hfits.imp_right Nat.le_of_eq
        have hdrop : r.components.drop (statusesOf packet).length = [] := by
          rcases hfits with hempty | hlength
          · rw [hempty, List.drop_nil]
          · rw [hlength, List.drop_length]
        rw [if_pos hle, hdrop, List.append_nil] at hresult
        rcases Option.map_eq_some_iff.mp hresult with ⟨r', hstep, hcomponents⟩
        exact ⟨r', hstep, hcomponents⟩

def sizes (events : List Event) : List Nat :=
  events.filterMap (fun event =>
    match event with
    | Event.statusRequestFinished _ packet =>
        some (statusesOf packet).length
    | _ => none)

/-- After the responses that bring no status all bring equally many. -/
def SteadySizes (sizes : List Nat) : Prop :=
  exists empty count size,
    sizes = List.replicate empty 0 ++ List.replicate count size

theorem steadySizes_zero_cons {sizes : List Nat} :
    SteadySizes (0 :: sizes) <-> SteadySizes sizes := by
  constructor
  · intro h
    rcases h with ⟨empty, count, size, heq⟩
    cases empty with
    | zero =>
        cases count with
        | zero => cases heq
        | succ count =>
            cases heq
            exact ⟨0, count, 0, rfl⟩
    | succ empty =>
        cases heq
        exact ⟨empty, count, size, rfl⟩
  · intro h
    rcases h with ⟨empty, count, size, rfl⟩
    exact ⟨empty + 1, count, size, rfl⟩

theorem steadySizes_pos_cons {size : Nat} (hpos : size ≠ 0)
    {sizes : List Nat} :
    SteadySizes (size :: sizes) <-> forall x, x ∈ sizes -> x = size := by
  constructor
  · intro h
    rcases h with ⟨empty, count, size', heq⟩
    cases empty with
    | zero =>
        cases count with
        | zero => cases heq
        | succ count =>
            cases heq
            exact fun x hx => List.eq_of_mem_replicate hx
    | succ empty =>
        cases heq
        exact absurd rfl hpos
  · intro h
    refine ⟨0, sizes.length + 1, size, ?_⟩
    rw [List.replicate_zero, List.nil_append, List.replicate_succ,
      ← List.eq_replicate_iff.mpr ⟨rfl, h⟩]

/-- A response that fits leaves the list as long as it is itself. -/
theorem meets_afterStatus {r : RemoteNode} (now : TimeOfDay)
    (packet : Protocol.Deploy.Packet) {rest : List Event}
    (ih : forall r : RemoteNode, Meets step Fits r rest <->
      (r.components = [] -> SteadySizes (sizes rest)) ∧
      (r.components ≠ [] ->
        forall size, size ∈ sizes rest -> size = r.components.length))
    (hfits : Fits r (Event.statusRequestFinished now packet)) :
    Meets step Fits r (Event.statusRequestFinished now packet :: rest) <->
      SteadySizes ((statusesOf packet).length :: sizes rest) := by
  rcases (mirrors_iff_fits r _).mpr hfits with ⟨r', hstep, hmirrors⟩
  have hcomponents : r'.components = (statusesOf packet).map ofStatus :=
    hmirrors
  rw [Lib.meets_cons hstep, and_iff_right hfits, ih, hcomponents]
  cases statusesOf packet with
  | nil =>
      rw [List.length_nil, steadySizes_zero_cons]
      simp
  | cons status others =>
      rw [List.length_cons, steadySizes_pos_cons (Nat.succ_ne_zero _)]
      simp

/-- Once the list is made, its length decides about all responses. -/
theorem meets_fits_iff (events : List Event) (r : RemoteNode) :
    Meets step Fits r events <->
      (r.components = [] -> SteadySizes (sizes events)) ∧
      (r.components ≠ [] ->
        forall size, size ∈ sizes events -> size = r.components.length) := by
  induction events generalizing r with
  | nil =>
      apply iff_of_true trivial
      constructor
      · exact fun _ => ⟨0, 0, 0, rfl⟩
      · exact fun _ size hsize => absurd hsize List.not_mem_nil
  | cons event rest ih =>
      cases event with
      | connected =>
          have hstep : r.step Event.connected =
              some (r.setConnected true).1 := rfl
          rw [Lib.meets_cons hstep, ih]
          exact and_iff_right trivial
      | connectionFailed =>
          have hstep : r.step Event.connectionFailed =
              some (r.setConnected false).1 := rfl
          rw [Lib.meets_cons hstep, ih]
          exact and_iff_right trivial
      | statusRequestFinished now packet =>
          have hsizes : sizes (Event.statusRequestFinished now packet :: rest) =
              (statusesOf packet).length :: sizes rest := rfl
          have hnext := meets_afterStatus (r := r) now packet ih
          rw [hsizes]
          by_cases hempty : r.components = []
          · have hfits : Fits r (Event.statusRequestFinished now packet) :=
              Or.inl hempty
            rw [hnext hfits]
            simp [hempty]
          · constructor
            · intro h
              refine ⟨fun hnil => absurd hnil hempty, fun _ => ?_⟩
              have hlength := h.left.resolve_left hempty
              have hpos : (statusesOf packet).length ≠ 0 := by
                rw [hlength]
                exact fun hzero => hempty (List.length_eq_zero_iff.mp hzero)
              have hrest := (steadySizes_pos_cons hpos).mp
                ((hnext h.left).mp h)
              rw [← hlength]
              intro size hsize
              rcases List.mem_cons.mp hsize with rfl | hmem
              · rfl
              · exact hrest size hmem
            · intro h
              have hall := h.right hempty
              have hlength := hall _ List.mem_cons_self
              have hfits : Fits r (Event.statusRequestFinished now packet) :=
                Or.inr hlength
              apply (hnext hfits).mpr
              refine ⟨0, (sizes rest).length + 1, (statusesOf packet).length, ?_⟩
              rw [List.replicate_zero, List.nil_append, List.replicate_succ,
                ← List.eq_replicate_iff.mpr ⟨rfl, fun size hsize =>
                  (hall size (List.mem_cons_of_mem _ hsize)).trans
                    hlength.symm⟩]

/-- The terminal shows the components of the last response, and never leaves its
list, exactly when all responses with components have equally many and none
without comes between them. -/
theorem components_mirror_iff (events : List Event) :
    Throughout step Mirrors new events <-> SteadySizes (sizes events) := by
  rw [@Lib.throughout_iff _ _ step Mirrors Fits (fun _ => True)
    (fun _ _ _ => trivial) (fun _ => mirrors_iff_fits _ _) _ _ trivial,
    meets_fits_iff]
  simp [new]

def statusResponse (statuses : List ComponentStatus) :
    Protocol.Deploy.Packet :=
  { kind := Protocol.Deploy.PacketKind.getStatus
    payload := Protocol.Deploy.PacketPayload.response
      (Protocol.Deploy.Response.status
        { (default : Protocol.Deploy.StatusResponse) with
          componentStatuses := statuses }) }

/-- A node is deployed again with one component more, or with one less. -/
theorem redeployed_not_mirrored :
    (new.step (Event.statusRequestFinished 0
        (statusResponse [⟨"a", 1, 1⟩]))).bind
      (fun r => r.step (Event.statusRequestFinished 500
        (statusResponse [⟨"a", 0, 0⟩, ⟨"b", 0, 0⟩]))) = none ∧
    ((new.step (Event.statusRequestFinished 0
        (statusResponse [⟨"a", 1, 1⟩, ⟨"b", 1, 1⟩]))).bind
      (fun r => r.step (Event.statusRequestFinished 500
        (statusResponse [⟨"a", 0, 0⟩])))).map (fun r => r.components) =
      some [⟨"a", 0, 0⟩, ⟨"b", 1, 1⟩] ∧
    ¬ Throughout step Mirrors new
      [Event.statusRequestFinished 0 (statusResponse [⟨"a", 1, 1⟩]),
        Event.statusRequestFinished 500
          (statusResponse [⟨"a", 0, 0⟩, ⟨"b", 0, 0⟩])] := by
  refine ⟨by decide, by decide, ?_⟩
  intro h
  rcases h with ⟨r, hfirst, _, r', hsecond, _⟩
  have hnone : (new.step (Event.statusRequestFinished 0
        (statusResponse [⟨"a", 1, 1⟩]))).bind
      (fun r => r.step (Event.statusRequestFinished 500
        (statusResponse [⟨"a", 0, 0⟩, ⟨"b", 0, 0⟩]))) = none := by
    decide
  rw [hfirst, Option.bind_some, hsecond] at hnone
  cases hnone

end RemoteNode

end Terminal
end Protort
