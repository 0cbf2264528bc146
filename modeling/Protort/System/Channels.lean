import Protort.Lib.Relating
import Protort.Node.Handlers
import Protort.System.Calls
import Protort.System.Fifo

/-!
# Messages over connections

Every client of a node is connected to a session of another node.  What the
client writes arrives there in chunks of any size at any time.

As long as a client is given a message only when all earlier ones have left its
buffer, the nodes work together as if every message were handed over directly,
for each client in the order in which they were sent.
-/

namespace Protort
namespace System

open Lib (Bytes Memory Socket IoEvent Run Steps Guarded)
open Link (Buffer maxPacketSize)
open Protolink (Client Connection)
open Node (Outgoing SentBefore)

/-- A client, the connection at the other end and the messages that the client
was given. -/
structure Channel where
  client : Client
  connection : Connection
  given : List Outgoing

namespace Channel

def start (here there : Buffer -> Memory) : Channel :=
  { client := Client.new here
    connection := (Connection.new there).start
    given := [] }

/-- `async_send_message` of the client. -/
def send (platform : Platform) (garbage : Memory) (m : Outgoing)
    (ch : Channel) : Channel :=
  { ch with
    client := ch.client.asyncSendMessage platform garbage m.payload
    given := ch.given ++ [m] }

def onWay (ch : Channel) (count : Nat) : Bytes :=
  (ch.client.socket.wire.drop ch.connection.socket.arrived.length).take count

def session (ch : Channel) (n : Protort.Node) : Session :=
  { node := n
    connection := ch.connection
    fault := none }

/-- The callback for a packet, where it is known where a message comes from. -/
def callback (env : Platform) (origin : Option Components.Origin)
    (packet : Protocol.Packet) : Node.Handler Protocol.Payload :=
  match packet.kind with
  | Protocol.Kind.message => do
      Node.onNewMessage env origin packet.payload
      pure default
  | _ => Session.callback env packet

/-- The handler of a read that is through, with the callback of the node; a
callback that throws ends the program. -/
def readDone (platform env : Platform) (garbage : Memory) (ch : Channel)
    (n : Protort.Node) : Option (Channel × Protort.Node) :=
  match (ch.session n).body with
  | none =>
      (ch.connection.step platform
        (Connection.Event.readDone default garbage)).map
          (fun d => ({ ch with connection := d }, n))
  | some buffer =>
      match callback env
          ((ch.given[ch.connection.handed.length]?).map Outgoing.origin)
          (platform.parse buffer) n with
      | EStateM.Result.ok answer n' =>
          (ch.connection.step platform
            (Connection.Event.readDone answer garbage)).map
              (fun d => ({ ch with connection := d }, n'))
      | EStateM.Result.error _ _ => none

/-- Bytes move and handlers run that call no callback. -/
def ofConnection : Connection.Event -> Bool
  | Connection.Event.io e => Socket.IsMoving e
  | Connection.Event.readDone _ _ => false
  | _ => true

/-- Nothing that was given to the client can go on. -/
structure Settled (platform : Platform) (ch : Channel) : Prop where
  client : forall e, Exchange.ofClient e = true ->
    ch.client.step platform e = none
  arrived : forall count, ch.onWay count = []
  connection : forall e, ofConnection e = true ->
    ch.connection.step platform e = none
  read : ch.connection.socket.takeRead = none

/-!
## One channel
-/

/-- The packets that a channel has brought and those that wait on it are those
that the client was given. -/
structure Brings (platform : Platform) (waiting : List Outgoing)
    (ch : Channel) : Prop where
  sent : ch.client.sent =
    ch.given.map (fun m => platform.serialize (Client.message m.payload))
  sendable : forall m, m ∈ ch.given ->
    Exchange.Sendable platform maxPacketSize (Client.message m.payload)
  sending : Client.Sending platform ch.client
  opened : ch.client.socket.closed = false
  goes : ch.client.aborted = false
  reads : ch.client.socket.reads = []
  messages : forall w, w ∈ ch.client.socket.writes ->
    w.tag = Protocol.Kind.message ∧ w.done <= w.size
  reading : Connection.Invariant platform ch.connection
  running : ch.connection.aborted = false
  up : ch.connection.socket.ended = false
  there : List.IsPrefix ch.connection.socket.arrived ch.client.socket.wire
  waits : waiting = ch.given.drop ch.connection.handed.length

section Brings

variable {platform env : Platform} {waiting : List Outgoing} {ch : Channel}

theorem brings_start (platform : Platform) (here there : Buffer -> Memory) :
    Brings platform [] (start here there) :=
  { sent := rfl
    sendable := fun _ hm => absurd hm List.not_mem_nil
    sending := Socket.carries_connected here
    opened := rfl
    goes := rfl
    reads := rfl
    messages := fun _ hw => absurd hw List.not_mem_nil
    reading := Connection.invariant_start there
    running := rfl
    up := rfl
    there := List.prefix_rfl
    waits := rfl }

theorem Brings.fits (h : Brings platform waiting ch) :
    platform.framing.Fits ch.client.sent := by
  intro packet hpacket
  rw [h.sent] at hpacket
  rcases List.mem_map.mp hpacket with ⟨m, hm, rfl⟩
  exact (h.sendable m hm).left

theorem Brings.arrived_sent (h : Brings platform waiting ch) :
    List.IsPrefix ch.connection.socket.arrived
      (platform.framing.frames ch.client.sent) := by
  rw [Lib.Framing.frames_eq_flatten]
  exact h.there.trans h.sending.isPrefix

theorem Brings.connection_opened (h : Brings platform waiting ch) :
    ch.connection.socket.closed = false :=
  Exchange.opened_of_receiving h.reading.receiving h.fits h.arrived_sent

theorem Brings.handed_le (h : Brings platform waiting ch) :
    ch.connection.handed.length <= ch.given.length := by
  rcases h.reading.receiving.at with ⟨position, hat⟩
  have harrived := h.arrived_sent
  rw [← List.append_nil (platform.framing.frames ch.client.sent)] at harrived
  have hprefix := hat.handed_isPrefix h.fits (Client.stuck_nil platform)
    harrived
  have hle := hprefix.length_le
  rw [h.sent, List.length_map] at hle
  exact hle

theorem Brings.send (h : Brings platform waiting ch) {m : Outgoing}
    (hidle : ch.client.socket.pending = [])
    (hplain : Exchange.Sendable platform maxPacketSize
      (Client.message m.payload)) (garbage : Memory) :
    Brings platform (waiting ++ [m]) (ch.send platform garbage m) := by
  have hwire : (ch.send platform garbage m).client.socket.wire =
      ch.client.socket.wire := Link.sendPacket_wire _ _ _ _ _ _
  refine
    { sent := ?_
      sendable := ?_
      sending := Client.doSendPacket_sending h.sending hidle hplain.left
      opened := (Link.sendPacket_closed _ _ _ _ _ _).trans h.opened
      goes := h.goes
      reads := (Link.sendPacket_reads _ _ _ _ _ _).trans h.reads
      messages := ?_
      reading := h.reading
      running := h.running
      up := h.up
      there := hwire ▸ h.there
      waits := ?_ }
  · show ch.client.sent ++ _ = (ch.given ++ [m]).map _
    rw [h.sent, List.map_append]
    rfl
  · intro m' hm'
    rcases List.mem_append.mp hm' with hm' | hm'
    · exact h.sendable m' hm'
    · rw [List.mem_singleton.mp hm']
      exact hplain
  · intro w hw
    have hw' : w ∈ (Link.sendPacket platform _ garbage _ _
        ch.client.socket).writes := hw
    rw [Link.sendPacket_writes] at hw'
    rcases List.mem_append.mp hw' with hw' | hw'
    · exact h.messages w hw'
    · rw [List.mem_singleton.mp hw']
      exact ⟨rfl, Nat.zero_le _⟩
  · show _ = (ch.given ++ [m]).drop ch.connection.handed.length
    rw [List.drop_append_of_le_length h.handed_le, h.waits]

theorem Brings.client_step (h : Brings platform waiting ch)
    {e : Client.Event} (he : Exchange.ofClient e = true) {c : Client}
    (hstep : ch.client.step platform e = some c) :
    Brings platform waiting { ch with client := c } := by
  have hquiet := Socket.quiet_of_reads_nil h.reads
  cases (Client.step_moves hstep).right with
  | sendMessage => cases he
  | sendRequest => cases he
  | @io e s hs =>
      have hsafe : ch.client.socket.Undisturbed e := by
        apply Exchange.undisturbed_of_pending e
        intro count hcount
        subst hcount
        exact absurd ((hquiet.left count).symm.trans hs) nofun
      rcases Socket.moving_progress he hs with ⟨_, _, _, hwrites⟩
      have hkept := Socket.progress_reads hs
      refine
        { h with
          sending := h.sending.progress hsafe hs
          opened := hkept.right.trans h.opened
          reads := ?_
          messages := ?_
          there := h.there.trans (Socket.wire_progress hs) }
      · rw [h.reads] at hkept
        exact List.length_eq_zero_iff.mp hkept.left
      · intro w hw
        rcases hwrites w hw with ⟨w', hw', htag, hsize⟩
        rcases h.messages w' hw' with ⟨hmessage, hdone⟩
        exact ⟨htag.symm.trans hmessage, hsize hdone⟩
  | header hs _ => exact absurd (hquiet.right.left.symm.trans hs) nofun
  | packet hs _ => exact absurd (hquiet.right.left.symm.trans hs) nofun
  | readFail hs => exact absurd (hquiet.right.right.symm.trans hs) nofun
  | @writeDone index w s hs =>
      rcases Socket.takeWrite_eq_some hs with ⟨hw, _, hsocket⟩
      have hsent : Client.onPacketSent w.tag { ch.client with socket := s } =
          { ch.client with socket := s } := by
        rw [(h.messages w (List.mem_of_getElem? hw)).left]
        rfl
      rw [hsent]
      refine
        { h with
          sending := h.sending.takeWrite hs
          opened := ?_
          reads := ?_
          messages := ?_
          there := ?_ }
      · show s.closed = false
        rw [hsocket]
        exact h.opened
      · show s.reads = []
        rw [hsocket]
        exact h.reads
      · intro w' hw'
        have hw' : w' ∈ s.writes := hw'
        rw [hsocket] at hw'
        exact h.messages w' (List.mem_of_mem_eraseIdx hw')
      · show List.IsPrefix _ s.wire
        rw [hsocket]
        exact h.there
  | writeFail hs =>
      have hclosed := (Socket.failWrite_eq_some hs).right.right.left
      rw [h.opened] at hclosed
      cases hclosed

theorem Brings.arrive (h : Brings platform waiting ch) {count : Nat}
    {d : Connection}
    (hstep : ch.connection.step platform
      (Connection.Event.io (IoEvent.arrive (ch.onWay count))) = some d) :
    Brings platform waiting { ch with connection := d } := by
  have hreading := Connection.step_invariant hstep h.reading
  cases (Connection.step_moves hstep).right with
  | io hs =>
      simp only [Socket.progress, Option.ite_none_left_eq_some,
        Option.some.injEq] at hs
      rcases hs with ⟨_, rfl⟩
      refine
        { h with
          reading := hreading
          there := ?_ }
      show List.IsPrefix (_ ++ (_ ++ ch.onWay count)) _
      rw [← List.append_assoc]
      exact Exchange.onWay_isPrefix h.there count

theorem Brings.connection_step (h : Brings platform waiting ch)
    {e : Connection.Event} (he : ofConnection e = true) {d : Connection}
    (hstep : ch.connection.step platform e = some d) :
    Brings platform waiting { ch with connection := d } := by
  have hreading := Connection.step_invariant hstep h.reading
  cases (Connection.step_moves hstep).right with
  | io hs =>
      rcases Socket.moving_progress he hs with ⟨harrived, hended, _, _⟩
      exact
        { h with
          reading := hreading
          up := hended.trans h.up
          there := harrived ▸ h.there }
  | header _ _ => cases he
  | packet _ _ => cases he
  | readFail hs =>
      rcases Socket.failRead_eq_some hs with ⟨_, _, _, _, hsocket⟩
      rw [hsocket] at hreading ⊢
      exact
        { h with
          reading := hreading
          up := h.up
          there := h.there }
  | writeDone hs =>
      rcases Socket.takeWrite_eq_some hs with ⟨_, _, rfl⟩
      exact
        { h with
          reading := hreading
          up := h.up
          there := h.there }
  | writeFail hs =>
      rcases Socket.failWrite_eq_some hs with ⟨_, _, _, rfl⟩
      exact
        { h with
          reading := hreading
          up := h.up
          there := h.there }

/-!
## Messages that arrive
-/

theorem Brings.next (h : Brings platform waiting ch)
    {r : Lib.PendingRead Buffer} {s : Socket Buffer Unit}
    (hs : ch.connection.socket.takeRead = some (r, s))
    (hr : r.target = Buffer.packet) :
    exists m rest, ch.given[ch.connection.handed.length]? = some m ∧
      waiting = m :: rest ∧
      rest = ch.given.drop (ch.connection.handed.length + 1) ∧
      platform.parse ((s.memory Buffer.packet).read 0 r.size) =
        Client.message m.payload := by
  rcases h.reading.receiving.takePacket hs hr with ⟨_, _, hat⟩
  generalize (s.memory Buffer.packet).read 0 r.size = buffer at hat ⊢
  have harrived : List.IsPrefix s.arrived
      (platform.framing.frames ch.client.sent ++ []) := by
    rw [List.append_nil, (Socket.takeRead_eq_some hs).right.right]
    exact h.arrived_sent
  rcases hat.handed_isPrefix h.fits (Client.stuck_nil platform) harrived with
    ⟨others, hothers⟩
  have hbuffer : ch.client.sent[ch.connection.handed.length]? =
      some buffer := by
    rw [← hothers, List.append_assoc,
      List.getElem?_append_right (Nat.le_refl _), Nat.sub_self]
    rfl
  rw [h.sent, List.getElem?_map, Option.map_eq_some_iff] at hbuffer
  rcases hbuffer with ⟨m, hm, rfl⟩
  refine ⟨m, _, hm, ?_, rfl, (h.sendable m (List.mem_of_getElem? hm)).right⟩
  rcases List.getElem?_eq_some_iff.mp hm with ⟨hless, hget⟩
  rw [h.waits, List.drop_eq_getElem_cons hless, hget]

theorem callback_message (env : Platform) (m : Outgoing) (n : Protort.Node) :
    exists n', callback env (some m.origin) (Client.message m.payload) n =
        EStateM.Result.ok default n' ∧
      Node.step n (Node.Event.message env (some m.origin) m.payload) =
        some n' :=
  ⟨_, rfl, rfl⟩

theorem body_header (n : Protort.Node) {r : Lib.PendingRead Buffer}
    {s : Socket Buffer Unit}
    (hs : ch.connection.socket.takeRead = some (r, s))
    (hr : r.target = Buffer.packetHeader) : (ch.session n).body = none := by
  have hs' : (ch.session n).connection.socket.takeRead = some (r, s) := hs
  unfold Session.body
  simp only [hs', hr]

theorem body_packet (n : Protort.Node) {r : Lib.PendingRead Buffer}
    {s : Socket Buffer Unit}
    (hs : ch.connection.socket.takeRead = some (r, s))
    (hr : r.target = Buffer.packet) :
    (ch.session n).body = some ((s.memory Buffer.packet).read 0 r.size) := by
  have hs' : (ch.session n).connection.socket.takeRead = some (r, s) := hs
  unfold Session.body
  simp only [hs', hr]

inductive Receives (platform env : Platform) (waiting : List Outgoing)
    (ch : Channel) (n : Protort.Node) : Channel × Protort.Node -> Prop where
  | header {ch' : Channel} : Brings platform waiting ch' ->
      Receives platform env waiting ch n (ch', n)
  | message {ch' : Channel} {m : Outgoing} {rest : List Outgoing}
      {n' : Protort.Node} : (ch.session n).body.isSome = true ->
      waiting = m :: rest -> Brings platform rest ch' ->
      Node.step n (Node.Event.message env (some m.origin) m.payload) =
        some n' ->
      Receives platform env waiting ch n (ch', n')

theorem connection_readDone (platform : Platform) {c : Connection}
    (hrunning : c.aborted = false)
    {r : Lib.PendingRead Buffer} {s : Socket Buffer Unit}
    (hs : c.socket.takeRead = some (r, s)) (answer : Protocol.Payload)
    (garbage : Memory) :
    c.step platform (Connection.Event.readDone answer garbage) =
      some (Connection.onRead platform answer garbage r
        { c with socket := s }) := by
  unfold Connection.step
  rw [if_neg (by rw [hrunning]; exact Bool.false_ne_true)]
  show c.socket.takeRead.map _ = _
  rw [hs]
  rfl

theorem Brings.header (h : Brings platform waiting ch)
    {r : Lib.PendingRead Buffer} {s : Socket Buffer Unit}
    (hs : ch.connection.socket.takeRead = some (r, s))
    (hr : r.target = Buffer.packetHeader) (env : Platform) (garbage : Memory)
    (n : Protort.Node) :
    exists ch', ch.readDone platform env garbage n = some (ch', n) ∧
      ch' = { ch with
        connection := { ch.connection with
          socket := Link.onHeaderRead platform s } } ∧
      Brings platform waiting ch' := by
  have hstep := connection_readDone platform h.running hs default garbage
  have hreading := Connection.step_invariant hstep h.reading
  unfold readDone
  rw [body_header n hs hr]
  simp only [hstep]
  rw [Connection.onRead_packetHeader hr] at hreading ⊢
  refine ⟨_, rfl, rfl, ?_⟩
  have hsocket := (Socket.takeRead_eq_some hs).right.right
  refine
    { h with
      reading := hreading
      up := ?_
      there := ?_ }
  · show (Link.onHeaderRead platform s).ended = false
    rw [Link.onHeaderRead_ended, hsocket]
    exact h.up
  · show List.IsPrefix (Link.onHeaderRead platform s).arrived _
    rw [Link.onHeaderRead_arrived, hsocket]
    exact h.there

theorem Brings.message (h : Brings platform waiting ch)
    {r : Lib.PendingRead Buffer} {s : Socket Buffer Unit}
    (hs : ch.connection.socket.takeRead = some (r, s))
    (hr : r.target = Buffer.packet) (env : Platform) (garbage : Memory)
    (n : Protort.Node) :
    exists ch' n' m rest,
      ch.readDone platform env garbage n = some (ch', n') ∧
      ch' = { ch with
        connection := { ch.connection with
          socket := Link.doReadHeader s
          handed := ch.connection.handed ++
            [(s.memory Buffer.packet).read 0 r.size] } } ∧
      waiting = m :: rest ∧ Brings platform rest ch' ∧
      Node.step n (Node.Event.message env (some m.origin) m.payload) =
        some n' := by
  rcases h.next hs hr with ⟨m, rest, hm, hwaiting, hrest, hparse⟩
  rcases callback_message env m n with ⟨n', hcallback, hn'⟩
  have hstep := connection_readDone platform h.running hs default garbage
  have hreading := Connection.step_invariant hstep h.reading
  have hkind : (platform.parse
      ((s.memory Buffer.packet).read 0 r.size)).kind =
        Protocol.Kind.message := by
    rw [hparse]
    rfl
  have hhanded : Connection.onPacketRead platform default garbage r.size
      { ch.connection with socket := s } =
        { ch.connection with
          socket := Link.doReadHeader s
          handed := ch.connection.handed ++
            [(s.memory Buffer.packet).read 0 r.size] } := by
    unfold Connection.onPacketRead Connection.onNewPacket
    simp only [hkind, h.running]
    rfl
  rw [Connection.onRead_packet hr, hhanded] at hstep hreading
  refine ⟨_, n', m, rest, ?_, rfl, hwaiting, ?_, hn'⟩
  · unfold readDone
    rw [body_packet n hs hr]
    simp only [hm, hparse, Option.map_some, hcallback, hstep]
  · have hsocket := (Socket.takeRead_eq_some hs).right.right
    refine
      { h with
        reading := hreading
        up := ?_
        there := ?_
        waits := ?_ }
    · show s.ended = false
      rw [hsocket]
      exact h.up
    · show List.IsPrefix s.arrived _
      rw [hsocket]
      exact h.there
    · show rest = ch.given.drop (ch.connection.handed ++ [_]).length
      rw [List.length_append]
      exact hrest

theorem readDone_eq_none (platform env : Platform) (garbage : Memory)
    (n : Protort.Node) (hread : ch.connection.socket.takeRead = none) :
    ch.readDone platform env garbage n = none := by
  have hbody : (ch.session n).body = none := by
    have hread' : (ch.session n).connection.socket.takeRead = none := hread
    unfold Session.body
    simp only [hread']
  have hstep : ch.connection.step platform
      (Connection.Event.readDone default garbage) = none := by
    unfold Connection.step
    rw [ite_eq_left_iff]
    intro _
    show ch.connection.socket.takeRead.map _ = none
    rw [hread]
    rfl
  unfold Channel.readDone
  rw [hbody]
  simp only [hstep, Option.map_none]

theorem Brings.readDone (h : Brings platform waiting ch) {garbage : Memory}
    {n : Protort.Node} {done : Channel × Protort.Node}
    (hdone : ch.readDone platform env garbage n = some done) :
    Receives platform env waiting ch n done := by
  cases hread : ch.connection.socket.takeRead with
  | none =>
      rw [readDone_eq_none platform env garbage n hread] at hdone
      cases hdone
  | some next =>
      rcases next with ⟨r, s⟩
      cases hr : r.target with
      | packetHeader =>
          rcases h.header hread hr env garbage n with
            ⟨ch', hch, _, hafter⟩
          rw [hch] at hdone
          cases hdone
          exact Receives.header hafter
      | packet =>
          rcases h.message hread hr env garbage n with
            ⟨ch', n', m, rest, hch, _, hwaiting, hafter, hn'⟩
          rw [hch] at hdone
          cases hdone
          have hbody : (ch.session n).body.isSome = true := by
            rw [body_packet n hread hr]
            rfl
          exact Receives.message hbody hwaiting hafter hn'

/-- When nothing can go on, every message has been handed over. -/
theorem Brings.settled (h : Brings platform waiting ch)
    (hsettled : ch.Settled platform) : waiting = [] := by
  have hclient : forall {x : Option Client},
      (if ch.client.aborted = true then none else x) = x :=
    if_neg (by rw [h.goes]; exact Bool.false_ne_true)
  have hconnection : forall {x : Option Connection},
      (if ch.connection.aborted = true then none else x) = x :=
    if_neg (by rw [h.running]; exact Bool.false_ne_true)
  have hwritten : ch.client.socket.pending = [] := by
    apply Exchange.pending_eq_nil h.opened
    intro index
    have hnone := hsettled.client
      (Client.Event.io (IoEvent.writeSome index 1)) rfl
    unfold Client.step at hnone
    rw [hclient] at hnone
    exact Option.map_eq_none_iff.mp hnone
  have harrived : ch.connection.socket.arrived =
      platform.framing.frames ch.client.sent ++ [] := by
    rw [List.append_nil, Lib.Framing.frames_eq_flatten,
      ← h.sending.eq_flatten h.opened hwritten]
    exact Exchange.eq_of_drop h.there hsettled.arrived
  have hquiet : ch.connection.socket.Quiet := by
    refine ⟨?_, hsettled.read, ?_⟩
    · intro count
      have hnone := hsettled.connection
        (Connection.Event.io (IoEvent.readSome count)) rfl
      unfold Connection.step at hnone
      rw [hconnection] at hnone
      exact Option.map_eq_none_iff.mp hnone
    · have hnone := hsettled.connection Connection.Event.readFail rfl
      unfold Connection.step at hnone
      rw [hconnection] at hnone
      exact Option.map_eq_none_iff.mp hnone
  have hreceiving := h.reading.receiving
  rw [h.running] at hreceiving
  have hall := (hreceiving.complete h.fits (Client.stuck_nil platform) harrived
    hquiet).left
  rw [h.waits, hall, h.sent, List.length_map, List.drop_length]

end Brings

end Channel

/-!
## Nodes with channels
-/

universe u

/-- Nodes with a channel for every client.  What a node sends is given to its
clients at once. -/
structure Linked (ι : Type u) where
  nodes : ι -> Protort.Node
  channels : ι -> Node.Client -> Channel

namespace Linked

/-- A node handles a request or runs a queued task, bytes move on the channel of
a client, or a read of its other end is through. -/
inductive Event (ι : Type u) where
  | node (x : ι) (event : Node.Event) (garbage : Nat -> Memory)
  | client (x : ι) (c : Node.Client) (event : Client.Event)
  | there (x : ι) (c : Node.Client) (count : Nat)
  | connection (x : ι) (c : Node.Client) (event : Connection.Event)
  | readDone (x : ι) (c : Node.Client) (env : Platform) (garbage : Memory)
      (sending : Nat -> Memory)

variable {ι : Type u}

def start (here there : ι -> Node.Client -> Buffer -> Memory)
    (sys : ι -> Protort.Node) : Linked ι :=
  { nodes := sys
    channels := fun x c => Channel.start (here x c) (there x c) }

def sendAll (platform : Platform) (garbage : Nat -> Memory) :
    List Outgoing -> (Node.Client -> Channel) -> Node.Client -> Channel
  | [], channels => channels
  | m :: messages, channels =>
      sendAll platform (fun i => garbage (i + 1)) messages
        (Function.update channels m.client
          ((channels m.client).send platform (garbage 0) m))

variable [DecidableEq ι]

def withChannel (s : Linked ι) (x : ι) (c : Node.Client) (ch : Channel) :
    Linked ι :=
  { s with
    channels := Function.update s.channels x
      (Function.update (s.channels x) c ch) }

def withNode (platform : Platform) (garbage : Nat -> Memory) (s : Linked ι)
    (x : ι) (n : Protort.Node) : Linked ι :=
  { nodes := Function.update s.nodes x { n with outbox := [] }
    channels := Function.update s.channels x
      (sendAll platform garbage n.outbox (s.channels x)) }

/-- What happens where `peer` says which node a client of a node is connected
to.  No node is deployed again, and all connections stay up. -/
def step (platform : Platform) (peer : ι -> Node.Client -> Option ι)
    (s : Linked ι) (e : Event ι) : Option (Linked ι) :=
  match e with
  | Event.node x event garbage =>
      if Nodes.isOwn event then
        (Node.step (s.nodes x) event).map (s.withNode platform garbage x)
      else
        none
  | Event.client x c e =>
      if Exchange.ofClient e then
        ((s.channels x c).client.step platform e).map (fun client =>
          s.withChannel x c { s.channels x c with client := client })
      else
        none
  | Event.there x c count =>
      if (s.channels x c).onWay count ≠ [] then
        ((s.channels x c).connection.step platform (Connection.Event.io
          (IoEvent.arrive ((s.channels x c).onWay count)))).map (fun d =>
            s.withChannel x c { s.channels x c with connection := d })
      else
        none
  | Event.connection x c e =>
      if Channel.ofConnection e then
        ((s.channels x c).connection.step platform e).map (fun d =>
          s.withChannel x c { s.channels x c with connection := d })
      else
        none
  | Event.readDone x c env garbage sending =>
      match peer x c with
      | some y =>
          ((s.channels x c).readDone platform env garbage (s.nodes y)).map
            (fun done => (s.withChannel x c done.1).withNode platform sending y
              done.2)
      | none => none

/-- The clients can be given some messages: no two of them go to one client,
every client has put out all earlier ones, and they can be sent. -/
def Ready (platform : Platform) (channels : Node.Client -> Channel)
    (messages : List Outgoing) : Prop :=
  (messages.map Outgoing.client).Nodup ∧
    forall m, m ∈ messages ->
      (channels m.client).client.socket.pending = [] ∧
        Exchange.Sendable platform maxPacketSize (Client.message m.payload)

instance (platform : Platform) (channels : Node.Client -> Channel)
    (messages : List Outgoing) : Decidable (Ready platform channels messages) :=
  inferInstanceAs (Decidable (_ ∧ _))

/-- Clients are given one message at a time. -/
def OneAtATime (platform : Platform) (s : Linked ι) (e : Event ι) : Prop :=
  match e with
  | Event.node x event _ =>
      match Node.step (s.nodes x) event with
      | some n => Ready platform (s.channels x) n.outbox
      | none => True
  | _ => True

omit [DecidableEq ι] in
instance (platform : Platform) (s : Linked ι) (e : Event ι) :
    Decidable (OneAtATime platform s e) :=
  match e with
  | Event.node x event _ =>
      match h : Node.step (s.nodes x) event with
      | some n =>
          decidable_of_iff (Ready platform (s.channels x) n.outbox)
            (by simp [OneAtATime, h])
      | none => isTrue (by simp [OneAtATime, h])
  | Event.client _ _ _ => isTrue trivial
  | Event.there _ _ _ => isTrue trivial
  | Event.connection _ _ _ => isTrue trivial
  | Event.readDone _ _ _ _ _ => isTrue trivial

omit [DecidableEq ι] in
theorem OneAtATime.ready {platform : Platform} {s : Linked ι} {x : ι}
    {event : Node.Event} {garbage : Nat -> Memory} {n : Protort.Node}
    (h : OneAtATime platform s (Event.node x event garbage))
    (hn : Node.step (s.nodes x) event = some n) :
    Ready platform (s.channels x) n.outbox := by
  unfold OneAtATime at h
  simp only [hn] at h
  exact h

def ownOf : Event ι -> Option (ι × Node.Event)
  | Event.node x event _ => some (x, event)
  | _ => none

end Linked

namespace Nodes

variable {ι : Type u}

def KeepsOrder (sys : ι -> Protort.Node) (event : Event ι) : Prop :=
  match event with
  | Event.node _ _ => True
  | Event.deliver _ x index =>
      forall m, (sys x).outbox[index]? = some m -> IsFirst (sys x) index m

def ownOf : Event ι -> Option (ι × Node.Event)
  | Event.node x event => some (x, event)
  | Event.deliver _ _ _ => none

end Nodes

/-!
## Messages that wait
-/

def waiting (n : Protort.Node) (c : Node.Client) : List Outgoing :=
  n.outbox.filter (fun m => decide (m.client = c))

section Waiting

variable {n : Protort.Node} {c : Node.Client} {m : Outgoing}
  {rest : List Outgoing}

theorem waiting_take (h : waiting n c = m :: rest) :
    exists index, n.outbox[index]? = some m ∧ m.client = c ∧
      Nodes.IsFirst n index m ∧
      waiting (Nodes.withoutMessage n index) c = rest ∧
      forall c', c' ≠ c ->
        waiting (Nodes.withoutMessage n index) c' = waiting n c' := by
  rcases List.filter_eq_cons_iff.mp h with
    ⟨before, after, hsplit, hno, hm, hrest⟩
  have hclient : m.client = c := of_decide_eq_true hm
  have hm : n.outbox[before.length]? = some m := by
    rw [hsplit, List.getElem?_append_right (Nat.le_refl _), Nat.sub_self]
    rfl
  have htaken : (Nodes.withoutMessage n before.length).outbox =
      before ++ after := by
    show n.outbox.eraseIdx before.length = _
    rw [hsplit, List.eraseIdx_append_of_length_le (Nat.le_refl _),
      Nat.sub_self]
    rfl
  refine ⟨before.length, hm, hclient, ?_, ?_, ?_⟩
  · intro other hother
    rw [hsplit, List.take_left] at hother
    rw [hclient]
    exact fun heq => hno other hother (decide_eq_true heq)
  · unfold waiting
    rw [htaken, List.filter_append, hrest,
      List.filter_eq_nil_iff.mpr (fun other hother => hno other hother)]
    rfl
  · intro c' hc'
    unfold waiting
    exact Socket.filter_eraseIdx_of_not hm
      (decide_eq_false (fun heq => hc' (heq.symm.trans hclient)))

end Waiting

namespace Linked

variable {ι : Type u} {platform : Platform}

/-!
## Sending
-/

theorem brings_sendAll {channels : Node.Client -> Channel}
    {waits : Node.Client -> List Outgoing}
    (h : forall c, (channels c).Brings platform (waits c))
    {messages : List Outgoing} (hready : Ready platform channels messages)
    (garbage : Nat -> Memory) (c : Node.Client) :
    (sendAll platform garbage messages channels c).Brings platform
      (waits c ++ messages.filter (fun m => decide (m.client = c))) := by
  induction messages generalizing channels waits garbage with
  | nil =>
      rw [List.filter_nil, List.append_nil]
      exact h c
  | cons m messages ih =>
      rcases hready with ⟨hnodup, hall⟩
      rw [List.map_cons, List.nodup_cons] at hnodup
      rcases hall m List.mem_cons_self with ⟨hidle, hplain⟩
      have hsent := (h m.client).send hidle hplain (garbage 0)
      have hafter : forall c', (Function.update channels m.client
          ((channels m.client).send platform (garbage 0) m) c').Brings platform
            (Function.update waits m.client (waits m.client ++ [m]) c') := by
        intro c'
        by_cases hc' : c' = m.client
        · subst c'
          rw [Function.update_self, Function.update_self]
          exact hsent
        · rw [Function.update_of_ne hc', Function.update_of_ne hc']
          exact h c'
      have hrest := ih hafter ⟨hnodup.right, ?_⟩ (fun i => garbage (i + 1))
      · by_cases hc : c = m.client
        · subst c
          have hkept : (m :: messages).filter
              (fun other => decide (other.client = m.client)) =
                m :: messages.filter
                  (fun other => decide (other.client = m.client)) :=
            List.filter_cons_of_pos (decide_eq_true rfl)
          rw [Function.update_self, List.append_assoc] at hrest
          rw [hkept]
          exact hrest
        · rw [Function.update_of_ne hc] at hrest
          rw [List.filter_cons_of_neg
            (by rw [decide_eq_true_eq]; exact fun heq => hc heq.symm)]
          exact hrest
      · intro other hother
        have hne : other.client ≠ m.client := fun heq =>
          hnodup.left (heq ▸ List.mem_map_of_mem hother)
        rw [Function.update_of_ne hne]
        exact hall other (List.mem_cons_of_mem m hother)

/-!
## The nodes without the channels
-/

/-- The nodes that hand their messages over directly: what has not arrived yet
waits in the outbox of its node. -/
structure Direct (platform : Platform) (s : Linked ι)
    (sys : ι -> Protort.Node) : Prop where
  node : forall x, SentBefore (sys x).outbox (s.nodes x) (sys x)
  emptied : forall x, (s.nodes x).outbox = []
  brings : forall x c,
    (s.channels x c).Brings platform (waiting (sys x) c)

section Direct

variable {peer : ι -> Node.Client -> Option ι} {s t : Linked ι}
  {sys : ι -> Protort.Node}

theorem step_direct {n m n' : Protort.Node} (h : SentBefore m.outbox n m)
    {event : Node.Event} (hn' : Node.step n event = some n') :
    exists m', Node.step m event = some m' ∧
      SentBefore m.outbox n' m' :=
  Lib.rel_some_left (h.step event) hn'

theorem sentBefore_emptied {before : List Outgoing} {n m : Protort.Node}
    (h : SentBefore before n m) :
    SentBefore m.outbox { n with outbox := [] } m := by
  subst h
  unfold SentBefore
  rw [List.append_nil]

theorem sentBefore_withoutMessage {n m : Protort.Node}
    (h : SentBefore m.outbox n m) (hempty : n.outbox = []) (index : Nat) :
    SentBefore (Nodes.withoutMessage m index).outbox n
      (Nodes.withoutMessage m index) := by
  unfold SentBefore at h ⊢
  rw [hempty, List.append_nil] at h ⊢
  conv_lhs => rw [h]
  rfl

theorem waiting_sent {n m : Protort.Node} {before : List Outgoing}
    (h : SentBefore before n m) (c : Node.Client) :
    waiting m c = before.filter (fun m => decide (m.client = c)) ++
      waiting n c := by
  subst h
  exact List.filter_append _ _

theorem outbox_message {env : Platform} {origin : Option Components.Origin}
    {payload : Protocol.Payload} {n n' : Protort.Node}
    (hstep : Node.step n (Node.Event.message env origin payload) = some n') :
    n'.outbox = n.outbox := by
  rcases Node.message_spec hstep with ⟨m, _, _, houtbox, rfl⟩
  rw [Node.outbox_performAll, Node.sends_messageEffects, List.append_nil,
    houtbox]

variable [DecidableEq ι]

/-- One channel goes on. -/
theorem brings_withChannel {waits : ι -> Node.Client -> List Outgoing} {x : ι}
    {c : Node.Client} {ch : Channel} (hch : ch.Brings platform (waits x c))
    (hothers : forall z c', (z = x -> c' ≠ c) ->
      (s.channels z c').Brings platform (waits z c')) (z : ι)
    (c' : Node.Client) :
    ((s.withChannel x c ch).channels z c').Brings platform (waits z c') := by
  unfold Linked.withChannel
  by_cases hz : z = x
  · subst z
    simp only [Function.update_self]
    by_cases hc' : c' = c
    · subst c'
      rw [Function.update_self]
      exact hch
    · rw [Function.update_of_ne hc']
      exact hothers x c' (fun _ => hc')
  · simp only [Function.update_of_ne hz]
    exact hothers z c' (fun hx => absurd hx hz)

theorem Direct.withChannel (h : Direct platform s sys) {x : ι}
    {c : Node.Client} {ch : Channel}
    (hch : ch.Brings platform (waiting (sys x) c)) :
    Direct platform (s.withChannel x c ch) sys :=
  { node := h.node
    emptied := h.emptied
    brings := brings_withChannel hch (fun z c' _ => h.brings z c') }

theorem withNode_self {y : ι} (hempty : (s.nodes y).outbox = [])
    (garbage : Nat -> Memory) :
    s.withNode platform garbage y (s.nodes y) = s := by
  have hnode : { s.nodes y with outbox := [] } = s.nodes y := by
    rw [← hempty]
  unfold withNode
  rw [hnode, hempty]
  simp only [sendAll, Function.update_eq_self]

/-- A node goes on, whether its messages wait in its outbox or are given to its
clients. -/
theorem Direct.withNode (h : Direct platform s sys) {x : ι}
    {n n' : Protort.Node} (hsent : SentBefore (sys x).outbox n n')
    (hready : Ready platform (s.channels x) n.outbox)
    (garbage : Nat -> Memory) :
    Direct platform (s.withNode platform garbage x n)
      (Function.update sys x n') := by
  unfold Linked.withNode
  refine
    { node := ?_
      emptied := ?_
      brings := ?_ }
  · intro z
    by_cases hz : z = x
    · subst z
      simp only [Function.update_self]
      exact sentBefore_emptied hsent
    · simp only [Function.update_of_ne hz]
      exact h.node z
  · intro z
    by_cases hz : z = x
    · subst z
      simp only [Function.update_self]
    · simp only [Function.update_of_ne hz]
      exact h.emptied z
  · intro z c
    by_cases hz : z = x
    · subst z
      simp only [Function.update_self]
      rw [waiting_sent hsent c]
      exact brings_sendAll (h.brings x) hready garbage c
    · simp only [Function.update_of_ne hz]
      exact h.brings z c

theorem Direct.own (h : Direct platform s sys) {x : ι} {event : Node.Event}
    (hown : Nodes.isOwn event = true) {n : Protort.Node}
    (hn : Node.step (s.nodes x) event = some n)
    (hready : Ready platform (s.channels x) n.outbox)
    (garbage : Nat -> Memory) :
    exists sys', Nodes.step peer sys (Nodes.Event.node x event) = some sys' ∧
      Direct platform (s.withNode platform garbage x n) sys' := by
  rcases step_direct (h.node x) hn with ⟨n', hn', hsent⟩
  refine ⟨Function.update sys x n', ?_, h.withNode hsent hready garbage⟩
  unfold Nodes.step Nodes.move
  simp only [hown, if_true, hn', Option.map_some]

theorem Direct.take (h : Direct platform s sys) {x : ι} {c : Node.Client}
    {ch : Channel} {rest : List Outgoing} {index : Nat}
    (hch : ch.Brings platform rest)
    (htaken : waiting (Nodes.withoutMessage (sys x) index) c = rest)
    (hothers : forall c', c' ≠ c ->
      waiting (Nodes.withoutMessage (sys x) index) c' = waiting (sys x) c') :
    Direct platform (s.withChannel x c ch)
      (Function.update sys x (Nodes.withoutMessage (sys x) index)) := by
  refine
    { node := ?_
      emptied := h.emptied
      brings := brings_withChannel ?_ ?_ }
  · intro z
    by_cases hz : z = x
    · subst z
      rw [Function.update_self]
      exact sentBefore_withoutMessage (h.node x) (h.emptied x) index
    · rw [Function.update_of_ne hz]
      exact h.node z
  · rw [Function.update_self, htaken]
    exact hch
  · intro z c' hz
    by_cases hx : z = x
    · subst z
      rw [Function.update_self, hothers c' (hz rfl)]
      exact h.brings x c'
    · rw [Function.update_of_ne hx]
      exact h.brings z c'

theorem Direct.deliver (h : Direct platform s sys) {x y : ι}
    {c : Node.Client} (hpeer : peer x c = some y) {env : Platform}
    {ch : Channel} {m : Outgoing} {rest : List Outgoing} {n : Protort.Node}
    (hwaiting : waiting (sys x) c = m :: rest)
    (hch : ch.Brings platform rest)
    (hn : Node.step (s.nodes y)
      (Node.Event.message env (some m.origin) m.payload) = some n)
    (sending : Nat -> Memory) :
    exists index sys',
      ((sys x).outbox[index]? = some m ∧ m.client = c ∧
        Nodes.IsFirst (sys x) index m) ∧
      Nodes.step peer sys (Nodes.Event.deliver env x index) = some sys' ∧
      Direct platform ((s.withChannel x c ch).withNode platform sending y n)
        sys' := by
  rcases waiting_take hwaiting with
    ⟨index, hm, hclient, hfirst, htaken, hothers⟩
  have hempty : n.outbox = [] := (outbox_message hn).trans (h.emptied y)
  have htake := h.take hch htaken hothers
  rcases step_direct (htake.node y) hn with ⟨n', hn', hsent⟩
  refine ⟨index, Function.update (Function.update sys x
    (Nodes.withoutMessage (sys x) index)) y n', ⟨hm, hclient, hfirst⟩, ?_, ?_⟩
  · unfold Nodes.step Nodes.move
    simp only [hm, hclient, hpeer, hn', Option.map_some]
  · apply htake.withNode hsent
    rw [hempty]
    exact ⟨List.nodup_nil, fun _ hm' => absurd hm' List.not_mem_nil⟩

inductive DirectCases (platform : Platform) (peer : ι -> Node.Client -> Option ι)
    (s : Linked ι) (sys : ι -> Protort.Node) : Event ι -> Linked ι -> Prop where
  | own {x : ι} {event : Node.Event} {garbage : Nat -> Memory}
      {n : Protort.Node} : Nodes.isOwn event = true ->
      Node.step (s.nodes x) event = some n ->
      DirectCases platform peer s sys (Event.node x event garbage)
        (s.withNode platform garbage x n)
  | quiet {e : Event ι} {t : Linked ι} : ownOf e = none ->
      Direct platform t sys -> DirectCases platform peer s sys e t
  | message {x y : ι} {c : Node.Client} {env : Platform} {garbage : Memory}
      {sending : Nat -> Memory} {ch : Channel} {m : Outgoing}
      {rest : List Outgoing} {n : Protort.Node} : peer x c = some y ->
      ((s.channels x c).session (s.nodes y)).body.isSome = true ->
      waiting (sys x) c = m :: rest -> ch.Brings platform rest ->
      Node.step (s.nodes y)
        (Node.Event.message env (some m.origin) m.payload) = some n ->
      DirectCases platform peer s sys (Event.readDone x c env garbage sending)
        ((s.withChannel x c ch).withNode platform sending y n)

theorem Direct.goes (h : Direct platform s sys) {e : Event ι}
    (hstep : step platform peer s e = some t) :
    DirectCases platform peer s sys e t := by
  cases e with
  | node x event garbage =>
      rcases Option.ite_none_right_eq_some.mp hstep with ⟨hown, hstep⟩
      rcases Option.map_eq_some_iff.mp hstep with ⟨n, hn, rfl⟩
      exact DirectCases.own hown hn
  | client x c e =>
      rcases Option.ite_none_right_eq_some.mp hstep with ⟨he, hstep⟩
      rcases Option.map_eq_some_iff.mp hstep with ⟨client, hclient, rfl⟩
      exact DirectCases.quiet rfl
        (h.withChannel ((h.brings x c).client_step he hclient))
  | there x c count =>
      rcases Option.ite_none_right_eq_some.mp hstep with ⟨_, hstep⟩
      rcases Option.map_eq_some_iff.mp hstep with ⟨d, hd, rfl⟩
      exact DirectCases.quiet rfl (h.withChannel ((h.brings x c).arrive hd))
  | connection x c e =>
      rcases Option.ite_none_right_eq_some.mp hstep with ⟨he, hstep⟩
      rcases Option.map_eq_some_iff.mp hstep with ⟨d, hd, rfl⟩
      exact DirectCases.quiet rfl
        (h.withChannel ((h.brings x c).connection_step he hd))
  | readDone x c env garbage sending =>
      unfold Linked.step at hstep
      simp only at hstep
      cases hpeer : peer x c with
      | none =>
          rw [hpeer] at hstep
          cases hstep
      | some y =>
          rw [hpeer] at hstep
          rcases Option.map_eq_some_iff.mp hstep with ⟨done, hdone, rfl⟩
          cases (h.brings x c).readDone hdone with
          | @header ch hch =>
              have hself := @withNode_self _ platform (s.withChannel x c ch) _ y
                (h.emptied y) sending
              refine DirectCases.quiet rfl ?_
              show Direct platform ((s.withChannel x c ch).withNode platform
                sending y ((s.withChannel x c ch).nodes y)) sys
              rw [hself]
              exact h.withChannel hch
          | message hbody hwaiting hch hn =>
              exact DirectCases.message hpeer hbody hwaiting hch hn

/-- A step of the linked nodes is one step of nodes that hand their messages
over directly, or none. -/
theorem Direct.step (h : Direct platform s sys) {e : Event ι}
    (hone : OneAtATime platform s e) (hstep : step platform peer s e = some t) :
    exists events sys',
      Run (Guarded Nodes.KeepsOrder (Steps (Nodes.step peer))) sys events
        sys' ∧
      events.filterMap Nodes.ownOf = [e].filterMap ownOf ∧
      Direct platform t sys' := by
  cases h.goes hstep with
  | @own x event garbage n hown hn =>
      rcases h.own hown hn (hone.ready hn) garbage with ⟨sys', hsys', hafter⟩
      exact ⟨[Nodes.Event.node x event], sys',
        Run.single ⟨trivial, hsys'⟩, rfl, hafter⟩
  | quiet hnone hafter =>
      refine ⟨[], sys, Run.nil _, ?_, hafter⟩
      rw [List.filterMap_cons_none hnone]
      rfl
  | @message x y c env garbage sending ch m rest n hpeer _ hwaiting hch hn =>
      rcases h.deliver hpeer hwaiting hch hn sending with
        ⟨index, sys', ⟨hm, _, hfirst⟩, hsys', hafter⟩
      refine ⟨[Nodes.Event.deliver env x index], sys',
        Run.single ⟨?_, hsys'⟩, rfl, hafter⟩
      intro m' hm'
      rw [hm] at hm'
      cases hm'
      exact hfirst

omit [DecidableEq ι] in
theorem direct_start (platform : Platform)
    (here there : ι -> Node.Client -> Buffer -> Memory)
    (hsys : forall x, (sys x).outbox = []) :
    Direct platform (start here there sys) sys := by
  refine
    { node := ?_
      emptied := hsys
      brings := ?_ }
  · intro x
    unfold SentBefore
    rw [hsys x]
    rfl
  · intro x c
    have hnone : waiting (sys x) c = [] := by
      unfold waiting
      rw [hsys x]
      rfl
    rw [hnone]
    exact Channel.brings_start platform _ _

/-- Nodes whose clients are given one message at a time work together as nodes
that hand their messages over directly, for each client in the order in which
they were sent: the nodes do the same in the same order, a message that has not
been handed over waits in the outbox of its node, and where nothing of a channel
can go on none of its messages waits. -/
theorem messages_are_direct (platform : Platform)
    (here there : ι -> Node.Client -> Buffer -> Memory)
    (hsys : forall x, (sys x).outbox = []) {labels : List (Event ι)}
    (hrun : Run (Guarded (OneAtATime platform) (Steps (step platform peer)))
      (start here there sys) labels s) :
    exists events sys',
      Run (Guarded Nodes.KeepsOrder (Steps (Nodes.step peer))) sys events
        sys' ∧
      events.filterMap Nodes.ownOf = labels.filterMap ownOf ∧
      forall x,
        sys' x = { s.nodes x with outbox := (sys' x).outbox } ∧
        forall c,
          waiting (sys' x) c = (s.channels x c).given.drop
            (s.channels x c).connection.handed.length ∧
          ((s.channels x c).Settled platform -> waiting (sys' x) c = []) := by
  rcases hrun.observed ownOf Nodes.ownOf
    (fun hstep h => h.step hstep.left hstep.right)
    (direct_start platform here there hsys) with
      ⟨events, sys', hevents, hsame, hend⟩
  refine ⟨events, sys', hevents, hsame, fun x => ⟨?_, fun c => ?_⟩⟩
  · have hnode := hend.node x
    unfold SentBefore at hnode
    rw [hend.emptied x, List.append_nil] at hnode
    exact hnode
  · exact ⟨(hend.brings x c).waits, (hend.brings x c).settled⟩

end Direct

/-!
## Two nodes
-/

/-- The loopback machine, with messages from a component "g" to a component whose
name is a letter, between ports that are 0. -/
def messagePlatform (name : String) (letter : UInt8) : Platform :=
  { Platform.loopback with
    serialize := fun packet =>
      match packet.payload with
      | Protocol.Payload.communicationPacket sent =>
          [26, 38, 10, 36, 10, 3, 26, 1, 103, 18, 3, 26, 1, letter, 26, 24] ++
            sent.payload
      | payload => wirePayload payload
    parse := fun bytes =>
      match bytes with
      | 26 :: 38 :: 10 :: 36 :: 10 :: 3 :: 26 :: 1 :: 103 :: 18 :: 3 :: 26 ::
          1 :: other :: 26 :: 24 :: payload =>
          if other = letter then
            { kind := Protocol.Kind.message
              transaction := default
              payload := Protocol.Payload.communicationPacket
                { source := { port := 0, name := "g" }
                  destination := { port := 0, name := name }
                  payload := payload } }
          else
            parsePacket bytes
      | _ => parsePacket bytes }

def linePlatform : Platform :=
  messagePlatform "h" 104

/-- The generator sends two packets.  The first one is brought to the history in
two pieces, of the second some bytes have arrived. -/
def lineLabels : List (Event Bool) :=
  let c := Nodes.lineRoute.client
  let own (x : Bool) (event : Node.Event) : Event Bool :=
    Event.node x event (fun _ _ => 0)
  let turn (value : UInt32) : Event Bool :=
    own false (Node.Event.run (Nodes.drawingOf value) 0)
  let read (count : Nat) : List (Event Bool) :=
    [Event.connection false c (Connection.Event.io (IoEvent.readSome count)),
      Event.readDone false c Platform.loopback (fun _ => 0) (fun _ _ => 0)]
  [own true (Node.command Protocol.Deploy.PacketKind.start),
    own false (Node.Event.request (Nodes.drawingOf 1)
      (Protocol.Payload.deployPacket
        { kind := Protocol.Deploy.PacketKind.start
          payload := Protocol.Deploy.PacketPayload.notSet })),
    turn 0,
    Event.client false c (Client.Event.io (IoEvent.writeSome 0 30)),
    Event.there false c 20,
    Event.client false c (Client.Event.io (IoEvent.writeSome 0 14)),
    Event.client false c (Client.Event.writeDone 0),
    turn 2, turn 0,
    Event.there false c 24] ++ read 4 ++ read 40 ++
  [Event.client false c (Client.Event.io (IoEvent.writeSome 0 9)),
    Event.there false c 7]

theorem messages_are_direct_line :
    exists s events sys',
      Run (Guarded (OneAtATime linePlatform)
        (Steps (step linePlatform Nodes.linePeer)))
        (start (fun _ _ _ _ => 0) (fun _ _ _ _ => 0) Nodes.line) lineLabels s ∧
      Run (Guarded Nodes.KeepsOrder (Steps (Nodes.step Nodes.linePeer)))
        Nodes.line events sys' ∧
      events.filterMap Nodes.ownOf = lineLabels.filterMap ownOf ∧
      (s.nodes true).service.length = 1 ∧
      (waiting (sys' false) Nodes.lineRoute.client).length = 1 := by
  have hend : (Lib.execute (fun s e =>
      if OneAtATime linePlatform s e then
        step linePlatform Nodes.linePeer s e
      else
        none) (start (fun _ _ _ _ => 0) (fun _ _ _ _ => 0) Nodes.line)
          lineLabels).map (fun s =>
        ((s.nodes true).service.length,
          ((s.channels false Nodes.lineRoute.client).given.drop
            (s.channels false
              Nodes.lineRoute.client).connection.handed.length).length)) =
      some (1, 1) := by
    decide +kernel
  have hsys : forall x, (Nodes.line x).outbox = [] := by
    intro x
    cases x with
    | false => decide +kernel
    | true => decide +kernel
  rcases Option.map_eq_some_iff.mp hend with ⟨s, hexecute, hs⟩
  rw [Prod.mk.injEq] at hs
  have hrun := Run.guarded_of_execute hexecute
  rcases messages_are_direct linePlatform _ _ hsys hrun with
    ⟨events, sys', hevents, hsame, hend⟩
  refine ⟨s, events, sys', hrun, hevents, hsame, hs.left, ?_⟩
  rw [((hend false).right _).left]
  exact hs.right

end Linked

end System
end Protort
