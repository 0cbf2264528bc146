import Protort.Lib.Service
import Protort.Protolink.Framing
import Protort.Protolink.Receiving
import Protort.Protolink.Sending
import Protort.System.Peers

/-!
# Calls over a connection

A client and the session of a node that it is connected to.  What the client
writes arrives at the node and what the node writes arrives at the client, both
in chunks of any size at any time.

A client that sends a request only when all earlier ones are through has, for
all that it can see, called the node directly: every request is handled once, in
order, and its callbacks get what the node returned.
-/

namespace Protort
namespace System

open Lib (Bytes Memory Socket IoEvent Run Guarded Reaches Service execute)
open Link (Buffer maxPacketSize headerSize)
open Protolink (Client Connection)

/-- Two ends of one TCP connection. -/
structure Exchange where
  client : Client
  session : Session

namespace Exchange

/-- What happens: a request is sent, one end goes on, or bytes that one end has
written arrive at the other. -/
inductive Event where
  | call (payload : Protocol.Payload) (garbage : Memory)
  | client (event : Client.Event)
  | session (event : Session.Event)
  | there (count : Nat)
  | back (count : Nat)

def start (here there : Buffer -> Memory) (n : Protort.Node) : Exchange :=
  { client := Client.new here
    session := Session.start there n }

def connection (s : Exchange) : Connection :=
  s.session.connection

/-- Bytes move and handlers run; nothing arrives of its own accord, and the
connection stays up. -/
def ofClient : Client.Event -> Bool
  | Client.Event.sendMessage _ _ => false
  | Client.Event.sendRequest _ _ _ => false
  | Client.Event.io e => Socket.IsMoving e
  | _ => true

def ofSession : Session.Event -> Bool
  | Session.Event.io e => Socket.IsMoving e
  | _ => true

def onWayThere (s : Exchange) (count : Nat) : Bytes :=
  (s.client.socket.wire.drop s.connection.socket.arrived.length).take count

def onWayBack (s : Exchange) (count : Nat) : Bytes :=
  (s.connection.socket.wire.drop s.client.socket.arrived.length).take count

/-- The callbacks of a request are known by its number. -/
def step (platform : Platform) (s : Exchange) (e : Event) : Option Exchange :=
  match e with
  | Event.call payload garbage =>
      (s.client.step platform (Client.Event.sendRequest payload
        s.client.sent.length garbage)).map (fun c => { s with client := c })
  | Event.client e =>
      if ofClient e then
        (s.client.step platform e).map (fun c => { s with client := c })
      else
        none
  | Event.session e =>
      if ofSession e then
        (s.session.step platform e).map (fun t => { s with session := t })
      else
        none
  | Event.there count =>
      if s.onWayThere count ≠ [] then
        (s.session.step platform (Session.Event.io
          (IoEvent.arrive (s.onWayThere count)))).map
            (fun t => { s with session := t })
      else
        none
  | Event.back count =>
      if s.onWayBack count ≠ [] then
        (s.client.step platform (Client.Event.io
          (IoEvent.arrive (s.onWayBack count)))).map
            (fun c => { s with client := c })
      else
        none

/-!
## One call at a time
-/

/-- A packet that is not too long and is read as it was written. -/
def Sendable (platform : Platform) (limit : Nat) (packet : Protocol.Packet) :
    Prop :=
  (platform.serialize packet).length <= limit ∧
    platform.parse (platform.serialize packet) = packet

instance (platform : Platform) (limit : Nat) (packet : Protocol.Packet) :
    Decidable (Sendable platform limit packet) :=
  inferInstanceAs (Decidable (_ ∧ _))

def reply (request : Protocol.Packet) (answer : Protocol.Payload) :
    Protocol.Packet :=
  { kind := Protocol.Kind.response
    transaction := request.transaction
    payload := answer }

/-- The node returns from handling a packet, and its answer can be sent.  The
response shares its buffer with the header. -/
def Returns (platform env : Platform) (packet : Protocol.Packet)
    (n : Protort.Node) : Prop :=
  match Session.callback env packet n with
  | EStateM.Result.ok answer _ =>
      Sendable platform (maxPacketSize - headerSize) (reply packet answer)
  | EStateM.Result.error _ _ => False

instance (platform env : Platform) (packet : Protocol.Packet)
    (n : Protort.Node) : Decidable (Returns platform env packet n) :=
  match h : Session.callback env packet n with
  | EStateM.Result.ok answer _ =>
      decidable_of_iff
        (Sendable platform (maxPacketSize - headerSize) (reply packet answer))
        (by simp [Returns, h])
  | EStateM.Result.error _ _ => isFalse (by simp [Returns, h])

/-- A request is sent when all earlier ones are through, and the node returns
from handling it. -/
def OneAtATime (platform : Platform) (s : Exchange) (e : Event) : Prop :=
  match e with
  | Event.call payload _ =>
      s.client.finished.length = s.client.sent.length ∧
        Sendable platform maxPacketSize
          (Client.request s.client.transactionId payload)
  | Event.session e =>
      match s.session.packet platform e with
      | some (env, packet) => Returns platform env packet s.session.node
      | none => True
  | _ => True

instance (platform : Platform) (s : Exchange) (e : Event) :
    Decidable (OneAtATime platform s e) :=
  match e with
  | Event.call _ _ => inferInstanceAs (Decidable (_ ∧ _))
  | Event.client _ => isTrue trivial
  | Event.there _ => isTrue trivial
  | Event.back _ => isTrue trivial
  | Event.session e =>
      match h : s.session.packet platform e with
      | none => isTrue (by simp [OneAtATime, h])
      | some (env, packet) =>
          decidable_of_iff (Returns platform env packet s.session.node)
            (by simp [OneAtATime, h])

def service (platform : Platform) (s : Exchange) :
    Service Protort.Node Protocol.Payload Protocol.Payload :=
  { state := s.session.node
    asked := s.client.sent.map (fun packet => (platform.parse packet).payload)
    answers := s.connection.answered.map Prod.snd
    results := s.client.finished.map Prod.snd }

/-- A direct call of the node, on any platform. -/
def HandlesCall (n : Protort.Node) (request answer : Protocol.Payload)
    (n' : Protort.Node) : Prop :=
  exists env, Node.onNewRequest env request n = EStateM.Result.ok answer n'

def WorksElsewhere (n n' : Protort.Node) : Prop :=
  exists event, Node.step n event = some n'

/-!
## What the ends know of each other
-/

/-- A client that has sent requests only, of which all but the last are
through. -/
structure Asked (platform : Platform) (c : Client) : Prop where
  packets : forall i packet, c.sent[i]? = some packet -> exists payload,
    packet = platform.serialize (Client.request (UInt32.ofNat i) payload) ∧
      Sendable platform maxPacketSize (Client.request (UInt32.ofNat i) payload)
  next : c.transactionId = UInt32.ofNat c.sent.length
  writes : c.socket.writes.length + c.answerable = c.sent.length
  requests : forall w, w ∈ c.socket.writes ->
    w.tag = Protocol.Kind.request ∧ w.done <= w.size
  through : c.sent.length <= c.handed.length + 1
  table : forall key, c.transactions.lookup key =
    if c.sent.length = c.handed.length + 1 ∧
        key = (UInt32.ofNat c.handed.length).toInt32 then
      some c.handed.length
    else
      none

structure Paired (platform : Platform) (c : Client) (d : Connection) : Prop
    where
  asked : Asked platform c
  sending : Client.Sending platform c
  synced : Client.Synced platform c
  here : c.socket.ended = false
  reading : Connection.Invariant platform d
  answering : Connection.Answering platform d
  running : d.aborted = false
  up : d.socket.ended = false
  there : List.IsPrefix d.socket.arrived c.socket.wire
  back : List.IsPrefix c.socket.arrived d.socket.wire
  answered : d.answered.map Prod.fst = d.handed.map platform.parse
  replies : forall x, x ∈ d.answered ->
    Sendable platform (maxPacketSize - headerSize) (reply x.1 x.2)
  results : c.finished.map Prod.snd =
    (d.answered.map Prod.snd).take c.handed.length
  numbers : c.finished.map Prod.fst = List.range c.handed.length

section Ends

variable {platform : Platform} {c : Client} {d : Connection}

theorem Asked.fits (h : Asked platform c) :
    platform.framing.Fits c.sent := by
  intro packet hpacket
  rcases List.mem_iff_getElem?.mp hpacket with ⟨i, hi⟩
  rcases h.packets i packet hi with ⟨payload, rfl, hplain⟩
  exact hplain.left

theorem Asked.parse (h : Asked platform c) {i : Nat} {packet : Bytes}
    (hi : c.sent[i]? = some packet) : exists payload,
      platform.parse packet = Client.request (UInt32.ofNat i) payload := by
  rcases h.packets i packet hi with ⟨payload, rfl, hplain⟩
  exact ⟨payload, hplain.right⟩

theorem opened_of_receiving {tag : Type} {handed packets : List Bytes}
    {aborted : Bool} {s : Socket Buffer tag}
    (h : Link.Receiving platform handed aborted s)
    (hpackets : platform.framing.Fits packets)
    (harrived : List.IsPrefix s.arrived (platform.framing.frames packets)) :
    s.closed = false := by
  cases h with
  | header _ hopen _ => exact hopen
  | packet _ hopen _ => exact hopen
  | exhausted _ hopen _ _ _ _ => exact hopen
  | aborted _ hopen _ => exact hopen
  | @refused part _ _ hpart hat =>
      rcases harrived with ⟨later, hlater⟩
      rw [← List.append_nil (platform.framing.frames packets)] at hlater
      rcases hat.stream_split hpackets (Client.stuck_nil platform) hlater with
        ⟨others, hsplit, hrest⟩
      have hstuck : platform.framing.Oversized
          (platform.framing.frames others ++ []) := by
        rw [← hrest]
        exact hpart.append _
      cases others with
      | nil =>
          rcases hstuck with ⟨header, tail, hnil, hlength, _⟩
          have hheader : header.length = 0 := by
            have := congrArg List.length hnil
            simp only [List.length_append] at this
            exact Nat.eq_zero_of_add_eq_zero_right this.symm
          rw [hheader] at hlength
          cases hlength
      | cons packet others =>
          rw [Lib.Framing.frames_cons, List.append_assoc] at hstuck
          have hfits : packet.length <= platform.framing.limit := by
            apply hpackets
            rw [hsplit]
            exact List.mem_append_right _ List.mem_cons_self
          exact absurd (Or.inr hstuck)
            (Lib.Framing.not_stuck_frame_append hfits)

theorem Paired.arrived_sent (h : Paired platform c d) :
    List.IsPrefix d.socket.arrived (platform.framing.frames c.sent) := by
  rw [Lib.Framing.frames_eq_flatten]
  exact h.there.trans h.sending.isPrefix

theorem Paired.arrived_responses (h : Paired platform c d) :
    List.IsPrefix c.socket.arrived
      (platform.framing.frames (d.responses platform)) := by
  rw [Lib.Framing.frames_eq_flatten]
  exact h.back.trans h.answering.isPrefix

theorem Paired.opened (h : Paired platform c d) : d.socket.closed = false :=
  opened_of_receiving h.reading.receiving h.asked.fits h.arrived_sent

theorem Paired.handed_sent (h : Paired platform c d) :
    List.IsPrefix d.handed c.sent := by
  rcases h.reading.receiving.at with ⟨position, hat⟩
  have harrived := h.arrived_sent
  rw [← List.append_nil (platform.framing.frames c.sent)] at harrived
  exact hat.handed_isPrefix h.asked.fits (Client.stuck_nil platform) harrived

theorem Paired.responses (h : Paired platform c d) :
    Client.Responses platform (d.responses platform) := by
  have hbody : forall body, body ∈ d.responses platform -> exists x,
      x ∈ d.answered ∧ body = platform.serialize (reply x.1 x.2) := by
    intro body hbody
    rcases List.mem_map.mp hbody with ⟨x, hx, rfl⟩
    exact ⟨x, hx, rfl⟩
  constructor
  · intro body hmem
    rcases hbody body hmem with ⟨x, hx, rfl⟩
    exact (h.replies x hx).left.trans (Nat.sub_le _ _)
  · intro body hmem
    rcases hbody body hmem with ⟨x, hx, rfl⟩
    rw [(h.replies x hx).right]
    rfl

theorem Paired.handed_responses (h : Paired platform c d) :
    List.IsPrefix c.handed (d.responses platform) :=
  h.synced.inStep.handed_isPrefix h.responses h.arrived_responses

theorem Paired.counts (h : Paired platform c d) :
    c.handed.length <= d.answered.length ∧
      d.answered.length = d.handed.length ∧
      d.answered.length <= c.sent.length := by
  have hback := h.handed_responses.length_le
  have hthere := h.handed_sent.length_le
  have heach := congrArg List.length h.answered
  rw [Connection.responses, List.length_map] at hback
  rw [List.length_map, List.length_map] at heach
  exact ⟨hback, heach, heach.le.trans hthere⟩

theorem Paired.live (h : Paired platform c d) :
    exists position, Link.At platform c.handed position c.socket ∧
      (forall rest, position = Link.Position.idle rest -> rest = []) ∧
      c.handed.length + c.socket.reads.length = c.answerable := by
  cases h.synced.inStep with
  | live hat hidle hcount => exact ⟨_, hat, hidle, hcount⟩
  | exhausted hended _ _ _ _ _ =>
      rw [h.here] at hended
      cases hended

theorem length_frames_le {tag : Type} {handed : List Bytes}
    {position : Link.Position} {s : Socket Buffer tag}
    (hat : Link.At platform handed position s) :
    (platform.framing.frames handed).length <= s.arrived.length := by
  rw [Socket.arrived, hat.received]
  simp only [List.length_append]
  omega

theorem length_lt_of_inbox {tag : Type} {handed packets : List Bytes}
    {position : Link.Position} {s : Socket Buffer tag}
    (hat : Link.At platform handed position s)
    (hpackets : platform.framing.Fits packets)
    (harrived : List.IsPrefix s.arrived (platform.framing.frames packets))
    (hinbox : s.inbox ≠ []) : handed.length < packets.length := by
  rcases harrived with ⟨later, hlater⟩
  rw [← List.append_nil (platform.framing.frames packets)] at hlater
  rcases hat.stream_split hpackets (Client.stuck_nil platform) hlater with
    ⟨others, hsplit, hrest⟩
  rw [hsplit, List.length_append]
  cases others with
  | nil =>
      rw [Lib.Framing.frames_nil, List.append_nil, List.append_eq_nil_iff,
        List.append_eq_nil_iff] at hrest
      exact absurd hrest.right.left hinbox
  | cons packet others =>
      rw [List.length_cons]
      omega

theorem Paired.client_pending (h : Paired platform c d)
    (hall : d.answered.length = c.sent.length) : c.socket.pending = [] := by
  rcases h.reading.receiving.at with ⟨position, hat⟩
  have hhanded : d.handed = c.sent := by
    apply h.handed_sent.eq_of_length
    rw [← h.counts.right.left, hall]
  have hread := length_frames_le hat
  rw [hhanded, Lib.Framing.frames_eq_flatten] at hread
  exact h.sending.pending_eq_nil h.synced.opened
    (hread.trans h.there.length_le)

theorem Paired.node_pending (h : Paired platform c d)
    (hall : c.handed.length = d.answered.length) : d.socket.pending = [] := by
  rcases h.live with ⟨position, hat, _, _⟩
  have hhanded : c.handed = d.responses platform := by
    apply h.handed_responses.eq_of_length
    rw [Connection.responses, List.length_map, hall]
  have hread := length_frames_le hat
  rw [hhanded, Lib.Framing.frames_eq_flatten] at hread
  exact h.answering.pending_eq_nil h.opened (hread.trans h.back.length_le)

theorem Paired.client_pending_of_inbox (h : Paired platform c d)
    (hinbox : c.socket.inbox ≠ []) : c.socket.pending = [] := by
  rcases h.live with ⟨position, hat, _, _⟩
  have hless := length_lt_of_inbox hat h.responses.fits h.arrived_responses
    hinbox
  rw [Connection.responses, List.length_map] at hless
  apply h.client_pending
  have hcounts := h.counts
  have hthrough := h.asked.through
  omega

theorem Paired.node_pending_of_inbox (h : Paired platform c d)
    (hinbox : d.socket.inbox ≠ []) : d.socket.pending = [] := by
  rcases h.reading.receiving.at with ⟨position, hat⟩
  have hless := length_lt_of_inbox hat h.asked.fits h.arrived_sent hinbox
  apply h.node_pending
  have hcounts := h.counts
  have hthrough := h.asked.through
  omega

theorem Paired.reads_nil (h : Paired platform c d)
    (hwrites : c.socket.writes ≠ []) : c.socket.reads = [] := by
  rcases h.live with ⟨position, _, _, hcount⟩
  have hpositive := List.length_pos_iff.mpr hwrites
  have hthrough := h.asked.through
  have htotal := h.asked.writes
  apply List.length_eq_zero_iff.mp
  omega

theorem undisturbed_of_pending {tag : Type} {s : Socket Buffer tag}
    (e : IoEvent) (h : forall count, e = IoEvent.readSome count ->
      s.pending = []) : s.Undisturbed e := by
  unfold Socket.Undisturbed
  cases e with
  | readSome count =>
      cases hserved : s.served with
      | none => trivial
      | some r =>
          intro w hw
          rw [h count rfl] at hw
          cases hw
  | _ => trivial

theorem inbox_of_readSome {tag : Type} {s t : Socket Buffer tag} {count : Nat}
    (h : s.progress (IoEvent.readSome count) = some t) : s.inbox ≠ [] := by
  rcases Socket.readSome_eq_some h with ⟨_, _, _, hpositive, hle, _, _⟩
  intro hnil
  rw [hnil, List.length_nil] at hle
  omega

/-!
## Steps of the client
-/

/-- What is left to show when a client goes on without new packets. -/
theorem Paired.client_goes (h : Paired platform c d) {c' : Client}
    (hsending : Client.Sending platform c')
    (hsynced : Client.Synced platform c') (hended : c'.socket.ended = false)
    (hwire : List.IsPrefix c.socket.wire c'.socket.wire)
    (hback : List.IsPrefix c'.socket.arrived d.socket.wire)
    (hsent : c'.sent = c.sent) (hhanded : c'.handed = c.handed)
    (hfinished : c'.finished = c.finished)
    (htable : c'.transactions = c.transactions)
    (hnext : c'.transactionId = c.transactionId)
    (hwrites : c'.socket.writes.length + c'.answerable = c.sent.length)
    (hrequests : forall w, w ∈ c'.socket.writes ->
      w.tag = Protocol.Kind.request ∧ w.done <= w.size) :
    Paired platform c' d := by
  refine
    { h with
      asked := ?_
      sending := hsending
      synced := hsynced
      here := hended
      there := h.there.trans hwire
      back := hback
      results := ?_
      numbers := ?_ }
  · exact
      { packets := by
          rw [hsent]
          exact h.asked.packets
        next := by
          rw [hnext, hsent]
          exact h.asked.next
        writes := by
          rw [hsent]
          exact hwrites
        requests := hrequests
        through := by
          rw [hsent, hhanded]
          exact h.asked.through
        table := by
          rw [hsent, hhanded, htable]
          exact h.asked.table }
  · rw [hfinished, hhanded]
    exact h.results
  · rw [hfinished, hhanded]
    exact h.numbers

theorem Paired.client_io (h : Paired platform c d) {e : IoEvent}
    (he : Socket.IsMoving e = true) {s : Socket Buffer Protocol.Kind}
    (hs : c.socket.progress e = some s) :
    Paired platform { c with socket := s } d := by
  have hsafe : c.socket.Undisturbed e := by
    apply undisturbed_of_pending e
    intro count hcount
    subst hcount
    exact h.client_pending_of_inbox (inbox_of_readSome hs)
  rcases Socket.moving_progress he hs with ⟨harrived, hended, hlength, hwrites⟩
  refine h.client_goes (h.sending.progress hsafe hs)
    (Client.progress_synced hs h.synced) (hended.trans h.here)
    (Socket.wire_progress hs) ?_ rfl rfl rfl rfl rfl ?_ ?_
  · rw [harrived]
    exact h.back
  · rw [hlength]
    exact h.asked.writes
  · intro w hw
    rcases hwrites w hw with ⟨w', hw', htag, hsize⟩
    rcases h.asked.requests w' hw' with ⟨hrequest, hdone⟩
    exact ⟨htag.symm.trans hrequest, hsize hdone⟩

theorem Paired.client_arrives (h : Paired platform c d) {bytes : Bytes}
    (hbytes : List.IsPrefix (c.socket.arrived ++ bytes) d.socket.wire)
    {s : Socket Buffer Protocol.Kind}
    (hs : c.socket.progress (IoEvent.arrive bytes) = some s) :
    Paired platform { c with socket := s } d := by
  have hsynced := Client.progress_synced hs h.synced
  have hsending := h.sending.progress
    (undisturbed_of_pending (IoEvent.arrive bytes) (fun _ => nofun)) hs
  have hwire := Socket.wire_progress hs
  simp only [Socket.progress, Option.ite_none_left_eq_some,
    Option.some.injEq] at hs
  rcases hs with ⟨_, rfl⟩
  refine h.client_goes hsending hsynced h.here hwire ?_ rfl rfl rfl rfl rfl
    h.asked.writes h.asked.requests
  rw [Socket.arrived, List.append_assoc] at hbytes
  exact hbytes

theorem Paired.client_header (h : Paired platform c d)
    {r : Lib.PendingRead Buffer} {s : Socket Buffer Protocol.Kind}
    (hs : c.socket.takeRead = some (r, s))
    (hr : r.target = Buffer.packetHeader) :
    Paired platform (Client.onHeaderRead platform { c with socket := s })
      d := by
  have hsending : Client.Sending platform
      (Client.onHeaderRead platform { c with socket := s }) :=
    Link.carries_onHeaderRead platform _ (h.sending.takeRead hs)
  have harrived : s.arrived = c.socket.arrived := by
    rw [(Socket.takeRead_eq_some hs).right.right]
    rfl
  have hsynced := Client.header_synced hs hr h.responses
    (harrived ▸ h.arrived_responses) h.synced
  have hsocket := (Socket.takeRead_eq_some hs).right.right
  refine h.client_goes hsending hsynced ?_ ?_ ?_ rfl rfl rfl rfl rfl ?_ ?_
  · show (Link.onHeaderRead platform s).ended = false
    rw [Link.onHeaderRead_ended, hsocket]
    exact h.here
  · show List.IsPrefix _ (Link.onHeaderRead platform s).wire
    rw [Link.onHeaderRead_wire, hsocket]
  · show List.IsPrefix (Link.onHeaderRead platform s).arrived _
    rw [Link.onHeaderRead_arrived, harrived]
    exact h.back
  · show (Link.onHeaderRead platform s).writes.length + _ = _
    rw [Link.onHeaderRead_writes, hsocket]
    exact h.asked.writes
  · show forall w, w ∈ (Link.onHeaderRead platform s).writes -> _
    rw [Link.onHeaderRead_writes, hsocket]
    exact h.asked.requests

theorem Paired.client_written (h : Paired platform c d) {index : Nat}
    {w : Lib.PendingWrite Buffer Protocol.Kind}
    {s : Socket Buffer Protocol.Kind}
    (hs : c.socket.takeWrite index = some (w, s)) :
    Paired platform (Client.onPacketSent w.tag { c with socket := s }) d := by
  rcases Socket.takeWrite_eq_some hs with ⟨hw, _, hsocket⟩
  have hmem := List.mem_of_getElem? hw
  have htag := (h.asked.requests w hmem).left
  have hsending : Client.Sending platform
      (Client.onPacketSent w.tag { c with socket := s }) :=
    Client.onPacketSent_sending (h.sending.takeWrite hs)
  have hsynced := Client.writeDone_synced hs
    (fun _ r hr => by
      rw [h.reads_nil (List.ne_nil_of_mem hmem)] at hr
      cases hr) h.synced
  rw [htag] at hsending hsynced ⊢
  refine h.client_goes hsending hsynced ?_ ?_ ?_ rfl rfl rfl rfl rfl ?_ ?_
  · show s.ended = false
    rw [hsocket]
    exact h.here
  · show List.IsPrefix _ s.wire
    rw [hsocket]
  · show List.IsPrefix s.arrived _
    rw [hsocket]
    exact h.back
  · show s.writes.length + (c.answerable + 1) = _
    have hlength : s.writes.length + 1 = c.socket.writes.length := by
      rw [hsocket]
      exact List.length_eraseIdx_add_one (List.getElem?_eq_some_iff.mp hw).choose
    have htotal := h.asked.writes
    omega
  · intro w' hw'
    apply h.asked.requests
    have hw' : w' ∈ s.writes := hw'
    rw [hsocket] at hw'
    exact List.mem_of_mem_eraseIdx hw'

theorem handed_onNewPacket (buffer : Bytes) (c : Client) :
    (c.onNewPacket platform buffer).handed = c.handed ++ [buffer] := by
  unfold Client.onNewPacket
  cases hkind : (platform.parse buffer).kind with
  | response =>
      simp only [hkind]
      exact (Client.onResponse_handed _ _).left
  | _ => simp only [hkind]

theorem Paired.next_response (h : Paired platform c d) {buffer : Bytes}
    (hnext : List.IsPrefix (c.handed ++ [buffer]) (d.responses platform)) :
    exists x, d.answered[c.handed.length]? = some x ∧
      platform.parse buffer = reply x.1 x.2 ∧
      x.1.transaction.id = UInt32.ofNat c.handed.length ∧
      c.sent.length = c.handed.length + 1 := by
  have hbuffer : (d.responses platform)[c.handed.length]? = some buffer := by
    rcases hnext with ⟨rest, hrest⟩
    rw [← hrest, List.append_assoc, List.getElem?_append_right (Nat.le_refl _),
      Nat.sub_self]
    rfl
  rw [Connection.responses, List.getElem?_map, Option.map_eq_some_iff]
    at hbuffer
  rcases hbuffer with ⟨x, hx, hxbuffer⟩
  refine ⟨x, hx, ?_, ?_, ?_⟩
  · rw [← hxbuffer]
    exact (h.replies x (List.mem_of_getElem? hx)).right
  · have hfirst : (d.handed.map platform.parse)[c.handed.length]? =
        some x.1 := by
      rw [← h.answered, List.getElem?_map, hx]
      rfl
    rw [List.getElem?_map, Option.map_eq_some_iff] at hfirst
    rcases hfirst with ⟨packet, hpacket, hfirst⟩
    have hsent : c.sent[c.handed.length]? = some packet := by
      rcases h.handed_sent with ⟨rest, hrest⟩
      rw [← hrest, List.getElem?_append_left
        (List.getElem?_eq_some_iff.mp hpacket).choose]
      exact hpacket
    rcases h.asked.parse hsent with ⟨payload, hpayload⟩
    rw [← hfirst, hpayload]
    rfl
  · have hless := (List.getElem?_eq_some_iff.mp hx).choose
    have hcounts := h.counts
    have hthrough := h.asked.through
    omega

theorem Paired.finished_length (h : Paired platform c d) :
    c.finished.length = c.handed.length := by
  have hlength := congrArg List.length h.numbers
  rw [List.length_map, List.length_range] at hlength
  exact hlength

/-- A response completes the last request. -/
theorem Paired.client_packet (h : Paired platform c d)
    {r : Lib.PendingRead Buffer} {s : Socket Buffer Protocol.Kind}
    (hs : c.socket.takeRead = some (r, s)) (hr : r.target = Buffer.packet) :
    Paired platform (Client.onPacketRead platform r.size { c with socket := s })
        d ∧
      exists y, (d.answered.map Prod.snd)[c.finished.length]? = some y ∧
        (Client.onPacketRead platform r.size
          { c with socket := s }).finished.map Prod.snd =
            c.finished.map Prod.snd ++ [y] ∧
        (Client.onPacketRead platform r.size
          { c with socket := s }).sent = c.sent := by
  have hsocket := (Socket.takeRead_eq_some hs).right.right
  have harrived : s.arrived = c.socket.arrived := by
    rw [hsocket]
    rfl
  have hsynced := Client.packet_synced hs hr h.responses
    (harrived ▸ h.arrived_responses) h.synced
  unfold Client.onPacketRead at hsynced ⊢
  simp only at hsynced ⊢
  generalize (s.memory Buffer.packet).read 0 r.size = buffer at hsynced ⊢
  have hsame := Client.onNewPacket_sameTraffic platform buffer
    { c with socket := s }
  have hhanded : (Client.onNewPacket platform buffer
      { c with socket := s }).handed = c.handed ++ [buffer] :=
    handed_onNewPacket buffer { c with socket := s }
  have hnext : List.IsPrefix (c.handed ++ [buffer])
      (d.responses platform) := by
    rw [← hhanded]
    refine hsynced.inStep.handed_isPrefix h.responses ?_
    rw [hsame.socket, harrived]
    exact h.arrived_responses
  rcases h.next_response hnext with ⟨x, hx, hparse, hid, houtstanding⟩
  have hlookup : c.transactions.lookup
      (reply x.1 x.2).transaction.id.toInt32 = some c.handed.length := by
    show c.transactions.lookup x.1.transaction.id.toInt32 = _
    rw [h.asked.table, hid]
    exact if_pos ⟨houtstanding, rfl⟩
  have hnew : Client.onNewPacket platform buffer { c with socket := s } =
      { c with
        socket := s
        handed := c.handed ++ [buffer]
        finished := c.finished ++ [(c.handed.length, x.2)]
        transactions := c.transactions.erase
          (UInt32.ofNat c.handed.length).toInt32 } := by
    unfold Client.onNewPacket
    rw [hparse]
    show Client.onResponse (reply x.1 x.2) _ = _
    unfold Client.onResponse
    simp only [hlookup]
    rw [← hid]
    rfl
  have hanswer : (d.answered.map Prod.snd)[c.handed.length]? = some x.2 := by
    rw [List.getElem?_map, hx]
    rfl
  rw [hnew] at hsynced ⊢
  constructor
  · refine
      { h with
        asked := ?_
        sending := h.sending.takeRead hs
        synced := hsynced
        here := ?_
        there := ?_
        back := ?_
        results := ?_
        numbers := ?_ }
    · refine
        { packets := h.asked.packets
          next := h.asked.next
          writes := ?_
          requests := ?_
          through := ?_
          table := ?_ }
      · show s.writes.length + c.answerable = c.sent.length
        rw [hsocket]
        exact h.asked.writes
      · show forall w, w ∈ s.writes -> _
        rw [hsocket]
        exact h.asked.requests
      · show c.sent.length <= (c.handed ++ [buffer]).length + 1
        rw [List.length_append]
        omega
      · intro key
        have hlength : (c.handed ++ [buffer]).length = c.handed.length + 1 :=
          List.length_append
        rw [if_neg (by simp only [hlength]; omega)]
        show (c.transactions.erase _).lookup key = none
        by_cases hkey : key = (UInt32.ofNat c.handed.length).toInt32
        · rw [hkey, Finmap.lookup_erase]
        · rw [Finmap.lookup_erase_ne hkey, h.asked.table]
          exact if_neg (fun hand => hkey hand.right)
    · show s.ended = false
      rw [hsocket]
      exact h.here
    · show List.IsPrefix _ s.wire
      rw [hsocket]
      exact h.there
    · show List.IsPrefix s.arrived _
      rw [harrived]
      exact h.back
    · show (c.finished ++ [(c.handed.length, x.2)]).map Prod.snd =
        (d.answered.map Prod.snd).take (c.handed ++ [buffer]).length
      rw [List.map_append, List.length_append, h.results, List.length_singleton,
        List.take_add_one, hanswer]
      rfl
    · show (c.finished ++ [(c.handed.length, x.2)]).map Prod.fst =
        List.range (c.handed ++ [buffer]).length
      rw [List.map_append, List.length_append, h.numbers]
      exact List.range_succ.symm
  · refine ⟨x.2, ?_, List.map_append, rfl⟩
    rw [h.finished_length]
    exact hanswer

theorem Paired.client_call (h : Paired platform c d)
    {payload : Protocol.Payload} {garbage : Memory}
    (hidle : c.finished.length = c.sent.length)
    (hplain : Sendable platform maxPacketSize
      (Client.request c.transactionId payload)) :
    Paired platform
      (c.asyncSendRequest platform garbage payload c.sent.length) d := by
  have hhanded : c.handed.length = c.sent.length :=
    h.finished_length.symm.trans hidle
  have hpending : c.socket.pending = [] := by
    apply h.client_pending
    have hcounts := h.counts
    omega
  have hnone : forall key, c.transactions.lookup key = none := by
    intro key
    rw [h.asked.table]
    exact if_neg (by omega)
  have hreads : c.socket.reads = [] := by
    rcases h.live with ⟨position, _, _, hcount⟩
    have htotal := h.asked.writes
    apply List.length_eq_zero_iff.mp
    omega
  have hregistered : Client.Synced platform
      { c with
        transactions := c.transactions.emplace c.transactionId.toInt32
          c.sent.length
        transactionId := c.transactionId + 1 } := by
    rcases h.live with ⟨position, hat, hrest, hcount⟩
    exact
      { running := h.synced.running
        opened := h.synced.opened
        inStep := Client.InStep.live hat hrest hcount }
  have hsent : forall {packet : Bytes}, (c.sent ++ [packet]).length =
      c.sent.length + 1 := List.length_append
  unfold Client.asyncSendRequest
  refine
    { h with
      asked := ?_
      sending := Client.doSendPacket_sending h.sending hpending hplain.left
      synced := Client.doSendPacket_synced hregistered ?_
      here := ?_
      there := ?_
      back := ?_ }
  · refine
      { packets := ?_
        next := ?_
        writes := ?_
        requests := ?_
        through := ?_
        table := ?_ }
    · intro i packet hi
      have hi : (c.sent ++ [platform.serialize
        (Client.request c.transactionId payload)])[i]? = some packet := hi
      by_cases hold : i < c.sent.length
      · rw [List.getElem?_append_left hold] at hi
        exact h.asked.packets i packet hi
      · have hlast : i = c.sent.length := by
          have hless := (List.getElem?_eq_some_iff.mp hi).choose
          rw [hsent] at hless
          omega
        rw [hlast, List.getElem?_concat_length] at hi
        cases hi
        rw [hlast, ← h.asked.next]
        exact ⟨payload, rfl, hplain⟩
    · show c.transactionId + 1 = UInt32.ofNat (c.sent ++ [_]).length
      rw [hsent, h.asked.next, UInt32.ofNat_add]
      rfl
    · show (Link.sendPacket _ _ _ _ _ c.socket).writes.length + c.answerable =
        (c.sent ++ [_]).length
      rw [Link.sendPacket_writes, hsent, List.length_append,
        List.length_singleton]
      have htotal := h.asked.writes
      omega
    · show forall w, w ∈ (Link.sendPacket _ _ _ _ _ c.socket).writes -> _
      rw [Link.sendPacket_writes]
      intro w hw
      rcases List.mem_append.mp hw with hold | hnew
      · exact h.asked.requests w hold
      · rw [List.mem_singleton.mp hnew]
        exact ⟨rfl, Nat.zero_le _⟩
    · show (c.sent ++ [_]).length <= c.handed.length + 1
      rw [hsent]
      omega
    · intro key
      show (c.transactions.emplace c.transactionId.toInt32
        c.sent.length).lookup key = if (c.sent ++ [_]).length =
          c.handed.length + 1 ∧ key = (UInt32.ofNat c.handed.length).toInt32
          then some c.handed.length else none
      rw [Lib.Table.lookup_emplace, hnone, hnone, hsent, h.asked.next, hhanded]
      simp only [true_and]
      rfl
  · intro r hr
    rw [show ({ c with
      transactions := c.transactions.emplace c.transactionId.toInt32
        c.sent.length
      transactionId := c.transactionId + 1 } : Client).socket.reads =
        c.socket.reads from rfl, hreads] at hr
    cases hr
  · exact (Link.sendPacket_ended _ _ _ _ _ c.socket).trans h.here
  · show List.IsPrefix _ (Link.sendPacket _ _ _ _ _ c.socket).wire
    rw [Link.sendPacket_wire]
    exact h.there
  · show List.IsPrefix (Link.sendPacket _ _ _ _ _ c.socket).arrived _
    rw [Link.sendPacket_arrived]
    exact h.back

/-!
## Steps of the connection
-/

theorem Paired.node_goes (h : Paired platform c d) {d' : Connection}
    (hreading : Connection.Invariant platform d')
    (hanswering : Connection.Answering platform d')
    (hrunning : d'.aborted = false) (hup : d'.socket.ended = false)
    (hthere : List.IsPrefix d'.socket.arrived c.socket.wire)
    (hwire : List.IsPrefix d.socket.wire d'.socket.wire)
    (hhanded : d'.handed = d.handed) (hanswered : d'.answered = d.answered) :
    Paired platform c d' := by
  refine
    { h with
      reading := hreading
      answering := hanswering
      running := hrunning
      up := hup
      there := hthere
      back := h.back.trans hwire
      answered := ?_
      replies := ?_
      results := ?_ }
  · rw [hanswered, hhanded]
    exact h.answered
  · rw [hanswered]
    exact h.replies
  · rw [hanswered]
    exact h.results

theorem Paired.node_io (h : Paired platform c d) {e : IoEvent}
    (he : Socket.IsMoving e = true) {s : Socket Buffer Unit}
    (hs : d.socket.progress e = some s) :
    Paired platform c { d with socket := s } := by
  have hsafe : d.socket.Undisturbed e := by
    apply undisturbed_of_pending e
    intro count hcount
    subst hcount
    exact h.node_pending_of_inbox (inbox_of_readSome hs)
  rcases Socket.moving_progress he hs with ⟨harrived, hended, _, _⟩
  refine h.node_goes
    { receiving := h.reading.receiving.progress hs
      ended := h.reading.ended }
    (h.answering.progress hsafe hs) h.running (hended.trans h.up) ?_
    (Socket.wire_progress hs) rfl rfl
  rw [harrived]
  exact h.there

theorem Paired.node_arrives (h : Paired platform c d) {bytes : Bytes}
    (hbytes : List.IsPrefix (d.socket.arrived ++ bytes) c.socket.wire)
    {s : Socket Buffer Unit}
    (hs : d.socket.progress (IoEvent.arrive bytes) = some s) :
    Paired platform c { d with socket := s } := by
  have hreading := h.reading.receiving.progress hs
  have hanswering := h.answering.progress
    (undisturbed_of_pending (IoEvent.arrive bytes) (fun _ => nofun)) hs
  have hwire := Socket.wire_progress hs
  simp only [Socket.progress, Option.ite_none_left_eq_some,
    Option.some.injEq] at hs
  rcases hs with ⟨_, rfl⟩
  refine h.node_goes
    { receiving := hreading
      ended := h.reading.ended }
    hanswering h.running h.up ?_ hwire rfl rfl
  rw [Socket.arrived, List.append_assoc] at hbytes
  exact hbytes

theorem Paired.node_header (h : Paired platform c d)
    {r : Lib.PendingRead Buffer} {s : Socket Buffer Unit}
    (hs : d.socket.takeRead = some (r, s))
    (hr : r.target = Buffer.packetHeader) :
    Paired platform c
      (Connection.onHeaderRead platform { d with socket := s }) := by
  have hsocket := (Socket.takeRead_eq_some hs).right.right
  refine h.node_goes
    { receiving := (h.reading.receiving.takeHeader hs hr).right
      ended := h.reading.ended }
    (Link.carries_onHeaderRead platform _ (h.answering.takeRead hs)) h.running
    ?_ ?_ ?_ rfl rfl
  · show (Link.onHeaderRead platform s).ended = false
    rw [Link.onHeaderRead_ended, hsocket]
    exact h.up
  · show List.IsPrefix (Link.onHeaderRead platform s).arrived _
    rw [Link.onHeaderRead_arrived, hsocket]
    exact h.there
  · show List.IsPrefix _ (Link.onHeaderRead platform s).wire
    rw [Link.onHeaderRead_wire, hsocket]

theorem Paired.node_written (h : Paired platform c d) {index : Nat}
    {w : Lib.PendingWrite Buffer Unit} {s : Socket Buffer Unit}
    (hs : d.socket.takeWrite index = some (w, s)) :
    Paired platform c { d with socket := s } := by
  have hanswering := h.answering.takeWrite hs
  rcases Socket.takeWrite_eq_some hs with ⟨_, _, rfl⟩
  exact h.node_goes
    { receiving := h.reading.receiving.congr rfl rfl rfl rfl (fun he => he)
        (fun _ hi => hi)
      ended := h.reading.ended }
    hanswering h.running h.up h.there List.prefix_rfl rfl rfl

theorem Paired.next_request (h : Paired platform c d)
    {r : Lib.PendingRead Buffer} {s : Socket Buffer Unit}
    (hs : d.socket.takeRead = some (r, s)) (hr : r.target = Buffer.packet) :
    exists payload packet,
      c.sent[d.answered.length]? = some packet ∧
      packet = (s.memory Buffer.packet).read 0 r.size ∧
      platform.parse packet =
        Client.request (UInt32.ofNat d.answered.length) payload ∧
      c.handed.length = d.answered.length := by
  rcases h.reading.receiving.takePacket hs hr with ⟨_, _, hat⟩
  have harrived : List.IsPrefix s.arrived
      (platform.framing.frames c.sent ++ []) := by
    rw [List.append_nil, (Socket.takeRead_eq_some hs).right.right]
    exact h.arrived_sent
  have hnext := hat.handed_isPrefix h.asked.fits (Client.stuck_nil platform)
    harrived
  have hpacket : c.sent[d.answered.length]? =
      some ((s.memory Buffer.packet).read 0 r.size) := by
    rcases hnext with ⟨rest, hrest⟩
    rw [h.counts.right.left, ← hrest, List.append_assoc,
      List.getElem?_append_right (Nat.le_refl _), Nat.sub_self]
    rfl
  rcases h.asked.parse hpacket with ⟨payload, hparse⟩
  refine ⟨payload, _, hpacket, rfl, hparse, ?_⟩
  have hless := (List.getElem?_eq_some_iff.mp hpacket).choose
  have hcounts := h.counts
  have hthrough := h.asked.through
  omega

/-- A request is answered. -/
theorem Paired.node_packet (h : Paired platform c d)
    {r : Lib.PendingRead Buffer} {s : Socket Buffer Unit}
    (hs : d.socket.takeRead = some (r, s)) (hr : r.target = Buffer.packet)
    {answer : Protocol.Payload} {garbage : Memory}
    (hplain : Sendable platform (maxPacketSize - headerSize)
      (reply (platform.parse ((s.memory Buffer.packet).read 0 r.size))
        answer)) :
    Paired platform c (Connection.onPacketRead platform answer garbage r.size
        { d with socket := s }) ∧
      (Connection.onPacketRead platform answer garbage r.size
        { d with socket := s }).answered.map Prod.snd =
          d.answered.map Prod.snd ++ [answer] := by
  rcases h.next_request hs hr with ⟨payload, packet, hpacket, hbuffer, hparse,
    hall⟩
  rcases h.reading.receiving.takePacket hs hr with ⟨_, hopen, hat⟩
  have hsocket := (Socket.takeRead_eq_some hs).right.right
  rw [← hbuffer] at hplain
  have hkind : (platform.parse packet).kind = Protocol.Kind.request := by
    rw [hparse]
    rfl
  have hpending : s.pending = [] := by
    rw [hsocket]
    exact h.node_pending hall
  have hended := h.reading.ended
  rw [h.running] at hended
  have hreading : Connection.Invariant platform
      (Connection.onPacketRead platform answer garbage r.size
        { d with socket := s }) :=
    Connection.onPacketRead_invariant h.running hopen hat hended
  have hfits : headerSize + (platform.serialize (reply (platform.parse
      ((s.memory Buffer.packet).read 0 r.size)) answer)).length <=
        maxPacketSize := by
    have hlength := hplain.left
    rw [hbuffer] at hlength
    have hsize : maxPacketSize - headerSize + headerSize = maxPacketSize := by
      decide
    omega
  have hanswering : Connection.Answering platform
      (Connection.onPacketRead platform answer garbage r.size
        { d with socket := s }) :=
    Connection.onPacketRead_answering (h.answering.takeRead hs)
      (fun _ => ⟨hpending, hfits⟩)
  have hnew : Connection.onPacketRead platform answer garbage r.size
      { d with socket := s } = Connection.doReadHeader
        { d with
          socket := Link.sendPacket platform maxPacketSize garbage
            (Connection.response platform (platform.parse packet) answer) () s
          handed := d.handed ++ [packet]
          answered := d.answered ++ [(platform.parse packet, answer)] } := by
    unfold Connection.onPacketRead
    simp only [← hbuffer]
    rcases Connection.onNewPacket_cases platform answer garbage packet
      { d with socket := s } with ⟨hother, _⟩ | ⟨_, heq⟩ | ⟨_, hother, _⟩
    · rw [hkind] at hother
      cases hother
    · rw [heq]
      simp only [h.running, Bool.false_eq_true, if_false]
    · exact absurd hkind hother
  rw [hnew] at hreading hanswering ⊢
  have hle : c.handed.length <= (d.answered.map Prod.snd).length := by
    rw [List.length_map]
    exact hall.le
  constructor
  · refine
      { h with
        reading := hreading
        answering := hanswering
        running := h.running
        up := ?_
        there := ?_
        back := ?_
        answered := ?_
        replies := ?_
        results := ?_ }
    · show (Link.sendPacket _ _ _ _ () s).ended = false
      rw [Link.sendPacket_ended, hsocket]
      exact h.up
    · show List.IsPrefix (Link.sendPacket _ _ _ _ () s).arrived _
      rw [Link.sendPacket_arrived, hsocket]
      exact h.there
    · show List.IsPrefix _ (Link.sendPacket _ _ _ _ () s).wire
      rw [Link.sendPacket_wire, hsocket]
      exact h.back
    · show (d.answered ++ [_]).map Prod.fst = (d.handed ++ [packet]).map _
      rw [List.map_append, List.map_append, h.answered]
      rfl
    · intro x hx
      rcases List.mem_append.mp hx with hold | hlast
      · exact h.replies x hold
      · rw [List.mem_singleton.mp hlast]
        exact hplain
    · show c.finished.map Prod.snd = ((d.answered ++ [_]).map Prod.snd).take _
      rw [List.map_append, List.take_append_of_le_length hle]
      exact h.results
  · exact List.map_append

theorem Paired.node_failRead (h : Paired platform c d) :
    d.socket.failRead = none := by
  cases hs : d.socket.failRead with
  | none => rfl
  | some s =>
      rcases Socket.failRead_eq_some hs with ⟨_, _, hfail, _, _⟩
      rw [h.opened, h.up] at hfail
      simp at hfail

theorem Paired.node_failWrite (h : Paired platform c d) (index : Nat) :
    d.socket.failWrite index = none := by
  cases hs : d.socket.failWrite index with
  | none => rfl
  | some done =>
      have hclosed := (Socket.failWrite_eq_some hs).right.right.left
      rw [h.opened] at hclosed
      cases hclosed

theorem Paired.client_failRead (h : Paired platform c d) :
    c.socket.failRead = none := by
  cases hs : c.socket.failRead with
  | none => rfl
  | some s =>
      rcases Socket.failRead_eq_some hs with ⟨_, _, hfail, _, _⟩
      rw [h.synced.opened, h.here] at hfail
      simp at hfail

theorem Paired.client_failWrite (h : Paired platform c d) (index : Nat) :
    c.socket.failWrite index = none := by
  cases hs : c.socket.failWrite index with
  | none => rfl
  | some done =>
      have hclosed := (Socket.failWrite_eq_some hs).right.right.left
      rw [h.synced.opened] at hclosed
      cases hclosed

/-!
## Steps of the session
-/

/-- What a step of the session does for the caller: nothing, or it answers the
last request. -/
inductive Serves (platform : Platform) (c : Client) (s t : Session) : Prop
    where
  | nothing : t.connection.answered = s.connection.answered ->
      t.node = s.node -> Serves platform c s t
  | elsewhere : t.connection.answered = s.connection.answered ->
      WorksElsewhere s.node t.node -> Serves platform c s t
  | serve {packet : Bytes} {answer : Protocol.Payload} :
      c.sent[s.connection.answered.length]? = some packet ->
      HandlesCall s.node (platform.parse packet).payload answer t.node ->
      t.connection.answered.map Prod.snd =
        s.connection.answered.map Prod.snd ++ [answer] ->
      Serves platform c s t

theorem Paired.session_proceeds {s t : Session} {e : Connection.Event}
    (h : Paired platform c s.connection) (hgoes : s.ended = false)
    (he : forall answer garbage, e ≠ Connection.Event.readDone answer garbage)
    (hmoving : forall io, e = Connection.Event.io io ->
      Socket.IsMoving io = true)
    (hstep : s.proceed platform e = some t) :
    Paired platform c t.connection ∧ t.ended = false ∧
      Serves platform c s t := by
  have hidle := Session.proceed_idle he hstep
  unfold Session.proceed at hstep
  rcases Option.map_eq_some_iff.mp hstep with ⟨d', hd, rfl⟩
  refine ⟨?_, hidle.ended.trans hgoes, ?_⟩
  · rcases Connection.step_moves hd with ⟨_, hmoves⟩
    cases hmoves with
    | io hs => exact h.node_io (hmoving _ rfl) hs
    | header hs hr => exact absurd rfl (he _ _)
    | packet hs hr => exact absurd rfl (he _ _)
    | readFail hs =>
        rw [h.node_failRead] at hs
        cases hs
    | writeDone hs => exact h.node_written hs
    | writeFail hs =>
        rw [h.node_failWrite] at hs
        cases hs
  · rcases Connection.step_moves hd with ⟨_, hmoves⟩
    cases hmoves with
    | header hs hr => exact absurd rfl (he _ _)
    | packet hs hr => exact absurd rfl (he _ _)
    | _ => exact Serves.nothing rfl rfl

theorem onPacketRead_answered {s : Session} {env : Platform}
    (garbage : Memory) {socket : Socket Buffer Unit} {size : Nat}
    {packet : Bytes} (hgoes : s.ended = false)
    (hbuffer : packet = (socket.memory Buffer.packet).read 0 size)
    {answer : Protocol.Payload} {n : Protort.Node}
    (hrun : Session.callback env (platform.parse packet) s.node =
      EStateM.Result.ok answer n) :
    Session.onPacketRead platform env garbage size
        { s with connection := { s.connection with socket := socket } } =
      { s with
        node := n
        connection := Connection.onPacketRead platform answer garbage size
          { s.connection with socket := socket } } := by
  have hfault : s.fault.isSome = false := (Bool.or_eq_false_iff.mp hgoes).left
  have hnew : Session.onNewPacket platform env garbage packet
      { s with connection := { s.connection with socket := socket } } =
      { s with
        node := n
        connection := Connection.onNewPacket platform answer garbage packet
          { s.connection with socket := socket } } :=
    Session.onNewPacket_ok hrun
  unfold Session.onPacketRead Connection.onPacketRead
  simp only [← hbuffer]
  rw [hnew]
  unfold Session.ended
  rw [hfault]
  simp only [Bool.false_or]
  split_ifs with haborted
  · rfl
  · rfl

theorem Paired.session_reads {s t : Session} {env : Platform}
    {garbage : Memory} (h : Paired platform c s.connection)
    (hgoes : s.ended = false)
    (hguard : OneAtATime platform ⟨c, s⟩
      (Event.session (Session.Event.readDone env garbage)))
    (hstep : s.step platform (Session.Event.readDone env garbage) = some t) :
    Paired platform c t.connection ∧ t.ended = false ∧
      Serves platform c s t := by
  unfold Session.step at hstep
  rw [if_neg (by rw [hgoes]; exact Bool.false_ne_true)] at hstep
  rcases Option.map_eq_some_iff.mp hstep with ⟨⟨r, socket⟩, hs, rfl⟩
  unfold Session.onRead
  cases hr : r.target with
  | packetHeader =>
      exact ⟨h.node_header hs hr, hgoes, Serves.nothing rfl rfl⟩
  | packet =>
      rcases h.next_request hs hr with ⟨payload, packet, hpacket, hbuffer,
        hparse, _⟩
      have hhands := Session.packet_of_takeRead platform env garbage hs hr
        hbuffer.symm
      simp only [OneAtATime, hhands] at hguard
      unfold Returns at hguard
      cases hrun : Session.callback env (platform.parse packet) s.node with
      | error fault n =>
          rw [hrun] at hguard
          exact hguard.elim
      | ok answer n =>
          simp only [hrun] at hguard
          have hhandles : HandlesCall s.node (platform.parse packet).payload answer
              n := by
            exists env
            unfold Session.callback at hrun
            rw [hparse] at hrun ⊢
            exact hrun
          rw [hbuffer] at hguard
          rcases @Paired.node_packet _ _ _ h _ _ hs hr answer garbage hguard
            with ⟨hpaired, hanswered⟩
          have hnew := onPacketRead_answered garbage hgoes hbuffer hrun
          rw [hnew]
          refine ⟨hpaired, ?_, Serves.serve hpacket hhandles hanswered⟩
          unfold Session.ended
          rw [hpaired.running, (Bool.or_eq_false_iff.mp hgoes).left]
          rfl

theorem Paired.session_step {s t : Session} {e : Session.Event}
    (h : Paired platform c s.connection) (hgoes : s.ended = false)
    (he : ofSession e = true)
    (hguard : OneAtATime platform ⟨c, s⟩ (Event.session e))
    (hstep : s.step platform e = some t) :
    Paired platform c t.connection ∧ t.ended = false ∧
      Serves platform c s t := by
  have hproceed : forall e', s.step platform e = s.proceed platform e' ->
      (forall answer garbage, e' ≠ Connection.Event.readDone answer garbage) ->
      (forall io, e' = Connection.Event.io io -> Socket.IsMoving io = true) ->
      Paired platform c t.connection ∧ t.ended = false ∧
        Serves platform c s t := by
    intro e' heq hquiet hmoving
    rw [heq] at hstep
    exact h.session_proceeds hgoes hquiet hmoving hstep
  have hstarts : forall {x : Option Session},
      (if s.ended = true then none else x) = x :=
    if_neg (by rw [hgoes]; exact Bool.false_ne_true)
  cases e with
  | io e =>
      refine hproceed (Connection.Event.io e) hstarts (fun _ _ => nofun) ?_
      intro io hio
      cases hio
      exact he
  | readFail =>
      exact hproceed Connection.Event.readFail hstarts (fun _ _ => nofun)
        (fun _ => nofun)
  | writeDone index =>
      exact hproceed (Connection.Event.writeDone index) hstarts
        (fun _ _ => nofun) (fun _ => nofun)
  | writeFail index =>
      exact hproceed (Connection.Event.writeFail index) hstarts
        (fun _ _ => nofun) (fun _ => nofun)
  | readDone env garbage => exact h.session_reads hgoes hguard hstep
  | elsewhere e =>
      unfold Session.step at hstep
      rw [hstarts] at hstep
      rcases Option.map_eq_some_iff.mp hstep with ⟨n, hn, rfl⟩
      exact ⟨h, hgoes, Serves.elsewhere rfl ⟨e, hn⟩⟩

end Ends

/-!
## The service that the caller sees
-/

structure StaysPaired (platform : Platform) (s : Exchange) : Prop where
  goes : s.session.ended = false
  paired : Paired platform s.client s.connection

section Steps

variable {platform : Platform} {s t : Exchange}

theorem onWay_isPrefix {arrived wire : Bytes} (h : List.IsPrefix arrived wire)
    (count : Nat) :
    List.IsPrefix (arrived ++ (wire.drop arrived.length).take count) wire := by
  rcases h with ⟨rest, rfl⟩
  rw [List.drop_left]
  exact (List.prefix_append_right_inj arrived).mpr (List.take_prefix _ _)

theorem service_result {c : Client} {y : Protocol.Payload}
    (hsent : c.sent = s.client.sent)
    (hy : (s.connection.answered.map Prod.snd)[s.client.finished.length]? =
      some y)
    (hfinished : c.finished.map Prod.snd =
      s.client.finished.map Prod.snd ++ [y]) :
    Reaches (Service.Step HandlesCall WorksElsewhere) (service platform s)
      (service platform { s with client := c }) := by
  have hnew : service platform { s with client := c } =
      { service platform s with
        results := (service platform s).results ++ [y] } := by
    unfold service
    rw [hsent, hfinished]
    rfl
  rw [hnew]
  apply Reaches.single (Service.Step.result ?_)
  show (s.connection.answered.map Prod.snd)[(s.client.finished.map
    Prod.snd).length]? = some y
  rw [List.length_map]
  exact hy

theorem StaysPaired.client_step {e : Client.Event} (h : StaysPaired platform s)
    (he : ofClient e = true) {c : Client}
    (hstep : s.client.step platform e = some c) :
    StaysPaired platform { s with client := c } ∧
      Reaches (Service.Step HandlesCall WorksElsewhere) (service platform s)
        (service platform { s with client := c }) := by
  have hquiet : forall {c : Client}, Paired platform c s.connection ->
      c.sent = s.client.sent -> c.finished = s.client.finished ->
      StaysPaired platform { s with client := c } ∧
        Reaches (Service.Step HandlesCall WorksElsewhere) (service platform s)
          (service platform { s with client := c }) := by
    intro c hpaired hsent hfinished
    refine ⟨⟨h.goes, hpaired⟩, ?_⟩
    unfold service
    rw [hsent, hfinished]
    exact Reaches.refl _
  rcases Client.step_moves hstep with ⟨_, hmoves⟩
  cases hmoves with
  | sendMessage => cases he
  | sendRequest => cases he
  | io hs => exact hquiet (h.paired.client_io he hs) rfl rfl
  | header hs hr => exact hquiet (h.paired.client_header hs hr) rfl rfl
  | packet hs hr =>
      rcases h.paired.client_packet hs hr with
        ⟨hpaired, y, hy, hfinished, hsent⟩
      exact ⟨⟨h.goes, hpaired⟩, service_result hsent hy hfinished⟩
  | readFail hs =>
      rw [h.paired.client_failRead] at hs
      cases hs
  | @writeDone index w t hs =>
      have htag : w.tag = Protocol.Kind.request :=
        (h.paired.asked.requests w
          (List.mem_of_getElem? (Socket.takeWrite_eq_some hs).left)).left
      have hpaired := h.paired.client_written hs
      rw [htag] at hpaired ⊢
      exact hquiet hpaired rfl rfl
  | writeFail hs =>
      rw [h.paired.client_failWrite] at hs
      cases hs

theorem service_session {r : Session}
    (h : Serves platform s.client s.session r) :
    Reaches (Service.Step HandlesCall WorksElsewhere) (service platform s)
      (service platform { s with session := r }) := by
  cases h with
  | nothing hanswered hnode =>
      have hsame : service platform { s with session := r } =
          service platform s := by
        unfold service connection
        rw [hanswered, hnode]
      rw [hsame]
      exact Reaches.refl _
  | elsewhere hanswered hworks =>
      have hnew : service platform { s with session := r } =
          { service platform s with state := r.node } := by
        unfold service connection
        rw [hanswered]
      rw [hnew]
      exact Reaches.single (Service.Step.elsewhere hworks)
  | @serve packet answer hpacket hhandles hanswered =>
      have hnew : service platform { s with session := r } =
          { service platform s with
            state := r.node
            answers := (service platform s).answers ++ [answer] } := by
        unfold service connection
        rw [hanswered]
      rw [hnew]
      apply Reaches.single (Service.Step.serve ?_ hhandles)
      show (s.client.sent.map _)[(s.session.connection.answered.map
        Prod.snd).length]? = _
      rw [List.length_map, List.getElem?_map, hpacket]
      rfl

/-- A step is a step of the service, or nothing that the caller sees. -/
theorem StaysPaired.step {e : Event} (h : StaysPaired platform s)
    (hguard : OneAtATime platform s e) (hstep : step platform s e = some t) :
    StaysPaired platform t ∧ Reaches (Service.Step HandlesCall WorksElsewhere)
      (service platform s) (service platform t) := by
  cases e with
  | call payload garbage =>
      rcases Option.map_eq_some_iff.mp hstep with ⟨c, hc, rfl⟩
      rcases Client.step_moves hc with ⟨_, hmoves⟩
      cases hmoves
      rcases hguard with ⟨hidle, hplain⟩
      refine ⟨⟨h.goes, h.paired.client_call hidle hplain⟩, ?_⟩
      have hnew : service platform
          { s with
            client := s.client.asyncSendRequest platform garbage payload
              s.client.sent.length } =
          { service platform s with
            asked := (service platform s).asked ++ [payload] } := by
        unfold service
        show Service.mk _ ((s.client.sent ++ [platform.serialize _]).map _) _ _ =
          _
        rw [List.map_append, List.map_singleton, hplain.right]
        rfl
      rw [hnew]
      apply Reaches.single (Service.Step.call payload ?_)
      show (s.client.finished.map _).length = (s.client.sent.map _).length
      rw [List.length_map, List.length_map]
      exact hidle
  | client e =>
      rcases Option.ite_none_right_eq_some.mp hstep with ⟨he, hstep⟩
      rcases Option.map_eq_some_iff.mp hstep with ⟨c, hc, rfl⟩
      exact h.client_step he hc
  | session e =>
      rcases Option.ite_none_right_eq_some.mp hstep with ⟨he, hstep⟩
      rcases Option.map_eq_some_iff.mp hstep with ⟨r, hr, rfl⟩
      rcases h.paired.session_step h.goes he hguard hr with
        ⟨hpaired, hgoes, hserves⟩
      exact ⟨⟨hgoes, hpaired⟩, service_session hserves⟩
  | there count =>
      rcases Option.ite_none_right_eq_some.mp hstep with ⟨_, hstep⟩
      rcases Option.map_eq_some_iff.mp hstep with ⟨r, hr, rfl⟩
      unfold Session.step at hr
      rw [if_neg (by rw [h.goes]; exact Bool.false_ne_true)] at hr
      have hidle : Session.SameAnswers s.session r := by
        refine Session.proceed_idle ?_ hr
        intro answer garbage
        exact nofun
      rcases Option.map_eq_some_iff.mp hr with ⟨d, hd, rfl⟩
      rcases Connection.step_moves hd with ⟨_, hmoves⟩
      cases hmoves with
      | io hs =>
          exact ⟨⟨hidle.ended.trans h.goes, h.paired.node_arrives
            (onWay_isPrefix h.paired.there count) hs⟩,
            service_session (Serves.nothing rfl rfl)⟩
  | back count =>
      rcases Option.ite_none_right_eq_some.mp hstep with ⟨_, hstep⟩
      rcases Option.map_eq_some_iff.mp hstep with ⟨c, hc, rfl⟩
      rcases Client.step_moves hc with ⟨_, hmoves⟩
      cases hmoves with
      | io hs =>
          exact ⟨⟨h.goes, h.paired.client_arrives
            (onWay_isPrefix h.paired.back count) hs⟩, Reaches.refl _⟩

theorem goes_start (platform : Platform) (here there : Buffer -> Memory)
    (n : Protort.Node) : StaysPaired platform (start here there n) := by
  refine ⟨rfl, ?_⟩
  exact
    { asked :=
        { packets := fun i packet hi => nomatch hi
          next := rfl
          writes := rfl
          requests := fun w hw => absurd hw List.not_mem_nil
          through := Nat.zero_le _
          table := fun key => (if_neg (fun h => nomatch h.left)).symm }
      sending := Socket.carries_connected here
      synced := Client.new_synced here
      here := rfl
      reading := Connection.invariant_start there
      answering := Link.carries_doReadHeader _ (Socket.carries_connected there)
      running := rfl
      up := rfl
      there := List.prefix_rfl
      back := List.prefix_rfl
      answered := rfl
      replies := fun x hx => absurd hx List.not_mem_nil
      results := rfl
      numbers := rfl }

/-!
## Nothing is left undone
-/

/-- Neither end can go on, and nothing is on the way. -/
structure Spent (platform : Platform) (s : Exchange) : Prop where
  client : forall e, ofClient e = true -> s.client.step platform e = none
  session : forall e, ofSession e = true ->
    (forall event, e ≠ Session.Event.elsewhere event) ->
      s.session.step platform e = none
  arrived : forall count, s.onWayThere count = [] ∧ s.onWayBack count = []

theorem pending_eq_nil {tag : Type} {s : Socket Buffer tag}
    (hopen : s.closed = false)
    (hnone : forall index, s.writeSome index 1 = none) : s.pending = [] := by
  by_contra hne
  rcases List.exists_mem_of_ne_nil _ hne with ⟨w, hw⟩
  have hless := Socket.done_lt_of_pending hw
  rcases List.mem_iff_getElem?.mp (List.mem_filter.mp hw).left with ⟨index, hi⟩
  have hstep := hnone index
  unfold Socket.writeSome at hstep
  rw [hi] at hstep
  simp only [ite_eq_right_iff] at hstep
  exact absurd (hstep ⟨hopen, Nat.one_pos, hless⟩) (by simp)

theorem writes_eq_nil {tag : Type} {s : Socket Buffer tag}
    (hsizes : forall w, w ∈ s.writes -> w.done <= w.size)
    (hpending : s.pending = [])
    (hnone : forall index, s.takeWrite index = none) : s.writes = [] := by
  cases hwrites : s.writes with
  | nil => rfl
  | cons w rest =>
      have hmem : w ∈ s.writes := by
        rw [hwrites]
        exact List.mem_cons_self
      have hdone : ¬ w.done < w.size := by
        intro hless
        have hleft : w ∈ s.pending :=
          List.mem_filter.mpr ⟨hmem, decide_eq_true hless⟩
        rw [hpending] at hleft
        cases hleft
      have hstep := hnone 0
      unfold Socket.takeWrite at hstep
      rw [hwrites, List.getElem?_cons_zero] at hstep
      simp only [ite_eq_right_iff] at hstep
      have hfull : w.done = w.size :=
        Nat.le_antisymm (hsizes w hmem) (Nat.le_of_not_lt hdone)
      exact absurd (hstep hfull) (by simp)

theorem StaysPaired.client_spent (h : StaysPaired platform s)
    (hs : Spent platform s) :
    s.client.socket.pending = [] ∧ s.client.socket.Quiet ∧
      s.client.answerable = s.client.sent.length := by
  have hstarts : forall {x : Option Client},
      (if s.client.aborted = true then none else x) = x :=
    if_neg (by rw [h.paired.synced.running]; exact Bool.false_ne_true)
  have hio : forall e, Socket.IsMoving e = true ->
      s.client.socket.progress e = none := by
    intro e he
    have hnone := hs.client (Client.Event.io e) he
    unfold Client.step at hnone
    rw [hstarts] at hnone
    exact Option.map_eq_none_iff.mp hnone
  have hpending : s.client.socket.pending = [] :=
    pending_eq_nil h.paired.synced.opened
      (fun index => hio (IoEvent.writeSome index 1) rfl)
  refine ⟨hpending, ⟨?_, ?_, h.paired.client_failRead⟩, ?_⟩
  · intro count
    exact hio (IoEvent.readSome count) rfl
  · have hnone := hs.client Client.Event.readDone rfl
    unfold Client.step at hnone
    rw [hstarts] at hnone
    exact Option.map_eq_none_iff.mp hnone
  · have hwrites : s.client.socket.writes = [] := by
      apply writes_eq_nil (fun w hw => (h.paired.asked.requests w hw).right)
        hpending
      intro index
      have hnone := hs.client (Client.Event.writeDone index) rfl
      unfold Client.step at hnone
      rw [hstarts] at hnone
      exact Option.map_eq_none_iff.mp hnone
    have htotal := h.paired.asked.writes
    rw [hwrites, List.length_nil, Nat.zero_add] at htotal
    exact htotal

theorem StaysPaired.session_spent (h : StaysPaired platform s)
    (hs : Spent platform s) :
    s.connection.socket.pending = [] ∧ s.connection.socket.Quiet := by
  have hstarts : forall {x : Option Session},
      (if s.session.ended = true then none else x) = x :=
    if_neg (by rw [h.goes]; exact Bool.false_ne_true)
  have hio : forall e, Socket.IsMoving e = true ->
      s.connection.socket.progress e = none := by
    intro e he
    have hnone := hs.session (Session.Event.io e) he (fun _ => nofun)
    unfold Session.step at hnone
    rw [hstarts] at hnone
    have hproceed := Option.map_eq_none_iff.mp hnone
    have hrunning : s.session.connection.aborted = false := h.paired.running
    unfold Connection.step at hproceed
    rw [hrunning] at hproceed
    exact Option.map_eq_none_iff.mp hproceed
  refine ⟨?_, ?_, ?_, h.paired.node_failRead⟩
  · exact pending_eq_nil h.paired.opened
      (fun index => hio (IoEvent.writeSome index 1) rfl)
  · intro count
    exact hio (IoEvent.readSome count) rfl
  · have hnone := hs.session (Session.Event.readDone platform (fun _ => 0)) rfl
      (fun _ => nofun)
    unfold Session.step at hnone
    rw [hstarts] at hnone
    exact Option.map_eq_none_iff.mp hnone

theorem eq_of_drop {arrived wire : Bytes} (h : List.IsPrefix arrived wire)
    (hdrop : forall count, (wire.drop arrived.length).take count = []) :
    arrived = wire := by
  rcases h with ⟨rest, rfl⟩
  have hrest := hdrop rest.length
  rw [List.drop_left, List.take_length] at hrest
  rw [hrest, List.append_nil]

/-- Every call is through when nothing can go on. -/
theorem StaysPaired.finished_all (h : StaysPaired platform s)
    (hs : Spent platform s) :
    s.client.finished.length = s.client.sent.length := by
  rcases h.client_spent hs with ⟨hwritten, hquiet, hanswerable⟩
  rcases h.session_spent hs with ⟨hanswered, hreading⟩
  have hthere : s.connection.socket.arrived =
      platform.framing.frames s.client.sent ++ [] := by
    rw [List.append_nil, Lib.Framing.frames_eq_flatten,
      ← h.paired.sending.eq_flatten h.paired.synced.opened hwritten]
    exact eq_of_drop h.paired.there (fun count => (hs.arrived count).left)
  have hreceiving := h.paired.reading.receiving
  rw [h.paired.running] at hreceiving
  have hhanded : s.connection.handed = s.client.sent :=
    (hreceiving.complete h.paired.asked.fits (Client.stuck_nil platform) hthere
      hreading).left
  have hcount : s.connection.answered.length = s.client.sent.length := by
    rw [h.paired.counts.right.left, hhanded]
  have hback : s.client.socket.arrived =
      platform.framing.frames (s.connection.responses platform) := by
    rw [Lib.Framing.frames_eq_flatten,
      ← h.paired.answering.eq_flatten h.paired.opened hanswered]
    exact eq_of_drop h.paired.back (fun count => (hs.arrived count).right)
  have hall := h.paired.synced.inStep.handed_all h.paired.synced.opened
    h.paired.responses hback hquiet (by
      rw [Connection.responses, List.length_map, hcount, hanswerable])
  rw [h.paired.finished_length, hall, Connection.responses, List.length_map,
    hcount]

/-- A caller that waits for each call cannot tell the connection from the node:
what it got are the results of direct calls, made one after another in the
order of the requests, each of them for its own callbacks.  When nothing can go
on, every call is through. -/
theorem calls_are_direct (platform : Platform) (here there : Buffer -> Memory)
    (n : Protort.Node) {labels : List Event} {s : Exchange}
    (hrun : Run (Guarded (OneAtATime platform) (Lib.Steps (step platform)))
      (start here there n) labels s) :
    Reaches (Service.Step HandlesCall WorksElsewhere) (Service.start n)
        (service platform s) ∧
      Service.OneByOne (service platform s) ∧
      s.client.finished.map Prod.fst = List.range s.client.finished.length ∧
      (Spent platform s ->
        s.client.finished.length = s.client.sent.length) := by
  have hgoes : StaysPaired platform s := by
    refine hrun.invariant ?_ (goes_start platform here there n)
    intro s e t hstep h
    exact (h.step hstep.left hstep.right).left
  have hreaches : Reaches (Service.Step HandlesCall WorksElsewhere)
      (Service.start n) (service platform s) := by
    refine hrun.simulated (service platform) (StaysPaired platform) ?_ ?_
      (goes_start platform here there n)
    · intro s e t hstep h
      exact (h.step hstep.left hstep.right).left
    · intro s e t hstep h
      exact (h.step hstep.left hstep.right).right
  refine ⟨hreaches, Service.oneByOne_of_reaches hreaches, ?_, hgoes.finished_all⟩
  rw [hgoes.paired.finished_length]
  exact hgoes.paired.numbers

theorem spent_of_idle {r : Lib.PendingRead Buffer}
    (hreads : s.client.socket.reads = []) (hwrites : s.client.socket.writes = [])
    (hreading : s.connection.socket.reads = [r]) (hless : r.got < r.size)
    (hopen : s.connection.socket.closed = false)
    (hup : s.connection.socket.ended = false)
    (hinbox : s.connection.socket.inbox = [])
    (hwritten : s.connection.socket.writes = [])
    (hthere : s.client.socket.wire = s.connection.socket.arrived)
    (hback : s.connection.socket.wire = s.client.socket.arrived) :
    Spent platform s := by
  have hquiet := Socket.quiet_of_reads_nil hreads
  refine
    { client := ?_
      session := ?_
      arrived := ?_ }
  · intro e he
    unfold Client.step
    cases e with
    | sendMessage payload garbage => cases he
    | sendRequest payload callbacks garbage => cases he
    | io e =>
        cases e with
        | arrive bytes => cases he
        | finish => cases he
        | readSome count =>
            simp [Socket.progress, hquiet.left count]
        | writeSome index count =>
            simp [Socket.progress, Socket.writeSome, hwrites]
    | readDone => simp [hquiet.right.left]
    | readFail => simp [hquiet.right.right]
    | writeDone index => simp [Socket.takeWrite, hwrites]
    | writeFail index => simp [Socket.failWrite, hwrites]
  · have hnone : s.connection.socket.takeRead = none := by
      unfold Socket.takeRead
      rw [hreading]
      exact if_neg (Nat.ne_of_lt hless)
    have hfail : s.connection.socket.failRead = none := by
      unfold Socket.failRead
      simp [hreading, hopen, hup]
    have hproceed : forall e, s.session.connection.step platform e = none ->
        s.session.proceed platform e = none := by
      intro e he
      unfold Session.proceed
      rw [he]
      rfl
    intro e he helse
    unfold Session.step
    rw [ite_eq_left_iff]
    intro _
    cases e with
    | elsewhere event => exact absurd rfl (helse event)
    | io e =>
        apply hproceed
        unfold Connection.step
        rw [ite_eq_left_iff]
        intro _
        cases e with
        | arrive bytes => cases he
        | finish => cases he
        | readSome count =>
            have hread : s.connection.socket.readSome count = none := by
              cases hread : s.connection.socket.readSome count with
              | none => rfl
              | some t =>
                  rcases Socket.readSome_eq_some hread with
                    ⟨_, _, _, hpositive, hle, _, _⟩
                  rw [hinbox, List.length_nil] at hle
                  omega
            exact Option.map_eq_none_iff.mpr hread
        | writeSome index count =>
            apply Option.map_eq_none_iff.mpr
            show s.connection.socket.writeSome index count = none
            simp [Socket.writeSome, hwritten]
    | readDone env garbage => exact Option.map_eq_none_iff.mpr hnone
    | readFail =>
        apply hproceed
        unfold Connection.step
        rw [ite_eq_left_iff]
        intro _
        exact Option.map_eq_none_iff.mpr hfail
    | writeDone index =>
        apply hproceed
        unfold Connection.step
        rw [ite_eq_left_iff]
        intro _
        apply Option.map_eq_none_iff.mpr
        show s.connection.socket.takeWrite index = none
        simp [Socket.takeWrite, hwritten]
    | writeFail index =>
        apply hproceed
        unfold Connection.step
        rw [ite_eq_left_iff]
        intro _
        apply Option.map_eq_none_iff.mpr
        show s.connection.socket.failWrite index = none
        simp [Socket.failWrite, hwritten]
  · intro count
    unfold onWayThere onWayBack
    rw [hthere, hback, List.drop_length, List.drop_length, List.take_nil]
    exact ⟨rfl, rfl⟩

/-- The loopback machine, with deploy packets in which only the kind is set. -/
def callPlatform : Platform :=
  let deploy (id : UInt32) (value : UInt8) : Protocol.Packet :=
    { kind := Protocol.Kind.request
      transaction := { id := id }
      payload := Protocol.Payload.deployPacket
        { kind := Session.deployKind value
          payload := Protocol.Deploy.PacketPayload.notSet } }
  { Platform.loopback with
    serialize := fun packet =>
      wireKind packet.kind packet.transaction.id ++
        match packet.payload with
        | Protocol.Payload.deployPacket deployed =>
            [26, 4, 18, 2, 8,
              if deployed.kind = Protocol.Deploy.PacketKind.start then 2 else 3]
        | payload => wirePayload payload
    parse := fun bytes =>
      match bytes with
      | [8, 1, 18, 0, 26, 4, 18, 2, 8, value] => deploy 0 value
      | [8, 1, 18, 2, 8, id, 26, 4, 18, 2, 8, value] =>
          deploy id.toUInt32 value
      | _ => parsePacket bytes }

def callLabels (kind : Protocol.Deploy.PacketKind) (request response : Nat) :
    List Event :=
  [Event.call (Protocol.Payload.deployPacket
      { kind := kind
        payload := Protocol.Deploy.PacketPayload.notSet }) (fun _ => 0),
    Event.client (Client.Event.io (IoEvent.writeSome 0 (4 + request))),
    Event.there (4 + request),
    Event.client (Client.Event.writeDone 0),
    Event.session (Session.Event.io (IoEvent.readSome 4)),
    Event.session (Session.Event.readDone callPlatform (fun _ => 0)),
    Event.session (Session.Event.io (IoEvent.readSome request)),
    Event.session (Session.Event.readDone callPlatform (fun _ => 0)),
    Event.session (Session.Event.io (IoEvent.writeSome 0 (4 + response))),
    Event.session (Session.Event.writeDone 0),
    Event.back (4 + response),
    Event.client (Client.Event.io (IoEvent.readSome 4)),
    Event.client Client.Event.readDone,
    Event.client (Client.Event.io (IoEvent.readSome response)),
    Event.client Client.Event.readDone]

/-- A start and a stop, one after another. -/
theorem calls_are_direct_start_stop :
    exists s : Exchange, s.client.sent.length = 2 ∧
      s.client.finished.length = s.client.sent.length ∧
      Reaches (Service.Step HandlesCall WorksElsewhere)
        (Service.start (Node.new 100 0)) (service callPlatform s) := by
  have hend : (execute (fun s e =>
      if OneAtATime callPlatform s e then step callPlatform s e else none)
        (start (fun _ _ => 0) (fun _ _ => 0) (Node.new 100 0))
        (callLabels Protocol.Deploy.PacketKind.start 10 6 ++
          callLabels Protocol.Deploy.PacketKind.stop 12 8)).map
            (fun s => (s.client.sent.length, s.connection.socket.reads,
              [s.client.socket.reads.isEmpty, s.client.socket.writes.isEmpty,
                !s.connection.socket.closed, !s.connection.socket.ended,
                s.connection.socket.inbox.isEmpty,
                s.connection.socket.writes.isEmpty,
                decide (s.client.socket.wire = s.connection.socket.arrived),
                decide (s.connection.socket.wire = s.client.socket.arrived)])) =
      some (2, [Lib.PendingRead.mk Buffer.packetHeader 4 0],
        List.replicate 8 true) := by
    decide +kernel
  rcases Option.map_eq_some_iff.mp hend with ⟨s, hexecute, hs⟩
  simp only [Prod.mk.injEq, List.replicate, List.cons.injEq,
    decide_eq_true_eq, List.isEmpty_iff, Bool.not_eq_true', and_true] at hs
  rcases hs with ⟨hsent, hreading, hreads, hwrites, hopen, hup, hinbox,
    hwritten, hthere, hback⟩
  rcases calls_are_direct callPlatform (fun _ _ => 0) (fun _ _ => 0)
    (Node.new 100 0) (Run.guarded_of_execute hexecute) with
      ⟨hreaches, _, _, hall⟩
  refine ⟨s, hsent, ?_, hreaches⟩
  exact hall (spent_of_idle hreads hwrites hreading (by decide) hopen hup
    hinbox hwritten hthere hback)

end Steps

end Exchange

end System
end Protort
