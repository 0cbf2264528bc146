import Protort.Lib.Effort
import Protort.System.Channels

/-!
# Messages are delivered

What is left to do on a channel gets less with every step: bytes are put out,
arrive and are read, and handlers run.

So, in whatever order this goes on, it comes to an end, and then every message
that the client was given has been handed over.
-/

namespace Protort
namespace System

open Lib (Memory Socket IoEvent PendingRead Run Steps Guarded)
open Link (Buffer)
open Protolink (Client Connection)
open Node (Outgoing)

namespace Channel

/-!
## What is left to do
-/

/-- How many handlers a pending read is good for until the next header is read:
two when the header is there. -/
def stage (r : PendingRead Buffer) : Nat :=
  match r.target with
  | Buffer.packetHeader => if r.got = r.size then 2 else 0
  | Buffer.packet => 1

/-- A byte that waits to be read counts more than what reading it may bring
about. -/
def toRead (s : Socket Buffer Unit) : Nat :=
  3 * s.inbox.length + (s.reads.map stage).sum

/-- A byte counts less the farther it has come. -/
def toDo (ch : Channel) : Nat :=
  ch.client.socket.toWrite 5 +
    4 * (ch.client.socket.wire.length -
      ch.connection.socket.arrived.length) +
    toRead ch.connection.socket + ch.connection.socket.toWrite 1

theorem stage_le (r : PendingRead Buffer) : stage r <= 2 := by
  unfold stage
  split
  · split
    · exact Nat.le_refl 2
    · exact Nat.zero_le 2
  · exact Nat.le_succ 1

theorem stage_advance (count : Nat) (reads : List (PendingRead Buffer)) :
    ((PendingRead.advance count reads).map stage).sum <=
      (reads.map stage).sum + 2 := by
  induction reads with
  | nil => exact Nat.zero_le _
  | cons r rest ih =>
      unfold PendingRead.advance
      split
      · have hstage := stage_le { r with got := r.got + count }
        rw [List.map_cons, List.map_cons, List.sum_cons, List.sum_cons]
        omega
      · rw [List.map_cons, List.map_cons, List.sum_cons, List.sum_cons]
        omega

theorem toRead_readSome {s t : Socket Buffer Unit} {count : Nat}
    (h : s.readSome count = some t) : toRead t < toRead s := by
  rcases Socket.readSome_eq_some h with
    ⟨r, _, _, hcount, hinbox, _, rfl⟩
  have hstage := stage_advance count s.reads
  unfold toRead
  simp only [List.length_drop]
  omega

theorem toRead_onHeaderRead (platform : Platform) {s t : Socket Buffer Unit}
    {r : PendingRead Buffer} (h : s.takeRead = some (r, t))
    (hr : r.target = Buffer.packetHeader) :
    toRead (Link.onHeaderRead platform t) < toRead s := by
  rcases Socket.takeRead_eq_some h with ⟨hgot, hreads, hsocket⟩
  have hstage : stage r = 2 := by
    unfold stage
    rw [hr]
    exact if_pos hgot
  have hinbox : t.inbox = s.inbox := by rw [hsocket]
  unfold Link.onHeaderRead
  split
  · show 3 * t.inbox.length + (t.reads.map stage).sum < _
    unfold toRead
    rw [hinbox, hreads, List.map_cons, List.sum_cons, hstage]
    omega
  · show 3 * t.inbox.length + ((t.reads ++ [_]).map stage).sum < _
    unfold toRead
    rw [hinbox, hreads, List.map_cons, List.sum_cons, hstage, List.map_append,
      List.sum_append]
    show _ + (_ + (1 + 0)) < _
    omega

theorem toRead_doReadHeader {s t : Socket Buffer Unit}
    {r : PendingRead Buffer} (h : s.takeRead = some (r, t))
    (hr : r.target = Buffer.packet) :
    toRead (Link.doReadHeader t) < toRead s := by
  rcases Socket.takeRead_eq_some h with ⟨_, hreads, hsocket⟩
  have hstage : stage r = 1 := by
    unfold stage
    rw [hr]
  have hinbox : t.inbox = s.inbox := by rw [hsocket]
  show 3 * t.inbox.length + ((t.reads ++ [_]).map stage).sum < _
  unfold toRead
  rw [hinbox, hreads, List.map_cons, List.sum_cons, hstage, List.map_append,
    List.sum_append]
  show _ + (_ + (0 + 0)) < _
  omega

/-!
## Every step does something
-/

section Steps

variable {platform env : Platform} {waiting : List Outgoing} {ch : Channel}

theorem Brings.client_less (h : Brings platform waiting ch)
    {e : Client.Event} (he : Exchange.ofClient e = true) {c : Client}
    (hstep : ch.client.step platform e = some c) :
    toDo { ch with client := c } < ch.toDo := by
  have hquiet := Socket.quiet_of_reads_nil h.reads
  have hthere := h.there.length_le
  cases (Client.step_moves hstep).right with
  | sendMessage => cases he
  | sendRequest => cases he
  | @io e s hs =>
      cases e with
      | arrive bytes => cases he
      | finish => cases he
      | readSome count =>
          exact absurd ((hquiet.left count).symm.trans hs) nofun
      | writeSome index count =>
          have hwork := Socket.toWrite_writeSome 5 hs
          rcases Socket.writeSome_eq_some hs with
            ⟨w, _, _, hcount, _, hsocket⟩
          have hwire : s.wire.length =
              ch.client.socket.wire.length + count := by
            rw [hsocket, List.length_append, Memory.length_read]
          unfold toDo
          simp only [hwire]
          omega
  | header hs _ => exact absurd (hquiet.right.left.symm.trans hs) nofun
  | packet hs _ => exact absurd (hquiet.right.left.symm.trans hs) nofun
  | readFail hs => exact absurd (hquiet.right.right.symm.trans hs) nofun
  | @writeDone index w s hs =>
      have hwork := Socket.toWrite_takeWrite 5 hs
      rcases Socket.takeWrite_eq_some hs with ⟨hw, _, hsocket⟩
      have hsent : Client.onPacketSent w.tag { ch.client with socket := s } =
          { ch.client with socket := s } := by
        rw [(h.messages w (List.mem_of_getElem? hw)).left]
        rfl
      have hwire : s.wire = ch.client.socket.wire := by rw [hsocket]
      rw [hsent]
      unfold toDo
      simp only [hwire]
      omega
  | writeFail hs =>
      have hclosed := (Socket.failWrite_eq_some hs).right.right.left
      rw [h.opened] at hclosed
      cases hclosed

theorem Brings.arrive_less (h : Brings platform waiting ch) {count : Nat}
    (hway : ch.onWay count ≠ []) {d : Connection}
    (hstep : ch.connection.step platform
      (Connection.Event.io (IoEvent.arrive (ch.onWay count))) = some d) :
    toDo { ch with connection := d } < ch.toDo := by
  have hthere := h.there.length_le
  have hlength : 0 < (ch.onWay count).length := List.length_pos_iff.mpr hway
  have hle : (ch.onWay count).length <=
      ch.client.socket.wire.length - ch.connection.socket.arrived.length := by
    unfold onWay
    rw [List.length_take, List.length_drop]
    exact Nat.min_le_right _ _
  cases (Connection.step_moves hstep).right with
  | @io _ s hs =>
      simp only [Socket.progress, Option.ite_none_left_eq_some,
        Option.some.injEq] at hs
      rcases hs with ⟨_, rfl⟩
      unfold toDo toRead Socket.arrived Socket.toWrite
      unfold Socket.arrived at hle hthere
      simp only [List.length_append] at hle hthere ⊢
      omega

theorem Brings.connection_less (h : Brings platform waiting ch)
    {e : Connection.Event} (he : ofConnection e = true) {d : Connection}
    (hstep : ch.connection.step platform e = some d) :
    toDo { ch with connection := d } < ch.toDo := by
  cases (Connection.step_moves hstep).right with
  | @io e s hs =>
      have harrived := (Socket.moving_progress he hs).left
      cases e with
      | arrive bytes => cases he
      | finish => cases he
      | readSome count =>
          have hwork := toRead_readSome hs
          rcases Socket.readSome_eq_some hs with ⟨_, _, _, _, _, _, hsocket⟩
          have hwrite : s.toWrite 1 = ch.connection.socket.toWrite 1 := by
            rw [hsocket]
            rfl
          unfold toDo
          simp only [harrived, hwrite]
          omega
      | writeSome index count =>
          have hwork := Socket.toWrite_writeSome 1 hs
          rcases Socket.writeSome_eq_some hs with
            ⟨_, _, _, hcount, _, hsocket⟩
          have hread : toRead s = toRead ch.connection.socket := by
            rw [hsocket]
            rfl
          unfold toDo
          simp only [harrived, hread]
          omega
  | header _ _ => cases he
  | packet _ _ => cases he
  | readFail hs =>
      rcases Socket.failRead_eq_some hs with ⟨_, _, hfailed, _, _⟩
      rw [h.connection_opened, h.up] at hfailed
      rcases hfailed with hfailed | ⟨hfailed, _⟩
      · cases hfailed
      · cases hfailed
  | writeDone hs =>
      have hwork := Socket.toWrite_takeWrite 1 hs
      rcases Socket.takeWrite_eq_some hs with ⟨_, _, rfl⟩
      unfold toDo
      exact Nat.add_lt_add_left hwork _
  | writeFail hs =>
      have hwork := Socket.toWrite_failWrite 1 hs
      rcases Socket.failWrite_eq_some hs with ⟨_, _, _, rfl⟩
      unfold toDo
      exact Nat.add_lt_add_left hwork _

theorem Brings.readDone_less (h : Brings platform waiting ch)
    {garbage : Memory} {n : Protort.Node} {done : Channel × Protort.Node}
    (hdone : ch.readDone platform env garbage n = some done) :
    done.1.toDo < ch.toDo ∧ done.1.given = ch.given := by
  cases hread : ch.connection.socket.takeRead with
  | none =>
      rw [readDone_eq_none platform env garbage n hread] at hdone
      cases hdone
  | some next =>
      rcases next with ⟨r, s⟩
      have hsocket := (Socket.takeRead_eq_some hread).right.right
      have harrived : s.arrived = ch.connection.socket.arrived := by
        rw [hsocket]
        rfl
      have hwrites : s.writes = ch.connection.socket.writes := by
        rw [hsocket]
      have hwrite : forall t : Socket Buffer Unit, t.writes = s.writes ->
          t.toWrite 1 = ch.connection.socket.toWrite 1 := by
        intro t ht
        unfold Socket.toWrite
        rw [ht, hwrites]
      cases hr : r.target with
      | packetHeader =>
          rcases h.header hread hr env garbage n with ⟨ch', hch, rfl, _⟩
          rw [hch] at hdone
          cases hdone
          have hwork := toRead_onHeaderRead platform hread hr
          refine ⟨?_, rfl⟩
          unfold toDo
          simp only [Link.onHeaderRead_arrived, harrived,
            hwrite _ (Link.onHeaderRead_writes platform s)]
          omega
      | packet =>
          rcases h.message hread hr env garbage n with
            ⟨ch', n', m, rest, hch, rfl, _⟩
          rw [hch] at hdone
          cases hdone
          have hwork := toRead_doReadHeader hread hr
          have harrived' : (Link.doReadHeader s).arrived =
              ch.connection.socket.arrived := harrived
          refine ⟨?_, rfl⟩
          unfold toDo
          simp only [harrived', hwrite (Link.doReadHeader s) rfl]
          omega

theorem Brings.readDone_isSome (h : Brings platform waiting ch)
    (env : Platform) (garbage : Memory) (n : Protort.Node)
    (hread : ch.connection.socket.takeRead ≠ none) :
    (ch.readDone platform env garbage n).isSome = true := by
  rcases Option.ne_none_iff_exists'.mp hread with ⟨⟨r, s⟩, hs⟩
  cases hr : r.target with
  | packetHeader =>
      rcases h.header hs hr env garbage n with ⟨ch', hch, _⟩
      rw [hch]
      rfl
  | packet =>
      rcases h.message hs hr env garbage n with ⟨ch', n', m, rest, hch, _⟩
      rw [hch]
      rfl

theorem Brings.arrive_isSome (h : Brings platform waiting ch) (count : Nat) :
    (ch.connection.step platform (Connection.Event.io
      (IoEvent.arrive (ch.onWay count)))).isSome = true := by
  unfold Connection.step
  rw [if_neg (by rw [h.running]; exact Bool.false_ne_true)]
  simp only [Socket.progress, h.up, Bool.false_eq_true, if_false,
    Option.map_some, Option.isSome_some]

end Steps

end Channel

/-!
## The steps of one channel
-/

namespace Linked

universe u

variable {ι : Type u} [DecidableEq ι] {platform : Platform}
  {peer : ι -> Node.Client -> Option ι} {s t : Linked ι}
  {sys : ι -> Protort.Node} {x y : ι} {c : Node.Client}

def Event.IsOf (x : ι) (c : Node.Client) : Event ι -> Prop
  | Event.node _ _ _ => False
  | Event.client x' c' _ => x' = x ∧ c' = c
  | Event.there x' c' _ => x' = x ∧ c' = c
  | Event.connection x' c' _ => x' = x ∧ c' = c
  | Event.readDone x' c' _ _ _ => x' = x ∧ c' = c

instance (x : ι) (c : Node.Client) (e : Event ι) : Decidable (e.IsOf x c) :=
  match e with
  | Event.node _ _ _ => isFalse id
  | Event.client _ _ _ => inferInstanceAs (Decidable (_ ∧ _))
  | Event.there _ _ _ => inferInstanceAs (Decidable (_ ∧ _))
  | Event.connection _ _ _ => inferInstanceAs (Decidable (_ ∧ _))
  | Event.readDone _ _ _ _ _ => inferInstanceAs (Decidable (_ ∧ _))

omit [DecidableEq ι] in
theorem Event.IsOf.oneAtATime {e : Event ι} (he : e.IsOf x c)
    (platform : Platform) (s : Linked ι) : OneAtATime platform s e := by
  cases e with
  | node x' event garbage => cases he
  | client x' c' e => trivial
  | there x' c' count => trivial
  | connection x' c' e => trivial
  | readDone x' c' env garbage sending => trivial

theorem channels_withChannel (s : Linked ι) (x : ι) (c : Node.Client)
    (ch : Channel) : (s.withChannel x c ch).channels x c = ch := by
  unfold withChannel
  simp only [Function.update_self]

theorem channels_withNode (s : Linked ι) (garbage : Nat -> Memory) (y : ι)
    {n : Protort.Node} (hempty : n.outbox = []) :
    (s.withNode platform garbage y n).channels = s.channels := by
  unfold withNode
  simp only [hempty, sendAll, Function.update_eq_self]

/-- The step lemma. -/
theorem Direct.channel_step (h : Direct platform s sys) {e : Event ι}
    (he : e.IsOf x c) (hstep : Linked.step platform peer s e = some t) :
    (exists sys', Direct platform t sys') ∧
      (t.channels x c).toDo < (s.channels x c).toDo ∧
      (t.channels x c).given = (s.channels x c).given := by
  rcases h.step (he.oneAtATime platform s) hstep with ⟨_, sys', _, _, hafter⟩
  refine ⟨⟨sys', hafter⟩, ?_⟩
  cases e with
  | node x' event garbage => cases he
  | client x' c' e =>
      rcases he with ⟨rfl, rfl⟩
      rcases Option.ite_none_right_eq_some.mp hstep with ⟨he, hstep⟩
      rcases Option.map_eq_some_iff.mp hstep with ⟨client, hclient, rfl⟩
      rw [channels_withChannel]
      exact ⟨(h.brings x' c').client_less he hclient, rfl⟩
  | there x' c' count =>
      rcases he with ⟨rfl, rfl⟩
      rcases Option.ite_none_right_eq_some.mp hstep with ⟨hway, hstep⟩
      rcases Option.map_eq_some_iff.mp hstep with ⟨d, hd, rfl⟩
      rw [channels_withChannel]
      exact ⟨(h.brings x' c').arrive_less hway hd, rfl⟩
  | connection x' c' e =>
      rcases he with ⟨rfl, rfl⟩
      rcases Option.ite_none_right_eq_some.mp hstep with ⟨he, hstep⟩
      rcases Option.map_eq_some_iff.mp hstep with ⟨d, hd, rfl⟩
      rw [channels_withChannel]
      exact ⟨(h.brings x' c').connection_less he hd, rfl⟩
  | readDone x' c' env garbage sending =>
      rcases he with ⟨rfl, rfl⟩
      unfold Linked.step at hstep
      simp only at hstep
      cases hpeer : peer x' c' with
      | none =>
          rw [hpeer] at hstep
          cases hstep
      | some y =>
          rw [hpeer] at hstep
          rcases Option.map_eq_some_iff.mp hstep with ⟨done, hdone, rfl⟩
          have hempty : done.2.outbox = [] := by
            cases (h.brings x' c').readDone hdone with
            | header _ => exact h.emptied y
            | message _ _ _ hn => exact (outbox_message hn).trans (h.emptied y)
          rw [channels_withNode _ _ _ hempty, channels_withChannel]
          exact (h.brings x' c').readDone_less hdone

/-- The run lemma. -/
theorem Direct.channel_run (h : Direct platform s sys) {moves : List (Event ι)}
    (hmoves : Run (Guarded (fun _ e => e.IsOf x c)
      (Steps (Linked.step platform peer))) s moves t) :
    (exists sys', Direct platform t sys') ∧
      moves.length + (t.channels x c).toDo <= (s.channels x c).toDo ∧
      (t.channels x c).given = (s.channels x c).given := by
  induction hmoves generalizing sys with
  | nil s => exact ⟨⟨sys, h⟩, (Nat.zero_add _).le, rfl⟩
  | cons hstep _ ih =>
      rcases h.channel_step hstep.left hstep.right with
        ⟨⟨sys', hnext⟩, hless, hgiven⟩
      rcases ih hnext with ⟨hend, hle, hsame⟩
      refine ⟨hend, ?_, hsame.trans hgiven⟩
      rw [List.length_cons]
      omega

theorem Direct.settled_of_stuck (h : Direct platform s sys)
    (hpeer : peer x c = some y)
    (hstuck : forall e : Event ι, e.IsOf x c ->
      Linked.step platform peer s e = none) :
    (s.channels x c).Settled platform := by
  have hbrings := h.brings x c
  refine
    { client := ?_
      arrived := ?_
      connection := ?_
      read := ?_ }
  · intro e he
    have hnone := hstuck (Event.client x c e) ⟨rfl, rfl⟩
    unfold Linked.step at hnone
    simp only [he, if_true] at hnone
    exact Option.map_eq_none_iff.mp hnone
  · intro count
    by_contra hway
    have hnone := hstuck (Event.there x c count) ⟨rfl, rfl⟩
    unfold Linked.step at hnone
    simp only [ne_eq, hway, not_false_eq_true, if_true] at hnone
    have hsome := hbrings.arrive_isSome count
    rw [Option.map_eq_none_iff.mp hnone] at hsome
    cases hsome
  · intro e he
    have hnone := hstuck (Event.connection x c e) ⟨rfl, rfl⟩
    unfold Linked.step at hnone
    simp only [he, if_true] at hnone
    exact Option.map_eq_none_iff.mp hnone
  · by_contra hread
    have hnone := hstuck (Event.readDone x c Platform.loopback (fun _ => 0)
      (fun _ _ => 0)) ⟨rfl, rfl⟩
    unfold Linked.step at hnone
    simp only [hpeer] at hnone
    have hsome := hbrings.readDone_isSome Platform.loopback (fun _ => 0)
      (s.nodes y) hread
    rw [Option.map_eq_none_iff.mp hnone] at hsome
    cases hsome

/-- Every message is delivered.  In every state that the linked nodes reach the
bytes of a channel can go on a bounded number of times, in any order; and when
they cannot any more, its other end has been handed all messages that the client
was given. -/
theorem messages_are_delivered (platform : Platform)
    (here there : ι -> Node.Client -> Buffer -> Memory)
    (hsys : forall x, (sys x).outbox = []) {labels : List (Event ι)}
    (hrun : Run (Guarded (OneAtATime platform) (Steps (step platform peer)))
      (start here there sys) labels s) (hpeer : peer x c = some y)
    {moves : List (Event ι)}
    (hmoves : Run (Guarded (fun _ e => e.IsOf x c)
      (Steps (step platform peer))) s moves t) :
    moves.length <= (s.channels x c).toDo ∧
      ((forall e : Event ι, e.IsOf x c -> step platform peer t e = none) ->
        (t.channels x c).connection.handed.length =
          (s.channels x c).given.length) := by
  have hstart : exists sys', Direct platform (start here there sys) sys' :=
    ⟨sys, direct_start platform here there hsys⟩
  have hkept : forall {s : Linked ι} {e : Event ι} {t : Linked ι},
      Guarded (OneAtATime platform) (Steps (step platform peer)) s e t ->
        (exists sys', Direct platform s sys') ->
          exists sys', Direct platform t sys' := by
    rintro s e t hstep ⟨sys', hdirect⟩
    rcases hdirect.step hstep.left hstep.right with ⟨_, sys'', _, _, hafter⟩
    exact ⟨sys'', hafter⟩
  have hreached := hrun.invariant hkept hstart
  rcases hreached with ⟨sys', hdirect⟩
  rcases hdirect.channel_run hmoves with ⟨⟨sys'', hend⟩, hle, hgiven⟩
  refine ⟨by omega, fun hstuck => ?_⟩
  have hbrings := hend.brings x c
  have hnone := hbrings.settled (hend.settled_of_stuck hpeer hstuck)
  have hwaits := hbrings.waits
  rw [hnone] at hwaits
  rw [← hgiven]
  exact hbrings.handed_le.antisymm (List.drop_eq_nil_iff.mp hwaits.symm)

def lineMoves : List (Event Bool) :=
  let c := Nodes.lineRoute.client
  let read (count : Nat) : List (Event Bool) :=
    [Event.connection false c (Connection.Event.io (IoEvent.readSome count)),
      Event.readDone false c Platform.loopback (fun _ => 0) (fun _ _ => 0)]
  [Event.client false c (Client.Event.io (IoEvent.writeSome 0 35)),
    Event.client false c (Client.Event.writeDone 0),
    Event.there false c 37] ++ read 4 ++ read 40

theorem messages_are_delivered_line :
    exists s t,
      Run (Guarded (OneAtATime linePlatform)
        (Steps (step linePlatform Nodes.linePeer)))
        (start (fun _ _ _ _ => 0) (fun _ _ _ _ => 0) Nodes.line) lineLabels s ∧
      Run (Guarded (fun _ e => e.IsOf false Nodes.lineRoute.client)
        (Steps (step linePlatform Nodes.linePeer))) s lineMoves t ∧
      (s.channels false Nodes.lineRoute.client).connection.handed.length = 1 ∧
      (t.channels false Nodes.lineRoute.client).connection.handed.length = 2 ∧
      lineMoves.length <= (s.channels false Nodes.lineRoute.client).toDo := by
  have hend : (Lib.execute (fun s e =>
      if OneAtATime linePlatform s e then
        step linePlatform Nodes.linePeer s e
      else
        none) (start (fun _ _ _ _ => 0) (fun _ _ _ _ => 0) Nodes.line)
          lineLabels).map (fun s =>
        ((s.channels false Nodes.lineRoute.client).connection.handed.length,
          (Lib.execute (fun (s : Linked Bool) (e : Event Bool) =>
            if e.IsOf false Nodes.lineRoute.client then
              step linePlatform Nodes.linePeer s e
            else
              none) s lineMoves).map (fun t =>
            (t.channels false
              Nodes.lineRoute.client).connection.handed.length))) =
      some (1, some 2) := by
    decide +kernel
  have hsys : forall x, (Nodes.line x).outbox = [] := by
    intro x
    cases x with
    | false => decide +kernel
    | true => decide +kernel
  rcases Option.map_eq_some_iff.mp hend with ⟨s, hexecute, hs⟩
  rw [Prod.mk.injEq] at hs
  rcases hs with ⟨hone, hmoved⟩
  rcases Option.map_eq_some_iff.mp hmoved with ⟨t, hmoves, htwo⟩
  have hrun := Run.guarded_of_execute hexecute
  have hmoves := Run.guarded_of_execute hmoves
  exact ⟨s, t, hrun, hmoves, hone, htwo,
    (messages_are_delivered linePlatform _ _ hsys hrun rfl hmoves).left⟩

end Linked

end System
end Protort
