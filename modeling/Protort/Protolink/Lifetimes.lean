import Protort.Protolink.Responses

/-!
# When connections are destroyed

The handlers of reads share the connection, those of writes only know where it
is.  When the read loop ends, at an error or at a header that is too large,
nothing holds the connection any more.  The destructor closes the socket, and
the handlers of the responses that were still being written run on an object
that is gone.
-/

namespace Protort
namespace Protolink
namespace Connection

open Lib (Memory PendingRead Socket IoEvent Run Steps)
open Link (Buffer)

/-!
## Connections with owners
-/

/-- A connection that was accepted, whether it was destroyed, and how many
handlers have run on it since. -/
structure Owned where
  connection : Connection
  destroyed : Bool
  dangling : Nat

def RunsHandler : Event -> Bool
  | Event.io _ => false
  | _ => true

namespace Owned

def start (memory : Buffer -> Memory) : Owned :=
  { connection := (Connection.new memory).start
    destroyed := false
    dangling := 0 }

/-- Without a read nothing holds the connection any more, and the destructor
closes its socket.  A failed assertion ends the program before that. -/
def release (o : Owned) : Owned :=
  if o.connection.aborted = false ∧ o.connection.socket.reads = [] then
    { o with
      connection := { o.connection with socket := o.connection.socket.close }
      destroyed := true }
  else
    o

def step (platform : Platform) (o : Owned) (e : Event) : Option Owned :=
  (o.connection.step platform e).map (fun c =>
    { o with
      connection := c
      dangling :=
        if o.destroyed && RunsHandler e then
          o.dangling + 1
        else
          o.dangling }.release)

@[simp] theorem release_dangling (o : Owned) :
    o.release.dangling = o.dangling := by
  unfold release
  split <;> rfl

@[simp] theorem release_aborted (o : Owned) :
    o.release.connection.aborted = o.connection.aborted := by
  unfold release
  split <;> rfl

@[simp] theorem release_reads (o : Owned) :
    o.release.connection.socket.reads = o.connection.socket.reads := by
  unfold release
  split <;> rfl

@[simp] theorem release_writes (o : Owned) :
    o.release.connection.socket.writes = o.connection.socket.writes := by
  unfold release
  split <;> rfl

end Owned

/-!
## What a step does to reads and writes
-/

section Steps

variable {platform : Platform} {c d : Connection} {e : Event}

theorem onPacketRead_reads (platform : Platform) (answer : Protocol.Payload)
    (garbage : Memory) (bytes : Nat) (c : Connection) :
    ((c.onPacketRead platform answer garbage bytes).aborted = true ∧
      (c.onPacketRead platform answer garbage bytes).socket.reads =
        c.socket.reads) ∨
    exists r, (c.onPacketRead platform answer garbage bytes).socket.reads =
      c.socket.reads ++ [r] := by
  have hreads : (c.onNewPacket platform answer garbage
      ((c.socket.memory Buffer.packet).read 0 bytes)).socket.reads =
        c.socket.reads := by
    rcases onNewPacket_cases platform answer garbage
        ((c.socket.memory Buffer.packet).read 0 bytes) c with
      ⟨_, hnew⟩ | ⟨_, hnew⟩ | ⟨_, _, hnew⟩
    · rw [hnew]
    · rw [hnew]
      exact Link.sendPacket_reads _ _ _ _ _ _
    · rw [hnew]
  by_cases haborted : (c.onNewPacket platform answer garbage
      ((c.socket.memory Buffer.packet).read 0 bytes)).aborted = true
  · have hsame : c.onPacketRead platform answer garbage bytes =
        c.onNewPacket platform answer garbage
          ((c.socket.memory Buffer.packet).read 0 bytes) := if_pos haborted
    rw [hsame]
    exact Or.inl ⟨haborted, hreads⟩
  · have hnext : c.onPacketRead platform answer garbage bytes =
        (c.onNewPacket platform answer garbage
          ((c.socket.memory Buffer.packet).read 0 bytes)).doReadHeader :=
      if_neg haborted
    rw [hnext, ← hreads]
    exact Or.inr ⟨_, rfl⟩

theorem step_reads (h : c.step platform e = some d)
    (hle : c.socket.reads.length <= 1) : d.socket.reads.length <= 1 := by
  have hrest : forall {r : PendingRead Buffer} {s : Socket Buffer Unit},
      c.socket.reads = r :: s.reads -> s.reads = [] := by
    intro r s hreads
    rw [hreads, List.length_cons] at hle
    have hlength := Nat.le_of_succ_le_succ hle
    exact List.length_eq_zero_iff.mp (Nat.le_zero.mp hlength)
  cases (step_moves h).right with
  | io hs => exact (Socket.progress_reads hs).left.le.trans hle
  | @header answer garbage r s hs _ =>
      have hempty := hrest (Socket.takeRead_eq_some hs).right.left
      show (Link.onHeaderRead platform s).reads.length <= 1
      unfold Link.onHeaderRead
      split
      · exact hempty ▸ Nat.zero_le 1
      · show (s.reads ++ [_]).length <= 1
        rw [hempty]
        exact Nat.le_refl 1
  | @packet answer garbage r s hs _ =>
      have hempty := hrest (Socket.takeRead_eq_some hs).right.left
      rcases onPacketRead_reads platform answer garbage r.size
          { c with socket := s } with ⟨_, hreads⟩ | ⟨r', hreads⟩
      · rw [hreads, hempty]
        exact Nat.zero_le 1
      · rw [hreads, hempty]
        exact Nat.le_refl 1
  | readFail hs =>
      rcases Socket.failRead_eq_some hs with ⟨r, _, _, hreads, _⟩
      rw [hrest hreads]
      exact Nat.zero_le 1
  | writeDone hs =>
      rw [(Socket.takeWrite_eq_some hs).right.right]
      exact hle
  | writeFail hs =>
      rw [(Socket.failWrite_eq_some hs).right.right.right]
      exact hle

theorem writes_of_last_read (h : c.step platform e = some d)
    (hreads : c.socket.reads ≠ []) (haborted : d.aborted = false)
    (hempty : d.socket.reads = []) : d.socket.writes = c.socket.writes := by
  cases (step_moves h).right with
  | io hs =>
      have hlength := (Socket.progress_reads hs).left
      rw [hempty] at hlength
      exact absurd (List.length_eq_zero_iff.mp hlength.symm) hreads
  | @header answer garbage r s hs _ =>
      show (Link.onHeaderRead platform s).writes = _
      rw [Link.onHeaderRead_writes, (Socket.takeRead_eq_some hs).right.right]
  | @packet answer garbage r s hs _ =>
      rcases onPacketRead_reads platform answer garbage r.size
          { c with socket := s } with ⟨hfailed, _⟩ | ⟨r', hnext⟩
      · rw [hfailed] at haborted
        cases haborted
      · rw [hnext] at hempty
        exact absurd hempty (List.append_ne_nil_of_right_ne_nil _
          (List.cons_ne_nil _ _))
  | readFail hs =>
      rcases Socket.failRead_eq_some hs with ⟨_, _, _, _, hsocket⟩
      rw [hsocket]
  | writeDone hs =>
      rw [(Socket.takeWrite_eq_some hs).right.right] at hempty
      exact absurd hempty hreads
  | writeFail hs =>
      rw [(Socket.failWrite_eq_some hs).right.right.right] at hempty
      exact absurd hempty hreads

theorem step_closed (h : c.step platform e = some d)
    (hreads : c.socket.reads = []) (hclosed : c.socket.closed = true) :
    d.aborted = false ∧ d.socket.reads = [] ∧ d.socket.closed = true ∧
      (if RunsHandler e then 1 else 0) + d.socket.writes.length =
        c.socket.writes.length := by
  rcases step_moves h with ⟨haborted, hmoves⟩
  have herase : forall {index : Nat} {w : Lib.PendingWrite Buffer Unit},
      c.socket.writes[index]? = some w ->
        1 + (c.socket.writes.eraseIdx index).length =
          c.socket.writes.length := by
    intro index w hw
    rcases List.getElem?_eq_some_iff.mp hw with ⟨hindex, _⟩
    rw [List.length_eraseIdx_of_lt hindex]
    omega
  cases hmoves with
  | @io e s hs =>
      rcases Socket.progress_reads hs with ⟨hlength, hsame⟩
      rw [hreads] at hlength
      refine ⟨haborted, List.length_eq_zero_iff.mp hlength,
        hsame.trans hclosed, ?_⟩
      show 0 + s.writes.length = _
      rw [Nat.zero_add]
      exact (Socket.progress_writes hs).left
  | header hs _ =>
      have hsome := (Socket.takeRead_eq_some hs).right.left
      rw [hreads] at hsome
      cases hsome
  | packet hs _ =>
      have hsome := (Socket.takeRead_eq_some hs).right.left
      rw [hreads] at hsome
      cases hsome
  | readFail hs =>
      rcases Socket.failRead_eq_some hs with ⟨_, _, _, hsome, _⟩
      rw [hreads] at hsome
      cases hsome
  | writeDone hs =>
      rcases Socket.takeWrite_eq_some hs with ⟨hw, _, rfl⟩
      exact ⟨haborted, hreads, hclosed, herase hw⟩
  | writeFail hs =>
      rcases Socket.failWrite_eq_some hs with ⟨hw, _, _, rfl⟩
      exact ⟨haborted, hreads, hclosed, herase hw⟩

def WritesBounded (c : Connection) : Prop :=
  forall w, w ∈ c.socket.writes -> w.done <= w.size

theorem WritesBounded.onPacketRead (h : WritesBounded c) (platform : Platform)
    (answer : Protocol.Payload) (garbage : Memory) (bytes : Nat) :
    WritesBounded (c.onPacketRead platform answer garbage bytes) := by
  have hnew : WritesBounded (c.onNewPacket platform answer garbage
      ((c.socket.memory Buffer.packet).read 0 bytes)) := by
    rcases onNewPacket_cases platform answer garbage
        ((c.socket.memory Buffer.packet).read 0 bytes) c with
      ⟨_, hpacket⟩ | ⟨_, hpacket⟩ | ⟨_, _, hpacket⟩
    · rw [hpacket]
      exact h
    · rw [hpacket]
      intro w hw
      simp only [Link.sendPacket_writes] at hw
      rcases List.mem_append.mp hw with hw | hw
      · exact h w hw
      · rw [List.mem_singleton.mp hw]
        exact Nat.zero_le _
    · rw [hpacket]
      exact h
  unfold Connection.onPacketRead
  simp only
  split
  · exact hnew
  · exact hnew

theorem WritesBounded.step (hc : WritesBounded c)
    (h : c.step platform e = some d) :
    WritesBounded d := by
  cases (step_moves h).right with
  | io hs =>
      intro w hw
      rcases (Socket.progress_writes hs).right w hw with ⟨w', hw', _, hsize⟩
      exact hsize (hc w' hw')
  | @header answer garbage r s hs _ =>
      intro w hw
      have hw : w ∈ (Link.onHeaderRead platform s).writes := hw
      rw [Link.onHeaderRead_writes, (Socket.takeRead_eq_some hs).right.right]
        at hw
      exact hc w hw
  | @packet answer garbage r s hs _ =>
      apply WritesBounded.onPacketRead
      rw [(Socket.takeRead_eq_some hs).right.right]
      exact hc
  | readFail hs =>
      rcases Socket.failRead_eq_some hs with ⟨_, _, _, _, hsocket⟩
      rw [hsocket]
      exact hc
  | writeDone hs =>
      rw [(Socket.takeWrite_eq_some hs).right.right]
      exact fun w hw => hc w (List.mem_of_mem_eraseIdx hw)
  | writeFail hs =>
      rw [(Socket.failWrite_eq_some hs).right.right.right]
      exact fun w hw => hc w (List.mem_of_mem_eraseIdx hw)

theorem exists_writeHandler (platform : Platform) (hc : WritesBounded c)
    (haborted : c.aborted = false) (hclosed : c.socket.closed = true)
    (hwrites : c.socket.writes ≠ []) :
    exists e d, RunsHandler e = true ∧ c.step platform e = some d := by
  have hrunning : forall {x : Option Connection},
      (if c.aborted = true then none else x) = x :=
    if_neg (by rw [haborted]; exact Bool.false_ne_true)
  rcases List.exists_cons_of_ne_nil hwrites with ⟨w, rest, hcons⟩
  have hfirst : c.socket.writes[0]? = some w := by
    rw [hcons]
    rfl
  rcases (hc w (List.mem_of_getElem? hfirst)).eq_or_lt with hdone | hless
  · have htake : c.socket.takeWrite 0 =
        some (w, { c.socket with writes := c.socket.writes.eraseIdx 0 }) := by
      unfold Socket.takeWrite
      simp only [hfirst, if_pos hdone]
    refine ⟨Event.writeDone 0, { c with
      socket := { c.socket with writes := c.socket.writes.eraseIdx 0 } }, rfl,
        hrunning.trans ?_⟩
    show (c.socket.takeWrite 0).map _ = _
    rw [htake]
    rfl
  · have hfail : c.socket.failWrite 0 =
        some (w, { c.socket with writes := c.socket.writes.eraseIdx 0 }) := by
      unfold Socket.failWrite
      simp only [hfirst, if_pos (And.intro hless hclosed)]
    refine ⟨Event.writeFail 0, { c with
      socket := { c.socket with writes := c.socket.writes.eraseIdx 0 } }, rfl,
        hrunning.trans ?_⟩
    show (c.socket.failWrite 0).map _ = _
    rw [hfail]
    rfl

end Steps

/-!
## Runs of a connection with owners
-/

namespace Owned

section Runs

variable {platform : Platform} {memory : Buffer -> Memory} {o o' : Owned}
  {e : Event}

/-- A connection is destroyed exactly when nothing reads from it any more, and
nothing has used it after that unless it was. -/
structure Held (o : Owned) : Prop where
  reads : o.connection.socket.reads.length <= 1
  destroyed : o.destroyed = true <->
    o.connection.aborted = false ∧ o.connection.socket.reads = []
  closed : o.destroyed = true -> o.connection.socket.closed = true
  unused : o.destroyed = false -> o.dangling = 0
  writesBounded : WritesBounded o.connection

theorem held_start (memory : Buffer -> Memory) : Held (start memory) :=
  { reads := Nat.le_refl 1
    destroyed := ⟨nofun, fun h => nomatch h.right⟩
    closed := nofun
    unused := fun _ => rfl
    writesBounded := fun _ hw => absurd hw List.not_mem_nil }

theorem Held.step_destroyed (h : Held o) (hdestroyed : o.destroyed = true)
    (hstep : step platform o e = some o') :
    o'.destroyed = true ∧
      o'.dangling = o.dangling + (if RunsHandler e then 1 else 0) ∧
      o'.dangling + o'.connection.socket.writes.length =
        o.dangling + o.connection.socket.writes.length := by
  rcases Option.map_eq_some_iff.mp hstep with ⟨c, hc, rfl⟩
  rcases step_closed hc (h.destroyed.mp hdestroyed).right
    (h.closed hdestroyed) with ⟨haborted, hreads, _, hwrites⟩
  have hdangling : (if (o.destroyed && RunsHandler e) = true then
      o.dangling + 1 else o.dangling) =
        o.dangling + (if RunsHandler e then 1 else 0) := by
    rw [hdestroyed, Bool.true_and]
    split <;> rfl
  unfold release
  rw [if_pos ⟨haborted, hreads⟩]
  refine ⟨rfl, hdangling, ?_⟩
  show (if (o.destroyed && RunsHandler e) = true then _ else _) +
    c.socket.writes.length = _
  rw [hdangling, Nat.add_assoc, hwrites]

/-- The step lemma. -/
theorem Held.step (h : Held o) (hstep : step platform o e = some o') :
    Held o' := by
  rcases Option.map_eq_some_iff.mp hstep with ⟨c, hc, rfl⟩
  have hreads : c.socket.reads.length <= 1 := step_reads hc h.reads
  have hwithin : WritesBounded c := h.writesBounded.step hc
  by_cases hlast : c.aborted = false ∧ c.socket.reads = []
  · unfold release
    rw [if_pos hlast]
    exact
      { reads := hreads
        destroyed := ⟨fun _ => hlast, fun _ => rfl⟩
        closed := fun _ => rfl
        unused := nofun
        writesBounded := hwithin }
  · have halive : ¬ o.destroyed = true := by
      intro hdestroyed
      rcases step_closed hc (h.destroyed.mp hdestroyed).right
        (h.closed hdestroyed) with ⟨haborted, hreads, _⟩
      exact hlast ⟨haborted, hreads⟩
    unfold release
    rw [if_neg hlast]
    refine
      { reads := hreads
        destroyed := ⟨fun hdestroyed => absurd hdestroyed halive,
          fun hnow => absurd hnow hlast⟩
        closed := fun hdestroyed => absurd hdestroyed halive
        unused := ?_
        writesBounded := hwithin }
    intro hdestroyed
    have hunused := h.unused hdestroyed
    simp only [Bool.eq_false_of_not_eq_true halive, Bool.false_and]
    exact hunused

/-- The run lemma for a connection that was destroyed. -/
theorem Held.run_destroyed (h : Held o) (hdestroyed : o.destroyed = true)
    {labels : List Event}
    (hrun : Run (Steps (Owned.step platform)) o labels o') :
    Held o' ∧ o'.destroyed = true ∧
      o'.dangling + o'.connection.socket.writes.length =
        o.dangling + o.connection.socket.writes.length := by
  induction hrun with
  | nil o => exact ⟨h, hdestroyed, rfl⟩
  | cons hstep _ ih =>
      rcases h.step_destroyed hdestroyed hstep with ⟨hafter, _, hcount⟩
      rcases ih (h.step hstep) hafter with ⟨hend, hstill, hsame⟩
      exact ⟨hend, hstill, hsame.trans hcount⟩

theorem Held.exists_handler (platform : Platform) (h : Held o)
    (hdestroyed : o.destroyed = true)
    (hwrites : o.connection.socket.writes ≠ []) :
    exists e o', RunsHandler e = true ∧ Owned.step platform o e = some o' := by
  rcases exists_writeHandler platform h.writesBounded
    (h.destroyed.mp hdestroyed).left (h.closed hdestroyed) hwrites with
      ⟨e, c, he, hc⟩
  have hstep : (Owned.step platform o e).isSome = true := by
    unfold Owned.step
    rw [hc]
    rfl
  rcases Option.isSome_iff_exists.mp hstep with ⟨o', ho'⟩
  exact ⟨e, o', he, ho'⟩

/-- Handlers outlive the connection.  It is destroyed by the step that leaves no
read behind.  From then on as many handlers run on what is left of it as
responses were being written, once all of them have run, and none does exactly
if there was no such response. -/
theorem handlers_outlive_connection {labels : List Event}
    (hrun : Run (Steps (Owned.step platform)) (start memory) labels o)
    (halive : o.destroyed = false) (hstep : Owned.step platform o e = some o') :
    o'.dangling = 0 ∧
      (o'.destroyed = true <->
        o'.connection.aborted = false ∧ o'.connection.socket.reads = []) ∧
      (o'.destroyed = true ->
        (forall after t, Run (Steps (Owned.step platform)) o' after t ->
          t.dangling + t.connection.socket.writes.length =
              o.connection.socket.writes.length ∧
            ((forall e', RunsHandler e' = true ->
                Owned.step platform t e' = none) ->
              t.dangling = o.connection.socket.writes.length)) ∧
        ((forall after t, Run (Steps (Owned.step platform)) o' after t ->
            t.dangling = 0) <->
          o.connection.socket.writes = [])) := by
  have hheld : Held o := hrun.invariant (fun h ho => ho.step h)
    (held_start memory)
  have hafter : Held o' := hheld.step hstep
  have hunused : o'.dangling = 0 := by
    rcases Option.map_eq_some_iff.mp hstep with ⟨c, _, rfl⟩
    simp only [release_dangling, halive, Bool.false_and, Bool.false_eq_true,
      if_false]
    exact hheld.unused halive
  refine ⟨hunused, hafter.destroyed, fun hdestroyed => ?_⟩
  -- the step that destroys the connection ends its last read
  have hwrites : o'.connection.socket.writes = o.connection.socket.writes := by
    rcases hafter.destroyed.mp hdestroyed with ⟨haborted, hempty⟩
    rcases Option.map_eq_some_iff.mp hstep with ⟨c, hc, rfl⟩
    rw [release_aborted] at haborted
    rw [release_reads] at hempty
    rw [release_writes]
    apply writes_of_last_read hc _ haborted hempty
    intro hnone
    rw [hheld.destroyed.mpr ⟨(step_moves hc).left, hnone⟩] at halive
    cases halive
  have hcount : forall after t, Run (Steps (Owned.step platform)) o' after t ->
      t.dangling + t.connection.socket.writes.length =
        o.connection.socket.writes.length := by
    intro after t hafterwards
    rw [(hafter.run_destroyed hdestroyed hafterwards).right.right, hunused,
      Nat.zero_add, hwrites]
  constructor
  · intro after t hafterwards
    refine ⟨hcount after t hafterwards, fun hnone => ?_⟩
    rcases hafter.run_destroyed hdestroyed hafterwards with
      ⟨hend, hstill, _⟩
    have hdone : t.connection.socket.writes = [] := by
      by_contra hleft
      rcases hend.exists_handler platform hstill hleft with
        ⟨e', t', he', ht'⟩
      rw [hnone e' he'] at ht'
      cases ht'
    have hsum := hcount after t hafterwards
    rw [hdone] at hsum
    exact hsum
  constructor
  · intro hnever
    by_contra hleft
    rw [← hwrites] at hleft
    rcases hafter.exists_handler platform hdestroyed hleft with
      ⟨e', t, he', ht⟩
    have hused := (hafter.step_destroyed hdestroyed ht).right.left
    rw [hnever [e'] t (Run.single ht), hunused, if_pos he'] at hused
    cases hused
  · intro hnone after t hafterwards
    have hsum := hcount after t hafterwards
    rw [hnone] at hsum
    exact Nat.eq_zero_of_add_eq_zero_right hsum

end Runs

/-- A request is read and its response queued, and the client breaks off. -/
def brokenOff : List Event :=
  [Event.io (IoEvent.arrive (twoRequests.take 10)),
    Event.io (IoEvent.readSome 4),
    Event.readDone Protocol.Payload.notSet (fun _ => 0),
    Event.io (IoEvent.readSome 6),
    Event.readDone Protocol.Payload.notSet (fun _ => 0),
    Event.io IoEvent.finish]

/-- The handler of the response runs on a connection that was destroyed. -/
theorem handlers_outlive_connection_brokenOff :
    exists o o' t,
      Run (Steps (Owned.step Platform.loopback)) (start (fun _ _ => 0))
        brokenOff o ∧
      Owned.step Platform.loopback o Event.readFail = some o' ∧
      o'.destroyed = true ∧
      Owned.step Platform.loopback o' (Event.writeFail 0) = some t ∧
      t.dangling = 1 ∧
      t.dangling + t.connection.socket.writes.length =
        o.connection.socket.writes.length := by
  have hend :
      (Lib.execute (Owned.step Platform.loopback) (start (fun _ _ => 0))
        brokenOff).map (fun o => (o.destroyed,
          (Owned.step Platform.loopback o Event.readFail).map (fun o' =>
            (o'.destroyed,
              (Owned.step Platform.loopback o' (Event.writeFail 0)).map
                (fun t => t.dangling))))) =
      some (false, some (true, some 1)) := by
    decide +kernel
  rcases Option.map_eq_some_iff.mp hend with ⟨o, hexecute, ho⟩
  rw [Prod.mk.injEq] at ho
  rcases ho with ⟨halive, hfail⟩
  rcases Option.map_eq_some_iff.mp hfail with ⟨o', hstep, ho'⟩
  rw [Prod.mk.injEq] at ho'
  rcases ho' with ⟨hdestroyed, hwrite⟩
  rcases Option.map_eq_some_iff.mp hwrite with ⟨t, ht, hdangling⟩
  have hrun := Run.of_execute hexecute
  have houtlives := handlers_outlive_connection hrun halive hstep
  have hafterwards := (houtlives.right.right hdestroyed).left
    [Event.writeFail 0] t (Run.single ht)
  exact ⟨o, o', t, hrun, hstep, hdestroyed, ht, hdangling, hafterwards.left⟩

end Owned

end Connection
end Protolink
end Protort
