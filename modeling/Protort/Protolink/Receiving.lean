import Protort.Protolink.Client

/-!
# What a client receives

Every request that has been sent starts a read of a header, and every header a
read of a packet behind all reads that are pending by then.  As long as at most
one header read is pending the packets handed on are the responses in order.
With two header reads pending the second one takes the beginning of the first
response for a header.
-/

namespace Protort
namespace Protolink

open Lib (Bytes Framing Memory PendingRead Socket IoEvent)
open Link (Buffer At Position maxPacketSize headerSize)

namespace Client

def Sends : Event -> Prop
  | Event.sendMessage _ _ => True
  | Event.sendRequest _ _ _ => True
  | _ => False

def Starts (c : Client) : Event -> Prop
  | Event.writeDone index =>
      (c.socket.writes[index]?).map (fun w => w.tag) =
        some Protocol.Kind.request
  | _ => False

/-- No packet is put together while a part of a response is in the buffer, and
the write of a request does not complete while a header read is pending. -/
def ReadsSafely (c : Client) (e : Event) : Prop :=
  (Sends e -> forall r, r ∈ c.socket.reads -> r.target = Buffer.packet ->
    r.got = 0) ∧
  (Starts c e -> forall r, r ∈ c.socket.reads ->
    r.target ≠ Buffer.packetHeader)

instance (e : Event) : Decidable (Sends e) :=
  match e with
  | Event.sendMessage _ _ => isTrue trivial
  | Event.sendRequest _ _ _ => isTrue trivial
  | Event.io _ => isFalse id
  | Event.readDone => isFalse id
  | Event.readFail => isFalse id
  | Event.writeDone _ => isFalse id
  | Event.writeFail _ => isFalse id

instance (c : Client) (e : Event) : Decidable (Starts c e) :=
  match e with
  | Event.sendMessage _ _ => isFalse id
  | Event.sendRequest _ _ _ => isFalse id
  | Event.io _ => isFalse id
  | Event.readDone => isFalse id
  | Event.readFail => isFalse id
  | Event.writeDone _ => inferInstanceAs (Decidable (_ = _))
  | Event.writeFail _ => isFalse id

instance (c : Client) (e : Event) : Decidable (c.ReadsSafely e) :=
  inferInstanceAs (Decidable ((_ -> forall r, r ∈ c.socket.reads -> _) ∧
    (_ -> forall r, r ∈ c.socket.reads -> _)))

section Receiving

variable {platform : Platform} {bodies : List Bytes} {c d : Client}

/-- The reads of a client are in step with the responses, or the stream is over
and the reads that are still pending will fail. -/
inductive InStep (platform : Platform) (c : Client) : Prop where
  | live {position : Position} :
      At platform c.handed position c.socket ->
      (forall rest, position = Position.idle rest -> rest = []) ->
      c.handed.length + c.socket.reads.length = c.answerable ->
      InStep platform c
  | exhausted {rest : Bytes} :
      c.socket.ended = true -> c.socket.inbox = [] ->
      (forall r, r ∈ c.socket.reads -> r = Position.headerRead 0) ->
      platform.framing.Fits c.handed ->
      c.socket.received = platform.framing.frames c.handed ++ rest ->
      platform.framing.Incomplete rest -> InStep platform c

structure Synced (platform : Platform) (c : Client) : Prop where
  running : c.aborted = false
  opened : c.socket.closed = false
  inStep : InStep platform c

structure Responses (platform : Platform) (bodies : List Bytes) : Prop where
  fits : platform.framing.Fits bodies
  kind : forall body, body ∈ bodies ->
    (platform.parse body).kind = Protocol.Kind.response

theorem stuck_nil (platform : Platform) : platform.framing.Stuck [] :=
  Or.inl (Framing.Incomplete.header (show 0 < headerSize by decide))

theorem InStep.handed_isPrefix (h : InStep platform c)
    (hbodies : Responses platform bodies)
    (harrived : List.IsPrefix c.socket.arrived
      (platform.framing.frames bodies)) :
    List.IsPrefix c.handed bodies := by
  cases h with
  | live hat _ _ =>
      rw [← List.append_nil (platform.framing.frames bodies)] at harrived
      exact hat.handed_isPrefix hbodies.fits (stuck_nil platform) harrived
  | @exhausted rest _ hinbox _ hfits hreceived _ =>
      rcases harrived with ⟨later, hlater⟩
      rw [Socket.arrived, hreceived, List.append_assoc, List.append_assoc,
        ← List.append_nil (platform.framing.frames bodies)] at hlater
      rcases Framing.frames_append_eq hfits hbodies.fits (stuck_nil platform)
        hlater with ⟨others, hsplit, _⟩
      exact ⟨others, hsplit.symm⟩

theorem InStep.handed_all (h : InStep platform c)
    (hopen : c.socket.closed = false) (hbodies : Responses platform bodies)
    (harrived : c.socket.arrived = platform.framing.frames bodies)
    (hquiet : c.socket.Quiet) (hcount : bodies.length <= c.answerable) :
    c.handed = bodies := by
  have harrived' :
      c.socket.arrived = platform.framing.frames bodies ++ [] := by
    rw [List.append_nil]
    exact harrived
  have hfirst := h.handed_isPrefix hbodies (by rw [harrived])
  cases h with
  | @live position hat hidle hanswerable =>
      by_cases hreads : position.reads = []
      · rw [hat.reads, hreads, List.length_nil, Nat.add_zero] at hanswerable
        rw [← hanswerable] at hcount
        exact hfirst.eq_of_length_le hcount
      · rcases hat.inbox_of_quiet hopen hreads hquiet with ⟨hwaits, hinbox⟩
        have hincomplete : platform.framing.Incomplete
            (position.bytes platform.framing ++ c.socket.inbox) := by
          rw [hinbox, List.append_nil]
          exact Position.incomplete hwaits hat.holds
        exact (hat.handed_all hbodies.fits (stuck_nil platform) harrived'
          (Or.inl hincomplete)).left
  | @exhausted rest _ hinbox _ hfits hreceived hincomplete =>
      rw [Socket.arrived, hinbox, List.append_nil, hreceived] at harrived'
      exact (Framing.frames_append_eq_of_stuck hfits hbodies.fits
        (stuck_nil platform) (Or.inl hincomplete) harrived').left

/-!
## One step
-/

theorem doSendPacket_synced {garbage : Memory} {packet : Bytes}
    {kind : Protocol.Kind} (h : Synced platform c)
    (hempty : forall r, r ∈ c.socket.reads -> r.target = Buffer.packet ->
      r.got = 0) :
    Synced platform (c.doSendPacket platform garbage packet kind) := by
  have hreads := Link.sendPacket_reads platform (maxPacketSize + headerSize)
    garbage packet kind c.socket
  refine
    { running := h.running
      opened := (Link.sendPacket_closed _ _ _ _ _ _).trans h.opened
      inStep := ?_ }
  cases h.inStep with
  | live hat hidle hcount =>
      refine InStep.live (hat.sendPacket _ _ _ _ hempty) hidle ?_
      show c.handed.length + (Link.sendPacket _ _ _ _ _ _).reads.length = _
      rw [hreads]
      exact hcount
  | exhausted hended hinbox hall hfits hreceived hincomplete =>
      refine InStep.exhausted ((Link.sendPacket_ended _ _ _ _ _ _).trans hended)
        ((Link.sendPacket_inbox _ _ _ _ _ _).trans hinbox) ?_ hfits
        ((Link.sendPacket_received _ _ _ _ _ _).trans hreceived) hincomplete
      intro r hr
      exact hall r (hreads ▸ hr)

theorem progress_synced {e : IoEvent} {s : Socket Buffer Protocol.Kind}
    (hs : c.socket.progress e = some s) (h : Synced platform c) :
    Synced platform { c with socket := s } := by
  rcases Socket.progress_reads hs with ⟨hlength, hclosed⟩
  refine
    { running := h.running
      opened := hclosed.trans h.opened
      inStep := ?_ }
  cases h.inStep with
  | @live position hat hidle hcount =>
      rw [← hlength] at hcount
      rcases hat.progress hs with ⟨more, hat' | hat'⟩
      · refine InStep.live hat' ?_ hcount
        intro rest hrest
        cases position with
        | idle rest' =>
            rw [Position.receive] at hrest
            exact hidle rest hrest
        | header part => cases hrest
        | packet size part => cases hrest
        | both size part next =>
            rw [Position.receive] at hrest
            split at hrest
            · cases hrest
            · cases hrest
      · exact InStep.live hat' hidle hcount
  | exhausted hended hinbox hall hfits hreceived hincomplete =>
      cases e with
      | arrive bytes =>
          simp only [Socket.progress, Option.ite_none_left_eq_some,
            Option.some.injEq] at hs
          exact absurd hended hs.left
      | finish =>
          simp only [Socket.progress, Option.some.injEq] at hs
          subst s
          exact InStep.exhausted rfl hinbox hall hfits hreceived hincomplete
      | readSome count =>
          rcases Socket.readSome_eq_some hs with ⟨_, _, _, hpos, hle, _⟩
          rw [hinbox, List.length_nil] at hle
          omega
      | writeSome index count =>
          rcases Socket.writeSome_eq_some hs with ⟨_, _, _, _, _, rfl⟩
          exact InStep.exhausted hended hinbox hall hfits hreceived hincomplete

theorem packetSize_le {part : Bytes} {s : Socket Buffer Protocol.Kind}
    (hat : At platform c.handed (Position.idle part) s)
    (hbodies : Responses platform bodies) (hlength : part.length = headerSize)
    (hsize : Link.packetSize platform s = platform.framing.decode part)
    (harrived : List.IsPrefix s.arrived (platform.framing.frames bodies)) :
    Link.packetSize platform s <= maxPacketSize := by
  rcases harrived with ⟨later, hlater⟩
  rw [← List.append_nil (platform.framing.frames bodies)] at hlater
  rcases hat.stream_split hbodies.fits (stuck_nil platform) hlater with
    ⟨others, hsplit, hrest⟩
  rw [Position.bytes, List.append_nil] at hrest
  cases others with
  | nil =>
      rw [Framing.frames_nil] at hrest
      have hnil := (List.append_eq_nil_iff.mp hrest).left
      rw [hnil] at hlength
      exact absurd hlength (by decide)
  | cons body others =>
      rw [Framing.frames_cons, Framing.frame, List.append_assoc] at hrest
      have hbody : body.length <= platform.framing.limit := by
        apply hbodies.fits
        rw [hsplit]
        exact List.mem_append_right _ List.mem_cons_self
      have hheader := (Framing.header_append_inj hlength hrest).left
      rw [hsize, hheader, platform.framing.decode_encode _ hbody]
      exact hbody

theorem header_synced {r : PendingRead Buffer}
    {s : Socket Buffer Protocol.Kind}
    (hs : c.socket.takeRead = some (r, s))
    (hr : r.target = Buffer.packetHeader)
    (hbodies : Responses platform bodies)
    (harrived : List.IsPrefix s.arrived (platform.framing.frames bodies))
    (h : Synced platform c) :
    Synced platform (onHeaderRead platform { c with socket := s }) := by
  rcases Socket.takeRead_eq_some hs with ⟨hgot, hreads, ht⟩
  have hclosed : s.closed = false := by
    rw [ht]
    exact h.opened
  cases h.inStep with
  | @live position hat hidle hcount =>
      cases position with
      | idle rest =>
          rw [hat.reads] at hreads
          cases hreads
      | packet size part =>
          rw [(hat.takePacket hs).left] at hr
          cases hr
      | both size part next =>
          rw [(hat.takeBoth hs).left] at hr
          cases hr
      | header part =>
          rcases hat.takeHeader hs with ⟨_, hlength, hdecode, hat'⟩
          have hsize := packetSize_le hat' hbodies hlength hdecode harrived
          have haccepted := hat'.onHeaderRead_accepted hlength hdecode hsize
          refine
            { running := h.running
              opened := ?_
              inStep := InStep.live haccepted nofun ?_ }
          · show (Link.onHeaderRead platform s).closed = false
            rw [Link.onHeaderRead, if_neg (by omega)]
            exact hclosed
          · rw [hat.reads] at hcount
            show c.handed.length +
              (Link.onHeaderRead platform s).reads.length = c.answerable
            rw [haccepted.reads]
            exact hcount
  | exhausted hended hinbox hall hfits hreceived hincomplete =>
      have hhead : r = Position.headerRead 0 :=
        hall r (by rw [hreads]; exact List.mem_cons_self)
      rw [hhead] at hgot
      exact absurd hgot (by decide)

theorem handOn_synced {r : PendingRead Buffer}
    {s : Socket Buffer Protocol.Kind} {position : Position}
    (hs : c.socket.takeRead = some (r, s))
    (hbodies : Responses platform bodies)
    (harrived : List.IsPrefix s.arrived (platform.framing.frames bodies))
    (h : Synced platform c)
    (hat : At platform
      (c.handed ++ [(s.memory Buffer.packet).read 0 r.size]) position s)
    (hidle : forall rest, position = Position.idle rest -> rest = [])
    (hcount : c.handed.length + c.socket.reads.length = c.answerable) :
    Synced platform (onPacketRead platform r.size { c with socket := s }) := by
  rcases Socket.takeRead_eq_some hs with ⟨_, hreads, ht⟩
  rw [← List.append_nil (platform.framing.frames bodies)] at harrived
  have hmem : (s.memory Buffer.packet).read 0 r.size ∈ bodies := by
    apply (hat.handed_isPrefix hbodies.fits (stuck_nil platform)
      harrived).subset
    exact List.mem_append_right _ List.mem_cons_self
  rcases onNewPacket_handed (hbodies.kind _ hmem) { c with socket := s } with
    ⟨hhanded, haborted⟩
  have hsame := onNewPacket_sameTraffic platform
    ((s.memory Buffer.packet).read 0 r.size) { c with socket := s }
  have hat' : At platform
      (onPacketRead platform r.size { c with socket := s }).handed position
      (onPacketRead platform r.size { c with socket := s }).socket := by
    rw [onPacketRead, hhanded, hsame.socket]
    exact hat
  refine
    { running := haborted.trans h.running
      opened := ?_
      inStep := InStep.live hat' hidle ?_ }
  · rw [onPacketRead, hsame.socket, ht]
    exact h.opened
  · rw [onPacketRead, hhanded, hsame.socket, hsame.answerable,
      List.length_append, List.length_singleton]
    rw [hreads, List.length_cons] at hcount
    show c.handed.length + 1 + s.reads.length = c.answerable
    omega

theorem packet_synced {r : PendingRead Buffer}
    {s : Socket Buffer Protocol.Kind}
    (hs : c.socket.takeRead = some (r, s)) (hr : r.target = Buffer.packet)
    (hbodies : Responses platform bodies)
    (harrived : List.IsPrefix s.arrived (platform.framing.frames bodies))
    (h : Synced platform c) :
    Synced platform (onPacketRead platform r.size { c with socket := s }) := by
  have hreads := (Socket.takeRead_eq_some hs).right.left
  cases h.inStep with
  | @live position hat hidle hcount =>
      cases position with
      | idle rest =>
          rw [hat.reads] at hreads
          cases hreads
      | header part =>
          rw [(hat.takeHeader hs).left] at hr
          cases hr
      | packet size part =>
          rcases hat.takePacket hs with ⟨_, hread, hat'⟩
          rw [← hread] at hat'
          refine handOn_synced hs hbodies harrived h hat' ?_ hcount
          intro rest hrest
          cases hrest
          rfl
      | both size part next =>
          rcases hat.takeBoth hs with ⟨_, hread, hat'⟩
          rw [← hread] at hat'
          exact handOn_synced hs hbodies harrived h hat' nofun hcount
  | exhausted hended hinbox hall hfits hreceived hincomplete =>
      have hhead : r = Position.headerRead 0 :=
        hall r (by rw [hreads]; exact List.mem_cons_self)
      rw [hhead] at hr
      cases hr

theorem readFail_synced {s : Socket Buffer Protocol.Kind}
    (hs : c.socket.failRead = some s) (h : Synced platform c) :
    Synced platform { c with socket := s } := by
  rcases Socket.failRead_eq_some hs with ⟨r, hgot, hfail, hreads, ht⟩
  have hopen := h.opened
  have hover : c.socket.ended = true ∧ c.socket.inbox = [] := by
    rcases hfail with hclosed | hover
    · rw [hopen] at hclosed
      cases hclosed
    · exact hover
  refine
    { running := h.running
      opened := by
        rw [ht]
        exact hopen
      inStep := ?_ }
  have hfailed : forall {position : Position},
      At platform c.handed position c.socket -> position.Waits ->
      (forall r, r ∈ s.reads -> r = Position.headerRead 0) ->
      InStep platform { c with socket := s } := by
    intro position hat hwaits hall
    rw [ht] at hall ⊢
    exact InStep.exhausted hover.left hover.right hall hat.fits hat.received
      (Position.incomplete hwaits hat.holds)
  cases h.inStep with
  | @live position hat hidle hcount =>
      cases position with
      | idle rest =>
          rw [hat.reads] at hreads
          cases hreads
      | header part =>
          rw [hat.reads, Position.reads, List.cons.injEq] at hreads
          rcases hreads with ⟨rfl, hnil⟩
          apply hfailed hat hgot
          rw [← hnil]
          exact fun r hr => absurd hr List.not_mem_nil
      | packet size part =>
          rw [hat.reads, Position.reads, List.cons.injEq] at hreads
          rcases hreads with ⟨rfl, hnil⟩
          apply hfailed hat hgot
          rw [← hnil]
          exact fun r hr => absurd hr List.not_mem_nil
      | both size part next =>
          rw [hat.reads, Position.reads, List.cons.injEq] at hreads
          rcases hreads with ⟨rfl, hrest⟩
          apply hfailed hat hgot
          have hpart : part.length < size := hgot
          have hnext : next = [] := by
            rcases hat.holds.right.right with hnext | hfull
            · exact hnext
            · omega
          rw [← hrest, hnext]
          exact fun r hr => List.mem_singleton.mp hr
  | exhausted hended hinbox hall hfits hreceived hincomplete =>
      rw [ht]
      refine InStep.exhausted hended hinbox ?_ hfits hreceived hincomplete
      intro r' hr'
      apply hall
      rw [hreads]
      exact List.mem_cons_of_mem r hr'

theorem doReadHeader_synced (h : Synced platform c)
    (hnone : forall r, r ∈ c.socket.reads ->
      r.target ≠ Buffer.packetHeader) :
    Synced platform
      (doReadHeader { c with answerable := c.answerable + 1 }) := by
  refine
    { running := h.running
      opened := h.opened
      inStep := ?_ }
  cases h.inStep with
  | live hat hidle hcount =>
      rcases hat.startHeader hidle hnone with ⟨position, hat', hposition⟩
      refine InStep.live hat' (fun rest hrest => absurd hrest (hposition rest))
        ?_
      show c.handed.length + (c.socket.reads ++ [_]).length = _
      rw [List.length_append, ← Nat.add_assoc, hcount]
      rfl
  | exhausted hended hinbox hall hfits hreceived hincomplete =>
      refine InStep.exhausted hended hinbox ?_ hfits hreceived hincomplete
      intro r hr
      rcases List.mem_append.mp hr with hr | hr
      · exact hall r hr
      · exact List.mem_singleton.mp hr

theorem writeDone_synced {index : Nat}
    {w : Lib.PendingWrite Buffer Protocol.Kind}
    {s : Socket Buffer Protocol.Kind}
    (hs : c.socket.takeWrite index = some (w, s))
    (hnone : w.tag = Protocol.Kind.request ->
      forall r, r ∈ c.socket.reads -> r.target ≠ Buffer.packetHeader)
    (h : Synced platform c) :
    Synced platform (onPacketSent w.tag { c with socket := s }) := by
  rcases Socket.takeWrite_eq_some hs with ⟨_, _, ht⟩
  have htaken : Synced platform { c with socket := s } := by
    refine
      { running := h.running
        opened := by
          rw [ht]
          exact h.opened
        inStep := ?_ }
    cases h.inStep with
    | live hat hidle hcount =>
        rw [ht]
        exact InStep.live (hat.congr rfl rfl (fun hholds => hholds)) hidle
          hcount
    | exhausted hended hinbox hall hfits hreceived hincomplete =>
        rw [ht]
        exact InStep.exhausted hended hinbox hall hfits hreceived hincomplete
  unfold onPacketSent
  cases htag : w.tag with
  | request =>
      apply doReadHeader_synced htaken
      rw [ht]
      exact hnone htag
  | message => exact htaken
  | response => exact htaken
  | unrecognized value => exact htaken

theorem arrived_onPacketSent (kind : Protocol.Kind) (c : Client) :
    (c.onPacketSent kind).socket.arrived = c.socket.arrived := by
  unfold onPacketSent
  cases kind <;> rfl

theorem arrived_step {e : Event} (hstep : step platform c e = some d) :
    List.IsPrefix c.socket.arrived d.socket.arrived := by
  have heq : forall {x y : Bytes}, y = x -> List.IsPrefix x y :=
    fun h => h ▸ List.prefix_rfl
  rcases step_moves hstep with ⟨_, hmoves⟩
  cases hmoves with
  | sendMessage => exact heq (Link.sendPacket_arrived _ _ _ _ _ _)
  | sendRequest => exact heq (Link.sendPacket_arrived _ _ _ _ _ _)
  | io hs => exact Socket.arrived_progress hs
  | @header r s hs hr =>
      apply heq
      rw [(Socket.takeRead_eq_some hs).right.right]
      exact Link.onHeaderRead_arrived _ _
  | @packet r s hs hr =>
      have hsame := onNewPacket_sameTraffic platform
        ((s.memory Buffer.packet).read 0 r.size) { c with socket := s }
      apply heq
      rw [onPacketRead, hsame.socket, (Socket.takeRead_eq_some hs).right.right]
      rfl
  | readFail hs =>
      rcases Socket.failRead_eq_some hs with ⟨_, _, _, _, ht⟩
      apply heq
      rw [ht]
      rfl
  | writeDone hs =>
      rcases Socket.takeWrite_eq_some hs with ⟨_, _, rfl⟩
      exact heq (arrived_onPacketSent _ _)
  | writeFail hs =>
      rcases Socket.failWrite_eq_some hs with ⟨_, _, _, rfl⟩
      exact heq (arrived_onPacketSent _ _)

theorem step_synced {e : Event}
    (hstep : Lib.Guarded ReadsSafely (Lib.Steps (step platform)) c e d)
    (hbodies : Responses platform bodies)
    (harrived : List.IsPrefix d.socket.arrived
      (platform.framing.frames bodies))
    (h : Synced platform c) : Synced platform d := by
  rcases hstep with ⟨hsafe, hstep⟩
  have hbefore : List.IsPrefix c.socket.arrived
      (platform.framing.frames bodies) :=
    (arrived_step hstep).trans harrived
  rcases step_moves hstep with ⟨_, hmoves⟩
  cases hmoves with
  | sendMessage => exact doSendPacket_synced h (hsafe.left trivial)
  | @sendRequest payload callbacks garbage =>
      have hregistered : Synced platform
          { c with
            transactions :=
              c.transactions.emplace c.transactionId.toInt32 callbacks
            transactionId := c.transactionId + 1 } := by
        refine
          { running := h.running
            opened := h.opened
            inStep := ?_ }
        cases h.inStep with
        | live hat hidle hcount => exact InStep.live hat hidle hcount
        | exhausted hended hinbox hall hfits hreceived hincomplete =>
            exact InStep.exhausted hended hinbox hall hfits hreceived
              hincomplete
      exact doSendPacket_synced hregistered (hsafe.left trivial)
  | io hs => exact progress_synced hs h
  | @header r s hs hr =>
      have hsame : s.arrived = c.socket.arrived := by
        rw [(Socket.takeRead_eq_some hs).right.right]
        rfl
      exact header_synced hs hr hbodies (hsame ▸ hbefore) h
  | @packet r s hs hr =>
      have hsame : s.arrived = c.socket.arrived := by
        rw [(Socket.takeRead_eq_some hs).right.right]
        rfl
      exact packet_synced hs hr hbodies (hsame ▸ hbefore) h
  | readFail hs => exact readFail_synced hs h
  | @writeDone index w s hs =>
      apply writeDone_synced hs ?_ h
      intro htag
      apply hsafe.right
      rw [Starts, (Socket.takeWrite_eq_some hs).left, Option.map_some, htag]
  | writeFail hs =>
      have hclosed := (Socket.failWrite_eq_some hs).right.right.left
      rw [h.opened] at hclosed
      cases hclosed

theorem new_synced (memory : Buffer -> Memory) :
    Synced platform (new memory) := by
  have hat : At platform [] (Position.idle [])
      (new memory).socket :=
    { fits := Framing.fits_nil
      reads := rfl
      received := rfl
      holds := trivial }
  refine
    { running := rfl
      opened := rfl
      inStep := InStep.live hat ?_ rfl }
  intro rest hrest
  cases hrest
  rfl

def SyncedWith (platform : Platform) (bodies : List Bytes) (c : Client) :
    Prop :=
  List.IsPrefix c.socket.arrived (platform.framing.frames bodies) ->
    Synced platform c

/-- The packets handed on are the responses, in order, and none is lost: when
all of them have arrived, as many requests have been sent, and the reads are
quiet, all of them have been handed on. -/
theorem responses_inOrder {memory : Buffer -> Memory} {labels : List Event}
    (hbodies : Responses platform bodies)
    (hrun : Lib.Run (Lib.Guarded ReadsSafely (Lib.Steps (step platform)))
      (new memory) labels c)
    (harrived : List.IsPrefix c.socket.arrived
      (platform.framing.frames bodies)) :
    List.IsPrefix c.handed bodies ∧
      (c.socket.arrived = platform.framing.frames bodies ->
        bodies.length <= c.answerable -> c.socket.Quiet ->
        c.handed = bodies) := by
  have hsynced : SyncedWith platform bodies c := by
    refine hrun.invariant ?_ (fun _ => new_synced memory)
    intro c e d hstep h hd
    exact step_synced hstep hbodies hd
      (h ((arrived_step hstep.right).trans hd))
  have hc := hsynced harrived
  constructor
  · exact hc.inStep.handed_isPrefix hbodies harrived
  intro hall hcount hquiet
  exact hc.inStep.handed_all hc.opened hbodies hall hquiet hcount

/-!
## Two requests
-/

def twoResponses : List Bytes :=
  [[8, 2, 18, 0, 26, 0], [8, 2, 18, 2, 8, 1, 26, 0]]

theorem twoResponses_responses :
    Responses Platform.loopback twoResponses := by
  refine
    { fits := ?_
      kind := by decide }
  intro body hbody
  revert body
  show forall body, body ∈ twoResponses -> body.length <= maxPacketSize
  decide

def sendRequest (callbacks : Nat) : Event :=
  Event.sendRequest Protocol.Payload.notSet callbacks (fun _ => 0)

/-- The second request is sent while the response to the first one is read. -/
theorem responses_inOrder_twoRequests :
    exists c : Client, c.handed = twoResponses := by
  have hend :
      (Lib.execute (fun c e =>
        if ReadsSafely c e then step Platform.loopback c e else none)
        (new (fun _ _ => 0))
        [sendRequest 0, Event.io (IoEvent.writeSome 0 10), Event.writeDone 0,
          Event.io (IoEvent.arrive
            (Platform.loopback.framing.frames twoResponses)),
          Event.io (IoEvent.readSome 4), Event.readDone,
          sendRequest 1, Event.io (IoEvent.writeSome 0 12), Event.writeDone 0,
          Event.io (IoEvent.readSome 6), Event.io (IoEvent.readSome 4),
          Event.readDone, Event.readDone,
          Event.io (IoEvent.readSome 3), Event.io (IoEvent.readSome 5),
          Event.readDone]).map
        (fun c => (c.socket.arrived, c.answerable, c.socket.reads)) =
      some (Platform.loopback.framing.frames twoResponses, 2, []) := by
    decide +kernel
  rcases Option.map_eq_some_iff.mp hend with ⟨c, hexecute, hc⟩
  rw [Prod.mk.injEq, Prod.mk.injEq] at hc
  rcases hc with ⟨harrived, hcount, hreads⟩
  have horder := responses_inOrder twoResponses_responses
    (Lib.Run.guarded_of_execute hexecute)
    (by rw [harrived])
  exact ⟨c, horder.right harrived (by rw [hcount]; decide)
    (Socket.quiet_of_reads_nil hreads)⟩

/-- Both requests are sent before the first response is read: the header of the
second response is looked for in the first response, the bytes handed on are
none of the responses, and the socket is closed. -/
theorem twoRequests_outOfStep :
    exists labels c,
      Lib.Run (Lib.Steps (step Platform.loopback)) (new (fun _ _ => 0))
        labels c ∧
      Responses Platform.loopback twoResponses ∧
      c.socket.arrived = Platform.loopback.framing.frames twoResponses ∧
      c.answerable = 2 ∧ c.socket.closed = true ∧
      c.handed = [[26, 0, 8, 0, 0, 0]] ∧
      ¬ List.IsPrefix c.handed twoResponses := by
  have hend :
      (Lib.execute (step Platform.loopback) (new (fun _ _ => 0))
        [sendRequest 0, Event.io (IoEvent.writeSome 0 10), Event.writeDone 0,
          sendRequest 1, Event.io (IoEvent.writeSome 0 12), Event.writeDone 0,
          Event.io (IoEvent.arrive
            (Platform.loopback.framing.frames twoResponses)),
          Event.io (IoEvent.readSome 4), Event.readDone,
          Event.io (IoEvent.readSome 4), Event.io (IoEvent.readSome 6),
          Event.readDone, Event.readDone]).map
        (fun c => (c.socket.arrived, c.answerable, c.socket.closed,
          c.handed)) =
      some (Platform.loopback.framing.frames twoResponses, 2, true,
        [[26, 0, 8, 0, 0, 0]]) := by
    decide +kernel
  rcases Option.map_eq_some_iff.mp hend with ⟨c, hexecute, hc⟩
  rw [Prod.mk.injEq, Prod.mk.injEq, Prod.mk.injEq] at hc
  rcases hc with ⟨harrived, hcount, hclosed, hhanded⟩
  refine ⟨_, c, Lib.Run.of_execute hexecute, twoResponses_responses, harrived,
    hcount, hclosed, hhanded, ?_⟩
  rw [hhanded]
  decide

end Receiving

end Client

end Protolink
end Protort
