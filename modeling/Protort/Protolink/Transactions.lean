import Protort.Lib.Runs
import Protort.Protolink.Client

/-!
# Requests and their responses

The requests of a client are counted, and the callbacks of a request are known
by its number.  Ids are 32-bit numbers, so that a request and its responses are
told apart from others only as long as no other request with the same id waits
for its response.
-/

namespace Protort
namespace Protolink

open Lib (Bytes Memory Table)
open Link (Buffer)

/-- A client and the ids of its requests so far, in order. -/
structure Dialogue where
  client : Client
  ids : List UInt32

namespace Dialogue

/-- A message or a request is sent, or a packet is handed on: a response to the
request with a number, or one whose id is unknown. -/
inductive Event where
  | message (payload : Protocol.Payload) (garbage : Memory)
  | request (payload : Protocol.Payload) (garbage : Memory)
  | response (buffer : Bytes) (answers : Option Nat)

def new (memory : Buffer -> Memory) : Dialogue :=
  { client := Client.new memory
    ids := [] }

def registered (d : Dialogue) (id : UInt32) : Option Nat :=
  d.client.transactions.lookup id.toInt32

/-- A response to a request has the id of that request; a response that answers
none has an id that no registered transaction has. -/
def Answers (d : Dialogue) (packet : Protocol.Packet) : Option Nat -> Prop
  | some number => d.ids[number]? = some packet.transaction.id
  | none => d.registered packet.transaction.id = none

instance (d : Dialogue) (packet : Protocol.Packet) (answers : Option Nat) :
    Decidable (d.Answers packet answers) :=
  match answers with
  | some _ => inferInstanceAs (Decidable (_ = _))
  | none => inferInstanceAs (Decidable (_ = _))

/-- Every request comes with callbacks of its own. -/
def step (platform : Platform) (d : Dialogue) : Event -> Option Dialogue
  | Event.message payload garbage =>
      some
        { d with client := d.client.asyncSendMessage platform garbage payload }
  | Event.request payload garbage =>
      some
        { client := d.client.asyncSendRequest platform garbage payload
            d.ids.length
          ids := d.ids ++ [d.client.transactionId] }
  | Event.response buffer answers =>
      let packet := platform.parse buffer
      if packet.kind = Protocol.Kind.response ∧ d.Answers packet answers then
        some { d with client := d.client.onNewPacket platform buffer }
      else
        none

/-- What a step should do: a request registers its own callbacks under its id,
a response completes only the request it answers, and all other transactions
stay registered. -/
def OneToOne (d : Dialogue) (e : Event) (d' : Dialogue) : Prop :=
  match e with
  | Event.message _ _ => True
  | Event.request _ _ =>
      d'.registered d.client.transactionId = some d.ids.length
  | Event.response _ answers =>
      (forall callbacks payload,
        d'.client.finished = d.client.finished ++ [(callbacks, payload)] ->
        answers = some callbacks) ∧
      (forall id callbacks, d.registered id = some callbacks ->
        answers ≠ some callbacks -> d'.registered id = some callbacks)

def Waiting (d : Dialogue) (number : Nat) : Prop :=
  exists id, d.registered id = some number

/-- No other request with the same id waits for its response: when a request is
sent, and when a response to a request arrives. -/
def Unambiguous (d : Dialogue) (e : Event) (_ : Dialogue) : Prop :=
  match e with
  | Event.message _ _ => True
  | Event.request _ _ =>
      forall number, d.Waiting number ->
        d.ids[number]? ≠ some d.client.transactionId
  | Event.response _ none => True
  | Event.response _ (some number) =>
      forall other, d.Waiting other -> d.ids[other]? = d.ids[number]? ->
        other = number

/-!
## What the client knows of its requests
-/

/-- The keys of the table of transactions are ids in a signed type. -/
theorem toInt32_injective {a b : UInt32} (h : a.toInt32 = b.toInt32) :
    a = b :=
  congrArg Int32.toUInt32 h

section Transactions

variable {platform : Platform} {d d' : Dialogue}

structure Consistent (d : Dialogue) : Prop where
  /-- Callbacks are registered under the id of their request. -/
  own : forall id number, d.registered id = some number ->
    d.ids[number]? = some id
  /-- A request that has been completed is no longer registered. -/
  fresh : forall id number, d.registered id = some number ->
    number ∉ d.client.finished.map Prod.fst
  known : forall number, number ∈ d.client.finished.map Prod.fst ->
    number < d.ids.length
  once : (d.client.finished.map Prod.fst).Nodup

theorem new_consistent (memory : Buffer -> Memory) :
    Consistent (new memory) :=
  { own := fun _ _ h => absurd h nofun
    fresh := fun _ _ h => absurd h nofun
    known := fun _ h => absurd h List.not_mem_nil
    once := List.nodup_nil }

theorem registered_request (platform : Platform) (garbage : Memory)
    (payload : Protocol.Payload) (number : Nat) (d : Dialogue)
    (ids : List UInt32) (id : UInt32) :
    ({ client := d.client.asyncSendRequest platform garbage payload number
       ids := ids } : Dialogue).registered id =
      if id = d.client.transactionId then
        some ((d.registered id).getD number)
      else
        d.registered id := by
  show (d.client.transactions.emplace _ number).lookup _ = _
  rw [Table.lookup_emplace]
  by_cases hid : id = d.client.transactionId
  · subst id
    rw [if_pos rfl, if_pos rfl]
    rfl
  · have hkey : id.toInt32 ≠ d.client.transactionId.toInt32 :=
      fun heq => hid (toInt32_injective heq)
    rw [if_neg hkey, if_neg hid]
    rfl

theorem response_cases (platform : Platform) {buffer : Bytes}
    (hkind : (platform.parse buffer).kind = Protocol.Kind.response)
    (d : Dialogue) :
    (d.registered (platform.parse buffer).transaction.id = none ∧
      (d.client.onNewPacket platform buffer).finished = d.client.finished ∧
      forall id, ({ client := d.client.onNewPacket platform buffer
                    ids := d.ids } : Dialogue).registered id =
        d.registered id) ∨
    (exists callbacks,
      d.registered (platform.parse buffer).transaction.id = some callbacks ∧
      (d.client.onNewPacket platform buffer).finished =
        d.client.finished ++
          [(callbacks, (platform.parse buffer).payload)] ∧
      forall id, ({ client := d.client.onNewPacket platform buffer
                    ids := d.ids } : Dialogue).registered id =
        if id = (platform.parse buffer).transaction.id then
          none
        else
          d.registered id) := by
  unfold Client.onNewPacket registered
  simp only [hkind]
  unfold Client.onResponse
  generalize (platform.parse buffer) = packet
  simp only
  cases hlookup : d.client.transactions.lookup
      packet.transaction.id.toInt32 with
  | none => exact Or.inl ⟨rfl, rfl, fun _ => rfl⟩
  | some callbacks =>
      refine Or.inr ⟨callbacks, rfl, rfl, ?_⟩
      intro id
      simp only
      by_cases hid : id = packet.transaction.id
      · rw [if_pos hid, hid, Finmap.lookup_erase]
      · rw [if_neg hid, Finmap.lookup_erase_ne]
        exact fun heq => hid (toInt32_injective heq)

theorem registered_request_cases {platform : Platform} {garbage : Memory}
    {payload : Protocol.Payload} {number : Nat} {ids : List UInt32}
    {id : UInt32} {callbacks : Nat}
    (h : ({ client := d.client.asyncSendRequest platform garbage payload number
            ids := ids } : Dialogue).registered id = some callbacks) :
    d.registered id = some callbacks ∨
      (id = d.client.transactionId ∧ callbacks = number) := by
  rw [registered_request] at h
  by_cases hid : id = d.client.transactionId
  · rw [if_pos hid] at h
    cases hold : d.registered id with
    | none =>
        rw [hold, Option.getD_none, Option.some.injEq] at h
        exact Or.inr ⟨hid, h.symm⟩
    | some old =>
        rw [hold, Option.getD_some] at h
        exact Or.inl h
  · rw [if_neg hid] at h
    exact Or.inl h

theorem request_consistent (platform : Platform) (garbage : Memory)
    (payload : Protocol.Payload) (h : Consistent d) :
    Consistent
      { client := d.client.asyncSendRequest platform garbage payload
          d.ids.length
        ids := d.ids ++ [d.client.transactionId] } := by
  refine
    { own := ?_
      fresh := ?_
      known := ?_
      once := h.once }
  · intro id number hnumber
    rcases registered_request_cases hnumber with hold | ⟨rfl, rfl⟩
    · have hids := h.own id number hold
      rw [List.getElem?_append_left]
      · exact hids
      · exact (List.getElem?_eq_some_iff.mp hids).choose
    · exact List.getElem?_concat_length
  · intro id number hnumber
    rcases registered_request_cases hnumber with hold | ⟨_, rfl⟩
    · exact h.fresh id number hold
    · intro hmem
      exact absurd (h.known _ hmem) (Nat.lt_irrefl _)
  · intro number hmem
    rw [List.length_append]
    exact Nat.lt_add_right _ (h.known number hmem)

/-- A response that completes a request takes it out of the registered ones. -/
theorem completed_consistent (h : Consistent d) {id : UInt32}
    {callbacks : Nat} (hcallbacks : d.registered id = some callbacks)
    {payload : Protocol.Payload} {client : Client}
    (hfinished : client.finished =
      d.client.finished ++ [(callbacks, payload)])
    (hregistered : forall id',
      ({ client := client
         ids := d.ids } : Dialogue).registered id' =
        if id' = id then none else d.registered id') :
    Consistent
      { client := client
        ids := d.ids } := by
  have hown := h.own id callbacks hcallbacks
  have hold : forall {id' number},
      ({ client := client
         ids := d.ids } : Dialogue).registered id' = some number ->
      id' ≠ id ∧ d.registered id' = some number := by
    intro id' number hnumber
    rw [hregistered, Option.ite_none_left_eq_some] at hnumber
    exact hnumber
  refine
    { own := ?_
      fresh := ?_
      known := ?_
      once := ?_ }
  · intro id' number hnumber
    exact h.own id' number (hold hnumber).right
  · intro id' number hnumber
    rcases hold hnumber with ⟨hid, hother⟩
    rw [hfinished, List.map_append, List.mem_append]
    intro hcases
    rcases hcases with hmem | hmem
    · exact h.fresh id' number hother hmem
    · -- one request would be registered under two ids
      have hsame : number = callbacks := List.mem_singleton.mp hmem
      subst number
      have hids := h.own id' callbacks hother
      rw [hown] at hids
      exact hid (Option.some.inj hids).symm
  · intro number hmem
    rw [hfinished, List.map_append, List.mem_append] at hmem
    rcases hmem with hmem | hmem
    · exact h.known number hmem
    · have hsame : number = callbacks := List.mem_singleton.mp hmem
      subst number
      exact (List.getElem?_eq_some_iff.mp hown).choose
  · rw [hfinished, List.map_append]
    refine List.nodup_append.mpr ⟨h.once, List.nodup_singleton _, ?_⟩
    intro a ha b hb heq
    have hsame : b = callbacks := List.mem_singleton.mp hb
    rw [heq, hsame] at ha
    exact h.fresh id callbacks hcallbacks ha

theorem Consistent.congr (h : Consistent d) {client : Client}
    (hfinished : client.finished = d.client.finished)
    (hregistered : forall id,
      ({ client := client
         ids := d.ids } : Dialogue).registered id = d.registered id) :
    Consistent
      { client := client
        ids := d.ids } := by
  refine
    { own := ?_
      fresh := ?_
      known := ?_
      once := ?_ }
  · intro id number hnumber
    rw [hregistered] at hnumber
    exact h.own id number hnumber
  · intro id number hnumber
    rw [hregistered] at hnumber
    rw [hfinished]
    exact h.fresh id number hnumber
  · rw [hfinished]
    exact h.known
  · rw [hfinished]
    exact h.once

theorem step_consistent {e : Event} (hstep : step platform d e = some d')
    (h : Consistent d) : Consistent d' := by
  cases e with
  | message payload garbage =>
      cases hstep
      exact h.congr rfl (fun _ => rfl)
  | request payload garbage =>
      cases hstep
      exact request_consistent platform garbage payload h
  | response buffer answers =>
      simp only [step, Option.ite_none_right_eq_some,
        Option.some.injEq] at hstep
      rcases hstep with ⟨⟨hkind, _⟩, rfl⟩
      rcases response_cases platform hkind d with
        ⟨_, hfinished, hregistered⟩ |
          ⟨callbacks, hcallbacks, hfinished, hregistered⟩
      · exact h.congr hfinished hregistered
      · exact completed_consistent h hcallbacks hfinished hregistered

theorem waiting_iff_registered (h : Consistent d) {id : UInt32}
    {number : Nat} :
    (d.Waiting number ∧ d.ids[number]? = some id) <->
      d.registered id = some number := by
  constructor
  · intro h
    rcases h with ⟨⟨id', hregistered⟩, hid⟩
    have hown := h.own id' number hregistered
    rw [hid] at hown
    rw [Option.some.inj hown]
    exact hregistered
  · intro hregistered
    exact ⟨⟨id, hregistered⟩, h.own id number hregistered⟩

/-- A request takes its id exactly when no other request waits under it. -/
theorem request_oneToOne_iff (platform : Platform) (garbage : Memory)
    (payload : Protocol.Payload) (h : Consistent d) :
    ({ client := d.client.asyncSendRequest platform garbage payload
         d.ids.length
       ids := d.ids ++ [d.client.transactionId] } : Dialogue).registered
          d.client.transactionId = some d.ids.length <->
      forall number, d.Waiting number ->
        d.ids[number]? ≠ some d.client.transactionId := by
  rw [registered_request, if_pos rfl, Option.some.injEq]
  constructor
  · intro hnew number hwaiting hid
    have hold := (waiting_iff_registered h).mp ⟨hwaiting, hid⟩
    rw [hold, Option.getD_some] at hnew
    have hlt := (List.getElem?_eq_some_iff.mp hid).choose
    omega
  · intro hunambiguous
    cases hold : d.registered d.client.transactionId with
    | none => rfl
    | some number =>
        rcases (waiting_iff_registered h).mpr hold with ⟨hwaiting, hid⟩
        exact absurd hid (hunambiguous number hwaiting)

/-- The callbacks that a response to a request completes are those of the
request exactly when no other request waits under its id. -/
theorem callbacks_eq_iff (h : Consistent d) {id : UInt32}
    {number callbacks : Nat} (hid : d.ids[number]? = some id)
    (hcallbacks : d.registered id = some callbacks) :
    callbacks = number <->
      forall other, d.Waiting other -> d.ids[other]? = d.ids[number]? ->
        other = number := by
  constructor
  · intro heq other hwaiting hsame
    subst heq
    rw [hid] at hsame
    have hold := (waiting_iff_registered h).mp ⟨hwaiting, hsame⟩
    rw [hcallbacks] at hold
    exact (Option.some.inj hold).symm
  · intro hunambiguous
    rcases (waiting_iff_registered h).mpr hcallbacks with ⟨hwaiting, hown⟩
    exact hunambiguous callbacks hwaiting (hown.trans hid.symm)

theorem oneToOne_iff {e : Event} (hstep : step platform d e = some d')
    (h : Consistent d) : OneToOne d e d' <-> Unambiguous d e d' := by
  cases e with
  | message payload garbage => exact Iff.rfl
  | request payload garbage =>
      cases hstep
      exact request_oneToOne_iff platform garbage payload h
  | response buffer answers =>
      simp only [step, Option.ite_none_right_eq_some,
        Option.some.injEq] at hstep
      rcases hstep with ⟨⟨hkind, hanswers⟩, rfl⟩
      rcases response_cases platform hkind d with
        ⟨hnone, hfinished, hregistered⟩ |
          ⟨callbacks, hcallbacks, hfinished, hregistered⟩
      · -- nothing is completed
        refine iff_of_true ⟨?_, ?_⟩ ?_
        · intro callbacks payload hlonger
          have hlength := congrArg List.length (hfinished.symm.trans hlonger)
          simp at hlength
        · intro id callbacks hold _
          rw [hregistered]
          exact hold
        · cases answers with
          | none => trivial
          | some number =>
              intro other hwaiting hid
              rw [show d.ids[number]? = _ from hanswers] at hid
              have hold := (waiting_iff_registered h).mp ⟨hwaiting, hid⟩
              rw [hnone] at hold
              cases hold
      · cases answers with
        | none =>
            rw [show d.registered _ = none from hanswers] at hcallbacks
            cases hcallbacks
        | some number =>
            refine Iff.trans ?_ (callbacks_eq_iff h hanswers hcallbacks)
            constructor
            · intro hone
              have hnumber := hone.left callbacks _ hfinished
              exact (Option.some.inj hnumber).symm
            · intro heq
              subst heq
              refine ⟨?_, ?_⟩
              · intro other payload hlonger
                have heq := List.append_cancel_left
                  (hfinished.symm.trans hlonger)
                rw [List.cons.injEq, Prod.mk.injEq] at heq
                rw [heq.left.left]
              · intro id other hold hother
                have hid : id ≠ (platform.parse buffer).transaction.id := by
                  intro heq
                  subst heq
                  rw [hcallbacks] at hold
                  exact hother hold
                rw [hregistered, if_neg hid]
                exact hold

/-- Along every run the steps do what they should exactly when they are
unambiguous, and no request is completed twice, ambiguous or not. -/
theorem oneToOne_iff_unambiguous (platform : Platform)
    (memory : Buffer -> Memory) (labels : List Event) :
    (Lib.Along (step platform) OneToOne (new memory) labels <->
      Lib.Along (step platform) Unambiguous (new memory) labels) ∧
    forall d, Lib.Run (Lib.Steps (step platform)) (new memory) labels d ->
      (d.client.finished.map Prod.fst).Nodup := by
  constructor
  · exact Lib.along_congr (fun hstep h => step_consistent hstep h)
      (fun hstep h => oneToOne_iff hstep h) (new_consistent memory)
  · intro d hrun
    have hd : Consistent d :=
      hrun.invariant (fun hstep h => step_consistent hstep h)
        (new_consistent memory)
    exact hd.once

def IdsCounted (d : Dialogue) : Prop :=
  d.client.transactionId = UInt32.ofNat d.ids.length ∧
    forall number, number < d.ids.length ->
      d.ids[number]? = some (UInt32.ofNat number)

theorem step_counted {e : Event} (hstep : step platform d e = some d')
    (h : IdsCounted d) : IdsCounted d' := by
  cases e with
  | message payload garbage =>
      cases hstep
      exact h
  | request payload garbage =>
      cases hstep
      refine ⟨?_, ?_⟩
      · show d.client.transactionId + 1 = _
        rw [h.left, List.length_append, List.length_singleton,
          UInt32.ofNat_add]
        rfl
      · intro number hnumber
        rw [List.length_append, List.length_singleton] at hnumber
        by_cases hlast : number < d.ids.length
        · rw [List.getElem?_append_left hlast]
          exact h.right number hlast
        · have heq : number = d.ids.length := by omega
          subst number
          rw [List.getElem?_concat_length, h.left]
  | response buffer answers =>
      simp only [step, Option.ite_none_right_eq_some,
        Option.some.injEq] at hstep
      rcases hstep with ⟨⟨hkind, _⟩, rfl⟩
      refine ⟨?_, h.right⟩
      show (Client.onNewPacket _ _ _).transactionId = _
      unfold Client.onNewPacket
      simp only [hkind]
      unfold Client.onResponse
      cases d.client.transactions.lookup _ with
      | none => exact h.left
      | some callbacks => exact h.left

/-- The first `2 ^ 32` requests of a client are told apart by their ids. -/
theorem oneToOne_of_few_requests {memory : Buffer -> Memory}
    {labels : List Event} {e : Event}
    (hrun : Lib.Run (Lib.Steps (step platform)) (new memory) labels d)
    (hstep : step platform d e = some d') (hfew : d'.ids.length <= 2 ^ 32) :
    OneToOne d e d' := by
  have hconsistent : Consistent d :=
    hrun.invariant (fun hstep h => step_consistent hstep h)
      (new_consistent memory)
  have hcounted : IdsCounted d :=
    hrun.invariant (fun hstep h => step_counted hstep h)
      ⟨rfl, fun number hnumber => absurd hnumber (Nat.not_lt_zero number)⟩
  rw [oneToOne_iff hstep hconsistent]
  have hinjective : forall {m n : Nat}, m < 2 ^ 32 -> n < 2 ^ 32 ->
      UInt32.ofNat m = UInt32.ofNat n -> m = n := by
    intro m n hm hn heq
    have hnat := congrArg UInt32.toNat heq
    rwa [UInt32.toNat_ofNat', UInt32.toNat_ofNat', Nat.mod_eq_of_lt hm,
      Nat.mod_eq_of_lt hn] at hnat
  cases e with
  | message payload garbage => trivial
  | request payload garbage =>
      cases hstep
      intro number _ hid
      have hlt := (List.getElem?_eq_some_iff.mp hid).choose
      rw [hcounted.right number hlt, hcounted.left, Option.some.injEq] at hid
      rw [List.length_append, List.length_singleton] at hfew
      have heq := hinjective (by omega) (by omega) hid
      omega
  | response buffer answers =>
      have hids : d'.ids = d.ids := by
        simp only [step, Option.ite_none_right_eq_some,
          Option.some.injEq] at hstep
        rw [← hstep.right]
      rw [hids] at hfew
      cases answers with
      | none => trivial
      | some number =>
          intro other h hsame
          rcases h with ⟨id, hregistered⟩
          have hother := hconsistent.own id other hregistered
          have hlt := (List.getElem?_eq_some_iff.mp hother).choose
          rw [hsame] at hother
          have hlt' := (List.getElem?_eq_some_iff.mp hother).choose
          rw [hcounted.right other hlt, hcounted.right number hlt',
            Option.some.injEq] at hsame
          exact hinjective (by omega) (by omega) hsame

/-!
## Requests that are never answered
-/

def unanswered : Event :=
  Event.request Protocol.Payload.notSet (fun _ => 0)

/-- While requests are sent the first one keeps its id. -/
theorem unanswered_requests (n : Nat) {d : Dialogue}
    (hfirst : d.registered 0 = some 0) :
    exists d', Lib.execute (step Platform.loopback) d
        (List.replicate n unanswered) = some d' ∧
      d'.registered 0 = some 0 ∧ d'.ids.length = d.ids.length + n ∧
      d'.client.transactionId = d.client.transactionId + UInt32.ofNat n := by
  induction n generalizing d with
  | zero => exact ⟨d, rfl, hfirst, rfl, by simp⟩
  | succ n ih =>
      let next : Dialogue :=
        { client := d.client.asyncSendRequest Platform.loopback (fun _ => 0)
            Protocol.Payload.notSet d.ids.length
          ids := d.ids ++ [d.client.transactionId] }
      have hnext : next.registered 0 = some 0 := by
        show Dialogue.registered _ _ = _
        rw [registered_request, hfirst, Option.getD_some, ite_self]
      rcases ih hnext with ⟨d', hexecute, hfirst', hlength, hid⟩
      refine ⟨d', ?_, hfirst', ?_, ?_⟩
      · rw [List.replicate_succ]
        exact hexecute
      · rw [hlength, List.length_append, List.length_singleton]
        omega
      · rw [hid]
        show d.client.transactionId + 1 + UInt32.ofNat n = _
        rw [Nat.add_comm n 1, UInt32.ofNat_add, UInt32.add_assoc]
        rfl

/-- The request after `2 ^ 32` unanswered ones has the id of the first one,
whose callbacks stay registered. -/
theorem unanswered_requests_clash :
    ¬ Lib.Along (step Platform.loopback) OneToOne (new (fun _ _ => 0))
      (List.replicate (2 ^ 32 + 1) unanswered) := by
  intro h
  let first : Dialogue :=
    { client := (new (fun _ _ => 0)).client.asyncSendRequest Platform.loopback
        (fun _ => 0) Protocol.Payload.notSet 0
      ids := [0] }
  have hfirst : first.registered 0 = some 0 := by
    show Dialogue.registered _ _ = _
    rw [registered_request]
    rfl
  have hcount : 2 ^ 32 + 1 = 1 + (2 ^ 32 - 1) + 1 := by norm_num
  rw [hcount, List.replicate_add, List.replicate_add, List.append_assoc] at h
  have hrest := Lib.along_of_execute
    (show Lib.execute (step Platform.loopback) (new (fun _ _ => 0))
      (List.replicate 1 unanswered) = some first from rfl) h
  rcases unanswered_requests (2 ^ 32 - 1) hfirst with
    ⟨d, hexecute, hzero, hlength, hid⟩
  have hlast := Lib.along_of_execute hexecute hrest
  have hone : Dialogue.registered _ _ = some d.ids.length :=
    (hlast _ rfl).left
  have hwrap : d.client.transactionId = 0 := by
    rw [hid]
    show (0 : UInt32) + 1 + UInt32.ofNat (2 ^ 32 - 1) = 0
    decide
  rw [registered_request, if_pos rfl, hwrap, hzero, Option.getD_some,
    Option.some.injEq, hlength] at hone
  omega

end Transactions

end Dialogue

end Protolink
end Protort
