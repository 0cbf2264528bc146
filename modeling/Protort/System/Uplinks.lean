import Protort.Node.Clients
import Protort.Protolink.Reconnecting

/-!
# A node and all of its clients

A client lives as long as an operation of its own is pending: the handlers hold
it, whichever router is the current one.  So the clients that a node has ever
made go on side by side with the node, and a client that was replaced may go on
trying to connect.
-/

namespace Protort
namespace System

open Lib (Table Along Steps execute)
open Protolink (Reconnecting WriteResult)

/-- A node, its clients by their addresses, and the configuration that was
deployed last. -/
structure Uplinks where
  node : Protort.Node
  clients : Table Nat Reconnecting
  config : Protocol.Deploy.Config

namespace Uplinks

inductive Event where
  | node (event : Node.Event)
  | client (address : Nat) (event : Reconnecting.Event)

def isHandler (event : Reconnecting.Event) : Bool :=
  match event with
  | Reconnecting.Event.sendMessage => false
  | Reconnecting.Event.sendRequest _ => false
  | Reconnecting.Event.prepareShutdown => false
  | _ => true

def start (port : UInt32) (startTime : Nat) : Uplinks :=
  { node := Node.new port startTime
    clients := ∅
    config := default }

def addresses (r : Node.Router) : List Nat :=
  (Table.sortedKeys r.clients).filterMap (fun x =>
    (r.clients.lookup x).map Node.Client.address)

/-- The clients that a router has and that are new begin to connect. -/
def launch (r : Node.Router) (clients : Table Nat Reconnecting) :
    Table Nat Reconnecting :=
  Table.emplaceAll id (fun _ => Reconnecting.new.asyncConnect) clients
    (addresses r)

def handOver (clients : Table Nat Reconnecting) (out : Node.Outgoing) :
    Table Nat Reconnecting :=
  match clients.lookup out.client.address with
  | some c => clients.insert out.client.address c.asyncSendMessage
  | none => clients

def step (s : Uplinks) (e : Event) : Option Uplinks :=
  match e with
  | Event.node event =>
      (Node.step s.node event).map (fun n =>
        { node := n
          clients := (n.outbox.drop s.node.outbox.length).foldl handOver
            (launch n.router s.clients)
          config := (Node.deployed event).getD s.config })
  | Event.client address event =>
      if isHandler event then
        (s.clients.lookup address).bind (fun c =>
          (Reconnecting.step c event).map (fun d =>
            { s with clients := s.clients.insert address d }))
      else
        none

/-!
## Activity
-/

def attemptsAt (clients : Table Nat Reconnecting) (address : Nat) : Nat :=
  ((clients.lookup address).map Reconnecting.attempts).getD 0

/-- The clients that are trying to connect or about to do so. -/
def active (clients : Table Nat Reconnecting) : Finset Nat :=
  clients.keys.filter (fun address => 0 < attemptsAt clients address)

/-- Only clients of the current router are active, so that there are no more of
them than remote nodes in the current configuration. -/
structure NothingLeft (s : Uplinks) : Prop where
  entries : forall address, 0 < attemptsAt s.clients address ->
    address ∈ addresses s.node.router
  count : (active s.clients).card <=
    (Node.remoteNodes s.config).toFinset.card

/-- No client is active when a configuration is deployed, and a client that was
replaced loses no connection. -/
def ReplacesQuietly (s : Uplinks) (e : Event) : Prop :=
  match e with
  | Event.node event =>
      (Node.deployed event).isSome ->
        forall address, attemptsAt s.clients address = 0
  | Event.client address (Reconnecting.Event.packetSent _ WriteResult.lost) =>
      address ∈ addresses s.node.router
  | _ => True

/-!
## What the node does to its clients
-/

section Clients

variable {clients : Table Nat Reconnecting} {r : Node.Router}
  {address : Nat}

theorem mem_addresses : address ∈ addresses r <->
    exists x client, r.clients.lookup x = some client ∧
      client.address = address := by
  unfold addresses
  rw [List.mem_filterMap]
  constructor
  · intro h
    rcases h with ⟨x, _, hx⟩
    rcases Option.map_eq_some_iff.mp hx with ⟨client, hclient, haddress⟩
    exact ⟨x, client, hclient, haddress⟩
  · intro h
    rcases h with ⟨x, client, hclient, haddress⟩
    refine ⟨x, ?_, Option.map_eq_some_iff.mpr ⟨client, hclient, haddress⟩⟩
    unfold Table.sortedKeys
    rw [Finset.mem_sort]
    exact Finmap.mem_keys.mpr (Finmap.mem_of_lookup_eq_some hclient)

theorem attemptsAt_of_lookup {c : Reconnecting}
    (h : clients.lookup address = some c) :
    attemptsAt clients address = c.attempts := by
  unfold attemptsAt
  rw [h]
  rfl

theorem mem_of_attemptsAt (h : 0 < attemptsAt clients address) :
    exists c, clients.lookup address = some c := by
  unfold attemptsAt at h
  cases hlookup : clients.lookup address with
  | some c => exact ⟨c, rfl⟩
  | none =>
      rw [hlookup] at h
      exact absurd h (Nat.lt_irrefl 0)

theorem attemptsAt_launch_of_mem {c : Reconnecting}
    (h : clients.lookup address = some c) :
    attemptsAt (launch r clients) address = attemptsAt clients address := by
  have hkept : (launch r clients).lookup address = some c :=
    Table.lookup_emplaceAll_of_some (addresses r) h
  rw [attemptsAt_of_lookup h]
  exact attemptsAt_of_lookup hkept

theorem mem_launch (h : address ∈ launch r clients) :
    address ∈ clients ∨ address ∈ addresses r := by
  by_contra hneither
  rcases not_or.mp hneither with ⟨hold, hnew⟩
  have hnone : (launch r clients).lookup address =
      (Lib.firstEntry id (addresses r) address).map
        (fun _ : Nat => Reconnecting.new.asyncConnect) :=
    Table.lookup_emplaceAll_of_none (addresses r)
      (Finmap.lookup_eq_none.mpr hold)
  have hfirst : Lib.firstEntry id (addresses r) address = none := by
    apply List.find?_eq_none.mpr
    intro other hother heq
    have heq' : other = address := of_decide_eq_true heq
    exact hnew (heq' ▸ hother)
  rw [hfirst] at hnone
  exact Finmap.lookup_eq_none.mp hnone h

theorem attemptsAt_handOver (out : Node.Outgoing) :
    attemptsAt (handOver clients out) address = attemptsAt clients address := by
  unfold handOver
  cases hclient : clients.lookup out.client.address with
  | none => rfl
  | some c =>
      unfold attemptsAt
      rw [Table.lookup_insert_eq_ite]
      by_cases haddress : address = out.client.address
      · rw [if_pos haddress, haddress, hclient]
        rfl
      · rw [if_neg haddress]

theorem mem_handOver (out : Node.Outgoing) :
    address ∈ handOver clients out <-> address ∈ clients := by
  unfold handOver
  cases hclient : clients.lookup out.client.address with
  | none => exact Iff.rfl
  | some c =>
      simp only [Finmap.mem_insert]
      constructor
      · intro hcases
        rcases hcases with rfl | h
        · exact Finmap.mem_of_lookup_eq_some hclient
        · exact h
      · exact Or.inr

theorem handOver_all (outs : List Node.Outgoing)
    (clients : Table Nat Reconnecting) (address : Nat) :
    attemptsAt (outs.foldl handOver clients) address =
        attemptsAt clients address ∧
      (address ∈ outs.foldl handOver clients <-> address ∈ clients) := by
  induction outs generalizing clients with
  | nil => exact ⟨rfl, Iff.rfl⟩
  | cons out rest ih =>
      rcases ih (handOver clients out) with ⟨hattempts, hmem⟩
      exact ⟨hattempts.trans (attemptsAt_handOver out),
        hmem.trans (mem_handOver out)⟩

end Clients

/-!
## Clients of the current configuration
-/

section Count

variable {s : Uplinks}

/-- What always holds: no address of a client is free, and the clients of the
current router were made for remote nodes of the current configuration. -/
structure Known (s : Uplinks) : Prop where
  consistent : Node.Consistent s.node
  used : forall address, address ∈ s.clients -> address < s.node.next
  clients : Node.ClientsSince 0 (Node.remoteNodes s.config) s.node

theorem length_addresses_le (r : Node.Router) :
    (addresses r).length <= r.clients.keys.card := by
  refine (List.length_filterMap_le _ _).trans ?_
  unfold Table.sortedKeys
  rw [Finset.length_sort]

theorem nothingLeft_iff_entries (h : Known s) :
    NothingLeft s <-> forall address, 0 < attemptsAt s.clients address ->
      address ∈ addresses s.node.router := by
  refine ⟨fun hnothing => hnothing.entries, fun hentries => ⟨hentries, ?_⟩⟩
  have hactive : active s.clients ⊆ (addresses s.node.router).toFinset := by
    intro address haddress
    rw [List.mem_toFinset]
    exact hentries address (Finset.mem_filter.mp haddress).right
  have hremote : s.node.router.clients.keys ⊆
      (Node.remoteNodes s.config).toFinset := by
    intro x hx
    rw [List.mem_toFinset]
    exact h.clients.remote x (Finmap.mem_keys.mp hx)
  calc (active s.clients).card
      <= (addresses s.node.router).toFinset.card :=
        Finset.card_le_card hactive
    _ <= (addresses s.node.router).length := List.toFinset_card_le _
    _ <= s.node.router.clients.keys.card := length_addresses_le _
    _ <= (Node.remoteNodes s.config).toFinset.card :=
        Finset.card_le_card hremote

end Count

/-!
## One step
-/

section Steps

variable {s t : Uplinks}

theorem client_step {address : Nat} {event : Reconnecting.Event}
    (hstep : step s (Event.client address event) = some t) :
    exists c d, s.clients.lookup address = some c ∧
      Reconnecting.step c event = some d ∧
      t = { s with clients := s.clients.insert address d } := by
  unfold step at hstep
  by_cases hhandler : isHandler event = true
  · simp only [hhandler, if_true] at hstep
    rcases Option.bind_eq_some_iff.mp hstep with ⟨c, hc, hnext⟩
    rcases Option.map_eq_some_iff.mp hnext with ⟨d, hd, rfl⟩
    exact ⟨c, d, hc, hd, rfl⟩
  · simp only [hhandler, Bool.false_eq_true, if_false] at hstep
    cases hstep

/-- What the node leaves of the activity of a client. -/
theorem attemptsAt_node {event : Node.Event}
    (hstep : step s (Event.node event) = some t) (address : Nat) :
    (address ∈ s.clients ->
      attemptsAt t.clients address = attemptsAt s.clients address) ∧
      (address ∈ t.clients ->
        address ∈ s.clients ∨ address ∈ addresses t.node.router) := by
  rcases Option.map_eq_some_iff.mp hstep with ⟨n, _, rfl⟩
  rcases handOver_all (n.outbox.drop s.node.outbox.length)
    (launch n.router s.clients) address with ⟨hattempts, hmem⟩
  constructor
  · intro hold
    rcases Finmap.mem_iff.mp hold with ⟨c, hc⟩
    exact hattempts.trans (attemptsAt_launch_of_mem hc)
  · intro hnew
    exact mem_launch (hmem.mp hnew)

theorem Known.step {e : Event} (hstep : step s e = some t) (h : Known s) :
    Known t := by
  cases e with
  | client address event =>
      rcases client_step hstep with ⟨c, d, hc, _, rfl⟩
      refine
        { consistent := h.consistent
          used := ?_
          clients := h.clients }
      intro other hother
      rcases Finmap.mem_insert.mp hother with rfl | hold
      · exact h.used other (Finmap.mem_of_lookup_eq_some hc)
      · exact h.used other hold
  | node event =>
      have hmem := fun address => (attemptsAt_node hstep address).right
      rcases Option.map_eq_some_iff.mp hstep with ⟨n, hn, rfl⟩
      have hconsistent := Node.step_consistent hn h.consistent
      have hused : forall start names, s.node.next <= n.next ->
          Node.ClientsSince start names n ->
          forall address, address ∈ (n.outbox.drop
            s.node.outbox.length).foldl handOver (launch n.router s.clients) ->
              address < n.next := by
        intro start names hnext hclients address haddress
        rcases hmem address haddress with hold | hnew
        · exact Nat.lt_of_lt_of_le (h.used address hold) hnext
        · rcases mem_addresses.mp hnew with ⟨x, client, hclient, rfl⟩
          exact (hclients.fresh x client hclient).right
      cases hdeployed : Node.deployed event with
      | some config =>
          have hclients := Node.step_clients hn hdeployed
          exact
            { consistent := hconsistent
              used := hused _ _ hclients.next hclients
              clients :=
                { next := Nat.zero_le n.next
                  fresh := fun x client hclient => ⟨Nat.zero_le _,
                    (hclients.fresh x client hclient).right⟩
                  remote := hclients.remote } }
      | none =>
          rcases Node.step_keeps_clients hn h.consistent hdeployed with
            ⟨hnext, hsame⟩
          have hclients := h.clients.kept hnext.ge hsame
          exact
            { consistent := hconsistent
              used := hused _ _ hnext.ge hclients
              clients := hclients }

theorem addresses_congr {r r' : Node.Router} (h : r'.clients = r.clients) :
    addresses r' = addresses r := by
  unfold addresses
  rw [h]

/-- A step of the node leaves nothing behind unless it replaces a router while
a client is active. -/
theorem node_nothingLeft_iff {event : Node.Event}
    (hstep : step s (Event.node event) = some t) (h : Known s)
    (hs : NothingLeft s) :
    NothingLeft t <-> ReplacesQuietly s (Event.node event) := by
  rw [nothingLeft_iff_entries (h.step hstep)]
  have hattempts := attemptsAt_node hstep
  rcases Option.map_eq_some_iff.mp hstep with ⟨n, hn, rfl⟩
  cases hdeployed : Node.deployed event with
  | none =>
      have hsame := (Node.step_keeps_clients hn h.consistent hdeployed).right
      refine iff_of_true ?_ (fun hsome => ?_)
      · intro address hactive
        rcases mem_of_attemptsAt hactive with ⟨c, hc⟩
        rcases (hattempts address).right (Finmap.mem_of_lookup_eq_some hc) with
          hold | hnew
        · rw [(hattempts address).left hold] at hactive
          rw [addresses_congr hsame]
          exact hs.entries address hactive
        · exact hnew
      · rw [hdeployed] at hsome
        cases hsome
  | some config =>
      have hclients := Node.step_clients hn hdeployed
      constructor
      · intro hentries _ address
        by_contra hne
        have hactive := Nat.pos_of_ne_zero hne
        rcases mem_of_attemptsAt hactive with ⟨c, hc⟩
        have hmem := Finmap.mem_of_lookup_eq_some hc
        -- its address is older than those of the new clients
        have hless := h.used address hmem
        have hstill := (hattempts address).left hmem
        rw [← hstill] at hactive
        rcases mem_addresses.mp (hentries address hactive) with
          ⟨x, client, hclient, rfl⟩
        have hfresh := (hclients.fresh x client hclient).left
        omega
      · intro hquietly address hactive
        have hidle := hquietly (by rw [hdeployed]; rfl) address
        rcases mem_of_attemptsAt hactive with ⟨c, hc⟩
        rcases (hattempts address).right (Finmap.mem_of_lookup_eq_some hc) with
          hold | hnew
        · rw [(hattempts address).left hold, hidle] at hactive
          exact absurd hactive (Nat.lt_irrefl 0)
        · exact hnew

theorem attemptsAt_insert (clients : Table Nat Reconnecting) (address : Nat)
    (d : Reconnecting) (other : Nat) :
    attemptsAt (clients.insert address d) other =
      if other = address then d.attempts else attemptsAt clients other := by
  unfold attemptsAt
  rw [Table.lookup_insert_eq_ite]
  by_cases hother : other = address
  · rw [if_pos hother, if_pos hother]
    rfl
  · rw [if_neg hother, if_neg hother]

/-- A handler of a client leaves nothing behind unless a client that was
replaced loses its connection. -/
theorem client_nothingLeft_iff {address : Nat} {event : Reconnecting.Event}
    (hstep : step s (Event.client address event) = some t) (h : Known s)
    (hs : NothingLeft s) :
    NothingLeft t <-> ReplacesQuietly s (Event.client address event) := by
  rw [nothingLeft_iff_entries (h.step hstep)]
  rcases client_step hstep with ⟨c, d, hc, hd, rfl⟩
  have hattempts := attemptsAt_insert s.clients address d
  -- what the entries of the other clients say stays the same
  have hentries : (forall other, 0 < attemptsAt (s.clients.insert address d)
      other -> other ∈ addresses s.node.router) <->
      (0 < d.attempts -> address ∈ addresses s.node.router) := by
    constructor
    · intro hall hactive
      apply hall address
      rw [hattempts, if_pos rfl]
      exact hactive
    · intro hone other hactive
      rw [hattempts] at hactive
      by_cases hother : other = address
      · rw [if_pos hother] at hactive
        rw [hother]
        exact hone hactive
      · rw [if_neg hother] at hactive
        exact hs.entries other hactive
  rw [hentries]
  by_cases hlost : exists index, event =
      Reconnecting.Event.packetSent index WriteResult.lost
  · rcases hlost with ⟨index, rfl⟩
    have hmore := Reconnecting.attempts_lost hd
    exact ⟨fun hone => hone (by omega), fun hin _ => hin⟩
  · have hquietly : ReplacesQuietly s (Event.client address event) := by
      unfold ReplacesQuietly
      cases event with
      | packetSent index result =>
          cases result with
          | lost => exact absurd ⟨index, rfl⟩ hlost
          | _ => trivial
      | _ => trivial
    refine iff_of_true (fun hactive => ?_) hquietly
    apply hs.entries
    rw [attemptsAt_of_lookup hc]
    apply Nat.pos_of_ne_zero
    intro hidle
    rcases Reconnecting.attempts_of_idle hd hidle with hzero | hloses
    · omega
    · exact hlost hloses

theorem step_nothingLeft_iff {e : Event} (hstep : step s e = some t)
    (h : Known s) (hs : NothingLeft s) :
    NothingLeft t <-> ReplacesQuietly s e := by
  cases e with
  | node event => exact node_nothingLeft_iff hstep h hs
  | client address event => exact client_nothingLeft_iff hstep h hs

end Steps

theorem known_start (port : UInt32) (startTime : Nat) :
    Known (start port startTime) :=
  { consistent := Node.consistent_new port startTime
    used := fun _ h => absurd h Finmap.notMem_empty
    clients :=
      { next := Nat.zero_le 1
        fresh := fun _ _ h => nomatch h
        remote := fun _ h => absurd h Finmap.notMem_empty } }

/-- Only clients of the current router are ever trying to connect, exactly as
long as no client does when a configuration is deployed and no client that was
replaced loses a connection. -/
theorem nothingLeft_iff_replacesQuietly (port : UInt32) (startTime : Nat)
    (labels : List Event) :
    Along step (fun _ _ t => NothingLeft t) (start port startTime) labels <->
      Along step (fun s e _ => ReplacesQuietly s e) (start port startTime)
        labels := by
  have hknown := known_start port startTime
  have hstart : Known (start port startTime) ∧
      NothingLeft (start port startTime) :=
    ⟨hknown, (nothingLeft_iff_entries hknown).mpr
      (fun _ h => absurd h (Nat.lt_irrefl 0))⟩
  exact @Lib.along_iff _ _ step _ _ (fun s => Known s ∧ NothingLeft s)
    (fun hstep hs hnext => ⟨hs.left.step hstep, hnext⟩)
    (fun hstep hs => step_nothingLeft_iff hstep hs.left hs.right) _ _ hstart

/-!
## A node that cannot be reached
-/

/-- A generator here, a terminator on another node and a connection between
them; there is nothing at the address of the other node. -/
def towards (node : String) : Protocol.Deploy.Config :=
  { thisNodeInfo := { name := "n", address := "127.0.0.1", port := 100 }
    nodeInfos :=
      [{ name := "n", address := "127.0.0.1", port := 100 },
        { name := node, address := "127.0.0.1", port := 200 }]
    instances := [{ name := "g", kind := Protocol.ComponentKind.generator }]
    maps :=
      [{ nodeName := "n", instanceName := "g" },
        { nodeName := node, instanceName := "t" }]
    connections :=
      [{ source := { port := 0, name := "g" }
         destination := { port := 0, name := "t" } }] }

def deploy (node : String) : Event :=
  Event.node (Node.deployRequest (towards node))

/-- Both clients try to connect in vain, for ever. -/
def unreachable : List Event :=
  [deploy "a", deploy "b",
    Event.client 2 (Reconnecting.Event.notConnected 0),
    Event.client 4 (Reconnecting.Event.notConnected 0)]

/-- The client of the first configuration has its timer armed like that of the
second one. -/
theorem unreachable_left :
    ¬ Along step (fun _ _ t => NothingLeft t) (start 100 0) unreachable := by
  intro h
  have hend : (execute step (start 100 0) unreachable).map
      (fun s => (attemptsAt s.clients 2, addresses s.node.router)) =
        some (1, [4]) := by
    decide +kernel
  rcases Option.map_eq_some_iff.mp hend with ⟨s, hexecute, hs⟩
  rw [Prod.mk.injEq] at hs
  have hnothing : NothingLeft s :=
    Lib.along_invariant NothingLeft (fun hnext _ => hnext) h hexecute
      ((nothingLeft_iff_entries (known_start 100 0)).mpr
        (fun _ h => absurd h (Nat.lt_irrefl 0)))
  have hentry := hnothing.entries 2 (by rw [hs.left]; exact Nat.one_pos)
  rw [hs.right] at hentry
  exact absurd hentry (by decide)

end Uplinks

end System
end Protort
