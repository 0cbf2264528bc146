import Protort.Node.Running

/-!
# The clients of a node

A deployment makes a client for every remote node that its connections lead to,
each at an address that was never used before.  Nothing else makes a client, and
nothing removes one from the router that it was made for.
-/

namespace Protort
namespace Node

open Lib (Table)
open Lib.Exceptions

def remoteNames (comps : Table String NodeInfo) (node : String)
    (conns : List Parser.Connection) : List String :=
  (conns.map (fun conn => (Table.get comps conn.dest).name)).filter
    (fun x => decide (x ≠ node))

def remoteNodes (config : Protocol.Deploy.Config) : List String :=
  match configurationOfPacket config with
  | some conf =>
      remoteNames (compToNode conf) config.thisNodeInfo.name conf.connections
  | none => []

def deployed (event : Event) : Option Protocol.Deploy.Config :=
  match event with
  | Event.request _ payload =>
      if isDispatched payload = true ∧
          payload.asDeployPacket.kind =
            Protocol.Deploy.PacketKind.deployConfig then
        some payload.asDeployPacket.request.deployConfigRequest.config
      else
        none
  | _ => none

/-- All clients of the current router were made since a moment, for nodes with
some names. -/
structure ClientsSince (start : Nat) (names : List String)
    (n : Protort.Node) : Prop where
  next : start <= n.next
  fresh : forall x client, n.router.clients.lookup x = some client ->
    start <= client.address ∧ client.address < n.next
  remote : forall x, x ∈ n.router.clients -> x ∈ names

/-!
## Deployments
-/

section Deployments

variable {env : Platform} {comps : Table String NodeInfo}
  {n m : Protort.Node} {start : Nat} {names : List String}

theorem ClientsSince.kept (h : ClientsSince start names n)
    (hnext : n.next <= m.next)
    (hclients : m.router.clients = n.router.clients) :
    ClientsSince start names m := by
  refine
    { next := h.next.trans hnext
      fresh := ?_
      remote := ?_ }
  · intro x client hlookup
    rw [hclients] at hlookup
    have hfresh := h.fresh x client hlookup
    exact ⟨hfresh.left, Nat.lt_of_lt_of_le hfresh.right hnext⟩
  · intro x hx
    rw [hclients] at hx
    exact h.remote x hx

theorem ClientsSince.more (h : ClientsSince start names n)
    {more : List String} (hsub : forall x, x ∈ names -> x ∈ more) :
    ClientsSince start more n :=
  { next := h.next
    fresh := h.fresh
    remote := fun x hx => hsub x (h.remote x hx) }

theorem ClientsSince.insert (h : ClientsSince start names n) (x : String)
    (endpoint : Endpoint) (hx : x ∈ names) (hnext : m.next = n.next + 1)
    (hclients : m.router.clients =
      n.router.clients.insert x ⟨n.next, endpoint⟩) :
    ClientsSince start names m := by
  have hstart := h.next
  refine
    { next := by omega
      fresh := ?_
      remote := ?_ }
  · intro y client hlookup
    rw [hclients, Table.lookup_insert_eq_ite] at hlookup
    by_cases hy : y = x
    · rw [if_pos hy] at hlookup
      cases hlookup
      exact ⟨hstart, by simp only []; omega⟩
    · rw [if_neg hy] at hlookup
      have hfresh := h.fresh y client hlookup
      omega
  · intro y hy
    rw [hclients, Finmap.mem_insert] at hy
    rcases hy with rfl | hy
    · exact hx
    · exact h.remote y hy

theorem deployComponent_clients {comp : Parser.Component}
    (hrun : deployComponent comps comp n =
      EStateM.Result.ok PUnit.unit m) :
    m.nodeName = n.nodeName ∧ n.next <= m.next ∧
      m.router.clients = n.router.clients := by
  cases deployComponent_cases hrun with
  | here kind _ _ => exact ⟨rfl, Nat.le_succ n.next, rfl⟩
  | elsewhere _ => exact ⟨rfl, Nat.le_refl n.next, rfl⟩

/-- A connection makes no client, or one for the node that it leads to. -/
theorem deployConnection_clients {conn : Parser.Connection}
    (hrun : deployConnection env comps conn n =
      EStateM.Result.ok PUnit.unit m) :
    m.nodeName = n.nodeName ∧
      ((m.next = n.next ∧ m.router.clients = n.router.clients) ∨
        ((Table.get comps conn.dest).name ≠ n.nodeName ∧
          m.next = n.next + 1 ∧
          exists endpoint, m.router.clients = n.router.clients.insert
            (Table.get comps conn.dest).name ⟨n.next, endpoint⟩)) := by
  cases deployConnection_cases hrun with
  | here _ _ => exact ⟨rfl, Or.inl ⟨rfl, rfl⟩⟩
  | known client _ _ _ => exact ⟨rfl, Or.inl ⟨rfl, rfl⟩⟩
  | fresh client _ haway haddress =>
      rcases client with ⟨address, endpoint⟩
      cases haddress
      exact ⟨rfl, Or.inr ⟨haway, rfl, endpoint, rfl⟩⟩
  | elsewhere _ => exact ⟨rfl, Or.inl ⟨rfl, rfl⟩⟩

theorem deployConnections_clients {conns : List Parser.Connection}
    (hclients : n.router.clients = ∅)
    (hrun : conns.forM (deployConnection env comps) n =
      EStateM.Result.ok PUnit.unit m) :
    ClientsSince n.next (remoteNames comps n.nodeName conns) m := by
  have hstart : n.nodeName = n.nodeName ∧
      ClientsSince n.next (remoteNames comps n.nodeName []) n :=
    ⟨rfl,
      { next := Nat.le_refl n.next
        fresh := by
          intro x client hlookup
          rw [hclients] at hlookup
          cases hlookup
        remote := by
          intro x hx
          rw [hclients] at hx
          exact absurd hx Finmap.notMem_empty }⟩
  have hend := forM_inv_of_ok
    (fun front k => k.nodeName = n.nodeName ∧
      ClientsSince n.next (remoteNames comps n.nodeName front) k)
    (fun front conn k k' hk hstep => by
      rcases hk with ⟨hnode, hk⟩
      rcases deployConnection_clients hstep with ⟨hname, hcases⟩
      constructor
      · exact hname.trans hnode
      have hmore : ClientsSince n.next
          (remoteNames comps n.nodeName (front ++ [conn])) k := by
        apply hk.more
        intro x hx
        unfold remoteNames at hx ⊢
        rw [List.map_append, List.filter_append]
        exact List.mem_append_left _ hx
      rcases hcases with ⟨hnext, hsame⟩ | ⟨haway, hnext, endpoint, hnew⟩
      · exact hmore.kept hnext.ge hsame
      · refine hmore.insert _ endpoint ?_ hnext hnew
        unfold remoteNames
        rw [List.map_append, List.filter_append]
        apply List.mem_append_right
        rw [hnode] at haway
        exact List.mem_filter.mpr
          ⟨List.mem_cons_self, decide_eq_true haway⟩)
    hstart hrun
  exact hend.right

theorem deployFromPacket_clients {config : Protocol.Deploy.Config}
    (h : deployFromPacket env config n.exchanged =
      EStateM.Result.ok PUnit.unit m) :
    ClientsSince n.next (remoteNodes config) m := by
  rcases deployFromPacket_ok_iff.mp h with ⟨conf, k, hconf, hloops, _, rfl⟩
  rcases ok_of_bind hloops with ⟨_, k1, hcomponents, hconnections⟩
  have hbuilt : n.next <= k1.next ∧ k1.router.clients = ∅ ∧
      k1.nodeName = config.thisNodeInfo.name := by
    refine forM_keeps (fun l : Protort.Node => n.next <= l.next ∧
      l.router.clients = ∅ ∧ l.nodeName = config.thisNodeInfo.name)
      ?_ ?_ hcomponents
    · intro comp l l' h hstep
      rcases h with ⟨hnext, hclients, hnode⟩
      rcases deployComponent_clients hstep with ⟨hname, hmore, hsame⟩
      exact ⟨hnext.trans hmore, hsame.trans hclients, hname.trans hnode⟩
    · exact ⟨Nat.le_refl n.next, rfl, rfl⟩
  rcases hbuilt with ⟨hnext, hclients, hnode⟩
  have hend := deployConnections_clients hclients hconnections
  rw [hnode] at hend
  have hnames : remoteNodes config = remoteNames (compToNode conf)
      config.thisNodeInfo.name conf.connections := by
    unfold remoteNodes
    rw [hconf]
  rw [hnames]
  exact
    { next := hnext.trans hend.next
      fresh := by
        intro x client hlookup
        have hfresh := hend.fresh x client hlookup
        exact ⟨hnext.trans hfresh.left, hfresh.right⟩
      remote := hend.remote }

end Deployments

/-!
## Steps
-/

section Steps

variable {n n' : Protort.Node}

theorem Worked.clients (h : Worked n n') :
    n'.router.clients = n.router.clients := by
  rcases h.routers _ _ (findRouter_current n) with ⟨r', hr', hsame⟩
  rw [router_of_find h.current hr']
  exact hsame.table.clients

theorem SwitchedAt.clients {w : Switch} {address : Nat}
    (h : SwitchedAt w address n n') :
    n'.router.clients = n.router.clients := by
  by_cases hcurrent : n.router.address = address
  · have hfind := findRouter_current n
    rw [hcurrent] at hfind
    rcases h.router _ hfind with ⟨r', hr', htable, _⟩
    rw [router_of_find (h.current.trans hcurrent) hr']
    exact htable.clients
  · have hkept := h.others _ n.router hcurrent (findRouter_current n)
    rw [router_of_find h.current hkept]

theorem restarted_clients (env : Platform) (wasStarted : Bool)
    (n : Protort.Node) :
    (restarted env wasStarted n).next = n.next ∧
      (restarted env wasStarted n).router.clients = n.router.clients := by
  unfold restarted
  cases wasStarted with
  | true =>
      have hspec := switchRouter_spec (Switch.start env) n.router.address n
      exact ⟨hspec.next, hspec.clients⟩
  | false => exact ⟨rfl, rfl⟩

theorem step_clients {event : Event} {config : Protocol.Deploy.Config}
    (hstep : step n event = some n') (hconfig : deployed event = some config) :
    ClientsSince n.next (remoteNodes config) n' := by
  cases event with
  | message env origin payload => cases hconfig
  | run env index => cases hconfig
  | request env payload =>
      unfold deployed at hconfig
      rcases Option.ite_none_right_eq_some.mp hconfig with
        ⟨⟨_, hkind⟩, heq⟩
      cases heq
      rcases returned_eq_some.mp hstep with ⟨response, hrun⟩
      rcases (onNewRequest_ok_iff.mp hrun).right.of_deployConfig hkind with
        ⟨m, hdeploy, rfl⟩
      have hrestarted := restarted_clients env n.router.started m
      have hspec := switchRouter_spec Switch.stop n.router.address
        (restarted env n.router.started m)
      apply (deployFromPacket_clients hdeploy).kept
      · rw [hspec.next, hrestarted.left]
      · rw [hspec.clients, hrestarted.right]

theorem step_keeps_clients {event : Event} (hstep : step n event = some n')
    (h : Consistent n) (hnone : deployed event = none) :
    n'.next = n.next ∧ n'.router.clients = n.router.clients := by
  cases event with
  | message env origin payload =>
      rcases message_spec hstep with ⟨m, hworked, _, _, rfl⟩
      have hall := hworked.trans
        (performAll_worked m (n.messageEffects origin payload))
      exact ⟨hall.next, hall.clients⟩
  | run env index =>
      rcases run_spec h.sound hstep with
        ⟨_, effects, m, _, _, _, _, hworked, _, _, rfl⟩
      have hall := hworked.trans (performAll_worked m effects)
      exact ⟨hall.next, hall.clients⟩
  | request env payload =>
      rcases returned_eq_some.mp hstep with ⟨response, hrun⟩
      rcases onNewRequest_ok_iff.mp hrun with ⟨hpayload, hserved⟩
      cases hserved with
      | deployConfig hkind _ _ _ =>
          have hsome : deployed (Event.request env payload) = some
              payload.asDeployPacket.request.deployConfigRequest.config :=
            if_pos ⟨hpayload, hkind⟩
          rw [hsome] at hnone
          cases hnone
      | start _ _ =>
          have hspec := switchRouter_spec (Switch.start env)
            n.router.address n
          exact ⟨hspec.next, hspec.clients⟩
      | stop _ _ =>
          have hspec := switchRouter_spec Switch.stop n.router.address n
          exact ⟨hspec.next, hspec.clients⟩
      | getStatus _ _ => exact ⟨rfl, rfl⟩

end Steps

end Node
end Protort
