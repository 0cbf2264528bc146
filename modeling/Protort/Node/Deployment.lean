import Protort.Node.Node

/-!
# Building a router from a configuration

What the two loops of `deployFromConfig` leave in a fresh router.  After the
loop over the components the table has one entry for each component of the node;
the loop over the connections adds one route for each connection that leaves
such a component, a local one when the destination lives on the same node and
otherwise a remote one over the client of the destination's node.
-/

namespace Protort
namespace Node

open Lib (Table)
open Lib.Exceptions
open Components (Component)

/-!
## Entries and their routes
-/

namespace ComponentInstance

theorem get_updateRoutes (inst : ComponentInstance) (port q : Parser.PortId)
    (f : Routes -> Routes) :
    Table.get (inst.updateRoutes port f).portToRoutes q =
      if q = port then f (Table.get inst.portToRoutes port)
      else Table.get inst.portToRoutes q :=
  Table.get_insert inst.portToRoutes port q _

end ComponentInstance

namespace Router

def routesAt (r : Router) (comp : String) (port : Parser.PortId) : Routes :=
  Table.get (Table.get r.components comp).portToRoutes port

theorem get_updateRoutes (r : Router) (source : String) (port : Parser.PortId)
    (f : Routes -> Routes) (c : String) :
    Table.get (r.updateRoutes source port f).components c =
      if c = source then (Table.get r.components source).updateRoutes port f
      else Table.get r.components c :=
  Table.get_insert r.components source c _

theorem routesAt_updateRoutes (r : Router) (source : String)
    (port : Parser.PortId) (f : Routes -> Routes) (c : String)
    (q : Parser.PortId) :
    (r.updateRoutes source port f).routesAt c q =
      if c = source ∧ q = port then f (r.routesAt source port)
      else r.routesAt c q := by
  unfold routesAt
  rw [get_updateRoutes]
  by_cases hc : c = source
  · subst c
    rw [if_pos rfl, ComponentInstance.get_updateRoutes]
    by_cases hq : q = port
    · rw [if_pos hq, if_pos ⟨rfl, hq⟩]
    · rw [if_neg hq, if_neg (fun h => hq h.right)]
  · rw [if_neg hc, if_neg (fun h => hc h.left)]

@[simp] theorem component_updateRoutes (r : Router) (source : String)
    (port : Parser.PortId) (f : Routes -> Routes) (c : String) :
    (Table.get (r.updateRoutes source port f).components c).component =
      (Table.get r.components c).component := by
  rw [get_updateRoutes]
  by_cases hc : c = source
  · subst c
    rw [if_pos rfl]
    rfl
  · rw [if_neg hc]

@[simp] theorem name_updateRoutes (r : Router) (source : String)
    (port : Parser.PortId) (f : Routes -> Routes) (c : String) :
    (Table.get (r.updateRoutes source port f).components c).name =
      (Table.get r.components c).name := by
  rw [get_updateRoutes]
  by_cases hc : c = source
  · subst c
    rw [if_pos rfl]
    rfl
  · rw [if_neg hc]

@[simp] theorem emitted_updateRoutes (r : Router) (source : String)
    (port : Parser.PortId) (f : Routes -> Routes) (c : String) :
    (Table.get (r.updateRoutes source port f).components c).emitted =
      (Table.get r.components c).emitted := by
  rw [get_updateRoutes]
  by_cases hc : c = source
  · subst c
    rw [if_pos rfl]
    rfl
  · rw [if_neg hc]

theorem mem_updateRoutes {r : Router} {source c : String}
    (port : Parser.PortId) (f : Routes -> Routes)
    (h : source ∈ r.components) :
    c ∈ (r.updateRoutes source port f).components <-> c ∈ r.components := by
  unfold updateRoutes
  rw [Finmap.mem_insert]
  constructor
  · intro hcases
    rcases hcases with rfl | hc
    · exact h
    · exact hc
  · exact Or.inr

end Router

/-!
## The parts of a node a deployment does not touch
-/

/-- Two nodes that differ in the tables of the current router and in the free
addresses only. -/
structure SameOutside (n n' : Protort.Node) : Prop where
  address : n'.router.address = n.router.address
  started : n'.router.started = n.router.started
  retired : n'.retired = n.retired
  server : n'.server = n.server
  nodeName : n'.nodeName = n.nodeName
  port : n'.port = n.port
  service : n'.service = n.service
  outbox : n'.outbox = n.outbox

theorem SameOutside.refl (n : Protort.Node) : SameOutside n n :=
  ⟨rfl, rfl, rfl, rfl, rfl, rfl, rfl, rfl⟩

theorem SameOutside.inside {n n' : Protort.Node} (h : SameOutside n n')
    (next : Nat) (components : Table String ComponentInstance)
    (clients : Table String Client) :
    SameOutside n
      { n' with
        next := next
        router := { n'.router with
          components := components
          clients := clients } } :=
  { address := h.address
    started := h.started
    retired := h.retired
    server := h.server
    nodeName := h.nodeName
    port := h.port
    service := h.service
    outbox := h.outbox }

theorem SameOutside.trans (n n' n'' : Protort.Node)
    (h : SameOutside n n') (h' : SameOutside n' n'') : SameOutside n n'' :=
  { address := h'.address.trans h.address
    started := h'.started.trans h.started
    retired := h'.retired.trans h.retired
    server := h'.server.trans h.server
    nodeName := h'.nodeName.trans h.nodeName
    port := h'.port.trans h.port
    service := h'.service.trans h.service
    outbox := h'.outbox.trans h.outbox }

/-!
## The loop over the components
-/

/-- The object that `factory::create` makes, once its entry is known. -/
def newComponent (address router : Nat) (kind : Protocol.ComponentKind)
    (name : String) : Component :=
  { address := address
    router := router
    kind := kind
    compInst := some name
    inPacketCount := 0
    started := false
    received := [] }

theorem deployComponent_elsewhere {comps : Table String NodeInfo}
    {comp : Parser.Component} {n : Protort.Node}
    (h : (Table.get comps comp.name).name ≠ n.nodeName) :
    deployComponent comps comp n = EStateM.Result.ok PUnit.unit n := by
  unfold deployComponent
  rw [run_get_bind, run_ite, if_neg h]
  rfl

theorem deployComponent_here {comps : Table String NodeInfo}
    {comp : Parser.Component} {n : Protort.Node}
    {kind : Protocol.ComponentKind}
    (h : (Table.get comps comp.name).name = n.nodeName)
    (hkind : Components.getComponentKind comp.kind = some kind) :
    deployComponent comps comp n = EStateM.Result.ok PUnit.unit
      { n with
        next := n.next + 1
        router := { n.router with
          components := n.router.components.insert comp.name
            { component := some
                (newComponent n.next n.router.address kind comp.name)
              name := comp.name
              portToRoutes := ∅
              emitted := [] } } } := by
  unfold deployComponent createComponent allocate modifyRouter
  rw [run_get_bind, run_ite, if_pos h, hkind]
  rfl

def IsNewInstance (router : Nat) (comp : Parser.Component)
    (inst : ComponentInstance) : Prop :=
  exists address kind, Components.getComponentKind comp.kind = some kind ∧
    inst =
      { component := some (newComponent address router kind comp.name)
        name := comp.name
        portToRoutes := ∅
        emitted := [] }

structure ComponentsBuilt (comps : Table String NodeInfo) (n : Protort.Node)
    (front : List Parser.Component) (n' : Protort.Node) : Prop where
  outside : SameOutside n n'
  clients : n'.router.clients = n.router.clients
  mem : forall c, c ∈ n'.router.components <->
    exists comp, comp ∈ front ∧ comp.name = c ∧
      (Table.get comps comp.name).name = n.nodeName
  instances : forall c inst, n'.router.components.lookup c = some inst ->
    exists comp, comp ∈ front ∧ comp.name = c ∧
      IsNewInstance n.router.address comp inst

namespace ComponentsBuilt

variable {comps : Table String NodeInfo} {n n' : Protort.Node}
  {front : List Parser.Component} {comp : Parser.Component}

theorem start (hempty : n.router.components = ∅) :
    ComponentsBuilt comps n [] n :=
  { outside := SameOutside.refl n
    clients := rfl
    mem := by
      intro c
      rw [hempty]
      refine iff_of_false Finmap.notMem_empty ?_
      intro h
      rcases h with ⟨comp, hcomp, _⟩
      cases hcomp
    instances := by
      intro c inst hinst
      rw [hempty] at hinst
      cases hinst }

theorem step_here (h : ComponentsBuilt comps n front n')
    {kind : Protocol.ComponentKind}
    (hhere : (Table.get comps comp.name).name = n.nodeName)
    (hkind : Components.getComponentKind comp.kind = some kind) :
    ComponentsBuilt comps n (front ++ [comp])
      { n' with
        next := n'.next + 1
        router := { n'.router with
          components := n'.router.components.insert comp.name
            { component := some
                (newComponent n'.next n'.router.address kind comp.name)
              name := comp.name
              portToRoutes := ∅
              emitted := [] } } } :=
  { outside := h.outside.inside _ _ _
    clients := h.clients
    mem := by
      intro c
      rw [Finmap.mem_insert, h.mem c, Lib.Loops.exists_mem_snoc, or_comm]
      apply or_congr_right
      constructor
      · intro hc
        exact ⟨hc.symm, hhere⟩
      · intro hc
        exact hc.left.symm
    instances := by
      intro c inst hinst
      rw [Table.lookup_insert_eq_ite] at hinst
      by_cases hc : c = comp.name
      · rw [if_pos hc] at hinst
        refine ⟨comp, List.mem_append_right front List.mem_cons_self,
          hc.symm, n'.next, kind, hkind, ?_⟩
        rw [← h.outside.address]
        exact (Option.some.inj hinst).symm
      · rw [if_neg hc] at hinst
        rcases h.instances c inst hinst with ⟨other, hother, hname, hnew⟩
        exact ⟨other, List.mem_append_left [comp] hother, hname, hnew⟩ }

theorem step_elsewhere (h : ComponentsBuilt comps n front n')
    (haway : (Table.get comps comp.name).name ≠ n.nodeName) :
    ComponentsBuilt comps n (front ++ [comp]) n' :=
  { outside := h.outside
    clients := h.clients
    mem := by
      intro c
      rw [h.mem c, Lib.Loops.exists_mem_snoc]
      exact (or_iff_left (fun hc => haway hc.right)).symm
    instances := by
      intro c inst hinst
      rcases h.instances c inst hinst with ⟨other, hother, hname, hnew⟩
      exact ⟨other, List.mem_append_left [comp] hother, hname, hnew⟩ }

theorem step (h : ComponentsBuilt comps n front n')
    (hkind : (Table.get comps comp.name).name = n.nodeName ->
      (Components.getComponentKind comp.kind).isSome) :
    exists n'', deployComponent comps comp n' =
        EStateM.Result.ok PUnit.unit n'' ∧
      ComponentsBuilt comps n (front ++ [comp]) n'' := by
  by_cases hhere : (Table.get comps comp.name).name = n.nodeName
  · rcases Option.isSome_iff_exists.mp (hkind hhere) with ⟨kind, hk⟩
    have hhere' : (Table.get comps comp.name).name = n'.nodeName := by
      rw [h.outside.nodeName, hhere]
    exact ⟨_, deployComponent_here hhere' hk, h.step_here hhere hk⟩
  · have hother : (Table.get comps comp.name).name ≠ n'.nodeName := by
      rw [h.outside.nodeName]
      exact hhere
    exact ⟨n', deployComponent_elsewhere hother, h.step_elsewhere hhere⟩

theorem exists_new (h : ComponentsBuilt comps n front n') {c : String}
    (hc : c ∈ n'.router.components) :
    exists comp, comp ∈ front ∧ comp.name = c ∧
      IsNewInstance n.router.address comp
        (Table.get n'.router.components c) := by
  rcases Finmap.mem_iff.mp hc with ⟨inst, hinst⟩
  rw [Table.get_of_lookup hinst]
  exact h.instances c inst hinst

theorem routesAt (h : ComponentsBuilt comps n front n') {c : String}
    (hc : c ∈ n'.router.components) (p : Parser.PortId) :
    n'.router.routesAt c p = default := by
  rcases h.exists_new hc with ⟨comp, _, _, address, kind, _, hinst⟩
  unfold Router.routesAt
  rw [hinst]
  rfl

end ComponentsBuilt

theorem deployComponents_ok (comps : Table String NodeInfo) {n : Protort.Node}
    {components : List Parser.Component}
    (hempty : n.router.components = ∅)
    (hkinds : forall comp, comp ∈ components ->
      (Table.get comps comp.name).name = n.nodeName ->
        (Components.getComponentKind comp.kind).isSome) :
    exists n', components.forM (deployComponent comps) n =
        EStateM.Result.ok PUnit.unit n' ∧
      ComponentsBuilt comps n components n' := by
  have hloop := forM_ok (fun front n' => ComponentsBuilt comps n front n')
    (fun front comp back n' heq hinv => hinv.step
      (hkinds comp (by
        have hsplit : components = front ++ comp :: back := heq
        rw [hsplit]
        exact List.mem_append_right front List.mem_cons_self)))
    (ComponentsBuilt.start hempty)
  exact hloop

/-!
## Routes by connection
-/

/-- The routes that the connections leaving an output of a component give it on
a node, when every component has a home. -/
def localRoutesOf (home : String -> String) (node : String)
    (conns : List Parser.Connection) (comp : String) (port : Parser.PortId) :
    List LocalRoute :=
  (conns.filter (fun conn => decide (conn.source = comp ∧
    conn.sourceOut = port ∧ home conn.dest = node))).map
      (fun conn => ⟨conn.destIn, conn.dest⟩)

def remoteRoutesOf (home : String -> String) (node : String)
    (conns : List Parser.Connection) (comp : String) (port : Parser.PortId) :
    List (Parser.PortId × String) :=
  (conns.filter (fun conn => decide (conn.source = comp ∧
    conn.sourceOut = port ∧ home conn.dest ≠ node))).map
      (fun conn => (conn.destIn, conn.dest))

def RemoteRoute.target (route : RemoteRoute) : Parser.PortId × String :=
  (route.inPort, route.name)

theorem localRoutesOf_append (home : String -> String) (node : String)
    (xs ys : List Parser.Connection) (comp : String) (port : Parser.PortId) :
    localRoutesOf home node (xs ++ ys) comp port =
      localRoutesOf home node xs comp port ++
        localRoutesOf home node ys comp port := by
  simp [localRoutesOf]

theorem remoteRoutesOf_append (home : String -> String) (node : String)
    (xs ys : List Parser.Connection) (comp : String) (port : Parser.PortId) :
    remoteRoutesOf home node (xs ++ ys) comp port =
      remoteRoutesOf home node xs comp port ++
        remoteRoutesOf home node ys comp port := by
  simp [remoteRoutesOf]

/-!
## The client of a node
-/

/-- What asking for the client of a node gives: the one that is there, or a new
one that is connected to the address of the node. -/
structure ClientFor (env : Platform) (info : NodeInfo) (n : Protort.Node)
    (client : Client) (n' : Protort.Node) : Prop where
  outside : SameOutside n n'
  components : n'.router.components = n.router.components
  kept : n'.router.clients.lookup info.name = some client
  others : forall x, x ≠ info.name ->
    n'.router.clients.lookup x = n.router.clients.lookup x
  old : forall c, n.router.clients.lookup info.name = some c -> client = c
  new : n.router.clients.lookup info.name = none ->
    env.fromString info.address = some client.endpoint.address ∧
      client.endpoint.port = info.port.toUInt16

theorem ClientFor.lookup_kept {env : Platform} {info : NodeInfo}
    {n n' : Protort.Node} {client : Client}
    (h : ClientFor env info n client n') {x : String} {old : Client}
    (hx : n.router.clients.lookup x = some old) :
    n'.router.clients.lookup x = some old := by
  by_cases hinfo : x = info.name
  · subst x
    rw [h.kept, h.old old hx]
  · rw [h.others x hinfo, hx]

theorem ClientFor.lookup_cases {env : Platform} {info : NodeInfo}
    {n n' : Protort.Node} {client : Client}
    (h : ClientFor env info n client n') {x : String} {other : Client}
    (hx : n'.router.clients.lookup x = some other) :
    n.router.clients.lookup x = some other ∨
      (x = info.name ∧ other = client ∧
        n.router.clients.lookup info.name = none) := by
  by_cases hinfo : x = info.name
  · subst x
    cases hold : n.router.clients.lookup info.name with
    | some old =>
        rw [h.lookup_kept hold] at hx
        exact Or.inl hx
    | none =>
        rw [h.kept] at hx
        exact Or.inr ⟨rfl, (Option.some.inj hx).symm, rfl⟩
  · rw [h.others x hinfo] at hx
    exact Or.inl hx

theorem ClientFor.routesAt {env : Platform} {info : NodeInfo}
    {n n' : Protort.Node} {client : Client}
    (h : ClientFor env info n client n') (c : String) (p : Parser.PortId) :
    n'.router.routesAt c p = n.router.routesAt c p := by
  unfold Router.routesAt
  rw [h.components]

theorem clientFor_found {env : Platform} {info : NodeInfo} {n : Protort.Node}
    {client : Client} (h : n.router.clients.lookup info.name = some client) :
    clientFor env info n = EStateM.Result.ok client n := by
  unfold clientFor
  rw [run_get_bind, h]
  rfl

theorem clientFor_new {env : Platform} {info : NodeInfo} {n : Protort.Node}
    {addr : UInt32} (h : n.router.clients.lookup info.name = none)
    (haddr : env.fromString info.address = some addr) :
    clientFor env info n =
      EStateM.Result.ok ⟨n.next, ⟨addr, info.port.toUInt16⟩⟩
        { n with
          next := n.next + 1
          router := { n.router with
            clients := n.router.clients.insert info.name
              ⟨n.next, ⟨addr, info.port.toUInt16⟩⟩ } } := by
  unfold clientFor allocate modifyRouter
  rw [run_get_bind, h, haddr]
  rfl

theorem clientFor_bad {env : Platform} {info : NodeInfo} {n : Protort.Node}
    (h : n.router.clients.lookup info.name = none)
    (haddr : env.fromString info.address = none) :
    clientFor env info n =
      EStateM.Result.error (Fault.exception Exception.invalidAddress) n := by
  unfold clientFor
  rw [run_get_bind, h, haddr]
  rfl

theorem clientFor_ok {env : Platform} {info : NodeInfo} (n : Protort.Node)
    (haddr : (env.fromString info.address).isSome) :
    exists client n', clientFor env info n = EStateM.Result.ok client n' ∧
      ClientFor env info n client n' := by
  cases h : n.router.clients.lookup info.name with
  | some client =>
      exists client
      exists n
      constructor
      · exact clientFor_found h
      exact
        { outside := SameOutside.refl n
          components := rfl
          kept := h
          others := fun _ _ => rfl
          old := fun c hc => Option.some.inj (h.symm.trans hc)
          new := fun hnone => by
            rw [h] at hnone
            cases hnone }
  | none =>
      rcases Option.isSome_iff_exists.mp haddr with ⟨addr, ha⟩
      refine ⟨_, _, clientFor_new h ha, ?_⟩
      exact
        { outside := ⟨rfl, rfl, rfl, rfl, rfl, rfl, rfl, rfl⟩
          components := rfl
          kept := Finmap.lookup_insert _
          others := fun x hx => Finmap.lookup_insert_of_ne _ hx
          old := fun c hc => by
            rw [h] at hc
            cases hc
          new := fun _ => ⟨ha, rfl⟩ }

/-!
## One connection
-/

theorem deployConnection_elsewhere {env : Platform}
    {comps : Table String NodeInfo} {conn : Parser.Connection}
    {n : Protort.Node} (h : conn.source ∉ n.router.components) :
    deployConnection env comps conn n = EStateM.Result.ok PUnit.unit n := by
  unfold deployConnection
  rw [run_get_bind, run_ite, if_neg h]
  rfl

theorem deployConnection_local {env : Platform}
    {comps : Table String NodeInfo} {conn : Parser.Connection}
    {n : Protort.Node} (hsource : conn.source ∈ n.router.components)
    (hdest : conn.dest ∈ n.router.components)
    (hhere : (Table.get comps conn.dest).name = n.nodeName) :
    deployConnection env comps conn n = EStateM.Result.ok PUnit.unit
      { n with
        router := n.router.pushLocalRoute conn.source conn.sourceOut
          ⟨conn.destIn, conn.dest⟩ } := by
  unfold deployConnection modifyRouter
  rw [run_get_bind, run_ite, if_pos hsource]
  simp only [run_ite, if_pos hhere, run_modify_bind, run_modify,
    Table.touch_of_mem hdest]

theorem deployConnection_remote {env : Platform}
    {comps : Table String NodeInfo} {conn : Parser.Connection}
    {n n' : Protort.Node} {client : Client}
    (hsource : conn.source ∈ n.router.components)
    (haway : (Table.get comps conn.dest).name ≠ n.nodeName)
    (hclient : clientFor env (Table.get comps conn.dest) n =
      EStateM.Result.ok client n') :
    deployConnection env comps conn n = EStateM.Result.ok PUnit.unit
      { n' with
        router := n'.router.pushRemoteRoute conn.source conn.sourceOut
          ⟨conn.destIn, conn.dest, client⟩ } := by
  unfold deployConnection
  rw [run_get_bind, run_ite, if_pos hsource]
  simp only [run_ite, if_neg haway, bind_ok hclient]
  rfl

/-!
## The loop over the connections
-/

def LeadsTo (env : Platform) (info : NodeInfo) (endpoint : Endpoint) : Prop :=
  env.fromString info.address = some endpoint.address ∧
    endpoint.port = info.port.toUInt16

structure RoutesBuilt (env : Platform) (comps : Table String NodeInfo)
    (n : Protort.Node) (front : List Parser.Connection) (n' : Protort.Node) :
    Prop where
  outside : SameOutside n n'
  mem : forall c, c ∈ n'.router.components <-> c ∈ n.router.components
  component : forall c, (Table.get n'.router.components c).component =
    (Table.get n.router.components c).component
  name : forall c, (Table.get n'.router.components c).name =
    (Table.get n.router.components c).name
  emitted : forall c, (Table.get n'.router.components c).emitted =
    (Table.get n.router.components c).emitted
  localRoutes : forall c, c ∈ n.router.components -> forall p,
    (n'.router.routesAt c p).localRoutes =
      localRoutesOf (fun d => (Table.get comps d).name) n.nodeName front c p
  remoteRoutes : forall c, c ∈ n.router.components -> forall p,
    (n'.router.routesAt c p).remoteRoutes.map RemoteRoute.target =
      remoteRoutesOf (fun d => (Table.get comps d).name) n.nodeName front c p
  remoteClients : forall c, c ∈ n.router.components -> forall p route,
    route ∈ (n'.router.routesAt c p).remoteRoutes ->
      n'.router.clients.lookup (Table.get comps route.name).name =
        some route.client
  clients : forall x client, n'.router.clients.lookup x = some client ->
    exists conn, conn ∈ front ∧ conn.source ∈ n.router.components ∧
      (Table.get comps conn.dest).name = x ∧ x ≠ n.nodeName ∧
      LeadsTo env (Table.get comps conn.dest) client.endpoint

structure Wired (env : Platform) (comps : Table String NodeInfo)
    (n : Protort.Node) (conn : Parser.Connection) : Prop where
  dest : (Table.get comps conn.dest).name = n.nodeName ->
    conn.dest ∈ n.router.components
  address : (Table.get comps conn.dest).name ≠ n.nodeName ->
    (env.fromString (Table.get comps conn.dest).address).isSome

namespace RoutesBuilt

variable {env : Platform} {comps : Table String NodeInfo}
  {n n' : Protort.Node} {front : List Parser.Connection}
  {conn : Parser.Connection}

theorem start
    (hroutes : forall c, c ∈ n.router.components -> forall p,
      n.router.routesAt c p = default)
    (hclients : n.router.clients = ∅) : RoutesBuilt env comps n [] n :=
  { outside := SameOutside.refl n
    mem := fun _ => Iff.rfl
    component := fun _ => rfl
    name := fun _ => rfl
    emitted := fun _ => rfl
    localRoutes := by
      intro c hc p
      rw [hroutes c hc p]
      rfl
    remoteRoutes := by
      intro c hc p
      rw [hroutes c hc p]
      rfl
    remoteClients := by
      intro c hc p route hroute
      rw [hroutes c hc p] at hroute
      cases hroute
    clients := by
      intro x client hx
      rw [hclients] at hx
      cases hx }

theorem clients_append (h : RoutesBuilt env comps n front n') {x : String}
    {client : Client} (hx : n'.router.clients.lookup x = some client) :
    exists other, other ∈ front ++ [conn] ∧
      other.source ∈ n.router.components ∧
      (Table.get comps other.dest).name = x ∧ x ≠ n.nodeName ∧
      LeadsTo env (Table.get comps other.dest) client.endpoint := by
  rcases h.clients x client hx with ⟨other, hmem, hrest⟩
  exact ⟨other, List.mem_append_left [conn] hmem, hrest⟩

theorem step_elsewhere (h : RoutesBuilt env comps n front n')
    (hsource : conn.source ∉ n.router.components) :
    RoutesBuilt env comps n (front ++ [conn]) n' := by
  have hne : forall c, c ∈ n.router.components -> conn.source ≠ c := by
    intro c hc heq
    exact hsource (heq ▸ hc)
  exact
    { outside := h.outside
      mem := h.mem
      component := h.component
      name := h.name
      emitted := h.emitted
      localRoutes := by
        intro c hc p
        rw [h.localRoutes c hc, localRoutesOf_append]
        simp [localRoutesOf, hne c hc]
      remoteRoutes := by
        intro c hc p
        rw [h.remoteRoutes c hc, remoteRoutesOf_append]
        simp [remoteRoutesOf, hne c hc]
      remoteClients := h.remoteClients
      clients := fun x client hx => h.clients_append hx }

theorem step_local (h : RoutesBuilt env comps n front n')
    (hsource : conn.source ∈ n.router.components)
    (hhere : (Table.get comps conn.dest).name = n.nodeName) :
    RoutesBuilt env comps n (front ++ [conn])
      { n' with
        router := n'.router.pushLocalRoute conn.source conn.sourceOut
          ⟨conn.destIn, conn.dest⟩ } :=
  { outside := h.outside.inside _ _ _
    mem := by
      intro c
      exact (Router.mem_updateRoutes _ _ ((h.mem _).mpr hsource)).trans
        (h.mem c)
    component := fun c =>
      (Router.component_updateRoutes _ _ _ _ c).trans (h.component c)
    name := fun c => (Router.name_updateRoutes _ _ _ _ c).trans (h.name c)
    emitted := fun c =>
      (Router.emitted_updateRoutes _ _ _ _ c).trans (h.emitted c)
    localRoutes := by
      intro c hc p
      rw [localRoutesOf_append, ← h.localRoutes c hc]
      unfold Router.pushLocalRoute
      rw [Router.routesAt_updateRoutes]
      by_cases hport : c = conn.source ∧ p = conn.sourceOut
      · rcases hport with ⟨rfl, rfl⟩
        simp [localRoutesOf, hhere]
      · rw [if_neg hport]
        have hother : ¬ (conn.source = c ∧ conn.sourceOut = p) :=
          fun heq => hport ⟨heq.left.symm, heq.right.symm⟩
        simp [localRoutesOf, ← and_assoc, hother]
    remoteRoutes := by
      intro c hc p
      rw [remoteRoutesOf_append, ← h.remoteRoutes c hc]
      unfold Router.pushLocalRoute
      rw [Router.routesAt_updateRoutes]
      have hnone : remoteRoutesOf (fun d => (Table.get comps d).name)
          n.nodeName [conn] c p = [] := by
        simp [remoteRoutesOf, hhere]
      rw [hnone, List.append_nil]
      by_cases hport : c = conn.source ∧ p = conn.sourceOut
      · rcases hport with ⟨rfl, rfl⟩
        rw [if_pos ⟨rfl, rfl⟩]
      · rw [if_neg hport]
    remoteClients := by
      intro c hc p route hroute
      apply h.remoteClients c hc p route
      change route ∈ (Router.routesAt (Router.updateRoutes _ _ _ _)
        c p).remoteRoutes at hroute
      rw [Router.routesAt_updateRoutes] at hroute
      by_cases hport : c = conn.source ∧ p = conn.sourceOut
      · rcases hport with ⟨rfl, rfl⟩
        rw [if_pos ⟨rfl, rfl⟩] at hroute
        exact hroute
      · rw [if_neg hport] at hroute
        exact hroute
    clients := fun x client hx => h.clients_append hx }

theorem step_remote {n'' : Protort.Node} {client : Client}
    (h : RoutesBuilt env comps n front n')
    (hsource : conn.source ∈ n.router.components)
    (haway : (Table.get comps conn.dest).name ≠ n.nodeName)
    (hclient : ClientFor env (Table.get comps conn.dest) n' client n'') :
    RoutesBuilt env comps n (front ++ [conn])
      { n'' with
        router := n''.router.pushRemoteRoute conn.source conn.sourceOut
          ⟨conn.destIn, conn.dest, client⟩ } := by
  have houtside := SameOutside.trans n n' n'' h.outside hclient.outside
  exact
    { outside := houtside.inside _ _ _
      mem := by
        intro c
        have hsource'' : conn.source ∈ n''.router.components := by
          rw [hclient.components]
          exact (h.mem _).mpr hsource
        refine (Router.mem_updateRoutes _ _ hsource'').trans ?_
        rw [hclient.components]
        exact h.mem c
      component := by
        intro c
        refine (Router.component_updateRoutes _ _ _ _ c).trans ?_
        rw [hclient.components]
        exact h.component c
      name := by
        intro c
        refine (Router.name_updateRoutes _ _ _ _ c).trans ?_
        rw [hclient.components]
        exact h.name c
      emitted := by
        intro c
        refine (Router.emitted_updateRoutes _ _ _ _ c).trans ?_
        rw [hclient.components]
        exact h.emitted c
      localRoutes := by
        intro c hc p
        rw [localRoutesOf_append, ← h.localRoutes c hc]
        unfold Router.pushRemoteRoute
        rw [Router.routesAt_updateRoutes, hclient.routesAt, hclient.routesAt]
        have hnone : localRoutesOf (fun d => (Table.get comps d).name)
            n.nodeName [conn] c p = [] := by
          simp [localRoutesOf, haway]
        rw [hnone, List.append_nil]
        by_cases hport : c = conn.source ∧ p = conn.sourceOut
        · rcases hport with ⟨rfl, rfl⟩
          rw [if_pos ⟨rfl, rfl⟩]
        · rw [if_neg hport]
      remoteRoutes := by
        intro c hc p
        rw [remoteRoutesOf_append, ← h.remoteRoutes c hc]
        unfold Router.pushRemoteRoute
        rw [Router.routesAt_updateRoutes, hclient.routesAt, hclient.routesAt]
        by_cases hport : c = conn.source ∧ p = conn.sourceOut
        · rcases hport with ⟨rfl, rfl⟩
          simp [remoteRoutesOf, haway, RemoteRoute.target]
        · rw [if_neg hport]
          have hother : ¬ (conn.source = c ∧ conn.sourceOut = p) :=
            fun heq => hport ⟨heq.left.symm, heq.right.symm⟩
          simp [remoteRoutesOf, ← and_assoc, hother]
      remoteClients := by
        intro c hc p route hroute
        show n''.router.clients.lookup _ = _
        change route ∈ (Router.routesAt (Router.updateRoutes _ _ _ _)
          c p).remoteRoutes at hroute
        rw [Router.routesAt_updateRoutes, hclient.routesAt, hclient.routesAt]
          at hroute
        by_cases hport : c = conn.source ∧ p = conn.sourceOut
        · rw [if_pos hport] at hroute
          rcases List.mem_append.mp hroute with hold | hnew
          · rcases hport with ⟨rfl, rfl⟩
            exact hclient.lookup_kept (h.remoteClients _ hc _ route hold)
          · rcases List.mem_singleton.mp hnew with rfl
            exact hclient.kept
        · rw [if_neg hport] at hroute
          exact hclient.lookup_kept (h.remoteClients c hc p route hroute)
      clients := by
        intro x other hx
        rcases hclient.lookup_cases hx with hold | ⟨rfl, rfl, hnone⟩
        · exact h.clients_append hold
        · exact ⟨conn, List.mem_append_right front List.mem_cons_self,
            hsource, rfl, haway, hclient.new hnone⟩ }

theorem step (h : RoutesBuilt env comps n front n')
    (hwired : conn.source ∈ n.router.components -> Wired env comps n conn) :
    exists n'', deployConnection env comps conn n' =
        EStateM.Result.ok PUnit.unit n'' ∧
      RoutesBuilt env comps n (front ++ [conn]) n'' := by
  by_cases hsource : conn.source ∈ n.router.components
  · have hw := hwired hsource
    have hsource' := (h.mem conn.source).mpr hsource
    by_cases hhere : (Table.get comps conn.dest).name = n.nodeName
    · have hdest := (h.mem conn.dest).mpr (hw.dest hhere)
      have hhere' : (Table.get comps conn.dest).name = n'.nodeName := by
        rw [h.outside.nodeName, hhere]
      exact ⟨_, deployConnection_local hsource' hdest hhere',
        h.step_local hsource hhere⟩
    · have haway : (Table.get comps conn.dest).name ≠ n'.nodeName := by
        rw [h.outside.nodeName]
        exact hhere
      rcases clientFor_ok n' (hw.address hhere) with ⟨client, n'', hrun, hc⟩
      exact ⟨_, deployConnection_remote hsource' haway hrun,
        h.step_remote hsource hhere hc⟩
  · have hsource' : conn.source ∉ n'.router.components :=
      fun hmem => hsource ((h.mem conn.source).mp hmem)
    exact ⟨n', deployConnection_elsewhere hsource', h.step_elsewhere hsource⟩

end RoutesBuilt

theorem deployConnections_ok {env : Platform} {comps : Table String NodeInfo}
    {n : Protort.Node} {connections : List Parser.Connection}
    (hroutes : forall c, c ∈ n.router.components -> forall p,
      n.router.routesAt c p = default)
    (hclients : n.router.clients = ∅)
    (hwired : forall conn, conn ∈ connections ->
      conn.source ∈ n.router.components -> Wired env comps n conn) :
    exists n', connections.forM (deployConnection env comps) n =
        EStateM.Result.ok PUnit.unit n' ∧
      RoutesBuilt env comps n connections n' := by
  have hloop := forM_ok (fun front n' => RoutesBuilt env comps n front n')
    (fun front conn back n' heq hinv => hinv.step
      (hwired conn (by
        have hsplit : connections = front ++ conn :: back := heq
        rw [hsplit]
        exact List.mem_append_right front List.mem_cons_self)))
    (RoutesBuilt.start hroutes hclients)
  exact hloop

/-!
## The whole configuration
-/

/-- The node that a configuration gives a component, by the two local maps. -/
def homeOf (conf : Parser.Configuration) (comp : String) : NodeInfo :=
  Table.get (compToNode conf) comp

/-- A router that `deployFromConfig` has built for a node. -/
structure RouterBuilt (env : Platform) (conf : Parser.Configuration)
    (node : String) (r : Router) : Prop where
  mem : forall c, c ∈ r.components <->
    (homeOf conf c).name = node ∧
      exists comp, comp ∈ conf.components ∧ comp.name = c
  components : forall c, c ∈ r.components ->
    exists comp address kind, comp ∈ conf.components ∧ comp.name = c ∧
      Components.getComponentKind comp.kind = some kind ∧
      (Table.get r.components c).component =
        some (newComponent address r.address kind c)
  names : forall c, c ∈ r.components -> (Table.get r.components c).name = c
  emitted : forall c, c ∈ r.components ->
    (Table.get r.components c).emitted = []
  localRoutes : forall c, c ∈ r.components -> forall p,
    (r.routesAt c p).localRoutes =
      localRoutesOf (fun d => (homeOf conf d).name) node conf.connections c p
  remoteRoutes : forall c, c ∈ r.components -> forall p,
    (r.routesAt c p).remoteRoutes.map RemoteRoute.target =
      remoteRoutesOf (fun d => (homeOf conf d).name) node conf.connections c p
  remoteClients : forall c, c ∈ r.components -> forall p route,
    route ∈ (r.routesAt c p).remoteRoutes ->
      r.clients.lookup (homeOf conf route.name).name = some route.client
  clients : forall x client, r.clients.lookup x = some client ->
    exists conn, conn ∈ conf.connections ∧ conn.source ∈ r.components ∧
      (homeOf conf conn.dest).name = x ∧ x ≠ node ∧
      LeadsTo env (homeOf conf conn.dest) client.endpoint

/-- What a configuration must provide for a node to be built without a
failure. -/
structure Buildable (env : Platform) (conf : Parser.Configuration)
    (node : String) : Prop where
  kinds : forall comp, comp ∈ conf.components ->
    (homeOf conf comp.name).name = node ->
      (Components.getComponentKind comp.kind).isSome
  localDests : forall conn, conn ∈ conf.connections ->
    (homeOf conf conn.dest).name = node ->
      exists comp, comp ∈ conf.components ∧ comp.name = conn.dest
  addresses : forall conn, conn ∈ conf.connections ->
    (homeOf conf conn.dest).name ≠ node ->
      (env.fromString (homeOf conf conn.dest).address).isSome

section Loops

variable {env : Platform} {conf : Parser.Configuration}
  {n n1 n2 : Protort.Node}

theorem mem_built
    (hc : ComponentsBuilt (compToNode conf) n conf.components n1)
    (c : String) :
    c ∈ n1.router.components <->
      (homeOf conf c).name = n.nodeName ∧
        exists comp, comp ∈ conf.components ∧ comp.name = c := by
  rw [hc.mem c]
  constructor
  · intro h
    rcases h with ⟨comp, hcomp, rfl, hhome⟩
    exact ⟨hhome, comp, hcomp, rfl⟩
  · intro h
    rcases h with ⟨hhome, comp, hcomp, rfl⟩
    exact ⟨comp, hcomp, rfl, hhome⟩

theorem routerBuilt_of_loops
    (hc : ComponentsBuilt (compToNode conf) n conf.components n1)
    (hr : RoutesBuilt env (compToNode conf) n1 conf.connections n2) :
    RouterBuilt env conf n.nodeName n2.router := by
  have hnode : n1.nodeName = n.nodeName := hc.outside.nodeName
  have hmem : forall c, c ∈ n2.router.components <->
      c ∈ n1.router.components := hr.mem
  have haddress := hr.outside.address.trans hc.outside.address
  exact
    { mem := fun c => (hr.mem c).trans (mem_built hc c)
      components := by
        intro c hcmem
        rcases hc.exists_new ((hmem c).mp hcmem) with
          ⟨comp, hcomp, hname, address, kind, hkind, hinst⟩
        refine ⟨comp, address, kind, hcomp, hname, hkind, ?_⟩
        rw [hr.component c, hinst, haddress, hname]
      names := by
        intro c hcmem
        rcases hc.exists_new ((hmem c).mp hcmem) with
          ⟨comp, _, hname, address, kind, _, hinst⟩
        rw [hr.name c, hinst]
        exact hname
      emitted := by
        intro c hcmem
        rcases hc.exists_new ((hmem c).mp hcmem) with
          ⟨comp, _, _, address, kind, _, hinst⟩
        rw [hr.emitted c, hinst]
      localRoutes := by
        intro c hcmem p
        rw [hr.localRoutes c ((hmem c).mp hcmem) p, hnode]
        rfl
      remoteRoutes := by
        intro c hcmem p
        rw [hr.remoteRoutes c ((hmem c).mp hcmem) p, hnode]
        rfl
      remoteClients := fun c hcmem => hr.remoteClients c ((hmem c).mp hcmem)
      clients := by
        intro x client hx
        rcases hr.clients x client hx with
          ⟨conn, hconn, hsource, hhome, hne, hleads⟩
        rw [hnode] at hne
        exact ⟨conn, hconn, (hmem _).mpr hsource, hhome, hne, hleads⟩ }

/-- Up to the last statement, which opens the port, the loops have built the
router of the node. -/
theorem deployFromConfig_built (hcomponents : n.router.components = ∅)
    (hclients : n.router.clients = ∅)
    (hconf : Buildable env conf n.nodeName) :
    exists n', deployFromConfig env conf n = listen env n.port n' ∧
      SameOutside n n' ∧ RouterBuilt env conf n.nodeName n'.router := by
  rcases deployComponents_ok _ hcomponents hconf.kinds with ⟨n1, hrun1, hc⟩
  have hwired : forall conn, conn ∈ conf.connections ->
      conn.source ∈ n1.router.components ->
        Wired env (compToNode conf) n1 conn := by
    intro conn hconn _
    exact
      { dest := by
          intro hhere
          rw [hc.outside.nodeName] at hhere
          exact (mem_built hc conn.dest).mpr
            ⟨hhere, hconf.localDests conn hconn hhere⟩
        address := by
          intro haway
          rw [hc.outside.nodeName] at haway
          exact hconf.addresses conn hconn haway }
  rcases deployConnections_ok (fun _ hcmem => hc.routesAt hcmem)
    (hc.clients.trans hclients) hwired with ⟨n2, hrun2, hr⟩
  have houtside := SameOutside.trans n n1 n2 hc.outside hr.outside
  refine ⟨n2, ?_, houtside, routerBuilt_of_loops hc hr⟩
  unfold deployFromConfig
  rw [bind_ok hrun1, bind_ok hrun2, run_get_bind, houtside.port]

end Loops

theorem finalState_listen (env : Platform) (port : UInt32)
    (n : Protort.Node) :
    exists server, finalState (listen env port n) =
      { n with server := server } := by
  unfold listen
  rw [run_modify_bind, run_ite]
  by_cases hbind : env.bind port.toUInt16
  · rw [if_pos hbind]
    exact ⟨_, rfl⟩
  · rw [if_neg hbind]
    exact ⟨_, rfl⟩

theorem router_listen (env : Platform) (port : UInt32) (n : Protort.Node) :
    (finalState (listen env port n)).router = n.router := by
  rcases finalState_listen env port n with ⟨server, h⟩
  rw [h]

theorem deployFromPacket_built {env : Platform}
    {config : Protocol.Deploy.Config} {conf : Parser.Configuration}
    {n : Protort.Node} (hparsed : configurationOfPacket config = some conf)
    (hcomponents : n.router.components = ∅)
    (hclients : n.router.clients = ∅)
    (hconf : Buildable env conf config.thisNodeInfo.name) :
    exists n', deployFromPacket env config n =
        listen env config.thisNodeInfo.port n' ∧
      n'.service = n.service ∧ n'.outbox = n.outbox ∧
      RouterBuilt env conf config.thisNodeInfo.name n'.router := by
  have hbuilt := @deployFromConfig_built env conf
    { n with
      nodeName := config.thisNodeInfo.name
      port := config.thisNodeInfo.port }
    hcomponents hclients hconf
  rcases hbuilt with ⟨n', hrun, houtside, hrouter⟩
  refine ⟨n', ?_, houtside.service, houtside.outbox, hrouter⟩
  unfold deployFromPacket
  rw [run_modify_bind, hparsed]
  exact hrun

end Node
end Protort
