import Protort.Node.Acceptance

/-!
# What a deployment that returned has built

Names may be declared more than once.  Of the components with one name the last
is kept; a client is connected to the address that the first connection through
it was given.
-/

namespace Protort
namespace Node

open Lib (Table lastEntry)
open Lib.Exceptions

/-- The kind of a component: the last declaration counts. -/
def kindNameOf (comps : List Parser.Component) (c : String) : String :=
  ((lastEntry (fun comp => comp.name) comps c).map
    (fun comp => comp.kind)).getD ""

def leavesFor (sources : List String) (home : String -> String)
    (x : String) (conn : Parser.Connection) : Bool :=
  decide (conn.source ∈ sources ∧ home conn.dest = x)

/-- The connection for which the client of a node is made. -/
def opening (conf : Parser.Configuration) (node x : String) :
    Option Parser.Connection :=
  conf.connections.find? (leavesFor (instancesOn conf node)
    (fun c => (homeOf conf c).name) x)

/-- A router that was built for a node, its components and clients exactly. -/
structure Configured (env : Platform) (conf : Parser.Configuration)
    (node : String) (r : Router) : Prop where
  built : RouterBuilt env conf node r
  kinds : forall c, c ∈ r.components -> exists object,
    r.objectAt c = some object ∧
      Components.getComponentKind (kindNameOf conf.components c) =
        some object.kind
  opened : forall x conn, x ≠ node -> opening conf node x = some conn ->
    exists client, r.clients.lookup x = some client ∧
      LeadsTo env (homeOf conf conn.dest) client.endpoint

/-!
## Components
-/

section Components

variable {comps : Table String NodeInfo} {n m : Protort.Node}
  {components : List Parser.Component}

def Kinded (front : List Parser.Component) (m : Protort.Node) : Prop :=
  forall c, c ∈ m.router.components -> exists object,
    m.router.objectAt c = some object ∧
      Components.getComponentKind (kindNameOf front c) = some object.kind

theorem kindNameOf_append_ne {front : List Parser.Component}
    {comp : Parser.Component} {c : String} (h : comp.name ≠ c) :
    kindNameOf (front ++ [comp]) c = kindNameOf front c := by
  unfold kindNameOf
  rw [Lib.lastEntry_append]
  simp [lastEntry, Lib.firstEntry, h]

theorem kindNameOf_append_self (front : List Parser.Component)
    (comp : Parser.Component) :
    kindNameOf (front ++ [comp]) comp.name = comp.kind := by
  unfold kindNameOf
  rw [Lib.lastEntry_append]
  simp [lastEntry, Lib.firstEntry]

theorem deployComponent_kinded {front : List Parser.Component}
    {comp : Parser.Component} {m' : Protort.Node}
    (hbuilt : ComponentsBuilt comps n front m) (h : Kinded front m)
    (hrun : deployComponent comps comp m = EStateM.Result.ok PUnit.unit m') :
    ComponentsBuilt comps n (front ++ [comp]) m' ∧
      Kinded (front ++ [comp]) m' := by
  have hnode := hbuilt.outside.nodeName
  constructor
  · have hkind : (Table.get comps comp.name).name = n.nodeName ->
        (Components.getComponentKind comp.kind).isSome := by
      intro hhere
      cases deployComponent_cases hrun with
      | here kind _ hk =>
          rw [hk]
          rfl
      | elsewhere haway => exact absurd (hhere.trans hnode.symm) haway
    rcases hbuilt.step hkind with ⟨m'', hrun', hstep⟩
    rw [hrun'] at hrun
    cases hrun
    exact hstep
  · cases deployComponent_cases hrun with
    | here kind hhere hk =>
        intro c hc
        by_cases hname : c = comp.name
        · subst c
          refine ⟨newComponent m.next m.router.address kind comp.name, ?_, ?_⟩
          · unfold Router.objectAt
            rw [Table.get_insert, if_pos rfl]
          · rw [kindNameOf_append_self]
            exact hk
        · have hold : c ∈ m.router.components :=
            (Finmap.mem_insert.mp hc).resolve_left hname
          rcases h c hold with ⟨object, hobject, hkind⟩
          refine ⟨object, ?_, ?_⟩
          · unfold Router.objectAt at hobject ⊢
            rw [Table.get_insert, if_neg hname]
            exact hobject
          · rw [kindNameOf_append_ne (Ne.symm hname)]
            exact hkind
    | elsewhere haway =>
        intro c hc
        rcases h c hc with ⟨object, hobject, hkind⟩
        refine ⟨object, hobject, ?_⟩
        rw [kindNameOf_append_ne]
        · exact hkind
        · intro hname
          rcases (hbuilt.mem c).mp hc with ⟨other, _, rfl, hhome⟩
          rw [hname] at haway
          exact haway (hhome.trans hnode.symm)

theorem deployComponents_kinded (hempty : n.router.components = ∅)
    (hrun : components.forM (deployComponent comps) n =
      EStateM.Result.ok PUnit.unit m) :
    ComponentsBuilt comps n components m ∧ Kinded components m := by
  have hstart : Kinded [] n := by
    intro c hc
    rw [hempty] at hc
    exact absurd hc Finmap.notMem_empty
  exact forM_inv_of_ok
    (fun front m => ComponentsBuilt comps n front m ∧ Kinded front m)
    (fun front comp m m' h hrun => deployComponent_kinded h.left h.right hrun)
    ⟨ComponentsBuilt.start hempty, hstart⟩ hrun

theorem deployComponents_returns_iff (hempty : n.router.components = ∅) :
    (exists m, components.forM (deployComponent comps) n =
        EStateM.Result.ok PUnit.unit m) <->
      forall comp, comp ∈ components ->
        (Table.get comps comp.name).name = n.nodeName ->
          (Components.getComponentKind comp.kind).isSome := by
  constructor
  · intro h
    rcases h with ⟨m, hrun⟩
    have hinv := forM_inv_of_ok
      (fun front (m : Protort.Node) => m.nodeName = n.nodeName ∧
        forall comp, comp ∈ front ->
          (Table.get comps comp.name).name = n.nodeName ->
            (Components.getComponentKind comp.kind).isSome)
      (fun front comp m m' h hrun => by
        rcases h with ⟨hnode, hfront⟩
        cases deployComponent_cases hrun with
        | here kind hhere hk =>
            refine ⟨hnode, ?_⟩
            intro other hother hhome
            rcases List.mem_append.mp hother with hold | hnew
            · exact hfront other hold hhome
            · rw [List.mem_singleton.mp hnew, hk]
              rfl
        | elsewhere haway =>
            refine ⟨hnode, ?_⟩
            intro other hother hhome
            rcases List.mem_append.mp hother with hold | hnew
            · exact hfront other hold hhome
            · rcases List.mem_singleton.mp hnew with rfl
              exact absurd (hhome.trans hnode.symm) haway)
      ⟨rfl, fun _ h => absurd h List.not_mem_nil⟩ hrun
    exact hinv.right
  · intro hkinds
    rcases deployComponents_ok comps hempty hkinds with ⟨m, hrun, _⟩
    exact ⟨m, hrun⟩

end Components

/-!
## Connections
-/

section Connections

variable {env : Platform} {comps : Table String NodeInfo}
  {conns : List Parser.Connection} {n m : Protort.Node}

theorem clientFor_spec {info : NodeInfo} {client : Client}
    {n' : Protort.Node}
    (hrun : clientFor env info n = EStateM.Result.ok client n') :
    ClientFor env info n client n' := by
  cases hlookup : n.router.clients.lookup info.name with
  | some other =>
      rw [clientFor_found hlookup] at hrun
      cases hrun
      exact
        { outside := SameOutside.refl n
          components := rfl
          kept := hlookup
          others := fun _ _ => rfl
          old := fun c hc => Option.some.inj (hlookup.symm.trans hc)
          new := fun hnone => by
            rw [hlookup] at hnone
            cases hnone }
  | none =>
      have haddr : (env.fromString info.address).isSome :=
        clientFor_returns_iff.mp ⟨client, n', hrun⟩
          (Finmap.lookup_eq_none.mp hlookup)
      rcases clientFor_ok n haddr with ⟨client', m, hrun', hspec⟩
      rw [hrun'] at hrun
      cases hrun
      exact hspec

/-- The clients after some connections: one for each node that a connection from
here was for, made for the first one. -/
def Opened (env : Platform) (comps : Table String NodeInfo)
    (sources : List String) (node : String) (front : List Parser.Connection)
    (m : Protort.Node) : Prop :=
  forall x, x ≠ node ->
    match front.find? (leavesFor sources (fun c => (Table.get comps c).name)
      x) with
    | some conn => exists client, m.router.clients.lookup x = some client ∧
        LeadsTo env (Table.get comps conn.dest) client.endpoint
    | none => m.router.clients.lookup x = none

variable {sources : List String} {node : String}
  {front : List Parser.Connection} {conn : Parser.Connection}

theorem Opened.skip (h : Opened env comps sources node front m)
    {m' : Protort.Node} (hclients : m'.router.clients = m.router.clients)
    (hnot : forall x, x ≠ node -> leavesFor sources
      (fun c => (Table.get comps c).name) x conn = false) :
    Opened env comps sources node (front ++ [conn]) m' := by
  intro x hx
  have hold := h x hx
  rw [List.find?_append, List.find?_singleton, hnot x hx]
  simp only [Bool.false_eq_true, if_false, Option.or_none]
  rw [hclients]
  exact hold

theorem Opened.ask (h : Opened env comps sources node front m)
    {l m' : Protort.Node} {client : Client} (hsource : conn.source ∈ sources)
    (hclient : ClientFor env (Table.get comps conn.dest) m client l)
    (hclients : m'.router.clients = l.router.clients) :
    Opened env comps sources node (front ++ [conn]) m' := by
  intro x hx
  rw [hclients]
  have hold := h x hx
  rw [List.find?_append, List.find?_singleton]
  by_cases hname : (Table.get comps conn.dest).name = x
  · have hleaves : leavesFor sources (fun c => (Table.get comps c).name) x
        conn = true := decide_eq_true ⟨hsource, hname⟩
    rw [hleaves]
    subst x
    cases hfind : front.find? (leavesFor sources
        (fun c => (Table.get comps c).name)
          (Table.get comps conn.dest).name) with
    | some first =>
        rw [hfind] at hold
        rcases hold with ⟨other, hother, hleads⟩
        exact ⟨other, hclient.lookup_kept hother, hleads⟩
    | none =>
        rw [hfind] at hold
        exact ⟨client, hclient.kept, hclient.new hold⟩
  · have hleaves : leavesFor sources (fun c => (Table.get comps c).name) x
        conn = false := decide_eq_false (fun h => hname h.right)
    rw [hleaves]
    simp only [Bool.false_eq_true, if_false, Option.or_none]
    rw [hclient.others x (Ne.symm hname)]
    exact hold

theorem deployConnection_opened {m' : Protort.Node}
    (hmem : forall c, c ∈ sources <-> c ∈ n.router.components)
    (hdest : conn.source ∈ n.router.components ->
      (Table.get comps conn.dest).name = n.nodeName ->
        conn.dest ∈ n.router.components)
    (hbuilt : RoutesBuilt env comps n front m)
    (hopened : Opened env comps sources n.nodeName front m)
    (hrun : deployConnection env comps conn m =
      EStateM.Result.ok PUnit.unit m') :
    RoutesBuilt env comps n (front ++ [conn]) m' ∧
      Opened env comps sources n.nodeName (front ++ [conn]) m' := by
  have hnode := hbuilt.outside.nodeName
  by_cases hsource : conn.source ∈ n.router.components
  · have hsource' := (hbuilt.mem conn.source).mpr hsource
    by_cases hhere : (Table.get comps conn.dest).name = n.nodeName
    · have hdest' := (hbuilt.mem conn.dest).mpr (hdest hsource hhere)
      rw [deployConnection_local hsource' hdest' (hhere.trans hnode.symm)]
        at hrun
      cases hrun
      refine ⟨hbuilt.step_local hsource hhere, hopened.skip rfl ?_⟩
      intro x hx
      exact decide_eq_false (fun h => hx (h.right.symm.trans hhere))
    · have haway : (Table.get comps conn.dest).name ≠ m.nodeName := by
        rw [hnode]
        exact hhere
      have hreturns := deployConnection_returns_iff.mp ⟨m', hrun⟩
        hsource' haway
      rcases clientFor_returns_iff.mpr hreturns with ⟨client, l, hclient⟩
      rw [deployConnection_remote hsource' haway hclient] at hrun
      cases hrun
      have hspec := clientFor_spec hclient
      exact ⟨hbuilt.step_remote hsource hhere hspec,
        hopened.ask ((hmem _).mpr hsource) hspec rfl⟩
  · have hsource' : conn.source ∉ m.router.components :=
      fun h => hsource ((hbuilt.mem conn.source).mp h)
    rw [deployConnection_elsewhere hsource'] at hrun
    cases hrun
    refine ⟨hbuilt.step_elsewhere hsource, hopened.skip rfl ?_⟩
    intro x _
    exact decide_eq_false (fun h => hsource ((hmem _).mp h.left))

end Connections

/-!
## Both loops
-/

section Loops

variable {env : Platform} {conf : Parser.Configuration} {n m : Protort.Node}

theorem deployLoops_ok_iff (hempty : n.router.components = ∅)
    (hclients : n.router.clients = ∅) :
    (exists m, deployLoops env conf n = EStateM.Result.ok PUnit.unit m) <->
      (forall comp, comp ∈ conf.components ->
        (homeOf conf comp.name).name = n.nodeName ->
          (Components.getComponentKind comp.kind).isSome) ∧
      Wirable env conf n.nodeName := by
  have hkinds := @deployComponents_returns_iff (compToNode conf) n
    conf.components hempty
  unfold deployLoops
  constructor
  · intro h
    rcases h with ⟨m, hrun⟩
    rcases ok_of_bind hrun with ⟨_, k, hcomponents, hconnections⟩
    have hbuilt := (deployComponents_kinded hempty hcomponents).left
    exact ⟨hkinds.mp ⟨k, hcomponents⟩,
      (deployConnections_returns_iff
        (instances_matches hclients hbuilt).left).mp ⟨m, hconnections⟩⟩
  · intro h
    rcases hkinds.mpr h.left with ⟨k, hcomponents⟩
    have hbuilt := (deployComponents_kinded hempty hcomponents).left
    rw [bind_ok hcomponents]
    exact (deployConnections_returns_iff
      (instances_matches hclients hbuilt).left).mpr h.right

/-- What both loops have built, when every connection between components of the
node leads to a component that is declared. -/
theorem deployLoops_configured (hempty : n.router.components = ∅)
    (hclients : n.router.clients = ∅)
    (hdests : DestinationsBuilt conf n.nodeName)
    (hrun : deployLoops env conf n = EStateM.Result.ok PUnit.unit m) :
    SameOutside n m ∧ Configured env conf n.nodeName m.router := by
  rcases ok_of_bind hrun with ⟨_, k, hcomponents, hconnections⟩
  rcases deployComponents_kinded hempty hcomponents with ⟨hbuilt, hkinded⟩
  have hmem : forall c, c ∈ instancesOn conf n.nodeName <->
      c ∈ k.router.components :=
    (instances_matches hclients hbuilt).left.entries
  have hnode : k.nodeName = n.nodeName := hbuilt.outside.nodeName
  have hnone : k.router.clients = ∅ := hbuilt.clients.trans hclients
  have hroutes : RoutesBuilt env (compToNode conf) k [] k :=
    RoutesBuilt.start (fun _ hc => hbuilt.routesAt hc) hnone
  have hopened : Opened env (compToNode conf) (instancesOn conf n.nodeName)
      k.nodeName [] k := by
    intro x _
    show k.router.clients.lookup x = none
    rw [hnone]
    rfl
  have hend := forM_inv_of_mem
    (fun front m => RoutesBuilt env (compToNode conf) k front m ∧
      Opened env (compToNode conf) (instancesOn conf n.nodeName) k.nodeName
        front m)
    (fun front conn m m' hconn h hrun => by
      refine deployConnection_opened hmem ?_ h.left h.right hrun
      intro hsource hhere
      rw [hnode] at hhere
      exact (hmem _).mp (hdests conn hconn ((hmem _).mpr hsource) hhere))
    ⟨hroutes, hopened⟩ hconnections
  rw [List.nil_append] at hend
  rcases hend with ⟨hroutes, hopened⟩
  refine ⟨SameOutside.trans n k m hbuilt.outside hroutes.outside, ?_⟩
  exact
    { built := routerBuilt_of_loops hbuilt hroutes
      kinds := by
        intro c hc
        rcases hkinded c ((hroutes.mem c).mp hc) with
          ⟨object, hobject, hkind⟩
        exact ⟨object, (hroutes.component c).trans hobject, hkind⟩
      opened := by
        intro x conn hx hopening
        have hx' := hopened x (hnode ▸ hx)
        have hfind : conf.connections.find? (leavesFor
            (instancesOn conf n.nodeName)
            (fun c => (Table.get (compToNode conf) c).name) x) = some conn :=
          hopening
        rw [hfind] at hx'
        exact hx' }

structure WiredUp (conf : Parser.Configuration) (node : String)
    (front : List Parser.Connection) (w : Wiring) : Prop where
  entries : forall c, c ∈ w.entries <-> c ∈ instancesOn conf node
  clients : forall conn, conn ∈ front -> conn.source ∈ instancesOn conf node ->
    (homeOf conf conn.dest).name ≠ node ->
      (homeOf conf conn.dest).name ∈ w.clients

section Wiring

variable {node : String} {front back : List Parser.Connection}
  {conn : Parser.Connection} {w : Wiring}

theorem WiredUp.check (h : WiredUp conf node front w)
    (hsplit : conf.connections = front ++ conn :: back)
    (hopening : forall x conn, x ≠ node -> opening conf node x = some conn ->
      (env.fromString (homeOf conf conn.dest).address).isSome) :
    w.check env (compToNode conf) node conn := by
  intro hsource haway hclient
  apply hopening _ conn haway
  unfold opening
  rw [hsplit, List.find?_append]
  have hfront : front.find? (leavesFor (instancesOn conf node)
      (fun c => (homeOf conf c).name)
        (Table.get (compToNode conf) conn.dest).name) = none := by
    apply List.find?_eq_none.mpr
    intro other hother hleaves
    rcases of_decide_eq_true hleaves with ⟨hfrom, hhome⟩
    have hfor : (homeOf conf other.dest).name =
        (Table.get (compToNode conf) conn.dest).name := hhome
    apply hclient
    rw [← hfor]
    refine h.clients other hother hfrom ?_
    rw [hfor]
    exact haway
  rw [hfront, Option.none_or, List.find?_cons_of_pos]
  exact decide_eq_true ⟨(h.entries _).mp hsource, rfl⟩

theorem WiredUp.next (h : WiredUp conf node front w)
    (hdest : conn.source ∈ instancesOn conf node ->
      (homeOf conf conn.dest).name = node ->
        conn.dest ∈ instancesOn conf node) :
    WiredUp conf node (front ++ [conn])
      (w.next (compToNode conf) node conn) := by
  unfold Wiring.next
  constructor
  · intro c
    by_cases hsource : conn.source ∈ w.entries
    · rw [if_pos hsource]
      by_cases hhere : (Table.get (compToNode conf) conn.dest).name = node
      · rw [if_pos hhere]
        have hbuilt := hdest ((h.entries _).mp hsource) hhere
        rw [List.mem_cons, h.entries]
        exact or_iff_right_of_imp (fun hc => hc ▸ hbuilt)
      · rw [if_neg hhere]
        exact h.entries c
    · rw [if_neg hsource]
      exact h.entries c
  · intro other hother hfrom haway
    rcases List.mem_append.mp hother with hfront | hlast
    · have hmem := h.clients other hfront hfrom haway
      split_ifs
      · exact hmem
      · exact List.mem_cons_of_mem _ hmem
      · exact hmem
    · rcases List.mem_singleton.mp hlast with rfl
      have hhere : ¬ (Table.get (compToNode conf) other.dest).name = node :=
        haway
      rw [if_pos ((h.entries _).mpr hfrom), if_neg hhere]
      exact List.mem_cons_self

/-- The connections of a node can be made when the first one to each other node
has an address that can be read. -/
theorem wirable_of_opening (hdests : DestinationsBuilt conf node)
    (h : forall x conn, x ≠ node -> opening conf node x = some conn ->
      (env.fromString (homeOf conf conn.dest).address).isSome) :
    Wirable env conf node := by
  refine @passes_of_inv _ _ _ _ (WiredUp conf node) conf.connections [] _ ?_
    ⟨fun _ => Iff.rfl, fun _ hnone => absurd hnone List.not_mem_nil⟩
  intro front conn back w hsplit hwired
  have hsplit' : conf.connections = front ++ conn :: back := hsplit
  refine ⟨hwired.check hsplit' h, hwired.next (hdests conn ?_)⟩
  rw [hsplit']
  exact List.mem_append_right front List.mem_cons_self

end Wiring

end Loops

end Node
end Protort
