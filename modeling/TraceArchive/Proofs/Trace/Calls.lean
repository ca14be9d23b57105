import TraceArchive.Proofs.Report.Roles
import TraceArchive.Proofs.Trace.Distinct
import TraceArchive.Proofs.Tree.SingleRoot

set_option autoImplicit false

/-!
Calls in the tree of a trace. Every node tells of at most one call: a client of a call to its peer,
a server of a call by its peer or by the nearest server above it. A call whose sides go by one span
id is at one node; where the server has a span id of its own, both nodes tell of the call.
-/

namespace TraceArchive

namespace Tree

variable {tree : Tree Role} {e : Edge} {i : Nat} {role : Role}

/-- The edge to which a node adds, if it adds to one. -/
def edge? (tree : Tree Role) (i : Nat) : Option Edge :=
  (tree.value? i).bind fun role => (Trace.edgeAt tree i role).toOption

/-- Who calls a server: its peer, or else the nearest server above it. -/
def caller? (tree : Tree Role) (i : Nat) (server : Role) : Option String :=
  server.peer.or (Trace.serverAbove? tree i)

/-- A client at a node tells of a call to its peer. -/
def SentAt (tree : Tree Role) (e : Edge) (i : Nat) : Prop :=
  ∃ client, tree.value? i = some client ∧ client.kind = some .client
    ∧ client.service = some e.parent ∧ client.peer = some e.child

/-- A server at a node tells of a call by its caller. -/
def ReceivedAt (tree : Tree Role) (e : Edge) (i : Nat) : Prop :=
  ∃ server, tree.value? i = some server ∧ server.kind = some .server
    ∧ tree.caller? i server = some e.parent ∧ server.service = some e.child

instance (tree : Tree Role) (e : Edge) (i : Nat) : Decidable (tree.ReceivedAt e i) :=
  decidable_of_iff ((tree.value? i).any (fun server => server.kind = some .server
      ∧ tree.caller? i server = some e.parent ∧ server.service = some e.child) = true)
    (by cases h : tree.value? i <;> simp [ReceivedAt, h])

/-- The nodes that tell of a call from one service to another. -/
def nodesOn (tree : Tree Role) (e : Edge) : List Nat :=
  (List.range tree.size).filter fun i => tree.edge? i = some e

/-- The servers right below a node that tell of a call from one service to another. -/
def receivedBelow (tree : Tree Role) (e : Edge) (i : Nat) : List Nat :=
  (tree.childrenOf i).filter fun j => tree.ReceivedAt e j

theorem toOption_edge_eq_some_iff {parent child : Option String} :
    (Trace.edgeAt.edge role parent child).toOption = some e
      ↔ parent = some e.parent ∧ child = some e.child := by
  obtain ⟨p, c⟩ := e
  cases parent <;> cases child <;> simp [Trace.edgeAt.edge, Except.toOption]

theorem edge?_eq_of_value? (h : tree.value? i = some role) :
    tree.edge? i = (Trace.edgeAt tree i role).toOption := by
  rw [edge?, h, Option.bind_some]

theorem edge?_eq_none_of_kind (h : tree.value? i = some role) (hkind : role.kind = none) :
    tree.edge? i = none := by
  rw [edge?_eq_of_value? h, Trace.edgeAt, hkind]
  rfl

theorem edge?_client_eq_some_iff (h : tree.value? i = some role)
    (hkind : role.kind = some .client) :
    tree.edge? i = some e ↔ role.service = some e.parent ∧ role.peer = some e.child := by
  rw [edge?_eq_of_value? h, Trace.edgeAt, hkind]
  exact toOption_edge_eq_some_iff

theorem Linked.serverAbove?_zero (hlinked : tree.Linked) : Trace.serverAbove? tree 0 = none := by
  have htop : tree.parent? 0 = none := (hlinked.parent_none 0 tree.size_pos).2 rfl
  rw [Trace.serverAbove?, ancestors_eq, htop, follow_none]
  rfl

/-- At the root there is no server above, so its unknown peer needs no rule of its own. -/
theorem Linked.edge?_server_eq_some_iff (hlinked : tree.Linked) (h : tree.value? i = some role)
    (hkind : role.kind = some .server) :
    tree.edge? i = some e ↔ tree.caller? i role = some e.parent ∧ role.service = some e.child := by
  rw [edge?_eq_of_value? h, Trace.edgeAt, hkind]
  dsimp only
  split
  · next hroot =>
    obtain ⟨hpeer, rfl⟩ := hroot
    have hcaller : tree.caller? 0 role = none := by
      rw [caller?, hlinked.serverAbove?_zero, Option.isNone_iff_eq_none.1 hpeer, Option.or_none]
    simp [hcaller, Except.toOption]
  · exact toOption_edge_eq_some_iff

namespace Linked

variable (hlinked : tree.Linked)

include hlinked

theorem edge?_eq_some_iff : tree.edge? i = some e ↔ tree.SentAt e i ∨ tree.ReceivedAt e i := by
  constructor
  · intro h
    obtain ⟨role, hrole, -⟩ := Option.bind_eq_some_iff.1 h
    cases hkind : role.kind with
    | none => simp [edge?_eq_none_of_kind hrole hkind] at h
    | some kind =>
      cases kind with
      | client => exact .inl ⟨role, hrole, hkind, (edge?_client_eq_some_iff hrole hkind).1 h⟩
      | server =>
        exact .inr ⟨role, hrole, hkind, (hlinked.edge?_server_eq_some_iff hrole hkind).1 h⟩
  · rintro (⟨client, hclient, hkind, h⟩ | ⟨server, hserver, hkind, h⟩)
    · exact (edge?_client_eq_some_iff hclient hkind).2 h
    · exact (hlinked.edge?_server_eq_some_iff hserver hkind).2 h

theorem mem_nodesOn_iff : i ∈ tree.nodesOn e ↔ tree.SentAt e i ∨ tree.ReceivedAt e i := by
  rw [← hlinked.edge?_eq_some_iff, nodesOn, List.mem_filter, List.mem_range, decide_eq_true_eq]
  refine ⟨fun h => h.2, fun h => ⟨?_, h⟩⟩
  obtain ⟨role, hrole, -⟩ := Option.bind_eq_some_iff.1 h
  obtain ⟨node, hnode, -⟩ := Option.bind_eq_some_iff.1 hrole
  exact (List.getElem?_eq_some_iff.1 hnode).1

/-- A client and the servers right below it are different nodes. -/
theorem length_receivedBelow_lt (hsent : tree.SentAt e i) :
    (tree.receivedBelow e i).length < (tree.nodesOn e).length := by
  have hnot : i ∉ tree.receivedBelow e i := by
    intro hi
    obtain ⟨server, hserver, hkind, -⟩ := by simpa using (List.mem_filter.1 hi).2
    obtain ⟨client, hclient, hkind', -⟩ := hsent
    rw [hserver] at hclient
    obtain rfl := Option.some.inj hclient
    rw [hkind] at hkind'
    cases hkind'
  have hnodup : (i :: tree.receivedBelow e i).Nodup :=
    List.nodup_cons.2 ⟨hnot, (hlinked.nodup_children i).filter _⟩
  apply hnodup.length_le_of_subset
  intro j hj
  rw [hlinked.mem_nodesOn_iff]
  rcases List.mem_cons.1 hj with rfl | hj
  · exact .inl hsent
  · exact .inr (by simpa using (List.mem_filter.1 hj).2)

end Linked

end Tree

/-! The tree of a trace. -/

namespace Trace

variable (trace : Trace)

/-- The tree over which the calls of a trace are found. -/
def callTree : Tree Role := (Assembly.ofList "" (roles trace)).value

theorem exists_callAssembly : ∃ a : Assembly Role, a.Consistent ∧ a.tree = callTree trace
    ∧ a.entries.Sublist (roles trace) := by
  refine ⟨_, (Assembly.consistent_empty "").addAll (roles trace), rfl, ?_⟩
  rw [Assembly.entries_addAll]
  exact Assembly.accepted_sublist _ _

theorem linked_callTree : trace.callTree.Linked := by
  obtain ⟨a, hconsistent, htree, -⟩ := exists_callAssembly trace
  exact htree ▸ hconsistent.linked_tree

/-- The calls of a trace are those that its nodes tell of, in the order of the walk. -/
theorem value_edges : trace.edges.value = trace.callTree.order.filterMap trace.callTree.edge? := by
  cases trace with
  | nil =>
    have hroles : roles [] = [] := by simp [roles, mergeById, sortByTime]
    rw [callTree, hroles]
    rfl
  | cons first rest =>
    rw [callTree, Assembly.value_ofList_eq "" first.traceId.toHex]
    show ((Tree.walk _ _).filterMap _).filterMap _ = _
    rw [List.filterMap_filterMap]
    apply List.filterMap_congr
    intro i _
    generalize (Assembly.ofList first.traceId.toHex (roles (first :: rest))).value = tree
    show ((tree.value? i).map _).bind _ = (tree.value? i).bind _
    cases tree.value? i with
    | none => rfl
    | some role =>
      show Option.bind (some (edgeAt tree i role)) _ = (edgeAt tree i role).toOption
      cases edgeAt tree i role <;> rfl

theorem length_nodesOn (e : Edge) :
    (trace.callTree.nodesOn e).length = trace.edges.value.count e := by
  have hcount : trace.edges.value.count e
      = trace.callTree.order.countP fun i => trace.callTree.edge? i = some e := by
    rw [value_edges, List.count_filterMap]
    exact List.countP_congr fun i _ => by simp
  rw [hcount, trace.linked_callTree.order_perm.countP_eq, List.countP_eq_length_filter]
  rfl

/-- A node is told apart by the span id of its role. -/
theorem eq_of_id_role_eq {i j : Nat} {r s : Role} (hi : trace.callTree.value? i = some r)
    (hj : trace.callTree.value? j = some s) (hid : r.id = s.id) : i = j := by
  obtain ⟨a, hconsistent, htree, hsub⟩ := exists_callAssembly trace
  have hown : ∀ e ∈ a.entries, e.value.id = e.id := by
    intro e he
    obtain ⟨m, -, rfl⟩ := List.mem_map.1 (hsub.subset he)
    exact m.id_role
  rw [← htree] at hi hj
  obtain ⟨e, he, rfl, hnode⟩ := hconsistent.exists_entry hi
  obtain ⟨f, hf, rfl, hnode'⟩ := hconsistent.exists_entry hj
  rw [hown e he, hown f hf] at hid
  exact Option.some.inj (hnode.symm.trans (hid ▸ hnode'))

end Trace

namespace CallCounts

theorem count_add (counts : CallCounts) (e f : Edge) :
    (counts.add f).count e = counts.count e + if f = e then 1 else 0 := by
  rw [count, add, SortedMap.get?_insert]
  split
  · next h => rw [Option.getD_some, if_pos h.symm, h]
  · next h => rw [if_neg (Ne.symm h), count, Nat.add_zero]

theorem count_foldl_add (counts : CallCounts) (es : List Edge) (e : Edge) :
    (es.foldl add counts).count e = counts.count e + es.count e := by
  induction es generalizing counts with
  | nil => rfl
  | cons f es ih =>
    rw [List.foldl_cons, ih, count_add, List.count_cons]
    simp only [beq_iff_eq]
    omega

theorem count_value_addTrace (counts : CallCounts) (trace : Trace) (e : Edge) :
    (counts.addTrace trace).value.count e
      = counts.count e + (trace.callTree.nodesOn e).length := by
  rw [trace.length_nodesOn e]
  exact count_foldl_add counts trace.edges.value e

/-- What a trace adds to an edge is the number of nodes that tell of a call on it: clients that know
their peer, and servers with a known caller. A client tells of its call whatever hangs below it, so
the call counts once more for each server right below that tells of it under a span id of its own.
Sides that go by one span id are one node. The counts are natural numbers, which counters of 64 bits
tell as long as they stay below `2 ^ 64`. -/
theorem count_addTrace (counts : CallCounts) (trace : Trace) :
    let tree := trace.callTree
    let counts' := (counts.addTrace trace).value
    (∀ e, counts'.count e = counts.count e + (tree.nodesOn e).length)
      ∧ (∀ e i, i ∈ tree.nodesOn e ↔ tree.SentAt e i ∨ tree.ReceivedAt e i)
      ∧ (∀ e i, tree.SentAt e i →
          counts.count e + 1 + (tree.receivedBelow e i).length ≤ counts'.count e)
      ∧ ∀ i j r s, tree.value? i = some r → tree.value? j = some s → r.id = s.id → i = j := by
  intro tree counts'
  have hlinked : tree.Linked := trace.linked_callTree
  have hcount : ∀ e, counts'.count e = counts.count e + (tree.nodesOn e).length :=
    counts.count_value_addTrace trace
  refine ⟨hcount, fun e i => hlinked.mem_nodesOn_iff, ?_, fun i j r s => trace.eq_of_id_role_eq⟩
  intro e i hsent
  have hbelow := hlinked.length_receivedBelow_lt hsent
  rw [hcount]
  omega

/-- A server that knows who called it, a call from it, and the same call as the called server tells
of it under a span id of its own. -/
def calledTwice : Trace := [
  { traceId := ⟨0, 1⟩
    id := 1
    name := some "get"
    timestamp := some 10
    duration := some 90
    events := [
      { timestamp := 10, value := "sr", endpoint := some { service := "web" } },
      { timestamp := 100, value := "ss", endpoint := some { service := "web" } }]
    tags := [Tag.address Tag.clientAddress { service := "browser" }] },
  { traceId := ⟨0, 1⟩
    id := 2
    parentId := some 1
    name := some "query"
    timestamp := some 20
    duration := some 50
    events := [
      { timestamp := 20, value := "cs", endpoint := some { service := "web" } },
      { timestamp := 70, value := "cr", endpoint := some { service := "web" } }]
    tags := [Tag.address Tag.serverAddress { service := "db" }] },
  { traceId := ⟨0, 1⟩
    id := 3
    parentId := some 2
    name := some "query"
    timestamp := some 30
    duration := some 30
    events := [
      { timestamp := 30, value := "sr", endpoint := some { service := "db" } },
      { timestamp := 60, value := "ss", endpoint := some { service := "db" } }] }]

theorem callTree_calledTwice : calledTwice.callTree = (Assembly.ofList "" (calledTwice.map fun r =>
    { parentId := r.parentId, id := r.id, value := r.role })).value := by
  have hmerged : Trace.mergeById calledTwice = calledTwice := by
    rw [Trace.mergeById_of_nodup (by decide), Trace.sortByTime_eq_self (by decide)]
    decide +kernel
  rw [Trace.callTree, Trace.roles, hmerged]

theorem nodesOn_calledTwice : calledTwice.callTree.nodesOn ⟨"web", "db"⟩ = [1, 2] := by
  rw [callTree_calledTwice]
  decide +kernel

theorem count_addTrace_calledTwice :
    calledTwice.callTree.SentAt ⟨"web", "db"⟩ 1
      ∧ calledTwice.callTree.receivedBelow ⟨"web", "db"⟩ 1 = [2]
      ∧ calledTwice.callTree.nodesOn ⟨"web", "db"⟩ = [1, 2]
      ∧ 2 ≤ (addTrace .empty calledTwice).value.count ⟨"web", "db"⟩
      ∧ (addTrace .empty calledTwice).value.count ⟨"web", "db"⟩ = 2 := by
  have hsent : calledTwice.callTree.SentAt ⟨"web", "db"⟩ 1 := by
    rw [callTree_calledTwice]
    exact ⟨⟨2, some .client, some "web", some "db"⟩, by decide +kernel, rfl, rfl, rfl⟩
  have hbelow : calledTwice.callTree.receivedBelow ⟨"web", "db"⟩ 1 = [2] := by
    rw [callTree_calledTwice]
    decide +kernel
  obtain ⟨hcount, -, hclient, -⟩ := count_addTrace .empty calledTwice
  have htwice := hclient ⟨"web", "db"⟩ 1 hsent
  rw [hbelow] at htwice
  have hsum := hcount ⟨"web", "db"⟩
  rw [nodesOn_calledTwice] at hsum
  exact ⟨hsent, hbelow, nodesOn_calledTwice, htwice, hsum⟩

/-- The node of a client tells of its call also where the server has a node of its own. -/
theorem not_edge?_eq_none :
    ¬ ∀ (trace : Trace) (i j : Nat) (client server : Role) (service : String),
      trace.callTree.value? i = some client → client.kind = some .client →
      client.peer = some service → j ∈ trace.callTree.childrenOf i →
      trace.callTree.value? j = some server → server.kind = some .server →
      server.service = some service → trace.callTree.edge? i = none := by
  intro h
  have hnone := h calledTwice 1 2 ⟨2, some .client, some "web", some "db"⟩
    ⟨3, some .server, some "db", none⟩ "db"
  rw [callTree_calledTwice] at hnone
  have hedge := hnone (by decide +kernel) rfl rfl (by decide +kernel) (by decide +kernel) rfl rfl
  exact absurd hedge (by decide +kernel)

end CallCounts

end TraceArchive
