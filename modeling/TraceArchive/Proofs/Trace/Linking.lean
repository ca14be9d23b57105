import Mathlib.Data.List.Dedup
import Mathlib.Data.List.Perm.Basic
import TraceArchive.Proofs.Trace.Calls
import TraceArchive.Proofs.Trace.Counting

set_option autoImplicit false

/-!
The links of a trace. A trace adds at most one call for each of its span ids, always between
services that endpoints of its reports belong to; and where no span id is taken twice, the calls do
not depend on the order of the reports.
-/

namespace TraceArchive

namespace Trace

variable {trace : Trace} {service : String}

/-- A service with a name that some endpoint of the reports belongs to. -/
def Names (trace : Trace) (service : String) : Prop :=
  service ≠ "" ∧ ∃ r ∈ trace, ∃ e ∈ r.endpoints, e.service = service

/-- The services in roles come from endpoints, through the merged reports. -/
theorem names_of_role {i : Nat} {role : Role} (hrole : trace.callTree.value? i = some role)
    (h : role.service = some service ∨ role.peer = some service) : trace.Names service := by
  obtain ⟨a, hconsistent, htree, hsub⟩ := exists_callAssembly trace
  rw [← htree] at hrole
  obtain ⟨entry, hentry, rfl, -⟩ := hconsistent.exists_entry hrole
  obtain ⟨m, hm, rfl⟩ := List.mem_map.1 (hsub.subset hentry)
  obtain ⟨e, he, hservice⟩ := m.exists_endpoint_of_role h
  obtain ⟨hne, rfl⟩ := Endpoint.service?_eq_some_iff.1 hservice
  obtain ⟨r, ⟨hr, -⟩, he⟩ := ((merged_mergeById trace).sums m hm).exists_endpoint he
  exact ⟨hne, r, hr, e, he, rfl⟩

theorem names_of_serverAbove? {i : Nat} (h : serverAbove? trace.callTree i = some service) :
    trace.Names service := by
  obtain ⟨server, hserver, hservice⟩ := Option.bind_eq_some_iff.1 h
  obtain ⟨j, -, hj⟩ := List.mem_filterMap.1 (List.mem_of_find?_eq_some hserver)
  exact names_of_role hj (.inl hservice)

theorem names_of_mem_edges {e : Edge} (h : e ∈ trace.edges.value) :
    trace.Names e.parent ∧ trace.Names e.child := by
  rw [value_edges] at h
  obtain ⟨i, -, hi⟩ := List.mem_filterMap.1 h
  rcases trace.linked_callTree.edge?_eq_some_iff.1 hi with
    ⟨client, hclient, -, hservice, hpeer⟩ | ⟨server, hserver, -, hcaller, hservice⟩
  · exact ⟨names_of_role hclient (.inl hservice), names_of_role hclient (.inr hpeer)⟩
  · refine ⟨?_, names_of_role hserver (.inl hservice)⟩
    rcases Option.or_eq_some_iff.1 hcaller with hpeer | ⟨-, habove⟩
    · exact names_of_role hserver (.inr hpeer)
    · exact names_of_serverAbove? habove

/-- A node without a role tells of no call. -/
theorem length_edges_le_values (trace : Trace) :
    trace.edges.value.length ≤ trace.callTree.values.length := by
  rw [value_edges, trace.linked_callTree.values_eq, List.length_filterMap_eq_countP,
    List.length_filterMap_eq_countP]
  apply List.countP_mono_left
  intro i _ hi
  obtain ⟨e, he⟩ := Option.isSome_iff_exists.1 hi
  obtain ⟨role, hrole, -⟩ := Option.bind_eq_some_iff.1 he
  exact Option.isSome_iff_exists.2 ⟨role, hrole⟩

/-- There is at most one call for each span id. -/
theorem length_edges_le (trace : Trace) :
    trace.edges.value.length ≤ (trace.map (·.id)).dedup.length := by
  obtain ⟨a, hconsistent, htree, hsub⟩ := exists_callAssembly trace
  have hmerged := merged_mergeById trace
  calc trace.edges.value.length
    _ ≤ trace.callTree.values.length := trace.length_edges_le_values
    _ = a.entries.length := by
      rw [← htree, hconsistent.values_tree_perm.length_eq, List.length_map]
    _ ≤ (roles trace).length := hsub.length_le
    _ = ((mergeById trace).map (·.id)).length := by
      rw [roles, List.length_map, List.length_map]
    _ ≤ (trace.map (·.id)).dedup.length := by
      apply hmerged.once.length_le_of_subset
      intro id hid
      exact List.mem_dedup.2 ((hmerged.ids id).1 hid)

/-- Where no span id is taken twice, the calls do not depend on the order of the reports. -/
theorem edges_of_perm {trace' : Trace} (hids : (trace.map (·.id)).Nodup) (h : trace'.Perm trace) :
    trace'.edges.value = trace.edges.value := by
  rw [value_edges, value_edges, callTree, callTree, roles_of_perm hids h]

end Trace

namespace CallCounts

/-- The number of all calls that were counted. -/
def total (counts : CallCounts) : Nat := counts.values.foldr (· + ·) 0

theorem total_insert (counts : CallCounts) (e : Edge) (n : Nat) : total (counts.insert e n)
    = n + ((counts.entries.filter fun x => x.1 ≠ e).map Prod.snd).foldr (· + ·) 0 :=
  ((counts.entries_insert_perm e n).map Prod.snd).foldr_op_eq

theorem total_add (counts : CallCounts) (e : Edge) : (counts.add e).total = counts.total + 1 := by
  rw [add, total_insert]
  cases hget : counts.get? e with
  | some n =>
    have hbefore := counts.total_insert e n
    rw [SortedMap.insert_eq_self hget] at hbefore
    rw [hbefore, count, hget, Option.getD_some]
    omega
  | none =>
    have hothers : (counts.entries.filter fun x => x.1 ≠ e) = counts.entries := by
      rw [List.filter_eq_self]
      intro x hx
      have hx : x.1 ∈ counts.keys := List.mem_map_of_mem hx
      have hne : x.1 ≠ e := ne_of_mem_of_not_mem hx (SortedMap.get?_eq_none_iff.1 hget)
      simpa using hne
    rw [hothers, count, hget, Option.getD_none, Nat.add_comm, Nat.zero_add]
    rfl

theorem total_foldl_add (counts : CallCounts) (es : List Edge) :
    (es.foldl add counts).total = counts.total + es.length := by
  induction es generalizing counts with
  | nil => rfl
  | cons e es ih =>
    rw [List.foldl_cons, ih, total_add, List.length_cons]
    omega

/-- A trace adds at most one call for each of its span ids and takes none away. Each edge that it
adds to is between services with a name that endpoints of its reports belong to. The counts are
natural numbers: counters of 64 bits tell them as long as their total stays below `2 ^ 64`. -/
theorem addTrace_sound (counts : CallCounts) (trace : Trace) :
    let counts' := (counts.addTrace trace).value
    counts'.total ≤ counts.total + (trace.map (·.id)).dedup.length
      ∧ (∀ e, counts.count e ≤ counts'.count e)
      ∧ ∀ e, counts.count e < counts'.count e → trace.Names e.parent ∧ trace.Names e.child := by
  intro counts'
  have hcount : ∀ e, counts'.count e = counts.count e + trace.edges.value.count e :=
    counts.count_foldl_add trace.edges.value
  refine ⟨?_, ?_, ?_⟩
  · have htotal : counts'.total = counts.total + trace.edges.value.length :=
      counts.total_foldl_add trace.edges.value
    have hlength := trace.length_edges_le
    omega
  · intro e
    rw [hcount]
    exact Nat.le_add_right ..
  · intro e hmore
    rw [hcount] at hmore
    apply Trace.names_of_mem_edges
    apply List.count_pos_iff.1
    omega

theorem addTrace_sound_calledTwice :
    let counts' := (addTrace .empty calledTwice).value
    counts'.total ≤ 3 ∧ count .empty ⟨"web", "db"⟩ < counts'.count ⟨"web", "db"⟩
      ∧ calledTwice.Names "web" ∧ calledTwice.Names "db" := by
  intro counts'
  obtain ⟨htotal, -, hnames⟩ := addTrace_sound .empty calledTwice
  have hmore : count .empty ⟨"web", "db"⟩ < counts'.count ⟨"web", "db"⟩ := by
    rw [count_value_addTrace, nodesOn_calledTwice]
    decide
  exact ⟨htotal, hmore, hnames ⟨"web", "db"⟩ hmore⟩

/-- Where no span id is taken twice, a trace adds the same calls in whatever order its reports
come, however their parents hang together and whichever of them tell a high half. -/
theorem addTrace_of_perm (counts : CallCounts) {trace trace' : Trace}
    (hids : (trace.map (·.id)).Nodup) (h : trace'.Perm trace) :
    (counts.addTrace trace').value = (counts.addTrace trace).value := by
  show trace'.edges.value.foldl add counts = trace.edges.value.foldl add counts
  rw [Trace.edges_of_perm hids h]

/-- Two calls that claim to be the parents of each other, a call without a parent that is there, and
two that claim to be the root, only one of which tells a high half. -/
def tangled : Trace := [
  { sharedCall with id := 1, parentId := some 2 },
  { addressedCall with traceId := ⟨9, 1⟩, id := 2, parentId := some 1 },
  { sharedCall with id := 3, parentId := some 8 },
  { addressedCall with traceId := ⟨0, 1⟩, id := 4 },
  { sharedCall with traceId := ⟨7, 1⟩, id := 5 }]

theorem addTrace_of_perm_tangled :
    (tangled.map (·.id)).Nodup ∧ tangled.reverse.Perm tangled
      ∧ (addTrace .empty tangled.reverse).value = (addTrace .empty tangled).value := by
  have hids : (tangled.map (·.id)).Nodup := by decide
  have hperm : tangled.reverse.Perm tangled := List.reverse_perm tangled
  exact ⟨hids, hperm, addTrace_of_perm .empty hids hperm⟩

end CallCounts

end TraceArchive
