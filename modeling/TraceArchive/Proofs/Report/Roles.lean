import TraceArchive.Proofs.Report.Division
import TraceArchive.Trace.Linker

set_option autoImplicit false

/-!
The role of a report in a call. Whatever services a role tells are services of endpoints of the
report itself, and they have a name. A report with both sides of a call is the server's, called by
the client's service.
-/

namespace TraceArchive

theorem Endpoint.service?_eq_some_iff {e : Endpoint} {service : String} :
    e.service? = some service ↔ service ≠ "" ∧ e.service = service := by
  unfold service?
  split
  · next h => simp [h, eq_comm]
  · next h =>
    constructor
    · intro hs
      obtain rfl := Option.some.inj hs
      exact ⟨h, rfl⟩
    · rintro ⟨-, rfl⟩
      rfl

namespace Report

variable {r : Report} {e : Endpoint}

theorem endpoint_mem_of_moment? {core : CoreEvent} {m : Moment} (h : r.moment? core = some m) :
    m.endpoint ∈ r.endpoints :=
  mem_endpoints.2 (.inl ⟨_, event_mem_of_moment? h, rfl⟩)

theorem mem_endpoints_of_flagged? {key : String} (h : r.flagged? key = some e) :
    e ∈ r.endpoints := by
  obtain ⟨t, ht, -, hend⟩ := exists_flag_of_flagged? h
  exact mem_endpoints.2 (.inr ⟨t, mem_tags_iff.2 (.inr ht), hend⟩)

theorem mem_endpoints_of_addressOnly? {ca sa : Endpoint} (h : r.addressOnly? = some (ca, sa)) :
    ca ∈ r.endpoints ∧ sa ∈ r.endpoints := by
  unfold addressOnly? at h
  split at h
  · next hca hsa =>
    obtain ⟨rfl, rfl⟩ := Prod.mk.inj (Option.some.inj h)
    exact ⟨mem_endpoints_of_flagged? hca, mem_endpoints_of_flagged? hsa⟩
  · cases h

theorem mem_endpoints_of_hosts (h : e ∈ r.hosts) : e ∈ r.endpoints := by
  rw [mem_endpoints]
  rcases List.mem_append.1 (mem_onePerService h) with h | h
  · rcases List.mem_append.1 h with h | h
    · obtain ⟨event, hevent, hend⟩ := List.mem_filterMap.1 h
      exact .inl ⟨event, hevent, hend⟩
    · obtain ⟨t, ht, hend⟩ := List.mem_filterMap.1 h
      exact .inr ⟨t, List.mem_of_mem_filter ht, hend⟩
  · obtain ⟨⟨ca, sa⟩, haddress, rfl⟩ := List.mem_map.1 h
    exact mem_endpoints.1 (mem_endpoints_of_addressOnly? (Option.mem_toList.1 haddress)).1

theorem mem_endpoints_of_remoteAt {home : Home} (h : r.remoteAt home = some e) :
    e ∈ r.endpoints := by
  unfold remoteAt at h
  split at h
  · next ca sa haddress =>
    obtain ⟨-, h⟩ := Option.ite_none_right_eq_some.1 h
    exact Option.some.inj h ▸ (mem_endpoints_of_addressOnly? haddress).2
  · rw [Option.or_eq_some_iff, other_eq_some_iff, other_eq_some_iff] at h
    rcases h with ⟨-, -, -, hflag, -⟩ | ⟨-, -, -, -, hflag, -⟩ <;>
      exact mem_endpoints_of_flagged? hflag

/-! The endpoints of the spans, and the services of the role. -/

theorem mem_endpoints_of_localEndpoint {s : Span} (hs : s ∈ r.toSpans)
    (h : s.localEndpoint = some e) : e ∈ r.endpoints := by
  rcases mem_toSpans_iff.1 hs with ⟨home, hhome, rfl⟩ | hloop
  · have hend : home.endpoint = some e := h
    cases hhosts : r.hosts with
    | nil =>
      rw [homes, hhosts, Home.ofHosts, List.mem_singleton] at hhome
      rw [hhome] at hend
      cases hend
    | cons f hosts =>
      obtain ⟨f, hf, hfend⟩ := Home.exists_of_mem_ofHosts hhome (by simp [hhosts])
      obtain rfl := Option.some.inj (hfend.symm.trans hend)
      exact mem_endpoints_of_hosts hf
  · obtain ⟨send, receive, reply, done, hcall, -, rfl⟩ := exists_of_loopback? hloop
    obtain rfl := Option.some.inj h
    exact endpoint_mem_of_moment? (moment?_of_call hcall).2

theorem mem_endpoints_of_remoteEndpoint {s : Span} (hs : s ∈ r.toSpans)
    (h : s.remoteEndpoint = some e) : e ∈ r.endpoints := by
  rcases mem_toSpans_iff.1 hs with ⟨home, -, rfl⟩ | hloop
  · exact mem_endpoints_of_remoteAt h
  · obtain ⟨send, receive, reply, done, -, -, rfl⟩ := exists_of_loopback? hloop
    cases h

theorem role_of_server {server : Span}
    (h : r.toSpans.find? (·.kind == some .server) = some server) : r.role = {
      id := r.id
      kind := some .server
      service := server.localService?
      peer := ((r.toSpans.find? (·.kind == some .client)).bind (·.localService?)).or
        server.remoteService? } := by
  simp only [role, h]

theorem role_of_client {client : Span} (h : r.toSpans.find? (·.kind == some .server) = none)
    (hclient : r.toSpans.find? (·.kind == some .client) = some client) : r.role = {
      id := r.id
      kind := some .client
      service := client.localService?
      peer := client.remoteService? } := by
  simp only [role, h, hclient]

theorem role_of_none (h : r.toSpans.find? (·.kind == some .server) = none)
    (hclient : r.toSpans.find? (·.kind == some .client) = none) : r.role = { id := r.id } := by
  simp only [role, h, hclient]

theorem id_role (r : Report) : r.role.id = r.id := by
  unfold role
  dsimp only
  split <;> rfl

/-- Service and peer of the role belong to endpoints of the report. -/
theorem exists_endpoint_of_role {service : String}
    (h : r.role.service = some service ∨ r.role.peer = some service) :
    ∃ e ∈ r.endpoints, e.service? = some service := by
  have named : ∀ s ∈ r.toSpans,
      s.localService? = some service ∨ s.remoteService? = some service →
        ∃ e ∈ r.endpoints, e.service? = some service := by
    intro s hs hservice
    rcases hservice with hservice | hservice
    · obtain ⟨e, he, hservice⟩ := Option.bind_eq_some_iff.1 hservice
      exact ⟨e, mem_endpoints_of_localEndpoint hs he, hservice⟩
    · obtain ⟨e, he, hservice⟩ := Option.bind_eq_some_iff.1 hservice
      exact ⟨e, mem_endpoints_of_remoteEndpoint hs he, hservice⟩
  cases hserver : r.toSpans.find? (·.kind == some .server) with
  | some server =>
    have hmem := List.mem_of_find?_eq_some hserver
    rw [role_of_server hserver] at h
    rcases h with h | h
    · exact named server hmem (.inl h)
    · rcases Option.or_eq_some_iff.1 h with h | ⟨-, h⟩
      · obtain ⟨client, hclient, h⟩ := Option.bind_eq_some_iff.1 h
        exact named client (List.mem_of_find?_eq_some hclient) (.inl h)
      · exact named server hmem (.inr h)
  | none =>
    cases hclient : r.toSpans.find? (·.kind == some .client) with
    | some client =>
      rw [role_of_client hserver hclient] at h
      exact named client (List.mem_of_find?_eq_some hclient) h
    | none =>
      rw [role_of_none hserver hclient] at h
      simp at h

end Report

end TraceArchive
