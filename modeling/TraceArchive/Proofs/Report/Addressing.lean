import TraceArchive.Proofs.Report.Splitting

set_option autoImplicit false

/-!
Which span takes the address flags of a call that a report tells from both sides. Between two
services, each flag tells the remote endpoint of the side that it is meant for. Where a service
called itself, the home of the service stands for both sides: its span shows the client, takes the
flag for the server's side before its own, and the server's span has no remote endpoint.
-/

namespace TraceArchive.Report

/-- There is at most one flag under a key, and it marks the given endpoint. -/
def Marks (r : Report) (key : String) (marked : Option Endpoint) : Prop :=
  (r.flags.filter fun t => t.key == key).map (·.endpoint) = marked.toList.map some

instance (r : Report) (key : String) (marked : Option Endpoint) : Decidable (r.Marks key marked) :=
  inferInstanceAs (Decidable (_ = _))

/-- An endpoint, unless it is of the service itself. -/
def away (service : String) (e : Option Endpoint) : Option Endpoint :=
  e.filter (·.service ≠ service)

section

variable {r : Report} {home : Home}

theorem Marks.flagged? {key : String} {marked : Option Endpoint} (h : r.Marks key marked) :
    r.flagged? key = marked := by
  rw [flagged?_eq]
  cases marked with
  | none =>
    rw [List.map_eq_nil_iff.1 h]
    rfl
  | some e =>
    obtain ⟨t, hflags, hend⟩ := List.map_eq_singleton_iff.1 h
    rw [hflags]
    exact hend

theorem other_eq {core : CoreEvent} {m : Moment} (hm : r.moment? core = some m) (flag : String) :
    remoteAt.other r home core flag = if home.service? = some m.endpoint.service then
      away m.endpoint.service (r.flagged? flag) else none := by
  unfold remoteAt.other
  rw [hm]
  by_cases hhome : home.service? = some m.endpoint.service
  · rw [if_pos hhome]
    cases hflag : r.flagged? flag with
    | none => rfl
    | some e =>
      by_cases hservice : e.service = m.endpoint.service <;>
        simp [away, Option.filter, Endpoint.sameService, Home.holds_some_iff.2 hhome, hservice]
  · have hholds : home.holds (some m.endpoint) = false := Home.holds_eq_false hhome
    rw [if_neg hhome]
    cases r.flagged? flag <;> simp [hholds]

end

namespace BothSides

variable {r : Report} {start : Span.Kind → Moment} {finish : Span.Kind → Option Moment}
  (h : r.BothSides start finish)

include h

/-- A home takes the flags for the sides that started on its service, that for the server first. -/
theorem remoteAt_eq (home : Home) : r.remoteAt home
    = (if home.service? = some (start .server).endpoint.service then
        away (start .server).endpoint.service (r.flagged? Tag.clientAddress) else none).or
      (if home.service? = some (start .client).endpoint.service then
        away (start .client).endpoint.service (r.flagged? Tag.serverAddress) else none) := by
  have hsend : r.moment? .clientSend = some (start .client) := h.moment?_start .client
  have hreceive : r.moment? .serverReceive = some (start .server) := h.moment?_start .server
  rw [remoteAt_eq_or h.call_ne, other_eq hsend, other_eq hreceive]

/-- The flags tell the remote endpoints of both sides, except for a service that called itself. -/
theorem remoteEndpoint_toSpans {ca sa : Option Endpoint} (hca : r.Marks Tag.clientAddress ca)
    (hsa : r.Marks Tag.serverAddress sa) : ∃ client server,
      r.toSpans.filter (·.kind = some .client) = [client]
      ∧ r.toSpans.filter (·.kind = some .server) = [server]
      ∧ ((start .client).endpoint.service ≠ (start .server).endpoint.service →
        client.remoteEndpoint = away (start .client).endpoint.service sa
        ∧ server.remoteEndpoint = away (start .server).endpoint.service ca)
      ∧ ((start .client).endpoint.service = (start .server).endpoint.service →
        client.remoteEndpoint = (away (start .server).endpoint.service ca).or
          (away (start .client).endpoint.service sa)
        ∧ server.remoteEndpoint = none) := by
  obtain ⟨home, hhome, hclient⟩ := h.exists_client
  have hremote : (r.spanAt home).remoteEndpoint = r.remoteAt home := rfl
  rw [h.remoteAt_eq, hca.flagged?, hsa.flagged?, if_pos hhome] at hremote
  by_cases hsame : (start .client).endpoint.service = (start .server).endpoint.service
  · obtain ⟨s, rfl, hserver, -⟩ := h.filter_server_of_same hsame
    rw [if_pos (hsame ▸ hhome)] at hremote
    exact ⟨_, _, hclient, hserver, fun hapart => absurd hsame hapart, fun _ => ⟨hremote, rfl⟩⟩
  · obtain ⟨home', hhome', hserver, -⟩ := h.exists_server hsame
    have hremote' : (r.spanAt home').remoteEndpoint = r.remoteAt home' := rfl
    have hclient' : home'.service? ≠ some (start .client).endpoint.service := by
      rw [hhome']
      exact fun he => hsame (Option.some.inj he).symm
    rw [h.remoteAt_eq, hca.flagged?, if_pos hhome', if_neg hclient', Option.or_none] at hremote'
    have hserver' : home.service? ≠ some (start .server).endpoint.service := by
      rw [hhome]
      exact fun he => hsame (Option.some.inj he)
    rw [if_neg hserver', Option.none_or] at hremote
    exact ⟨_, _, hclient, hserver, fun _ => ⟨hremote, hremote'⟩, fun he => absurd he hsame⟩

end BothSides

/-- A service calls itself, and flags mark a browser as the client and a database as the server. -/
def ownCall : Report where
  traceId := ⟨0, 1⟩
  id := 1
  timestamp := some 10
  duration := some 10
  events := [
    { timestamp := 10, value := "cs", endpoint := some { service := "web" } },
    { timestamp := 12, value := "sr", endpoint := some { service := "web" } },
    { timestamp := 18, value := "ss", endpoint := some { service := "web" } },
    { timestamp := 20, value := "cr", endpoint := some { service := "web" } }]
  tags := [Tag.address "ca" { service := "browser" }, Tag.address "sa" { service := "db" }]

def ownStart : Span.Kind → Moment
  | .client => ⟨10, { service := "web" }⟩
  | .server => ⟨12, { service := "web" }⟩

def ownFinish : Span.Kind → Moment
  | .client => ⟨20, { service := "web" }⟩
  | .server => ⟨18, { service := "web" }⟩

theorem bothSides_ownCall : ownCall.BothSides ownStart fun k => some (ownFinish k) where
  started k := by cases k <;> decide +kernel
  finished k := by cases k <;> decide +kernel
  service k m hm := by
    obtain rfl := Option.some.inj hm
    cases k <;> rfl

theorem remoteEndpoint_toSpans_ownCall : (ownCall.BothSides ownStart fun k => some (ownFinish k))
    ∧ ownCall.Marks "ca" (some { service := "browser" })
    ∧ ownCall.Marks "sa" (some { service := "db" })
    ∧ ∃ client server, ownCall.toSpans.filter (·.kind = some .client) = [client]
      ∧ ownCall.toSpans.filter (·.kind = some .server) = [server]
      ∧ client.remoteEndpoint = some { service := "browser" } ∧ server.remoteEndpoint = none := by
  have hca : ownCall.Marks "ca" (some { service := "browser" }) := by decide +kernel
  have hsa : ownCall.Marks "sa" (some { service := "db" }) := by decide +kernel
  obtain ⟨client, server, hclient, hserver, -, hsame⟩ :=
    bothSides_ownCall.remoteEndpoint_toSpans hca hsa
  obtain ⟨hremote, hnone⟩ := hsame rfl
  exact ⟨bothSides_ownCall, hca, hsa, client, server, hclient, hserver, hremote, hnone⟩

/-- The client's span takes the flag for the server's side of a call to itself. -/
theorem not_remoteEndpoint_eq_away :
    ¬ ∀ (r : Report) (start finish : Span.Kind → Moment) (ca sa : Option Endpoint),
      (r.BothSides start fun k => some (finish k)) → r.Marks Tag.clientAddress ca →
      r.Marks Tag.serverAddress sa → ∃ client server,
        r.toSpans.filter (·.kind = some .client) = [client]
        ∧ r.toSpans.filter (·.kind = some .server) = [server]
        ∧ client.remoteEndpoint = away (start .client).endpoint.service sa
        ∧ server.remoteEndpoint = away (start .server).endpoint.service ca := by
  intro h
  obtain ⟨client, server, -, hserver, -, hremote⟩ := h ownCall ownStart ownFinish
    (some { service := "browser" }) (some { service := "db" }) bothSides_ownCall
    (by decide +kernel) (by decide +kernel)
  have hends := congrArg (List.map (·.remoteEndpoint)) hserver
  rw [List.map_singleton, hremote] at hends
  exact absurd hends (by decide +kernel)

end TraceArchive.Report
