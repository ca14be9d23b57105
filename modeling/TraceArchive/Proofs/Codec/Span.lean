import TraceArchive.Codec.Span
import TraceArchive.Proofs.Address
import TraceArchive.Proofs.Codec.Basic

set_option autoImplicit false

/-!
Reports and spans in JSON. Every report and every span is read back as it was written, whatever is
absent, empty, zero or false in it: each structure is a list of members, and each member is one of a
few kinds that give back what they were written for.
-/

namespace TraceArchive

open Json

theorem Address.V4.lossless :
    Lossless (fun a : Address.V4 => .string a.toString) Address.V4.ofJson where
  read_write a := by
    rw [V4.ofJson, asString, ok_bind, V4.ofString?_toString]
    rfl
  ne_null := nofun

theorem Address.V6.lossless :
    Lossless (fun a : Address.V6 => .string a.toString) Address.V6.ofJson where
  read_write a := by
    rw [V6.ofJson, asString, ok_bind, V6.ofString?_toString]
    rfl
  ne_null := nofun

theorem Endpoint.lossless : Lossless Endpoint.toJson Endpoint.ofJson := by
  refine Takes.lossless (by decide) (by simp [Endpoint.layout]) fun e => ?_
  refine .cons (.required lossless_string _) ?_ rfl (fun _ => rfl) rfl
  refine .cons (.optional Address.V4.lossless) ?_ rfl (fun _ => rfl) rfl
  refine .cons (.optional Address.V6.lossless) ?_ rfl (fun _ => rfl) rfl
  refine .cons (.optional lossless_uInt16) ?_ rfl (fun _ => rfl) rfl
  exact .nil e

theorem Event.lossless : Lossless Event.toJson Event.ofJson := by
  refine Takes.lossless (by decide) (by simp [Event.layout, member]) fun e => ?_
  refine .cons (.required lossless_uInt64 _) ?_ rfl (fun _ => rfl) rfl
  refine .cons (.required lossless_string _) ?_ rfl (fun _ => rfl) rfl
  refine .cons (.optional Endpoint.lossless) ?_ rfl (fun _ => rfl) rfl
  exact .nil e

theorem TagValue.lossless : Lossless TagValue.toJson TagValue.ofJson where
  read_write v := by cases v <;> rfl
  ne_null v := by cases v <;> exact nofun

theorem Tag.lossless : Lossless Tag.toJson Tag.ofJson := by
  refine Takes.lossless (by decide) (by simp [Tag.layout, member]) fun t => ?_
  refine .cons (.required lossless_string _) ?_ rfl (fun _ => rfl) rfl
  refine .cons (.required TagValue.lossless _) ?_ rfl (fun _ => rfl) rfl
  refine .cons (.optional Endpoint.lossless) ?_ rfl (fun _ => rfl) rfl
  exact .nil t

/-- The high half of a trace id is written only where it is set. -/
theorem restores_high :
    Restores (fun high => if high = 0 then none else some (ofId high)) asId 0 :=
  .unless lossless_id fun _ => id

theorem Report.lossless : Lossless Report.toJson Report.ofJson := by
  refine Takes.lossless (by decide) (by simp [Report.layout, member, exists_or]) fun r => ?_
  refine .cons restores_high ?_ rfl (fun _ => rfl) rfl
  refine .cons (.required lossless_id _) ?_ rfl (fun _ => rfl) rfl
  refine .cons (.required lossless_id _) ?_ rfl (fun _ => rfl) rfl
  refine .cons (.optional lossless_id) ?_ rfl (fun _ => rfl) rfl
  refine .cons (.optional lossless_string) ?_ rfl (fun _ => rfl) rfl
  refine .cons (.optional lossless_uInt64) ?_ rfl (fun _ => rfl) rfl
  refine .cons (.optional lossless_uInt64) ?_ rfl (fun _ => rfl) rfl
  refine .cons (.required Event.lossless.list _) ?_ rfl (fun _ => rfl) rfl
  refine .cons (.required Tag.lossless.list _) ?_ rfl (fun _ => rfl) rfl
  refine .cons .flag ?_ rfl (fun _ => rfl) rfl
  exact .nil r

theorem Span.Kind.lossless : Lossless Span.Kind.toJson Span.Kind.ofJson where
  read_write kind := by cases kind <;> rfl
  ne_null kind := by cases kind <;> exact nofun

theorem Span.lossless : Lossless Span.toJson Span.ofJson := by
  refine Takes.lossless (by decide) (by simp [Span.layout, member, exists_or]) fun s => ?_
  refine .cons restores_high ?_ rfl (fun _ => rfl) rfl
  refine .cons (.required lossless_id _) ?_ rfl (fun _ => rfl) rfl
  refine .cons (.required lossless_id _) ?_ rfl (fun _ => rfl) rfl
  refine .cons (.optional lossless_id) ?_ rfl (fun _ => rfl) rfl
  refine .cons (.optional Span.Kind.lossless) ?_ rfl (fun _ => rfl) rfl
  refine .cons (.optional lossless_string) ?_ rfl (fun _ => rfl) rfl
  refine .cons (.optional lossless_uInt64) ?_ rfl (fun _ => rfl) rfl
  refine .cons (.optional lossless_uInt64) ?_ rfl (fun _ => rfl) rfl
  refine .cons (.optional Endpoint.lossless) ?_ rfl (fun _ => rfl) rfl
  refine .cons (.optional Endpoint.lossless) ?_ rfl (fun _ => rfl) rfl
  refine .cons (.unless Event.lossless.list fun _ => List.isEmpty_iff.1) ?_ rfl (fun _ => rfl) rfl
  refine .cons (.unless lossless_texts fun _ => SortedMap.isEmpty_iff.1) ?_ rfl (fun _ => rfl) rfl
  refine .cons .flag ?_ rfl (fun _ => rfl) rfl
  refine .cons .flag ?_ rfl (fun _ => rfl) rfl
  exact .nil s

/-- Reports and spans are read back from their JSON. -/
theorem Span.ofJson_toJson :
    (∀ r : Report, Report.ofJson r.toJson = .ok r) ∧ ∀ s : Span, Span.ofJson s.toJson = .ok s :=
  ⟨Report.lossless.read_write, Span.lossless.read_write⟩

end TraceArchive
