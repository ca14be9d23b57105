import TraceArchive.Codec.Basic
import TraceArchive.Proofs.Id
import TraceArchive.Proofs.Sorted.Map
import TraceArchive.Proofs.Text.Splitting

set_option autoImplicit false

/-!
What is written in JSON is read back. A structure leaves members out, and each of them has to be
what a reader starts from; the members that are there are taken in one after the other, each of them
once, until all that was written is told.
-/

namespace TraceArchive.Json

/-- What is written is read back, and is not written as null, which stands for an absent value. -/
structure Lossless {α : Type} (write : α → Json) (read : Json → Decoded α) : Prop where
  read_write : ∀ a, read (write a) = .ok a
  ne_null : ∀ a, write a ≠ .null

/-- A member that is there is read back, and one that is left out stands for `absent`. -/
def Restores {β : Type} (put : β → Option Json) (read : Json → Decoded β) (absent : β) : Prop :=
  ∀ b, match put b with
    | none => b = absent
    | some j => read j = .ok b

theorem ok_bind {α β : Type} (a : α) (f : α → Decoded β) : (Except.ok a >>= f) = f a := rfl

section

variable {α : Type} {write : α → Json} {read : Json → Decoded α}

theorem lossless_string : Lossless .string asString := ⟨fun _ => rfl, nofun⟩

theorem lossless_uInt64 : Lossless ofUInt64 asUInt64 := ⟨asUInt64_ofUInt64, nofun⟩

theorem lossless_uInt16 : Lossless ofUInt16 asUInt16 := ⟨asUInt16_ofUInt16, nofun⟩

theorem lossless_id : Lossless ofId asId where
  read_write id := by
    rw [ofId, asId, asString, ok_bind, Id.ofHex_toHex]
    rfl
  ne_null := nofun

theorem Lossless.list (h : Lossless write read) :
    Lossless (fun as => .array (as.map write)) (asList read) :=
  ⟨Text.mapM_map_eq_pure write read h.read_write, nofun⟩

/-- A map is read back from its entries, since no key has two of them. -/
theorem lossless_texts : Lossless ofTexts asTexts where
  read_write texts := by
    have hentries : (texts.entries.map fun e => (e.1, Json.string e.2)).mapM
        (fun m : String × Json => (asString m.2).map fun text => (m.1, text)) = .ok texts.entries :=
      Text.mapM_map_eq_pure (fun e : String × String => (e.1, Json.string e.2)) _ (fun _ => rfl) _
    rw [ofTexts, asTexts, hentries]
    exact congrArg Except.ok (SortedMap.ofList_eq_of_mem_iff fun _ => Iff.rfl)
  ne_null := nofun

theorem Restores.required (h : Lossless write read) (absent : α) :
    Restores (fun a => some (write a)) read absent :=
  fun a => h.read_write a

theorem Restores.optional (h : Lossless write read) :
    Restores (Option.map write) (nullable read) none := by
  intro a
  cases a with
  | none => rfl
  | some a =>
    have hsome : nullable read (write a) = (read (write a)).map some := by
      cases hwrite : write a with
      | null => exact absurd hwrite (h.ne_null a)
      | _ => rfl
    change nullable read (write a) = .ok (some a)
    rw [hsome, h.read_write]
    rfl

/-- A member that is always written, as null where it is absent. -/
theorem Restores.nullable (h : Lossless write read) :
    Restores (fun a => some (ofOption write a)) (Json.nullable read) none := by
  intro a
  cases a with
  | none => rfl
  | some a => exact Restores.optional h (some a)

/-- A member that is written only where it is not `absent`. -/
theorem Restores.unless (h : Lossless write read) {absent : α} {p : α → Prop} [DecidablePred p]
    (hp : ∀ a, p a → a = absent) :
    Restores (fun a => if p a then none else some (write a)) read absent := by
  intro a
  by_cases ha : p a
  · simpa only [if_pos ha] using hp a ha
  · simpa only [if_neg ha] using h.read_write a

theorem Restores.flag : Restores (fun b => if b then some (.bool true) else none) asBool false := by
  intro b
  cases b <;> rfl

end

/-- Starting from a value, members of some names are taken in until another value is reached. How a
member is written and taken in, and what a reader starts from in its place, holds by definition for
each structure. -/
inductive Takes {α : Type} (take : α → String → Json → Decoded α) :
    List String → α → List (Option (String × Json)) → α → Prop
  | nil (a : α) : Takes take [] a [] a
  | cons {β : Type} {put : β → Option Json} {read : Json → Decoded β} {absent b : β}
      {set : β → α} {a c : α} {name : String} {names : List String}
      {m : Option (String × Json)} {ms : List (Option (String × Json))}
      (restores : Restores put read absent)
      (rest : Takes take names (set b) ms c)
      (written : m = member? name (put b))
      (taken : ∀ j, take a name j = (do return set (← read j)))
      (start : set absent = a) :
      Takes take (name :: names) a (m :: ms) c

section

variable {α : Type} {take : α → String → Json → Decoded α} {names : List String} {a c : α}
  {ms : List (Option (String × Json))}

theorem Takes.foldlM (h : Takes take names a ms c) :
    (ms.filterMap id).foldlM (fun a m => take a m.1 m.2) a = .ok c := by
  induction h with
  | nil => rfl
  | @cons β put read absent b set a c name names m ms restores rest written taken start ih =>
    have hb := restores b
    cases hput : put b with
    | none =>
      rw [hput] at hb written
      rw [written, ← start, ← hb]
      exact ih
    | some j =>
      rw [hput] at hb written
      have hstep : take a name j = .ok (set b) := by
        rw [taken, hb]
        rfl
      rw [written]
      change (take a name j >>= fun a => _) = _
      rw [hstep, ok_bind]
      exact ih

theorem Takes.names_sublist (h : Takes take names a ms c) :
    ((ms.filterMap id).map Prod.fst).Sublist names := by
  induction h with
  | nil => exact List.Sublist.slnil
  | @cons β put read absent b set a c name names m ms restores rest written taken start ih =>
    cases hput : put b with
    | none =>
      rw [written, hput]
      exact ih.cons name
    | some j =>
      rw [written, hput]
      exact ih.cons_cons name

/-- A structure is read back if its members give back what was written, its names are different, and
those that a reader requires are always there. -/
theorem Takes.lossless {layout : Layout} {start : α} {members : α → List (Option (String × Json))}
    (distinct : layout.names.Nodup)
    (required : ∀ a, ∀ name ∈ layout.required, ∃ j, member name j ∈ members a)
    (takes : ∀ a, Takes take layout.names start (members a) a) :
    Lossless (fun a => ofMembers (members a)) (asStructure layout start take) where
  read_write a := by
    have hdistinct : ((((members a).filterMap id).map Prod.fst).filter (· ∈ layout.names)).Nodup :=
      (distinct.sublist (takes a).names_sublist).filter _
    have hcomplete : layout.isComplete (ofMembers (members a)) = true := by
      rw [ofMembers, Layout.isComplete, List.all_eq_true]
      intro name hname
      obtain ⟨j, hj⟩ := required a name hname
      rw [List.any_eq_true]
      exact ⟨(name, j), List.mem_filterMap.2 ⟨_, hj, rfl⟩, beq_self_eq_true name⟩
    rw [asStructure, ofMembers, Layout.members, if_pos hdistinct, ok_bind, (takes a).foldlM,
      ok_bind]
    exact if_pos hcomplete
  ne_null := nofun

end

end TraceArchive.Json
