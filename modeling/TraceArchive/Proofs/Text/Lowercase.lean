import TraceArchive.Text.Lowercase

set_option autoImplicit false

/-!
Lowercasing twice changes nothing: what lowercasing writes, it leaves alone wherever it stands.
Beyond ASCII this is a property of the table: no run of mappings leads into another one.
-/

namespace TraceArchive.Text.Lowercase

/-- A character that lowercasing leaves alone wherever it stands. -/
def IsLower (c : Char) : Prop := simple c = c ∧ c ≠ 'Σ' ∧ c ≠ 'İ'

instance (c : Char) : Decidable (IsLower c) := by
  unfold IsLower
  infer_instance

/-! The characters that a run leads to. -/

def Run.low (r : Run) : Nat := ((r.first : Int) + r.shift).toNat

def Run.high (r : Run) : Nat := ((r.last : Int) + r.shift).toNat

/-- Nothing that a run leads to is covered by another run: the ranges do not meet, or only the
characters between those that the other run covers are met. -/
def Run.avoids (r s : Run) : Bool :=
  Nat.blt r.high s.first || Nat.blt s.last r.low
    || (s.stride == 2 && (r.stride == 2 || r.first == r.last) && (r.low + s.first) % 2 == 1)

/-- A run leads to characters, none of them special, and beyond ASCII but for the letter k. -/
def Run.isSound (r : Run) : Bool :=
  (Nat.ble 128 r.low || (r.low == 0x6B && r.high == 0x6B))
    && (Nat.blt r.high 0xD800 || (Nat.blt 0xDFFF r.low && Nat.blt r.high 0x110000))
    && (Nat.blt r.high 0x130 || Nat.blt 0x130 r.low)
    && (Nat.blt r.high 0x3A3 || Nat.blt 0x3A3 r.low)

theorem avoids_of_mem {r s : Run} (hr : r ∈ runs) (hs : s ∈ runs) : r.avoids s = true := by
  have : (runs.all fun r => runs.all r.avoids) = true := by decide +kernel
  exact List.all_eq_true.1 (List.all_eq_true.1 this r hr) s hs

theorem isSound_of_mem {r : Run} (hr : r ∈ runs) : r.isSound = true := by
  have : runs.all Run.isSound = true := by decide +kernel
  exact List.all_eq_true.1 this r hr

/-- What holds of the ASCII characters one by one. -/
theorem forall_ascii {p : Char → Prop} (h : ∀ n ∈ List.range 128, p (Char.ofNat n)) {c : Char}
    (hc : c.toNat < 128) : p c := by
  have := h c.toNat (List.mem_range.2 hc)
  rwa [Char.ofNat_toNat] at this

/-- Where a run leads a character that it covers. -/
def Run.target (r : Run) (n : Nat) : Nat := ((n : Int) + r.shift).toNat

theorem Run.target_mem {r : Run} (hr : r.isSound = true) {n : Nat} (hn : r.covers n = true) :
    r.low ≤ r.target n ∧ r.target n ≤ r.high ∧ r.target n + r.first = n + r.low := by
  simp only [covers, isSound, Bool.and_eq_true, Bool.or_eq_true, decide_eq_true_eq,
    Nat.ble_eq, beq_iff_eq, low, high, target] at *
  omega

theorem Run.not_covers_target {r s : Run} (hr : r ∈ runs) (hs : s ∈ runs) {n : Nat}
    (hn : r.covers n = true) : s.covers (r.target n) = false := by
  obtain ⟨hlow, hhigh, hsame⟩ := Run.target_mem (isSound_of_mem hr) hn
  have havoid := avoids_of_mem hr hs
  rw [Bool.eq_false_iff]
  intro hc
  simp only [covers, avoids, Bool.and_eq_true, Bool.or_eq_true, decide_eq_true_eq, Nat.blt_eq,
    beq_iff_eq] at *
  obtain (h | h) | ⟨⟨h2, h⟩, hodd⟩ := havoid
  · omega
  · omega
  · rw [h2] at hc
    obtain h | h := h
    · rw [h] at hn
      omega
    · omega

theorem simple_of_not_covers {c : Char} (hc : 128 ≤ c.toNat)
    (h : ∀ r ∈ runs, r.covers c.toNat = false) : simple c = c := by
  have : runs.find? (·.covers c.toNat) = none := by
    rw [List.find?_eq_none]
    exact fun r hr => by simp [h r hr]
  rw [simple, if_neg (by omega), this]

theorem toNat_ofNat_of_isSound {r : Run} (hr : r.isSound = true) {n : Nat}
    (hn : r.covers n = true) : (Char.ofNat (r.target n)).toNat = r.target n := by
  obtain ⟨hlow, hhigh, -⟩ := Run.target_mem hr hn
  simp only [Run.isSound, Bool.and_eq_true, Bool.or_eq_true, Nat.blt_eq] at hr
  have valid : (r.target n).isValidChar := by
    rw [Nat.isValidChar]
    omega
  rw [Char.ofNat, dif_pos valid]
  rfl

theorem isLower_target {r : Run} (hr : r ∈ runs) {n : Nat} (hn : r.covers n = true) :
    IsLower (Char.ofNat (r.target n)) := by
  have sound := isSound_of_mem hr
  obtain ⟨hlow, hhigh, -⟩ := Run.target_mem sound hn
  have code := toNat_ofNat_of_isSound sound hn
  simp only [Run.isSound, Bool.and_eq_true, Bool.or_eq_true, Nat.blt_eq, Nat.ble_eq,
    beq_iff_eq] at sound
  by_cases hk : r.target n = 0x6B
  · rw [hk]
    decide +kernel
  · have hne : ∀ c : Char, c.toNat ≠ r.target n → Char.ofNat (r.target n) ≠ c :=
      fun c hc e => hc (e ▸ code)
    refine ⟨simple_of_not_covers (by omega) fun s hs => ?_, hne _ ?_, hne _ ?_⟩
    · rw [code]
      exact Run.not_covers_target hr hs hn
    · change 0x3A3 ≠ r.target n
      omega
    · change 0x130 ≠ r.target n
      omega

/-- Beyond ASCII a character stays as it is, or it goes where the run leads that covers it. -/
theorem simple_cases (c : Char) : c.toNat < 128 ∨ simple c = c
    ∨ ∃ r ∈ runs, r.covers c.toNat = true ∧ simple c = Char.ofNat (r.target c.toNat) := by
  by_cases hc : c.toNat < 128
  · exact .inl hc
  · rw [simple, if_neg hc]
    cases hf : runs.find? (·.covers c.toNat) with
    | none => exact .inr (.inl rfl)
    | some r =>
      have hcovers : r.covers c.toNat = true := by simpa using List.find?_some hf
      exact .inr (.inr ⟨r, List.mem_of_find?_eq_some hf, hcovers, rfl⟩)

theorem isLower_simple {c : Char} (hs : c ≠ 'Σ') (hi : c ≠ 'İ') : IsLower (simple c) := by
  obtain hc | hc | ⟨r, hr, hcovers, hc⟩ := simple_cases c
  · exact @forall_ascii (fun c => IsLower (simple c)) (by decide +kernel) c hc
  · rw [hc]
    exact ⟨hc, hs, hi⟩
  · rw [hc]
    exact isLower_target hr hcovers

theorem isLower_of_mem_rest {b : Bool} {cs : List Char} {c : Char} (h : c ∈ rest b cs) :
    IsLower c := by
  induction cs generalizing b with
  | nil => simp [rest] at h
  | cons d cs ih =>
    rw [rest] at h
    rcases List.mem_append.1 h with h | h
    · split at h
      · split at h
        · obtain rfl := List.mem_singleton.1 h
          decide +kernel
        · obtain rfl := List.mem_singleton.1 h
          decide +kernel
      · next hs =>
        split at h
        · rcases List.mem_cons.1 h with rfl | h
          · decide +kernel
          · obtain rfl := List.mem_singleton.1 h
            decide +kernel
        · next hi =>
          obtain rfl := List.mem_singleton.1 h
          exact isLower_simple hs hi
    · exact ih h

theorem rest_eq_self {b : Bool} {cs : List Char} (h : ∀ c ∈ cs, IsLower c) : rest b cs = cs := by
  induction cs generalizing b with
  | nil => rfl
  | cons c cs ih =>
    obtain ⟨hc, hs, hi⟩ := h c (by simp)
    rw [rest, if_neg hs, if_neg hi, hc, ih fun d hd => h d (List.mem_cons_of_mem _ hd)]
    rfl

end Lowercase

@[simp] theorem lowercase_lowercase (s : String) : lowercase (lowercase s) = lowercase s := by
  rw [← String.toList_inj, toList_lowercase, toList_lowercase]
  exact Lowercase.rest_eq_self fun _ => Lowercase.isLower_of_mem_rest

end TraceArchive.Text
