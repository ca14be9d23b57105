import Mathlib.Data.String.Basic
import TraceArchive.Id
import TraceArchive.Proofs.Text.Hex

set_option autoImplicit false

/-!
Reading and writing identifiers. A text is read if and only if it is made of hexadecimal digits, of
either case and not too many of them, and what is read is the number that the digits denote. So what
is written is read back, and keys with the same text are equal.
-/

namespace TraceArchive

open Text

/-- One to `most` hexadecimal digits of either case. -/
def HexText (most : Nat) (text : String) : Prop :=
  1 ≤ text.length ∧ text.length ≤ most
    ∧ ∀ c ∈ text.toList, c ∈ Hex.lowercaseDigits ∨ c ∈ Hex.uppercaseDigits

/-- Texts of up to `most` digits are read as the numbers that they denote, and no other texts. -/
def ReadsHex {α : Type} (most : Nat) (read : String → Except IdError α) (number : α → Nat) : Prop :=
  ∀ text, (HexText most text → ∃ a, read text = .ok a ∧ Hex.Denotes text.toList (number a))
    ∧ (¬ HexText most text →
      read text = .error (.length text) ∨ read text = .error (.notHex text))

/-- A trace id as one number of 128 bits. -/
def TraceId.toNat (id : TraceId) : Nat := id.high.toNat * 2 ^ 64 + id.low.toNat

theorem isHex_iff {text : String} : isHex text = true
    ↔ ∀ c ∈ text.toList, c ∈ Hex.lowercaseDigits ∨ c ∈ Hex.uppercaseDigits := by
  have hdigit : ∀ c, Hex.isDigit c = true ↔ c ∈ Hex.lowercaseDigits ∨ c ∈ Hex.uppercaseDigits := by
    intro c
    simp only [Hex.isDigit_iff, Hex.StandsFor, exists_or, List.mem_iff_getElem?]
  simp only [isHex, List.all_eq_true, hdigit]

theorem hexText_iff {most : Nat} {text : String} :
    HexText most text ↔ 1 ≤ text.length ∧ text.length ≤ most ∧ isHex text = true := by
  rw [HexText, isHex_iff]

theorem utf8Len_of_isDigit {cs : List Char} (h : ∀ c ∈ cs, Hex.isDigit c = true) :
    String.utf8Len cs = cs.length := by
  induction cs with
  | nil => rfl
  | cons c cs ih =>
    have hc : c.toNat < 128 := Hex.lt_of_isDigit (h c List.mem_cons_self)
    have hsize : c.utf8Size = 1 := Char.utf8Size_eq_one_iff.2 (UInt32.le_iff_toNat_le.2 (by
      change c.toNat ≤ 127
      omega))
    rw [String.utf8Len_cons, ih fun c hc => h c (List.mem_cons_of_mem _ hc), hsize,
      List.length_cons]

/-- Digits take one byte each. -/
theorem utf8ByteSize_of_isHex {text : String} (h : isHex text = true) :
    text.utf8ByteSize = text.length := by
  rw [← String.ofList_toList (s := text), String.utf8ByteSize_ofList,
    utf8Len_of_isDigit (List.all_eq_true.1 h), String.length_ofList]

theorem toNat_ofNat_value {cs : List Char} (hdigits : ∀ c ∈ cs, Hex.isDigit c = true)
    (hlength : cs.length ≤ 16) : (UInt64.ofNat (Hex.value cs)).toNat = Hex.value cs := by
  apply UInt64.toNat_ofNat_of_lt'
  calc Hex.value cs < 16 ^ cs.length := Hex.value_lt hdigits
    _ ≤ 16 ^ 16 := Nat.pow_le_pow_right (by decide) hlength

theorem Id.readsHex_ofHex : ReadsHex 16 Id.ofHex UInt64.toNat := by
  intro text
  rw [hexText_iff]
  constructor
  · rintro ⟨hfirst, hlast, hhex⟩
    have hdigits := List.all_eq_true.1 hhex
    refine ⟨UInt64.ofNat (Hex.value text.toList), ?_, ?_⟩
    · rw [Id.ofHex, utf8ByteSize_of_isHex hhex, if_neg (by omega), if_pos hhex]
    · rw [toNat_ofNat_value hdigits (by rwa [String.length_toList])]
      exact Hex.denotes_value hdigits
  · intro hother
    unfold Id.ofHex
    split
    · exact .inl rfl
    · next hsize =>
      split
      · next hhex =>
        rw [utf8ByteSize_of_isHex hhex] at hsize
        exact absurd ⟨by omega, by omega, hhex⟩ hother
      · exact .inr rfl

/-- The digits before the last sixteen make the high half. -/
theorem TraceId.toNat_halves {cs : List Char} (hdigits : ∀ c ∈ cs, Hex.isDigit c = true)
    (hfirst : 17 ≤ cs.length) (hlast : cs.length ≤ 32) :
    TraceId.toNat {
      high := UInt64.ofNat (Hex.value (cs.take (cs.length - 16)))
      low := UInt64.ofNat (Hex.value (cs.drop (cs.length - 16))) } = Hex.value cs := by
  have hlow : (cs.drop (cs.length - 16)).length = 16 := by
    rw [List.length_drop]
    omega
  have hhigh : (cs.take (cs.length - 16)).length ≤ 16 := by
    rw [List.length_take]
    omega
  have hnumber := Hex.value_append (cs.take (cs.length - 16)) (cs.drop (cs.length - 16))
  rw [List.take_append_drop, hlow] at hnumber
  rw [toNat, toNat_ofNat_value (fun c hc => hdigits c (List.mem_of_mem_take hc)) hhigh,
    toNat_ofNat_value (fun c hc => hdigits c (List.mem_of_mem_drop hc)) hlow.le, hnumber,
    Nat.mul_comm, show (16 ^ 16 : Nat) = 2 ^ 64 from rfl]

theorem TraceId.readsHex_ofHex : ReadsHex 32 TraceId.ofHex TraceId.toNat := by
  intro text
  rw [hexText_iff]
  by_cases hhex : isHex text = true
  · have hdigits := List.all_eq_true.1 hhex
    rw [← String.length_toList]
    by_cases hlength : 17 ≤ text.toList.length ∧ text.toList.length ≤ 32
    · have hhalves := TraceId.toNat_halves hdigits hlength.1 hlength.2
      refine ⟨fun _ => ⟨_, ?_, hhalves ▸ Hex.denotes_value hdigits⟩,
        fun hother => absurd ⟨by omega, hlength.2, hhex⟩ hother⟩
      simp [TraceId.ofHex, hhex, hlength]
    · have hread : TraceId.ofHex text = (Id.ofHex text).map fun low => { low } := by
        simp only [TraceId.ofHex, hhex, if_neg hlength, Bool.not_true, Bool.false_eq_true, if_false]
      obtain ⟨hread16, hother16⟩ := Id.readsHex_ofHex text
      rw [hexText_iff, ← String.length_toList] at hread16 hother16
      constructor
      · rintro ⟨hfirst, hlast, -⟩
        obtain ⟨low, hlow, hdenotes⟩ := hread16 ⟨hfirst, by omega, hhex⟩
        refine ⟨{ low }, by rw [hread, hlow]; rfl, ?_⟩
        simpa [TraceId.toNat] using hdenotes
      · intro hother
        rw [hread]
        exact (hother16 fun h => hother ⟨h.1, by omega, hhex⟩).imp (by rw [·]; rfl) (by rw [·]; rfl)
  · exact ⟨fun h => absurd h.2.2 hhex, fun _ => .inr (by simp [TraceId.ofHex, hhex])⟩

/-! What is written is made of digits that denote what was written. -/

/-- A text that denotes a value is read as this value, if no other value has its number. -/
theorem ReadsHex.eq_ok {α : Type} {most : Nat} {read : String → Except IdError α}
    {number : α → Nat} (h : ReadsHex most read number) (hnumber : Function.Injective number)
    {text : String} {a : α} (htext : HexText most text)
    (ha : Hex.value text.toList = number a) : read text = .ok a := by
  obtain ⟨b, hread, hb⟩ := (h text).1 htext
  rw [hread, hnumber (hb.eq_value.trans ha)]

theorem Id.length_toHex (id : UInt64) : (Id.toHex id).length = 16 := by
  rw [Id.toHex, String.length_ofList, Hex.length_digits]

theorem Id.isHex_toHex (id : UInt64) : isHex (Id.toHex id) = true := by
  rw [isHex, Id.toHex, String.toList_ofList, List.all_eq_true]
  exact fun c => Hex.isDigit_of_mem_digits

theorem Id.value_toHex (id : UInt64) : Hex.value (Id.toHex id).toList = id.toNat := by
  rw [Id.toHex, String.toList_ofList, Hex.value_digits]
  exact Nat.mod_eq_of_lt id.toNat_lt

theorem Id.ofHex_toHex (id : UInt64) : Id.ofHex (Id.toHex id) = .ok id := by
  apply Id.readsHex_ofHex.eq_ok (fun _ _ => UInt64.toNat_inj.1) _ (Id.value_toHex id)
  rw [hexText_iff, Id.length_toHex]
  exact ⟨by decide, by decide, Id.isHex_toHex id⟩

theorem TraceId.toNat_injective : Function.Injective TraceId.toNat := by
  intro a b h
  have hlow := a.low.toNat_lt
  have hlow' := b.low.toNat_lt
  simp only [toNat] at h
  cases a
  cases b
  simp only [TraceId.mk.injEq, ← UInt64.toNat_inj] at *
  omega

theorem TraceId.hexText_toHex (id : TraceId) : HexText 32 id.toHex := by
  rw [hexText_iff, toHex]
  split
  · refine ⟨by simp [Id.length_toHex], by simp [Id.length_toHex], ?_⟩
    rw [isHex, String.toList_append, List.all_append, Bool.and_eq_true]
    exact ⟨Id.isHex_toHex id.high, Id.isHex_toHex id.low⟩
  · exact ⟨by simp [Id.length_toHex], by simp [Id.length_toHex], Id.isHex_toHex id.low⟩

theorem TraceId.value_toHex (id : TraceId) : Hex.value id.toHex.toList = id.toNat := by
  rw [toHex, toNat]
  split
  · rw [String.toList_append, Hex.value_append, Id.value_toHex, Id.value_toHex,
      String.length_toList, Id.length_toHex, Nat.mul_comm, show (16 ^ 16 : Nat) = 2 ^ 64 from rfl]
  · next hhigh =>
    have hzero : id.high = 0 := by simpa using hhigh
    rw [Id.value_toHex, hzero]
    simp

theorem TraceId.ofHex_toHex (id : TraceId) : TraceId.ofHex id.toHex = .ok id :=
  TraceId.readsHex_ofHex.eq_ok TraceId.toNat_injective id.hexText_toHex id.value_toHex

/-- What is read back is told apart by its text. -/
theorem injective_of_read {α : Type} {write : α → String} {read : String → Except IdError α}
    (h : ∀ a, read (write a) = .ok a) : Function.Injective write := by
  intro a b heq
  have hread := h a
  rw [heq, h b] at hread
  exact (Except.ok.inj hread).symm

/-- The span id takes the last sixteen digits of the text, so what stands before it is the trace. -/
theorem Key.text_injective : Function.Injective Key.text := by
  intro a b h
  have hchars := congrArg String.toList h
  simp only [Key.text, String.toList_append] at hchars
  have hlength : (Id.toHex a.id).toList.length = (Id.toHex b.id).toList.length := by
    rw [String.length_toList, String.length_toList, Id.length_toHex, Id.length_toHex]
  obtain ⟨htrace, hid⟩ := List.append_inj' hchars hlength
  have htrace := List.append_cancel_right htrace
  cases a
  cases b
  rw [Key.mk.injEq]
  exact ⟨injective_of_read TraceId.ofHex_toHex (String.toList_inj.1 htrace),
    injective_of_read Id.ofHex_toHex (String.toList_inj.1 hid)⟩

/-- Trace ids are read from up to 32 digits, and span ids from up to 16, as the numbers that the
digits denote. Trace ids are read back from what is written, and keys are told apart by their
texts. -/
theorem TraceId.ofHex_exact :
    ReadsHex 32 TraceId.ofHex TraceId.toNat ∧ ReadsHex 16 Id.ofHex UInt64.toNat
      ∧ (∀ high low : UInt64, TraceId.ofHex (TraceId.toHex ⟨high, low⟩) = .ok ⟨high, low⟩)
      ∧ ∀ k k' : Key, k.text = k'.text → k = k' :=
  ⟨TraceId.readsHex_ofHex, Id.readsHex_ofHex, fun high low => TraceId.ofHex_toHex ⟨high, low⟩,
    fun _ _ h => Key.text_injective h⟩

/-- A sign is no digit, and neither is a character of several bytes. -/
example : TraceId.ofHex "+a" = .error (.notHex "+a") ∧ TraceId.ofHex "Aé" = .error (.notHex "Aé")
    ∧ TraceId.ofHex "0aF" = .ok ⟨0, 175⟩ := by decide +kernel

end TraceArchive
