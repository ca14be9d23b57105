import Mathlib.Data.List.TakeWhile
import TraceArchive.Address.V6
import TraceArchive.Proofs.Text.Hex
import TraceArchive.Proofs.Text.Splitting

set_option autoImplicit false

/-!
The texts of addresses. Every address is read back from its text: octets and groups are written with
digits alone, so the text is cut where the parts were joined, and the zero groups that `::` stands
for are as many as are missing.
-/

namespace TraceArchive.Address

open Text

theorem mem_intercalate {sep : List Char} {parts : List (List Char)} {c : Char}
    (h : c ∈ List.intercalate sep parts) : c ∈ sep ∨ ∃ part ∈ parts, c ∈ part := by
  induction parts with
  | nil => simp at h
  | cons part parts ih =>
    cases parts with
    | nil => exact .inr ⟨part, List.mem_cons_self, by simpa using h⟩
    | cons next parts =>
      rw [List.intercalate_cons_cons, List.append_assoc, List.mem_append, List.mem_append] at h
      rcases h with h | h | h
      · exact .inr ⟨part, List.mem_cons_self, h⟩
      · exact .inl h
      · exact (ih h).imp_right fun ⟨p, hp, hc⟩ => ⟨p, List.mem_cons_of_mem part hp, hc⟩

namespace V4

theorem exists_octets (a : V4) : ∃ w x y z, a = ⟨#v[w, x, y, z]⟩ := by
  obtain ⟨⟨⟨octets⟩, hlength⟩⟩ := a
  match octets, hlength with
  | [w, x, y, z], _ => exact ⟨w, x, y, z, rfl⟩

theorem octet?_toDigits (o : UInt8) : octet? (Nat.toDigits 10 o.toNat) = some o := by
  have hall : ∀ n ∈ List.range 256, octet? (Nat.toDigits 10 n) = some (UInt8.ofNat n) := by
    decide +kernel
  rw [hall o.toNat (List.mem_range.2 o.toNat_lt), UInt8.ofNat_toNat]

theorem isDigit_of_mem_octet {o : UInt8} {c : Char} (h : c ∈ Nat.toDigits 10 o.toNat) :
    c.isDigit = true :=
  Nat.isDigit_of_mem_toDigits (by decide) (by decide) h

theorem toList_toString (a : V4) : a.toString.toList
    = List.intercalate ['.'] (a.octets.toList.map fun o => Nat.toDigits 10 o.toNat) := by
  simp [toString, Nat.repr_eq_ofList_toDigits, Function.comp_def]

theorem ofChars?_toString (a : V4) : ofChars? a.toString.toList = some a := by
  obtain ⟨w, x, y, z, rfl⟩ := exists_octets a
  have hparts : ∀ part ∈ [w, x, y, z].map fun o => Nat.toDigits 10 o.toNat, '.' ∉ part := by
    intro part hpart hdot
    obtain ⟨o, -, rfl⟩ := List.mem_map.1 hpart
    exact absurd (isDigit_of_mem_octet hdot) (by decide)
  have hoctets : (⟨#v[w, x, y, z]⟩ : V4).octets.toList = [w, x, y, z] := rfl
  have hread : (splitChar '.' (List.intercalate ['.']
      ([w, x, y, z].map fun o => Nat.toDigits 10 o.toNat))).mapM octet? = some [w, x, y, z] := by
    rw [splitChar_intercalate (by simp) hparts, mapM_map_eq_pure _ _ octet?_toDigits]
    rfl
  rw [toList_toString, hoctets, ofChars?, hread]

theorem ofString?_toString (a : V4) : ofString? a.toString = some a := ofChars?_toString a

theorem toList_toString_ne_nil (a : V4) : a.toString.toList ≠ [] := by
  intro hnil
  have hread := ofChars?_toString a
  rw [hnil] at hread
  exact absurd hread (by simp [ofChars?, splitChar, octet?])

theorem colon_not_mem_toString (a : V4) : ':' ∉ a.toString.toList := by
  intro h
  rw [toList_toString] at h
  rcases mem_intercalate h with h | ⟨part, hpart, h⟩
  · exact absurd h (by decide)
  · obtain ⟨o, -, rfl⟩ := List.mem_map.1 hpart
    exact absurd (isDigit_of_mem_octet h) (by decide)

end V4

namespace V6

/-- The text of one group. -/
def groupText (g : UInt16) : List Char := Nat.toDigits 16 g.toNat

theorem isDigit_of_mem_groupText {g : UInt16} {c : Char} (h : c ∈ groupText g) :
    Hex.isDigit c = true :=
  Hex.isDigit_of_mem_toDigits h

theorem groupText_ne_nil (g : UInt16) : groupText g ≠ [] := Nat.toDigits_ne_nil

theorem group?_groupText (g : UInt16) : group? (groupText g) = some g := by
  have hlength : (groupText g).length ≤ 4 :=
    (Nat.length_toDigits_le_iff (by decide) (by decide)).2 g.toNat_lt
  have hdigits : (groupText g).all Hex.isDigit = true :=
    List.all_eq_true.2 fun _ => isDigit_of_mem_groupText
  rw [group?, if_pos ⟨groupText_ne_nil g, hlength, hdigits⟩, groupText, Hex.value_toDigits,
    UInt16.ofNat_toNat]

/-- Without a dot there is no version 4 address. -/
theorem ofChars?_groupText (g : UInt16) : V4.ofChars? (groupText g) = none := by
  have hdot : '.' ∉ groupText g := fun h => absurd (isDigit_of_mem_groupText h) (by decide)
  rw [V4.ofChars?, splitChar_of_not_mem hdot]
  cases hoctet : V4.octet? (groupText g) <;> simp [hoctet]

/-- A part that is not the last one is a group. -/
theorem groups?_cons {part : List Char} {rest : List (List Char)} (hrest : rest ≠ []) :
    groups? (part :: rest) = (do return (← group? part) :: (← groups? rest)) := by
  cases rest with
  | nil => exact absurd rfl hrest
  | cons next rest => rw [groups?]; exact List.cons_ne_nil next rest

theorem groups?_map_groupText (gs : List UInt16) : groups? (gs.map groupText) = some gs := by
  induction gs with
  | nil => rfl
  | cons g gs ih =>
    cases gs with
    | nil => simp [groups?, ofChars?_groupText, group?_groupText]
    | cons g' gs =>
      rw [List.map_cons, groups?_cons (by simp), group?_groupText, ih]
      rfl

theorem toList_join (gs : List UInt16) :
    (join gs).toList = List.intercalate [':'] (gs.map groupText) := by
  simp [join, Function.comp_def]
  rfl

/-- A text that was joined starts as its first part does. -/
theorem head?_intercalate (sep : List Char) {part : List Char} (hne : part ≠ [])
    (parts : List (List Char)) :
    (List.intercalate sep (part :: parts)).head? = part.head? := by
  cases part with
  | nil => exact absurd rfl hne
  | cons c part => rw [List.intercalate_cons_cons_left, List.head?_cons, List.head?_cons]

theorem parts_intercalate {ps : List (List Char)} (h : ∀ part ∈ ps, part ≠ [] ∧ ':' ∉ part) :
    parts (List.intercalate [':'] ps) = ps := by
  cases ps with
  | nil => rfl
  | cons part ps =>
    have hne : List.intercalate [':'] (part :: ps) ≠ [] := by
      intro hnil
      have hhead := head?_intercalate [':'] (h part List.mem_cons_self).1 ps
      rw [hnil, List.head?_nil, eq_comm, List.head?_eq_none_iff] at hhead
      exact (h part List.mem_cons_self).1 hhead
    rw [parts, if_neg (by simpa using hne)]
    exact splitChar_intercalate (List.cons_ne_nil part ps) fun p hp => (h p hp).2

theorem groupText_of_mem {gs : List UInt16} {part : List Char} (h : part ∈ gs.map groupText) :
    part ≠ [] ∧ ':' ∉ part := by
  obtain ⟨g, -, rfl⟩ := List.mem_map.1 h
  exact ⟨groupText_ne_nil g, fun hc => absurd (isDigit_of_mem_groupText hc) (by decide)⟩

theorem parts_join (gs : List UInt16) : parts (join gs).toList = gs.map groupText := by
  rw [toList_join, parts_intercalate fun _ => groupText_of_mem]

/-! The first place where two colons meet. -/

/-- Characters that are not both colons. -/
def Apart (c d : Char) : Prop := ¬ (c = ':' ∧ d = ':')

/-- No two colons meet, not even with one more colon at the end. -/
def Spaced (cs : List Char) : Prop := (cs ++ [':']).IsChain Apart

theorem isChain_append_of_not_mem {cs ds : List Char} (hcs : ':' ∉ cs) (hds : ds.IsChain Apart) :
    (cs ++ ds).IsChain Apart := by
  induction cs with
  | nil => exact hds
  | cons c cs ih =>
    rw [List.mem_cons, not_or] at hcs
    exact List.isChain_cons.2 ⟨fun _ _ h => hcs.1 h.1.symm, ih hcs.2⟩

theorem spaced_intercalate {parts : List (List Char)} (h : ∀ part ∈ parts, part ≠ [] ∧ ':' ∉ part) :
    Spaced (List.intercalate [':'] parts) := by
  induction parts with
  | nil => exact List.isChain_singleton _
  | cons part parts ih =>
    obtain ⟨-, hpart⟩ := h part List.mem_cons_self
    cases parts with
    | nil => exact isChain_append_of_not_mem (by simpa using hpart) (List.isChain_singleton _)
    | cons next parts =>
      have hrest := ih fun p hp => h p (List.mem_cons_of_mem part hp)
      obtain ⟨hne, hnext⟩ := h next (List.mem_cons_of_mem part List.mem_cons_self)
      rw [Spaced, List.intercalate_cons_cons, List.append_assoc, List.append_assoc,
        List.singleton_append]
      refine isChain_append_of_not_mem hpart (List.isChain_cons.2 ⟨fun d hd hcolon => ?_, hrest⟩)
      rw [Option.mem_def, List.head?_append, head?_intercalate _ hne] at hd
      obtain ⟨c, next, rfl⟩ := List.exists_cons_of_ne_nil hne
      obtain rfl : c = d := by simpa using hd
      exact hnext (hcolon.2 ▸ List.mem_cons_self)

theorem spaced_join (gs : List UInt16) : Spaced (join gs).toList := by
  rw [toList_join]
  exact spaced_intercalate fun _ => groupText_of_mem

/-- Within spaced characters no two colons start, whatever comes after one more colon. -/
theorem Spaced.not_starts {cs : List Char} (h : Spaced cs) {c : Char} {after : List Char}
    (hsuffix : c :: after <:+ cs) (rest : List Char) :
    ¬ [':', ':'] <+: c :: after ++ ':' :: rest := by
  obtain ⟨before, rfl⟩ := hsuffix
  have hchain : (c :: (after ++ [':'])).IsChain Apart :=
    List.IsChain.suffix h ⟨before, by simp⟩
  have hapart := (List.isChain_cons.1 hchain).1
  intro hstarts
  obtain ⟨hc, hnext⟩ := List.cons_prefix_cons.1 hstarts
  cases after with
  | nil => exact hapart ':' rfl ⟨hc.symm, rfl⟩
  | cons d after => exact hapart d rfl ⟨hc.symm, (List.cons_prefix_cons.1 hnext).1.symm⟩

theorem Spaced.cut? {cs : List Char} (h : Spaced cs) (rest : List Char) :
    Text.cut? [':', ':'] (cs ++ ([':', ':'] ++ rest)) = some (cs, rest) :=
  cut?_append fun _ _ hsuffix => h.not_starts hsuffix _

theorem Spaced.cut?_eq_none {cs : List Char} (h : Spaced cs) : Text.cut? [':', ':'] cs = none := by
  apply Text.cut?_eq_none (List.cons_ne_nil _ _)
  intro c after hsuffix hstarts
  exact h.not_starts hsuffix [] (hstarts.trans (List.prefix_append _ _))

/-! The run of zeros. -/

/-- A number of zeros from some place on. -/
def IsZeroRun (gs : List UInt16) (run : Nat × Nat) : Prop :=
  gs = gs.take run.1 ++ List.replicate run.2 0 ++ gs.drop (run.1 + run.2)

theorem isZeroRun_zeroRun (gs : List UInt16) : IsZeroRun gs (zeroRun gs) := by
  apply List.foldlRecOn
  · simp [IsZeroRun]
  · intro best hbest start _
    dsimp only
    split
    · have hzeros : (gs.drop start).takeWhile (· == 0)
          = List.replicate ((gs.drop start).takeWhile (· == 0)).length 0 :=
        List.eq_replicate_iff.2 ⟨rfl, fun g hg => by simpa using List.mem_takeWhile_imp hg⟩
      have hrest : gs.drop (start + ((gs.drop start).takeWhile (· == 0)).length)
          = (gs.drop start).dropWhile (· == 0) := by
        rw [← List.drop_drop]
        nth_rewrite 2 [← List.takeWhile_append_dropWhile (p := (· == 0)) (l := gs.drop start)]
        exact List.drop_left
      rw [IsZeroRun, hrest, ← hzeros, List.append_assoc, List.takeWhile_append_dropWhile,
        List.take_append_drop]
    · exact hbest

/-! Reading a text back. -/

theorem ofGroups?_toList (a : V6) : ofGroups? a.groups.toList = some a := by
  rw [ofGroups?, dif_pos (by simp)]
  rfl

theorem pair_halves (g : UInt16) :
    pair (UInt8.ofNat (g.toNat / 256)) (UInt8.ofNat (g.toNat % 256)) = g := by
  have hg := g.toNat_lt
  rw [← UInt16.toNat_inj, pair, UInt16.toNat_ofNat', UInt8.toNat_ofNat', UInt8.toNat_ofNat']
  omega

/-- The groups that are missing around two colons are zero. -/
theorem ofString?_of_cut? {s : String} {before after : List Char} {head tail : List UInt16}
    (hcut : cut? [':', ':'] s.toList = some (before, after))
    (hhead : (parts before).mapM group? = some head) (htail : groups? (parts after) = some tail)
    (hlength : head.length + tail.length ≤ 7) :
    ofString? s
      = ofGroups? (head ++ List.replicate (8 - head.length - tail.length) 0 ++ tail) := by
  simp only [ofString?, hcut]
  rw [hhead, htail]
  exact if_pos hlength

theorem parts_mapped (v : V4) :
    parts ("ffff:".toList ++ v.toString.toList) = ["ffff".toList, v.toString.toList] := by
  have hjoined : "ffff:".toList ++ v.toString.toList
      = List.intercalate [':'] ["ffff".toList, v.toString.toList] := by simp
  rw [hjoined]
  apply parts_intercalate
  intro part hpart
  rcases List.mem_pair.1 hpart with rfl | rfl
  · decide
  · exact ⟨v.toList_toString_ne_nil, v.colon_not_mem_toString⟩

/-- The text of an address that stands for a version 4 address. -/
theorem ofString?_mapped {a : V6} {v : V4} (h : a.mapped? = some v) :
    ofString? ("::ffff:" ++ v.toString) = some a := by
  unfold mapped? at h
  split at h
  · next high low hgroups =>
    have hcut : cut? [':', ':'] ("::ffff:" ++ v.toString).toList
        = some ([], "ffff:".toList ++ v.toString.toList) := by
      rw [String.toList_append]
      exact cut?_separator [':', ':'] _
    have htail : groups? (parts ("ffff:".toList ++ v.toString.toList))
        = some [0xFFFF, high, low] := by
      have hffff : group? "ffff".toList = some 0xFFFF := by decide +kernel
      rw [parts_mapped, groups?_cons (List.cons_ne_nil _ _), hffff, groups?, V4.ofChars?_toString,
        ← Option.some.inj h]
      simp [pair_halves]
    have hhead : (parts []).mapM group? = some [] := rfl
    rw [ofString?_of_cut? hcut hhead htail (by simp), ← ofGroups?_toList a, hgroups]
    rfl
  · cases h

/-- The text of an address whose longest run of zeros is left out. -/
theorem ofString?_shortened {a : V6} {start run : Nat} (h : IsZeroRun a.groups.toList (start, run))
    (hrun : 2 ≤ run) :
    ofString? (join (a.groups.toList.take start) ++ "::"
      ++ join (a.groups.toList.drop (start + run))) = some a := by
  have hcut := (spaced_join (a.groups.toList.take start)).cut?
    (join (a.groups.toList.drop (start + run))).toList
  have hhead := mapM_map_eq_pure _ _ group?_groupText (a.groups.toList.take start)
  have htail := groups?_map_groupText (a.groups.toList.drop (start + run))
  have hlength : a.groups.toList.length = 8 := by simp
  have hsum := congrArg List.length h
  simp only [List.length_append, List.length_replicate, List.length_take, List.length_drop,
    hlength] at hsum
  rw [← parts_join] at hhead htail
  rw [ofString?_of_cut? (by simpa using hcut) hhead htail (by
    rw [List.length_take, List.length_drop]; omega)]
  have hzeros : 8 - (a.groups.toList.take start).length
      - (a.groups.toList.drop (start + run)).length = run := by
    rw [List.length_take, List.length_drop]
    omega
  rw [hzeros, ← h, ofGroups?_toList]

/-- The text of an address with all its groups. -/
theorem ofString?_join (a : V6) : ofString? (join a.groups.toList) = some a := by
  have hcut := (spaced_join a.groups.toList).cut?_eq_none
  simp only [ofString?, hcut]
  rw [parts_join, groups?_map_groupText]
  exact ofGroups?_toList a

theorem ofString?_toString (a : V6) : ofString? a.toString = some a := by
  unfold toString
  split
  · next v hv => exact ofString?_mapped hv
  · dsimp only
    split
    · exact ofString?_join a
    · next hrun => exact ofString?_shortened (isZeroRun_zeroRun _) (by omega)

end V6

end TraceArchive.Address
