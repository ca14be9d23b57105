import TraceArchive.Proofs.Sorted.Map
import TraceArchive.Proofs.Text.Splitting
import TraceArchive.Proofs.Text.Trimming
import TraceArchive.Request.Draft

set_option autoImplicit false

/-!
Annotation queries. A query joins words and tags, none of which has white space in it, and reading
it adds these words and tags to a draft and nothing else. The word `and` may be one of them: it is
the white space around it that parts a query.
-/

namespace TraceArchive.Request

open Text

/-- One of the things that an annotation query asks for. -/
inductive Asked where
  | word (text : String)
  | tag (key text : String)
  deriving DecidableEq

/-- A text without white space. -/
def Solid (s : String) : Prop := ∀ c ∈ s.toList, isBlank c = false

namespace Asked

def written : Asked → String
  | .word text => text
  | .tag key text => key ++ "=" ++ text

/-- Words and keys are not empty and have no equals sign, which ends a key. -/
def Plain : Asked → Prop
  | .word text => text ≠ "" ∧ Solid text ∧ '=' ∉ text.toList
  | .tag key text => key ≠ "" ∧ Solid key ∧ '=' ∉ key.toList ∧ Solid text

/-- A query for several things. -/
def query (asked : List Asked) : String := String.intercalate " and " (asked.map written)

def addTo (d : Draft) : Asked → Draft
  | .word text => d.addTerm text
  | .tag key text => d.putTag key text

end Asked

/-- The last tag with a key. -/
def LastTag (asked : List Asked) (key text : String) : Prop :=
  ∃ before after, asked = before ++ .tag key text :: after ∧ ∀ other, .tag key other ∉ after

/-- What a draft holds after some things were added to it. -/
structure Adds (d : Draft) (asked : List Asked) (d' : Draft) : Prop where
  terms : ∀ word, word ∈ d'.terms ↔ word ∈ d.terms ∨ .word word ∈ asked
  tags : ∀ key text, d'.tags.get? key = some text
    ↔ LastTag asked key text ∨ (∀ other, .tag key other ∉ asked) ∧ d.tags.get? key = some text
  others : d' = { d with terms := d'.terms, tags := d'.tags }

section

variable {d d' : Draft} {asked : List Asked}

theorem not_lastTag_nil {key text : String} : ¬ LastTag [] key text := by
  rintro ⟨before, after, h, -⟩
  simp at h

/-- What comes after a tag leaves it the last one of its key, unless it has the same key. -/
theorem lastTag_concat {a : Asked} {key text : String} :
    LastTag (asked ++ [a]) key text
      ↔ a = .tag key text ∨ (∀ other, a ≠ .tag key other) ∧ LastTag asked key text := by
  constructor
  · rintro ⟨before, after, h, hafter⟩
    cases after using List.reverseRecOn with
    | nil =>
      obtain ⟨-, ha⟩ := List.append_inj' h rfl
      exact .inl (List.singleton_inj.1 ha)
    | append_singleton after b =>
      rw [← List.cons_append, ← List.append_assoc] at h
      obtain ⟨hbefore, ha⟩ := List.append_inj' h rfl
      obtain rfl := List.singleton_inj.1 ha
      refine .inr ⟨fun other he => hafter other ?_, before, after, hbefore, fun other ho => ?_⟩
      · exact List.mem_append_right _ (List.mem_singleton.2 he.symm)
      · exact hafter other (List.mem_append_left _ ho)
  · rintro (rfl | ⟨hother, before, after, rfl, hafter⟩)
    · exact ⟨asked, [], rfl, by simp⟩
    · refine ⟨before, after ++ [a], by simp, fun other ho => ?_⟩
      rcases List.mem_append.1 ho with ho | ho
      · exact hafter other ho
      · exact hother other (List.mem_singleton.1 ho).symm

theorem Adds.nil (d : Draft) : Adds d [] d where
  terms := by simp
  tags key text := by simp [not_lastTag_nil]
  others := rfl

theorem Adds.addTerm (h : Adds d asked d') (word : String) :
    Adds d (asked ++ [.word word]) (d'.addTerm word) where
  terms w := by
    change w ∈ d'.terms.insert word ↔ _
    rw [SortedSet.mem_insert, h.terms, List.mem_append, List.mem_singleton, Asked.word.injEq]
    tauto
  tags key text := by
    change d'.tags.get? key = some text ↔ _
    rw [h.tags, lastTag_concat]
    simp
  others := by
    rw [h.others]
    rfl

/-- A tag takes the place of an earlier one with its key. -/
theorem Adds.putTag (h : Adds d asked d') (k t : String) :
    Adds d (asked ++ [.tag k t]) (d'.putTag k t) where
  terms w := by
    change w ∈ d'.terms ↔ _
    rw [h.terms]
    simp
  tags key text := by
    change (d'.tags.insert k t).get? key = some text ↔ _
    rw [SortedMap.get?_insert, lastTag_concat]
    by_cases hk : key = k
    · subst hk
      simp only [if_true, Option.some.injEq, Asked.tag.injEq, true_and, List.mem_append,
        List.mem_singleton]
      constructor
      · exact fun ht => .inl (.inl ht)
      · rintro ((ht | ⟨hother, -⟩) | ⟨hnone, -⟩)
        · exact ht
        · exact absurd rfl (hother t)
        · exact absurd (.inr rfl) (hnone t)
    · have hk' : ¬ k = key := fun e => hk e.symm
      simp [hk, hk', h.tags]
  others := by
    rw [h.others]
    rfl

theorem Adds.concat (h : Adds d asked d') (a : Asked) : Adds d (asked ++ [a]) (a.addTo d') := by
  cases a with
  | word word => exact h.addTerm word
  | tag key text => exact h.putTag key text

theorem Adds.foldl (d : Draft) (asked : List Asked) : Adds d asked (asked.foldl Asked.addTo d) := by
  induction asked using List.reverseRecOn with
  | nil => exact .nil d
  | append_singleton asked a ih =>
    rw [List.foldl_concat]
    exact ih.concat a

/-! Reading one part of a query. -/

theorem trimChars_of_solid {s : String} (h : Solid s) : trimChars s.toList = s.toList := by
  rw [trimChars_eq_self_iff]
  constructor
  · intro hblank
    obtain ⟨c, hc, hblank⟩ := Option.map_eq_some_iff.1 hblank
    rw [h c (List.mem_of_head? hc)] at hblank
    cases hblank
  · intro hblank
    obtain ⟨c, hc, hblank⟩ := Option.map_eq_some_iff.1 hblank
    rw [h c (List.mem_of_getLast? hc)] at hblank
    cases hblank

theorem not_mem_of_solid {s : String} (h : Solid s) : ' ' ∉ s.toList := fun hc =>
  absurd (h ' ' hc) (by decide)

theorem Asked.solid_written {a : Asked} (h : a.Plain) : Solid a.written := by
  cases a with
  | word text => exact h.2.1
  | tag key text =>
    obtain ⟨-, hkey, -, htext⟩ := h
    intro c hc
    rw [written, String.toList_append, String.toList_append, List.mem_append, List.mem_append] at hc
    rcases hc with (hc | hc) | hc
    · exact hkey c hc
    · rw [show "=".toList = ['='] from rfl, List.mem_singleton] at hc
      rw [hc]
      decide
    · exact htext c hc

theorem Asked.addPart_written (d : Draft) {a : Asked} (h : a.Plain) :
    d.addPart a.written.toList = a.addTo d := by
  have htrim := trimChars_of_solid (Asked.solid_written h)
  cases a with
  | word text =>
    obtain ⟨hne, -, hequals⟩ := h
    have hpart : text.toList ≠ [] := fun hnil => hne (String.toList_eq_nil_iff.1 hnil)
    simp only [written] at htrim
    simp only [Draft.addPart, written, htrim, if_neg hpart, cut?_eq_none_of_not_mem hequals,
      String.ofList_toList, addTo]
  | tag key text =>
    obtain ⟨hne, hkey, hequals, htext⟩ := h
    have hchars : (written (.tag key text)).toList = key.toList ++ (['='] ++ text.toList) := by
      simp [written]
    have hpart : key.toList ++ (['='] ++ text.toList) ≠ [] := by simp
    have hcut : cut? ['='] (key.toList ++ (['='] ++ text.toList))
        = some (key.toList, text.toList) := cut?_append_of_not_mem hequals
    rw [hchars] at htrim ⊢
    simp only [Draft.addPart, htrim, if_neg hpart, hcut, trimChars_of_solid hkey,
      trimChars_of_solid htext, String.ofList_toList, addTo]

/-- Reading a query adds what it asks for, part by part. -/
theorem Asked.addQuery_query (d : Draft) {asked : List Asked} (h : ∀ a ∈ asked, a.Plain) :
    d.addQuery (query asked) = asked.foldl addTo d := by
  have hchars : (query asked).toList
      = List.intercalate " and ".toList (asked.map fun a => a.written.toList) := by
    rw [query, String.toList_intercalate, List.map_map]
    rfl
  rw [Draft.addQuery, hchars]
  cases asked with
  | nil =>
    -- The empty query has one part, which is empty.
    rw [List.map_nil, List.intercalate_nil, splitWord_of_cut?_eq_none rfl]
    rfl
  | cons a asked =>
    have hspace : ∀ part ∈ (a :: asked).map fun a => a.written.toList, ' ' ∉ part := by
      intro part hpart
      obtain ⟨b, hb, rfl⟩ := List.mem_map.1 hpart
      exact not_mem_of_solid (Asked.solid_written (h b hb))
    rw [show " and ".toList = ' ' :: "and ".toList from rfl,
      splitWord_intercalate _ (by simp) hspace, List.foldl_map]
    apply List.foldl_ext
    intro d b hb
    exact Asked.addPart_written d (h b hb)

/-- Reading a query adds its words and its tags to a draft, the last tag of each key, and nothing
else. -/
theorem Draft.addQuery_adds (d : Draft) (asked : List Asked) (h : ∀ a ∈ asked, a.Plain) :
    Adds d asked (d.addQuery (Asked.query asked)) := by
  rw [Asked.addQuery_query d h]
  exact .foldl d asked

/-- A query for the word `and`, twice, and for two tags of one key. -/
def andQuery : List Asked :=
  [.word "and", .tag "http.path" "/api", .word "error", .word "and", .tag "http.path" "/a=b&c="]

theorem Draft.addQuery_adds_andQuery : (∀ a ∈ andQuery, a.Plain)
    ∧ Asked.query andQuery = "and and http.path=/api and error and and and http.path=/a=b&c="
    ∧ Adds {} andQuery (({} : Draft).addQuery (Asked.query andQuery)) := by
  have hplain : ∀ a ∈ andQuery, a.Plain := by simp [andQuery, Asked.Plain, Solid, isBlank]
  exact ⟨hplain, by simp [andQuery, Asked.query, Asked.written],
    Draft.addQuery_adds {} andQuery hplain⟩

end

end TraceArchive.Request
