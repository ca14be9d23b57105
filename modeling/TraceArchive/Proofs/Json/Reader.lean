import TraceArchive.Json.Reader
import TraceArchive.Proofs.Json.Token

set_option autoImplicit false

/-!
Written JSON is read back. The text of a value leads the reader from every place where a value may
come to the place behind this value, whatever is open around it; the text of an array or an object
does so because the texts of its parts do.
-/

namespace TraceArchive.Json

/-- A value without numbers in a form of their own and without anything unreadable. -/
inductive Plain : Json → Prop
  | null : Plain .null
  | bool (value : Bool) : Plain (.bool value)
  | natural (value : Nat) : Plain (.natural value)
  | string (text : String) : Plain (.string text)
  | array {items : List Json} : (∀ j ∈ items, Plain j) → Plain (.array items)
  | object {members : List (String × Json)} : (∀ m ∈ members, Plain m.2) → Plain (.object members)

namespace Place

/-- Reads on from a place to the end of a text. -/
def run (place : Place) (cs : List Char) : Option Place :=
  (Token.list? cs).bind fun ts => ts.foldlM step place

theorem run_step {place next : Place} {cs after : List Char} {t : Token}
    (ht : Token.next? cs = some (t, after)) (hnext : place.step t = some next) :
    place.run cs = next.run after := by
  rw [run, Token.list?_eq ht]
  cases hts : Token.list? after with
  | none => simp [run, hts]
  | some ts => simp [run, hts, List.foldlM_cons, hnext]

/-- A value may come, within what is open around it. -/
inductive WantsValue : Place → List Frame → Prop
  | next (stack : List Frame) : WantsValue (.wantValue stack) stack
  | first (stack : List Frame) : WantsValue (.wantItem stack) (.items [] :: stack)

/-- The name of a member may come, after the members before it. -/
inductive WantsName : Place → OpenObject → List Frame → Prop
  | next (before : OpenObject) (stack : List Frame) :
      WantsName (.wantName before stack) before stack
  | first (stack : List Frame) : WantsName (.wantMember stack) {} stack

section

variable {place : Place} {stack : List Frame} {before : OpenObject}

theorem WantsValue.step_scalar (h : WantsValue place stack) (j : Json) :
    place.step (.scalar j) = some (close j stack) := by
  cases h <;> rfl

theorem WantsValue.step_openBracket (h : WantsValue place stack) :
    place.step .openBracket = some (.wantItem stack) := by
  cases h <;> rfl

theorem WantsValue.step_openBrace (h : WantsValue place stack) :
    place.step .openBrace = some (.wantMember stack) := by
  cases h <;> rfl

theorem WantsName.step_name (h : WantsName place before stack) (name : String) :
    place.step (.scalar (.string name)) = some (.wantColon before name stack) := by
  cases h <;> rfl

/-- The text of a value leads from each place where it may come to the place behind it. -/
def Passes (j : Json) : Prop :=
  ∀ (place : Place) (stack : List Frame) (rest : List Char), WantsValue place stack →
    Token.EndsNumber rest → place.run ((toText j).toList ++ rest) = (close j stack).run rest

theorem passes_scalar {j : Json} (h : ∀ rest, Token.EndsNumber rest →
    Token.next? ((toText j).toList ++ rest) = some (.scalar j, rest)) : Passes j :=
  fun _ _ rest hplace hrest => run_step (h rest hrest) (hplace.step_scalar j)

/-! Arrays. -/

theorem run_afterItem_comma (items : List Json) (stack : List Frame) (cs : List Char) :
    (afterItem items stack).run (',' :: cs) = (wantValue (.items items :: stack)).run cs :=
  run_step (t := .comma) rfl rfl

theorem run_afterItem_bracket (items : List Json) (stack : List Frame) (cs : List Char) :
    (afterItem items stack).run (']' :: cs) = (close (.array items.reverse) stack).run cs :=
  run_step (t := .closeBracket) rfl rfl

theorem run_itemsText {items before : List Json} (rest : List Char) (hne : items ≠ [])
    (hitems : ∀ j ∈ items, Passes j) (h : WantsValue place (.items before :: stack)) :
    place.run ((itemsText items).toList ++ ']' :: rest)
      = (close (.array (before.reverse ++ items)) stack).run rest := by
  induction items generalizing before place with
  | nil => exact absurd rfl hne
  | cons item items ih =>
    have hitem := hitems item List.mem_cons_self place (.items before :: stack)
    cases items with
    | nil =>
      rw [itemsText, hitem _ h (Token.endsNumber_cons (by decide) _), close, run_afterItem_bracket,
        List.reverse_cons]
    | cons next items =>
      have htext : (itemsText (item :: next :: items)).toList ++ ']' :: rest
          = (toText item).toList ++ ',' :: ((itemsText (next :: items)).toList ++ ']' :: rest) := by
        simp [itemsText]
      rw [htext, hitem _ h (Token.endsNumber_cons (by decide) _), close, run_afterItem_comma,
        ih (List.cons_ne_nil _ _) (fun j hj => hitems j (List.mem_cons_of_mem _ hj)) (.next _),
        List.reverse_cons, List.append_assoc, List.singleton_append]

theorem passes_array {items : List Json} (hitems : ∀ j ∈ items, Passes j) :
    Passes (.array items) := by
  intro place stack rest hplace _
  have htext : (toText (.array items)).toList ++ rest
      = '[' :: ((itemsText items).toList ++ ']' :: rest) := by
    simp [toText]
  rw [htext, run_step (t := .openBracket) rfl hplace.step_openBracket]
  by_cases hne : items = []
  · subst hne
    exact run_step (t := .closeBracket) rfl rfl
  · exact run_itemsText rest hne hitems (.first stack)

/-! Objects. -/

theorem run_wantColon (before : OpenObject) (name : String) (stack : List Frame) (cs : List Char) :
    (wantColon before name stack).run (':' :: cs)
      = (wantValue (.member before name :: stack)).run cs :=
  run_step (t := .colon) rfl rfl

theorem run_afterMember_comma (members : OpenObject) (stack : List Frame) (cs : List Char) :
    (afterMember members stack).run (',' :: cs) = (wantName members stack).run cs :=
  run_step (t := .comma) rfl rfl

theorem run_afterMember_brace (members : OpenObject) (stack : List Frame) (cs : List Char) :
    (afterMember members stack).run ('\x7d' :: cs) = (close (ofOpen members) stack).run cs :=
  run_step (t := .closeBrace) rfl rfl

theorem run_memberText {name : String} {value : Json} {rest : List Char} (hvalue : Passes value)
    (h : WantsName place before stack) (hrest : Token.EndsNumber rest) :
    place.run ((quote name ++ ":" ++ toText value).toList ++ rest)
      = (afterMember { before with members := (name, value) :: before.members } stack).run
          rest := by
  have htext : (quote name ++ ":" ++ toText value).toList ++ rest
      = (quote name).toList ++ ':' :: ((toText value).toList ++ rest) := by simp
  rw [htext, run_step (Token.next?_quote name _) (h.step_name name), run_wantColon,
    hvalue _ _ rest (.next _) hrest, close]

theorem run_membersText {members : List (String × Json)} (rest : List Char) (hne : members ≠ [])
    (hmembers : ∀ m ∈ members, Passes m.2) (h : WantsName place before stack) :
    place.run ((membersText members).toList ++ '\x7d' :: rest)
      = (close (ofOpen { before with members := members.reverse ++ before.members }) stack).run
        rest := by
  induction members generalizing before place with
  | nil => exact absurd rfl hne
  | cons m members ih =>
    obtain ⟨name, value⟩ := m
    have hvalue := hmembers (name, value) List.mem_cons_self
    cases members with
    | nil =>
      rw [membersText, run_memberText hvalue h (Token.endsNumber_cons (by decide) _),
        run_afterMember_brace]
      rfl
    | cons next members =>
      have htext : (membersText ((name, value) :: next :: members)).toList ++ '\x7d' :: rest
          = (quote name ++ ":" ++ toText value).toList
            ++ ',' :: ((membersText (next :: members)).toList ++ '\x7d' :: rest) := by
        simp [membersText]
      rw [htext, run_memberText hvalue h (Token.endsNumber_cons (by decide) _),
        run_afterMember_comma,
        ih (List.cons_ne_nil _ _) (fun m hm => hmembers m (List.mem_cons_of_mem _ hm)) (.next _ _)]
      simp

theorem passes_object {members : List (String × Json)} (hmembers : ∀ m ∈ members, Passes m.2) :
    Passes (.object members) := by
  intro place stack rest hplace _
  have htext : (toText (.object members)).toList ++ rest
      = '\x7b' :: ((membersText members).toList ++ '\x7d' :: rest) := by
    simp [toText]
  rw [htext, run_step (t := .openBrace) rfl hplace.step_openBrace]
  by_cases hne : members = []
  · subst hne
    exact run_step (t := .closeBrace) rfl rfl
  · rw [run_membersText rest hne hmembers (.first stack), List.append_nil, ofOpen, if_pos rfl,
      List.reverse_reverse]

end

end Place

theorem Plain.passes {j : Json} (h : Plain j) : Place.Passes j := by
  induction h with
  | null => exact Place.passes_scalar fun _ _ => rfl
  | bool value => cases value <;> exact Place.passes_scalar fun _ _ => rfl
  | natural value => exact Place.passes_scalar fun _ hrest => Token.next?_repr hrest value
  | string text => exact Place.passes_scalar fun rest _ => Token.next?_quote text rest
  | array _ ih => exact Place.passes_array ih
  | object _ ih => exact Place.passes_object ih

theorem ofString?_eq (text : String) :
    ofString? text = match Place.run (.wantValue []) text.toList with
      | some (.done j) => some j
      | _ => none := by
  rw [ofString?, Place.run]
  cases Token.list? text.toList <;> rfl

/-- A value is read back from its text. -/
theorem Plain.ofString?_toText {j : Json} (h : Plain j) : ofString? (toText j) = some j := by
  have hrun := h.passes (.wantValue []) [] [] (.next []) Token.endsNumber_nil
  have hend : (Place.done j).run [] = some (.done j) := by
    rw [Place.run, Token.list?]
    rfl
  rw [List.append_nil, Place.close, hend] at hrun
  rw [ofString?_eq, hrun]

end TraceArchive.Json
