import TraceArchive.Codec.Predicate
import TraceArchive.Proofs.Codec.Basic
import TraceArchive.Proofs.Json.Reader
import TraceArchive.Proofs.Predicate.Meaning

set_option autoImplicit false

/-!
Predicates in JSON. Every predicate is read back as it was written, as deep as conjunctions and
disjunctions stand in one another; only a text has to keep within the nesting that is read.
-/

namespace TraceArchive

open Json

namespace Json

/-- How many arrays and objects stand inside one another. -/
def depth : Json → Nat
  | .array items => 1 + itemsDepth items
  | .object members => 1 + membersDepth members
  | _ => 0
where
  itemsDepth : List Json → Nat
    | [] => 0
    | item :: items => max (depth item) (itemsDepth items)
  membersDepth : List (String × Json) → Nat
    | [] => 0
    | (_, value) :: members => max (depth value) (membersDepth members)

end Json

theorem Column.lossless : Lossless Column.toJson Column.ofJson where
  read_write column := by cases column <;> rfl
  ne_null := nofun

theorem Cell.lossless : Lossless Cell.toJson Cell.ofJson where
  read_write cell := by
    cases cell with
    | number n => rw [Cell.toJson, Cell.ofJson, asUInt64_ofUInt64]; rfl
    | text s => rfl
  ne_null cell := by cases cell <;> simp [Cell.toJson]

namespace Predicate

/-- A range as it stands in a predicate. -/
def Bounds.toJson (b : Bounds) : Json := ofMembers [
  member "attribute" b.column.toJson,
  member "min" (ofOption ofUInt64 b.min),
  member "max" (ofOption ofUInt64 b.max)]

theorem Bounds.lossless : Lossless Bounds.toJson Bounds.ofJson := by
  refine Takes.lossless (by decide) (by simp [Bounds.layout, member]) fun b => ?_
  refine .cons (.required Column.lossless _) ?_ rfl (fun _ => rfl) rfl
  refine .cons (.nullable lossless_uInt64) ?_ rfl (fun _ => rfl) rfl
  refine .cons (.nullable lossless_uInt64) ?_ rfl (fun _ => rfl) rfl
  exact .nil b

/-- A key and a text as they stand in a predicate. -/
def pairToJson (pair : String × String) : Json := ofMembers [
  member "key" (.string pair.1),
  member "value" (.string pair.2)]

theorem lossless_pair : Lossless pairToJson pairOfJson := by
  refine Takes.lossless (by decide) (by simp [pairLayout, member]) fun pair => ?_
  refine .cons (.required lossless_string _) ?_ rfl (fun _ => rfl) rfl
  refine .cons (.required lossless_string _) ?_ rfl (fun _ => rfl) rfl
  exact .nil pair

section

variable (packed : Bool)

theorem read_equal (column : Column) (cell : Cell) :
    read packed (equal column cell).toJson = .ok (equal column cell) := by
  have hcolumn := Column.lossless.read_write column
  have hcell := Cell.lossless.read_write cell
  change (Column.ofJson column.toJson >>= fun column => Cell.ofJson cell.toJson >>= fun cell =>
    Except.ok (equal column cell)) = _
  rw [hcolumn, ok_bind, hcell, ok_bind]

theorem read_between (column : Column) (min max : Option UInt64) :
    read packed (between column min max).toJson = .ok (between column min max) := by
  have hbounds := Bounds.lossless.read_write ⟨column, min, max⟩
  change (Bounds.ofJson (Bounds.toJson ⟨column, min, max⟩) >>= fun b : Bounds =>
    Except.ok (between b.column b.min b.max)) = _
  rw [hbounds]
  rfl

theorem read_anyTag (key text : String) :
    read packed (anyTag key text).toJson = .ok (anyTag key text) := by
  have hpair := lossless_pair.read_write (key, text)
  change (pairOfJson (pairToJson (key, text)) >>= fun pair : String × String =>
    Except.ok (anyTag pair.1 pair.2)) = _
  rw [hpair]
  rfl

mutual

/-- A predicate is read back, also where arrays may stand for its parts. -/
theorem read_toJson : (p : Predicate) → read packed p.toJson = .ok p
  | .always => rfl
  | .equal column cell => read_equal packed column cell
  | .between column min max => read_between packed column min max
  | .anyEvent _ => rfl
  | .anyTagKey _ => rfl
  | .anyTag key text => read_anyTag packed key text
  | .all ps => congrArg (Except.map all) (readList_listToJson ps)
  | .any ps => congrArg (Except.map any) (readList_listToJson ps)

theorem readList_listToJson : (ps : List Predicate) → readList packed (listToJson ps) = .ok ps
  | [] => by rw [listToJson, readList]
  | p :: ps => by
    rw [listToJson, readList, read_toJson p, readList_listToJson ps]
    rfl

end

end

/-! Texts. -/

theorem plain_ofOption (n : Option UInt64) : (ofOption ofUInt64 n).Plain := by
  cases n with
  | none => exact .null
  | some n => exact .natural n.toNat

/-- The name of a form with what it is made of. -/
theorem plain_form {name : String} {j : Json} (h : j.Plain) : (Json.object [(name, j)]).Plain :=
  .object (List.forall_mem_singleton.2 h)

mutual

theorem plain_toJson : (p : Predicate) → p.toJson.Plain
  | .always => .string _
  | .equal column cell => by
    have hcolumn : column.toJson.Plain := .string _
    have hcell : cell.toJson.Plain := by
      cases cell with
      | number n => exact plain_form (.natural n.toNat)
      | text s => exact plain_form (.string s)
    exact plain_form (.array (by simp [hcolumn, hcell]))
  | .between column min max => by
    have hcolumn : column.toJson.Plain := .string _
    exact plain_form (.object (by simp [hcolumn, plain_ofOption]))
  | .anyEvent value => plain_form (.string value)
  | .anyTagKey key => plain_form (.string key)
  | .anyTag key text => by
    have hkey : (Json.string key).Plain := .string key
    have htext : (Json.string text).Plain := .string text
    exact plain_form (.object (by simp [hkey, htext]))
  | .all ps => plain_form (.array (plain_listToJson ps))
  | .any ps => plain_form (.array (plain_listToJson ps))

theorem plain_listToJson : (ps : List Predicate) → ∀ j ∈ listToJson ps, j.Plain
  | [] => nofun
  | p :: ps => List.forall_mem_cons.2 ⟨plain_toJson p, plain_listToJson ps⟩

end

mutual

theorem nesting_toJson : (p : Predicate) → nesting p.toJson = p.toJson.depth
  | .always => rfl
  | .equal _ cell => by cases cell <;> rfl
  | .between _ min max => by cases min <;> cases max <;> rfl
  | .anyEvent _ => rfl
  | .anyTagKey _ => rfl
  | .anyTag _ _ => rfl
  | .all ps => by
    have hlist := listNesting_listToJson ps
    change 2 + nesting.listNesting (listToJson ps)
      = 1 + max (1 + depth.itemsDepth (listToJson ps)) 0
    omega
  | .any ps => by
    have hlist := listNesting_listToJson ps
    change 2 + nesting.listNesting (listToJson ps)
      = 1 + max (1 + depth.itemsDepth (listToJson ps)) 0
    omega

theorem listNesting_listToJson : (ps : List Predicate) →
    nesting.listNesting (listToJson ps) = depth.itemsDepth (listToJson ps)
  | [] => rfl
  | p :: ps => by
    have hlist := listNesting_listToJson ps
    rw [listToJson, nesting.listNesting, nesting_toJson p, hlist, depth.itemsDepth]

end

/-- The text of a predicate is refused if it nests too deep, and else the predicate is read back. -/
theorem ofDocument_toText (p : Predicate) : (Json.ofString? p.toJson.toText).map ofDocument
    = some (if p.toJson.depth ≤ nestingLimit then .ok p else .error .shape) := by
  rw [(plain_toJson p).ofString?_toText, Option.map_some, ofDocument, nesting_toJson, read_toJson]

/-- Predicates mean what they were put together from, and are read back from their JSON; from a text
they are read back as long as it keeps within the nesting that is read. -/
theorem keeps_meaning :
    (∀ (p q : Predicate) (r : Report), (p.and q).test r = (p.test r && q.test r)
        ∧ (p.or q).test r = (p.test r || q.test r))
      ∧ (∀ (c : Combination) (r : Report), c.predicate.test r = c.holds r)
      ∧ (∀ p : Predicate, ofJson p.toJson = .ok p)
      ∧ ∀ p : Predicate, (Json.ofString? p.toJson.toText).map ofDocument
        = some (if p.toJson.depth ≤ nestingLimit then .ok p else .error .shape) :=
  ⟨fun p q _ => ⟨test_and p q, test_or p q⟩, Combination.test_predicate, read_toJson false,
    ofDocument_toText⟩

/-- Conjunctions inside one another. -/
def conjunctions : Nat → Predicate
  | 0 => .always
  | n + 1 => .all [conjunctions n]

/-- Each of them is an object with an array in it. -/
theorem depth_conjunctions (n : Nat) : (conjunctions n).toJson.depth = 2 * n := by
  induction n with
  | zero => rfl
  | succ n ih =>
    change 1 + max (1 + max (conjunctions n).toJson.depth 0) 0 = _
    omega

/-- The text of sixty-four conjunctions inside one another is not read back. -/
theorem not_ofDocument_conjunctions :
    (Json.ofString? (conjunctions 64).toJson.toText).map ofDocument
      ≠ some (.ok (conjunctions 64)) := by
  rw [ofDocument_toText, depth_conjunctions, if_neg (by decide)]
  nofun

end Predicate

end TraceArchive
