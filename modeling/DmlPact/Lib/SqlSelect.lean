/-
DmlPact/Lib/SqlSelect.lean

What a query of one expression per row returns:

    SELECT expression FROM relation WHERE selection ORDER BY expression

The expression is the jsonb text of a bare name.  A bare name means the column
of that name if the relation has one, the columns of the system included, and
else the whole row.  So what the answer tells about the rows depends on which
of the two it is (`rows_eq_of_select_eq`).
-/
import DmlPact.Lib.SqlLex
import Mathlib.Data.Multiset.Filter

namespace SqlSelect

/-- The name that a text is, if it is one: a word, folded by the lexer, or a
quoted identifier. -/
def bareName (conforming : Bool) (text : List Char) : Option (List Char) :=
  match SqlLex.lex conforming text with
  | some [.word name] | some [.quoted name] => some name
  | _ => none

/-- A relation: the tuples it can store, the row of each, the jsonb text of
each column by name (nothing for NULL), and the jsonb text of a whole row. -/
structure Relation where
  Tuple : Type
  Row : Type
  row : Tuple → Row
  column : List Char → Option (Tuple → Option String)
  whole : Row → String
  whole_injective : Function.Injective whole

/-- An order of texts puts any number of them in line, and loses none. -/
structure Collation where
  sort : Multiset (Option String) → List (Option String)
  sort_eq : ∀ texts, (sort texts : Multiset (Option String)) = texts

namespace Relation

variable (T : Relation)

/-- The value of a bare name. -/
def value (name : List Char) (t : T.Tuple) : Option String :=
  match T.column name with
  | some column => column t
  | none => some (T.whole (T.row t))

/-- The tuples that satisfy the selection. -/
def selection (selected : T.Tuple → Bool) (contents : Multiset T.Tuple) : Multiset T.Tuple :=
  contents.filter (selected · = true)

/-- The rows that satisfy the selection. -/
def rows (selected : T.Tuple → Bool) (contents : Multiset T.Tuple) : Multiset T.Row :=
  (T.selection selected contents).map T.row

/-- The answer of the query. -/
def select (C : Collation) (name : List Char) (selected : T.Tuple → Bool)
    (contents : Multiset T.Tuple) : List (Option String) :=
  C.sort ((T.selection selected contents).map (T.value name))

/-- A value is never NULL where the selection holds, and there, as long as it
is among the texts `fits`, goes with one row only. -/
def Identifies (selected : T.Tuple → Bool) (fits : String → Prop)
    (value : T.Tuple → Option String) : Prop :=
  (∀ t, selected t = true → value t ≠ none) ∧
    ∀ t t' text, selected t = true → selected t' = true → fits text →
      value t = some text → value t' = some text → T.row t = T.row t'

variable {T} {C : Collation} {selected : T.Tuple → Bool} {fits : String → Prop}
  {name : List Char} {contents contents' : Multiset T.Tuple}

/-- Without a column of that name, the value identifies the row. -/
theorem identifies_value (h : T.column name = none) :
    T.Identifies selected fits (T.value name) := by
  have hvalue : T.value name = fun t => some (T.whole (T.row t)) := by
    funext t
    rw [value, h]
  rw [hvalue]
  refine ⟨fun t _ => Option.some_ne_none _, fun t t' text _ _ _ ht ht' => ?_⟩
  exact T.whole_injective (Option.some.inj (ht.trans ht'.symm))

/-- Whether the value of a name identifies the row is a question about a column
of that name. -/
theorem identifies_value_iff : T.Identifies selected fits (T.value name) ↔
    ∀ column, T.column name = some column → T.Identifies selected fits column := by
  rcases h : T.column name with - | column
  · exact ⟨nofun, fun _ => identifies_value h⟩
  · have hvalue : T.value name = column := by
      funext t
      rw [value, h]
    rw [hvalue]
    constructor
    · rintro hid _ ⟨⟩
      exact hid
    · intro hid
      exact hid column rfl

theorem mem_select {text : Option String} : text ∈ T.select C name selected contents ↔
    ∃ t ∈ contents, selected t = true ∧ T.value name t = text := by
  rw [← Multiset.mem_coe, select, C.sort_eq, Multiset.mem_map]
  simp [selection, and_assoc]

theorem select_singleton {t : T.Tuple} (h : selected t = true) :
    T.select C name selected {t} = [T.value name t] := by
  have hsort := C.sort_eq ((T.selection selected {t}).map (T.value name))
  have hselection : T.selection selected {t} = {t} := by
    rw [selection, Multiset.filter_singleton, if_pos h]
  rw [select]
  rw [hselection, Multiset.map_singleton] at hsort ⊢
  exact Multiset.coe_eq_singleton.mp hsort

theorem rows_singleton {t : T.Tuple} (h : selected t = true) :
    T.rows selected {t} = {T.row t} := by
  rw [rows, selection, Multiset.filter_singleton, if_pos h, Multiset.map_singleton]

/-- **The answer determines the rows**, if the value does and every text of the
answer fits. -/
theorem rows_eq_of_select_eq (hid : T.Identifies selected fits (T.value name))
    (hfits : ∀ text, some text ∈ T.select C name selected contents → fits text)
    (h : T.select C name selected contents = T.select C name selected contents') :
    T.rows selected contents = T.rows selected contents' := by
  classical
  -- the row of a text, where there is one
  let rowOf : Option String → Option T.Row := fun text =>
    if ht : ∃ t, selected t = true ∧ T.value name t = text then some (T.row ht.choose) else none
  have hrow : ∀ t ∈ contents + contents', selected t = true →
      rowOf (T.value name t) = some (T.row t) := by
    intro t hmem hselected
    have hex : ∃ u, selected u = true ∧ T.value name u = T.value name t := ⟨t, hselected, rfl⟩
    rcases hvalue : T.value name t with - | text
    · exact absurd hvalue (hid.1 t hselected)
    have hanswer : some text ∈ T.select C name selected contents := by
      rcases Multiset.mem_add.mp hmem with ht | ht
      · exact mem_select.mpr ⟨t, ht, hselected, hvalue⟩
      · rw [h]
        exact mem_select.mpr ⟨t, ht, hselected, hvalue⟩
    rw [hvalue] at hex
    show (if ht : ∃ u, selected u = true ∧ T.value name u = some text
      then some (T.row ht.choose) else none) = _
    rw [dif_pos hex]
    exact congrArg some (hid.2 _ _ text hex.choose_spec.1 hselected (hfits text hanswer)
      hex.choose_spec.2 hvalue)
  have hmap : ∀ {s : Multiset T.Tuple}, s ≤ contents + contents' →
      ((T.selection selected s).map (T.value name)).map rowOf = (T.rows selected s).map some := by
    intro s hs
    rw [rows, Multiset.map_map, Multiset.map_map]
    refine Multiset.map_congr rfl fun t ht => ?_
    obtain ⟨hmem, hselected⟩ := Multiset.mem_filter.mp ht
    exact hrow t (Multiset.mem_of_le hs hmem) hselected
  have hvalues : (T.selection selected contents).map (T.value name) =
      (T.selection selected contents').map (T.value name) := by
    rw [← C.sort_eq ((T.selection selected contents).map (T.value name)),
      ← C.sort_eq ((T.selection selected contents').map (T.value name))]
    exact congrArg _ h
  refine Multiset.map_injective (Option.some_injective _) ?_
  rw [← hmap (Multiset.le_add_right _ _), ← hmap (Multiset.le_add_left _ _), hvalues]

end Relation

end SqlSelect
