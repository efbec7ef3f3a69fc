/-
DmlPact/Process/Columns.lean

The columns that the program asks of each of its queries, and that a row with
these columns is decoded without a panic.  The types are those of the server: a
cast where the text has one, `name` and `text` as strings.  NULL is a column's
only where the program takes it, for the server's address and port and for a
default; a definition that is NULL, as that of an object that is gone can be, is
not one that was asked for.
-/
import DmlPact.Model.Engine
import Mathlib.Data.List.Forall2

namespace DmlPact

open Effect Utf8

/-! ### Columns -/

inductive SqlType where
  | text | bool | int2 | int4 | int8 | json

/-- A column of an answer. -/
structure Column where
  type : SqlType
  nullable : Bool

inductive SqlValue.Has : SqlValue → SqlType → Prop
  | text (s : String) : SqlValue.Has (.text s) .text
  | bool (b : Bool) : SqlValue.Has (.bool b) .bool
  | int2 (n : Int16) : SqlValue.Has (.int2 n) .int2
  | int4 (n : Int32) : SqlValue.Has (.int4 n) .int4
  | int8 (n : Int64) : SqlValue.Has (.int8 n) .int8
  | json (v : Json.Value) : SqlValue.Has (.json v) .json

/-- A value of the column's type, or NULL where that is allowed. -/
def Column.Holds (c : Column) (v : SqlValue) : Prop := v.Has c.type ∨ (c.nullable ∧ v = .null)

/-- A row with these columns. -/
def Row.Fits (columns : List Column) (row : Row) : Prop := List.Forall₂ Column.Holds columns row

/-- Whatever the column holds can be read as an `α`. -/
class ReadsColumn (α : Type) [FromSql α] (c : Column) : Prop where
  reads : ∀ v, c.Holds v → (FromSql.fromSql v : Option α).isSome

theorem reads_of_has {α : Type} [FromSql α] {t : SqlType}
    (ht : ∀ v : SqlValue, v.Has t → (FromSql.fromSql v : Option α).isSome) :
    ReadsColumn α ⟨t, false⟩ :=
  ⟨fun v hv => ht v (hv.resolve_right fun hnull => Bool.false_ne_true hnull.1)⟩

instance : ReadsColumn String ⟨.text, false⟩ := reads_of_has fun _ hv => by cases hv; rfl
instance : ReadsColumn Bool ⟨.bool, false⟩ := reads_of_has fun _ hv => by cases hv; rfl
instance : ReadsColumn Int16 ⟨.int2, false⟩ := reads_of_has fun _ hv => by cases hv; rfl
instance : ReadsColumn Int64 ⟨.int8, false⟩ := reads_of_has fun _ hv => by cases hv; rfl
instance : ReadsColumn Json.Value ⟨.json, false⟩ := reads_of_has fun _ hv => by cases hv; rfl
instance : ReadsColumn Int32 ⟨.int4, false⟩ := reads_of_has fun _ hv => by cases hv; rfl

instance {α : Type} [FromSql α] {t : SqlType} [hα : ReadsColumn α ⟨t, false⟩] :
    ReadsColumn (Option α) ⟨t, true⟩ where
  reads := by
    rintro v (hv | ⟨-, rfl⟩)
    · have hsome := hα.reads v (.inl hv)
      cases hv <;> simpa [FromSql.fromSql] using hsome
    · rfl

theorem Row.Fits.get {α : Type} [FromSql α] {columns : List Column} {row : Row} {c : Column}
    [hα : ReadsColumn α c] (hfits : row.Fits columns) {i : Nat} (hc : columns[i]? = some c) :
    (row.get i : Option α).isSome := by
  obtain ⟨hi, rfl⟩ := List.getElem?_eq_some_iff.mp hc
  have hrow : i < row.length := hfits.length_eq ▸ hi
  have hholds : columns[i].Holds row[i] := (List.forall₂_iff_get.mp hfits).2 i hi hrow
  rw [Row.get, List.getElem?_eq_getElem hrow, Option.bind_some]
  exact hα.reads _ hholds

/-! ### What the queries select -/

def identityColumns : List Column :=
  [⟨.text, false⟩, ⟨.text, false⟩, ⟨.text, false⟩, ⟨.int8, false⟩, ⟨.text, true⟩, ⟨.int4, true⟩,
    ⟨.text, false⟩, ⟨.text, false⟩, ⟨.text, false⟩, ⟨.text, false⟩, ⟨.text, false⟩,
    ⟨.text, false⟩, ⟨.text, false⟩, ⟨.text, false⟩]

def lookupColumns : List Column :=
  [⟨.int8, false⟩, ⟨.text, false⟩, ⟨.text, false⟩, ⟨.text, false⟩, ⟨.text, false⟩,
    ⟨.bool, false⟩, ⟨.bool, false⟩]

def columnColumns : List Column :=
  [⟨.int2, false⟩, ⟨.text, false⟩, ⟨.text, false⟩, ⟨.bool, false⟩, ⟨.bool, false⟩,
    ⟨.text, true⟩, ⟨.text, false⟩, ⟨.text, false⟩]

/-- The columns that the program asks of a query. -/
inductive Selects : String → List Column → Prop
  | identity : Selects identitySql identityColumns
  | lookup : Selects tableLookupSql lookupColumns
  | columns : Selects columnSql columnColumns
  | named {query : String}
      (h : query ∈ [constraintSql, indexSql, triggerSql, ruleSql, policySql,
        referentialActionSql]) : Selects query [⟨.text, false⟩, ⟨.text, false⟩]
  | inheritance : Selects inheritanceSql [⟨.text, false⟩]
  | count (table selection : String) : Selects (countText table selection) [⟨.int8, false⟩]
  | targetRows (rowReference table selection : String) :
      Selects (targetRowsText rowReference table selection) [⟨.text, false⟩]
  | explain (normalized : String) : Selects (explainText normalized) [⟨.json, false⟩]

/-- An answer with a row that does not have the columns asked for. -/
def Misfit (e : Event Cmd Reply) : Prop :=
  ∃ sql params rows columns, e = ⟨.query sql params, rows⟩ ∧ Selects sql columns ∧
    ∃ row ∈ rows.rows, ¬ row.Fits columns

/-! ### Rows that can be decoded -/

theorem isSome_bind {α β : Type} {o : Option α} {f : α → Option β} (ho : o.isSome)
    (hf : ∀ a, (f a).isSome) : (o >>= f).isSome := by
  obtain ⟨a, rfl⟩ := Option.isSome_iff_exists.mp ho
  exact hf a

theorem isSome_mapM {α β : Type} {f : α → Option β} {as : List α}
    (hf : ∀ a ∈ as, (f a).isSome) : (as.mapM f).isSome := by
  induction as with
  | nil => rfl
  | cons a as ih =>
      rw [List.mapM_cons]
      refine isSome_bind (hf a List.mem_cons_self) fun _ => ?_
      exact isSome_bind (ih fun b hb => hf b (List.mem_cons_of_mem _ hb)) fun _ => rfl

theorem DatabaseIdentity.isSome_ofRow {endpoint : String} {row : Row}
    (hfits : row.Fits identityColumns) : (DatabaseIdentity.ofRow endpoint row).isSome := by
  unfold DatabaseIdentity.ofRow
  iterate 14 refine isSome_bind (hfits.get rfl) fun _ => ?_
  rfl

theorem ColumnEvidence.isSome_ofRow {row : Row} (hfits : row.Fits columnColumns) :
    (ColumnEvidence.ofRow row).isSome := by
  unfold ColumnEvidence.ofRow
  iterate 8 refine isSome_bind (hfits.get rfl) fun _ => ?_
  rfl

theorem NamedDefinition.isSome_ofRow {row : Row}
    (hfits : row.Fits [⟨.text, false⟩, ⟨.text, false⟩]) : (NamedDefinition.ofRow row).isSome := by
  unfold NamedDefinition.ofRow
  iterate 2 refine isSome_bind (hfits.get rfl) fun _ => ?_
  rfl

theorem isSome_collectEvidence {rows : List Row} (hfits : ∀ row ∈ rows, row.Fits [⟨.text, false⟩])
    (evidence : Bytes) (observed : Nat) : (collectEvidence evidence observed rows).isSome := by
  induction rows generalizing evidence observed with
  | nil => rfl
  | cons row rows ih =>
      refine isSome_bind ((hfits row List.mem_cons_self).get rfl) fun value => ?_
      dsimp only
      split_ifs
      · rfl
      · exact ih (fun r hr => hfits r (List.mem_cons_of_mem _ hr)) _ _

end DmlPact
