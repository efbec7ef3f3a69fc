/-
DmlPact/Apply/Quoting.lean

The canonical table of an evidence, read back by the rule for quoted names.

A doubled quote inside quotes is one quote, a lone one ends the name.  Read by
this rule the canonical table is the schema, a dot and the table, whatever
characters they are made of, so no two tables share it; and the lock pasted
around it stays one statement on that table.  A server that reads the lock
reads the same.  It refuses the text when one of the names is empty or has the
character no text has, and for no other reason.
-/
import DmlPact.Lib.SqlName
import DmlPact.Apply.Batches

namespace DmlPact

open SqlLex

theorem toList_canonicalTable (evidence : TableEvidence) :
    (canonicalTable evidence).toList =
      SqlName.quotedPair evidence.schema.toList evidence.table.toList := by
  simp [canonicalTable, toList_quoteIdentifier, SqlName.quotedPair]

theorem pieces_canonicalTable (evidence : TableEvidence) :
    SqlName.pieces (canonicalTable evidence).toList =
      some [.name evidence.schema.toList, .char '.', .name evidence.table.toList] := by
  rw [toList_canonicalTable]
  exact SqlName.pieces_quotedPair _ _

/-- The canonical table is that of one schema and one table. -/
theorem canonicalTable_inj {evidence other : TableEvidence}
    (h : canonicalTable other = canonicalTable evidence) :
    other.schema = evidence.schema ∧ other.table = evidence.table := by
  have hchars := congrArg String.toList h
  rw [toList_canonicalTable, toList_canonicalTable] at hchars
  obtain ⟨hschema, htable⟩ := SqlName.quotedPair_injective hchars
  exact ⟨String.toList_inj.mp hschema, String.toList_inj.mp htable⟩

/-! ### The lock -/

/-- The lock on one relation, in names and characters. -/
def lockPieces (schema table : String) : List SqlName.Piece :=
  "LOCK TABLE ".toList.map .char ++ [.name schema.toList, .char '.', .name table.toList] ++
    .char ' ' :: "IN SHARE ROW EXCLUSIVE MODE".toList.map .char

theorem pieces_lockText (evidence : TableEvidence) :
    SqlName.pieces (lockText (canonicalTable evidence)).toList =
      some (lockPieces evidence.schema evidence.table) := by
  have htext : (lockText (canonicalTable evidence)).toList = "LOCK TABLE ".toList ++
      (SqlName.quotedPair evidence.schema.toList evidence.table.toList ++
        ' ' :: "IN SHARE ROW EXCLUSIVE MODE".toList) := by
    simp [lockText, toList_canonicalTable]
  have hbefore : ∀ c ∈ "LOCK TABLE ".toList, c ≠ '"' := by
    simp
  have hafter : ∀ c ∈ "IN SHARE ROW EXCLUSIVE MODE".toList, c ≠ '"' := by
    simp
  rw [htext]
  exact SqlName.pieces_around hbefore hafter _ _

/-- Only a semicolon outside the names would part the lock, and there is none. -/
theorem statements_lockPieces (schema table : String) :
    SqlName.statements (lockPieces schema table) = [lockPieces schema table] := by
  apply SqlName.statements_eq_singleton
  have hbefore : SqlName.Piece.char ';' ∉ "LOCK TABLE ".toList.map SqlName.Piece.char :=
    SqlName.notMem_chars (by simp)
  have hafter : SqlName.Piece.char ';' ∉
      "IN SHARE ROW EXCLUSIVE MODE".toList.map SqlName.Piece.char :=
    SqlName.notMem_chars (by simp)
  have hpair : SqlName.Piece.char ';' ∉
      [.name schema.toList, .char '.', .name table.toList] := by
    simp
  have hrest : SqlName.Piece.char ';' ∉
      .char ' ' :: "IN SHARE ROW EXCLUSIVE MODE".toList.map SqlName.Piece.char :=
    List.not_mem_cons_of_ne_of_not_mem (by simp) hafter
  exact fun hmem => (List.mem_append.mp hmem).elim
    (fun hmem => (List.mem_append.mp hmem).elim hbefore hpair) hrest

theorem canonicalTable_faithful (conforming : Bool) (evidence : TableEvidence) :
    SqlName.pieces (canonicalTable evidence).toList =
      some [.name evidence.schema.toList, .char '.', .name evidence.table.toList] ∧
    (∀ other : TableEvidence, canonicalTable other = canonicalTable evidence ↔
      other.schema = evidence.schema ∧ other.table = evidence.table) ∧
    (SqlName.pieces (lockText (canonicalTable evidence)).toList).map SqlName.statements =
      some [lockPieces evidence.schema evidence.table] ∧
    batch conforming (lockText (canonicalTable evidence)).toList =
      if Nameable evidence.schema.toList ∧ Nameable evidence.table.toList then
        some [lockStatement evidence.schema evidence.table] else none := by
  refine ⟨pieces_canonicalTable evidence, fun other => ⟨canonicalTable_inj, ?_⟩, ?_,
    batch_lockText_quoted conforming _ _⟩
  · rintro ⟨hschema, htable⟩
    rw [canonicalTable, canonicalTable, hschema, htable]
  · rw [pieces_lockText, Option.map_some, statements_lockPieces]

end DmlPact
