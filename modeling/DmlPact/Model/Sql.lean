/-
DmlPact/Model/Sql.lean

The statement policy of `sql.rs`: which statements are accepted, and the two
queries that are generated for an UPDATE or a DELETE.
-/
import DmlPact.Lib.Str
import DmlPact.Model.Integrity

namespace DmlPact

open Effect

def maxSqlBytes : Nat := 1048576

structure AnalyzedSql where
  normalized : String
  kind : StatementKind
  requestedTable : String
  sqlFileSha256 : String
  normalizedSqlSha256 : String
  countSql : Option String
  countQuerySha256 : Option String
  targetRowsSql : Option String
  targetQuerySha256 : Option String
  insertedRows : UInt64
  deriving DecidableEq

structure StatementDetails where
  kind : StatementKind
  table : String
  countSql : Option String
  targetRowsSql : Option String
  insertedRows : UInt64

def policy (code message : String) : AppError := { class_ := .policy, code, message }

/-! ### Expressions -/

/-- Why an expression is not allowed, if it is not. -/
def unsafeKind : Ast.Expr → Option String
  | .function _ _ => some "function"
  | .subquery _ | .exist _ _ | .inSubquery _ _ _ => some "subquery"
  | .value (.placeholder _) => some "placeholder"
  | .identifier ident =>
      if ident.quoteStyle.isNone && Str.eqIgnoreAsciiCase ident.value "default" then
        some "default"
      else none
  | _ => none

def rejectUnsafeExpressions (statement : Ast.Statement) : AppResult Unit :=
  match statement.visit.findSome? unsafeKind with
  | none => .ok ()
  | some kind => .error (policy "dynamic_expression_denied"
      (kind ++ " expressions are not supported in v0.1 safety contracts"))

/-! ### Targets -/

variable (X : Crates)

def validateObjectName (name : Ast.ObjectName) : AppResult String :=
  if !(1 ≤ name.parts.length && name.parts.length ≤ 2)
      || name.parts.any (fun part => part.asIdent.isNone) then
    .error (policy "table_name_denied"
      "table names must be unqualified or schema-qualified identifiers")
  else .ok (X.showName name)

/-- The name of the target and the row reference: the alias, or else the last
part of the name. -/
def validateTableWithJoins (table : Ast.TableWithJoins) : AppResult (String × String) :=
  if !table.joins.isEmpty then
    .error (policy "join_denied" "joins are not supported for mutation targets")
  else match table.relation with
  | .table name alias_ args withHints version withOrdinality partitions jsonPath sample
      indexHints =>
      if args.isNone && withHints.isEmpty && version.isNone && !withOrdinality
          && partitions.isEmpty && jsonPath.isNone && sample.isNone && indexHints.isEmpty
          && alias_.all (fun value => value.columns.isEmpty) then do
        let validatedName ← validateObjectName X name
        match alias_ with
        | some value => return (validatedName, X.showIdent value.name)
        | none =>
            match name.parts.getLast?.bind Ast.ObjectNamePart.asIdent with
            | some ident => return (validatedName, X.showIdent ident)
            | none => throw (policy "table_name_denied"
                "the target table must have an identifier row reference")
      else .error (policy "table_factor_denied"
        "the mutation target must be a plain named table")
  | .other _ => .error (policy "table_factor_denied"
      "the mutation target must be a plain named table")

/-! ### The generated queries -/

def countText (table selection : String) : String :=
  "SELECT COUNT(*)::bigint FROM " ++ table ++ " WHERE " ++ selection

def targetRowsText (rowReference table selection : String) : String :=
  "SELECT pg_catalog.to_jsonb(" ++ rowReference ++ ")::text FROM " ++ table ++ " WHERE " ++
    selection ++ " ORDER BY pg_catalog.to_jsonb(" ++ rowReference ++ ")::text"

/-- The details of an UPDATE or a DELETE of the rows of `table` that satisfy
`selection`. -/
def selectionDetails (kind : StatementKind) (table : Ast.TableWithJoins)
    (selection : Ast.Expr) : AppResult StatementDetails := do
  let (name, rowReference) ← validateTableWithJoins X table
  return {
    kind, table := name
    countSql := some (countText (X.showTable table) (X.showExpr selection))
    targetRowsSql :=
      some (targetRowsText rowReference (X.showTable table) (X.showExpr selection))
    insertedRows := 0 }

/-! ### The three statements -/

def analyzeInsert (insert : Ast.Insert) : AppResult StatementDetails := do
  if !insert.optimizerHints.isEmpty || insert.or.isSome || insert.ignore
      || insert.tableAlias.isSome || insert.overwrite || !insert.assignments.isEmpty
      || insert.partitioned.isSome || !insert.afterColumns.isEmpty
      || insert.hasTableKeyword || insert.on.isSome || insert.returning.isSome
      || insert.output.isSome || insert.replaceInto || insert.priority.isSome
      || insert.insertAlias.isSome || insert.settings.isSome || insert.formatClause.isSome
      || insert.multiTableInsertType.isSome || !insert.multiTableIntoClauses.isEmpty
      || !insert.multiTableWhenClauses.isEmpty || insert.multiTableElseClause.isSome then
    throw (policy "insert_form_denied"
      "only a plain single-table INSERT ... VALUES statement is supported")
  let name ← match insert.table with
    | .tableName name => validateObjectName X name
    | .other _ => throw (policy "insert_target_denied"
        "the INSERT target must be a named table")
  let some source := insert.source | throw (policy "insert_values_required"
    "INSERT must contain an explicit VALUES clause")
  if source.with_.isSome || source.orderBy.isSome || source.limitClause.isSome
      || source.fetch.isSome || !source.locks.isEmpty || source.forClause.isSome
      || source.settings.isSome || source.formatClause.isSome
      || !source.pipeOperators.isEmpty then
    throw (policy "insert_query_denied" "INSERT query modifiers are not supported")
  let .values values := source.body | throw (policy "insert_select_denied"
    "INSERT ... SELECT is not supported; use explicit VALUES")
  if values.explicitRow || values.valueKeyword || values.rows.isEmpty then
    throw (policy "insert_values_form_denied"
      "INSERT requires one or more standard VALUES rows")
  let some first := values.rows.head? | throw (policy "insert_values_empty"
    "INSERT VALUES must not be empty")
  let width := first.length
  if width = 0 || values.rows.any (fun row => row.length != width) then
    throw (policy "insert_values_width_mismatch"
      "all INSERT VALUES rows must have the same non-zero width")
  if !insert.columns.isEmpty && insert.columns.length != width then
    throw (policy "insert_column_count_mismatch"
      "the INSERT column count must match every VALUES row")
  if 2 ^ 64 ≤ values.rows.length then
    throw (policy "insert_row_count_out_of_range"
      "the INSERT row count is outside the supported range")
  return {
    kind := .insert, table := name, countSql := none, targetRowsSql := none
    insertedRows := UInt64.ofNat values.rows.length }

def analyzeUpdate (update : Ast.Update) : AppResult StatementDetails :=
  if !update.optimizerHints.isEmpty || update.from_.isSome || update.returning.isSome
      || update.output.isSome || update.or.isSome || !update.orderBy.isEmpty
      || update.limit.isSome || update.assignments.isEmpty then
    .error (policy "update_form_denied"
      "UPDATE joins, FROM, RETURNING, ORDER BY, LIMIT, and extensions are not supported")
  else match update.selection with
  | none => .error (policy "where_required" "UPDATE requires an explicit WHERE clause")
  | some selection => selectionDetails X .update update.table selection

def analyzeDelete (delete : Ast.Delete) : AppResult StatementDetails :=
  if !delete.optimizerHints.isEmpty || !delete.tables.isEmpty || delete.using_.isSome
      || delete.returning.isSome || delete.output.isSome || !delete.orderBy.isEmpty
      || delete.limit.isSome then
    .error (policy "delete_form_denied"
      "DELETE USING, RETURNING, ORDER BY, LIMIT, and extensions are not supported")
  else match delete.selection with
  | none => .error (policy "where_required" "DELETE requires an explicit WHERE clause")
  | some selection =>
      match delete.from_ with
      | .withoutKeyword _ => .error (policy "delete_from_required"
          "DELETE must use the standard FROM form")
      | .withFromKeyword [table] => selectionDetails X .delete table selection
      | .withFromKeyword _ => .error (policy "single_table_required"
          "exactly one target table is required")

def analyzeStatement : Ast.Statement → AppResult StatementDetails
  | .insert insert => analyzeInsert X insert
  | .update update => analyzeUpdate X update
  | .delete delete => analyzeDelete X delete
  | .other _ => .error (policy "statement_kind_denied"
      "only INSERT VALUES, UPDATE, and DELETE are supported")

/-! ### What is accepted -/

/-- The statement changes the rows of `table` that satisfy `selection`. -/
inductive Mutates : Ast.Statement → StatementKind → Ast.TableWithJoins → Ast.Expr → Prop
  | update (update : Ast.Update) (selection : Ast.Expr) (h : update.selection = some selection) :
      Mutates (.update update) .update update.table selection
  | delete (delete : Ast.Delete) (table : Ast.TableWithJoins) (selection : Ast.Expr)
      (hfrom : delete.from_ = .withFromKeyword [table]) (h : delete.selection = some selection) :
      Mutates (.delete delete) .delete table selection

theorem analyzeInsert_ok {insert : Ast.Insert} {details : StatementDetails}
    (h : analyzeInsert X insert = .ok details) :
    details.kind = .insert ∧ details.countSql = none ∧ details.targetRowsSql = none := by
  unfold analyzeInsert at h
  simp only [bind, Except.bind, pure, Except.pure, throw, throwThe, MonadExceptOf.throw] at h
  repeat' split at h
  all_goals first
    | cases h; exact ⟨rfl, rfl, rfl⟩
    | skip
  all_goals cases h

theorem selectionDetails_ok {kind : StatementKind} {table : Ast.TableWithJoins}
    {selection : Ast.Expr} {details : StatementDetails}
    (h : selectionDetails X kind table selection = .ok details) :
    ∃ name rowReference, validateTableWithJoins X table = .ok (name, rowReference) ∧
      details = {
        kind, table := name
        countSql := some (countText (X.showTable table) (X.showExpr selection))
        targetRowsSql :=
          some (targetRowsText rowReference (X.showTable table) (X.showExpr selection))
        insertedRows := 0 } := by
  unfold selectionDetails at h
  rcases hvalid : validateTableWithJoins X table with e | ⟨name, rowReference⟩
  · rw [hvalid] at h
    cases h
  · rw [hvalid] at h
    cases h
    exact ⟨name, rowReference, rfl, rfl⟩

/-- What is accepted is an INSERT, about which nothing is counted, or changes
the rows of one table that satisfy a selection. -/
theorem analyzeStatement_ok {statement : Ast.Statement} {details : StatementDetails}
    (h : analyzeStatement X statement = .ok details) :
    ((∃ insert, statement = .insert insert) ∧ details.kind = .insert ∧
      details.countSql = none ∧ details.targetRowsSql = none) ∨
    ∃ kind table selection, Mutates statement kind table selection ∧
      selectionDetails X kind table selection = .ok details := by
  cases statement with
  | insert insert => exact .inl ⟨⟨insert, rfl⟩, analyzeInsert_ok X h⟩
  | update update =>
      simp only [analyzeStatement, analyzeUpdate] at h
      split_ifs at h
      rcases hselection : update.selection with - | selection
      · rw [hselection] at h
        cases h
      · rw [hselection] at h
        exact .inr ⟨_, _, selection, .update update selection hselection, h⟩
  | delete delete =>
      simp only [analyzeStatement, analyzeDelete] at h
      split_ifs at h
      rcases hselection : delete.selection with - | selection
      · rw [hselection] at h
        cases h
      rw [hselection] at h
      rcases hfrom : delete.from_ with tables | tables
      · rw [hfrom] at h
        rcases tables with - | ⟨table, - | ⟨other, rest⟩⟩
        · cases h
        · exact .inr ⟨_, table, selection, .delete delete table selection hfrom hselection, h⟩
        · cases h
      · rw [hfrom] at h
        cases h
  | other => cases h

/-! ### A whole file -/

/-- The analysis of one accepted statement of a file. -/
def analyzed (raw : String) (statement : Ast.Statement) (details : StatementDetails) :
    AnalyzedSql where
  normalized := X.showStatement statement
  kind := details.kind
  requestedTable := details.table
  sqlFileSha256 := sha256Bytes X (asBytes raw)
  normalizedSqlSha256 := sha256Bytes X (asBytes (X.showStatement statement))
  countSql := details.countSql
  countQuerySha256 := details.countSql.map fun query => sha256Bytes X (asBytes query)
  targetRowsSql := details.targetRowsSql
  targetQuerySha256 := details.targetRowsSql.map fun query => sha256Bytes X (asBytes query)
  insertedRows := details.insertedRows

def sqlFileTooLarge : AppError where
  class_ := .usage
  code := "sql_file_too_large"
  message := "the SQL file exceeds the 1 MiB contract limit"

def analyzeSql (raw : String) : AppResult AnalyzedSql :=
  if maxSqlBytes < (asBytes raw).length then .error sqlFileTooLarge
  else if Str.isBlank raw.toList then .error (policy "empty_sql" "the SQL file is empty")
  else match X.parseSql raw with
  | none => .error (policy "sql_parse_failed"
      "the SQL file is not valid supported PostgreSQL syntax")
  | some [statement] => do
      rejectUnsafeExpressions statement
      let details ← analyzeStatement X statement
      return analyzed X raw statement details
  | some _ => .error (policy "statement_count_not_one"
      "exactly one SQL statement is required")

/-- What is accepted is the analysis of the only statement of the text. -/
theorem analyzeSql_ok {raw : String} {a : AnalyzedSql} (h : analyzeSql X raw = .ok a) :
    ∃ statement details, X.parseSql raw = some [statement] ∧
      rejectUnsafeExpressions statement = .ok () ∧
      analyzeStatement X statement = .ok details ∧ a = analyzed X raw statement details := by
  unfold analyzeSql at h
  split_ifs at h
  split at h
  · cases h
  · rename_i statement hparse
    rcases hsafe : rejectUnsafeExpressions statement with e | ⟨⟩
    · rw [hsafe] at h
      cases h
    rcases hdetails : analyzeStatement X statement with e | details
    · rw [hsafe, hdetails] at h
      cases h
    · rw [hsafe, hdetails] at h
      cases h
      exact ⟨statement, details, hparse, hsafe, hdetails, rfl⟩
  · cases h

def sqlFileNotUtf8 : AppError where
  class_ := .io
  code := "sql_file_not_utf8"
  message := "the SQL file must be valid UTF-8"

def readAndAnalyze (path : Path) : App AnalyzedSql := do
  match (← request (Cmd.metadata path) : Option Metadata) with
  | none => throw {
      class_ := .io, code := "sql_file_unreadable"
      message := "the SQL file could not be read" }
  | some metadata =>
  if !metadata.isFile then
    throw {
      class_ := .usage, code := "sql_path_not_file"
      message := "the SQL path must refer to a regular file" }
  else if maxSqlBytes < metadata.len.toNat then
    throw sqlFileTooLarge
  else do
  match (← request (Cmd.read path) : Option Utf8.Bytes) with
  | none => throw sqlFileNotUtf8
  | some bytes =>
      match Utf8.decode bytes with
      | none => throw sqlFileNotUtf8
      | some text => ofResult (analyzeSql X (String.ofList text))

end DmlPact
