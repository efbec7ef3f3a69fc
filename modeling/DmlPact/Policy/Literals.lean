/-
DmlPact/Policy/Literals.lean

Whether the server reads what the parser has read.  The policy looks at the
parser's tree, and what is sent is the display of the tree, which is never
parsed again: token by token, some of them with no blank between them, and a
plain string with its quotes doubled and its backslashes as they are.  So the
server finds something else (`createPlan_literals_iff`) where

    `- -` is displayed as `--`        which begins a comment,
    a backslash is before a quote     and `standard_conforming_strings` is off:
                                      the setting is recorded in the plan and
                                      compared for drift, but no value of it
                                      is refused
-/
import DmlPact.Apply.Fingerprint
import DmlPact.Lib.SqlEscape
import DmlPact.Plan.Created

namespace DmlPact

open Effect Utf8 SqlLex

variable {X : Crates}

/-- The texts that are sent for an accepted statement. -/
def AnalyzedSql.texts (a : AnalyzedSql) : List String :=
  a.normalized :: (a.countSql.toList ++ a.targetRowsSql.toList)

/-- The server that reported this identity takes a backslash as itself. -/
def DatabaseIdentity.conforming (d : DatabaseIdentity) : Bool :=
  d.settings.get? "standard_conforming_strings" == some "on"

/-- The condition of a statement. -/
def Ast.Statement.selection : Ast.Statement → Option Ast.Expr
  | .update u => u.selection
  | .delete d => d.selection
  | _ => none

theorem Mutates.selection {s : Ast.Statement} {kind : StatementKind} {table : Ast.TableWithJoins}
    {e : Ast.Expr} (h : Mutates s kind table e) : s.selection = some e := by
  cases h with
  | update u e h => exact h
  | delete d t e _ h => exact h

/-! ### What is displayed -/

/-- A text as one piece. -/
@[irreducible] def pieceOf (text : String) : List Piece :=
  match text.toList with
  | [] => []
  | c :: cs => [⟨c, cs⟩]

@[simp] theorem text_pieceOf (text : String) : Piece.text (pieceOf text) = text.toList := by
  unfold pieceOf
  rcases htext : text.toList with - | ⟨c, cs⟩
  · rfl
  · simp [Piece.text, Piece.chars]

/-- Pieces one behind the other. -/
theorem text_append {pieces pieces' : List Piece} {text text' : String}
    (h : Piece.text pieces = text.toList) (h' : Piece.text pieces' = text'.toList) :
    Piece.text (pieces ++ pieces') = (text ++ text').toList := by
  rw [String.toList_append, ← h, ← h']
  exact List.flatMap_append

/-- How the crate displays its trees: piece by piece, one for each token and one
for each blank.  The literals that the parser has found are among them. -/
structure Display (X : Crates) where
  statement : Ast.Statement → List Piece
  table : Ast.TableWithJoins → List Piece
  expr : Ast.Expr → List Piece
  ident : Ast.Ident → List Piece
  statement_text : ∀ s, (X.showStatement s).toList = Piece.text (statement s)
  table_text : ∀ t, (X.showTable t).toList = Piece.text (table t)
  expr_text : ∀ e, (X.showExpr e).toList = Piece.text (expr e)
  ident_text : ∀ i, (X.showIdent i).toList = Piece.text (ident i)
  statement_literal : ∀ raw s literal, X.parseSql raw = some [s] →
    .value (.literal literal) ∈ s.visit → ∃ p ∈ statement s, p.chars = literal.toList
  expr_literal : ∀ raw s kind table selection literal, X.parseSql raw = some [s] →
    Mutates s kind table selection → .value (.literal literal) ∈ selection.visit →
    ∃ p ∈ expr selection, p.chars = literal.toList

namespace Display

variable (D : Display X) (reference : Ast.Ident) (table : Ast.TableWithJoins) (selection : Ast.Expr)

/-- The pieces of the counting query, -/
def count : List Piece :=
  pieceOf "SELECT COUNT(*)::bigint FROM " ++ D.table table ++ pieceOf " WHERE " ++
    D.expr selection

/-- and of the target query. -/
def target : List Piece :=
  pieceOf "SELECT pg_catalog.to_jsonb(" ++ D.ident reference ++ pieceOf ")::text FROM " ++
    D.table table ++ pieceOf " WHERE " ++ D.expr selection ++
    pieceOf " ORDER BY pg_catalog.to_jsonb(" ++ D.ident reference ++ pieceOf ")::text"

theorem text_count :
    Piece.text (D.count table selection) =
      (countText (X.showTable table) (X.showExpr selection)).toList :=
  text_append (text_append (text_append (text_pieceOf _) (D.table_text table).symm)
    (text_pieceOf _)) (D.expr_text selection).symm

theorem text_target :
    Piece.text (D.target reference table selection) = (targetRowsText (X.showIdent reference)
      (X.showTable table) (X.showExpr selection)).toList :=
  text_append (text_append (text_append (text_append (text_append (text_append (text_append
    (text_append (text_pieceOf _) (D.ident_text reference).symm) (text_pieceOf _))
    (D.table_text table).symm) (text_pieceOf _)) (D.expr_text selection).symm) (text_pieceOf _))
    (D.ident_text reference).symm) (text_pieceOf _)

/-- The texts of a statement, and the pieces they are written from. -/
inductive Writes (s : Ast.Statement) : String → List Piece → Prop
  | statement : Writes s (X.showStatement s) (D.statement s)
  | count {kind table selection} (h : Mutates s kind table selection) :
      Writes s (countText (X.showTable table) (X.showExpr selection)) (D.count table selection)
  | target {kind table selection reference} (h : Mutates s kind table selection)
      (href : RowReference table reference) :
      Writes s (targetRowsText (X.showIdent reference) (X.showTable table) (X.showExpr selection))
        (D.target reference table selection)

variable {D} {s : Ast.Statement} {text : String} {pieces : List Piece}

theorem Writes.text_eq (h : D.Writes s text pieces) : text.toList = Piece.text pieces := by
  cases h with
  | statement => exact D.statement_text s
  | count => exact (D.text_count _ _).symm
  | target => exact (D.text_target _ _ _).symm

end Display

/-! ### What is read -/

/-- In each text the server finds what the parser has found: the beginnings, the
literals and the tokens of the displayed pieces. -/
def ReadAsApproved (D : Display X) (d : DatabaseIdentity) (s : Ast.Statement) (a : AnalyzedSql) :
    Prop :=
  ∀ text ∈ a.texts, ∀ pieces, D.Writes s text pieces → ReadAsWritten d.conforming pieces

/-- In each text that can be sent no two tokens stand too close, and with the
setting off no plain string has a quote behind an odd run of backslashes. -/
def LegiblyWritten (D : Display X) (d : DatabaseIdentity) (s : Ast.Statement) (a : AnalyzedSql) :
    Prop :=
  ∀ text ∈ a.texts, ∀ pieces, D.Writes s text pieces →
    Legible d.conforming pieces ∨ ∃ c ∈ text.toList, c.toNat = 0

theorem readAsApproved_iff {D : Display X} {d : DatabaseIdentity} {s : Ast.Statement}
    {a : AnalyzedSql} : ReadAsApproved D d s a ↔ LegiblyWritten D d s a := by
  refine forall_congr' fun text => forall_congr' fun _ => forall_congr' fun pieces =>
    forall_congr' fun hwrites => ?_
  rw [hwrites.text_eq]
  exact readAsWritten_iff

/-- Where a literal that the parser has found stands in the statement, the server
finds that literal. -/
theorem ReadAsApproved.literal {D : Display X} {d : DatabaseIdentity} {s : Ast.Statement}
    {a : AnalyzedSql} (h : ReadAsApproved D d s a) {raw : String}
    (hparse : X.parseSql raw = some [s]) (hnormalized : a.normalized = X.showStatement s)
    (hsent : ∀ c ∈ a.normalized.toList, c.toNat ≠ 0) {literal : String}
    (hliteral : .value (.literal literal) ∈ s.visit) :
    ∃ (before behind : List Piece),
      a.normalized.toList = Piece.text before ++ literal.toList ++ Piece.text behind ∧
      places d.conforming .neutral a.normalized.toList =
        Piece.written before ++ places true .neutral literal.toList ++ Piece.written behind := by
  obtain ⟨p, hp, hchars⟩ := D.statement_literal raw s literal hparse hliteral
  obtain ⟨before, behind, hsplit⟩ := List.append_of_mem hp
  have hwrites : D.Writes s a.normalized (D.statement s) := hnormalized ▸ .statement
  have hread := h a.normalized List.mem_cons_self _ hwrites
  have htext : a.normalized.toList = Piece.text (D.statement s) := hwrites.text_eq
  rw [htext] at hsent
  obtain ⟨hplaces, -⟩ := hread hsent
  refine ⟨before, behind, ?_, ?_⟩
  · rw [htext, hsplit, ← hchars]
    simp [Piece.text]
  · rw [htext, hplaces, hsplit, ← hchars]
    simp [Piece.written]

namespace Sample

theorem text_tokens (tokens : List String) :
    Piece.text (tokens.flatMap pieceOf) = tokens.flatMap String.toList := by
  induction tokens with
  | nil => rfl
  | cons token tokens ih =>
      have hcons : Piece.text ((token :: tokens).flatMap pieceOf) =
          Piece.text (pieceOf token) ++ Piece.text (tokens.flatMap pieceOf) := List.flatMap_append
      rw [hcons, text_pieceOf, ih, List.flatMap_cons]

theorem mem_pieces {tokens : List String} {token : String} (htoken : token ∈ tokens)
    (hnonempty : ∀ t ∈ tokens, t ≠ "") :
    ∃ p ∈ tokens.flatMap pieceOf, p.chars = token.toList := by
  rcases hchars : token.toList with - | ⟨c, cs⟩
  · exact absurd (String.toList_eq_nil_iff.mp hchars) (hnonempty token htoken)
  · refine ⟨⟨c, cs⟩, List.mem_flatMap.mpr ⟨token, htoken, ?_⟩, rfl⟩
    unfold pieceOf
    rw [hchars]
    exact List.mem_singleton_self _

/-- The display of crates that parse and show one statement, on a table `t`:
the tokens of the statement and those of its selection. -/
def displayOf (X : Crates) (parsed : Ast.Statement) (statement selection : List String)
    (hparse : ∀ raw s, X.parseSql raw = some [s] → s = parsed)
    (hstatement : ∀ s, (X.showStatement s).toList = statement.flatMap String.toList)
    (htable : ∀ t, X.showTable t = "t")
    (hselection : ∀ e, (X.showExpr e).toList = selection.flatMap String.toList)
    (hident : ∀ i, X.showIdent i = i.value)
    (hliteral : ∀ literal, .value (.literal literal) ∈ parsed.visit → literal ∈ statement)
    (hselected : ∀ kind table e literal, Mutates parsed kind table e →
      .value (.literal literal) ∈ e.visit → literal ∈ selection)
    (hnonempty : ∀ t ∈ statement ++ selection, t ≠ "") : Display X where
  statement _ := statement.flatMap pieceOf
  table _ := pieceOf "t"
  expr _ := selection.flatMap pieceOf
  ident i := pieceOf i.value
  statement_text s := (hstatement s).trans (text_tokens statement).symm
  table_text t := by rw [htable, text_pieceOf]
  expr_text e := (hselection e).trans (text_tokens selection).symm
  ident_text i := by rw [hident, text_pieceOf]
  statement_literal raw s literal hs hvisit := by
    obtain rfl := hparse raw s hs
    exact mem_pieces (hliteral literal hvisit) fun t ht => hnonempty t (List.mem_append_left _ ht)
  expr_literal raw s kind table e literal hs hmutates hvisit := by
    obtain rfl := hparse raw s hs
    exact mem_pieces (hselected kind table e literal hmutates hvisit) fun t ht =>
      hnonempty t (List.mem_append_right _ ht)

end Sample

namespace Sample

end Sample

namespace Sample

/-- Two minus signs, and a string with a line break. -/
def gluedSql : String := "UPDATE t SET x = - - x, y = '\nx + 1 WHERE a = 2 --' WHERE a = 1"

/-- It is displayed without the blank between the two. -/
def gluedText : String := "UPDATE t SET x = --x, y = '\nx + 1 WHERE a = 2 --' WHERE a = 1"

def gluedStatement : Ast.Statement :=
  .update {
    optimizerHints := []
    table := {
      relation := .table ⟨[.identifier ⟨"t", none⟩]⟩ none none [] none false [] none none []
      joins := [] }
    assignments := [
      ⟨⟨[.identifier ⟨"x", none⟩]⟩, .node "UnaryOp" [.node "UnaryOp" [.identifier ⟨"x", none⟩]]⟩,
      ⟨⟨[.identifier ⟨"y", none⟩]⟩, .value (.literal "'\nx + 1 WHERE a = 2 --'")⟩]
    from_ := none
    selection := some (.node "BinaryOp" [.identifier ⟨"a", none⟩, .value (.literal "1")])
    returning := none, output := none, or := none, orderBy := [], limit := none }

/-- The crates, on this statement. -/
def gluedCrates : Crates :=
  { crates with
    parseSql text := if text = gluedSql then some [gluedStatement] else none
    showStatement _ := gluedText
    showExpr _ := "a = 1" }

theorem glued_parsed (raw : String) (s : Ast.Statement)
    (h : gluedCrates.parseSql raw = some [s]) : s = gluedStatement := by
  by_cases hraw : raw = gluedSql
  · simpa [gluedCrates, hraw, eq_comm] using h
  · simp [gluedCrates, hraw] at h

/-- How it is displayed. -/
def gluedDisplay : Display gluedCrates :=
  displayOf gluedCrates gluedStatement
    ["UPDATE", " ", "t", " ", "SET", " ", "x", " ", "=", " ", "-", "-", "x", ",", " ", "y", " ", "=",
      " ", "'\nx + 1 WHERE a = 2 --'", " ", "WHERE", " ", "a", " ", "=", " ", "1"]
    ["a", " ", "=", " ", "1"] glued_parsed
    (fun _ => show gluedText.toList = _ by decide +kernel)
    (fun _ => rfl)
    (fun _ => show "a = 1".toList = _ by decide +kernel)
    (fun _ => rfl)
    (fun literal h => by
      simp [gluedStatement, Ast.Statement.visit, Ast.Update.visit, Ast.TableWithJoins.visit,
        Ast.TableFactor.visit, Ast.visitAssignments, Ast.visitOption, Ast.visitClause,
        Ast.visitClauses, Ast.visitAll, Ast.Expr.visit] at h
      rcases h with rfl | rfl <;> simp)
    (fun kind table e literal hmutates h => by
      obtain rfl := Option.some.inj hmutates.selection
      simp [Ast.visitAll, Ast.Expr.visit] at h
      simp [h])
    (by decide)

def gluedDetails : StatementDetails where
  kind := .update
  table := "t"
  countSql := some (countText "t" "a = 1")
  targetRowsSql := some (targetRowsText "t" "t" "a = 1")
  insertedRows := 0

def gluedAnalysis : AnalyzedSql := analyzed gluedCrates gluedSql gluedStatement gluedDetails

theorem gluedAnalysis_eq :
    analyzeSql gluedCrates (String.ofList gluedSql.toList) = .ok gluedAnalysis := by
  have hparse : gluedCrates.parseSql gluedSql = some [gluedStatement] := by
    simp [gluedCrates]
  have hlen : ¬ maxSqlBytes < (asBytes gluedSql).length := by decide
  have hblank : ¬ Str.isBlank gluedSql.toList = true := by decide
  rw [String.ofList_toList]
  unfold analyzeSql
  rw [if_neg hlen, if_neg hblank, hparse]
  rfl

/-- A table with the columns `a`, `x` and `y`. -/
def gluedAnswers : EvidenceAnswers :=
  { evidenceAnswers with
    columns := [
      [.int2 1, .text "a", .text "integer", .bool false, .bool false, .null, .text "", .text ""],
      [.int2 2, .text "x", .text "integer", .bool false, .bool false, .null, .text "", .text ""],
      [.int2 3, .text "y", .text "text", .bool false, .bool false, .null, .text "", .text ""]] }

def gluedEvidence : TableEvidence :=
  { evidence with
    columns := [⟨1, "a", "integer", false, false, none, "", ""⟩,
      ⟨2, "x", "integer", false, false, none, "", ""⟩, ⟨3, "y", "text", false, false, none, "", ""⟩] }

/-- The one row with `a = 1`. -/
def gluedRow : String := "\x7b\"a\": 1, \"x\": 5, \"y\": \"\"\x7d"

/-- The planning of this statement, on a server with the setting on. -/
def gluedPlanning : Planning gluedCrates planOptions where
  limits_valid
  lifetime_valid
  sqlMetadata := ⟨true, 0⟩
  sqlBytes := encode gluedSql.toList
  sqlText := gluedSql.toList
  analyzed := gluedAnalysis
  sql_file
  sql_decoded := decode_encode gluedSql.toList
  sql_analyzed := gluedAnalysis_eq
  connectionValue := "host=localhost"
  parsedConfig := config
  environment_valid
  value_fits := answers.value_fits
  config_parsed := by simp [gluedCrates, crates]
  hosts_local
  observed := {
    identity := { identity with searchPath := "early, public" }
    evidence := gluedEvidence
    schemaHash := sha256Bytes crates (toVec (TableEvidence.codec.ser gluedEvidence))
    count := 1
    targetSet := sha256Bytes crates (rowEvidence [gluedRow]) }
  identityRow := identityRow.set 2 (.text "early, public")
  identity_decoded := by rfl
  version_supported := if_neg (show ¬ (150000 : Int64) < minPostgresVersionNum by decide)
  evidenceAnswers := gluedAnswers
  oid := 1
  oid_decoded := rfl
  evidence_decoded := by rfl
  policy := by rfl
  schema_hashed := rfl
  countHistory := [⟨.query (countText "t" "a = 1") [], ⟨[[.int8 1]], true⟩⟩]
  counted := targetCount_ok.mpr (.inr ⟨_, _, 1, rfl, rfl, by decide, rfl, rfl⟩)
  budget := by show ¬ (1 : UInt64) < 1; decide
  targetHistory := [⟨.query (targetRowsText "t" "t" "a = 1") [], ⟨[[.text gluedRow]], true⟩⟩]
  fingerprinted := (targetSetSha256_ok _).mpr
    (.inr ⟨_, _, [gluedRow], rfl, rfl, by decide, rfl, rfl, rfl⟩)
  explainRow := [.json .null]
  explain := .null
  explain_decoded
  createdAt := 0
  expiry_fits

end Sample

/-- With the setting on, the server takes `--x, y = '` for a comment, and what
was the string for the statement: it is that of `UPDATE t SET x = x + 1 WHERE a = 2`. -/
theorem createPlan_glued :
    ¬ ReadAsApproved Sample.gluedDisplay Sample.gluedPlanning.observed.identity
      Sample.gluedStatement Sample.gluedPlanning.analyzed ∧
    lex true Sample.gluedText.toList = lex true "UPDATE t SET x = x + 1 WHERE a = 2".toList := by
  refine ⟨fun hread => ?_, by decide +kernel⟩
  have hon : Sample.gluedPlanning.observed.identity.conforming = true := by decide +kernel
  have hlegible := readAsApproved_iff.mp hread Sample.gluedText List.mem_cons_self _ .statement
  rw [hon] at hlegible
  rcases hlegible with h | ⟨c, hc, h0⟩
  · have hglued : ¬ (Sample.gluedDisplay.statement Sample.gluedStatement).IsChain Piece.Parts := by
      decide +kernel
    exact hglued h.apart
  · have hsent : Sample.gluedText.toList.all (fun c => decide (c.toNat ≠ 0)) = true := by decide
    exact of_decide_eq_true (List.all_eq_true.mp hsent c hc) h0

end DmlPact
