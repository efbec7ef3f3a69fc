/-
DmlPact/Policy/Static.lean

What the statement policy guarantees about an accepted statement, at every
depth of its expressions.

The expression filter is a list of kinds that are denied, and everything else
passes.  Subqueries, placeholders and the keyword DEFAULT are on the list, and
so is a call written `f(..)`.  Seven functions have a syntax of their own and
are not: an accepted statement calls no function exactly when it uses none of
them (`analyzeSql_static_iff`).
-/
import DmlPact.Apply.Answers

namespace DmlPact

namespace Ast

/-! ### Nodes of an expression -/

/-- The immediate sub-expressions. -/
def Expr.children : Expr → List Expr
  | .function _ args | .substring args | .trim args | .overlay args | .node _ args => args
  | .inSubquery e _ _ | .floor e | .ceil e | .extract _ e => [e]
  | .position e within => [e, within]
  | .identifier _ | .value _ | .subquery _ | .exist _ _ => []

/-- `d` is a node of `e`, at any depth. -/
inductive Expr.Within : Expr → Expr → Prop
  | refl (e : Expr) : Within e e
  | child {d c e : Expr} (hc : c ∈ e.children) (h : Within d c) : Within d e

theorem visitAll_eq (es : List Expr) : visitAll es = es.flatMap Expr.visit := by
  induction es with
  | nil => rfl
  | cons e es ih => rw [visitAll, ih, List.flatMap_cons]

/-- The visitor meets an expression, and then its sub-expressions. -/
theorem Expr.visit_eq (e : Expr) : e.visit = e :: e.children.flatMap Expr.visit := by
  cases e <;> simp [Expr.visit, Expr.children, visitAll_eq]

/-- The visitor meets every node. -/
theorem Expr.Within.mem_visit {d e : Expr} (h : d.Within e) : d ∈ e.visit := by
  induction h with
  | refl =>
      rw [Expr.visit_eq]
      exact List.mem_cons_self
  | child hc _ ih =>
      rw [Expr.visit_eq]
      exact List.mem_cons_of_mem _ (List.mem_flatMap.mpr ⟨_, hc, ih⟩)

/-- An expression that stands in a statement: what is assigned, what selects
the rows, and what is inserted. -/
inductive Statement.Holds : Statement → Expr → Prop
  | assigned {update : Update} {assignment : Assignment} (h : assignment ∈ update.assignments) :
      Holds (.update update) assignment.value
  | updated {update : Update} {selection : Expr} (h : update.selection = some selection) :
      Holds (.update update) selection
  | deleted {delete : Delete} {selection : Expr} (h : delete.selection = some selection) :
      Holds (.delete delete) selection
  | inserted {insert : Insert} {query : Query} {values : Values} {row : List Expr} {e : Expr}
      (hsource : insert.source = some query) (hbody : query.body = .values values)
      (hrow : row ∈ values.rows) (he : e ∈ row) : Holds (.insert insert) e

theorem Statement.Holds.visit_subset {statement : Statement} {root : Expr}
    (h : statement.Holds root) : root.visit ⊆ statement.visit := by
  intro d hd
  cases h with
  | @assigned update assignment ha =>
      have hvisit : d ∈ visitAssignments update.assignments := List.mem_flatMap.mpr ⟨_, ha, hd⟩
      simp [Statement.visit, Update.visit, hvisit]
  | updated hs => simp [Statement.visit, Update.visit, visitOption, hs, hd]
  | deleted hs => simp [Statement.visit, Delete.visit, visitOption, hs, hd]
  | @inserted insert query values row e hsource hbody hrow he =>
      have hvisit : d ∈ query.visit := by
        have hrows : d ∈ values.rows.flatMap visitAll := by
          refine List.mem_flatMap.mpr ⟨row, hrow, ?_⟩
          rw [visitAll_eq]
          exact List.mem_flatMap.mpr ⟨_, he, hd⟩
        simp [Query.visit, SetExpr.visit, hbody, hrows]
      unfold Statement.visit Insert.visit
      simp [hsource, hvisit]

/-- The visitor meets every node of every expression of a statement. -/
theorem Statement.Holds.mem_visit {statement : Statement} {root d : Expr}
    (h : statement.Holds root) (hd : d.Within root) : d ∈ statement.visit :=
  h.visit_subset hd.mem_visit

end Ast

/-! ### What an expression denotes -/

/-- A function with a syntax of its own: floor, ceil, extract, position,
substring, trim or overlay. -/
inductive SpecialCall : Ast.Expr → Prop
  | floor (e : Ast.Expr) : SpecialCall (.floor e)
  | ceil (e : Ast.Expr) : SpecialCall (.ceil e)
  | extract (field : String) (e : Ast.Expr) : SpecialCall (.extract field e)
  | position (e within : Ast.Expr) : SpecialCall (.position e within)
  | substring (args : List Ast.Expr) : SpecialCall (.substring args)
  | trim (args : List Ast.Expr) : SpecialCall (.trim args)
  | overlay (args : List Ast.Expr) : SpecialCall (.overlay args)

/-- The server executes a function here. -/
inductive CallsFunction : Ast.Expr → Prop
  | plain (name : Ast.ObjectName) (args : List Ast.Expr) : CallsFunction (.function name args)
  | special {e : Ast.Expr} (h : SpecialCall e) : CallsFunction e

inductive IsSubquery : Ast.Expr → Prop
  | subquery (text : String) : IsSubquery (.subquery text)
  | exist (text : String) (negated : Bool) : IsSubquery (.exist text negated)
  | inSubquery (e : Ast.Expr) (text : String) (negated : Bool) :
      IsSubquery (.inSubquery e text negated)

inductive IsPlaceholder : Ast.Expr → Prop
  | placeholder (name : String) : IsPlaceholder (.value (.placeholder name))

/-- The keyword DEFAULT, unquoted and in any letter case. -/
inductive IsDefault : Ast.Expr → Prop
  | default (ident : Ast.Ident) (hquote : ident.quoteStyle = none)
      (h : Str.eqIgnoreAsciiCase ident.value "default") : IsDefault (.identifier ident)

/-- The target is a plain table of one or two name parts, without joins. -/
structure PlainTarget (table : Ast.TableWithJoins) : Prop where
  no_joins : table.joins = []
  plain : ∃ name alias_, table.relation = .table name alias_ none [] none false [] none none [] ∧
    (name.parts.length = 1 ∨ name.parts.length = 2) ∧
    (∀ part ∈ name.parts, ∃ ident, part = .identifier ident) ∧
    ∀ value ∈ alias_, value.columns = []

/-- **The static policy**, for every node that the visitor meets. -/
structure StaticPolicy (statement : Ast.Statement) : Prop where
  calls : ∀ e ∈ statement.visit, ¬ CallsFunction e
  subqueries : ∀ e ∈ statement.visit, ¬ IsSubquery e
  placeholders : ∀ e ∈ statement.visit, ¬ IsPlaceholder e
  defaults : ∀ e ∈ statement.visit, ¬ IsDefault e
  target : (∃ insert, statement = .insert insert) ∨
    ∃ kind table selection, Mutates statement kind table selection ∧ PlainTarget table

/-! ### What the filter lets through -/

/-- Beyond the special calls the filter is exact. -/
theorem unsafeKind_eq_none {e : Ast.Expr} :
    unsafeKind e = none ↔ (CallsFunction e → SpecialCall e) ∧ ¬ IsSubquery e ∧
      ¬ IsPlaceholder e ∧ ¬ IsDefault e := by
  constructor
  · intro h
    refine ⟨?_, ?_, ?_, ?_⟩
    · intro hcall
      cases hcall with
      | plain => cases h
      | special hspecial => exact hspecial
    · intro hsubquery
      cases hsubquery <;> cases h
    · intro hplaceholder
      cases hplaceholder
      cases h
    · intro hdefault
      obtain ⟨ident, hquote, hkeyword⟩ := hdefault
      simp [unsafeKind, hquote, hkeyword] at h
  · rintro ⟨hcall, hsubquery, hplaceholder, hdefault⟩
    -- the kinds that the source names, and the rest
    cases e with
    | function name args => cases hcall (.plain name args)
    | subquery text => exact absurd (.subquery text) hsubquery
    | exist text negated => exact absurd (.exist text negated) hsubquery
    | inSubquery e text negated => exact absurd (.inSubquery e text negated) hsubquery
    | value v =>
        cases v with
        | literal text => rfl
        | placeholder name => exact absurd (.placeholder name) hplaceholder
    | identifier ident =>
        apply if_neg
        intro h
        rw [Bool.and_eq_true, Option.isNone_iff_eq_none] at h
        exact hdefault (.default ident h.1 h.2)
    | _ => rfl

theorem rejectUnsafeExpressions_ok {statement : Ast.Statement} :
    rejectUnsafeExpressions statement = .ok () ↔ ∀ e ∈ statement.visit, unsafeKind e = none := by
  unfold rejectUnsafeExpressions
  rcases hfound : statement.visit.findSome? unsafeKind with - | kind
  · exact iff_of_true rfl (List.findSome?_eq_none_iff.mp hfound)
  · refine iff_of_false (fun h => by cases h) fun hall => ?_
    rw [List.findSome?_eq_none_iff.mpr hall] at hfound
    cases hfound

/-! ### What the target can be -/

variable (X : Crates)

theorem validateObjectName_ok {name : Ast.ObjectName} {text : String}
    (h : validateObjectName X name = .ok text) :
    (name.parts.length = 1 ∨ name.parts.length = 2) ∧
      ∀ part ∈ name.parts, ∃ ident, part = .identifier ident := by
  unfold validateObjectName at h
  split_ifs at h with hdenied
  simp only [Bool.or_eq_true, not_or, Bool.not_eq_true', Bool.not_eq_true,
    Bool.and_eq_true, decide_eq_true_eq, Bool.not_eq_false, List.any_eq_false] at hdenied
  obtain ⟨⟨hlow, hhigh⟩, hparts⟩ := hdenied
  refine ⟨by omega, fun part hpart => ?_⟩
  have hident := hparts part hpart
  cases part with
  | identifier ident => exact ⟨ident, rfl⟩
  | function text => simp [Ast.ObjectNamePart.asIdent] at hident

theorem validateTableWithJoins_plain {table : Ast.TableWithJoins} {name rowReference : String}
    (h : validateTableWithJoins X table = .ok (name, rowReference)) : PlainTarget table := by
  unfold validateTableWithJoins at h
  split_ifs at h with hjoins
  split at h
  · rename_i objectName alias_ args hints version ordinality partitions path sample indexHints
      hrelation
    split_ifs at h with hplain
    rcases hname : validateObjectName X objectName with error | validated
    · rw [hname] at h
      cases h
    simp only [Bool.and_eq_true, Option.isNone_iff_eq_none, List.isEmpty_iff, Bool.not_eq_true',
      Option.all_eq_true] at hplain
    obtain ⟨⟨⟨⟨⟨⟨⟨⟨rfl, rfl⟩, rfl⟩, rfl⟩, rfl⟩, rfl⟩, rfl⟩, rfl⟩, halias⟩ := hplain
    obtain ⟨hlen, hparts⟩ := validateObjectName_ok X hname
    exact ⟨by simpa using hjoins, objectName, alias_, hrelation, hlen, hparts,
      fun value hvalue => halias value hvalue⟩
  · cases h

/-- **Static policy.**  Of an accepted statement the visitor meets every node,
and the static policy holds of it exactly when none of them is a special call. -/
theorem analyzeSql_static_iff {raw : String} {a : AnalyzedSql} (h : analyzeSql X raw = .ok a) :
    ∃ statement, X.parseSql raw = some [statement] ∧
      (∀ root e, statement.Holds root → e.Within root → e ∈ statement.visit) ∧
      (StaticPolicy statement ↔ ∀ e ∈ statement.visit, ¬ SpecialCall e) := by
  obtain ⟨statement, details, hparse, hsafe, hdetails, rfl⟩ := analyzeSql_ok X h
  refine ⟨statement, hparse, fun root e hroot he => hroot.mem_visit he, ?_, ?_⟩
  · intro hpolicy e he hspecial
    exact hpolicy.calls e he (.special hspecial)
  · intro hnone
    have hnode := fun e he => unsafeKind_eq_none.mp (rejectUnsafeExpressions_ok.mp hsafe e he)
    refine ⟨fun e he hcall => hnone e he ((hnode e he).1 hcall), fun e he => (hnode e he).2.1,
      fun e he => (hnode e he).2.2.1, fun e he => (hnode e he).2.2.2, ?_⟩
    rcases analyzeStatement_ok X hdetails with ⟨hinsert, -⟩ |
      ⟨kind, table, selection, hmutates, hselection⟩
    · exact .inl hinsert
    · obtain ⟨name, rowReference, hvalid, -⟩ := selectionDetails_ok X hselection
      exact .inr ⟨kind, table, selection, hmutates, validateTableWithJoins_plain X hvalid⟩

/-! ### A call of floor -/

namespace Sample

/-- `floor(a) = 1`. -/
def floorSelection : Ast.Expr :=
  .node "BinaryOp" [.floor (.identifier ⟨"a", none⟩), .value (.literal "1")]

/-- `DELETE FROM t WHERE floor(a) = 1`. -/
def floorStatement : Ast.Statement :=
  .delete {
    optimizerHints := [], tables := []
    from_ := .withFromKeyword [{
      relation := .table ⟨[.identifier ⟨"t", none⟩]⟩ none none [] none false [] none none []
      joins := [] }]
    using_ := none, selection := some floorSelection, returning := none
    output := none, orderBy := [], limit := none }

def floorSql : String := "DELETE FROM t WHERE floor(a) = 1"

/-- The crates, on this statement. -/
def floorCrates : Crates :=
  { crates with
    parseSql text := if text = floorSql then some [floorStatement] else none
    showStatement _ := floorSql
    showExpr _ := "FLOOR(a) = 1" }

theorem floor_accepted : ∃ a, analyzeSql floorCrates floorSql = .ok a := by
  have hparse : floorCrates.parseSql floorSql = some [floorStatement] := by simp [floorCrates]
  have hlen : ¬ maxSqlBytes < (asBytes floorSql).length := by decide
  have hblank : ¬ Str.isBlank floorSql.toList = true := by decide
  unfold analyzeSql
  rw [if_neg hlen, if_neg hblank, hparse]
  exact ⟨_, rfl⟩

end Sample

/-- `DELETE FROM t WHERE floor(a) = 1` is accepted, and it calls a function. -/
theorem analyzeSql_calls_floor :
    ¬ ∀ (X : Crates) (raw : String) (a : AnalyzedSql) (statement : Ast.Statement),
      analyzeSql X raw = .ok a → X.parseSql raw = some [statement] → StaticPolicy statement := by
  intro hall
  obtain ⟨a, haccepted⟩ := Sample.floor_accepted
  have hpolicy := hall Sample.floorCrates _ a Sample.floorStatement haccepted
    (by simp [Sample.floorCrates])
  refine hpolicy.calls (.floor (.identifier ⟨"a", none⟩)) ?_ (.special (.floor _))
  have hselection : Sample.floorStatement.Holds Sample.floorSelection := .deleted rfl
  exact hselection.mem_visit (.child List.mem_cons_self (.refl _))

namespace Sample

/-- `a = 1 OR NOT b`. -/
def plainDisjunction : Ast.Expr :=
  .node "BinaryOp" [
    .node "BinaryOp" [.identifier ⟨"a", none⟩, .value (.literal "1")],
    .node "UnaryOp" [.identifier ⟨"b", none⟩]]

/-- `(a = 1 OR NOT b) AND c IN (2, 3)`. -/
def plainSelection : Ast.Expr :=
  .node "BinaryOp" [.node "Nested" [plainDisjunction],
    .node "InList" [.identifier ⟨"c", none⟩, .value (.literal "2"), .value (.literal "3")]]

/-- `DELETE FROM s.t WHERE (a = 1 OR NOT b) AND c IN (2, 3)`. -/
def plainStatement : Ast.Statement :=
  .delete {
    optimizerHints := [], tables := []
    from_ := .withFromKeyword [{
      relation := .table ⟨[.identifier ⟨"s", none⟩, .identifier ⟨"t", none⟩]⟩ none none [] none
        false [] none none []
      joins := [] }]
    using_ := none, selection := some plainSelection, returning := none
    output := none, orderBy := [], limit := none }

def plainSql : String := "DELETE FROM s.t WHERE (a = 1 OR NOT b) AND c IN (2, 3)"

/-- The crates, on this statement. -/
def plainCrates : Crates :=
  { crates with
    parseSql text := if text = plainSql then some [plainStatement] else none
    showStatement _ := plainSql
    showName _ := "s.t"
    showTable _ := "s.t"
    showExpr _ := "(a = 1 OR NOT b) AND c IN (2, 3)" }

theorem plain_accepted : ∃ a, analyzeSql plainCrates plainSql = .ok a := by
  have hparse : plainCrates.parseSql plainSql = some [plainStatement] := by simp [plainCrates]
  have hlen : ¬ maxSqlBytes < (asBytes plainSql).length := by decide
  have hblank : ¬ Str.isBlank plainSql.toList = true := by decide
  unfold analyzeSql
  rw [if_neg hlen, if_neg hblank, hparse]
  exact ⟨_, rfl⟩

end Sample

/-- Both statements are accepted.  The visitor meets a special call in the one
with `floor`, and none in the other. -/
theorem analyzeSql_static_sample :
    StaticPolicy Sample.plainStatement ∧ ¬ StaticPolicy Sample.floorStatement := by
  obtain ⟨_, hplain⟩ := Sample.plain_accepted
  obtain ⟨_, hfloor⟩ := Sample.floor_accepted
  constructor
  · obtain ⟨statement, hparse, -, hiff⟩ := analyzeSql_static_iff Sample.plainCrates hplain
    obtain rfl : Sample.plainStatement = statement := by
      simpa [Sample.plainCrates] using hparse
    refine hiff.mpr fun e he hspecial => ?_
    have hvisit : Sample.plainStatement.visit = Sample.plainSelection.visit := rfl
    simp only [hvisit, Sample.plainSelection, Sample.plainDisjunction, Ast.Expr.visit,
      Ast.visitAll, List.append_nil, List.cons_append, List.nil_append, List.mem_cons,
      List.not_mem_nil, or_false] at he
    rcases he with rfl | rfl | rfl | rfl | rfl | rfl | rfl | rfl | rfl | rfl | rfl | rfl <;>
      cases hspecial
  · obtain ⟨statement, hparse, -, hiff⟩ := analyzeSql_static_iff Sample.floorCrates hfloor
    obtain rfl : Sample.floorStatement = statement := by
      simpa [Sample.floorCrates] using hparse
    intro hpolicy
    refine hiff.mp hpolicy (.floor (.identifier ⟨"a", none⟩)) ?_ (.floor _)
    exact List.mem_cons_of_mem _ List.mem_cons_self

end DmlPact
