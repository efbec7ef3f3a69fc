/-
DmlPact/Model/SqlAst.lean

The part of the parser's syntax trees that `sql.rs` looks at.  A clause that
is only ever tested for presence is a `Clause`: its text, and the expressions
inside it, which the expression visitor still reaches.  An expression that no
rule singles out is a `node`: its kind over its sub-expressions.
-/
import Mathlib.Logic.Basic

namespace DmlPact.Ast

/-- An identifier with the quote it was written in, if any. -/
structure Ident where
  value : String
  quoteStyle : Option Char
  deriving DecidableEq

/-- One part of a dotted name. -/
inductive ObjectNamePart where
  | identifier (ident : Ident)
  | function (text : String)
  deriving DecidableEq

def ObjectNamePart.asIdent : ObjectNamePart → Option Ident
  | .identifier ident => some ident
  | .function _ => none

/-- A possibly qualified name. -/
structure ObjectName where
  parts : List ObjectNamePart
  deriving DecidableEq

/-- Literals and placeholders. -/
inductive Value where
  | literal (text : String)
  | placeholder (name : String)
  deriving DecidableEq

inductive Expr where
  | identifier (ident : Ident)
  | value (value : Value)
  | function (name : ObjectName) (args : List Expr)
  | subquery (text : String)
  | exist (text : String) (negated : Bool)
  | inSubquery (expr : Expr) (text : String) (negated : Bool)
  | floor (expr : Expr)
  | ceil (expr : Expr)
  | extract (field : String) (expr : Expr)
  | position (expr : Expr) (within : Expr)
  | substring (args : List Expr)
  | trim (args : List Expr)
  | overlay (args : List Expr)
  | node (kind : String) (children : List Expr)

/-- A clause known by its presence. -/
structure Clause where
  text : String
  exprs : List Expr

/-- The target of an assignment and the value assigned. -/
structure Assignment where
  target : ObjectName
  value : Expr

/-- `VALUES` rows. -/
structure Values where
  explicitRow : Bool
  valueKeyword : Bool
  rows : List (List Expr)

inductive SetExpr where
  | values (values : Values)
  | other (clause : Clause)

structure Query where
  with_ : Option Clause
  body : SetExpr
  orderBy : Option Clause
  limitClause : Option Clause
  fetch : Option Clause
  locks : List Clause
  forClause : Option Clause
  settings : Option Clause
  formatClause : Option Clause
  pipeOperators : List Clause

inductive TableObject where
  | tableName (name : ObjectName)
  | other (clause : Clause)

structure Insert where
  optimizerHints : List Clause
  or : Option Clause
  ignore : Bool
  table : TableObject
  tableAlias : Option Clause
  columns : List Ident
  overwrite : Bool
  source : Option Query
  assignments : List Assignment
  partitioned : Option Clause
  afterColumns : List Ident
  hasTableKeyword : Bool
  on : Option Clause
  returning : Option Clause
  output : Option Clause
  replaceInto : Bool
  priority : Option Clause
  insertAlias : Option Clause
  settings : Option Clause
  formatClause : Option Clause
  multiTableInsertType : Option Clause
  multiTableIntoClauses : List Clause
  multiTableWhenClauses : List Clause
  multiTableElseClause : Option Clause

structure TableAlias where
  name : Ident
  columns : List Ident

inductive TableFactor where
  | table (name : ObjectName) (alias_ : Option TableAlias) (args : Option Clause)
      (withHints : List Expr) (version : Option Clause) (withOrdinality : Bool)
      (partitions : List Ident) (jsonPath : Option Clause) (sample : Option Clause)
      (indexHints : List Clause)
  | other (clause : Clause)

structure TableWithJoins where
  relation : TableFactor
  joins : List Clause

structure Update where
  optimizerHints : List Clause
  table : TableWithJoins
  assignments : List Assignment
  from_ : Option Clause
  selection : Option Expr
  returning : Option Clause
  output : Option Clause
  or : Option Clause
  orderBy : List Clause
  limit : Option Expr

inductive FromTable where
  | withFromKeyword (tables : List TableWithJoins)
  | withoutKeyword (tables : List TableWithJoins)

structure Delete where
  optimizerHints : List Clause
  tables : List ObjectName
  from_ : FromTable
  using_ : Option (List TableWithJoins)
  selection : Option Expr
  returning : Option Clause
  output : Option Clause
  orderBy : List Clause
  limit : Option Expr

inductive Statement where
  | insert (insert : Insert)
  | update (update : Update)
  | delete (delete : Delete)
  | other (clause : Clause)

/-! ### The expressions a visitor meets, outermost first -/

mutual

def Expr.visit : Expr → List Expr
  | .function name args => .function name args :: visitAll args
  | .inSubquery e text negated => .inSubquery e text negated :: e.visit
  | .floor e => .floor e :: e.visit
  | .ceil e => .ceil e :: e.visit
  | .extract field e => .extract field e :: e.visit
  | .position e within => .position e within :: (e.visit ++ within.visit)
  | .substring args => .substring args :: visitAll args
  | .trim args => .trim args :: visitAll args
  | .overlay args => .overlay args :: visitAll args
  | .node kind children => .node kind children :: visitAll children
  | .identifier ident => [.identifier ident]
  | .value v => [.value v]
  | .subquery text => [.subquery text]
  | .exist text negated => [.exist text negated]

def visitAll : List Expr → List Expr
  | [] => []
  | e :: es => e.visit ++ visitAll es

end

def Clause.visit (c : Clause) : List Expr := visitAll c.exprs

def visitClause (c : Option Clause) : List Expr := c.elim [] Clause.visit

def visitClauses (cs : List Clause) : List Expr := cs.flatMap Clause.visit

def visitOption (e : Option Expr) : List Expr := e.elim [] Expr.visit

def visitAssignments (as : List Assignment) : List Expr := as.flatMap fun a => a.value.visit

def SetExpr.visit : SetExpr → List Expr
  | .values v => v.rows.flatMap visitAll
  | .other clause => clause.visit

def Query.visit (q : Query) : List Expr :=
  visitClause q.with_ ++ q.body.visit ++ visitClause q.orderBy ++ visitClause q.limitClause ++
    visitClause q.fetch ++ visitClauses q.locks ++ visitClause q.forClause ++
    visitClause q.settings ++ visitClause q.formatClause ++ visitClauses q.pipeOperators

def TableObject.visit : TableObject → List Expr
  | .tableName _ => []
  | .other clause => clause.visit

def Insert.visit (i : Insert) : List Expr :=
  visitClauses i.optimizerHints ++ visitClause i.or ++ i.table.visit ++
    visitClause i.tableAlias ++ i.source.elim [] Query.visit ++
    visitAssignments i.assignments ++ visitClause i.partitioned ++ visitClause i.on ++
    visitClause i.returning ++ visitClause i.output ++ visitClause i.priority ++
    visitClause i.insertAlias ++ visitClause i.settings ++ visitClause i.formatClause ++
    visitClause i.multiTableInsertType ++ visitClauses i.multiTableIntoClauses ++
    visitClauses i.multiTableWhenClauses ++ visitClause i.multiTableElseClause

def TableFactor.visit : TableFactor → List Expr
  | .table _ _ args withHints version _ _ jsonPath sample indexHints =>
      visitClause args ++ visitAll withHints ++ visitClause version ++ visitClause jsonPath ++
        visitClause sample ++ visitClauses indexHints
  | .other clause => clause.visit

def TableWithJoins.visit (t : TableWithJoins) : List Expr :=
  t.relation.visit ++ visitClauses t.joins

def Update.visit (u : Update) : List Expr :=
  visitClauses u.optimizerHints ++ u.table.visit ++ visitAssignments u.assignments ++
    visitClause u.from_ ++ visitOption u.selection ++ visitClause u.returning ++
    visitClause u.output ++ visitClause u.or ++ visitClauses u.orderBy ++ visitOption u.limit

def FromTable.visit : FromTable → List Expr
  | .withFromKeyword tables | .withoutKeyword tables => tables.flatMap TableWithJoins.visit

def Delete.visit (d : Delete) : List Expr :=
  visitClauses d.optimizerHints ++ d.from_.visit ++
    d.using_.elim [] (fun tables => tables.flatMap TableWithJoins.visit) ++
    visitOption d.selection ++ visitClause d.returning ++ visitClause d.output ++
    visitClauses d.orderBy ++ visitOption d.limit

def Statement.visit : Statement → List Expr
  | .insert i => i.visit
  | .update u => u.visit
  | .delete d => d.visit
  | .other clause => clause.visit

end DmlPact.Ast
