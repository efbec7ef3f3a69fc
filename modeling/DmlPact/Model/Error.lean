/-
DmlPact/Model/Error.lean

The classified errors of `error.rs`.  The class of an error decides the exit
status of the process.
-/
import Mathlib.Logic.Basic

namespace DmlPact

inductive ErrorClass where
  | io | usage | policy | budget | contract
  deriving DecidableEq, Repr

def ErrorClass.exitCode : ErrorClass → UInt8
  | .io => 1
  | .usage => 2
  | .policy => 3
  | .budget => 4
  | .contract => 5

def ErrorClass.asStr : ErrorClass → String
  | .io => "io"
  | .usage => "usage"
  | .policy => "policy"
  | .budget => "budget"
  | .contract => "contract"

structure AppError where
  class_ : ErrorClass
  code : String
  message : String
  deriving DecidableEq, Repr

/-- A pure step that may fail. -/
abbrev AppResult (α : Type) := Except AppError α

/-- What the process prints on standard error. -/
structure ErrorDocument where
  schemaVersion : String
  class_ : String
  code : String
  message : String
  deriving DecidableEq

def ErrorDocument.ofError (error : AppError) : ErrorDocument where
  schemaVersion := "dmlpact.error.v1"
  class_ := error.class_.asStr
  code := error.code
  message := error.message

end DmlPact
