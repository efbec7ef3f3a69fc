/-
DmlPact/Apply/Batches.lean

The two simple queries of a run, as a server reads them.

The settings are three SET statements whatever the limits are.  The lock is
the canonical table's text between two fixed ones, so what it is depends on
how that text ends (`scan_lockText`): cleanly, and the fixed words behind it
are read; in a comment or in a quote, and they are swallowed.
-/
import DmlPact.Apply.Stages
import DmlPact.Lib.SqlLock
import Mathlib.Data.Nat.Digits.Lemmas

namespace DmlPact

open Effect SqlLex

variable (conforming : Bool)

/-! ### The settings -/

def setLocal (name : String) : List Token :=
  [word "set", word "local", word name, .other '=', .string]

/-- The digits of a number are inert inside a string literal. -/
theorem run_decimal (n : Nat) (escapes : Bool) :
    SqlLex.run conforming (.string escapes) (toString n).toList =
      some ([], .string escapes) := by
  refine run_string (fun c hc => ?_) escapes
  have hd : c.isDigit := by
    have hmem : c ∈ Nat.toDigits 10 n := by simpa [toString, Nat.repr] using hc
    exact Nat.isDigit_of_mem_toDigits (by decide) (by decide) hmem
  refine ⟨?_, ?_, ?_⟩
  · intro h0
    have hnul : c = Char.ofNat 0 := by rw [← h0, Char.ofNat_toNat]
    subst hnul
    cases hd
  · rintro rfl
    cases hd
  · rintro rfl
    cases hd

/-- The server reads the settings as three SET LOCAL statements. -/
theorem batch_timeoutSettings (limits : Limits) :
    batch conforming (timeoutSettings limits).toList =
      some [setLocal "statement_timeout", setLocal "lock_timeout",
        setLocal "idle_in_transaction_session_timeout"] := by
  -- the texts around the numbers, each read from the mode the last one left
  have hstatement : SqlLex.run conforming .neutral "SET LOCAL statement_timeout = '".toList =
      some ((setLocal "statement_timeout").dropLast, .string (!conforming)) := by
    cases conforming <;> rfl
  have hlock : SqlLex.run conforming .neutral "SET LOCAL lock_timeout = '".toList =
      some ((setLocal "lock_timeout").dropLast, .string (!conforming)) := by
    cases conforming <;> rfl
  have hidle : SqlLex.run conforming .neutral
      "SET LOCAL idle_in_transaction_session_timeout = '".toList =
      some ((setLocal "idle_in_transaction_session_timeout").dropLast,
        .string (!conforming)) := by
    cases conforming <;> rfl
  have hnext : SqlLex.run conforming (.string (!conforming)) "ms'; ".toList =
      some ([.string, .semicolon], .neutral) := by
    cases conforming <;> rfl
  have hlast : SqlLex.run conforming (.string (!conforming)) "ms'".toList =
      some ([], .stringEnd (!conforming)) := by
    cases conforming <;> rfl
  have hscan : scan conforming (timeoutSettings limits).toList = some (.clean
      (setLocal "statement_timeout" ++ .semicolon :: setLocal "lock_timeout" ++
        .semicolon :: setLocal "idle_in_transaction_session_timeout")) := by
    unfold scan timeoutSettings
    simp only [String.toList_append, List.append_assoc]
    rw [run_append_of hstatement, run_append_of (run_decimal _ _ _), run_append_of hnext,
      run_append_of hlock, run_append_of (run_decimal _ _ _), run_append_of hnext,
      run_append_of hidle, run_append_of (run_decimal _ _ _), hlast]
    rfl
  rw [batch, lex, hscan]
  rfl

/-! ### The lock -/

def lockWords : List Token := [word "lock", word "table"]

def modeWords : List Token :=
  [word "in", word "share", word "row", word "exclusive", word "mode"]

/-- **The lock text.**  How the text pasted into it ends decides what it is. -/
theorem scan_lockText (name : String) :
    scan conforming (lockText name).toList = (scan conforming name.toList).map fun
      | .clean ts => .clean (lockWords ++ ts ++ modeWords)
      | .comment ts => .comment (lockWords ++ ts)
      | .unfinished => .unfinished := by
  have hlock : SqlLex.run conforming .neutral "LOCK TABLE ".toList =
      some (lockWords, .neutral) := by
    cases conforming <;> rfl
  have hmode : scan conforming "IN SHARE ROW EXCLUSIVE MODE".toList =
      some (.clean modeWords) := by
    cases conforming <;> rfl
  have htext : (lockText name).toList = "LOCK TABLE ".toList ++
      (name.toList ++ ' ' :: "IN SHARE ROW EXCLUSIVE MODE".toList) := by
    simp [lockText]
  have hplain : ∀ c ∈ "IN SHARE ROW EXCLUSIVE MODE".toList, isPlain c :=
    List.all_eq_true.mp (by decide)
  rw [htext, scan_append_neutral hlock, scan_plain_tail name.toList hplain]
  rcases scan conforming name.toList with - | ⟨ts⟩ | ts | -
  · rfl
  · rw [Option.bind_some, hmode]
    simp [Ending.after]
  · rfl
  · rfl

theorem toList_quoteIdentifier (s : String) :
    (quoteIdentifier s).toList = quoteName s.toList := by
  simp [quoteIdentifier, quoteName, Str.replaceChar]

/-- The lock on one quoted relation. -/
def lockStatement (schema table : String) : List Token :=
  lockWords ++ [.quoted schema.toList, .dot, .quoted table.toList] ++ modeWords

/-- A quoted schema-qualified name is locked by one statement, and the server
refuses the text for no other reason than a name that is none. -/
theorem batch_lockText_quoted (schema table : String) :
    batch conforming (lockText (quoteIdentifier schema ++ "." ++ quoteIdentifier table)).toList =
      if Nameable schema.toList ∧ Nameable table.toList then
        some [lockStatement schema table] else none := by
  have hname : (quoteIdentifier schema ++ "." ++ quoteIdentifier table).toList =
      quoteName schema.toList ++ '.' :: quoteName table.toList := by
    simp [toList_quoteIdentifier]
  rw [batch, lex, scan_lockText, hname]
  by_cases h : Nameable schema.toList ∧ Nameable table.toList
  · rw [if_pos h, scan_quotedPair_of h.1 h.2]
    rfl
  · rw [if_neg h, scan_quotedPair_none h]
    rfl

/-! ### What may end a transaction -/

/-- A statement that changes no data and ends no transaction, by its first
word. -/
def Harmless (statement : List Token) : Prop :=
  statement.head? = some (word "set") ∨ statement.head? = some (word "lock")

/-- May this command make the effects of its transaction durable?  COMMIT may,
and so may a simple query with anything else in it than SET and LOCK. -/
def Cmd.mayCommit : Cmd → Prop
  | .commit => True
  | .batchExecute sql => ∃ statements, batch conforming sql.toList = some statements ∧
      ∃ s ∈ statements, ¬ Harmless s
  | _ => False

theorem timeoutSettings_harmless (limits : Limits) :
    ¬ (Cmd.batchExecute (timeoutSettings limits)).mayCommit conforming := by
  rintro ⟨statements, hbatch, s, hs, hharm⟩
  rw [batch_timeoutSettings] at hbatch
  cases hbatch
  simp only [List.mem_cons, List.not_mem_nil, or_false] at hs
  rcases hs with rfl | rfl | rfl <;> exact hharm (.inl rfl)

theorem lockText_harmless (schema table : String) :
    ¬ (Cmd.batchExecute (lockText (quoteIdentifier schema ++ "." ++
      quoteIdentifier table))).mayCommit conforming := by
  rintro ⟨statements, hbatch, s, hs, hharm⟩
  rw [batch_lockText_quoted] at hbatch
  split at hbatch
  · cases hbatch
    rw [List.mem_singleton] at hs
    subst hs
    exact hharm (.inr rfl)
  · cases hbatch

end DmlPact
