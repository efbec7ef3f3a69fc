/-
DmlPact/Lib/SqlLex.lean

How a PostgreSQL server cuts a text into tokens, and a simple query into
statements.

The lexer is an automaton over characters.  Its mode says what the next
character belongs to, and a step emits the tokens that the character ends.  Unquoted words are folded
to lower case, a doubled quote inside quotes is one quote, comments nest, and
dollar quotes end at their own tag.  `conforming` is the server setting
`standard_conforming_strings`: without it a backslash escapes inside a plain
string too.

A text ends *clean*, when its last token is over or a blank would end it, in a
line *comment*, which only a line break ends, or *unfinished*, inside a quote or
a block comment.  Which of the three it is decides what a text pasted behind it
means (`run_plain_tail`).
-/
import Mathlib.Data.List.Basic

namespace SqlLex

inductive Token where
  | word (name : List Char)
  | quoted (name : List Char)
  | unicodeQuoted (raw : List Char)
  | string
  | semicolon | dot | comma | star | lparen | rparen
  | other (c : Char)
  deriving DecidableEq

inductive Mode where
  | neutral
  | word (acc : List Char)
  | unicodeAmp
  | quoted (unicode : Bool) (acc : List Char)
  | quotedEnd (unicode : Bool) (acc : List Char)
  | string (escapes : Bool)
  | stringEscape
  | stringEnd (escapes : Bool)
  | dash
  | slash
  | line
  | block (depth : Nat)
  | blockStar (depth : Nat)
  | blockSlash (depth : Nat)
  | dollar (tag : List Char)
  | dollarBody (tag : List Char) (seen : Option (List Char))
  deriving DecidableEq

/-! ### Characters -/

def lower (c : Char) : Char :=
  if 'A' ≤ c ∧ c ≤ 'Z' then Char.ofNat (c.toNat + 32) else c

def isBlank (c : Char) : Bool :=
  c = ' ' || c = '\t' || c = '\n' || c = '\r' || c.toNat = 0x0b || c.toNat = 0x0c

/-- Letters, the underscore, and everything beyond ASCII. -/
def isIdentStart (c : Char) : Bool :=
  ('a' ≤ c && c ≤ 'z') || ('A' ≤ c && c ≤ 'Z') || c = '_' || 0x80 ≤ c.toNat

def isTagPart (c : Char) : Bool := isIdentStart c || ('0' ≤ c && c ≤ '9')

def isIdentPart (c : Char) : Bool := isTagPart c || c = '$'

/-! ### The automaton -/

def quotedToken (unicode : Bool) (acc : List Char) : Token :=
  if unicode then .unicodeQuoted acc else .quoted acc

/-- The tokens of a dollar sign that starts no dollar quote. -/
def dollarTokens (tag : List Char) : List Token :=
  .other '$' :: if tag = [] then [] else [.word (tag.map lower)]

variable (conforming : Bool)

/-- The first character of something new: what it emits, and the mode. -/
def start (c : Char) : List Token × Mode :=
  if isBlank c then ([], .neutral)
  else if c = '"' then ([], .quoted false [])
  else if c = '\'' then ([], .string (!conforming))
  else if isIdentStart c then ([], .word [lower c])
  else if c = '$' then ([], .dollar [])
  else if c = '-' then ([], .dash)
  else if c = '/' then ([], .slash)
  else if c = ';' then ([.semicolon], .neutral)
  else if c = '.' then ([.dot], .neutral)
  else if c = ',' then ([.comma], .neutral)
  else if c = '*' then ([.star], .neutral)
  else if c = '(' then ([.lparen], .neutral)
  else if c = ')' then ([.rparen], .neutral)
  else ([.other c], .neutral)

/-- A character that is not part of what came before, which is `ts`. -/
def leave (ts : List Token) (c : Char) : Option (List Token × Mode) :=
  some (ts ++ (start conforming c).1, (start conforming c).2)

/-- A character that is part of what came before. -/
def stay (mode : Mode) : Option (List Token × Mode) := some ([], mode)

/-- One character.  A NUL cannot be sent to a server, and a quoted name must
not be empty. -/
def step (mode : Mode) (c : Char) : Option (List Token × Mode) :=
  if c.toNat = 0 then none
  else match mode with
  | .neutral => leave conforming [] c
  | .word acc =>
      if isIdentPart c then stay (.word (acc ++ [lower c]))
      else if c = '\'' ∧ acc ∈ [['e'], ['b'], ['x'], ['n']] then
        stay (.string (acc = ['e'] || (acc = ['n'] && !conforming)))
      else if c = '&' ∧ acc = ['u'] then stay .unicodeAmp
      else leave conforming [.word acc] c
  | .unicodeAmp =>
      if c = '"' then stay (.quoted true [])
      else if c = '\'' then stay (.string false)
      else leave conforming [.word ['u'], .other '&'] c
  | .quoted unicode acc =>
      if c = '"' then stay (.quotedEnd unicode acc) else stay (.quoted unicode (acc ++ [c]))
  | .quotedEnd unicode acc =>
      if c = '"' then stay (.quoted unicode (acc ++ [c]))
      else if acc = [] then none
      else leave conforming [quotedToken unicode acc] c
  | .string escapes =>
      if c = '\'' then stay (.stringEnd escapes)
      else if c = '\\' ∧ escapes then stay .stringEscape
      else stay (.string escapes)
  | .stringEscape => stay (.string true)
  | .stringEnd escapes =>
      if c = '\'' then stay (.string escapes) else leave conforming [.string] c
  | .dash => if c = '-' then stay .line else leave conforming [.other '-'] c
  | .slash => if c = '*' then stay (.block 0) else leave conforming [.other '/'] c
  | .line => if c = '\n' ∨ c = '\r' then stay .neutral else stay .line
  | .block depth =>
      if c = '*' then stay (.blockStar depth)
      else if c = '/' then stay (.blockSlash depth)
      else stay (.block depth)
  | .blockStar depth =>
      if c = '/' then stay (if depth = 0 then .neutral else .block (depth - 1))
      else if c = '*' then stay (.blockStar depth)
      else stay (.block depth)
  | .blockSlash depth =>
      if c = '*' then stay (.block (depth + 1))
      else if c = '/' then stay (.blockSlash depth)
      else stay (.block depth)
  | .dollar tag =>
      if c = '$' then stay (.dollarBody tag none)
      else if (if tag = [] then isIdentStart c else isTagPart c) then stay (.dollar (tag ++ [c]))
      else leave conforming (dollarTokens tag) c
  | .dollarBody tag seen =>
      if c = '$' then
        if seen = some tag then some ([.string], .neutral)
        else stay (.dollarBody tag (some []))
      else stay (.dollarBody tag (seen.map (· ++ [c])))

/-- A text: everything it emits, and the mode behind it. -/
def run : Mode → List Char → Option (List Token × Mode)
  | mode, [] => some ([], mode)
  | mode, c :: cs => do
      let (ts, mode) ← step conforming mode c
      let (us, mode) ← run mode cs
      return (ts ++ us, mode)

/-! ### How a text ends -/

inductive Ending where
  | clean (tokens : List Token)
  | comment (tokens : List Token)
  | unfinished
  deriving DecidableEq

/-- How a text ends that has emitted `ts`; nothing for an empty name. -/
def ending (ts : List Token) : Mode → Option Ending
  | .neutral => some (.clean ts)
  | .word acc => some (.clean (ts ++ [.word acc]))
  | .unicodeAmp => some (.clean (ts ++ [.word ['u'], .other '&']))
  | .quotedEnd unicode acc =>
      if acc = [] then none else some (.clean (ts ++ [quotedToken unicode acc]))
  | .stringEnd _ => some (.clean (ts ++ [.string]))
  | .dash => some (.clean (ts ++ [.other '-']))
  | .slash => some (.clean (ts ++ [.other '/']))
  | .dollar tag => some (.clean (ts ++ dollarTokens tag))
  | .line => some (.comment ts)
  | .quoted _ _ | .string _ | .stringEscape | .block _ | .blockStar _ | .blockSlash _
  | .dollarBody _ _ => some .unfinished

/-- How a whole text ends. -/
def scan (cs : List Char) : Option Ending := do
  let (ts, mode) ← run conforming .neutral cs
  ending ts mode

/-- The tokens of a text, if it is one that a server reads to its end. -/
def Ending.tokens : Ending → Option (List Token)
  | .clean ts | .comment ts => some ts
  | .unfinished => none

def lex (cs : List Char) : Option (List Token) := (scan conforming cs).bind Ending.tokens

/-! ### Statements -/

/-- Put a token at the front of the first piece. -/
def consToken (t : Token) : List (List Token) → List (List Token)
  | [] => [[t]]
  | s :: ss => (t :: s) :: ss

/-- The pieces between semicolons, empty ones included. -/
def pieces : List Token → List (List Token)
  | [] => [[]]
  | t :: ts => if t = .semicolon then [] :: pieces ts else consToken t (pieces ts)

/-- The statements of a simple query: its pieces that are not empty. -/
def statements (ts : List Token) : List (List Token) := (pieces ts).filter (· ≠ [])

/-- What a server makes of a simple query. -/
def batch (cs : List Char) : Option (List (List Token)) := (lex conforming cs).map statements

example : batch true "select 1; -- x\n;COMMIT /* ; */".toList =
    some [[.word "select".toList, .other '1'], [.word "commit".toList]] := by decide +kernel

/-! ### Reading is a fold -/

variable {conforming}

/-- Emit `ts` first. -/
def emit (ts : List Token) (p : List Token × Mode) : List Token × Mode := (ts ++ p.1, p.2)

@[simp] theorem run_nil (mode : Mode) : run conforming mode [] = some ([], mode) := rfl

theorem run_cons (mode : Mode) (c : Char) (cs : List Char) :
    run conforming mode (c :: cs) = (step conforming mode c).bind fun p =>
      (run conforming p.2 cs).map (emit p.1) := by
  rw [run]
  rcases step conforming mode c with - | ⟨ts, mode'⟩
  · rfl
  · show ((run conforming mode' cs).bind fun q => some (ts ++ q.1, q.2)) = _
    rw [Option.bind_some]
    rcases run conforming mode' cs with - | q <;> rfl

theorem run_append (mode : Mode) (cs ds : List Char) :
    run conforming mode (cs ++ ds) = (run conforming mode cs).bind fun p =>
      (run conforming p.2 ds).map (emit p.1) := by
  induction cs generalizing mode with
  | nil =>
      show run conforming mode ds = (run conforming mode ds).map (emit [])
      rcases run conforming mode ds with - | p <;> rfl
  | cons c cs ih =>
      rw [List.cons_append, run_cons, run_cons]
      rcases step conforming mode c with - | ⟨ts, mode'⟩
      · rfl
      · simp only [Option.bind_some, ih]
        rcases run conforming mode' cs with - | ⟨us, mode''⟩
        · rfl
        · simp only [Option.bind_some, Option.map_some, emit]
          rcases run conforming mode'' ds with - | ⟨vs, last⟩
          · rfl
          · simp [emit]

/-- Reading on, from where a first text has left. -/
theorem run_append_of {mode mode' : Mode} {cs : List Char} {ts : List Token}
    (h : run conforming mode cs = some (ts, mode')) (ds : List Char) :
    run conforming mode (cs ++ ds) = (run conforming mode' ds).map (emit ts) := by
  rw [run_append, h, Option.bind_some]

/-! ### A plain text behind another -/

/-- Letters and blanks: characters that open and close nothing. -/
def isPlain (c : Char) : Bool := c = ' ' || ('a' ≤ c && c ≤ 'z') || ('A' ≤ c && c ≤ 'Z')

theorem start_space : start conforming ' ' = ([], .neutral) := rfl

variable (conforming) in
/-- A blank ends a clean text. -/
theorem step_space_clean {ts us : List Token} {mode : Mode}
    (h : ending ts mode = some (.clean us)) :
    ∃ vs, step conforming mode ' ' = some (vs, .neutral) ∧ ts ++ vs = us := by
  cases mode <;> simp only [ending, Option.some.injEq, Ending.clean.injEq, reduceCtorEq] at h
  case neutral => exact ⟨[], rfl, by rw [← h, List.append_nil]⟩
  case word acc => exact ⟨[.word acc], rfl, h⟩
  case unicodeAmp => exact ⟨[.word ['u'], .other '&'], rfl, h⟩
  case quotedEnd unicode acc =>
      split_ifs at h with hacc
      · simp only [Option.some.injEq, Ending.clean.injEq] at h
        refine ⟨[quotedToken unicode acc], ?_, h⟩
        show (if acc = [] then none else leave conforming [quotedToken unicode acc] ' ') = _
        rw [if_neg hacc]
        rfl
  case stringEnd escapes => exact ⟨[.string], rfl, h⟩
  case dash => exact ⟨[.other '-'], rfl, h⟩
  case slash => exact ⟨[.other '/'], rfl, h⟩
  case dollar tag =>
      refine ⟨dollarTokens tag, ?_, h⟩
      by_cases htag : tag = []
      · subst htag; rfl
      · show (if (if tag = [] then isIdentStart ' ' else isTagPart ' ') = true then _ else _) = _
        rw [if_neg htag, if_neg (by decide)]
        simp [leave, start_space]

/-- What is not a plain character. -/
theorem ne_of_isPlain {c d : Char} (hc : isPlain c) (hd : isPlain d = false) : c ≠ d := by
  rintro rfl
  rw [hc] at hd
  cases hd

theorem toNat_ne_zero_of_isPlain {c : Char} (hc : isPlain c) : c.toNat ≠ 0 := by
  intro h
  have hnul : c = Char.ofNat 0 := by rw [← h, Char.ofNat_toNat]
  exact ne_of_isPlain hc (by decide) hnul

/-- Plain characters do not end a line comment. -/
theorem step_plain_line {c : Char} (hc : isPlain c) :
    step conforming .line c = some ([], .line) := by
  have h0 := toNat_ne_zero_of_isPlain hc
  have h1 : c ≠ '\n' := ne_of_isPlain hc (by decide)
  have h2 : c ≠ '\r' := ne_of_isPlain hc (by decide)
  simp [step, stay, h0, h1, h2]

variable (conforming) in
/-- Plain characters do not finish what is unfinished. -/
theorem step_plain_unfinished {c : Char} (hc : isPlain c) {ts : List Token} {mode : Mode}
    (h : ending ts mode = some .unfinished) :
    ∃ mode', step conforming mode c = some ([], mode') ∧
      ending ts mode' = some .unfinished := by
  have h0 := toNat_ne_zero_of_isPlain hc
  have hquote : c ≠ '"' := ne_of_isPlain hc (by decide)
  have hapos : c ≠ '\'' := ne_of_isPlain hc (by decide)
  have hback : c ≠ '\\' := ne_of_isPlain hc (by decide)
  have hstar : c ≠ '*' := ne_of_isPlain hc (by decide)
  have hslash : c ≠ '/' := ne_of_isPlain hc (by decide)
  have hdollar : c ≠ '$' := ne_of_isPlain hc (by decide)
  cases mode <;> simp only [ending, Option.some.injEq, reduceCtorEq] at h
  case quotedEnd unicode acc =>
      split_ifs at h
      simp only [Option.some.injEq, reduceCtorEq] at h
  all_goals simp [step, stay, ending, h0, hquote, hapos, hback, hstar, hslash, hdollar]

theorem run_plain_line {cs : List Char} (hcs : ∀ c ∈ cs, isPlain c) :
    run conforming .line cs = some ([], .line) := by
  induction cs with
  | nil => rfl
  | cons c cs ih =>
      rw [run_cons, step_plain_line (hcs c List.mem_cons_self), Option.bind_some,
        ih fun d hd => hcs d (List.mem_cons_of_mem c hd)]
      rfl

variable (conforming) in
theorem run_plain_unfinished {cs : List Char} (hcs : ∀ c ∈ cs, isPlain c) {ts : List Token}
    {mode : Mode} (h : ending ts mode = some .unfinished) :
    ∃ mode', run conforming mode cs = some ([], mode') ∧
      ending ts mode' = some .unfinished := by
  induction cs generalizing mode with
  | nil => exact ⟨mode, rfl, h⟩
  | cons c cs ih =>
      obtain ⟨mode₁, hstep, h₁⟩ :=
        step_plain_unfinished conforming (hcs c List.mem_cons_self) h
      obtain ⟨mode₂, hrun, h₂⟩ := ih (fun d hd => hcs d (List.mem_cons_of_mem c hd)) h₁
      refine ⟨mode₂, ?_, h₂⟩
      rw [run_cons, hstep, Option.bind_some, hrun]
      rfl

def Ending.after (ts : List Token) : Ending → Ending
  | .clean us => .clean (ts ++ us)
  | .comment us => .comment (ts ++ us)
  | .unfinished => .unfinished

theorem ending_append (ts us : List Token) (mode : Mode) :
    ending (ts ++ us) mode = (ending us mode).map (Ending.after ts) := by
  cases mode <;> simp only [ending, List.append_assoc]
  case quotedEnd unicode acc =>
      split_ifs
      · rfl
      · simp [Ending.after]
  all_goals rfl

theorem ending_eq_none {ts : List Token} {mode : Mode} (h : ending ts mode = none) :
    ∃ unicode, mode = .quotedEnd unicode [] := by
  cases mode <;> simp only [ending, reduceCtorEq] at h
  case quotedEnd unicode acc =>
      split_ifs at h with hacc
      exact ⟨unicode, by rw [hacc]⟩

theorem ending_eq_comment {ts us : List Token} {mode : Mode}
    (h : ending ts mode = some (.comment us)) : mode = .line ∧ ts = us := by
  cases mode <;> simp only [ending, Option.some.injEq, reduceCtorEq, Ending.comment.injEq] at h
  case quotedEnd unicode acc =>
      split_ifs at h
      simp only [Option.some.injEq, reduceCtorEq] at h
  case line => exact ⟨rfl, h⟩

/-- A text behind one that has emitted `ts` and left nothing open. -/
theorem scan_append_neutral {cs ds : List Char} {ts : List Token}
    (h : run conforming .neutral cs = some (ts, .neutral)) :
    scan conforming (cs ++ ds) = (scan conforming ds).map (Ending.after ts) := by
  show (run conforming .neutral (cs ++ ds)).bind (fun p => ending p.1 p.2) =
    ((run conforming .neutral ds).bind fun p => ending p.1 p.2).map _
  rw [run_append, h, Option.bind_some]
  rcases run conforming .neutral ds with - | ⟨us, mode⟩
  · rfl
  · exact ending_append ts us mode

/-- **Tails.**  A blank and plain characters behind a text are read as tokens
of their own after a clean end, and are swallowed otherwise. -/
theorem scan_plain_tail (cs : List Char) {tail : List Char} (htail : ∀ c ∈ tail, isPlain c) :
    scan conforming (cs ++ ' ' :: tail) = (scan conforming cs).bind fun e => match e with
      | .clean ts => (scan conforming tail).map (Ending.after ts)
      | .comment ts => some (.comment ts)
      | .unfinished => some .unfinished := by
  have hall : ∀ c ∈ ' ' :: tail, isPlain c := by
    intro c hc
    rcases List.mem_cons.mp hc with rfl | hc
    · rfl
    · exact htail c hc
  show (run conforming .neutral (cs ++ ' ' :: tail)).bind (fun p => ending p.1 p.2) =
    ((run conforming .neutral cs).bind fun p => ending p.1 p.2).bind _
  rw [run_append]
  rcases run conforming .neutral cs with - | ⟨ts, mode⟩
  · rfl
  simp only [Option.bind_some]
  rcases hend : ending ts mode with - | ⟨us⟩ | us | -
  · -- an empty quoted name
    obtain ⟨unicode, rfl⟩ := ending_eq_none hend
    rfl
  · obtain ⟨vs, hstep, rfl⟩ := step_space_clean conforming hend
    rw [run_cons, hstep]
    simp only [Option.bind_some]
    show _ = ((run conforming .neutral tail).bind fun p => ending p.1 p.2).map _
    rcases run conforming .neutral tail with - | ⟨ws, last⟩
    · rfl
    · simp only [Option.map_some, Option.bind_some, emit, ← List.append_assoc]
      exact ending_append _ _ _
  · obtain ⟨rfl, rfl⟩ := ending_eq_comment hend
    rw [run_plain_line hall]
    simp [emit, ending]
  · obtain ⟨mode', hrun, hend'⟩ := run_plain_unfinished conforming hall hend
    rw [hrun]
    simpa [emit] using hend'

/-! ### Texts in quotes -/

/-- A server never sees a text with a NUL in it. -/
theorem run_of_nul {cs : List Char} {c : Char} (hc : c ∈ cs) (h0 : c.toNat = 0)
    (mode : Mode) : run conforming mode cs = none := by
  induction cs generalizing mode with
  | nil => cases hc
  | cons d cs ih =>
      rw [run_cons]
      rcases List.mem_cons.mp hc with rfl | hmem
      · have hstep : step conforming mode c = none := by unfold step; rw [if_pos h0]
        rw [hstep]
        rfl
      · rcases step conforming mode d with - | p
        · rfl
        · rw [Option.bind_some, ih hmem]
          rfl

/-- Inside a string literal nothing counts but quotes and backslashes. -/
theorem run_string {cs : List Char} (hcs : ∀ c ∈ cs, c.toNat ≠ 0 ∧ c ≠ '\'' ∧ c ≠ '\\')
    (escapes : Bool) :
    run conforming (.string escapes) cs = some ([], .string escapes) := by
  induction cs with
  | nil => rfl
  | cons c cs ih =>
      obtain ⟨h0, hquote, hback⟩ := hcs c List.mem_cons_self
      have hstep : step conforming (.string escapes) c = some ([], .string escapes) := by
        simp [step, stay, h0, hquote, hback]
      rw [run_cons, hstep, Option.bind_some, ih fun d hd => hcs d (List.mem_cons_of_mem c hd)]
      rfl

/-- A name in double quotes, its own quotes doubled. -/
def quoteName (name : List Char) : List Char :=
  '"' :: name.flatMap (fun d => if d = '"' then ['"', '"'] else [d]) ++ ['"']

/-- Quoting keeps every character of the name, and ends the name nowhere
else. -/
theorem run_doubled {name : List Char} (hname : ∀ c ∈ name, c.toNat ≠ 0) (acc : List Char) :
    run conforming (.quoted false acc)
        (name.flatMap fun d => if d = '"' then ['"', '"'] else [d]) =
      some ([], .quoted false (acc ++ name)) := by
  induction name generalizing acc with
  | nil => rw [List.append_nil]; rfl
  | cons c name ih =>
      have h0 : c.toNat ≠ 0 := hname c List.mem_cons_self
      have hone : run conforming (.quoted false acc) (if c = '"' then ['"', '"'] else [c]) =
          some ([], .quoted false (acc ++ [c])) := by
        by_cases hc : c = '"'
        · subst hc; rfl
        · rw [if_neg hc, run_cons]
          simp [step, stay, h0, hc, emit]
      rw [List.flatMap_cons, run_append, hone, Option.bind_some,
        ih (fun d hd => hname d (List.mem_cons_of_mem c hd))]
      simp [emit]

theorem run_quoteName {name : List Char} (hname : ∀ c ∈ name, c.toNat ≠ 0) :
    run conforming .neutral (quoteName name) = some ([], .quotedEnd false name) := by
  have hopen : step conforming .neutral '"' = some ([], .quoted false []) := rfl
  have hclose : step conforming (.quoted false name) '"' =
      some ([], .quotedEnd false name) := rfl
  rw [quoteName, List.cons_append, run_cons, hopen, Option.bind_some, run_append,
    run_doubled hname, Option.bind_some, List.nil_append, run_cons, hclose]
  rfl

/-- What a server takes for a quoted name: some characters, none of them the
one that no text has. -/
def Nameable (name : List Char) : Prop := name ≠ [] ∧ ∀ c ∈ name, c.toNat ≠ 0

instance (name : List Char) : Decidable (Nameable name) :=
  inferInstanceAs (Decidable (name ≠ [] ∧ ∀ c ∈ name, c.toNat ≠ 0))

/-- **Quoted names.**  Two of them with a dot between are read as exactly
that. -/
theorem scan_quotedPair_of {a b : List Char} (ha : Nameable a) (hb : Nameable b) :
    scan conforming (quoteName a ++ '.' :: quoteName b) =
      some (.clean [.quoted a, .dot, .quoted b]) := by
  have hdot : step conforming (.quotedEnd false a) '.' = some ([.quoted a, .dot], .neutral) := by
    simp [step, ha.1, leave, start, isBlank, isIdentStart, quotedToken]
  show Option.bind (run conforming .neutral (quoteName a ++ '.' :: quoteName b)) _ = _
  rw [run_append, run_quoteName ha.2, Option.bind_some, run_cons, hdot, Option.bind_some,
    run_quoteName hb.2]
  simp [emit, ending, hb.1, quotedToken]

/-- A name that is no name makes the whole text unreadable. -/
theorem scan_quotedPair_none {a b : List Char} (h : ¬ (Nameable a ∧ Nameable b)) :
    scan conforming (quoteName a ++ '.' :: quoteName b) = none := by
  have hnul : ∀ {name : List Char}, (¬ ∀ c ∈ name, c.toNat ≠ 0) →
      ∃ c ∈ quoteName name, c.toNat = 0 := by
    intro name hname
    simp only [not_forall, not_not] at hname
    obtain ⟨c, hc, h0⟩ := hname
    refine ⟨c, ?_, h0⟩
    have hne : c ≠ '"' := by rintro rfl; cases h0
    exact List.mem_append_left _ (List.mem_cons_of_mem _ (List.mem_flatMap.mpr
      ⟨c, hc, by rw [if_neg hne]; exact List.mem_singleton_self c⟩))
  have hscan : ∀ {cs : List Char} {c : Char}, c ∈ cs → c.toNat = 0 →
      scan conforming cs = none := fun hc h0 => by
    rw [scan, run_of_nul hc h0]; rfl
  by_cases ha : ∀ c ∈ a, c.toNat ≠ 0
  swap
  · obtain ⟨c, hc, h0⟩ := hnul ha
    exact hscan (List.mem_append_left _ hc) h0
  by_cases hb : ∀ c ∈ b, c.toNat ≠ 0
  swap
  · obtain ⟨c, hc, h0⟩ := hnul hb
    exact hscan (List.mem_append_right _ (List.mem_cons_of_mem _ hc)) h0
  show Option.bind (run conforming .neutral (quoteName a ++ '.' :: quoteName b)) _ = none
  rw [run_append, run_quoteName ha, Option.bind_some, run_cons]
  -- no character that has no place is left, so one of the names is empty
  by_cases hempty : a = []
  · subst hempty
    rfl
  have hlast : b = [] := by
    by_contra hlast
    exact h ⟨⟨hempty, ha⟩, hlast, hb⟩
  subst hlast
  have hdot : step conforming (.quotedEnd false a) '.' = some ([.quoted a, .dot], .neutral) := by
    simp [step, hempty, leave, start, isBlank, isIdentStart, quotedToken]
  rw [hdot, Option.bind_some, run_quoteName hb]
  rfl

end SqlLex
