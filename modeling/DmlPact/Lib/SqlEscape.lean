/-
DmlPact/Lib/SqlEscape.lean

What a server finds in a text that was written piece by piece: tokens, literals
and blanks.  Each piece means what it means on its own, to a lexer that reads a
backslash in a plain string as itself.  The server reads the whole text as it was
written (`ReadAsWritten`) unless

    two pieces stand too close      the second begins nothing new behind the
                                    first, as `-` behind `-` (`Parts`)
    an escaped quote                the server takes a backslash for an escape,
                                    and a quote is behind an odd run of them

and in both cases it does not (`readAsWritten_iff`).

For the escapes two lexers run in step, one that reads a backslash as itself and
one that does not.  Inside a plain string the second is where the first is, or
past a backslash (`shadow`), and as long as no escaped character is a quote they
meet again (`step_shadow`).  A quote behind an odd run of backslashes parts them:
up to the next character that is not a quote, or the end of the piece, one of
the two takes every pair of quotes the other way (`places_parted`).
-/
import DmlPact.Lib.SqlLex
import Mathlib.Data.List.Chain

namespace SqlLex

/-! ### Places -/

/-- The character that led here belongs to a string literal, quotes included. -/
def Mode.inLiteral : Mode → Bool
  | .string _ | .stringEscape | .stringEnd _ | .dollarBody _ _ => true
  | _ => false

/-- A text that ends here ends inside a string literal. -/
def Mode.isOpen : Mode → Bool
  | .string _ | .stringEscape | .dollarBody _ _ => true
  | _ => false

/-- The character begins something new here. -/
def Mode.begins : Mode → Char → Bool
  | .neutral, _ => true
  | .word acc, c => !isIdentPart c && !(c = '&' && acc = ['u']) &&
      !(c = '\'' && (acc = ['e'] || acc = ['b'] || acc = ['x'] || acc = ['n']))
  | .unicodeAmp, c => c ≠ '"' && c ≠ '\''
  | .quotedEnd _ _, c => c ≠ '"'
  | .stringEnd _, c => c ≠ '\''
  | .dash, c => c ≠ '-'
  | .slash, c => c ≠ '*'
  | .dollar tag, c => c ≠ '$' && !(if tag = [] then isIdentStart c else isTagPart c)
  | _, _ => false

/-- For each character, whether it begins something new, and whether it belongs
to a string literal. -/
def places (conforming : Bool) : Mode → List Char → List (Bool × Bool)
  | _, [] => []
  | mode, c :: cs =>
      match step conforming mode c with
      | none => []
      | some p => (mode.begins c, p.2.inLiteral) :: places conforming p.2 cs

section

variable {conforming : Bool} {mode mode' : Mode} {c : Char} {ts us : List Token}

theorem places_cons (h : step conforming mode c = some (ts, mode')) (cs : List Char) :
    places conforming mode (c :: cs) =
      (mode.begins c, mode'.inLiteral) :: places conforming mode' cs := by
  rw [places, h]

theorem places_append {cs : List Char} (h : run conforming mode cs = some (ts, mode'))
    (ds : List Char) :
    places conforming mode (cs ++ ds) = places conforming mode cs ++ places conforming mode' ds := by
  induction cs generalizing mode ts with
  | nil =>
      cases h
      rfl
  | cons c cs ih =>
      rw [run_cons] at h
      rcases hstep : step conforming mode c with - | ⟨vs, mode₁⟩
      · rw [hstep] at h
        cases h
      · rw [hstep, Option.bind_some, Option.map_eq_some_iff] at h
        obtain ⟨⟨ws, mode₂⟩, hrun, hlast⟩ := h
        obtain rfl : mode₂ = mode' := congrArg Prod.snd hlast
        rw [List.cons_append, places_cons hstep, places_cons hstep, ih hrun, List.cons_append]

/-- What begins something new ends what was before. -/
theorem step_begins (h0 : c.toNat ≠ 0) (hbegins : mode.begins c = true)
    (hend : ending [] mode = some (.clean us)) :
    step conforming mode c = leave conforming us c := by
  cases mode <;> simp only [ending, List.nil_append, Option.some.injEq, Ending.clean.injEq,
    reduceCtorEq] at hend
  case quotedEnd unicode acc =>
      split_ifs at hend with hacc
      simp only [Option.some.injEq, Ending.clean.injEq] at hend
      simp only [Mode.begins, decide_eq_true_eq] at hbegins
      simp [step, h0, hbegins, hacc, hend]
  case word acc =>
      subst hend
      simp only [Mode.begins, Bool.and_eq_true, Bool.not_eq_true'] at hbegins
      obtain ⟨⟨hpart, hunicode⟩, hprefix⟩ := hbegins
      have hprefix' : ¬ (c = '\'' ∧ acc ∈ [['e'], ['b'], ['x'], ['n']]) := by
        simpa [and_assoc] using hprefix
      have hunicode' : ¬ (c = '&' ∧ acc = ['u']) := by simpa using hunicode
      rw [step, if_neg h0]
      simp only [hpart, Bool.false_eq_true, if_false, hprefix', hunicode']
  case dollar tag =>
      subst hend
      simp only [Mode.begins, Bool.and_eq_true, Bool.not_eq_true', decide_eq_true_eq] at hbegins
      simp [step, h0, hbegins.1, hbegins.2]
  all_goals
    subst hend
    simp_all [Mode.begins, step]

/-- Behind what is not finished nothing begins. -/
theorem clean_of_begins (hbegins : mode.begins c = true) {p : List Token × Mode}
    (h : step conforming mode c = some p) : ∃ us, ending [] mode = some (.clean us) := by
  cases mode
  case quotedEnd unicode acc =>
      by_cases hacc : acc = []
      · subst hacc
        simp only [Mode.begins, decide_eq_true_eq] at hbegins
        simp [step, hbegins] at h
      · exact ⟨_, if_neg hacc⟩
  all_goals first
    | exact ⟨_, rfl⟩
    | cases hbegins

end

/-! ### Escaped quotes -/

/-- A quote that comes next opens a plain string: not one with a prefix, and
not the second half of a doubled quote. -/
def Mode.opensPlain : Mode → Bool
  | .neutral | .dash | .slash | .dollar _ => true
  | .word acc => acc ≠ ['e'] ∧ acc ≠ ['b'] ∧ acc ≠ ['x']
  | .quotedEnd _ acc => acc ≠ []
  | _ => false

/-- What is known of the plain string that is being read: whether an odd run of
backslashes has just been. -/
def plainNext (mode : Mode) (plain : Option Bool) (c : Char) : Option Bool :=
  if c = '\'' ∧ mode.opensPlain then some false
  else match mode with
  | .string _ => plain.map fun odd => c = '\\' && !odd
  | .stringEnd _ => if c = '\'' then plain else none
  | _ => none

/-- Some plain string of the text, as the first lexer reads it, has a quote right
behind an odd run of backslashes: its own end, or half of a doubled quote. -/
def escapesQuote : Mode → Option Bool → List Char → Bool
  | _, _, [] => false
  | mode, plain, c :: cs =>
      if plain = some true ∧ c = '\'' then true
      else match step true mode c with
      | none => false
      | some p => escapesQuote p.2 (plainNext mode plain c) cs

example : escapesQuote .neutral none "a = '\\' OR b = ' OR true --'".toList = true := by
  decide +kernel

/-! ### The two lexers in step -/

/-- Where the second lexer is. -/
def shadow : Mode → Option Bool → Mode
  | .string _, some odd => if odd then .stringEscape else .string true
  | .stringEnd _, some _ => .stringEnd true
  | mode, _ => mode

/-- A plain string is read without escapes, and a quote is not a backslash. -/
def PlainAt : Mode → Option Bool → Prop
  | _, none => True
  | mode, some odd => mode = .string false ∨ mode = .stringEnd false ∧ odd = false

/-- Outside literals the two are in one mode. -/
theorem shadow_of_outside {mode : Mode} (h : mode.inLiteral = false) (plain : Option Bool) :
    shadow mode plain = mode := by
  cases mode with
  | string escapes => cases h
  | stringEnd escapes => cases h
  | _ => rfl

/-- Nothing but a quote starts a literal. -/
theorem start_outside {conforming : Bool} {c : Char} (hc : c ≠ '\'') :
    (start conforming c).2.inLiteral = false := by
  have hite : ∀ (p : Prop) [Decidable p] (a b : List Token × Mode), a.2.inLiteral = false →
      b.2.inLiteral = false → (if p then a else b).2.inLiteral = false := by
    intro p _ a b ha hb
    by_cases hp : p
    · rwa [if_pos hp]
    · rwa [if_neg hp]
  unfold start
  rw [if_neg hc]
  iterate 11 refine hite _ _ _ rfl ?_
  exact hite _ _ _ rfl rfl

theorem start_same {c : Char} (hc : c ≠ '\'') : start false c = start true c := by
  unfold start
  rw [if_neg hc, if_neg hc]

/-- The setting matters at a quote only. -/
theorem step_same (mode : Mode) {c : Char} (hc : c ≠ '\'') : step false mode c = step true mode c := by
  have hleave : ∀ ts, leave false ts c = leave true ts c := by
    intro ts
    rw [leave, leave, start_same hc]
  cases mode <;> simp [step, hleave, hc]

/-- Where no plain string is being read, a quote opens one or is read alike. -/
theorem step_quote (mode : Mode) :
    step false mode '\'' = (step true mode '\'').map fun p =>
      (p.1, shadow p.2 (plainNext mode none '\'')) := by
  cases mode with
  | word acc =>
      by_cases he : acc = ['e']
      · subst he; rfl
      by_cases hb : acc = ['b']
      · subst hb; rfl
      by_cases hx : acc = ['x']
      · subst hx; rfl
      by_cases hn : acc = ['n']
      · subst hn; rfl
      · have hstep : ∀ conforming, step conforming (.word acc) '\'' =
            some ([.word acc], .string !conforming) := by
          intro conforming
          simp [step, isIdentPart, isTagPart, isIdentStart, leave, start, isBlank, he, hb, hx, hn]
        simp [hstep, plainNext, Mode.opensPlain, shadow, he, hb, hx]
  | quotedEnd unicode acc =>
      by_cases hacc : acc = []
      · subst hacc; rfl
      · simp [step, leave, start, isBlank, plainNext, Mode.opensPlain, shadow, hacc]
  | dollar tag =>
      have hstep : ∀ conforming, step conforming (.dollar tag) '\'' =
          some (dollarTokens tag, .string !conforming) := by
        intro conforming
        by_cases htag : tag = [] <;>
          simp [step, isTagPart, isIdentStart, leave, start, isBlank, htag]
      simp [hstep, plainNext, Mode.opensPlain, shadow]
  | _ => rfl

/-- **Step.**  Unless the character is an escaped quote, the second lexer stays
with the first. -/
theorem step_shadow {mode : Mode} {plain : Option Bool} (hplain : PlainAt mode plain) {c : Char}
    (hc : ¬ (plain = some true ∧ c = '\'')) :
    step false (shadow mode plain) c =
      (step true mode c).map fun p => (p.1, shadow p.2 (plainNext mode plain c)) := by
  rcases plain with - | odd
  · have hmode : shadow mode none = mode := by cases mode <;> rfl
    rw [hmode]
    by_cases hquote : c = '\''
    · rw [hquote]
      exact step_quote mode
    · have hnext : plainNext mode none c = none := by
        cases mode <;> simp [plainNext, hquote]
      have hshadow : ∀ m : Mode, shadow m none = m := by
        intro m
        cases m <;> rfl
      rw [step_same mode hquote, hnext]
      simp [hshadow]
  · by_cases h0 : c.toNat = 0
    · have hnone : ∀ conforming m, step conforming m c = none := by
        intro conforming m
        unfold step
        rw [if_pos h0]
      rw [hnone, hnone]
      rfl
    rcases hplain with rfl | ⟨rfl, rfl⟩
    · cases odd with
      | true =>
          -- the second lexer is past a backslash, and the character is escaped
          have hquote : c ≠ '\'' := fun h => hc ⟨rfl, h⟩
          simp [step, stay, shadow, plainNext, h0, hquote]
      | false =>
          by_cases hquote : c = '\''
          · subst hquote; rfl
          by_cases hback : c = '\\'
          · subst hback; rfl
          simp [step, stay, shadow, plainNext, h0, hquote, hback]
    · by_cases hquote : c = '\''
      · subst hquote; rfl
      have hleave : step true (.stringEnd false) c = leave true [.string] c := by
        simp [step, h0, hquote]
      have hleave' : step false (.stringEnd true) c = leave true [.string] c := by
        simp [step, h0, hquote, leave, start_same hquote]
      have hnext : plainNext (.stringEnd false) (some false) c = none := by
        simp [plainNext, hquote]
      rw [hleave, hnext]
      show step false (.stringEnd true) c = _
      rw [hleave', leave, Option.map_some, shadow_of_outside (start_outside hquote)]

theorem opensPlain_step {mode : Mode} (h : mode.opensPlain) :
    ∃ ts, step true mode '\'' = some (ts, .string false) := by
  cases mode with
  | neutral => exact ⟨[], rfl⟩
  | dash => exact ⟨[.other '-'], rfl⟩
  | slash => exact ⟨[.other '/'], rfl⟩
  | dollar tag =>
      refine ⟨dollarTokens tag, ?_⟩
      by_cases htag : tag = [] <;>
        simp [step, isTagPart, isIdentStart, leave, start, isBlank, htag]
  | word acc =>
      simp only [Mode.opensPlain, decide_eq_true_eq] at h
      obtain ⟨he, hb, hx⟩ := h
      by_cases hn : acc = ['n']
      · subst hn
        exact ⟨[], rfl⟩
      · refine ⟨[.word acc], ?_⟩
        simp [step, isIdentPart, isTagPart, isIdentStart, leave, start, isBlank, he, hb, hx, hn]
  | quotedEnd unicode acc =>
      have hacc : acc ≠ [] := by simpa [Mode.opensPlain] using h
      refine ⟨[quotedToken unicode acc], ?_⟩
      simp [step, leave, start, isBlank, hacc]
  | _ => cases h

/-- What is known of a plain string stays true of it. -/
theorem plainAt_next {mode : Mode} {plain : Option Bool} (hplain : PlainAt mode plain) {c : Char}
    {ts : List Token} {mode' : Mode} (h : step true mode c = some (ts, mode')) :
    PlainAt mode' (plainNext mode plain c) := by
  by_cases hopens : c = '\'' ∧ mode.opensPlain
  · obtain ⟨rfl, hopen⟩ := hopens
    obtain ⟨us, hstep⟩ := opensPlain_step hopen
    rw [hstep] at h
    cases h
    have hnext : plainNext mode plain '\'' = some false := if_pos ⟨rfl, hopen⟩
    rw [hnext]
    exact .inl rfl
  unfold plainNext
  rw [if_neg hopens]
  rcases plain with - | odd
  · cases mode with
    | stringEnd escapes =>
        show PlainAt mode' (if c = '\'' then none else none)
        rw [ite_self]
        trivial
    | _ => trivial
  -- a step was taken, so the character is not the end marker
  have h0 : c.toNat ≠ 0 := by
    intro h0
    unfold step at h
    rw [if_pos h0] at h
    cases h
  rcases hplain with rfl | ⟨rfl, rfl⟩
  · by_cases hquote : c = '\''
    · subst hquote
      cases h
      exact .inr ⟨rfl, by simp⟩
    · have hstep : step true (.string false) c = some ([], .string false) := by
        simp [step, stay, h0, hquote]
      rw [hstep] at h
      cases h
      exact .inl rfl
  · by_cases hquote : c = '\''
    · subst hquote
      cases h
      exact .inl rfl
    · show PlainAt mode' (if c = '\'' then some false else none)
      rw [if_neg hquote]
      trivial

/-! ### The rest of a piece -/

theorem begins_shadow (mode : Mode) (plain : Option Bool) (c : Char) :
    (shadow mode plain).begins c = mode.begins c := by
  cases mode <;> rcases plain with - | - | - <;> rfl

theorem inLiteral_shadow (mode : Mode) (plain : Option Bool) :
    (shadow mode plain).inLiteral = mode.inLiteral := by
  cases mode <;> rcases plain with - | - | - <;> rfl

theorem ending_shadow (ts : List Token) (mode : Mode) (plain : Option Bool) :
    ending ts (shadow mode plain) = ending ts mode := by
  cases mode <;> rcases plain with - | - | - <;> rfl

/-- **Agreement.**  Without an escaped quote the two lexers read the same tokens
and find the same places. -/
theorem run_shadow {cs : List Char} {mode mode' : Mode} {plain : Option Bool}
    (hplain : PlainAt mode plain) (h : escapesQuote mode plain cs = false) {ts : List Token}
    (hrun : run true mode cs = some (ts, mode')) :
    ∃ plain', run false (shadow mode plain) cs = some (ts, shadow mode' plain') ∧
      places false (shadow mode plain) cs = places true mode cs := by
  induction cs generalizing mode plain ts with
  | nil =>
      cases hrun
      exact ⟨plain, rfl, rfl⟩
  | cons c cs ih =>
      rw [escapesQuote] at h
      split_ifs at h with hquote
      have hshadow := step_shadow hplain hquote
      rw [run_cons] at hrun
      rcases hstep : step true mode c with - | ⟨us, mode₁⟩
      · rw [hstep] at hrun
        cases hrun
      · rw [hstep] at hshadow h hrun
        rw [Option.bind_some, Option.map_eq_some_iff] at hrun
        obtain ⟨⟨vs, mode₂⟩, hrest, hlast⟩ := hrun
        obtain rfl : mode₂ = mode' := congrArg Prod.snd hlast
        obtain ⟨plain', hrest', hplaces⟩ := ih (plainAt_next hplain hstep) h hrest
        refine ⟨plain', ?_, ?_⟩
        · rw [run_cons, hshadow, Option.map_some, Option.bind_some, hrest', Option.map_some]
          exact congrArg (fun ts => some (ts, shadow mode₂ plain')) (congrArg Prod.fst hlast)
        · rw [places_cons hshadow, places_cons hstep, begins_shadow, inLiteral_shadow, hplaces]

/-- Reading does not end inside a literal. -/
def Closes (conforming : Bool) (mode : Mode) (cs : List Char) : Prop :=
  ∃ ts mode', run conforming mode cs = some (ts, mode') ∧ mode'.isOpen = false

theorem Closes.tail {conforming : Bool} {mode mode' : Mode} {c : Char} {cs : List Char}
    {ts : List Token} (h : Closes conforming mode (c :: cs))
    (hstep : step conforming mode c = some (ts, mode')) : Closes conforming mode' cs := by
  obtain ⟨us, last, hrun, hlast⟩ := h
  rw [run_cons, hstep, Option.bind_some, Option.map_eq_some_iff] at hrun
  obtain ⟨⟨vs, mode₂⟩, hrest, hend⟩ := hrun
  exact ⟨vs, mode₂, hrest, by rw [show mode₂ = last from congrArg Prod.snd hend, hlast]⟩

/-- What is written behind a piece: nothing, or another that begins something. -/
def Follows (ds : List Char) (written : List (Bool × Bool)) : Prop :=
  ds = [] ∨ ∃ d ds' l written', ds = d :: ds' ∧ written = (true, l) :: written'

/-- **Parting.**  Once one lexer is past a quote that the other has escaped, the
second does not find the places of the rest of the piece and of what follows. -/
theorem places_parted {cs ds : List Char} {written : List (Bool × Bool)}
    (h0 : ∀ c ∈ cs ++ ds, c.toNat ≠ 0) (hfollows : Follows ds written) :
    (Closes true (.stringEnd false) cs → Closes false (.string true) (cs ++ ds) →
      places false (.string true) (cs ++ ds) ≠ places true (.stringEnd false) cs ++ written) ∧
    (Closes true (.string false) cs → Closes false (.stringEnd true) (cs ++ ds) →
      places false (.stringEnd true) (cs ++ ds) ≠ places true (.string false) cs ++ written) := by
  induction cs with
  | nil =>
      refine ⟨fun _ hcloses hsame => ?_, fun hcloses => ?_⟩
      · rcases hfollows with rfl | ⟨d, ds', l, written', rfl, rfl⟩
        · obtain ⟨ts, mode, hrun, hopen⟩ := hcloses
          cases hrun
          cases hopen
        · -- the second lexer reads on in its literal
          obtain ⟨ts, mode, hrun, -⟩ := hcloses
          rw [List.nil_append, run_cons] at hrun
          rcases hstep : step false (.string true) d with - | ⟨us, mode'⟩
          · rw [hstep] at hrun
            cases hrun
          · rw [List.nil_append, places_cons hstep] at hsame
            cases congrArg Prod.fst (List.cons.inj hsame).1
      · obtain ⟨ts, mode, hrun, hopen⟩ := hcloses
        cases hrun
        cases hopen
  | cons c cs ih =>
      obtain ⟨hleft, hright⟩ := ih fun d hd => h0 d (List.mem_cons_of_mem c hd)
      have hc := h0 c List.mem_cons_self
      by_cases hquote : c = '\''
      · subst hquote
        have hopens : ∀ conforming escapes, step conforming (.stringEnd escapes) '\'' =
            some ([], .string escapes) := fun _ _ => rfl
        have hends : ∀ conforming escapes, step conforming (.string escapes) '\'' =
            some ([], .stringEnd escapes) := fun _ _ => rfl
        constructor
        · intro hon hoff hsame
          rw [List.cons_append, places_cons (hends false true), places_cons (hopens true false)]
            at hsame
          exact hright (hon.tail (hopens true false)) (hoff.tail (hends false true))
            (List.cons.inj hsame).2
        · intro hon hoff hsame
          rw [List.cons_append, places_cons (hopens false true), places_cons (hends true false)]
            at hsame
          exact hleft (hon.tail (hends true false)) (hoff.tail (hopens false true))
            (List.cons.inj hsame).2
      -- any other character is in a literal for one of them only
      have hout : ∀ conforming escapes, step conforming (.stringEnd escapes) c =
          leave conforming [.string] c := by
        intro conforming escapes
        simp [step, hc, hquote]
      have hin : ∀ conforming escapes, ∃ mode, step conforming (.string escapes) c =
          some ([], mode) ∧ mode.inLiteral := by
        intro conforming escapes
        by_cases hback : c = '\\' ∧ escapes
        · exact ⟨.stringEscape, by simp [step, stay, hback], rfl⟩
        · exact ⟨.string escapes, by simp [step, stay, hc, hquote, hback], rfl⟩
      constructor
      · obtain ⟨mode, hstep, hmode⟩ := hin false true
        intro _ _ hsame
        rw [List.cons_append, places_cons hstep, places_cons (hout true false)] at hsame
        have hliteral := congrArg Prod.snd (List.cons.inj hsame).1
        rw [hmode, start_outside hquote] at hliteral
        cases hliteral
      · obtain ⟨mode, hstep, hmode⟩ := hin true false
        intro _ _ hsame
        rw [List.cons_append, places_cons hstep, places_cons (hout false true)] at hsame
        have hliteral := congrArg Prod.snd (List.cons.inj hsame).1
        rw [hmode, start_outside hquote] at hliteral
        cases hliteral

/-- With an escaped quote in it the second lexer does not find the places. -/
theorem places_ne {cs ds : List Char} {written : List (Bool × Bool)}
    (h0 : ∀ c ∈ cs ++ ds, c.toNat ≠ 0) (hfollows : Follows ds written) {mode : Mode}
    {plain : Option Bool} (hplain : PlainAt mode plain) (h : escapesQuote mode plain cs = true)
    (hon : Closes true mode cs) (hoff : Closes false (shadow mode plain) (cs ++ ds)) :
    places false (shadow mode plain) (cs ++ ds) ≠ places true mode cs ++ written := by
  induction cs generalizing mode plain with
  | nil => cases h
  | cons c cs ih =>
      have hrest : ∀ d ∈ cs ++ ds, d.toNat ≠ 0 := fun d hd => h0 d (List.mem_cons_of_mem c hd)
      rw [escapesQuote] at h
      split_ifs at h with hquote
      · obtain ⟨rfl, rfl⟩ := hquote
        rcases hplain with rfl | ⟨-, hodd⟩
        · intro hsame
          have hescaped : step false .stringEscape '\'' = some ([], .string true) := rfl
          have hended : step true (.string false) '\'' = some ([], .stringEnd false) := rfl
          rw [List.cons_append] at hsame
          exact (places_parted hrest hfollows).1 (hon.tail hended) (hoff.tail hescaped)
            (List.cons.inj hsame).2
        · cases hodd
      · have hshadow := step_shadow hplain hquote
        rcases hstep : step true mode c with - | ⟨ts, mode'⟩
        · rw [hstep] at h
          cases h
        · rw [hstep] at hshadow h
          intro hsame
          rw [List.cons_append, places_cons hshadow, places_cons hstep] at hsame
          exact ih hrest (plainAt_next hplain hstep) h (hon.tail hstep) (hoff.tail hshadow)
            (List.cons.inj hsame).2

/-! ### Pieces -/

/-- A piece of a text: a token, a literal or a blank. -/
structure Piece where
  first : Char
  rest : List Char
  deriving DecidableEq

namespace Piece

def chars (p : Piece) : List Char := p.first :: p.rest

/-- What it means on its own. -/
def tokens (p : Piece) : Option (List Token) := lex true p.chars

/-- It has an escaped quote. -/
def escapes (p : Piece) : Bool := escapesQuote .neutral none p.chars

/-- The next piece begins something new behind this one. -/
def Parts (p q : Piece) : Prop :=
  ∃ ts mode, run true .neutral p.chars = some (ts, mode) ∧ mode.begins q.first = true

instance (p q : Piece) : Decidable (Parts p q) :=
  decidable_of_iff ((run true .neutral p.chars).any (·.2.begins q.first) = true) <| by
    simp only [Option.any_eq_true, Prod.exists, Parts]

/-- The text of pieces. -/
def text (pieces : List Piece) : List Char := pieces.flatMap chars

/-- The places of pieces, each on its own. -/
def written (pieces : List Piece) : List (Bool × Bool) :=
  pieces.flatMap fun p => places true .neutral p.chars

end Piece

open Piece

/-- A server with this setting finds in the text the beginnings, the literals
and the tokens of its pieces.  A text with a NUL is never sent. -/
def ReadAsWritten (conforming : Bool) (pieces : List Piece) : Prop :=
  (∀ c ∈ text pieces, c.toNat ≠ 0) →
    places conforming .neutral (text pieces) = written pieces ∧
      ∃ tokens, pieces.mapM Piece.tokens = some tokens ∧
        lex conforming (text pieces) = some tokens.flatten

/-- Every piece is one, no two stand too close, and no quote is escaped. -/
structure Legible (conforming : Bool) (pieces : List Piece) : Prop where
  read : ∀ p ∈ pieces, p.tokens.isSome
  apart : pieces.IsChain Parts
  quotes : conforming = true ∨ ∀ p ∈ pieces, p.escapes = false

section

variable {conforming : Bool} {mode mode' : Mode} {ts us : List Token} {p : Piece}

/-- The tokens of a text behind one that has emitted `ts`. -/
def tokensFrom (conforming : Bool) (ts : List Token) (mode : Mode) (cs : List Char) :
    Option (List Token) :=
  (run conforming mode cs).bind fun r => (ending (ts ++ r.1) r.2).bind Ending.tokens

theorem tokensFrom_eq (ts : List Token) (cs : List Char) :
    tokensFrom conforming ts mode cs = (tokensFrom conforming [] mode cs).map (ts ++ ·) := by
  unfold tokensFrom
  rcases run conforming mode cs with - | ⟨us, last⟩
  · rfl
  · show (ending (ts ++ us) last).bind _ = ((ending ([] ++ us) last).bind _).map _
    rw [ending_append, List.nil_append]
    rcases ending us last with - | (e | e | -) <;> rfl

theorem tokensFrom_append {cs : List Char} (h : run conforming mode cs = some (ts, mode'))
    (us : List Token) (ds : List Char) :
    tokensFrom conforming us mode (cs ++ ds) = tokensFrom conforming (us ++ ts) mode' ds := by
  unfold tokensFrom
  rw [run_append_of h]
  rcases run conforming mode' ds with - | ⟨vs, last⟩
  · rfl
  · simp [emit]

/-- What has tokens is finished. -/
theorem closes_of_tokens {cs : List Char} (h : tokensFrom conforming ts mode cs = some us) :
    Closes conforming mode cs := by
  unfold tokensFrom at h
  rcases hrun : run conforming mode cs with - | ⟨vs, last⟩
  · rw [hrun] at h
    cases h
  · refine ⟨vs, last, hrun, ?_⟩
    rw [hrun, Option.bind_some] at h
    cases last <;> first | rfl | cases h

/-- The tokens behind the last mode. -/
theorem ending_tokens (ts : List Token) (mode : Mode) :
    (ending ts mode).bind Ending.tokens =
      ((ending [] mode).bind Ending.tokens).map (ts ++ ·) := by
  have hall := ending_append ts [] mode
  rw [List.append_nil] at hall
  rw [hall]
  rcases ending [] mode with - | (e | e | -) <;> rfl

/-- A piece on its own. -/
theorem Piece.run_of_tokens (h : p.tokens.isSome) : ∃ ts mode rest,
    run true .neutral p.chars = some (ts, mode) ∧
      (ending [] mode).bind Ending.tokens = some rest ∧ p.tokens = some (ts ++ rest) := by
  have htokens : p.tokens = (run true .neutral p.chars).bind fun r =>
      (ending r.1 r.2).bind Ending.tokens := by
    unfold Piece.tokens lex scan
    rcases run true .neutral p.chars with - | r <;> rfl
  rcases hrun : run true .neutral p.chars with - | ⟨ts, mode⟩
  · rw [htokens, hrun] at h
    cases h
  · rw [hrun, Option.bind_some, ending_tokens] at htokens
    rcases hrest : (ending [] mode).bind Ending.tokens with - | rest
    · rw [htokens, hrest] at h
      cases h
    · exact ⟨ts, mode, rest, rfl, hrest, by rw [htokens, hrest]; rfl⟩

/-- **A piece** that begins something new is read as it is on its own, up to
where a literal has ended. -/
theorem read_piece (h0 : ∀ c ∈ p.chars, c.toNat ≠ 0) (hend : ending [] mode = some (.clean us))
    (hbegins : mode.begins p.first = true) (hquotes : conforming = true ∨ p.escapes = false)
    (hrun : run true .neutral p.chars = some (ts, mode')) :
    ∃ last, (∀ c, last.begins c = mode'.begins c) ∧
      (∀ vs, ending vs last = ending vs mode') ∧
      run conforming mode p.chars = some (us ++ ts, last) ∧
      places conforming mode p.chars = places true .neutral p.chars := by
  obtain ⟨c, cs⟩ := p
  have hc : c.toNat ≠ 0 := h0 c List.mem_cons_self
  have hstart : ∀ conforming, step conforming .neutral c = leave conforming [] c :=
    fun _ => step_begins hc rfl rfl
  have hstep : step conforming mode c = leave conforming us c := step_begins hc hbegins hend
  have hrest := hrun
  rw [Piece.chars, run_cons, hstart, leave, Option.bind_some, Option.map_eq_some_iff] at hrest
  obtain ⟨⟨vs, mode₂⟩, hrest, hlast⟩ := hrest
  obtain ⟨rfl, rfl⟩ : (start true c).1 ++ vs = ts ∧ mode₂ = mode' := by
    simpa [emit] using hlast
  have hon : places true .neutral (c :: cs) =
      (true, (start true c).2.inLiteral) :: places true (start true c).2 cs := places_cons (hstart true) cs
  cases conforming with
  | true =>
      refine ⟨mode₂, fun _ => rfl, fun _ => rfl, ?_, ?_⟩
      · rw [Piece.chars, run_cons, hstep, leave, Option.bind_some, hrest]
        simp [emit]
      · rw [Piece.chars, hon, places_cons hstep, hbegins]
  | false =>
      have hnone : PlainAt .neutral none := trivial
      have hquote : ¬ ((none : Option Bool) = some true ∧ c = '\'') := by simp
      -- behind the first character the second lexer is in the shadow of the first
      have hshadow : (start false c).1 = (start true c).1 ∧
          (start false c).2 = shadow (start true c).2 (plainNext .neutral none c) := by
        have hboth := step_shadow hnone hquote
        rw [show shadow .neutral none = .neutral from rfl, hstart, hstart] at hboth
        have hpair : start false c =
            ((start true c).1, shadow (start true c).2 (plainNext .neutral none c)) :=
          Option.some.inj hboth
        rw [hpair]
        exact ⟨rfl, rfl⟩
      have hescapes : escapesQuote (start true c).2 (plainNext .neutral none c) cs = false := by
        have hall := hquotes.resolve_left Bool.false_ne_true
        rw [Piece.escapes, Piece.chars, escapesQuote, if_neg hquote, hstart] at hall
        exact hall
      obtain ⟨plain, hrun', hplaces⟩ := run_shadow (plainAt_next hnone (hstart true)) hescapes hrest
      refine ⟨shadow mode₂ plain, begins_shadow mode₂ plain, fun vs => ending_shadow vs mode₂ plain,
        ?_, ?_⟩
      · rw [Piece.chars, run_cons, hstep, leave, Option.bind_some, hshadow.1, hshadow.2, hrun']
        simp [emit]
      · rw [Piece.chars, hon, places_cons hstep, hbegins, hshadow.2, inLiteral_shadow, hplaces]

/-- **Legible pieces** are read one by one. -/
theorem read_pieces {pieces : List Piece} (h0 : ∀ c ∈ text pieces, c.toNat ≠ 0)
    (h : Legible conforming pieces) (hend : ending [] mode = some (.clean us))
    (hbegins : ∀ p ∈ pieces.head?, mode.begins p.first = true) :
    places conforming mode (text pieces) = written pieces ∧
      ∃ tokens, pieces.mapM Piece.tokens = some tokens ∧
        tokensFrom conforming [] mode (text pieces) = some (us ++ tokens.flatten) := by
  induction pieces generalizing mode us with
  | nil => exact ⟨rfl, [], rfl, by simp [tokensFrom, text, hend, Ending.tokens]⟩
  | cons p pieces ih =>
      have hp : ∀ c ∈ p.chars, c.toNat ≠ 0 := fun c hc => h0 c (List.mem_append_left _ hc)
      have hlegible : Legible conforming pieces :=
        ⟨fun q hq => h.read q (List.mem_cons_of_mem p hq), h.apart.tail,
          h.quotes.imp_right fun hall q hq => hall q (List.mem_cons_of_mem p hq)⟩
      obtain ⟨ts, mode', rest, hrun, hrest, hown⟩ :=
        Piece.run_of_tokens (h.read p List.mem_cons_self)
      obtain ⟨last, hlike, hending, hread, hplaces⟩ := read_piece hp hend (hbegins p rfl)
        (h.quotes.imp_right fun hall => hall p List.mem_cons_self) hrun
      have htext : text (p :: pieces) = p.chars ++ text pieces := rfl
      have hwritten : written (p :: pieces) = places true .neutral p.chars ++ written pieces := rfl
      rw [htext, hwritten, places_append hread, hplaces, tokensFrom_append hread, List.nil_append,
        tokensFrom_eq]
      cases pieces with
      | nil =>
          -- the last piece may end in a comment
          have hlast : tokensFrom conforming [] last (text []) = some rest := by
            show (ending ([] ++ []) last).bind Ending.tokens = _
            rw [hending]
            exact hrest
          refine ⟨rfl, [ts ++ rest], by simp [List.mapM_cons, hown], ?_⟩
          rw [hlast]
          simp [List.append_assoc]
      | cons q pieces =>
          obtain ⟨hparts, -⟩ := List.isChain_cons_cons.mp h.apart
          obtain ⟨ts', mode₂, hrun', hq⟩ := hparts
          obtain ⟨rfl, rfl⟩ := Prod.mk.inj (Option.some.inj (hrun.symm.trans hrun'))
          have hclean : ending [] mode' = some (.clean rest) := by
            rcases hnone : ending [] mode' with - | (e | e | -)
            · rw [hnone] at hrest
              cases hrest
            · rw [hnone] at hrest
              rw [Option.some.inj hrest]
            · obtain ⟨rfl, -⟩ := ending_eq_comment hnone
              cases hq
            · rw [hnone] at hrest
              cases hrest
          obtain ⟨hplaces', tokens, hmap, hall⟩ := ih
            (fun c hc => h0 c (List.mem_append_right _ hc)) hlegible
            ((hending []).trans hclean) fun r hr => by
              obtain rfl := Option.some.inj hr
              rw [hlike]
              exact hq
          refine ⟨by rw [hplaces'], (ts ++ rest) :: tokens, by simp [List.mapM_cons, hown, hmap], ?_⟩
          rw [hall]
          simp [List.append_assoc]

/-- What is written behind a piece. -/
theorem follows_pieces {pieces : List Piece} (h0 : ∀ c ∈ text pieces, c.toNat ≠ 0) :
    Follows (text pieces) (written pieces) := by
  cases pieces with
  | nil => exact .inl rfl
  | cons q pieces =>
      have hstart : step true .neutral q.first = leave true [] q.first :=
        step_begins (h0 q.first (List.mem_append_left _ List.mem_cons_self)) rfl rfl
      exact .inr ⟨q.first, q.rest ++ text pieces, _, _, rfl, by
        rw [show written (q :: pieces) = places true .neutral (q.first :: q.rest) ++ written pieces
          from rfl, places_cons hstart]
        rfl⟩

/-- A piece with an escaped quote is not read as it is on its own. -/
theorem escaped_piece {ds : List Char} {behind : List (Bool × Bool)} {rest : List Token}
    (h0 : ∀ c ∈ p.chars ++ ds, c.toNat ≠ 0) (hfollows : Follows ds behind)
    (hrun : run true .neutral p.chars = some (ts, mode'))
    (hrest : (ending [] mode').bind Ending.tokens = some rest) (hescapes : p.escapes = true)
    (hend : ending [] mode = some (.clean us)) (hbegins : mode.begins p.first = true)
    (hcloses : Closes false mode (p.chars ++ ds)) :
    places false mode (p.chars ++ ds) ≠ places true .neutral p.chars ++ behind := by
  obtain ⟨c, cs⟩ := p
  have hc : c.toNat ≠ 0 := h0 c List.mem_cons_self
  have hstart : ∀ conforming, step conforming .neutral c = leave conforming [] c :=
    fun _ => step_begins hc rfl rfl
  have hstep : step false mode c = leave false us c := step_begins hc hbegins hend
  have hnone : PlainAt .neutral none := trivial
  have hquote : ¬ ((none : Option Bool) = some true ∧ c = '\'') := by simp
  have hshadow : (start false c).2 = shadow (start true c).2 (plainNext .neutral none c) := by
    have hboth := step_shadow hnone hquote
    rw [show shadow .neutral none = .neutral from rfl, hstart, hstart] at hboth
    exact congrArg Prod.snd (Option.some.inj hboth)
  rw [Piece.escapes, Piece.chars, escapesQuote, if_neg hquote, hstart] at hescapes
  have hon : Closes true .neutral (c :: cs) := by
    refine ⟨ts, mode', hrun, ?_⟩
    cases mode' <;> first | rfl | cases hrest
  have hoff := hcloses.tail hstep
  rw [hshadow] at hoff
  intro hsame
  rw [Piece.chars, List.cons_append, places_cons hstep, places_cons (hstart true), hshadow] at hsame
  exact places_ne (fun d hd => h0 d (List.mem_cons_of_mem c hd)) hfollows
    (plainAt_next hnone (hstart true)) hescapes (hon.tail (hstart true)) hoff (List.cons.inj hsame).2

/-- What is read as written is legible. -/
theorem legible_of_places {pieces : List Piece} (h0 : ∀ c ∈ text pieces, c.toNat ≠ 0)
    (hread : ∀ p ∈ pieces, p.tokens.isSome) (hcloses : Closes conforming mode (text pieces))
    (hplaces : places conforming mode (text pieces) = written pieces) :
    (∀ p ∈ pieces.head?, mode.begins p.first = true) ∧ Legible conforming pieces := by
  induction pieces generalizing mode with
  | nil => exact ⟨nofun, ⟨nofun, .nil, .inr nofun⟩⟩
  | cons p pieces ih =>
      have htext : text (p :: pieces) = p.chars ++ text pieces := rfl
      have hwritten : written (p :: pieces) = places true .neutral p.chars ++ written pieces := rfl
      have hp : ∀ c ∈ p.chars, c.toNat ≠ 0 := fun c hc => h0 c (List.mem_append_left _ hc)
      obtain ⟨ts, mode', rest, hrun, hrest, hown⟩ :=
        Piece.run_of_tokens (hread p List.mem_cons_self)
      have hc : p.first.toNat ≠ 0 := hp p.first List.mem_cons_self
      have hstart : ∀ conforming, step conforming .neutral p.first = leave conforming [] p.first :=
        fun _ => step_begins hc rfl rfl
      -- the first character begins something new in the text too
      rcases hstep : step conforming mode p.first with - | ⟨vs, mode₁⟩
      · obtain ⟨us, last, hnone, -⟩ := hcloses
        rw [htext, Piece.chars, List.cons_append, run_cons, hstep] at hnone
        cases hnone
      have hbegins : mode.begins p.first = true := by
        rw [htext, hwritten, Piece.chars, List.cons_append, places_cons hstep,
          places_cons (hstart true), List.cons_append] at hplaces
        exact congrArg Prod.fst (List.cons.inj hplaces).1
      obtain ⟨us, hend⟩ := clean_of_begins hbegins hstep
      have hquotes : conforming = true ∨ p.escapes = false := by
        by_contra hneither
        rw [not_or, Bool.not_eq_true, Bool.not_eq_false] at hneither
        obtain ⟨rfl, hescapes⟩ := hneither
        exact escaped_piece h0 (follows_pieces fun c hc => h0 c (List.mem_append_right _ hc)) hrun
          hrest hescapes hend hbegins hcloses hplaces
      obtain ⟨last, hlike, hending, hread', hplaces'⟩ := read_piece hp hend hbegins hquotes hrun
      rw [htext, hwritten, places_append hread', hplaces'] at hplaces
      have hcloses' : Closes conforming last (text pieces) := by
        obtain ⟨vs, mode₂, hall, hopen⟩ := hcloses
        rw [htext, run_append_of hread', Option.map_eq_some_iff] at hall
        obtain ⟨⟨ws, mode₃⟩, hall, hlast⟩ := hall
        exact ⟨ws, mode₃, hall, by rw [show mode₃ = mode₂ from congrArg Prod.snd hlast, hopen]⟩
      obtain ⟨hfirst, hlegible⟩ := ih (fun c hc => h0 c (List.mem_append_right _ hc))
        (fun q hq => hread q (List.mem_cons_of_mem p hq)) hcloses' (List.append_cancel_left hplaces)
      refine ⟨fun q hq => ?_, hread, ?_, ?_⟩
      · obtain rfl := Option.some.inj hq
        exact hbegins
      · refine hlegible.apart.cons fun q hq => ⟨ts, mode', hrun, ?_⟩
        rw [← hlike]
        exact hfirst q hq
      · rcases hquotes with hon | hnone
        · exact .inl hon
        · refine hlegible.quotes.imp_right fun hall q hq => ?_
          rcases List.mem_cons.mp hq with rfl | hq
          · exact hnone
          · exact hall q hq

end

/-- What is mapped as a whole is mapped everywhere. -/
theorem isSome_of_mapM {α β : Type} {f : α → Option β} {xs : List α} {ys : List β}
    (h : xs.mapM f = some ys) : ∀ x ∈ xs, (f x).isSome := by
  induction xs generalizing ys with
  | nil => exact nofun
  | cons x xs ih =>
      rw [List.mapM_cons] at h
      rcases hx : f x with - | y
      · rw [hx] at h
        cases h
      · rcases hxs : xs.mapM f with - | zs
        · rw [hx, hxs] at h
          cases h
        · intro z hz
          rcases List.mem_cons.mp hz with rfl | hz
          · rw [hx]
            rfl
          · exact ih hxs z hz

/-- **Reading as written.**  A text that can be sent is read as it was written
exactly when its pieces are legible. -/
theorem readAsWritten_iff {conforming : Bool} {pieces : List Piece} :
    ReadAsWritten conforming pieces ↔
      Legible conforming pieces ∨ ∃ c ∈ text pieces, c.toNat = 0 := by
  by_cases hnul : ∃ c ∈ text pieces, c.toNat = 0
  · obtain ⟨c, hc, h0⟩ := hnul
    exact iff_of_true (fun hall => absurd h0 (hall c hc)) (.inr ⟨c, hc, h0⟩)
  have h0 : ∀ c ∈ text pieces, c.toNat ≠ 0 := by simpa using hnul
  have hlex : lex conforming (text pieces) = tokensFrom conforming [] .neutral (text pieces) := by
    unfold lex scan tokensFrom
    rcases run conforming .neutral (text pieces) with - | ⟨ts, mode⟩ <;> rfl
  rw [or_iff_left hnul]
  constructor
  · intro hread
    obtain ⟨hplaces, tokens, hmap, hall⟩ := hread h0
    rw [hlex] at hall
    have hread : ∀ p ∈ pieces, p.tokens.isSome := fun p hp => isSome_of_mapM hmap p hp
    exact (legible_of_places h0 hread (closes_of_tokens hall) hplaces).2
  · intro hlegible _
    have hneutral : ending [] .neutral = some (.clean []) := rfl
    obtain ⟨hplaces, tokens, hmap, hall⟩ := read_pieces h0 hlegible hneutral fun _ _ => rfl
    exact ⟨hplaces, tokens, hmap, hlex.trans (hall.trans (by rw [List.nil_append]))⟩

end SqlLex
