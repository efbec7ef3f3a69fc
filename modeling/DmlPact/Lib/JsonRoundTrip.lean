/-
DmlPact/Lib/JsonRoundTrip.lean

Rendered documents read back.

`run_compact` is the induction everything rests on: wherever a value is due,
and whatever is open around it, reading the rendering of `v` leaves the reader
as if `v` had just been completed.  It needs the next character to be one that
ends `v`, because a number does not end by itself.  From it:

* `parse_compact`   — a rendered array or object parses back to itself;
* `parse_prefix`    — a document cut short is not a JSON text;
* `compact_inj`     — different documents have different renderings;
* `le_of_mem_compact` — a rendering holds no control character, so it is one
  line of text.
-/
import DmlPact.Lib.Json

namespace Json

/-! ### Strings read back -/

/-- From the middle of a string literal, one escaped character adds that
character to what has been read. -/
theorem run_escapeChar (c : Char) (acc : List Char) (isKey : Bool) (fs : List Frame)
    (rest : List Char) :
    run ⟨.str acc .plain isKey, fs⟩ (escapeChar c ++ rest)
      = run ⟨.str (acc ++ [c]) .plain isKey, fs⟩ rest := by
  have hchar : ∀ n, c.toNat = n → c = Char.ofNat n := fun n h => h ▸ (Char.ofNat_toNat c).symm
  unfold escapeChar
  split_ifs with h₁ h₂ h₃ h₄ h₅ h₆ h₇ h₈
  · rw [hchar _ h₁]; rfl
  · rw [hchar _ h₂]; rfl
  · rw [hchar _ h₃]; rfl
  · rw [hchar _ h₄]; rfl
  · rw [hchar _ h₅]; rfl
  · rw [hchar _ h₆]; rfl
  · rw [hchar _ h₇]; rfl
  · -- the remaining control characters, each as four hexadecimal digits
    obtain ⟨n, hn⟩ : ∃ n, c.toNat = n := ⟨_, rfl⟩
    rw [hn] at h₈ ⊢
    rw [hchar n hn]
    interval_cases n <;> rfl
  · have hq : c ≠ '"' := fun h => h₁ (by rw [h]; rfl)
    have hb : c ≠ '\\' := fun h => h₂ (by rw [h]; rfl)
    have hstep : step ⟨.str acc .plain isKey, fs⟩ c
        = some ⟨.str (acc ++ [c]) .plain isKey, fs⟩ := by
      simp [step, stepPlain, stepString, hq, hb, h₈]
    rw [List.singleton_append, run_cons, hstep]
    rfl

/-- The inside of a rendered string, read from the middle of a literal. -/
theorem run_escaped (cs : List Char) (acc : List Char) (isKey : Bool) (fs : List Frame)
    (rest : List Char) :
    run ⟨.str acc .plain isKey, fs⟩ (cs.flatMap escapeChar ++ rest)
      = run ⟨.str (acc ++ cs) .plain isKey, fs⟩ rest := by
  induction cs generalizing acc with
  | nil => simp
  | cons c cs ih =>
      rw [List.flatMap_cons, List.append_assoc, run_escapeChar, ih, List.append_assoc]
      rfl

/-- A rendered string, from its first quote to past its last. -/
theorem run_quoted (s : String) (isKey : Bool) (fs : List Frame) (rest : List Char) :
    run ⟨.str [] .plain isKey, fs⟩ (s.toList.flatMap escapeChar ++ '"' :: rest)
      = (endString s.toList isKey fs).bind fun st => run st rest := by
  rw [run_escaped, List.nil_append, run_cons]
  rfl

/-- A rendered string, read where a value is due. -/
theorem run_str (s : String) (fs : List Frame) (rest : List Char) :
    run ⟨.value, fs⟩ (quoted s ++ rest) = run (complete (.str s) fs) rest := by
  have hstart : run ⟨.value, fs⟩ (quoted s ++ rest)
      = run ⟨.str [] .plain false, fs⟩ (s.toList.flatMap escapeChar ++ '"' :: rest) := by
    simp only [quoted, List.cons_append, List.append_assoc]
    rfl
  rw [hstart, run_quoted]
  simp [endString]

/-- A rendered key and its colon, read where a key is due. -/
theorem run_keyColon (s : String) (members : List (String × Value)) (k : String)
    (fs : List Frame) (rest : List Char) :
    run ⟨.key, .obj members k :: fs⟩ (quoted s ++ ':' :: rest)
      = run ⟨.value, .obj members s :: fs⟩ rest := by
  have hopen : run ⟨.key, .obj members k :: fs⟩ (quoted s ++ ':' :: rest)
      = run ⟨.str [] .plain true, .obj members k :: fs⟩
          (s.toList.flatMap escapeChar ++ '"' :: ':' :: rest) := by
    simp only [quoted, List.cons_append, List.append_assoc]
    rfl
  have hend : endString s.toList true (.obj members k :: fs)
      = some ⟨.colon, .obj members s :: fs⟩ := by simp [endString]
  rw [hopen, run_quoted, hend]
  rfl

/-! ### Numbers read back -/

/-- A digit is none of the characters with a meaning of their own. -/
theorem ne_of_isDigit {c d : Char} (hc : c.isDigit) (hd : d.isDigit = false) : c ≠ d := by
  rintro rfl
  rw [hc] at hd
  cases hd

theorem isWs_of_isDigit {c : Char} (hc : c.isDigit) : isWs c = false := by
  simp [isWs, ne_of_isDigit hc (d := ' ') rfl, ne_of_isDigit hc (d := '\n') rfl,
    ne_of_isDigit hc (d := '\t') rfl, ne_of_isDigit hc (d := '\r') rfl]

/-- A character that an integer literal does not go on with, such as one that
can follow a value inside an array or object. -/
def Ends (c : Char) : Prop := NumPhase.next .zero c = none ∧ NumPhase.next .int c = none

/-- Digits carry an integer literal on. -/
theorem run_digits (ds : List Char) (hd : ∀ c ∈ ds, c.isDigit) (lexeme : List Char)
    (fs : List Frame) (rest : List Char) :
    run ⟨.num lexeme .int, fs⟩ (ds ++ rest) = run ⟨.num (lexeme ++ ds) .int, fs⟩ rest := by
  induction ds generalizing lexeme with
  | nil => simp
  | cons c ds ih =>
      have hc : step ⟨.num lexeme .int, fs⟩ c = some ⟨.num (lexeme ++ [c]) .int, fs⟩ := by
        simp [step, NumPhase.next, hd c (by simp)]
      rw [List.cons_append, run_cons, hc, Option.bind_some,
        ih (fun d hm => hd d (by simp [hm])), List.append_assoc]
      rfl

/-- A positive number's digits do not start with a zero. -/
theorem toDigits_head (n : Nat) (hn : 0 < n) :
    ∃ c ds, Nat.toDigits 10 n = c :: ds ∧ c ≠ '0' := by
  induction n using Nat.strong_induction_on with
  | _ n ih =>
      rw [Nat.toDigits_eq_if (by decide)]
      split_ifs with hlt
      · refine ⟨n.digitChar, [], rfl, ?_⟩
        interval_cases n <;> decide
      · obtain ⟨c, ds, hds, hc⟩ := ih (n / 10) (by omega) (by omega)
        exact ⟨c, ds ++ [(n % 10).digitChar], by rw [hds]; rfl, hc⟩

/-- A rendered natural number, read where a value is due or after a sign, has
become a whole literal. -/
theorem run_toDigits (n : Nat) (lexeme : List Char) (st : State) (rest : List Char)
    (hzero : step st '0' = some ⟨.num (lexeme ++ ['0']) .zero, st.stack⟩)
    (hint : ∀ c, c ≠ '0' → c.isDigit → step st c = some ⟨.num (lexeme ++ [c]) .int, st.stack⟩) :
    ∃ phase, (phase = .zero ∨ phase = .int) ∧
      run st (Nat.toDigits 10 n ++ rest)
        = run ⟨.num (lexeme ++ Nat.toDigits 10 n) phase, st.stack⟩ rest := by
  rcases Nat.eq_zero_or_pos n with rfl | hpos
  · refine ⟨.zero, .inl rfl, ?_⟩
    rw [Nat.toDigits_zero, List.singleton_append, run_cons, hzero]
    rfl
  · obtain ⟨c, ds, hds, hc⟩ := toDigits_head n hpos
    have hdigit : ∀ d ∈ c :: ds, d.isDigit := fun d hd =>
      Nat.isDigit_of_mem_toDigits (b := 10) (by decide) (by decide) (hds ▸ hd)
    refine ⟨.int, .inr rfl, ?_⟩
    rw [hds, List.cons_append, run_cons, hint c hc (hdigit c (by simp)), Option.bind_some,
      run_digits ds fun d hd => hdigit d (by simp [hd])]
    simp

/-- The value of a whole rendered literal. -/
theorem intValue_intLit (n : Int) : intValue (intLit n) = .int n := by
  cases n with
  | ofNat n =>
      rcases hds : Nat.toDigits 10 n with - | ⟨d, ds⟩
      · exact absurd hds Nat.toDigits_ne_nil
      · have hd : d.isDigit := Nat.isDigit_of_mem_toDigits (b := 10) (n := n)
          (by decide) (by decide) (by rw [hds]; simp)
        have hne : d ≠ '-' := by
          rintro rfl
          exact absurd hd (by decide)
        have hv : intValue (d :: ds) = .int (Nat.ofDigitChars 10 (d :: ds) 0) := by
          unfold intValue
          split
          · rename_i es h
            exact absurd (List.cons.inj h).1 hne
          · rfl
        rw [intLit, hds, hv, ← hds, Nat.ofDigitChars_ten_toDigits]
        rfl
  | negSucc n =>
      simp only [intLit, intValue, Nat.ofDigitChars_ten_toDigits]
      rw [if_neg (Nat.succ_ne_zero n)]
      rfl

/-- A rendered integer, read where a value is due and followed by a character
that ends it. -/
theorem run_intLit (n : Int) (fs : List Frame) {c : Char} (hc : Ends c) (rest : List Char) :
    run ⟨.value, fs⟩ (intLit n ++ c :: rest) = run (complete (.int n) fs) (c :: rest) := by
  obtain ⟨phase, hp, hrun⟩ : ∃ phase, (phase = .zero ∨ phase = .int) ∧
      run ⟨.value, fs⟩ (intLit n ++ c :: rest)
        = run ⟨.num (intLit n) phase, fs⟩ (c :: rest) := by
    have hdigit : ∀ d : Char, d ≠ '0' → d.isDigit →
        step ⟨.value, fs⟩ d = some ⟨.num [d] .int, fs⟩ := by
      intro d h0 hd
      have hne : ∀ e : Char, e.isDigit = false → d ≠ e := fun e => ne_of_isDigit hd
      simp [step, stepPlain, stepValue, isWs_of_isDigit hd, h0, hd, hne '[' rfl, hne '{' rfl,
        hne '"' rfl, hne 'n' rfl, hne 't' rfl, hne 'f' rfl, hne '-' rfl]
    cases n with
    | ofNat n => exact run_toDigits n [] ⟨.value, fs⟩ (c :: rest) rfl hdigit
    | negSucc n =>
        have hstart : run ⟨.value, fs⟩ (intLit (.negSucc n) ++ c :: rest)
            = run ⟨.num ['-'] .minus, fs⟩ (Nat.toDigits 10 (n + 1) ++ c :: rest) := rfl
        rw [hstart]
        refine run_toDigits (n + 1) ['-'] ⟨.num ['-'] .minus, fs⟩ (c :: rest) rfl ?_
        intro d h0 hd
        simp [step, NumPhase.next, h0, hd]
  have hnext : phase.next c = none := by
    rcases hp with rfl | rfl
    · exact hc.1
    · exact hc.2
  have hplain : step (complete (.int n) fs) c = stepPlain (complete (.int n) fs) c := by
    rcases fs with - | ⟨- | -⟩ <;> rfl
  have hval : phase.value (intLit n) = some (.int n) := by
    rcases hp with rfl | rfl <;> rw [NumPhase.value, intValue_intLit]
  rw [hrun, run_cons, run_cons, hplain]
  simp only [step, hnext, hval, Option.bind_some]

/-! ### Documents read back -/

mutual

/-- A value holding no float: one the reader gives back as it was. -/
def Value.exact : Value → Prop
  | .float _ => False
  | .arr items => exactItems items
  | .obj members => exactMembers members
  | .null | .bool _ | .int _ | .str _ => True

def exactItems : List Value → Prop
  | [] => True
  | v :: vs => v.exact ∧ exactItems vs

def exactMembers : List (String × Value) → Prop
  | [] => True
  | (_, v) :: ms => v.exact ∧ exactMembers ms

end

/-- The first character of a rendered value, seen right after `[`, starts
that value there as it would anywhere else. -/
theorem run_arrStart (v : Value) (hv : v.exact) (fs : List Frame) (rest : List Char) :
    run ⟨.arrStart, fs⟩ (v.compact ++ rest) = run ⟨.value, fs⟩ (v.compact ++ rest) := by
  match v, hv with
  | .null, _ => rfl
  | .bool true, _ => rfl
  | .bool false, _ => rfl
  | .str s, _ => rfl
  | .arr items, _ => rfl
  | .obj members, _ => rfl
  | .int (.negSucc n), _ => rfl
  | .int (.ofNat n), _ =>
      rcases hds : Nat.toDigits 10 n with - | ⟨d, ds⟩
      · exact absurd hds Nat.toDigits_ne_nil
      · have hd : d.isDigit := Nat.isDigit_of_mem_toDigits (b := 10) (n := n)
          (by decide) (by decide) (by rw [hds]; simp)
        have hstep : step ⟨.arrStart, fs⟩ d = step ⟨.value, fs⟩ d := by
          simp [step, stepPlain, isWs_of_isDigit hd, ne_of_isDigit hd (d := ']') rfl]
        rw [Value.compact, intLit, hds, List.cons_append, run_cons, run_cons, hstep]

/-- The first key of an object is read after the brace as it would be after a
comma. -/
theorem run_objStart (m : String × Value) (ms : List (String × Value)) (fs : List Frame)
    (rest : List Char) :
    run ⟨.objStart, fs⟩ (compactMembers (m :: ms) ++ rest)
      = run ⟨.key, fs⟩ (compactMembers (m :: ms) ++ rest) := by
  cases ms <;> rfl

mutual

/-- **A rendered value reads back**, wherever a value is due and whatever is
open around it, once a character that ends it follows. -/
theorem run_compact (v : Value) (hv : v.exact) (fs : List Frame) {c : Char}
    (hc : Ends c) (rest : List Char) :
    run ⟨.value, fs⟩ (v.compact ++ c :: rest) = run (complete v fs) (c :: rest) := by
  match v, hv with
  | .null, _ => rfl
  | .bool true, _ => rfl
  | .bool false, _ => rfl
  | .int n, _ => exact run_intLit n fs hc rest
  | .str s, _ => exact run_str s fs (c :: rest)
  | .arr items, hv =>
      have hstart : run ⟨.value, fs⟩ ((Value.arr items).compact ++ c :: rest)
          = run ⟨.arrStart, .arr [] :: fs⟩ (compactItems items ++ ']' :: c :: rest) := by
        simp only [Value.compact, List.cons_append, List.append_assoc]
        rfl
      rw [hstart]
      match items, hv with
      | [], _ => rfl
      | v :: vs, hv =>
          have hfirst : run ⟨.arrStart, .arr [] :: fs⟩ (compactItems (v :: vs) ++ ']' :: c :: rest)
              = run ⟨.value, .arr [] :: fs⟩ (compactItems (v :: vs) ++ ']' :: c :: rest) := by
            cases vs with
            | nil => exact run_arrStart v hv.1 _ _
            | cons w vs =>
                rw [compactItems, List.append_assoc]
                exact run_arrStart v hv.1 _ _
          rw [hfirst]
          exact run_items (v :: vs) (by simp) hv [] fs (c :: rest)
  | .obj members, hv =>
      have hstart : run ⟨.value, fs⟩ ((Value.obj members).compact ++ c :: rest)
          = run ⟨.objStart, .obj [] "" :: fs⟩
              (compactMembers members ++ '}' :: c :: rest) := by
        simp only [Value.compact, List.cons_append, List.append_assoc]
        rfl
      rw [hstart]
      match members, hv with
      | [], _ => rfl
      | m :: ms, hv =>
          rw [run_objStart]
          exact run_members (m :: ms) (by simp) hv [] "" fs (c :: rest)

/-- The items of an array, read where the first of them is due. -/
theorem run_items (items : List Value) (hne : items ≠ []) (hv : exactItems items)
    (acc : List Value) (fs : List Frame) (rest : List Char) :
    run ⟨.value, .arr acc :: fs⟩ (compactItems items ++ ']' :: rest)
      = run (complete (.arr (acc ++ items)) fs) rest := by
  match items, hv with
  | [], _ => exact absurd rfl hne
  | [v], hv =>
      rw [compactItems, run_compact v hv.1 _ ⟨rfl, rfl⟩]
      rfl
  | v :: w :: vs, hv =>
      have hnext : run (complete v (.arr acc :: fs)) (',' :: compactItems (w :: vs) ++ ']' :: rest)
          = run ⟨.value, .arr (acc ++ [v]) :: fs⟩ (compactItems (w :: vs) ++ ']' :: rest) := rfl
      rw [compactItems, List.append_assoc, List.cons_append,
        run_compact v hv.1 _ ⟨rfl, rfl⟩, ← List.cons_append, hnext,
        run_items (w :: vs) (by simp) hv.2 (acc ++ [v]) fs rest, List.append_assoc]
      rfl

/-- The members of an object, read where the first key is due. -/
theorem run_members (members : List (String × Value)) (hne : members ≠ [])
    (hv : exactMembers members) (acc : List (String × Value)) (k : String)
    (fs : List Frame) (rest : List Char) :
    run ⟨.key, .obj acc k :: fs⟩ (compactMembers members ++ '}' :: rest)
      = run (complete (.obj (acc ++ members)) fs) rest := by
  match members, hv with
  | [], _ => exact absurd rfl hne
  | [(key, v)], hv =>
      rw [compactMembers, List.append_assoc, List.cons_append, run_keyColon,
        run_compact v hv.1 _ ⟨rfl, rfl⟩]
      rfl
  | (key, v) :: m :: ms, hv =>
      have hnext : run (complete v (.obj acc key :: fs))
            (',' :: compactMembers (m :: ms) ++ '}' :: rest)
          = run ⟨.key, .obj (acc ++ [(key, v)]) key :: fs⟩
              (compactMembers (m :: ms) ++ '}' :: rest) := rfl
      have hassoc : compactMembers ((key, v) :: m :: ms) ++ '}' :: rest
          = quoted key ++ ':' :: (v.compact ++ ',' :: (compactMembers (m :: ms) ++ '}' :: rest)) := by
        simp only [compactMembers, List.append_assoc, List.cons_append]
      rw [hassoc, run_keyColon, run_compact v hv.1 _ ⟨rfl, rfl⟩, ← List.cons_append, hnext,
        run_members (m :: ms) (by simp) hv.2 (acc ++ [(key, v)]) key fs rest, List.append_assoc]
      rfl

end

/-! ### Whole documents -/

/-- An array or an object, as a whole text. -/
def Value.isDocument : Value → Bool
  | .arr _ | .obj _ => true
  | _ => false

/-- A rendered document leaves the reader with that document and nothing open. -/
theorem run_document (v : Value) (hv : v.exact) (hd : v.isDocument) :
    run ⟨.value, []⟩ v.compact = some ⟨.done v, []⟩ := by
  match v, hv with
  | .arr [], _ => rfl
  | .arr (v :: vs), hv =>
      have hfirst : run ⟨.value, []⟩ (Value.arr (v :: vs)).compact
          = run ⟨.arrStart, [.arr []]⟩ (compactItems (v :: vs) ++ [']']) := rfl
      have hdone : run ⟨.value, [.arr []]⟩ (compactItems (v :: vs) ++ [']'])
          = some ⟨.done (.arr (v :: vs)), []⟩ := run_items (v :: vs) (by simp) hv [] [] []
      rw [hfirst, ← hdone]
      cases vs with
      | nil => exact run_arrStart v hv.1 _ _
      | cons w vs =>
          rw [compactItems, List.append_assoc]
          exact run_arrStart v hv.1 _ _
  | .obj [], _ => rfl
  | .obj (m :: ms), hv =>
      have hfirst : run ⟨.value, []⟩ (Value.obj (m :: ms)).compact
          = run ⟨.objStart, [.obj [] ""]⟩ (compactMembers (m :: ms) ++ ['}']) := rfl
      rw [hfirst, run_objStart]
      exact run_members (m :: ms) (by simp) hv [] "" [] []

/-- **Round trip**: a rendered document parses back to itself. -/
theorem parse_compact (v : Value) (hv : v.exact) (hd : v.isDocument) :
    parse v.compact = some v := by
  rw [parse, run_document v hv hd]
  rfl

/-- Once a document has been accepted, only white space may follow. -/
theorem run_done {v : Value} {cs : List Char} {st : State}
    (h : run ⟨.done v, []⟩ cs = some st) : st = ⟨.done v, []⟩ ∧ ∀ c ∈ cs, isWs c := by
  induction cs with
  | nil => exact ⟨(Option.some.inj h).symm, by simp⟩
  | cons c cs ih =>
      rw [run_cons] at h
      by_cases hc : isWs c
      · have hs : step ⟨.done v, []⟩ c = some ⟨.done v, []⟩ := by simp [step, stepPlain, hc]
        rw [hs, Option.bind_some] at h
        obtain ⟨hst, hws⟩ := ih h
        exact ⟨hst, by simpa [hc] using hws⟩
      · have hs : step ⟨.done v, []⟩ c = none := by simp [step, stepPlain, hc]
        rw [hs] at h
        cases h

/-- A text that starts as a number outside any bracket ends as that number. -/
theorem run_num_done {phase : NumPhase} {lexeme cs : List Char} {w : Value}
    (h : run ⟨.num lexeme phase, []⟩ cs = some ⟨.done w, []⟩) : w.isDocument = false := by
  induction cs generalizing lexeme phase with
  | nil => cases h
  | cons c cs ih =>
      rw [run_cons] at h
      rcases hn : phase.next c with - | phase'
      · rcases hv : phase.value lexeme with - | v
        · simp [step, hn, hv] at h
        · have hnum : v.isDocument = false := by
            unfold NumPhase.value intValue at hv
            grind [Value.isDocument]
          -- only white space may follow a number that is the whole document
          by_cases hc : isWs c
          · have hs : step ⟨.num lexeme phase, []⟩ c = some ⟨.done v, []⟩ := by
              simp [step, hn, hv, complete, stepPlain, hc]
            rw [hs, Option.bind_some] at h
            cases (run_done h).1
            exact hnum
          · have hs : step ⟨.num lexeme phase, []⟩ c = none := by
              simp [step, hn, hv, complete, stepPlain, hc]
            rw [hs] at h
            cases h
      · have hs : step ⟨.num lexeme phase, []⟩ c = some ⟨.num (lexeme ++ [c]) phase', []⟩ := by
          simp [step, hn]
        rw [hs, Option.bind_some] at h
        exact ih h

/-- The last character of a rendered document is its closing bracket. -/
theorem compact_last (v : Value) (hd : v.isDocument) :
    ∃ cs c, v.compact = cs ++ [c] ∧ isWs c = false := by
  match v, hd with
  | .arr items, _ => exact ⟨'[' :: compactItems items, ']', by simp [Value.compact], rfl⟩
  | .obj members, _ => exact ⟨'{' :: compactMembers members, '}', by simp [Value.compact], rfl⟩

/-- **No proper prefix of a rendered document is a JSON text.**  If the reader
accepted a prefix, the rest of the document would be white space, and it ends
in a bracket. -/
theorem parse_prefix (v : Value) (hv : v.exact) (hd : v.isDocument)
    {cs ds : List Char} (hcs : cs ++ ds = v.compact) (hne : ds ≠ []) :
    parse cs = none := by
  have hwhole := run_document v hv hd
  rw [← hcs, run_append] at hwhole
  rcases hrun : run ⟨.value, []⟩ cs with - | st
  · rw [parse, hrun]; rfl
  rw [hrun, Option.bind_some] at hwhole
  rw [parse, hrun, Option.bind_some]
  rcases st with ⟨mode, - | ⟨f, fs⟩⟩
  · cases mode with
    | done w =>
        -- a document that is done takes nothing but white space, and the last character is none
        obtain ⟨es, e, hes, he⟩ := compact_last v hd
        have hlast : e ∈ ds := by
          have hget : ds.getLast hne = e := by
            have := congrArg List.getLast? (hcs.trans hes)
            simpa [List.getLast?_append, List.getLast?_eq_some_getLast hne] using this
          exact hget ▸ List.getLast_mem hne
        rw [(run_done hwhole).2 e hlast] at he
        cases he
    | num lexeme phase =>
        rw [run_num_done hwhole] at hd
        cases hd
    | _ => rfl
  · cases mode <;> rfl

/-- Different documents have different renderings. -/
theorem compact_inj {v w : Value} (hv : v.exact) (hw : w.exact) (hdv : v.isDocument)
    (hdw : w.isDocument) (h : v.compact = w.compact) : v = w := by
  have hr := parse_compact v hv hdv
  rw [h, parse_compact w hw hdw] at hr
  exact (Option.some.inj hr).symm

/-! ### Renderings are single lines -/

theorem le_of_mem_escapeChar {c d : Char} (h : d ∈ escapeChar c) : 0x20 ≤ d.toNat := by
  have hdigit : ∀ n < 16, 0x20 ≤ (hexDigit n).toNat := by decide
  have hpair : ∀ e : Char, 0x20 ≤ e.toNat → d ∈ ['\\', e] → 0x20 ≤ d.toNat := by
    intro e he hd
    simp only [List.mem_cons, List.not_mem_nil, or_false] at hd
    rcases hd with rfl | rfl
    · decide
    · exact he
  unfold escapeChar at h
  split_ifs at h with h₁ h₂ h₃ h₄ h₅ h₆ h₇ h₈
  · exact hpair _ (by decide) h
  · exact hpair _ (by decide) h
  · exact hpair _ (by decide) h
  · exact hpair _ (by decide) h
  · exact hpair _ (by decide) h
  · exact hpair _ (by decide) h
  · exact hpair _ (by decide) h
  · simp only [List.mem_cons, List.not_mem_nil, or_false] at h
    rcases h with rfl | rfl | rfl | rfl | rfl | rfl
    · decide
    · decide
    · decide
    · decide
    · exact hdigit _ (by omega)
    · exact hdigit _ (by omega)
  · rw [List.mem_singleton.mp h]
    omega

theorem le_of_mem_quoted {s : String} {c : Char} (h : c ∈ quoted s) : 0x20 ≤ c.toNat := by
  simp only [quoted, List.cons_append, List.mem_cons, List.mem_append, List.mem_flatMap,
    List.not_mem_nil, or_false] at h
  rcases h with rfl | ⟨d, -, hd⟩ | rfl
  · decide
  · exact le_of_mem_escapeChar hd
  · decide

theorem le_of_mem_intLit {n : Int} {c : Char} (h : c ∈ intLit n) : 0x20 ≤ c.toNat := by
  have hdigit : ∀ m, c ∈ Nat.toDigits 10 m → 0x20 ≤ c.toNat := by
    intro m hm
    have hc : c.isDigit := Nat.isDigit_of_mem_toDigits (by decide) (by decide) hm
    simp only [Char.isDigit, Bool.and_eq_true, decide_eq_true_eq] at hc
    have h48 : (48 : Nat) ≤ c.toNat := hc.1
    omega
  cases n with
  | ofNat n => exact hdigit n h
  | negSucc n =>
      rcases List.mem_cons.mp h with rfl | h
      · decide
      · exact hdigit _ h

theorem le_of_all {cs : List Char} (hall : cs.all (fun c => decide (0x20 ≤ c.toNat)) = true)
    {c : Char} (h : c ∈ cs) : 0x20 ≤ c.toNat :=
  of_decide_eq_true (List.all_eq_true.mp hall c h)

mutual

/-- A rendered value holds no control character, line breaks included. -/
theorem le_of_mem_compact (v : Value) (hv : v.exact) {c : Char} (h : c ∈ v.compact) :
    0x20 ≤ c.toNat := by
  match v, hv with
  | .null, _ => exact le_of_all (by decide) h
  | .bool true, _ => exact le_of_all (by decide) h
  | .bool false, _ => exact le_of_all (by decide) h
  | .int n, _ => exact le_of_mem_intLit h
  | .str s, _ => exact le_of_mem_quoted h
  | .arr items, hv =>
      simp only [Value.compact, List.cons_append, List.mem_cons, List.mem_append,
        List.not_mem_nil, or_false] at h
      rcases h with rfl | h | rfl
      · decide
      · exact le_of_mem_items items hv h
      · decide
  | .obj members, hv =>
      simp only [Value.compact, List.cons_append, List.mem_cons, List.mem_append,
        List.not_mem_nil, or_false] at h
      rcases h with rfl | h | rfl
      · decide
      · exact le_of_mem_members members hv h
      · decide

theorem le_of_mem_items (items : List Value) (hv : exactItems items) {c : Char}
    (h : c ∈ compactItems items) : 0x20 ≤ c.toNat := by
  match items, hv with
  | [], _ => cases h
  | [v], hv => exact le_of_mem_compact v hv.1 h
  | v :: w :: vs, hv =>
      simp only [compactItems, List.mem_append, List.mem_cons] at h
      rcases h with h | rfl | h
      · exact le_of_mem_compact v hv.1 h
      · decide
      · exact le_of_mem_items (w :: vs) hv.2 h

theorem le_of_mem_members (members : List (String × Value)) (hv : exactMembers members)
    {c : Char} (h : c ∈ compactMembers members) : 0x20 ≤ c.toNat := by
  match members, hv with
  | [], _ => cases h
  | [(k, v)], hv =>
      simp only [compactMembers, List.mem_append, List.mem_cons] at h
      rcases h with h | rfl | h
      · exact le_of_mem_quoted h
      · decide
      · exact le_of_mem_compact v hv.1 h
  | (k, v) :: m :: ms, hv =>
      simp only [compactMembers, List.mem_append, List.mem_cons] at h
      rcases h with (h | rfl | h) | rfl | h
      · exact le_of_mem_quoted h
      · decide
      · exact le_of_mem_compact v hv.1 h
      · decide
      · exact le_of_mem_members (m :: ms) hv.2 h

end

end Json
