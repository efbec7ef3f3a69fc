/-
DmlPact/Lib/SqlName.lean

Names in double quotes, read by their one rule: inside quotes a doubled quote
is one quote, and a lone quote ends the name.

The reader cuts a text into the names it quotes and the characters between
them.  It refuses nothing but a quote that is never closed, so it also reads
the names that a server would refuse, the empty one for instance.
-/
import DmlPact.Lib.SqlLex

namespace SqlName

open SqlLex

inductive Piece where
  | char (c : Char)
  | name (cs : List Char)
  deriving DecidableEq

/-- Outside the names, inside one, or behind a quote inside one. -/
inductive Place where
  | outside
  | inside (acc : List Char)
  | quote (acc : List Char)

def read : Place → List Char → Option (List Piece)
  | .outside, [] => some []
  | .outside, c :: cs =>
      if c = '"' then read (.inside []) cs else (read .outside cs).map (.char c :: ·)
  | .inside _, [] => none
  | .inside acc, c :: cs =>
      if c = '"' then read (.quote acc) cs else read (.inside (acc ++ [c])) cs
  | .quote acc, [] => some [.name acc]
  | .quote acc, c :: cs =>
      -- a doubled quote belongs to the name, a lone one was its end
      if c = '"' then read (.inside (acc ++ ['"'])) cs
      else (read .outside cs).map fun ps => .name acc :: .char c :: ps

/-- The names and characters of a text. -/
def pieces (cs : List Char) : Option (List Piece) := read .outside cs

/-- The statements of a text: a semicolon outside the names parts them. -/
def statements (ps : List Piece) : List (List Piece) := ps.splitOn (.char ';')

/-! ### Reading what was quoted -/

theorem read_plain {cs : List Char} (hcs : ∀ c ∈ cs, c ≠ '"') (ds : List Char) :
    read .outside (cs ++ ds) = (read .outside ds).map (cs.map .char ++ ·) := by
  induction cs with
  | nil =>
      show read .outside ds = (read .outside ds).map id
      rw [Option.map_id]
      rfl
  | cons c cs ih =>
      have hne : c ≠ '"' := hcs c List.mem_cons_self
      rw [List.cons_append, read, if_neg hne, ih fun d hd => hcs d (List.mem_cons_of_mem c hd),
        Option.map_map]
      rfl

/-- Every character of the name is read back, whatever it is. -/
theorem read_doubled (name acc ds : List Char) :
    read (.inside acc) ((name.flatMap fun d => if d = '"' then ['"', '"'] else [d]) ++ '"' :: ds) =
      read (.quote (acc ++ name)) ds := by
  induction name generalizing acc with
  | nil =>
      rw [List.append_nil]
      rfl
  | cons c name ih =>
      by_cases hc : c = '"'
      · subst hc
        have hstep := ih (acc ++ ['"'])
        rw [List.append_assoc] at hstep
        simpa [read] using hstep
      · have hstep := ih (acc ++ [c])
        rw [List.append_assoc] at hstep
        simpa [read, hc] using hstep

theorem read_quoteName (name ds : List Char) :
    read .outside (quoteName name ++ ds) = read (.quote name) ds := by
  have hread := read_doubled name [] ds
  rw [List.nil_append] at hread
  rw [← hread, quoteName]
  simp [read]

/-- A quoted name ends where anything but a quote follows. -/
theorem read_quote_cons {c : Char} (hc : c ≠ '"') (name ds : List Char) :
    read (.quote name) (c :: ds) = (read .outside (c :: ds)).map (.name name :: ·) := by
  rw [read, read, if_neg hc, if_neg hc, Option.map_map]
  rfl

/-- **Quoting is read back.**  A quoted name is one piece, and the text behind
it is read as it would be alone. -/
theorem read_quoteName_cons {c : Char} (hc : c ≠ '"') (name ds : List Char) :
    read .outside (quoteName name ++ c :: ds) =
      (read .outside (c :: ds)).map (.name name :: ·) := by
  rw [read_quoteName, read_quote_cons hc]

theorem read_quoteName_nil (name : List Char) :
    read .outside (quoteName name) = some [.name name] := by
  have hread := read_quoteName name []
  rw [List.append_nil] at hread
  rw [hread]
  rfl

/-- Two quoted names with a dot between them. -/
def quotedPair (a b : List Char) : List Char := quoteName a ++ '.' :: quoteName b

theorem read_dot_quoteName (name ds : List Char) :
    read .outside ('.' :: (quoteName name ++ ds)) =
      (read .outside (quoteName name ++ ds)).map (.char '.' :: ·) :=
  @read_plain ['.'] (by simp) _

theorem pieces_quotedPair (a b : List Char) :
    pieces (quotedPair a b) = some [.name a, .char '.', .name b] := by
  have hdot := read_dot_quoteName b []
  rw [List.append_nil] at hdot
  rw [pieces, quotedPair, read_quoteName_cons (by decide), hdot, read_quoteName_nil]
  rfl

theorem quotedPair_injective {a b a' b' : List Char} (h : quotedPair a b = quotedPair a' b') :
    a = a' ∧ b = b' := by
  have hpieces : pieces (quotedPair a b) = pieces (quotedPair a' b') := by rw [h]
  rw [pieces_quotedPair, pieces_quotedPair] at hpieces
  simpa using hpieces

/-- The pair between two plain texts, the second of which starts with a
blank. -/
theorem pieces_around {before after : List Char} (hbefore : ∀ c ∈ before, c ≠ '"')
    (hafter : ∀ c ∈ after, c ≠ '"') (a b : List Char) :
    pieces (before ++ (quotedPair a b ++ ' ' :: after)) =
      some (before.map .char ++ [.name a, .char '.', .name b] ++ .char ' ' :: after.map .char) := by
  have hrest : read .outside (' ' :: after) = some (.char ' ' :: after.map .char) := by
    have hplain := @read_plain (' ' :: after) (List.forall_mem_cons.mpr ⟨by decide, hafter⟩) []
    rw [List.append_nil] at hplain
    rw [hplain]
    simp [read]
  rw [pieces, read_plain hbefore, quotedPair, List.append_assoc, List.cons_append,
    read_quoteName_cons (by decide), read_dot_quoteName, read_quoteName_cons (by decide), hrest]
  simp

theorem notMem_chars {c : Char} {cs : List Char} (h : c ∉ cs) :
    Piece.char c ∉ cs.map Piece.char := by
  intro hmem
  obtain ⟨d, hd, heq⟩ := List.mem_map.mp hmem
  cases heq
  exact h hd

/-- A text with no semicolon outside its names is one statement. -/
theorem statements_eq_singleton {ps : List Piece} (h : .char ';' ∉ ps) : statements ps = [ps] := by
  have hsplit : ps.splitOnP (· == .char ';') = [ps] := by
    apply List.splitOnP_eq_singleton
    intro p hp
    rw [beq_eq_false_iff_ne]
    exact fun heq => h (heq ▸ hp)
  exact hsplit

end SqlName
