/-
DmlPact/Lib/Pattern.lean

Patterns over characters, as regular expressions.  A full match is a match of
the whole text (`rmatch`), and each way to build a pattern has one lemma that
says which texts it matches; with those a pattern is read from the outside in.

* a text (`literal`), one of some characters (`oneOf`), any number of them
  (`oneOf cs).star`, a part that may be left out (`opt`);
* a concatenation and a choice are `*` and `+`.
-/
import Mathlib.Computability.RegularExpressions

namespace RegularExpression

variable {α : Type} [DecidableEq α]

/-- The pattern of one text. -/
def literal : List α → RegularExpression α
  | [] => 1
  | a :: w => char a * literal w

/-- The pattern of one character of a class. -/
def oneOf : List α → RegularExpression α
  | [] => 0
  | a :: cs => char a + oneOf cs

/-- The pattern of a part that may be left out. -/
def opt (P : RegularExpression α) : RegularExpression α := 1 + P

variable {P Q : RegularExpression α} {w x : List α}

theorem literal_rmatch_iff : (literal w).rmatch x ↔ x = w := by
  induction w generalizing x with
  | nil => exact one_rmatch_iff x
  | cons a w ih =>
      rw [literal, mul_rmatch_iff]
      constructor
      · rintro ⟨y, z, rfl, hy, hz⟩
        rw [(char_rmatch_iff a y).mp hy, ih.mp hz]
        rfl
      · rintro rfl
        exact ⟨[a], w, rfl, (char_rmatch_iff a [a]).mpr rfl, ih.mpr rfl⟩

theorem oneOf_rmatch_iff {cs : List α} : (oneOf cs).rmatch x ↔ ∃ c ∈ cs, x = [c] := by
  induction cs with
  | nil =>
      rw [oneOf, zero_rmatch]
      simp
  | cons a cs ih =>
      rw [oneOf, add_rmatch_iff, char_rmatch_iff, ih]
      simp

/-- Any number of characters of a class. -/
theorem star_oneOf_rmatch_iff {cs : List α} : (oneOf cs).star.rmatch x ↔ ∀ c ∈ x, c ∈ cs := by
  rw [star_rmatch_iff]
  constructor
  · rintro ⟨parts, rfl, hparts⟩ c hc
    obtain ⟨part, hpart, hc⟩ := List.mem_flatten.mp hc
    obtain ⟨d, hd, rfl⟩ := oneOf_rmatch_iff.mp (hparts part hpart).2
    rw [List.mem_singleton.mp hc]
    exact hd
  · intro h
    refine ⟨x.map fun c => [c], ?_, ?_⟩
    · exact by rw [← List.flatMap_def, List.flatMap_singleton']
    · intro part hpart
      obtain ⟨c, hc, rfl⟩ := List.mem_map.mp hpart
      exact ⟨List.cons_ne_nil c [], oneOf_rmatch_iff.mpr ⟨c, h c hc, rfl⟩⟩

/-- Two parts that match make a whole that does. -/
theorem rmatch_append (hw : P.rmatch w) (hx : Q.rmatch x) : (P * Q).rmatch (w ++ x) :=
  (mul_rmatch_iff P Q (w ++ x)).mpr ⟨w, x, rfl, hw, hx⟩

/-- A character of a class, then the rest. -/
theorem oneOf_rmatch_cons {c : α} {cs : List α} (hc : c ∈ cs) (h : Q.rmatch x) :
    (oneOf cs * Q).rmatch (c :: x) :=
  rmatch_append (w := [c]) (oneOf_rmatch_iff.mpr ⟨c, hc, rfl⟩) h

/-- A text, then the rest. -/
theorem literal_rmatch_append (h : Q.rmatch x) : (literal w * Q).rmatch (w ++ x) :=
  rmatch_append (literal_rmatch_iff.mpr rfl) h

end RegularExpression
