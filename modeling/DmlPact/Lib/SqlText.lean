/-
DmlPact/Lib/SqlText.lean

Texts that SQL builds from values: `concat` and `concat_ws`, which leave NULLs
out, and the text form of an array.

    concatWs sep args

is injective on arguments none of which is NULL or contains the separator; a
NULL leaves no trace, so

    concatWs sep [some a, none] = concatWs sep [none, some a]

and what still tells the arguments apart is stated from the front: a first
argument without the separator is read back (`concatWs_cons_inj`), and the
same for an argument that is the text of an array (`arrayText_append_inj`).
-/
import Mathlib.Data.List.Basic
import Mathlib.Data.List.ReduceOption
import DmlPact.Lib.Separated

namespace SqlText

/-- The characters of a value's text; `none` is NULL. -/
abbrev Value := Option (List Char)

/-- `concat(…)`. -/
def concat (args : List Value) : List Char := args.reduceOption.flatten

/-- `concat_ws(sep, …)`. -/
def concatWs (sep : List Char) (args : List Value) : List Char :=
  sep.intercalate args.reduceOption

/-- What follows the first argument: each of the rest behind a separator. -/
def separated (sep : List Char) (args : List Value) : List Char :=
  args.reduceOption.flatMap (sep ++ ·)

/-- The text of an array whose items need no quotes. -/
def arrayText (items : List (List Char)) : List Char :=
  '\x7b' :: [','].intercalate items ++ ['\x7d']

/-! ### Behind separators -/

variable {sep : List Char}

theorem separated_some (a : List Char) (args : List Value) :
    separated sep (some a :: args) = sep ++ a ++ separated sep args := by
  rw [separated, List.reduceOption_cons_of_some, List.flatMap_cons]
  rfl

theorem concatWs_cons (a : List Char) (args : List Value) :
    concatWs sep (some a :: args) = a ++ separated sep args := by
  rw [concatWs, separated, List.reduceOption_cons_of_some]
  induction args.reduceOption generalizing a with
  | nil => simp [List.intercalate]
  | cons b bs ih =>
      rw [List.intercalate_cons_cons, ih b, List.flatMap_cons, List.append_assoc,
        List.append_assoc]

/-- The first argument is read back. -/
theorem concatWs_cons_inj {c : Char} {a b a' b' : List Char} {args args' : List Value}
    (ha : c ∉ a) (ha' : c ∉ a') :
    concatWs [c] (some a :: some b :: args) = concatWs [c] (some a' :: some b' :: args') ↔
      a = a' ∧ concatWs [c] (some b :: args) = concatWs [c] (some b' :: args') := by
  have hfront : ∀ (x y : List Char) (rest : List Value),
      concatWs [c] (some x :: some y :: rest) = x ++ c :: concatWs [c] (some y :: rest) := by
    intro x y rest
    rw [concatWs_cons, concatWs_cons, separated_some, List.append_assoc]
    rfl
  rw [hfront, hfront, Separated.append_cons_inj ha ha']

/-! ### Arrays -/

/-- An item that an array shows as it is. -/
def Bare (item : List Char) : Prop := item ≠ [] ∧ ',' ∉ item ∧ '\x7d' ∉ item

/-- An array at the front is read back. -/
theorem arrayText_append_inj {items items' : List (List Char)} {rest rest' : List Char}
    (h : ∀ item ∈ items, Bare item) (h' : ∀ item ∈ items', Bare item) :
    arrayText items ++ rest = arrayText items' ++ rest' ↔ items = items' ∧ rest = rest' := by
  have hclose : '\x7d' ≠ ',' := by decide
  have hshape : ∀ (l : List (List Char)) (r : List Char),
      arrayText l ++ r = '\x7b' :: ([','].intercalate l ++ '\x7d' :: r) := by
    intro l r
    simp only [arrayText, List.cons_append, List.append_assoc, List.nil_append]
  rw [hshape, hshape, List.cons_inj_right,
    Separated.append_cons_inj
      (Separated.notMem_intercalate hclose fun item hitem => (h item hitem).2.2)
      (Separated.notMem_intercalate hclose fun item hitem => (h' item hitem).2.2)]
  constructor
  · rintro ⟨hitems, hrest⟩
    refine ⟨?_, hrest⟩
    exact Separated.intercalate_injective (fun item hitem => (h item hitem).2.1)
      (fun item hitem => (h' item hitem).2.1) (fun item hitem => (h item hitem).1)
      (fun item hitem => (h' item hitem).1) hitems
  · rintro ⟨rfl, rfl⟩
    exact ⟨rfl, rfl⟩

/-- A number in decimal is shown as it is. -/
theorem bare_toDigits (n : Nat) : Bare (Nat.toDigits 10 n) := by
  have hdigit : ∀ c ∈ Nat.toDigits 10 n, c.isDigit := fun c hc =>
    Nat.isDigit_of_mem_toDigits (by decide) (by decide) hc
  refine ⟨Nat.toDigits_ne_nil, fun hc => ?_, fun hc => ?_⟩
  · exact absurd (hdigit _ hc) (by decide)
  · exact absurd (hdigit _ hc) (by decide)

theorem toDigits_injective : Function.Injective (Nat.toDigits 10) := by
  intro m n h
  rw [← @Nat.ofDigitChars_ten_toDigits m, h, Nat.ofDigitChars_ten_toDigits]

end SqlText
