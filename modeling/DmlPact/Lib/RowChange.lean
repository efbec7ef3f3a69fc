/-
DmlPact/Lib/RowChange.lean

What a statement does to the multiset of rows of a table.  A change selects rows
one by one and puts the image of each in its place, or nothing; an insertion
adds rows.

The selected rows of a table after a change are those of the images
(`matching_after`), so a change after which as much is selected as before, the
same rows in the same numbers, has changed nothing (`after_eq_of_matching`):
of changes that each find the same rows selected the last one alone can have
changed anything (`Consecutive.unchanged`).
-/
import Mathlib.Data.Multiset.Filter
import Mathlib.Data.Multiset.AddSub
import Mathlib.Data.List.Chain

namespace RowChange

variable {Row : Type}

/-- What a statement does to the rows of its table. -/
inductive Action (Row : Type)
  | change (selected : Row → Bool) (effect : Row → Option Row)
  | insert (rows : Multiset Row)

/-- The rows that a selection holds of. -/
def matching (selected : Row → Bool) (rows : Multiset Row) : Multiset Row :=
  rows.filter (selected · = true)

/-- The rows that it does not hold of. -/
def unmatched (selected : Row → Bool) (rows : Multiset Row) : Multiset Row :=
  rows.filter (selected · = false)

/-- The rows after a change. -/
def after (selected : Row → Bool) (effect : Row → Option Row) (rows : Multiset Row) :
    Multiset Row :=
  unmatched selected rows + (matching selected rows).filterMap effect

namespace Action

/-- The rows that go. -/
def removed : Action Row → Multiset Row → Multiset Row
  | change selected _, rows => matching selected rows
  | insert _, _ => 0

/-- The rows that come. -/
def added : Action Row → Multiset Row → Multiset Row
  | change selected effect, rows => (matching selected rows).filterMap effect
  | insert new, _ => new

/-- The rows of the table afterwards. -/
def result : Action Row → Multiset Row → Multiset Row
  | change selected effect, rows => after selected effect rows
  | insert new, rows => rows + new

/-- How many rows the statement reports. -/
def affected : Action Row → Multiset Row → Nat
  | change selected _, rows => (matching selected rows).card
  | insert new, _ => new.card

/-- Only rows that are there go. -/
theorem removed_le (action : Action Row) (rows : Multiset Row) : action.removed rows ≤ rows := by
  cases action with
  | change selected effect => exact Multiset.filter_le _ _
  | insert new => exact Multiset.zero_le rows

end Action

variable {selected : Row → Bool} {effect : Row → Option Row} {rows : Multiset Row}

theorem matching_add_unmatched (selected : Row → Bool) (rows : Multiset Row) :
    matching selected rows + unmatched selected rows = rows := by
  have hnot : unmatched selected rows = rows.filter fun r => ¬ selected r = true := by
    refine Multiset.filter_congr fun r _ => ?_
    rw [Bool.not_eq_true]
  rw [matching, hnot, Multiset.filter_add_not]

/-- What is left when the matching rows are taken out. -/
theorem eq_unmatched {rest : Multiset Row} (h : rows = matching selected rows + rest) :
    rest = unmatched selected rows := by
  have hsplit := matching_add_unmatched selected rows
  exact (Multiset.add_right_inj.mp (hsplit.trans h)).symm

/-- Taking rows out and putting rows in is the statement. -/
theorem Action.result_eq {action : Action Row} {rest : Multiset Row}
    (h : rows = action.removed rows + rest) : rest + action.added rows = action.result rows := by
  cases action with
  | change selected effect =>
      rw [eq_unmatched h]
      rfl
  | insert new =>
      have hrest : rows = rest := h.trans (Multiset.zero_add rest)
      rw [hrest]
      rfl

theorem matching_unmatched : matching selected (unmatched selected rows) = 0 := by
  refine Multiset.filter_eq_nil.mpr fun r hr => ?_
  rw [(Multiset.mem_filter.mp hr).2]
  exact Bool.false_ne_true

/-- Selected after a change are the images that are. -/
theorem matching_after :
    matching selected (after selected effect rows) =
      matching selected ((matching selected rows).filterMap effect) := by
  rw [after, matching, Multiset.filter_add]
  show matching selected (unmatched selected rows) + _ = _
  rw [matching_unmatched, Multiset.zero_add]
  rfl

theorem card_filterMap_le (effect : Row → Option Row) (rows : Multiset Row) :
    (rows.filterMap effect).card ≤ rows.card := by
  induction rows using Quot.inductionOn with
  | h l => exact List.length_filterMap_le effect l

/-- **No change.**  A change after which the same rows are selected in the same
numbers has changed nothing. -/
theorem after_eq_of_matching
    (h : matching selected (after selected effect rows) = matching selected rows) :
    after selected effect rows = rows := by
  rw [matching_after] at h
  have hle : matching selected ((matching selected rows).filterMap effect) ≤
      (matching selected rows).filterMap effect := Multiset.filter_le _ _
  rw [h] at hle
  have himages : (matching selected rows).filterMap effect = matching selected rows :=
    (Multiset.eq_of_le_of_card_le hle (card_filterMap_le effect _)).symm
  rw [after, himages, Multiset.add_comm, matching_add_unmatched]

/-- Changes by one selection and one effect, each of what the one before has
left, and each of the same selected rows. -/
structure Consecutive {Change : Type} (selected : Row → Bool) (effect : Row → Option Row)
    (before result : Change → Multiset Row) (changes : List Change) : Prop where
  chain : changes.IsChain fun c c' => before c' = result c
  effect : ∀ c ∈ changes, result c = after selected effect (before c)
  same : ∀ c ∈ changes, ∀ c' ∈ changes,
    matching selected (before c) = matching selected (before c')

namespace Consecutive

variable {Change : Type} {before result : Change → Multiset Row} {changes : List Change}
  {c c' : Change}

theorem tail (h : Consecutive selected effect before result (c :: changes)) :
    Consecutive selected effect before result changes :=
  ⟨h.chain.tail, fun c hc => h.effect c (List.mem_cons_of_mem _ hc),
    fun c hc c' hc' => h.same c (List.mem_cons_of_mem _ hc) c' (List.mem_cons_of_mem _ hc')⟩

/-- What is selected after the first change of two is what was selected before. -/
theorem matching_first (h : Consecutive selected effect before result (c :: c' :: changes)) :
    matching selected (after selected effect (before c)) = matching selected (before c) := by
  rw [← h.effect c List.mem_cons_self, ← (List.isChain_cons_cons.mp h.chain).1]
  exact h.same c' (by simp) c (by simp)

/-- **At most the last one** has changed anything. -/
theorem unchanged (h : Consecutive selected effect before result changes) :
    changes.Pairwise fun c _ => result c = before c := by
  induction changes with
  | nil => exact .nil
  | cons c changes ih =>
      refine List.pairwise_cons.mpr ⟨fun c₂ hc₂ => ?_, ih h.tail⟩
      cases changes with
      | nil => cases hc₂
      | cons c' changes =>
          rw [h.effect c List.mem_cons_self]
          exact after_eq_of_matching h.matching_first

end Consecutive

end RowChange
