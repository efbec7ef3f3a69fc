/-
DmlPact/Lib/Separated.lean

Texts made of parts with a separator between them.  What stands before the
first separator is read back (`append_cons_inj`), and so are all the parts, if
none of them holds the separator (`intercalate_injective`).

Where the parts do hold it, a text may be cut in another way.  The cut can only
be at a separator: in `c :: l₁ ++ c :: l₂ ++ … ++ y`, a `c` is in front of one
of the `l`s or inside `y` (`behind_cut`).
-/
import Mathlib.Data.List.Basic

namespace Separated

variable {α : Type}

/-- What stands before the first separator is read back. -/
theorem append_cons_inj {c : α} {a a' rest rest' : List α} (ha : c ∉ a) (ha' : c ∉ a') :
    a ++ c :: rest = a' ++ c :: rest' ↔ a = a' ∧ rest = rest' := by
  constructor
  · intro h
    induction a generalizing a' with
    | nil =>
        cases a' with
        | nil => exact ⟨rfl, (List.cons.inj h).2⟩
        | cons d a' => exact absurd ((List.cons.inj h).1 ▸ List.mem_cons_self) ha'
    | cons d a ih =>
        cases a' with
        | nil => exact absurd ((List.cons.inj h).1 ▸ List.mem_cons_self) ha
        | cons d' a' =>
            obtain ⟨hhead, htail⟩ := List.cons.inj h
            obtain ⟨heq, hrest⟩ := ih (fun hc => ha (List.mem_cons_of_mem _ hc))
              (fun hc => ha' (List.mem_cons_of_mem _ hc)) htail
            exact ⟨by rw [hhead, heq], hrest⟩
  · rintro ⟨rfl, rfl⟩
    rfl

theorem mem_intercalate {c d : α} {items : List (List α)} (h : d ∈ [c].intercalate items) :
    d = c ∨ ∃ item ∈ items, d ∈ item := by
  induction items with
  | nil => exact absurd h List.not_mem_nil
  | cons item items ih =>
      by_cases hnil : items = []
      · subst hnil
        rw [List.intercalate_singleton] at h
        exact .inr ⟨item, List.mem_cons_self, h⟩
      · rw [List.intercalate_cons_of_ne_nil hnil] at h
        simp only [List.mem_append, List.mem_singleton] at h
        rcases h with (h | h) | h
        · exact .inr ⟨item, List.mem_cons_self, h⟩
        · exact .inl h
        · rcases ih h with h | ⟨next, hnext, h⟩
          · exact .inl h
          · exact .inr ⟨next, List.mem_cons_of_mem item hnext, h⟩

theorem notMem_intercalate {c d : α} {items : List (List α)} (hd : d ≠ c)
    (h : ∀ item ∈ items, d ∉ item) : d ∉ [c].intercalate items := by
  intro hmem
  rcases mem_intercalate hmem with heq | ⟨item, hitem, hin⟩
  · exact hd heq
  · exact h item hitem hin

/-- Parts, at least one of each, without the separator are read back. -/
theorem intercalate_inj_of_ne_nil [DecidableEq α] {c : α} {items items' : List (List α)}
    (h : ∀ item ∈ items, c ∉ item) (h' : ∀ item ∈ items', c ∉ item) (hne : items ≠ [])
    (hne' : items' ≠ []) (heq : [c].intercalate items = [c].intercalate items') :
    items = items' := by
  rw [← List.splitOn_intercalate c h hne, heq, List.splitOn_intercalate c h' hne']

/-- Parts without the separator are read back; a part that is empty would be
taken for none at all. -/
theorem intercalate_injective [DecidableEq α] {c : α} {items items' : List (List α)}
    (h : ∀ item ∈ items, c ∉ item) (h' : ∀ item ∈ items', c ∉ item)
    (hne : ∀ item ∈ items, item ≠ []) (hne' : ∀ item ∈ items', item ≠ [])
    (heq : [c].intercalate items = [c].intercalate items') : items = items' := by
  have hempty : ∀ {l : List (List α)}, (∀ item ∈ l, item ≠ []) → [c].intercalate l = [] →
      l = [] := by
    rintro (- | ⟨item, - | ⟨next, l⟩⟩) hl hnil
    · rfl
    · rw [List.intercalate_singleton] at hnil
      exact absurd hnil (hl item List.mem_cons_self)
    · rw [List.intercalate_cons_cons] at hnil
      simp at hnil
  by_cases hnil : items = []
  · subst hnil
    exact (hempty hne' (heq.symm.trans rfl)).symm
  · have hnil' : items' ≠ [] := by
      rintro rfl
      exact hnil (hempty hne (heq.trans rfl))
    exact intercalate_inj_of_ne_nil h h' hnil hnil' heq

/-- Two runs of parts, with a separator between. -/
theorem intercalate_append {c : α} {items items' : List (List α)} (h : items ≠ [])
    (h' : items' ≠ []) : [c].intercalate (items ++ items') =
      [c].intercalate items ++ c :: [c].intercalate items' := by
  induction items with
  | nil => exact absurd rfl h
  | cons item items ih =>
      by_cases hnil : items = []
      · subst hnil
        rw [List.singleton_append, List.intercalate_cons_of_ne_nil h', List.intercalate_singleton,
          List.append_assoc]
        rfl
      · have hne : items ++ items' ≠ [] := List.append_ne_nil_of_left_ne_nil hnil items'
        rw [List.cons_append, List.intercalate_cons_of_ne_nil hne, ih hnil,
          List.intercalate_cons_of_ne_nil hnil]
        simp only [List.append_assoc]

/-- What a text is split into does not hold the separator. -/
theorem notMem_of_mem_splitOn [DecidableEq α] {c : α} {text part : List α}
    (h : part ∈ text.splitOn c) : c ∉ part := by
  induction text generalizing part with
  | nil =>
      rw [List.mem_singleton.mp h]
      exact List.not_mem_nil
  | cons d text ih =>
      rw [List.splitOn_cons_eq_if_modifyHead] at h
      by_cases hd : d = c
      · rw [if_pos (beq_iff_eq.mpr hd)] at h
        rcases List.mem_cons.mp h with rfl | h
        · exact List.not_mem_nil
        · exact ih h
      · rw [if_neg (fun heq => hd (beq_iff_eq.mp heq))] at h
        obtain ⟨first, parts, hparts⟩ := List.exists_cons_of_ne_nil (List.splitOn_ne_nil c text)
        rw [hparts, List.modifyHead_cons] at h
        rcases List.mem_cons.mp h with rfl | h
        · rw [List.mem_cons, not_or]
          exact ⟨Ne.symm hd, ih (hparts ▸ List.mem_cons_self)⟩
        · exact ih (hparts ▸ List.mem_cons_of_mem first h)

/-- Splitting the parts of a text splits the text. -/
theorem intercalate_flatMap_splitOn [DecidableEq α] {c : α} (items : List (List α)) :
    [c].intercalate (items.flatMap (List.splitOn c)) = [c].intercalate items := by
  induction items with
  | nil => rfl
  | cons item items ih =>
      rw [List.flatMap_cons]
      by_cases hnil : items = []
      · subst hnil
        rw [List.flatMap_nil, List.append_nil, List.intercalate_splitOn, List.intercalate_singleton]
      · have hne : items.flatMap (List.splitOn c) ≠ [] := by
          obtain ⟨next, rest, rfl⟩ := List.exists_cons_of_ne_nil hnil
          rw [List.flatMap_cons]
          exact List.append_ne_nil_of_left_ne_nil (List.splitOn_ne_nil c next) _
        rw [intercalate_append (List.splitOn_ne_nil c item) hne, List.intercalate_splitOn, ih,
          List.intercalate_cons_of_ne_nil hnil, List.append_assoc]
        rfl

/-! ### Cuts -/

/-- Each part behind a separator. -/
def behind (c : α) (items : List (List α)) : List α := items.flatMap (c :: ·)

theorem behind_cons (c : α) (l : List α) (items : List (List α)) :
    behind c (l :: items) = c :: l ++ behind c items := List.flatMap_cons

theorem behind_append (c : α) (items items' : List (List α)) :
    behind c (items ++ items') = behind c items ++ behind c items' := List.flatMap_append

/-- The first part is in front, each other one behind a separator. -/
theorem intercalate_cons (c : α) (item : List α) (items : List (List α)) :
    [c].intercalate (item :: items) = item ++ behind c items := by
  induction items generalizing item with
  | nil => simp [behind]
  | cons next items ih =>
      rw [List.intercalate_cons_cons, ih, behind_cons, List.append_assoc]
      rfl

/-- A separator comes after a part that does not hold it. -/
theorem append_cut {c : α} {l rest t z : List α} (hl : c ∉ l) (h : l ++ rest = t ++ c :: z) :
    ∃ t', t = l ++ t' ∧ rest = t' ++ c :: z := by
  rcases List.append_eq_append_iff.mp h with ⟨t', rfl, hrest⟩ | ⟨s, rfl, hs⟩
  · exact ⟨t', rfl, hrest⟩
  · cases s with
    | nil => exact ⟨[], by simp, by simpa using hs.symm⟩
    | cons d s =>
        have hd : c = d := (List.cons.inj hs).1
        subst hd
        exact absurd (List.mem_append_right t List.mem_cons_self) hl

/-- A cut is in front of a part, or behind all of them. -/
theorem behind_cut {c : α} {items : List (List α)} {y t z : List α}
    (hitems : ∀ l ∈ items, c ∉ l) (h : behind c items ++ y = t ++ c :: z) :
    (∃ before l after, items = before ++ l :: after ∧ t = behind c before ∧
        z = l ++ behind c after ++ y) ∨
      ∃ w, t = behind c items ++ w ∧ y = w ++ c :: z := by
  induction items generalizing t with
  | nil => exact .inr ⟨t, rfl, h⟩
  | cons l items ih =>
      rw [behind_cons, List.cons_append, List.cons_append, List.append_assoc] at h
      cases t with
      | nil =>
          obtain ⟨-, hz⟩ := List.cons.inj h
          exact .inl ⟨[], l, items, rfl, rfl, by rw [List.append_assoc, hz]⟩
      | cons d t =>
          obtain ⟨rfl, hrest⟩ := List.cons.inj h
          obtain ⟨t', rfl, hcut⟩ := append_cut (hitems l List.mem_cons_self) hrest
          rcases ih (fun l hl => hitems l (List.mem_cons_of_mem _ hl)) hcut with
            ⟨before, l', after, rfl, rfl, hz⟩ | ⟨w, rfl, hy⟩
          · exact .inl ⟨l :: before, l', after, rfl, by rw [behind_cons]; rfl, hz⟩
          · exact .inr ⟨w, by rw [behind_cons, List.cons_append, List.cons_append,
              List.append_assoc], hy⟩

/-- A text does not begin with a word of which it lacks a letter before the
word ends. -/
theorem not_prefix_of_notMem {k l y : List α} {a b : α} (ha : a ∈ k) (hl : a ∉ l) (hb : b ∉ k) :
    ¬ k <+: l ++ b :: y := by
  rintro ⟨rest, hrest⟩
  rcases List.append_eq_append_iff.mp hrest with ⟨s, rfl, -⟩ | ⟨s, rfl, hs⟩
  · exact hl (List.mem_append_left s ha)
  · cases s with
    | nil =>
        rw [List.append_nil] at ha
        exact hl ha
    | cons d s =>
        obtain ⟨rfl, -⟩ := List.cons.inj hs
        exact hb (List.mem_append_right l List.mem_cons_self)

end Separated
