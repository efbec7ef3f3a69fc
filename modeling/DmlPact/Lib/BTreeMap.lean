/-
DmlPact/Lib/BTreeMap.lean

Ordered maps as their sorted entry lists.  The order is a field of the map, so
two maps with the same bindings are equal and a map has one rendering.
Inserting an existing key replaces its value.
-/
import Mathlib.Data.List.Pairwise
import Mathlib.Order.Lattice

variable {κ ν : Type} [LinearOrder κ]

/-- A map from `κ` to `ν`, held as its entries in key order. -/
structure BTreeMap (κ ν : Type) [LinearOrder κ] where
  entries : List (κ × ν)
  sorted : entries.Pairwise fun a b => a.1 < b.1
  deriving DecidableEq

namespace BTreeMap

@[ext] theorem ext {m m' : BTreeMap κ ν} (h : m.entries = m'.entries) : m = m' := by
  cases m; cases m'; cases h; rfl

/-- Put a binding at its place in a sorted list, replacing one with its key. -/
def insertEntry (k : κ) (v : ν) : List (κ × ν) → List (κ × ν)
  | [] => [(k, v)]
  | e :: es =>
      if k < e.1 then (k, v) :: e :: es
      else if k = e.1 then (k, v) :: es
      else e :: insertEntry k v es

theorem mem_insertEntry {k : κ} {v : ν} {e : κ × ν} {es : List (κ × ν)}
    (h : e ∈ insertEntry k v es) : e = (k, v) ∨ e ∈ es := by
  induction es with
  | nil => exact .inl (List.mem_singleton.mp h)
  | cons d ds ih =>
      unfold insertEntry at h
      split_ifs at h with h₁ h₂
      · exact List.mem_cons.mp h
      · rcases List.mem_cons.mp h with h | h
        · exact .inl h
        · exact .inr (List.mem_cons_of_mem d h)
      · rcases List.mem_cons.mp h with rfl | h
        · exact .inr List.mem_cons_self
        · exact (ih h).imp_right (List.mem_cons_of_mem d)

theorem insertEntry_sorted {k : κ} {v : ν} {es : List (κ × ν)}
    (h : es.Pairwise fun a b => a.1 < b.1) :
    (insertEntry k v es).Pairwise fun a b => a.1 < b.1 := by
  induction es with
  | nil => exact List.pairwise_singleton _ _
  | cons d ds ih =>
      obtain ⟨hd, hds⟩ := List.pairwise_cons.mp h
      unfold insertEntry
      split_ifs with h₁ h₂
      · refine List.pairwise_cons.mpr ⟨fun e he => ?_, h⟩
        rcases List.mem_cons.mp he with rfl | he
        · exact h₁
        · exact lt_trans h₁ (hd e he)
      · subst h₂
        exact List.pairwise_cons.mpr ⟨hd, hds⟩
      · refine List.pairwise_cons.mpr ⟨fun e he => ?_, ih hds⟩
        rcases mem_insertEntry he with rfl | he
        · exact lt_of_le_of_ne (not_lt.mp h₁) (Ne.symm h₂)
        · exact hd e he

/-- The map with no binding. -/
def empty : BTreeMap κ ν := ⟨[], List.Pairwise.nil⟩

/-- Bind `k` to `v`, dropping any earlier binding of `k`. -/
def insert (m : BTreeMap κ ν) (k : κ) (v : ν) : BTreeMap κ ν :=
  ⟨insertEntry k v m.entries, insertEntry_sorted m.sorted⟩

/-- The map a sequence of insertions builds. -/
def ofList (es : List (κ × ν)) : BTreeMap κ ν :=
  es.foldl (fun m e => m.insert e.1 e.2) empty

/-- The value bound to `k`. -/
def get? (m : BTreeMap κ ν) (k : κ) : Option ν := m.entries.lookup k

/-! ### Entries inserted in order stay in order -/

theorem insertEntry_last {k : κ} {v : ν} {es : List (κ × ν)} (h : ∀ e ∈ es, e.1 < k) :
    insertEntry k v es = es ++ [(k, v)] := by
  induction es with
  | nil => rfl
  | cons d ds ih =>
      have hd := h d List.mem_cons_self
      rw [insertEntry, if_neg (not_lt.mpr (le_of_lt hd)), if_neg (ne_of_gt hd),
        ih fun e he => h e (List.mem_cons_of_mem d he), List.cons_append]

theorem foldl_insert (m : BTreeMap κ ν) (es : List (κ × ν))
    (h : (m.entries ++ es).Pairwise fun a b => a.1 < b.1) :
    (es.foldl (fun m e => m.insert e.1 e.2) m).entries = m.entries ++ es := by
  induction es generalizing m with
  | nil => simp
  | cons e es ih =>
      have hlast : (m.insert e.1 e.2).entries = m.entries ++ [e] :=
        insertEntry_last fun d hd =>
          (List.pairwise_append.mp h).2.2 d hd e List.mem_cons_self
      rw [List.foldl_cons, ih, hlast, List.append_assoc]
      · rfl
      · rw [hlast, List.append_assoc]
        exact h

/-- Rebuilding a map from its own entries gives it back. -/
@[simp] theorem ofList_entries (m : BTreeMap κ ν) : ofList m.entries = m :=
  ext (foldl_insert empty m.entries m.sorted)

/-! ### Looking up -/

theorem lookup_cons (k : κ) (e : κ × ν) (es : List (κ × ν)) :
    (e :: es).lookup k = if k = e.1 then some e.2 else es.lookup k := by
  rw [List.lookup_cons]
  by_cases h : k = e.1
  · rw [if_pos h, beq_iff_eq.mpr h]
  · rw [if_neg h, beq_eq_false_iff_ne.mpr h]

theorem lookup_insertEntry (k k' : κ) (v : ν) (es : List (κ × ν)) :
    (insertEntry k v es).lookup k' = if k' = k then some v else es.lookup k' := by
  induction es with
  | nil => exact lookup_cons k' (k, v) []
  | cons d ds ih =>
      unfold insertEntry
      by_cases hlt : k < d.1
      · rw [if_pos hlt, lookup_cons]
      · rw [if_neg hlt]
        by_cases heq : k = d.1
        · rw [if_pos heq, lookup_cons, lookup_cons]
          split_ifs with hk hd
          · rfl
          · exact absurd (hd.trans heq.symm) hk
          · rfl
        · rw [if_neg heq, lookup_cons, lookup_cons, ih]
          split_ifs with hd hk
          · exact absurd (hk.symm.trans hd) heq
          · rfl
          · rfl
          · rfl

theorem get?_insert (m : BTreeMap κ ν) (k k' : κ) (v : ν) :
    (m.insert k v).get? k' = if k' = k then some v else m.get? k' :=
  lookup_insertEntry k k' v m.entries

/-- Insertions at other keys leave a key alone. -/
theorem get?_foldl_insert (es : List (κ × ν)) (m : BTreeMap κ ν) {k : κ}
    (h : k ∉ es.map Prod.fst) :
    (es.foldl (fun m e => m.insert e.1 e.2) m).get? k = m.get? k := by
  induction es generalizing m with
  | nil => rfl
  | cons e es ih =>
      rw [List.map_cons, List.mem_cons, not_or] at h
      rw [List.foldl_cons, ih _ h.2, get?_insert, if_neg h.1]

/-- Without a key that stands twice, each binding stays. -/
theorem get?_foldl_insert_of_mem (es : List (κ × ν)) (m : BTreeMap κ ν)
    (hkeys : (es.map Prod.fst).Nodup) {k : κ} {v : ν} (h : (k, v) ∈ es) :
    (es.foldl (fun m e => m.insert e.1 e.2) m).get? k = some v := by
  induction es generalizing m with
  | nil => cases h
  | cons e es ih =>
      obtain ⟨hnot, hkeys⟩ := List.nodup_cons.mp hkeys
      rw [List.foldl_cons]
      rcases List.mem_cons.mp h with rfl | h
      · rw [get?_foldl_insert es _ hnot, get?_insert, if_pos rfl]
      · exact ih _ hkeys h

/-- What a map holds was inserted. -/
theorem mem_foldl_insert (es : List (κ × ν)) (m : BTreeMap κ ν) {e : κ × ν}
    (h : e ∈ (es.foldl (fun m e => m.insert e.1 e.2) m).entries) : e ∈ m.entries ∨ e ∈ es := by
  induction es generalizing m with
  | nil => exact .inl h
  | cons d ds ih =>
      rw [List.foldl_cons] at h
      rcases ih _ h with h | h
      · rcases mem_insertEntry h with rfl | h
        · exact .inr List.mem_cons_self
        · exact .inl h
      · exact .inr (List.mem_cons_of_mem d h)

/-- What is found is held. -/
theorem mem_entries_of_get? {m : BTreeMap κ ν} {k : κ} {v : ν} (h : m.get? k = some v) :
    (k, v) ∈ m.entries := by
  obtain ⟨before, after, hentries, -⟩ := List.lookup_eq_some_iff.mp h
  rw [hentries]
  exact List.mem_append_right before List.mem_cons_self

/-- Without a key that stands twice, a map finds just what was inserted. -/
theorem get?_ofList_iff {es : List (κ × ν)} (hkeys : (es.map Prod.fst).Nodup) {k : κ} {v : ν} :
    (ofList es).get? k = some v ↔ (k, v) ∈ es := by
  constructor
  · intro h
    exact (mem_foldl_insert es empty (mem_entries_of_get? h)).resolve_left List.not_mem_nil
  · exact get?_foldl_insert_of_mem es empty hkeys

end BTreeMap
