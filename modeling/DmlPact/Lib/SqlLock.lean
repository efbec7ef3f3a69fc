/-
DmlPact/Lib/SqlLock.lean

The LOCK statement of PostgreSQL, as lists of tokens:

    LOCK [TABLE] relation [IN mode MODE] [NOWAIT]

for one relation, which is a name of at most three parts, with ONLY or a star
around it or neither.  An unquoted first part must not be a reserved word;
which words are reserved is a parameter, of which only `table` matters here.
-/
import DmlPact.Lib.SqlLex
import Mathlib.Data.List.Basic

namespace SqlLex

/-- A word of the language, as the lexer emits it. -/
def word (s : String) : Token := .word s.toList

/-! ### Statements of a text -/

theorem pieces_of_not_mem {ts : List Token} (h : .semicolon ∉ ts) : pieces ts = [ts] := by
  induction ts with
  | nil => rfl
  | cons t ts ih =>
      have ht : t ≠ .semicolon := fun ht => h (ht ▸ List.mem_cons_self)
      rw [pieces, if_neg ht, ih fun hmem => h (List.mem_cons_of_mem t hmem)]
      rfl

theorem pieces_ne_nil (ts : List Token) : pieces ts ≠ [] := by
  cases ts with
  | nil => exact List.cons_ne_nil _ _
  | cons t ts =>
      rw [pieces]
      split_ifs
      · exact List.cons_ne_nil _ _
      · cases pieces ts <;> exact List.cons_ne_nil _ _

theorem pieces_append (us vs : List Token) :
    pieces (us ++ .semicolon :: vs) = pieces us ++ pieces vs := by
  induction us with
  | nil => rfl
  | cons u us ih =>
      rw [List.cons_append, pieces, pieces, ih]
      split_ifs
      · rfl
      · rcases hus : pieces us with - | ⟨p, ps⟩
        · exact absurd hus (pieces_ne_nil us)
        · rfl

theorem statements_append (us vs : List Token) :
    statements (us ++ .semicolon :: vs) = statements us ++ statements vs := by
  rw [statements, pieces_append, List.filter_append]
  rfl

theorem statements_of_not_mem {ts : List Token} (h : .semicolon ∉ ts) (hne : ts ≠ []) :
    statements ts = [ts] := by
  rw [statements, pieces_of_not_mem h]
  simp [hne]

theorem statements_semicolons (n : Nat) :
    statements (List.replicate n .semicolon) = [] := by
  induction n with
  | zero => rfl
  | succ n ih =>
      have h := statements_append [] (List.replicate n .semicolon)
      rw [List.nil_append] at h
      rw [List.replicate_succ, h, ih]
      rfl

/-- The first statement begins where the text does. -/
theorem statements_cons {t : Token} (ht : t ≠ .semicolon) (ts : List Token) :
    ∃ s ss, statements (t :: ts) = (t :: s) :: ss := by
  rcases hp : pieces ts with - | ⟨p, ps⟩
  · exact absurd hp (pieces_ne_nil ts)
  · refine ⟨p, ps.filter (· ≠ []), ?_⟩
    rw [statements, pieces, if_neg ht, hp, consToken, List.filter_cons_of_pos (by simp)]

/-- A text without statements holds nothing but semicolons. -/
theorem eq_semicolons {ts : List Token} (h : statements ts = []) :
    ∃ n, ts = List.replicate n .semicolon := by
  induction ts with
  | nil => exact ⟨0, rfl⟩
  | cons t ts ih =>
      by_cases ht : t = .semicolon
      · subst ht
        have hsplit := statements_append [] ts
        rw [List.nil_append, h] at hsplit
        obtain ⟨n, hn⟩ := ih (List.append_eq_nil_iff.mp hsplit.symm).2
        exact ⟨n + 1, by rw [List.replicate_succ, hn]⟩
      · obtain ⟨s, ss, hs⟩ := statements_cons ht ts
        rw [h] at hs
        cases hs

/-- A text that begins with something is one statement exactly when nothing but
semicolons follows it. -/
theorem statements_eq_singleton {t : Token} {ts : List Token} {s : List Token}
    (ht : t ≠ .semicolon) :
    statements (t :: ts) = [s] ↔
      .semicolon ∉ s ∧ ∃ n, t :: ts = s ++ List.replicate n .semicolon ∧ s ≠ [] := by
  constructor
  · intro h
    by_cases hmem : .semicolon ∈ t :: ts
    · obtain ⟨us, vs, hsplit, hus⟩ := List.eq_append_cons_of_mem hmem
      have hne : us ≠ [] := by
        rintro rfl
        exact ht (List.cons.inj hsplit).1
      rw [hsplit, statements_append, statements_of_not_mem hus hne] at h
      obtain ⟨rfl, hrest⟩ := List.cons.inj h
      obtain ⟨n, rfl⟩ := eq_semicolons hrest
      exact ⟨hus, n + 1, hsplit, hne⟩
    · rw [statements_of_not_mem hmem (List.cons_ne_nil _ _)] at h
      obtain rfl := List.singleton_inj.mp h
      exact ⟨hmem, 0, by simp, List.cons_ne_nil _ _⟩
  · rintro ⟨hs, n, hts, hne⟩
    rw [hts]
    rcases n with - | n
    · rw [List.replicate_zero, List.append_nil, statements_of_not_mem hs hne]
    · rw [List.replicate_succ, statements_append, statements_semicolons, List.append_nil,
        statements_of_not_mem hs hne]

/-! ### Relations -/

variable (reserved : List Char → Prop)

/-- One part of a name.  Behind a dot any word will do. -/
inductive NamePart (plain : List Char → Prop) : List Token → Prop
  | word (w : List Char) (h : plain w) : NamePart plain [.word w]
  | quoted (name : List Char) : NamePart plain [.quoted name]
  | unicode (raw : List Char) : NamePart plain [.unicodeQuoted raw]
  | escaped (raw : List Char) : NamePart plain [.unicodeQuoted raw, SqlLex.word "uescape", .string]

/-- A name of one, two or three parts. -/
inductive RelationName : List Token → Prop
  | one {a : List Token} (ha : NamePart (¬ reserved ·) a) : RelationName a
  | two {a b : List Token} (ha : NamePart (¬ reserved ·) a) (hb : NamePart (fun _ => True) b) :
      RelationName (a ++ .dot :: b)
  | three {a b c : List Token} (ha : NamePart (¬ reserved ·) a)
      (hb : NamePart (fun _ => True) b) (hc : NamePart (fun _ => True) c) :
      RelationName (a ++ .dot :: b ++ .dot :: c)

/-- One relation, as LOCK takes it. -/
inductive RelationExpr : List Token → Prop
  | name {n : List Token} (h : RelationName reserved n) : RelationExpr n
  | star {n : List Token} (h : RelationName reserved n) : RelationExpr (n ++ [.star])
  | only {n : List Token} (h : RelationName reserved n) : RelationExpr (word "only" :: n)
  | onlyIn {n : List Token} (h : RelationName reserved n) :
      RelationExpr (word "only" :: .lparen :: n ++ [.rparen])

def lockModes : List (List Token) :=
  [[word "access", word "share"], [word "row", word "share"], [word "row", word "exclusive"],
    [word "share", word "update", word "exclusive"], [word "share"],
    [word "share", word "row", word "exclusive"], [word "exclusive"],
    [word "access", word "exclusive"]]

/-- What may stand behind LOCK TABLE: a relation, a mode, and NOWAIT. -/
def LockBody (ts : List Token) : Prop :=
  ∃ r mode nowait, RelationExpr reserved r ∧
    (mode = [] ∨ ∃ m ∈ lockModes, mode = word "in" :: m ++ [word "mode"]) ∧
    (nowait = [] ∨ nowait = [word "nowait"]) ∧ ts = r ++ mode ++ nowait

/-- One LOCK statement that names one relation. -/
def LockStatement (s : List Token) : Prop :=
  ∃ body, LockBody reserved body ∧
    (s = word "lock" :: word "table" :: body ∨ s = word "lock" :: body)

section Relations

variable {reserved}

/-- A part of a name is one word, or ends in something that is no word. -/
theorem NamePart.last {plain : List Char → Prop} {a : List Token} (h : NamePart plain a) :
    (∃ w, a = [.word w]) ∨ ∃ us t, a = us ++ [t] ∧ ∀ w, t ≠ .word w := by
  cases h with
  | word w h => exact .inl ⟨w, rfl⟩
  | quoted name => exact .inr ⟨[], _, rfl, nofun⟩
  | unicode raw => exact .inr ⟨[], _, rfl, nofun⟩
  | escaped raw => exact .inr ⟨[.unicodeQuoted raw, SqlLex.word "uescape"], _, rfl, nofun⟩

/-- A name is one word, or ends in a word behind a dot or in no word. -/
theorem RelationName.last {n : List Token} (h : RelationName reserved n) :
    (∃ w, n = [.word w]) ∨ (∃ us w, n = us ++ [.dot, .word w]) ∨
      ∃ us t, n = us ++ [t] ∧ ∀ w, t ≠ .word w := by
  cases h with
  | one ha => exact ha.last.imp id .inr
  | @two a b ha hb =>
      rcases hb.last with ⟨w, rfl⟩ | ⟨us, t, rfl, ht⟩
      · exact .inr (.inl ⟨a, w, rfl⟩)
      · exact .inr (.inr ⟨a ++ .dot :: us, t, by simp, ht⟩)
  | @three a b c ha hb hc =>
      rcases hc.last with ⟨w, rfl⟩ | ⟨us, t, rfl, ht⟩
      · exact .inr (.inl ⟨a ++ .dot :: b, w, rfl⟩)
      · exact .inr (.inr ⟨a ++ .dot :: b ++ .dot :: us, t, by simp, ht⟩)

/-- The last two tokens of a list determine it from the end. -/
theorem append_two_inj {us vs : List Token} {a b c d : Token}
    (h : us ++ [a, b] = vs ++ [c, d]) : us = vs ∧ a = c ∧ b = d := by
  obtain ⟨hus, htail⟩ := List.append_inj' h rfl
  simp only [List.cons.injEq, and_true] at htail
  exact ⟨hus, htail⟩

/-- A relation does not end in three words. -/
theorem RelationExpr.last {r : List Token} (h : RelationExpr reserved r) (us : List Token)
    (a b c : List Char) : r ≠ us ++ [.word a, .word b, .word c] := by
  have hname : ∀ {n : List Token}, RelationName reserved n → ∀ (vs : List Token) (b c : List Char),
      n ≠ vs ++ [.word b, .word c] := by
    rintro n hn vs b c rfl
    rcases hn.last with ⟨w, hw⟩ | ⟨us, w, hw⟩ | ⟨us, t, hw, ht⟩
    · have hlen := congrArg List.length hw
      simp at hlen
    · obtain ⟨-, hdot, -⟩ := append_two_inj hw
      cases hdot
    · have hlast := congrArg List.getLast? hw
      simp at hlast
      exact ht c hlast.symm
  have hsplit : us ++ [.word a, .word b, .word c] = (us ++ [.word a, .word b]) ++ [.word c] := by
    simp
  intro heq
  cases h with
  | name hn => exact hname hn (us ++ [.word a]) b c (by rw [heq]; simp)
  | star hn =>
      rw [hsplit] at heq
      cases (List.append_inj' heq rfl).2
  | only hn =>
      rcases us with - | ⟨u, us⟩
      · exact hname hn [] b c (List.cons.inj heq).2
      · exact hname hn (us ++ [.word a]) b c (by rw [(List.cons.inj heq).2]; simp)
  | onlyIn hn =>
      rw [hsplit] at heq
      cases (List.append_inj' heq rfl).2

/-- No relation contains a semicolon. -/
theorem NamePart.not_mem {plain : List Char → Prop} {a : List Token} (h : NamePart plain a) :
    .semicolon ∉ a := by
  cases h <;> simp [SqlLex.word]

theorem RelationName.not_mem {n : List Token} (h : RelationName reserved n) :
    .semicolon ∉ n := by
  cases h with
  | one ha => exact ha.not_mem
  | two ha hb => simp [ha.not_mem, hb.not_mem]
  | three ha hb hc => simp [ha.not_mem, hb.not_mem, hc.not_mem]

theorem RelationExpr.not_mem {r : List Token} (h : RelationExpr reserved r) :
    .semicolon ∉ r := by
  cases h with
  | name hn => exact hn.not_mem
  | star hn => simp [hn.not_mem]
  | only hn => simp [hn.not_mem, word]
  | onlyIn hn => simp [hn.not_mem, word]

theorem LockBody.not_mem {ts : List Token} (h : LockBody reserved ts) : .semicolon ∉ ts := by
  obtain ⟨r, mode, nowait, hr, hmode, hnowait, rfl⟩ := h
  have hmodes : ∀ m ∈ lockModes, Token.semicolon ∉ m := by decide
  have hin : Token.semicolon ∉ mode := by
    rcases hmode with rfl | ⟨m, hm, rfl⟩
    · exact List.not_mem_nil
    · simp [word, hmodes m hm]
  have hno : Token.semicolon ∉ nowait := by
    rcases hnowait with rfl | rfl
    · exact List.not_mem_nil
    · simp [word]
  simp [hr.not_mem, hin, hno]

/-- A relation begins with no reserved word but ONLY. -/
theorem RelationExpr.head {w : List Char} {ts : List Token}
    (h : RelationExpr reserved (.word w :: ts)) : ¬ reserved w ∨ w = "only".toList := by
  have hpart : ∀ {a : List Token}, NamePart (¬ reserved ·) a → ∀ us, a ++ us = .word w :: ts →
      ¬ reserved w := by
    intro a ha us heq
    cases ha with
    | word w' h =>
        obtain ⟨hw, -⟩ := List.cons.inj heq
        cases hw
        exact h
    | quoted | unicode | escaped => cases (List.cons.inj heq).1
  have hname : ∀ {n : List Token}, RelationName reserved n → ∀ us, n ++ us = .word w :: ts →
      ¬ reserved w := by
    intro n hn us heq
    cases hn with
    | one ha => exact hpart ha us heq
    | two ha hb => exact hpart ha _ (by rw [← heq, List.append_assoc])
    | @three a b c ha hb hc =>
        exact hpart ha (.dot :: b ++ .dot :: c ++ us) (by rw [← heq]; simp)
  generalize hr : Token.word w :: ts = r at h
  cases h with
  | name hn => exact .inl (hname hn [] (by rw [List.append_nil, hr]))
  | star hn => exact .inl (hname hn _ hr.symm)
  | only hn => exact .inr (Token.word.inj (List.cons.inj hr).1)
  | onlyIn hn => exact .inr (Token.word.inj (List.cons.inj hr).1)

end Relations

end SqlLex
