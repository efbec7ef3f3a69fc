/-
DmlPact/Lib/Sha256Numeral.lean

SHA-256 on numerals.  The kernel computes with natural numbers, not with machine
words, so a digest is evaluated on these: each operation on words is the
operation X
-/
import Mathlib.Data.List.GetD
import DmlPact.Lib.Sha256

namespace Sha256

namespace Numeral

/-! ### Operations -/

def add (x y : Nat) : Nat := (x + y) % 4294967296

def complement (x : Nat) : Nat := 4294967295 - x

def rotr (x n : Nat) : Nat := x >>> n ||| (x <<< (32 - n)) % 4294967296

/-- The eight working variables. -/
structure State where
  a : Nat
  b : Nat
  c : Nat
  d : Nat
  e : Nat
  f : Nat
  g : Nat
  h : Nat

/-- The values of the working variables. -/
def State.of (s : Sha256.State) : State :=
  ⟨s.a.toNat, s.b.toNat, s.c.toNat, s.d.toNat, s.e.toNat, s.f.toNat, s.g.toNat, s.h.toNat⟩

def round (s : State) (k w : Nat) : State :=
  let sum1 := rotr s.e 6 ^^^ rotr s.e 11 ^^^ rotr s.e 25
  let choose := (s.e &&& s.f) ^^^ (complement s.e &&& s.g)
  let t1 := add (add (add (add s.h sum1) choose) k) w
  let sum0 := rotr s.a 2 ^^^ rotr s.a 13 ^^^ rotr s.a 22
  let majority := (s.a &&& s.b) ^^^ (s.a &&& s.c) ^^^ (s.b &&& s.c)
  ⟨add (add t1 sum0) majority, s.a, s.b, s.c, add s.d t1, s.e, s.f, s.g⟩

def extend : Nat → List Nat → List Nat
  | 0, ws => ws
  | n + 1, ws =>
      let word (i : Nat) := ws.getD i 0
      let small0 := rotr (word 14) 7 ^^^ rotr (word 14) 18 ^^^ (word 14 >>> 3)
      let small1 := rotr (word 1) 17 ^^^ rotr (word 1) 19 ^^^ (word 1 >>> 10)
      extend n (add (add (add (word 15) small0) (word 6)) small1 :: ws)

def compress (s : State) (block : List Nat) : State :=
  let schedule := (extend 48 block.reverse).reverse
  let t := ((constants.map UInt32.toNat).zip schedule).foldl (fun s kw => round s kw.1 kw.2) s
  ⟨add s.a t.a, add s.b t.b, add s.c t.c, add s.d t.d, add s.e t.e, add s.f t.f, add s.g t.g,
    add s.h t.h⟩

def absorb : Nat → State → List Nat → State
  | 0, s, _ | _, s, [] => s
  | fuel + 1, s, ws => absorb fuel (compress s (ws.take 16)) (ws.drop 16)

/-- Bytes as words. -/
def words : List UInt8 → List Nat
  | a :: b :: c :: d :: bs =>
      (a.toNat <<< 24 ||| b.toNat <<< 16 ||| c.toNat <<< 8 ||| d.toNat) :: words bs
  | _ => []

def bytes (w : Nat) : List Nat := [w >>> 24 % 256, w >>> 16 % 256, w >>> 8 % 256, w % 256]

/-- The values of the bytes of a digest. -/
def digest (message : List UInt8) : List Nat :=
  let ws := words (pad message)
  let s := absorb ws.length (.of initial) ws
  [s.a, s.b, s.c, s.d, s.e, s.f, s.g, s.h].flatMap bytes

/-! ### They are the values -/

theorem toNat_add (x y : UInt32) : (x + y).toNat = add x.toNat y.toNat := UInt32.toNat_add x y

theorem toNat_complement (x : UInt32) : (~~~x).toNat = complement x.toNat := UInt32.toNat_not x

theorem toNat_rotr (x n : UInt32) (hpos : 0 < n.toNat) (hn : n.toNat < 32) :
    (Sha256.rotr x n).toNat = rotr x.toNat n.toNat := by
  have hsub : (32 - n).toNat = 32 - n.toNat := by
    rw [UInt32.toNat_sub_of_le _ _ (UInt32.le_iff_toNat_le.mpr (Nat.le_of_lt hn))]
    rfl
  rw [Sha256.rotr, rotr, UInt32.toNat_or, UInt32.toNat_shiftRight, UInt32.toNat_shiftLeft, hsub,
    Nat.mod_eq_of_lt hn, Nat.mod_eq_of_lt (show 32 - n.toNat < 32 by omega)]

theorem of_round (s : Sha256.State) (k w : UInt32) :
    State.of (Sha256.round s k w) = round (.of s) k.toNat w.toNat := by
  have hrotr : ∀ x : UInt32, ∀ n ∈ [(2 : UInt32), 6, 11, 13, 22, 25],
      (Sha256.rotr x n).toNat = rotr x.toNat n.toNat := by
    intro x n hn
    have hrange : 0 < n.toNat ∧ n.toNat < 32 := by
      simp only [List.mem_cons, List.not_mem_nil, or_false] at hn
      rcases hn with rfl | rfl | rfl | rfl | rfl | rfl <;> decide
    exact toNat_rotr x n hrange.1 hrange.2
  simp only [Sha256.round, round, State.of, toNat_add, toNat_complement, UInt32.toNat_xor,
    UInt32.toNat_and, hrotr _ 2 (by decide), hrotr _ 6 (by decide), hrotr _ 11 (by decide),
    hrotr _ 13 (by decide), hrotr _ 22 (by decide), hrotr _ 25 (by decide)]
  rfl

theorem of_extend (n : Nat) (ws : List UInt32) :
    (Sha256.extend n ws).map UInt32.toNat = extend n (ws.map UInt32.toNat) := by
  have hword : ∀ (ws : List UInt32) (i : Nat),
      (ws.getD i 0).toNat = (ws.map UInt32.toNat).getD i 0 :=
    fun ws i => (List.getD_map ws 0 UInt32.toNat).symm
  induction n generalizing ws with
  | zero => rfl
  | succ n ih =>
      have hrotr : ∀ x : UInt32, ∀ n ∈ [(7 : UInt32), 17, 18, 19],
          (Sha256.rotr x n).toNat = rotr x.toNat n.toNat := by
        intro x n hn
        have hrange : 0 < n.toNat ∧ n.toNat < 32 := by
          simp only [List.mem_cons, List.not_mem_nil, or_false] at hn
          rcases hn with rfl | rfl | rfl | rfl <;> decide
        exact toNat_rotr x n hrange.1 hrange.2
      rw [Sha256.extend, ih, List.map_cons, extend]
      simp only [toNat_add, UInt32.toNat_xor, UInt32.toNat_shiftRight, hrotr _ 7 (by decide),
        hrotr _ 17 (by decide), hrotr _ 18 (by decide), hrotr _ 19 (by decide), hword]
      rfl

theorem of_rounds (kws : List (UInt32 × UInt32)) (s : Sha256.State) :
    State.of (kws.foldl (fun s kw => Sha256.round s kw.1 kw.2) s) =
      (kws.map fun kw => (kw.1.toNat, kw.2.toNat)).foldl (fun s kw => round s kw.1 kw.2)
        (.of s) := by
  induction kws generalizing s with
  | nil => rfl
  | cons kw kws ih => rw [List.foldl_cons, ih, List.map_cons, List.foldl_cons, of_round]

theorem of_compress (s : Sha256.State) (block : List UInt32) :
    State.of (Sha256.compress s block) = compress (.of s) (block.map UInt32.toNat) := by
  have hschedule : ((Sha256.extend 48 block.reverse).reverse).map UInt32.toNat =
      (extend 48 (block.map UInt32.toNat).reverse).reverse := by
    rw [List.map_reverse, of_extend, List.map_reverse]
  have hrounds : State.of ((constants.zip (Sha256.extend 48 block.reverse).reverse).foldl
        (fun s kw => Sha256.round s kw.1 kw.2) s) =
      ((constants.map UInt32.toNat).zip (extend 48 (block.map UInt32.toNat).reverse).reverse).foldl
        (fun s kw => round s kw.1 kw.2) (.of s) := by
    rw [of_rounds, ← hschedule, List.zip_map]
    rfl
  rw [compress, ← hrounds]
  simp only [Sha256.compress, State.of, toNat_add]

theorem of_absorb (fuel : Nat) (s : Sha256.State) (ws : List UInt32) :
    State.of (Sha256.absorb fuel s ws) = absorb fuel (.of s) (ws.map UInt32.toNat) := by
  induction fuel generalizing s ws with
  | zero => rfl
  | succ fuel ih =>
      cases ws with
      | nil => rfl
      | cons w ws =>
          rw [Sha256.absorb, ih, of_compress, List.map_cons, absorb, List.map_take, List.map_drop,
            List.map_cons]
          · exact List.cons_ne_nil _ _
          · exact List.cons_ne_nil _ _

theorem of_words (bytes : List UInt8) : (Sha256.words bytes).map UInt32.toNat = words bytes := by
  have hbyte : ∀ b : UInt8, ∀ n ∈ [(8 : UInt32), 16, 24],
      (b.toUInt32 <<< n).toNat = b.toNat <<< n.toNat := by
    intro b n hn
    have hb := b.toNat_lt
    rw [UInt32.toNat_shiftLeft, UInt8.toNat_toUInt32]
    simp only [List.mem_cons, List.not_mem_nil, or_false] at hn
    rcases hn with rfl | rfl | rfl
    all_goals
      refine Nat.mod_eq_of_lt ?_
      rw [Nat.shiftLeft_eq]
      simp
      omega
  induction bytes using Sha256.words.induct with
  | case1 a b c d bs ih =>
      rw [Sha256.words, List.map_cons, ih, words, UInt32.toNat_or, UInt32.toNat_or,
        UInt32.toNat_or, hbyte a 24 (by decide), hbyte b 16 (by decide), hbyte c 8 (by decide),
        UInt8.toNat_toUInt32]
      rfl
  | case2 bytes hshort =>
      rw [Sha256.words, words, List.map_nil]
      · exact hshort
      · exact hshort

theorem of_bytes (w : UInt32) : (Sha256.bytes w).map UInt8.toNat = bytes w.toNat := by
  have hbyte : ∀ n ∈ [(8 : UInt32), 16, 24], (w >>> n).toNat = w.toNat >>> n.toNat := by
    intro n hn
    have hrange : n.toNat < 32 := by
      simp only [List.mem_cons, List.not_mem_nil, or_false] at hn
      rcases hn with rfl | rfl | rfl <;> decide
    rw [UInt32.toNat_shiftRight, Nat.mod_eq_of_lt hrange]
  simp only [Sha256.bytes, bytes, List.map_cons, List.map_nil, UInt32.toNat_toUInt8,
    hbyte 24 (by decide), hbyte 16 (by decide), hbyte 8 (by decide)]
  rfl

/-- **Values.**  The numerals are the bytes of the digest. -/
theorem digest_eq (message : List UInt8) :
    (Sha256.digest message).map UInt8.toNat = digest message := by
  have hstate : State.of (Sha256.absorb (Sha256.words (pad message)).length initial
        (Sha256.words (pad message))) =
      absorb (words (pad message)).length (.of initial) (words (pad message)) := by
    rw [of_absorb, ← of_words, List.length_map]
  rw [digest, ← hstate, Sha256.digest, List.map_flatMap]
  simp only [State.of, List.flatMap_cons, List.flatMap_nil, of_bytes]

end Numeral

end Sha256
