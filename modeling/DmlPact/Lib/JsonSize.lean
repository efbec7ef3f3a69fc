/-
DmlPact/Lib/JsonSize.lean

How long a rendered value can be.  `Value.weight` counts six bytes for every
character of a string, which is the longest an escape gets, so it needs the
lengths of the strings only (`length_encode_compact`).
-/
import DmlPact.Lib.Serde
import DmlPact.Lib.Utf8

namespace Json

open Utf8

/-- The most bytes a string literal of `s` takes. -/
def stringWeight (s : String) : Nat := 2 + 6 * s.toList.length

mutual

/-- The most bytes the compact rendering takes. -/
def Value.weight : Value → Nat
  | .null => 4
  | .bool _ => 5
  | .int n => (intLit n).length
  | .float lexeme => 4 * lexeme.length
  | .str s => stringWeight s
  | .arr items => 2 + itemsWeight items
  | .obj members => 2 + membersWeight members

def itemsWeight : List Value → Nat
  | [] => 0
  | v :: vs => v.weight + 1 + itemsWeight vs

def membersWeight : List (String × Value) → Nat
  | [] => 0
  | (k, v) :: ms => stringWeight k + 1 + v.weight + 1 + membersWeight ms

end

theorem length_encode_le (cs : List Char) : (encode cs).length ≤ 4 * cs.length := by
  induction cs with
  | nil => exact Nat.le_refl 0
  | cons c cs ih =>
      have hc : c.utf8Size ≤ 4 := c.utf8Size_le_four
      rw [length_encode_cons, List.length_cons]
      omega

/-- One escaped character takes at most six bytes. -/
theorem length_encode_escapeChar (c : Char) : (encode (escapeChar c)).length ≤ 6 := by
  unfold escapeChar
  split_ifs with h₁ h₂ h₃ h₄ h₅ h₆ h₇ hlow
  iterate 7 · decide
  · -- a control character: its code is below 32, so both digits are ASCII
    have hcases : ∀ n < 32, ['\\', 'u', '0', '0', hexDigit (n / 16), hexDigit (n % 16)].all
        (fun e => decide (e.toNat < 0x80)) = true := by
      decide
    have hascii := List.all_eq_true.mp (hcases c.toNat hlow)
    rw [length_encode_ascii fun e he => of_decide_eq_true (hascii e he)]
    exact Nat.le_refl 6
  · have hlen := length_encode_le [c]
    rw [List.length_singleton] at hlen
    omega

theorem length_encode_quoted (s : String) : (encode (quoted s)).length ≤ stringWeight s := by
  have hbody : ∀ cs : List Char, (encode (cs.flatMap escapeChar)).length ≤ 6 * cs.length := by
    intro cs
    induction cs with
    | nil => exact Nat.le_refl 0
    | cons c cs ih =>
        have hc := length_encode_escapeChar c
        rw [List.flatMap_cons, encode_append, List.length_append, List.length_cons]
        omega
  have hlen := hbody s.toList
  have hquote : (encode ['"']).length = 1 := rfl
  have hopen : encode ('"' :: (s.toList.flatMap escapeChar ++ ['"'])) =
      encode ['"'] ++ (encode (s.toList.flatMap escapeChar) ++ encode ['"']) := by
    rw [← encode_append, ← encode_append]
    rfl
  rw [quoted, List.cons_append, hopen, List.length_append, List.length_append, hquote,
    stringWeight]
  omega

theorem length_encode_intLit (n : Int) : (encode (intLit n)).length = (intLit n).length := by
  refine length_encode_ascii fun c hc => ?_
  have hdigit : ∀ m, c ∈ Nat.toDigits 10 m → c.toNat < 0x80 := by
    intro m hm
    have hd : c.isDigit := Nat.isDigit_of_mem_toDigits (by decide) (by decide) hm
    simp only [Char.isDigit, Bool.and_eq_true, decide_eq_true_eq] at hd
    have h57 : c.toNat ≤ 57 := hd.2
    omega
  cases n with
  | ofNat n => exact hdigit n hc
  | negSucc n =>
      rcases List.mem_cons.mp hc with rfl | hc
      · decide
      · exact hdigit _ hc

mutual

/-- **Size.**  A rendered value is no longer than its weight. -/
theorem length_encode_compact (v : Value) : (encode v.compact).length ≤ v.weight := by
  match v with
  | .null => decide
  | .bool true => decide
  | .bool false => decide
  | .int n => exact (length_encode_intLit n).le
  | .float lexeme => exact length_encode_le lexeme
  | .str s => exact length_encode_quoted s
  | .arr items =>
      have hitems := length_encode_items items
      have hsplit : encode ('[' :: (compactItems items ++ [']'])) =
          encode ['['] ++ (encode (compactItems items) ++ encode [']']) := by
        rw [← encode_append, ← encode_append]; rfl
      have hopen : (encode ['[']).length = 1 := rfl
      have hclose : (encode [']']).length = 1 := rfl
      rw [Value.compact, List.cons_append, hsplit, List.length_append, List.length_append, hopen,
        hclose, Value.weight]
      omega
  | .obj members =>
      have hmembers := length_encode_members members
      have hsplit : encode ('\x7b' :: (compactMembers members ++ ['\x7d'])) =
          encode ['\x7b'] ++ (encode (compactMembers members) ++ encode ['\x7d']) := by
        rw [← encode_append, ← encode_append]; rfl
      have hopen : (encode ['\x7b']).length = 1 := rfl
      have hclose : (encode ['\x7d']).length = 1 := rfl
      rw [Value.compact, List.cons_append, hsplit, List.length_append, List.length_append, hopen,
        hclose, Value.weight]
      omega

theorem length_encode_items (items : List Value) :
    (encode (compactItems items)).length ≤ itemsWeight items := by
  match items with
  | [] => exact Nat.le_refl 0
  | [v] =>
      have hv := length_encode_compact v
      rw [compactItems, itemsWeight, itemsWeight]
      omega
  | v :: w :: vs =>
      have hv := length_encode_compact v
      have hrest := length_encode_items (w :: vs)
      have hsplit : encode (v.compact ++ ',' :: compactItems (w :: vs)) =
          encode v.compact ++ (encode [','] ++ encode (compactItems (w :: vs))) := by
        rw [← encode_append, ← encode_append]; rfl
      have hcomma : (encode [',']).length = 1 := rfl
      rw [compactItems, hsplit, List.length_append, List.length_append, hcomma, itemsWeight]
      omega

theorem length_encode_members (members : List (String × Value)) :
    (encode (compactMembers members)).length ≤ membersWeight members := by
  match members with
  | [] => exact Nat.le_refl 0
  | [(k, v)] =>
      have hk := length_encode_quoted k
      have hv := length_encode_compact v
      have hsplit : encode (quoted k ++ ':' :: v.compact) =
          encode (quoted k) ++ (encode [':'] ++ encode v.compact) := by
        rw [← encode_append, ← encode_append]; rfl
      have hcolon : (encode [':']).length = 1 := rfl
      rw [compactMembers, hsplit, List.length_append, List.length_append, hcolon, membersWeight,
        membersWeight]
      omega
  | (k, v) :: m :: ms =>
      have hk := length_encode_quoted k
      have hv := length_encode_compact v
      have hrest := length_encode_members (m :: ms)
      have hsplit : encode (quoted k ++ ':' :: v.compact ++ ',' :: compactMembers (m :: ms)) =
          encode (quoted k) ++ (encode [':'] ++ (encode v.compact ++ (encode [','] ++
            encode (compactMembers (m :: ms))))) := by
        simp only [← encode_append, List.append_assoc, List.cons_append, List.nil_append]
      have hcolon : (encode [':']).length = 1 := rfl
      have hcomma : (encode [',']).length = 1 := rfl
      rw [compactMembers, hsplit, List.length_append, List.length_append, List.length_append,
        List.length_append, hcolon, hcomma, membersWeight]
      omega

end

end Json

/-! ### The weight of a structure -/

open Json

/-- The weight of the members a product of fields is written as. -/
def Fields.weight {α : Type} (fs : Fields α) (a : α) : Nat := membersWeight (fs.names.zip (fs.ser a))

namespace Codec

variable {α β : Type}

@[simp] theorem weight_struct {strict : Bool} {fs : Fields β} {distinct : fs.names.Nodup}
    {pack : α → β} {unpack : β → α} {unpack_pack : ∀ a, unpack (pack a) = a} (a : α) :
    ((Codec.struct strict fs distinct pack unpack unpack_pack).ser a).weight =
      2 + fs.weight (pack a) := rfl

@[simp] theorem weight_nil (a : Unit) : Fields.nil.weight a = 0 := rfl

@[simp] theorem weight_required (name : String) (c : Codec α) (fs : Fields β) (a : α) (b : β) :
    (Fields.required name c fs).weight (a, b) =
      stringWeight name + 1 + (c.ser a).weight + 1 + fs.weight b := rfl

@[simp] theorem weight_optional (name : String) (c : Codec α) (fs : Fields β) (a : Option α)
    (b : β) :
    (Fields.optional name c fs).weight (a, b) =
      stringWeight name + 1 + (c.serOption a).weight + 1 + fs.weight b := rfl

@[simp] theorem weight_string (s : String) : (Codec.string.ser s).weight = stringWeight s := rfl

@[simp] theorem weight_bool (b : Bool) : (Codec.bool.ser b).weight = 5 := rfl

@[simp] theorem weight_none (c : Codec α) : (c.serOption none).weight = 4 := rfl

@[simp] theorem weight_some (c : Codec α) (a : α) :
    (c.serOption (some a)).weight = (c.ser a).weight := rfl

/-- A decimal numeral below `10 ^ k` has at most `k` digits. -/
theorem weight_u64 (n : UInt64) : (Codec.u64.ser n).weight ≤ 20 := by
  show (Nat.toDigits 10 n.toNat).length ≤ 20
  have hn : n.toNat < 10 ^ 20 := lt_trans n.toNat_lt (by decide)
  exact (Nat.length_toDigits_le_iff (by decide) (by decide)).mpr hn

theorem weight_u32 (n : UInt32) : (Codec.u32.ser n).weight ≤ 10 := by
  show (Nat.toDigits 10 n.toNat).length ≤ 10
  have hn : n.toNat < 10 ^ 10 := lt_trans n.toNat_lt (by decide)
  exact (Nat.length_toDigits_le_iff (by decide) (by decide)).mpr hn

theorem weight_i64 (n : Int64) : (Codec.i64.ser n).weight ≤ 20 := by
  show (intLit n.toInt).length ≤ 20
  have hlo := n.minValue_le_toInt
  have hhi := n.toInt_le
  have hdigits : ∀ m : Nat, m < 10 ^ 19 → (Nat.toDigits 10 m).length ≤ 19 := fun m hm =>
    (Nat.length_toDigits_le_iff (by decide) (by decide)).mpr hm
  have hmin : Int64.minValue.toInt = -2 ^ 63 := rfl
  have hmax : Int64.maxValue.toInt = 2 ^ 63 - 1 := rfl
  rw [hmin] at hlo
  rw [hmax] at hhi
  rcases hn : n.toInt with m | m
  · rw [hn, Int.ofNat_eq_natCast] at hhi
    exact le_trans (hdigits m (by omega)) (by decide)
  · rw [hn, Int.negSucc_eq] at hlo
    rw [intLit, List.length_cons]
    have hm := hdigits (m + 1) (by omega)
    omega

theorem weight_i32 (n : Int32) : (Codec.i32.ser n).weight ≤ 20 := by
  show (intLit n.toInt).length ≤ 20
  have hlo := n.minValue_le_toInt
  have hhi := n.toInt_le
  have hdigits : ∀ m : Nat, m < 10 ^ 19 → (Nat.toDigits 10 m).length ≤ 19 := fun m hm =>
    (Nat.length_toDigits_le_iff (by decide) (by decide)).mpr hm
  have hmin : Int32.minValue.toInt = -2 ^ 31 := rfl
  have hmax : Int32.maxValue.toInt = 2 ^ 31 - 1 := rfl
  rw [hmin] at hlo
  rw [hmax] at hhi
  rcases hn : n.toInt with m | m
  · rw [hn, Int.ofNat_eq_natCast] at hhi
    exact le_trans (hdigits m (by omega)) (by decide)
  · rw [hn, Int.negSucc_eq] at hlo
    rw [intLit, List.length_cons]
    have hm := hdigits (m + 1) (by omega)
    omega

/-- A string that may be missing. -/
theorem weight_optionString (o : Option String) :
    (Codec.string.serOption o).weight ≤ 4 + 6 * (o.getD "").toList.length := by
  rcases o with - | s
  · exact Nat.le_add_right 4 _
  · show 2 + 6 * s.toList.length ≤ 4 + 6 * s.toList.length
    omega

end Codec
