/-
DmlPact/Lib/Serde.lean

Typed documents over JSON values.  A `Codec α` writes an `α` as a JSON value
and reads one back; that reading undoes writing, and that nothing written is a
float, are fields of the codec, so a codec that loses anything cannot be
built.

A structure is a product of named fields (`Fields`).  It is written as an
object with its fields in order.  It is read from an object in which no field
stands twice, or from an array with one item a field; a strict structure
refuses members it does not know, any other structure skips them.  A missing
optional field and a `null` both read as `none`.
-/
import DmlPact.Lib.BTreeMap
import DmlPact.Lib.JsonRoundTrip
import Mathlib.Data.String.Basic

open Json

/-- How values of `α` are written to JSON and read from it. -/
structure Codec (α : Type) where
  ser : α → Value
  de : Value → Option α
  de_ser : ∀ a, de (ser a) = some a
  exact_ser : ∀ a, (ser a).exact
  ser_ne_null : ∀ a, ser a ≠ .null

namespace Codec

variable {α β : Type}

theorem ser_injective (c : Codec α) : Function.Injective c.ser := by
  intro a b h
  have ha := c.de_ser a
  rw [h, c.de_ser] at ha
  exact (Option.some.inj ha).symm

/-! ### Scalars -/

/-- Strings. -/
def string : Codec String where
  ser := .str
  de
    | .str s => some s
    | _ => none
  de_ser _ := rfl
  exact_ser _ := trivial
  ser_ne_null _ := nofun

/-- Booleans. -/
def bool : Codec Bool where
  ser := .bool
  de
    | .bool b => some b
    | _ => none
  de_ser _ := rfl
  exact_ser _ := trivial
  ser_ne_null _ := nofun

/-- A fixed-width integer type: an integer literal between `lo` and `hi`. -/
def integer (toInt : α → Int) (ofInt : Int → α) (lo hi : Int)
    (round : ∀ a, ofInt (toInt a) = a) (range : ∀ a, lo ≤ toInt a ∧ toInt a ≤ hi) :
    Codec α where
  ser a := .int (toInt a)
  de
    | .int n => if lo ≤ n ∧ n ≤ hi then some (ofInt n) else none
    | _ => none
  de_ser a := by
    show (if lo ≤ toInt a ∧ toInt a ≤ hi then some (ofInt (toInt a)) else none) = some a
    rw [if_pos (range a), round]
  exact_ser _ := trivial
  ser_ne_null _ := nofun

/-- Unsigned 64-bit integers. -/
def u64 : Codec UInt64 :=
  integer (fun n => n.toNat) (fun n => UInt64.ofNat n.toNat) 0 (2 ^ 64 - 1)
    (fun n => UInt64.ofNat_toNat) fun n => by have h := n.toNat_lt; omega

/-- Unsigned 32-bit integers. -/
def u32 : Codec UInt32 :=
  integer (fun n => n.toNat) (fun n => UInt32.ofNat n.toNat) 0 (2 ^ 32 - 1)
    (fun n => UInt32.ofNat_toNat) fun n => by have h := n.toNat_lt; omega

/-- Signed 64-bit integers. -/
def i64 : Codec Int64 :=
  integer Int64.toInt Int64.ofInt Int64.minValue.toInt Int64.maxValue.toInt
    Int64.ofInt_toInt fun n => ⟨n.minValue_le_toInt, n.toInt_le⟩

/-- Signed 32-bit integers. -/
def i32 : Codec Int32 :=
  integer Int32.toInt Int32.ofInt Int32.minValue.toInt Int32.maxValue.toInt
    Int32.ofInt_toInt fun n => ⟨n.minValue_le_toInt, n.toInt_le⟩

/-- Signed 16-bit integers. -/
def i16 : Codec Int16 :=
  integer Int16.toInt Int16.ofInt Int16.minValue.toInt Int16.maxValue.toInt
    Int16.ofInt_toInt fun n => ⟨n.minValue_le_toInt, n.toInt_le⟩

/-! ### Enumerations -/

/-- An enumeration without payloads: the tag as a string, or an object whose
only member is the tag with `null`. -/
def variants (all : List α) (tag : α → String)
    (found : ∀ a, all.find? (fun b => tag b == tag a) = some a) : Codec α where
  ser a := .str (tag a)
  de
    | .str s => all.find? fun b => tag b == s
    | .obj [(s, .null)] => all.find? fun b => tag b == s
    | _ => none
  de_ser := found
  exact_ser _ := trivial
  ser_ne_null _ := nofun

/-! ### Lists and maps -/

theorem exactItems_map (c : Codec α) (as : List α) : exactItems (as.map c.ser) := by
  induction as with
  | nil => trivial
  | cons a as ih => exact ⟨c.exact_ser a, ih⟩

theorem mapM_ser (c : Codec α) (as : List α) : (as.map c.ser).mapM c.de = some as := by
  induction as with
  | nil => rfl
  | cons a as ih => simp [List.mapM_cons, c.de_ser, ih]

/-- Sequences. -/
def list (c : Codec α) : Codec (List α) where
  ser as := .arr (as.map c.ser)
  de
    | .arr items => items.mapM c.de
    | _ => none
  de_ser := c.mapM_ser
  exact_ser := c.exactItems_map
  ser_ne_null _ := nofun

/-- Decode the value of a member, keeping its key. -/
def deMember (c : Codec α) (m : String × Value) : Option (String × α) :=
  (c.de m.2).map fun a => (m.1, a)

theorem exactMembers_map (c : Codec α) (es : List (String × α)) :
    exactMembers (es.map fun e => (e.1, c.ser e.2)) := by
  induction es with
  | nil => trivial
  | cons e es ih => exact ⟨c.exact_ser e.2, ih⟩

theorem mapM_deMember (c : Codec α) (es : List (String × α)) :
    (es.map fun e => (e.1, c.ser e.2)).mapM c.deMember = some es := by
  induction es with
  | nil => rfl
  | cons e es ih => simp [List.mapM_cons, deMember, c.de_ser, ih]

/-- Maps with string keys, written in key order.  Reading takes the members
one after the other, so the last value of a key is the one that stays. -/
def map (c : Codec α) : Codec (BTreeMap String α) where
  ser m := .obj (m.entries.map fun e => (e.1, c.ser e.2))
  de
    | .obj members => (members.mapM c.deMember).map BTreeMap.ofList
    | _ => none
  de_ser m := by
    show Option.map BTreeMap.ofList (List.mapM c.deMember _) = some m
    rw [c.mapM_deMember, Option.map_some, BTreeMap.ofList_entries]
  exact_ser m := c.exactMembers_map m.entries
  ser_ne_null _ := nofun

/-! ### Structures -/

/-- An optional value: `null` stands for none. -/
def serOption (c : Codec α) : Option α → Value
  | none => .null
  | some a => c.ser a

/-- Read an optional field, which may be missing. -/
def deOption (c : Codec α) : Option Value → Option (Option α)
  | none | some .null => some none
  | some v => (c.de v).map some

theorem deOption_serOption (c : Codec α) (a : Option α) :
    c.deOption (some (c.serOption a)) = some a := by
  rcases a with - | a
  · rfl
  · show c.deOption (some (c.ser a)) = some (some a)
    have hne := c.ser_ne_null a
    have hde := c.de_ser a
    generalize c.ser a = v at hne hde
    unfold deOption
    split
    · contradiction
    · rename_i hv
      exact absurd (Option.some.inj hv) hne
    · rename_i hv
      cases hv
      rw [hde, Option.map_some]

theorem exact_serOption (c : Codec α) (a : Option α) : (c.serOption a).exact := by
  rcases a with - | a
  · trivial
  · exact c.exact_ser a

end Codec

/-- A product of named fields.  `de` gets one entry a field, `none` where the
field is missing. -/
structure Fields (α : Type) where
  names : List String
  ser : α → List Value
  de : List (Option Value) → Option α
  length_ser : ∀ a, (ser a).length = names.length
  de_ser : ∀ a, de ((ser a).map some) = some a
  exact_ser : ∀ a, exactItems (ser a)

namespace Fields

variable {α β : Type}

/-- No field. -/
def nil : Fields Unit where
  names := []
  ser _ := []
  de
    | [] => some ()
    | _ => none
  length_ser _ := rfl
  de_ser _ := rfl
  exact_ser _ := trivial

/-- One more field, read with `de` and written with `ser`. -/
def cons (name : String) (ser : α → Value) (de : Option Value → Option α)
    (de_ser : ∀ a, de (some (ser a)) = some a) (exact_ser : ∀ a, (ser a).exact)
    (fs : Fields β) : Fields (α × β) where
  names := name :: fs.names
  ser p := ser p.1 :: fs.ser p.2
  de
    | v :: vs => (de v).bind fun a => (fs.de vs).map fun b => (a, b)
    | [] => none
  length_ser p := by simp [fs.length_ser]
  de_ser p := by simp [de_ser, fs.de_ser]
  exact_ser p := ⟨exact_ser p.1, fs.exact_ser p.2⟩

/-- A field that must be present. -/
def required (name : String) (c : Codec α) : Fields β → Fields (α × β) :=
  cons name c.ser (fun v => v.bind c.de) c.de_ser c.exact_ser

/-- A field that may be missing or `null`. -/
def optional (name : String) (c : Codec α) : Fields β → Fields (Option α × β) :=
  cons name c.serOption c.deOption c.deOption_serOption c.exact_serOption

/-- The members that are fields. -/
def known (names : List String) (members : List (String × Value)) : List (String × Value) :=
  members.filter fun m => m.1 ∈ names

/-- One entry a field, from an object or from an array. -/
def collect (strict : Bool) (names : List String) : Value → Option (List (Option Value))
  | .obj members =>
      if ((known names members).map Prod.fst).Nodup ∧
          (strict → ∀ m ∈ members, m.1 ∈ names) then
        some (names.map fun n => members.lookup n)
      else none
  | .arr items => if items.length = names.length then some (items.map some) else none
  | _ => none

theorem lookup_zip {names : List String} (hn : names.Nodup) (vs : List Value)
    (hl : vs.length = names.length) :
    (names.map fun n => (names.zip vs).lookup n) = vs.map some := by
  induction names generalizing vs with
  | nil => rw [List.eq_nil_of_length_eq_zero hl]; rfl
  | cons n ns ih =>
      cases vs with
      | nil => simp at hl
      | cons v vs =>
          obtain ⟨hnot, hns⟩ := List.nodup_cons.mp hn
          have hrest : (ns.map fun m => ((n, v) :: ns.zip vs).lookup m) =
              ns.map fun m => (ns.zip vs).lookup m := by
            refine List.map_congr_left fun m hm => ?_
            have hne : (m == n) = false := by
              simpa using fun h : m = n => hnot (h ▸ hm)
            simp [List.lookup_cons, hne]
          have hhead : ((n, v) :: ns.zip vs).lookup n = some v := by simp
          rw [List.zip_cons_cons, List.map_cons, List.map_cons, hhead, hrest,
            ih hns vs (by simpa using hl)]

/-- The fields an object was written from are the fields read from it. -/
theorem collect_zip (strict : Bool) {names : List String} (hn : names.Nodup)
    (vs : List Value) (hl : vs.length = names.length) :
    collect strict names (.obj (names.zip vs)) = some (vs.map some) := by
  have hkeys : (names.zip vs).map Prod.fst = names := List.map_fst_zip (by omega)
  have hall : ∀ m ∈ names.zip vs, m.1 ∈ names := fun m hm =>
    hkeys ▸ List.mem_map_of_mem hm
  have hknown : known names (names.zip vs) = names.zip vs :=
    List.filter_eq_self.mpr fun m hm => by simpa using hall m hm
  rw [collect, hknown, hkeys, if_pos ⟨hn, fun _ => hall⟩, lookup_zip hn vs hl]

theorem exactMembers_zip (names : List String) (vs : List Value) (h : exactItems vs) :
    exactMembers (names.zip vs) := by
  induction names generalizing vs with
  | nil => trivial
  | cons n ns ih =>
      cases vs with
      | nil => trivial
      | cons v vs => exact ⟨h.1, ih vs h.2⟩

end Fields

/-- A structure `α` with fields `β`. -/
def Codec.struct {α β : Type} (strict : Bool) (fs : Fields β) (distinct : fs.names.Nodup)
    (pack : α → β) (unpack : β → α) (unpack_pack : ∀ a, unpack (pack a) = a) : Codec α where
  ser a := .obj (fs.names.zip (fs.ser (pack a)))
  de v := (Fields.collect strict fs.names v).bind fun vs => (fs.de vs).map unpack
  de_ser a := by
    rw [Fields.collect_zip strict distinct _ (fs.length_ser _), Option.bind_some,
      fs.de_ser, Option.map_some, unpack_pack]
  exact_ser a := Fields.exactMembers_zip _ _ (fs.exact_ser _)
  ser_ne_null _ := nofun
