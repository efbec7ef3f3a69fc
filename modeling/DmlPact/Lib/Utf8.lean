/-
DmlPact/Lib/Utf8.lean

UTF-8 over byte lists.  A file is a list of bytes here, because what a torn
write leaves is a prefix of one.  Encoding and decoding are the core library's;
this file carries its facts over from byte arrays and adds the one about cuts:

    decode (a prefix of encode cs)  is  none,  or a prefix of cs

so a cut in the middle of a character is never read as text.
-/
import Mathlib.Data.List.Basic

namespace Utf8

/-- File contents. -/
abbrev Bytes := List UInt8

/-- The UTF-8 bytes of a text. -/
def encode (cs : List Char) : Bytes := cs.flatMap String.utf8EncodeChar

/-- The text whose UTF-8 bytes these are, if there is one. -/
def decode (bs : Bytes) : Option (List Char) :=
  bs.toByteArray.utf8Decode?.map Array.toList

@[simp] theorem encode_nil : encode [] = [] := rfl

@[simp] theorem encode_append (cs ds : List Char) :
    encode (cs ++ ds) = encode cs ++ encode ds := List.flatMap_append

theorem encode_cons (c : Char) (cs : List Char) :
    encode (c :: cs) = String.utf8EncodeChar c ++ encode cs := rfl

theorem toByteArray_encode (cs : List Char) : (encode cs).toByteArray = cs.utf8Encode := rfl

/-- Every text can be read back from its bytes. -/
@[simp] theorem decode_encode (cs : List Char) : decode (encode cs) = some cs := by
  rw [decode, toByteArray_encode, List.utf8Decode?_utf8Encode]
  rfl

/-- What decodes is exactly what was encoded. -/
theorem encode_of_decode {bs : Bytes} {cs : List Char} (h : decode bs = some cs) :
    encode cs = bs := by
  rw [decode, Option.map_eq_some_iff] at h
  obtain ⟨a, ha, rfl⟩ := h
  have hsome : (bs.toByteArray.utf8Decode?).isSome := by rw [ha]; rfl
  have henc := ByteArray.utf8Encode_get_utf8Decode? (b := bs.toByteArray) (h := hsome)
  have hget : (bs.toByteArray.utf8Decode?).get hsome = a := by simp [ha]
  rw [hget, ← toByteArray_encode] at henc
  have := congrArg (fun b : ByteArray => b.data.toList) henc
  simpa using this

theorem encode_injective : Function.Injective encode := by
  intro cs ds h
  have hd := decode_encode cs
  rw [h, decode_encode] at hd
  exact (Option.some.inj hd).symm

/-- **Cuts.**  If a prefix of an encoded text decodes, it decodes to a prefix
of that text. -/
theorem prefix_of_decode {bs : Bytes} {cs ds : List Char} (hp : bs <+: encode ds)
    (h : decode bs = some cs) : cs <+: ds := by
  obtain ⟨tail, htail⟩ := hp
  rw [← encode_of_decode h] at htail
  refine List.isPrefix_of_utf8Encode_append_eq_utf8Encode tail.toByteArray ?_
  rw [← toByteArray_encode, ← toByteArray_encode, ← htail, List.toByteArray_append]

theorem length_encode_cons (c : Char) (cs : List Char) :
    (encode (c :: cs)).length = c.utf8Size + (encode cs).length := by
  rw [encode_cons, List.length_append, String.length_utf8EncodeChar]

/-- Plain ASCII takes one byte a character. -/
theorem length_encode_ascii {cs : List Char} (h : ∀ c ∈ cs, c.toNat < 0x80) :
    (encode cs).length = cs.length := by
  induction cs with
  | nil => rfl
  | cons c cs ih =>
      have hc : c.utf8Size = 1 := by
        rw [Char.utf8Size_eq_one_iff]
        have h1 : c.toNat < 0x80 := h c (by simp)
        rw [UInt32.le_iff_toNat_le]
        change c.toNat ≤ 127
        omega
      rw [length_encode_cons, hc, ih fun d hd => h d (by simp [hd]), List.length_cons, Nat.add_comm]

end Utf8
