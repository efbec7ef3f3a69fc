/-
DmlPact/Model/Integrity.lean

The digests and the clock of `integrity.rs`.
-/
import DmlPact.Model.Documents
import DmlPact.Model.World
import Mathlib.Data.List.Nodup
import Mathlib.Data.Set.Function

namespace DmlPact

open Effect Utf8

/-- The bytes of a string. -/
def asBytes (s : String) : Bytes := encode s.toList

theorem asBytes_injective : Function.Injective asBytes :=
  fun _ _ h => String.toList_injective (encode_injective h)

/-- One byte as two lower-case hexadecimal digits. -/
def hexByte (byte : UInt8) : List Char :=
  [Json.hexDigit (byte.toNat / 16), Json.hexDigit (byte.toNat % 16)]

variable (X : Crates)

def sha256Bytes (bytes : Bytes) : String := String.ofList ((X.digest bytes).flatMap hexByte)

/-- A digest of 32 bytes is shown as 64 characters. -/
theorem length_sha256Bytes {bytes : Bytes} (h : (X.digest bytes).length = 32) :
    (sha256Bytes X bytes).toList.length = 64 := by
  have hhex : ∀ bs : Bytes, (bs.flatMap hexByte).length = 2 * bs.length := by
    intro bs
    induction bs with
    | nil => rfl
    | cons b bs ih =>
        have hb : (hexByte b).length = 2 := rfl
        rw [List.flatMap_cons, List.length_append, hb, ih, List.length_cons]
        omega
  rw [sha256Bytes, String.toList_ofList, hhex, h]

/-- No two of these messages share a hash. -/
def NoCollision (messages : Set Bytes) : Prop := Set.InjOn (sha256Bytes X) messages

theorem NoCollision.of_subsingleton {messages : Set Bytes} (h : messages.Subsingleton) :
    NoCollision X messages := h.injOn _

variable {X} in
/-- Messages with different hashes. -/
theorem NoCollision.of_hashes {messages : List Bytes}
    (h : (messages.map (sha256Bytes X)).Nodup) : NoCollision X {m | m ∈ messages} :=
  fun _ hm _ hm' => List.inj_on_of_nodup_map h hm hm'

variable {X} in
theorem NoCollision.pair {m m' : Bytes} (h : sha256Bytes X m ≠ sha256Bytes X m') :
    NoCollision X {m, m'} :=
  Set.injOn_pair.mpr fun heq => absurd heq h

/-- Writing a document into memory cannot fail, so the error the source
prepares for it has no run that produces it. -/
def sha256Json {α : Type} (c : Codec α) (value : α) : AppResult String :=
  .ok (sha256Bytes X (toVec (c.ser value)))

def unixMs : App UInt64 := do
  let time ← request Cmd.now
  match (time : Option Nat) with
  | none => throw {
      class_ := .io, code := "clock_before_epoch"
      message := "the system clock is before the Unix epoch" }
  | some ms =>
      if ms < 2 ^ 64 then pure (UInt64.ofNat ms)
      else throw {
        class_ := .io, code := "clock_out_of_range"
        message := "the system clock is outside the supported range" }

end DmlPact
