/-
DmlPact/Lib/Sha256.lean

SHA-256 over byte lists.  A message is padded, cut into blocks of sixteen
words, and the blocks are folded into eight words of state.
-/
import Mathlib.Data.List.Basic

namespace Sha256

/-- The eight working variables. -/
structure State where
  a : UInt32
  b : UInt32
  c : UInt32
  d : UInt32
  e : UInt32
  f : UInt32
  g : UInt32
  h : UInt32

def initial : State :=
  ⟨0x6a09e667, 0xbb67ae85, 0x3c6ef372, 0xa54ff53a, 0x510e527f, 0x9b05688c, 0x1f83d9ab,
    0x5be0cd19⟩

def constants : List UInt32 := [
  0x428a2f98, 0x71374491, 0xb5c0fbcf, 0xe9b5dba5, 0x3956c25b, 0x59f111f1, 0x923f82a4, 0xab1c5ed5,
  0xd807aa98, 0x12835b01, 0x243185be, 0x550c7dc3, 0x72be5d74, 0x80deb1fe, 0x9bdc06a7, 0xc19bf174,
  0xe49b69c1, 0xefbe4786, 0x0fc19dc6, 0x240ca1cc, 0x2de92c6f, 0x4a7484aa, 0x5cb0a9dc, 0x76f988da,
  0x983e5152, 0xa831c66d, 0xb00327c8, 0xbf597fc7, 0xc6e00bf3, 0xd5a79147, 0x06ca6351, 0x14292967,
  0x27b70a85, 0x2e1b2138, 0x4d2c6dfc, 0x53380d13, 0x650a7354, 0x766a0abb, 0x81c2c92e, 0x92722c85,
  0xa2bfe8a1, 0xa81a664b, 0xc24b8b70, 0xc76c51a3, 0xd192e819, 0xd6990624, 0xf40e3585, 0x106aa070,
  0x19a4c116, 0x1e376c08, 0x2748774c, 0x34b0bcb5, 0x391c0cb3, 0x4ed8aa4a, 0x5b9cca4f, 0x682e6ff3,
  0x748f82ee, 0x78a5636f, 0x84c87814, 0x8cc70208, 0x90befffa, 0xa4506ceb, 0xbef9a3f7, 0xc67178f2]

def rotr (x : UInt32) (n : UInt32) : UInt32 := (x >>> n) ||| (x <<< (32 - n))

/-- One round, with the constant `k` and the schedule word `w`. -/
def round (s : State) (k w : UInt32) : State :=
  let sum1 := rotr s.e 6 ^^^ rotr s.e 11 ^^^ rotr s.e 25
  let choose := (s.e &&& s.f) ^^^ (~~~s.e &&& s.g)
  let t1 := s.h + sum1 + choose + k + w
  let sum0 := rotr s.a 2 ^^^ rotr s.a 13 ^^^ rotr s.a 22
  let majority := (s.a &&& s.b) ^^^ (s.a &&& s.c) ^^^ (s.b &&& s.c)
  ⟨t1 + sum0 + majority, s.a, s.b, s.c, s.d + t1, s.e, s.f, s.g⟩

/-- Add `n` words to a schedule that is kept newest first. -/
def extend : Nat → List UInt32 → List UInt32
  | 0, ws => ws
  | n + 1, ws =>
      let word (i : Nat) := ws.getD i 0
      let small0 := rotr (word 14) 7 ^^^ rotr (word 14) 18 ^^^ (word 14 >>> 3)
      let small1 := rotr (word 1) 17 ^^^ rotr (word 1) 19 ^^^ (word 1 >>> 10)
      extend n ((word 15 + small0 + word 6 + small1) :: ws)

def compress (s : State) (block : List UInt32) : State :=
  let schedule := (extend 48 block.reverse).reverse
  let t := (constants.zip schedule).foldl (fun s kw => round s kw.1 kw.2) s
  ⟨s.a + t.a, s.b + t.b, s.c + t.c, s.d + t.d, s.e + t.e, s.f + t.f, s.g + t.g, s.h + t.h⟩

/-- Bytes as words, most significant byte first. -/
def words : List UInt8 → List UInt32
  | a :: b :: c :: d :: bs =>
      ((a.toUInt32 <<< 24) ||| (b.toUInt32 <<< 16) ||| (c.toUInt32 <<< 8) ||| d.toUInt32) ::
        words bs
  | _ => []

def bytes (w : UInt32) : List UInt8 :=
  [(w >>> 24).toUInt8, (w >>> 16).toUInt8, (w >>> 8).toUInt8, w.toUInt8]

/-- The message, a one bit, zeros, and the length in bits on eight bytes. -/
def pad (message : List UInt8) : List UInt8 :=
  let bits := 8 * message.length
  let length : List UInt8 :=
    [56, 48, 40, 32, 24, 16, 8, 0].map fun shift => UInt8.ofNat (bits >>> shift)
  message ++ 0x80 :: List.replicate ((119 - message.length % 64) % 64) 0 ++ length

/-- Fold the blocks of sixteen words into the state; the fuel bounds their
number. -/
def absorb : Nat → State → List UInt32 → State
  | 0, s, _ | _, s, [] => s
  | fuel + 1, s, ws => absorb fuel (compress s (ws.take 16)) (ws.drop 16)

def digest (message : List UInt8) : List UInt8 :=
  let ws := words (pad message)
  let s := absorb ws.length initial ws
  [s.a, s.b, s.c, s.d, s.e, s.f, s.g, s.h].flatMap bytes

example : digest [0x61, 0x62, 0x63] =
    [0xba, 0x78, 0x16, 0xbf, 0x8f, 0x01, 0xcf, 0xea, 0x41, 0x41, 0x40, 0xde, 0x5d, 0xae, 0x22, 0x23,
      0xb0, 0x03, 0x61, 0xa3, 0x96, 0x17, 0x7a, 0x9c, 0xb4, 0x10, 0xff, 0x61, 0xf2, 0x00, 0x15,
      0xad] := by
  decide +kernel

@[simp] theorem length_digest (message : List UInt8) : (digest message).length = 32 := rfl

end Sha256
