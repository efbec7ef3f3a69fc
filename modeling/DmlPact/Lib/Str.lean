/-
DmlPact/Lib/Str.lean

The text functions of the Rust standard library, over character lists: white
space, ASCII case, lines, replacement of one character, and the lossy reading
of bytes.
-/
import DmlPact.Lib.Utf8
import Mathlib.Data.List.Basic

namespace Str

/-- The characters with the Unicode `White_Space` property. -/
def isWhitespace (c : Char) : Bool :=
  (0x09 ≤ c.toNat && c.toNat ≤ 0x0d) || c.toNat = 0x20 || c.toNat = 0x85 ||
    c.toNat = 0xa0 || c.toNat = 0x1680 || (0x2000 ≤ c.toNat && c.toNat ≤ 0x200a) ||
    c.toNat = 0x2028 || c.toNat = 0x2029 || c.toNat = 0x202f || c.toNat = 0x205f ||
    c.toNat = 0x3000

/-- Nothing is left after trimming. -/
def isBlank (cs : List Char) : Bool := cs.all isWhitespace

def asciiLower (c : Char) : Char :=
  if 'A' ≤ c ∧ c ≤ 'Z' then Char.ofNat (c.toNat + 32) else c

def toAsciiLowercase (s : String) : String := String.ofList (s.toList.map asciiLower)

def eqIgnoreAsciiCase (s t : String) : Bool :=
  s.toList.map asciiLower == t.toList.map asciiLower

def isAsciiAlphabetic (c : Char) : Bool :=
  ('a' ≤ c && c ≤ 'z') || ('A' ≤ c && c ≤ 'Z')

def isAsciiAlphanumeric (c : Char) : Bool := isAsciiAlphabetic c || ('0' ≤ c && c ≤ '9')

/-! ### Lines -/

/-- Drop one carriage return at the end. -/
def stripCr (l : List Char) : List Char :=
  if l.getLast? = some '\r' then l.dropLast else l

/-- The lines of `acc ++ cs`, where `acc` is the line being read.  A last line
without a line feed counts only if it is not empty, and keeps its carriage
return. -/
def linesFrom (acc : List Char) : List Char → List (List Char)
  | [] => if acc = [] then [] else [acc]
  | c :: cs => if c = '\n' then stripCr acc :: linesFrom [] cs else linesFrom (acc ++ [c]) cs

def lines (cs : List Char) : List (List Char) := linesFrom [] cs

theorem linesFrom_append {l : List Char} (hl : '\n' ∉ l) (acc cs : List Char) :
    linesFrom acc (l ++ cs) = linesFrom (acc ++ l) cs := by
  induction l generalizing acc with
  | nil => simp
  | cons c l ih =>
      have hc : c ≠ '\n' := fun h => hl (h ▸ List.mem_cons_self)
      have hrest : '\n' ∉ l := fun h => hl (List.mem_cons_of_mem c h)
      rw [List.cons_append, linesFrom, if_neg hc, ih hrest, List.append_assoc,
        List.singleton_append]

/-- A line feed ends the first line. -/
theorem lines_feed {l : List Char} (hl : '\n' ∉ l) (cs : List Char) :
    lines (l ++ '\n' :: cs) = stripCr l :: lines cs := by
  rw [lines, linesFrom_append hl, linesFrom, if_pos rfl, List.nil_append, lines]

/-- Text without a line feed is its own only line. -/
theorem lines_single {l : List Char} (hl : '\n' ∉ l) (hne : l ≠ []) : lines l = [l] := by
  have h := linesFrom_append hl [] []
  rw [List.append_nil, List.nil_append] at h
  rw [lines, h, linesFrom, if_neg hne]

@[simp] theorem lines_nil : lines [] = [] := rfl

/-! ### Replacement and joining -/

/-- Replace every occurrence of one character by a text. -/
def replaceChar (c : Char) (by_ : List Char) (s : String) : String :=
  String.ofList (s.toList.flatMap fun d => if d = c then by_ else [d])

/-- Join with a separator. -/
def join (sep : String) (ss : List String) : String := sep.intercalate ss

/-! ### Lossy reading -/

/-- Is `b` a continuation byte between `lo` and `hi`? -/
def inRange (lo hi : Nat) (b : UInt8) : Bool := lo ≤ b.toNat && b.toNat ≤ hi

/-- The bounds of the second byte of a sequence, by its first byte. -/
def secondBounds (b : UInt8) : Nat × Nat :=
  if b.toNat = 0xe0 then (0xa0, 0xbf)
  else if b.toNat = 0xed then (0x80, 0x9f)
  else if b.toNat = 0xf0 then (0x90, 0xbf)
  else if b.toNat = 0xf4 then (0x80, 0x8f)
  else (0x80, 0xbf)

/-- How many bytes the sequence that starts with `b` has; zero for a byte that
starts none. -/
def sequenceLength (b : UInt8) : Nat :=
  if b.toNat < 0x80 then 1
  else if 0xc2 ≤ b.toNat ∧ b.toNat ≤ 0xdf then 2
  else if 0xe0 ≤ b.toNat ∧ b.toNat ≤ 0xef then 3
  else if 0xf0 ≤ b.toNat ∧ b.toNat ≤ 0xf4 then 4
  else 0

/-- How many bytes at the front belong together: a whole sequence, or the
longest beginning of one, and at least one byte. -/
def chunkLength (b : UInt8) (rest : Utf8.Bytes) : Nat :=
  let bounds := secondBounds b
  let tail := match rest with
    | [] => 0
    | c :: cs => if inRange bounds.1 bounds.2 c then 1 + (cs.takeWhile (inRange 0x80 0xbf)).length
        else 0
  1 + min tail (sequenceLength b - 1)

/-- Read bytes as text, each maximal ill-formed piece as U+FFFD.  The fuel is
the number of bytes. -/
def lossyFrom : Nat → Utf8.Bytes → List Char
  | 0, _ | _, [] => []
  | fuel + 1, b :: bs =>
      let n := chunkLength b bs
      let chars := match Utf8.decode ((b :: bs).take n) with
        | some cs => cs
        | none => [Char.ofNat 0xfffd]
      chars ++ lossyFrom fuel ((b :: bs).drop n)

def fromUtf8Lossy (bs : Utf8.Bytes) : String := String.ofList (lossyFrom bs.length bs)

end Str
