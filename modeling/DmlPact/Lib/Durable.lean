/-
DmlPact/Lib/Durable.lean

Files, and what a power failure leaves of them.  Syncing a file makes its bytes
durable; its directory entry is another matter, and is durable only once the
directory has been synced.  Until then the entry may or may not be there after
a restart, and so may any part of what is cached:

    f.Survives none           the file is gone
    f.Survives (some bytes)   the file is there, with these bytes

The system may write anything back at any time (`WriteBack`), so what is
durable only grows.
-/
import Mathlib.Data.List.Basic

namespace Durable

variable {α : Type}

/-- A file: the bytes that are on the disk, those that are only cached, and
whether its directory entry is on the disk. -/
structure File (α : Type) where
  durable : List α
  cached : List α
  linked : Bool

namespace File

/-- All bytes, as a reader sees them. -/
def bytes (f : File α) : List α := f.durable ++ f.cached

/-- A new file. -/
def empty : File α := ⟨[], [], false⟩

def append (f : File α) (bs : List α) : File α := { f with cached := f.cached ++ bs }

/-- The bytes become durable, and only they. -/
def sync (f : File α) : File α := { f with durable := f.bytes, cached := [] }

/-- The system writes back some of what is cached, or the directory entry. -/
structure WriteBack (f f' : File α) : Prop where
  bytes : f'.bytes = f.bytes
  durable : f.durable <+: f'.durable
  linked : f.linked → f'.linked

/-- What a restart may find, with `partial_` the part of a write under way. -/
def Survives (f : File α) (partial_ : List α) : Option (List α) → Prop
  | none => f.linked = false
  | some bs => f.durable <+: bs ∧ bs <+: f.bytes ++ partial_

variable {f f' : File α} {bs : List α}

@[simp] theorem bytes_empty : (empty : File α).bytes = [] := rfl

@[simp] theorem bytes_append : (f.append bs).bytes = f.bytes ++ bs :=
  (List.append_assoc f.durable f.cached bs).symm

@[simp] theorem durable_append : (f.append bs).durable = f.durable := rfl

@[simp] theorem bytes_sync : f.sync.bytes = f.bytes := List.append_nil _

@[simp] theorem durable_sync : f.sync.durable = f.bytes := rfl

theorem durable_prefix (f : File α) : f.durable <+: f.bytes := List.prefix_append _ _

/-- **Restart.**  Every restart finds a file that begins with `bs` exactly when
the directory entry is durable, once `bs` is. -/
theorem survives_iff (partial_ : List α) (hbs : bs <+: f.durable) :
    (∀ after, f.Survives partial_ after → ∃ bs', after = some bs' ∧ bs <+: bs') ↔
      f.linked = true := by
  constructor
  · intro hall
    by_contra hunlinked
    rw [Bool.not_eq_true] at hunlinked
    obtain ⟨bs', hnone, -⟩ := hall none hunlinked
    cases hnone
  · intro hlinked after hafter
    rcases after with - | bs'
    · have hgone : f.linked = false := hafter
      rw [hlinked] at hgone
      cases hgone
    · exact ⟨bs', rfl, hbs.trans hafter.1⟩

end File

end Durable
