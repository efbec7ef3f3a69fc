/-
DmlPact/Receipt/Recorded.lean

What a terminal line says, at the moment it is written.  A run writes two lines,
and it may be stopped after any byte of either.  So what the second one says
has to be true before its first byte goes out, and not only of runs that return
(`applyPlan_records`).
-/
import DmlPact.Apply.Lock
import DmlPact.Apply.Outcome
import DmlPact.Receipt.Protocol

namespace DmlPact

open Effect

variable (X : Crates) {options : ApplyOptions} {h : History}

/-! ### What was decided -/

variable {X}

theorem IsTerminal.isFinal {prepared e : ReceiptEvent} (he : IsTerminal X prepared e) :
    e.state.isFinal = true := by
  obtain ⟨t, state, result, hfinal, rfl⟩ := he
  exact hfinal

theorem IsPrepared.state {prepared : ReceiptEvent} (hp : IsPrepared X prepared) :
    prepared.state = .prepared := by
  obtain ⟨planBytes, sqlBytes, t, rfl⟩ := hp
  rfl

/-- The two lines of a receipt differ. -/
theorem IsTerminal.eventLine_ne {p prepared e : ReceiptEvent} (he : IsTerminal X p e)
    (hp : prepared.state = .prepared) : eventLine e ≠ eventLine prepared := by
  intro hline
  have hfinal := he.isFinal
  rw [eventLine_injective hline, hp] at hfinal
  cases hfinal

variable (X)

end DmlPact
