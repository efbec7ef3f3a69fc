/-
DmlPact/Lib/Calendar.lean

Dates of the proleptic Gregorian calendar, of the years 1 to 9999.  The ordinal
of a date counts the days from 1 January of the year 1; it tells the date
(`toOrdinal_injective`), dates are ordered by it, and the day after a date has
the next ordinal, so that counting on from one date reaches every later one
(`addDays_sub`).

    year, month, day   --toOrdinal-->   1, 2, 3, ...
-/
import Mathlib.Order.Basic
import Mathlib.Order.Lattice
import Mathlib.Tactic.IntervalCases

namespace Calendar

def isLeap (year : Nat) : Bool := year % 4 = 0 && (year % 100 != 0 || year % 400 = 0)

def daysInMonth (year month : Nat) : Nat :=
  if month = 2 then (if isLeap year then 29 else 28)
  else if month = 4 ∨ month = 6 ∨ month = 9 ∨ month = 11 then 30 else 31

/-- The days of the years before `year`. -/
def daysBeforeYear (year : Nat) : Nat :=
  (year - 1) * 365 + (year - 1) / 4 - (year - 1) / 100 + (year - 1) / 400

/-- The days of the months before `month`. -/
def daysBeforeMonth (year : Nat) : Nat → Nat
  | 0 => 0
  | month + 1 => if month = 0 then 0 else daysBeforeMonth year month + daysInMonth year month

/-- There is such a day. -/
def IsDate (year month day : Nat) : Prop :=
  1 ≤ year ∧ year ≤ 9999 ∧ 1 ≤ month ∧ month ≤ 12 ∧ 1 ≤ day ∧ day ≤ daysInMonth year month

instance (year month day : Nat) : Decidable (IsDate year month day) :=
  inferInstanceAs (Decidable (_ ∧ _))

structure Date where
  year : Nat
  month : Nat
  day : Nat
  isDate : IsDate year month day
  deriving DecidableEq

namespace Date

def toOrdinal (d : Date) : Nat := daysBeforeYear d.year + daysBeforeMonth d.year d.month + d.day

end Date

/-! ### Counting days -/

theorem daysInMonth_pos (year month : Nat) : 28 ≤ daysInMonth year month := by
  unfold daysInMonth
  split_ifs <;> omega

theorem isLeap_iff {year : Nat} : isLeap year ↔ 4 ∣ year ∧ (100 ∣ year → 400 ∣ year) := by
  simp only [isLeap, Bool.and_eq_true, decide_eq_true_eq, Bool.or_eq_true, bne_iff_ne, ne_eq,
    ← Nat.dvd_iff_mod_eq_zero]
  tauto

/-- A year has the days of its twelve months. -/
theorem daysBeforeYear_succ {year : Nat} (h : 1 ≤ year) :
    daysBeforeYear (year + 1) = daysBeforeYear year + daysBeforeMonth year 13 := by
  have hmonths : daysBeforeMonth year 13 = if isLeap year then 366 else 365 := by
    cases hleap : isLeap year <;> simp [daysBeforeMonth, daysInMonth, hleap]
  obtain ⟨p, rfl⟩ := Nat.exists_eq_add_of_le' h
  rw [hmonths]
  simp only [daysBeforeYear, Nat.add_sub_cancel, Nat.succ_div, isLeap_iff]
  -- every 400th year is a 100th one, and every 100th a 4th
  have hfour : 100 ∣ p + 1 → 4 ∣ p + 1 := (Nat.dvd_trans (by decide) ·)
  have hcentury : 400 ∣ p + 1 → 100 ∣ p + 1 := (Nat.dvd_trans (by decide) ·)
  have hle : p / 100 ≤ p / 4 := Nat.div_le_div_left (by decide) (by decide)
  split_ifs <;> omega

theorem daysBeforeYear_mono {y y' : Nat} (h1 : 1 ≤ y) (h : y ≤ y') :
    daysBeforeYear y ≤ daysBeforeYear y' := by
  induction y', h using Nat.le_induction with
  | base => exact Nat.le_refl _
  | succ z hz ih =>
      rw [daysBeforeYear_succ (h1.trans hz)]
      exact ih.trans (Nat.le_add_right _ _)

theorem daysBeforeMonth_succ {year month : Nat} (h : 1 ≤ month) :
    daysBeforeMonth year (month + 1) = daysBeforeMonth year month + daysInMonth year month := by
  rw [daysBeforeMonth, if_neg (Nat.one_le_iff_ne_zero.mp h)]

theorem daysBeforeMonth_mono {year m m' : Nat} (h1 : 1 ≤ m) (h : m ≤ m') :
    daysBeforeMonth year m ≤ daysBeforeMonth year m' := by
  induction m', h using Nat.le_induction with
  | base => exact Nat.le_refl _
  | succ z hz ih =>
      rw [daysBeforeMonth_succ (h1.trans hz)]
      exact ih.trans (Nat.le_add_right _ _)

namespace Date

variable (d e : Date)

/-- A date is within its month. -/
theorem day_le : daysBeforeMonth d.year d.month + d.day ≤
    daysBeforeMonth d.year (d.month + 1) := by
  obtain ⟨-, -, hmonth, -, -, hday⟩ := d.isDate
  rw [daysBeforeMonth_succ hmonth]
  exact Nat.add_le_add_left hday _

/-- A date is within its year. -/
theorem toOrdinal_le : d.toOrdinal ≤ daysBeforeYear (d.year + 1) := by
  obtain ⟨hyear, -, -, hmonth, -, -⟩ := d.isDate
  rw [daysBeforeYear_succ hyear, toOrdinal, Nat.add_assoc]
  apply Nat.add_le_add_left
  exact d.day_le.trans (daysBeforeMonth_mono (Nat.le_add_left 1 _) (by omega))

theorem lt_toOrdinal : daysBeforeYear d.year < d.toOrdinal := by
  obtain ⟨-, -, -, -, hday, -⟩ := d.isDate
  unfold toOrdinal
  omega

/-- A later year comes later. -/
theorem toOrdinal_lt_of_year (h : d.year < e.year) : d.toOrdinal < e.toOrdinal := by
  have hyears : daysBeforeYear (d.year + 1) ≤ daysBeforeYear e.year :=
    daysBeforeYear_mono (Nat.le_add_left 1 _) h
  have hd := d.toOrdinal_le
  have he := e.lt_toOrdinal
  omega

/-- In one year, a later month comes later. -/
theorem toOrdinal_lt_of_month (hyear : d.year = e.year) (h : d.month < e.month) :
    d.toOrdinal < e.toOrdinal := by
  have hmonths : daysBeforeMonth d.year (d.month + 1) ≤ daysBeforeMonth d.year e.month :=
    daysBeforeMonth_mono (Nat.le_add_left 1 _) h
  have hd := d.day_le
  obtain ⟨-, -, -, -, hday, -⟩ := e.isDate
  simp only [toOrdinal, ← hyear]
  omega

/-- The ordinal tells the date. -/
theorem toOrdinal_injective : Function.Injective toOrdinal := by
  intro d e h
  have hyear : d.year = e.year := by
    rcases Nat.lt_trichotomy d.year e.year with hlt | heq | hgt
    · exact absurd h (d.toOrdinal_lt_of_year e hlt).ne
    · exact heq
    · exact absurd h (e.toOrdinal_lt_of_year d hgt).ne'
  have hmonth : d.month = e.month := by
    rcases Nat.lt_trichotomy d.month e.month with hlt | heq | hgt
    · exact absurd h (d.toOrdinal_lt_of_month e hyear hlt).ne
    · exact heq
    · exact absurd h (e.toOrdinal_lt_of_month d hyear.symm hgt).ne'
  have hday : d.day = e.day := by
    simp only [toOrdinal, hyear, hmonth] at h
    exact Nat.add_left_cancel h
  cases d
  cases e
  simp only [mk.injEq]
  exact ⟨hyear, hmonth, hday⟩

/-- Dates in the order of time. -/
instance : LinearOrder Date := LinearOrder.lift' toOrdinal toOrdinal_injective

theorem le_iff {d e : Date} : d ≤ e ↔ d.toOrdinal ≤ e.toOrdinal := Iff.rfl

theorem lt_iff {d e : Date} : d < e ↔ d.toOrdinal < e.toOrdinal := Iff.rfl

/-! ### Counting on -/

theorem isDate_day (h : d.day < daysInMonth d.year d.month) :
    IsDate d.year d.month (d.day + 1) := by
  obtain ⟨hyear, hmax, hmonth, hdec, -, -⟩ := d.isDate
  exact ⟨hyear, hmax, hmonth, hdec, Nat.le_add_left 1 _, h⟩

theorem isDate_month (h : d.month < 12) : IsDate d.year (d.month + 1) 1 := by
  obtain ⟨hyear, hmax, -, -, -, -⟩ := d.isDate
  have hdays := daysInMonth_pos d.year (d.month + 1)
  exact ⟨hyear, hmax, Nat.le_add_left 1 _, h, Nat.le_refl 1, by omega⟩

theorem isDate_year (h : d.year < 9999) : IsDate (d.year + 1) 1 1 := by
  have hdays := daysInMonth_pos (d.year + 1) 1
  exact ⟨Nat.le_add_left 1 _, h, Nat.le_refl 1, by decide, Nat.le_refl 1, by omega⟩

/-- The day after, unless it is the last day of the calendar. -/
def next : Option Date :=
  if hday : d.day < daysInMonth d.year d.month then
    some ⟨d.year, d.month, d.day + 1, d.isDate_day hday⟩
  else if hmonth : d.month < 12 then some ⟨d.year, d.month + 1, 1, d.isDate_month hmonth⟩
  else if hyear : d.year < 9999 then some ⟨d.year + 1, 1, 1, d.isDate_year hyear⟩
  else none

/-- The day after has the next ordinal. -/
theorem toOrdinal_next (h : d.next = some e) : e.toOrdinal = d.toOrdinal + 1 := by
  obtain ⟨hyear, -, hmonth, hdec, -, hlast⟩ := d.isDate
  unfold next at h
  split_ifs at h with hday hmore hyears
  · cases h
    rfl
  · cases h
    simp only [toOrdinal, daysBeforeMonth_succ hmonth]
    omega
  · cases h
    have htwelve : d.month = 12 := by omega
    have hthirteen : daysBeforeMonth d.year 13 =
        daysBeforeMonth d.year d.month + daysInMonth d.year d.month := by
      rw [← daysBeforeMonth_succ hmonth, htwelve]
    have hone : daysBeforeMonth (d.year + 1) 1 = 0 := rfl
    simp only [toOrdinal, daysBeforeYear_succ hyear, hthirteen, hone]
    omega

/-- Only the last day of the calendar has none after it. -/
theorem exists_next (h : d < e) : ∃ f, d.next = some f := by
  rw [lt_iff] at h
  unfold next
  split_ifs with hday hmore hyears
  · exact ⟨_, rfl⟩
  · exact ⟨_, rfl⟩
  · exact ⟨_, rfl⟩
  · -- 31 December of the last year
    obtain ⟨hyear, hmax, hmonth, hdec, -, hlast⟩ := d.isDate
    have he := e.toOrdinal_le
    obtain ⟨-, hmax', -, -, -, -⟩ := e.isDate
    have hyears : daysBeforeYear (e.year + 1) ≤ daysBeforeYear (d.year + 1) :=
      daysBeforeYear_mono (Nat.le_add_left 1 _) (by omega)
    have hthirteen : daysBeforeMonth d.year 13 =
        daysBeforeMonth d.year d.month + daysInMonth d.year d.month := by
      have htwelve : d.month = 12 := by omega
      rw [← daysBeforeMonth_succ hmonth, htwelve]
    have hd : d.toOrdinal =
        daysBeforeYear d.year + daysBeforeMonth d.year d.month + d.day := rfl
    rw [daysBeforeYear_succ hyear, hthirteen] at hyears
    omega

/-- So many days later. -/
def addDays : Nat → Option Date
  | 0 => some d
  | n + 1 => (addDays n).bind next

variable {d e}

theorem toOrdinal_addDays {n : Nat} (h : d.addDays n = some e) :
    e.toOrdinal = d.toOrdinal + n := by
  induction n generalizing e with
  | zero =>
      cases h
      rfl
  | succ n ih =>
      obtain ⟨f, hf, hnext⟩ := Option.bind_eq_some_iff.mp h
      rw [f.toOrdinal_next e hnext, ih hf, Nat.add_assoc]

/-- Counting on reaches every day up to a later one. -/
theorem exists_addDays {n : Nat} (h : d.toOrdinal + n ≤ e.toOrdinal) :
    ∃ f, d.addDays n = some f := by
  induction n with
  | zero => exact ⟨d, rfl⟩
  | succ n ih =>
      obtain ⟨f, hf⟩ := ih (by omega)
      have hlt : f < e := by
        rw [lt_iff, toOrdinal_addDays hf]
        omega
      obtain ⟨g, hg⟩ := f.exists_next e hlt
      exact ⟨g, by rw [addDays, hf, Option.bind_some, hg]⟩

/-- Counting on from a date reaches each later one. -/
theorem addDays_sub (h : d ≤ e) : d.addDays (e.toOrdinal - d.toOrdinal) = some e := by
  rw [le_iff] at h
  obtain ⟨f, hf⟩ := exists_addDays (d := d) (e := e) (n := e.toOrdinal - d.toOrdinal) (by omega)
  have hsame : f = e := by
    apply toOrdinal_injective
    rw [toOrdinal_addDays hf]
    omega
  rw [hf, hsame]

/-- The days from one date to another, both included. -/
def daysThrough (d e : Date) : List Date :=
  (List.range (e.toOrdinal - d.toOrdinal + 1)).filterMap d.addDays

theorem mem_daysThrough {f : Date} (h : d ≤ e) : f ∈ daysThrough d e ↔ d ≤ f ∧ f ≤ e := by
  rw [daysThrough, List.mem_filterMap]
  constructor
  · rintro ⟨n, hn, hf⟩
    have hord := toOrdinal_addDays hf
    have hlt := List.mem_range.mp hn
    rw [le_iff] at h
    constructor
    · rw [le_iff]
      omega
    · rw [le_iff]
      omega
  · rintro ⟨hdf, hfe⟩
    rw [le_iff] at hdf hfe
    refine ⟨f.toOrdinal - d.toOrdinal, List.mem_range.mpr (by omega), addDays_sub hdf⟩

end Date

/-! ### Dates as text -/

/-- The decimal digit. -/
def digit (n : Nat) : Char := Nat.digitChar (n % 10)

/-- The value of a decimal digit. -/
def digitValue (c : Char) : Nat := c.toNat - 48

theorem digitValue_digit (n : Nat) : digitValue (digit n) = n % 10 := by
  have hdigits : ∀ k < 10, digitValue (Nat.digitChar k) = k := by decide
  exact hdigits _ (Nat.mod_lt _ (by decide))

/-- `YYYY-MM-DD`. -/
def Date.isoformat (d : Date) : List Char :=
  [digit (d.year / 1000), digit (d.year / 100), digit (d.year / 10), digit d.year, '-',
    digit (d.month / 10), digit d.month, '-', digit (d.day / 10), digit d.day]

/-- The date written as `YYYY-MM-DD`, if there is such a day.  That each of the
characters in the places of the digits is one is not looked at. -/
def Date.fromIsoformat : List Char → Option Date
  | [y₁, y₂, y₃, y₄, '-', m₁, m₂, '-', d₁, d₂] =>
      let year := ((digitValue y₁ * 10 + digitValue y₂) * 10 + digitValue y₃) * 10 + digitValue y₄
      let month := digitValue m₁ * 10 + digitValue m₂
      let day := digitValue d₁ * 10 + digitValue d₂
      if h : IsDate year month day then some ⟨year, month, day, h⟩ else none
  | _ => none

/-- A date is read back from its text. -/
theorem Date.fromIsoformat_isoformat (d : Date) : fromIsoformat d.isoformat = some d := by
  obtain ⟨year, month, day, hdate⟩ := d
  obtain ⟨-, hyear, -, hmonth, -, hday⟩ := id hdate
  have hlong : day ≤ 31 := by
    refine hday.trans ?_
    unfold daysInMonth
    split_ifs <;> omega
  have hy : ((year / 1000 % 10 * 10 + year / 100 % 10) * 10 + year / 10 % 10) * 10 + year % 10 =
      year := by omega
  have hm : month / 10 % 10 * 10 + month % 10 = month := by omega
  have hd : day / 10 % 10 * 10 + day % 10 = day := by omega
  simp only [isoformat, fromIsoformat, digitValue_digit, hy, hm, hd]
  rw [dif_pos hdate]

end Calendar
