import HeapTelemetry.Timestamp

/-! Day numbers and dates. Every day number is that of its date, and the dates of the
representable days are dates of the calendar. Years are counted from March, in eras of 400
of them; a year and its day are found in the era, and the month in the year. -/

namespace HeapTelemetry.Calendar

/-! ## Years of an era -/

/-- The year of an era that a day falls in. -/
def eraYear (day : Int) : Int := (day - day / 1460 + day / 36524 - day / 146096) / 365

/-- The first day of a year of an era. -/
def eraDay (year : Int) : Int := 365 * year + year / 4 - year / 100

/-- The day before the next year begins. -/
def eraLast (year : Int) : Int := if year = 399 then 146096 else eraDay (year + 1) - 1

theorem eraYear_mono {a b : Int} (h : a ≤ b) : eraYear a ≤ eraYear b := by
  have hleaps : a - a / 1460 ≤ b - b / 1460 := by omega
  have hcenturies : a / 36524 - a / 146096 ≤ b / 36524 - b / 146096 := by
    have hquarter : ∀ x : Int, x / 146096 = x / 36524 / 4 := fun x => by omega
    have hle : a / 36524 ≤ b / 36524 := Int.ediv_le_ediv (by decide) h
    rw [hquarter, hquarter]
    omega
  exact Int.ediv_le_ediv (by decide) (by omega)

theorem eraYear_ends : ∀ y < 400,
    eraYear (eraDay (y : Nat)) = y ∧ eraYear (eraLast (y : Nat)) = y := by
  decide +kernel

/-- The years of an era follow each other without a gap. -/
theorem eraYear_iff {day : Int} (h0 : 0 ≤ day) (h1 : day < 146097) {y : Nat} (hy : y < 400) :
    eraYear day = y ↔ eraDay y ≤ day ∧ day ≤ eraLast y := by
  obtain ⟨hfirst, hlast⟩ := eraYear_ends y hy
  constructor
  · intro heq
    refine ⟨Int.not_lt.1 fun hlt => ?_, Int.not_lt.1 fun hlt => ?_⟩
    · cases y with
      | zero => exact absurd h0 (Int.not_le.2 hlt)
      | succ y =>
        obtain ⟨_, hbefore⟩ := eraYear_ends y (by omega)
        have hle : day ≤ eraLast (y : Nat) := by
          rw [eraLast, if_neg (by omega)]
          rw [Int.natCast_add] at hlt
          exact Int.le_sub_one_of_lt hlt
        have hmono := eraYear_mono hle
        omega
    · by_cases h399 : y = 399
      · subst h399
        exact absurd h1 (Int.not_lt.2 hlt)
      · obtain ⟨hafter, _⟩ := eraYear_ends (y + 1) (by omega)
        have hle : eraDay ((y + 1 : Nat) : Int) ≤ day := by
          rw [eraLast, if_neg (by omega)] at hlt
          rw [Int.natCast_add]
          exact Int.sub_one_lt_iff.1 hlt
        have hmono := eraYear_mono hle
        omega
  · rintro ⟨hle, hge⟩
    have hlow := eraYear_mono hle
    have hhigh := eraYear_mono hge
    omega

/-- A day of an era is one of at most 366 days of a year, and of the 366th only in a year
that ends with a leap day. -/
theorem eraDay_le {day : Int} (h0 : 0 ≤ day) (h1 : day < 146097) : ∃ y k : Nat,
    eraYear day = y ∧ y < 400 ∧ day = eraDay y + k ∧ k ≤ 365 ∧
      (k = 365 → isLeap ((y : Int) + 1) = true) := by
  have hlow := eraYear_mono h0
  have hhigh := eraYear_mono (Int.le_of_lt_add_one h1 : day ≤ 146096)
  have hzero : eraYear 0 = 0 := rfl
  have hend : eraYear 146096 = 399 := rfl
  obtain ⟨y, hy⟩ := Int.eq_ofNat_of_zero_le (hzero ▸ hlow)
  have hlt : y < 400 := by omega
  obtain ⟨hle, hge⟩ := (eraYear_iff h0 h1 hlt).1 hy
  obtain ⟨k, hk⟩ := Int.eq_ofNat_of_zero_le (Int.sub_nonneg.2 hle)
  have hquarter : ((y : Int) + 1) / 4 = y / 4 ∨ ((y : Int) + 1) / 4 = y / 4 + 1 ∧ ((y : Int) + 1) % 4 = 0 := by
    omega
  have hcentury : ((y : Int) + 1) / 100 = y / 100 ∧ ((y : Int) + 1) % 100 ≠ 0 ∨
      ((y : Int) + 1) / 100 = y / 100 + 1 := by
    omega
  have hspan : (k : Int) ≤ 365 ∧ (k = 365 → isLeap ((y : Int) + 1) = true) := by
    rw [← hk]
    simp only [isLeap, Bool.and_eq_true, Bool.or_eq_true, beq_iff_eq, bne_iff_ne, ne_eq]
    simp only [eraLast] at hge
    split at hge
    · simp only [eraDay] at hge hk ⊢
      omega
    · simp only [eraDay] at hge hk ⊢
      omega
  exact ⟨y, k, hy, hlt, by omega, by omega, hspan.2⟩

/-! ## Months of a year -/

/-- The month of a day of a year, and the day of that month. -/
def monthDay (k : Nat) : Nat × Nat :=
  let m := (5 * k + 2) / 153
  (if m < 10 then m + 3 else m - 9, k - (153 * m + 2) / 5 + 1)

/-- The months that belong to the next calendar year come last. -/
theorem monthDay_spec : ∀ k < 366,
    let (month, day) := monthDay k
    (153 * ((month + 9) % 12) + 2) / 5 + day = k + 1 ∧ 1 ≤ month ∧ month ≤ 12 ∧ 1 ≤ day ∧
      (month = 2 → day ≤ 29 ∧ (day = 29 → k = 365)) ∧
      (month ≠ 2 → day ≤ daysIn 1 month) ∧ (month ≤ 2 ↔ 306 ≤ k) := by
  decide +kernel

theorem daysIn_of_ne {month : Nat} (h : month ≠ 2) (year year' : Int) :
    daysIn year month = daysIn year' month := by
  rw [daysIn, daysIn, if_neg h, if_neg h]

theorem daysIn_le (year : Int) (month : Nat) : daysIn year month ≤ 31 := by
  rw [daysIn]
  split
  · split <;> decide
  · split <;> decide

/-- Leap years come again in every era. -/
theorem isLeap_add_eras (year eras : Int) : isLeap (year + eras * 400) = isLeap year := by
  have h4 : (year + eras * 400) % 4 = year % 4 := by omega
  have h100 : (year + eras * 400) % 100 = year % 100 := by omega
  have h400 : (year + eras * 400) % 400 = year % 400 := by omega
  rw [isLeap, isLeap, h4, h100, h400]

/-! ## Dates -/

/-- A day is found in its era and its year, and then in its month. -/
theorem date_eq {n : Int} {y k : Nat} (hy : eraYear ((n + 719468) % 146097) = y)
    (hk : (n + 719468) % 146097 = eraDay y + k) :
    date n = (y + (n + 719468) / 146097 * 400 + (if (monthDay k).1 ≤ 2 then 1 else 0),
      monthDay k) := by
  have hdoy : (n + 719468) % 146097 - (365 * (y : Int) + (y : Int) / 4 - (y : Int) / 100) = k := by
    rw [hk, eraDay]
    omega
  have hm : (5 * (k : Int) + 2) / 153 = ((5 * k + 2) / 153 : Nat) := by omega
  have hstart : (153 * ((5 * k + 2) / 153) + 2) / 5 ≤ k := by omega
  obtain ⟨m, hmonth⟩ : ∃ m, (5 * k + 2) / 153 = m := ⟨_, rfl⟩
  rw [hmonth] at hm hstart
  rw [eraYear] at hy
  simp only [date, hy, hdoy, hm, monthDay, hmonth]
  have hday : ((k : Int) - (153 * (m : Int) + 2) / 5 + 1).toNat = k - (153 * m + 2) / 5 + 1 := by
    omega
  have hnumber : (if (m : Int) < 10 then (m : Int) + 3 else (m : Int) - 9) =
      ((if m < 10 then m + 3 else m - 9 : Nat) : Int) := by
    split <;> split <;> omega
  rw [hday, hnumber, Int.toNat_natCast]
  congr 2
  split <;> split <;> omega

/-- Every day number is that of its date, which is a date of the calendar. -/
theorem date_spec (n : Int) :
    let (year, month, day) := date n
    dayNumber year month day = n ∧ 1 ≤ month ∧ month ≤ 12 ∧ 1 ≤ day ∧ day ≤ daysIn year month := by
  have h0 : 0 ≤ (n + 719468) % 146097 := Int.emod_nonneg _ (by decide)
  have h1 : (n + 719468) % 146097 < 146097 := Int.emod_lt_of_pos _ (by decide)
  obtain ⟨y, k, hy, hlt, hk, hle, hleap⟩ := eraDay_le h0 h1
  have hspec := monthDay_spec k (by omega)
  rw [date_eq hy hk]
  generalize monthDay k = md at hspec ⊢
  obtain ⟨month, day⟩ := md
  obtain ⟨hday, hmonth1, hmonth12, hday1, hfebruary, hothers, _⟩ := hspec
  refine ⟨?_, hmonth1, hmonth12, hday1, ?_⟩
  · -- The year counted from March is that of the date, less one in January and February.
    have hyear : (if month ≤ 2 then (y : Int) + (n + 719468) / 146097 * 400 +
        (if month ≤ 2 then 1 else 0) - 1 else (y : Int) + (n + 719468) / 146097 * 400 +
        (if month ≤ 2 then 1 else 0)) = y + (n + 719468) / 146097 * 400 := by
      split <;> simp_all
    have hera : ((y : Int) + (n + 719468) / 146097 * 400) / 400 = (n + 719468) / 146097 := by omega
    have hyoe : ((y : Int) + (n + 719468) / 146097 * 400) % 400 = y := by omega
    have hcast : (153 * (((month : Int) + 9) % 12) + 2) / 5 + day = k + 1 := by exact_mod_cast hday
    simp only [dayNumber, hyear, hera, hyoe]
    have hsplit := Int.mul_ediv_add_emod (n + 719468) 146097
    rw [eraDay] at hk
    omega
  · by_cases hm : month = 2
    · subst hm
      obtain ⟨h29, hlast⟩ := hfebruary rfl
      have hcycle : isLeap ((y : Int) + (n + 719468) / 146097 * 400 + 1) = isLeap ((y : Int) + 1) := by
        rw [Int.add_right_comm]
        exact isLeap_add_eras _ _
      simp only [daysIn, ↓reduceIte, Nat.le_refl, hcycle]
      by_cases hday29 : day = 29
      · rw [hleap (hlast hday29), hday29]
        exact Nat.le_refl _
      · split <;> omega
    · rw [daysIn_of_ne hm _ 1]
      exact hothers hm

/-- The years of representable instants. -/
theorem year_bounds {seconds : Int} (h0 : firstSecond ≤ seconds) (h1 : seconds < endSecond) :
    firstYear ≤ (date (seconds / 86400)).1 ∧ (date (seconds / 86400)).1 ≤ lastYear := by
  rw [firstSecond] at h0
  rw [endSecond] at h1
  obtain ⟨n, hn⟩ : ∃ n, seconds / 86400 = n := ⟨_, rfl⟩
  have hlow : -96465292 ≤ n := by omega
  have hhigh : n ≤ 95026236 := by omega
  have hpos : 0 ≤ (n + 719468) % 146097 := Int.emod_nonneg _ (by decide)
  have hlt : (n + 719468) % 146097 < 146097 := Int.emod_lt_of_pos _ (by decide)
  obtain ⟨y, k, hy, hy400, hk, hle, _⟩ := eraDay_le hpos hlt
  have hspec := monthDay_spec k (by omega)
  rw [hn, date_eq hy hk]
  generalize monthDay k = md at hspec ⊢
  obtain ⟨month, day⟩ := md
  obtain ⟨_, _, _, _, _, _, hwinter⟩ := hspec
  have hsplit := Int.mul_ediv_add_emod (n + 719468) 146097
  rw [hk, eraDay] at hsplit
  generalize (n + 719468) / 146097 = era at hsplit ⊢
  simp only [firstYear, lastYear]
  clear hpos hlt hk hy hn h0 h1
  have heras : -656 ≤ era ∧ era ≤ 655 := by omega
  -- The first era ends in the first year from its day 306 on, the last one before it.
  have hfirst : era = -656 → 256 ≤ y ∧ (y = 256 → 306 ≤ k) := by
    rintro rfl
    constructor <;> omega
  have hlast : era = 655 → y ≤ 142 ∧ (y = 142 → k < 306) := by
    rintro rfl
    constructor <;> omega
  split <;> omega

end HeapTelemetry.Calendar
