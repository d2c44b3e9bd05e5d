import HeapTelemetry.Proofs.Calendar
import HeapTelemetry.Timestamp.Text
import Mathlib.Algebra.GroupWithZero.Nat

/-! Timestamps read back from their texts: numerals of a fixed width, then the parts of a
date and of a time of day, and the instant that these make. -/

namespace HeapTelemetry

/-! ## Numerals -/

namespace Text

/-- The value of decimal digits. -/
def value (ds : List Char) : Nat := ds.foldl (fun n c => 10 * n + (c.toNat - 48)) 0

theorem digits_of_lt {n : Nat} (h : n < 10) : (toString n).toList = [Nat.digitChar n] := by
  show (Nat.repr n).toList = _
  rw [Nat.repr_of_lt h, String.singleton_eq_ofList, String.toList_ofList]

theorem digits_of_ge {n : Nat} (h : 10 ≤ n) :
    (toString n).toList = (toString (n / 10)).toList ++ [Nat.digitChar (n % 10)] := by
  rw [← digits_of_lt (Nat.mod_lt n (by decide))]
  show (Nat.repr n).toList = (Nat.repr (n / 10)).toList ++ (Nat.repr (n % 10)).toList
  rw [Nat.repr_eq_repr_append_repr h, String.toList_append]

theorem digitChar_spec : ∀ k < 10,
    (Nat.digitChar k).isDigit = true ∧ (Nat.digitChar k).toNat - 48 = k := by
  decide

/-- A decimal numeral has its number as value. -/
theorem digits_spec (n : Nat) :
    (∀ c ∈ (toString n).toList, c.isDigit = true) ∧ value (toString n).toList = n := by
  induction n using Nat.strongRecOn with
  | ind n ih =>
    by_cases h : n < 10
    · obtain ⟨hdigit, hvalue⟩ := digitChar_spec n h
      rw [digits_of_lt h]
      exact ⟨by simpa using hdigit, by simpa [value] using hvalue⟩
    · have hge : 10 ≤ n := by omega
      obtain ⟨hdigit, hvalue⟩ := digitChar_spec (n % 10) (Nat.mod_lt n (by decide))
      obtain ⟨hdigits, hprefix⟩ := ih (n / 10) (by omega)
      rw [digits_of_ge hge]
      refine ⟨fun c hc => ?_, ?_⟩
      · rcases List.mem_append.1 hc with hc | hc
        · exact hdigits c hc
        · rw [List.mem_singleton.1 hc]
          exact hdigit
      · rw [value] at hprefix ⊢
        simp only [List.foldl_append, hprefix, List.foldl_cons, List.foldl_nil, hvalue]
        omega

theorem length_digits_le {n width : Nat} (hw : 0 < width) (h : n < 10 ^ width) :
    (toString n).toList.length ≤ width := by
  induction width generalizing n with
  | zero => omega
  | succ width ih =>
    by_cases hlt : n < 10
    · rw [digits_of_lt hlt]
      exact hw
    · rw [digits_of_ge (by omega), List.length_append]
      have hrest : n / 10 < 10 ^ width := by
        rw [Nat.pow_succ] at h
        omega
      have hpos : 0 < width := by
        cases width with
        | zero => omega
        | succ _ => exact Nat.succ_pos _
      exact Nat.add_le_add_right (ih hpos hrest) 1

theorem padded_spec (width n : Nat) :
    (∀ c ∈ padded width n, c.isDigit = true) ∧ value (padded width n) = n := by
  obtain ⟨hdigits, hvalue⟩ := digits_spec n
  have hzeros : ∀ k, value (List.replicate k '0') = 0 := by
    intro k
    induction k with
    | zero => rfl
    | succ k ih => rw [List.replicate_succ', value, List.foldl_append, ← value, ih]; rfl
  refine ⟨fun c hc => ?_, ?_⟩
  · rcases List.mem_append.1 hc with hc | hc
    · rw [(List.mem_replicate.1 hc).2]
      rfl
    · exact hdigits c hc
  · rw [padded, value, List.foldl_append, ← value, hzeros]
    exact hvalue

theorem length_padded {width n : Nat} (hw : 0 < width) (h : n < 10 ^ width) :
    (padded width n).length = width := by
  have hle := length_digits_le hw h
  simp only [padded, List.length_append, List.length_replicate]
  omega

/-- A numeral is read up to the bound, or up to what is no digit. -/
theorem number?_append {max : Nat} {ds rest : List Char} (hne : ds ≠ [])
    (hds : ∀ c ∈ ds, c.isDigit = true) (hmax : ds.length ≤ max)
    (hrest : ds.length = max ∨ ∀ c ∈ rest.head?, c.isDigit = false) :
    number? max (ds ++ rest) = some (value ds, rest) := by
  have htake : ((ds ++ rest).take max).takeWhile Char.isDigit = ds := by
    rw [List.take_append, List.take_of_length_le hmax, List.takeWhile_append_of_pos hds]
    rcases hrest with hfull | hstop
    · rw [hfull, Nat.sub_self]
      simp
    · cases rest with
      | nil => simp
      | cons c rest =>
        have hc := hstop c rfl
        cases max - ds.length with
        | zero => simp
        | succ k => simp [hc]
  have hempty : ds.isEmpty = false := by simpa using hne
  rw [number?]
  simp only [htake, hempty, Bool.false_eq_true, ↓reduceIte, List.drop_left]
  rfl

theorem padded_ne_nil {width : Nat} (hw : 0 < width) (n : Nat) : padded width n ≠ [] := by
  intro hnil
  have hlength := congrArg List.length hnil
  simp only [padded, List.length_append, List.length_replicate, List.length_nil] at hlength
  omega

/-- A field of a fixed width. -/
theorem number?_padded {width n : Nat} (hw : 0 < width) (h : n < 10 ^ width)
    (rest : List Char) : number? width (padded width n ++ rest) = some (n, rest) := by
  obtain ⟨hdigits, hvalue⟩ := padded_spec width n
  have hlength := length_padded hw h
  rw [number?_append (padded_ne_nil hw n) hdigits (Nat.le_of_eq hlength) (Or.inl hlength), hvalue]

theorem isBlank_digit {c : Char} (h : c.isDigit = true) : isBlank c = false := by
  simp only [Char.isDigit, Bool.and_eq_true, decide_eq_true_eq, ge_iff_le] at h
  have hlow : 48 ≤ c.toNat := h.1
  have hhigh : c.toNat ≤ 57 := h.2
  simp only [isBlank, blankRanges, List.any_cons, List.any_nil, Bool.or_false,
    Bool.or_eq_false_iff, Bool.and_eq_false_iff, decide_eq_false_iff_not]
  omega

theorem skipBlank_cons {c : Char} (h : isBlank c = false) (rest : List Char) :
    skipBlank (c :: rest) = c :: rest := by
  simp [skipBlank, h]

theorem skipBlank_padded {width : Nat} (hw : 0 < width) (n : Nat) (rest : List Char) :
    skipBlank (padded width n ++ rest) = padded width n ++ rest := by
  obtain ⟨hdigits, _⟩ := padded_spec width n
  cases hp : padded width n with
  | nil => exact absurd hp (padded_ne_nil hw n)
  | cons c ds => exact skipBlank_cons (isBlank_digit (hdigits c (hp ▸ List.mem_cons_self))) _

end Text

/-! ## Timestamps -/

namespace Timestamp
open Calendar Text

theorem year?_yearText (year : Int) (rest : List Char) :
    year? (yearText year ++ '-' :: rest) = some (year, '-' :: rest) := by
  have hsigned : ∀ n : Nat, number? (padded 4 n ++ '-' :: rest).length (padded 4 n ++ '-' :: rest) =
      some (n, '-' :: rest) := by
    intro n
    obtain ⟨hdigits, hvalue⟩ := padded_spec 4 n
    rw [number?_append (padded_ne_nil (by decide) n) hdigits (by simp) (Or.inr (by simp)), hvalue]
  rw [yearText]
  by_cases hplain : 0 ≤ year ∧ year ≤ 9999
  · rw [if_pos hplain]
    obtain ⟨hdigits, _⟩ := padded_spec 4 year.toNat
    have hnumber : number? 4 (padded 4 year.toNat ++ '-' :: rest) = some (year.toNat, '-' :: rest) :=
      number?_padded (by decide) (by omega) _
    have hcast : ((year.toNat : Nat) : Int) = year := Int.toNat_of_nonneg hplain.1
    cases hp : padded 4 year.toNat with
    | nil => exact absurd hp (padded_ne_nil (by decide) _)
    | cons c ds =>
      have hc := hdigits c (hp ▸ List.mem_cons_self)
      rw [hp, List.cons_append] at hnumber
      rw [List.cons_append, year?]
      · simp only [hnumber, Option.map_some, hcast]
      · rintro rest' ⟨rfl, _⟩
        exact absurd hc (by decide)
      · rintro rest' ⟨rfl, _⟩
        exact absurd hc (by decide)
  · rw [if_neg hplain]
    by_cases hneg : year < 0
    · have hcast : -((year.natAbs : Nat) : Int) = year := by omega
      rw [if_pos hneg, List.cons_append, year?, hsigned]
      simp only [Option.map_some, hcast]
    · have hcast : ((year.natAbs : Nat) : Int) = year := by omega
      rw [if_neg hneg, List.cons_append, year?, hsigned]
      simp only [Option.map_some, hcast]

/-- The places of a fraction are followed by no digit. -/
theorem fraction?_places {width n : Nat} (hw : 0 < width) (hle : width ≤ 9) (h : n < 10 ^ width)
    {rest : List Char} (hrest : ∀ c ∈ rest.head?, c.isDigit = false) :
    fraction? ('.' :: (padded width n ++ rest)) = some (n * 10 ^ (9 - width), rest) := by
  obtain ⟨hdigits, hvalue⟩ := padded_spec width n
  have hlength := length_padded hw h
  have hdrop : rest.dropWhile Char.isDigit = rest := by
    cases rest with
    | nil => rfl
    | cons c rest => simp [hrest c rfl]
  rw [fraction?, number?_append (padded_ne_nil hw n) hdigits (by omega) (Or.inr hrest), hvalue]
  simp only [Option.map_some, hdrop, List.length_append, hlength, Nat.add_sub_cancel]
  rfl

theorem fraction?_fractionText {nanos : Nat} (h : nanos < billion) {rest : List Char}
    (hrest : ∀ c ∈ rest.head?, c.isDigit = false ∧ c ≠ '.') :
    fraction? (fractionText nanos ++ rest) = some (nanos, rest) := by
  have hdigit : ∀ c ∈ rest.head?, c.isDigit = false := fun c hc => (hrest c hc).1
  rw [billion] at h
  rw [fractionText]
  split
  · subst nanos
    cases rest with
    | nil => rfl
    | cons c rest =>
      rw [List.nil_append, fraction?]
      rintro rest' ⟨rfl, _⟩
      exact (hrest '.' rfl).2 rfl
  split
  · rw [List.cons_append, fraction?_places (by decide) (by decide) (by omega) hdigit]
    congr 2
    omega
  split
  · rw [List.cons_append, fraction?_places (by decide) (by decide) (by omega) hdigit]
    congr 2
    omega
  · rw [List.cons_append, fraction?_places (by decide) (by decide) (by omega) hdigit]
    congr 2
    omega

/-- A numeral of two digits behind what is no blank. -/
theorem twoDigits_read {n : Nat} (h : n < 100) (rest : List Char) :
    number? 2 (skipBlank (padded 2 n ++ rest)) = some (n, rest) := by
  rw [skipBlank_padded (by decide), number?_padded (by decide) h]

theorem literal?_read {c : Char} (h : isBlank c = false) (rest : List Char) :
    literal? c (skipBlank (c :: rest)) = some rest := by
  rw [skipBlank_cons h, literal?, if_pos rfl]

theorem skipBlank_yearText (year : Int) (rest : List Char) :
    skipBlank (yearText year ++ rest) = yearText year ++ rest := by
  rw [yearText]
  split
  · exact skipBlank_padded (by decide) _ rest
  · rw [List.cons_append]
    split <;> exact skipBlank_cons (by decide) _

/-- The date and the clock of an instant make it again. A leap second is the sixtieth of
its minute, with the fraction beyond the second. -/
theorem ofFields?_eq (t : Timestamp) :
    let (year, month, day) := date (t.seconds / 86400)
    let clock := (t.seconds % 86400).toNat
    ofFields? year month day (clock / 3600) (clock / 60 % 60)
      (clock % 60 + t.fraction / billion) (t.fraction % billion) 0 = some t := by
  obtain ⟨seconds, fraction, ⟨hfirst, hend, hfraction⟩, hleap⟩ := t
  have hdate := date_spec (seconds / 86400)
  have hyear := year_bounds hfirst hend
  generalize date (seconds / 86400) = ymd at hdate hyear ⊢
  obtain ⟨year, month, day⟩ := ymd
  obtain ⟨hday, hmonth1, hmonth12, hday1, hdays⟩ := hdate
  simp only [billion] at hfraction hleap
  simp only [billion]
  have hclock : (seconds % 86400).toNat < 86400 := by omega
  have hsecond : (seconds % 86400).toNat % 60 + fraction / 1000000000 ≤ 60 := by omega
  have hwhole : dayNumber year month day * 86400 +
      ((3600 * ((seconds % 86400).toNat / 3600) + 60 * ((seconds % 86400).toNat / 60 % 60) +
        min ((seconds % 86400).toNat % 60 + fraction / 1000000000) 59 : Nat) : Int) - 0 = seconds := by
    rw [hday]
    omega
  have hnanos : fraction % 1000000000 +
      (if (seconds % 86400).toNat % 60 + fraction / 1000000000 = 60 then 1000000000 else 0) =
        fraction := by
    split <;> omega
  rw [ofFields?, if_pos ⟨hyear.1, hyear.2, hmonth1, hmonth12, hday1, hdays, by omega, by omega,
    hsecond⟩]
  simp only [billion, hwhole, hnanos]
  rw [ofParts?, dif_pos ⟨⟨hfirst, hend, hfraction⟩, hleap⟩]

/-- Every instant reads back from its text. -/
theorem parse?_text (t : Timestamp) : parse? t.text = some t := by
  have hfields := ofFields?_eq t
  have hdate := date_spec (t.seconds / 86400)
  have hclock : (t.seconds % 86400).toNat < 86400 := by omega
  have hfraction := t.inRange.2.2
  have hleap := t.leapAtMinuteEnd
  simp only [billion] at hfraction hleap
  rw [text, parse?, String.toList_ofList, dateText, clockText]
  generalize date (t.seconds / 86400) = ymd at hfields hdate ⊢
  obtain ⟨year, month, day⟩ := ymd
  obtain ⟨_, _, hmonth12, _, hdays⟩ := hdate
  have hdays31 := daysIn_le year month
  have hsecond : (t.seconds % 86400).toNat % 60 + t.fraction / billion < 100 := by
    simp only [billion]
    omega
  have hzone : ∀ c ∈ ['Z'].head?, c.isDigit = false ∧ c ≠ '.' := by
    intro c hc
    rw [List.head?_cons, Option.mem_some_iff] at hc
    subst hc
    decide
  simp only [parseChars?, List.append_assoc, List.cons_append]
  rw [skipBlank_yearText, year?_yearText]
  simp only [Option.bind_eq_bind, Option.bind_some]
  rw [literal?_read (by decide), Option.bind_some, twoDigits_read (by omega), Option.bind_some]
  simp only
  rw [literal?_read (by decide), Option.bind_some, twoDigits_read (by omega), Option.bind_some]
  simp only [separator?, true_or, ↓reduceIte, Option.bind_some]
  rw [twoDigits_read (by omega), Option.bind_some]
  simp only
  rw [literal?_read (by decide), Option.bind_some, twoDigits_read (by omega), Option.bind_some]
  simp only
  rw [literal?_read (by decide), Option.bind_some, twoDigits_read hsecond, Option.bind_some]
  simp only
  rw [fraction?_fractionText (Nat.mod_lt _ (by decide)) hzone]
  exact hfields

end Timestamp
end HeapTelemetry
