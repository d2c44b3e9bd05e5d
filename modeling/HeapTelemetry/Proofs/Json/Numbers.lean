import HeapTelemetry.Json.Fields
import HeapTelemetry.Proofs.Json.Strings

/-! Integers written as JSON numbers: the literal is read in full and gives the
integer back. -/

namespace HeapTelemetry.Json

/-! ## Numerals -/

/-- The decimal digits of a number. -/
def numeral (n : Nat) : Bytes := Bytes.ofText (Nat.repr n)

theorem numeral_of_lt {n : Nat} (h : n < 10) : numeral n = [UInt8.ofNat (48 + n)] := by
  have hall : ∀ n < 10, String.utf8EncodeChar (Nat.digitChar n) = [UInt8.ofNat (48 + n)] := by
    decide
  rw [numeral, Nat.repr_of_lt h, String.singleton_eq_ofList, Bytes.ofText_ofList]
  simpa using hall n h

theorem numeral_of_ge {n : Nat} (h : 10 ≤ n) :
    numeral n = numeral (n / 10) ++ [UInt8.ofNat (48 + n % 10)] := by
  have hlast : Bytes.ofText (Nat.repr (n % 10)) = [UInt8.ofNat (48 + n % 10)] :=
    numeral_of_lt (Nat.mod_lt n (by decide))
  rw [numeral, numeral, Nat.repr_eq_repr_append_repr h, Bytes.ofText_append, hlast]

theorem isDigit_of_lt {k : Nat} (h : k < 10) : Bytes.isDigit (UInt8.ofNat (48 + k)) = true := by
  have hall : ∀ k < 10, Bytes.isDigit (UInt8.ofNat (48 + k)) = true := by decide
  exact hall k h

theorem isDigit_numeral (n : Nat) : ∀ b ∈ numeral n, Bytes.isDigit b = true := by
  induction n using Nat.strongRecOn with
  | ind n ih =>
    intro b hb
    by_cases h : n < 10
    · rw [numeral_of_lt h, List.mem_singleton] at hb
      rw [hb]
      exact isDigit_of_lt h
    · have hge : 10 ≤ n := by omega
      rw [numeral_of_ge hge] at hb
      rcases List.mem_append.1 hb with hm | hm
      · exact ih (n / 10) (by omega) b hm
      · rw [List.mem_singleton.1 hm]
        exact isDigit_of_lt (Nat.mod_lt n (by decide))

theorem decimal_append (ds : Bytes) (b : UInt8) :
    Bytes.decimal (ds ++ [b]) = 10 * Bytes.decimal ds + (b.toNat - 48) := by
  simp [Bytes.decimal]

theorem digit_value {k : Nat} (h : k < 10) : (UInt8.ofNat (48 + k)).toNat - 48 = k := by
  rw [UInt8.toNat_ofNat']
  omega

/-- A numeral has its number as value. -/
theorem decimal_numeral (n : Nat) : Bytes.decimal (numeral n) = n := by
  induction n using Nat.strongRecOn with
  | ind n ih =>
    by_cases h : n < 10
    · rw [numeral_of_lt h]
      simpa [Bytes.decimal] using digit_value h
    · have hge : 10 ≤ n := by omega
      rw [numeral_of_ge hge, decimal_append, ih (n / 10) (by omega),
        digit_value (Nat.mod_lt n (by decide))]
      omega

/-- A numeral has a digit in front, and that is zero for zero only. -/
theorem numeral_head (n : Nat) : ∃ b rest, numeral n = b :: rest ∧ (rest ≠ [] → b ≠ 48) ∧
    (0 < n → b ≠ 48) := by
  induction n using Nat.strongRecOn with
  | ind n ih =>
    by_cases h : n < 10
    · refine ⟨_, [], numeral_of_lt h, fun hn => absurd rfl hn, fun hpos he => ?_⟩
      have hv := digit_value h
      rw [he] at hv
      have h48 : (48 : UInt8).toNat = 48 := rfl
      omega
    · have hge : 10 ≤ n := by omega
      obtain ⟨b, rest, hb, _, hpos⟩ := ih (n / 10) (by omega)
      have hb48 : b ≠ 48 := hpos (by omega)
      exact ⟨b, rest ++ [UInt8.ofNat (48 + n % 10)], by rw [numeral_of_ge hge, hb]; rfl,
        fun _ => hb48, fun _ => hb48⟩

/-! ## Literals -/

/-- Nothing follows, or a comma, or a closing bracket or brace. -/
def Delimited (rest : Bytes) : Prop := ∀ b ∈ rest.head?, b = 44 ∨ b = 93 ∨ b = 125

theorem digits_append_of_head {ds rest : Bytes} (hd : ∀ b ∈ ds, Bytes.isDigit b = true)
    (hr : ∀ b ∈ rest.head?, Bytes.isDigit b = false) : digits (ds ++ rest) = (ds, rest) := by
  have hstop : rest.takeWhile Bytes.isDigit = [] ∧ rest.dropWhile Bytes.isDigit = rest := by
    cases rest with
    | nil => exact ⟨rfl, rfl⟩
    | cons b rest => simp [hr b rfl]
  rw [digits, List.takeWhile_append_of_pos hd, List.dropWhile_append_of_pos hd, hstop.1, hstop.2,
    List.append_nil]

theorem digits_append {ds rest : Bytes} (hd : ∀ b ∈ ds, Bytes.isDigit b = true)
    (hr : Delimited rest) : digits (ds ++ rest) = (ds, rest) := by
  refine digits_append_of_head hd fun b hb => ?_
  rcases hr b hb with rfl | rfl | rfl <;> decide

theorem wholePart?_numeral (n : Nat) {rest : Bytes} (hr : Delimited rest) :
    wholePart? (numeral n ++ rest) = some (numeral n, rest) := by
  obtain ⟨b, ds, hn, hzero, _⟩ := numeral_head n
  have hd := digits_append (isDigit_numeral n) hr
  rw [hn] at hd ⊢
  rw [wholePart?, hd]
  cases ds with
  | nil => rfl
  | cons c ds =>
    have hb : b ≠ 48 := hzero (by simp)
    simp [hb]

theorem fractionPart?_delimited {rest : Bytes} (hr : Delimited rest) :
    fractionPart? rest = some ([], rest) := by
  cases rest with
  | nil => rfl
  | cons b rest => rcases hr b rfl with rfl | rfl | rfl <;> rfl

theorem exponentPart?_delimited {rest : Bytes} (hr : Delimited rest) :
    exponentPart? rest = some ([], rest) := by
  cases rest with
  | nil => rfl
  | cons b rest => rcases hr b rfl with rfl | rfl | rfl <;> rfl

theorem ofInt_negSucc (n : Nat) : ofInt (Int.negSucc n) = number (45 :: numeral (n + 1)) := by
  have hminus : Bytes.ofText "-" = [45] := by decide
  show number (Bytes.ofText ("-" ++ Nat.repr (n + 1))) = _
  rw [Bytes.ofText_append, hminus]
  rfl

theorem digit_ne_minus {b : UInt8} (h : Bytes.isDigit b = true) : b ≠ 45 := by
  rintro rfl
  exact absurd h (by decide)

/-- The bytes of an integer literal. -/
def literal (n : Int) : Bytes := Bytes.ofText (toString n)

theorem numberLiteral?_numeral (n : Nat) {rest : Bytes} (hr : Delimited rest) :
    numberLiteral? (numeral n ++ rest) = some (numeral n, rest) := by
  obtain ⟨b, ds, hn, _⟩ := numeral_head n
  have hb : b ≠ 45 := digit_ne_minus (isDigit_numeral n b (by rw [hn]; simp))
  have hw := wholePart?_numeral n hr
  rw [hn] at hw ⊢
  rw [List.cons_append] at hw ⊢
  unfold numberLiteral?
  split
  rename_i sign s heq
  split at heq
  · rename_i h45
    exact absurd (List.cons.inj h45).1 hb
  · cases heq
    simp only [hw, Option.bind_eq_bind, Option.bind_some, fractionPart?_delimited hr,
      exponentPart?_delimited hr]
    simp

theorem numberLiteral?_literal (n : Int) {rest : Bytes} (hr : Delimited rest) :
    numberLiteral? (literal n ++ rest) = some (literal n, rest) := by
  cases n with
  | ofNat n => exact numberLiteral?_numeral n hr
  | negSucc n =>
    have hl : literal (Int.negSucc n) = 45 :: numeral (n + 1) :=
      number.inj (ofInt_negSucc n)
    rw [hl, List.cons_append, numberLiteral?]
    simp only [wholePart?_numeral (n + 1) hr, Option.bind_eq_bind, Option.bind_some,
      fractionPart?_delimited hr, exponentPart?_delimited hr]
    simp

/-- A literal begins with a digit or a minus sign. -/
theorem literal_head (n : Int) : ∃ b rest, literal n = b :: rest ∧
    (b = 45 ∨ Bytes.isDigit b = true) := by
  cases n with
  | ofNat n =>
    obtain ⟨b, ds, hn, _⟩ := numeral_head n
    exact ⟨b, ds, hn, Or.inr (isDigit_numeral n b (by rw [hn]; simp))⟩
  | negSucc n => exact ⟨45, _, number.inj (ofInt_negSucc n), Or.inl rfl⟩

/-! ## Values -/

theorem asInt?_ofInt (n : Int) : asInt? (ofInt n) = some n := by
  cases n with
  | ofNat n =>
    obtain ⟨b, ds, hn, _⟩ := numeral_head n
    have hb : b ≠ 45 := digit_ne_minus (isDigit_numeral n b (by rw [hn]; simp))
    have hall : (numeral n).all Bytes.isDigit = true := List.all_eq_true.2 (isDigit_numeral n)
    have hvalue := decimal_numeral n
    show asInt? (number (numeral n)) = _
    rw [hn] at hall hvalue ⊢
    unfold asInt?
    simp only
    split
    · rename_i heq
      exact absurd (List.cons.inj heq).1 hb
    · rw [if_pos hall, hvalue]
      rfl
  | negSucc n =>
    have hall : (numeral (n + 1)).all Bytes.isDigit = true :=
      List.all_eq_true.2 (isDigit_numeral (n + 1))
    have hvalue := decimal_numeral (n + 1)
    have hne : (numeral (n + 1) != [48]) = true := by
      rw [bne_iff_ne]
      intro he
      rw [he] at hvalue
      have h48 : Bytes.decimal [48] = 0 := by decide
      omega
    rw [ofInt_negSucc, asInt?]
    simp only [hall, hne, Bool.and_self, ↓reduceIte, hvalue]
    rfl

theorem asInt64?_ofInt (v : Int64) : asInt64? (ofInt v.toInt) = some v := by
  have hbounds : Int64.minValue.toInt ≤ v.toInt ∧ v.toInt ≤ Int64.maxValue.toInt :=
    ⟨Int64.minValue_le_toInt v, Int64.toInt_le v⟩
  simp only [asInt64?, asInt?_ofInt, Option.bind_eq_bind, Option.bind_some]
  rw [if_pos hbounds, Int64.ofInt_toInt]

theorem asInt32?_ofInt (v : Int32) : asInt32? (ofInt v.toInt) = some v := by
  have hbounds : Int32.minValue.toInt ≤ v.toInt ∧ v.toInt ≤ Int32.maxValue.toInt :=
    ⟨Int32.minValue_le_toInt v, Int32.toInt_le v⟩
  simp only [asInt32?, asInt?_ofInt, Option.bind_eq_bind, Option.bind_some]
  rw [if_pos hbounds, Int32.ofInt_toInt]

theorem isText_literal (n : Int) : Bytes.IsText (literal n) := Bytes.isText_ofText _

end HeapTelemetry.Json
