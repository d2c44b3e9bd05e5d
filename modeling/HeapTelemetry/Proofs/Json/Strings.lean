import HeapTelemetry.Json.Parser

/-! Escaped strings read back, and stay well-formed text: an escape only puts
ASCII in the place of ASCII. -/

namespace HeapTelemetry

/-! ## Escapes -/

namespace Json

/-- The three shapes in which a byte is written. -/
theorem escapeByte_cases (b : UInt8) :
    (∃ letter, escapeByte b = [92, letter] ∧ letter ≠ 117 ∧ unescapeLetter? letter = some b) ∨
    (∃ high low, escapeByte b = [92, 117, 48, 48, high, low] ∧
      codeUnit? 48 48 high low = some b.toNat ∧ b.toNat < 32) ∨
    (escapeByte b = [b] ∧ ¬ b < 32 ∧ b ≠ 34 ∧ b ≠ 92) := by
  have hshort : ∀ n < 32, ∀ letter, shortEscape? (UInt8.ofNat n) = some letter →
      letter ≠ 117 ∧ unescapeLetter? letter = some (UInt8.ofNat n) := by decide +kernel
  have hlong : ∀ n < 32, codeUnit? 48 48 (hexDigit (n / 16)) (hexDigit (n % 16)) = some n := by
    decide +kernel
  by_cases hquote : b = 34 ∨ b = 92
  · left
    refine ⟨b, by rw [escapeByte, if_pos hquote], ?_⟩
    rcases hquote with rfl | rfl <;> decide
  · by_cases hcontrol : b < 32
    · have hn : b.toNat < 32 := UInt8.lt_iff_toNat_lt.1 hcontrol
      have hb : UInt8.ofNat b.toNat = b := UInt8.ofNat_toNat
      cases hs : shortEscape? b with
      | some letter =>
        left
        refine ⟨letter, by rw [escapeByte, if_neg hquote, if_pos hcontrol, hs], ?_⟩
        have hl := hshort b.toNat hn letter (by rw [hb, hs])
        rwa [hb] at hl
      | none =>
        right; left
        exact ⟨_, _, by rw [escapeByte, if_neg hquote, if_pos hcontrol, hs], hlong b.toNat hn, hn⟩
    · right; right
      refine ⟨by rw [escapeByte, if_neg hquote, if_neg hcontrol], hcontrol, ?_, ?_⟩
      · exact fun h => hquote (Or.inl h)
      · exact fun h => hquote (Or.inr h)

theorem rawString?_letter {letter : UInt8} (h : letter ≠ 117) (rest : Bytes) :
    rawString? (92 :: letter :: rest) =
      if (unescapeLetter? letter).isSome then
        (rawString? rest).map fun (raw, r) => (92 :: letter :: raw, r)
      else none := by
  rw [rawString?]
  simp [h]

theorem rawString?_plain {b : UInt8} (hc : ¬ b < 32) (hq : b ≠ 34) (hs : b ≠ 92) (rest : Bytes) :
    rawString? (b :: rest) = (rawString? rest).map fun (raw, r) => (b :: raw, r) := by
  rw [rawString?]
  · simp [hc, hs]
  all_goals simp_all

theorem unescape?_letter {letter : UInt8} (h : letter ≠ 117) (rest : Bytes) :
    unescape? (92 :: letter :: rest) = do
      return (← unescapeLetter? letter) :: (← unescape? rest) := by
  rw [unescape?]
  simp [h]

theorem unescape?_plain {b : UInt8} (hs : b ≠ 92) (rest : Bytes) :
    unescape? (b :: rest) = (unescape? rest).map (b :: ·) := by
  rw [unescape?]
  · simp [hs]
  all_goals simp_all

theorem escape_cons (b : UInt8) (bs : Bytes) : escape (b :: bs) = escapeByte b ++ escape bs := rfl

/-- An escaped byte is read in one piece. -/
theorem rawString?_escapeByte (b : UInt8) (rest : Bytes) : rawString? (escapeByte b ++ rest) =
    (rawString? rest).map fun (raw, r) => (escapeByte b ++ raw, r) := by
  rcases escapeByte_cases b with ⟨letter, he, hu, hl⟩ | ⟨high, low, he, hl, _⟩ | ⟨he, hc, hq, hs⟩
  · rw [he]
    show rawString? (92 :: letter :: rest) = _
    rw [rawString?_letter hu, hl]
    rfl
  · rw [he]
    show rawString? (92 :: 117 :: 48 :: 48 :: high :: low :: rest) = _
    rw [rawString?, hl]
    rfl
  · rw [he]
    exact rawString?_plain hc hq hs rest

/-- The quote behind an escaped string is its end. -/
theorem rawString?_escape (bs rest : Bytes) :
    rawString? (escape bs ++ 34 :: rest) = some (escape bs, rest) := by
  induction bs with
  | nil => rfl
  | cons b bs ih =>
    rw [escape_cons, List.append_assoc, rawString?_escapeByte, ih]
    rfl

theorem encodePoint_ascii {b : UInt8} (h : b.toNat < 32) : encodePoint b.toNat = [b] := by
  have hlt : b.toNat < 0x80 := by omega
  rw [encodePoint, if_pos hlt, List.map_singleton, UInt8.ofNat_toNat]

theorem unescape?_escape (bs : Bytes) : unescape? (escape bs) = some bs := by
  induction bs with
  | nil => rfl
  | cons b bs ih =>
    rw [escape_cons]
    rcases escapeByte_cases b with ⟨letter, he, hu, hl⟩ | ⟨high, low, he, hl, hb⟩ | ⟨he, _, _, hs⟩
    · rw [he]
      show unescape? (92 :: letter :: escape bs) = _
      rw [unescape?_letter hu, hl, ih]
      rfl
    · have hnolow : isLowSurrogate b.toNat = false := by
        simp only [isLowSurrogate, Bool.and_eq_false_iff, decide_eq_false_iff_not]
        omega
      have hnohigh : isHighSurrogate b.toNat = false := by
        simp only [isHighSurrogate, Bool.and_eq_false_iff, decide_eq_false_iff_not]
        omega
      rw [he]
      show unescape? (92 :: 117 :: 48 :: 48 :: high :: low :: escape bs) = _
      rw [unescape?, hl]
      simp only [Option.bind_eq_bind, Option.bind_some, hnolow, hnohigh, ih,
        encodePoint_ascii hb]
      rfl
    · rw [he]
      show unescape? (b :: escape bs) = _
      rw [unescape?_plain hs, ih]
      rfl

/-- A text reads back from the inside of its string. -/
theorem text?_ofText (s : String) : text? (ofText s) = some s := by
  rw [text?, ofText, unescape?_escape, Option.bind_some, Bytes.text?_ofText]

end Json

/-! ## Well-formed text -/

namespace Bytes

/-- The bytes are the UTF-8 of a text. -/
def IsText (b : Bytes) : Prop := ∃ s, ofText s = b

theorem isText_ofText (s : String) : IsText (ofText s) := ⟨s, rfl⟩

theorem ofText_append (s t : String) : ofText (s ++ t) = ofText s ++ ofText t := by
  simp [ofText]

theorem ofText_ofList (cs : List Char) :
    ofText (String.ofList cs) = cs.flatMap String.utf8EncodeChar := by
  simp [ofText, List.utf8Encode]

theorem IsText.append {a b : Bytes} (ha : IsText a) (hb : IsText b) : IsText (a ++ b) := by
  obtain ⟨s, rfl⟩ := ha
  obtain ⟨t, rfl⟩ := hb
  exact ⟨s ++ t, ofText_append s t⟩

theorem isText_flatMap {α : Type} {xs : List α} {f : α → Bytes} (h : ∀ x ∈ xs, IsText (f x)) :
    IsText (xs.flatMap f) := by
  induction xs with
  | nil => exact isText_ofText ""
  | cons x xs ih =>
    rw [List.flatMap_cons]
    exact (h x List.mem_cons_self).append (ih fun y hy => h y (List.mem_cons_of_mem x hy))

theorem utf8EncodeChar_ascii {b : UInt8} (h : b.toNat < 128) :
    ∃ c, String.utf8EncodeChar c = [b] := by
  have hvalid : b.toUInt32.isValidChar := by
    left
    rw [UInt8.toNat_toUInt32]
    omega
  refine ⟨⟨b.toUInt32, hvalid⟩, ?_⟩
  have hle : b.toUInt32.toNat ≤ 0x7f := by
    rw [UInt8.toNat_toUInt32]
    omega
  rw [String.utf8EncodeChar]
  simp only [hle, ↓reduceIte]
  simp

/-- A character is one ASCII byte, or has none. -/
theorem utf8EncodeChar_cases (c : Char) :
    (∃ b, String.utf8EncodeChar c = [b] ∧ b.toNat < 128) ∨
      ∀ b ∈ String.utf8EncodeChar c, 128 ≤ b.toNat := by
  rw [String.utf8EncodeChar]
  split
  · rename_i hle
    refine Or.inl ⟨_, rfl, ?_⟩
    rw [UInt8.toNat_ofNat']
    omega
  · right
    split
    · intro b hb
      simp only [List.mem_cons, List.not_mem_nil, or_false] at hb
      rcases hb with rfl | rfl <;> rw [UInt8.toNat_ofNat'] <;> omega
    · split
      · intro b hb
        simp only [List.mem_cons, List.not_mem_nil, or_false] at hb
        rcases hb with rfl | rfl | rfl <;> rw [UInt8.toNat_ofNat'] <;> omega
      · intro b hb
        simp only [List.mem_cons, List.not_mem_nil, or_false] at hb
        rcases hb with rfl | rfl | rfl | rfl <;> rw [UInt8.toNat_ofNat'] <;> omega

theorem utf8EncodeChar_ne_nil (c : Char) : String.utf8EncodeChar c ≠ [] := by
  rw [← List.length_pos_iff, String.length_utf8EncodeChar]
  exact c.utf8Size_pos

theorem isText_of_ascii {bs : Bytes} (h : ∀ b ∈ bs, b.toNat < 128) : IsText bs := by
  induction bs with
  | nil => exact isText_ofText ""
  | cons b bs ih =>
    obtain ⟨c, hc⟩ := utf8EncodeChar_ascii (h b List.mem_cons_self)
    have hone : IsText [b] := ⟨String.ofList [c], by rw [ofText_ofList]; simpa using hc⟩
    exact hone.append (ih fun x hx => h x (List.mem_cons_of_mem b hx))

theorem escapeByte_ascii {b : UInt8} (h : b.toNat < 128) :
    ∀ x ∈ Json.escapeByte b, x.toNat < 128 := by
  have hall : ∀ n < 128, (Json.escapeByte (UInt8.ofNat n)).all (·.toNat < 128) = true := by
    decide +kernel
  have hb := List.all_eq_true.1 (hall b.toNat h)
  rw [UInt8.ofNat_toNat] at hb
  exact fun x hx => of_decide_eq_true (hb x hx)

theorem escapeByte_high {b : UInt8} (h : 128 ≤ b.toNat) : Json.escapeByte b = [b] := by
  have hquote : ¬ (b = 34 ∨ b = 92) := by
    rintro (rfl | rfl) <;> exact absurd h (by decide)
  have hcontrol : ¬ b < 32 := by
    rw [UInt8.lt_iff_toNat_lt]
    have h32 : (32 : UInt8).toNat = 32 := rfl
    omega
  rw [Json.escapeByte, if_neg hquote, if_neg hcontrol]

theorem escape_high {bs : Bytes} (h : ∀ b ∈ bs, 128 ≤ b.toNat) : Json.escape bs = bs := by
  induction bs with
  | nil => rfl
  | cons b bs ih =>
    rw [Json.escape_cons, escapeByte_high (h b List.mem_cons_self),
      ih fun x hx => h x (List.mem_cons_of_mem b hx)]
    rfl

/-- Escaping keeps text well formed. -/
theorem IsText.escape {b : Bytes} (h : IsText b) : IsText (Json.escape b) := by
  obtain ⟨s, rfl⟩ := h
  have hs : ofText s = s.toList.flatMap String.utf8EncodeChar := by
    rw [← ofText_ofList, String.ofList_toList]
  rw [hs, Json.escape, List.flatMap_assoc]
  apply isText_flatMap
  intro c _
  rcases utf8EncodeChar_cases c with ⟨b, hc, hb⟩ | hhigh
  · rw [hc, List.flatMap_singleton]
    exact isText_of_ascii (escapeByte_ascii hb)
  · have hsame : (String.utf8EncodeChar c).flatMap Json.escapeByte = String.utf8EncodeChar c :=
      escape_high hhigh
    rw [hsame]
    exact ⟨String.ofList [c], by rw [ofText_ofList]; simp⟩

theorem isText_string (s : String) : IsText (Json.ofText s) := (isText_ofText s).escape

/-- The text of well-formed bytes has these bytes. -/
theorem IsText.text? {b : Bytes} (h : IsText b) : ∃ s, text? b = some s ∧ ofText s = b := by
  obtain ⟨s, rfl⟩ := h
  exact ⟨s, text?_ofText s, rfl⟩

end Bytes
end HeapTelemetry
