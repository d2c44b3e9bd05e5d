import HeapTelemetry.Proofs.Json.Strings

/-! Texts stand in the order of their bytes: a character with a larger code point has the
larger encoding, whatever follows it. -/

namespace HeapTelemetry.Bytes

/-- Encodings of different characters differ in a byte, and there as the characters do. The
cases are the four lengths of an encoding. -/
theorem utf8EncodeChar_lt {c d : Char} (h : c < d) (x y : Bytes) :
    String.utf8EncodeChar c ++ x < String.utf8EncodeChar d ++ y := by
  have hlt : c.val.toNat < d.val.toNat := UInt32.lt_iff_toNat_lt.1 h
  have hmax : d.val.toNat < 0x110000 := by
    rcases d.valid with hd | ⟨_, hd⟩ <;> omega
  have hfirst : ∀ {m n : Nat} {x y : Bytes}, m < n → n < 256 →
      UInt8.ofNat m :: x < UInt8.ofNat n :: y := by
    intro m n x y hmn hn
    refine List.cons_lt_cons_iff.2 (Or.inl ?_)
    rw [UInt8.lt_iff_toNat_lt, UInt8.toNat_ofNat', UInt8.toNat_ofNat']
    omega
  have hnext : ∀ {m n : Nat} {x y : Bytes}, m ≤ n → n < 256 → (m = n → x < y) →
      UInt8.ofNat m :: x < UInt8.ofNat n :: y := by
    intro m n x y hmn hn hxy
    rcases Nat.lt_or_eq_of_le hmn with hmn | rfl
    · exact hfirst hmn hn
    · exact List.cons_lt_cons_iff.2 (Or.inr ⟨rfl, hxy rfl⟩)
  simp only [String.utf8EncodeChar]
  by_cases hc1 : c.val.toNat ≤ 0x7f
  · rw [if_pos hc1]
    split
    · exact hfirst hlt (by omega)
    split
    · exact hfirst (by omega) (by omega)
    split <;> exact hfirst (by omega) (by omega)
  rw [if_neg hc1, if_neg (by omega : ¬ d.val.toNat ≤ 0x7f)]
  by_cases hc2 : c.val.toNat ≤ 0x7ff
  · rw [if_pos hc2]
    split
    · refine hnext (by omega) (by omega) fun _ => hfirst (by omega) (by omega)
    split <;> exact hfirst (by omega) (by omega)
  rw [if_neg hc2, if_neg (by omega : ¬ d.val.toNat ≤ 0x7ff)]
  by_cases hc3 : c.val.toNat ≤ 0xffff
  · rw [if_pos hc3]
    split
    · refine hnext (by omega) (by omega) fun _ => hnext (by omega) (by omega) fun _ => ?_
      exact hfirst (by omega) (by omega)
    · exact hfirst (by omega) (by omega)
  rw [if_neg hc3, if_neg (by omega : ¬ d.val.toNat ≤ 0xffff)]
  refine hnext (by omega) (by omega) fun _ => hnext (by omega) (by omega) fun _ => ?_
  exact hnext (by omega) (by omega) fun _ => hfirst (by omega) (by omega)

/-- Texts in ascending order have ascending bytes. -/
theorem ofText_lt {s t : String} (h : s < t) : ofText s < ofText t := by
  have h : s.toList < t.toList := h
  rw [← String.ofList_toList (s := s), ← String.ofList_toList (s := t), ofText_ofList, ofText_ofList]
  generalize s.toList = cs at h ⊢
  generalize t.toList = ds at h ⊢
  induction cs generalizing ds with
  | nil =>
    cases ds with
    | nil => exact absurd h (List.lt_irrefl _)
    | cons d ds =>
      obtain ⟨b, rest, hd⟩ := List.exists_cons_of_ne_nil (utf8EncodeChar_ne_nil d)
      rw [List.flatMap_cons, hd]
      exact List.nil_lt_cons _ _
  | cons c cs ih =>
    cases ds with
    | nil => exact absurd h (List.not_lt_nil _)
    | cons d ds =>
      rw [List.flatMap_cons, List.flatMap_cons]
      rcases List.cons_lt_cons_iff.1 h with hcd | ⟨rfl, hrest⟩
      · exact utf8EncodeChar_lt hcd _ _
      · exact List.append_left_lt (ih ds hrest)

end HeapTelemetry.Bytes
