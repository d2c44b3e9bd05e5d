import HeapTelemetry.Series.Block
import Mathlib.Data.List.TakeDrop

/-! Names of block files. The name of a block gives its number back, and the
name under which it is being written is temporary and no block's. -/

namespace HeapTelemetry

/-! ## Numerals -/

namespace Text

theorem natural?_digits (zeros n : Nat) :
    natural? (List.replicate zeros '0' ++ Nat.toDigits 10 n) = some n := by
  have hne : Nat.toDigits 10 n ≠ [] := Nat.toDigits_ne_nil
  have hdigits : (List.replicate zeros '0' ++ Nat.toDigits 10 n).all Char.isDigit = true := by
    rw [List.all_eq_true]
    intro c hc
    rcases List.mem_append.1 hc with h | h
    · rw [(List.mem_replicate.1 h).2]
      decide
    · exact Nat.isDigit_of_mem_toDigits (by decide) (by decide) h
  have hvalue : (List.replicate zeros '0' ++ Nat.toDigits 10 n).foldl
      (fun n c => 10 * n + (c.toNat - 48)) 0 = n := by
    show Nat.ofDigitChars 10 _ 0 = n
    rw [Nat.ofDigitChars_append, Nat.ofDigitChars_replicate_zero]
    exact Nat.ofDigitChars_ten_toDigits
  rw [natural?, hdigits, hvalue]
  simp [hne]

theorem digit_ne_plus {zeros n : Nat} :
    '+' ∉ List.replicate zeros '0' ++ Nat.toDigits 10 n := by
  intro h
  rcases List.mem_append.1 h with h | h
  · exact absurd (List.mem_replicate.1 h).2 (by decide)
  · have hd : Char.isDigit '+' = true := Nat.isDigit_of_mem_toDigits (by decide) (by decide) h
    exact absurd hd (by decide)

/-- A numeral with leading zeros reads as its number. -/
theorem unsigned64?_digits {zeros n : Nat} (h : n < UInt64.size) :
    unsigned64? (String.ofList (List.replicate zeros '0' ++ Nat.toDigits 10 n)) = some n := by
  rw [unsigned64?, String.toList_ofList]
  split
  · rename_i rest heq
    exact absurd (heq ▸ List.mem_cons_self) digit_ne_plus
  · rw [natural?_digits]
    simp [h]

end Text

namespace Block

/-! ## Splitting names -/

/-- A name splits at its last point. -/
theorem splitName_append {stem extension : List Char} (hs : stem ≠ []) (he : '.' ∉ extension) :
    splitName (String.ofList (stem ++ '.' :: extension)) =
      (String.ofList stem, some (String.ofList extension)) := by
  have hpoint : ∀ c ∈ extension.reverse, (decide (c ≠ '.')) = true := by
    intro c hc
    rw [decide_eq_true_eq]
    rintro rfl
    exact he (List.mem_reverse.1 hc)
  have hspan : (extension.reverse ++ '.' :: stem.reverse).span (fun c => decide (c ≠ '.')) =
      (extension.reverse, '.' :: stem.reverse) := by
    rw [List.span_eq_takeWhile_dropWhile, List.takeWhile_append_of_pos hpoint,
      List.dropWhile_append_of_pos hpoint]
    simp
  have hne : stem.reverse.isEmpty = false := by simp [hs]
  simp only [splitName, String.toList_ofList, List.reverse_append, List.reverse_cons,
    List.append_assoc, List.singleton_append, hspan, hne]
  simp

theorem toList_pushn (s : String) (c : Char) (n : Nat) :
    (s.pushn c n).toList = s.toList ++ List.replicate n c := by
  rw [String.pushn_eq_repeat_push]
  induction n with
  | zero => simp [Nat.repeat]
  | succ n ih => rw [Nat.repeat, String.toList_push, ih, List.replicate_succ', List.append_assoc]

theorem fileName_eq (id : Nat) (extension : String) : ∃ zeros,
    fileName id extension =
      String.ofList ((List.replicate zeros '0' ++ Nat.toDigits 10 id) ++ '.' :: extension.toList) := by
  refine ⟨8 - (toString id).length, ?_⟩
  apply String.toList_injective
  have hdigits : (toString id).toList = Nat.toDigits 10 id := Nat.toList_repr
  simp only [fileName, String.toList_append, toList_pushn, hdigits, String.toList_ofList]
  simp

theorem splitName_fileName (id : Nat) (extension : String) (he : '.' ∉ extension.toList) :
    ∃ zeros, splitName (fileName id extension) =
      (String.ofList (List.replicate zeros '0' ++ Nat.toDigits 10 id), some extension) := by
  obtain ⟨zeros, h⟩ := fileName_eq id extension
  refine ⟨zeros, ?_⟩
  rw [h, splitName_append (by simp [Nat.toDigits_ne_nil]) he, String.ofList_toList]

/-! ## Blocks and temporaries -/

theorem id?_block {id : Nat} (h : id < UInt64.size) : id? (fileName id "blk") = some id := by
  obtain ⟨zeros, hsplit⟩ := splitName_fileName id "blk" (by decide)
  rw [id?, hsplit]
  exact Text.unsigned64?_digits h

theorem not_temporary_block (id : Nat) : isTemporary (fileName id "blk") = false := by
  obtain ⟨zeros, hsplit⟩ := splitName_fileName id "blk" (by decide)
  rw [isTemporary, hsplit]
  rfl

theorem isTemporary_temporary (id : Nat) : isTemporary (fileName id "tmp") = true := by
  obtain ⟨zeros, hsplit⟩ := splitName_fileName id "tmp" (by decide)
  rw [isTemporary, hsplit]
  rfl

/-- What is temporary is no block. -/
theorem id?_of_temporary {name : String} (h : isTemporary name = true) : id? name = none := by
  rw [isTemporary, beq_iff_eq] at h
  rw [id?]
  split
  · rename_i heq
    rw [heq] at h
    exact absurd (Option.some.inj h) (by decide)
  · rfl

theorem fileName_injective {i j : Nat} (h : fileName i "blk" = fileName j "blk") : i = j := by
  obtain ⟨zeros, hi⟩ := splitName_fileName i "blk" (by decide)
  obtain ⟨zeros', hj⟩ := splitName_fileName j "blk" (by decide)
  rw [h, hj] at hi
  have hdigits := String.ofList_inj.1 (Prod.mk.inj hi).1
  have hnumber := Text.natural?_digits zeros i
  rw [← hdigits, Text.natural?_digits] at hnumber
  exact (Option.some.inj hnumber).symm

end Block
end HeapTelemetry
