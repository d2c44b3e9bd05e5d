import HeapTelemetry.Proofs.Json.Measurements

/-! Documents at the end of a line. Whether a line is read with its newline or without
it makes no difference to what is parsed, and neither do steps beyond those that its
length asks for. -/

namespace HeapTelemetry.Json

/-- What may stand behind the last byte of a line. -/
def Ending (t : Bytes) : Prop := t = [] ∨ t = [Bytes.newline]

/-- A reader of `s ++ t` does as a reader of `s`, and leaves `t` behind the rest. -/
structure Follows {α : Type} (t s : Bytes) (x y : Option (α × Bytes)) : Prop where
  same : y = x.map fun p => (p.1, p.2 ++ t)
  shorter : ∀ p ∈ x, p.2.length ≤ s.length

namespace Follows
variable {α β : Type} {t s r : Bytes} {x y : Option (α × Bytes)}

theorem none : Follows t s (none : Option (α × Bytes)) .none := ⟨rfl, fun _ hp => nomatch hp⟩

theorem some (v : α) (h : r.length ≤ s.length) : Follows t s (.some (v, r)) (.some (v, r ++ t)) :=
  ⟨rfl, fun _ hp => Option.some.inj hp ▸ h⟩

theorem mono (h : Follows t r x y) (hr : r.length ≤ s.length) : Follows t s x y :=
  ⟨h.same, fun p hp => Nat.le_trans (h.shorter p hp) hr⟩

theorem bind {k k' : α × Bytes → Option (β × Bytes)} (h : Follows t s x y)
    (hk : ∀ v r, r.length ≤ s.length → Follows t s (k (v, r)) (k' (v, r ++ t))) :
    Follows t s (x.bind k) (y.bind k') := by
  obtain ⟨rfl, hshorter⟩ := h
  cases x with
  | none => exact none
  | some p => exact hk p.1 p.2 (hshorter p rfl)

theorem map (h : Follows t s x y) (f : α → β) :
    Follows t s (x.map fun p => (f p.1, p.2)) (y.map fun p => (f p.1, p.2)) := by
  obtain ⟨rfl, hshorter⟩ := h
  cases x with
  | none => exact none
  | some p => exact some (f p.1) (hshorter p rfl)

end Follows

variable {t : Bytes}

/-! ## Scalars -/

theorem skipSpace_ending (ht : Ending t) (s : Bytes) :
    skipSpace s = [] ∧ skipSpace (s ++ t) = [] ∨
      ∃ b rest, skipSpace s = b :: rest ∧ skipSpace (s ++ t) = b :: (rest ++ t) ∧
        rest.length < s.length := by
  have hnothing : skipSpace t = [] := by
    rcases ht with rfl | rfl <;> rfl
  induction s with
  | nil => exact Or.inl ⟨rfl, hnothing⟩
  | cons b s ih =>
    by_cases hb : isSpace b
    · have hskip : ∀ s, skipSpace (b :: s) = skipSpace s := fun s => by simp [skipSpace, hb]
      rw [List.cons_append, hskip, hskip]
      refine ih.imp_right ?_
      rintro ⟨b', rest, hs, hst, hlt⟩
      exact ⟨b', rest, hs, hst, Nat.lt_succ_of_lt hlt⟩
    · rw [Bool.not_eq_true] at hb
      rw [List.cons_append, skipSpace_cons hb, skipSpace_cons hb]
      exact Or.inr ⟨b, s, rfl, rfl, Nat.lt_succ_self _⟩

theorem digits_ending (ht : Ending t) (s : Bytes) :
    digits (s ++ t) = ((digits s).1, (digits s).2 ++ t) := by
  induction s with
  | nil => rcases ht with rfl | rfl <;> rfl
  | cons b s ih =>
    simp only [digits, Prod.mk.injEq] at ih ⊢
    by_cases hb : Bytes.isDigit b <;> simp [hb, ih]

theorem length_digits_le (s : Bytes) : (digits s).2.length ≤ s.length :=
  (List.dropWhile_sublist _).length_le

theorem wholePart?_ending (ht : Ending t) (s : Bytes) :
    Follows t s (wholePart? s) (wholePart? (s ++ t)) := by
  have hlength := length_digits_le s
  simp only [wholePart?, digits_ending ht]
  split
  · exact Follows.none
  · exact Follows.some _ hlength
  · split
    · exact Follows.none
    · exact Follows.some _ hlength

theorem fractionPart?_ending (ht : Ending t) (s : Bytes) :
    Follows t s (fractionPart? s) (fractionPart? (s ++ t)) := by
  have hplain : ∀ {b : UInt8} {rest : Bytes}, b ≠ 46 →
      fractionPart? (b :: rest) = some ([], b :: rest) := by
    intro b rest hb
    rw [fractionPart?]
    exact fun rest' heq => hb (List.cons.inj heq).1
  cases s with
  | nil => rcases ht with rfl | rfl <;> exact ⟨rfl, fun p hp => by cases hp; exact Nat.le_refl _⟩
  | cons b s =>
    by_cases hb : b = 46
    · subst hb
      have hlength := length_digits_le s
      simp only [List.cons_append, fractionPart?, digits_ending ht]
      split
      · exact Follows.none
      · exact Follows.some _ (Nat.le_succ_of_le hlength)
    · rw [List.cons_append, hplain hb, hplain hb]
      exact Follows.some _ (Nat.le_refl _)

theorem exponentPart?_ending (ht : Ending t) (s : Bytes) :
    Follows t s (exponentPart? s) (exponentPart? (s ++ t)) := by
  cases s with
  | nil => rcases ht with rfl | rfl <;> exact ⟨rfl, fun p hp => by cases hp; exact Nat.le_refl _⟩
  | cons e s =>
    simp only [List.cons_append, exponentPart?]
    split
    case isFalse => exact Follows.some _ (Nat.le_refl _)
    case isTrue =>
      have hread : ∀ sign s', s'.length ≤ s.length →
          Follows t (e :: s) (if (digits s').1.isEmpty then none
              else some (e :: sign ++ (digits s').1, (digits s').2))
            (if (digits (s' ++ t)).1.isEmpty then none
              else some (e :: sign ++ (digits (s' ++ t)).1, (digits (s' ++ t)).2)) := by
        intro sign s' hs'
        have hlength := length_digits_le s'
        rw [digits_ending ht]
        split
        · exact Follows.none
        · exact Follows.some _ (by simp only [List.length_cons]; omega)
      cases s with
      | nil => rcases ht with rfl | rfl <;> exact Follows.none
      | cons c s =>
        by_cases hc : c = 43 ∨ c = 45
        · have hsign := hread [c] s (Nat.le_succ _)
          simpa only [List.cons_append, if_pos hc] using hsign
        · have hplain := hread [] (c :: s) (Nat.le_refl _)
          simpa only [List.cons_append, if_neg hc] using hplain

theorem numberLiteral?_ending (ht : Ending t) (s : Bytes) :
    Follows t s (numberLiteral? s) (numberLiteral? (s ++ t)) := by
  have hparts : ∀ sign s', s'.length ≤ s.length → Follows t s
      ((wholePart? s').bind fun w => (fractionPart? w.2).bind fun f => (exponentPart? f.2).bind
        fun e => some (sign ++ w.1 ++ f.1 ++ e.1, e.2))
      ((wholePart? (s' ++ t)).bind fun w => (fractionPart? w.2).bind fun f =>
        (exponentPart? f.2).bind fun e => some (sign ++ w.1 ++ f.1 ++ e.1, e.2)) := by
    intro sign s' hs'
    refine Follows.mono ?_ hs'
    refine (wholePart?_ending ht s').bind fun w r hw => Follows.mono ?_ hw
    refine (fractionPart?_ending ht r).bind fun f r' hf => Follows.mono ?_ hf
    exact (exponentPart?_ending ht r').bind fun e r'' he => Follows.some _ he
  cases s with
  | nil => rcases ht with rfl | rfl <;> exact Follows.none
  | cons b s =>
    by_cases hb : b = 45
    · subst hb
      exact hparts [45] s (Nat.le_succ _)
    · have hunsigned : ∀ rest, numberLiteral? (b :: rest) =
          (wholePart? (b :: rest)).bind fun w => (fractionPart? w.2).bind fun f =>
            (exponentPart? f.2).bind fun e => some ([] ++ w.1 ++ f.1 ++ e.1, e.2) := by
        intro rest
        rw [numberLiteral?]
        · rfl
        · exact fun r heq => hb (List.cons.inj heq).1
      rw [List.cons_append, hunsigned, hunsigned]
      exact hparts [] (b :: s) (Nat.le_refl _)

theorem word?_ending (ht : Ending t) {w : String} (hw : Bytes.newline ∉ Bytes.ofText w)
    (v : Json) (s : Bytes) :
    Follows t s ((word? w s).map fun r => (v, r)) ((word? w (s ++ t)).map fun r => (v, r)) := by
  have hlength : (s.drop (Bytes.ofText w).length).length ≤ s.length := by
    rw [List.length_drop]
    exact Nat.sub_le _ _
  simp only [word?]
  by_cases hfits : (Bytes.ofText w).length ≤ s.length
  · rw [List.take_append_of_le_length hfits, List.drop_append_of_le_length hfits]
    split
    · exact Follows.some v hlength
    · exact Follows.none
  · -- A word that does not fit into the line would have to end in the newline.
    rw [Nat.not_le] at hfits
    have hshort : s.take (Bytes.ofText w).length ≠ Bytes.ofText w := by
      intro h
      have hlen := congrArg List.length h
      rw [List.length_take] at hlen
      omega
    have hlong : (s ++ t).take (Bytes.ofText w).length ≠ Bytes.ofText w := by
      intro h
      rcases ht with rfl | rfl
      · rw [List.append_nil] at h
        exact hshort h
      · rw [List.take_of_length_le (by simp; omega)] at h
        exact hw (h ▸ List.mem_append_right s List.mem_cons_self)
    rw [if_neg hshort, if_neg hlong]
    exact Follows.none

theorem codeUnit?_newline (a b c : UInt8) : codeUnit? a b c Bytes.newline = none := by
  have hdigit : hexValue? Bytes.newline = none := by decide
  simp [codeUnit?, hdigit]

theorem rawString?_control {b : UInt8} (hb : b < 32) (rest : Bytes) :
    rawString? (b :: rest) = none := by
  have hplain : ¬ (34 : UInt8) < 32 ∧ ¬ (92 : UInt8) < 32 := by decide
  rw [rawString?, if_pos (Or.inl hb)]
  · rintro rfl
    exact hplain.1 hb
  · rintro _ _ _ _ _ rfl
    exact absurd hb hplain.2
  · rintro _ _ rfl
    exact absurd hb hplain.2

/-- A backslash before anything that completes no escape ends the string early. -/
theorem rawString?_escape_none {letter : UInt8} {rest : Bytes}
    (hl : (unescapeLetter? letter).isSome = false)
    (hu : ∀ a b c d tail, letter = 117 → rest = a :: b :: c :: d :: tail →
      (codeUnit? a b c d).isSome = false) : rawString? (92 :: letter :: rest) = none := by
  by_cases h : ∃ a b c d tail, letter = 117 ∧ rest = a :: b :: c :: d :: tail
  · obtain ⟨a, b, c, d, tail, rfl, rfl⟩ := h
    rw [rawString?, hu a b c d tail rfl rfl]
    rfl
  · rw [rawString?, hl]
    · rfl
    · exact fun a b c d tail h1 h2 => h ⟨a, b, c, d, tail, h1, h2⟩

theorem rawString?_ending (ht : Ending t) (s : Bytes) :
    Follows t s (rawString? s) (rawString? (s ++ t)) := by
  induction s using rawString?.induct with
  | case1 => rcases ht with rfl | rfl <;> exact Follows.none
  | case2 rest => exact Follows.some [] (Nat.le_succ _)
  | case3 a b c d rest hunit ih =>
    simp only [List.cons_append, rawString?, if_pos hunit]
    refine Follows.mono (ih.map (92 :: 117 :: a :: b :: c :: d :: ·)) ?_
    simp only [List.length_cons]
    omega
  | case4 a b c d rest hunit =>
    simp only [List.cons_append, rawString?, if_neg hunit]
    exact Follows.none
  | case5 letter rest _ hl ih =>
    have hletter : letter ≠ 117 := by
      rintro rfl
      cases hl
    simp only [List.cons_append, rawString?_letter hletter, if_pos hl]
    refine Follows.mono (ih.map (92 :: letter :: ·)) ?_
    simp only [List.length_cons]
    omega
  | case6 letter rest hshort hl =>
    rw [Bool.not_eq_true] at hl
    have hnone : rawString? (92 :: letter :: rest) = none :=
      rawString?_escape_none hl fun a b c d tail h1 h2 => (hshort a b c d tail h1 h2).elim
    have hnewline : rawString? (92 :: letter :: (rest ++ t)) = none := by
      -- The newline is no digit, so it does not make up for one that is missing.
      refine rawString?_escape_none hl fun a b c d tail h1 h2 => ?_
      rcases ht with rfl | rfl
      · exact (hshort a b c d tail h1 (by rwa [List.append_nil] at h2)).elim
      · rcases rest with _ | ⟨x, _ | ⟨y, _ | ⟨z, _ | ⟨u, more⟩⟩⟩⟩
        · cases h2
        · cases h2
        · cases h2
        · cases h2
          rw [codeUnit?_newline]
          rfl
        · exact (hshort x y z u more h1 rfl).elim
    rw [List.cons_append, List.cons_append, hnone, hnewline]
    exact Follows.none
  | case7 b rest hquote _ hescape hb =>
    rcases hb with hb | rfl
    · rw [List.cons_append, rawString?_control hb, rawString?_control hb]
      exact Follows.none
    · cases rest with
      | nil => rcases ht with rfl | rfl <;> exact Follows.none
      | cons letter rest => exact (hescape letter rest rfl rfl).elim
  | case8 b rest hquote _ _ hb ih =>
    obtain ⟨hcontrol, hslash⟩ := not_or.1 hb
    simp only [List.cons_append, rawString?_plain hcontrol hquote hslash]
    exact Follows.mono (ih.map (b :: ·)) (Nat.le_succ _)

/-! ## Documents -/

/-- With steps enough for `s` both ways, values, items and members are read alike. -/
structure Reads (t : Bytes) (fuel : Nat) : Prop where
  value : ∀ more s, 2 * s.length + 1 ≤ fuel → 2 * s.length + 1 ≤ more →
    Follows t s (value? fuel s) (value? more (s ++ t))
  items : ∀ more s, 2 * s.length + 2 ≤ fuel → 2 * s.length + 2 ≤ more →
    Follows t s (items? fuel s) (items? more (s ++ t))
  members : ∀ more s, 2 * s.length + 2 ≤ fuel → 2 * s.length + 2 ≤ more →
    Follows t s (members? fuel s) (members? more (s ++ t))

theorem value?_nil (fuel : Nat) : value? fuel [] = none := by
  cases fuel <;> rfl

theorem items?_nil (fuel : Nat) : items? fuel [] = none := by
  cases fuel with
  | zero => rfl
  | succ fuel =>
    rw [items?, value?_nil]
    rfl

theorem members?_nil (fuel : Nat) : members? fuel [] = none := by
  cases fuel <;> rfl

theorem Reads.succ_items (ht : Ending t) {fuel : Nat} (h : Reads t fuel) (more : Nat) (s : Bytes)
    (hf : 2 * s.length + 2 ≤ fuel + 1) (hm : 2 * s.length + 2 ≤ more + 1) :
    Follows t s (items? (fuel + 1) s) (items? (more + 1) (s ++ t)) := by
  rw [items?, items?]
  refine (h.value more s (by omega) (by omega)).bind fun v r hr => ?_
  rcases skipSpace_ending ht r with ⟨hs, hst⟩ | ⟨b, rest, hs, hst, hlt⟩
  · simp only [hs, hst]
    exact Follows.none
  · simp only [hs, hst]
    by_cases hclose : b = 93
    · subst hclose
      exact Follows.some [v] (by omega)
    by_cases hcomma : b = 44
    · subst hcomma
      refine Follows.mono ((h.items more rest (by omega) (by omega)).bind fun vs r' hr' => ?_)
        (by omega)
      exact Follows.some (v :: vs) hr'
    · simp only [List.cons.injEq, hclose, hcomma, false_and, imp_self, implies_true]
      exact Follows.none

theorem Reads.succ_members (ht : Ending t) {fuel : Nat} (h : Reads t fuel) (more : Nat) (s : Bytes)
    (hf : 2 * s.length + 2 ≤ fuel + 1) (hm : 2 * s.length + 2 ≤ more + 1) :
    Follows t s (members? (fuel + 1) s) (members? (more + 1) (s ++ t)) := by
  rw [members?, members?]
  rcases skipSpace_ending ht s with ⟨hs, hst⟩ | ⟨b, rest, hs, hst, hlt⟩
  · simp only [hs, hst]
    exact Follows.none
  simp only [hs, hst]
  by_cases hquote : b = 34
  · subst hquote
    refine Follows.mono ((rawString?_ending ht rest).bind fun name r hr => ?_) (Nat.le_of_lt hlt)
    rcases skipSpace_ending ht r with ⟨hs, hst⟩ | ⟨b, rest', hs, hst, hlt'⟩
    · simp only [hs, hst]
      exact Follows.none
    simp only [hs, hst]
    by_cases hcolon : b = 58
    · subst hcolon
      refine Follows.mono ((h.value more rest' (by omega) (by omega)).bind fun v r' hr' => ?_)
        (by omega)
      rcases skipSpace_ending ht r' with ⟨hs, hst⟩ | ⟨b, rest'', hs, hst, hlt''⟩
      · simp only [hs, hst]
        exact Follows.none
      simp only [hs, hst]
      by_cases hclose : b = 125
      · subst hclose
        exact Follows.some [(name, v)] (by omega)
      by_cases hcomma : b = 44
      · subst hcomma
        refine Follows.mono ((h.members more rest'' (by omega) (by omega)).bind
          fun ms r'' hr'' => ?_) (by omega)
        exact Follows.some ((name, v) :: ms) hr''
      · simp only [List.cons.injEq, hclose, hcomma, false_and, imp_self, implies_true]
        exact Follows.none
    · simp only [List.cons.injEq, hcolon, false_and, imp_self, implies_true]
      exact Follows.none
  · simp only [List.cons.injEq, hquote, false_and, imp_self, implies_true]
    exact Follows.none

theorem Reads.succ_value (ht : Ending t) {fuel : Nat} (h : Reads t fuel) (more : Nat) (s : Bytes)
    (hf : 2 * s.length + 1 ≤ fuel + 1) (hm : 2 * s.length + 1 ≤ more + 1) :
    Follows t s (value? (fuel + 1) s) (value? (more + 1) (s ++ t)) := by
  rw [value?, value?]
  rcases skipSpace_ending ht s with ⟨hs, hst⟩ | ⟨b, rest, hs, hst, hlt⟩
  · simp only [hs, hst]
    exact Follows.none
  simp only [hs, hst]
  by_cases hquote : b = 34
  · subst hquote
    exact Follows.mono ((rawString?_ending ht rest).map string) (Nat.le_of_lt hlt)
  by_cases harray : b = 91
  · subst harray
    refine Follows.mono ?_ (Nat.le_of_lt hlt)
    rcases skipSpace_ending ht rest with ⟨hs, hst⟩ | ⟨b, rest', hs, hst, hlt'⟩
    · simp only [hs, hst, items?_nil]
      exact Follows.none
    simp only [hs, hst]
    by_cases hclose : b = 93
    · subst hclose
      exact Follows.some (array []) (Nat.le_of_lt hlt')
    · simp only [List.cons.injEq, hclose, false_and, imp_self, implies_true]
      have hlength : (b :: rest').length ≤ rest.length := hlt'
      exact Follows.mono ((h.items more (b :: rest') (by omega) (by omega)).map array) hlength
  by_cases hobject : b = 123
  · subst hobject
    refine Follows.mono ?_ (Nat.le_of_lt hlt)
    rcases skipSpace_ending ht rest with ⟨hs, hst⟩ | ⟨b, rest', hs, hst, hlt'⟩
    · simp only [hs, hst, members?_nil]
      exact Follows.none
    simp only [hs, hst]
    by_cases hclose : b = 125
    · subst hclose
      exact Follows.some (object []) (Nat.le_of_lt hlt')
    · simp only [List.cons.injEq, hclose, false_and, imp_self, implies_true]
      have hlength : (b :: rest').length ≤ rest.length := hlt'
      exact Follows.mono ((h.members more (b :: rest') (by omega) (by omega)).map object) hlength
  by_cases hnull : b = 110
  · subst hnull
    exact Follows.mono (word?_ending ht (w := "ull") (by decide) null rest) (Nat.le_of_lt hlt)
  by_cases htrue : b = 116
  · subst htrue
    exact Follows.mono (word?_ending ht (w := "rue") (by decide) (bool true) rest)
      (Nat.le_of_lt hlt)
  by_cases hfalse : b = 102
  · subst hfalse
    exact Follows.mono (word?_ending ht (w := "alse") (by decide) (bool false) rest)
      (Nat.le_of_lt hlt)
  · simp only [List.cons.injEq, hquote, harray, hobject, hnull, htrue, hfalse, false_and,
      imp_self, implies_true]
    exact Follows.mono ((numberLiteral?_ending ht (b :: rest)).map number) hlt

/-- Induction on the steps: each of the three readers takes one of its own and at most
two of a byte. -/
theorem reads (ht : Ending t) (fuel : Nat) : Reads t fuel := by
  induction fuel with
  | zero => exact ⟨fun _ _ h => by omega, fun _ _ h => by omega, fun _ _ h => by omega⟩
  | succ fuel ih =>
    refine ⟨fun more s hf hm => ?_, fun more s hf hm => ?_, fun more s hf hm => ?_⟩
    all_goals obtain ⟨more, rfl⟩ : ∃ n, more = n + 1 := ⟨more - 1, by omega⟩
    · exact ih.succ_value ht more s hf hm
    · exact ih.succ_items ht more s hf hm
    · exact ih.succ_members ht more s hf hm

/-- More steps than `parse?` takes read nothing else. -/
theorem value?_of_le {fuel : Nat} {s : Bytes} (h : 2 * s.length + 1 ≤ fuel) :
    value? fuel s = value? (2 * s.length + 2) s := by
  have hsame := ((reads (Or.inl rfl) (2 * s.length + 2)).value fuel s (by omega) h).same
  simpa using hsame

/-- A document is the same with the newline of its line. -/
theorem parse?_ending (ht : Ending t) (s : Bytes) : parse? (s ++ t) = parse? s := by
  have hread := (reads ht (2 * s.length + 2)).value (2 * (s ++ t).length + 2) s (by omega)
    (by rw [List.length_append]; omega)
  rw [parse?, parse?, hread.same]
  cases value? (2 * s.length + 2) s with
  | none => rfl
  | some p =>
    simp only [Option.map_some]
    rcases skipSpace_ending ht p.2 with ⟨hs, hst⟩ | ⟨b, rest, hs, hst, _⟩
    · rw [hs, hst]
    · rw [hs, hst]
      rfl

end HeapTelemetry.Json

namespace HeapTelemetry

/-! ## Lines -/

namespace Bytes

theorem isText_iff {b : Bytes} : IsText b ↔ (text? b).isSome := by
  constructor
  · rintro ⟨s, rfl⟩
    rw [text?_ofText]
    rfl
  · intro h
    obtain ⟨s, hs⟩ := Option.isSome_iff_exists.1 h
    rw [text?, String.fromUTF8?] at hs
    split at hs
    · rename_i hvalid
      exact ⟨⟨⟨b.toArray⟩, hvalid⟩, by simp [ofText]⟩
    · cases hs

/-- A newline is a character of its own. -/
theorem isText_newline {b : Bytes} : IsText (b ++ [newline]) ↔ IsText b := by
  constructor
  · rintro ⟨s, hs⟩
    rw [← String.ofList_toList (s := s), ofText_ofList] at hs
    rcases List.eq_nil_or_concat s.toList with hnil | ⟨before, c, hconcat⟩
    · rw [hnil] at hs
      exact absurd hs.symm (by simp)
    · rw [hconcat, List.concat_eq_append, List.flatMap_append, List.flatMap_singleton] at hs
      rcases utf8EncodeChar_cases c with ⟨x, hc, _⟩ | hhigh
      · rw [hc] at hs
        refine ⟨String.ofList before, ?_⟩
        rw [ofText_ofList]
        exact (List.append_inj' hs rfl).1
      · have hlast := congrArg List.getLast? hs
        rw [List.getLast?_append_of_ne_nil _ (utf8EncodeChar_ne_nil c), List.getLast?_concat] at hlast
        have hmem := List.mem_of_getLast? hlast
        exact absurd (hhigh _ hmem) (by decide)
  · exact fun h => h.append (Json.isText_byte (by decide : newline.toNat < 128))

end Bytes

/-- A line is read alike with its newline and without. -/
theorem Record.decode_newline (line : Bytes) : decode (line ++ [Bytes.newline]) = decode line := by
  have htext : (Bytes.text? (line ++ [Bytes.newline])).isSome = (Bytes.text? line).isSome := by
    rw [Bool.eq_iff_iff, ← Bytes.isText_iff, ← Bytes.isText_iff, Bytes.isText_newline]
  rw [decode, decode, Json.parse?_ending (Or.inr rfl)]
  cases hline : Bytes.text? line with
  | none =>
    rw [hline, Option.isSome_none, Option.isSome_eq_false_iff, Option.isNone_iff_eq_none] at htext
    rw [htext]
  | some s =>
    rw [hline] at htext
    obtain ⟨s', hs'⟩ := Option.isSome_iff_exists.1 htext
    rw [hs']

end HeapTelemetry
