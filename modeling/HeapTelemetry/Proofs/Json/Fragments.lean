import HeapTelemetry.Proofs.Json.Endings
import HeapTelemetry.Proofs.Lists

/-! Documents that were broken off. Where the beginning of a document is followed by the
beginning of another object, no reader gets to where it could go on: inside a string it ends
in the first name behind the break, and everywhere else the brace stops it. -/

namespace HeapTelemetry.Json

/-- Behind a value or a name nothing follows, or what can stand there in no document. -/
def Stuck (rest : Bytes) : Prop :=
  skipSpace rest = [] ∨ ∃ b more, skipSpace rest = b :: more ∧ b ≠ 44 ∧ b ≠ 58 ∧ b ≠ 93 ∧ b ≠ 125

/-- A reader fails, or is stuck behind what it has read. -/
def Strands {α : Type} (r : Option (α × Bytes)) : Prop := ∀ p ∈ r, Stuck p.2

section Strands
variable {α β : Type} {r : Option (α × Bytes)} {rest : Bytes}

theorem strands_none : Strands (none : Option (α × Bytes)) := nofun

theorem strands_some (v : α) (h : Stuck rest) : Strands (some (v, rest)) := by
  rintro _ ⟨rfl⟩
  exact h

theorem Strands.map (h : Strands r) (f : α → β) : Strands (r.map fun p => (f p.1, p.2)) := by
  intro p hp
  obtain ⟨q, hq, rfl⟩ := Option.map_eq_some_iff.1 hp
  exact h q hq

end Strands

theorem stuck_cons {b : UInt8} (hspace : isSpace b = false)
    (hb : b ≠ 44 ∧ b ≠ 58 ∧ b ≠ 93 ∧ b ≠ 125) (rest : Bytes) : Stuck (b :: rest) :=
  Or.inr ⟨b, rest, skipSpace_cons hspace rest, hb⟩

/-- What may follow where a record was broken off: the end of the line, or another record,
in which every reader is stuck. -/
structure Alien (x : Bytes) : Prop where
  head : x = [Bytes.newline] ∨ ∃ rest, x = 123 :: rest
  value : ∀ fuel, 2 * x.length + 1 ≤ fuel → Strands (value? fuel x)
  string : Strands (rawString? x)

theorem alien_newline : Alien [Bytes.newline] where
  head := Or.inl rfl
  value fuel _ := by
    cases fuel with
    | zero => exact strands_none
    | succ fuel => exact strands_none
  string := strands_none

variable {x p : Bytes}

theorem Alien.stuck (hx : Alien x) : Stuck x := by
  rcases hx.head with rfl | ⟨rest, rfl⟩
  · exact Or.inl rfl
  · exact stuck_cons (by decide) (by decide) rest

/-- The first byte behind the break goes on with no escape and no number. -/
theorem Alien.first (hx : Alien x) : ∃ b more, x = b :: more ∧ hexValue? b = none ∧
    unescapeLetter? b = none ∧ b ≠ 117 ∧ Bytes.isDigit b = false := by
  rcases hx.head with rfl | ⟨rest, rfl⟩
  · exact ⟨_, _, rfl, by decide⟩
  · exact ⟨_, _, rfl, by decide⟩

/-! ## Broken strings -/

theorem rawString?_slash (hx : Alien x) : rawString? (92 :: x) = none := by
  obtain ⟨e, more, rfl, _, hletter, hu, _⟩ := hx.first
  exact rawString?_escape_none (by rw [hletter]; rfl) fun _ _ _ _ _ h => absurd h hu

theorem rawString?_digits (hx : Alien x) (hshort : p.length < 4) :
    rawString? (92 :: 117 :: (p ++ x)) = none := by
  obtain ⟨e, more, rfl, hdigit, _⟩ := hx.first
  refine rawString?_escape_none (by decide) fun a b c d tail _ hfour => ?_
  rcases p with _ | ⟨p₀, _ | ⟨p₁, _ | ⟨p₂, _ | ⟨p₃, p⟩⟩⟩⟩
  case cons.cons.cons.cons => simp at hshort; omega
  all_goals
    simp only [List.nil_append, List.cons_append, List.cons.injEq] at hfour
    simp [codeUnit?, ← hfour, hdigit]

/-- What is left of an escape that was broken off. -/
theorem escapeByte_prefix {b : UInt8} (hp : p <+: escapeByte b) (hproper : p ≠ escapeByte b) :
    p = [] ∨ p = [92] ∨ ∃ q : Bytes, p = 92 :: 117 :: q ∧ q.length < 4 := by
  have hlt : p.length < (escapeByte b).length :=
    Nat.lt_of_le_of_ne hp.length_le (mt hp.eq_of_length hproper)
  rcases escapeByte_cases b with ⟨letter, hb, _⟩ | ⟨high, low, hb, _⟩ | ⟨hb, _⟩
  all_goals
    rw [hb] at hp hlt
    rcases p with _ | ⟨first, _ | ⟨second, q⟩⟩
  all_goals simp_all [List.cons_prefix_cons]
  omega

/-- A string that was broken off is not closed before the break. -/
theorem strands_rawString (hx : Alien x) (bs : Bytes) (hp : p <+: escape bs) :
    Strands (rawString? (p ++ x)) := by
  induction bs generalizing p with
  | nil =>
    rw [List.prefix_nil.1 hp]
    exact hx.string
  | cons b bs ih =>
    rw [escape_cons] at hp
    by_cases hwhole : escapeByte b <+: p
    · obtain ⟨q, rfl⟩ := hwhole
      rw [List.append_assoc, rawString?_escapeByte]
      exact (ih ((List.prefix_append_right_inj _).1 hp)).map _
    · have hbroken := (List.prefix_or_prefix_of_prefix hp (List.prefix_append _ _)).resolve_right
        hwhole
      rcases escapeByte_prefix hbroken (fun heq => hwhole (heq ▸ List.prefix_rfl)) with
        rfl | rfl | ⟨q, rfl, hq⟩
      · exact hx.string
      · rw [List.singleton_append, rawString?_slash hx]
        exact strands_none
      · rw [List.cons_append, List.cons_append, rawString?_digits hx hq]
        exact strands_none

/-! ## Broken numbers -/

theorem wholePart?_broken (hx : Alien x) {ds : Bytes} (hd : ∀ b ∈ ds, Bytes.isDigit b = true) :
    wholePart? (ds ++ x) = none ∨ ∃ whole, wholePart? (ds ++ x) = some (whole, x) := by
  have hstop : ∀ b ∈ x.head?, Bytes.isDigit b = false := by
    obtain ⟨b, more, rfl, _, _, _, hb⟩ := hx.first
    rintro _ ⟨rfl⟩
    exact hb
  rw [wholePart?, digits_append_of_head hd hstop]
  rcases ds with _ | ⟨d, _ | ⟨d', ds⟩⟩
  · exact Or.inl rfl
  · exact Or.inr ⟨_, rfl⟩
  · by_cases hzero : d = 48
    · exact Or.inl (if_pos hzero)
    · exact Or.inr ⟨_, if_neg hzero⟩

/-- Digits that were broken off end at the break. -/
theorem strands_digits (hx : Alien x) {ds : Bytes} (hd : ∀ b ∈ ds, Bytes.isDigit b = true)
    (sign : Bytes) : Strands (do
      let (whole, s) ← wholePart? (ds ++ x)
      let (fraction, s) ← fractionPart? s
      let (exponent, s) ← exponentPart? s
      return (sign ++ whole ++ fraction ++ exponent, s)) := by
  have hfraction : fractionPart? x = some ([], x) := by
    rcases hx.head with rfl | ⟨rest, rfl⟩ <;> rfl
  have hexponent : exponentPart? x = some ([], x) := by
    rcases hx.head with rfl | ⟨rest, rfl⟩ <;> rfl
  rcases wholePart?_broken hx hd with hwhole | ⟨whole, hwhole⟩
  · rw [hwhole]
    exact strands_none
  · simp only [hwhole, hfraction, hexponent, Option.bind_eq_bind, Option.bind_some]
    exact strands_some _ hx.stuck

theorem strands_numberLiteral (hx : Alien x) (n : Int) (hp : p <+: literal n) :
    Strands (numberLiteral? (p ++ x)) := by
  have hunsigned : ∀ ds : Bytes, (∀ b ∈ ds, Bytes.isDigit b = true) →
      Strands (numberLiteral? (ds ++ x)) := by
    intro ds hd
    have hsign : ∀ rest, ds ++ x ≠ 45 :: rest := by
      rintro rest heq
      cases ds with
      | nil =>
        rcases hx.head with rfl | ⟨_, rfl⟩ <;> exact absurd (List.cons.inj heq).1 (by decide)
      | cons d ds => exact digit_ne_minus (hd d List.mem_cons_self) (List.cons.inj heq).1
    unfold numberLiteral?
    split
    rename_i sign s heq
    split at heq
    · rename_i hminus
      exact absurd hminus (hsign _)
    · cases heq
      exact strands_digits hx hd []
  cases n with
  | ofNat n => exact hunsigned p fun b hb => isDigit_numeral n b (hp.subset hb)
  | negSucc n =>
    have hl : literal (Int.negSucc n) = 45 :: numeral (n + 1) := number.inj (ofInt_negSucc n)
    rw [hl] at hp
    rcases List.prefix_cons_iff.1 hp with rfl | ⟨ds, rfl, hds⟩
    · exact hunsigned [] nofun
    · exact strands_digits hx (fun b hb => isDigit_numeral _ b (hds.subset hb)) [45]

/-! ## Broken documents -/

/-- Wherever this document is broken off, no reader gets past the break. -/
def Breaks (x : Bytes) (v : Json) : Prop := ∀ p, p <+: render v → ∀ fuel,
  2 * (p ++ x).length + 1 ≤ fuel → Strands (value? fuel (p ++ x))

theorem breaks_number (hx : Alien x) (n : Int) : Breaks x (number (literal n)) := by
  intro p hp fuel hf
  rw [render] at hp
  cases p with
  | nil => exact hx.value fuel hf
  | cons b q =>
    obtain ⟨first, rest, hl, hfirst⟩ := literal_head n
    have hb : b = first := (List.cons_prefix_cons.1 (hl ▸ hp)).1
    cases fuel with
    | zero => omega
    | succ fuel =>
      have hread := strands_numberLiteral hx n hp
      rw [List.cons_append] at hread ⊢
      rw [value?_numeric (hb ▸ hfirst)]
      exact hread.map number

theorem breaks_string (hx : Alien x) (s : String) : Breaks x (string (ofText s)) := by
  intro p hp fuel hf
  rw [render, List.cons_append] at hp
  rcases prefix_enclosed hp with rfl | ⟨q, rfl, hq⟩ | rfl
  · exact hx.value fuel hf
  all_goals
    obtain ⟨fuel, rfl⟩ : ∃ n, fuel = n + 1 := ⟨fuel - 1, by omega⟩
    rw [List.cons_append, value?, skipSpace_cons (by decide)]
    refine Strands.map ?_ string
  · exact strands_rawString hx (Bytes.ofText s) hq
  · have hread : rawString? (ofText s ++ 34 :: x) = some (ofText s, x) :=
      rawString?_escape (Bytes.ofText s) x
    rw [List.append_assoc]
    exact (congrArg Strands hread).mpr (strands_some _ hx.stuck)

theorem items?_of_strands {fuel : Nat} {s : Bytes} (h : Strands (value? fuel s)) :
    items? (fuel + 1) s = none := by
  rw [items?]
  cases hv : value? fuel s with
  | none => rfl
  | some p =>
    rcases h p hv with hend | ⟨b, more, hb, hcomma, _, hbracket, _⟩
    · simp only [Option.bind_eq_bind, Option.bind_some, hend]
    · simp only [Option.bind_eq_bind, Option.bind_some, hb, List.cons.injEq, hcomma, hbracket,
        false_and, imp_self, implies_true]

theorem renderItems_tail (v : Json) (items : List Json) : renderItems (v :: items) =
    render v ++ if items.isEmpty then [] else 44 :: renderItems items := by
  cases items with
  | nil => rw [List.isEmpty_nil, if_pos rfl, List.append_nil, renderItems]
  | cons w items => exact renderItems_cons v w items

/-- An array that was broken off is not closed. -/
theorem items?_broken (hx : Alien x) {items : List Json} (hp : ∀ v ∈ items, Parses v)
    (hb : ∀ v ∈ items, Breaks x v) (hbroken : p <+: renderItems items) {fuel : Nat}
    (hf : 2 * (p ++ x).length + 2 ≤ fuel) : items? fuel (p ++ x) = none := by
  induction items generalizing p fuel with
  | nil =>
    rw [renderItems, List.prefix_nil] at hbroken
    subst hbroken
    cases fuel with
    | zero => omega
    | succ fuel => exact items?_of_strands (hx.value fuel (by simpa using hf))
  | cons v items ih =>
    rw [renderItems_tail] at hbroken
    cases fuel with
    | zero => omega
    | succ fuel =>
      rcases prefix_append_cases hbroken with hinside | ⟨more, hmore, rfl, hrest⟩
      · exact items?_of_strands (hb v List.mem_cons_self p hinside fuel (by omega))
      · split at hrest
        · exact absurd (List.prefix_nil.1 hrest) hmore
        rcases List.prefix_cons_iff.1 hrest with rfl | ⟨q, rfl, hq⟩
        · exact absurd rfl hmore
        simp only [List.append_assoc, List.cons_append, List.length_append, List.length_cons] at hf ⊢
        rw [items?, hp v List.mem_cons_self fuel _ (by omega) (delimited_comma _)]
        simp only [Option.bind_eq_bind, Option.bind_some,
          skipSpace_cons (by decide : isSpace 44 = false)]
        rw [ih (fun w hw => hp w (List.mem_cons_of_mem v hw))
          (fun w hw => hb w (List.mem_cons_of_mem v hw)) hq (by simp; omega)]
        rfl

theorem renderMembers_tail (name : Bytes) (v : Json) (members : List (Bytes × Json)) :
    renderMembers ((name, v) :: members) = 34 :: (name ++ 34 :: 58 :: (render v ++
      if members.isEmpty then [] else 44 :: renderMembers members)) := by
  cases members with
  | nil => rw [List.isEmpty_nil, if_pos rfl, List.append_nil, renderMembers_single]
  | cons m members => exact renderMembers_cons name v m members

theorem members?_of_strands_name {fuel : Nat} {s : Bytes} (h : Strands (rawString? s)) :
    members? (fuel + 1) (34 :: s) = none := by
  rw [members?, skipSpace_cons (by decide)]
  cases hr : rawString? s with
  | none => simp only [hr, Option.bind_eq_bind, Option.bind_none]
  | some p =>
    rcases h p hr with hend | ⟨b, more, hb, _, hcolon, _⟩
    · simp only [hr, Option.bind_eq_bind, Option.bind_some, hend]
    · simp only [hr, Option.bind_eq_bind, Option.bind_some, hb, List.cons.injEq, hcolon,
        false_and, imp_self, implies_true]

theorem members?_of_strands_value {fuel : Nat} {s name rest : Bytes}
    (hname : rawString? s = some (name, 58 :: rest)) (h : Strands (value? fuel rest)) :
    members? (fuel + 1) (34 :: s) = none := by
  rw [members?, skipSpace_cons (by decide)]
  simp only [hname, Option.bind_eq_bind, Option.bind_some,
    skipSpace_cons (by decide : isSpace 58 = false)]
  cases hv : value? fuel rest with
  | none => rfl
  | some p =>
    rcases h p hv with hend | ⟨b, more, hb, hcomma, _, _, hbrace⟩
    · simp only [Option.bind_some, hend]
    · simp only [Option.bind_some, hb, List.cons.injEq, hcomma, hbrace, false_and, imp_self,
        implies_true]

/-- An object that was broken off is not closed. -/
theorem members?_broken (hx : Alien x) {members : List (Bytes × Json)}
    (hn : ∀ m ∈ members, ∃ s, m.1 = ofText s) (hp : ∀ m ∈ members, Parses m.2)
    (hb : ∀ m ∈ members, Breaks x m.2) (hbroken : p <+: renderMembers members) {fuel : Nat}
    (hf : 2 * (p ++ x).length + 2 ≤ fuel) : members? fuel (p ++ x) = none := by
  have hquote : ∀ fuel, members? fuel x = none := by
    intro fuel
    cases fuel with
    | zero => rfl
    | succ fuel => rcases hx.head with rfl | ⟨rest, rfl⟩ <;> rfl
  induction members generalizing p fuel with
  | nil =>
    rw [renderMembers, List.prefix_nil] at hbroken
    subst hbroken
    exact hquote fuel
  | cons m members ih =>
    obtain ⟨name, v⟩ := m
    obtain ⟨s, hs⟩ := hn _ List.mem_cons_self
    obtain rfl : name = ofText s := hs
    have hname : ∀ tail, rawString? (ofText s ++ 34 :: tail) = some (ofText s, tail) :=
      fun tail => rawString?_escape (Bytes.ofText s) tail
    rw [renderMembers_tail] at hbroken
    rcases List.prefix_cons_iff.1 hbroken with rfl | ⟨p, rfl, hinner⟩
    · exact hquote fuel
    cases fuel with
    | zero => omega
    | succ fuel =>
      -- The break is inside the name, before the colon, in the value, or behind it.
      rcases prefix_append_cases hinner with hinside | ⟨more, hmore, rfl, hquoted⟩
      · exact members?_of_strands_name (strands_rawString hx (Bytes.ofText s) hinside)
      obtain ⟨p, rfl, hcolon⟩ := (List.prefix_cons_iff.1 hquoted).resolve_left hmore
      rcases List.prefix_cons_iff.1 hcolon with rfl | ⟨p, rfl, hvalue⟩
      · have hread := (congrArg Strands (hname x)).mpr (strands_some _ hx.stuck)
        simpa using members?_of_strands_name hread
      simp only [List.append_assoc, List.cons_append, List.length_append, List.length_cons] at hf ⊢
      rcases prefix_append_cases hvalue with hinside | ⟨more, hsome, rfl, hbehind⟩
      · exact members?_of_strands_value (hname _)
          (hb _ List.mem_cons_self p hinside fuel (by simp; omega))
      split at hbehind
      · exact absurd (List.prefix_nil.1 hbehind) hsome
      obtain ⟨p, rfl, hmembers⟩ := (List.prefix_cons_iff.1 hbehind).resolve_left hsome
      simp only [List.append_assoc, List.cons_append, List.length_append, List.length_cons] at hf ⊢
      have hparses : Parses v := hp _ List.mem_cons_self
      have hv := hparses fuel (44 :: (p ++ x)) (by omega) (delimited_comma _)
      rw [members?, skipSpace_cons (by decide)]
      simp only [hname, hv, Option.bind_eq_bind, Option.bind_some,
        skipSpace_cons (by decide : isSpace 58 = false),
        skipSpace_cons (by decide : isSpace 44 = false)]
      rw [ih (fun m hm => hn m (List.mem_cons_of_mem _ hm))
        (fun m hm => hp m (List.mem_cons_of_mem _ hm))
        (fun m hm => hb m (List.mem_cons_of_mem _ hm)) hmembers (by simp; omega)]
      rfl

/-- The first byte behind spaces, where a document was broken off at once or later. -/
theorem skipSpace_broken (hx : Alien x) {r : Bytes} (hr : ∀ b ∈ r.head?, isSpace b = false)
    (hbroken : p <+: r) : skipSpace (p ++ x) = [] ∨ skipSpace (p ++ x) = p ++ x ∧
      ∀ b ∈ (p ++ x).head?, b = 123 ∨ b ∈ r.head? := by
  cases p with
  | nil =>
    rcases hx.head with rfl | ⟨rest, rfl⟩
    · exact Or.inl rfl
    · exact Or.inr ⟨skipSpace_cons (by decide) rest, fun b hb => Or.inl (Option.some.inj hb).symm⟩
  | cons b p =>
    obtain ⟨tail, rfl⟩ := hbroken
    exact Or.inr ⟨skipSpace_cons (hr b rfl) _, fun c hc => Or.inr hc⟩

theorem value?_array_broken (hx : Alien x) {items : List Json} (hw : ∀ v ∈ items, Written v)
    (hb : ∀ v ∈ items, Breaks x v) (hbroken : p <+: renderItems items) {fuel : Nat}
    (hf : 2 * (p ++ x).length + 2 ≤ fuel) : value? (fuel + 1) (91 :: (p ++ x)) = none := by
  have hnone := items?_broken hx (fun v hv => (hw v hv).parses) hb hbroken hf
  have hhead : ∀ b ∈ (renderItems items).head?, isSpace b = false ∧ b ≠ 93 := by
    cases items with
    | nil => simp [renderItems]
    | cons v items =>
      obtain ⟨b, rest, hr, hb⟩ := renderItems_head (hw v List.mem_cons_self) items
      rw [hr]
      rintro _ ⟨rfl⟩
      exact hb
  rw [value?, skipSpace_cons (by decide)]
  simp only
  rcases skipSpace_broken hx (fun b hb => (hhead b hb).1) hbroken with hend | ⟨hsame, hfirst⟩
  · simp only [hend, items?_nil, Option.map_none]
  · rw [hsame]
    split
    · rename_i hclosed
      rcases hfirst 93 (by rw [hclosed]; rfl) with hbrace | hitem
      · exact absurd hbrace (by decide)
      · exact absurd rfl (hhead 93 hitem).2
    · rw [hnone, Option.map_none]

theorem value?_object_broken (hx : Alien x) {members : List (Bytes × Json)}
    (hn : ∀ m ∈ members, ∃ s, m.1 = ofText s) (hp : ∀ m ∈ members, Parses m.2)
    (hb : ∀ m ∈ members, Breaks x m.2) (hbroken : p <+: renderMembers members) {fuel : Nat}
    (hf : 2 * (p ++ x).length + 2 ≤ fuel) : value? (fuel + 1) (123 :: (p ++ x)) = none := by
  have hnone := members?_broken hx hn hp hb hbroken hf
  have hhead : ∀ b ∈ (renderMembers members).head?, b = 34 := by
    cases members with
    | nil => simp [renderMembers]
    | cons m members =>
      obtain ⟨rest, hr⟩ := renderMembers_head m members
      rw [hr]
      rintro _ ⟨rfl⟩
      rfl
  rw [value?, skipSpace_cons (by decide)]
  simp only
  rcases skipSpace_broken hx (fun b hb => hhead b hb ▸ by decide) hbroken with
    hend | ⟨hsame, hfirst⟩
  · simp only [hend, members?_nil, Option.map_none]
  · rw [hsame]
    split
    · rename_i hclosed
      rcases hfirst 125 (by rw [hclosed]; rfl) with hbrace | hmember
      · exact absurd hbrace (by decide)
      · exact absurd (hhead 125 hmember) (by decide)
    · rw [hnone, Option.map_none]

theorem render_array (items : List Json) :
    render (array items) = 91 :: (renderItems items ++ [93]) := by
  rw [render, List.cons_append]

theorem render_object (members : List (Bytes × Json)) :
    render (object members) = 123 :: (renderMembers members ++ [125]) := by
  rw [render, List.cons_append]

theorem breaks_array (hx : Alien x) {items : List Json} (hw : ∀ v ∈ items, Written v)
    (hb : ∀ v ∈ items, Breaks x v) : Breaks x (array items) := by
  intro p hbroken fuel hf
  rcases prefix_enclosed (render_array items ▸ hbroken) with rfl | ⟨p, rfl, hinner⟩ | rfl
  · exact hx.value fuel hf
  · cases fuel with
    | zero => omega
    | succ fuel =>
      simp only [List.cons_append, List.length_cons] at hf ⊢
      rw [value?_array_broken hx hw hb hinner (by omega)]
      exact strands_none
  · rw [← render_array] at hf ⊢
    rw [value?_array hw (fun v hv => (hw v hv).parses) fuel x (by simp at hf; omega)]
    exact strands_some _ hx.stuck

theorem breaks_object (hx : Alien x) {members : List (Bytes × Json)}
    (hn : ∀ m ∈ members, ∃ s, m.1 = ofText s) (hp : ∀ m ∈ members, Parses m.2)
    (hb : ∀ m ∈ members, Breaks x m.2) : Breaks x (object members) := by
  intro p hbroken fuel hf
  rcases prefix_enclosed (render_object members ▸ hbroken) with rfl | ⟨p, rfl, hinner⟩ | rfl
  · exact hx.value fuel hf
  · cases fuel with
    | zero => omega
    | succ fuel =>
      simp only [List.cons_append, List.length_cons] at hf ⊢
      rw [value?_object_broken hx hn hp hb hinner (by omega)]
      exact strands_none
  · rw [← render_object] at hf ⊢
    rw [value?_object hn hp fuel x (by simp at hf; omega)]
    exact strands_some _ hx.stuck

/-- Wherever a written document is broken off, no reader gets past the break. -/
theorem Written.breaks (hx : Alien x) {v : Json} (h : Written v) : Breaks x v := by
  induction h with
  | integer n => exact breaks_number hx n
  | text s => exact breaks_string hx s
  | array hw ih => exact breaks_array hx hw ih
  | object hn hw ih => exact breaks_object hx hn (fun m hm => (hw m hm).parses) ih

/-- An object that was broken off, or that has something behind it, is no document. -/
theorem parse?_fragment (hx : Alien x) {members : List (Bytes × Json)}
    (h : Written (object members)) (hbroken : p <+: render (object members)) (hne : p ≠ [])
    (hdamaged : p ≠ render (object members) ∨ x ≠ [Bytes.newline]) : parse? (p ++ x) = none := by
  cases h with
  | object hn hw =>
    have hp : ∀ m ∈ members, Parses m.2 := fun m hm => (hw m hm).parses
    rw [parse?]
    rcases prefix_enclosed (render_object members ▸ hbroken) with rfl | ⟨p, rfl, hinner⟩ | hwhole
    · exact absurd rfl hne
    · have hf : 2 * (p ++ x).length + 2 ≤ 2 * (123 :: (p ++ x)).length + 1 := by
        rw [List.length_cons]
        omega
      rw [List.cons_append,
        value?_object_broken hx hn hp (fun m hm => (hw m hm).breaks hx) hinner hf]
    · rw [← render_object] at hwhole
      obtain ⟨rest, rfl⟩ := hx.head.resolve_left (hdamaged.resolve_left fun hno => hno hwhole)
      rw [hwhole, value?_object hn hp _ _ (by simp; omega)]
      rfl

end HeapTelemetry.Json

namespace HeapTelemetry.Record
open Json

variable {x p : Bytes} {m : Measurement}

/-! ## Broken records -/

/-- What begins as a record. -/
def Fragment (p : Bytes) : Prop := p ≠ [] ∧ ∃ m, p <+: (ofMeasurement m).render

theorem render_ofMeasurement (m : Measurement) :
    ∃ rest, (ofMeasurement m).render = 123 :: 34 :: 111 :: rest :=
  ⟨_, rfl⟩

/-- Inside a string, a record ends it before its first name, and no reader goes on there. -/
theorem Fragment.alien (h : Fragment p) (hx : Alien x) : Alien (p ++ x) where
  head := by
    obtain ⟨hne, m, hp⟩ := h
    obtain ⟨rest, hr⟩ := render_ofMeasurement m
    obtain ⟨q, rfl, _⟩ := (List.prefix_cons_iff.1 (hr ▸ hp)).resolve_left hne
    exact Or.inr ⟨q ++ x, rfl⟩
  value fuel hf := by
    obtain ⟨_, m, hp⟩ := h
    exact (written_ofMeasurement m).breaks hx p hp fuel hf
  string := by
    obtain ⟨hne, m, hp⟩ := h
    obtain ⟨rest, hr⟩ := render_ofMeasurement m
    rw [hr] at hp
    obtain ⟨q, rfl, hquote⟩ := (List.prefix_cons_iff.1 hp).resolve_left hne
    rw [List.cons_append, rawString?_plain (by decide) (by decide) (by decide)]
    refine Strands.map ?_ (123 :: ·)
    rcases List.prefix_cons_iff.1 hquote with rfl | ⟨q, rfl, hname⟩
    · exact hx.string
    refine strands_some [] ?_
    rcases List.prefix_cons_iff.1 hname with rfl | ⟨q, rfl, _⟩
    · exact hx.stuck
    · exact stuck_cons (by decide) (by decide) _

theorem alien_flatten {pieces : List Bytes} (h : ∀ q ∈ pieces, Fragment q) :
    Alien (pieces.flatten ++ [Bytes.newline]) := by
  induction pieces with
  | nil => exact alien_newline
  | cons q pieces ih =>
    rw [List.flatten_cons, List.append_assoc]
    exact (h q List.mem_cons_self).alien (ih fun r hr => h r (List.mem_cons_of_mem q hr))

theorem fragment_render (m : Measurement) : Fragment (ofMeasurement m).render := by
  obtain ⟨rest, hr⟩ := render_ofMeasurement m
  exact ⟨by rw [hr]; exact List.cons_ne_nil _ _, m, List.prefix_rfl⟩

theorem Fragment.newline_not_mem (h : Fragment p) : Bytes.newline ∉ p := by
  obtain ⟨_, m, hp⟩ := h
  exact fun hmem => newline_not_mem_render m (hp.subset hmem)

theorem Fragment.not_blank (h : Fragment p) (rest : Bytes) : Bytes.isBlank (p ++ rest) = false := by
  obtain ⟨hne, m, hp⟩ := h
  obtain ⟨tail, hr⟩ := render_ofMeasurement m
  obtain ⟨q, rfl, _⟩ := (List.prefix_cons_iff.1 (hr ▸ hp)).resolve_left hne
  rfl

/-- A line that begins with a record is this record, or damaged. -/
theorem exists_decode_error (hx : Alien x) (hne : p ≠ []) (hp : p <+: (ofMeasurement m).render)
    (hdamaged : p ≠ (ofMeasurement m).render ∨ x ≠ [Bytes.newline]) :
    ∃ e, decode (p ++ x) = .error e := by
  have hnone := parse?_fragment hx (written_ofMeasurement m) hp hne hdamaged
  rw [decode, hnone]
  cases Bytes.text? (p ++ x) with
  | none => exact ⟨_, rfl⟩
  | some _ => exact ⟨_, rfl⟩

end HeapTelemetry.Record
