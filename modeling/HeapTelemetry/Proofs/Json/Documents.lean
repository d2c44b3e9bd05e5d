import HeapTelemetry.Proofs.Json.Numbers

/-! Rendered documents parse to themselves. `Written` are the documents whose
scalars were written from integers and texts; each is read back whole, whatever
delimiter stands behind it. -/

namespace HeapTelemetry.Json

/-- A document of integers and texts. -/
inductive Written : Json → Prop
  | integer (n : Int) : Written (number (literal n))
  | text (s : String) : Written (string (ofText s))
  | array {items : List Json} : (∀ v ∈ items, Written v) → Written (array items)
  | object {members : List (Bytes × Json)} : (∀ m ∈ members, ∃ s, m.1 = ofText s) →
      (∀ m ∈ members, Written m.2) → Written (object members)

theorem skipSpace_cons {b : UInt8} (h : isSpace b = false) (rest : Bytes) :
    skipSpace (b :: rest) = b :: rest := by
  simp [skipSpace, h]

/-- A document begins with a byte that is no space and closes no array. -/
theorem render_head {v : Json} (h : Written v) :
    ∃ b rest, render v = b :: rest ∧ isSpace b = false ∧ b ≠ 93 := by
  cases h with
  | integer n =>
    obtain ⟨b, rest, hl, hb⟩ := literal_head n
    refine ⟨b, rest, by rw [render, hl], ?_⟩
    rcases hb with rfl | hd
    · decide
    · have hall : ∀ n < 256, Bytes.isDigit (UInt8.ofNat n) = true →
          isSpace (UInt8.ofNat n) = false ∧ UInt8.ofNat n ≠ 93 := by decide +kernel
      have hb := hall b.toNat b.toNat_lt
      rw [UInt8.ofNat_toNat] at hb
      exact hb hd
  | text s => exact ⟨34, _, by rw [render]; rfl, by decide, by decide⟩
  | array _ => exact ⟨91, _, by rw [render]; rfl, by decide, by decide⟩
  | object _ _ => exact ⟨123, _, by rw [render]; rfl, by decide, by decide⟩

theorem render_length_pos {v : Json} (h : Written v) : 0 < (render v).length := by
  obtain ⟨b, rest, hv, _⟩ := render_head h
  rw [hv]
  exact Nat.succ_pos _

/-! ## Scalars -/

theorem value?_numeric {b : UInt8} (hb : b = 45 ∨ Bytes.isDigit b = true) (rest : Bytes)
    (fuel : Nat) : value? (fuel + 1) (b :: rest) =
      (numberLiteral? (b :: rest)).map fun (lit, r) => (number lit, r) := by
  have hfacts : isSpace b = false ∧ b ≠ 34 ∧ b ≠ 91 ∧ b ≠ 123 ∧ b ≠ 110 ∧ b ≠ 116 ∧ b ≠ 102 := by
    rcases hb with rfl | hd
    · decide
    · have hall : ∀ n < 256, Bytes.isDigit (UInt8.ofNat n) = true →
          isSpace (UInt8.ofNat n) = false ∧ UInt8.ofNat n ≠ 34 ∧ UInt8.ofNat n ≠ 91 ∧
            UInt8.ofNat n ≠ 123 ∧ UInt8.ofNat n ≠ 110 ∧ UInt8.ofNat n ≠ 116 ∧
            UInt8.ofNat n ≠ 102 := by decide +kernel
      have hb := hall b.toNat b.toNat_lt
      rw [UInt8.ofNat_toNat] at hb
      exact hb hd
  obtain ⟨hspace, h1, h2, h3, h4, h5, h6⟩ := hfacts
  rw [value?, skipSpace_cons hspace]
  split
  all_goals simp_all

theorem value?_number {lit rest : Bytes} {b : UInt8} {tail : Bytes} (hl : lit = b :: tail)
    (hb : b = 45 ∨ Bytes.isDigit b = true) (hn : numberLiteral? (lit ++ rest) = some (lit, rest))
    (fuel : Nat) : value? (fuel + 1) (lit ++ rest) = some (number lit, rest) := by
  subst hl
  rw [List.cons_append] at hn ⊢
  rw [value?_numeric hb, hn]
  rfl

theorem value?_string (s : String) (rest : Bytes) (fuel : Nat) :
    value? (fuel + 1) (render (string (ofText s)) ++ rest) = some (string (ofText s), rest) := by
  have hr : render (string (ofText s)) ++ rest = 34 :: (ofText s ++ 34 :: rest) := by
    rw [render]
    simp
  have hraw : rawString? (ofText s ++ 34 :: rest) = some (ofText s, rest) :=
    rawString?_escape (Bytes.ofText s) rest
  rw [hr, value?, skipSpace_cons (by decide)]
  simp only [hraw, Option.map_some]

/-! ## Arrays and objects -/

/-- What the parser does with a document of a given rendering. -/
def Parses (v : Json) : Prop := ∀ fuel rest, 2 * (render v).length ≤ fuel → Delimited rest →
  value? fuel (render v ++ rest) = some (v, rest)

theorem delimited_comma (rest : Bytes) : Delimited (44 :: rest) := by
  rintro b ⟨rfl⟩
  exact Or.inl rfl

theorem delimited_bracket (rest : Bytes) : Delimited (93 :: rest) := by
  rintro b ⟨rfl⟩
  exact Or.inr (Or.inl rfl)

theorem delimited_brace (rest : Bytes) : Delimited (125 :: rest) := by
  rintro b ⟨rfl⟩
  exact Or.inr (Or.inr rfl)

theorem renderItems_cons (v w : Json) (items : List Json) :
    renderItems (v :: w :: items) = render v ++ 44 :: renderItems (w :: items) := by
  rw [renderItems]
  simp

theorem items?_render {items : List Json} (hne : items ≠ []) (hp : ∀ v ∈ items, Parses v)
    (rest : Bytes) (fuel : Nat) (hf : 2 * (renderItems items).length + 1 ≤ fuel) :
    items? fuel (renderItems items ++ 93 :: rest) = some (items, rest) := by
  induction items generalizing fuel with
  | nil => exact absurd rfl hne
  | cons v items ih =>
    cases fuel with
    | zero => omega
    | succ fuel =>
      have hv := hp v List.mem_cons_self
      cases items with
      | nil =>
        rw [renderItems] at hf ⊢
        rw [items?, hv fuel (93 :: rest) (by omega) (delimited_bracket rest)]
        rfl
      | cons w items =>
        rw [renderItems_cons] at hf ⊢
        simp only [List.length_cons, List.length_append] at hf
        rw [List.append_assoc, List.cons_append, items?, hv fuel _ (by omega) (delimited_comma _)]
        simp only [Option.bind_eq_bind, Option.bind_some,
          skipSpace_cons (by decide : isSpace 44 = false)]
        rw [ih (by simp) (fun x hx => hp x (List.mem_cons_of_mem v hx)) fuel (by omega)]
        rfl

theorem renderItems_head {v : Json} (hv : Written v) (items : List Json) :
    ∃ b rest, renderItems (v :: items) = b :: rest ∧ isSpace b = false ∧ b ≠ 93 := by
  obtain ⟨b, rest, hr, hb⟩ := render_head hv
  cases items with
  | nil => exact ⟨b, rest, by rw [renderItems, hr], hb⟩
  | cons w items =>
    refine ⟨b, rest ++ 44 :: renderItems (w :: items), ?_, hb⟩
    rw [renderItems, hr]
    · rfl
    · simp

/-- An array ends with its bracket, whatever comes behind it. -/
theorem value?_array {items : List Json} (hw : ∀ v ∈ items, Written v)
    (hp : ∀ v ∈ items, Parses v) (fuel : Nat) (rest : Bytes)
    (hf : 2 * (render (array items)).length ≤ fuel) :
    value? fuel (render (array items) ++ rest) = some (array items, rest) := by
  have hr : render (array items) ++ rest = 91 :: (renderItems items ++ 93 :: rest) := by
    rw [render]
    simp
  have hlen : (render (array items)).length = (renderItems items).length + 2 := by
    rw [render]
    simp
  rw [hlen] at hf
  rw [hr]
  cases fuel with
  | zero => omega
  | succ fuel =>
    rw [value?, skipSpace_cons (by decide)]
    simp only
    cases items with
    | nil => rfl
    | cons v items =>
      obtain ⟨b, tail, hb, hspace, hclose⟩ := renderItems_head (hw v List.mem_cons_self) items
      have hitems := items?_render (by simp) hp rest fuel (by omega)
      rw [hb, List.cons_append] at hitems ⊢
      rw [skipSpace_cons hspace]
      split
      · rename_i heq
        exact absurd (List.cons.inj heq).1 hclose
      · rw [hitems]
        rfl

theorem parses_array {items : List Json} (hw : ∀ v ∈ items, Written v)
    (hp : ∀ v ∈ items, Parses v) : Parses (array items) :=
  fun fuel rest hf _ => value?_array hw hp fuel rest hf

theorem renderMembers_single (name : Bytes) (v : Json) :
    renderMembers [(name, v)] = 34 :: (name ++ 34 :: 58 :: render v) := by
  rw [renderMembers]
  rfl

theorem renderMembers_cons (name : Bytes) (v : Json) (m : Bytes × Json)
    (members : List (Bytes × Json)) : renderMembers ((name, v) :: m :: members) =
      34 :: (name ++ 34 :: 58 :: (render v ++ 44 :: renderMembers (m :: members))) := by
  rw [renderMembers]
  · rw [List.cons_append, List.cons_append, List.append_assoc]
    rfl
  · simp

theorem members?_render {members : List (Bytes × Json)} (hne : members ≠ [])
    (hn : ∀ m ∈ members, ∃ s, m.1 = ofText s) (hp : ∀ m ∈ members, Parses m.2) (rest : Bytes)
    (fuel : Nat) (hf : 2 * (renderMembers members).length + 1 ≤ fuel) :
    members? fuel (renderMembers members ++ 125 :: rest) = some (members, rest) := by
  induction members generalizing fuel with
  | nil => exact absurd rfl hne
  | cons m members ih =>
    obtain ⟨name, v⟩ := m
    obtain ⟨s, hs⟩ := hn _ List.mem_cons_self
    have hs : name = ofText s := hs
    subst hs
    have hname : ∀ tail, rawString? (ofText s ++ 34 :: tail) = some (ofText s, tail) :=
      fun tail => rawString?_escape (Bytes.ofText s) tail
    have hv : Parses v := hp _ List.mem_cons_self
    cases fuel with
    | zero => omega
    | succ fuel =>
      cases members with
      | nil =>
        rw [renderMembers_single] at hf ⊢
        simp only [List.length_cons, List.length_append] at hf
        simp only [List.cons_append, List.append_assoc]
        rw [members?, skipSpace_cons (by decide)]
        simp only [hname, Option.bind_eq_bind, Option.bind_some,
          skipSpace_cons (by decide : isSpace 58 = false)]
        rw [hv fuel _ (by omega) (delimited_brace rest)]
        rfl
      | cons w members =>
        rw [renderMembers_cons] at hf ⊢
        simp only [List.length_cons, List.length_append] at hf
        simp only [List.cons_append, List.append_assoc]
        rw [members?, skipSpace_cons (by decide)]
        simp only [hname, Option.bind_eq_bind, Option.bind_some,
          skipSpace_cons (by decide : isSpace 58 = false)]
        rw [hv fuel _ (by omega) (delimited_comma _)]
        simp only [Option.bind_some, skipSpace_cons (by decide : isSpace 44 = false)]
        rw [ih (by simp) (fun m hm => hn m (List.mem_cons_of_mem _ hm))
          (fun m hm => hp m (List.mem_cons_of_mem _ hm)) fuel (by omega)]
        rfl

theorem renderMembers_head (m : Bytes × Json) (members : List (Bytes × Json)) :
    ∃ rest, renderMembers (m :: members) = 34 :: rest := by
  obtain ⟨name, v⟩ := m
  cases members with
  | nil => exact ⟨_, by rw [renderMembers]; rfl⟩
  | cons w members =>
    refine ⟨name ++ 34 :: 58 :: render v ++ 44 :: renderMembers (w :: members), ?_⟩
    rw [renderMembers]
    · rfl
    · simp

/-- An object ends with its brace, whatever comes behind it. -/
theorem value?_object {members : List (Bytes × Json)}
    (hn : ∀ m ∈ members, ∃ s, m.1 = ofText s) (hp : ∀ m ∈ members, Parses m.2) (fuel : Nat)
    (rest : Bytes) (hf : 2 * (render (object members)).length ≤ fuel) :
    value? fuel (render (object members) ++ rest) = some (object members, rest) := by
  have hr : render (object members) ++ rest = 123 :: (renderMembers members ++ 125 :: rest) := by
    rw [render]
    simp
  have hlen : (render (object members)).length = (renderMembers members).length + 2 := by
    rw [render]
    simp
  rw [hlen] at hf
  rw [hr]
  cases fuel with
  | zero => omega
  | succ fuel =>
    rw [value?, skipSpace_cons (by decide)]
    simp only
    cases members with
    | nil => rfl
    | cons m members =>
      obtain ⟨tail, hb⟩ := renderMembers_head m members
      have hmembers := members?_render (by simp) hn hp rest fuel (by omega)
      rw [hb, List.cons_append] at hmembers ⊢
      rw [skipSpace_cons (by decide)]
      split
      · rename_i heq
        exact absurd (List.cons.inj heq).1 (by decide)
      · rw [hmembers]
        rfl

theorem parses_object {members : List (Bytes × Json)}
    (hn : ∀ m ∈ members, ∃ s, m.1 = ofText s) (hp : ∀ m ∈ members, Parses m.2) :
    Parses (object members) := fun fuel rest hf _ => value?_object hn hp fuel rest hf

/-! ## Documents -/

/-- Every written document parses to itself, by induction on how it was written. -/
theorem Written.parses {v : Json} (h : Written v) : Parses v := by
  induction h with
  | integer n =>
    intro fuel rest hf hd
    obtain ⟨b, tail, hl, hb⟩ := literal_head n
    have hpos := render_length_pos (Written.integer n)
    cases fuel with
    | zero => omega
    | succ fuel =>
      rw [render]
      exact value?_number hl hb (numberLiteral?_literal n hd) fuel
  | text s =>
    intro fuel rest hf _
    have hpos := render_length_pos (Written.text s)
    cases fuel with
    | zero => omega
    | succ fuel => exact value?_string s rest fuel
  | array hw ih => exact parses_array hw ih
  | object hn _ ih => exact parses_object hn ih

theorem parse?_render {v : Json} (h : Written v) : parse? (render v) = some v := by
  have hp := h.parses (2 * (render v).length + 2) [] (by omega) (by simp [Delimited])
  rw [List.append_nil] at hp
  rw [parse?, hp]
  rfl

/-- An object may be followed by white space. -/
theorem parse?_object {members : List (Bytes × Json)} (h : Written (object members))
    {rest : Bytes} (hrest : skipSpace rest = []) :
    parse? (render (object members) ++ rest) = some (object members) := by
  cases h with
  | object hn hw =>
    rw [parse?, value?_object hn (fun m hm => (hw m hm).parses) _ rest (by simp; omega)]
    simp [hrest]

/-! ## Bytes of documents -/

/-- A property of bytes that the parts of documents have and that joining them keeps. -/
structure Kept (P : Bytes → Prop) : Prop where
  nil : P []
  append : ∀ {a b}, P a → P b → P (a ++ b)
  mark : ∀ b ∈ [(34 : UInt8), 44, 58, 91, 93, 123, 125], P [b]
  literal : ∀ n, P (literal n)
  text : ∀ s, P (ofText s)

section Kept
variable {P : Bytes → Prop}

theorem Kept.items (hP : Kept P) {items : List Json} (h : ∀ v ∈ items, P (render v)) :
    P (renderItems items) := by
  induction items with
  | nil => exact hP.nil
  | cons v items ih =>
    have hv := h v List.mem_cons_self
    cases items with
    | nil =>
      rw [renderItems]
      exact hv
    | cons w items =>
      rw [renderItems_cons]
      have hrest := ih fun x hx => h x (List.mem_cons_of_mem v hx)
      exact hP.append hv (hP.append (hP.mark 44 (by decide)) hrest)

theorem Kept.members (hP : Kept P) {members : List (Bytes × Json)}
    (hn : ∀ m ∈ members, ∃ s, m.1 = ofText s) (h : ∀ m ∈ members, P (render m.2)) :
    P (renderMembers members) := by
  induction members with
  | nil => exact hP.nil
  | cons m members ih =>
    have hv := h m List.mem_cons_self
    obtain ⟨s, hs⟩ := hn m List.mem_cons_self
    obtain ⟨name, v⟩ := m
    have hs : name = ofText s := hs
    have hquote : P [34] := hP.mark 34 (by decide)
    have hcolon : P [58] := hP.mark 58 (by decide)
    have hname := hP.append hquote (hP.append (hs ▸ hP.text s) (hP.append hquote hcolon))
    cases members with
    | nil =>
      rw [renderMembers_single]
      have hall := hP.append hname hv
      simpa using hall
    | cons w members =>
      have hrest := ih (fun x hx => hn x (List.mem_cons_of_mem _ hx))
        fun x hx => h x (List.mem_cons_of_mem _ hx)
      rw [renderMembers_cons]
      have hall := hP.append (hP.append hname hv) (hP.append (hP.mark 44 (by decide)) hrest)
      simpa using hall

/-- A written document has it, by induction on how it was written. -/
theorem Written.kept (hP : Kept P) {v : Json} (h : Written v) : P (render v) := by
  induction h with
  | integer n =>
    rw [render]
    exact hP.literal n
  | text s =>
    have hquote : P [34] := hP.mark 34 (by decide)
    rw [render]
    exact hP.append (hP.append hquote (hP.text s)) hquote
  | array _ ih =>
    rw [render]
    exact hP.append (hP.append (hP.mark 91 (by decide)) (hP.items ih)) (hP.mark 93 (by decide))
  | object hn _ ih =>
    rw [render]
    exact hP.append (hP.append (hP.mark 123 (by decide)) (hP.members hn ih))
      (hP.mark 125 (by decide))

end Kept

theorem isText_byte {b : UInt8} (h : b.toNat < 128) : Bytes.IsText [b] :=
  Bytes.isText_of_ascii (by simpa using h)

/-- The rendering of a written document is well-formed text. -/
theorem Written.isText {v : Json} (h : Written v) : Bytes.IsText (render v) := by
  refine h.kept ⟨Bytes.isText_ofText "", Bytes.IsText.append, ?_, isText_literal,
    Bytes.isText_string⟩
  have hall : ∀ b ∈ [(34 : UInt8), 44, 58, 91, 93, 123, 125], b.toNat < 128 := by simp
  exact fun b hb => isText_byte (hall b hb)

/-- No control byte stands in it. -/
theorem Written.printable {v : Json} (h : Written v) : ∀ b ∈ render v, 32 ≤ b.toNat := by
  have hdigit : ∀ n < 256, Bytes.isDigit (UInt8.ofNat n) = true → 32 ≤ (UInt8.ofNat n).toNat := by
    decide +kernel
  have hescape : ∀ n < 256, (escapeByte (UInt8.ofNat n)).all (32 ≤ ·.toNat) = true := by
    decide +kernel
  have hnumeral : ∀ n, ∀ b ∈ numeral n, 32 ≤ b.toNat := by
    intro n b hb
    have hbyte := hdigit b.toNat b.toNat_lt
    rw [UInt8.ofNat_toNat] at hbyte
    exact hbyte (isDigit_numeral n b hb)
  refine Written.kept (P := fun bs => ∀ b ∈ bs, 32 ≤ b.toNat)
    ⟨by simp, fun ha hb => ?_, by simp, fun n => ?_, fun s b hb => ?_⟩ h
  · exact fun x hx => (List.mem_append.1 hx).elim (ha x) (hb x)
  · cases n with
    | ofNat n => exact hnumeral n
    | negSucc n =>
      have hl : literal (Int.negSucc n) = 45 :: numeral (n + 1) := number.inj (ofInt_negSucc n)
      rw [hl]
      exact List.forall_mem_cons.2 ⟨by decide, hnumeral (n + 1)⟩
  · obtain ⟨x, _, hx⟩ := List.mem_flatMap.1 hb
    have hx' := List.all_eq_true.1 (hescape x.toNat x.toNat_lt) b
    rw [UInt8.ofNat_toNat] at hx'
    exact of_decide_eq_true (hx' hx)

end HeapTelemetry.Json
