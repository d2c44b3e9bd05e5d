import HeapTelemetry.Proofs.Backfill
import HeapTelemetry.Proofs.Storage.SiteLabels

/-! Which call stacks are told apart. A frame is written as a line of name, file and number
with colons between them, and nothing is escaped: as long as no text has a newline, and no
name has a colon or no file has one, different stacks have different bytes. Sessions then keep
all call-sites apart, but for collisions of the hash. -/

namespace HeapTelemetry

/-! ## Bytes of texts and numbers -/

/-- The byte of an ASCII character stands in a text only where the character does. -/
theorem Bytes.not_mem_ofText {s : String} {c : Char} (hc : c.val.toNat < 128)
    (h : c ∉ s.toList) : UInt8.ofNat c.val.toNat ∉ Bytes.ofText s := by
  intro hmem
  rw [← String.ofList_toList (s := s), Bytes.ofText_ofList, List.mem_flatMap] at hmem
  obtain ⟨d, hd, hbyte⟩ := hmem
  have hvalue : (UInt8.ofNat c.val.toNat).toNat = c.val.toNat := by
    rw [UInt8.toNat_ofNat']
    omega
  rcases Bytes.utf8EncodeChar_cases d with ⟨b, hb, _⟩ | hhigh
  · rw [hb, List.mem_singleton] at hbyte
    subst hbyte
    rw [String.utf8EncodeChar] at hb
    by_cases hle : d.val.toNat ≤ 0x7f
    · have hsame := congrArg UInt8.toNat (List.head_eq_of_cons_eq ((if_pos hle).symm.trans hb))
      rw [hvalue, UInt8.toNat_ofNat'] at hsame
      have hdc : d = c := Char.ext (UInt32.toNat_inj.1 (by omega))
      exact h (hdc ▸ hd)
    · have hlength := congrArg List.length hb
      simp only [hle, ↓reduceIte] at hlength
      split at hlength
      · cases hlength
      · split at hlength <;> cases hlength
  · have hlow := hhigh _ hbyte
    omega

/-- What stands before the first separator. -/
theorem eq_of_cons_append {α : Type} {x : α} {a b c d : List α} (ha : x ∉ a) (hc : x ∉ c)
    (h : a ++ x :: b = c ++ x :: d) : a = c := by
  have hreverse := congrArg List.reverse h
  simp only [List.reverse_append, List.reverse_cons, List.append_assoc, List.singleton_append]
    at hreverse
  exact List.reverse_inj.1
    (eq_of_append_cons (mt List.mem_reverse.1 ha) (mt List.mem_reverse.1 hc) hreverse)

/-- A literal has digits, and a minus sign if it is negative. -/
theorem Json.mem_literal {n : Int} {b : UInt8} (h : b ∈ Json.literal n) :
    b = 45 ∨ Bytes.isDigit b = true := by
  cases n with
  | ofNat k => exact Or.inr (Json.isDigit_numeral k b h)
  | negSucc k =>
    have hlit : Json.literal (Int.negSucc k) = 45 :: Json.numeral (k + 1) :=
      Json.number.inj (Json.ofInt_negSucc k)
    rw [hlit, List.mem_cons] at h
    exact h.imp_right (Json.isDigit_numeral (k + 1) b)

/-! ## Lines of frames -/

namespace Frame

/-- What stands before the last colon of a frame's line. -/
def place (f : Frame) : String := f.name ++ ":" ++ f.file

/-- No newline in the name or the file. -/
def OneLine (f : Frame) : Prop := '\n' ∉ f.name.toList ∧ '\n' ∉ f.file.toList

/-- Two frames with the same line: their names and files are joined to the same text. -/
def Alike (f g : Frame) : Prop := f.line = g.line ∧ f.place = g.place

instance (f g : Frame) : Decidable (Alike f g) := inferInstanceAs (Decidable (_ ∧ _))

theorem ofText_place (f : Frame) :
    Bytes.ofText f.place = Bytes.ofText f.name ++ 58 :: Bytes.ofText f.file := by
  have hcolon : Bytes.ofText ":" = [58] := by decide +kernel
  rw [place, Bytes.ofText_append, Bytes.ofText_append, hcolon, List.append_assoc]
  rfl

theorem identity_eq (f : Frame) : f.identity =
    (Bytes.ofText f.place ++ 58 :: Json.literal f.line.toInt) ++ [Bytes.newline] := by
  rw [ofText_place, identity]
  simp [Json.literal]

/-- The number of a frame stands behind the last colon of its line. -/
theorem identity_eq_iff (f g : Frame) : f.identity = g.identity ↔ f.Alike g := by
  rw [identity_eq, identity_eq, List.append_left_inj]
  constructor
  · intro h
    have hline := eq_of_append_cons (colon_not_mem_literal _) (colon_not_mem_literal _) h
    rw [hline, List.append_left_inj] at h
    exact ⟨Int32.toInt_inj.1 (literal_injective hline), Bytes.ofText_injective h⟩
  · rintro ⟨hline, hplace⟩
    rw [hline, hplace]

/-- A name without a colon ends at the first one. -/
theorem Alike.eq_of_names {f g : Frame} (h : f.Alike g) (hf : ':' ∉ f.name.toList)
    (hg : ':' ∉ g.name.toList) : f = g := by
  obtain ⟨hline, hplace⟩ := h
  have htexts := congrArg Bytes.ofText hplace
  rw [ofText_place, ofText_place] at htexts
  have hname := eq_of_cons_append (Bytes.not_mem_ofText (c := ':') (by decide) hf)
    (Bytes.not_mem_ofText (c := ':') (by decide) hg) htexts
  rw [hname, List.append_right_inj] at htexts
  cases f
  cases g
  simp only at hline htexts hname
  rw [hline, Bytes.ofText_injective hname, Bytes.ofText_injective (List.cons.inj htexts).2]

/-- A file without a colon starts behind the last one. -/
theorem Alike.eq_of_files {f g : Frame} (h : f.Alike g) (hf : ':' ∉ f.file.toList)
    (hg : ':' ∉ g.file.toList) : f = g := by
  obtain ⟨hline, hplace⟩ := h
  have htexts := congrArg Bytes.ofText hplace
  rw [ofText_place, ofText_place] at htexts
  have hfile := eq_of_append_cons (Bytes.not_mem_ofText (c := ':') (by decide) hf)
    (Bytes.not_mem_ofText (c := ':') (by decide) hg) htexts
  rw [hfile, List.append_left_inj] at htexts
  cases f
  cases g
  simp only at hline htexts hfile
  rw [hline, Bytes.ofText_injective htexts, Bytes.ofText_injective hfile]

end Frame

/-! ## Bytes of stacks -/

namespace CallStack

/-- The line of each frame is a line of the bytes. -/
theorem lines_identity {frames : List Frame} (h : ∀ f ∈ frames, f.OneLine) :
    Bytes.lines (frames.flatMap Frame.identity) = frames.map Frame.identity := by
  induction frames with
  | nil => rfl
  | cons f frames ih =>
    obtain ⟨⟨hname, hfile⟩, hframes⟩ := List.forall_mem_cons.1 h
    have hbody : Bytes.newline ∉ Bytes.ofText f.place ++ 58 :: Json.literal f.line.toInt := by
      have hliteral : Bytes.newline ∉ Json.literal f.line.toInt := fun hmem =>
        absurd (Json.mem_literal hmem) (by decide)
      rw [f.ofText_place]
      simp only [List.mem_append, List.mem_cons, not_or]
      exact ⟨⟨Bytes.not_mem_ofText (c := '\n') (by decide) hname, by decide,
        Bytes.not_mem_ofText (c := '\n') (by decide) hfile⟩, by decide, hliteral⟩
    rw [List.flatMap_cons, f.identity_eq, List.append_assoc, List.singleton_append,
      Bytes.lines_append hbody, ih hframes, List.map_cons, f.identity_eq]

/-- Stacks without newlines have the same bytes if their frames have, one by one. -/
theorem identity_eq_iff {a b : CallStack} (ha : ∀ f ∈ a.frames, f.OneLine)
    (hb : ∀ f ∈ b.frames, f.OneLine) :
    a.identity = b.identity ↔ List.Forall₂ Frame.Alike a.frames b.frames := by
  have hframes : ∀ xs ys : List Frame, xs.map Frame.identity = ys.map Frame.identity ↔
      List.Forall₂ Frame.Alike xs ys := by
    intro xs ys
    rw [← List.forall₂_eq_eq_eq, List.forall₂_map_left_iff, List.forall₂_map_right_iff]
    simp only [Frame.identity_eq_iff]
  rw [← hframes, ← lines_identity ha, ← lines_identity hb]
  constructor
  · intro h
    exact congrArg Bytes.lines h
  · intro h
    have hbytes := congrArg List.flatten h
    rwa [Bytes.flatten_lines, Bytes.flatten_lines] at hbytes

/-- Stacks that are written so that a line has one reading: no text has a newline, and either
no name has a colon or no file has one. -/
structure Separable (named : List CallStack) : Prop where
  oneLine : ∀ s ∈ named, ∀ f ∈ s.frames, f.OneLine
  colons : (∀ s ∈ named, ∀ f ∈ s.frames, ':' ∉ f.name.toList) ∨
    ∀ s ∈ named, ∀ f ∈ s.frames, ':' ∉ f.file.toList

/-- Different ones of the stacks have different bytes. -/
def Distinct (named : List CallStack) : Prop :=
  ∀ a ∈ named, ∀ b ∈ named, a.identity = b.identity → a = b

theorem Separable.distinct {named : List CallStack} (h : Separable named) : Distinct named := by
  intro a ha b hb hid
  have halike := (identity_eq_iff (h.oneLine a ha) (h.oneLine b hb)).1 hid
  have hone : ∀ f ∈ a.frames, ∀ g ∈ b.frames, f.Alike g → f = g := by
    intro f hf g hg hfg
    rcases h.colons with hnames | hfiles
    · exact hfg.eq_of_names (hnames a ha f hf) (hnames b hb g hg)
    · exact hfg.eq_of_files (hfiles a ha f hf) (hfiles b hb g hg)
  obtain ⟨hlength, hpairs⟩ := List.forall₂_iff_zip.1 halike
  have hframes : List.Forall₂ (· = ·) a.frames b.frames :=
    List.forall₂_iff_zip.2 ⟨hlength, fun hfg =>
      hone _ (List.of_mem_zip hfg).1 _ (List.of_mem_zip hfg).2 (hpairs hfg)⟩
  rw [List.forall₂_eq_eq_eq] at hframes
  obtain ⟨frames⟩ := a
  exact congrArg CallStack.mk hframes

/-- No two of the stacks have different bytes with the same hash. -/
def NoCollision (named : List CallStack) : Prop :=
  ∀ a ∈ named, ∀ b ∈ named, Digest.hash a.identity = Digest.hash b.identity →
    a.identity = b.identity

instance (named : List CallStack) : Decidable (NoCollision named) :=
  inferInstanceAs (Decidable (∀ a ∈ named, ∀ b ∈ named, _ → _))

theorem Distinct.eq_of_id {named : List CallStack} (h : Distinct named)
    (hhash : NoCollision named) {a b : CallStack} (ha : a ∈ named) (hb : b ∈ named)
    (hid : a.id = b.id) : a = b :=
  h a ha b hb (hhash a ha b hb hid)

end CallStack

/-! ## Sessions -/

namespace Measurement

/-- The call-site of a stack in the measurement, if it is there. -/
def siteOf? (stack : CallStack) (m : Measurement) : Option Location :=
  m.locations.find? (·.stack = stack)

/-- Where ids are those of single stacks, a site is found by its stack. -/
theorem site?_id {m : Measurement} {stack : CallStack}
    (h : ∀ l ∈ m.locations, l.stack.id = stack.id → l.stack = stack) :
    m.site? stack.id = m.siteOf? stack := by
  have hsame : ∀ ls : List Location, (∀ l ∈ ls, l.stack.id = stack.id → l.stack = stack) →
      ls.find? (·.stack.id = stack.id) = ls.find? (·.stack = stack) := by
    intro ls
    induction ls with
    | nil => exact fun _ => rfl
    | cons l ls ih =>
      intro hls
      obtain ⟨hl, hls⟩ := List.forall_mem_cons.1 hls
      have hiff : l.stack.id = stack.id ↔ l.stack = stack := ⟨hl, fun heq => by rw [heq]⟩
      rw [List.find?_cons, List.find?_cons, ih hls]
      simp only [hiff]
  exact hsame m.locations h

/-- A measurement names an id twice exactly if it names a stack twice. -/
theorem unrepeated_iff {m : Measurement}
    (h : ∀ a ∈ m.locations, ∀ b ∈ m.locations, a.stack.id = b.stack.id → a.stack = b.stack) :
    m.Unrepeated ↔ (m.locations.map Location.stack).Nodup := by
  have hids : m.locations.map (fun l => l.stack.id) =
      (m.locations.map Location.stack).map CallStack.id := by
    rw [List.map_map]
    rfl
  rw [Unrepeated, hids]
  refine ⟨List.Nodup.of_map _, fun hstacks => hstacks.map_on fun a ha b hb hab => ?_⟩
  obtain ⟨l, hl, rfl⟩ := List.mem_map.1 ha
  obtain ⟨l', hl', rfl⟩ := List.mem_map.1 hb
  exact h l hl l' hl' hab

end Measurement

namespace SessionWindows
open Measurement CallStack

/-- Where ids are those of single stacks, the window of a stack has the latest points that
measurements have of it, from the first that names it. -/
theorem points?_replayed_of_distinct (capacity : Nat) {ms : List Measurement}
    (hms : ∀ m ∈ ms, m.Unrepeated) {stack : CallStack}
    (h : ∀ m ∈ ms, ∀ l ∈ m.locations, l.stack.id = stack.id → l.stack = stack) :
    (replayed capacity ms).points? stack =
      (ms.findIdx? fun m => (m.siteOf? stack).isSome).map fun first =>
        ((ms.drop first).map fun m =>
          (⟨m.observedAt, ((m.siteOf? stack).map Location.usage).getD Usage.zero⟩ : Point)).rtake
            (max capacity 1) := by
  have hsite : ∀ m ∈ ms, m.site? stack.id = m.siteOf? stack := fun m hm => site?_id (h m hm)
  have hfirst : ms.findIdx? (fun m => (m.site? stack.id).isSome) =
      ms.findIdx? fun m => (m.siteOf? stack).isSome := by
    have hmapped := congrArg (List.findIdx? Option.isSome) (List.map_congr_left hsite)
    rwa [List.findIdx?_map, List.findIdx?_map] at hmapped
  have hpoints : ∀ first, (ms.drop first).map (point stack.id) = (ms.drop first).map fun m =>
      (⟨m.observedAt, ((m.siteOf? stack).map Location.usage).getD Usage.zero⟩ : Point) :=
    fun first => List.map_congr_left fun m hm => by
      rw [point, hsite m (List.mem_of_mem_drop hm)]
  rw [points?, window_replayed capacity hms, hfirst]
  simp only [hpoints]

/-- Different ones of some stacks have different bytes exactly if a measurement of these stacks is
refused only for naming one of them twice, as long as the hash does not collide on them. -/
theorem distinct_iff_refused {named : List CallStack} (hhash : NoCollision named) :
    Distinct named ↔ ∀ m : Measurement, (∀ l ∈ m.locations, l.stack ∈ named) →
      ∀ w : SessionWindows,
        (∃ e, w.register m = .error e) ↔ ¬ (m.locations.map Location.stack).Nodup := by
  have hrefused : ∀ (m : Measurement) (w : SessionWindows),
      (∃ e, w.register m = .error e) ↔ ¬ m.Unrepeated := by
    intro m w
    refine ⟨?_, register_repeated w⟩
    rintro ⟨e, he⟩ hm
    obtain ⟨w', hw'⟩ := register_unrepeated w hm
    rw [hw'] at he
    cases he
  constructor
  · intro hnamed m hstacks w
    rw [hrefused, unrepeated_iff fun a ha b hb =>
      hnamed.eq_of_id hhash (hstacks a ha) (hstacks b hb)]
  · intro hregister a ha b hb hid
    by_contra hne
    -- Both in one measurement have one id, and are two stacks.
    let both : Measurement := ⟨Timestamp.ofNanos 0, [⟨a, Usage.zero⟩, ⟨b, Usage.zero⟩]⟩
    have hstacks : ∀ l ∈ both.locations, l.stack ∈ named := by simp [both, ha, hb]
    have hrepeated : ¬ both.Unrepeated := by
      have hsame : a.id = b.id := congrArg Digest.hash hid
      simp [both, Unrepeated, hsame]
    refine (hregister both hstacks (empty 0)).1 ((hrefused both _).2 hrepeated) ?_
    simp [both, hne]

/-- Of stacks without newlines, two have the same bytes exactly if they have as many frames,
with the same lines and with names and files that give the same text when joined by a colon.
So different stacks without newlines, in which no name has a colon or no file has one, have
different bytes. Of stacks that have, two with the same id are a collision of the hash; where
there is none, having different bytes is the same as that a session refuses measurements of
them exactly for naming a call stack twice. The window of a stack then has one point for every
accepted measurement from the first that names it, with the usage that is reported for this
stack, or without usage, up to the capacity. -/
theorem call_sites_told_apart (named : List CallStack) :
    (∀ a b : CallStack, (∀ f ∈ a.frames, f.OneLine) → (∀ f ∈ b.frames, f.OneLine) →
      (a.identity = b.identity ↔ List.Forall₂ Frame.Alike a.frames b.frames)) ∧
    (Separable named → Distinct named) ∧
    (Distinct named → ∀ a ∈ named, ∀ b ∈ named, a.id = b.id → a = b ∨
      a.identity ≠ b.identity ∧ Digest.hash a.identity = Digest.hash b.identity) ∧
    (NoCollision named →
      (Distinct named ↔ ∀ m : Measurement, (∀ l ∈ m.locations, l.stack ∈ named) →
        ∀ w : SessionWindows,
          (∃ e, w.register m = .error e) ↔ ¬ (m.locations.map Location.stack).Nodup) ∧
      (Distinct named → ∀ (capacity : Nat) (uses : List Use),
        callStacks (uses.filterMap Use.offered?) ⊆ named →
        let c := (Course.started capacity).useAll uses
        c.accepted = (uses.filterMap Use.offered?).filter
          (fun m => (m.locations.map Location.stack).Nodup) ∧
        ∀ stack ∈ named, c.windows.points? stack =
          (c.accepted.findIdx? fun m => (m.siteOf? stack).isSome).map fun first =>
            ((c.accepted.drop first).map fun m => (⟨m.observedAt,
              ((m.siteOf? stack).map Location.usage).getD Usage.zero⟩ : Point)).rtake
                (max capacity 1))) := by
  refine ⟨fun a b => identity_eq_iff, Separable.distinct, fun hnamed a ha b hb hid => ?_,
    fun hhash => ⟨distinct_iff_refused hhash, fun hnamed capacity uses huses => ?_⟩⟩
  · by_cases hbytes : a.identity = b.identity
    · exact Or.inl (hnamed a ha b hb hbytes)
    · exact Or.inr ⟨hbytes, hid⟩
  intro c
  have hstacks : ∀ m ∈ uses.filterMap Use.offered?, ∀ l ∈ m.locations, l.stack ∈ named :=
    fun m hm l hl => huses (List.mem_flatMap.2 ⟨m, hm, List.mem_map_of_mem hl⟩)
  have hunrepeated : ∀ m ∈ uses.filterMap Use.offered?,
      m.Unrepeated ↔ (m.locations.map Location.stack).Nodup := fun m hm =>
    unrepeated_iff fun a ha b hb => hnamed.eq_of_id hhash (hstacks m hm a ha) (hstacks m hm b hb)
  have hfilled : Course.Filled capacity c := (Course.filled_started capacity).useAll uses
  have haccepted : c.accepted = (uses.filterMap Use.offered?).filter (Unrepeated ·) :=
    Course.accepted_useAll capacity uses
  refine ⟨?_, fun stack hstack => ?_⟩
  · rw [haccepted]
    exact List.filter_congr fun m hm => decide_eq_decide.2 (hunrepeated m hm)
  · have hsites : c.windows.points? stack = (replayed capacity c.accepted).points? stack := by
      rw [points?, points?, hfilled.counters.1]
    rw [hsites]
    refine points?_replayed_of_distinct capacity hfilled.unrepeated fun m hm l hl hid => ?_
    rw [haccepted] at hm
    exact hnamed.eq_of_id hhash (hstacks m (List.mem_filter.1 hm).1 l hl) hstack hid

/-- Qualified names in files without colons. -/
def qualified : List CallStack :=
  [⟨[⟨"std::vector::push", "vector.h", 12⟩, ⟨"main", "main.cc", 3⟩]⟩,
    ⟨[⟨"std::vector", "push/vector.h", 12⟩, ⟨"main", "main.cc", 3⟩]⟩]

def qualifiedUses : List Use :=
  [.offer ⟨Timestamp.ofNanos 1000000000, qualified.map fun stack => ⟨stack, ⟨1, 64, 0, 0⟩⟩⟩,
    .report, .offer ⟨Timestamp.ofNanos 2000000000, []⟩]

theorem call_sites_told_apart_qualified :
    Separable qualified ∧ NoCollision qualified ∧
      callStacks (qualifiedUses.filterMap Use.offered?) ⊆ qualified ∧
      let c := (Course.started 3).useAll qualifiedUses
      c.accepted = qualifiedUses.filterMap Use.offered? ∧
        ∀ stack ∈ qualified, c.windows.points? stack =
          some [⟨Timestamp.ofNanos 1000000000, ⟨1, 64, 0, 0⟩⟩,
            ⟨Timestamp.ofNanos 2000000000, Usage.zero⟩] := by
  have hnamed : Separable qualified :=
    ⟨by simp only [Frame.OneLine]; decide +kernel, Or.inr (by decide +kernel)⟩
  have hhash : NoCollision qualified := by decide +kernel
  have huses : callStacks (qualifiedUses.filterMap Use.offered?) ⊆ qualified := by decide
  obtain ⟨_, hdistinct, _, hsession⟩ := call_sites_told_apart qualified
  obtain ⟨haccepted, hpoints⟩ := (hsession hhash).2 (hdistinct hnamed) 3 qualifiedUses huses
  have hall : ((qualifiedUses.filterMap Use.offered?).filter
      fun m => (m.locations.map Location.stack).Nodup) = qualifiedUses.filterMap Use.offered? := by
    decide
  rw [hall] at haccepted
  refine ⟨hnamed, hhash, huses, haccepted, fun stack hstack => ?_⟩
  rw [hpoints stack hstack, haccepted]
  revert stack
  decide

/-- A colon between name and file is not told from one inside them, nor the end of a frame
from a newline in a file. So one measurement with both call-sites is refused, and two
measurements with one of them each go into one window. -/
theorem joined_texts_confuse_call_sites :
    let a : CallStack := ⟨[⟨"a:b", "c", 1⟩]⟩
    let b : CallStack := ⟨[⟨"a", "b:c", 1⟩]⟩
    let together : Measurement := ⟨Timestamp.ofNanos 1, [⟨a, ⟨1, 8, 0, 0⟩⟩, ⟨b, ⟨2, 16, 0, 0⟩⟩]⟩
    let apart : List Measurement := [⟨Timestamp.ofNanos 1, [⟨a, ⟨1, 8, 0, 0⟩⟩]⟩,
      ⟨Timestamp.ofNanos 2, [⟨b, ⟨2, 16, 0, 0⟩⟩]⟩]
    a ≠ b ∧ a.identity = b.identity ∧
      (CallStack.identity ⟨[⟨"a", "b", 1⟩, ⟨"c", "d", 2⟩]⟩ =
        CallStack.identity ⟨[⟨"a", "b:1\nc:d", 2⟩]⟩) ∧
      (together.locations.map Location.stack).Nodup ∧
      (empty 3).register together =
        .error (.repeatedCallStack together.observedAt.display a.id) ∧
      (replayed 3 apart).points? a = some [⟨Timestamp.ofNanos 1, ⟨1, 8, 0, 0⟩⟩,
        ⟨Timestamp.ofNanos 2, ⟨2, 16, 0, 0⟩⟩] ∧
      (replayed 3 apart).sites.length = 1 := by
  intro a b together apart
  have hid : a.identity = b.identity := by decide +kernel
  have hids : repeated? (together.locations.map fun l => l.stack.id) = some a.id := by
    have hsame : b.id = a.id := congrArg Digest.hash hid.symm
    show repeated? [a.id, b.id] = some a.id
    rw [hsame, repeated?, repeated?.go, if_neg List.not_mem_nil, repeated?.go,
      if_pos List.mem_cons_self]
  have hregister : (empty 3).register together =
      .error (.repeatedCallStack together.observedAt.display a.id) := by
    rw [register, hids]
  exact ⟨by decide, hid, by decide +kernel, by decide, hregister, by decide +kernel,
    by decide +kernel⟩

end SessionWindows
end HeapTelemetry
