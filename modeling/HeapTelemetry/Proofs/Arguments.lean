import HeapTelemetry.CommandLine
import HeapTelemetry.Proofs.Lists
import Mathlib.Data.List.TakeDrop

/-! What the arguments and the environment say about each flag. `options` reads the arguments
with no memory but the flag whose value is to come next. The scan settles a flag only when the
next one comes; it takes the same options in the same order. -/

namespace HeapTelemetry.CommandLine

/-! ## The options that are written out -/

/-- The options in the letters of one argument, and the flag that waits for its value. Between
a letter and the value there may be an equals sign. -/
def letters : List Char → Option (List (Flag × String) × Option Flag)
  | [] => some ([], none)
  | c :: rest =>
    match Flag.all.find? (·.letter? = some c) with
    | none => none
    | some f =>
      if f.takesValue then
        if rest = [] then some ([], some f)
        else
          let v := if rest.head? = some '=' then rest.tail else rest
          some ([(f, String.ofList v)], none)
      else (letters rest).map fun (given, waiting) => ((f, "true") :: given, waiting)

def longName (name : String) : Option String → Option (List (Flag × String) × Option Flag)
  | none => (Flag.all.find? (·.name = name)).map fun f =>
    if f.takesValue then ([], some f) else ([(f, "true")], none)
  | some v => (Flag.all.find? (·.name = name)).bind fun f =>
    if f.takesValue then some ([(f, v)], none) else none

/-- The options in one argument. -/
def word (arg : String) : Option (List (Flag × String) × Option Flag) :=
  match arg.toList with
  | '-' :: '-' :: cs =>
    let (name, rest) := cs.span (· ≠ '=')
    longName (String.ofList name) (match rest with
      | [] => none
      | _ :: v => some (String.ofList v))
  | '-' :: c :: cs => letters (c :: cs)
  | _ => none

/-- The options in all arguments behind a flag that waits for its value, if one does. -/
def options : Option Flag → List String → Option (List (Flag × String))
  | none, [] => some []
  | some _, [] => none
  | some f, v :: rest =>
    if Scan.looksLikeFlag v then none else (options none rest).map ((f, v) :: ·)
  | none, arg :: rest =>
    if arg = "--" then if rest = [] then some [] else none
    else (word arg).bind fun (given, waiting) => (options waiting rest).map (given ++ ·)

/-! ### How they are written -/

theorem not_mem_name (f : Flag) : '=' ∉ f.name.toList := by cases f <;> decide

theorem name_ne_dashes (f : Flag) : "--" ++ f.name ≠ "--" := by cases f <;> decide

theorem find?_name (f : Flag) : Flag.all.find? (·.name = f.name) = some f := by cases f <;> decide

theorem word_name (f : Flag) : word ("--" ++ f.name) =
    some (if f.takesValue then ([], some f) else ([(f, "true")], none)) := by
  cases f <;> decide

theorem word_name_value (f : Flag) (v : String) : word ("--" ++ f.name ++ "=" ++ v) =
    if f.takesValue then some ([(f, v)], none) else none := by
  have hchars : ("--" ++ f.name ++ "=" ++ v).toList =
      '-' :: '-' :: (f.name.toList ++ '=' :: v.toList) := by
    simp
  have hname : ∀ c ∈ f.name.toList, decide (c ≠ '=') = true :=
    fun c hc => decide_eq_true fun heq => not_mem_name f (heq ▸ hc)
  have hspan : (f.name.toList ++ '=' :: v.toList).span (· ≠ '=') =
      (f.name.toList, '=' :: v.toList) := by
    rw [List.span_eq_takeWhile_dropWhile, List.takeWhile_append_of_pos hname,
      List.dropWhile_append_of_pos hname, List.takeWhile_cons_of_neg (by decide),
      List.dropWhile_cons_of_neg (by decide), List.append_nil]
  rw [word, hchars]
  simp only [hspan, String.ofList_toList, longName, find?_name]
  rfl

section
variable {f : Flag} (args : List String)

theorem options_of_word {arg : String} {given : List (Flag × String)} {waiting : Option Flag}
    (hdash : arg ≠ "--") (h : word arg = some (given, waiting)) :
    options none (arg :: args) = (options waiting args).map (given ++ ·) := by
  rw [options, if_neg hdash, h]
  rfl

theorem options_switch (hf : f.takesValue = false) :
    options none (("--" ++ f.name) :: args) = (options none args).map ((f, "true") :: ·) :=
  options_of_word args (name_ne_dashes f) (by rw [word_name, hf])

theorem options_attached (hf : f.takesValue = true) (v : String) :
    options none (("--" ++ f.name ++ "=" ++ v) :: args) = (options none args).map ((f, v) :: ·) := by
  refine options_of_word args (fun heq => ?_) ((word_name_value f v).trans (if_pos hf))
  have hlength := congrArg (fun s => s.toList.length) heq
  simp at hlength

theorem options_separate (hf : f.takesValue = true) {v : String}
    (hv : Scan.looksLikeFlag v = false) :
    options none (("--" ++ f.name) :: v :: args) = (options none args).map ((f, v) :: ·) := by
  have hvalue : options (some f) (v :: args) = (options none args).map ((f, v) :: ·) := by
    rw [options, if_neg (by simp [hv])]
  have hword : word ("--" ++ f.name) = some ([], some f) := by rw [word_name, if_pos hf]
  rw [options_of_word (v :: args) (name_ne_dashes f) hword, hvalue]
  exact Option.map_id'

end

/-! ## The scan -/

namespace Scan

/-- One scan is another that has taken some options more. -/
structure Took (s t : Scan) (given : List (Flag × String)) : Prop where
  given_eq : t.given = (given.map Prod.fst).reverse ++ s.given
  nodup : s.given.Nodup → t.given.Nodup
  line_eq : given.foldlM (fun c o => c.assign o.2 o.1) s.line = .ok t.line

variable {s t u : Scan}

theorem Took.of_eq (hgiven : t.given = s.given) (hline : t.line = s.line) : Took s t [] where
  given_eq := hgiven
  nodup h := hgiven ▸ h
  line_eq := by rw [hline]; rfl

theorem Took.trans {given more : List (Flag × String)} (h : Took s t given)
    (hmore : Took t u more) : Took s u (given ++ more) where
  given_eq := by
    rw [hmore.given_eq, h.given_eq, List.map_append, List.reverse_append, List.append_assoc]
  nodup hs := hmore.nodup (h.nodup hs)
  line_eq := by
    rw [List.foldlM_append, h.line_eq]
    exact hmore.line_eq

theorem accept_ok {f : Flag} {v : String} (h : s.accept f v = .ok t) :
    Took s t [(f, v)] ∧ t.pending = s.pending ∧ t.ended = s.ended := by
  rw [accept] at h
  split at h
  · cases h
  · obtain ⟨line, hline, ht⟩ := bind_eq_ok.1 h
    cases ht
    refine ⟨⟨rfl, fun hs => List.nodup_cons.2 ⟨‹_›, hs⟩, ?_⟩, rfl, rfl⟩
    rw [List.foldlM_cons, hline]
    rfl

/-- The option that is complete but not settled. -/
def held (s : Scan) : List (Flag × String) :=
  match s.pending with
  | some (f, some v) => [(f, v)]
  | _ => []

theorem held_eq_nil (h : s.pending = none) : s.held = [] := by rw [held, h]

theorem settle_ok (h : s.settle = .ok t) : (∀ f, s.pending ≠ some (f, none)) ∧
    Took s t s.held ∧ t.pending = none ∧ t.ended = s.ended := by
  rw [settle] at h
  split at h
  · rename_i hp
    cases h
    rw [held, hp]
    exact ⟨fun f => nofun, .of_eq rfl rfl, rfl, rfl⟩
  · cases h
  · rename_i f v hp
    obtain ⟨⟨hgiven, hnodup, hline⟩, hpending, hended⟩ := accept_ok h
    rw [held, hp]
    exact ⟨fun g => nofun, ⟨hgiven, hnodup, hline⟩, hpending, hended⟩

/-- The scan has read an argument with some options. -/
structure Read (s t : Scan) (given : List (Flag × String)) (waiting : Option Flag) : Prop where
  ready : ∀ f, s.pending ≠ some (f, none)
  took : Took s t (s.held ++ given)
  pending_eq : t.pending = waiting.map (·, none)
  ended_eq : t.ended = s.ended

theorem await_ok {f : Flag} (h : s.await f = .ok t) : Read s t [] (some f) := by
  obtain ⟨u, hu, ht⟩ := bind_eq_ok.1 h
  cases ht
  obtain ⟨hready, htook, -, hended⟩ := settle_ok hu
  exact ⟨hready, htook.trans (.of_eq rfl rfl), rfl, hended⟩

theorem settle_accept_ok {f : Flag} {v : String}
    (h : (s.settle >>= fun u => u.accept f v) = .ok t) : Read s t [(f, v)] none := by
  obtain ⟨u, hu, ht⟩ := bind_eq_ok.1 h
  obtain ⟨hready, htook, hpending, hended⟩ := settle_ok hu
  obtain ⟨hmore, hpending', hended'⟩ := accept_ok ht
  exact ⟨hready, htook.trans hmore, hpending'.trans hpending, hended'.trans hended⟩

theorem long_ok {name : String} {v : Option String} (h : s.long name v = .ok t) :
    ∃ given waiting, longName name v = some (given, waiting) ∧ Read s t given waiting := by
  rw [long.eq_def] at h
  rw [longName.eq_def]
  cases hf : Flag.all.find? (·.name = name) with
  | none => simp only [hf, reduceCtorEq] at h
  | some f =>
    cases v with
    | none =>
      simp only [hf] at h
      split at h
      · exact ⟨[], some f, congrArg some (if_pos ‹_›), await_ok h⟩
      · exact ⟨[(f, "true")], none, congrArg some (if_neg ‹_›), settle_accept_ok h⟩
    | some v =>
      simp only [hf] at h
      split at h
      · exact ⟨[(f, v)], none, if_pos ‹_›, settle_accept_ok h⟩
      · cases h

/-- The letters of an argument are read one by one. Only the first has something to settle. -/
theorem short_ok {cs : List Char} (h : s.short cs = .ok t) (hs : cs ≠ [] ∨ s.pending = none) :
    ∃ given waiting, letters cs = some (given, waiting) ∧ Read s t given waiting := by
  induction cs generalizing s with
  | nil =>
    have hp : s.pending = none := hs.resolve_left fun hne => hne rfl
    cases h
    refine ⟨[], none, rfl, fun f => by rw [hp]; nofun, ?_, hp, rfl⟩
    rw [held_eq_nil hp]
    exact .of_eq rfl rfl
  | cons c rest ih =>
    rw [short] at h
    rw [letters]
    cases hf : Flag.all.find? (·.letter? = some c) with
    | none => rw [hf] at h; cases h
    | some f =>
      simp only [hf] at h ⊢
      by_cases hvalue : f.takesValue = true
      · simp only [hvalue, ↓reduceIte] at h ⊢
        split at h
        · exact ⟨[], some f, rfl, await_ok h⟩
        · exact ⟨_, none, rfl, settle_accept_ok h⟩
        · rename_i hne hneq
          have hplain : rest.head? ≠ some '=' := fun heq =>
            (List.head?_eq_some_iff.1 heq).elim hneq
          exact ⟨_, none, by rw [if_neg hne, if_neg hplain], settle_accept_ok h⟩
      · simp only [hvalue, Bool.false_eq_true, ↓reduceIte] at h ⊢
        rw [← bind_assoc] at h
        obtain ⟨u, hu, hrest⟩ := bind_eq_ok.1 h
        have hread := settle_accept_ok hu
        obtain ⟨given, waiting, hletters, hmore⟩ := ih hrest (.inr hread.pending_eq)
        refine ⟨(f, "true") :: given, waiting, by rw [hletters]; rfl, hread.ready, ?_,
          hmore.pending_eq, hmore.ended_eq.trans hread.ended_eq⟩
        have htook := hread.took.trans hmore.took
        rwa [held_eq_nil hread.pending_eq, List.nil_append, List.append_assoc] at htook

theorem flag_ok {arg : String} (h : s.flag arg = .ok t) :
    ∃ given waiting, word arg = some (given, waiting) ∧ Read s t given waiting := by
  rw [flag] at h
  split at h
  · rename_i harg
    rw [word, harg]
    exact long_ok h
  · rename_i c cs hlong harg
    have hword : word arg = letters (c :: cs) := by
      rw [word, harg]
      split
      · rename_i heq
        cases heq
        exact (hlong rfl).elim
      · rename_i heq
        cases heq
        rfl
      · rename_i hshort
        exact absurd rfl (hshort _ _)
    rw [hword]
    exact short_ok h (.inl (List.cons_ne_nil _ _))
  · cases h

/-- The flag whose value is to come next. -/
def waiting (s : Scan) : Option Flag :=
  match s.pending with
  | some (f, none) => some f
  | _ => none

theorem waiting_eq_none (h : ∀ f, s.pending ≠ some (f, none)) : s.waiting = none := by
  rw [waiting]
  split
  · exact absurd ‹_› (h _)
  · rfl

theorem held_of_waiting {f : Flag} (h : s.waiting = some f) : s.held = [] := by
  rw [waiting] at h
  split at h
  · rename_i hp
    rw [held, hp]
  · cases h

theorem Read.waiting_eq {given : List (Flag × String)} {waiting : Option Flag}
    (h : Read s t given waiting) : t.held = [] ∧ t.waiting = waiting := by
  have hp := h.pending_eq
  cases waiting with
  | none => exact ⟨by rw [held, hp]; rfl, by rw [Scan.waiting, hp]; rfl⟩
  | some f => exact ⟨by rw [held, hp]; rfl, by rw [Scan.waiting, hp]; rfl⟩

/-- What one argument does to a scan: it is the value that a flag waits for, it is the end of
the options, or it has some itself. -/
inductive Stepped (s : Scan) (arg : String) : Scan → Prop
  | value {f : Flag} (hwaiting : s.waiting = some f) (hplain : looksLikeFlag arg = false) :
    Stepped s arg { s with pending := some (f, some arg) }
  | ending (hdash : arg = "--") : Stepped s arg { s with ended := true }
  | read {t : Scan} {given : List (Flag × String)} {waiting : Option Flag} (hdash : arg ≠ "--")
      (hword : word arg = some (given, waiting)) (hread : Read s t given waiting) : Stepped s arg t

theorem step_ok {arg : String} (h : s.step arg = .ok t) : s.ended = false ∧ Stepped s arg t := by
  rw [step] at h
  split at h
  · cases h
  · refine ⟨Bool.eq_false_iff.2 ‹_›, ?_⟩
    have hflag (hdash : arg ≠ "--") (h : s.flag arg = .ok t) : Stepped s arg t := by
      obtain ⟨given, waiting, hword, hread⟩ := flag_ok h
      exact .read hdash hword hread
    split at h
    · cases h
      exact .ending ‹_›
    · split at h
      · rename_i f hp
        split at h
        · exact hflag ‹_› h
        · cases h
          exact .value (by rw [waiting, hp]) (Bool.eq_false_iff.2 ‹_›)
      · exact hflag ‹_› h

/-- A scan takes the options that are written out, in their order. -/
theorem took_options {args : List String} (hrun : args.foldlM step s = .ok t)
    (hend : t.settle = .ok u) (hs : s.ended = false) :
    ∃ given, options s.waiting args = some given ∧ Took s u (s.held ++ given) := by
  induction args generalizing s with
  | nil =>
    cases hrun
    obtain ⟨hready, htook, -, -⟩ := settle_ok hend
    rw [waiting_eq_none hready]
    exact ⟨[], rfl, by rwa [List.append_nil]⟩
  | cons arg rest ih =>
    rw [List.foldlM_cons] at hrun
    obtain ⟨next, hstep, hrest⟩ := bind_eq_ok.1 hrun
    obtain ⟨-, hstepped⟩ := step_ok hstep
    cases hstepped with
    | @value f hwaiting hplain =>
      obtain ⟨more, hmore, htook⟩ := ih hrest hs
      have hmore : options none rest = some more := hmore
      refine ⟨(f, arg) :: more, ?_, ?_⟩
      · rw [hwaiting, options, hplain, hmore]
        rfl
      · rw [held_of_waiting hwaiting]
        exact ⟨htook.given_eq, htook.nodup, htook.line_eq⟩
    | ending hdash =>
      cases rest with
      | nil =>
        cases hrest
        obtain ⟨hready, htook, -, -⟩ := settle_ok hend
        have hready : ∀ f, s.pending ≠ some (f, none) := hready
        rw [waiting_eq_none hready, hdash]
        refine ⟨[], rfl, ?_⟩
        rw [List.append_nil]
        exact ⟨htook.given_eq, htook.nodup, htook.line_eq⟩
      | cons another rest =>
        rw [List.foldlM_cons] at hrest
        obtain ⟨_, hnext, -⟩ := bind_eq_ok.1 hrest
        have hended := (step_ok hnext).1
        cases hended
    | read hdash hword hread =>
      obtain ⟨more, hmore, htook⟩ := ih hrest (hread.ended_eq.trans hs)
      obtain ⟨hheld, hwaiting⟩ := hread.waiting_eq
      rw [hheld, List.nil_append] at htook
      rw [hwaiting] at hmore
      rw [waiting_eq_none hread.ready, options, if_neg hdash, hword]
      refine ⟨_, congrArg (Option.map _) hmore, ?_⟩
      rw [← List.append_assoc]
      exact hread.took.trans htook

end Scan

/-! ## What is said about a flag -/

/-- The text that an option gives for the flag, or else the environment. -/
def said (given : List (Flag × String)) (environment : String → Option String) (f : Flag) :
    Option String :=
  (given.lookup f).or (f.environmentName?.bind environment)

/-- A value is the one that a text says, or the other one if there is no text. -/
def Follows {α : Type} (read : String → Option α) (otherwise : α) (said : Option String)
    (value : α) : Prop :=
  match said with
  | none => value = otherwise
  | some v => read v = some value

/-- What a command line has for a flag is what is said about it. -/
def Holds (c : CommandLine) (said : Option String) : Flag → Prop
  | .port => Follows (fun v => (port? v).toOption.map some) none said c.port
  | .dataDir => Follows (fun v => (path? v).toOption.map some) none said c.dataDir
  | .backend => Follows (fun v => (BackendKind.ofName? v).map some) none said c.backend
  | .syncWrite => Follows (fun v => (bool? v).toOption) false said c.syncWrite
  | .window => Follows (fun v => (Text.unsigned64? v).map some) none said c.window
  | .config => Follows (fun v => (path? v).toOption.map some) none said c.config
  | .debug => Follows (fun v => (bool? v).toOption) false said c.debug
  | .checkConfig => Follows (fun v => (bool? v).toOption) false said c.checkConfig
  | .showVersion => Follows (fun v => (bool? v).toOption) false said c.showVersion
  | .help => said = none

variable {c d : CommandLine}

theorem holds_empty (f : Flag) : empty.Holds none f := by cases f <;> rfl

/-- One assignment is seen in its own flag and in no other. -/
theorem assign_ok {v : String} {f : Flag} (h : c.assign v f = .ok d) :
    d.Holds (some v) f ∧ ∀ g ≠ f, ∀ said, c.Holds said g → d.Holds said g := by
  have hothers (hsame : ∀ g ≠ f, ∀ said, c.Holds said g = d.Holds said g) :
      ∀ g ≠ f, ∀ said, c.Holds said g → d.Holds said g :=
    fun g hg said => (hsame g hg said).mp
  cases f with
  | backend =>
    rw [assign] at h
    split at h
    · cases h
      exact ⟨by simp [Holds, Follows, *], hothers fun g hg _ => by cases g <;> trivial⟩
    · cases h
  | window =>
    rw [assign] at h
    split at h
    · cases h
      exact ⟨by simp [Holds, Follows, *], hothers fun g hg _ => by cases g <;> trivial⟩
    · cases h
  | help => cases h
  | port | dataDir | syncWrite | config | debug | checkConfig | showVersion =>
    obtain ⟨x, hx, hd⟩ := bind_eq_ok.1 h
    cases hd
    exact ⟨by simp [Holds, Follows, hx, Except.toOption],
      hothers fun g hg _ => by cases g <;> trivial⟩

/-- The options of a list in which no flag stands twice are all held. -/
theorem holds_assigned {given : List (Flag × String)} {before : Flag → Option String}
    (hrun : given.foldlM (fun c o => c.assign o.2 o.1) c = .ok d)
    (hnodup : (given.map Prod.fst).Nodup) (hc : ∀ f, c.Holds (before f) f) (f : Flag) :
    d.Holds ((given.lookup f).or (before f)) f := by
  induction given generalizing c before with
  | nil =>
    cases hrun
    exact hc f
  | cons o rest ih =>
    obtain ⟨g, v⟩ := o
    obtain ⟨hg, hrest⟩ := List.nodup_cons.1 hnodup
    rw [List.foldlM_cons] at hrun
    obtain ⟨next, hassign, hrun⟩ := bind_eq_ok.1 hrun
    obtain ⟨hown, hothers⟩ := assign_ok hassign
    have hnext : ∀ f, next.Holds (if f = g then some v else before f) f := fun f => by
      split
      · subst f
        exact hown
      · exact hothers f ‹_› _ (hc f)
    have hall := ih hrun hrest hnext
    by_cases hf : f = g
    · subst f
      have hnone : rest.lookup g = none := by
        rw [List.lookup_eq_none_iff]
        exact fun o ho => bne_iff_ne.2 fun heq => hg (List.mem_map.2 ⟨o, ho, heq.symm⟩)
      rw [hnone, if_pos rfl, Option.none_or] at hall
      rwa [List.lookup_cons_self, Option.some_or]
    · rw [if_neg hf] at hall
      rwa [List.lookup_cons, beq_eq_false_iff_ne.2 hf]

/-- The environment stands in for a flag that is not given. -/
theorem complete_ok {environment : String → Option String} {g : Flag} {s t : Scan}
    {before : Flag → Option String} (h : s.complete environment g = .ok t)
    (hg : g ∈ s.given ↔ before g ≠ none) (hs : ∀ f, s.line.Holds (before f) f) :
    t.given = s.given ∧ ∀ f, t.line.Holds
      (if f = g then (before f).or (f.environmentName?.bind environment) else before f) f := by
  have hsame (hor : (before g).or (g.environmentName?.bind environment) = before g) (f : Flag) :
      s.line.Holds
        (if f = g then (before f).or (f.environmentName?.bind environment) else before f) f := by
    split
    · subst f
      rw [hor]
      exact hs g
    · exact hs f
  rw [Scan.complete] at h
  split at h
  · cases h
    obtain ⟨v, hv⟩ := Option.ne_none_iff_exists'.1 (hg.1 ‹_›)
    exact ⟨rfl, hsame (by rw [hv, Option.some_or])⟩
  · have hnone : before g = none := Classical.not_not.1 (mt hg.2 ‹_›)
    split at h
    · cases h
      exact ⟨rfl, hsame (by rw [hnone, Option.none_or]; assumption)⟩
    · rename_i v hv
      obtain ⟨line, hline, ht⟩ := bind_eq_ok.1 h
      cases ht
      obtain ⟨hown, hothers⟩ := assign_ok hline
      refine ⟨rfl, fun f => ?_⟩
      split
      · subst f
        rw [hnone, Option.none_or, hv]
        exact hown
      · exact hothers f ‹_› _ (hs f)

theorem holds_completed {environment : String → Option String} {fs : List Flag} {s t : Scan}
    {before : Flag → Option String}
    (hrun : fs.foldlM (Scan.complete environment) s = .ok t) (hnodup : fs.Nodup)
    (hgiven : ∀ f ∈ fs, f ∈ s.given ↔ before f ≠ none) (hs : ∀ f, s.line.Holds (before f) f)
    (f : Flag) : t.line.Holds
      (if f ∈ fs then (before f).or (f.environmentName?.bind environment) else before f) f := by
  induction fs generalizing s before with
  | nil =>
    cases hrun
    exact hs f
  | cons g rest ih =>
    obtain ⟨hg, hrest⟩ := List.nodup_cons.1 hnodup
    rw [List.foldlM_cons] at hrun
    obtain ⟨next, hcomplete, hrun⟩ := bind_eq_ok.1 hrun
    obtain ⟨hkept, hnext⟩ := complete_ok hcomplete (hgiven g List.mem_cons_self) hs
    have hall := ih hrun hrest (fun f hf => by
      have hne : f ≠ g := fun heq => hg (heq ▸ hf)
      rw [hkept, if_neg hne]
      exact hgiven f (List.mem_cons_of_mem g hf)) hnext
    by_cases hf : f = g
    · subst f
      simpa only [hg, ↓reduceIte, List.mem_cons_self] using hall
    · simpa only [hf, ↓reduceIte, List.mem_cons, false_or] using hall

theorem Flag.mem_all (f : Flag) : f ∈ Flag.all := by cases f <;> decide

/-- An accepted command line has for every flag what is written out for it, once at most, or
else what the environment has. -/
theorem parse_ok {args : List String} {environment : String → Option String}
    (h : parse args environment = .ok c) : ∃ given, options none args = some given ∧
      (given.map Prod.fst).Nodup ∧ ∀ f, c.Holds (said given environment f) f := by
  obtain ⟨scanned, hscan, h⟩ := bind_eq_ok.1 h
  obtain ⟨settled, hsettle, h⟩ := bind_eq_ok.1 h
  obtain ⟨completed, hcomplete, h⟩ := bind_eq_ok.1 h
  cases h
  obtain ⟨given, hoptions, htook⟩ := Scan.took_options hscan hsettle rfl
  have hgiven : settled.given = (given.map Prod.fst).reverse :=
    htook.given_eq.trans (List.append_nil _)
  have hnodup : (given.map Prod.fst).Nodup := by
    rw [← List.nodup_reverse, ← hgiven]
    exact htook.nodup List.nodup_nil
  refine ⟨given, hoptions, hnodup, fun f => ?_⟩
  have hline := holds_assigned htook.line_eq hnodup holds_empty
  have hall := holds_completed hcomplete (by decide) (fun g _ => ?_) hline f
  · rwa [if_pos (Flag.mem_all f), Option.or_none] at hall
  · rw [hgiven, List.mem_reverse, List.mem_map, Option.or_none, ne_eq, List.lookup_eq_none_iff]
    simp only [bne_iff_ne, ne_eq, not_forall, Classical.not_not]
    exact exists_congr fun o => ⟨fun ⟨ho, heq⟩ => ⟨ho, heq.symm⟩, fun ⟨ho, heq⟩ => ⟨ho, heq.symm⟩⟩

end HeapTelemetry.CommandLine
