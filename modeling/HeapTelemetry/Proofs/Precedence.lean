import HeapTelemetry.Proofs.Arguments
import HeapTelemetry.Yaml

/-! Where the settings come from. For each setting that has a flag the options that are written
out go before the environment, and both before the file that is used. Writing in sync is the
exception: it can be said to be on, but not to be off. -/

namespace HeapTelemetry.CommandLine

/-! ## The file -/

/-- The text of the file that is used: the named one if there is a name, or else the standard
one. -/
def usedText (told : Flag → Option String) (read : String → Option String)
    (standard : Option String) : Option String :=
  match told .config with
  | some path => read path
  | none => standard

/-- The settings of the file that is used, or the defaults if there is none. -/
def Underlying (document? : String → Option Yaml) (told : Flag → Option String)
    (read : String → Option String) (standard : Option String) (base : Settings) : Prop :=
  match usedText told read standard with
  | some text => Settings.ofText document? text = .ok base
  | none => told .config = none ∧ base = Settings.default

/-! ## What is said over it -/

/-- The settings that are said, over those of the file. -/
structure Precedence (told : Flag → Option String) (base s : Settings) : Prop where
  port : Follows (fun v => (port? v).toOption) base.server.port (told .port) s.server.port
  dataDir : Follows (fun v => (path? v).toOption) base.storage.dataDir (told .dataDir)
    s.storage.dataDir
  backend : Follows BackendKind.ofName? base.storage.backend (told .backend) s.storage.backend
  window : Follows Text.unsigned64? base.metrics.window (told .window) s.metrics.window
  syncWrite : s.storage.syncWrite = true ↔
    told .syncWrite = some "true" ∨ base.storage.syncWrite = true
  debug : s.debug = true ↔ told .debug = some "true"
  others : s = { base with
    server.port := s.server.port
    storage := s.storage
    metrics.window := s.metrics.window
    debug := s.debug }

theorem Follows.unique {α : Type} {read : String → Option α} {otherwise a b : α}
    {said : Option String} (ha : Follows read otherwise said a)
    (hb : Follows read otherwise said b) : a = b := by
  cases said with
  | none => exact Eq.trans ha (Eq.symm hb)
  | some v => exact Option.some.inj (Eq.trans (Eq.symm ha) hb)

/-- A setting that is kept as an option replaces the one below it. -/
theorem Follows.getD {α : Type} {read : String → Option α} {said : Option String} {a : Option α}
    (h : Follows (fun v => (read v).map some) none said a) (otherwise : α) :
    Follows read otherwise said (a.getD otherwise) := by
  cases said with
  | none =>
    cases h
    rfl
  | some v =>
    obtain ⟨x, hx, rfl⟩ := Option.map_eq_some_iff.1 h
    exact hx

theorem bool?_eq_ok {v : String} {b : Bool} :
    (bool? v).toOption = some b ↔ v = cond b "true" "false" := by
  by_cases htrue : v = "true"
  · subst htrue
    cases b <;> decide
  · by_cases hfalse : v = "false"
    · subst hfalse
      cases b <;> decide
    · have herror : bool? v = .error .invalidValue := bool?.eq_3 v htrue hfalse
      rw [herror]
      cases b with
      | true => exact iff_of_false nofun htrue
      | false => exact iff_of_false nofun hfalse

theorem Follows.bool {said : Option String} {b : Bool}
    (h : Follows (fun v => (bool? v).toOption) false said b) :
    said = none ∧ b = false ∨ said = some (cond b "true" "false") := by
  cases said with
  | none => exact .inl ⟨rfl, h⟩
  | some v => exact .inr (congrArg some (bool?_eq_ok.1 h))

theorem Follows.bool_eq_true {said : Option String} {b : Bool}
    (h : Follows (fun v => (bool? v).toOption) false said b) : b = true ↔ said = some "true" := by
  obtain ⟨rfl, rfl⟩ | rfl := h.bool
  · simp
  · cases b <;> simp

/-- What is said and the settings of the file leave no choice. -/
theorem Precedence.unique {told : Flag → Option String} {base s t : Settings}
    (hs : Precedence told base s) (ht : Precedence told base t) : s = t := by
  have hport := hs.port.unique ht.port
  have hwindow := hs.window.unique ht.window
  have hstorage : s.storage = t.storage := by
    have hdir := hs.dataDir.unique ht.dataDir
    have hbackend := hs.backend.unique ht.backend
    have hsync := Bool.eq_iff_iff.2 (hs.syncWrite.trans ht.syncWrite.symm)
    cases hs : s.storage; cases ht : t.storage
    simp_all
  have hdebug := Bool.eq_iff_iff.2 (hs.debug.trans ht.debug.symm)
  rw [hs.others, ht.others, hport, hstorage, hwindow, hdebug]

variable {c : CommandLine} {told : Flag → Option String}

theorem override_eq (base : Settings) : c.override base = { base with
    server.port := c.port.getD base.server.port
    storage := ⟨c.backend.getD base.storage.backend, c.dataDir.getD base.storage.dataDir,
      c.syncWrite || base.storage.syncWrite⟩
    metrics.window := c.window.getD base.metrics.window
    debug := c.debug } := by
  obtain ⟨port, dataDir, backend, syncWrite, window, -, -, -, -⟩ := c
  cases port <;> cases dataDir <;> cases backend <;> cases window <;> cases syncWrite <;> rfl

theorem precedence_override (h : ∀ f, c.Holds (told f) f) (base : Settings) :
    Precedence told base (c.override base) := by
  rw [override_eq]
  exact {
    port := (h .port).getD _
    dataDir := (h .dataDir).getD _
    backend := (h .backend).getD _
    window := (h .window).getD _
    syncWrite := by
      have hsync := (h .syncWrite).bool_eq_true
      rw [Bool.or_eq_true, hsync]
    debug := (h .debug).bool_eq_true
    others := rfl }

theorem precedence_iff (h : ∀ f, c.Holds (told f) f) {base s : Settings} :
    Precedence told base s ↔ s = c.override base :=
  ⟨fun hs => hs.unique (precedence_override h base), fun hs => hs ▸ precedence_override h base⟩

/-- Writing in sync is as told, or as in the file, unless it is told to be off. -/
theorem Precedence.follows_syncWrite_iff {base s : Settings} (hs : Precedence told base s)
    {b : Bool} (h : Follows (fun v => (bool? v).toOption) false (told .syncWrite) b) :
    Follows (fun v => (bool? v).toOption) base.storage.syncWrite (told .syncWrite)
        s.storage.syncWrite ↔
      ¬(told .syncWrite = some "false" ∧ base.storage.syncWrite = true) := by
  have hkept (hne : told .syncWrite ≠ some "true") :
      s.storage.syncWrite = base.storage.syncWrite :=
    Bool.eq_iff_iff.2 (hs.syncWrite.trans (or_iff_right hne))
  obtain ⟨hsaid, -⟩ | hsaid := h.bool
  · rw [hkept (by rw [hsaid]; nofun), hsaid]
    exact iff_of_true rfl fun hoff => by cases hoff.1
  · cases b with
    | true =>
      have hon : s.storage.syncWrite = true := hs.syncWrite.2 (.inl hsaid)
      rw [hsaid, hon]
      exact iff_of_true rfl fun hoff => absurd hoff.1 (by decide)
    | false =>
      have hne : told .syncWrite ≠ some "true" := by rw [hsaid]; decide
      rw [hkept hne, hsaid, Follows, bool?_eq_ok]
      cases base.storage.syncWrite with
      | true => exact iff_of_false (by decide) fun hoff => hoff ⟨rfl, rfl⟩
      | false => exact iff_of_true rfl fun hoff => by cases hoff.2

/-! ## The settings to run with -/

variable {document? : String → Option Yaml} {read : String → Option String}
  {standard : Option String} {base : Settings}

theorem Follows.path {said a : Option String}
    (h : Follows (fun v => (path? v).toOption.map some) none said a) : a = said := by
  cases said with
  | none => exact h
  | some v =>
    obtain ⟨x, hx, rfl⟩ := Option.map_eq_some_iff.1 h
    rw [path?, toOption_eq_some] at hx
    split at hx
    · cases hx
    · cases hx
      rfl

theorem fileText_of_usedText {text : String} (h : ∀ f, c.Holds (told f) f)
    (hused : usedText told read standard = some text) :
    c.fileText read standard = .ok (some text) := by
  rw [fileText, (h .config).path]
  rw [usedText] at hused
  cases hconfig : told .config with
  | none =>
    simp only [hconfig] at hused
    simp only [hused]
  | some path =>
    simp only [hconfig] at hused
    simp only [hused]

theorem settings_unreadable {path : String} (h : ∀ f, c.Holds (told f) f)
    (hpath : told .config = some path) (hread : read path = none) :
    c.settings document? read standard = .error .unreadableSettings := by
  have hfile : c.fileText read standard = .error .unreadableSettings := by
    rw [fileText, (h .config).path, hpath]
    simp only [hread]
  rw [settings, hfile]
  rfl

theorem settings_unparsable {text : String} (h : ∀ f, c.Holds (told f) f)
    (hused : usedText told read standard = some text)
    (htext : ∀ base, Settings.ofText document? text ≠ .ok base) :
    c.settings document? read standard = .error .unparsableSettings := by
  have herror : Settings.ofText document? text = .error .unparsableSettings := by
    rw [Settings.ofText] at htext ⊢
    split
    · rename_i base hbase
      rw [hbase] at htext
      exact absurd rfl (htext base)
    · rfl
  rw [settings, fileText_of_usedText h hused]
  show (Settings.ofText document? text >>= _) = _
  rw [herror]
  rfl

theorem settings_of_underlying (h : ∀ f, c.Holds (told f) f)
    (hbase : Underlying document? told read standard base) : c.settings document? read standard =
      match (c.override base).problem? with
      | some problem => .error (.invalidSetting problem)
      | none => .ok (c.override base) := by
  have hmerged : c.settings document? read standard =
      ((c.override base).validate >>= fun _ => .ok (c.override base)) := by
    rw [Underlying] at hbase
    split at hbase
    · rw [settings, fileText_of_usedText h ‹_›]
      show (Settings.ofText document? _ >>= _) = _
      rw [hbase]
      rfl
    · rename_i hused
      obtain ⟨hnone, rfl⟩ := hbase
      have hfile : c.fileText read standard = .ok none := by
        simp only [usedText, hnone] at hused
        simp only [fileText, (h .config).path, hnone, hused]
      rw [settings, hfile]
      rfl
  rw [hmerged, Settings.validate]
  cases (c.override base).problem? with
  | some problem => rfl
  | none => rfl

/-- Either there are settings to start from, or the file is to blame. -/
theorem exists_underlying (document? : String → Option Yaml) (told : Flag → Option String)
    (read : String → Option String) (standard : Option String) :
    (∃ base, Underlying document? told read standard base) ∨
      (∃ path, told .config = some path ∧ read path = none) ∨
      ∃ text, usedText told read standard = some text ∧
        ∀ base, Settings.ofText document? text ≠ .ok base := by
  cases hused : usedText told read standard with
  | some text =>
    cases htext : Settings.ofText document? text with
    | ok base =>
      refine .inl ⟨base, ?_⟩
      rw [Underlying, hused]
      exact htext
    | error e => exact .inr (.inr ⟨text, rfl, fun base hbase => by cases htext.symm.trans hbase⟩)
  | none =>
    cases hconfig : told .config with
    | some path =>
      rw [usedText, hconfig] at hused
      exact .inr (.inl ⟨path, rfl, hused⟩)
    | none =>
      refine .inl ⟨Settings.default, ?_⟩
      rw [Underlying, hused]
      exact ⟨hconfig, rfl⟩

theorem settings_ok_iff (h : ∀ f, c.Holds (told f) f) {s : Settings} :
    c.settings document? read standard = .ok s ↔
      ∃ base, Underlying document? told read standard base ∧ Precedence told base s ∧
        s.problem? = none := by
  constructor
  · intro hok
    obtain ⟨base, hbase⟩ | ⟨path, hpath, hread⟩ | ⟨text, hused, htext⟩ :=
      exists_underlying document? told read standard
    · rw [settings_of_underlying h hbase] at hok
      split at hok
      · cases hok
      · cases hok
        exact ⟨base, hbase, precedence_override h base, ‹_›⟩
    · rw [settings_unreadable h hpath hread] at hok
      cases hok
    · rw [settings_unparsable h hused htext] at hok
      cases hok
  · rintro ⟨base, hbase, hs, hvalid⟩
    obtain rfl := (precedence_iff h).1 hs
    rw [settings_of_underlying h hbase, hvalid]

theorem settings_error_iff (h : ∀ f, c.Holds (told f) f) {e : Error} :
    c.settings document? read standard = .error e ↔
      (e = .unreadableSettings ∧ ∃ path, told .config = some path ∧ read path = none) ∨
      (e = .unparsableSettings ∧ ∃ text, usedText told read standard = some text ∧
        ∀ base, Settings.ofText document? text ≠ .ok base) ∨
      ∃ problem base s, e = .invalidSetting problem ∧
        Underlying document? told read standard base ∧ Precedence told base s ∧
          s.problem? = some problem := by
  constructor
  · intro herror
    obtain ⟨base, hbase⟩ | ⟨path, hpath, hread⟩ | ⟨text, hused, htext⟩ :=
      exists_underlying document? told read standard
    · rw [settings_of_underlying h hbase] at herror
      split at herror
      · cases herror
        exact .inr (.inr ⟨_, base, _, rfl, hbase, precedence_override h base, ‹_›⟩)
      · cases herror
    · rw [settings_unreadable h hpath hread] at herror
      cases herror
      exact .inl ⟨rfl, path, hpath, hread⟩
    · rw [settings_unparsable h hused htext] at herror
      cases herror
      exact .inr (.inl ⟨rfl, text, hused, htext⟩)
  · rintro (⟨rfl, path, hpath, hread⟩ | ⟨rfl, text, hused, htext⟩ |
      ⟨problem, base, s, rfl, hbase, hs, hproblem⟩)
    · exact settings_unreadable h hpath hread
    · exact settings_unparsable h hused htext
    · obtain rfl := (precedence_iff h).1 hs
      rw [settings_of_underlying h hbase, hproblem]

/-- Whatever the arguments, the environment and the files are, and however files are read as
documents: an accepted command line runs
with the settings of the file that is used, or the defaults, and what is said over them. It
fails only for a named file that cannot be read, a file that does not parse or settings that
are invalid after all. -/
theorem settings_follow_precedence {args : List String} {environment : String → Option String}
    (hparse : parse args environment = .ok c) :
    ∃ given, options none args = some given ∧ (given.map Prod.fst).Nodup ∧
      ∀ (document? : String → Option Yaml) (read : String → Option String)
        (standard : Option String),
        let told := said given environment
        (∀ s, c.settings document? read standard = .ok s ↔
          ∃ base, Underlying document? told read standard base ∧ Precedence told base s ∧
            s.problem? = none) ∧
        (∀ e, c.settings document? read standard = .error e ↔
          (e = .unreadableSettings ∧ ∃ path, told .config = some path ∧ read path = none) ∨
          (e = .unparsableSettings ∧ ∃ text, usedText told read standard = some text ∧
            ∀ base, Settings.ofText document? text ≠ .ok base) ∨
          ∃ problem base s, e = .invalidSetting problem ∧
            Underlying document? told read standard base ∧ Precedence told base s ∧
              s.problem? = some problem) ∧
        ∀ base s, Precedence told base s →
          (Follows (fun v => (bool? v).toOption) base.storage.syncWrite (told .syncWrite)
              s.storage.syncWrite ↔
            ¬(told .syncWrite = some "false" ∧ base.storage.syncWrite = true)) := by
  obtain ⟨given, hoptions, hnodup, h⟩ := parse_ok hparse
  refine ⟨given, hoptions, hnodup, fun document? read standard => ?_⟩
  refine ⟨fun s => ?_, fun e => ?_, fun base s hs => ?_⟩
  · exact settings_ok_iff h
  · exact settings_error_iff h
  · exact hs.follows_syncWrite_iff (h .syncWrite)

theorem flag_over_environment_over_file :
    let text := "server:\n  port: 0\nmetrics:\n  window: 100\n  subscription_buffer: 8\n"
    let environment (name : String) : Option String :=
      [("HEAPWATCH_PORT", "9999"), ("HEAPWATCH_WINDOW", "500")].lookup name
    let c : CommandLine := ⟨some 8080, none, none, false, some 500, none, false, false, false⟩
    parse ["--port", "8080"] environment = .ok c ∧
      ∃ base s, Settings.ofText Yaml.parse? text = .ok base ∧
        base.problem? = some "port must be greater than 0" ∧
        c.settings Yaml.parse? (fun _ => none) (some text) = .ok s ∧
        s.server.port = 8080 ∧ s.metrics.window = 500 ∧ s.metrics.subscriptionBuffer = 8 := by
  intro text environment c
  have hparse : parse ["--port", "8080"] environment = .ok c := rfl
  have hfile : (Settings.ofText Yaml.parse? text).toOption.map
      (fun base => (base.problem?, base.metrics.subscriptionBuffer)) =
        some (some "port must be greater than 0", 8) := by decide +kernel
  obtain ⟨base, hbase, hpair⟩ := Option.map_eq_some_iff.1 hfile
  obtain ⟨hproblem, hbuffer⟩ := Prod.mk.inj hpair
  have hbase : Settings.ofText Yaml.parse? text = .ok base := toOption_eq_some.1 hbase
  have hsome : (c.settings Yaml.parse? (fun _ => none) (some text)).toOption.isSome = true := by
    decide +kernel
  obtain ⟨s, hs⟩ := Option.isSome_iff_exists.1 hsome
  have hs : c.settings Yaml.parse? (fun _ => none) (some text) = .ok s := toOption_eq_some.1 hs
  obtain ⟨given, hoptions, -, hall⟩ := settings_follow_precedence hparse
  have hwritten : options none ["--port", "8080"] = some [(.port, "8080")] := by decide
  obtain rfl : given = [(.port, "8080")] := Option.some.inj (hoptions.symm.trans hwritten)
  obtain ⟨base', hbase', hprecedence, -⟩ := ((hall Yaml.parse? (fun _ => none) (some text)).1 s).1 hs
  obtain rfl : base = base' := Except.ok.inj (hbase.symm.trans hbase')
  have hport : (port? "8080").toOption = some s.server.port := hprecedence.port
  have hwindow : Text.unsigned64? "500" = some s.metrics.window := hprecedence.window
  have hothers := congrArg (fun s => s.metrics.subscriptionBuffer) hprecedence.others
  refine ⟨hparse, base, s, hbase, hproblem, hs, ?_, ?_, hothers.trans hbuffer⟩
  · exact Option.some.inj (hport.symm.trans (by decide))
  · exact Option.some.inj (hwindow.symm.trans (by decide))

/-- The environment says that writing in sync is off, and the file has the last word. -/
theorem environment_cannot_switch_sync_off :
    let text := "storage:\n  sync_write: true\n"
    let environment (name : String) : Option String :=
      [("HEAPWATCH_SYNC_WRITE", "false")].lookup name
    parse [] environment = .ok empty ∧ said [] environment .syncWrite = some "false" ∧
      (bool? "false").toOption = some false ∧
      (empty.settings Yaml.parse? (fun _ => none) (some text)).toOption.map (·.storage.syncWrite) =
        some true := by
  intro text environment
  exact ⟨rfl, by decide, by decide, by decide +kernel⟩

end HeapTelemetry.CommandLine
