import HeapTelemetry.Proofs.Series.Upkeep
import HeapTelemetry.Storage.SessionSeries

/-! A database is open until it is closed. Whatever the device answers, commits and seals
neither close nor open it, and they report a closed database only if it is closed. -/

namespace HeapTelemetry
open Step

/-! ## How the steps of a disk fail -/

namespace Disk

/-- A step that fails, if at all, as a device does. -/
abbrev FailsAsDevice (x : Step Disk α) : Prop := Upholds (fun _ => True) (· = .io) x

theorem upholds_verdict : FailsAsDevice verdict := by
  rintro ⟨nodes, nextNumber, verdicts⟩ -
  cases verdicts <;> exact ⟨trivial, nofun⟩

theorem upholds_granted : FailsAsDevice granted :=
  upholds_verdict.bind fun v => by
    split
    · exact upholds_throw rfl
    · exact upholds_pure _

theorem upholds_set (d : Disk) : FailsAsDevice (set d) := fun _ _ => ⟨trivial, nofun⟩

theorem upholds_read (p : Path) : FailsAsDevice (read p) :=
  upholds_get.bind fun d => by
    cases d.content? p with
    | some content => exact upholds_pure _
    | none => exact upholds_throw rfl

theorem upholds_append (h : Handle) (bytes : Bytes) : FailsAsDevice (append h bytes) :=
  upholds_verdict.bind fun v => by
    split
    · exact upholds_modify fun _ _ => trivial
    · exact upholds_throw rfl
    · refine (upholds_modify fun _ _ => trivial).bind fun _ => ?_
      split
      · exact upholds_throw rfl
      · exact upholds_pure _

theorem upholds_truncate (h : Handle) (length : Nat) : FailsAsDevice (truncate h length) :=
  upholds_granted.bind fun _ => upholds_modify fun _ _ => trivial

theorem upholds_writeFile (p : Path) (bytes : Bytes) : FailsAsDevice (writeFile p bytes) :=
  upholds_verdict.bind fun v => upholds_get.bind fun d => by
    simp only
    split
    · exact upholds_throw rfl
    · split
      · refine (upholds_set _).bind fun _ => ?_
        split
        · exact upholds_throw rfl
        · exact upholds_pure _
      · exact upholds_set _

theorem upholds_rename (old new : Path) : FailsAsDevice (rename old new) :=
  upholds_granted.bind fun _ => upholds_get.bind fun d => by
    split
    · split
      · exact upholds_throw rfl
      · exact upholds_set _
    · exact upholds_throw rfl

end Disk

/-! ## Whether a database is open -/

/-- A step that keeps the condition, and never reports a closed database. -/
abbrev Step.Unclosed (I : σ → Prop) (x : Step σ α) : Prop := Upholds I (· ≠ .databaseClosed) x

theorem Disk.FailsAsDevice.unclosed {x : Step Disk α} (hx : Disk.FailsAsDevice x) :
    Unclosed (fun _ => True) x :=
  hx.mono fun _ he => he ▸ nofun

theorem FileFrame.encode_error [Compressor] {what : String} {raw : Bytes} {e : Error}
    (h : encode what raw = .error e) : e = .oversizedFrame what := by
  rw [encode] at h
  split at h
  · cases h
  · exact (Except.error.inj h).symm

namespace Log

theorem unclosed_onDisk {x : Step Disk α} (hx : Disk.FailsAsDevice x) :
    Unclosed (fun _ => True) (onDisk x) :=
  hx.unclosed.on (fun _ _ => trivial) fun _ _ _ _ => trivial

theorem unclosed_frame [Compressor] (b : Batch) :
    Unclosed (fun _ : Log × Disk => True) (Step.ofExcept (frame b)) :=
  upholds_ofExcept fun _ he => FileFrame.encode_error he ▸ nofun

theorem unclosed_repair : Unclosed (fun _ => True) repair :=
  upholds_get.bind fun (log, _) => by
    simp only
    split
    · exact (unclosed_onDisk (Disk.upholds_truncate _ _)).bind fun _ =>
        upholds_modify fun _ _ => trivial
    · exact upholds_pure _

theorem unclosed_write (bytes : Bytes) : Unclosed (fun _ => True) (write bytes) :=
  upholds_get.bind fun _ => unclosed_onDisk <|
    (Disk.upholds_append _ _).bind fun _ => by
      split
      · exact Disk.upholds_granted
      · exact upholds_pure _

theorem unclosed_append [Compressor] (b : Batch) : Unclosed (fun _ => True) (append b) :=
  (unclosed_frame b).bind fun bytes => unclosed_repair.bind fun _ =>
    (unclosed_write bytes).attempt_bind (fun _ => upholds_modify fun _ _ => trivial)
      fun _ he => (upholds_modify fun _ _ => trivial).bind fun _ =>
        (unclosed_repair.attempt (Q := (· ≠ .databaseClosed))).discard.bind fun _ =>
          upholds_throw he

end Log

namespace Block

theorem encode_error [Compressor] {series : List Series} {e : Error}
    (h : encode series = .error e) : e = .oversizedFrame "block frame" := by
  rw [encode] at h
  cases hlabels : FileFrame.encode "block frame"
      (Packed.ofList Packed.ofLabels (series.map Series.labels)) with
  | error e' =>
    rw [hlabels] at h
    exact Except.error.inj h ▸ FileFrame.encode_error hlabels
  | ok labels =>
    cases hsamples : FileFrame.encode "block frame"
        (Packed.ofList Packed.ofSamples (series.map Series.samples)) with
    | error e' =>
      rw [hlabels, hsamples] at h
      exact Except.error.inj h ▸ FileFrame.encode_error hsamples
    | ok samples =>
      rw [hlabels, hsamples] at h
      cases h

theorem unclosed_write [Compressor] (dir : Path) (id : Nat) (series : List Series) :
    Unclosed (fun _ => True) (write dir id series) :=
  (upholds_ofExcept fun _ he => encode_error he ▸ nofun).bind fun _ =>
    (Disk.upholds_writeFile _ _).unclosed.bind fun _ => Disk.upholds_granted.unclosed.bind fun _ =>
      (Disk.upholds_rename _ _).unclosed

end Block

namespace Database

/-- The database is open. -/
def IsOpen (s : Database × Disk) : Prop := s.1.log.isSome = true

theorem unclosed_onLog {x : Step (Log × Disk) α} (hx : Unclosed (fun _ => True) x) :
    Unclosed IsOpen (onLog x) := by
  rintro ⟨db, d⟩ hopen
  obtain ⟨log, hlog⟩ := Option.isSome_iff_exists.1 hopen
  rw [run_onLog hlog]
  exact ⟨rfl, (hx (log, d) trivial).2⟩

theorem checkTimes_error {labels : Labels} {last : Option Int64} {samples : List Sample}
    {e : Error} (h : checkTimes labels last samples = .error e) : e ≠ .databaseClosed := by
  induction samples generalizing last with
  | nil => cases h
  | cons s rest ih =>
    cases last with
    | none => exact ih h
    | some time =>
      rw [checkTimes] at h
      split at h
      · cases h
        rintro ⟨⟩
      · exact ih h

theorem check_error {db : Database} {b : Batch} {e : Error} (h : db.check b = .error e) :
    e ≠ .databaseClosed := by
  obtain ⟨s, _, he⟩ := exists_of_forM_error h
  rw [checkSeries] at he
  split at he
  · cases he
    rintro ⟨⟩
  · exact checkTimes_error he

theorem unclosed_commit [Compressor] (b : Batch) : Unclosed IsOpen (commit b) := by
  rw [commit]
  split
  · exact upholds_pure _
  · exact (unclosed_onLog (upholds_pure _)).bind fun _ => upholds_get.bind fun s =>
      (upholds_ofExcept fun _ => check_error).bind fun _ =>
        (unclosed_onLog (Log.unclosed_append b)).bind fun _ =>
          (upholds_modify fun _ h => h).bind fun _ => upholds_pure _

theorem unclosed_sealMatching [Compressor] (ms : List Matcher) :
    Unclosed IsOpen (sealMatching ms) := by
  rintro ⟨db, d⟩ hopen
  obtain ⟨log, hlog⟩ := Option.isSome_iff_exists.1 hopen
  have hwrite := (Block.unclosed_write (blocksDir db.dir) db.nextBlock (db.head.take ms).1 d
    trivial).2
  rw [run_sealMatching hlog]
  split
  · exact ⟨hopen, nofun⟩
  · cases hran : run (Block.write (blocksDir db.dir) db.nextBlock (db.head.take ms).1) d with
    | mk r d' =>
      rw [hran] at hwrite
      cases r with
      | ok u => exact ⟨rfl, nofun⟩
      | error e =>
        exact ⟨hopen, fun e' he => hwrite e' (congrArg Except.error (Except.error.inj he))⟩

theorem isOpen_openAt {dir : Path} {syncWrite : Bool} {d d' : Disk} {db : Database}
    (h : run (openAt dir syncWrite) d = (.ok db, d')) : IsOpen (db, d') := by
  obtain ⟨_, _, _, h⟩ := run_bind_eq_ok.1 h
  obtain ⟨_, _, _, h⟩ := run_bind_eq_ok.1 h
  obtain ⟨ids, _, _, h⟩ := run_bind_eq_ok.1 h
  obtain ⟨sealedIn, _, _, h⟩ := run_bind_eq_ok.1 h
  obtain ⟨⟨log, batches⟩, _, _, h⟩ := run_bind_eq_ok.1 h
  cases h
  rfl

theorem run_close (s : Database × Disk) : (run close s).2.1.log = none := by
  obtain ⟨db, d⟩ := s
  rw [close, run_bind_ok (run_get _)]
  simp only
  split
  · rw [run_bind_ok (run_modify _ _)]
    rfl
  · rename_i hclosed
    exact Option.not_isSome_iff_eq_none.1 hclosed

end Database

namespace SessionSeries

theorem unixNanos_error {t : Timestamp} {e : Error} (h : t.unixNanos = .error e) :
    e ≠ .databaseClosed := by
  rw [Timestamp.unixNanos] at h
  split at h
  · cases h
  · cases h
    rintro ⟨⟩

theorem encode_error {s : Session} {l : Location} {e : Error}
    (h : SiteSeries.encode s l = .error e) : e ≠ .databaseClosed := by
  rw [SiteSeries.encode] at h
  cases hexact : Metric.all.forM (SiteSeries.checkExact l.usage) with
  | error e' =>
    rw [hexact] at h
    cases h
    obtain ⟨k, _, he⟩ := exists_of_forM_error hexact
    rw [SiteSeries.checkExact] at he
    split at he
    · cases he
      rintro ⟨⟩
    · cases he
  | ok u =>
    rw [hexact] at h
    cases h

theorem batch_error {s : Session} {m : Measurement} {e : Error} (h : batch s m = .error e) :
    e ≠ .databaseClosed := by
  rw [batch] at h
  cases htime : m.observedAt.unixNanos with
  | error e' =>
    rw [htime] at h
    cases h
    exact unixNanos_error htime
  | ok time =>
    cases hrows : m.locations.mapM (SiteSeries.encode s) with
    | error e' =>
      rw [htime, hrows] at h
      cases h
      obtain ⟨l, _, he⟩ := exists_of_mapM_error hrows
      exact encode_error he
    | ok rows =>
      rw [htime, hrows] at h
      cases h

/-- A save into an open database leaves it open, and never finds it closed. -/
theorem unclosed_save [Compressor] (s : Session) (m : Measurement) :
    Unclosed Database.IsOpen (SessionSeries.save s () m) :=
  (upholds_ofExcept fun _ => batch_error).bind fun b => (Database.unclosed_commit b).discard

theorem unclosed_finish [Compressor] (s : Session) :
    Unclosed Database.IsOpen (SessionSeries.finish s ()) :=
  ((Database.unclosed_sealMatching _).attempt (Q := (· ≠ .databaseClosed))).discard

end SessionSeries
end HeapTelemetry
