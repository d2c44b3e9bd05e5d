import HeapTelemetry.Proofs.Json.Measurements
import HeapTelemetry.Proofs.Series.Recovery
import HeapTelemetry.Proofs.Storage.Durable
import HeapTelemetry.Storage.SessionFiles

/-! Sessions in files of their own. While saves are granted, the file of a session has a
line for every measurement that was saved of it, whatever happens to other files. -/

namespace HeapTelemetry
open Step SessionSeries

/-! ## Files -/

namespace SessionFiles
variable {f : SessionFiles} {s t : Session} {d : Disk}

/-- Lines of measurements read as these measurements. -/
theorem records_encode (ms : List Measurement) : records (ms.flatMap Record.encode) = ms.map .ok := by
  have hlines : (ms.map Record.encode).filter (!Bytes.isBlank ·) = ms.map Record.encode := by
    refine List.filter_eq_self.2 fun line hline => ?_
    obtain ⟨m, _, rfl⟩ := List.mem_map.1 hline
    rw [Record.isBlank_encode, Bool.not_false]
  rw [records, Record.lines_encode, hlines, List.map_map]
  refine List.map_congr_left fun m _ => ?_
  rw [Function.comp_apply, Record.decode_encode]

/-- A device that refuses nothing gives all lines. -/
theorem readLines_nil (lines : List Bytes) :
    readLines lines [] = ((lines.filter (!Bytes.isBlank ·)).map Record.decode, none) := by
  induction lines with
  | nil => rfl
  | cons line rest ih =>
    simp only [readLines, List.head?_nil, List.tail_nil, ih, List.filter_cons]
    cases Bytes.isBlank line <;> rfl

theorem read_file {number : Nat} {content : Bytes} (hv : d.verdicts = [])
    (hf : d.find? (f.path s) = some (.file number content)) :
    read s (f, d) = .items (records content) none := by
  simp only [read, hf, hv, List.head?_nil, List.tail_nil, readLines_nil]
  rfl

/-- Sessions of different numbers have different files. -/
theorem id_eq_of_path_eq (h : f.path s = f.path t) : s.id = t.id := by
  have hlast := congrArg List.getLast? h
  rw [path, path, List.getLast?_concat, List.getLast?_concat, Option.some.injEq] at hlast
  have hbytes := congrArg Bytes.ofText hlast
  rw [Bytes.ofText_append, Bytes.ofText_append] at hbytes
  exact literal_injective (List.append_cancel_right hbytes)

theorem not_prefix_directory : ¬ f.path s <+: f.directory t := by
  intro hp
  have hlen := hp.length_le
  simp only [path, directory, List.length_append, List.length_cons, List.length_nil] at hlen
  omega

theorem not_prefix_root : ¬ f.path s <+: f.root := by
  intro hp
  have hlen := hp.length_le
  simp only [path, directory, List.length_append, List.length_cons, List.length_nil] at hlen
  omega

theorem run_onDisk {α : Type} (x : Step Disk α) (f : SessionFiles) (d : Disk) :
    run (onDisk x) (f, d) = ((run x d).1, (f, (run x d).2)) := rfl

theorem path_congr {g : SessionFiles} (h : f.root = g.root) (s : Session) : f.path s = g.path s := by
  rw [path, path, directory, directory, h]

/-- A new session got an empty file, or none; nothing else has changed but that directories
were made. -/
structure Created (f : SessionFiles) (s : Session) (r : Except Error Handle) (d d' : Disk) : Prop where
  others : ∀ q, q ≠ f.path s → d'.find? q = d.find? q ∨
    q <+: f.directory s ∧ d'.find? q = some .directory
  made : ∀ handle, r = .ok handle → handle.path = f.path s ∧
    d'.find? handle.path = some (.file handle.number [])
  missing : ∀ e, r = .error e → d'.find? (f.path s) = none

theorem run_create (h : d.find? (f.path s) = none) : ∃ r d',
    run (create s) (f, d) = (r, (f, d')) ∧ Created f s r d d' := by
  have hdirs := fun q => Disk.find?_makeDirs (f.directory s) q d
  have hmissing : (run (Disk.makeDirs (f.directory s)) d).2.find? (f.path s) = none := by
    rcases hdirs (f.path s) with hsame | ⟨hp, _⟩
    · exact hsame.trans h
    · exact absurd hp not_prefix_directory
  rw [create, run_bind_ok (run_get _)]
  simp only [run_onDisk, run_bind]
  cases hrun : run (Disk.makeDirs (f.directory s)) d with
  | mk r d' =>
    rw [hrun] at hdirs hmissing
    cases r with
    | error e => exact ⟨_, _, rfl, fun q _ => hdirs q, fun _ hr => (nomatch hr), fun _ _ => hmissing⟩
    | ok u =>
      have hroot : f.path s ≠ [] := by simp [path]
      rcases Disk.openFile_cases hmissing with hfile | hfile
      · simp only [hfile]
        exact ⟨_, _, rfl, fun q _ => hdirs q, fun _ hr => (nomatch hr), fun _ _ => hmissing⟩
      · have hput : ∀ q, Disk.find? { d'.answered.put (f.path s) (.file d'.nextNumber []) with
            nextNumber := d'.nextNumber + 1 } q =
              if q = f.path s then some (.file d'.nextNumber []) else d'.find? q :=
          Disk.find?_put d'.answered hroot _
        simp only [hfile]
        refine ⟨_, _, rfl, fun q hq => ?_, fun handle hr => ?_, fun _ hr => (nomatch hr)⟩
        · rw [hput, if_neg hq]
          exact hdirs q
        · cases hr
          exact ⟨rfl, by rw [hput, if_pos rfl]⟩

/-- A save that is granted adds a line. -/
theorem run_save (h : d.verdicts = []) (s : Session) (handle : Handle) (m : Measurement) :
    run (save s handle m) (f, d) = (.ok (), (f, d.change handle (· ++ Record.encode m))) := by
  have hv : (d.change handle (· ++ Record.encode m)).verdicts = [] :=
    (Disk.kept_change handle _).granting h
  rw [save, run_bind_ok (run_get _)]
  simp only [run_onDisk, run_bind_ok (Disk.run_append_of_granting h)]
  split
  · rw [Disk.run_sync_of_granting hv]
  · rfl

theorem run_locate (s : Session) (x : SessionFiles × Disk) : (run (locate s) x).2 = x := by
  obtain ⟨f, d⟩ := x
  rw [locate, run_bind_ok (run_get _)]
  simp only
  split <;> rfl

end SessionFiles

/-! ## The invariant -/

namespace Storage
open SessionFiles
variable {dataDir : Path} {saved : List (Session × Measurement)} {savers : List (Saver Handle)}
  {st : Storage SessionFiles} {s : Session}

/-- What stands at the path of a session of which these measurements were saved: their
lines, or nothing if it never had a saver. -/
def Stored (ms : List Measurement) (node : Option Node) : Prop :=
  node = none ∧ ms = [] ∨ ∃ number, node = some (.file number (ms.flatMap Record.encode))

theorem Stored.append {ms : List Measurement} {number : Nat} {content : Bytes}
    (h : Stored ms (some (.file number content))) (m : Measurement) :
    Stored (ms ++ [m]) (some (.file number (content ++ Record.encode m))) := by
  obtain ⟨hnone, _⟩ | ⟨number, hnode⟩ := h
  · cases hnone
  · cases hnode
    exact Or.inr ⟨number, by rw [List.flatMap_append, List.flatMap_singleton]⟩

/-- The files of a data directory store what was saved, and every saver holds the file of
its session. -/
structure Files (dataDir : Path) (saved : List (Session × Measurement))
    (savers : List (Saver Handle)) (st : Storage SessionFiles) : Prop where
  root : st.backend.root = dataDir ++ ["sessions"]
  granting : st.disk.verdicts = []
  directories : ∀ q, q <+: dataDir ++ ["sessions"] → st.disk.find? q = some .directory
  numbered : st.registry.Numbered
  issued : ∀ e ∈ saved, e.1 ∈ st.registry.issued
  fresh : ∀ s : Session, st.registry.lastId < s.id → st.disk.find? (st.backend.path s) = none
  stored : ∀ s ∈ st.registry.issued,
    Stored (acceptedOf s saved) (st.disk.find? (st.backend.path s))
  savers : ∀ v ∈ savers, v.session ∈ st.registry.issued ∧
    v.writer.path = st.backend.path v.session ∧
      ∃ content, st.disk.find? v.writer.path = some (.file v.writer.number content)

/-- The answer for a session comes from what stands at its path. -/
theorem answer_files (hv : st.disk.verdicts = []) (hs : s ∈ st.registry.issued) (window : Nat)
    (cancelAfter : Option Nat) :
    st.answer window cancelAfter s = match st.disk.find? (st.backend.path s) with
      | none => .error (if st.disk.blocked (st.backend.directory s) then .io else .noData s.key)
      | some .directory => Engine.digest window cancelAfter (.items [] (some .io))
      | some (.file _ content) => Engine.digest window cancelAfter (.items (records content) none) := by
  obtain ⟨e, he⟩ := Registry.lookup_issued hs
  have hlocate : (run (Backend.locate s) (st.backend, st.disk)).1 =
      if (st.disk.find? (st.backend.path s)).isNone
      then .error (if st.disk.blocked (st.backend.directory s) then .io else .noData s.key)
      else .ok () := by
    show (run (SessionFiles.locate s) (st.backend, st.disk)).1 = _
    rw [SessionFiles.locate, run_bind_ok (run_get _)]
    simp only
    split <;> rfl
  have hread : st.read s = match st.disk.find? (st.backend.path s) with
      | none => .failed .io
      | some .directory => .items [] (some .io)
      | some (.file _ content) => .items (records content) none := by
    show SessionFiles.read s (st.backend, st.disk) = _
    cases hnode : st.disk.find? (st.backend.path s) with
    | none => simp only [SessionFiles.read, hnode]
    | some node =>
      cases node with
      | directory => simp [SessionFiles.read, hnode, hv]
      | file number content => exact read_file hv hnode
  rw [answer, he, hlocate, hread]
  cases st.disk.find? (st.backend.path s) with
  | none => rfl
  | some node => cases node <;> rfl

/-- A file that is left as it is reads as before. -/
theorem persists_of_find? {st' : Storage SessionFiles} (hv : st.disk.verdicts = [])
    (hv' : st'.disk.verdicts = []) (hs : s ∈ st.registry.issued)
    (hs' : s ∈ st'.registry.issued) (hbackend : st'.backend = st.backend)
    (hfind : st'.disk.find? (st.backend.path s) = st.disk.find? (st.backend.path s)) :
    Persists s st st' := by
  intro window r hr
  rw [answer_files hv hs] at hr
  rw [answer_files hv' hs', hbackend, hfind]
  cases hnode : st.disk.find? (st.backend.path s) with
  | none =>
    rw [hnode] at hr
    cases hr
  | some node =>
    rw [hnode] at hr
    cases node <;> exact hr

theorem acceptedOf_eq_nil (hissued : ∀ e ∈ saved, e.1 ∈ st.registry.issued)
    (hs : s ∉ st.registry.issued) : acceptedOf s saved = [] := by
  rw [List.eq_nil_iff_forall_not_mem]
  exact fun m hm => hs (hissued _ (mem_acceptedOf.1 hm))

/-! ## Operations -/

variable (h : Files dataDir saved savers st)
include h

/-- Paths at which files of other sessions stand are others. -/
theorem Files.path_ne {t : Session} (hs : s ∈ st.registry.issued) (ht : t ∈ st.registry.issued)
    (hne : s ≠ t) : st.backend.path s ≠ st.backend.path t := fun hpath =>
  hne (List.inj_on_of_nodup_map h.numbered.distinct hs ht (id_eq_of_path_eq hpath))

theorem Files.stored_saved (hne : acceptedOf s saved ≠ []) : s ∈ st.registry.issued ∧
    ∃ number, st.disk.find? (st.backend.path s) =
      some (.file number ((acceptedOf s saved).flatMap Record.encode)) := by
  have hs : s ∈ st.registry.issued := by
    by_contra hs
    exact hne (acceptedOf_eq_nil h.issued hs)
  exact ⟨hs, (h.stored s hs).resolve_left fun hnone => hne hnone.2⟩

/-- The file of a session reads as the measurements that were saved of it. -/
theorem Files.read_saved (hne : acceptedOf s saved ≠ []) :
    st.read s = .items ((acceptedOf s saved).map .ok) none := by
  obtain ⟨_, number, hfile⟩ := h.stored_saved hne
  have hread : st.read s = SessionFiles.read s (st.backend, st.disk) := rfl
  rw [hread, read_file h.granting hfile, records_encode]

theorem Files.answer_saved (hne : acceptedOf s saved ≠ []) (window : Nat)
    (cancelAfter : Option Nat) : st.answer window cancelAfter s =
      Engine.digest window cancelAfter (.items ((acceptedOf s saved).map .ok) none) := by
  obtain ⟨hs, number, hfile⟩ := h.stored_saved hne
  rw [answer_files h.granting hs, hfile]
  simp only [records_encode]

/-- What the disk has at the paths of sessions, and above them, is all that matters. -/
theorem Files.congr {st' : Storage SessionFiles} (hroot : st'.backend.root = st.backend.root)
    (hregistry : st'.registry.issued = st.registry.issued ∧
      st'.registry.lastId = st.registry.lastId ∧ st'.registry.version = st.registry.version)
    (hgranting : st'.disk.verdicts = [])
    (hfind : ∀ q, st'.disk.find? q = st.disk.find? q ∨ q <+: dataDir ++ ["sessions"] ∧
      st'.disk.find? q = some .directory) : Files dataDir saved savers st' := by
  obtain ⟨hissued, hlast, hversion⟩ := hregistry
  have hpath : ∀ s, st'.disk.find? (st'.backend.path s) = st.disk.find? (st.backend.path s) := by
    intro s
    rw [path_congr hroot s]
    refine (hfind _).resolve_right fun hp => ?_
    exact not_prefix_root (s := s) (f := st.backend) (h.root ▸ hp.1)
  refine ⟨hroot.trans h.root, hgranting, fun q hq => ?_, h.numbered.congr hissued hlast hversion,
    fun e he => hissued ▸ h.issued e he, fun s hs => ?_, fun s hs => ?_, fun v hv => ?_⟩
  · rcases hfind q with hq' | hq'
    · rw [hq', h.directories q hq]
    · exact hq'.2
  · rw [hpath]
    exact h.fresh s (hlast ▸ hs)
  · rw [hpath]
    exact h.stored s (hissued ▸ hs)
  · obtain ⟨hs, hwriter, content, hfile⟩ := h.savers v hv
    rw [← path_congr hroot] at hwriter
    refine ⟨hissued ▸ hs, hwriter, content, ?_⟩
    rw [hwriter, path_congr hroot] at hfile
    rw [hwriter, hpath, ← hfile]

theorem Files.perm {savers' : List (Saver Handle)} (hperm : savers.Perm savers') :
    Files dataDir saved savers' st :=
  { h with savers := fun v hv => h.savers v (hperm.mem_iff.2 hv) }

/-- The disk with a line more in the file of a saver. -/
theorem Files.appended {v : Saver Handle} (hv : v ∈ savers) (m : Measurement) :
    let disk := st.disk.change v.writer (· ++ Record.encode m)
    Files dataDir (saved ++ [(v.session, m)]) savers { st with disk } ∧
      ∀ q, q ≠ v.writer.path → disk.find? q = st.disk.find? q := by
  obtain ⟨hissued, hpath, content, hfile⟩ := h.savers v hv
  have hkept := Disk.kept_change (d := st.disk) v.writer (· ++ Record.encode m)
  have hchanged := Disk.find?_change hfile (· ++ Record.encode m)
  have hothers : ∀ q, q ≠ v.writer.path →
      (st.disk.change v.writer (· ++ Record.encode m)).find? q = st.disk.find? q := fun q hq =>
    hkept.others q fun hmem => hq (List.mem_singleton.1 hmem)
  refine ⟨⟨h.root, hkept.granting h.granting, fun q hq => ?_, h.numbered, fun e he => ?_,
    fun s hs => ?_, fun s hs => ?_, fun w hw => ?_⟩, hothers⟩
  · rw [hothers, h.directories q hq]
    rintro rfl
    rw [h.directories _ hq] at hfile
    cases hfile
  · rcases List.mem_append.1 he with he | he
    · exact h.issued e he
    · rw [List.mem_singleton.1 he]
      exact hissued
  · have hlt : st.registry.lastId < s.id := hs
    rw [hothers, h.fresh s hlt]
    rw [hpath]
    intro heq
    have hle := h.numbered.bounded _ hissued
    have hid := id_eq_of_path_eq heq
    omega
  · by_cases hne : s = v.session
    · subst hne
      have hstored := h.stored _ hissued
      rw [← hpath, hfile] at hstored
      rw [acceptedOf_concat, ← hpath, hchanged]
      exact hstored.append m
    · rw [acceptedOf_concat_other hne, hothers _ (hpath ▸ h.path_ne hs hissued hne)]
      exact h.stored s hs
  · obtain ⟨hw', hwpath, wcontent, hwfile⟩ := h.savers w hw
    refine ⟨hw', hwpath, ?_⟩
    by_cases hsame : w.writer.path = v.writer.path
    · rw [hsame, hfile] at hwfile
      obtain ⟨hnumber, _⟩ := Node.file.inj (Option.some.inj hwfile)
      rw [hsame, ← hnumber]
      exact ⟨_, hchanged⟩
    · exact ⟨wcontent, (hothers _ hsame).trans hwfile⟩

/-- A saved measurement is a line more in the file of its session, and in no other. -/
theorem Files.save {v : Saver Handle} (hv : v ∈ savers) (m : Measurement) : ∃ st',
    run (Storage.save v m) st = (.ok (), st') ∧ st'.registry = st.registry ∧
      Files dataDir (saved ++ [(v.session, m)]) savers st' ∧
      ∀ s ∈ st.registry.issued, s ≠ v.session → Persists s st st' := by
  obtain ⟨hissued, hpath, _⟩ := h.savers v hv
  obtain ⟨hfiles, hothers⟩ := h.appended hv m
  have hrun : run (Backend.save v.session v.writer m) (st.backend, st.disk) = _ :=
    SessionFiles.run_save (f := st.backend) h.granting v.session v.writer m
  refine ⟨{ st with disk := st.disk.change v.writer (· ++ Record.encode m) }, ?_, rfl, hfiles,
    fun s hs hne => ?_⟩
  · rw [save_eq, hrun]
    rfl
  · exact persists_of_find? h.granting hfiles.granting hs hs rfl
      (hothers _ (hpath ▸ h.path_ne hs hissued hne))

/-- A session of the next number, for which an empty file was made or none. -/
theorem Files.created {new : Session} (hid : new.id = (st.registry.lastId + 1 : Nat))
    {registry : Registry} (hnumbered : registry.Numbered)
    (hissued : registry.issued = st.registry.issued ++ [new])
    (hlast : registry.lastId = st.registry.lastId + 1) (lifecycle : Lifecycle)
    {r : Except Error Handle} {d : Disk} (hcreated : Created st.backend new r st.disk d) :
    let st' : Storage SessionFiles := ⟨st.backend, d.facing [], registry, lifecycle⟩
    Files dataDir saved ((r.toOption.map (Saver.mk new)).toList ++ savers) st' ∧
      ∀ s ∈ st.registry.issued, s ∈ st'.registry.issued ∧ Persists s st st' := by
  have hfresh : st.disk.find? (st.backend.path new) = none := h.fresh new (by omega)
  -- A path ends in the number of its session, so the new file is none of the old ones.
  have hold : ∀ s, s.id ≠ new.id → d.find? (st.backend.path s) = st.disk.find? (st.backend.path s) :=
    fun s hne => (hcreated.others _ fun hpath => hne (id_eq_of_path_eq hpath)).resolve_right
      fun hp => not_prefix_directory hp.1
  have hbelow : ∀ s ∈ st.registry.issued, s.id ≠ new.id := by
    intro s hs
    have hle := h.numbered.bounded s hs
    omega
  have hunknown : new ∉ st.registry.issued := fun hs => hbelow new hs rfl
  have hkept : ∀ s ∈ st.registry.issued, s ∈ registry.issued := fun s hs =>
    hissued ▸ List.mem_append_left _ hs
  have hmine : Stored (acceptedOf new saved) (d.find? (st.backend.path new)) := by
    rw [acceptedOf_eq_nil h.issued hunknown]
    cases r with
    | error e => exact Or.inl ⟨hcreated.missing e rfl, rfl⟩
    | ok handle =>
      obtain ⟨hpath, hfile⟩ := hcreated.made handle rfl
      exact Or.inr ⟨handle.number, hpath ▸ hfile⟩
  refine ⟨⟨h.root, rfl, fun q hq => ?_, hnumbered, fun e he => hkept _ (h.issued e he),
    fun s hs => ?_, fun s hs => ?_, fun v hv => ?_⟩, fun s hs => ⟨hkept s hs, ?_⟩⟩
  · have hdir := h.directories q hq
    have hne : q ≠ st.backend.path new := by
      rintro rfl
      rw [hfresh] at hdir
      cases hdir
    rcases hcreated.others q hne with hsame | ⟨_, hmade⟩
    · exact hsame.trans hdir
    · exact hmade
  · have hlt : registry.lastId < s.id := hs
    exact (hold s (by omega)).trans (h.fresh s (by omega))
  · have hs : s ∈ registry.issued := hs
    rw [hissued] at hs
    rcases List.mem_append.1 hs with hs | hs
    · exact (hold s (hbelow s hs)).symm ▸ h.stored s hs
    · rw [List.mem_singleton.1 hs]
      exact hmine
  · rcases List.mem_append.1 hv with hv | hv
    · cases r with
      | error e => cases hv
      | ok handle =>
        rw [List.mem_singleton.1 hv]
        obtain ⟨hpath, hfile⟩ := hcreated.made handle rfl
        exact ⟨hissued ▸ List.mem_append_right _ List.mem_cons_self, hpath, [], hfile⟩
    · obtain ⟨hs, hpath, content, hfile⟩ := h.savers v hv
      refine ⟨hkept _ hs, hpath, content, ?_⟩
      rw [hpath] at hfile ⊢
      exact (hold _ (hbelow _ hs)).trans hfile
  · exact persists_of_find? h.granting rfl hs (hkept s hs) rfl (hold s (hbelow s hs))

/-- Whatever the device answers, a saver that gets in has the empty file of a new session. -/
theorem Files.openSaver (answers : List Verdict) (owner : Instance) :
    let r := run (Storage.openSaver owner) (st.expecting answers)
    let st' := r.2.expecting []
    Files dataDir saved (r.1.toOption.toList ++ savers) st' ∧
      ∀ s ∈ st.registry.issued, s ∈ st'.registry.issued ∧ Persists s st st' := by
  have hback : (st.expecting answers).expecting [] = st := expecting_nil h.granting
  have hrefused : ∀ e : Error, let r : Except Error (Saver Handle) × Storage SessionFiles :=
      (.error e, st.expecting answers)
      Files dataDir saved (r.1.toOption.toList ++ savers) (r.2.expecting []) ∧
        ∀ s ∈ st.registry.issued, s ∈ (r.2.expecting []).registry.issued ∧
          Persists s st (r.2.expecting []) := by
    intro e
    simp only [hback]
    exact ⟨h, fun s hs => ⟨hs, Persists.refl s st⟩⟩
  rw [openSaver_eq]
  split
  · exact hrefused _
  split
  · exact hrefused _
  · have hstarted := h.numbered.started owner
    have hissued := Registry.issued_started st.registry owner
    obtain ⟨new, hnew⟩ : ∃ s : Session, s = ⟨owner, (st.registry.lastId + 1 : Nat)⟩ := ⟨_, rfl⟩
    have hid : new.id = (st.registry.lastId + 1 : Nat) := by rw [hnew]
    have hmissing : (st.disk.facing answers).find? (st.backend.path new) = none :=
      h.fresh new (by omega)
    obtain ⟨r, d, hrun, hcreated⟩ := run_create hmissing
    have hcreate : run (Backend.create new) ((st.expecting answers).backend,
        (st.expecting answers).disk) = (r, (st.backend, d)) := hrun
    have hcreated : Created st.backend new r st.disk d :=
      ⟨hcreated.others, hcreated.made, hcreated.missing⟩
    rw [← hnew] at hissued
    simp only
    rw [show (st.expecting answers).registry = st.registry from rfl, ← hnew, hcreate]
    cases r with
    | ok handle => exact h.created hid hstarted hissued rfl _ hcreated
    | error e =>
      obtain ⟨hsame, hlast, hversion⟩ := Registry.run_stopSession (st.registry.started owner) new
      exact h.created hid (hstarted.congr hsame hlast hversion) (hsame.trans hissued) hlast _ hcreated

/-- Closing leaves the files as they are. -/
theorem Files.closeSaver (answers : List Verdict) (v : Saver Handle) :
    let st' := (run (Storage.closeSaver v) (st.expecting answers)).2.expecting []
    Files dataDir saved savers st' ∧ st'.registry.issued = st.registry.issued ∧
      ∀ s ∈ st.registry.issued, Persists s st st' := by
  have hregistry := Registry.run_stopSession st.registry v.session
  have hdisk : (st.disk.facing answers).facing [] = st.disk := Disk.facing_of_granting h.granting
  have hclosed : (run (Storage.closeSaver v) (st.expecting answers)).2.expecting [] =
      ⟨st.backend, st.disk, (run (Registry.stopSession v.session) st.registry).2,
        st.lifecycle.leave⟩ := by
    rw [closeSaver_eq]
    exact congrArg (fun d => (⟨st.backend, d, _, _⟩ : Storage SessionFiles)) hdisk
  simp only [hclosed]
  exact ⟨h.congr rfl hregistry h.granting fun q => Or.inl rfl, hregistry.1, fun s hs =>
    persists_of_find? h.granting h.granting hs (hregistry.1 ▸ hs) rfl rfl⟩

theorem Files.shutDown : let st' := (run Storage.shutDown st).2
    Files dataDir saved savers st' ∧ ∀ s ∈ st.registry.issued, Persists s st st' := by
  have hclosed : (run Storage.shutDown st).2 =
      { st with lifecycle := st.lifecycle.beginShutdown } := by
    rw [Storage.shutDown, run_bind_ok (run_onLifecycle _ _), run_bind_ok (run_get _)]
    split <;> rfl
  simp only [hclosed]
  exact ⟨h.congr rfl ⟨rfl, rfl, rfl⟩ h.granting fun q => Or.inl rfl, fun s hs =>
    persists_of_find? h.granting h.granting hs hs rfl rfl⟩

/-- The files are there when the storage is opened again, and nobody holds one. -/
theorem Files.reopen (syncWrite : Bool) : ∃ st' disk,
    openAt dataDir syncWrite st.registry st.disk = (.ok st', disk) ∧ Files dataDir saved [] st' := by
  have hfree : st.disk.blocked (dataDir ++ ["sessions"]) = false := by
    rw [Disk.blocked_eq_false]
    intro q hq number content hf
    rw [h.directories q hq] at hf
    cases hf
  obtain ⟨d, hrun, hgranting, _, hfind⟩ := Disk.run_makeDirs h.granting hfree
  have hopen : run (Backend.openAt dataDir syncWrite) st.disk =
      ((.ok ⟨dataDir ++ ["sessions"], syncWrite⟩, d) : Except Error SessionFiles × Disk) :=
    run_bind_ok hrun
  refine ⟨⟨⟨dataDir ++ ["sessions"], syncWrite⟩, d, st.registry, Lifecycle.initial⟩, d, ?_, ?_⟩
  · rw [openAt, Registry.reopen_numbered h.numbered]
    simp only [hopen]
  · have hnobody : Files dataDir saved [] st :=
      { h with savers := fun _ hv => absurd hv List.not_mem_nil }
    refine hnobody.congr h.root.symm ⟨rfl, rfl, rfl⟩ hgranting fun q => ?_
    rw [hfind]
    split
    · rename_i hq
      exact Or.inr ⟨hq, rfl⟩
    · exact Or.inl rfl

omit h in
/-- Opening a vacant directory makes the one of the sessions, with nothing in it. -/
theorem files_openAt {d : Disk} (h : Database.Vacant (dataDir ++ ["sessions"]) d)
    (syncWrite : Bool) : ∃ st d',
    openAt dataDir syncWrite Registry.empty d = (.ok st, d') ∧ Files dataDir [] [] st := by
  obtain ⟨d', hrun, hgranting, _, hfind⟩ := Disk.run_makeDirs h.granting h.free
  have hopen : run (Backend.openAt dataDir syncWrite) d =
      ((.ok ⟨dataDir ++ ["sessions"], syncWrite⟩, d') : Except Error SessionFiles × Disk) :=
    run_bind_ok hrun
  refine ⟨⟨⟨dataDir ++ ["sessions"], syncWrite⟩, d', Registry.empty, Lifecycle.initial⟩, d', ?_, ?_⟩
  · rw [openAt, Registry.reopen_numbered Registry.numbered_empty]
    simp only [hopen]
  · refine ⟨rfl, hgranting, fun q hq => (hfind q).trans (if_pos hq), Registry.numbered_empty,
      fun _ he => absurd he List.not_mem_nil, fun s _ => ?_, fun _ hs => absurd hs List.not_mem_nil,
      fun _ hv => absurd hv List.not_mem_nil⟩
    have hnot : ¬ path ⟨dataDir ++ ["sessions"], syncWrite⟩ s <+: dataDir ++ ["sessions"] :=
      not_prefix_root
    refine (hfind _).trans ((if_neg hnot).trans (h.nothing _ ?_ ?_))
    · rw [path, directory, List.append_assoc]
      exact List.prefix_append _ _
    · exact fun heq => hnot ⟨[], (List.append_nil _).trans heq⟩

omit h in
theorem durable_files (dataDir : Path) :
    Durable dataDir fun (_ : Nat) saved savers st => Files dataDir saved savers st where
  locate := SessionFiles.run_locate
  granting h := h.granting
  issued h := h.issued
  fewer h := h
  perm h hperm := h.perm hperm
  lifecycle _ h := h.congr rfl ⟨rfl, rfl, rfl⟩ h.granting fun _ => Or.inl rfl
  setClock _ h := h.congr rfl ⟨rfl, rfl, rfl⟩ h.granting fun _ => Or.inl rfl
  save h v hv m := by
    obtain ⟨st', hrun, hregistry, hfiles, hothers⟩ := h.save hv m
    rw [hrun]
    exact ⟨hfiles, hregistry, fun s hs hne => hothers s hs fun heq => nomatch hne heq⟩
  openSaver h := h.openSaver
  closeSaver {_ _ v _ _} h answers := by
    obtain ⟨hfiles, hissued⟩ := h.closeSaver answers v
    exact ⟨{ hfiles with savers := fun w hw => hfiles.savers w (List.mem_cons_of_mem _ hw) }, hissued⟩
  shutDown h := h.shutDown
  reopen h := h.reopen

end Storage
end HeapTelemetry
