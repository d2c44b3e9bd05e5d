import HeapTelemetry.Proofs.Replay
import HeapTelemetry.Proofs.Residents
import HeapTelemetry.Proofs.Storage.Durable
import HeapTelemetry.Proofs.Storage.Traffic

/-! A series storage is durable: what is read back of a session depends on what was accepted
of it alone, so it stays as it is while series are sealed and other sessions save. -/

namespace HeapTelemetry.Storage
open Step Measurement SessionSeries SessionWindows
variable {dataDir : Path} {saved saved' : List (Session × Measurement)} {bound bound' n : Nat}
  {savers : List (Saver Unit)} {st st' : Storage Database} {s : Session}

theorem answer_series (hs : s ∈ st.registry.issued) (window : Nat) (cancelAfter : Option Nat) :
    st.answer window cancelAfter s =
      Engine.digest window cancelAfter (SessionSeries.read s (st.backend, st.disk)) := by
  obtain ⟨e, he⟩ := Registry.lookup_issued hs
  rw [answer, he]
  rfl

theorem Serves.coherent (h : Serves dataDir saved bound st) (hs : s ∈ st.registry.issued)
    (hids : DistinctIds (acceptedOf s saved)) : Coherent (acceptedOf s saved) :=
  coherent_of_ascending
    (fun _ hm => (h.contains.storable _ (mem_acceptedOf.1 hm)).timed)
    (h.contains.ascending (h.key hs)) hids

/-- Where the same was accepted of a session, the same report is read back. -/
theorem Serves.persists (h : Serves dataDir saved bound st) (h' : Serves dataDir saved' bound' st')
    (hs : s ∈ st.registry.issued) (hs' : s ∈ st'.registry.issued)
    (hsame : acceptedOf s saved' = acceptedOf s saved) : Persists s st st' := by
  intro window r hr
  rw [answer_series hs] at hr
  rw [answer_series hs']
  by_cases hids : DistinctIds (acceptedOf s saved)
  · obtain ⟨out, hread, hout⟩ := h.read hs hids
    obtain ⟨out', hread', hout'⟩ := h'.read hs' (hsame ▸ hids)
    rw [hsame] at hout'
    rw [hread, Engine.digest_items] at hr
    rw [hread', Engine.digest_items, ← hr, compute_of_reassembled window (h.coherent hs hids) hout hout']
  · obtain ⟨k, hread⟩ := (h.contains.read (h.key hs)).2 hids
    rw [hread] at hr
    cases hr

/-- The series serve what was saved, savers save to issued sessions, and there are block
numbers for so many more closes. -/
structure Series (dataDir : Path) (n : Nat) (saved : List (Session × Measurement))
    (savers : List (Saver Unit)) (st : Storage Database) : Prop where
  serves : ∃ bound, bound + n ≤ UInt64.size ∧ st.Serves dataDir saved bound
  savers : ∀ v ∈ savers, v.session ∈ st.registry.issued

theorem Series.save (h : Series dataDir n saved savers st) {v : Saver Unit} (hv : v ∈ savers)
    (m : Measurement) :
    let r := run (Storage.save v m) st
    Series dataDir n (saved ++ taken v m r.1) savers r.2 ∧ r.2.registry = st.registry ∧
      ∀ s ∈ st.registry.issued, (s = v.session → r.1.toOption = none) → Persists s st r.2 := by
  obtain ⟨bound, hbound, hserves⟩ := h.serves
  obtain ⟨hregistry, hserves'⟩ := hserves.save (h.savers v hv) m
  cases hrun : run (Storage.save v m) st with
  | mk r st' =>
    rw [hrun] at hregistry hserves'
    have hkept : ∀ v ∈ savers, v.session ∈ st'.registry.issued := fun v hv =>
      hregistry ▸ h.savers v hv
    have hissued : ∀ s ∈ st.registry.issued, s ∈ st'.registry.issued := fun s hs => hregistry ▸ hs
    cases r with
    | ok u =>
      refine ⟨⟨⟨bound, hbound, hserves'⟩, hkept⟩, hregistry, fun s hs hother => ?_⟩
      have hne : s ≠ v.session := fun heq => nomatch hother heq
      exact hserves.persists hserves' hs (hissued s hs) (acceptedOf_concat_other hne saved m)
    | error e =>
      refine ⟨⟨⟨bound, hbound, ?_⟩, hkept⟩, hregistry, fun s hs _ => ?_⟩
      · simpa [taken] using hserves'
      · exact hserves.persists hserves' hs (hissued s hs) rfl

theorem Series.openSaver (h : Series dataDir n saved savers st) (answers : List Verdict)
    (owner : Instance) :
    let r := run (Storage.openSaver owner) (st.expecting answers)
    let st' := r.2.expecting []
    Series dataDir n saved (r.1.toOption.toList ++ savers) st' ∧
      ∀ s ∈ st.registry.issued, s ∈ st'.registry.issued ∧ Persists s st st' := by
  obtain ⟨bound, hbound, hserves⟩ := h.serves
  obtain ⟨hserves', hold, hnew⟩ := hserves.openSaver owner
  have hsame := openSaver_facing hserves.granting answers owner
  rw [← hsame] at hserves' hold hnew
  refine ⟨⟨⟨bound, hbound, hserves'⟩, fun v hv => ?_⟩, fun s hs => ⟨hold s hs, ?_⟩⟩
  · rcases List.mem_append.1 hv with hv | hv
    · rw [Option.mem_toList] at hv
      exact hnew v (toOption_eq_some.1 hv)
    · exact hold _ (h.savers v hv)
  · exact hserves.persists hserves' hs (hold s hs) rfl

theorem Series.closeSaver {v : Saver Unit} (h : Series dataDir (n + 1) saved (v :: savers) st)
    (answers : List Verdict) :
    let st' := (run (Storage.closeSaver v) (st.expecting answers)).2.expecting []
    Series dataDir n saved savers st' ∧ st'.registry.issued = st.registry.issued ∧
      ∀ s ∈ st.registry.issued, Persists s st st' := by
  obtain ⟨bound, hbound, hserves⟩ := h.serves
  obtain ⟨hissued, hserves'⟩ := hserves.closeFacing (by omega) answers v
  have hsame : st.closeFacing answers v =
      (run (Storage.closeSaver v) (st.expecting answers)).2.expecting [] := rfl
  rw [hsame] at hissued hserves'
  refine ⟨⟨⟨bound + 1, by omega, hserves'⟩, fun w hw => ?_⟩, hissued, fun s hs => ?_⟩
  · rw [hissued]
    exact h.savers w (List.mem_cons_of_mem _ hw)
  · exact hserves.persists hserves' hs (hissued ▸ hs) rfl

theorem Series.shutDown (h : Series dataDir n saved savers st) :
    let st' := (run Storage.shutDown st).2
    Series dataDir n saved savers st' ∧ ∀ s ∈ st.registry.issued, Persists s st st' := by
  obtain ⟨bound, hbound, hserves⟩ := h.serves
  obtain ⟨hregistry, hserves'⟩ := hserves.shutDown
  have hissued : ∀ s ∈ st.registry.issued, s ∈ (run Storage.shutDown st).2.registry.issued :=
    fun s hs => hregistry ▸ hs
  exact ⟨⟨⟨bound, hbound, hserves'⟩, fun v hv => hissued _ (h.savers v hv)⟩, fun s hs =>
    hserves.persists hserves' hs (hissued s hs) rfl⟩

theorem durable_series (dataDir : Path) : Durable dataDir (Series dataDir) where
  locate := SessionSeries.run_locate
  granting h := h.serves.choose_spec.2.granting
  issued h := h.serves.choose_spec.2.issued
  fewer h := by
    obtain ⟨⟨bound, hbound, hserves⟩, hsavers⟩ := h
    exact ⟨⟨bound, by omega, hserves⟩, hsavers⟩
  perm h hperm := ⟨h.serves, fun v hv => h.savers v (hperm.mem_iff.2 hv)⟩
  lifecycle l h := by
    obtain ⟨⟨bound, hbound, hserves⟩, hsavers⟩ := h
    exact ⟨⟨bound, hbound, hserves.contains, hserves.dir, hserves.numbered, hserves.issued⟩, hsavers⟩
  setClock time h := by
    obtain ⟨⟨bound, hbound, hserves⟩, hsavers⟩ := h
    exact ⟨⟨bound, hbound, hserves.contains, hserves.dir,
      hserves.numbered.congr rfl rfl rfl, hserves.issued⟩, hsavers⟩
  save h v hv m := h.save hv m
  openSaver h := h.openSaver
  closeSaver h := h.closeSaver
  shutDown h := h.shutDown
  reopen h syncWrite := by
    obtain ⟨bound, hbound, hserves⟩ := h.serves
    obtain ⟨st', disk, hopen, _, _, hserves'⟩ := hserves.reopen syncWrite
    exact ⟨st', disk, hopen, ⟨bound, hbound, hserves'⟩, fun _ hv => absurd hv List.not_mem_nil⟩

end HeapTelemetry.Storage
