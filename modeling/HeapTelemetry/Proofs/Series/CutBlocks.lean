import HeapTelemetry.Proofs.Series.Replies

/-! Blocks that lost their end. A block that was written gives back all its series. Of the same
file cut anywhere the series are refused, and never are fewer of them given; the label sets are
given as long as their frame is whole, for they stand in front and are read alone. -/

namespace HeapTelemetry.Block
open Step Packed

/-! ## Reading what is left -/

/-- What is reported of a frame of which only the first `k` bytes are there. -/
def brokenFrame (k : Nat) : Error := if k < 4 then .blockWithoutHeader else .shortBlock

theorem kind_brokenFrame (k : Nat) : (brokenFrame k).kind = .integrity := by
  rw [brokenFrame]
  split <;> rfl

theorem frame_take {α : Type} (reader : Reader α) {raw bytes : Bytes}
    (h : FileFrame.Carries raw bytes) {k : Nat} (hk : k < bytes.length) :
    frame reader (bytes.take k) = .error (brokenFrame k) := by
  rw [frame, h.next_take hk, brokenFrame]
  by_cases hheader : k < 4
  · rw [if_pos hheader, if_pos hheader]
  · rw [if_neg hheader, if_neg hheader]

variable {series : List Series} {labelFrame sampleFrame : Bytes}

theorem Framed.labels_take (h : Framed series labelFrame sampleFrame) (k : Nat) :
    Block.labels ((labelFrame ++ sampleFrame).take k) =
      if labelFrame.length ≤ k then .ok (series.map Series.labels) else .error (brokenFrame k) := by
  by_cases hwhole : labelFrame.length ≤ k
  · rw [if_pos hwhole, List.take_append, List.take_of_length_le hwhole]
    exact h.labels_append _
  · have hk : k < labelFrame.length := Nat.not_le.1 hwhole
    rw [if_neg hwhole, List.take_append_of_le_length (Nat.le_of_lt hk), Block.labels,
      frame_take _ h.labels hk]
    rfl

/-- The frame that the cut falls into is the one that is reported. -/
theorem Framed.series_take (h : Framed series labelFrame sampleFrame) {k : Nat}
    (hk : k < (labelFrame ++ sampleFrame).length) :
    Block.series ((labelFrame ++ sampleFrame).take k) =
      .error (brokenFrame (if labelFrame.length ≤ k then k - labelFrame.length else k)) := by
  rw [List.length_append] at hk
  -- The samples are read last, so a cut anywhere leaves one of the two frames broken.
  by_cases hwhole : labelFrame.length ≤ k
  · have hrest : k - labelFrame.length < sampleFrame.length := by omega
    rw [if_pos hwhole, List.take_append, List.take_of_length_le hwhole, Block.series,
      frame_append reads_labelSets h.labels]
    simp only [bind, Except.bind, frame_take _ h.samples hrest]
  · have hfirst : k < labelFrame.length := Nat.not_le.1 hwhole
    rw [if_neg hwhole, List.take_append_of_le_length (Nat.le_of_lt hfirst), Block.series,
      frame_take _ h.labels hfirst]
    rfl

/-! ## Writing -/

section
variable [Compressor]

/-- Neither the label sets nor the samples are too large for a frame. -/
def Fits (series : List Series) : Prop :=
  FileFrame.Fits (ofList ofLabels (series.map Series.labels)) ∧
    FileFrame.Fits (ofList ofSamples (series.map Series.samples))

theorem exists_encode_iff (series : List Series) :
    (∃ bytes, encode series = .ok bytes) ↔ Fits series := by
  rw [encode, Fits, ← FileFrame.exists_encode_iff "block frame",
    ← FileFrame.exists_encode_iff "block frame"]
  cases FileFrame.encode "block frame" (ofList ofLabels (series.map Series.labels)) with
  | error e => exact iff_of_false (by rintro ⟨_, h⟩; cases h) (by rintro ⟨⟨_, h⟩, _⟩; cases h)
  | ok ls =>
    cases FileFrame.encode "block frame" (ofList ofSamples (series.map Series.samples)) with
    | error e => exact iff_of_false (by rintro ⟨_, h⟩; cases h) (by rintro ⟨_, _, h⟩; cases h)
    | ok ss => exact iff_of_true ⟨_, rfl⟩ ⟨⟨ls, rfl⟩, ss, rfl⟩

/-- On a device without failures only a frame that is too large keeps a block from being
written. -/
theorem write_eq_ok_iff {dir : Path} {id : Nat} {d : Disk} (hv : d.verdicts = [])
    (hdir : d.isDirectory dir = true) (htemporary : d.isDirectory (temporary dir id) = false)
    (hpath : d.isDirectory (path dir id) = false) (series : List Series) :
    (run (write dir id series) d).1 = .ok () ↔ Fits series := by
  rw [reply_write htemporary hpath hdir, hv, ← exists_encode_iff]
  cases encode series with
  | error e => exact iff_of_false nofun nofun
  | ok bytes => exact iff_of_true rfl ⟨bytes, rfl⟩

/-- A block is written unless one of its frames is too large or the device fails, and then the
file has the two frames of these series. Whatever its payloads were compressed to, such a file
gives back the series in their order, and their label sets alone. Of any strict prefix of it the
series are refused for an integrity error, and the label sets are given just if their frame is
whole. -/
theorem whole_or_refused (dir : Path) (id : Nat) (series : List Series) :
    (∀ d : Disk, d.verdicts = [] → d.isDirectory dir = true →
      d.isDirectory (temporary dir id) = false → d.isDirectory (path dir id) = false →
      ((run (write dir id series) d).1 = .ok () ↔ Fits series)) ∧
    (∀ d d', run (write dir id series) d = (.ok (), d') → ∃ labelFrame sampleFrame,
      Framed series labelFrame sampleFrame ∧
        run (Disk.read (path dir id)) d' = (.ok (labelFrame ++ sampleFrame), d')) ∧
    ∀ labelFrame sampleFrame, Framed series labelFrame sampleFrame →
      let file := labelFrame ++ sampleFrame
      Block.series file = .ok series ∧ labels file = .ok (series.map Series.labels) ∧
      ∀ k < file.length,
        (∃ e, Block.series (file.take k) = .error e ∧ e.kind = .integrity) ∧
        (labelFrame.length ≤ k → labels (file.take k) = .ok (series.map Series.labels)) ∧
        (k < labelFrame.length → ∃ e, labels (file.take k) = .error e ∧ e.kind = .integrity) := by
  refine ⟨fun d hv hdir htemporary hpath => write_eq_ok_iff hv hdir htemporary hpath series,
    fun d d' hwrite => ?_, fun labelFrame sampleFrame h => ?_⟩
  · obtain ⟨bytes, number, hencode, hfile⟩ := find?_of_write hwrite
    obtain ⟨labelFrame, sampleFrame, hframed, rfl⟩ := framed_of_encode hencode
    exact ⟨labelFrame, sampleFrame, hframed, Disk.run_read hfile⟩
  · refine ⟨h.series_append, h.labels_append sampleFrame, fun k hk => ⟨?_, fun hwhole => ?_,
      fun hbroken => ?_⟩⟩
    · exact ⟨_, h.series_take hk, kind_brokenFrame _⟩
    · rw [h.labels_take, if_pos hwhole]
    · rw [h.labels_take, if_neg (Nat.not_le.2 hbroken)]
      exact ⟨_, rfl, kind_brokenFrame k⟩

end

/-- Two jobs, of which one was measured three times. -/
def jobs : List Series :=
  [⟨Labels.ofList [("job", "a")], [⟨5, Binary64.zero⟩, ⟨7, Binary64.zero⟩, ⟨9, Binary64.zero⟩]⟩,
    ⟨Labels.ofList [("job", "b")], [⟨7, Binary64.zero⟩]⟩]

/-- Cut between its frames the block has all label sets and no series, and one byte before that
it has neither. -/
theorem whole_or_refused_between_frames :
    (Disk.empty.verdicts = [] ∧ Disk.empty.isDirectory [] = true ∧
      Disk.empty.isDirectory (temporary [] 7) = false ∧
      Disk.empty.isDirectory (path [] 7) = false ∧ Fits jobs) ∧
    ∃ d' labelFrame sampleFrame, run (write [] 7 jobs) Disk.empty = (.ok (), d') ∧
      Framed jobs labelFrame sampleFrame ∧
      run (Disk.read (path [] 7)) d' = (.ok (labelFrame ++ sampleFrame), d') ∧
      Block.series (labelFrame ++ sampleFrame) = .ok jobs ∧
      let behind := (labelFrame ++ sampleFrame).take labelFrame.length
      let before := (labelFrame ++ sampleFrame).take (labelFrame.length - 1)
      labels behind = .ok (jobs.map Series.labels) ∧
      (∃ e, Block.series behind = .error e ∧ e.kind = .integrity) ∧
      (∃ e, labels before = .error e ∧ e.kind = .integrity) ∧
      ∃ e, Block.series before = .error e ∧ e.kind = .integrity := by
  have hvacant : Disk.empty.verdicts = [] ∧ Disk.empty.isDirectory [] = true ∧
      Disk.empty.isDirectory (temporary [] 7) = false ∧
      Disk.empty.isDirectory (path [] 7) = false := by decide +kernel
  have hfits : Fits jobs := by
    rw [Fits, FileFrame.Fits, FileFrame.Fits]
    decide +kernel
  obtain ⟨hgranted, hfound, hread⟩ := whole_or_refused [] 7 jobs
  have hok := (hgranted Disk.empty hvacant.1 hvacant.2.1 hvacant.2.2.1 hvacant.2.2.2).2 hfits
  cases hwrite : run (write [] 7 jobs) Disk.empty with
  | mk r d' =>
    rw [hwrite] at hok
    subst hok
    obtain ⟨labelFrame, sampleFrame, hframed, hfile⟩ := hfound _ d' hwrite
    obtain ⟨hseries, _, hcut⟩ := hread labelFrame sampleFrame hframed
    have hlabels := hframed.labels.length_pos
    have hsamples := hframed.samples.length_pos
    rw [List.length_append] at hcut
    obtain ⟨hrefused, hgiven, _⟩ := hcut labelFrame.length (by omega)
    obtain ⟨hrefused', _, hbroken⟩ := hcut (labelFrame.length - 1) (by omega)
    exact ⟨⟨hvacant.1, hvacant.2.1, hvacant.2.2.1, hvacant.2.2.2, hfits⟩, d', labelFrame,
      sampleFrame, rfl, hframed, hfile, hseries, hgiven (Nat.le_refl _), hrefused,
      hbroken (by omega), hrefused'⟩

end HeapTelemetry.Block
