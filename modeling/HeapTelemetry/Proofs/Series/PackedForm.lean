import HeapTelemetry.Proofs.Series.LabelSets
import HeapTelemetry.Series.FileFrame
import HeapTelemetry.Series.Packed

/-! Packed values read back. `Reads` says that a reader takes exactly what a
writer put in front; it is shown for each part of a series, from the numbers
up, and carried through the compressed frames. A frame that is cut short is
never read as one. -/

namespace HeapTelemetry

namespace Packed
variable {α β : Type}

/-- The reader gives the value back and leaves the bytes behind it, as long as
all lengths fit their eight bytes. -/
def Reads (write : α → Bytes) (reader : Reader α) : Prop :=
  ∀ x rest, (write x).length < UInt64.size → reader (write x ++ rest) = some (x, rest)

theorem nat?_ofNat {n : Nat} (h : n < UInt64.size) (rest : Bytes) :
    nat? (ofNat n ++ rest) = some (n, rest) :=
  Bytes.readWord_word 8 n rest h

@[simp] theorem length_ofNat (n : Nat) : (ofNat n).length = 8 := Bytes.length_word 8 n

/-! ## Texts and lists -/

theorem reads_text : Reads ofText text? := by
  intro s rest h
  rw [ofText, List.length_append, length_ofNat] at h
  rw [text?, ofText, List.append_assoc, nat?_ofNat (by omega)]
  simp only [Option.bind_eq_bind, Option.bind_some, Bytes.take?_append, Bytes.text?_ofText]
  rfl

theorem items?_flatMap {write : α → Bytes} {reader : Reader α} (hr : Reads write reader)
    (xs : List α) (rest : Bytes) (h : (xs.flatMap write).length < UInt64.size) :
    items? reader xs.length (xs.flatMap write ++ rest) = some (xs, rest) := by
  induction xs with
  | nil => rfl
  | cons x xs ih =>
    rw [List.flatMap_cons, List.length_append] at h
    rw [List.flatMap_cons, List.append_assoc, List.length_cons, items?, hr x _ (by omega)]
    simp only [Option.bind_eq_bind, Option.bind_some, ih (by omega)]
    rfl

theorem length_le_flatMap {write : α → Bytes} (hw : ∀ x, 0 < (write x).length) (xs : List α) :
    xs.length ≤ (xs.flatMap write).length := by
  induction xs with
  | nil => exact Nat.le_refl 0
  | cons x xs ih =>
    have hx := hw x
    rw [List.flatMap_cons, List.length_append, List.length_cons]
    omega

/-- Items that take bytes cannot be more than their bytes, so their count fits. -/
theorem reads_list {write : α → Bytes} {reader : Reader α} (hr : Reads write reader)
    (hw : ∀ x, 0 < (write x).length) : Reads (ofList write) (list? reader) := by
  intro xs rest h
  have hle := length_le_flatMap hw xs
  rw [ofList, List.length_append, length_ofNat] at h
  rw [list?, ofList, List.append_assoc, nat?_ofNat (by omega)]
  exact items?_flatMap hr xs rest (by omega)

theorem length_ofList_pos (write : α → Bytes) (xs : List α) : 0 < (ofList write xs).length := by
  rw [ofList, List.length_append, length_ofNat]
  omega

/-! ## Parts of a series -/

theorem reads_label : Reads ofLabel label? := by
  intro l rest h
  rw [ofLabel, List.length_append] at h
  rw [label?, ofLabel, List.append_assoc, reads_text _ _ (by omega)]
  simp only [Option.bind_eq_bind, Option.bind_some, reads_text l.2 rest (by omega)]
  rfl

theorem length_ofLabel_pos (l : Label) : 0 < (ofLabel l).length := by
  rw [ofLabel, ofText, List.length_append, List.length_append, length_ofNat]
  omega

/-- Label sets are read as pairs; those of a label set come sorted. -/
theorem reads_labels : Reads ofLabels labels? := by
  intro l rest h
  rw [labels?, ofLabels, reads_list reads_label length_ofLabel_pos _ rest h, Option.map_some]
  exact congrArg (fun x => some (x, rest)) (Labels.ofList_entries l)

theorem reads_sample : Reads ofSample sample? := by
  intro s rest _
  rw [sample?, ofSample, List.append_assoc, nat?_ofNat s.time.toUInt64.toNat_lt]
  simp only [Option.bind_eq_bind, Option.bind_some, nat?_ofNat s.value.bits.toNat_lt rest,
    UInt64.ofNat_toNat, Int64.toInt64_toUInt64]
  rfl

theorem reads_samples : Reads ofSamples samples? :=
  reads_list reads_sample fun s => by rw [ofSample, List.length_append, length_ofNat]; omega

theorem reads_series : Reads ofSeries series? := by
  intro s rest h
  rw [ofSeries, List.length_append] at h
  rw [series?, ofSeries, List.append_assoc, reads_labels _ _ (by omega)]
  simp only [Option.bind_eq_bind, Option.bind_some, reads_samples s.samples rest (by omega)]
  rfl

theorem reads_batch : Reads (ofList ofSeries) (list? series?) :=
  reads_list reads_series fun s => by
    rw [ofSeries, List.length_append]
    exact Nat.add_pos_left (length_ofList_pos ofLabel s.labels.entries) _

theorem reads_labelSets : Reads (ofList ofLabels) (list? labels?) :=
  reads_list reads_labels fun l => length_ofList_pos ofLabel l.entries

theorem reads_sampleLists : Reads (ofList ofSamples) (list? samples?) :=
  reads_list reads_samples fun ss => length_ofList_pos ofSample ss

/-- A whole value reads back from its own bytes. -/
theorem read?_of_reads {write : α → Bytes} {reader : Reader α} (hr : Reads write reader) {x : α}
    (h : (write x).length < UInt64.size) : read? reader (write x) = some x := by
  have hx := hr x [] h
  rw [List.append_nil] at hx
  rw [read?, hx]
  rfl

end Packed

/-! ## Frames -/

namespace FileFrame

/-- The frame's payload gives the packed value back. Which runs and copies it was compressed
to is left to whoever wrote it. -/
def Carries (raw frame : Bytes) : Prop :=
  ∃ payload, payload.length < UInt32.size ∧ frame = Bytes.word 4 payload.length ++ payload ∧
    Compressed.decompress? payload = some raw

/-- Up to so many bytes have a frame, however badly they compress. -/
def room : Nat := 3900000000

section
variable [Compressor]

/-- What is made of the bytes is not too long for the length in front of it. -/
def Fits (raw : Bytes) : Prop := (Compressor.compress raw).length < UInt32.size

theorem exists_encode_iff (what : String) (raw : Bytes) :
    (∃ frame, encode what raw = .ok frame) ↔ Fits raw := by
  simp only [encode]
  split
  · rename_i hfits
    exact iff_of_true ⟨_, rfl⟩ hfits
  · rename_i hlarge
    exact iff_of_false (fun ⟨_, h⟩ => by cases h) hlarge

theorem fits_of_length_le {raw : Bytes} (h : raw.length ≤ room) : Fits raw := by
  have hlength := Compressor.length_compress_le raw
  have hroom : room + room / 10 + 24 < UInt32.size := by decide
  have htenth := Nat.div_le_div_right (c := 10) h
  rw [Fits]
  omega

theorem carries_of_encode {what : String} {raw frame : Bytes}
    (h : encode what raw = .ok frame) : Carries raw frame := by
  simp only [encode] at h
  split at h
  · rename_i hfits
    cases h
    exact ⟨_, hfits, rfl, Compressor.decompress?_compress raw hfits⟩
  · cases h

end

variable {raw frame : Bytes}

theorem Carries.length_lt (h : Carries raw frame) : raw.length < UInt32.size := by
  obtain ⟨payload, _, _, hraw⟩ := h
  exact Compressed.length_lt_of_decompress? hraw

theorem Carries.length_pos (h : Carries raw frame) : 0 < frame.length := by
  obtain ⟨payload, _, rfl, _⟩ := h
  rw [List.length_append, Bytes.length_word]
  omega

theorem Carries.next_append (h : Carries raw frame) (rest : Bytes) :
    ∃ payload, next (frame ++ rest) = .frame payload rest ∧
      Compressed.decompress? payload = some raw := by
  obtain ⟨payload, hfits, rfl, hraw⟩ := h
  exact ⟨payload, FileFrame.next_append payload rest hfits, hraw⟩

/-- A frame that lost its end is found out by its header, whatever its payload. -/
theorem Carries.next_take (h : Carries raw frame) {k : Nat} (hk : k < frame.length) :
    next (frame.take k) = if k < 4 then .noHeader else .short := by
  obtain ⟨payload, hfits, rfl, _⟩ := h
  rw [List.length_append, Bytes.length_word] at hk
  by_cases hheader : k < 4
  · have hshort : ¬ 4 ≤ ((Bytes.word 4 payload.length ++ payload).take k).length := by
      rw [List.length_take]
      omega
    rw [if_pos hheader, next, Bytes.readWord, Bytes.take?_eq, if_neg hshort]
    rfl
  · have hcut : (Bytes.word 4 payload.length ++ payload).take k =
        Bytes.word 4 payload.length ++ payload.take (k - 4) := by
      rw [List.take_append, Bytes.length_word, List.take_of_length_le]
      rw [Bytes.length_word]
      omega
    have hshort : ¬ payload.length ≤ (payload.take (k - 4)).length := by
      rw [List.length_take]
      omega
    rw [if_neg hheader, next, hcut, Bytes.readWord_word 4 _ _ hfits]
    simp only [Bytes.take?_eq, if_neg hshort]

end FileFrame
end HeapTelemetry
