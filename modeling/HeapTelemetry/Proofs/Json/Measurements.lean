import HeapTelemetry.Proofs.Json.Records
import HeapTelemetry.Proofs.TimestampTexts

/-! Measurements as lines. A measurement is read back from its line, which has its newline
at the end and nowhere else, so a file of such lines holds its measurements. -/

namespace HeapTelemetry

/-! ## Measurements -/

namespace Record
open Json

theorem usage?_ofUsage (u : Usage) : usage? (ofUsage u) = some u := by
  have hfields : fields? ["alloc_objects", "alloc_bytes", "free_objects", "free_bytes"] (ofUsage u) =
      some [some (ofInt u.allocObjects.toInt), some (ofInt u.allocBytes.toInt),
        some (ofInt u.freeObjects.toInt), some (ofInt u.freeBytes.toInt)] :=
    fields?_record [("alloc_objects", ofInt u.allocObjects.toInt),
      ("alloc_bytes", ofInt u.allocBytes.toInt), ("free_objects", ofInt u.freeObjects.toInt),
      ("free_bytes", ofInt u.freeBytes.toInt)]
      (show ["alloc_objects", "alloc_bytes", "free_objects", "free_bytes"].Nodup by decide)
  simp only [usage?, hfields, Option.bind_eq_bind, Option.bind_some, asInt64?_ofInt,
    Option.pure_def]

theorem location?_ofLocation (l : Location) : location? (ofLocation l) = some l := by
  have hfields : fields? ["call_stack", "memory_usage"] (ofLocation l) =
      some [some (ofCallStack l.stack), some (ofUsage l.usage)] :=
    fields?_record [("call_stack", ofCallStack l.stack), ("memory_usage", ofUsage l.usage)]
      (show ["call_stack", "memory_usage"].Nodup by decide)
  simp only [location?, hfields, Option.bind_eq_bind, Option.bind_some, callStack?_ofCallStack,
    usage?_ofUsage, Option.pure_def]

theorem measurement?_ofMeasurement (m : Measurement) :
    measurement? (ofMeasurement m) = some m := by
  have hfields : fields? ["observed_at", "locations"] (ofMeasurement m) =
      some [some (ofString m.observedAt.text), some (array (m.locations.map ofLocation))] :=
    fields?_record [("observed_at", ofString m.observedAt.text),
      ("locations", array (m.locations.map ofLocation))]
      (show ["observed_at", "locations"].Nodup by decide)
  simp only [measurement?, hfields, Option.bind_eq_bind, Option.bind_some,
    asList?_array location?_ofLocation, timestamp?, asText?_ofString, Timestamp.parse?_text,
    Option.pure_def]

theorem written_ofLocation (l : Location) : Written (ofLocation l) := by
  apply written_record
  simp only [List.forall_mem_cons, List.not_mem_nil, false_implies, implies_true, and_true]
  refine ⟨written_ofCallStack l.stack, written_record ?_⟩
  simp only [List.forall_mem_cons, List.not_mem_nil, false_implies, implies_true, and_true]
  exact ⟨.integer _, .integer _, .integer _, .integer _⟩

theorem written_ofMeasurement (m : Measurement) : Written (ofMeasurement m) := by
  apply written_record
  simp only [List.forall_mem_cons, List.not_mem_nil, false_implies, implies_true, and_true]
  refine ⟨.text m.observedAt.text, .array fun v hv => ?_⟩
  obtain ⟨l, _, rfl⟩ := List.mem_map.1 hv
  exact written_ofLocation l

/-! ## Lines -/

/-- A measurement is read back from its line. -/
theorem decode_encode (m : Measurement) : decode (encode m) = .ok m := by
  have hwritten := written_ofMeasurement m
  have htext : Bytes.IsText (encode m) :=
    hwritten.isText.append (isText_byte (by decide : Bytes.newline.toNat < 128))
  obtain ⟨s, hs, _⟩ := htext.text?
  have hparse : parse? (encode m) = some (ofMeasurement m) :=
    parse?_object hwritten (by decide : skipSpace [Bytes.newline] = [])
  rw [decode, hs, hparse]
  simp only [Option.bind_some, measurement?_ofMeasurement]

theorem newline_not_mem_render (m : Measurement) : Bytes.newline ∉ (ofMeasurement m).render :=
  fun hb => absurd ((written_ofMeasurement m).printable _ hb) (by decide)

theorem isBlank_encode (m : Measurement) : Bytes.isBlank (encode m) = false := by
  have hopen : ∃ rest, encode m = 123 :: rest := by
    rw [encode, ofMeasurement, record, render]
    exact ⟨_, rfl⟩
  obtain ⟨rest, hrest⟩ := hopen
  rw [hrest]
  rfl

end Record

namespace Bytes

/-- A line ends with its newline. -/
theorem lines_append {body : Bytes} (h : newline ∉ body) (rest : Bytes) :
    lines (body ++ newline :: rest) = (body ++ [newline]) :: lines rest := by
  induction body with
  | nil => rw [List.nil_append, lines, if_pos rfl]; rfl
  | cons b body ih =>
    obtain ⟨hb, hbody⟩ := not_or.1 (mt List.mem_cons.2 h)
    rw [List.cons_append, lines, if_neg (Ne.symm hb), ih hbody]
    rfl

end Bytes

namespace Record

theorem lines_encode (ms : List Measurement) :
    Bytes.lines (ms.flatMap encode) = ms.map encode := by
  induction ms with
  | nil => rfl
  | cons m ms ih =>
    have hsplit : encode m ++ ms.flatMap encode =
        (ofMeasurement m).render ++ Bytes.newline :: ms.flatMap encode := by
      rw [encode, List.append_assoc]
      rfl
    rw [List.flatMap_cons, hsplit, Bytes.lines_append (newline_not_mem_render m), ih]
    rfl

end Record
end HeapTelemetry
