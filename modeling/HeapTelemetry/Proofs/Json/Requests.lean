import HeapTelemetry.Proofs.Json.Measurements

/-! Requests read back from their documents, with or without a newline behind them, and
measurements written one after another behind what a buffer holds: each adds one line, and
the lines before it stay as they are. -/

namespace HeapTelemetry

/-! ## Requests -/

namespace Record
open Json

theorem instance?_ofInstance (i : Instance) : instance? (ofInstance i) = some i := by
  have hfields : fields? ["service_name", "instance_name"] (ofInstance i) =
      some [some (ofString i.service), some (ofString i.name)] :=
    fields?_record [("service_name", ofString i.service), ("instance_name", ofString i.name)]
      (show ["service_name", "instance_name"].Nodup by decide)
  simp only [instance?, hfields, Option.bind_eq_bind, Option.bind_some, asText?_ofString,
    Option.pure_def]

theorem written_ofInstance (i : Instance) : Written (ofInstance i) := by
  apply written_record
  simp only [List.forall_mem_cons, List.not_mem_nil, false_implies, implies_true, and_true]
  exact ⟨.text i.service, .text i.name⟩

/-- The member of a request is named for its kind, so no request is read as another kind. -/
theorem request?_ofRequest (r : Request) : request? (ofRequest r) = some r := by
  cases r with
  | description i =>
    show request? (object [(ofText "description", ofInstance i)]) = _
    simp only [request?, text?_ofText, Option.bind_eq_bind, Option.bind_some,
      instance?_ofInstance, Option.pure_def]
  | measurement m =>
    show request? (object [(ofText "measurement", ofMeasurement m)]) = _
    simp only [request?, text?_ofText, Option.bind_eq_bind, Option.bind_some,
      measurement?_ofMeasurement, Option.pure_def]

theorem written_ofRequest (r : Request) : Written (ofRequest r) := by
  cases r with
  | description i => exact written_record (by simpa using written_ofInstance i)
  | measurement m => exact written_record (by simpa using written_ofMeasurement m)

theorem decodeRequest_render (r : Request) : decodeRequest (ofRequest r).render = .ok r := by
  rw [decodeRequest, parse?_render (written_ofRequest r), Option.bind_some, request?_ofRequest]

/-- The reader of a stream hands a request over with the newline that ends it. -/
theorem decodeRequest_line (r : Request) :
    decodeRequest ((ofRequest r).render ++ [Bytes.newline]) = .ok r := by
  have hparse : parse? ((ofRequest r).render ++ [Bytes.newline]) = some (ofRequest r) := by
    have hwritten := written_ofRequest r
    cases r <;> exact parse?_object hwritten (by decide : skipSpace [Bytes.newline] = [])
  rw [decodeRequest, hparse, Option.bind_some, request?_ofRequest]

/-! ## Records -/

/-- A measurement is read back from its line without the newline as well. -/
theorem decode_render (m : Measurement) : decode (ofMeasurement m).render = .ok m := by
  have hwritten := written_ofMeasurement m
  obtain ⟨s, hs, _⟩ := hwritten.isText.text?
  rw [decode, hs, parse?_render hwritten]
  simp only [Option.bind_some, measurement?_ofMeasurement]

end Record

/-! ## Buffers -/

namespace Bytes

/-- What comes behind a newline leaves the lines up to there as they are. -/
theorem lines_behind_newline (before rest : Bytes) :
    lines (before ++ newline :: rest) = lines (before ++ [newline]) ++ lines rest := by
  induction before with
  | nil => rw [List.nil_append, List.nil_append, lines, if_pos rfl]; rfl
  | cons b before ih =>
    have hne : lines (before ++ [newline]) ≠ [] := fun hnil => by
      have hflat := flatten_lines (before ++ [newline])
      rw [hnil] at hflat
      simp at hflat
    rw [List.cons_append, List.cons_append, lines, lines, ih]
    split
    · rfl
    · obtain ⟨line, more, hline⟩ := List.exists_cons_of_ne_nil hne
      rw [hline]
      rfl

end Bytes

namespace Record

/-- Records written one by one are written together. -/
theorem foldl_encode (buffer : Bytes) (ms : List Measurement) :
    ms.foldl (fun buffer m => buffer ++ encode m) buffer = buffer ++ ms.flatMap encode := by
  induction ms generalizing buffer with
  | nil => simp
  | cons m ms ih => rw [List.foldl_cons, ih, List.flatMap_cons, List.append_assoc]

/-- Every measurement adds one line to a buffer, with its newline at the end and nowhere else,
and is read back from it with and without the newline. Any number of them written behind
complete lines are the lines that follow these. Every request is read back from its text. -/
theorem records_and_requests_read_back :
    (∀ (buffer : Bytes) (m : Measurement), ∃ body : Bytes,
      buffer ++ encode m = buffer ++ (body ++ [Bytes.newline]) ∧ body.count Bytes.newline = 0 ∧
      decode (body ++ [Bytes.newline]) = .ok m ∧ decode body = .ok m) ∧
    (∀ (before : Bytes) (ms : List Measurement),
      Bytes.lines (ms.foldl (fun buffer m => buffer ++ encode m) (before ++ [Bytes.newline])) =
        Bytes.lines (before ++ [Bytes.newline]) ++ ms.map encode) ∧
    ∀ r : Request, decodeRequest (ofRequest r).render = .ok r ∧
      decodeRequest ((ofRequest r).render ++ [Bytes.newline]) = .ok r := by
  refine ⟨fun buffer m => ⟨(ofMeasurement m).render, rfl, ?_, decode_encode m, decode_render m⟩,
    fun before ms => ?_, fun r => ⟨decodeRequest_render r, decodeRequest_line r⟩⟩
  · exact List.count_eq_zero.2 (newline_not_mem_render m)
  · rw [foldl_encode, List.append_assoc, List.singleton_append, Bytes.lines_behind_newline,
      lines_encode]

end Record
end HeapTelemetry
