import HeapTelemetry.Proofs.Json.Documents
import HeapTelemetry.Proofs.Lists
import HeapTelemetry.Record

/-! Records read back from their documents: the fields of a record by name, and
call stacks frame by frame. The compact text of a call stack is a text, and tells
every stack apart. -/

namespace HeapTelemetry

namespace Json

/-! ## Fields -/

theorem filter_name {members : List (String × Json)} (hd : (members.map Prod.fst).Nodup)
    {m : String × Json} (hm : m ∈ members) : members.filter (·.1 = m.1) = [m] := by
  induction members with
  | nil => cases hm
  | cons e members ih =>
    obtain ⟨hnot, hd⟩ := List.nodup_cons.1 hd
    rw [List.filter_cons]
    rcases List.mem_cons.1 hm with rfl | hm
    · have hnone : members.filter (·.1 = m.1) = [] := by
        rw [List.filter_eq_nil_iff]
        intro x hx hxm
        exact hnot (List.mem_map.2 ⟨x, hx, by simpa using hxm⟩)
      simp [hnone]
    · have hne : e.1 ≠ m.1 := fun h => hnot (List.mem_map.2 ⟨m, hm, h.symm⟩)
      simp only [hne, decide_false, Bool.false_eq_true, ↓reduceIte]
      exact ih hd hm

theorem field?_of_mem {members : List (String × Json)} (hd : (members.map Prod.fst).Nodup)
    {m : String × Json} (hm : m ∈ members) : field? members m.1 = some (some m.2) := by
  rw [field?, filter_name hd hm]

/-- The fields of a record with distinct names are its values. -/
theorem fields?_record (members : List (String × Json)) (hd : (members.map Prod.fst).Nodup) :
    fields? (members.map Prod.fst) (record members) =
      some (members.map fun m => some m.2) := by
  have hnamed : (members.map fun m => (ofText m.1, m.2)).mapM
      (fun m => (text? m.1).map (·, m.2)) = some members := by
    rw [List.mapM_map]
    have hall : members.mapM ((fun m => (text? m.1).map (·, m.2)) ∘ fun m => (ofText m.1, m.2)) =
        some (members.map id) := mapM_eq_some fun m _ => by
      rw [Function.comp_apply, text?_ofText]
      rfl
    rwa [List.map_id] at hall
  have hfields : (members.map Prod.fst).mapM (field? members) =
      some (members.map fun m => some m.2) := by
    rw [List.mapM_map]
    exact mapM_eq_some fun m hm => field?_of_mem hd hm
  show ((members.map fun m => (ofText m.1, m.2)).mapM
    (fun m => (text? m.1).map (·, m.2))).bind _ = _
  rw [hnamed]
  exact hfields

theorem written_record {members : List (String × Json)} (h : ∀ m ∈ members, Written m.2) :
    Written (record members) := by
  refine Written.object (fun m hm => ?_) fun m hm => ?_
  · obtain ⟨x, _, rfl⟩ := List.mem_map.1 hm
    exact ⟨x.1, rfl⟩
  · obtain ⟨x, hx, rfl⟩ := List.mem_map.1 hm
    exact h x hx

theorem asText?_ofString (s : String) : asText? (ofString s) = some s := text?_ofText s

theorem asList?_array {α : Type} {read : Json → Option α} {write : α → Json}
    (h : ∀ x, read (write x) = some x) (xs : List α) :
    asList? read (array (xs.map write)) = some xs := by
  rw [asList?, List.mapM_map]
  have hall : xs.mapM (read ∘ write) = some (xs.map id) := mapM_eq_some fun x _ => h x
  rwa [List.map_id] at hall

end Json

/-! ## Call stacks -/

namespace Record
open Json

theorem frame?_ofFrame (f : Frame) : frame? (ofFrame f) = some f := by
  have hfields : fields? ["name", "file", "line"] (ofFrame f) =
      some [some (ofString f.name), some (ofString f.file), some (ofInt f.line.toInt)] :=
    fields?_record [("name", ofString f.name), ("file", ofString f.file),
      ("line", ofInt f.line.toInt)] (show ["name", "file", "line"].Nodup by decide)
  simp only [frame?, hfields, Option.bind_eq_bind, Option.bind_some, asText?_ofString,
    asInt32?_ofInt, Option.pure_def]

theorem callStack?_ofCallStack (s : CallStack) : callStack? (ofCallStack s) = some s := by
  have hfields : fields? ["frames"] (ofCallStack s) = some [some (array (s.frames.map ofFrame))] :=
    fields?_record [("frames", array (s.frames.map ofFrame))]
      (show ["frames"].Nodup by decide)
  simp only [callStack?, hfields, Option.bind_eq_bind, Option.bind_some,
    asList?_array frame?_ofFrame, Option.pure_def]

theorem written_ofFrame (f : Frame) : Written (ofFrame f) := by
  apply written_record
  simp only [List.forall_mem_cons, List.not_mem_nil, false_implies, implies_true, and_true]
  exact ⟨.text f.name, .text f.file, .integer f.line.toInt⟩

theorem written_ofCallStack (s : CallStack) : Written (ofCallStack s) := by
  apply written_record
  simp only [List.forall_mem_cons, List.not_mem_nil, false_implies, implies_true, and_true]
  apply Written.array
  intro v hv
  obtain ⟨f, _, rfl⟩ := List.mem_map.1 hv
  exact written_ofFrame f

/-- The compact text of a call stack gives the stack back. -/
theorem parse?_callStackText (s : CallStack) :
    (parse? (callStackText s)).bind callStack? = some s := by
  rw [callStackText, parse?_render (written_ofCallStack s)]
  exact callStack?_ofCallStack s

end Record
end HeapTelemetry
