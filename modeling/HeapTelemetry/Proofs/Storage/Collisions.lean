import HeapTelemetry.Proofs.Storage.Traffic

/-! Call stacks that share an id. The digest is taken of frames joined by colons and
newlines as they are, so different stacks can have the same bytes; once two of them
are accepted for a session, the session cannot be read. -/

namespace HeapTelemetry
open Step Measurement SessionSeries

/-! ## Colliding stacks -/

/-- A colon may stand at the end of what comes before it or belong to what follows. -/
theorem CallStack.id_colon (name middle file : String) (line : Int32) (rest : List Frame) :
    CallStack.id ⟨⟨name ++ ":" ++ middle, file, line⟩ :: rest⟩ =
      CallStack.id ⟨⟨name, middle ++ ":" ++ file, line⟩ :: rest⟩ := by
  have hcolon : Bytes.ofText ":" = [58] := by decide +kernel
  have hidentity : ∀ n f : String, Frame.identity ⟨n, f, line⟩ =
      Bytes.ofText n ++ ([58] ++ (Bytes.ofText f ++ ([58] ++
        (Bytes.ofText (toString line.toInt) ++ [Bytes.newline])))) := by
    intro n f
    simp only [Frame.identity, List.append_assoc]
  rw [CallStack.id, CallStack.id, CallStack.identity, CallStack.identity, List.flatMap_cons,
    List.flatMap_cons, hidentity, hidentity]
  simp only [Bytes.ofText_append, hcolon, List.append_assoc]

namespace Reading

/-- No item is an error. -/
def Clean (r : Reading) : Prop := ∀ item ∈ r.toList, ∃ m, item = .ok m

theorem clean_items (out : List Measurement) : Clean (.items (out.map .ok) none) := by
  intro item hitem
  obtain ⟨m, _, rfl⟩ := List.mem_map.1 hitem
  exact ⟨m, rfl⟩

theorem not_clean_failed (e : Error) : ¬ Clean (.failed e) := by
  intro h
  obtain ⟨m, hm⟩ := h (.error e) List.mem_cons_self
  cases hm

end Reading

namespace Traffic
variable {dataDir : Path} {bound : Nat} {w : Traffic}

/-! ## Which sessions can be read -/

theorem Sound.load_failed (h : Sound dataDir bound w) {s : Session}
    (hs : s ∈ w.storage.registry.issued) (hids : ¬ DistinctIds (acceptedOf s w.accepted)) :
    ∃ k : Metric, run (Storage.load s) w.storage =
      (if w.storage.lifecycle.shutDown then .error .shutDown
        else .ok (.failed (.duplicateSeries k.name)), w.storage) := by
  obtain ⟨k, hread⟩ := (h.serves.contains.read (h.serves.key hs)).2 hids
  exact ⟨k, by rw [Storage.run_load hs, hread]⟩

/-- After every run from a vacant directory a session loads without an error item
exactly if no two call stacks accepted for it share an id; if two do, nothing of it
can be read. -/
theorem loads_clean_iff_distinct_ids (dataDir : Path) {d : Disk}
    (h : Database.Vacant (dataDir ++ ["tsdb"]) d) (syncWrite : Bool) (events : List Event)
    (hevents : (events.map Event.seals).sum < UInt64.size) : ∃ opened d',
    Storage.openAt dataDir syncWrite Registry.empty d = (.ok opened, d') ∧
      let w := runAll dataDir ⟨opened, [], []⟩ events
      w.storage.lifecycle.shutDown = false → ∀ s ∈ w.storage.registry.issued, ∃ reading,
        run (Storage.load s) w.storage = (.ok reading, w.storage) ∧
          (reading.Clean ↔ DistinctIds (acceptedOf s w.accepted)) ∧
          (¬ reading.Clean → ∃ k : Metric, reading = .failed (.duplicateSeries k.name)) := by
  obtain ⟨opened, d', hrun, hsound⟩ := sound_openAt dataDir h syncWrite
  have hend := hsound.runAll events (by omega)
  refine ⟨opened, d', hrun, fun hshut s hs => ?_⟩
  by_cases hids : DistinctIds (acceptedOf s (runAll dataDir ⟨opened, [], []⟩ events).accepted)
  · obtain ⟨out, hload, _⟩ := hend.load hs hids
    rw [hshut] at hload
    have hclean := Reading.clean_items out
    exact ⟨_, hload, iff_of_true hclean hids, fun hno => absurd hclean hno⟩
  · obtain ⟨k, hload⟩ := hend.load_failed hs hids
    rw [hshut] at hload
    have hno := Reading.not_clean_failed (.duplicateSeries k.name)
    exact ⟨_, hload, iff_of_false hno hids, fun _ => ⟨k, rfl⟩⟩

/-- Two stacks that differ in the place of a colon, at two instants. -/
def collidingRun : List Event :=
  [.start ⟨"cart", "one"⟩,
    .save 0 ⟨Timestamp.ofNanos 1, [⟨⟨[⟨"a:b", "c", 1⟩]⟩, ⟨2, 64, 1, 32⟩⟩]⟩,
    .save 0 ⟨Timestamp.ofNanos 2, [⟨⟨[⟨"a", "b:c", 1⟩]⟩, ⟨4, 128, 2, 16⟩⟩]⟩]

theorem loads_clean_iff_distinct_ids_colliding :
    (collidingRun.map Event.seals).sum < UInt64.size ∧ ∃ opened d',
      Storage.openAt ["data"] true Registry.empty Disk.empty = (.ok opened, d') ∧
        let w := runAll ["data"] ⟨opened, [], []⟩ collidingRun
        w.storage.lifecycle.shutDown = false → ∀ s ∈ w.storage.registry.issued, ∃ reading,
          run (Storage.load s) w.storage = (.ok reading, w.storage) ∧
            (reading.Clean ↔ DistinctIds (acceptedOf s w.accepted)) ∧
            (¬ reading.Clean → ∃ k : Metric, reading = .failed (.duplicateSeries k.name)) :=
  have hseals : (collidingRun.map Event.seals).sum < UInt64.size := by decide
  ⟨hseals, loads_clean_iff_distinct_ids ["data"] (Database.vacant_empty ["data", "tsdb"]) true
    collidingRun hseals⟩

/-- Both saves succeed, and the session cannot be read back. -/
theorem accepted_and_unreadable : ∃ opened d',
    Storage.openAt ["data"] true Registry.empty Disk.empty = (.ok opened, d') ∧
      let w := runAll ["data"] ⟨opened, [], []⟩ collidingRun
      let s : Session := ⟨⟨"cart", "one"⟩, 1⟩
      acceptedOf s w.accepted = offered collidingRun ∧ ∃ k : Metric,
        run (Storage.load s) w.storage = (.ok (.failed (.duplicateSeries k.name)), w.storage) := by
  obtain ⟨opened, d', hrun, hsound⟩ :=
    sound_openAt ["data"] (Database.vacant_empty ["data", "tsdb"]) true
  have hend := hsound.runAll collidingRun (by decide)
  have heval : (Storage.openAt ["data"] true Registry.empty Disk.empty :
      Except Error (Storage Database) × Disk).1.toOption.map (fun opened =>
        let w := runAll ["data"] ⟨opened, [], []⟩ collidingRun
        (acceptedOf ⟨⟨"cart", "one"⟩, 1⟩ w.accepted, w.storage.registry.issued,
          w.storage.lifecycle.shutDown)) =
      some (offered collidingRun, [⟨⟨"cart", "one"⟩, 1⟩], false) := by
    decide +kernel
  rw [hrun] at heval
  obtain ⟨haccepted, hstorage⟩ := Prod.mk.inj (Option.some.inj heval)
  obtain ⟨hissued, hshut⟩ := Prod.mk.inj hstorage
  have hids : ¬ DistinctIds (offered collidingRun) := by
    intro h
    have hid := CallStack.id_colon "a" "b" "c" 1 []
    have hname : "a" ++ ":" ++ "b" = "a:b" := by decide +kernel
    have hfile : "b" ++ ":" ++ "c" = "b:c" := by decide +kernel
    rw [hname, hfile] at hid
    exact absurd (h ⟨[⟨"a:b", "c", 1⟩]⟩ (by decide) ⟨[⟨"a", "b:c", 1⟩]⟩ (by decide) hid) (by decide)
  obtain ⟨k, hload⟩ := hend.load_failed (hissued ▸ List.mem_cons_self) (haccepted ▸ hids)
  rw [hshut] at hload
  exact ⟨opened, d', hrun, haccepted, k, hload⟩

end Traffic
end HeapTelemetry
