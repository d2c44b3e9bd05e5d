import HeapTelemetry.Engine
import HeapTelemetry.Proofs.Tables
import Mathlib.Data.List.DropRight
import Mathlib.Data.List.Nodup

/-! Rolling windows in closed form. After any measurements the window of a call-site
holds the latest points of its history: one point for every measurement from the
first that names the site, without usage where a later one leaves it out. -/

namespace HeapTelemetry

/-! ## What measurements say of a call-site -/

namespace Measurement

/-- The call-site in the measurement, if it is there. -/
def site? (id : String) (m : Measurement) : Option Location :=
  m.locations.find? (·.stack.id = id)

/-- The point that the measurement adds to the window of a call-site. -/
def point (id : String) (m : Measurement) : Point :=
  ⟨m.observedAt, ((m.site? id).map Location.usage).getD Usage.zero⟩

/-- No two call stacks of the measurement share an id. -/
def Unrepeated (m : Measurement) : Prop := (m.locations.map fun l => l.stack.id).Nodup

/-- The call stack under which an id is first met. -/
def stack? (id : String) (ms : List Measurement) : Option CallStack :=
  (ms.findSome? (site? id)).map Location.stack

/-- The points of a call-site since it was first met. -/
def history (id : String) (ms : List Measurement) : List Point :=
  (ms.dropWhile fun m => (m.site? id).isNone).map (point id)

theorem site?_eq_none_iff {id : String} {m : Measurement} :
    m.site? id = none ↔ id ∉ m.locations.map fun l => l.stack.id := by
  simp [site?]

theorem stack?_concat (id : String) (ms : List Measurement) (m : Measurement) :
    stack? id (ms ++ [m]) = (stack? id ms).or ((m.site? id).map Location.stack) := by
  rw [stack?, List.findSome?_append, stack?]
  cases ms.findSome? (site? id) <;> cases hm : m.site? id <;> simp [hm]

theorem dropWhile_eq_nil_of_stack? {id : String} {ms : List Measurement}
    (h : stack? id ms = none) : ms.dropWhile (fun m => (m.site? id).isNone) = [] := by
  rw [stack?, Option.map_eq_none_iff, List.findSome?_eq_none_iff] at h
  rw [List.dropWhile_eq_nil_iff]
  intro m hm
  rw [h m hm]
  rfl

theorem history_eq_nil {id : String} {ms : List Measurement} (h : stack? id ms = none) :
    history id ms = [] := by
  rw [history, dropWhile_eq_nil_of_stack? h]
  rfl

theorem dropWhile_ne_nil_of_stack? {id : String} {ms : List Measurement} {stack : CallStack}
    (h : stack? id ms = some stack) : ms.dropWhile (fun m => (m.site? id).isNone) ≠ [] := by
  intro hnil
  rw [List.dropWhile_eq_nil_iff] at hnil
  have hnone : stack? id ms = none := by
    rw [stack?, Option.map_eq_none_iff, List.findSome?_eq_none_iff]
    exact fun m hm => Option.isNone_iff_eq_none.1 (hnil m hm)
  rw [hnone] at h
  cases h

/-- Once a site was met, its history goes on with every measurement. -/
theorem history_append (id : String) (xs ys : List Measurement) :
    history id (xs ++ ys) =
      if (stack? id xs).isSome then history id xs ++ ys.map (point id) else history id ys := by
  cases hxs : stack? id xs with
  | some stack =>
    have hne := dropWhile_ne_nil_of_stack? hxs
    rw [history, List.dropWhile_append, if_neg (by simpa using hne), List.map_append, history]
    rfl
  | none =>
    have hnil := dropWhile_eq_nil_of_stack? hxs
    rw [history, List.dropWhile_append, hnil, history]
    rfl

/-- A history begins with a measurement that names its site. -/
theorem history_concat (id : String) (ms : List Measurement) (m : Measurement) :
    history id (ms ++ [m]) =
      if (stack? id ms).isSome ∨ (m.site? id).isSome then history id ms ++ [m.point id] else [] := by
  rw [history_append]
  cases hms : stack? id ms with
  | some stack => rfl
  | none =>
    rw [history_eq_nil hms]
    cases hm : m.site? id <;> simp [history, hm]

end Measurement

/-! ## One window -/

/-- A full window drops its oldest point for a new one. -/
theorem Window.push_rtake (stack : CallStack) (capacity : Nat) (ps : List Point) (p : Point) :
    (⟨stack, capacity + 1, ps.rtake (capacity + 1)⟩ : Window).push p =
      ⟨stack, capacity + 1, (ps ++ [p]).rtake (capacity + 1)⟩ := by
  have hdrop : (if (ps.rtake (capacity + 1)).length = capacity + 1
      then (ps.rtake (capacity + 1)).drop 1 else ps.rtake (capacity + 1)) = ps.rtake capacity := by
    simp only [List.rtake, List.length_drop, List.drop_drop]
    split
    · congr 1
      omega
    · have hall : ps.length - (capacity + 1) = ps.length - capacity := by omega
      rw [hall]
  rw [push, List.rtake_concat_succ]
  simp only
  rw [hdrop]

namespace SessionWindows
open Measurement

/-! ## One measurement -/

theorem go_eq_none_iff (seen ids : List String) :
    repeated?.go seen ids = none ↔ ids.Nodup ∧ ∀ id ∈ ids, id ∉ seen := by
  induction ids generalizing seen with
  | nil => simp [repeated?.go]
  | cons id rest ih =>
    rw [repeated?.go, List.nodup_cons, List.forall_mem_cons]
    by_cases hid : id ∈ seen
    · simp [hid]
    · rw [if_neg hid, ih]
      constructor
      · rintro ⟨hd, hrest⟩
        refine ⟨⟨fun hmem => hrest id hmem List.mem_cons_self, hd⟩, hid, fun x hx hseen => ?_⟩
        exact hrest x hx (List.mem_cons_of_mem _ hseen)
      · rintro ⟨⟨hnot, hd⟩, _, hrest⟩
        refine ⟨hd, fun x hx hseen => ?_⟩
        rcases List.mem_cons.1 hseen with rfl | hseen
        · exact hnot hx
        · exact hrest x hx hseen

theorem repeated?_eq_none_iff (ids : List String) : repeated? ids = none ↔ ids.Nodup := by
  rw [repeated?, go_eq_none_iff]
  simp

/-- The windows after a measurement; one that they refuse leaves them as they are. -/
def taking (w : SessionWindows) (m : Measurement) : SessionWindows :=
  match w.register m with
  | .ok w => w
  | .error _ => w

/-- The sites that a measurement reports, with their points added. -/
def reporting (w : SessionWindows) (m : Measurement) : Table String Window :=
  ((m.locations.map fun l => l.stack.id).zip m.locations).foldl
    (fun sites (id, l) => addPoint { w with sites } m.observedAt l id) w.sites

theorem taking_unrepeated (w : SessionWindows) {m : Measurement} (h : m.Unrepeated) :
    w.taking m = { w with
      sites := (w.reporting m).map fun e =>
        if e.1 ∈ m.locations.map fun l => l.stack.id then e
        else (e.1, e.2.push ⟨m.observedAt, Usage.zero⟩)
      measurements := w.measurements + 1, lastObservedAt := some m.observedAt, report := none } := by
  rw [taking, register, (repeated?_eq_none_iff _).2 h]
  rfl

theorem taking_repeated (w : SessionWindows) {m : Measurement} (h : ¬ m.Unrepeated) :
    w.taking m = w := by
  rw [taking, register]
  cases hids : repeated? (m.locations.map fun l => l.stack.id) with
  | some id => rfl
  | none => exact absurd ((repeated?_eq_none_iff _).1 hids) h

/-- What is registered of a sequence, is registered one by one. -/
theorem registerAll_ok (w : SessionWindows) (ms : List Measurement) :
    registerAll (ms.map .ok) w = .ok (ms.foldl taking w) := by
  induction ms generalizing w with
  | nil => rfl
  | cons m ms ih =>
    rw [List.map_cons, List.foldl_cons, registerAll, taking]
    cases w.register m <;> exact ih _

theorem get?_addPoint (w : SessionWindows) (time : Timestamp) (l : Location) (id other : String) :
    (w.addPoint time l id).get? other =
      if id = other then
        some (((w.sites.get? id).getD (Window.empty l.stack w.capacity)).push ⟨time, l.usage⟩)
      else w.sites.get? other := by
  rw [addPoint, Table.get?_set]

/-- Adding points site by site. -/
theorem get?_addPoints (w : SessionWindows) (time : Timestamp) {locations : List Location}
    (h : (locations.map fun l => l.stack.id).Nodup) (sites : Table String Window) (id : String) :
    (((locations.map fun l => l.stack.id).zip locations).foldl
        (fun sites (id, l) => addPoint { w with sites } time l id) sites).get? id =
      match locations.find? (·.stack.id = id) with
      | some l => some (((sites.get? id).getD (Window.empty l.stack w.capacity)).push ⟨time, l.usage⟩)
      | none => sites.get? id := by
  induction locations generalizing sites with
  | nil => rfl
  | cons l rest ih =>
    obtain ⟨hl, hrest⟩ := List.nodup_cons.1 h
    rw [List.map_cons, List.zip_cons_cons, List.foldl_cons, ih hrest, get?_addPoint, List.find?_cons]
    by_cases hid : l.stack.id = id
    · have hnone : rest.find? (·.stack.id = id) = none := by
        rw [List.find?_eq_none]
        intro x hx heq
        exact hl (List.mem_map.2 ⟨x, hx, (of_decide_eq_true heq).trans hid.symm⟩)
      simp [hid, hnone]
    · simp [hid]

theorem nodup_keys_addPoints (w : SessionWindows) (time : Timestamp)
    (entries : List (String × Location)) {sites : Table String Window} (h : sites.keys.Nodup) :
    (entries.foldl (fun sites (id, l) => addPoint { w with sites } time l id) sites).keys.Nodup := by
  induction entries generalizing sites with
  | nil => exact h
  | cons e rest ih => exact ih (Table.nodup_keys_set h _ _)

/-- Changing the values of other keys. -/
theorem get?_map_others (ids : List String) (f : Window → Window) (t : Table String Window)
    (id : String) : Table.get? id (t.map fun e => if e.1 ∈ ids then e else (e.1, f e.2)) =
      if id ∈ ids then t.get? id else (t.get? id).map f := by
  induction t with
  | nil => simp
  | cons e rest ih =>
    obtain ⟨key, window⟩ := e
    rw [List.map_cons]
    by_cases hkey : key = id
    · subst hkey
      by_cases hmem : key ∈ ids <;> simp [Table.get?, hmem]
    · have hskip : ∀ (w : Window) (t : Table String Window),
          Table.get? id ((key, w) :: t) = t.get? id := fun w t => by rw [Table.get?, if_neg hkey]
      rw [hskip, ← ih]
      split <;> exact hskip _ _

/-- Every window of a site that was met before gets a point, and so does that of
every site that the measurement names. -/
theorem get?_taking (w : SessionWindows) {m : Measurement} (h : m.Unrepeated) (id : String) :
    (w.taking m).sites.get? id =
      match m.site? id with
      | some l => some (((w.sites.get? id).getD (Window.empty l.stack w.capacity)).push (m.point id))
      | none => (w.sites.get? id).map (·.push (m.point id)) := by
  have hreporting := get?_addPoints w m.observedAt h w.sites id
  rw [taking_unrepeated w h]
  simp only
  rw [get?_map_others _ (·.push ⟨m.observedAt, Usage.zero⟩), reporting, hreporting, point]
  cases hsite : m.site? id with
  | none =>
    rw [if_neg (site?_eq_none_iff.1 hsite)]
    rw [site?] at hsite
    rw [hsite]
    rfl
  | some l =>
    have hmem : id ∈ m.locations.map fun l => l.stack.id := by
      by_contra hnot
      rw [site?_eq_none_iff.2 hnot] at hsite
      cases hsite
    rw [if_pos hmem]
    rw [site?] at hsite
    rw [hsite]
    rfl

theorem capacity_taking (w : SessionWindows) (m : Measurement) :
    (w.taking m).capacity = w.capacity := by
  by_cases h : m.Unrepeated
  · rw [taking_unrepeated w h]
  · rw [taking_repeated w h]

theorem nodup_keys_taking {w : SessionWindows} (hw : w.sites.keys.Nodup) (m : Measurement) :
    (w.taking m).sites.keys.Nodup := by
  by_cases h : m.Unrepeated
  · have hkeys : ∀ e : String × Window, (if e.1 ∈ m.locations.map fun l => l.stack.id then e
        else (e.1, e.2.push ⟨m.observedAt, Usage.zero⟩)).1 = e.1 := by
      intro e
      split <;> rfl
    rw [taking_unrepeated w h, Table.keys, List.map_map]
    exact (List.map_congr_left fun e _ => hkeys e) ▸ nodup_keys_addPoints w m.observedAt _ hw
  · rw [taking_repeated w h]
    exact hw

/-! ## Any number of measurements -/

/-- The windows that hold these measurements and nothing else. -/
def replayed (capacity : Nat) (ms : List Measurement) : SessionWindows :=
  ms.foldl taking (empty capacity)

theorem replayed_concat (capacity : Nat) (ms : List Measurement) (m : Measurement) :
    replayed capacity (ms ++ [m]) = (replayed capacity ms).taking m := by
  rw [replayed, List.foldl_append]
  rfl

theorem capacity_replayed (capacity : Nat) (ms : List Measurement) :
    (replayed capacity ms).capacity = capacity := by
  induction ms using List.reverseRecOn with
  | nil => rfl
  | append_singleton ms m ih => rw [replayed_concat, capacity_taking, ih]

theorem nodup_keys_replayed (capacity : Nat) (ms : List Measurement) :
    (replayed capacity ms).sites.keys.Nodup := by
  induction ms using List.reverseRecOn with
  | nil => exact List.nodup_nil
  | append_singleton ms m ih =>
    rw [replayed_concat]
    exact nodup_keys_taking ih m

/-- The window of a call-site holds the latest points of its history. -/
theorem get?_replayed (capacity : Nat) {ms : List Measurement} (h : ∀ m ∈ ms, m.Unrepeated)
    (id : String) : (replayed capacity ms).sites.get? id =
      (stack? id ms).map fun stack =>
        ⟨stack, max capacity 1, (history id ms).rtake (max capacity 1)⟩ := by
  obtain ⟨size, hsize⟩ : ∃ n, max capacity 1 = n + 1 := ⟨max capacity 1 - 1, by omega⟩
  induction ms using List.reverseRecOn with
  | nil => rfl
  | append_singleton ms m ih =>
    have hms := ih fun x hx => h x (List.mem_append_left _ hx)
    have hm := h m (List.mem_append_right _ List.mem_cons_self)
    have hempty : ∀ stack, Window.empty stack capacity =
        ⟨stack, size + 1, ([] : List Point).rtake (size + 1)⟩ := fun stack => by
      rw [Window.empty, hsize, List.rtake_nil]
    rw [replayed_concat, get?_taking _ hm, hms, capacity_replayed, stack?_concat, history_concat]
    cases hstack : stack? id ms with
    | some stack =>
      have hpush := Window.push_rtake stack size (history id ms) (m.point id)
      rw [← hsize] at hpush
      cases m.site? id <;> simp [hpush]
    | none =>
      have hnone := history_eq_nil hstack
      cases hsite : m.site? id with
      | none => rfl
      | some l =>
        have hpush := (congrArg (Window.push · (m.point id)) (hempty l.stack)).trans
          (Window.push_rtake l.stack size [] (m.point id))
        rw [← hsize] at hpush
        simp [hpush, hnone]

/-! ## Reports -/

/-- The report depends on the windows alone, in whatever order they stand. -/
theorem compute_congr {v w : SessionWindows} (hv : v.sites.keys.Nodup) (hw : w.sites.keys.Nodup)
    (h : ∀ id, v.sites.get? id = w.sites.get? id) : v.compute = w.compute := by
  have hmem : ∀ e : String × Window, e ∈ v.sites ↔ e ∈ w.sites := by
    rintro ⟨id, window⟩
    rw [Table.mem_iff_get? hv, Table.mem_iff_get? hw, h]
  have hperm : v.sites.Perm w.sites :=
    (List.perm_ext_iff_of_nodup (List.Nodup.of_map _ hv) (List.Nodup.of_map _ hw)).2 hmem
  have hsorted : ∀ t : Table String Window,
      (t.mergeSort fun a b => a.1 ≤ b.1).Pairwise fun a b => (a.1 ≤ b.1 : Bool) = true := by
    intro t
    apply List.pairwise_mergeSort
    · intro a b c hab hbc
      exact decide_eq_true (String.le_trans (of_decide_eq_true hab) (of_decide_eq_true hbc))
    · intro a b
      rw [Bool.or_eq_true, decide_eq_true_iff, decide_eq_true_iff]
      exact String.le_total _ _
  have hsame : v.sites.mergeSort (fun a b => a.1 ≤ b.1) = w.sites.mergeSort fun a b => a.1 ≤ b.1 := by
    refine List.Perm.eq_of_pairwise ?_ (hsorted _) (hsorted _)
      ((List.mergeSort_perm _ _).trans (hperm.trans (List.mergeSort_perm _ _).symm))
    intro a b ha hb hab hba
    rw [List.mem_mergeSort] at ha hb
    have hkey : a.1 = b.1 :=
      String.le_antisymm (of_decide_eq_true hab) (of_decide_eq_true hba)
    have hwindow := (Table.mem_iff_get? hv a.1 a.2).1 ha
    rw [hkey, (Table.mem_iff_get? hv b.1 b.2).1 ((hmem b).2 hb)] at hwindow
    exact Prod.ext hkey (Option.some.inj hwindow).symm
  rw [compute, compute, hsame]

theorem mem_compute {w : SessionWindows} {r : SiteRates} :
    r ∈ w.compute ↔ ∃ e ∈ w.sites, e.2.rates = r := by
  rw [compute, Report.ranked, List.mem_mergeSort, List.mem_map]
  simp only [List.mem_mergeSort]

/-- The windows are these, with their report or without one. -/
def Mirrors (w v : SessionWindows) : Prop :=
  ∃ report : Option Report, w = { v with report } ∧ ∀ r ∈ report, r = v.compute

theorem Mirrors.refl {v : SessionWindows} (h : v.report = none) : Mirrors v v :=
  ⟨none, by rw [← h], fun _ hr => by cases hr⟩

theorem Mirrors.taking {w v : SessionWindows} (h : Mirrors w v) (m : Measurement) :
    Mirrors (w.taking m) (v.taking m) := by
  by_cases hm : m.Unrepeated
  · obtain ⟨report, rfl, _⟩ := h
    rw [taking_unrepeated _ hm, taking_unrepeated _ hm]
    exact Mirrors.refl rfl
  · rw [taking_repeated _ hm, taking_repeated _ hm]
    exact h

/-- What is served is the report on the windows as they are. -/
theorem Mirrors.metrics {w v : SessionWindows} (h : Mirrors w v) :
    w.metrics.1 = v.compute ∧ Mirrors w.metrics.2 v := by
  obtain ⟨report, rfl, hreport⟩ := h
  cases report with
  | some r => exact ⟨hreport r rfl, some r, rfl, hreport⟩
  | none =>
    refine ⟨rfl, some v.compute, rfl, fun r hr => ?_⟩
    exact (Option.some.inj hr).symm

end SessionWindows
end HeapTelemetry
