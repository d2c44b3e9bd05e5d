import HeapTelemetry.Proofs.Storage.SiteLabels
import Mathlib.Algebra.GroupWithZero.Nat
import Mathlib.Algebra.Ring.Int.Defs
import Mathlib.Data.List.Nodup

/-! Rows of a location. A location whose counters doubles hold exactly gives one row for each
of them; from the rows, in any order, the location is read back, and the label set of a row
tells whose counter it is. -/

namespace HeapTelemetry

/-! ## Counters of a usage -/

namespace Usage

def counters (u : Usage) : List Int64 := [u.allocObjects, u.allocBytes, u.freeObjects, u.freeBytes]

/-- The counters that can be read back are those between the largest exact integers. -/
theorem exact_iff_counters (u : Usage) :
    u.Exact ↔ ∀ v ∈ u.counters, -2 ^ 53 ≤ v.toInt ∧ v.toInt ≤ 2 ^ 53 := by
  have hrange : ∀ v : Int64, v.toInt.natAbs ≤ 2 ^ 53 ↔ -2 ^ 53 ≤ v.toInt ∧ v.toInt ≤ 2 ^ 53 :=
    fun v => by omega
  constructor
  · intro h v hv
    rw [← hrange]
    simp only [counters, List.mem_cons, List.not_mem_nil, or_false] at hv
    rcases hv with rfl | rfl | rfl | rfl
    · exact h .allocObjects
    · exact h .allocBytes
    · exact h .freeObjects
    · exact h .freeBytes
  · intro h k
    rw [hrange]
    apply h
    cases k <;> simp [counters, Metric.read]

theorem ext_read {u v : Usage} (h : ∀ k : Metric, k.read u = k.read v) : u = v := by
  obtain ⟨ao, ab, fo, fb⟩ := u
  have hao := h .allocObjects
  have hab := h .allocBytes
  have hfo := h .freeObjects
  have hfb := h .freeBytes
  simp only [Metric.read] at hao hab hfo hfb
  rw [hao, hab, hfo, hfb]

end Usage

namespace Metric

/-- A counter that is written is read back, and the others stay. -/
theorem read_write (u : Usage) (value : Int64) (k k' : Metric) :
    k.read (k'.write u value) = if k = k' then value else k.read u := by
  cases k <;> cases k' <;> rfl

/-- Whatever the order in which counters are written. -/
theorem read_foldl_write (f : Metric → Int64) (ks : List Metric) (u : Usage) (k : Metric) :
    k.read (ks.foldl (fun u k' => k'.write u (f k')) u) = if k ∈ ks then f k else k.read u := by
  induction ks generalizing u with
  | nil => rfl
  | cons k' ks ih =>
    rw [List.foldl_cons, ih, read_write]
    by_cases hks : k ∈ ks
    · rw [if_pos hks, if_pos (List.mem_cons_of_mem _ hks)]
    · by_cases hk : k = k'
      · subst hk
        simp [hks]
      · simp [hks, hk]

end Metric

namespace SiteSeries

/-! ## Rows -/

/-- The row of a counter. -/
def row (s : Session) (l : Location) (k : Metric) : Labels × Binary64 :=
  (labels s l.stack k, Binary64.ofInt (k.read l.usage).toInt)

/-- Writes the counter that a row has into a usage. -/
def restore (u : Usage) (row : Labels × Binary64) : Except Error Usage := do
  return (← metric row.1).write u (counter row.2)

theorem encode_eq_ok_iff_rows (s : Session) (l : Location) (rows : List (Labels × Binary64)) :
    encode s l = .ok rows ↔ l.usage.Exact ∧ rows = Metric.all.map (row s l) :=
  encode_eq_ok_iff s l rows

theorem counter_row (s : Session) {l : Location} (h : l.usage.Exact) (k : Metric) :
    counter (row s l k).2 = k.read l.usage :=
  Binary64.toInt64_ofInt (h k)

/-- Rows with the same labels are rows of one counter of one call-site, under one key. -/
theorem row_labels_eq_iff (s t : Session) (l l' : Location) (k k' : Metric) :
    (row s l k).1 = (row t l' k').1 ↔ s.key = t.key ∧ l.stack = l'.stack ∧ k = k' := by
  refine ⟨labels_injective, ?_⟩
  rintro ⟨hkey, hstack, rfl⟩
  simp only [row, labels, hkey, hstack]

theorem nodup_labels (s : Session) (l : Location) :
    ((Metric.all.map (row s l)).map Prod.fst).Nodup := by
  rw [List.map_map]
  refine List.Nodup.map (fun k k' hk => ?_) (by decide)
  exact ((row_labels_eq_iff s s l l k k').1 hk).2.2

/-- What rows say is written counter by counter. -/
theorem foldlM_restore (s : Session) {l : Location} (h : l.usage.Exact) (ks : List Metric)
    (u : Usage) : (ks.map (row s l)).foldlM restore u =
      .ok (ks.foldl (fun u k => k.write u (k.read l.usage)) u) := by
  induction ks generalizing u with
  | nil => rfl
  | cons k ks ih =>
    have hrow : restore u (row s l k) = .ok (k.write u (k.read l.usage)) := by
      rw [restore, counter_row s h, row, metric_labels]
      rfl
    rw [List.map_cons, List.foldlM_cons, hrow]
    exact ih _

/-- The rows of a location restore its counters, in whatever order they are read. -/
theorem restore_rows (s : Session) {l : Location} (h : l.usage.Exact)
    {order : List (Labels × Binary64)} (horder : order.Perm (Metric.all.map (row s l)))
    (u : Usage) : order.foldlM restore u = .ok l.usage := by
  have hrows : ∀ r ∈ order, ∃ k, row s l k = r := fun r hr => by
    obtain ⟨k, _, hk⟩ := List.mem_map.1 (horder.mem_iff.1 hr)
    exact ⟨k, hk⟩
  obtain ⟨ks, rfl⟩ := exists_map_eq (row s l) hrows
  rw [foldlM_restore s h]
  refine congrArg Except.ok (Usage.ext_read fun k => ?_)
  have hk : row s l k ∈ ks.map (row s l) := horder.mem_iff.2 (List.mem_map_of_mem (mem_all k))
  obtain ⟨k', hk', heq⟩ := List.mem_map.1 hk
  obtain rfl : k' = k := ((row_labels_eq_iff s s l l k' k).1 (congrArg Prod.fst heq)).2.2
  rw [Metric.read_foldl_write, if_pos hk']

/-- A location is encoded exactly if its counters are integers that doubles hold exactly. It
has four rows with four label sets; each is accepted by the matcher of the session and tells
the call stack, and its metric with the counter of it as it was. Writing the counters, in any
order, gives the usage back. Of rows of any locations in any sessions, two have the same label
set exactly if the keys of the sessions, the call stacks and the metrics are the same. -/
theorem rows_identify_location (s : Session) (l : Location) :
    ((∃ rows, encode s l = .ok rows) ↔
      ∀ v ∈ l.usage.counters, -2 ^ 53 ≤ v.toInt ∧ v.toInt ≤ 2 ^ 53) ∧
    ∀ rows, encode s l = .ok rows →
      rows.length = 4 ∧ (rows.map Prod.fst).Nodup ∧
      (∀ r ∈ rows, (sessionMatcher s).accepts r.1 = true ∧ callStack r.1 = .ok l.stack ∧
        ∃ k, metric r.1 = .ok k ∧ counter r.2 = k.read l.usage) ∧
      (∀ order : List (Labels × Binary64), order.Perm rows →
        order.foldlM restore Usage.zero = .ok l.usage) ∧
      ∀ (t : Session) (l' : Location) (rows' : List (Labels × Binary64)),
        encode t l' = .ok rows' → ∀ r ∈ rows, ∀ r' ∈ rows',
          (r.1 = r'.1 ↔ s.key = t.key ∧ l.stack = l'.stack ∧ metric r.1 = metric r'.1) := by
  constructor
  · rw [← Usage.exact_iff_counters]
    constructor
    · rintro ⟨rows, hrows⟩
      exact ((encode_eq_ok_iff_rows s l rows).1 hrows).1
    · intro h
      exact ⟨_, (encode_eq_ok_iff_rows s l _).2 ⟨h, rfl⟩⟩
  intro rows hrows
  obtain ⟨hexact, rfl⟩ := (encode_eq_ok_iff_rows s l rows).1 hrows
  refine ⟨rfl, nodup_labels s l, fun r hr => ?_, fun order horder => restore_rows s hexact horder _,
    fun t l' rows' hrows' r hr r' hr' => ?_⟩
  · obtain ⟨k, _, rfl⟩ := List.mem_map.1 hr
    have haccepts := (accepts_labels s s l.stack k).2 rfl
    rw [Matcher.allAccept, List.all_cons, List.all_nil, Bool.and_true] at haccepts
    exact ⟨haccepts, callStack_labels s l.stack k, k, metric_labels s l.stack k,
      counter_row s hexact k⟩
  · obtain ⟨_, rfl⟩ := (encode_eq_ok_iff_rows t l' rows').1 hrows'
    obtain ⟨k, _, rfl⟩ := List.mem_map.1 hr
    obtain ⟨k', _, rfl⟩ := List.mem_map.1 hr'
    rw [row_labels_eq_iff, row, row, metric_labels, metric_labels, Except.ok.injEq]

/-- The counters at both ends of the range, in two sessions that share a key. -/
theorem rows_identify_location_edges :
    let s : Session := ⟨⟨"a", "b::c"⟩, 1⟩
    let t : Session := ⟨⟨"a::b", "c"⟩, 1⟩
    let l : Location := ⟨⟨[⟨"grow \"it\"", "m:\n.go", -7⟩]⟩,
      ⟨9007199254740992, -9007199254740992, 0, -1⟩⟩
    ∃ rows rows', encode s l = .ok rows ∧ encode t l = .ok rows' ∧
      rows.reverse.foldlM restore Usage.zero = .ok l.usage ∧
      ∀ r ∈ rows, ∀ r' ∈ rows', (r.1 = r'.1 ↔ metric r.1 = metric r'.1) := by
  intro s t l
  have hrange : ∀ v ∈ l.usage.counters, -2 ^ 53 ≤ v.toInt ∧ v.toInt ≤ 2 ^ 53 := by
    simp [l, Usage.counters]
  obtain ⟨rows, hrows⟩ := (rows_identify_location s l).1.2 hrange
  obtain ⟨rows', hrows'⟩ := (rows_identify_location t l).1.2 hrange
  obtain ⟨_, _, _, hrestore, hlabels⟩ := (rows_identify_location s l).2 rows hrows
  have hkey : s.key = t.key := by decide +kernel
  refine ⟨rows, rows', hrows, hrows', hrestore _ (List.reverse_perm rows), fun r hr r' hr' => ?_⟩
  rw [hlabels t l rows' hrows' r hr r' hr']
  exact ⟨fun h => h.2.2, fun h => ⟨hkey, rfl, h⟩⟩

end SiteSeries
end HeapTelemetry
