import HeapTelemetry.Timestamp.Text

/-! Instants and their nanosecond counts: every 64-bit count is one of an
instant, and a greater count is a later instant. -/

namespace HeapTelemetry.Timestamp
open Calendar

/-- The order of instants, a leap second behind the second that it follows. -/
def Before (a b : Timestamp) : Prop :=
  a.seconds < b.seconds ∨ a.seconds = b.seconds ∧ a.fraction < b.fraction

theorem totalNanos_ofNanos (t : Int64) : (ofNanos t).totalNanos = t.toInt := by
  simp only [totalNanos, ofNanos, billion]
  omega

theorem fitsInt64_iff (v : Int) :
    fitsInt64 v = true ↔ Int64.minValue.toInt ≤ v ∧ v ≤ Int64.maxValue.toInt := by
  rw [fitsInt64, Bool.and_eq_true, decide_eq_true_iff, decide_eq_true_iff]

theorem toInt_ofInt_of_fits {v : Int} (h : fitsInt64 v = true) : (Int64.ofInt v).toInt = v := by
  rw [fitsInt64_iff] at h
  have hmin : Int64.minValue.toInt = -2 ^ 63 := rfl
  have hmax : Int64.maxValue.toInt = 2 ^ 63 - 1 := rfl
  exact Int64.toInt_ofInt_of_le (by omega) (by omega)

theorem nanos?_eq_some_iff (t : Timestamp) (n : Int64) :
    t.nanos? = some n ↔ n.toInt = t.totalNanos := by
  rw [nanos?]
  constructor
  · intro h
    split at h
    · rename_i hfits
      obtain rfl := Option.some.inj h
      exact toInt_ofInt_of_fits hfits
    · cases h
  · intro h
    rw [← h, if_pos ((fitsInt64_iff _).2 ⟨n.minValue_le_toInt, n.toInt_le⟩), Int64.ofInt_toInt]

theorem nanos?_ofNanos (t : Int64) : (ofNanos t).nanos? = some t :=
  (nanos?_eq_some_iff _ _).2 (totalNanos_ofNanos t).symm

theorem before_ofNanos_iff {a b : Int64} : (ofNanos a).Before (ofNanos b) ↔ a < b := by
  rw [Int64.lt_iff_toInt_lt]
  simp only [Before, ofNanos, billion]
  omega

theorem unixNanos_eq_ok_iff (t : Timestamp) (n : Int64) :
    t.unixNanos = .ok n ↔ t.nanos? = some n := by
  rw [unixNanos]
  cases t.nanos? <;> simp

end HeapTelemetry.Timestamp
