import HeapTelemetry.Proofs.Counters
import HeapTelemetry.Proofs.Json.Records
import HeapTelemetry.Proofs.Series.LabelSets

/-! What the label set of a series says: its session, its call stack and its
metric are read back from it, so that no two call-sites share a series. -/

namespace HeapTelemetry

/-! ## Keys of sessions -/

theorem eq_of_append_cons {α : Type} {x : α} {a b c d : List α} (hb : x ∉ b) (hd : x ∉ d)
    (h : a ++ x :: b = c ++ x :: d) : b = d := by
  induction a generalizing c with
  | nil =>
    cases c with
    | nil => exact (List.cons.inj h).2
    | cons y c =>
      obtain ⟨rfl, hrest⟩ := List.cons.inj h
      exact absurd (hrest ▸ List.mem_append_right c List.mem_cons_self) hb
  | cons y a ih =>
    cases c with
    | nil =>
      obtain ⟨rfl, hrest⟩ := List.cons.inj h
      exact absurd (hrest ▸ List.mem_append_right a List.mem_cons_self) hd
    | cons z c => exact ih (List.cons.inj h).2

theorem colon_not_mem_literal (n : Int) : (58 : UInt8) ∉ Json.literal n := by
  have hnumeral : ∀ k, (58 : UInt8) ∉ Json.numeral k := fun k h =>
    absurd (Json.isDigit_numeral k 58 h) (by decide)
  cases n with
  | ofNat k => exact hnumeral k
  | negSucc k =>
    intro h
    have hlit : Json.literal (Int.negSucc k) = 45 :: Json.numeral (k + 1) :=
      Json.number.inj (Json.ofInt_negSucc k)
    rw [hlit, List.mem_cons] at h
    rcases h with h | h
    · exact absurd h (by decide)
    · exact hnumeral _ h

theorem literal_injective {n k : Int} (h : Json.literal n = Json.literal k) : n = k := by
  have hn := Json.asInt?_ofInt n
  have hk := Json.asInt?_ofInt k
  have heq : Json.ofInt n = Json.ofInt k := congrArg Json.number h
  rw [heq, hk] at hn
  exact (Option.some.inj hn).symm

/-- The number of a session stands behind the last colon of its key. -/
theorem Session.id_eq_of_key_eq {s t : Session} (h : s.key = t.key) : s.id = t.id := by
  have hkey : ∀ r : Session, Bytes.ofText r.key =
      (Bytes.ofText r.owner.display ++ [58]) ++ 58 :: Json.literal r.id := by
    intro r
    rw [Session.key, Bytes.ofText_append, Bytes.ofText_append]
    have hsep : Bytes.ofText "::" = [58, 58] := by decide +kernel
    rw [hsep, List.append_assoc, List.append_assoc]
    rfl
  have hbytes := congrArg Bytes.ofText h
  rw [hkey, hkey] at hbytes
  exact literal_injective
    (eq_of_append_cons (colon_not_mem_literal _) (colon_not_mem_literal _) hbytes)

/-- Every stored counter can be read back. -/
def Usage.Exact (u : Usage) : Prop := ∀ k : Metric, (k.read u).toInt.natAbs ≤ 2 ^ 53

namespace SiteSeries

/-! ## Reading a label set -/

theorem ofText_stackText (stack : CallStack) :
    Bytes.ofText (stackText stack) = Record.callStackText stack := by
  obtain ⟨s, hs, hbytes⟩ := (Record.written_ofCallStack stack).isText.text?
  rw [stackText, Record.callStackText, hs]
  exact hbytes

theorem get?_labels (s : Session) (stack : CallStack) (k : Metric) (name : String) :
    (labels s stack k).get? name =
      if name = metricLabel then some k.name
      else if name = stackLabel then some (stackText stack)
      else if name = stackIdLabel then some stack.id
      else if name = sessionLabel then some s.key else none := by
  simp only [labels, Labels.ofList, List.foldl_cons, List.foldl_nil, Labels.get?_insert,
    Labels.get?_empty]

@[simp] theorem get?_stackIdLabel (s : Session) (stack : CallStack) (k : Metric) :
    (labels s stack k).get? stackIdLabel = some stack.id := by
  rw [get?_labels, if_neg (by decide), if_neg (by decide), if_pos rfl]

@[simp] theorem callStack_labels (s : Session) (stack : CallStack) (k : Metric) :
    callStack (labels s stack k) = .ok stack := by
  have hget : (labels s stack k).get? stackLabel = some (stackText stack) := by
    rw [get?_labels, if_neg (by decide), if_pos rfl]
  simp only [callStack, hget, ofText_stackText, Record.parse?_callStackText]

theorem ofName?_name (k : Metric) : Metric.ofName? k.name = some k := by
  cases k <;> decide

@[simp] theorem metric_labels (s : Session) (stack : CallStack) (k : Metric) :
    metric (labels s stack k) = .ok k := by
  have hget : (labels s stack k).get? metricLabel = some k.name := by
    rw [get?_labels, if_pos rfl]
  simp only [metric, hget, Option.bind_some, ofName?_name]

theorem accepts_labels (s t : Session) (stack : CallStack) (k : Metric) :
    Matcher.allAccept [sessionMatcher s] (labels t stack k) = true ↔ t.key = s.key := by
  have hget : (labels t stack k).get? sessionLabel = some t.key := by
    rw [get?_labels, if_neg (by decide), if_neg (by decide), if_neg (by decide), if_pos rfl]
  simp [Matcher.allAccept, Matcher.accepts, sessionMatcher, hget]

/-- The label set of a series tells the key of its session. -/
theorem key_eq_of_accepts {s t : Session} {l : Labels}
    (hs : Matcher.allAccept [SiteSeries.sessionMatcher s] l = true)
    (ht : Matcher.allAccept [SiteSeries.sessionMatcher t] l = true) : s.key = t.key := by
  simp only [Matcher.allAccept, List.all_cons, List.all_nil, Bool.and_true, Matcher.accepts,
    SiteSeries.sessionMatcher, beq_iff_eq] at hs ht
  exact Option.some.inj (hs.symm.trans ht)

/-- The label set of a series tells its session, its call stack and its metric. -/
theorem labels_injective {s t : Session} {stack stack' : CallStack} {k k' : Metric}
    (h : labels s stack k = labels t stack' k') : s.key = t.key ∧ stack = stack' ∧ k = k' := by
  have hkey := (accepts_labels t s stack k).1 (h ▸ (accepts_labels t t stack' k').2 rfl)
  have hstack := callStack_labels s stack k
  have hmetric := metric_labels s stack k
  rw [h, callStack_labels] at hstack
  rw [h, metric_labels] at hmetric
  exact ⟨hkey, (Except.ok.inj hstack).symm, (Except.ok.inj hmetric).symm⟩

/-! ## Writing a location -/

/-- The sample of a counter. -/
def sample (time : Int64) (u : Usage) (k : Metric) : Sample :=
  ⟨time, Binary64.ofInt (k.read u).toInt⟩

theorem mem_all (k : Metric) : k ∈ Metric.all := by
  cases k <;> decide

/-- A location is encoded if its counters are exact, as one value for each of them. -/
theorem encode_eq_ok_iff (s : Session) (l : Location) (rows : List (Labels × Binary64)) :
    encode s l = .ok rows ↔ l.usage.Exact ∧ rows = Metric.all.map fun k =>
      (labels s l.stack k, Binary64.ofInt (k.read l.usage).toInt) := by
  have hchecks : Metric.all.forM (checkExact l.usage) = .ok () ↔ l.usage.Exact := by
    rw [forM_eq_ok]
    simp only [checkExact_eq_ok_iff, mem_all, true_imp_iff, Usage.Exact]
  rw [← hchecks, encode]
  cases Metric.all.forM (checkExact l.usage) with
  | error e => simp [bind, Except.bind]
  | ok u => simp [bind, Except.bind, pure, Except.pure, eq_comm]

end SiteSeries
end HeapTelemetry
