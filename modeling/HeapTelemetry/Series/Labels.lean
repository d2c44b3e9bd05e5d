import HeapTelemetry.Text.Quoted

/-! Label sets: the sorted name and value pairs that identify a series, and the
matchers that select by them. -/

namespace HeapTelemetry

abbrev Label := String × String

/-- Labels by ascending name, each name once. -/
structure Labels where
  entries : List Label
  sorted : entries.Pairwise (·.1 < ·.1)

namespace Labels

instance : DecidableEq Labels := fun a b =>
  if h : a.entries = b.entries then .isTrue (by cases a; cases b; simp_all)
  else .isFalse (fun e => h (e ▸ rfl))

theorem ext_entries {a b : Labels} (h : a.entries = b.entries) : a = b := by
  cases a; cases b; simp_all

def empty : Labels := ⟨[], .nil⟩

instance : Inhabited Labels := ⟨empty⟩

def insertEntry (name value : String) : List Label → List Label
  | [] => [(name, value)]
  | (n, v) :: rest =>
    if name < n then (name, value) :: (n, v) :: rest
    else if name = n then (name, value) :: rest
    else (n, v) :: insertEntry name value rest

theorem mem_insertEntry {name value : String} {l : List Label} {e : Label}
    (h : e ∈ insertEntry name value l) : e = (name, value) ∨ e ∈ l := by
  induction l with
  | nil => simpa [insertEntry] using h
  | cons x rest ih => grind [insertEntry]

theorem sorted_insertEntry (name value : String) (l : List Label)
    (h : l.Pairwise (·.1 < ·.1)) : (insertEntry name value l).Pairwise (·.1 < ·.1) := by
  induction l with
  | nil => simp [insertEntry]
  | cons x rest ih =>
    obtain ⟨n, v⟩ := x
    rw [List.pairwise_cons] at h
    simp only [insertEntry]
    split
    · rename_i hlt
      refine List.pairwise_cons.2 ⟨fun e he => ?_, List.pairwise_cons.2 h⟩
      rcases List.mem_cons.1 he with rfl | he
      · exact hlt
      · exact String.lt_trans hlt (h.1 e he)
    · split
      · rename_i heq
        exact List.pairwise_cons.2 ⟨fun e he => heq ▸ h.1 e he, h.2⟩
      · rename_i hlt hne
        refine List.pairwise_cons.2 ⟨fun e he => ?_, ih h.2⟩
        rcases mem_insertEntry he with rfl | he
        · exact Decidable.byContradiction fun hle =>
            hne (String.le_antisymm (String.not_lt.1 hle) (String.not_lt.1 hlt))
        · exact h.1 e he

/-- Adds a label or replaces its value. -/
def insert (l : Labels) (name value : String) : Labels :=
  ⟨insertEntry name value l.entries, sorted_insertEntry name value l.entries l.sorted⟩

def ofList (pairs : List Label) : Labels := pairs.foldl (fun l (n, v) => l.insert n v) empty

def get? (l : Labels) (name : String) : Option String := l.entries.lookup name

/-- Lexicographic, the order in which series are listed. -/
def compareEntries : List Label → List Label → Ordering
  | [], [] => .eq
  | [], _ :: _ => .lt
  | _ :: _, [] => .gt
  | a :: as, b :: bs => ((compare a.1 b.1).then (compare a.2 b.2)).then (compareEntries as bs)

def compare (a b : Labels) : Ordering := compareEntries a.entries b.entries

def le (a b : Labels) : Bool := a.compare b != .gt

/-- As in messages: `Labels({"a": "1", "b": "2"})`. -/
def display (l : Labels) : String :=
  "Labels(\x7b" ++ String.intercalate ", " (l.entries.map fun (n, v) => Text.quoted n ++ ": " ++ Text.quoted v)
    ++ "\x7d)"

end Labels

/-- Selects the series that have a label with this value. -/
structure Matcher where
  name : String
  value : String
  deriving DecidableEq, Repr

namespace Matcher

def accepts (m : Matcher) (l : Labels) : Bool := l.get? m.name == some m.value

def allAccept (ms : List Matcher) (l : Labels) : Bool := ms.all (·.accepts l)

end Matcher
end HeapTelemetry
