import HeapTelemetry.Proofs.Series.LabelSets
import HeapTelemetry.Series.Sample

/-! What a list of series holds for a label set, and the batch that a sequence
of added samples makes: for every label set its samples in the order in which
they were added. -/

namespace HeapTelemetry.Batch

/-- The samples of a label set, those of all its series one after the other. -/
def samples (b : Batch) (l : Labels) : List Sample :=
  b.flatMap fun s => if s.labels = l then s.samples else []

/-- Each label set stands once. -/
def Distinct (b : Batch) : Prop := (b.map Series.labels).Nodup

/-- Series in label order, each label set once. -/
def Sorted (b : Batch) : Prop := b.Pairwise fun x y => x.labels.compare y.labels = .lt

/-- The batch of a transaction that adds these samples. -/
def ofAdds (adds : List (Labels × Sample)) : Batch :=
  adds.foldl (fun b (labels, s) => b.add labels s) []

@[simp] theorem samples_nil (l : Labels) : samples [] l = [] := rfl

@[simp] theorem samples_cons (x : Series) (b : Batch) (l : Labels) :
    samples (x :: b) l = (if x.labels = l then x.samples else []) ++ samples b l := rfl

@[simp] theorem samples_append (b c : Batch) (l : Labels) :
    samples (b ++ c) l = samples b l ++ samples c l := by
  simp [samples]

theorem samples_eq_nil {b : Batch} {l : Labels} (h : ∀ x ∈ b, x.labels ≠ l) :
    samples b l = [] := by
  induction b with
  | nil => rfl
  | cons x rest ih =>
    rw [samples_cons, if_neg (h x List.mem_cons_self),
      ih fun y hy => h y (List.mem_cons_of_mem x hy)]
    rfl

theorem samples_of_mem {b : Batch} (hd : Distinct b) {x : Series} (hx : x ∈ b) :
    samples b x.labels = x.samples := by
  induction b with
  | nil => simp at hx
  | cons y rest ih =>
    rw [Distinct, List.map_cons, List.nodup_cons] at hd
    rw [samples_cons]
    rcases List.mem_cons.1 hx with rfl | hr
    · rw [if_pos rfl, samples_eq_nil, List.append_nil]
      intro z hz hzx
      exact hd.1 (hzx ▸ List.mem_map_of_mem hz)
    · rw [if_neg, ih hd.2 hr]
      · rfl
      · intro hyx
        exact hd.1 (hyx ▸ List.mem_map_of_mem hr)

/-- A list of distinct series holds just the series with its own samples. -/
theorem mem_iff_samples {b : Batch} (hd : Distinct b) (hne : ∀ x ∈ b, x.samples ≠ [])
    (x : Series) : x ∈ b ↔ x.samples ≠ [] ∧ samples b x.labels = x.samples := by
  constructor
  · intro hx
    exact ⟨hne x hx, samples_of_mem hd hx⟩
  · rintro ⟨hx, hs⟩
    by_cases hmem : ∃ y ∈ b, y.labels = x.labels
    · obtain ⟨y, hy, hl⟩ := hmem
      have hys := samples_of_mem hd hy
      rw [hl, hs] at hys
      have hxy : x = y := by cases x; cases y; simp_all
      exact hxy ▸ hy
    · rw [samples_eq_nil fun y hy hl => hmem ⟨y, hy, hl⟩] at hs
      exact absurd hs.symm hx

theorem samples_filter (b : Batch) (p : Labels → Bool) (l : Labels) :
    samples (b.filter fun s => p s.labels) l = if p l then samples b l else [] := by
  induction b with
  | nil => simp
  | cons x rest ih =>
    rw [List.filter_cons]
    by_cases hl : x.labels = l
    · subst hl
      by_cases hx : p x.labels <;> simp [hx, ih]
    · by_cases hx : p x.labels <;> simp [hx, hl, ih]

theorem Sorted.distinct {b : Batch} (h : Sorted b) : Distinct b :=
  List.pairwise_map.2 (h.imp Labels.compare_ne_of_lt)

/-! ## Adding a sample -/

theorem mem_labels_add {b : Batch} {labels : Labels} {s : Sample} {x : Series}
    (h : x ∈ b.add labels s) : x.labels = labels ∨ ∃ y ∈ b, y.labels = x.labels := by
  induction b with
  | nil => simp only [add, List.mem_singleton] at h; subst h; exact Or.inl rfl
  | cons y rest ih =>
    rw [add] at h
    split at h
    · rcases List.mem_cons.1 h with rfl | h
      · exact Or.inl rfl
      · exact Or.inr ⟨x, h, rfl⟩
    · rcases List.mem_cons.1 h with rfl | h
      · exact Or.inr ⟨y, List.mem_cons_self, rfl⟩
      · exact Or.inr ⟨x, List.mem_cons_of_mem y h, rfl⟩
    · rcases List.mem_cons.1 h with rfl | h
      · exact Or.inr ⟨x, List.mem_cons_self, rfl⟩
      · rcases ih h with h | ⟨z, hz, hl⟩
        · exact Or.inl h
        · exact Or.inr ⟨z, List.mem_cons_of_mem y hz, hl⟩

theorem sorted_add {b : Batch} (hb : Sorted b) (labels : Labels) (s : Sample) :
    Sorted (b.add labels s) := by
  induction b with
  | nil => simp [Sorted, add]
  | cons y rest ih =>
    have hy := List.pairwise_cons.1 hb
    rw [add]
    split
    · rename_i hlt
      refine List.pairwise_cons.2 ⟨fun z hz => ?_, hb⟩
      rcases List.mem_cons.1 hz with rfl | hz
      · exact hlt
      · exact Labels.compare_lt_trans hlt (hy.1 z hz)
    · exact List.pairwise_cons.2 hy
    · rename_i hgt
      refine List.pairwise_cons.2 ⟨fun z hz => ?_, ih hy.2⟩
      rcases mem_labels_add hz with hl | ⟨w, hw, hl⟩
      · rw [hl]; exact Labels.compare_gt_iff.1 hgt
      · rw [← hl]; exact hy.1 w hw

theorem samples_add {b : Batch} (hb : Sorted b) (labels : Labels) (s : Sample) (l : Labels) :
    samples (b.add labels s) l = samples b l ++ if labels = l then [s] else [] := by
  induction b with
  | nil => simp [add]
  | cons y rest ih =>
    have hy := List.pairwise_cons.1 hb
    -- no series behind the place of a smaller label set can have that label set
    have hrest : labels.compare y.labels ≠ .gt → samples rest labels = [] := by
      intro hle
      apply samples_eq_nil
      rintro z hz rfl
      exact hle (Labels.compare_gt_iff.2 (hy.1 z hz))
    rw [add]
    split
    · rename_i hlt
      by_cases hl : labels = l
      · subst hl
        have hne : y.labels ≠ labels := (Labels.compare_ne_of_lt hlt).symm
        simp [hne, hrest (by simp [hlt])]
      · simp [hl]
    · rename_i heq
      have hle := Labels.compare_eq_iff.1 heq
      subst hle
      by_cases hl : y.labels = l
      · subst hl; simp [hrest (by simp)]
      · simp [hl]
    · rw [samples_cons, samples_cons, ih hy.2, List.append_assoc]

theorem size_add (b : Batch) (labels : Labels) (s : Sample) :
    (b.add labels s).size = b.size + 1 := by
  induction b with
  | nil => rfl
  | cons y rest ih =>
    rw [add]
    split
    · simp [size]; omega
    · simp [size]; omega
    · simp only [size, List.foldr_cons] at ih ⊢
      rw [ih]; omega

theorem samples_ne_nil_add {b : Batch} (hb : ∀ x ∈ b, x.samples ≠ []) (labels : Labels)
    (s : Sample) : ∀ x ∈ b.add labels s, x.samples ≠ [] := by
  induction b with
  | nil => simp [add]
  | cons y rest ih =>
    have hrest : ∀ x ∈ rest, x.samples ≠ [] := fun x hx => hb x (List.mem_cons_of_mem y hx)
    have hy := hb y List.mem_cons_self
    rw [add]
    split
    · simpa [hy] using hrest
    · simpa using hrest
    · simpa [hy] using ih hrest

/-! ## The batch of a transaction -/

/-- What one sample after the other makes of a batch, by induction on them. -/
theorem foldl_add {b : Batch} (adds : List (Labels × Sample)) (hb : Sorted b)
    (hne : ∀ x ∈ b, x.samples ≠ []) :
    let c := adds.foldl (fun b (labels, s) => b.add labels s) b
    Sorted c ∧ (∀ x ∈ c, x.samples ≠ []) ∧ c.size = b.size + adds.length ∧
      ∀ l, samples c l = samples b l ++ (adds.filter (·.1 = l)).map Prod.snd := by
  induction adds generalizing b with
  | nil => exact ⟨hb, hne, rfl, fun l => by simp⟩
  | cons e rest ih =>
    obtain ⟨labels, s⟩ := e
    have hih := ih (sorted_add hb labels s) (samples_ne_nil_add hne labels s)
    refine ⟨hih.1, hih.2.1, ?_, fun l => ?_⟩
    · rw [List.foldl_cons, hih.2.2.1, size_add, List.length_cons]; omega
    · rw [List.foldl_cons, hih.2.2.2, samples_add hb]
      by_cases hl : labels = l <;> simp [hl]

theorem sorted_ofAdds (adds : List (Labels × Sample)) : Sorted (ofAdds adds) :=
  (foldl_add adds List.Pairwise.nil (by simp)).1

theorem samples_ne_nil_ofAdds (adds : List (Labels × Sample)) :
    ∀ x ∈ ofAdds adds, x.samples ≠ [] :=
  (foldl_add adds List.Pairwise.nil (by simp)).2.1

theorem size_ofAdds (adds : List (Labels × Sample)) : (ofAdds adds).size = adds.length := by
  have h := (foldl_add adds List.Pairwise.nil (by simp)).2.2.1
  rw [ofAdds, h]
  exact Nat.zero_add _

theorem samples_ofAdds (adds : List (Labels × Sample)) (l : Labels) :
    samples (ofAdds adds) l = (adds.filter (·.1 = l)).map Prod.snd :=
  (foldl_add adds List.Pairwise.nil (by simp)).2.2.2 l

end HeapTelemetry.Batch
