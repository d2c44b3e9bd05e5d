import HeapTelemetry.Proofs.Storage.SiteLabels
import HeapTelemetry.Proofs.Tables
import HeapTelemetry.Storage.SiteHistory
import Mathlib.Data.List.Nodup

/-! Series gathered by call stack id. Whatever series there are, one that is accepted is in
the group of its id from then on. The series of a session are gathered without an error
exactly if no two of them agree in id and metric. -/

namespace HeapTelemetry
namespace SiteGroup

/-! ## Placing one series -/

/-- What becomes of the group of an id when a series is placed in it. -/
inductive Grown (groups : List SiteGroup) (id : String) (k : Metric) (x : Series) : SiteGroup → Prop
  | first {stack : CallStack} : (∀ g ∈ groups, g.id ≠ id) →
      SiteSeries.callStack x.labels = .ok stack → Grown groups id k x ⟨id, stack, [(k, x.samples)]⟩
  | more {g : SiteGroup} : g ∈ groups → g.id = id → g.found.contains k = false →
      Grown groups id k x { g with found := g.found.set k x.samples }

/-- The groups hold one of this id that has the metric already. -/
def Taken (groups : List SiteGroup) (id : String) (k : Metric) : Prop :=
  ∃ g ∈ groups, g.id = id ∧ g.found.contains k = true

variable {groups : List SiteGroup} {id : String} {k : Metric} {x : Series}

theorem Grown.id_eq {new : SiteGroup} (h : Grown groups id k x new) : new.id = id := by
  cases h with
  | first => rfl
  | more _ hid => exact hid

theorem Grown.cons {new g : SiteGroup} (h : Grown groups id k x new) (hg : g.id ≠ id) :
    Grown (g :: groups) id k x new := by
  cases h with
  | first hnone hstack => exact .first (List.forall_mem_cons.2 ⟨hg, hnone⟩) hstack
  | more hm hid hk => exact .more (List.mem_cons_of_mem g hm) hid hk

theorem ne_of_lt {a b : String} (h : a < b) : a ≠ b := fun heq => String.lt_irrefl b (heq ▸ h)

/-- Groups in order of their ids have no id twice. -/
theorem eq_of_id_eq (hs : groups.Pairwise (·.id < ·.id)) {g g' : SiteGroup} (hg : g ∈ groups)
    (hg' : g' ∈ groups) (h : g.id = g'.id) : g = g' :=
  List.inj_on_of_nodup_map (List.pairwise_map.2 (hs.imp ne_of_lt)) hg hg' h

theorem Grown.not_taken {new : SiteGroup} (hs : groups.Pairwise (·.id < ·.id))
    (h : Grown groups id k x new) : ¬ Taken groups id k := by
  rintro ⟨g, hg, hid, hk⟩
  cases h with
  | first hnone => exact hnone g hg hid
  | more hm hid' hk' =>
    obtain rfl := eq_of_id_eq hs hg hm (hid.trans hid'.symm)
    rw [hk'] at hk
    cases hk

/-- A series is refused if its metric is taken, or if it is the first of its id and its
call stack cannot be read. Otherwise it changes the group of its id only. -/
theorem place_cases (id : String) (k : Metric) (x : Series) (hs : groups.Pairwise (·.id < ·.id)) :
    Taken groups id k ∧ place id k x groups = .error (.duplicateSeries k.name) ∨
      (∃ e, SiteSeries.callStack x.labels = .error e ∧ place id k x groups = .error e) ∨
      ∃ groups' new, place id k x groups = .ok groups' ∧ groups'.Pairwise (·.id < ·.id) ∧
        Grown groups id k x new ∧ ∀ g, g ∈ groups' ↔ g = new ∨ g ∈ groups ∧ g.id ≠ id := by
  induction groups with
  | nil =>
    rw [place]
    cases hstack : SiteSeries.callStack x.labels with
    | error e => exact Or.inr (Or.inl ⟨e, rfl, rfl⟩)
    | ok stack => exact Or.inr (Or.inr ⟨_, _, rfl, by simp, .first (by simp) hstack, by simp⟩)
  | cons g rest ih =>
    obtain ⟨hg, hrest⟩ := List.pairwise_cons.1 hs
    rw [place]
    by_cases hlt : id < g.id
    · have hne : ∀ y ∈ g :: rest, y.id ≠ id := by
        intro y hy
        rcases List.mem_cons.1 hy with rfl | hy
        · exact (ne_of_lt hlt).symm
        · exact (ne_of_lt (String.lt_trans hlt (hg y hy))).symm
      rw [if_pos hlt]
      cases hstack : SiteSeries.callStack x.labels with
      | error e => exact Or.inr (Or.inl ⟨e, rfl, rfl⟩)
      | ok stack =>
        refine Or.inr (Or.inr ⟨_, _, rfl, ?_, .first hne hstack, fun y => ?_⟩)
        · refine List.pairwise_cons.2 ⟨fun y hy => ?_, hs⟩
          rcases List.mem_cons.1 hy with rfl | hy
          · exact hlt
          · exact String.lt_trans hlt (hg y hy)
        · rw [List.mem_cons]
          exact or_congr_right ⟨fun hy => ⟨hy, hne y hy⟩, And.left⟩
    · rw [if_neg hlt]
      by_cases hid : id = g.id
      · rw [if_pos hid]
        cases hk : g.found.contains k with
        | true => exact Or.inl ⟨⟨g, List.mem_cons_self, hid.symm, hk⟩, rfl⟩
        | false =>
          refine Or.inr (Or.inr ⟨_, _, rfl, List.pairwise_cons.2 ⟨hg, hrest⟩,
            .more List.mem_cons_self hid.symm hk, fun y => ?_⟩)
          rw [List.mem_cons, List.mem_cons]
          refine or_congr_right ⟨fun hy => ⟨Or.inr hy, ?_⟩, fun ⟨hy, hne⟩ => ?_⟩
          · exact fun heq => ne_of_lt (hg y hy) (hid.symm.trans heq.symm)
          · exact hy.resolve_left fun heq => hne (heq ▸ hid.symm)
      · rw [if_neg hid]
        have hgt : g.id < id := Decidable.byContradiction fun hle =>
          hid (String.le_antisymm (String.not_lt.1 hle) (String.not_lt.1 hlt))
        rcases ih hrest with ⟨⟨y, hy, hyid, hyk⟩, herror⟩ | ⟨e, hstack, herror⟩ |
          ⟨rest', new, hok, hs', hgrown, hmem⟩
        · rw [herror]
          exact Or.inl ⟨⟨y, List.mem_cons_of_mem g hy, hyid, hyk⟩, rfl⟩
        · rw [herror]
          exact Or.inr (Or.inl ⟨e, hstack, rfl⟩)
        · rw [hok]
          refine Or.inr (Or.inr ⟨_, new, rfl, List.pairwise_cons.2 ⟨fun y hy => ?_, hs'⟩,
            hgrown.cons (Ne.symm hid), fun y => ?_⟩)
          · rcases (hmem y).1 hy with rfl | ⟨hy, _⟩
            · exact hgrown.id_eq ▸ hgt
            · exact hg y hy
          · rw [List.mem_cons, List.mem_cons, hmem]
            constructor
            · rintro (rfl | hy | ⟨hy, hne⟩)
              · exact Or.inr ⟨Or.inl rfl, Ne.symm hid⟩
              · exact Or.inl hy
              · exact Or.inr ⟨Or.inr hy, hne⟩
            · rintro (hy | ⟨hy | hy, hne⟩)
              · exact Or.inr (Or.inl hy)
              · exact Or.inl hy
              · exact Or.inr (Or.inr ⟨hy, hne⟩)

/-! ## Placing any series -/

/-- The series has this call stack id. -/
def hasId (id : String) (x : Series) : Bool := x.labels.get? SiteSeries.stackIdLabel = some id

/-- The series has this call stack id and this metric. -/
def isOf (id : String) (k : Metric) (x : Series) : Bool :=
  hasId id x && SiteSeries.metric x.labels = .ok k

/-- Every series is in the group of its id, under its metric, where it is the only one. The
first series of an id gives the call stack. -/
structure Partitioned (done : List Series) (groups : List SiteGroup) : Prop where
  sorted : groups.Pairwise (·.id < ·.id)
  found : ∀ g ∈ groups, ∀ k,
    (done.filter (isOf g.id k)).map Series.samples = (g.found.get? k).toList
  callStacks : ∀ g ∈ groups,
    (done.find? (hasId g.id)).map (fun x => SiteSeries.callStack x.labels) = some (.ok g.stack)
  covers : ∀ x ∈ done, ∃ g ∈ groups, ∃ k, isOf g.id k x = true

theorem partitioned_nil : Partitioned [] [] where
  sorted := List.Pairwise.nil
  found := fun _ hg => absurd hg List.not_mem_nil
  callStacks := fun _ hg => absurd hg List.not_mem_nil
  covers := fun _ hx => absurd hx List.not_mem_nil

theorem insert_eq_ok {groups' : List SiteGroup} (h : insert groups x = .ok groups') :
    ∃ id k, isOf id k x = true ∧ place id k x groups = .ok groups' := by
  rw [insert] at h
  cases hid : x.labels.get? SiteSeries.stackIdLabel with
  | none => rw [hid] at h; cases h
  | some id =>
    cases hk : SiteSeries.metric x.labels with
    | error e => rw [hid, hk] at h; cases h
    | ok k =>
      rw [hid, hk] at h
      exact ⟨id, k, by simp [isOf, hasId, hid, hk], h⟩

theorem hasId_of_isOf {id : String} {k : Metric} (h : isOf id k x = true) : hasId id x = true :=
  (Bool.and_eq_true_iff.1 h).1

theorem hasId_inj {id id' : String} (h : hasId id x = true) (h' : hasId id' x = true) : id = id' :=
  Option.some.inj ((of_decide_eq_true h).symm.trans (of_decide_eq_true h'))

theorem isOf_iff {id id' : String} {k k' : Metric} (h : isOf id k x = true) :
    isOf id' k' x = true ↔ id = id' ∧ k = k' := by
  refine ⟨fun h' => ⟨hasId_inj (hasId_of_isOf h) (hasId_of_isOf h'), ?_⟩, ?_⟩
  · have hk := of_decide_eq_true (Bool.and_eq_true_iff.1 h).2
    exact Except.ok.inj (hk.symm.trans (of_decide_eq_true (Bool.and_eq_true_iff.1 h').2))
  · rintro ⟨rfl, rfl⟩
    exact h

namespace Partitioned

variable {done : List Series} (h : Partitioned done groups)
include h

theorem hasId_eq_false {id : String} (hnone : ∀ g ∈ groups, g.id ≠ id) :
    ∀ y ∈ done, hasId id y = false := by
  intro y hy
  obtain ⟨g, hg, k, hof⟩ := h.covers y hy
  exact Bool.eq_false_iff.2 fun hid => hnone g hg (hasId_inj (hasId_of_isOf hof) hid)

/-- What the group that grows had before, and what is has then. -/
theorem grown_found {new : SiteGroup} (hnew : Grown groups id k x new) :
    ∃ old : Metric → Option (List Sample), old k = none ∧
      (∀ k', (done.filter (isOf id k')).map Series.samples = (old k').toList) ∧
      ∀ k', new.found.get? k' = if k = k' then some x.samples else old k' := by
  cases hnew with
  | first hnone _ =>
    refine ⟨fun _ => none, rfl, fun k' => ?_, fun k' => ?_⟩
    · have hno : done.filter (isOf id k') = [] := by
        rw [List.filter_eq_nil_iff]
        intro y hy hof
        have hid := hasId_of_isOf hof
        rw [h.hasId_eq_false hnone y hy] at hid
        cases hid
      rw [hno]
      rfl
    · rw [Table.get?]
      rfl
  | @more g hg hid hk =>
    refine ⟨g.found.get?, Table.contains_eq_false.1 hk, fun k' => ?_, fun k' => ?_⟩
    · rw [← hid]
      exact h.found g hg k'
    · exact Table.get?_set g.found k k' x.samples

theorem grown_callStack {new : SiteGroup} (hof : hasId id x = true)
    (hnew : Grown groups id k x new) :
    ((done ++ [x]).find? (hasId id)).map (fun x => SiteSeries.callStack x.labels) =
      some (.ok new.stack) := by
  cases hnew with
  | first hnone hstack =>
    rw [List.find?_append, List.find?_eq_none.2 fun y hy => by simp [h.hasId_eq_false hnone y hy],
      Option.none_or, List.find?_singleton, if_pos hof, Option.map_some, hstack]
  | @more g hg hid _ =>
    have hold := h.callStacks g hg
    rw [hid] at hold
    obtain ⟨y, hy, hstack⟩ := Option.map_eq_some_iff.1 hold
    rw [List.find?_append, hy, Option.some_or, Option.map_some, hstack]

/-- A series that is accepted is in the group of its id from then on. -/
theorem insert {groups' : List SiteGroup} (hok : SiteGroup.insert groups x = .ok groups') :
    Partitioned (done ++ [x]) groups' := by
  obtain ⟨id, k, hof, hplace⟩ := insert_eq_ok hok
  have hid := hasId_of_isOf hof
  rcases place_cases id k x h.sorted with ⟨_, herror⟩ | ⟨_, _, herror⟩ |
    ⟨after, new, hplaced, hsorted, hgrown, hmem⟩
  · rw [herror] at hplace
    cases hplace
  · rw [herror] at hplace
    cases hplace
  have hsame : after = groups' := Except.ok.inj (hplaced.symm.trans hplace)
  subst hsame
  refine ⟨hsorted, fun g hg k' => ?_, fun g hg => ?_, fun y hy => ?_⟩
  · rw [List.filter_append, List.map_append]
    rcases (hmem g).1 hg with rfl | ⟨hg, hne⟩
    · obtain ⟨old, hold, hfound, hset⟩ := h.grown_found hgrown
      rw [hgrown.id_eq, hfound, hset]
      by_cases hk : k = k'
      · subst hk
        rw [hold, if_pos rfl, List.filter_cons_of_pos hof]
        rfl
      · rw [if_neg hk, List.filter_cons_of_neg fun h' => hk ((isOf_iff hof).1 h').2]
        exact List.append_nil _
    · rw [h.found g hg, List.filter_cons_of_neg fun h' => hne ((isOf_iff hof).1 h').1.symm]
      exact List.append_nil _
  · rcases (hmem g).1 hg with rfl | ⟨hg, hne⟩
    · rw [hgrown.id_eq]
      exact h.grown_callStack hid hgrown
    · obtain ⟨y, hy, hstack⟩ := Option.map_eq_some_iff.1 (h.callStacks g hg)
      rw [List.find?_append, hy, Option.some_or, Option.map_some, hstack]
  · have hnew : new ∈ after := (hmem new).2 (Or.inl rfl)
    rcases List.mem_append.1 hy with hy | hy
    · obtain ⟨g, hg, k', hofg⟩ := h.covers y hy
      by_cases hgid : g.id = id
      · exact ⟨new, hnew, k', by rwa [hgrown.id_eq, ← hgid]⟩
      · exact ⟨g, (hmem g).2 (Or.inr ⟨hg, hgid⟩), k', hofg⟩
    · obtain rfl := List.mem_singleton.1 hy
      exact ⟨new, hnew, k, by rwa [hgrown.id_eq]⟩

/-- Induction on the series that are left. -/
theorem foldlM_insert {todo : List Series} {groups' : List SiteGroup}
    (hok : todo.foldlM SiteGroup.insert groups = .ok groups') :
    Partitioned (done ++ todo) groups' := by
  induction todo generalizing done groups with
  | nil =>
    obtain rfl := Except.ok.inj hok
    rwa [List.append_nil]
  | cons x todo ih =>
    rw [List.foldlM_cons] at hok
    cases hinsert : SiteGroup.insert groups x with
    | error e => rw [hinsert] at hok; cases hok
    | ok next =>
      rw [hinsert] at hok
      rw [List.append_cons]
      exact ih (h.insert hinsert) hok

end Partitioned

/-! ## Placing the series of a session -/

/-- A call stack and a metric as the groups tell them apart. -/
def key (e : CallStack × Metric) : String × Metric := (e.1.id, e.2)

variable (s : Session) (column : CallStack → Metric → List Sample)

/-- The series of a session for a call stack and a metric. -/
def seriesOf (e : CallStack × Metric) : Series := ⟨SiteSeries.labels s e.1 e.2, column e.1 e.2⟩

/-- The groups hold the columns of these entries and no others. -/
structure Gathered (done : List (CallStack × Metric)) (groups : List SiteGroup) : Prop where
  sorted : groups.Pairwise (·.id < ·.id)
  found : ∀ g ∈ groups, ∀ k v, g.found.get? k = some v ↔
    ∃ stack, (stack, k) ∈ done ∧ stack.id = g.id ∧ column stack k = v
  callStacks : ∀ g ∈ groups, g.stack.id = g.id ∧ ∃ k, (g.stack, k) ∈ done
  covers : ∀ e ∈ done, ∃ g ∈ groups, g.id = e.1.id

variable {s column} {done : List (CallStack × Metric)}

theorem Gathered.taken_iff (h : Gathered column done groups) (e : CallStack × Metric) :
    Taken groups e.1.id e.2 ↔ key e ∈ done.map key := by
  constructor
  · rintro ⟨g, hg, hid, hk⟩
    obtain ⟨v, hv⟩ := Table.contains_iff.1 hk
    obtain ⟨stack, hm, hstack, _⟩ := (h.found g hg e.2 v).1 hv
    exact List.mem_map.2 ⟨(stack, e.2), hm, Prod.ext (hstack.trans hid) rfl⟩
  · intro hm
    obtain ⟨e', he', heq⟩ := List.mem_map.1 hm
    obtain ⟨hid, hk⟩ := Prod.mk.inj heq
    obtain ⟨g, hg, hgid⟩ := h.covers e' he'
    refine ⟨g, hg, hgid.trans hid, Table.contains_iff.2 ⟨column e'.1 e'.2, ?_⟩⟩
    exact (h.found g hg e.2 _).2 ⟨e'.1, hk ▸ he', hgid.symm, by rw [hk]⟩

theorem hasId_seriesOf (e : CallStack × Metric) :
    hasId id (seriesOf s column e) = true ↔ e.1.id = id := by
  simp [hasId, seriesOf]

theorem isOf_seriesOf (e : CallStack × Metric) :
    isOf id k (seriesOf s column e) = true ↔ e.1.id = id ∧ e.2 = k := by
  simp [isOf, hasId, seriesOf]

/-- Of the series of a session the groups tell what they hold by entries. -/
theorem Partitioned.gathered (h : Partitioned (done.map (seriesOf s column)) groups) :
    Gathered column done groups where
  sorted := h.sorted
  found := by
    intro g hg k v
    have hv : g.found.get? k = some v ↔
        v ∈ ((done.map (seriesOf s column)).filter (isOf g.id k)).map Series.samples := by
      rw [h.found g hg k, Option.mem_toList]
    rw [hv, List.mem_map]
    constructor
    · rintro ⟨x, hx, rfl⟩
      obtain ⟨hx, hof⟩ := List.mem_filter.1 hx
      obtain ⟨e, he, rfl⟩ := List.mem_map.1 hx
      obtain ⟨hid, rfl⟩ := (isOf_seriesOf e).1 hof
      exact ⟨e.1, he, hid, rfl⟩
    · rintro ⟨stack, he, hid, rfl⟩
      exact ⟨seriesOf s column (stack, k),
        List.mem_filter.2 ⟨List.mem_map_of_mem he, (isOf_seriesOf _).2 ⟨hid, rfl⟩⟩, rfl⟩
  callStacks := by
    intro g hg
    obtain ⟨x, hfind, hstack⟩ := Option.map_eq_some_iff.1 (h.callStacks g hg)
    obtain ⟨e, he, rfl⟩ := List.mem_map.1 (List.mem_of_find?_eq_some hfind)
    have heq := Except.ok.inj (hstack.symm.trans (SiteSeries.callStack_labels s e.1 e.2))
    rw [heq]
    exact ⟨(hasId_seriesOf e).1 (List.find?_some hfind), e.2, he⟩
  covers := by
    intro e he
    obtain ⟨g, hg, k, hof⟩ := h.covers _ (List.mem_map_of_mem he)
    exact ⟨g, hg, ((isOf_seriesOf e).1 hof).1.symm⟩

/-- A series of a session is refused only if one of its id has its metric. -/
theorem insert_seriesOf (h : Partitioned (done.map (seriesOf s column)) groups)
    (e : CallStack × Metric) : key e ∈ done.map key ∧
        insert groups (seriesOf s column e) = .error (.duplicateSeries e.2.name) ∨
      key e ∉ done.map key ∧ ∃ groups', insert groups (seriesOf s column e) = .ok groups' := by
  have hinsert : insert groups (seriesOf s column e) =
      place e.1.id e.2 (seriesOf s column e) groups := by
    simp only [insert, seriesOf, SiteSeries.get?_stackIdLabel, SiteSeries.metric_labels, bind,
      Except.bind]
  have hstack : SiteSeries.callStack (seriesOf s column e).labels = .ok e.1 :=
    SiteSeries.callStack_labels s e.1 e.2
  rw [hinsert, ← h.gathered.taken_iff e]
  rcases place_cases e.1.id e.2 (seriesOf s column e) h.sorted with
    hduplicate | ⟨_, herror, _⟩ | ⟨groups', new, hok, _, hgrown, _⟩
  · exact Or.inl hduplicate
  · rw [hstack] at herror
    cases herror
  · exact Or.inr ⟨hgrown.not_taken h.sorted, groups', hok⟩

/-- The series of a session are gathered one after the other until two of them agree in id
and metric. Induction on the series that are left. -/
theorem foldlM_insert (s : Session) (todo : List (CallStack × Metric))
    (h : Partitioned (done.map (seriesOf s column)) groups) (hd : (done.map key).Nodup) :
    (((done ++ todo).map key).Nodup ∧
      ∃ groups', (todo.map (seriesOf s column)).foldlM insert groups = .ok groups' ∧
        Gathered column (done ++ todo) groups') ∨
      (¬ ((done ++ todo).map key).Nodup ∧
        ∃ k : Metric, (todo.map (seriesOf s column)).foldlM insert groups =
          .error (.duplicateSeries k.name)) := by
  induction todo generalizing done groups with
  | nil =>
    rw [List.append_nil]
    exact Or.inl ⟨hd, groups, rfl, h.gathered⟩
  | cons e todo ih =>
    have hsplit : done ++ e :: todo = (done ++ [e]) ++ todo := by simp
    rw [List.map_cons, List.foldlM_cons, hsplit]
    rcases insert_seriesOf h e with ⟨hm, herror⟩ | ⟨hm, groups', hok⟩
    · rw [herror]
      refine Or.inr ⟨fun hnodup => ?_, e.2, rfl⟩
      rw [List.map_append, List.nodup_append, List.map_append, List.map_singleton,
        nodup_concat_iff hd] at hnodup
      exact hnodup.1 hm
    · rw [hok]
      have h' := h.insert hok
      rw [← List.map_singleton (f := seriesOf s column), ← List.map_append] at h'
      refine ih h' ?_
      rw [List.map_append, List.map_singleton, nodup_concat_iff hd]
      exact hm

theorem gather_cases (s : Session) (column : CallStack → Metric → List Sample)
    (entries : List (CallStack × Metric)) :
    ((entries.map key).Nodup ∧
      ∃ groups, (entries.map (seriesOf s column)).foldlM insert [] = .ok groups ∧
        Gathered column entries groups) ∨
      (¬ (entries.map key).Nodup ∧
        ∃ k : Metric, (entries.map (seriesOf s column)).foldlM insert [] =
          .error (.duplicateSeries k.name)) := by
  have hnone : Partitioned (([] : List (CallStack × Metric)).map (seriesOf s column)) [] :=
    partitioned_nil
  exact foldlM_insert s entries hnone List.nodup_nil

end SiteGroup
end HeapTelemetry
