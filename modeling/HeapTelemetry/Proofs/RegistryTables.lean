import HeapTelemetry.Proofs.Registrations
import Mathlib.Data.List.Forall2

/-! The registry as it is stored: services, their instances and their sessions in tables
of their own, each change in one transaction. The tables answer every call as the
registry does. -/

namespace HeapTelemetry
open Step

/-! ## Tables -/

/-- A table whose rows are numbered as they come. -/
structure Rows (α : Type) where
  last : Nat
  rows : List (Nat × α)

namespace Rows
variable {α : Type} [DecidableEq α]

def empty : Rows α := ⟨0, []⟩

def insert (t : Rows α) (a : α) : Rows α := ⟨t.last + 1, t.rows ++ [(t.last + 1, a)]⟩

/-- Inserts a row unless there is one like it. -/
def insertOrIgnore (t : Rows α) (a : α) : Rows α :=
  if a ∈ t.rows.map Prod.snd then t else t.insert a

def number? (t : Rows α) (a : α) : Option Nat := (t.rows.find? (·.2 = a)).map Prod.fst

end Rows

/-- Times are in nanoseconds since 1970. -/
structure SessionRow where
  startedAt : Int64
  finishedAt : Option Int64
  instanceNumber : Nat
  deriving DecidableEq

/-- What the row of a session says of it. -/
def SessionRow.entry (row : SessionRow) (s : Session) : RegistryEntry :=
  ⟨s, .ofNanos row.startedAt, row.finishedAt.map .ofNanos⟩

/-- An instance has the number of its service, a session that of its instance. -/
structure RegistryTables where
  version : Int
  services : Rows String
  instances : Rows (Nat × String)
  sessions : Rows SessionRow

namespace RegistryTables

def empty : RegistryTables := ⟨Registry.supportedVersion, .empty, .empty, .empty⟩

/-- All of a change or nothing of it. -/
def transaction {σ α : Type} (x : Step σ α) : Step σ α := do
  let before ← get
  match ← Step.attempt x with
  | .ok a => return a
  | .error e =>
    set before
    throw e

def noRow : Error := .reported .database "Query returned no rows"

/-- The one row that a query is to have. -/
def one {σ α : Type} : Option α → Step σ α
  | some a => return a
  | none => throw noRow

/-- The rows of instances of a service, by joining the two tables. -/
def instanceRows (t : RegistryTables) (service : String) : List (Nat × Nat × String) :=
  t.instances.rows.filter fun i => t.services.rows.any fun s => s.1 = i.2.1 ∧ s.2 = service

def instanceNumber? (t : RegistryTables) (owner : Instance) : Option Nat :=
  ((t.instanceRows owner.service).find? (·.2.2 = owner.name)).map Prod.fst

/-- The row of a session, if there is one of its number and its instance. -/
def row? (t : RegistryTables) (s : Session) : Option SessionRow := do
  let i ← t.instanceNumber? s.owner
  let row ← t.sessions.rows.find? fun r => (r.1 : Int) = s.id ∧ r.2.instanceNumber = i
  return row.2

def lookup (t : RegistryTables) (s : Session) : Except Error RegistryEntry :=
  match t.row? s with
  | some row => .ok (row.entry s)
  | none => .error (.unknownSession s.key)

def startSession (time : Int64) (owner : Instance) : Step RegistryTables Session := do
  Step.ofExcept owner.validate
  transaction do
    modify fun t => { t with services := t.services.insertOrIgnore owner.service }
    let service ← one ((← get).services.number? owner.service)
    modify fun t => { t with instances := t.instances.insertOrIgnore (service, owner.name) }
    let number ← one ((← get).instances.number? (service, owner.name))
    modify fun t => { t with sessions := t.sessions.insert ⟨time, none, number⟩ }
    return ⟨owner, ((← get).sessions.last : Nat)⟩

def stopSession (time : Int64) (s : Session) : Step RegistryTables Unit :=
  transaction do
    let e ← Step.ofExcept ((← get).lookup s)
    if !e.active then throw (.alreadyStopped s.key)
    modify fun t => { t with sessions.rows := t.sessions.rows.map fun r =>
      if (r.1 : Int) = s.id then (r.1, { r.2 with finishedAt := some time }) else r }

def reopen (t : RegistryTables) : Except Error RegistryTables :=
  if t.version > Registry.supportedVersion then
    .error (.newerSchema t.version Registry.supportedVersion)
  else .ok { t with version := Registry.supportedVersion }

def serviceNames (t : RegistryTables) : List String :=
  (t.services.rows.map Prod.snd).mergeSort fun a b => a ≤ b

def instancesOf (t : RegistryTables) (service : String) : List Instance :=
  (((t.instanceRows service).map (·.2.2)).mergeSort fun a b => a ≤ b).map (Instance.mk service)

def sessionsOf (t : RegistryTables) (owner : Instance) : List RegistryEntry :=
  match t.instanceNumber? owner with
  | none => []
  | some i =>
    ((t.sessions.rows.filter (·.2.instanceNumber = i)).mergeSort fun a b => a.1 ≤ b.1).map
      fun r => r.2.entry ⟨owner, r.1⟩

end RegistryTables

/-! ## Numbers of rows -/

namespace Rows
variable {α : Type} {t : Rows α} {a b : α} {k l : Nat}

/-- Rows have numbers of their own, up to the last one given. -/
structure Numbered (t : Rows α) : Prop where
  ascending : t.rows.Pairwise (·.1 < ·.1)
  bounded : ∀ r ∈ t.rows, r.1 ≤ t.last

theorem numbered_empty : Numbered (empty : Rows α) :=
  ⟨List.Pairwise.nil, fun _ hr => absurd hr List.not_mem_nil⟩

theorem Numbered.insert (h : t.Numbered) (a : α) : (t.insert a).Numbered := by
  constructor
  · rw [Rows.insert, List.pairwise_append]
    refine ⟨h.ascending, List.pairwise_singleton _ _, fun r hr r' hr' => ?_⟩
    rw [List.mem_singleton.1 hr']
    exact Nat.lt_succ_of_le (h.bounded r hr)
  · intro r hr
    rcases List.mem_append.1 hr with hr | hr
    · exact Nat.le_succ_of_le (h.bounded r hr)
    · rw [List.mem_singleton.1 hr]
      exact Nat.le_refl _

theorem Numbered.eq_of_number (h : t.Numbered) (ha : (k, a) ∈ t.rows) (hb : (k, b) ∈ t.rows) :
    a = b := by
  have hnodup : (t.rows.map Prod.fst).Nodup :=
    List.pairwise_map.2 (h.ascending.imp fun hlt heq => by omega)
  exact (Prod.mk.inj (List.inj_on_of_nodup_map hnodup ha hb rfl)).2

/-- No two rows are alike. -/
def Unique (t : Rows α) : Prop := (t.rows.map Prod.snd).Nodup

theorem Unique.eq_of_value (h : t.Unique) (hk : (k, a) ∈ t.rows) (hl : (l, a) ∈ t.rows) : k = l :=
  (Prod.mk.inj (List.inj_on_of_nodup_map h hk hl rfl)).1

variable [DecidableEq α]

theorem number?_eq_some (h : t.Unique) (ha : (k, a) ∈ t.rows) : t.number? a = some k := by
  rw [number?]
  cases hfind : t.rows.find? (·.2 = a) with
  | none => exact absurd (decide_eq_true rfl) (List.find?_eq_none.1 hfind _ ha)
  | some r =>
    obtain ⟨l, b⟩ := r
    have hb := List.find?_some hfind
    obtain rfl : b = a := of_decide_eq_true hb
    rw [Option.map_some, h.eq_of_value (List.mem_of_find?_eq_some hfind) ha]

/-- After the insertion the row is there, under one number, and all others are as before. -/
theorem insertOrIgnore_spec (hn : t.Numbered) (hu : t.Unique) (a : α) : ∃ k,
    (t.insertOrIgnore a).number? a = some k ∧ (t.insertOrIgnore a).Numbered ∧
      (t.insertOrIgnore a).Unique ∧
      ∀ r, r ∈ (t.insertOrIgnore a).rows ↔ r ∈ t.rows ∨ r = (k, a) := by
  rw [insertOrIgnore]
  split
  case isTrue hmem =>
    obtain ⟨⟨k, b⟩, hk, rfl⟩ := List.mem_map.1 hmem
    refine ⟨k, number?_eq_some hu hk, hn, hu, fun r => ⟨Or.inl, ?_⟩⟩
    rintro (hr | rfl)
    · exact hr
    · exact hk
  case isFalse hnot =>
    have hunique : (t.insert a).Unique := by
      rw [Unique, insert, List.map_append, List.map_singleton, nodup_concat_iff hu]
      exact hnot
    have hlast : (t.last + 1, a) ∈ (t.insert a).rows := List.mem_append_right _ List.mem_cons_self
    refine ⟨t.last + 1, number?_eq_some hunique hlast, hn.insert a, hunique, fun r => ?_⟩
    rw [insert, List.mem_append, List.mem_singleton]

end Rows

/-! ## The registry in tables -/

namespace RegistryTables
variable {t : RegistryTables} {r : Registry} {owner other : Instance} {i j : Nat} {s : Session}
  {time : Int64}

/-- The instance has a row of this number. -/
def Has (t : RegistryTables) (owner : Instance) (i : Nat) : Prop :=
  ∃ k, (k, owner.service) ∈ t.services.rows ∧ (i, k, owner.name) ∈ t.instances.rows

/-- The row is that of the session. -/
structure Shows (t : RegistryTables) (row : Nat × SessionRow) (e : RegistryEntry) : Prop where
  id : e.session.id = (row.1 : Int)
  owner : t.Has e.session.owner row.2.instanceNumber
  entry : row.2.entry e.session = e

/-- The tables hold what the registry holds, and nothing else. -/
structure Represents (t : RegistryTables) (r : Registry) : Prop where
  version : t.version = r.version
  services : t.services.Numbered
  uniqueServices : t.services.Unique
  instances : t.instances.Numbered
  uniqueInstances : t.instances.Unique
  owned : ∀ row ∈ t.instances.rows, ∃ service, (row.2.1, service) ∈ t.services.rows
  knownServices : ∀ name, name ∈ t.services.rows.map Prod.snd ↔
    ∃ s ∈ r.issued, s.owner.service = name
  knownInstances : ∀ owner, (∃ i, t.Has owner i) ↔ ∃ s ∈ r.issued, s.owner = owner
  sessions : List.Forall₂ t.Shows t.sessions.rows r.entries
  last : t.sessions.last = r.lastId

theorem represents_empty : Represents empty Registry.empty where
  version := rfl
  services := Rows.numbered_empty
  uniqueServices := List.nodup_nil
  instances := Rows.numbered_empty
  uniqueInstances := List.nodup_nil
  owned _ hrow := absurd hrow List.not_mem_nil
  knownServices _ := ⟨fun h => absurd h List.not_mem_nil, fun ⟨_, hs, _⟩ => absurd hs List.not_mem_nil⟩
  knownInstances _ := ⟨fun ⟨_, _, h, _⟩ => absurd h List.not_mem_nil,
    fun ⟨_, hs, _⟩ => absurd hs List.not_mem_nil⟩
  sessions := .nil
  last := rfl

theorem Represents.instance_unique (h : Represents t r) (ho : t.Has owner i) (hp : t.Has other i) :
    owner = other := by
  obtain ⟨k, hk, hi⟩ := ho
  obtain ⟨l, hl, hj⟩ := hp
  obtain ⟨rfl, hname⟩ := Prod.mk.inj (h.instances.eq_of_number hi hj)
  have hservice := h.services.eq_of_number hk hl
  cases owner
  cases other
  cases hname
  cases hservice
  rfl

theorem Represents.number_unique (h : Represents t r) (hi : t.Has owner i) (hj : t.Has owner j) :
    i = j := by
  obtain ⟨k, hk, hi⟩ := hi
  obtain ⟨l, hl, hj⟩ := hj
  obtain rfl := h.uniqueServices.eq_of_value hk hl
  exact h.uniqueInstances.eq_of_value hi hj

theorem mem_instanceRows {service name : String} {k : Nat} :
    (i, k, name) ∈ t.instanceRows service ↔
      (k, service) ∈ t.services.rows ∧ (i, k, name) ∈ t.instances.rows := by
  rw [instanceRows, List.mem_filter, List.any_eq_true, and_comm]
  refine and_congr_left fun _ => ?_
  constructor
  · rintro ⟨⟨l, name⟩, hs, heq⟩
    obtain ⟨rfl, rfl⟩ := of_decide_eq_true heq
    exact hs
  · exact fun hs => ⟨_, hs, decide_eq_true ⟨rfl, rfl⟩⟩

/-- The joint query finds the instance by its two names. -/
theorem Represents.instanceNumber?_eq (h : Represents t r) (hi : t.Has owner i) :
    t.instanceNumber? owner = some i := by
  obtain ⟨k, hk, hrow⟩ := hi
  rw [instanceNumber?]
  cases hfind : (t.instanceRows owner.service).find? (·.2.2 = owner.name) with
  | none =>
    exact absurd (decide_eq_true rfl) (List.find?_eq_none.1 hfind _ (mem_instanceRows.2 ⟨hk, hrow⟩))
  | some row =>
    obtain ⟨j, l, name⟩ := row
    obtain ⟨hl, hj⟩ := mem_instanceRows.1 (List.mem_of_find?_eq_some hfind)
    have hname := List.find?_some hfind
    obtain rfl : name = owner.name := of_decide_eq_true hname
    rw [Option.map_some, h.number_unique ⟨l, hl, hj⟩ ⟨k, hk, hrow⟩]

theorem instanceNumber?_none (h : ∀ i, ¬ t.Has owner i) : t.instanceNumber? owner = none := by
  rw [instanceNumber?, Option.map_eq_none_iff, List.find?_eq_none]
  rintro ⟨i, k, name⟩ hrow hname
  obtain ⟨hk, hi⟩ := mem_instanceRows.1 hrow
  obtain rfl : name = owner.name := of_decide_eq_true hname
  exact h i ⟨k, hk, hi⟩

/-- Lists whose elements correspond are filtered and read alike. -/
theorem map_filter_of_forall₂ {α β γ : Type} {R : α → β → Prop} {xs : List α} {ys : List β}
    {p : α → Bool} {q : β → Bool} {f : α → γ} {g : β → γ} (h : List.Forall₂ R xs ys)
    (hpq : ∀ x y, R x y → p x = q y) (hfg : ∀ x y, R x y → q y = true → f x = g y) :
    (xs.filter p).map f = (ys.filter q).map g := by
  induction h with
  | nil => rfl
  | @cons x y xs ys hxy _ ih =>
    rw [List.filter_cons, List.filter_cons, hpq x y hxy]
    split
    · rename_i hq
      rw [List.map_cons, List.map_cons, hfg x y hxy hq, ih]
    · exact ih

/-- The sessions of an instance in both. -/
theorem Represents.filter_eq (h : Represents t r) (hi : t.Has owner i) (p : Session → Bool) :
    (t.sessions.rows.filter fun row => row.2.instanceNumber = i ∧ p ⟨owner, row.1⟩).map
      (fun row => row.2.entry ⟨owner, row.1⟩) =
        r.entries.filter fun e => e.session.owner = owner ∧ p e.session := by
  have hsession : ∀ row e, t.Shows row e → e.session.owner = owner →
      e.session = ⟨owner, row.1⟩ := by
    rintro row e hrow rfl
    rw [← hrow.id]
  have hentry : ∀ row e, t.Shows row e → e.session.owner = owner →
      row.2.entry ⟨owner, row.1⟩ = e := by
    intro row e hrow howner
    rw [← hsession row e hrow howner, hrow.entry]
  have hall := map_filter_of_forall₂ (g := id) (f := fun row : Nat × SessionRow =>
    row.2.entry ⟨owner, row.1⟩) (p := fun row => row.2.instanceNumber = i ∧ p ⟨owner, row.1⟩)
    (q := fun e => e.session.owner = owner ∧ p e.session) h.sessions ?_ ?_
  · rwa [List.map_id] at hall
  · intro row e hrow
    by_cases howner : e.session.owner = owner
    · have hnumber : row.2.instanceNumber = i := h.number_unique (howner ▸ hrow.owner) hi
      simp only [hnumber, hsession row e hrow howner]
    · have hnumber : row.2.instanceNumber ≠ i := fun heq =>
        howner (h.instance_unique (heq ▸ hrow.owner) hi)
      simp only [howner, hnumber, false_and]
  · intro row e hrow hq
    exact hentry row e hrow (of_decide_eq_true hq).1

theorem Represents.not_entry (h : Represents t r) (hnone : ∀ i, ¬ t.Has owner i) {e : RegistryEntry}
    (he : e ∈ r.entries) : e.session.owner ≠ owner := by
  rintro rfl
  obtain ⟨i, hi⟩ := (h.knownInstances e.session.owner).2 ⟨_, List.mem_map_of_mem he, rfl⟩
  exact hnone i hi

/-- A session is found by its number and its instance where the registry has it. -/
theorem Represents.lookup (h : Represents t r) (s : Session) : t.lookup s = r.lookup s := by
  have hrow : (t.row? s).map (·.entry s) = r.find? s := by
    rw [row?, Registry.find?]
    by_cases howner : ∃ i, t.Has s.owner i
    · obtain ⟨i, hi⟩ := howner
      have hrows := congrArg List.head? (h.filter_eq hi fun t => t.id = s.id)
      have hsame : ∀ t : Session, (t.owner = s.owner ∧ t.id = s.id) ↔ t = s := by
        rintro ⟨owner, id⟩
        exact (Session.mk.injEq owner id s.owner s.id ▸ Iff.rfl)
      rw [List.head?_map, List.head?_filter, List.head?_filter] at hrows
      simp only [decide_eq_true_eq, hsame] at hrows
      rw [h.instanceNumber?_eq hi, ← hrows]
      simp only [and_comm, Option.bind_eq_bind, Option.bind_some]
      cases hfind : t.sessions.rows.find? fun row =>
          decide (row.2.instanceNumber = i ∧ (row.1 : Int) = s.id) with
      | none => rfl
      | some row =>
        have hfound := List.find?_some hfind
        have hid : (row.1 : Int) = s.id := (of_decide_eq_true hfound).2
        rw [Option.map_some, hid]
        rfl
    · rw [instanceNumber?_none (not_exists.1 howner), eq_comm]
      refine List.find?_eq_none.2 fun e he heq => ?_
      exact h.not_entry (not_exists.1 howner) he (congrArg Session.owner (of_decide_eq_true heq))
  rw [RegistryTables.lookup, Registry.lookup, ← hrow]
  cases t.row? s <;> rfl

/-! ## Lists -/

theorem mergeSort_eq_sortedNames {xs names : List String} (hnodup : xs.Nodup)
    (hmem : ∀ name, name ∈ xs ↔ name ∈ names) :
    xs.mergeSort (fun a b => a ≤ b) = Registry.sortedNames names := by
  have hperm : xs.Perm names.eraseDups := by
    refine (List.perm_ext_iff_of_nodup hnodup (nodup_eraseDups names)).2 fun name => ?_
    rw [hmem, List.mem_eraseDups]
  refine List.Perm.eq_of_pairwise (fun a b _ _ hab hba => ?_)
    (Registry.pairwise_mergeSort_names _) (Registry.pairwise_mergeSort_names _)
    ((List.mergeSort_perm _ _).trans (hperm.trans (List.mergeSort_perm _ _).symm))
  exact String.le_antisymm (of_decide_eq_true hab) (of_decide_eq_true hba)

theorem Represents.serviceNames (h : Represents t r) : t.serviceNames = r.services := by
  refine mergeSort_eq_sortedNames h.uniqueServices fun name => ?_
  rw [h.knownServices, Registry.issued, List.mem_map]
  simp only [List.mem_map]
  constructor
  · rintro ⟨_, ⟨e, he, rfl⟩, rfl⟩
    exact ⟨e, he, rfl⟩
  · rintro ⟨e, he, rfl⟩
    exact ⟨_, ⟨e, he, rfl⟩, rfl⟩

theorem Represents.instancesOf (h : Represents t r) (service : String) :
    t.instancesOf service = r.instances service := by
  have hmem : ∀ name, name ∈ (t.instanceRows service).map (·.2.2) ↔
      ∃ i, t.Has ⟨service, name⟩ i := by
    intro name
    rw [List.mem_map]
    constructor
    · rintro ⟨⟨i, k, name⟩, hrow, rfl⟩
      exact ⟨i, k, mem_instanceRows.1 hrow⟩
    · rintro ⟨i, k, hrow⟩
      exact ⟨_, mem_instanceRows.2 hrow, rfl⟩
  have hnodup : ((t.instanceRows service).map (·.2.2)).Nodup := by
    have hrows : (t.instanceRows service).Nodup := (List.Nodup.of_map _ h.uniqueInstances).filter _
    refine hrows.map_on ?_
    rintro ⟨i, k, name⟩ hi ⟨j, l, name⟩ hj rfl
    have hi := mem_instanceRows.1 hi
    have hj := mem_instanceRows.1 hj
    obtain rfl := h.uniqueServices.eq_of_value hi.1 hj.1
    rw [h.uniqueInstances.eq_of_value hi.2 hj.2]
  rw [RegistryTables.instancesOf, Registry.instances]
  congr 1
  refine mergeSort_eq_sortedNames hnodup fun name => ?_
  rw [hmem, h.knownInstances, Registry.issued]
  simp only [List.mem_map, List.mem_filter, decide_eq_true_eq]
  constructor
  · rintro ⟨_, ⟨e, he, rfl⟩, howner⟩
    exact ⟨e, ⟨he, congrArg Instance.service howner⟩, congrArg Instance.name howner⟩
  · rintro ⟨e, ⟨he, rfl⟩, rfl⟩
    exact ⟨_, ⟨e, he, rfl⟩, rfl⟩

theorem Represents.sessionsOf (h : Represents t r) (hn : t.sessions.Numbered) (owner : Instance) :
    t.sessionsOf owner = r.sessions owner := by
  rw [RegistryTables.sessionsOf, Registry.sessions]
  by_cases howner : ∃ i, t.Has owner i
  · obtain ⟨i, hi⟩ := howner
    have hrows := h.filter_eq hi fun _ => true
    simp only [and_true] at hrows
    have hascending : (t.sessions.rows.filter (·.2.instanceNumber = i)).Pairwise
        fun a b => decide (a.1 ≤ b.1) = true :=
      (hn.ascending.imp fun hlt => decide_eq_true (Nat.le_of_lt hlt)).filter _
    rw [h.instanceNumber?_eq hi]
    simp only
    rw [List.mergeSort_of_pairwise hascending]
    exact hrows
  · rw [instanceNumber?_none (not_exists.1 howner), eq_comm]
    refine List.filter_eq_nil_iff.2 fun e he heq => ?_
    exact h.not_entry (not_exists.1 howner) he (of_decide_eq_true heq)

/-! ## Changes -/

theorem run_transaction {σ α : Type} (x : Step σ α) (s : σ) :
    run (transaction x) s = match run x s with
      | (.ok a, t) => (.ok a, t)
      | (.error e, _) => (.error e, s) := by
  rw [transaction, run_bind_ok (run_get s), run_bind_ok (run_attempt x s)]
  cases hrun : run x s with
  | mk outcome t => cases outcome <;> rfl

/-- Rows of a service and of an instance give this instance its number, and no other one. -/
theorem has_inserted {t' : RegistryTables} {k : Nat} (h : Represents t r)
    (hservices : t'.services.Numbered)
    (hs : ∀ row, row ∈ t'.services.rows ↔ row ∈ t.services.rows ∨ row = (k, owner.service))
    (hi : ∀ row, row ∈ t'.instances.rows ↔ row ∈ t.instances.rows ∨ row = (i, k, owner.name))
    {other : Instance} {j : Nat} :
    t'.Has other j ↔ t.Has other j ∨ other = owner ∧ j = i := by
  constructor
  · rintro ⟨l, hl, hj⟩
    rcases (hi _).1 hj with hj | hj
    · refine Or.inl ⟨l, ?_, hj⟩
      rcases (hs _).1 hl with hl | hl
      · exact hl
      · -- The service of an old instance was there before, under this number.
        obtain ⟨service, hservice⟩ := h.owned _ hj
        obtain rfl : other.service = service :=
          hservices.eq_of_number ((hs _).2 (Or.inr hl)) ((hs _).2 (Or.inl hservice))
        exact hservice
    · obtain ⟨rfl, hrow⟩ := Prod.mk.inj hj
      obtain ⟨rfl, hname⟩ := Prod.mk.inj hrow
      have hservice := hservices.eq_of_number hl ((hs _).2 (Or.inr rfl))
      cases other
      cases hname
      cases hservice
      exact Or.inr ⟨rfl, rfl⟩
  · rintro (⟨l, hl, hj⟩ | ⟨rfl, rfl⟩)
    · exact ⟨l, (hs _).2 (Or.inl hl), (hi _).2 (Or.inl hj)⟩
    · exact ⟨k, (hs _).2 (Or.inr rfl), (hi _).2 (Or.inr rfl)⟩

/-- The tables with a session more; its service and its instance get rows if they have
none yet. -/
theorem Represents.started (h : Represents t r) (hn : t.sessions.Numbered) (owner : Instance) :
    ∃ t', (owner.validate = .ok () →
        run (startSession r.clock owner) t = (.ok ⟨owner, (r.lastId + 1 : Nat)⟩, t')) ∧
      Represents t' (r.started owner) ∧ t'.sessions.Numbered := by
  obtain ⟨k, hk, hservices, huniqueServices, hserviceRows⟩ :=
    Rows.insertOrIgnore_spec h.services h.uniqueServices owner.service
  obtain ⟨i, hi, hinstances, huniqueInstances, hinstanceRows⟩ :=
    Rows.insertOrIgnore_spec h.instances h.uniqueInstances (k, owner.name)
  obtain ⟨t', ht'⟩ : ∃ t' : RegistryTables, t' = ⟨t.version,
    t.services.insertOrIgnore owner.service, t.instances.insertOrIgnore (k, owner.name),
    t.sessions.insert ⟨r.clock, none, i⟩⟩ := ⟨_, rfl⟩
  have hrun : owner.validate = .ok () →
      run (startSession r.clock owner) t = (.ok ⟨owner, (r.lastId + 1 : Nat)⟩, t') := by
    intro hv
    rw [startSession, run_bind, run_ofExcept, hv]
    simp only
    rw [run_transaction, run_bind_ok (run_modify _ t), run_bind_ok (run_get _)]
    simp only [hk]
    rw [run_bind_ok (show run (one (some k)) _ = (.ok k, _) from rfl), run_bind_ok (run_modify _ _),
      run_bind_ok (run_get _)]
    simp only [hi]
    rw [run_bind_ok (show run (one (some i)) _ = (.ok i, _) from rfl), run_bind_ok (run_modify _ _),
      run_bind_ok (run_get _), ht', ← h.last]
    rfl
  have hhas : ∀ {other j}, t'.Has other j ↔ t.Has other j ∨ other = owner ∧ j = i := by
    subst ht'
    exact has_inserted h hservices hserviceRows hinstanceRows
  refine ⟨t', hrun, ?_, ht' ▸ hn.insert _⟩
  have hissued := Registry.issued_started r owner
  subst ht'
  exact {
    version := h.version
    services := hservices
    uniqueServices := huniqueServices
    instances := hinstances
    uniqueInstances := huniqueInstances
    owned := by
      intro row hrow
      rcases (hinstanceRows row).1 hrow with hrow | rfl
      · obtain ⟨service, hservice⟩ := h.owned row hrow
        exact ⟨service, (hserviceRows _).2 (Or.inl hservice)⟩
      · exact ⟨owner.service, (hserviceRows _).2 (Or.inr rfl)⟩
    knownServices := by
      intro name
      have hname : name ∈ (t.services.insertOrIgnore owner.service).rows.map Prod.snd ↔
          name ∈ t.services.rows.map Prod.snd ∨ name = owner.service := by
        simp only [List.mem_map, hserviceRows]
        constructor
        · rintro ⟨row, hrow | rfl, rfl⟩
          · exact Or.inl ⟨row, hrow, rfl⟩
          · exact Or.inr rfl
        · rintro (⟨row, hrow, rfl⟩ | rfl)
          · exact ⟨row, Or.inl hrow, rfl⟩
          · exact ⟨_, Or.inr rfl, rfl⟩
      rw [hname, h.knownServices, hissued]
      simp [or_and_right, exists_or, eq_comm]
    knownInstances := by
      intro other
      simp only [hhas, exists_or, h.knownInstances, hissued]
      simp [or_and_right, exists_or, eq_comm]
    sessions := by
      refine List.rel_append (h.sessions.imp fun row e hrow => ?_) (.cons ?_ .nil)
      · exact ⟨hrow.id, hhas.2 (Or.inl hrow.owner), hrow.entry⟩
      · exact ⟨by rw [h.last], hhas.2 (Or.inr ⟨rfl, rfl⟩), rfl⟩
    last := congrArg (· + 1) h.last }

theorem forall₂_map_of_mem {α β γ δ : Type} {R : α → β → Prop} {R' : γ → δ → Prop} {f : α → γ}
    {g : β → δ} {xs : List α} {ys : List β} (h : List.Forall₂ R xs ys)
    (hR : ∀ x y, y ∈ ys → R x y → R' (f x) (g y)) : List.Forall₂ R' (xs.map f) (ys.map g) := by
  induction h with
  | nil => exact .nil
  | @cons x y xs ys hxy _ ih =>
    refine .cons (hR x y List.mem_cons_self hxy) (ih fun x y hy => ?_)
    exact hR x y (List.mem_cons_of_mem _ hy)

/-- Marking a session by its number alone marks no other one. -/
theorem Represents.marked (h : Represents t r) (hr : r.Numbered) (hs : s ∈ r.issued) :
    Represents { t with sessions.rows := t.sessions.rows.map fun row =>
        if (row.1 : Int) = s.id then (row.1, { row.2 with finishedAt := some time }) else row }
      { r with entries := r.entries.map fun e =>
        if e.session = s then { e with finishedAt := some (.ofNanos time) } else e } := by
  have hissued : ({ r with entries := r.entries.map fun e =>
      if e.session = s then { e with finishedAt := some (.ofNanos time) } else e } :
        Registry).issued = r.issued := by
    rw [Registry.issued, List.map_map]
    refine List.map_congr_left fun e _ => ?_
    rw [Function.comp_apply]
    split <;> rfl
  refine { h with
    knownServices := fun name => hissued.symm ▸ h.knownServices name
    knownInstances := fun owner => hissued.symm ▸ h.knownInstances owner
    sessions := forall₂_map_of_mem h.sessions fun row e he hrow => ?_ }
  have hmine : (row.1 : Int) = s.id ↔ e.session = s := by
    rw [← hrow.id]
    refine ⟨fun hid => ?_, fun heq => congrArg Session.id heq⟩
    exact List.inj_on_of_nodup_map hr.distinct (List.mem_map_of_mem he) hs hid
  by_cases hid : (row.1 : Int) = s.id
  · rw [if_pos hid, if_pos (hmine.1 hid)]
    refine ⟨hrow.id, hrow.owner, ?_⟩
    rw [← hrow.entry]
    rfl
  · rw [if_neg hid, if_neg (mt hmine.2 hid)]
    exact ⟨hrow.id, hrow.owner, hrow.entry⟩

theorem numbered_marked {rows : Rows SessionRow} (h : rows.Numbered) (id : Int) :
    Rows.Numbered { rows with rows := rows.rows.map fun row =>
      if (row.1 : Int) = id then (row.1, { row.2 with finishedAt := some time }) else row } := by
  have hnumber : ∀ row : Nat × SessionRow,
      (if (row.1 : Int) = id then (row.1, { row.2 with finishedAt := some time }) else row).1 =
        row.1 := by
    intro row
    split <;> rfl
  constructor
  · rw [List.pairwise_map]
    simpa only [hnumber] using h.ascending
  · intro row hrow
    obtain ⟨row', hrow', rfl⟩ := List.mem_map.1 hrow
    rw [hnumber]
    exact h.bounded row' hrow'

theorem Represents.stop (h : Represents t r) (hr : r.Numbered) (hn : t.sessions.Numbered)
    (s : Session) : ∃ t',
      run (stopSession r.clock s) t = ((run (Registry.stopSession s) r).1, t') ∧
      Represents t' (run (Registry.stopSession s) r).2 ∧ t'.sessions.Numbered := by
  rw [stopSession, run_transaction, run_bind_ok (run_get t), Registry.stopSession,
    run_bind_ok (run_get r), run_bind, run_bind, run_ofExcept, run_ofExcept, h.lookup]
  cases hfind : r.find? s with
  | none =>
    rw [Registry.lookup, hfind]
    exact ⟨t, rfl, h, hn⟩
  | some e =>
    have hsession := List.find?_some hfind
    obtain rfl : e.session = s := of_decide_eq_true hsession
    have hknown : e.session ∈ r.issued := List.mem_map_of_mem (List.mem_of_find?_eq_some hfind)
    rw [Registry.lookup, hfind]
    simp only
    cases e.active with
    | false => exact ⟨t, rfl, h, hn⟩
    | true => exact ⟨_, rfl, h.marked hr hknown, numbered_marked hn _⟩

/-! ## Histories -/

open Registry (Call TimedCall Outcome History issues running entryOf)

def perform (t : RegistryTables) (time : Int64) : Call → Outcome × RegistryTables
  | .start owner =>
    ((run (startSession time owner) t).1.map some, (run (startSession time owner) t).2)
  | .stop s => ((run (stopSession time s) t).1.map fun _ => none, (run (stopSession time s) t).2)
  | .reopen =>
    match t.reopen with
    | .ok t => (.ok none, t)
    | .error e => (.error e, t)

/-- The outcomes of calls in order, and the tables afterwards. -/
def performAll (t : RegistryTables) (calls : List TimedCall) : List Outcome × RegistryTables :=
  calls.foldl (fun x c => (x.1 ++ [(x.2.perform c.1 c.2).1], (x.2.perform c.1 c.2).2)) ([], t)

theorem Represents.setClock (h : Represents t r) (time : Int64) :
    Represents t (r.setClock time) :=
  { h with }

theorem Represents.perform (h : Represents t r) (hr : r.Numbered) (hn : t.sessions.Numbered)
    (c : Call) : ∃ t', t.perform r.clock c = ((c.run r).1, t') ∧ Represents t' (c.run r).2 ∧
      t'.sessions.Numbered := by
  cases c with
  | start owner =>
    cases hv : owner.validate with
    | error e =>
      have hrun : run (startSession r.clock owner) t = (.error e, t) := by
        rw [startSession, run_bind, run_ofExcept, hv]
      rw [RegistryTables.perform, hrun, Call.run, Registry.run_startSession_invalid r hv]
      exact ⟨t, rfl, h, hn⟩
    | ok u =>
      obtain ⟨t', hrun, ht'⟩ := h.started hn owner
      rw [RegistryTables.perform, hrun hv, Call.run, Registry.run_startSession r hv]
      exact ⟨t', rfl, ht'⟩
  | stop s =>
    obtain ⟨t', hrun, ht'⟩ := h.stop hr hn s
    rw [RegistryTables.perform, hrun, Call.run]
    exact ⟨t', rfl, ht'⟩
  | reopen =>
    have hsame : t.reopen = .ok t := by
      rw [reopen, h.version, hr.version, if_neg (by decide), ← hr.version, ← h.version]
    rw [RegistryTables.perform, hsame, Call.run, Registry.reopen_numbered hr]
    exact ⟨t, rfl, h, hn⟩

/-- Calls are answered by the tables as by the registry. -/
theorem represents_performAll (calls : List TimedCall) :
    let h := History.after calls
    (empty.performAll calls).1 = h.past.map Prod.snd ∧
      Represents (empty.performAll calls).2 h.registry ∧
      (empty.performAll calls).2.sessions.Numbered := by
  induction calls using List.reverseRecOn with
  | nil => exact ⟨rfl, represents_empty, Rows.numbered_empty⟩
  | append_singleton calls c ih =>
    obtain ⟨houtcomes, hrepresents, hnumbered⟩ := ih
    have htold := (Registry.told_after calls).setClock c.1
    obtain ⟨t', hrun, ht'⟩ := (hrepresents.setClock c.1).perform htold.numbered hnumbered c.2
    have hrun : (empty.performAll calls).2.perform c.1 c.2 = _ := hrun
    have hall : empty.performAll (calls ++ [c]) =
        ((empty.performAll calls).1 ++ [((empty.performAll calls).2.perform c.1 c.2).1],
          ((empty.performAll calls).2.perform c.1 c.2).2) := by
      rw [performAll, List.foldl_append]
      rfl
    rw [History.after_concat, hall, hrun, houtcomes]
    refine ⟨?_, ht'⟩
    rw [History.call, List.map_append]
    rfl

theorem calls_after (calls : List TimedCall) : (History.after calls).past.map Prod.fst = calls := by
  induction calls using List.reverseRecOn with
  | nil => rfl
  | append_singleton calls c ih =>
    rw [History.after_concat, History.call, List.map_append, ih]
    rfl

/-- After any calls at any times, the numbers of the sessions that were started ascend;
services, the instances of one and the sessions of one are listed once each and in order; a
session is known if it was started, with the times when it was started and when the first call
came that asked to stop it since, which succeeds; whatever fails changes nothing, and what
succeeds changes no other session. The tables say the same. -/
theorem registry_of_calls (calls : List TimedCall) :
    let h := History.after calls
    let r := h.registry
    let started := issues h.past
    h.past.map Prod.fst = calls ∧
      started.Pairwise (·.id < ·.id) ∧
      ((r.services.map Bytes.ofText).Pairwise (· < ·) ∧
        ∀ name, name ∈ r.services ↔ ∃ s ∈ started, s.owner.service = name) ∧
      (∀ service, ((r.instances service).map fun i => Bytes.ofText i.name).Pairwise (· < ·) ∧
        ∀ owner, owner ∈ r.instances service ↔
          owner.service = service ∧ ∃ s ∈ started, s.owner = owner) ∧
      (∀ owner, r.sessions owner =
        (started.filter (·.owner = owner)).map (entryOf h.past)) ∧
      (∀ s, r.lookup s =
        if s ∈ started then .ok (entryOf h.past s) else .error (.unknownSession s.key)) ∧
      (∀ s, (entryOf h.past s).active = running s h.past) ∧
      (∀ s, (∀ t, t ≠ s → (run (Registry.stopSession s) r).2.lookup t = r.lookup t) ∧
        if s ∈ started ∧ running s h.past = true
        then (run (Registry.stopSession s) r).1 = .ok ()
        else run (Registry.stopSession s) r =
          (.error (if s ∈ started then .alreadyStopped s.key else .unknownSession s.key), r)) ∧
      (∀ owner : Instance, match owner.validate with
        | .ok () => ∃ s, (run (Registry.startSession owner) r).1 = .ok s ∧ s.owner = owner ∧
            ∀ t ∈ started, t.id < s.id
        | .error e => run (Registry.startSession owner) r = (.error e, r)) ∧
      r.reopen = .ok r ∧
      let stored := empty.performAll calls
      stored.1 = h.past.map Prod.snd ∧ stored.2.serviceNames = r.services ∧
        (∀ service, stored.2.instancesOf service = r.instances service) ∧
        (∀ owner, stored.2.sessionsOf owner = r.sessions owner) ∧
        ∀ s, stored.2.lookup s = r.lookup s := by
  intro h r started
  have htold := Registry.told_after calls
  obtain ⟨houtcomes, hrepresents, hnumbered⟩ := represents_performAll calls
  refine ⟨calls_after calls, htold.ascending,
    ⟨Registry.pairwise_sortedNames _, fun name => htold.mem_services⟩,
    fun service => ⟨Registry.names_instances r service, fun owner => htold.mem_instances⟩,
    htold.sessions, htold.lookup, Registry.active_entryOf h.past,
    fun s => ⟨fun t ht => htold.lookup_stopped ht, ?_⟩,
    fun owner => ?_, Registry.reopen_numbered htold.numbered, houtcomes, hrepresents.serviceNames,
    hrepresents.instancesOf, hrepresents.sessionsOf hnumbered, hrepresents.lookup⟩
  · split
    case isTrue hs => rw [htold.stop hs.1 hs.2]
    case isFalse hs => exact htold.stop_refused hs
  · split
    case h_1 hv =>
      obtain ⟨_, hbelow, _⟩ := htold.start hv
      rw [Registry.run_startSession r hv]
      exact ⟨_, rfl, rfl, hbelow⟩
    case h_2 e hv => exact Registry.run_startSession_invalid r hv

end RegistryTables
end HeapTelemetry
