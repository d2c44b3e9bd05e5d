import HeapTelemetry.Proofs.Storage.Durable
import HeapTelemetry.Proofs.Storage.Users

/-! Several sessions on one storage, whatever its backend. Sessions are started, saved to and
closed in any order. What one of them reads as, and what is accepted of it, is the same
without all that was done with the others, if a backend keeps to a few obligations. -/

namespace HeapTelemetry
open Step SessionSeries

variable {B W : Type}

/-- A storage with the savers that are open and what was saved so far. -/
structure Tenants (B W : Type) where
  storage : Storage B
  savers : List (Saver W)
  saved : List (Session × Measurement)

namespace Tenants

/-- A use of the saver of a session; the device gives these answers to a close. -/
inductive Use
  | save (s : Session) (m : Measurement)
  | close (s : Session) (answers : List Verdict)

inductive Event
  | start (owner : Instance) (answers : List Verdict)
  | use (u : Use)

def Use.session : Use → Session
  | .save s _ | .close s _ => s

def Use.closes : Use → Nat
  | .save .. => 0
  | .close .. => 1

def Event.closes : Event → Nat
  | .start .. => 0
  | .use u => u.closes

def saver? (w : Tenants B W) (s : Session) : Option (Saver W) := w.savers.find? (·.session = s)

variable [Backend B W]

def saving (w : Tenants B W) (v : Saver W) (m : Measurement) : Tenants B W :=
  let r := run (Storage.save v m) w.storage
  { w with storage := r.2, saved := w.saved ++ Storage.taken v m r.1 }

def closing (w : Tenants B W) (v : Saver W) (answers : List Verdict) : Tenants B W :=
  { w with
    storage := (run (Storage.closeSaver v) (w.storage.expecting answers)).2.expecting []
    savers := w.savers.filter (·.session ≠ v.session) }

/-- A session without an open saver cannot be used. -/
def use (w : Tenants B W) : Use → Tenants B W
  | .save s m => (w.saver? s).elim w fun v => w.saving v m
  | .close s answers => (w.saver? s).elim w fun v => w.closing v answers

def happen (w : Tenants B W) : Event → Tenants B W
  | .start owner answers =>
    let r := run (Storage.openSaver owner) (w.storage.expecting answers)
    { w with storage := r.2.expecting [], savers := r.1.toOption.toList ++ w.savers }
  | .use u => w.use u

def useAll (w : Tenants B W) (uses : List Use) : Tenants B W := uses.foldl use w

def runAll (w : Tenants B W) (events : List Event) : Tenants B W := events.foldl happen w

/-! ## Savers -/

section Savers
variable {w : Tenants B W} {v : Saver W} {s : Session}

/-- Every saver has an issued session of its own. -/
def Held (w : Tenants B W) : Prop := ∃ earlier, w.storage.Accounts earlier w.savers 0

omit [Backend B W] in
theorem Held.distinct (h : w.Held) : (w.savers.map Saver.session).Nodup := by
  obtain ⟨_, haccounts⟩ := h
  exact haccounts.active.nodup_iff.1 (haccounts.numbered.nodup_active.filter _)

omit [Backend B W] in
theorem Held.issued (h : w.Held) : ∀ v ∈ w.savers, v.session ∈ w.storage.registry.issued := by
  obtain ⟨_, haccounts⟩ := h
  intro v hv
  have hactive := haccounts.active.mem_iff.2 (List.mem_map_of_mem hv)
  exact Registry.active_subset_issued (List.mem_filter.1 hactive).1

omit [Backend B W] in
/-- The saver of a session is the only one of it. -/
theorem Held.perm (h : w.Held) (hv : v ∈ w.savers) :
    w.savers.Perm (v :: w.savers.filter (·.session ≠ v.session)) := by
  obtain ⟨before, after, hsplit⟩ := List.append_of_mem hv
  have hd := h.distinct
  rw [hsplit, List.map_append, List.map_cons, List.nodup_middle, List.nodup_cons] at hd
  have hothers : ∀ x ∈ before ++ after, x.session ≠ v.session := by
    intro x hx heq
    refine hd.1 ?_
    rw [← List.map_append, ← heq]
    exact List.mem_map_of_mem hx
  have hfilter : w.savers.filter (·.session ≠ v.session) = before ++ after := by
    rw [hsplit, List.filter_append, List.filter_cons_of_neg (by simp), ← List.filter_append]
    exact List.filter_eq_self.2 fun x hx => decide_eq_true (hothers x hx)
  rw [hfilter, hsplit]
  exact List.perm_middle

theorem Held.start (h : w.Held) (owner : Instance) (answers : List Verdict) :
    (w.happen (.start owner answers)).Held := by
  obtain ⟨earlier, haccounts⟩ := h
  have hfacing : (w.storage.expecting answers).Accounts earlier w.savers 0 :=
    haccounts.congr rfl rfl
  exact ⟨earlier, (hfacing.openSaver owner).congr rfl rfl⟩

theorem Held.saving (h : w.Held) (v : Saver W) (m : Measurement) : (w.saving v m).Held := by
  obtain ⟨earlier, haccounts⟩ := h
  exact ⟨earlier, haccounts.congr rfl rfl⟩

theorem Held.closing (h : w.Held) (hv : v ∈ w.savers) (answers : List Verdict) :
    (w.closing v answers).Held := by
  obtain ⟨earlier, haccounts⟩ := h
  have hfacing : (w.storage.expecting answers).Accounts earlier
      (v :: w.savers.filter (·.session ≠ v.session)) 0 :=
    (haccounts.perm (Held.perm ⟨earlier, haccounts⟩ hv)).congr rfl rfl
  exact ⟨earlier, hfacing.closeSaver.congr rfl rfl⟩

theorem issued_closing (w : Tenants B W) (v : Saver W) (answers : List Verdict) :
    (w.closing v answers).storage.registry.issued = w.storage.registry.issued := by
  have hissued := (Registry.run_stopSession w.storage.registry v.session).1
  rw [closing, Storage.closeSaver_eq]
  exact hissued

theorem issued_use (w : Tenants B W) (u : Use) :
    (w.use u).storage.registry.issued = w.storage.registry.issued := by
  cases u with
  | save s m =>
    rw [use]
    cases w.saver? s <;> rfl
  | close s answers =>
    rw [use]
    cases w.saver? s with
    | none => rfl
    | some v => exact issued_closing w v answers

omit [Backend B W] in
theorem saver?_eq_some (h : w.saver? s = some v) : v ∈ w.savers ∧ v.session = s :=
  ⟨List.mem_of_find?_eq_some h, by simpa using List.find?_some h⟩

end Savers

/-! ## Isolation -/

/-- Two storages that a session cannot tell apart: it has the same saver, what was accepted
of it is the same, and it reads the same. -/
structure Alike (s : Session) (w w' : Tenants B W) : Prop where
  saver : w.saver? s = w'.saver? s
  accepted : acceptedOf s w.saved = acceptedOf s w'.saved
  reads : w.storage.read s = w'.storage.read s

/-- What a backend has to keep, and what a save or a close may change. `Inv n` allows for
`n` more closes. -/
structure Isolating (Inv : Nat → Tenants B W → Prop) : Prop where
  held {n w} : Inv n w → w.Held
  fewer {n w} : Inv (n + 1) w → Inv n w
  start {n w} : Inv n w → ∀ owner answers, Inv n (w.happen (.start owner answers))
  saving {n w} : Inv n w → ∀ v ∈ w.savers, ∀ m, Inv n (w.saving v m)
  closing {n w} : Inv (n + 1) w → ∀ v ∈ w.savers, ∀ answers, Inv n (w.closing v answers)
  saved {n w} : Inv n w → ∀ v ∈ w.savers, ∀ s ∈ w.storage.registry.issued, s ≠ v.session →
    ∀ m, (w.saving v m).storage.read s = w.storage.read s
  closed {n w} : Inv (n + 1) w → ∀ v ∈ w.savers, ∀ s ∈ w.storage.registry.issued,
    ∀ answers, (w.closing v answers).storage.read s = w.storage.read s
  own {n n' w w'} : Inv n w → Inv n' w' → ∀ v ∈ w.savers, v ∈ w'.savers →
    Alike v.session w w' → ∀ m,
      (run (Storage.save v m) w.storage).1.toOption =
        (run (Storage.save v m) w'.storage).1.toOption ∧
      (w.saving v m).storage.read v.session = (w'.saving v m).storage.read v.session

section Runs
variable {Inv : Nat → Tenants B W → Prop} {n n' : Nat} {w w' : Tenants B W} {s : Session}

omit [Backend B W] in
theorem taken_of_toOption (v : Saver W) (m : Measurement) {r r' : Except Error Unit}
    (h : r.toOption = r'.toOption) : Storage.taken v m r = Storage.taken v m r' := by
  cases r <;> cases r' <;> simp_all [Storage.taken, Except.toOption]

omit [Backend B W] in
theorem acceptedOf_taken (s : Session) (saved : List (Session × Measurement)) (v : Saver W)
    (m : Measurement) (r : Except Error Unit) : acceptedOf s (saved ++ Storage.taken v m r) =
      acceptedOf s saved ++ if v.session = s then (Storage.taken v m r).map Prod.snd else [] := by
  cases r with
  | error e => simp [Storage.taken]
  | ok u =>
    by_cases hs : v.session = s
    · simp [Storage.taken, acceptedOf, hs]
    · simp [Storage.taken, acceptedOf, hs]

omit [Backend B W] in
theorem saver?_filter (w : Tenants B W) (s t : Session) :
    (w.savers.filter (·.session ≠ t)).find? (·.session = s) =
      if s = t then none else w.saver? s := by
  rw [List.find?_filter, saver?]
  split
  · rename_i hst
    simp [hst]
  · rename_i hst
    congr 1
    funext v
    by_cases hv : v.session = s <;> simp [hv, hst]

theorem Isolating.use (h : Isolating Inv) {u : Use} (hw : Inv (n + u.closes) w) :
    Inv n (w.use u) := by
  cases u with
  | save s m =>
    rw [Tenants.use]
    cases hv : w.saver? s with
    | none => exact hw
    | some v => exact h.saving hw v (saver?_eq_some hv).1 m
  | close s answers =>
    rw [Tenants.use]
    cases hv : w.saver? s with
    | none => exact h.fewer hw
    | some v => exact h.closing hw v (saver?_eq_some hv).1 answers

/-- A use of another session's saver changes nothing for a session. -/
theorem Isolating.elsewhere (h : Isolating Inv) {u : Use} (hw : Inv (n + u.closes) w)
    (hs : s ∈ w.storage.registry.issued) (hother : u.session ≠ s) : Alike s (w.use u) w := by
  cases u with
  | save t m =>
    rw [Tenants.use]
    cases hv : w.saver? t with
    | none => exact ⟨rfl, rfl, rfl⟩
    | some v =>
      obtain ⟨hmem, rfl⟩ := saver?_eq_some hv
      have hother : v.session ≠ s := hother
      refine ⟨rfl, ?_, h.saved hw v hmem s hs (Ne.symm hother) m⟩
      refine (acceptedOf_taken s w.saved v m _).trans ?_
      rw [if_neg hother, List.append_nil]
  | close t answers =>
    rw [Tenants.use]
    cases hv : w.saver? t with
    | none => exact ⟨rfl, rfl, rfl⟩
    | some v =>
      obtain ⟨hmem, rfl⟩ := saver?_eq_some hv
      exact ⟨(saver?_filter w s _).trans (if_neg (Ne.symm hother)), rfl,
        h.closed hw v hmem s hs answers⟩

/-- A use of a session's own saver has the same effect on it in both storages. -/
theorem Isolating.both (h : Isolating Inv) {u : Use} (hw : Inv (n + u.closes) w)
    (hw' : Inv (n' + u.closes) w') (hs : u.session ∈ w.storage.registry.issued)
    (hs' : u.session ∈ w'.storage.registry.issued) (ha : Alike u.session w w') :
    Alike u.session (w.use u) (w'.use u) := by
  cases u with
  | save t m =>
    have hsaver : w.saver? t = w'.saver? t := ha.saver
    rw [Tenants.use, Tenants.use, ← hsaver]
    cases hv : w.saver? t with
    | none => exact ha
    | some v =>
      obtain ⟨hmem, rfl⟩ := saver?_eq_some hv
      have hmem' := (saver?_eq_some (hsaver ▸ hv)).1
      obtain ⟨hsame, hreads⟩ := h.own hw hw' v hmem hmem' ha m
      refine ⟨hsaver, ?_, hreads⟩
      show acceptedOf v.session (w.saved ++ _) = acceptedOf v.session (w'.saved ++ _)
      rw [acceptedOf_taken, acceptedOf_taken, taken_of_toOption v m hsame]
      exact congrArg (· ++ _) ha.accepted
  | close t answers =>
    have hsaver : w.saver? t = w'.saver? t := ha.saver
    rw [Tenants.use, Tenants.use, ← hsaver]
    cases hv : w.saver? t with
    | none => exact ha
    | some v =>
      obtain ⟨hmem, rfl⟩ := saver?_eq_some hv
      have hmem' := (saver?_eq_some (hsaver ▸ hv)).1
      refine ⟨?_, ha.accepted, ?_⟩
      · exact ((saver?_filter w _ _).trans (if_pos rfl)).trans
          ((saver?_filter w' _ _).trans (if_pos rfl)).symm
      · exact (h.closed hw v hmem _ hs answers).trans
          (ha.reads.trans (h.closed hw' v hmem' _ hs' answers).symm)

/-- What is done with other sessions is not seen by a session. -/
theorem Isolating.useAll (h : Isolating Inv) {uses : List Use}
    (hw : Inv (n + (uses.map Use.closes).sum) w) (hw' : Inv (n' + (uses.map Use.closes).sum) w')
    (hs : s ∈ w.storage.registry.issued) (hs' : s ∈ w'.storage.registry.issued)
    (ha : Alike s w w') : Alike s (w.useAll uses) (w'.useAll (uses.filter (·.session = s))) := by
  induction uses generalizing n n' w w' with
  | nil => exact ha
  | cons u uses ih =>
    rw [List.map_cons, List.sum_cons, Nat.add_comm u.closes, ← Nat.add_assoc] at hw hw'
    have hnext := h.use hw
    have hissued : s ∈ (w.use u).storage.registry.issued := issued_use w u ▸ hs
    by_cases hu : u.session = s
    · subst hu
      rw [List.filter_cons_of_pos (by simp)]
      exact ih hnext (h.use hw') hissued (issued_use w' u ▸ hs') (h.both hw hw' hs hs' ha)
    · rw [List.filter_cons_of_neg (by simpa using hu)]
      have hother := h.elsewhere hw hs hu
      have hfewer : Inv (n' + (uses.map Use.closes).sum) w' := by
        cases u with
        | save _ _ => exact hw'
        | close _ _ => exact h.fewer hw'
      exact ih hnext hfewer hissued hs' ⟨hother.saver.trans ha.saver,
        hother.accepted.trans ha.accepted, hother.reads.trans ha.reads⟩

/-- A session is as if the others were not used. -/
theorem Isolating.alike_useAll (h : Isolating Inv) {uses : List Use}
    (hw : Inv (uses.map Use.closes).sum w) (hs : s ∈ w.storage.registry.issued) :
    Alike s (w.useAll uses) (w.useAll (uses.filter (·.session = s))) := by
  rw [← Nat.zero_add (uses.map Use.closes).sum] at hw
  exact h.useAll hw hw hs hs ⟨rfl, rfl, rfl⟩

theorem Isolating.runAll (h : Isolating Inv) {events : List Event}
    (hw : Inv (n + (events.map Event.closes).sum) w) : Inv n (w.runAll events) := by
  induction events generalizing w with
  | nil => exact hw
  | cons event events ih =>
    rw [List.map_cons, List.sum_cons, Nat.add_comm event.closes, ← Nat.add_assoc] at hw
    refine ih (w := w.happen event) ?_
    cases event with
    | start owner answers => exact h.start hw owner answers
    | use u => exact h.use hw

end Runs

/-! ## Durable backends -/

/-- The savers are held, and the storage keeps what was saved. -/
structure Kept (Inv : Nat → List (Session × Measurement) → List (Saver W) → Storage B → Prop)
    (n : Nat) (w : Tenants B W) : Prop where
  held : w.Held
  keeps : Inv n w.saved w.savers w.storage

section Durable
variable {Inv : Nat → List (Session × Measurement) → List (Saver W) → Storage B → Prop}
  {dataDir : Path} (hdur : Storage.Durable dataDir Inv) {n : Nat} {w : Tenants B W}
include hdur

theorem Kept.start (h : Kept Inv n w) (owner : Instance) (answers : List Verdict) :
    Kept Inv n (w.happen (.start owner answers)) :=
  ⟨h.held.start owner answers, (hdur.openSaver h.keeps answers owner).1⟩

theorem Kept.saving (h : Kept Inv n w) {v : Saver W} (hv : v ∈ w.savers) (m : Measurement) :
    Kept Inv n (w.saving v m) :=
  ⟨h.held.saving v m, (hdur.save h.keeps v hv m).1⟩

theorem Kept.closing (h : Kept Inv (n + 1) w) {v : Saver W} (hv : v ∈ w.savers)
    (answers : List Verdict) : Kept Inv n (w.closing v answers) :=
  ⟨h.held.closing hv answers,
    (hdur.closeSaver (hdur.perm h.keeps (h.held.perm hv)) answers).1⟩

end Durable
end Tenants
end HeapTelemetry
