import HeapTelemetry.Proofs.Storage.Admission

/-! Who uses a storage, whatever its backend. A saver stands for a session that is
active, and every saver and loader for one admission; who is refused or fails on the way
in leaves neither behind. -/

namespace HeapTelemetry
open Step

/-! ## Active sessions -/

namespace Registry

/-- The sessions that were started and not stopped. -/
def active (r : Registry) : List Session := (r.entries.filter (·.active)).map (·.session)

/-- The active sessions other than those of an earlier process. -/
def activeSince (r : Registry) (earlier : List Session) : List Session :=
  r.active.filter fun s => s ∉ earlier

theorem active_subset_issued {r : Registry} {s : Session} (h : s ∈ r.active) : s ∈ r.issued := by
  obtain ⟨e, he, rfl⟩ := List.mem_map.1 h
  exact List.mem_map.2 ⟨e, (List.mem_filter.1 he).1, rfl⟩

theorem Numbered.nodup_issued {r : Registry} (h : Numbered r) : r.issued.Nodup :=
  List.Nodup.of_map _ h.distinct

theorem Numbered.nodup_active {r : Registry} (h : Numbered r) : r.active.Nodup :=
  (List.filter_sublist.map _).nodup h.nodup_issued

/-- A session that is started is none of those that were issued before. -/
theorem Numbered.fresh {r : Registry} (h : Numbered r) (owner : Instance) :
    (⟨owner, (r.lastId + 1 : Nat)⟩ : Session) ∉ r.issued := by
  intro hs
  have hle := h.bounded _ hs
  simp only at hle
  omega

theorem active_started (r : Registry) (owner : Instance) :
    (r.started owner).active = r.active ++ [⟨owner, (r.lastId + 1 : Nat)⟩] := by
  simp [active, started, RegistryEntry.active]

theorem active_marked (entries : List RegistryEntry) (s : Session) (time : Timestamp) :
    ((entries.map fun e => if e.session = s then { e with finishedAt := some time } else e).filter
      (·.active)).map (·.session) =
        ((entries.filter (·.active)).map (·.session)).filter (· ≠ s) := by
  induction entries with
  | nil => rfl
  | cons e rest ih =>
    rw [List.map_cons]
    by_cases hs : e.session = s
    · rw [if_pos hs, List.filter_cons_of_neg (by simp [RegistryEntry.active]), ih]
      cases hactive : e.active <;> simp [hs, hactive]
    · rw [if_neg hs]
      cases hactive : e.active <;> simp [hs, hactive, ih]

/-- Whoever is stopped is the only one that is not active any more. -/
theorem active_stopSession {r : Registry} (h : Numbered r) (s : Session) :
    (run (stopSession s) r).2.active = r.active.filter (· ≠ s) := by
  have hentries : ∀ e ∈ r.entries, e.session = s → ∀ e' ∈ r.entries, e'.session = s → e = e' :=
    fun e he hs e' he' hs' => List.inj_on_of_nodup_map h.nodup_issued he he' (hs.trans hs'.symm)
  rw [stopSession, run_bind_ok (run_get r), run_bind, run_ofExcept, lookup]
  cases hfind : r.find? s with
  | none =>
    rw [find?, List.find?_eq_none] at hfind
    refine (List.filter_eq_self.2 fun t ht => ?_).symm
    obtain ⟨e, he, rfl⟩ := List.mem_map.1 ht
    simpa using hfind e (List.mem_filter.1 he).1
  | some e =>
    have he := List.mem_of_find?_eq_some hfind
    have hes : e.session = s := by simpa using List.find?_some hfind
    cases hactive : e.active with
    | false =>
      simp only [hactive]
      refine (List.filter_eq_self.2 fun t ht => ?_).symm
      obtain ⟨e', he', rfl⟩ := List.mem_map.1 ht
      obtain ⟨he', hactive'⟩ := List.mem_filter.1 he'
      refine decide_eq_true fun hs => ?_
      rw [hentries e' he' hs e he hes, hactive] at hactive'
      cases hactive'
    | true =>
      simp only [hactive, Bool.not_true, Bool.false_eq_true, ↓reduceIte, run_modify]
      exact active_marked r.entries s _

end Registry

/-! ## Accounts -/

/-- Once shutdown has begun it is not taken back, and users only leave. -/
def Lifecycle.Closes (l l' : Lifecycle) : Prop :=
  l.shutDown = true → l'.shutDown = true ∧ l'.inFlight ≤ l.inFlight

theorem Lifecycle.Closes.refl (l : Lifecycle) : l.Closes l := fun h => ⟨h, Nat.le_refl _⟩

theorem Lifecycle.Closes.trans {k l m : Lifecycle} (hkl : k.Closes l) (hlm : l.Closes m) :
    k.Closes m := fun h =>
  have hl := hkl h
  have hm := hlm hl.1
  ⟨hm.1, Nat.le_trans hm.2 hl.2⟩

theorem Lifecycle.closes_leave (l : Lifecycle) : l.Closes l.leave := fun h =>
  ⟨h, Nat.sub_le _ _⟩

namespace Storage
variable {B W : Type}

/-- Of the sessions that are not those of an earlier process, the active ones are those of
the savers; and every saver and loader is counted. -/
structure Accounts (earlier : List Session) (savers : List (Saver W)) (loaders : Nat)
    (st : Storage B) : Prop where
  numbered : st.registry.Numbered
  known : ∀ s ∈ earlier, s ∈ st.registry.issued
  active : (st.registry.activeSince earlier).Perm (savers.map Saver.session)
  inFlight : st.lifecycle.inFlight = savers.length + loaders

variable {earlier : List Session} {savers : List (Saver W)} {loaders : Nat} {st : Storage B}

theorem accounts_opened (backend : B) (disk : Disk) {registry : Registry} (h : registry.Numbered) :
    Accounts registry.issued ([] : List (Saver W)) 0
      ⟨backend, disk, registry, Lifecycle.initial⟩ where
  numbered := h
  known := fun _ hs => hs
  active := by
    have hnone : registry.activeSince registry.issued = [] :=
      List.filter_eq_nil_iff.2 fun s hs => by simpa using Registry.active_subset_issued hs
    rw [hnone]
    rfl
  inFlight := rfl

/-- Accounts are kept in the registry and the lifecycle alone. -/
theorem Accounts.congr (h : Accounts earlier savers loaders st) {st' : Storage B}
    (hregistry : st'.registry = st.registry)
    (hinFlight : st'.lifecycle.inFlight = st.lifecycle.inFlight) :
    Accounts earlier savers loaders st' :=
  ⟨hregistry ▸ h.numbered, hregistry ▸ h.known, hregistry ▸ h.active, hinFlight.trans h.inFlight⟩

theorem Accounts.perm (h : Accounts earlier savers loaders st) {savers' : List (Saver W)}
    (hperm : savers.Perm savers') : Accounts earlier savers' loaders st :=
  ⟨h.numbered, h.known, h.active.trans (hperm.map _), h.inFlight.trans (by rw [hperm.length_eq])⟩

theorem Accounts.closeLoader (h : Accounts earlier savers (loaders + 1) st) :
    Accounts earlier savers loaders (run Storage.closeLoader st).2 :=
  ⟨h.numbered, h.known, h.active, congrArg (· - 1) h.inFlight⟩

/-! ## Operations -/

variable [Backend B W]

/-- A session that was started and stopped again left its number, and is not active. -/
theorem active_undone {r : Registry} (h : r.Numbered) (owner : Instance) :
    (run (Registry.stopSession ⟨owner, (r.lastId + 1 : Nat)⟩) (r.started owner)).2.active =
      r.active := by
  rw [Registry.active_stopSession (h.started owner), Registry.active_started, List.filter_append]
  have hold : r.active.filter (· ≠ (⟨owner, (r.lastId + 1 : Nat)⟩ : Session)) = r.active := by
    refine List.filter_eq_self.2 fun s hs => decide_eq_true ?_
    rintro rfl
    exact h.fresh owner (Registry.active_subset_issued hs)
  rw [hold]
  simp

theorem Accounts.openSaver (h : Accounts earlier savers loaders st) (owner : Instance) :
    let r := run (Storage.openSaver owner) st
    Accounts earlier (r.1.toOption.toList ++ savers) loaders r.2 := by
  rw [openSaver_eq]
  split
  · exact h
  cases owner.validate with
  | error e => exact h
  | ok u =>
    have hissued : ∀ s ∈ earlier, s ∈ (st.registry.started owner).issued := fun s hs =>
      Registry.issued_started st.registry owner ▸ List.mem_append_left _ (h.known s hs)
    have hnew : (⟨owner, (st.registry.lastId + 1 : Nat)⟩ : Session) ∉ earlier := fun hs =>
      h.numbered.fresh owner (h.known _ hs)
    simp only
    cases run (Backend.create (⟨owner, (st.registry.lastId + 1 : Nat)⟩ : Session))
        (st.backend, st.disk) with
    | mk r x =>
      cases r with
      | ok writer =>
        refine ⟨h.numbered.started owner, hissued, ?_, ?_⟩
        · have hkept : [(⟨owner, (st.registry.lastId + 1 : Nat)⟩ : Session)].filter
              (fun s => s ∉ earlier) = [⟨owner, (st.registry.lastId + 1 : Nat)⟩] :=
            List.filter_cons_of_pos (decide_eq_true hnew)
          simp only [holding, Registry.activeSince, Registry.active_started, List.filter_append,
            hkept]
          exact List.perm_append_comm.trans (h.active.cons _)
        · simp only [holding, Lifecycle.enter, h.inFlight, Except.toOption, Option.toList_some,
            List.cons_append, List.nil_append, List.length_cons]
          omega
      | error e =>
        obtain ⟨hsame, hlast, hversion⟩ := Registry.run_stopSession (st.registry.started owner)
          ⟨owner, (st.registry.lastId + 1 : Nat)⟩
        refine ⟨(h.numbered.started owner).congr hsame hlast hversion, ?_, ?_, h.inFlight⟩
        · simp only [holding, hsame]
          exact hissued
        · simp only [holding, Registry.activeSince, active_undone h.numbered]
          exact h.active

theorem Accounts.closeSaver {v : Saver W} (h : Accounts earlier (v :: savers) loaders st) :
    Accounts earlier savers loaders (run (Storage.closeSaver v) st).2 := by
  obtain ⟨hsame, hlast, hversion⟩ := Registry.run_stopSession st.registry v.session
  rw [closeSaver_eq]
  refine ⟨h.numbered.congr hsame hlast hversion, ?_, ?_, ?_⟩
  · simp only [holding, hsame]
    exact h.known
  · have hd : (v.session :: savers.map Saver.session).Nodup :=
      h.active.nodup_iff.1 (h.numbered.nodup_active.filter _)
    obtain ⟨hv, _⟩ := List.nodup_cons.1 hd
    have hrest : (v.session :: savers.map Saver.session).filter (· ≠ v.session) =
        savers.map Saver.session := by
      rw [List.filter_cons_of_neg (by simp)]
      refine List.filter_eq_self.2 fun s hs => decide_eq_true ?_
      rintro rfl
      exact hv hs
    simp only [holding, Registry.activeSince, Registry.active_stopSession h.numbered]
    rw [List.filter_comm, ← hrest]
    exact h.active.filter _
  · have hinFlight := h.inFlight
    simp only [List.length_cons] at hinFlight
    simp only [holding, Lifecycle.leave]
    omega

theorem Accounts.openLoader (h : Accounts earlier savers loaders st) (s : Session) :
    let r := run (Storage.openLoader s) st
    Accounts earlier savers (loaders + r.1.toOption.toList.length) r.2 := by
  rw [openLoader_eq]
  split
  · exact h
  cases st.registry.lookup s with
  | error e => exact h
  | ok e =>
    simp only
    cases run (Backend.locate s) (st.backend, st.disk) with
    | mk r x =>
      cases r with
      | ok u =>
        refine ⟨h.numbered, h.known, h.active, ?_⟩
        exact (congrArg (· + 1) h.inFlight).trans (Nat.add_assoc _ _ _)
      | error e => exact h.congr rfl rfl

theorem Accounts.shutDown (h : Accounts earlier savers loaders st) :
    Accounts earlier savers loaders (run Storage.shutDown st).2 := by
  obtain ⟨x, hst⟩ := shutDown_eq st
  exact hst ▸ h.congr rfl rfl

/-- Who does not get in as a saver leaves no active session and is not counted. -/
theorem openSaver_failed {e : Error} (hst : st.registry.Numbered) {owner : Instance}
    (h : (run (Storage.openSaver owner) st).1 = .error e) :
    let st' := (run (Storage.openSaver owner) st).2
    st'.registry.active = st.registry.active ∧ st'.lifecycle = st.lifecycle := by
  rw [openSaver_eq] at h ⊢
  cases hshut : st.lifecycle.shutDown with
  | true => exact ⟨rfl, rfl⟩
  | false =>
    simp only [hshut, Bool.false_eq_true, ↓reduceIte] at h ⊢
    cases hvalid : owner.validate with
    | error e => exact ⟨rfl, rfl⟩
    | ok u =>
      simp only [hvalid] at h ⊢
      cases hcreate : run (Backend.create (⟨owner, (st.registry.lastId + 1 : Nat)⟩ : Session))
          (st.backend, st.disk) with
      | mk r x =>
        rw [hcreate] at h
        cases r with
        | ok writer => cases h
        | error e => exact ⟨active_undone hst owner, rfl⟩

/-- Nor is who does not get in as a loader, and the registry stays as it is. -/
theorem openLoader_failed {e : Error} {s : Session}
    (h : (run (Storage.openLoader s) st).1 = .error e) :
    let st' := (run (Storage.openLoader s) st).2
    st'.registry = st.registry ∧ st'.lifecycle = st.lifecycle := by
  rw [openLoader_eq] at h ⊢
  cases hshut : st.lifecycle.shutDown with
  | true => exact ⟨rfl, rfl⟩
  | false =>
    simp only [hshut, Bool.false_eq_true, ↓reduceIte] at h ⊢
    cases hlookup : st.registry.lookup s with
    | error e => exact ⟨rfl, rfl⟩
    | ok e =>
      simp only [hlookup] at h ⊢
      cases hlocate : run (Backend.locate s) (st.backend, st.disk) with
      | mk r x =>
        rw [hlocate] at h
        cases r with
        | ok u => cases h
        | error e => exact ⟨rfl, rfl⟩

/-- Once shutdown has begun, nobody gets in any more and nothing is registered. -/
theorem refused_of_shutDown (h : st.lifecycle.shutDown = true) :
    (∀ owner, run (Storage.openSaver owner : Step (Storage B) (Saver W)) st = (.error .shutDown, st)) ∧
      ∀ s, run (Storage.openLoader s) st = (.error .shutDown, st) := by
  refine ⟨fun owner => ?_, fun s => ?_⟩
  · rw [openSaver_eq, if_pos h]
  · rw [openLoader_eq, if_pos h]

theorem closes_openSaver (st : Storage B) (owner : Instance) : st.lifecycle.Closes
    (run (Storage.openSaver owner : Step (Storage B) (Saver W)) st).2.lifecycle := fun h => by
  rw [(refused_of_shutDown h).1]
  exact Lifecycle.Closes.refl _ h

theorem closes_openLoader (st : Storage B) (s : Session) :
    st.lifecycle.Closes (run (Storage.openLoader s) st).2.lifecycle := fun h => by
  rw [(refused_of_shutDown h).2]
  exact Lifecycle.Closes.refl _ h

theorem closes_closeSaver (st : Storage B) (v : Saver W) :
    st.lifecycle.Closes (run (Storage.closeSaver v) st).2.lifecycle := by
  rw [closeSaver_eq]
  exact Lifecycle.closes_leave _

theorem closes_shutDown (st : Storage B) :
    st.lifecycle.Closes (run Storage.shutDown st).2.lifecycle := by
  obtain ⟨x, hst⟩ := shutDown_eq st
  rw [hst]
  exact fun _ => ⟨rfl, Nat.le_refl _⟩

/-! ### Opening -/

theorem openAt_ok {dataDir : Path} {syncWrite : Bool} {registry : Registry} {disk disk' : Disk}
    (h : registry.Numbered) (hopen : openAt dataDir syncWrite registry disk = (.ok st, disk')) :
    st.registry = registry ∧ st.lifecycle = Lifecycle.initial := by
  rw [openAt, Registry.reopen_numbered h] at hopen
  simp only at hopen
  cases hrun : run (Backend.openAt dataDir syncWrite : Step Disk B) disk with
  | mk r d =>
    rw [hrun] at hopen
    cases r with
    | error e => cases hopen
    | ok b =>
      cases hopen
      exact ⟨rfl, rfl⟩

end Storage
end HeapTelemetry
