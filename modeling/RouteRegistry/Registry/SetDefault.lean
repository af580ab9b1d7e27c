import RouteRegistry.Registry.Defaults

/-!
# Setting the default domain

`set_default_domain` rewrites the flags of all domains before it knows that the id is one
of theirs. The flags are a session's until the block commits, so an unknown id changes
nothing (`setDefaultDomain_atomic`).
-/

namespace RouteRegistry

open Relational UnitOfWork

/-- The store with one default, and every domain otherwise as it was. -/
def Store.withDefault (s : Store) (domainId : String) : Store :=
  { s with domains := s.domains.map fun d => { d with default := decide (d.id = domainId) } }

section WithDefault

variable {s : Store} {t : String}

/-- Rewriting the wrong flags rewrites them all. -/
theorem Store.withFlags_wrongFlags (s : Store) (t : String) :
    s.withFlags (s.wrongFlags t) t = s.withDefault t := by
  unfold Store.withFlags Store.withDefault
  congr 1
  refine List.map_congr_left fun d hd => ?_
  by_cases hwrong : d.id ∈ s.wrongFlags t
  · rw [if_pos hwrong]
    rfl
  · rw [if_neg hwrong]
    have hright : d.default = decide (d.id = t) := by
      by_contra hne
      exact hwrong (Store.mem_wrongFlags.mpr ⟨d, hd, rfl, hne⟩)
    rw [← hright]

theorem Store.domainIds_withDefault (s : Store) (t : String) :
    (s.withDefault t).domainIds = s.domainIds := by
  unfold Store.domainIds Store.withDefault
  rw [List.map_map]
  rfl

/-- A default is the domain that was asked for. -/
theorem Store.default_withDefault {d : Domain} (hd : d ∈ (s.withDefault t).domains) :
    d.default = decide (d.id = t) := by
  obtain ⟨d₀, -, rfl⟩ := List.mem_map.mp hd
  rfl

/-- A stored domain becomes the only default, and is what `get_default` returns. -/
theorem Store.getDefault_withDefault (hv : (s.withDefault t).Valid) (ht : t ∈ s.domainIds) :
    ∃ d, d.id = t ∧ (s.withDefault t).defaults = [d] ∧
      DomainRepo.getDefault.run (s.withDefault t) = (.ok d, []) := by
  have hdefaults : (s.withDefault t).defaults =
      (s.withDefault t).domains.filter fun d => decide (d.id = t) :=
    List.filter_congr fun d hd => Store.default_withDefault hd
  rw [filter_key_eq_toList hv.domainKeys] at hdefaults
  have hfound : (lookup Domain.id t (s.withDefault t).domains).isSome := by
    rw [lookup_isSome_iff]
    show t ∈ (s.withDefault t).domainIds
    rw [Store.domainIds_withDefault]
    exact ht
  obtain ⟨d, hd⟩ := Option.isSome_iff_exists.mp hfound
  rw [hd] at hdefaults
  refine ⟨d, (lookup_mem hd).2, hdefaults, ?_⟩
  have hquery : (queryOne Store.domains Domain.default).run (s.withDefault t) =
      (scalarOneOrNone (s.withDefault t).defaults).run (s.withDefault t) := rfl
  rw [hdefaults] at hquery
  unfold DomainRepo.getDefault
  rw [Txn.run_bind_pure hquery]
  rfl

/-- **The session of `set_default_domain`**: the flags are queued whether or not the id is
known. -/
theorem run_setDefaultDomainBody (s : Store) (t : String) :
    (setDefaultDomainBody t).run s =
      (if t ∈ s.domainIds then .ok ()
        else .error ⟨.domainNotFound, s!"Unable to find domain with id {t}", none⟩,
        (s.wrongFlags t).map fun id => .setDomainDefault id (decide (id = t))) := by
  unfold setDefaultDomainBody DomainRepo.list
  rw [Txn.run_get_bind, Txn.run_bind_ok (run_forM_put s _), s.defaultChanges_eq]
  have hany : (s.domains.any fun d => decide (d.id = t)) = decide (t ∈ s.domainIds) := by
    simp [Store.domainIds, List.any_eq, eq_comm]
  rw [hany]
  by_cases ht : t ∈ s.domainIds
  · simp [ht]
  · simp [ht]

end WithDefault

/-- **Setting the default is atomic.** Whatever defaults there are, a stored id leaves its
domain as the only one, nothing else changed; an unknown id raises, and leaves every flag
as it was. -/
theorem setDefaultDomain_atomic (eng : Engine) (hrel : eng.Reliable) (db : Database)
    (domainId : String) :
    (domainId ∈ db.store.domainIds →
      ∃ db' d, setDefaultDomain eng domainId db = .ok () db' ∧
        db'.store = db.store.withDefault domainId ∧ d.id = domainId ∧
        db'.store.defaults = [d] ∧ DomainRepo.getDefault.run db'.store = (.ok d, [])) ∧
    (domainId ∉ db.store.domainIds →
      ∃ e, e.cls = .domainNotFound ∧ setDefaultDomain eng domainId db = .error e db) := by
  have hrun := run_setDefaultDomainBody db.store domainId
  constructor
  · intro ht
    rw [if_pos ht] at hrun
    have hwrong : ∀ id ∈ db.store.wrongFlags domainId, id ∈ db.store.domainIds := by
      intro id hid
      obtain ⟨d, hd, rfl, -⟩ := Store.mem_wrongFlags.mp hid
      exact List.mem_map.mpr ⟨d, hd, rfl⟩
    obtain ⟨db', hblock, hdb'⟩ :=
      withUOW_of_flush hrel hrun (flush_flags.mpr ⟨hwrong, rfl⟩)
    rw [Store.withFlags_wrongFlags] at hdb'
    obtain ⟨d, hid, hdefaults, hget⟩ :=
      Store.getDefault_withDefault (hdb' ▸ db'.valid) ht
    exact ⟨db', d, hblock, hdb', hid, hdb' ▸ hdefaults, hdb' ▸ hget⟩
  · intro ht
    rw [if_neg ht] at hrun
    exact ⟨_, rfl, withUOW_raised hrun⟩

/-- Two domains, both of them defaults. -/
def twoDefaults : Database := .load
  [.addDomain openDomain, .addDomain { openDomain with id := "e", name := "two", value := "b.org" }]

theorem setDefaultDomain_twoDefaults :
    twoDefaults.store.defaults.length = 2 ∧
      (∃ db' d, setDefaultDomain .sqlite "e" twoDefaults = .ok () db' ∧
        db'.store = twoDefaults.store.withDefault "e" ∧ d.id = "e" ∧
        db'.store.defaults = [d] ∧ DomainRepo.getDefault.run db'.store = (.ok d, [])) ∧
      ∃ e, e.cls = .domainNotFound ∧
        setDefaultDomain .sqlite "x" twoDefaults = .error e twoDefaults := by
  refine ⟨by decide, ?_, ?_⟩
  · exact (setDefaultDomain_atomic .sqlite Engine.sqlite_reliable twoDefaults "e").1 (by decide)
  · exact (setDefaultDomain_atomic .sqlite Engine.sqlite_reliable twoDefaults "x").2 (by decide)

end RouteRegistry
