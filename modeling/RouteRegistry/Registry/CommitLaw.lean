import RouteRegistry.Registry.Communities
import RouteRegistry.Registry.Registration
import RouteRegistry.Registry.Transactions
import RouteRegistry.Registry.Updates

/-!
# The commit law

A block that ends normally should have committed what it queued. The handler around the
commit lets a `NOT NULL` or `FOREIGN KEY` violation pass, so the law holds of a block
exactly when its session cannot violate one.

- `Refused`: the session ends normally, and its flush violates such a constraint.
- `Change.Safe`: a change that violates none in any store. Most blocks queue only these
  (`Transaction.not_refused_of_safe`).
- `Transaction.Breaks`: for the other blocks, the stores and arguments that do it
  (`Transaction.refused_iff`).
- `commitLaw_iff` puts the two together.
-/

namespace RouteRegistry

open Relational UnitOfWork

/-! ## Refused commits -/

section Refused

variable {α : Type} {eng : Engine} {body : Session α} {db : Database} {s : Store}

/-- The session ends normally and violates a `NOT NULL` or `FOREIGN KEY` constraint. -/
def Refused (s : Store) (body : Session α) : Prop :=
  ∃ a Δ k, body.run s = (.ok a, Δ) ∧ flush s Δ = .error (.integrity k) ∧ k ≠ .unique

/-- A block whose session is not refused obeys the law, whatever the engine. -/
theorem commitOrRaise_of_not_refused (h : ¬ Refused db.store body) :
    (makeSqlUow eng).CommitOrRaise body db := by
  refine Scope.commitOrRaise_iff.mpr fun a Δ c hrun hc hh => h ?_
  obtain ⟨k, hk, hf, -⟩ := swallowed_cases hc hh
  exact ⟨a, Δ, k, hrun, hf, hk⟩

/-- SQLite breaks the law on every refused session: no text of it says `unique`. -/
theorem not_commitOrRaise_of_refused (h : Refused db.store body) :
    ¬ (makeSqlUow .sqlite).CommitOrRaise body db := by
  obtain ⟨a, Δ, k, hrun, hf, hk⟩ := h
  intro hlaw
  refine Scope.commitOrRaise_iff.mp hlaw a Δ _ hrun (sqliteCommit_of_integrity hf) ?_
  cases k with
  | unique => exact absurd rfl hk
  | notNull => decide
  | foreignKey => decide

end Refused

/-! ## Blocks that are never refused -/

/-- A block that queues only safe changes is never refused. -/
theorem Transaction.not_refused_of_safe {setup : Setup} {now : Time} {t : Transaction}
    (h : ∀ c, t.mayQueue now c → c.Safe) (s : Store) : ¬ Refused s (t.body eng setup now) := by
  rintro ⟨a, Δ, k, hrun, hf, hk⟩
  have hΔ := (t.body_queues eng setup now).run s
  rw [hrun] at hΔ
  exact hk (flush_safe (fun c hc => h c (hΔ c hc)) hf)

section Sessions

variable {α : Type} {body : Session α} {s s' : Store} {a : α} {e : Exc} {Δ : List Change}

theorem refused_iff_of_run (h : body.run s = (.ok a, Δ)) :
    Refused s body ↔
      flush s Δ = .error (.integrity .notNull) ∨ flush s Δ = .error (.integrity .foreignKey) := by
  constructor
  · rintro ⟨a', Δ', k, hrun, hf, hk⟩
    cases h.symm.trans hrun
    cases k with
    | unique => exact absurd rfl hk
    | notNull => exact .inl hf
    | foreignKey => exact .inr hf
  · rintro (hf | hf)
    · exact ⟨a, Δ, _, h, hf, by decide⟩
    · exact ⟨a, Δ, _, h, hf, by decide⟩

theorem not_refused_of_raised (h : body.run s = (.error e, Δ)) : ¬ Refused s body := by
  rintro ⟨a', Δ', k, hrun, -, -⟩
  cases h.symm.trans hrun

theorem not_refused_of_flush (h : body.run s = (.ok a, Δ)) (hf : flush s Δ = .ok s') :
    ¬ Refused s body := by
  rintro ⟨a', Δ', k, hrun, hf', -⟩
  cases h.symm.trans hrun
  cases hf.symm.trans hf'

end Sessions

/-- New rules for a route, and attributes that name no community, violate at most the
key of `rule`. -/
theorem flush_rules_attrs {s : Store} (hv : s.Valid) {id : String} {authz : Authorization}
    {rules : List Rule} {as : List RouteAttr} {k : ConstraintKind} (hid : id ∈ s.routeIds)
    (hset : s.ruleSet id authz = .ok rules) (has : ∀ a ∈ as, a.newCommunity = none)
    (hf : flush s ((.deleteRules id :: rules.map .addRule) ++ as.map (.setRoute id)) =
      .error (.integrity k)) : k = .unique := by
  obtain ⟨hroute, hent⟩ := Store.ruleSet_mem hset
  have hrules := flush_replaceRules hv hid hroute hent
  by_cases hk : Keyed Rule.entityId rules
  · rw [if_pos hk] at hrules
    rw [flush_append_ok hrules] at hf
    refine flush_safe (fun c hc => Change.safe_of_uniqueOnly ?_) hf
    obtain ⟨a, ha, rfl⟩ := List.mem_map.mp hc
    exact has a ha
  · rw [if_neg hk] at hrules
    rw [flush_append_error hrules] at hf
    cases hf
    rfl

namespace Transaction

variable {setup : Setup} {now : Time} {s : Store}

theorem not_refused_createCommunity (hv : s.Valid) (user : User) (community : Community) :
    ¬ Refused s (createCommunityBody user community) := by
  have hrun := run_createCommunityBody hv user community
  cases hu : s.userOf user.uid with
  | none =>
    rw [hu] at hrun
    exact not_refused_of_raised hrun
  | some u =>
    rw [hu] at hrun
    have hstored : u.id ∈ s.entityIds := Store.user_mem_entityIds (lookup_mem hu).1
    rw [refused_iff_of_run hrun, flush_single]
    simp only [Change.apply, check_bind_eq_error, pure_ne_error]
    grind

theorem not_refused_updateRoute (hv : s.Valid) (routeId : String) (fetch : Fetch) :
    ¬ Refused s (updateRouteBody routeId fetch setup.schema now) := by
  have hrun := run_updateRouteBody hv routeId fetch setup.schema now
  cases hr : s.routeOf routeId with
  | none =>
    rw [hr] at hrun
    exact not_refused_of_raised hrun
  | some route =>
    have hid : routeId ∈ s.routeIds := Store.mem_routeIds_iff.mpr ⟨route, hr⟩
    rw [hr] at hrun
    cases href : s.refreshed setup.schema routeId fetch with
    | ok rules =>
      rw [href] at hrun
      obtain ⟨data, authz, -, -, -, hset⟩ := Store.refreshed_ok href
      rintro ⟨a, Δ, k, hrun', hf, hk⟩
      cases hrun.symm.trans hrun'
      exact hk (flush_rules_attrs hv hid hset (refreshedAttrs_plain now) hf)
    | error e =>
      rw [href] at hrun
      cases hst : failureStatus e with
      | none =>
        simp only [hst] at hrun
        exact not_refused_of_raised hrun
      | some st =>
        simp only [hst] at hrun
        exact not_refused_of_flush hrun (flush_status hid st)

/-- The end of `validate_route`: the rules are stored and three attributes set. -/
theorem run_validateStored_cases (s : Store) (bcrypt : Bcrypt) (route : Route) (fetch : Fetch)
    (schema : Json.Schema) (now : Time) :
    (∃ e Δ, (validateStored bcrypt route fetch schema now).run s = (.error e, Δ)) ∨
      ∃ authz rules, s.ruleSet route.id authz = .ok rules ∧
        (validateStored bcrypt route fetch schema now).run s =
          (.ok (), (.deleteRules route.id :: rules.map .addRule) ++
            [RouteAttr.verificationStatus .verified, .status .up, .lastContact now].map
              (.setRoute route.id)) := by
  unfold validateStored
  cases fetchAuthorization fetch schema with
  | error e => exact .inl ⟨e, [], rfl⟩
  | ok data =>
    rw [Txn.run_ofExcept_ok_bind]
    cases plainToken data with
    | error e => exact .inl ⟨e, [], rfl⟩
    | ok token =>
      rw [Txn.run_ofExcept_ok_bind]
      cases bcrypt.checkpw token route.token with
      | error e => exact .inl ⟨e, [], rfl⟩
      | ok matched =>
        rw [Txn.run_ofExcept_ok_bind]
        cases matched with
        | false => exact .inl ⟨_, [], rfl⟩
        | true =>
          cases hauth : Authorization.ofData data with
          | error e => exact .inl ⟨e, [], rfl⟩
          | ok authz =>
            have hstore := run_storeRules s route authz
            cases hset : s.ruleSet route.id authz with
            | error e =>
              rw [hset] at hstore
              exact .inl ⟨e, [], (Txn.run_bind_error hstore :)⟩
            | ok rules =>
              rw [hset] at hstore
              exact .inr ⟨authz, rules, hset, (Txn.run_bind_ok hstore :)⟩

theorem not_refused_validateRoute (hv : s.Valid) (routeId : String) (fetch : Fetch) :
    ¬ Refused s (validateRouteBody setup.bcrypt routeId fetch setup.schema now) := by
  cases hr : s.routeOf routeId with
  | none =>
    have hbody : (validateRouteBody setup.bcrypt routeId fetch setup.schema now).run s =
        (.error (noneAttributeError "dst"), []) := by
      unfold validateRouteBody
      rw [Txn.run_bind_pure (RouteRepo.run_get hv routeId), hr]
      rfl
    exact not_refused_of_raised hbody
  | some route =>
    have hbody : (validateRouteBody setup.bcrypt routeId fetch setup.schema now).run s =
        (validateStored setup.bcrypt route fetch setup.schema now).run s := by
      unfold validateRouteBody
      rw [Txn.run_bind_pure (RouteRepo.run_get hv routeId), hr]
    obtain ⟨hmem, rfl⟩ := Store.routeOf_mem hr
    rcases run_validateStored_cases s setup.bcrypt route fetch setup.schema now with
      ⟨e, Δ, hrun⟩ | ⟨authz, rules, hset, hrun⟩
    · exact not_refused_of_raised (hbody.trans hrun)
    · rintro ⟨a, Δ, k, hrun', hf, hk⟩
      cases (hbody.trans hrun).symm.trans hrun'
      refine hk (flush_rules_attrs hv (List.mem_map.mpr ⟨route, hmem, rfl⟩) hset ?_ hf)
      simp [RouteAttr.newCommunity]

end Transaction

/-! ## Blocks that can be refused -/

/-- The entity owns a community, and no rule or request names it. -/
def Store.OwnsCommunity (s : Store) (id : String) : Prop :=
  (∃ c ∈ s.communities, c.entityId = id) ∧ (∀ r ∈ s.rules, r.entityId ≠ id) ∧
    ∀ m ∈ s.requests, m.entityId ≠ id

/-- The registration writes the community of a route: of a new one, or of one of the
caller's that has none. -/
def Store.WritesCommunity (s : Store) (reg : Registration) (draws : Draws) : Prop :=
  ∃ d u src, Resolves s reg draws d u src ∧
    ((∃ r, s.routeOfSrc src = some r ∧ u.id ∈ s.owners r.id ∧ r.communityId = none) ∨
      (s.routeOfSrc src = none ∧ d.restricted = false ∧ s.FreshFor (newRoute d src reg draws)))

/-- Where a block breaks the law. -/
def Transaction.Breaks (s : Store) : Transaction → Prop
  | createUser user => user.id ∉ s.entityIds ∧ user.uid = none
  | createGroup group => group.id ∉ s.entityIds ∧ group.name = none
  | removeUser user => ∃ u ∈ s.users, u.uid = some user ∧ s.OwnsCommunity u.id
  | removeGroup group => ∃ g ∈ s.groups, g.name = some group ∧ s.OwnsCommunity g.id
  | removeDomain domainId => ∃ r ∈ s.routes, r.domainId = domainId
  | registerRoute reg draws =>
    (∃ c, reg.community = some c ∧ c.id ∉ s.communityIds) ∧ s.WritesCommunity reg draws
  | addRouteToCommunity user routeId communityId =>
    communityId ∉ s.communityIds ∧
      ∃ u route c, Targets s user routeId communityId u route c ∧ u.id ∉ s.owners route.id
  | _ => False

namespace Transaction

variable {setup : Setup} {now : Time} {s : Store}

theorem refused_createUser_iff (user : User) :
    Refused s (Txn.put (.addUser user)) ↔ user.id ∉ s.entityIds ∧ user.uid = none := by
  rw [refused_iff_of_run (Txn.run_put _), flush_single]
  simp only [Change.apply, check_bind_eq_error, pure_ne_error, FlushError.integrity.injEq]
  grind

theorem refused_createGroup_iff (group : Group) :
    Refused s (Txn.put (.addGroup group)) ↔ group.id ∉ s.entityIds ∧ group.name = none := by
  rw [refused_iff_of_run (Txn.run_put _), flush_single]
  simp only [Change.apply, check_bind_eq_error, pure_ne_error, FlushError.integrity.injEq]
  grind

/-- The deletion of an entity is refused for its communities, unless SQLAlchemy raises
for a rule or request first. -/
theorem deleteEntity_refused_iff (id : String) :
    flush s [.deleteEntity id] = .error (.integrity .notNull) ∨
        flush s [.deleteEntity id] = .error (.integrity .foreignKey) ↔ s.OwnsCommunity id := by
  rw [flush_single]
  unfold Store.OwnsCommunity
  simp only [Change.apply, check_bind_eq_error, pure_ne_error, FlushError.integrity.injEq]
  grind

theorem refused_removeUser_iff (hv : s.Valid) (user : String) :
    Refused s (EntityRepo.removeUser user) ↔
      ∃ u ∈ s.users, u.uid = some user ∧ s.OwnsCommunity u.id := by
  have hrun := EntityRepo.run_removeUser hv user
  have hfound : (∃ u, s.userOf (some user) = some u ∧ s.OwnsCommunity u.id) ↔ _ :=
    exists_lookup_iff hv.uids
  rw [← hfound]
  cases hu : s.userOf (some user) with
  | none =>
    rw [hu] at hrun
    exact iff_of_false (not_refused_of_raised hrun) (by simp)
  | some u =>
    rw [hu] at hrun
    rw [refused_iff_of_run hrun, deleteEntity_refused_iff]
    simp

theorem refused_removeGroup_iff (hv : s.Valid) (group : String) :
    Refused s (EntityRepo.removeGroup group) ↔
      ∃ g ∈ s.groups, g.name = some group ∧ s.OwnsCommunity g.id := by
  have hrun := EntityRepo.run_removeGroup hv group
  have hfound : (∃ g, s.groupOf group = some g ∧ s.OwnsCommunity g.id) ↔ _ :=
    exists_lookup_iff hv.groupNames
  rw [← hfound]
  cases hg : s.groupOf group with
  | none =>
    rw [hg] at hrun
    exact iff_of_false (not_refused_of_raised hrun) (by simp)
  | some g =>
    rw [hg] at hrun
    rw [refused_iff_of_run hrun, deleteEntity_refused_iff]
    simp

theorem refused_removeDomain_iff (hv : s.Valid) (domainId : String) :
    Refused s (DomainRepo.remove domainId) ↔ ∃ r ∈ s.routes, r.domainId = domainId := by
  have hrun := DomainRepo.run_remove hv domainId
  by_cases hd : domainId ∈ s.domainIds
  · rw [if_pos hd] at hrun
    rw [refused_iff_of_run hrun, flush_single]
    simp only [Change.apply, check_bind_eq_error, pure_ne_error, FlushError.integrity.injEq]
    grind
  · rw [if_neg hd] at hrun
    refine iff_of_false (not_refused_of_raised hrun) ?_
    rintro ⟨r, hr, rfl⟩
    exact hd (hv.routeDomain r hr)

theorem refused_registerRoute_iff (hv : s.Valid) (reg : Registration) (draws : Draws) :
    Refused s (registerRouteBody reg draws) ↔
      (∃ c, reg.community = some c ∧ c.id ∉ s.communityIds) ∧ s.WritesCommunity reg draws := by
  have hbody := registerRouteBody_registers hv reg draws
  generalize hrun : (registerRouteBody reg draws).run s = out at hbody
  cases hbody with
  | unresolved h =>
    refine iff_of_false (not_refused_of_raised hrun) ?_
    rintro ⟨-, d, u, src, hres, -⟩
    exact h d u src hres
  | @taken d u src r hres hr hown =>
    refine iff_of_false (not_refused_of_raised hrun) ?_
    rintro ⟨-, d', u', src', hres', ⟨r', hr', hown', -⟩ | ⟨hr', -⟩⟩
    all_goals obtain ⟨rfl, rfl, rfl⟩ := hres.unique hres'
    · cases hr.symm.trans hr'
      exact hown hown'
    · cases hr.symm.trans hr'
  | @restricted d u src hres hr hd =>
    refine iff_of_false (not_refused_of_raised hrun) ?_
    rintro ⟨-, d', u', src', hres', ⟨r', hr', -⟩ | ⟨-, hd', -⟩⟩
    all_goals obtain ⟨rfl, rfl, rfl⟩ := hres.unique hres'
    · cases hr.symm.trans hr'
    · cases hd.symm.trans hd'
  | @rebound d u src r hres hr hown =>
    rw [refused_iff_of_run hrun]
    rcases flush_rebind_cases reg.community draws.now (Store.mem_routeIds_of_src hr) with
      ⟨⟨hc, hrc⟩, hf⟩ | ⟨hnot, hf⟩
    · exact iff_of_true (.inr hf) ⟨hc, d, u, src, hres, .inl ⟨r, hr, hown, hrc⟩⟩
    · refine iff_of_false (by simp [hf]) ?_
      rintro ⟨hc, d', u', src', hres', ⟨r', hr', -, hrc⟩ | ⟨hr', -⟩⟩
      all_goals obtain ⟨rfl, rfl, rfl⟩ := hres.unique hres'
      · cases hr.symm.trans hr'
        exact hnot ⟨hc, hrc⟩
      · cases hr.symm.trans hr'
  | @created d u src hres hr hd =>
    rw [refused_iff_of_run hrun]
    have hwrites : s.WritesCommunity reg draws ↔ s.FreshFor (newRoute d src reg draws) := by
      constructor
      · rintro ⟨d', u', src', hres', ⟨r', hr', -⟩ | ⟨-, -, hfresh⟩⟩
        all_goals obtain ⟨rfl, rfl, rfl⟩ := hres.unique hres'
        · cases hr.symm.trans hr'
        · exact hfresh
      · exact fun hfresh => ⟨d, u, src, hres, .inr ⟨hr, hd, hfresh⟩⟩
    rw [hwrites]
    rcases flush_created_cases hv hres hr with ⟨hstale, hf⟩ | ⟨hfresh, hc, hf⟩ | ⟨-, hc, hf⟩
    · exact iff_of_false (by simp [hf]) fun h => hstale h.2
    · exact iff_of_true (.inr hf) ⟨hc, hfresh⟩
    · exact iff_of_false (by simp [hf]) fun h => hc h.1

theorem refused_addRouteToCommunity_iff (eng : Engine) (hv : s.Valid) (user : User)
    (routeId communityId : String) :
    Refused s (addRouteToCommunityBody eng user routeId communityId) ↔
      communityId ∉ s.communityIds ∧
        ∃ u route c, Targets s user routeId communityId u route c ∧ u.id ∉ s.owners route.id := by
  have hbody := addRouteToCommunityBody_attaches eng hv user routeId communityId
  generalize hrun : (addRouteToCommunityBody eng user routeId communityId).run s = out at hbody
  cases hbody with
  | unresolved h =>
    refine iff_of_false (not_refused_of_raised hrun) ?_
    rintro ⟨-, u, route, c, htargets, -⟩
    exact h u route c htargets
  | waiting h hown hm =>
    refine iff_of_false (not_refused_of_flush hrun (flush_nil s)) ?_
    rintro ⟨hc, -⟩
    obtain ⟨hmem, hkey⟩ := lookup_mem hm
    simp only [Prod.mk.injEq] at hkey
    exact hc (hkey.2.1 ▸ hv.requestCommunity _ hmem)
  | @requested u route c h hown hm =>
    rw [refused_iff_of_run hrun, flush_single]
    have hu : u.id ∈ s.entityIds := Store.user_mem_entityIds (lookup_mem h.user).1
    have hr : routeId ∈ s.routeIds := Store.mem_routeIds_iff.mpr ⟨route, h.route⟩
    have hnew : (u.id, communityId, routeId) ∉
        s.requests.map fun m => (m.entityId, m.communityId, m.routeId) := by
      rw [← lookup_isSome_iff]
      simp [show lookup _ _ s.requests = none from hm]
    simp only [Change.apply]
    rw [check_bind_of_not hnew, check_bind_of_not (not_not.mpr hu)]
    by_cases hc : communityId ∈ s.communityIds
    · rw [check_bind_of_not (not_not.mpr hc), check_bind_of_not (not_not.mpr hr)]
      exact iff_of_false (by simp [pure, Except.pure]) fun h => h.1 hc
    · rw [check_bind_of hc]
      exact iff_of_true (.inr rfl) ⟨hc, u, route, c, h, hown⟩
  | @member u route c e h hown hc =>
    refine iff_of_false (not_refused_of_raised hrun) ?_
    rintro ⟨-, u', route', c', h', hown'⟩
    obtain ⟨rfl, rfl, -⟩ := h.unique h'
    exact hown' hown
  | @attached u route c h hown hc =>
    have hflush := flush_setCommunity h.route_mem h.community_mem
    refine iff_of_false (not_refused_of_flush hrun hflush) ?_
    rintro ⟨-, u', route', c', h', hown'⟩
    obtain ⟨rfl, rfl, -⟩ := h.unique h'
    exact hown' hown

/-- Registrations are refused alike whenever they run. -/
theorem breaks_registerRoute_now (reg : Registration) (draws : Draws) (now : Time) :
    (registerRoute reg { draws with now := now }).Breaks s ↔ (registerRoute reg draws).Breaks s := by
  refine and_congr_right fun _ => ?_
  constructor
  · rintro ⟨d, u, src, hres, h⟩
    exact ⟨d, u, src, ⟨hres.domain, hres.user, hres.url⟩, h⟩
  · rintro ⟨d, u, src, hres, h⟩
    exact ⟨d, u, src, ⟨hres.domain, hres.user, hres.url⟩, h⟩

/-- **A session is refused exactly where its block breaks the law.** -/
theorem refused_iff (t : Transaction) (eng : Engine) (setup : Setup) (now : Time) (hv : s.Valid) :
    Refused s (t.body eng setup now) ↔ t.Breaks s := by
  have hsafe : ∀ t : Transaction, (∀ c, t.mayQueue now c → c.uniqueOnly) →
      ¬ Refused s (t.body eng setup now) :=
    fun t h => not_refused_of_safe (fun c hc => Change.safe_of_uniqueOnly (h c hc)) s
  cases t with
  | createUser user => exact refused_createUser_iff user
  | createGroup group => exact refused_createGroup_iff group
  | removeUser user => exact refused_removeUser_iff hv user
  | removeGroup group => exact refused_removeGroup_iff hv group
  | removeDomain domainId => exact refused_removeDomain_iff hv domainId
  | registerRoute reg draws =>
    rw [← breaks_registerRoute_now reg draws now]
    exact refused_registerRoute_iff hv reg _
  | addRouteToCommunity user routeId communityId =>
    exact refused_addRouteToCommunity_iff eng hv user routeId communityId
  | createCommunity user community =>
    exact iff_of_false (not_refused_createCommunity hv user community) id
  | updateRoute routeId fetch => exact iff_of_false (not_refused_updateRoute hv routeId fetch) id
  | validateRoute routeId fetch =>
    exact iff_of_false (not_refused_validateRoute hv routeId fetch) id
  -- these queue only changes that nothing but a unique constraint can stop
  | createDomain domain =>
    refine iff_of_false (hsafe _ ?_) id
    rintro c rfl
    trivial
  | reconcileAdmin | removeUserCommunity | createAdminToken | removeAdminToken =>
    refine iff_of_false (hsafe _ ?_) id
    rintro c ⟨_, rfl⟩
    trivial
  | setDefaultDomain domainId =>
    refine iff_of_false (hsafe _ ?_) id
    rintro c ⟨_, _, rfl⟩
    trivial
  | removeRouteFromCommunity user routeId communityId =>
    refine iff_of_false (hsafe _ ?_) id
    rintro c ⟨id, rfl⟩
    rfl
  | unverifyRoute routeId =>
    refine iff_of_false (hsafe _ ?_) id
    rintro c ⟨id, a, rfl, rfl | rfl⟩ <;> rfl
  | _ => exact iff_of_false (hsafe _ fun c hc => hc.elim) id

/-- What a creation or a removal that returns has achieved. -/
def Achieves (eng : Engine) (db : Database) : Transaction → Prop
  | createUser user => ∀ u db', RouteRegistry.createUser eng user db = .ok u db' →
    u = user ∧ user ∈ db'.store.users
  | createGroup group => ∀ g db', RouteRegistry.createGroup eng group db = .ok g db' →
    g = group ∧ group ∈ db'.store.groups
  | createDomain domain => ∀ d db', RouteRegistry.createDomain eng domain db = .ok d db' →
    d = domain ∧ domain ∈ db'.store.domains
  | removeUser user => ∀ db', RouteRegistry.removeUser eng user db = .ok () db' →
    ∀ u ∈ db'.store.users, u.uid ≠ some user
  | removeGroup group => ∀ db', RouteRegistry.removeGroup eng group db = .ok () db' →
    ∀ g ∈ db'.store.groups, g.name ≠ some group
  | removeDomain domainId => ∀ db', RouteRegistry.removeDomain eng domainId db = .ok () db' →
    domainId ∉ db'.store.domainIds
  | _ => True

/-- The law, for a block: if it ends normally, what its session queued was committed, and
its service has achieved what it is for. -/
def Obeys (eng : Engine) (setup : Setup) (now : Time) (t : Transaction) (db : Database) : Prop :=
  (makeSqlUow eng).CommitOrRaise (t.body eng setup now) db ∧ t.Achieves eng db

/-- A lawful block of one change that ends normally has made it. -/
theorem applied_of_law {α : Type} {eng : Engine} {body : Session α} {db db' : Database} {a a' : α}
    {c : Change} (hlaw : (makeSqlUow eng).CommitOrRaise body db)
    (hrun : body.run db.store = (.ok a', [c])) (h : withUOW eng body db = .ok a db') :
    c.apply db.store = .ok db'.store := by
  obtain ⟨Δ, hrun', hc⟩ := hlaw a db' h
  cases hrun.symm.trans hrun'
  rw [← flush_single]
  exact eng.committed db [c] db' hc

/-- A lawful block has achieved what it is for. -/
theorem achieves_of_law {eng : Engine} {db : Database} (t : Transaction)
    (hlaw : (makeSqlUow eng).CommitOrRaise (t.body eng setup now) db) : t.Achieves eng db := by
  cases t with
  | createUser user =>
    intro u db' h
    obtain ⟨hcall, rfl⟩ := bind_return_eq_ok.mp h
    have hs := Change.apply_effect
      (applied_of_law hlaw (Txn.run_put _) (tryCatch_throw_eq_ok.mp hcall))
    exact ⟨rfl, by simp [hs, Change.effect]⟩
  | createGroup group =>
    intro g db' h
    obtain ⟨hcall, rfl⟩ := bind_return_eq_ok.mp h
    have hs := Change.apply_effect
      (applied_of_law hlaw (Txn.run_put _) (tryCatch_throw_eq_ok.mp hcall))
    exact ⟨rfl, by simp [hs, Change.effect]⟩
  | createDomain domain =>
    intro d db' h
    obtain ⟨hcall, rfl⟩ := bind_return_eq_ok.mp h
    have hs := Change.apply_effect
      (applied_of_law hlaw (Txn.run_put _) (tryCatch_throw_eq_ok.mp hcall))
    exact ⟨rfl, by simp [hs, Change.effect]⟩
  | removeUser user =>
    intro db' h u hu
    have hblock := tryCatch_throw_eq_ok.mp h
    have hrun := EntityRepo.run_removeUser db.valid user
    cases hl : db.store.userOf (some user) with
    | none =>
      rw [hl] at hrun
      cases (withUOW_raised hrun).symm.trans hblock
    | some u₀ =>
      rw [hl] at hrun
      rw [Change.apply_effect (applied_of_law hlaw hrun hblock)] at hu
      exact key_ne_of_mem_discard db.valid.uids hl hu
  | removeGroup group =>
    intro db' h g hg
    have hblock := tryCatch_throw_eq_ok.mp h
    have hrun := EntityRepo.run_removeGroup db.valid group
    cases hl : db.store.groupOf group with
    | none =>
      rw [hl] at hrun
      cases (withUOW_raised hrun).symm.trans hblock
    | some g₀ =>
      rw [hl] at hrun
      rw [Change.apply_effect (applied_of_law hlaw hrun hblock)] at hg
      exact key_ne_of_mem_discard db.valid.groupNames hl hg
  | removeDomain domainId =>
    intro db' h hd
    have hblock := tryCatch_throw_eq_ok.mp h
    have hrun := DomainRepo.run_remove db.valid domainId
    by_cases hid : domainId ∈ db.store.domainIds
    · rw [if_pos hid] at hrun
      rw [Change.apply_effect (applied_of_law hlaw hrun hblock)] at hd
      obtain ⟨d, hmem, hdid⟩ := List.mem_map.mp hd
      exact (mem_discard.mp hmem).2 hdid
    · rw [if_neg hid] at hrun
      cases (withUOW_raised hrun).symm.trans hblock
  | _ => trivial

end Transaction

/-- **When a block commits or raises.** Whatever the engine does, a block obeys the law
exactly where its session can violate no `NOT NULL` or `FOREIGN KEY` constraint. -/
theorem commitLaw_iff (setup : Setup) (now : Time) (t : Transaction) (db : Database) :
    (∀ eng, t.Obeys eng setup now db) ↔ ¬ t.Breaks db.store := by
  have hrefused := fun eng : Engine => t.refused_iff eng setup now db.valid
  constructor
  · intro hlaw hbreaks
    exact not_commitOrRaise_of_refused ((hrefused .sqlite).mpr hbreaks) (hlaw .sqlite).1
  · intro hbreaks eng
    have hlaw : (makeSqlUow eng).CommitOrRaise (t.body eng setup now) db :=
      commitOrRaise_of_not_refused (mt (hrefused eng).mp hbreaks)
    exact ⟨hlaw, t.achieves_of_law hlaw⟩

/-- The removal of a domain with a route returns, and removes nothing. -/
theorem removeDomain_keeps_domain :
    removeDomain .sqlite "d" oneRoute = .ok () oneRoute ∧ "d" ∈ oneRoute.store.domainIds ∧
      ¬ ∀ (eng : Engine) (setup : Setup) (now : Time) (t : Transaction) (db : Database),
        t.Obeys eng setup now db := by
  have hcall : removeDomain .sqlite "d" oneRoute = .ok () oneRoute := rfl
  have hstored : "d" ∈ oneRoute.store.domainIds := by decide
  refine ⟨hcall, hstored, fun hlaw => ?_⟩
  let setup : Setup := ⟨authorizationSchema, ⟨fun p _ => .ok p, fun _ _ => .ok true⟩, .utc⟩
  exact (hlaw .sqlite setup 0 (.removeDomain "d") oneRoute).2 oneRoute hcall hstored

end RouteRegistry
