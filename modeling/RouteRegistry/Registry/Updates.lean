import RouteRegistry.Registry.Services
import RouteRegistry.Registry.Writes

/-!
# Route updates

What one `update_route` or `unverify_route` call does to the store.

- `Store.ruleSet`: the rules a document asks for, or why they cannot be stored. All
  four lookups come before the old rules go (`run_storeRules`), so a document that
  names somebody unknown queues nothing.
- `Store.refreshed`: the whole `try` block of `update_route`, up to its writes.
- `updateRoute_ok`, `updateRoute_error`: what a call that returns, or raises, has done.
- `updateRoute_eq`: with an engine that fails only when the flush does, exactly what a
  call does.
-/

namespace RouteRegistry

open Relational UnitOfWork

/-! ## The rules of a document -/

/-- `get_users`, on a store. -/
def Store.usersNamed (s : Store) (uids : List String) : Except Exc (List User) :=
  ((EntityRepo.getUsers uids).run s).1

/-- `get_groups`, on a store. -/
def Store.groupsNamed (s : Store) (names : List String) : Except Exc (List Group) :=
  ((EntityRepo.getGroups names).run s).1

/-- The rules `store_rules` stores. -/
def Store.ruleSet (s : Store) (routeId : String) (authz : Authorization) :
    Except Exc (List Rule) := do
  let allowedUsers ← s.usersNamed authz.allowed.uids
  let deniedUsers ← s.usersNamed authz.disallowed.uids
  let allowedGroups ← s.groupsNamed authz.allowed.groupNames
  let deniedGroups ← s.groupsNamed authz.disallowed.groupNames
  return policyRules routeId allowedUsers deniedUsers allowedGroups deniedGroups

theorem run_getUsers (s : Store) (uids : List String) :
    (EntityRepo.getUsers uids).run s = (s.usersNamed uids, []) := by
  unfold Store.usersNamed EntityRepo.getUsers select
  rw [Txn.run_get_bind]
  split <;> rfl

theorem run_getGroups (s : Store) (names : List String) :
    (EntityRepo.getGroups names).run s = (s.groupsNamed names, []) := by
  unfold Store.groupsNamed EntityRepo.getGroups select
  rw [Txn.run_get_bind]
  split <;> rfl

/-- A lookup of users finds them all or reports missing entities. -/
theorem Store.usersNamed_cases (s : Store) (uids : List String) :
    let found := s.users.filter fun u => decide (∃ uid ∈ uids, u.uid = some uid)
    (uids.length = found.length ∧ s.usersNamed uids = .ok found) ∨
      (uids.length ≠ found.length ∧
        ∃ msg, s.usersNamed uids = .error ⟨.missingEntities, msg, none⟩) := by
  intro found
  by_cases h : uids.length = found.length
  · refine .inl ⟨h, ?_⟩
    unfold usersNamed EntityRepo.getUsers select
    rw [Txn.run_get_bind, if_neg (not_not.mpr h)]
    rfl
  · refine .inr ⟨h, s!"Requested {uids.length} users and got {found.length}", ?_⟩
    unfold usersNamed EntityRepo.getUsers select
    rw [Txn.run_get_bind, if_pos h]
    rfl

theorem Store.groupsNamed_cases (s : Store) (names : List String) :
    let found := s.groups.filter fun g => decide (∃ name ∈ names, g.name = some name)
    (names.length = found.length ∧ s.groupsNamed names = .ok found) ∨
      (names.length ≠ found.length ∧
        ∃ msg, s.groupsNamed names = .error ⟨.missingEntities, msg, none⟩) := by
  intro found
  by_cases h : names.length = found.length
  · refine .inl ⟨h, ?_⟩
    unfold groupsNamed EntityRepo.getGroups select
    rw [Txn.run_get_bind, if_neg (not_not.mpr h)]
    rfl
  · refine .inr ⟨h, s!"Requested {names.length} users and got {found.length}", ?_⟩
    unfold groupsNamed EntityRepo.getGroups select
    rw [Txn.run_get_bind, if_pos h]
    rfl

theorem Store.mem_of_usersNamed {s : Store} {uids : List String} {us : List User}
    (h : s.usersNamed uids = .ok us) : ∀ u ∈ us, u ∈ s.users := by
  rcases s.usersNamed_cases uids with ⟨-, hfound⟩ | ⟨-, msg, hmiss⟩
  · cases h.symm.trans hfound
    exact fun u hu => List.mem_of_mem_filter hu
  · cases h.symm.trans hmiss

theorem Store.mem_of_groupsNamed {s : Store} {names : List String} {gs : List Group}
    (h : s.groupsNamed names = .ok gs) : ∀ g ∈ gs, g ∈ s.groups := by
  rcases s.groupsNamed_cases names with ⟨-, hfound⟩ | ⟨-, msg, hmiss⟩
  · cases h.symm.trans hfound
    exact fun g hg => List.mem_of_mem_filter hg
  · cases h.symm.trans hmiss

/-- A rule set comes from four lookups that all succeeded. -/
theorem Store.ruleSet_ok {s : Store} {routeId : String} {authz : Authorization}
    {rules : List Rule} (h : s.ruleSet routeId authz = .ok rules) :
    ∃ au du ag dg, s.usersNamed authz.allowed.uids = .ok au ∧
      s.usersNamed authz.disallowed.uids = .ok du ∧
      s.groupsNamed authz.allowed.groupNames = .ok ag ∧
      s.groupsNamed authz.disallowed.groupNames = .ok dg ∧
      rules = policyRules routeId au du ag dg := by
  unfold ruleSet at h
  cases hau : s.usersNamed authz.allowed.uids with
  | error e => rw [hau] at h; cases h
  | ok au =>
    cases hdu : s.usersNamed authz.disallowed.uids with
    | error e => rw [hau, hdu] at h; cases h
    | ok du =>
      cases hag : s.groupsNamed authz.allowed.groupNames with
      | error e => rw [hau, hdu, hag] at h; cases h
      | ok ag =>
        cases hdg : s.groupsNamed authz.disallowed.groupNames with
        | error e => rw [hau, hdu, hag, hdg] at h; cases h
        | ok dg =>
          rw [hau, hdu, hag, hdg] at h
          exact ⟨au, du, ag, dg, rfl, rfl, rfl, rfl, (Except.ok.inj h).symm⟩

/-- Only users and groups decide what a document's rules are. -/
theorem Store.ruleSet_congr {s s' : Store} (husers : s.users = s'.users)
    (hgroups : s.groups = s'.groups) (id : String) (authz : Authorization) :
    s.ruleSet id authz = s'.ruleSet id authz := by
  have hu : s.usersNamed = s'.usersNamed := by
    funext uids
    show ((EntityRepo.getUsers uids).run s).1 = ((EntityRepo.getUsers uids).run s').1
    simp only [EntityRepo.getUsers, select, Txn.run_get_bind, husers]
    split <;> rfl
  have hg : s.groupsNamed = s'.groupsNamed := by
    funext names
    show ((EntityRepo.getGroups names).run s).1 = ((EntityRepo.getGroups names).run s').1
    simp only [EntityRepo.getGroups, select, Txn.run_get_bind, hgroups]
    split <;> rfl
  unfold Store.ruleSet
  rw [hu, hg]

/-- Without a rule set some entity is missing. -/
theorem Store.ruleSet_error {s : Store} {routeId : String} {authz : Authorization} {e : Exc}
    (h : s.ruleSet routeId authz = .error e) : e.cls = .missingEntities := by
  unfold ruleSet at h
  rcases s.usersNamed_cases authz.allowed.uids with ⟨-, h₁⟩ | ⟨-, msg, h₁⟩
  · rcases s.usersNamed_cases authz.disallowed.uids with ⟨-, h₂⟩ | ⟨-, msg, h₂⟩
    · rcases s.groupsNamed_cases authz.allowed.groupNames with ⟨-, h₃⟩ | ⟨-, msg, h₃⟩
      · rcases s.groupsNamed_cases authz.disallowed.groupNames with ⟨-, h₄⟩ | ⟨-, msg, h₄⟩
        · rw [h₁, h₂, h₃, h₄] at h
          cases h
        · rw [h₁, h₂, h₃, h₄] at h
          cases h
          rfl
      · rw [h₁, h₂, h₃] at h
        cases h
        rfl
    · rw [h₁, h₂] at h
      cases h
      rfl
  · rw [h₁] at h
    cases h
    rfl

theorem mem_policyRules {routeId : String} {au du : List User} {ag dg : List Group} {r : Rule} :
    r ∈ policyRules routeId au du ag dg ↔
      r.routeId = routeId ∧
        ((r.policy = .allow ∧ (r.entityId ∈ au.map User.id ∨ r.entityId ∈ ag.map Group.id)) ∨
          (r.policy = .deny ∧ (r.entityId ∈ du.map User.id ∨ r.entityId ∈ dg.map Group.id))) := by
  obtain ⟨rid, eid, p⟩ := r
  unfold policyRules
  simp only [List.mem_append, List.mem_map, Rule.mk.injEq]
  constructor
  · rintro ((⟨u, hu, rfl, rfl, rfl⟩ | ⟨u, hu, rfl, rfl, rfl⟩) |
      (⟨g, hg, rfl, rfl, rfl⟩ | ⟨g, hg, rfl, rfl, rfl⟩))
    · exact ⟨rfl, .inl ⟨rfl, .inl ⟨u, hu, rfl⟩⟩⟩
    · exact ⟨rfl, .inr ⟨rfl, .inl ⟨u, hu, rfl⟩⟩⟩
    · exact ⟨rfl, .inl ⟨rfl, .inr ⟨g, hg, rfl⟩⟩⟩
    · exact ⟨rfl, .inr ⟨rfl, .inr ⟨g, hg, rfl⟩⟩⟩
  · rintro ⟨rfl, ⟨rfl, ⟨u, hu, rfl⟩ | ⟨g, hg, rfl⟩⟩ | ⟨rfl, ⟨u, hu, rfl⟩ | ⟨g, hg, rfl⟩⟩⟩
    · exact .inl (.inl ⟨u, hu, rfl, rfl, rfl⟩)
    · exact .inr (.inl ⟨g, hg, rfl, rfl, rfl⟩)
    · exact .inl (.inr ⟨u, hu, rfl, rfl, rfl⟩)
    · exact .inr (.inr ⟨g, hg, rfl, rfl, rfl⟩)

/-- A rule set is about its route and stored entities. -/
theorem Store.ruleSet_mem {s : Store} {routeId : String} {authz : Authorization}
    {rules : List Rule} (h : s.ruleSet routeId authz = .ok rules) :
    (∀ r ∈ rules, r.routeId = routeId) ∧ ∀ r ∈ rules, r.entityId ∈ s.entityIds := by
  obtain ⟨au, du, ag, dg, hau, hdu, hag, hdg, rfl⟩ := ruleSet_ok h
  refine ⟨fun r hr => (mem_policyRules.mp hr).1, fun r hr => ?_⟩
  have husers : ∀ us : List User, (∀ u ∈ us, u ∈ s.users) → r.entityId ∈ us.map User.id →
      r.entityId ∈ s.entityIds := by
    intro us hus hmem
    obtain ⟨u, hu, hid⟩ := List.mem_map.mp hmem
    exact List.mem_append_left _ (List.mem_map.mpr ⟨u, hus u hu, hid⟩)
  have hgroups : ∀ gs : List Group, (∀ g ∈ gs, g ∈ s.groups) → r.entityId ∈ gs.map Group.id →
      r.entityId ∈ s.entityIds := by
    intro gs hgs hmem
    obtain ⟨g, hg, hid⟩ := List.mem_map.mp hmem
    exact List.mem_append_right _ (List.mem_map.mpr ⟨g, hgs g hg, hid⟩)
  rcases (mem_policyRules.mp hr).2 with ⟨-, hmem | hmem⟩ | ⟨-, hmem | hmem⟩
  · exact husers au (mem_of_usersNamed hau) hmem
  · exact hgroups ag (mem_of_groupsNamed hag) hmem
  · exact husers du (mem_of_usersNamed hdu) hmem
  · exact hgroups dg (mem_of_groupsNamed hdg) hmem

theorem run_forM_addRule (s : Store) (rules : List Rule) :
    (rules.forM RuleRepo.add).run s = (.ok (), rules.map .addRule) := by
  induction rules with
  | nil => rfl
  | cons r rest ih =>
    show (Txn.put (.addRule r) >>= fun _ => rest.forM RuleRepo.add).run s = _
    rw [Txn.run_put_bind, ih]
    rfl

/-- **`store_rules` replaces the rules of the route or queues nothing.** -/
theorem run_storeRules (s : Store) (route : Route) (authz : Authorization) :
    (storeRules route authz).run s =
      match s.ruleSet route.id authz with
      | .ok rules => (.ok (), .deleteRules route.id :: rules.map .addRule)
      | .error e => (.error e, []) := by
  let out : Except Exc (List Rule) → Except Exc Unit × List Change := fun rules =>
    match rules with
    | .ok rules => (.ok (), .deleteRules route.id :: rules.map .addRule)
    | .error e => (.error e, [])
  have hout : ∀ e, out (.error e) = (.error e, []) := fun _ => rfl
  show (storeRules route authz).run s = out (s.ruleSet route.id authz)
  refine Txn.run_bind_eq (run_getUsers s _) hout fun au => ?_
  refine Txn.run_bind_eq (run_getUsers s _) hout fun du => ?_
  refine Txn.run_bind_eq (run_getGroups s _) hout fun ag => ?_
  refine Txn.run_bind_eq (run_getGroups s _) hout fun dg => ?_
  show (Txn.put (.deleteRules route.id) >>= fun _ =>
    (policyRules route.id au du ag dg).forM RuleRepo.add).run s = _
  rw [Txn.run_put_bind, run_forM_addRule]
  rfl

/-! ## One update -/

/-- The `try` block of `update_route` up to its writes: the new rules, or what is
raised. -/
def Store.refreshed (s : Store) (schema : Json.Schema) (routeId : String) (fetch : Fetch) :
    Except Exc (List Rule) := do
  let authz ← getAuthorization fetch
  validate authz schema
  s.ruleSet routeId (← Authorization.ofData authz)

/-- New rules were looked up in the store. -/
theorem Store.refreshed_ok {s : Store} {schema : Json.Schema} {routeId : String} {fetch : Fetch}
    {rules : List Rule} (h : s.refreshed schema routeId fetch = .ok rules) :
    ∃ data authz, getAuthorization fetch = .ok data ∧ schema.accepts data = true ∧
      Authorization.ofData data = .ok authz ∧ s.ruleSet routeId authz = .ok rules := by
  unfold refreshed at h
  cases hfetch : getAuthorization fetch with
  | error e => rw [hfetch] at h; cases h
  | ok data =>
    rw [hfetch] at h
    cases hacc : schema.accepts data with
    | false =>
      have hval : validate data schema =
          .error ⟨.lib .validationError, "instance does not satisfy the schema", none⟩ := by
        simp [validate, hacc]
      change (validate data schema >>= _) = _ at h
      rw [hval] at h
      cases h
    | true =>
      have hval : validate data schema = .ok () := by simp [validate, hacc]
      change (validate data schema >>= _) = _ at h
      rw [hval] at h
      change (Authorization.ofData data >>= _) = _ at h
      cases hauth : Authorization.ofData data with
      | error e => rw [hauth] at h; cases h
      | ok authz =>
        rw [hauth] at h
        exact ⟨data, authz, rfl, hacc, hauth, h⟩

/-- What a refresh that succeeds sets on the route. -/
def refreshedAttrs (now : Time) : List RouteAttr := [.status .up, .lastContact now]

theorem refreshedAttrs_plain (now : Time) : ∀ a ∈ refreshedAttrs now, a.newCommunity = none := by
  simp [refreshedAttrs, RouteAttr.newCommunity]

theorem run_refreshRoute (s : Store) (route : Route) (fetch : Fetch) (schema : Json.Schema)
    (now : Time) :
    (refreshRoute route fetch schema now).run s =
      match s.refreshed schema route.id fetch with
      | .ok rules =>
        (.ok none, (.deleteRules route.id :: rules.map .addRule) ++
          (refreshedAttrs now).map (.setRoute route.id))
      | .error e => (.error e, []) := by
  let out : Except Exc (List Rule) → Except Exc (Option Exc) × List Change := fun refreshed =>
    match refreshed with
    | .ok rules =>
      (.ok none, (.deleteRules route.id :: rules.map .addRule) ++
        (refreshedAttrs now).map (.setRoute route.id))
    | .error e => (.error e, [])
  have hout : ∀ e, out (.error e) = (.error e, []) := fun _ => rfl
  show (refreshRoute route fetch schema now).run s = out (s.refreshed schema route.id fetch)
  refine Txn.run_bind_eq (Txn.run_ofExcept _) hout fun data => ?_
  refine Txn.run_bind_eq (Txn.run_ofExcept _) hout fun _ => ?_
  refine Txn.run_bind_eq (Txn.run_ofExcept _) hout fun authz => ?_
  have hstore := run_storeRules s route authz
  cases hset : s.ruleSet route.id authz with
  | error e =>
    rw [hset] at hstore
    exact Txn.run_bind_error hstore
  | ok rules =>
    rw [hset] at hstore
    exact Txn.run_bind_ok hstore

/-- **The `with` block of `update_route`.** -/
theorem run_updateRouteBody {s : Store} (hv : s.Valid) (id : String) (fetch : Fetch)
    (schema : Json.Schema) (now : Time) :
    (updateRouteBody id fetch schema now).run s =
      match s.routeOf id with
      | none => (.error (noneAttributeError "id"), [])
      | some _ =>
        match s.refreshed schema id fetch with
        | .ok rules =>
          (.ok none, (.deleteRules id :: rules.map .addRule) ++
            (refreshedAttrs now).map (.setRoute id))
        | .error e =>
          match failureStatus e with
          | some st => (.ok (some e), [RouteAttr.status st].map (.setRoute id))
          | none => (.error e, []) := by
  unfold updateRouteBody
  rw [Txn.run_bind_pure (RouteRepo.run_get hv id)]
  cases hr : s.routeOf id with
  | none => rfl
  | some route =>
    obtain rfl : route.id = id := (lookup_mem hr).2
    show Txn.run s (tryCatch _ _) = _
    refine (Txn.run_tryCatch _ _).trans ?_
    rw [run_refreshRoute]
    cases s.refreshed schema route.id fetch with
    | ok rules => rfl
    | error e =>
      cases hst : failureStatus e with
      | none => simp only [hst]; rfl
      | some st => simp only [hst]; rfl

/-- The store after a refresh. -/
def Store.afterRefresh (s : Store) (id : String) (rules : List Rule) (now : Time) : Store :=
  (s.withRules id rules).withAttrs id (refreshedAttrs now)

/-- A refresh goes through unless two of its rules are about one entity. -/
theorem flush_refresh {s : Store} (now : Time) (hv : s.Valid) {schema : Json.Schema} {id : String}
    {fetch : Fetch} {rules : List Rule} (hid : id ∈ s.routeIds)
    (h : s.refreshed schema id fetch = .ok rules) :
    flush s ((.deleteRules id :: rules.map .addRule) ++
        (refreshedAttrs now).map (.setRoute id)) =
      if Keyed Rule.entityId rules then .ok (s.afterRefresh id rules now)
      else .error (.integrity .unique) := by
  obtain ⟨data, authz, -, -, -, hset⟩ := Store.refreshed_ok h
  obtain ⟨hroute, hent⟩ := Store.ruleSet_mem hset
  have hrules := flush_replaceRules hv hid hroute hent
  by_cases hk : Keyed Rule.entityId rules
  · rw [if_pos hk] at hrules ⊢
    rw [flush_append_ok hrules]
    exact flush_setPlain (s := s.withRules id rules) hid (refreshedAttrs_plain now)
  · rw [if_neg hk] at hrules ⊢
    exact flush_append_error hrules

theorem flush_status {s : Store} {id : String} (hid : id ∈ s.routeIds) (st : Status) :
    flush s ([RouteAttr.status st].map (.setRoute id)) =
      .ok (s.withAttrs id [.status st]) :=
  flush_setPlain hid (by simp [RouteAttr.newCommunity])

section Update

variable {eng : Engine} {schema : Json.Schema} {id : String} {fetch : Fetch} {now : Time}
  {db db' : Database} {e : Exc}

/-- `update_route` ends as its block does, and then raises what the block returned. -/
theorem updateRoute_of_block
    (h : withUOW eng (updateRouteBody id fetch schema now) db = .ok none db') :
    updateRoute eng schema id fetch now db = .ok () db' :=
  (Service.bind_of_ok h :)

theorem updateRoute_of_block_caught
    (h : withUOW eng (updateRouteBody id fetch schema now) db = .ok (some e) db') :
    updateRoute eng schema id fetch now db = .error e db' :=
  (Service.bind_of_ok h :)

theorem updateRoute_of_block_error
    (h : withUOW eng (updateRouteBody id fetch schema now) db = .error e db') :
    updateRoute eng schema id fetch now db = .error e db' :=
  (Service.bind_of_error h :)

/-- Every way the block can end. -/
theorem updateRoute_block_cases {res : Option Exc}
    (h : withUOW eng (updateRouteBody id fetch schema now) db = .ok res db') :
    id ∈ db.store.routeIds ∧
      ((res = none ∧ ∃ rules, db.store.refreshed schema id fetch = .ok rules ∧
          Keyed Rule.entityId rules ∧ db'.store = db.store.afterRefresh id rules now) ∨
        ∃ e st, res = some e ∧ db.store.refreshed schema id fetch = .error e ∧
          failureStatus e = some st ∧ db'.store = db.store.withAttrs id [.status st]) := by
  obtain ⟨Δ, hrun, -⟩ := withUOW_ok h
  have hbody := run_updateRouteBody db.valid id fetch schema now
  rw [hrun] at hbody
  cases hr : db.store.routeOf id with
  | none => rw [hr] at hbody; cases hbody
  | some r =>
    have hid : id ∈ db.store.routeIds := Store.mem_routeIds_iff.mpr ⟨r, hr⟩
    rw [hr] at hbody
    refine ⟨hid, ?_⟩
    cases href : db.store.refreshed schema id fetch with
    | ok rules =>
      rw [href] at hbody
      cases hbody
      have hflush := flush_refresh now db.valid hid href
      by_cases hk : Keyed Rule.entityId rules
      · rw [if_pos hk] at hflush
        exact .inl ⟨rfl, rules, rfl, hk, (withUOW_ok_of_flush h hrun hflush).2⟩
      · rw [if_neg hk] at hflush
        obtain ⟨-, -, k, hkind, hne⟩ := withUOW_ok_of_refused h hrun hflush
        cases hkind
        exact absurd rfl hne
    | error e =>
      rw [href] at hbody
      cases hst : failureStatus e with
      | none => simp only [hst] at hbody; cases hbody
      | some st =>
        simp only [hst] at hbody
        cases hbody
        exact .inr ⟨e, st, rfl, rfl, hst, (withUOW_ok_of_flush h hrun (flush_status hid st)).2⟩

/-- **An update that returns normally** has replaced the rules of the route by those of
the document, and set its status to `UP`. -/
theorem updateRoute_ok (h : updateRoute eng schema id fetch now db = .ok () db') :
    id ∈ db.store.routeIds ∧ ∃ rules, db.store.refreshed schema id fetch = .ok rules ∧
      Keyed Rule.entityId rules ∧ db'.store = db.store.afterRefresh id rules now := by
  cases hblock : withUOW eng (updateRouteBody id fetch schema now) db with
  | error e db'' =>
    rw [updateRoute_of_block_error hblock] at h
    cases h
  | ok res db'' =>
    cases res with
    | some e =>
      rw [updateRoute_of_block_caught hblock] at h
      cases h
    | none =>
      rw [updateRoute_of_block hblock] at h
      cases h
      obtain ⟨hid, ⟨-, hrules⟩ | ⟨e, st, hres, -⟩⟩ := updateRoute_block_cases hblock
      · exact ⟨hid, hrules⟩
      · cases hres

/-- **An update that raises** has set the status of the route, or done nothing. -/
theorem updateRoute_error (h : updateRoute eng schema id fetch now db = .error e db') :
    db' = db ∨ id ∈ db.store.routeIds ∧ ∃ st, db.store.refreshed schema id fetch = .error e ∧
      failureStatus e = some st ∧ db'.store = db.store.withAttrs id [.status st] := by
  cases hblock : withUOW eng (updateRouteBody id fetch schema now) db with
  | error e' db'' =>
    rw [updateRoute_of_block_error hblock] at h
    cases h
    exact .inl (withUOW_error hblock)
  | ok res db'' =>
    cases res with
    | none =>
      rw [updateRoute_of_block hblock] at h
      cases h
    | some e' =>
      rw [updateRoute_of_block_caught hblock] at h
      cases h
      obtain ⟨hid, ⟨hres, -⟩ | ⟨e, st, hres, href, hst, hdb⟩⟩ := updateRoute_block_cases hblock
      · cases hres
      · cases hres
        exact .inr ⟨hid, st, href, hst, hdb⟩

/-- With a reliable engine the outcome of an update of a stored route is determined. -/
theorem updateRoute_eq (hrel : eng.Reliable) (schema : Json.Schema) (fetch : Fetch) (now : Time)
    (hid : id ∈ db.store.routeIds) :
    match db.store.refreshed schema id fetch with
    | .ok rules =>
      if Keyed Rule.entityId rules then
        ∃ db', updateRoute eng schema id fetch now db = .ok () db' ∧
          db'.store = db.store.afterRefresh id rules now
      else
        ∃ msg, updateRoute eng schema id fetch now db = .error ⟨.uowAlreadyExists, msg, none⟩ db
    | .error e =>
      match failureStatus e with
      | some st => ∃ db', updateRoute eng schema id fetch now db = .error e db' ∧
          db'.store = db.store.withAttrs id [.status st]
      | none => updateRoute eng schema id fetch now db = .error e db := by
  have hbody := run_updateRouteBody db.valid id fetch schema now
  obtain ⟨r, hr⟩ := Store.mem_routeIds_iff.mp hid
  rw [hr] at hbody
  cases href : db.store.refreshed schema id fetch with
  | ok rules =>
    rw [href] at hbody
    have hflush := flush_refresh now db.valid hid href
    show if Keyed Rule.entityId rules then _ else _
    by_cases hk : Keyed Rule.entityId rules
    · rw [if_pos hk] at hflush ⊢
      obtain ⟨db', hblock, hdb⟩ := withUOW_of_flush hrel hbody hflush
      exact ⟨db', updateRoute_of_block hblock, hdb⟩
    · rw [if_neg hk] at hflush ⊢
      obtain ⟨msg, hblock⟩ := withUOW_of_unique hbody hflush
      exact ⟨msg, updateRoute_of_block_error hblock⟩
  | error e =>
    rw [href] at hbody
    show match failureStatus e with
      | some st => _
      | none => _
    cases hst : failureStatus e with
    | none =>
      simp only [hst] at hbody
      exact updateRoute_of_block_error (withUOW_raised hbody)
    | some st =>
      simp only [hst] at hbody
      obtain ⟨db', hblock, hdb⟩ := withUOW_of_flush hrel hbody (flush_status hid st)
      exact ⟨db', updateRoute_of_block_caught hblock, hdb⟩

end Update

/-! ## Unverifying -/

/-- What `unverify_route` sets. -/
def unverifiedAttrs : List RouteAttr := [.verificationStatus .unverified, .status .down]

section Unverify

variable {eng : Engine} {id : String} {db db' : Database} {e : Exc}

theorem run_unverifyRouteBody {s : Store} (hv : s.Valid) (id : String) :
    (unverifyRouteBody id).run s =
      match s.routeOf id with
      | none => (.error (noneAttributeError "verification_status"), [])
      | some _ => (.ok (), unverifiedAttrs.map (.setRoute id)) := by
  unfold unverifyRouteBody
  rw [Txn.run_bind_pure (RouteRepo.run_get hv id)]
  cases hr : s.routeOf id with
  | none => rfl
  | some route =>
    obtain rfl : route.id = id := (lookup_mem hr).2
    rfl

theorem flush_unverified {s : Store} (hid : id ∈ s.routeIds) :
    flush s (unverifiedAttrs.map (.setRoute id)) = .ok (s.withAttrs id unverifiedAttrs) :=
  flush_setPlain hid (by simp [unverifiedAttrs, RouteAttr.newCommunity])

theorem unverifyRoute_error (h : unverifyRoute eng id db = .error e db') : db' = db :=
  withUOW_error h

theorem unverifyRoute_ok (h : unverifyRoute eng id db = .ok () db') :
    id ∈ db.store.routeIds ∧ db'.store = db.store.withAttrs id unverifiedAttrs := by
  obtain ⟨Δ, hrun, -⟩ := withUOW_ok h
  have hbody := run_unverifyRouteBody db.valid id
  rw [hrun] at hbody
  cases hr : db.store.routeOf id with
  | none => rw [hr] at hbody; cases hbody
  | some r =>
    have hid : id ∈ db.store.routeIds := Store.mem_routeIds_iff.mpr ⟨r, hr⟩
    rw [hr] at hbody
    cases hbody
    exact ⟨hid, (withUOW_ok_of_flush h hrun (flush_unverified hid)).2⟩

/-- A reliable engine unverifies every stored route. -/
theorem unverifyRoute_eq (hrel : eng.Reliable) (hid : id ∈ db.store.routeIds) :
    ∃ db', unverifyRoute eng id db = .ok () db' ∧
      db'.store = db.store.withAttrs id unverifiedAttrs := by
  obtain ⟨r, hr⟩ := Store.mem_routeIds_iff.mp hid
  have hbody := run_unverifyRouteBody db.valid id
  rw [hr] at hbody
  exact withUOW_of_flush hrel hbody (flush_unverified hid)

end Unverify

end RouteRegistry
