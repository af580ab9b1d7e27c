import RouteRegistry.Registry.Moves
import RouteRegistry.Registry.Handlers

/-!
# Deleting a community

`remove_user_community` takes the first of the user's communities with the string as its id
or as its name, and deletes the community with that id. The routes of it stay, in no
community. The requests for it stop the deletion: their key contains the community's, and
SQLAlchemy does not blank it out.

- `removeUserCommunity_of_none`, `removeUserCommunity_of_requested`,
  `removeUserCommunity_of_free`: the three outcomes of a call.
- `removeUserCommunity_deletes_iff`: when the owner's call deletes.
-/

namespace RouteRegistry

open Relational UnitOfWork Runs

/-- The store without the community and the requests for it, its routes in no community. -/
def Store.withoutCommunity (s : Store) (id : String) : Store :=
  { s with
    communities := discard Community.id id s.communities
    routes := modify Route.communityId (some id) (RouteAttr.community none).set s.routes
    requests := discard MembershipRequest.communityId id s.requests }

/-- A request refers to the community. -/
def Store.Requested (s : Store) (id : String) : Prop := ∃ m ∈ s.requests, m.communityId = id

instance (s : Store) (id : String) : Decidable (s.Requested id) := by
  unfold Store.Requested
  infer_instance

/-- As the database lists the communities of its owner, `c` comes before any other with that
name. -/
def Store.ListedFirst (s : Store) (eng : Engine) (name : String) (c : Community) : Prop :=
  ∃ as bs, eng.communitiesOf s c.entityId = as ++ c :: bs ∧ ∀ c' ∈ as, c'.name ≠ name

section Store

variable {s : Store} {u : User} {key : String} {c : Community}

/-- The community with the id is found, if no namesake of the id is listed before it. -/
theorem Store.candidate_id_iff (eng : Engine) (hv : s.Valid) (hown : c.entityId = u.id)
    (hid : c.id = key) :
    s.candidate eng u key = some c ↔ s.ListedFirst eng key c := by
  unfold Store.candidate Store.ListedFirst
  rw [List.find?_eq_some_iff_append]
  rw [hown]
  constructor
  · rintro ⟨-, as, bs, hsplit, has⟩
    refine ⟨as, bs, hsplit, fun c' hc' hname => ?_⟩
    have := has c' hc'
    simp [hname] at this
  · rintro ⟨as, bs, hsplit, has⟩
    refine ⟨by simp [hid], as, bs, hsplit, fun c' hc' => ?_⟩
    have hne : c'.id ≠ key := by
      -- ids do not repeat
      rintro rfl
      have hkeys : ((eng.communitiesOf s u.id).map Community.id).Nodup :=
        ((eng.listed s u.id).map Community.id).nodup_iff.mpr (hv.communityKeys.filter _)
      rw [hsplit, List.map_append, List.map_cons, List.nodup_append] at hkeys
      exact hkeys.2.2 c'.id (List.mem_map_of_mem hc') c.id List.mem_cons_self hid.symm
    simp only [Bool.not_eq_true', decide_eq_false_iff_not, not_or]
    exact ⟨hne, has c' hc'⟩

theorem flush_deleteCommunity_requested (h : s.Requested key) :
    flush s [.deleteCommunity key] = .error .assertion := by
  unfold Store.Requested at h
  rw [flush_single]
  simp only [Change.apply, check]
  rw [if_pos h]
  rfl

/-- Without requests for it the community goes, and with it nothing but the link of its
routes. -/
theorem flush_deleteCommunity_free (h : ¬ s.Requested key) :
    flush s [.deleteCommunity key] = .ok (s.withoutCommunity key) := by
  have hsame : discard MembershipRequest.communityId key s.requests = s.requests := by
    refine List.filter_eq_self.mpr fun m hm => ?_
    simpa using fun heq => h ⟨m, hm, heq⟩
  unfold Store.Requested at h
  rw [flush_single]
  simp only [Change.apply, check]
  rw [if_neg h]
  unfold Store.withoutCommunity
  rw [hsame]
  rfl

end Store

section Calls

variable {eng : Engine} {db : Database} {user u : User} {key : String} {c : Community}

/-- Nothing is found: the `id` of `None` is read. -/
theorem removeUserCommunity_of_none
    (hids : ∀ c ∈ db.store.communities, Text.isUuid c.id = true)
    (hu : db.store.userOf user.uid = some u) (hfound : db.store.candidate eng u key = none) :
    removeUserCommunity eng user key db = .error (noneAttributeError "id") db := by
  have hrun := run_removeUserCommunityBody_eq eng db.valid hids hu key
  rw [hfound] at hrun
  exact reraise_of_error _ _ (withUOW_raised hrun)

/-- A request for the community makes the call raise. -/
theorem removeUserCommunity_of_requested (eng : Engine)
    (hids : ∀ c ∈ db.store.communities, Text.isUuid c.id = true)
    (hu : db.store.userOf user.uid = some u) (hfound : db.store.candidate eng u key = some c)
    (hreq : db.store.Requested c.id) : ∃ e, removeUserCommunity eng user key db = .error e db := by
  have hrun := run_removeUserCommunityBody_eq eng db.valid hids hu key
  rw [hfound] at hrun
  cases hcall : removeUserCommunity eng user key db with
  | error e db' =>
    obtain ⟨e', hblock⟩ := tryCatch_throw_eq_error hcall
    rw [withUOW_error hblock]
    exact ⟨e, rfl⟩
  | ok _ db' =>
    -- the handler swallows no `AssertionError`
    have hblock := tryCatch_throw_eq_ok.mp hcall
    obtain ⟨-, -, k, hk, -⟩ :=
      withUOW_ok_of_refused hblock hrun (flush_deleteCommunity_requested hreq)
    cases hk

theorem removeUserCommunity_of_free (hrel : eng.Reliable)
    (hids : ∀ c ∈ db.store.communities, Text.isUuid c.id = true)
    (hu : db.store.userOf user.uid = some u) (hfound : db.store.candidate eng u key = some c)
    (hreq : ¬ db.store.Requested c.id) :
    ∃ db', removeUserCommunity eng user key db = .ok () db' ∧
      db'.store = db.store.withoutCommunity c.id := by
  have hrun := run_removeUserCommunityBody_eq eng db.valid hids hu key
  rw [hfound] at hrun
  obtain ⟨db', hblock, hdb'⟩ := withUOW_of_flush hrel hrun (flush_deleteCommunity_free hreq)
  exact ⟨db', tryCatch_throw_eq_ok.mpr hblock, hdb'⟩

/-- What `withoutCommunity` leaves of the communities. -/
theorem Store.mem_communityIds_withoutCommunity {s : Store} {id id' : String} :
    id' ∈ (s.withoutCommunity id).communityIds ↔ id' ∈ s.communityIds ∧ id' ≠ id := by
  unfold Store.communityIds Store.withoutCommunity
  simp only [List.mem_map]
  constructor
  · rintro ⟨c, hc, rfl⟩
    obtain ⟨hmem, hne⟩ := mem_discard.mp hc
    exact ⟨⟨c, hmem, rfl⟩, hne⟩
  · rintro ⟨⟨c, hmem, rfl⟩, hne⟩
    exact ⟨c, mem_discard.mpr ⟨hmem, hne⟩, rfl⟩

end Calls

/-- The ids of communities are UUIDs in every state a run leads to. -/
theorem run_uuids {eng : Engine} {setup : Setup} {s₀ s : System} {es : List Event}
    (hids : ∀ c ∈ s₀.db.store.communities, Text.isUuid c.id = true)
    (hcreate : ∀ e ∈ es, e.CreatesUuids) (hrun : run (step eng setup) s₀ es = some s) :
    ∀ c ∈ s.db.store.communities, Text.isUuid c.id = true :=
  run_keeps (I := fun s : System => ∀ c ∈ s.db.store.communities, Text.isUuid c.id = true)
    (P := fun _ e => e.CreatesUuids) (fun _ _ _ h he hstep => step_uuids h he hstep)
    (along_of_forall hcreate) hrun hids

/-- **When its owner can delete a community.** In every state of a run whose communities have
UUIDs for ids, the owner's call with the id returns, and the community and nothing else is
gone, exactly when no request refers to the community and none of the owner's communities
that has its id for a name is listed before it. -/
theorem removeUserCommunity_deletes_iff (eng : Engine) (hrel : eng.Reliable) (setup : Setup)
    (s₀ : System) (hids : ∀ c ∈ s₀.db.store.communities, Text.isUuid c.id = true)
    (es : List Event) (hcreate : ∀ e ∈ es, e.CreatesUuids) (s : System)
    (hrun : run (step eng setup) s₀ es = some s) (u : User) (hu : u ∈ s.db.store.users)
    (c : Community) (hc : c ∈ s.db.store.communities) (hown : c.entityId = u.id) :
    (∃ db', removeUserCommunity eng u c.id s.db = .ok () db' ∧
      db'.store = s.db.store.withoutCommunity c.id) ↔
      ¬ s.db.store.Requested c.id ∧ s.db.store.ListedFirst eng c.id c := by
  have hids := run_uuids hids hcreate hrun
  have huser : s.db.store.userOf u.uid = some u :=
    (lookup_eq_some_iff s.db.valid.uids).mpr ⟨hu, rfl⟩
  have hfirst := Store.candidate_id_iff eng s.db.valid hown rfl
  rw [← hfirst]
  constructor
  · rintro ⟨db', hcall, hdb'⟩
    cases hfound : s.db.store.candidate eng u c.id with
    | none =>
      rw [removeUserCommunity_of_none hids huser hfound] at hcall
      cases hcall
    | some c' =>
      by_cases hreq : s.db.store.Requested c'.id
      · obtain ⟨e, herr⟩ := removeUserCommunity_of_requested eng hids huser hfound hreq
        rw [herr] at hcall
        cases hcall
      · -- the call deletes `c'`, and the claim says that `c'` is `c`
        obtain ⟨db'', hcall', hdb''⟩ :=
          removeUserCommunity_of_free hrel hids huser hfound hreq
        obtain rfl : db' = db'' := by
          rw [hcall] at hcall'
          cases hcall'
          rfl
        have hc' := (Store.candidate_mem hfound).1
        have hgone : c'.id ∉ (s.db.store.withoutCommunity c.id).communityIds := by
          rw [← hdb', hdb'', Store.mem_communityIds_withoutCommunity]
          exact fun h => h.2 rfl
        have hsame : c'.id = c.id := by
          by_contra hne
          exact hgone (Store.mem_communityIds_withoutCommunity.mpr
            ⟨List.mem_map_of_mem hc', hne⟩)
        obtain rfl := s.db.valid.communityKeys.inj hc' hc hsame
        exact ⟨hreq, rfl⟩
  · rintro ⟨hreq, hfound⟩
    exact removeUserCommunity_of_free hrel hids huser hfound hreq

/-- Alice deletes her community, which nobody has asked for. -/
theorem removeUserCommunity_club :
    ∃ db', removeUserCommunity .sqlite alice club.id oneClub = .ok () db' ∧
      db'.store = oneClub.store.withoutCommunity club.id :=
  (removeUserCommunity_deletes_iff .sqlite Engine.sqlite_reliable plainSetup ⟨oneClub, 0, []⟩
    (by decide) [] (by simp) ⟨oneClub, 0, []⟩ rfl alice (by decide) club (by decide) rfl).mpr
    ⟨by decide, [], [], by decide, by simp⟩

/-- After Bob has asked for it, she cannot. -/
theorem removeUserCommunity_asked :
    run (step .sqlite plainSetup) ⟨oneClub, 0, []⟩ [bobAsks] = some asked ∧
      asked.db.store.Requested club.id ∧
      (∃ e, removeUserCommunity .sqlite alice club.id asked.db = .error e asked.db) ∧
      ¬ ∃ db', removeUserCommunity .sqlite alice club.id asked.db = .ok () db' ∧
        db'.store = asked.db.store.withoutCommunity club.id := by
  have hreq : asked.db.store.Requested club.id := by decide
  have hfound : asked.db.store.candidate .sqlite alice club.id = some club := by decide
  obtain ⟨e, herr⟩ := removeUserCommunity_of_requested .sqlite (by decide)
    (show asked.db.store.userOf alice.uid = some alice by decide) hfound hreq
  refine ⟨rfl, hreq, ⟨e, herr⟩, ?_⟩
  rintro ⟨db', hok, -⟩
  rw [herr] at hok
  cases hok

end RouteRegistry
