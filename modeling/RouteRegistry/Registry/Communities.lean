import RouteRegistry.Registry.Api
import RouteRegistry.Registry.Writes

/-!
# Communities

What the sessions of the community services queue.

- `Store.communityFor`: the lookup by id or name, on a store.
- `registrationCommunity_cases`: what the registration endpoint finds with it.
- `Attaches`: every way the body of `add_route_to_community` can end
  (`addRouteToCommunityBody_attaches`).
- `run_createCommunityBody`: a new community belongs to the caller.
- `run_removeUserCommunityBody_eq`: the scan finds a community, and its id finds it again.
-/

namespace RouteRegistry

open Relational UnitOfWork

/-! ## The lookup by id or name -/

/-- `CommunityRepo.get`, on a store. -/
def Store.communityFor (s : Store) (idOrName : String) (entityId : Option String) :
    Except Exc (Option Community) :=
  ((CommunityRepo.get idOrName entityId).run s).1

theorem run_queryOne_cases {α : Type} (s : Store) (table : Store → List α) (p : α → Bool) :
    ((table s).filter p = [] ∧ (queryOne table p).run s = (.ok none, [])) ∨
    (∃ a, (table s).filter p = [a] ∧ (queryOne table p).run s = (.ok (some a), [])) ∨
    (1 < ((table s).filter p).length ∧
      ∃ msg, (queryOne table p).run s = (.error ⟨.lib .multipleResultsFound, msg, none⟩, [])) := by
  have hrun : (queryOne table p).run s = (scalarOneOrNone ((table s).filter p)).run s := rfl
  rw [hrun]
  cases (table s).filter p with
  | nil => exact .inl ⟨rfl, rfl⟩
  | cons a rest =>
    cases rest with
    | nil => exact .inr (.inl ⟨a, rfl, rfl⟩)
    -- a name is unique only among the communities of one owner
    | cons b rest => exact .inr (.inr ⟨by simp, _, rfl⟩)

/-- The condition a community is looked up by. -/
def Community.matchesKey (idOrName : String) (entityId : Option String) (c : Community) : Bool :=
  (if Text.isUuid idOrName then decide (c.id = idOrName) else decide (c.name = idOrName)) &&
    CommunityRepo.ownedBy entityId c

theorem communityRepo_get_eq (idOrName : String) (entityId : Option String) :
    CommunityRepo.get idOrName entityId =
      queryOne Store.communities (Community.matchesKey idOrName entityId) := by
  unfold CommunityRepo.get CommunityRepo.getById CommunityRepo.getByName Community.matchesKey
  by_cases h : Text.isUuid idOrName = true
  · simp [h]
  · simp [h]

theorem run_getCommunity (s : Store) (idOrName : String) (entityId : Option String) :
    (CommunityRepo.get idOrName entityId).run s = (s.communityFor idOrName entityId, []) := by
  unfold Store.communityFor
  rw [communityRepo_get_eq]
  rcases run_queryOne_cases s Store.communities (Community.matchesKey idOrName entityId) with
    ⟨-, h⟩ | ⟨c, -, h⟩ | ⟨-, msg, h⟩ <;> rw [h]

/-- A lookup finds a community when exactly one matches. -/
theorem Store.communityFor_eq_some {s : Store} {idOrName : String} {entityId : Option String}
    {c : Community} :
    s.communityFor idOrName entityId = .ok (some c) ↔
      s.communities.filter (Community.matchesKey idOrName entityId) = [c] := by
  unfold communityFor
  rw [communityRepo_get_eq]
  rcases run_queryOne_cases s Store.communities (Community.matchesKey idOrName entityId) with
    ⟨hf, h⟩ | ⟨c', hf, h⟩ | ⟨hf, msg, h⟩
  · rw [h, hf]
    simp
  · rw [h, hf]
    simp
  · rw [h]
    constructor
    · intro h
      cases h
    · intro h
      rw [h] at hf
      simp at hf

/-- A community found is stored, and matches. -/
theorem Store.communityFor_mem {s : Store} {idOrName : String} {entityId : Option String}
    {c : Community} (h : s.communityFor idOrName entityId = .ok (some c)) :
    c ∈ s.communities ∧ c.matchesKey idOrName entityId = true := by
  have hmem : c ∈ s.communities.filter (Community.matchesKey idOrName entityId) := by
    rw [communityFor_eq_some.mp h]
    exact List.mem_singleton_self c
  exact List.mem_filter.mp hmem

/-- A lookup raises when several communities match. -/
theorem Store.communityFor_error {s : Store} {idOrName : String} {entityId : Option String}
    {e : Exc} (h : s.communityFor idOrName entityId = .error e) :
    ∃ msg, e = ⟨.lib .multipleResultsFound, msg, none⟩ := by
  unfold communityFor at h
  rw [communityRepo_get_eq] at h
  rcases run_queryOne_cases s Store.communities (Community.matchesKey idOrName entityId) with
    ⟨-, hrun⟩ | ⟨c, -, hrun⟩ | ⟨-, msg, hrun⟩
  · rw [hrun] at h
    cases h
  · rw [hrun] at h
    cases h
  · rw [hrun] at h
    cases h
    exact ⟨msg, rfl⟩

/-- `get_user_community` changes nothing; what it raises comes from the lookup or the commit. -/
theorem getUserCommunity_cases (eng : Engine) (user : User) (idOrName : String) (db : Database) :
    (∃ found, getUserCommunity eng user idOrName db = .ok found db ∧
      db.store.communityFor idOrName (some user.id) = .ok found) ∨
    ∃ e, getUserCommunity eng user idOrName db = .error e db ∧
      ((∃ msg, e = ⟨.lib .multipleResultsFound, msg, none⟩) ∨ ∃ c, commitHandler c = some e) := by
  have hrun := run_getCommunity db.store idOrName (some user.id)
  cases hget : getUserCommunity eng user idOrName db with
  | ok found db' =>
    cases hfound : db.store.communityFor idOrName (some user.id) with
    | error e =>
      rw [hfound] at hrun
      have hraised : getUserCommunity eng user idOrName db = .error e db := withUOW_raised hrun
      cases hraised.symm.trans hget
    | ok found' =>
      rw [hfound] at hrun
      obtain ⟨rfl, hs⟩ := withUOW_ok_of_flush hget hrun (flush_nil _)
      obtain rfl : db' = db := Database.ext hs
      exact .inl ⟨found, rfl, rfl⟩
  | error e db' =>
    obtain rfl : db' = db := withUOW_error hget
    refine .inr ⟨e, rfl, ?_⟩
    rcases withUOW_error_cases hget with ⟨Δ, hraised⟩ | hcommit
    · rw [hrun] at hraised
      exact .inl (Store.communityFor_error (Prod.mk.inj hraised).1)
    · exact .inr hcommit

/-- The lookup of `register` changes nothing, and finds no community but one of the caller's;
what it raises is a 400, or comes from that lookup. -/
theorem registrationCommunity_cases (eng : Engine) (user : User) (name : Option String)
    (db : Database) :
    (∃ community, registrationCommunity eng user name db = .ok community db ∧
      ∀ c, community = some c →
        db.store.communityFor (Text.fieldText name) (some user.id) = .ok (some c)) ∨
    ∃ e, registrationCommunity eng user name db = .error e db ∧
      ((∃ detail, e = httpException 400 detail) ∨
        (∃ msg, e = ⟨.lib .multipleResultsFound, msg, none⟩) ∨ ∃ c, commitHandler c = some e) := by
  unfold registrationCommunity
  by_cases hname : Text.truthy name = true
  · rw [if_pos hname]
    rcases getUserCommunity_cases eng user (Text.fieldText name) db with
      ⟨found, hget, hfound⟩ | ⟨e, hget, horigin⟩
    · rw [Service.bind_of_ok hget]
      cases found with
      | none => exact .inr ⟨_, rfl, .inl ⟨_, rfl⟩⟩
      | some c =>
        refine .inl ⟨some c, rfl, fun c' hc' => ?_⟩
        rw [hfound, hc']
    · rw [Service.bind_of_error hget]
      exact .inr ⟨e, rfl, .inr horigin⟩
  · rw [if_neg hname]
    exact .inl ⟨none, rfl, fun c hc => by cases hc⟩

/-! ## `create_community` -/

theorem run_createCommunityBody {s : Store} (hv : s.Valid) (user : User) (community : Community) :
    (createCommunityBody user community).run s =
      match s.userOf user.uid with
      | some u =>
        (.ok { community with entityId := u.id },
          [.addCommunity { community with entityId := u.id }])
      | none =>
        (.error ⟨.repoNotFound, s!"User with uid {Text.fieldText user.uid} not found", none⟩, []) := by
  unfold createCommunityBody
  cases hu : s.userOf user.uid with
  | none => rw [Txn.run_bind_error (EntityRepo.run_getUser_none hv hu)]
  | some u =>
    rw [Txn.run_bind_pure (EntityRepo.run_getUser_some hv hu)]
    rfl

/-! ## `add_route_to_community` -/

/-- The call is by the user `u`, about the route and the community. -/
structure Targets (s : Store) (user : User) (routeId communityId : String) (u : User)
    (route : Route) (c : Community) : Prop where
  user : s.userOf user.uid = some u
  route : s.routeOf routeId = some route
  community : s.communityFor communityId none = .ok (some c)

section Targets

variable {s : Store} {user u : User} {routeId communityId : String} {route : Route} {c : Community}

/-- The user, the route and the community of a call are determined. -/
theorem Targets.unique {u' : User} {route' : Route} {c' : Community}
    (h : Targets s user routeId communityId u route c)
    (h' : Targets s user routeId communityId u' route' c') : u' = u ∧ route' = route ∧ c' = c := by
  refine ⟨Option.some.inj (h'.user.symm.trans h.user),
    Option.some.inj (h'.route.symm.trans h.route), ?_⟩
  exact Option.some.inj (Except.ok.inj (h'.community.symm.trans h.community))

theorem Targets.route_mem (h : Targets s user routeId communityId u route c) :
    route.id ∈ s.routeIds :=
  List.mem_map.mpr ⟨route, (Store.routeOf_mem h.route).1, rfl⟩

theorem Targets.community_mem (h : Targets s user routeId communityId u route c) :
    c.id ∈ s.communityIds :=
  List.mem_map.mpr ⟨c, (Store.communityFor_mem h.community).1, rfl⟩

end Targets

/-- The request for a route, if it is stored. -/
def Store.requestOf (s : Store) (entityId communityId routeId : String) :
    Option MembershipRequest :=
  lookup (fun m => (m.entityId, m.communityId, m.routeId)) (entityId, communityId, routeId)
    s.requests

/-- Every way the body of `add_route_to_community` can end. -/
inductive Attaches (s : Store) (user : User) (routeId communityId : String) :
    Except Exc (Option MembershipRequest) × List Change → Prop where
  | unresolved {e : Exc} (h : ∀ u route c, ¬ Targets s user routeId communityId u route c) :
    Attaches s user routeId communityId (.error e, [])
  /-- Not an owner, and a request is there. -/
  | waiting {u : User} {route : Route} {c : Community} {m : MembershipRequest}
      (h : Targets s user routeId communityId u route c) (hown : u.id ∉ s.owners route.id)
      (hm : s.requestOf u.id communityId routeId = some m) :
    Attaches s user routeId communityId (.ok (some m), [])
  | requested {u : User} {route : Route} {c : Community}
      (h : Targets s user routeId communityId u route c) (hown : u.id ∉ s.owners route.id)
      (hm : s.requestOf u.id communityId routeId = none) :
    Attaches s user routeId communityId
      (.ok (some ⟨u.id, communityId, routeId, .pending⟩),
        [.addRequest ⟨u.id, communityId, routeId, .pending⟩])
  | member {u : User} {route : Route} {c : Community} {e : Exc}
      (h : Targets s user routeId communityId u route c) (hown : u.id ∈ s.owners route.id)
      (hc : route.communityId = some c.id) :
    Attaches s user routeId communityId (.error e, [])
  | attached {u : User} {route : Route} {c : Community}
      (h : Targets s user routeId communityId u route c) (hown : u.id ∈ s.owners route.id)
      (hc : route.communityId ≠ some c.id) :
    Attaches s user routeId communityId
      (.ok none, [.setRoute route.id (.community (some c.id))])

/-- **The body of `add_route_to_community`, case by case.** -/
theorem addRouteToCommunityBody_attaches (eng : Engine) {s : Store} (hv : s.Valid) (user : User)
    (routeId communityId : String) :
    Attaches s user routeId communityId
      ((addRouteToCommunityBody eng user routeId communityId).run s) := by
  unfold addRouteToCommunityBody
  cases hu : s.userOf user.uid with
  | none =>
    rw [Txn.run_bind_error (EntityRepo.run_getUser_none hv hu)]
    exact .unresolved fun u route c h => by cases hu.symm.trans h.user
  | some u =>
    rw [Txn.run_bind_pure (EntityRepo.run_getUser_some hv hu),
      Txn.run_bind_pure (RouteRepo.run_get hv routeId)]
    cases hr : s.routeOf routeId with
    | none => exact .unresolved fun u route c h => by cases hr.symm.trans h.route
    | some route =>
      have hget := run_getCommunity s communityId none
      cases hc : s.communityFor communityId none with
      | error e =>
        rw [hc] at hget
        simp only [Txn.run_bind_error hget]
        exact .unresolved fun u route c h => by cases hc.symm.trans h.community
      | ok found =>
        rw [hc] at hget
        simp only [Txn.run_bind_pure hget]
        cases found with
        | none => exact .unresolved fun u route c h => by cases hc.symm.trans h.community
        | some c =>
          have htargets : Targets s user routeId communityId u route c := ⟨hu, hr, hc⟩
          simp only [RouteRepo.entities, Txn.run_get_bind]
          by_cases hown : u.id ∈ s.owners route.id
          · rw [if_neg (not_not.mpr hown)]
            by_cases hin : route.communityId = some c.id
            · rw [if_pos hin]
              exact .member htargets hown hin
            · rw [if_neg hin]
              exact .attached htargets hown hin
          · rw [if_pos hown, Txn.run_bind_pure (MembershipRequestRepo.run_get hv _ _ _)]
            cases hm : s.requestOf u.id communityId routeId with
            | some m =>
              rw [show lookup _ _ s.requests = some m from hm]
              exact .waiting htargets hown hm
            | none =>
              rw [show lookup _ _ s.requests = none from hm]
              exact .requested htargets hown hm

/-! ## Deleting -/

/-- The scan of `remove_user_community` over the communities of a user. -/
def Store.candidate (s : Store) (eng : Engine) (u : User) (idOrName : String) : Option Community :=
  (eng.communitiesOf s u.id).find? fun c => decide (c.id = idOrName ∨ c.name = idOrName)

section Deleting

variable {eng : Engine} {s : Store} {u : User} {key : String} {c : Community}

theorem Store.candidate_mem (h : s.candidate eng u key = some c) :
    c ∈ s.communities ∧ c.entityId = u.id ∧ (c.id = key ∨ c.name = key) := by
  obtain ⟨hc, hown⟩ := Engine.mem_communitiesOf.mp (List.mem_of_find?_eq_some h)
  exact ⟨hc, hown, by simpa using List.find?_some h⟩

/-- The scan passes over every community of the user's that has the string for a name. -/
theorem Store.candidate_none (h : s.candidate eng u key = none) (hc : c ∈ s.communities)
    (hown : c.entityId = u.id) : c.name ≠ key := by
  have hno := List.find?_eq_none.mp h c (Engine.mem_communitiesOf.mpr ⟨hc, hown⟩)
  rintro rfl
  simp at hno

/-- The lookup by the id finds the community again. -/
theorem Store.communityFor_id (hv : s.Valid) (hc : c ∈ s.communities)
    (hid : Text.isUuid c.id = true) : s.communityFor c.id none = .ok (some c) := by
  rw [Store.communityFor_eq_some]
  have hmatch : s.communities.filter (Community.matchesKey c.id none) =
      s.communities.filter fun c' => decide (c'.id = c.id) := by
    refine List.filter_congr fun c' _ => ?_
    simp [Community.matchesKey, hid, CommunityRepo.ownedBy, Text.truthy]
  rw [hmatch, filter_key_eq_toList hv.communityKeys]
  rw [(lookup_eq_some_iff hv.communityKeys).mpr ⟨hc, rfl⟩]
  rfl

/-- Where nothing is found, the `id` of `None` is read. -/
theorem run_removeUserCommunityBody_none (hv : s.Valid) {user : User}
    (hu : s.userOf user.uid = some u) (hnone : s.candidate eng u key = none) :
    (removeUserCommunityBody eng user key).run s = (.error (noneAttributeError "id"), []) := by
  unfold Store.candidate at hnone
  unfold removeUserCommunityBody
  rw [Txn.run_bind_pure (EntityRepo.run_getUser_some hv hu), Txn.run_get_bind, hnone]
  rfl

/-- **The session of `remove_user_community`**, given that ids are UUIDs. -/
theorem run_removeUserCommunityBody_eq (eng : Engine) (hv : s.Valid)
    (hids : ∀ c ∈ s.communities, Text.isUuid c.id = true) {user : User}
    (hu : s.userOf user.uid = some u) (key : String) :
    (removeUserCommunityBody eng user key).run s =
      match s.candidate eng u key with
      | some c => (.ok (), [.deleteCommunity c.id])
      | none => (.error (noneAttributeError "id"), []) := by
  cases hfound : s.candidate eng u key with
  | none => exact run_removeUserCommunityBody_none hv hu hfound
  | some c =>
    have hc := (Store.candidate_mem hfound).1
    have hget := run_getCommunity s c.id none
    rw [Store.communityFor_id hv hc (hids c hc)] at hget
    unfold Store.candidate at hfound
    unfold removeUserCommunityBody
    rw [Txn.run_bind_pure (EntityRepo.run_getUser_some hv hu), Txn.run_get_bind, hfound]
    show (CommunityRepo.remove c.id).run s = _
    unfold CommunityRepo.remove
    rw [Txn.run_bind_pure hget]
    rfl

end Deleting

end RouteRegistry
