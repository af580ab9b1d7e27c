import RouteRegistry.Registry.Consent

/-!
# Membership requests

A user who does not own a route asks for it with `add_route_to_community`: the call
returns a request instead of moving the route. The lookup takes the community's id or its
name, but the request is kept under the string that was passed.

- `addRouteToCommunity_ok_some`: what a returned request is, and what became of the store.
- `Kept`: a returned request is stored, and is what further calls find.
- `addRouteToCommunity_keeps_iff`: this holds exactly where the string is the id, and no
  other string finds the community.
-/

namespace RouteRegistry

open Relational UnitOfWork

/-- The stored requests of a user for a route in a community. -/
def Store.requestsFor (s : Store) (entityId communityId routeId : String) :
    List MembershipRequest :=
  s.requests.filter fun m =>
    decide ((m.entityId, m.communityId, m.routeId) = (entityId, communityId, routeId))

theorem Store.requestsFor_eq {s : Store} (hv : s.Valid) (entityId communityId routeId : String) :
    s.requestsFor entityId communityId routeId =
      (s.requestOf entityId communityId routeId).toList :=
  filter_key_eq_toList hv.requestKeys _

theorem Store.requestOf_key {s : Store} {entityId communityId routeId : String}
    {m : MembershipRequest} (h : s.requestOf entityId communityId routeId = some m) :
    m.entityId = entityId ∧ m.communityId = communityId ∧ m.routeId = routeId := by
  have hkey := (lookup_mem h).2
  simpa only [Prod.mk.injEq] using hkey

/-! ## Calls by somebody who does not own the route -/

section NotOwner

variable {s : Store} {user u : User} {routeId communityId : String} {route : Route} {c : Community}
  {m : MembershipRequest}

/-- A stored request is returned as it is. -/
theorem run_addRouteToCommunityBody_waiting (eng : Engine) (hv : s.Valid)
    (h : Targets s user routeId communityId u route c) (hown : u.id ∉ s.owners route.id)
    (hm : s.requestOf u.id communityId routeId = some m) :
    (addRouteToCommunityBody eng user routeId communityId).run s = (.ok (some m), []) := by
  have hbody := addRouteToCommunityBody_attaches eng hv user routeId communityId
  generalize (addRouteToCommunityBody eng user routeId communityId).run s = out at hbody
  cases hbody with
  | unresolved hno => exact absurd h (hno _ _ _)
  | waiting h' _ hm' =>
    obtain ⟨rfl, -, -⟩ := h.unique h'
    rw [hm] at hm'
    cases hm'
    rfl
  | requested h' _ hm' =>
    obtain ⟨rfl, -, -⟩ := h.unique h'
    rw [hm] at hm'
    cases hm'
  | member h' hown' _ | attached h' hown' _ =>
    obtain ⟨rfl, rfl, -⟩ := h.unique h'
    exact absurd hown' hown

/-- Without one, a request under the string passed is queued. -/
theorem run_addRouteToCommunityBody_requested (eng : Engine) (hv : s.Valid)
    (h : Targets s user routeId communityId u route c) (hown : u.id ∉ s.owners route.id)
    (hm : s.requestOf u.id communityId routeId = none) :
    (addRouteToCommunityBody eng user routeId communityId).run s =
      (.ok (some ⟨u.id, communityId, routeId, .pending⟩),
        [.addRequest ⟨u.id, communityId, routeId, .pending⟩]) := by
  have hbody := addRouteToCommunityBody_attaches eng hv user routeId communityId
  generalize (addRouteToCommunityBody eng user routeId communityId).run s = out at hbody
  cases hbody with
  | unresolved hno => exact absurd h (hno _ _ _)
  | waiting h' _ hm' =>
    obtain ⟨rfl, -, -⟩ := h.unique h'
    rw [hm] at hm'
    cases hm'
  | requested h' _ _ =>
    obtain ⟨rfl, -, -⟩ := h.unique h'
    rfl
  | member h' hown' _ | attached h' hown' _ =>
    obtain ⟨rfl, rfl, -⟩ := h.unique h'
    exact absurd hown' hown

/-- The request is stored, unless the string passed is no community's id. -/
theorem flush_addRequest (h : Targets s user routeId communityId u route c)
    (hm : s.requestOf u.id communityId routeId = none) (status : MembershipStatus) :
    flush s [.addRequest ⟨u.id, communityId, routeId, status⟩] =
      if communityId ∈ s.communityIds then
        .ok { s with requests := s.requests ++ [⟨u.id, communityId, routeId, status⟩] }
      else .error (.integrity .foreignKey) := by
  have hfresh : (u.id, communityId, routeId) ∉
      s.requests.map fun m => (m.entityId, m.communityId, m.routeId) := by
    rw [← lookup_isSome_iff]
    intro hsome
    rw [show lookup _ _ s.requests = none from hm] at hsome
    cases hsome
  have hentity : u.id ∈ s.entityIds := Store.user_mem_entityIds (lookup_mem h.user).1
  have hroute : routeId ∈ s.routeIds := by
    obtain ⟨hr, hid⟩ := Store.routeOf_mem h.route
    exact List.mem_map.mpr ⟨route, hr, hid⟩
  rw [flush_single]
  by_cases hc : communityId ∈ s.communityIds
  · rw [if_pos hc]
    simp only [Change.apply, check, hfresh, hentity, hc, hroute]
    rfl
  · rw [if_neg hc]
    simp only [Change.apply, check, hfresh, hentity, hc]
    rfl

end NotOwner

/-! ## What a returned request is -/

section Calls

variable {eng : Engine} {db db' : Database} {user u : User} {routeId communityId : String}
  {route : Route} {c : Community} {m : MembershipRequest}

/-- A request is kept under the string that was passed. -/
theorem addRouteToCommunity_ok_key
    (hcall : addRouteToCommunity eng user routeId communityId db = .ok (some m) db') :
    m.communityId = communityId := by
  obtain ⟨Δ, hrun, -⟩ := withUOW_ok hcall
  have hbody := addRouteToCommunityBody_attaches eng db.valid user routeId communityId
  rw [hrun] at hbody
  cases hbody with
  | waiting _ _ hm => exact (Store.requestOf_key hm).2.1
  | requested => rfl

/-- **A returned request**: it was there, it is new, or the store has refused it and the
call says nothing of that. -/
theorem addRouteToCommunity_ok_some (h : Targets db.store user routeId communityId u route c)
    (hown : u.id ∉ db.store.owners route.id)
    (hcall : addRouteToCommunity eng user routeId communityId db = .ok (some m) db') :
    (db.store.requestOf u.id communityId routeId = some m ∧ db' = db) ∨
    (db.store.requestOf u.id communityId routeId = none ∧
      m = ⟨u.id, communityId, routeId, .pending⟩ ∧
      ((communityId ∈ db.store.communityIds ∧
          db'.store = { db.store with requests := db.store.requests ++ [m] }) ∨
        (communityId ∉ db.store.communityIds ∧ db' = db))) := by
  cases hm : db.store.requestOf u.id communityId routeId with
  | some m' =>
    have hrun := run_addRouteToCommunityBody_waiting eng db.valid h hown hm
    obtain ⟨hret, hdb⟩ := withUOW_ok_of_flush hcall hrun (flush_nil _)
    cases hret
    exact .inl ⟨rfl, Database.ext hdb⟩
  | none =>
    have hrun := run_addRouteToCommunityBody_requested eng db.valid h hown hm
    have hf := flush_addRequest h hm .pending
    by_cases hc : communityId ∈ db.store.communityIds
    · rw [if_pos hc] at hf
      obtain ⟨hret, hdb⟩ := withUOW_ok_of_flush hcall hrun hf
      cases hret
      exact .inr ⟨rfl, rfl, .inl ⟨hc, hdb⟩⟩
    · rw [if_neg hc] at hf
      obtain ⟨hret, hdb, -⟩ := withUOW_ok_of_refused hcall hrun hf
      cases hret
      exact .inr ⟨rfl, rfl, .inr ⟨hc, hdb⟩⟩

/-- On SQLite every such call returns. -/
theorem addRouteToCommunity_sqlite (h : Targets db.store user routeId communityId u route c)
    (hown : u.id ∉ db.store.owners route.id) :
    ∃ m db', addRouteToCommunity .sqlite user routeId communityId db = .ok (some m) db' := by
  cases hm : db.store.requestOf u.id communityId routeId with
  | some m =>
    have hrun := run_addRouteToCommunityBody_waiting .sqlite db.valid h hown hm
    obtain ⟨db', hcall, -⟩ := withUOW_of_flush Engine.sqlite_reliable hrun (flush_nil _)
    exact ⟨m, db', hcall⟩
  | none =>
    have hrun := run_addRouteToCommunityBody_requested .sqlite db.valid h hown hm
    have hf := flush_addRequest h hm .pending
    by_cases hc : communityId ∈ db.store.communityIds
    · rw [if_pos hc] at hf
      obtain ⟨db', hcall, -⟩ := withUOW_of_flush Engine.sqlite_reliable hrun hf
      exact ⟨_, db', hcall⟩
    · -- the handler has no clause for a violated foreign key
      rw [if_neg hc] at hf
      exact ⟨_, db, Scope.block_swallowed hrun (sqliteCommit_of_integrity hf) (by decide)⟩

/-- A returned request is the one stored request of the user for the route in the
community, and further calls that find the community find the request. -/
structure Kept (eng : Engine) (db : Database) (user u : User) (routeId : String) (c : Community)
    (m : MembershipRequest) : Prop where
  stored : db.store.requestsFor u.id c.id routeId = [m]
  community : m.communityId = c.id
  again : ∀ key, db.store.communityFor key none = .ok (some c) →
    (∀ res db', addRouteToCommunity eng user routeId key db = .ok res db' →
      res = some m ∧ db' = db) ∧
    (eng.Reliable → addRouteToCommunity eng user routeId key db = .ok (some m) db)

/-- A request stored under the community's id is kept, when only the id finds it. -/
theorem kept_of_stored (h : Targets db.store user routeId c.id u route c)
    (hown : u.id ∉ db.store.owners route.id)
    (hm : db.store.requestOf u.id c.id routeId = some m)
    (honly : ∀ key, db.store.communityFor key none = .ok (some c) → key = c.id) :
    Kept eng db user u routeId c m := by
  refine ⟨?_, (Store.requestOf_key hm).2.1, fun key hkey => ?_⟩
  · rw [Store.requestsFor_eq db.valid, hm]
    rfl
  · obtain rfl := honly key hkey
    have hrun := run_addRouteToCommunityBody_waiting eng db.valid h hown hm
    refine ⟨fun res db' hcall => ?_, fun hrel => ?_⟩
    · obtain ⟨hret, hdb⟩ := withUOW_ok_of_flush hcall hrun (flush_nil _)
      exact ⟨hret, Database.ext hdb⟩
    · obtain ⟨db', hcall, hdb⟩ := withUOW_of_flush hrel hrun (flush_nil _)
      rw [Database.ext hdb] at hcall
      exact hcall

/-- **When a returned request exists.** A call by somebody who does not own the route
keeps the request it returns exactly when it passes the community's id and nothing else,
such as the name, finds the community. -/
theorem addRouteToCommunity_keeps_iff
    (h : Targets db.store user routeId communityId u route c)
    (hown : u.id ∉ db.store.owners route.id) :
    (∀ eng m db', addRouteToCommunity eng user routeId communityId db = .ok (some m) db' →
      Kept eng db' user u routeId c m) ↔
    communityId = c.id ∧
      ∀ key, db.store.communityFor key none = .ok (some c) → key = c.id := by
  constructor
  · intro hkept
    obtain ⟨m, db', hcall⟩ := addRouteToCommunity_sqlite h hown
    have hk := hkept _ _ _ hcall
    have hid : communityId = c.id := (addRouteToCommunity_ok_key hcall).symm.trans hk.community
    refine ⟨hid, fun key hkey => ?_⟩
    -- the further call is made with that key, so its request is kept under it
    have hcomm : db'.store.communities = db.store.communities := by
      rcases addRouteToCommunity_ok_some h hown hcall with ⟨-, rfl⟩ | ⟨-, -, ⟨-, hs⟩ | ⟨-, rfl⟩⟩
      · rfl
      · rw [hs]
      · rfl
    have hkey' : db'.store.communityFor key none = .ok (some c) := by
      rw [Store.communityFor_eq_some, hcomm]
      exact Store.communityFor_eq_some.mp hkey
    have hagain := (hk.again key hkey').2 Engine.sqlite_reliable
    exact (addRouteToCommunity_ok_key hagain).symm.trans hk.community
  · rintro ⟨rfl, honly⟩ eng m db' hcall
    rcases addRouteToCommunity_ok_some h hown hcall with ⟨hm, rfl⟩ | ⟨hm, rfl, ⟨-, hs⟩ | ⟨hc, -⟩⟩
    · exact kept_of_stored h hown hm honly
    · have hcomm : ∀ key, db'.store.communityFor key none = .ok (some c) ↔
          db.store.communityFor key none = .ok (some c) := by
        intro key
        rw [Store.communityFor_eq_some, Store.communityFor_eq_some, hs]
      have hnew : db'.store.requestOf u.id c.id routeId =
          some ⟨u.id, c.id, routeId, .pending⟩ := by
        refine (lookup_eq_some_iff db'.valid.requestKeys).mpr ⟨?_, rfl⟩
        rw [hs]
        exact List.mem_append_right _ (List.mem_singleton_self _)
      have htargets : Targets db'.store user routeId c.id u route c := by
        refine ⟨?_, ?_, (hcomm _).mpr h.community⟩
        · rw [hs]
          exact h.user
        · rw [hs]
          exact h.route
      have howners : u.id ∉ db'.store.owners route.id := by
        rw [hs]
        exact hown
      exact kept_of_stored htargets howners hnew fun key hkey => honly key ((hcomm key).mp hkey)
    · -- a community found is stored
      exact absurd h.community_mem hc

end Calls

/-- A community of Alice's. -/
def club : Community :=
  { id := "0123456789abcdef0123456789abcdef", name := "club", entityId := "1" }

/-- A community of Bob's, of the same name. -/
def otherClub : Community :=
  { id := "fedcba9876543210fedcba9876543210", name := "club", entityId := "2" }

/-- Alice's route and her community, and Bob. -/
def oneClub : Database := .load
  [.addUser alice, .addUser bob, .addDomain openDomain, .addRoute appRoute,
    .addOwnership ⟨alice.id, appRoute.id⟩, .addCommunity club]

/-- The same, with Bob's community. -/
def twoClubs : Database := .load
  [.addUser alice, .addUser bob, .addDomain openDomain, .addRoute appRoute,
    .addOwnership ⟨alice.id, appRoute.id⟩, .addCommunity club, .addCommunity otherClub]

/-- The name finds neither of two communities that share it, so only ids do. -/
theorem twoClubs_keeps :
    Targets twoClubs.store bob "r" club.id bob appRoute club ∧
      ∀ eng m db', addRouteToCommunity eng bob "r" club.id twoClubs = .ok (some m) db' →
        Kept eng db' bob bob "r" club m := by
  have htargets : Targets twoClubs.store bob "r" club.id bob appRoute club :=
    ⟨by decide, by decide, Store.communityFor_eq_some.mpr (by decide)⟩
  refine ⟨htargets, (addRouteToCommunity_keeps_iff htargets (by decide)).mpr
    ⟨rfl, fun key hkey => ?_⟩⟩
  have hmatch := (Store.communityFor_mem hkey).2
  by_cases huuid : Text.isUuid key = true
  · simp only [Community.matchesKey, huuid, if_true, Bool.and_eq_true, decide_eq_true_eq] at hmatch
    exact hmatch.1.symm
  · simp only [Community.matchesKey, huuid, Bool.false_eq_true, if_false, Bool.and_eq_true,
      decide_eq_true_eq] at hmatch
    obtain rfl : club.name = key := hmatch.1
    rw [Store.communityFor_eq_some] at hkey
    exact absurd hkey (by decide)

/-- Bob asks for Alice's community by its name: the call returns a request, and the store
has none. -/
theorem request_byName_lost :
    Targets oneClub.store bob "r" "club" bob appRoute club ∧
    bob.id ∉ oneClub.store.owners appRoute.id ∧
    ∃ m db', addRouteToCommunity .sqlite bob "r" "club" oneClub = .ok (some m) db' ∧
      db'.store.requests = [] := by
  have htargets : Targets oneClub.store bob "r" "club" bob appRoute club :=
    ⟨by decide, by decide, Store.communityFor_eq_some.mpr (by decide)⟩
  have hown : bob.id ∉ oneClub.store.owners appRoute.id := by decide
  obtain ⟨m, db', hcall⟩ := addRouteToCommunity_sqlite htargets hown
  refine ⟨htargets, hown, m, db', hcall, ?_⟩
  rcases addRouteToCommunity_ok_some htargets hown hcall with
    ⟨-, rfl⟩ | ⟨-, -, ⟨hc, -⟩ | ⟨-, rfl⟩⟩
  · decide
  · exact absurd hc (by decide)
  · decide

end RouteRegistry
