import RouteRegistry.Registry.Requests

/-!
# Taking a route out again

`add_route_to_community` finds the community by its id or its name, while
`remove_route_from_community` compares the string with the id of the community the route
is in. So the two undo each other for one spelling only (`removeRoute_undoes_iff`).
-/

namespace RouteRegistry

open Relational UnitOfWork

section Sessions

variable {s : Store} {user u : User} {routeId communityId : String} {r : Route} {c : Community}

/-- An owner puts the route into a community it is not in. -/
theorem run_addRouteToCommunityBody_attached (eng : Engine) (hv : s.Valid)
    (h : Targets s user routeId communityId u r c) (hown : u.id ∈ s.owners r.id)
    (hc : r.communityId ≠ some c.id) :
    (addRouteToCommunityBody eng user routeId communityId).run s =
      (.ok none, [RouteAttr.community (some c.id)].map (.setRoute r.id)) := by
  have hbody := addRouteToCommunityBody_attaches eng hv user routeId communityId
  generalize (addRouteToCommunityBody eng user routeId communityId).run s = out at hbody
  cases hbody with
  | unresolved hno => exact absurd h (hno _ _ _)
  | waiting h' hown' _ | requested h' hown' _ =>
    obtain ⟨rfl, rfl, -⟩ := h.unique h'
    exact absurd hown hown'
  | member h' _ hc' =>
    obtain ⟨-, rfl, rfl⟩ := h.unique h'
    exact absurd hc' hc
  | attached h' _ _ =>
    obtain ⟨-, rfl, rfl⟩ := h.unique h'
    rfl

/-- An owner takes the route out when the string is the id of its community. -/
theorem run_removeRouteFromCommunityBody_owned (hv : s.Valid) (hu : s.userOf user.uid = some u)
    (hr : s.routeOf routeId = some r) (hown : u.id ∈ s.owners r.id) (communityId : String) :
    (removeRouteFromCommunityBody user routeId communityId).run s =
      if r.communityId = some communityId then
        (.ok (), [RouteAttr.community none].map (.setRoute r.id))
      else (.error ⟨.notFound, s!"Community {communityId} not found", none⟩, []) := by
  have hfind : (s.routes.find? fun r => decide (r.id = routeId ∧ u.id ∈ s.owners r.id)) =
      some r := by
    -- nothing in front of the route has its id, owned or not
    obtain ⟨hid, as, bs, hsplit, has⟩ := List.find?_eq_some_iff_append.mp hr
    refine List.find?_eq_some_iff_append.mpr ⟨?_, as, bs, hsplit, fun a ha => ?_⟩
    · exact decide_eq_true ⟨of_decide_eq_true hid, hown⟩
    · have hne : a.id ≠ routeId := by simpa using has a ha
      simp [hne]
  unfold removeRouteFromCommunityBody
  rw [Txn.run_bind_pure (EntityRepo.run_getUser_some hv hu), Txn.run_get_bind, hfind]
  by_cases hin : r.communityId = some communityId
  · simp [hin]
  · simp only [ne_eq, hin, not_false_eq_true, if_true, if_false]
    rfl

/-- A route put into a community and taken out again is as it was. -/
theorem Store.withAttrs_undo (hv : s.Valid) (hr : s.routeOf routeId = some r)
    (hnone : r.communityId = none) (target : Option String) :
    (s.withAttrs r.id [.community target]).withAttrs r.id [.community none] = s := by
  rw [Store.withAttrs_withAttrs]
  have hsame : Relational.modify Route.id r.id
      (RouteAttr.setAll [.community target, .community none]) s.routes = s.routes := by
    unfold Relational.modify
    conv_rhs => rw [← List.map_id s.routes]
    refine List.map_congr_left fun r' hr' => ?_
    by_cases hid : r'.id = r.id
    · obtain rfl : r' = r := hv.routeKeys.inj hr' (Store.routeOf_mem hr).1 hid
      rw [if_pos rfl]
      show { r' with communityId := none } = r'
      rw [← hnone]
    · rw [if_neg hid]
      rfl
  exact congrArg (fun routes => { s with routes := routes }) hsame

end Sessions

/-- **When removing undoes adding.** An owner has put a route that was in no community
into the one that a string names. Removing it with the same arguments brings the store
back exactly when the string is the community's id: by its name the route is not found in
it. -/
theorem removeRoute_undoes_iff (eng : Engine) (hrel : eng.Reliable) (db db₁ : Database)
    (user u : User) (route : Route) (c : Community) (name : String)
    (htargets : Targets db.store user route.id name u route c)
    (hown : u.id ∈ db.store.owners route.id) (hnone : route.communityId = none)
    (hadd : addRouteToCommunity eng user route.id name db = .ok none db₁) :
    removeRouteFromCommunity eng user route.id name db₁ = .ok () db ↔ name = c.id := by
  have hadded := run_addRouteToCommunityBody_attached eng db.valid htargets hown (by simp [hnone])
  -- the community is stored, so the block that returned has committed
  have hflush : flush db.store ([RouteAttr.community (some c.id)].map (.setRoute route.id)) =
      .ok (db.store.withAttrs route.id [.community (some c.id)]) :=
    flush_setCommunity htargets.route_mem htargets.community_mem
  have hdb₁ := (withUOW_ok_of_flush hadd hadded hflush).2
  have hr₁ : db₁.store.routeOf route.id =
      some { route with communityId := some c.id } := by
    rw [hdb₁]
    have := lookup_modify_self (k := route.id) (f := RouteAttr.setAll [.community (some c.id)])
      (RouteAttr.setAll_id _) db.store.routes
    exact this.trans (congrArg _ htargets.route)
  have hu₁ : db₁.store.userOf user.uid = some u := by
    rw [hdb₁]
    exact htargets.user
  have hown₁ : u.id ∈ db₁.store.owners route.id := by
    rw [hdb₁, Store.owners_withAttrs]
    exact hown
  have hremove := run_removeRouteFromCommunityBody_owned db₁.valid hu₁ hr₁ hown₁ name
  by_cases hname : name = c.id
  · rw [if_pos (by rw [hname])] at hremove
    refine iff_of_true ?_ hname
    have hid₁ : route.id ∈ db₁.store.routeIds := Store.mem_routeIds_iff.mpr ⟨_, hr₁⟩
    have hback : flush db₁.store ([RouteAttr.community none].map (.setRoute route.id)) =
        .ok (db₁.store.withAttrs route.id [.community none]) :=
      flush_setPlain hid₁ (by simp [RouteAttr.newCommunity])
    obtain ⟨db₂, hblock, hdb₂⟩ := withUOW_of_flush hrel hremove hback
    have hsame : db₂ = db := by
      apply Database.ext
      rw [hdb₂, hdb₁]
      exact Store.withAttrs_undo db.valid htargets.route hnone (some c.id)
    rw [← hsame]
    exact hblock
  · have hother : ¬ ({ route with communityId := some c.id } : Route).communityId = some name := by
      intro h
      exact hname (Option.some.inj h).symm
    rw [if_neg hother] at hremove
    refine iff_of_false ?_ hname
    intro h
    rw [show removeRouteFromCommunity eng user route.id name db₁ = _ from
      withUOW_raised hremove] at h
    cases h

/-- Alice's community after she has put her route into it. -/
def clubJoined (name : String) : Database :=
  (addRouteToCommunity .sqlite alice "r" name).after oneClub

theorem removeRoute_undoes_id :
    alice.id ∈ oneClub.store.owners "r" ∧
      removeRouteFromCommunity .sqlite alice "r" club.id (clubJoined club.id) = .ok () oneClub := by
  have htargets : Targets oneClub.store alice "r" club.id alice appRoute club :=
    ⟨by decide, by decide, Store.communityFor_eq_some.mpr (by decide)⟩
  exact ⟨by decide, (removeRoute_undoes_iff .sqlite Engine.sqlite_reliable oneClub
    (clubJoined club.id) alice alice appRoute club club.id htargets (by decide) rfl rfl).mpr rfl⟩

/-- Under its name the community takes the route in and does not give it back. -/
theorem removeRoute_byName_fails :
    addRouteToCommunity .sqlite alice "r" "club" oneClub = .ok none (clubJoined "club") ∧
      ((clubJoined "club").store.routeOf "r").map Route.communityId = some (some club.id) ∧
      removeRouteFromCommunity .sqlite alice "r" "club" (clubJoined "club") ≠ .ok () oneClub := by
  refine ⟨rfl, by decide, ?_⟩
  have hfails : removeRouteFromCommunity .sqlite alice "r" "club" (clubJoined "club") =
      .error ⟨.notFound, "Community club not found", none⟩ (clubJoined "club") := rfl
  rw [hfails]
  intro h
  cases h

end RouteRegistry
