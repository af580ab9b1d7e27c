import RouteRegistry.Registry.Requests
import RouteRegistry.Registry.Verification

/-!
# Who moves a route

A route is in at most one community. Four blocks write the link: a registration, the two
calls that add a route and take it out, and the deletion of a community.

- `Change.Moves`: the changes that can write it, and `flush_community`: without one the
  route stays where it is.
- `Moved`: what a step of the system may have done to the community of a route
  (`step_moved`), given that the ids of communities are UUIDs.
- `only_owners_move`: so it is in every run.
-/

namespace RouteRegistry

open Relational UnitOfWork Runs

/-! ## Changes of the community of a route -/

/-- The change can put the route `id` into another community, or none. -/
def Change.Moves (id : String) : Change → Prop
  | .setRoute id' (.community _) => id' = id
  | .deleteCommunity _ => True
  | _ => False

/-- A route that is there stays, and in its community unless the change moves it. -/
theorem Change.effect_community {s : Store} {c : Change} {id : String} {r : Route}
    (hr : s.routeOf id = some r) (hc : ¬ c.Moves id) :
    ∃ r', (c.effect s).routeOf id = some r' ∧ r'.communityId = r.communityId := by
  cases c with
  | addRoute r' => exact ⟨r, lookup_append_of_some hr, rfl⟩
  | setRoute id' a =>
    have hl : lookup Route.id id (modify Route.id id' a.set s.routes) = _ :=
      lookup_modify a.set_id s.routes
    rw [show lookup Route.id id s.routes = some r from hr, Option.map_some] at hl
    refine ⟨_, hl, ?_⟩
    split
    · rename_i hid
      cases a with
      | community target => exact absurd hid.symm hc
      | _ => rfl
    · rfl
  | deleteCommunity cid => exact absurd trivial hc
  | _ => exact ⟨r, hr, rfl⟩

theorem flush_community {s s' : Store} {Δ : List Change} {id : String} {r : Route}
    (hf : flush s Δ = .ok s') (hr : s.routeOf id = some r) (hΔ : ∀ c ∈ Δ, ¬ c.Moves id) :
    ∃ r', s'.routeOf id = some r' ∧ r'.communityId = r.communityId := by
  refine flush_keeps (I := fun s => ∃ r', s.routeOf id = some r' ∧
    r'.communityId = r.communityId) ?_ hf ⟨r, hr, rfl⟩
  rintro s₁ ⟨r₁, hr₁, hcomm⟩ c hc
  obtain ⟨r₂, hr₂, hcomm₂⟩ := Change.effect_community hr₁ (hΔ c hc)
  exact ⟨r₂, hr₂, hcomm₂.trans hcomm⟩

/-- A deleted community leaves its routes without one, and the others where they are. -/
theorem flush_deleteCommunity {s s' : Store} {cid id : String} {r : Route}
    (hf : flush s [.deleteCommunity cid] = .ok s') (hr : s.routeOf id = some r) :
    ∃ r', s'.routeOf id = some r' ∧ (r'.communityId = r.communityId ∨
      r.communityId = some cid ∧ r'.communityId = none ∧ cid ∉ s'.communityIds) := by
  rw [flush_single] at hf
  obtain rfl := Change.apply_effect hf
  refine ⟨_, Change.routeOf_deleteCommunity cid hr, ?_⟩
  split
  · rename_i hin
    refine .inr ⟨hin, rfl, fun hmem => ?_⟩
    obtain ⟨c, hc, hid⟩ := List.mem_map.mp hmem
    exact (mem_discard.mp hc).2 hid
  · exact .inl rfl

/-! ## What the blocks write -/

/-- The block runs in the name of the user. -/
def Transaction.By (u : User) : Transaction → Prop
  | .registerRoute reg _ => u.uid = some reg.userUid
  | .addRouteToCommunity user _ _ | .removeRouteFromCommunity user _ _ => u.uid = user.uid
  | .createCommunity user _ | .removeUserCommunity user _ => u.uid = user.uid
  | _ => False

/-- The blocks that write the community of a route. -/
def Transaction.Links : Transaction → Prop
  | .registerRoute _ _ | .addRouteToCommunity _ _ _ | .removeRouteFromCommunity _ _ _
  | .removeUserCommunity _ _ => True
  | _ => False

theorem Transaction.mayQueue_moves {now : Time} {t : Transaction} {c : Change} {id : String}
    (hc : t.mayQueue now c) (hmoves : c.Moves id) : t.Links := by
  cases c with
  | setRoute id' a =>
    cases a with
    | community target => cases t <;> simp [mayQueue, Links] at hc ⊢
    | _ => exact hmoves.elim
  | deleteCommunity cid => cases t <;> simp [mayQueue, Links] at hc ⊢
  | _ => exact hmoves.elim

section Bodies

variable {s : Store} {user : User} {routeId communityId : String}

/-- `remove_route_from_community` takes a route of the caller's out. -/
theorem run_removeRouteFromCommunityBody (hv : s.Valid) {Δ : List Change}
    (hrun : (removeRouteFromCommunityBody user routeId communityId).run s = (.ok (), Δ)) :
    ∃ u id, s.userOf user.uid = some u ∧ u.id ∈ s.owners id ∧
      Δ = [.setRoute id (.community none)] := by
  unfold removeRouteFromCommunityBody at hrun
  cases hu : s.userOf user.uid with
  | none =>
    rw [Txn.run_bind_error (EntityRepo.run_getUser_none hv hu)] at hrun
    cases hrun
  | some u =>
    rw [Txn.run_bind_pure (EntityRepo.run_getUser_some hv hu), Txn.run_get_bind] at hrun
    cases hfound : s.routes.find? fun r => decide (r.id = routeId ∧ u.id ∈ s.owners r.id) with
    | none =>
      rw [hfound] at hrun
      cases hrun
    | some r =>
      rw [hfound] at hrun
      have hown : r.id = routeId ∧ u.id ∈ s.owners r.id := by
        simpa using List.find?_some hfound
      by_cases hin : r.communityId = some communityId
      · simp only [hin, ne_eq, not_true_eq_false, if_false, Txn.run_put] at hrun
        cases hrun
        exact ⟨u, r.id, rfl, hown.2, rfl⟩
      · simp only [ne_eq, hin, not_false_eq_true, if_true] at hrun
        cases hrun

/-- `remove_user_community` deletes a community of the caller's, found again by its id. -/
theorem run_removeUserCommunityBody (hv : s.Valid)
    (hids : ∀ c ∈ s.communities, Text.isUuid c.id = true) {idOrName : String} {Δ : List Change}
    (hrun : (removeUserCommunityBody eng user idOrName).run s = (.ok (), Δ)) :
    ∃ u c, s.userOf user.uid = some u ∧ c ∈ s.communities ∧ c.entityId = u.id ∧
      Δ = [.deleteCommunity c.id] := by
  cases hu : s.userOf user.uid with
  | none =>
    unfold removeUserCommunityBody at hrun
    rw [Txn.run_bind_error (EntityRepo.run_getUser_none hv hu)] at hrun
    cases hrun
  | some u =>
    rw [run_removeUserCommunityBody_eq eng hv hids hu] at hrun
    cases hc : s.candidate eng u idOrName with
    | none =>
      rw [hc] at hrun
      cases hrun
    | some c =>
      rw [hc] at hrun
      cases hrun
      obtain ⟨hmem, hown, -⟩ := Store.candidate_mem hc
      exact ⟨u, c, rfl, hmem, hown, rfl⟩

end Bodies

/-- What a step from `s` to `s'` may have done to the community of a route. -/
inductive Moved (s s' : Store) (e : Event) (r r' : Route) : Prop where
  | kept (h : r'.communityId = r.communityId)
  /-- A call by an owner. -/
  | byOwner {t : Transaction} {u : User} (ht : e = .transact t) (hu : u ∈ s.users)
      (hby : t.By u) (hown : u.id ∈ s.owners r.id)
  /-- The community is deleted by the user it belongs to. -/
  | deleted {user u : User} {idOrName : String} {c : Community}
      (ht : e = .transact (.removeUserCommunity user idOrName)) (hu : u ∈ s.users)
      (huid : u.uid = user.uid) (hc : c ∈ s.communities) (hown : c.entityId = u.id)
      (hr : r.communityId = some c.id) (hr' : r'.communityId = none)
      (hgone : c.id ∉ s'.communityIds)

section Block

variable {s s' : Store} {Δ : List Change} {e : Event} {id : String} {r : Route}

/-- A block that queues nothing that moves a route moves none. -/
theorem moved_of_quiet (hf : flush s Δ = .ok s') (hr : s.routeOf id = some r)
    (hquiet : ∀ c ∈ Δ, ¬ c.Moves id) :
    ∃ r', s'.routeOf id = some r' ∧ Moved s s' e r r' := by
  obtain ⟨r', hr', hkept⟩ := flush_community hf hr hquiet
  exact ⟨r', hr', .kept hkept⟩

/-- A block that queues changes of one route, by an owner of it, moves no other one. -/
theorem moved_of_owner (hf : flush s Δ = .ok s') (hr : s.routeOf id = some r) {t : Transaction}
    {u : User} {id' : String} (hu : u ∈ s.users) (hby : t.By u) (hown : u.id ∈ s.owners id')
    (honly : ∀ c ∈ Δ, c.Moves id → id' = id) :
    ∃ r', s'.routeOf id = some r' ∧ Moved s s' (.transact t) r r' := by
  by_cases hid : id' = id
  · obtain ⟨as, hr', -⟩ := flush_routeOf hf hr
    have hown' : u.id ∈ s.owners r.id := by
      rw [(Store.routeOf_mem hr).2, ← hid]
      exact hown
    exact ⟨_, hr', .byOwner rfl hu hby hown'⟩
  · exact moved_of_quiet hf hr fun c hc hmoves => hid (honly c hc hmoves)

end Block

section Steps

variable {eng : Engine} {setup : Setup} {s s' : System} {e : Event}

/-- **One block**, given that communities have UUIDs for ids. -/
theorem transact_moved (eng : Engine) (setup : Setup) (now : Time) (t : Transaction)
    {db : Database} {id : String} {r : Route}
    (hids : ∀ c ∈ db.store.communities, Text.isUuid c.id = true)
    (hr : db.store.routeOf id = some r) :
    ∃ r', ((t.run eng setup now).after db).store.routeOf id = some r' ∧
      Moved db.store ((t.run eng setup now).after db).store (.transact t) r r' := by
  rcases t.after_run eng setup now db with hsame | ⟨a, Δ, hrun, hf, hqueued⟩
  · rw [hsame]
    exact ⟨r, hr, .kept rfl⟩
  cases t with
  | registerRoute reg draws =>
    have hbody := registerRouteBody_registers db.valid reg { draws with now := now }
    rw [show (registerRouteBody reg { draws with now := now }).run db.store = _ from hrun] at hbody
    cases hbody with
    | @rebound d u src r₀ hres hr₀ hown =>
      refine moved_of_owner hf hr hres.user_mem.1 hres.user_mem.2 hown ?_
      intro c hc hmoves
      obtain ⟨a, -, rfl⟩ := List.mem_map.mp hc
      cases a with
      | community target => exact hmoves
      | _ => exact hmoves.elim
    | created hres hr₀ hd => exact moved_of_quiet hf hr (by simp [Change.Moves])
  | addRouteToCommunity user routeId communityId =>
    have hbody := addRouteToCommunityBody_attaches eng db.valid user routeId communityId
    rw [show (addRouteToCommunityBody eng user routeId communityId).run db.store = _ from hrun] at hbody
    cases hbody with
    | waiting | requested => exact moved_of_quiet hf hr (by simp [Change.Moves])
    | @attached u route c htargets hown hc =>
      obtain ⟨hu, huid⟩ := lookup_mem htargets.user
      refine moved_of_owner hf hr hu huid hown ?_
      intro c hc hmoves
      rw [List.mem_singleton] at hc
      subst hc
      exact hmoves
  | removeRouteFromCommunity user routeId communityId =>
    obtain ⟨u, id', hu, hown, rfl⟩ := run_removeRouteFromCommunityBody db.valid hrun
    obtain ⟨hu, huid⟩ := lookup_mem hu
    refine moved_of_owner hf hr hu huid hown ?_
    intro c hc hmoves
    rw [List.mem_singleton] at hc
    subst hc
    exact hmoves
  | removeUserCommunity user idOrName =>
    obtain ⟨u, c, hu, hc, hown, rfl⟩ := run_removeUserCommunityBody db.valid hids hrun
    obtain ⟨hu, huid⟩ := lookup_mem hu
    obtain ⟨r', hr', hkept | ⟨hin, hout, hgone⟩⟩ := flush_deleteCommunity hf hr
    · exact ⟨r', hr', .kept hkept⟩
    · exact ⟨r', hr', .deleted rfl hu huid hc hown hin hout hgone⟩
  | _ =>
    exact moved_of_quiet hf hr fun c hc hmoves =>
      (Transaction.mayQueue_moves (hqueued c hc) hmoves).elim

/-- **One step** moves a route by an owner's call or the deletion of its community. -/
theorem step_moved (hids : ∀ c ∈ s.db.store.communities, Text.isUuid c.id = true)
    (hstep : step eng setup s e = some s') {id : String} {r : Route}
    (hr : s.db.store.routeOf id = some r) :
    ∃ r', s'.db.store.routeOf id = some r' ∧ Moved s.db.store s'.db.store e r r' := by
  rcases step_db hstep with hdb | ⟨t, hdb, hkind⟩
  · rw [hdb]
    exact ⟨r, hr, .kept rfl⟩
  · obtain ⟨r', hr', hmoved⟩ := transact_moved eng setup s.clock t hids hr
    rw [← hdb] at hr' hmoved
    refine ⟨r', hr', ?_⟩
    rcases hkind with rfl | ⟨id', fetch, rfl⟩ | ⟨id', rfl⟩
    · exact hmoved
    -- a pass acts in nobody's name
    · cases hmoved with
      | kept h => exact .kept h
      | byOwner ht _ hby _ =>
        cases ht
        exact hby.elim
      | deleted ht => cases ht
    · cases hmoved with
      | kept h => exact .kept h
      | byOwner ht _ hby _ =>
        cases ht
        exact hby.elim
      | deleted ht => cases ht

/-! ## What all blocks keep -/

theorem Change.effect_communities {s : Store} {c : Change} {c' : Community}
    (h : c' ∈ (c.effect s).communities) : c' ∈ s.communities ∨ c = .addCommunity c' := by
  cases c with
  | addCommunity c₁ =>
    rcases List.mem_append.mp h with h | h
    · exact .inl h
    · exact .inr (by rw [List.mem_singleton.mp h])
  | deleteCommunity cid => exact .inl (mem_discard.mp h).1
  | _ => exact .inl h

/-- Nothing takes a request back or changes it. -/
theorem flush_requests {s s' : Store} {Δ : List Change} (hf : flush s Δ = .ok s') :
    ∀ m ∈ s.requests, m ∈ s'.requests := by
  refine flush_keeps (I := fun s₁ => ∀ m ∈ s.requests, m ∈ s₁.requests) ?_ hf fun m hm => hm
  intro s₁ hall c _ m hm
  cases c with
  | addRequest m' => exact List.mem_append_left _ (hall m hm)
  | _ => exact hall m hm

theorem step_requests (hstep : step eng setup s e = some s') :
    ∀ m ∈ s.db.store.requests, m ∈ s'.db.store.requests := by
  rcases step_db hstep with hdb | ⟨t, hdb, -⟩
  · rw [hdb]
    exact fun m hm => hm
  · rw [hdb]
    rcases t.after_cases eng setup s.clock s.db with hsame | ⟨Δ, hf, -⟩
    · rw [hsame]
      exact fun m hm => hm
    · exact flush_requests hf

/-- An event that creates a community gives it a UUID. -/
def Event.CreatesUuids (e : Event) : Prop :=
  ∀ user c, e = .transact (.createCommunity user c) → Text.isUuid c.id = true

theorem step_uuids (hids : ∀ c ∈ s.db.store.communities, Text.isUuid c.id = true)
    (he : e.CreatesUuids) (hstep : step eng setup s e = some s') :
    ∀ c ∈ s'.db.store.communities, Text.isUuid c.id = true := by
  rcases step_db hstep with hdb | ⟨t, hdb, hkind⟩
  · rw [hdb]
    exact hids
  · rw [hdb]
    rcases t.after_run eng setup s.clock s.db with hsame | ⟨a, Δ, hrun, hf, hqueued⟩
    · rw [hsame]
      exact hids
    · refine flush_keeps (I := fun s => ∀ c ∈ s.communities, Text.isUuid c.id = true) ?_ hf hids
      intro s₁ hs₁ ch hch c hc
      rcases Change.effect_communities hc with hc | rfl
      · exact hs₁ c hc
      have hmay := hqueued (.addCommunity c) hch
      -- only one block adds a community
      cases t with
      | createCommunity user community =>
        have hcreated := run_createCommunityBody s.db.valid user community
        rw [show (createCommunityBody user community).run s.db.store = _ from hrun] at hcreated
        rcases hkind with rfl | ⟨_, _, h⟩ | ⟨_, h⟩
        · cases hu : s.db.store.userOf user.uid with
          | none =>
            rw [hu] at hcreated
            cases hcreated
          | some u =>
            rw [hu] at hcreated
            cases hcreated
            rw [List.mem_singleton] at hch
            cases hch
            exact he user community rfl
        · cases h
        · cases h
      | _ => simp [Transaction.mayQueue] at hmay

end Steps

/-! ## Requests for somebody else's route -/

section NotOwned

variable {eng : Engine} {setup : Setup} {user : User} {routeId : String}

/-- The user does not own the route. -/
def Store.NotOwnedBy (s : Store) (user : User) (routeId : String) : Prop :=
  ∀ u ∈ s.users, u.uid = user.uid → u.id ∉ s.owners routeId

/-- The tables that say who is where and owns what. -/
def Store.sameRoutes (s s' : Store) : Prop :=
  s'.routes = s.routes ∧ s'.users = s.users ∧ s'.ownerships = s.ownerships

theorem addRouteToCommunity_notOwned (eng : Engine) (communityId : String) {db : Database}
    (hno : db.store.NotOwnedBy user routeId) :
    db.store.sameRoutes ((addRouteToCommunity eng user routeId communityId).after db).store := by
  rcases withUOW_after_run eng (addRouteToCommunityBody eng user routeId communityId) db with
    hsame | ⟨res, Δ, hrun, hf⟩
  · rw [addRouteToCommunity, hsame]
    exact ⟨rfl, rfl, rfl⟩
  · have hbody := addRouteToCommunityBody_attaches eng db.valid user routeId communityId
    rw [hrun] at hbody
    cases hbody with
    | waiting =>
      rw [addRouteToCommunity, ← Except.ok.inj hf]
      exact ⟨rfl, rfl, rfl⟩
    | requested =>
      rw [flush_single] at hf
      rw [addRouteToCommunity, Change.apply_effect hf]
      exact ⟨rfl, rfl, rfl⟩
    | @attached u route c htargets hown =>
      obtain ⟨hu, huid⟩ := lookup_mem htargets.user
      have hid := (Store.routeOf_mem htargets.route).2
      exact absurd (hid ▸ hown) (hno u hu huid)

/-- Such calls, however many, leave every route where it is. -/
theorem run_addRouteToCommunity_notOwned {s s' : System} {keys : List String}
    (hno : s.db.store.NotOwnedBy user routeId)
    (hrun : run (step eng setup) s
      (keys.map fun key => .transact (.addRouteToCommunity user routeId key)) = some s') :
    s.db.store.sameRoutes s'.db.store := by
  refine run_keeps (I := fun s₁ : System => s.db.store.sameRoutes s₁.db.store)
    (P := fun _ e => ∃ key, e = .transact (.addRouteToCommunity user routeId key)) ?_
    (along_of_forall fun e he => ?_) hrun ⟨rfl, rfl, rfl⟩
  · rintro s₁ _ s₂ ⟨hroutes, husers, howners⟩ ⟨key, rfl⟩ hstep
    cases hstep
    have hno₁ : s₁.db.store.NotOwnedBy user routeId := by
      unfold Store.NotOwnedBy Store.owners
      rw [husers, howners]
      exact hno
    obtain ⟨h₁, h₂, h₃⟩ := addRouteToCommunity_notOwned eng key hno₁
    exact ⟨h₁.trans hroutes, h₂.trans husers, h₃.trans howners⟩
  · obtain ⟨key, -, rfl⟩ := List.mem_map.mp he
    exact ⟨key, rfl⟩

end NotOwned

/-- **Only owners move routes.** In every state of a run whose communities have UUIDs for
ids, a step leaves a route in its community, or is an owner's call, or deletes the
community in its owner's name and leaves the route without one. Calls of
`add_route_to_community` by somebody who does not own the route, however many, leave all
routes where they are, and a request once made stays as it is. -/
theorem only_owners_move (eng : Engine) (setup : Setup) (s : System)
    (hids : ∀ c ∈ s.db.store.communities, Text.isUuid c.id = true) (es : List Event)
    (hcreate : ∀ e ∈ es, e.CreatesUuids) (s₁ : System) (hrun : run (step eng setup) s es = some s₁) :
    (∀ e s₂, step eng setup s₁ e = some s₂ → ∀ r ∈ s₁.db.store.routes,
      ∃ r' ∈ s₂.db.store.routes, r'.id = r.id ∧ Moved s₁.db.store s₂.db.store e r r') ∧
    (∀ user routeId, s₁.db.store.NotOwnedBy user routeId → ∀ (keys : List String) s₂,
      run (step eng setup) s₁
        (keys.map fun key => .transact (.addRouteToCommunity user routeId key)) = some s₂ →
      s₂.db.store.routes = s₁.db.store.routes) ∧
    ∀ es₁ es₂ s₀, es = es₁ ++ es₂ → run (step eng setup) s es₁ = some s₀ →
      ∀ m ∈ s₀.db.store.requests, m ∈ s₁.db.store.requests := by
  have hids₁ : ∀ c ∈ s₁.db.store.communities, Text.isUuid c.id = true := by
    refine run_keeps (I := fun s : System => ∀ c ∈ s.db.store.communities,
      Text.isUuid c.id = true) (P := fun _ e => e.CreatesUuids) ?_ (along_of_forall hcreate)
      hrun hids
    exact fun _ _ _ h he hstep => step_uuids h he hstep
  refine ⟨fun e s₂ hstep r hr => ?_, fun user routeId hno keys s₂ hrun' =>
    (run_addRouteToCommunity_notOwned hno hrun').1, fun es₁ es₂ s₀ hsplit hrun₀ => ?_⟩
  · have hl := (lookup_eq_some_iff s₁.db.valid.routeKeys).mpr ⟨hr, rfl⟩
    obtain ⟨r', hr', hmoved⟩ := step_moved hids₁ hstep hl
    obtain ⟨hmem, hid⟩ := Store.routeOf_mem hr'
    exact ⟨r', hmem, hid, hmoved⟩
  · rw [hsplit, run_append] at hrun
    obtain ⟨s₀', hrun₀', hrest⟩ := hrun
    obtain rfl : s₀ = s₀' := Option.some.inj (hrun₀.symm.trans hrun₀')
    refine run_keeps (I := fun s₁ : System => ∀ m ∈ s₀.db.store.requests,
      m ∈ s₁.db.store.requests) (P := fun _ _ => True) ?_ (along_of_forall fun e _ => trivial)
      hrest fun m hm => hm
    exact fun _ _ _ h _ hstep m hm => step_requests hstep m (h m hm)

/-- Bob, who does not own the route, asks for a place in Alice's community. -/
def bobAsks : Event := .transact (.addRouteToCommunity bob appRoute.id club.id)

/-- The registry after he has asked. -/
def asked : System :=
  ⟨((Transaction.addRouteToCommunity bob appRoute.id club.id).run .sqlite plainSetup 0).after
    oneClub, 0, []⟩

theorem asked_moves :
    (∀ e s₂, step .sqlite plainSetup asked e = some s₂ → ∀ r ∈ asked.db.store.routes,
      ∃ r' ∈ s₂.db.store.routes, r'.id = r.id ∧ Moved asked.db.store s₂.db.store e r r') ∧
    (∀ user routeId, asked.db.store.NotOwnedBy user routeId → ∀ (keys : List String) s₂,
      run (step .sqlite plainSetup) asked
        (keys.map fun key => .transact (.addRouteToCommunity user routeId key)) = some s₂ →
      s₂.db.store.routes = asked.db.store.routes) ∧
    ∀ es₁ es₂ s₀, [bobAsks] = es₁ ++ es₂ →
      run (step .sqlite plainSetup) ⟨oneClub, 0, []⟩ es₁ = some s₀ →
      ∀ m ∈ s₀.db.store.requests, m ∈ asked.db.store.requests := by
  refine only_owners_move .sqlite plainSetup ⟨oneClub, 0, []⟩ (by decide) [bobAsks] ?_ asked rfl
  intro e he user c hcreates
  rw [List.mem_singleton.mp he] at hcreates
  cases hcreates

end RouteRegistry
