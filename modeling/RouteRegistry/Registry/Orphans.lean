import RouteRegistry.Registry.Moves
import RouteRegistry.Registry.Ownership

/-!
# Routes without an owner

A route is stored with its owner, and only the removal of a user or group takes an
ownership away: SQLAlchemy deletes the rows of the association table along with the
entity, whether or not the route has another owner.

- `Store.soleRoutes`: the routes that would be left alone.
- `routes_owned_or_orphaned`: in every run, a route has an owner or has been left alone by
  one of the removals that went through.
-/

namespace RouteRegistry

open Relational UnitOfWork Runs

/-! ## Ownerships -/

theorem Store.owners_nodup {s : Store} (hv : s.Valid) (id : String) : (s.owners id).Nodup := by
  refine List.Nodup.map_on ?_ (hv.ownershipKeys.filter _)
  rintro ⟨e, i⟩ hx ⟨e', i'⟩ hy rfl
  have hi : i = id := of_decide_eq_true (List.mem_filter.mp hx).2
  have hi' : i' = id := of_decide_eq_true (List.mem_filter.mp hy).2
  rw [hi, hi']

/-- The routes whose only owner is the entity. -/
def Store.soleRoutes (s : Store) (entityId : String) : List String :=
  s.routeIds.filter fun id => decide (s.owners id = [entityId])

/-- The change takes no ownership away and brings no route. -/
def Change.KeepsOwners : Change → Prop
  | .addRoute _ | .deleteEntity _ => False
  | _ => True

theorem Change.effect_keepsOwners {s : Store} {c : Change} (hc : c.KeepsOwners) :
    (c.effect s).routeIds = s.routeIds ∧ ∀ o ∈ s.ownerships, o ∈ (c.effect s).ownerships := by
  cases c with
  | addRoute r => exact hc.elim
  | deleteEntity id => exact hc.elim
  | addOwnership o' => exact ⟨rfl, fun o ho => List.mem_append_left _ ho⟩
  | setRoute id a => exact ⟨map_modify _ _ a.set_id _, fun o ho => ho⟩
  | deleteCommunity id =>
    exact ⟨map_modify _ _ (RouteAttr.community none).set_id _, fun o ho => ho⟩
  | _ => exact ⟨rfl, fun o ho => ho⟩

theorem flush_keepsOwners {s s' : Store} {Δ : List Change} (hf : flush s Δ = .ok s')
    (hΔ : ∀ c ∈ Δ, c.KeepsOwners) :
    s'.routeIds = s.routeIds ∧ ∀ o ∈ s.ownerships, o ∈ s'.ownerships := by
  refine flush_keeps (I := fun s₁ => s₁.routeIds = s.routeIds ∧
    ∀ o ∈ s.ownerships, o ∈ s₁.ownerships) ?_ hf ⟨rfl, fun o ho => ho⟩
  rintro s₁ ⟨hids, howners⟩ c hc
  obtain ⟨hids', howners'⟩ := Change.effect_keepsOwners (s := s₁) (hΔ c hc)
  exact ⟨hids'.trans hids, fun o ho => howners' o (howners o ho)⟩

/-- A deleted entity leaves alone exactly the routes it was the only owner of. -/
theorem flush_deleteEntity {s s' : Store} {e : String} (hv : s.Valid)
    (hf : flush s [.deleteEntity e] = .ok s') :
    s'.routeIds = s.routeIds ∧
      ∀ id ∈ s.routeIds, s.owners id ≠ [] → s'.owners id ≠ [] ∨ id ∈ s.soleRoutes e := by
  rw [flush_single] at hf
  obtain rfl := Change.apply_effect hf
  refine ⟨rfl, fun id hid hne => ?_⟩
  -- another owner stays; without one, the list of owners is `[e]`
  by_cases hother : ∃ o ∈ s.owners id, o ≠ e
  · obtain ⟨o, ho, hoe⟩ := hother
    have hkept : o ∈ ((Change.deleteEntity e).effect s).owners id :=
      Store.mem_owners.mpr (mem_discard.mpr ⟨Store.mem_owners.mp ho, hoe⟩)
    exact .inl (List.ne_nil_of_mem hkept)
  · have hall : ∀ o ∈ s.owners id, o = e := fun o ho => by_contra fun hoe => hother ⟨o, ho, hoe⟩
    have hnodup := s.owners_nodup hv id
    have hsole : s.owners id = [e] := by
      have hrep := List.eq_replicate_of_mem hall
      rw [hrep, List.nodup_replicate] at hnodup
      have hpos := List.length_pos_of_ne_nil hne
      rw [hrep, show (s.owners id).length = 1 by omega]
      rfl
    exact .inr (List.mem_filter.mpr ⟨hid, decide_eq_true hsole⟩)

/-- And it is gone. -/
theorem entityIds_deleteEntity {s s' : Store} {e : String}
    (hf : flush s [.deleteEntity e] = .ok s') :
    e ∉ s'.entityIds := by
  rw [flush_single] at hf
  obtain rfl := Change.apply_effect hf
  intro hmem
  rcases List.mem_append.mp hmem with hmem | hmem
  · obtain ⟨u, hu, hid⟩ := List.mem_map.mp hmem
    exact (mem_discard.mp hu).2 hid
  · obtain ⟨g, hg, hid⟩ := List.mem_map.mp hmem
    exact (mem_discard.mp hg).2 hid

/-! ## Steps and runs -/

/-- Whom the removal of a user or group is of. -/
def Store.removes (s : Store) : Transaction → Option String
  | .removeUser uid => (s.userOf (some uid)).map User.id
  | .removeGroup name => (s.groupOf name).map Group.id
  | _ => none

/-- The routes that a removal has left without an owner. One that was refused has left none. -/
def orphaned (eng : Engine) (setup : Setup) (s : System) : Event → List String
  | .transact t =>
    match s.db.store.removes t with
    | some id =>
      if id ∈ ((t.run eng setup s.clock).after s.db).store.entityIds then []
      else s.db.store.soleRoutes id
    | none => []
  | _ => []

/-- A stored route has an owner, or is one of these. -/
def Store.OwnedBut (s : Store) (orphans : List String) : Prop :=
  ∀ id ∈ s.routeIds, s.owners id ≠ [] ∨ id ∈ orphans

theorem Store.OwnedBut.keep {s s' : Store} {orphans : List String} (h : s.OwnedBut orphans)
    (hids : s'.routeIds = s.routeIds) (howners : ∀ o ∈ s.ownerships, o ∈ s'.ownerships) :
    s'.OwnedBut orphans := by
  intro id hid
  rw [hids] at hid
  rcases h id hid with hown | hlog
  · obtain ⟨e, he⟩ := List.exists_mem_of_ne_nil _ hown
    exact .inl (List.ne_nil_of_mem (Store.mem_owners.mpr (howners _ (Store.mem_owners.mp he))))
  · exact .inr hlog

theorem Store.OwnedBut.mono {s : Store} {orphans more : List String} (h : s.OwnedBut orphans) :
    s.OwnedBut (orphans ++ more) :=
  fun id hid => (h id hid).imp_right (List.mem_append_left _)

theorem Store.OwnedBut.deleteEntity {s s' : Store} {orphans : List String} {e : String}
    (hv : s.Valid) (hf : flush s [.deleteEntity e] = .ok s') (h : s.OwnedBut orphans) :
    s'.OwnedBut (orphans ++ s.soleRoutes e) := by
  obtain ⟨hids, howners⟩ := flush_deleteEntity hv hf
  intro id hid
  rw [hids] at hid
  rcases h id hid with hown | hlog
  · exact (howners id hid hown).imp_right (List.mem_append_right _)
  · exact .inr (List.mem_append_left _ hlog)

/-- Of the blocks, registrations bring routes, and removals of entities take ownerships. -/
theorem Transaction.mayQueue_keepsOwners {now : Time} {t : Transaction} {c : Change}
    (hc : t.mayQueue now c) (hreg : ∀ reg draws, t ≠ .registerRoute reg draws)
    (huser : ∀ uid, t ≠ .removeUser uid) (hgroup : ∀ name, t ≠ .removeGroup name) :
    c.KeepsOwners := by
  cases c with
  | addRoute r => cases t <;> simp [mayQueue] at hc hreg ⊢
  | deleteEntity id => cases t <;> simp [mayQueue] at hc huser hgroup ⊢
  | _ => trivial

section Steps

variable {eng : Engine} {setup : Setup} {s s' : System} {e : Event}

/-- A registration gives a new route its caller for an owner. -/
theorem registerRoute_ownedBut (reg : Registration) (draws : Draws) {db : Database}
    {orphans : List String} (h : db.store.OwnedBut orphans) :
    ((registerRoute eng reg draws).after db).store.OwnedBut orphans := by
  obtain ⟨-, -, ⟨hids, howners⟩ | ⟨r, u, hnew, huser, hs'⟩⟩ := registerRoute_step eng reg draws db
  · intro id hid
    rw [howners]
    exact h id (hids ▸ hid)
  · intro id hid
    rw [hs', Store.owners_withRoute]
    by_cases hr : r.id = id
    · exact .inl (by simp [hr])
    · rw [hs', Store.routeIds_withRoute, List.mem_append, List.mem_singleton] at hid
      rw [if_neg hr]
      exact h id (hid.resolve_right fun h => hr h.symm)

/-- **One block** leaves a route alone only where it removes its last owner. -/
theorem transact_ownedBut (eng : Engine) (setup : Setup) (now : Time) (t : Transaction)
    {db : Database} {orphans : List String}
    (h : db.store.OwnedBut orphans) :
    ((t.run eng setup now).after db).store.OwnedBut
      (orphans ++ orphaned eng setup ⟨db, now, []⟩ (.transact t)) := by
  rcases t.after_run eng setup now db with hsame | ⟨a, Δ, hrun, hf, hqueued⟩
  · rw [hsame]
    exact h.mono
  have hkeeps : (∀ c, t.mayQueue now c → c.KeepsOwners) →
      ((t.run eng setup now).after db).store.OwnedBut
        (orphans ++ orphaned eng setup ⟨db, now, []⟩ (.transact t)) := by
    intro hmay
    obtain ⟨hids, howners⟩ := flush_keepsOwners hf fun c hc => hmay c (hqueued c hc)
    exact (h.keep hids howners).mono
  cases t with
  | registerRoute reg draws =>
    exact (registerRoute_ownedBut reg { draws with now := now } h).mono
  | removeUser uid =>
    change (EntityRepo.removeUser uid).run db.store = _ at hrun
    rw [EntityRepo.run_removeUser db.valid] at hrun
    cases hu : db.store.userOf (some uid) with
    | none =>
      rw [hu] at hrun
      cases hrun
    | some u =>
      rw [hu] at hrun
      cases hrun
      have hsole : orphaned eng setup ⟨db, now, []⟩ (.transact (.removeUser uid)) =
          db.store.soleRoutes u.id := by
        simp only [orphaned, Store.removes, hu, Option.map_some, if_neg (entityIds_deleteEntity hf)]
      rw [hsole]
      exact h.deleteEntity db.valid hf
  | removeGroup name =>
    change (EntityRepo.removeGroup name).run db.store = _ at hrun
    rw [EntityRepo.run_removeGroup db.valid] at hrun
    cases hg : db.store.groupOf name with
    | none =>
      rw [hg] at hrun
      cases hrun
    | some g =>
      rw [hg] at hrun
      cases hrun
      have hsole : orphaned eng setup ⟨db, now, []⟩ (.transact (.removeGroup name)) =
          db.store.soleRoutes g.id := by
        simp only [orphaned, Store.removes, hg, Option.map_some, if_neg (entityIds_deleteEntity hf)]
      rw [hsole]
      exact h.deleteEntity db.valid hf
  | _ =>
    exact hkeeps fun c hc => Transaction.mayQueue_keepsOwners hc (fun _ _ h => by cases h)
      (fun _ h => by cases h) fun _ h => by cases h

/-- **One step**: so it is with every event. -/
theorem step_ownedBut {orphans : List String} (h : s.db.store.OwnedBut orphans)
    (hstep : step eng setup s e = some s') :
    s'.db.store.OwnedBut (orphans ++ orphaned eng setup s e) := by
  rcases step_db hstep with hdb | ⟨t, hdb, hkind⟩
  · rw [hdb]
    exact h.mono
  · rw [hdb]
    have hblock := transact_ownedBut eng setup s.clock t h
    rcases hkind with rfl | ⟨id, fetch, rfl⟩ | ⟨id, rfl⟩
    · cases t <;> exact hblock
    -- the blocks of a pass remove nobody
    · rw [show orphaned _ _ _ _ = [] from rfl, List.append_nil] at hblock
      exact hblock.mono
    · rw [show orphaned _ _ _ _ = [] from rfl, List.append_nil] at hblock
      exact hblock.mono

end Steps

/-- **Routes and owners.** In every run from a state without routes, a stored route has an
owner, unless the removal of a user or group went through and has left it alone. -/
theorem routes_owned_or_orphaned (eng : Engine) (setup : Setup) (s : System)
    (hroutes : s.db.store.routes = []) (es : List Event) (s' : System)
    (hrun : run (step eng setup) s es = some s') :
    ∀ r ∈ s'.db.store.routes,
      s'.db.store.owners r.id ≠ [] ∨ r.id ∈ record (step eng setup) (orphaned eng setup) s es := by
  have hstart : s.db.store.OwnedBut [] := by
    intro id hid
    rw [Store.routeIds, hroutes] at hid
    cases hid
  have hend : s'.db.store.OwnedBut ([] ++ record (step eng setup) (orphaned eng setup) s es) := by
    refine run_records (I := fun log (s : System) => s.db.store.OwnedBut log)
      (P := fun _ _ => True) ?_ (along_of_forall fun e _ => trivial) hrun hstart
    exact fun _ _ _ _ h _ hstep => step_ownedBut h hstep
  exact fun r hr => hend r.id (List.mem_map.mpr ⟨r, hr, rfl⟩)

/-- Bob's name is registered, and Alice, who owns nothing, is removed. -/
def aliceLeaves : List Event :=
  [.transact (.registerRoute (callBy "bob" "app" 0).1 (callBy "bob" "app" 0).2),
    .transact (.removeUser "alice")]

/-- The same, and it is Bob who is removed. -/
def bobLeaves : List Event :=
  [.transact (.registerRoute (callBy "bob" "app" 0).1 (callBy "bob" "app" 0).2),
    .transact (.removeUser "bob")]

def registryAfter (es : List Event) : System :=
  (run (step .sqlite plainSetup) ⟨twoUsers, 0, []⟩ es).getD ⟨twoUsers, 0, []⟩

theorem aliceLeaves_owned :
    (registryAfter aliceLeaves).db.store.routes.map Route.id = ["route-0"] ∧
      ∀ r ∈ (registryAfter aliceLeaves).db.store.routes,
        (registryAfter aliceLeaves).db.store.owners r.id ≠ [] ∨
          r.id ∈ record (step .sqlite plainSetup) (orphaned .sqlite plainSetup) ⟨twoUsers, 0, []⟩
            aliceLeaves :=
  ⟨by decide, routes_owned_or_orphaned .sqlite plainSetup ⟨twoUsers, 0, []⟩ (by decide) aliceLeaves
    (registryAfter aliceLeaves) rfl⟩

/-- The owner of a route is removed, and the route stays. -/
theorem bobLeaves_orphan :
    twoUsers.store.routes = [] ∧
      run (step .sqlite plainSetup) ⟨twoUsers, 0, []⟩ bobLeaves = some (registryAfter bobLeaves) ∧
      ∃ r ∈ (registryAfter bobLeaves).db.store.routes,
        (registryAfter bobLeaves).db.store.owners r.id = [] :=
  ⟨by decide, rfl, by decide⟩

end RouteRegistry
