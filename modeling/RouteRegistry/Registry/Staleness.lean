import RouteRegistry.Registry.Tracker

/-!
# Stale routes after a pass

A pass of `check_routes` looks at the routes `list_active` returns: those that are
verified and `UP` or `DOWN`. Each of them it updates, and unverifies if its contact, as
listed, is too old.

- `checkRoute_row`: what one round of the loop leaves of the row it looks at.
- `Swept`: the store halfway through the loop; `forM_swept` is the loop.
- `checkRoutes_stale_iff`: the routes that are verified and stale after a pass are those
  that were so before it, in a status that is not tracked.
-/

namespace RouteRegistry

open Relational UnitOfWork

/-- Verified, and not heard of for too long. -/
def Route.Stuck (r : Route) (pendulum : Pendulum) (now : Time) (d : Nat) : Prop :=
  r.verificationStatus = .verified ∧ r.StaleAt pendulum now d

/-! ## One round -/

theorem Store.routeOf_withAttrs (s : Store) (id id' : String) (as : List RouteAttr) :
    (s.withAttrs id as).routeOf id' =
      (s.routeOf id').map fun r => if id' = id then RouteAttr.setAll as r else r :=
  lookup_modify (fun r => RouteAttr.setAll_id as r) s.routes

theorem Store.routeOf_written (s : Store) (id id' : String)
    (writes : List RouteAttr × Option (List Rule)) :
    (s.written id writes).routeOf id' =
      (s.routeOf id').map fun r => if id' = id then RouteAttr.setAll writes.1 r else r := by
  obtain ⟨as, rules⟩ := writes
  cases rules <;> exact Store.routeOf_withAttrs _ id id' as

/-- An update leaves the contact of a route, or sets it to the time of the update. -/
theorem updateWrites_lastContact (schema : Json.Schema) (now : Time) (users : List User)
    (groups : List Group) (f : Fetch) (id : String) (r : Route) :
    (RouteAttr.setAll (updateWrites schema now users groups f id).1 r).lastContact = r.lastContact ∨
      (RouteAttr.setAll (updateWrites schema now users groups f id).1 r).lastContact = now := by
  unfold updateWrites
  split
  · split
    · exact .inr rfl
    · exact .inl rfl
  · split
    · exact .inl rfl
    · exact .inl rfl

section Round

variable {eng : Engine} {pendulum : Pendulum} {schema : Json.Schema} {d : Nat} {now : Time}
  {env : PassEnv} {db : Database}

/-- **One round** ends normally, leaves the other routes alone, and does not leave its own
verified and stale. -/
theorem checkRoute_row (hrel : eng.Reliable) (schema : Json.Schema) (d : Nat) {now : Time}
    {route : Route} (hclock : now ≤ env.clock route.id)
    (hr : db.store.routeOf route.id = some route) :
    ∃ db', checkRoute eng pendulum schema d now env route db = .ok () db' ∧
      (∀ id, id ≠ route.id → db'.store.routeOf id = db.store.routeOf id) ∧
      ∀ r', db'.store.routeOf route.id = some r' → ¬ r'.Stuck pendulum now d := by
  have hid : route.id ∈ db.store.routeIds := Store.mem_routeIds_iff.mpr ⟨route, hr⟩
  rw [checkRoute_eq]
  have hup := updateRoute_writes hrel schema (env.clock route.id) (env.fetch route.id) hid
  have hlast := updateWrites_lastContact schema (env.clock route.id) db.store.users
    db.store.groups (env.fetch route.id) route.id route
  generalize (updateRoute eng schema route.id (env.fetch route.id)
    (env.clock route.id)).after db = db₁ at hup
  generalize updateWrites schema (env.clock route.id) db.store.users db.store.groups
    (env.fetch route.id) route.id = writes at hup hlast
  have hother : ∀ id, id ≠ route.id → db₁.store.routeOf id = db.store.routeOf id := by
    intro id hne
    rw [hup, Store.routeOf_written]
    simp [hne]
  by_cases hstale : d < pendulum.inDays now route.lastContact
  · -- too old: whatever the update did, the route is unverified
    rw [if_pos hstale]
    have hid₁ : route.id ∈ db₁.store.routeIds := by
      rw [hup, Store.routeIds_written]
      exact hid
    obtain ⟨db₂, hun, hdb⟩ := unverifyRoute_eq hrel hid₁
    refine ⟨db₂, hun, fun id hne => ?_, fun r' hr' hstuck => ?_⟩
    · rw [hdb, Store.routeOf_withAttrs, ← hother id hne]
      simp [hne]
    · rw [hdb, Store.routeOf_withAttrs] at hr'
      obtain ⟨r, -, rfl⟩ := Option.map_eq_some_iff.mp hr'
      rw [if_pos rfl] at hstuck
      cases hstuck.1
  · -- recent enough: its contact is the one listed, or the time of the update
    rw [if_neg hstale]
    refine ⟨db₁, rfl, hother, fun r' hr' hstuck => ?_⟩
    rw [hup, Store.routeOf_written, hr, Option.map_some, if_pos rfl] at hr'
    cases hr'
    rcases hlast with hold | hnew
    · have hd := hstuck.2.2
      rw [hold] at hd
      exact hstale hd
    · exact Route.not_staleAt (hnew ▸ hclock) hstuck.2

/-! ## The loop -/

/-- The store when the routes with ids in `done` have been looked at. -/
structure Swept (pendulum : Pendulum) (now : Time) (d : Nat) (s : Store) (done : List String)
    (s' : Store) : Prop where
  others : ∀ id, id ∉ done → s'.routeOf id = s.routeOf id
  recent : ∀ id ∈ done, ∀ r', s'.routeOf id = some r' → ¬ r'.Stuck pendulum now d

theorem Swept.start (pendulum : Pendulum) (now : Time) (d : Nat) (s : Store) :
    Swept pendulum now d s [] s :=
  ⟨fun _ _ => rfl, fun _ h => by cases h⟩

/-- **The loop** ends normally, having looked at the routes it is given. -/
theorem forM_swept (hrel : eng.Reliable) (schema : Json.Schema)
    (hclock : ∀ id, now ≤ env.clock id) {s : Store} {done : List String} (routes : List Route)
    (h : Swept pendulum now d s done db.store)
    (hroutes : ∀ r ∈ routes, s.routeOf r.id = some r) (hnodup : (routes.map Route.id).Nodup)
    (hdisj : ∀ r ∈ routes, r.id ∉ done) :
    ∃ db', routes.forM (checkRoute eng pendulum schema d now env) db = .ok () db' ∧
      Swept pendulum now d s (routes.map Route.id ++ done) db'.store := by
  induction routes generalizing db done with
  | nil => exact ⟨db, rfl, h⟩
  | cons route rest ih =>
    obtain ⟨hnot, hrest⟩ := List.nodup_cons.mp hnodup
    have hrow : db.store.routeOf route.id = some route :=
      (h.others route.id (hdisj route List.mem_cons_self)).trans (hroutes route List.mem_cons_self)
    obtain ⟨db₁, hcall, hothers, hrecent⟩ :=
      checkRoute_row hrel schema d (hclock route.id) hrow
    have h₁ : Swept pendulum now d s (route.id :: done) db₁.store := by
      refine ⟨fun id hid => ?_, fun id hid r' hr' => ?_⟩
      · rw [List.mem_cons, not_or] at hid
        exact (hothers id hid.1).trans (h.others id hid.2)
      · by_cases hsame : id = route.id
        · exact hrecent r' (hsame ▸ hr')
        · refine h.recent id ((List.mem_cons.mp hid).resolve_left hsame) r' ?_
          rw [← hothers id hsame]
          exact hr'
    obtain ⟨db₂, hloop, h₂⟩ := ih h₁ (fun r hr => hroutes r (List.mem_cons_of_mem _ hr)) hrest
      (fun r hr hmem => by
        rcases List.mem_cons.mp hmem with hid | hmem
        · exact hnot (hid ▸ List.mem_map.mpr ⟨r, hr, rfl⟩)
        · exact hdisj r (List.mem_cons_of_mem _ hr) hmem)
    refine ⟨db₂, ?_, fun id hid => h₂.others id ?_, fun id hid r' hr' => h₂.recent id ?_ r' hr'⟩
    · rw [forM_checkRoute_cons, hcall]
      exact hloop
    · simp only [List.map_cons, List.cons_append, List.mem_cons, List.mem_append] at hid ⊢
      tauto
    · simp only [List.map_cons, List.cons_append, List.mem_cons, List.mem_append] at hid ⊢
      tauto

end Round

/-- **Stale routes after a pass.** Where every commit goes through and the clock does not
go back behind `now`, a pass of `check_routes` ends, and the routes it leaves verified with
a contact more than `d` days before `now` are those that were so when it began, with a
status other than `UP` and `DOWN`. -/
theorem checkRoutes_stale_iff (eng : Engine) (hrel : eng.Reliable) (pendulum : Pendulum)
    (schema : Json.Schema) (d : Nat) (now : Time) (env : PassEnv)
    (hclock : ∀ id, now ≤ env.clock id) (db : Database) :
    ∃ db', checkRoutes eng pendulum schema d now env db = .ok () db' ∧
      ∀ r, (r ∈ db'.store.routes ∧ r.verificationStatus = .verified ∧ r.StaleAt pendulum now d) ↔
        (r ∈ db.store.routes ∧ r.verificationStatus = .verified ∧ r.StaleAt pendulum now d ∧
          r.status ≠ .up ∧ r.status ≠ .down) := by
  have hactive : ∀ r, r ∈ db.store.routes.filter RouteRepo.isActive ↔
      r ∈ db.store.routes ∧ r.verificationStatus = .verified ∧
        (r.status = .up ∨ r.status = .down) := by
    intro r
    simp [RouteRepo.isActive]
  obtain ⟨db', hloop, hswept⟩ := forM_swept hrel schema hclock
    (db.store.routes.filter RouteRepo.isActive) (Swept.start pendulum now d db.store)
    (fun r hr => (lookup_eq_some_iff db.valid.routeKeys).mpr ⟨List.mem_of_mem_filter hr, rfl⟩)
    (db.valid.routeKeys.filter _) (fun _ _ h => by cases h)
  rw [List.append_nil] at hswept
  refine ⟨db', (checkRoutes_eq hrel env).trans hloop, fun r => ⟨?_, ?_⟩⟩
  · rintro ⟨hr, hv, hstale⟩
    have hrow := (lookup_eq_some_iff db'.valid.routeKeys).mpr ⟨hr, rfl⟩
    by_cases hlisted : r.id ∈ (db.store.routes.filter RouteRepo.isActive).map Route.id
    · exact absurd ⟨hv, hstale⟩ (hswept.recent r.id hlisted r hrow)
    · -- not looked at, so as it was, and its status is not tracked
      obtain ⟨hmem, -⟩ := lookup_mem ((hswept.others r.id hlisted).symm.trans hrow)
      refine ⟨hmem, hv, hstale, fun hup => hlisted ?_, fun hdown => hlisted ?_⟩
      · exact List.mem_map.mpr ⟨r, (hactive r).mpr ⟨hmem, hv, .inl hup⟩, rfl⟩
      · exact List.mem_map.mpr ⟨r, (hactive r).mpr ⟨hmem, hv, .inr hdown⟩, rfl⟩
  · rintro ⟨hr, hv, hstale, hup, hdown⟩
    have hunlisted : r.id ∉ (db.store.routes.filter RouteRepo.isActive).map Route.id := by
      intro hmem
      obtain ⟨r₀, hr₀, hid⟩ := List.mem_map.mp hmem
      obtain ⟨hstored, -, hstatus⟩ := (hactive r₀).mp hr₀
      obtain rfl : r₀ = r := db.valid.routeKeys.inj hstored hr hid
      exact hstatus.elim hup hdown
    have hrow := (lookup_eq_some_iff db.valid.routeKeys).mpr ⟨hr, rfl⟩
    exact ⟨(lookup_mem ((hswept.others r.id hunlisted).trans hrow)).1, hv, hstale⟩

/-- A hundred days after time zero, where `appRoute` was last in contact. -/
def hundredDaysOn : Time := 8640000000000

/-- Nobody answers. -/
def silence : PassEnv := ⟨fun _ => hundredDaysOn, fun _ => .failed .connectTimeout⟩

/-- The route of `oneRoute`, whose last update ended in a server error. -/
def failingRoute : Database := .load
  [.addUser alice, .addDomain openDomain, .addRoute { appRoute with status := .serverError },
    .addOwnership ⟨alice.id, appRoute.id⟩]

theorem oneRoute_stale :
    ∃ db', checkRoutes .sqlite .utc authorizationSchema 90 hundredDaysOn silence oneRoute =
        .ok () db' ∧
      ∀ r, (r ∈ db'.store.routes ∧ r.verificationStatus = .verified ∧
          r.StaleAt .utc hundredDaysOn 90) ↔
        (r ∈ oneRoute.store.routes ∧ r.verificationStatus = .verified ∧
          r.StaleAt .utc hundredDaysOn 90 ∧ r.status ≠ .up ∧ r.status ≠ .down) :=
  checkRoutes_stale_iff .sqlite Engine.sqlite_reliable .utc authorizationSchema 90 hundredDaysOn
    silence (fun _ => Int.le_refl _) oneRoute

/-- Such a route is not tracked, and stays verified however old its last contact is. -/
theorem failingRoute_stuck :
    ∃ db', checkRoutes .sqlite .utc authorizationSchema 90 hundredDaysOn silence failingRoute =
        .ok () db' ∧
      ∃ r ∈ db'.store.routes, r.verificationStatus = .verified ∧ r.lastContact ≤ hundredDaysOn ∧
        90 < Pendulum.utc.inDays hundredDaysOn r.lastContact :=
  ⟨failingRoute, rfl, by decide⟩

end RouteRegistry
