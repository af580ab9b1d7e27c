import RouteRegistry.Registry.System

/-!
# The tracker, route by route

With a clock that stands still and an engine that fails only when a flush does, a pass of
`check_routes` does to each active route one thing that depends on nothing but the route,
its fetch result, the users and groups and the time (`trackRoute`).

- `checkRoute_writes`: one round of the loop always ends normally, with the writes
  `trackWrites` lists.
- `Treated`: the store halfway through the loop. `Treated.checkRoute` is the step, and
  `forM_treated` the loop, for the routes in any order.
- `checkRoutes_pointwise` draws the consequences.
-/

namespace RouteRegistry

open Relational UnitOfWork

/-! ## What a pass does to one route -/

/-- What an update writes to a route: attributes, and new rules if any. -/
def updateWrites (schema : Json.Schema) (now : Time) (users : List User) (groups : List Group)
    (fetch : Fetch) (routeId : String) : List RouteAttr × Option (List Rule) :=
  match Store.refreshed { users := users, groups := groups } schema routeId fetch with
  | .ok rules => if Keyed Rule.entityId rules then (refreshedAttrs now, some rules) else ([], none)
  | .error e =>
    match failureStatus e with
    | some st => ([.status st], none)
    | none => ([], none)

/-- What a pass writes to a route it found as `route`. -/
def trackWrites (pendulum : Pendulum) (schema : Json.Schema) (staleDuration : Nat) (now : Time)
    (users : List User) (groups : List Group) (fetch : Fetch) (route : Route) :
    List RouteAttr × Option (List Rule) :=
  let writes := updateWrites schema now users groups fetch route.id
  if staleDuration < pendulum.inDays now route.lastContact then
    (writes.1 ++ unverifiedAttrs, writes.2)
  else writes

/-- **What a pass makes of a route and its rules.** -/
def trackRoute (pendulum : Pendulum) (schema : Json.Schema) (staleDuration : Nat) (now : Time)
    (users : List User) (groups : List Group) (fetch : Fetch) (route : Route) (rules : List Rule) :
    Route × List Rule :=
  let writes := trackWrites pendulum schema staleDuration now users groups fetch route
  (RouteAttr.setAll writes.1 route, writes.2.getD rules)

/-- The store with such writes made to the route `id`. -/
def Store.written (s : Store) (id : String) (writes : List RouteAttr × Option (List Rule)) :
    Store :=
  match writes.2 with
  | some rules => (s.withRules id rules).withAttrs id writes.1
  | none => s.withAttrs id writes.1

theorem Store.written_withAttrs (s : Store) (id : String)
    (writes : List RouteAttr × Option (List Rule)) (as : List RouteAttr) :
    (s.written id writes).withAttrs id as = s.written id (writes.1 ++ as, writes.2) := by
  obtain ⟨bs, rules⟩ := writes
  cases rules <;> exact Store.withAttrs_withAttrs _ id bs as

theorem Store.routeIds_written (s : Store) (id : String)
    (writes : List RouteAttr × Option (List Rule)) : (s.written id writes).routeIds = s.routeIds := by
  obtain ⟨bs, rules⟩ := writes
  cases rules <;> exact Store.routeIds_withAttrs _ id bs

/-- Only users and groups decide what a refresh finds. -/
theorem Store.refreshed_congr {s s' : Store} (husers : s.users = s'.users)
    (hgroups : s.groups = s'.groups) (schema : Json.Schema) (id : String) (fetch : Fetch) :
    s.refreshed schema id fetch = s'.refreshed schema id fetch := by
  have hset : s.ruleSet = s'.ruleSet := by
    funext id authz
    exact Store.ruleSet_congr husers hgroups id authz
  unfold Store.refreshed
  rw [hset]

section Round

variable {eng : Engine} {pendulum : Pendulum} {schema : Json.Schema} {d : Nat} {now : Time}
  {fetch : String → Fetch} {db : Database}

/-- An update by a reliable engine makes its writes, whether it returns or raises. -/
theorem updateRoute_writes (hrel : eng.Reliable) (schema : Json.Schema) (now : Time) (f : Fetch)
    {id : String} (hid : id ∈ db.store.routeIds) :
    ((updateRoute eng schema id f now).after db).store =
      db.store.written id (updateWrites schema now db.store.users db.store.groups f id) := by
  have hcall := updateRoute_eq hrel schema f now hid
  have hsame : Store.refreshed { users := db.store.users, groups := db.store.groups } schema id f =
      db.store.refreshed schema id f := by
    refine Store.refreshed_congr ?_ ?_ schema id f <;> rfl
  unfold updateWrites Service.after
  rw [hsame]
  cases href : db.store.refreshed schema id f with
  | ok rules =>
    rw [href] at hcall
    by_cases hk : Keyed Rule.entityId rules
    · simp only [hk, if_true] at hcall ⊢
      obtain ⟨db', hup, hdb⟩ := hcall
      rw [hup]
      exact hdb
    · simp only [hk, if_false] at hcall ⊢
      obtain ⟨msg, hup⟩ := hcall
      rw [hup]
      exact (Store.withAttrs_nil _ _).symm
  | error e =>
    rw [href] at hcall
    cases hst : failureStatus e with
    | some st =>
      simp only [hst] at hcall ⊢
      obtain ⟨db', hup, hdb⟩ := hcall
      rw [hup]
      exact hdb
    | none =>
      simp only [hst] at hcall ⊢
      rw [hcall]
      exact (Store.withAttrs_nil _ _).symm

/-- **One round of the loop** ends normally, with the writes of the route. -/
theorem checkRoute_writes (hrel : eng.Reliable) (pendulum : Pendulum) (schema : Json.Schema)
    (d : Nat) (now : Time) (fetch : String → Fetch) {route : Route}
    (hid : route.id ∈ db.store.routeIds) :
    ∃ db', checkRoute eng pendulum schema d now ⟨fun _ => now, fetch⟩ route db = .ok () db' ∧
      db'.store = db.store.written route.id
        (trackWrites pendulum schema d now db.store.users db.store.groups (fetch route.id)
          route) := by
  rw [checkRoute_eq]
  have hup := updateRoute_writes hrel schema now (fetch route.id) hid
  unfold trackWrites
  generalize (updateRoute eng schema route.id (fetch route.id) now).after db = db₁ at hup
  by_cases hstale : d < pendulum.inDays now route.lastContact
  · rw [if_pos hstale]
    simp only [if_pos hstale]
    have hid₁ : route.id ∈ db₁.store.routeIds := by
      rw [hup, Store.routeIds_written]
      exact hid
    obtain ⟨db', hun, hdb⟩ := unverifyRoute_eq hrel hid₁
    refine ⟨db', hun, ?_⟩
    rw [hdb, hup, Store.written_withAttrs]
  · rw [if_neg hstale]
    simp only [if_neg hstale]
    exact ⟨db₁, rfl, hup⟩

end Round

/-! ## The loop -/

/-- The store when the routes with ids in `done` have been treated: `T` says what became
of a route and its rules, and nothing else is different. -/
structure Treated (T : Route → Route × List Rule) (s : Store) (done : List String)
    (s' : Store) : Prop where
  frame : s' = { s with routes := s'.routes, rules := s'.rules }
  routes : s'.routes = s.routes.map fun r => if r.id ∈ done then (T r).1 else r
  rules : ∀ r ∈ s.routes, s'.rulesOf r.id = if r.id ∈ done then (T r).2 else s.rulesOf r.id

theorem Treated.start (T : Route → Route × List Rule) (s : Store) : Treated T s [] s :=
  ⟨rfl, by simp, by simp⟩

theorem Store.rulesOf_written (s : Store) (id : String) (as : List RouteAttr)
    {rules : Option (List Rule)} (hrules : ∀ rs, rules = some rs → ∀ r ∈ rs, r.routeId = id)
    (id' : String) :
    (s.written id (as, rules)).rulesOf id' =
      if id = id' then rules.getD (s.rulesOf id') else s.rulesOf id' := by
  cases rules with
  | none => simp [Store.written, Store.rulesOf_withAttrs]
  | some rs =>
    show ((s.withRules id rs).withAttrs id as).rulesOf id' = _
    rw [Store.rulesOf_withAttrs, Store.rulesOf_withRules (hrules rs rfl)]
    rfl

/-- New rules of a route are about that route. -/
theorem trackWrites_rules {pendulum : Pendulum} {schema : Json.Schema} {d : Nat} {now : Time}
    {users : List User} {groups : List Group} {f : Fetch} {route : Route} {rs : List Rule}
    (h : (trackWrites pendulum schema d now users groups f route).2 = some rs) :
    ∀ r ∈ rs, r.routeId = route.id := by
  have h' : (updateWrites schema now users groups f route.id).2 = some rs := by
    unfold trackWrites at h
    dsimp only at h
    split at h <;> exact h
  unfold updateWrites at h'
  cases href : Store.refreshed { users := users, groups := groups } schema route.id f with
  | error e =>
    rw [href] at h'
    cases hst : failureStatus e <;> simp [hst] at h'
  | ok rules =>
    rw [href] at h'
    by_cases hk : Keyed Rule.entityId rules
    · simp only [hk, if_true, Option.some.injEq] at h'
      subst h'
      obtain ⟨_, _, -, -, -, hset⟩ := Store.refreshed_ok href
      exact (Store.ruleSet_mem hset).1
    · simp [hk] at h'

section Loop

variable {eng : Engine} {pendulum : Pendulum} {schema : Json.Schema} {d : Nat} {now : Time}
  {fetch : String → Fetch} {db db₁ : Database}

/-- What a pass over the database makes of its routes. -/
def treatment (pendulum : Pendulum) (schema : Json.Schema) (d : Nat) (now : Time)
    (fetch : String → Fetch) (s : Store) (r : Route) : Route × List Rule :=
  trackRoute pendulum schema d now s.users s.groups (fetch r.id) r (s.rulesOf r.id)

/-- **One round** treats one more route. -/
theorem Treated.checkRoute (hrel : eng.Reliable) {done : List String}
    (h : Treated (treatment pendulum schema d now fetch db.store) db.store done db₁.store)
    {route : Route} (hroute : route ∈ db.store.routes) (hnew : route.id ∉ done) :
    ∃ db₂, RouteRegistry.checkRoute eng pendulum schema d now ⟨fun _ => now, fetch⟩ route db₁ =
        .ok () db₂ ∧
      Treated (treatment pendulum schema d now fetch db.store) db.store (route.id :: done)
        db₂.store := by
  have husers : db₁.store.users = db.store.users := by rw [h.frame]
  have hgroups : db₁.store.groups = db.store.groups := by rw [h.frame]
  have hkeep : ∀ r : Route, (treatment pendulum schema d now fetch db.store r).1.id = r.id :=
    fun r => RouteAttr.setAll_id _ r
  have hid : route.id ∈ db₁.store.routeIds := by
    rw [Store.routeIds, h.routes, List.map_map]
    refine List.mem_map.mpr ⟨route, hroute, ?_⟩
    simp [hnew]
  obtain ⟨db₂, hcall, hdb⟩ := checkRoute_writes hrel pendulum schema d now fetch hid
  rw [husers, hgroups] at hdb
  refine ⟨db₂, hcall, ?_, ?_, fun r hr => ?_⟩
  · rw [hdb, h.frame]
    unfold Store.written
    split <;> rfl
  · -- the rows: the one of the route is rewritten, and was the original one
    have hrows : db₂.store.routes = modify Route.id route.id
        (RouteAttr.setAll (trackWrites pendulum schema d now db.store.users db.store.groups
          (fetch route.id) route).1) db₁.store.routes := by
      rw [hdb]
      unfold Store.written
      split <;> rfl
    rw [hrows, h.routes]
    unfold Relational.modify
    rw [List.map_map]
    refine List.map_congr_left fun r hr => ?_
    by_cases hrid : r.id = route.id
    · obtain rfl : r = route := db.valid.routeKeys.inj hr hroute hrid
      simp [hnew, treatment, trackRoute]
    · by_cases hdone : r.id ∈ done
      · simp [hdone, hkeep, hrid]
      · simp [hdone, hrid]
  · -- the rules: those of the route are replaced, and were the original ones
    rw [hdb, Store.rulesOf_written _ _ _ fun rs hrs => trackWrites_rules hrs]
    by_cases hrid : route.id = r.id
    · obtain rfl : route = r := db.valid.routeKeys.inj hroute hr hrid
      rw [if_pos rfl, if_pos List.mem_cons_self, h.rules route hr, if_neg hnew]
      rfl
    · rw [if_neg hrid, h.rules r hr]
      simp [Ne.symm hrid]

/-- **The loop** treats the routes it is given, in any order. -/
theorem forM_treated (hrel : eng.Reliable) {done : List String} (routes : List Route)
    (h : Treated (treatment pendulum schema d now fetch db.store) db.store done db₁.store)
    (hroutes : ∀ r ∈ routes, r ∈ db.store.routes) (hnodup : (routes.map Route.id).Nodup)
    (hdisj : ∀ r ∈ routes, r.id ∉ done) :
    ∃ db₂ done', routes.forM
        (RouteRegistry.checkRoute eng pendulum schema d now ⟨fun _ => now, fetch⟩) db₁ = .ok () db₂ ∧
      Treated (treatment pendulum schema d now fetch db.store) db.store done' db₂.store ∧
      ∀ id, id ∈ done' ↔ id ∈ done ∨ id ∈ routes.map Route.id := by
  induction routes generalizing db₁ done with
  | nil => exact ⟨db₁, done, rfl, h, by simp⟩
  | cons route rest ih =>
    obtain ⟨hnot, hrest⟩ := List.nodup_cons.mp hnodup
    obtain ⟨db₂, hcall, h₂⟩ := h.checkRoute hrel (hroutes route List.mem_cons_self)
      (hdisj route List.mem_cons_self)
    obtain ⟨db₃, done', hloop, h₃, hdone⟩ := ih h₂
      (fun r hr => hroutes r (List.mem_cons_of_mem _ hr)) hrest (fun r hr hmem => by
        rcases List.mem_cons.mp hmem with hid | hmem
        · exact hnot (hid ▸ List.mem_map.mpr ⟨r, hr, rfl⟩)
        · exact hdisj r (List.mem_cons_of_mem _ hr) hmem)
    refine ⟨db₃, done', ?_, h₃, fun id => ?_⟩
    · rw [forM_checkRoute_cons, hcall]
      exact hloop
    · rw [hdone, List.mem_cons, List.map_cons, List.mem_cons]
      tauto

end Loop

/-! ## A pass -/

/-- `T` is applied to every active route, and nothing else is different. -/
structure Pointwise (T : Route → Route × List Rule) (s s' : Store) : Prop where
  frame : s' = { s with routes := s'.routes, rules := s'.rules }
  routes : s'.routes = s.routes.map fun r => if RouteRepo.isActive r then (T r).1 else r
  rules : ∀ r ∈ s.routes,
    s'.rulesOf r.id = if RouteRepo.isActive r then (T r).2 else s.rulesOf r.id

/-- The same rows in every table, the rules of a route in the same order. -/
def Store.SameRows (s s' : Store) : Prop :=
  s = { s' with rules := s.rules } ∧ ∀ id, s.rulesOf id = s'.rulesOf id

theorem Pointwise.routeOf {T : Route → Route × List Rule} {s s' : Store} (h : Pointwise T s s')
    (hT : ∀ r, (T r).1.id = r.id) (id : String) :
    s'.routeOf id = (s.routeOf id).map fun r => if RouteRepo.isActive r then (T r).1 else r := by
  rw [Store.routeOf, h.routes]
  refine lookup_map (fun r => ?_) id s.routes
  split
  · exact hT r
  · rfl

theorem Pointwise.routeIds {T : Route → Route × List Rule} {s s' : Store} (h : Pointwise T s s')
    (hT : ∀ r, (T r).1.id = r.id) : s'.routeIds = s.routeIds := by
  rw [Store.routeIds, h.routes, List.map_map]
  refine List.map_congr_left fun r _ => ?_
  show (if RouteRepo.isActive r then (T r).1 else r).id = r.id
  split
  · exact hT r
  · rfl

/-- A pointwise map leaves one store, up to the order of rules of different routes. -/
theorem Pointwise.sameRows {T : Route → Route × List Rule} {s s₁ s₂ : Store}
    (h₁ : Pointwise T s s₁) (h₂ : Pointwise T s s₂) (hT : ∀ r, (T r).1.id = r.id)
    (hv₁ : s₁.Valid) (hv₂ : s₂.Valid) : s₁.SameRows s₂ := by
  refine ⟨?_, fun id => ?_⟩
  · rw [h₁.frame, h₂.frame, h₁.routes, h₂.routes]
  · by_cases hid : id ∈ s.routeIds
    · obtain ⟨r, hr, rfl⟩ := List.mem_map.mp hid
      rw [h₁.rules r hr, h₂.rules r hr]
    · rw [hv₁.rulesOf_eq_nil (h₁.routeIds hT ▸ hid), hv₂.rulesOf_eq_nil (h₂.routeIds hT ▸ hid)]

section Pass

variable {eng : Engine} {pendulum : Pendulum} {schema : Json.Schema} {d : Nat} {now : Time}
  {fetch : String → Fetch} {db : Database}

theorem treatment_id (s : Store) (r : Route) :
    (treatment pendulum schema d now fetch s r).1.id = r.id :=
  RouteAttr.setAll_id _ r

/-- The loop over the active routes, in any order, is a pointwise map. -/
theorem forM_pointwise (hrel : eng.Reliable) (pendulum : Pendulum) (schema : Json.Schema) (d : Nat)
    (now : Time) (fetch : String → Fetch) {routes : List Route}
    (hperm : routes.Perm (db.store.routes.filter RouteRepo.isActive)) :
    ∃ db', routes.forM (checkRoute eng pendulum schema d now ⟨fun _ => now, fetch⟩) db = .ok () db' ∧
      Pointwise (treatment pendulum schema d now fetch db.store) db.store db'.store := by
  have hmem : ∀ r, r ∈ routes ↔ r ∈ db.store.routes ∧ RouteRepo.isActive r = true :=
    fun r => hperm.mem_iff.trans List.mem_filter
  have hnodup : (routes.map Route.id).Nodup :=
    (hperm.map Route.id).nodup_iff.mpr (db.valid.routeKeys.filter _)
  obtain ⟨db', done, hloop, htreated, hdone⟩ := forM_treated hrel routes
    (Treated.start (treatment pendulum schema d now fetch db.store) db.store)
    (fun r hr => ((hmem r).mp hr).1) hnodup (by simp)
  have hactive : ∀ r ∈ db.store.routes, r.id ∈ done ↔ RouteRepo.isActive r = true := by
    intro r hr
    rw [hdone]
    constructor
    · rintro (h | h)
      · cases h
      · obtain ⟨r', hr', hid⟩ := List.mem_map.mp h
        obtain ⟨hstored, hact⟩ := (hmem r').mp hr'
        rwa [db.valid.routeKeys.inj hstored hr hid] at hact
    · exact fun hact => .inr (List.mem_map.mpr ⟨r, (hmem r).mpr ⟨hr, hact⟩, rfl⟩)
  refine ⟨db', hloop, htreated.frame, ?_, fun r hr => ?_⟩
  · rw [htreated.routes]
    refine List.map_congr_left fun r hr => ?_
    simp only [hactive r hr]
  · rw [htreated.rules r hr]
    simp only [hactive r hr]

theorem checkRoutes_eq (hrel : eng.Reliable) (env : PassEnv) :
    checkRoutes eng pendulum schema d now env db =
      (db.store.routes.filter RouteRepo.isActive).forM
        (checkRoute eng pendulum schema d now env) db := by
  have hrun : RouteRepo.listActive.run db.store =
      (.ok (db.store.routes.filter RouteRepo.isActive), []) := rfl
  obtain ⟨db', hlist, hdb⟩ := withUOW_of_flush hrel hrun (flush_nil _)
  obtain rfl : db' = db := Database.ext hdb
  exact (Service.bind_of_ok hlist :)

end Pass

/-- **A pass is a pointwise map.** With a reliable engine and a clock that stands still,
`check_routes` returns, having applied one function of a route, its rules, its fetch
result, the users, the groups and the time to each active route. So

- it leaves the same store in whatever order it goes through the routes;
- what becomes of a route does not depend on the fetch results of others;
- a route that is not active keeps its row and its rules. -/
theorem checkRoutes_pointwise (eng : Engine) (hrel : eng.Reliable) (pendulum : Pendulum)
    (schema : Json.Schema) (d : Nat) (now : Time) (fetch : String → Fetch) (db : Database) :
    ∃ db', checkRoutes eng pendulum schema d now ⟨fun _ => now, fetch⟩ db = .ok () db' ∧
      Pointwise (fun r => trackRoute pendulum schema d now db.store.users db.store.groups
        (fetch r.id) r (db.store.rulesOf r.id)) db.store db'.store ∧
      (∀ routes : List Route, routes.Perm (db.store.routes.filter RouteRepo.isActive) →
        ∃ db'', routes.forM (checkRoute eng pendulum schema d now ⟨fun _ => now, fetch⟩) db =
            .ok () db'' ∧
          db''.store.SameRows db'.store) ∧
      (∀ fetch' id, fetch' id = fetch id →
        ∃ db'', checkRoutes eng pendulum schema d now ⟨fun _ => now, fetch'⟩ db = .ok () db'' ∧
          db''.store.routeOf id = db'.store.routeOf id ∧
          db''.store.rulesOf id = db'.store.rulesOf id) ∧
      ∀ r ∈ db.store.routes, RouteRepo.isActive r = false →
        db'.store.routeOf r.id = some r ∧ db'.store.rulesOf r.id = db.store.rulesOf r.id := by
  obtain ⟨db', hloop, hpoint⟩ := forM_pointwise hrel pendulum schema d now fetch (List.Perm.refl _)
  refine ⟨db', (checkRoutes_eq hrel _).trans hloop, hpoint, ?_, ?_, ?_⟩
  · intro routes hperm
    obtain ⟨db'', hloop', hpoint'⟩ := forM_pointwise hrel pendulum schema d now fetch hperm
    exact ⟨db'', hloop', hpoint'.sameRows hpoint (treatment_id _) db''.valid db'.valid⟩
  · intro fetch' id hsame
    obtain ⟨db'', hloop', hpoint'⟩ :=
      forM_pointwise hrel pendulum schema d now fetch' (List.Perm.refl _)
    refine ⟨db'', (checkRoutes_eq hrel _).trans hloop', ?_, ?_⟩
    · rw [hpoint.routeOf (treatment_id _), hpoint'.routeOf (treatment_id _)]
      cases hr : db.store.routeOf id with
      | none => rfl
      | some r =>
        obtain ⟨-, rfl⟩ := Store.routeOf_mem hr
        simp only [Option.map_some, treatment, hsame]
    · by_cases hid : id ∈ db.store.routeIds
      · obtain ⟨r, hr, rfl⟩ := List.mem_map.mp hid
        rw [hpoint.rules r hr, hpoint'.rules r hr]
        simp only [treatment, hsame]
      · rw [db''.valid.rulesOf_eq_nil (hpoint'.routeIds (treatment_id _) ▸ hid),
          db'.valid.rulesOf_eq_nil (hpoint.routeIds (treatment_id _) ▸ hid)]
  · intro r hr hact
    have hr' : db.store.routeOf r.id = some r :=
      (lookup_eq_some_iff db.valid.routeKeys).mpr ⟨hr, rfl⟩
    refine ⟨?_, ?_⟩
    · rw [hpoint.routeOf (treatment_id _), hr']
      simp [hact]
    · rw [hpoint.rules r hr]
      simp [hact]

/-- Two routes of one domain. -/
def twoRoutes : Database := .load
  [.addUser alice, .addDomain openDomain, .addRoute appRoute,
    .addRoute { appRoute with
      id := "q", name := "api", src := "https://example.com/api", token := "u" }]

/-- One app answers, the other cannot be reached. -/
def oneAnswers (id : String) : Fetch :=
  if id = "r" then emptyDocument else .failed .connectTimeout

theorem checkRoutes_pointwise_oneAnswers :
    ∃ db', checkRoutes .sqlite .utc authorizationSchema 90 5 ⟨fun _ => 5, oneAnswers⟩ twoRoutes =
        .ok () db' ∧ db'.store.routes.map Route.status = [.up, .down] := by
  obtain ⟨db', hcall, hpoint, -⟩ := checkRoutes_pointwise .sqlite Engine.sqlite_reliable .utc
    authorizationSchema 90 5 oneAnswers twoRoutes
  refine ⟨db', hcall, ?_⟩
  rw [hpoint.routes]
  decide

end RouteRegistry
