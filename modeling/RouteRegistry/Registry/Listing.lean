import RouteRegistry.Formats.Like
import RouteRegistry.Registry.Services

/-!
# What a listing contains

The filters of `list_routes` become one conjunction. Those by status and by owner test for
equality; the one by name is a `LIKE`, with the string the client sends as its pattern. So a
listing is what its filters ask for, by equality, on every database exactly when the
characters of the name stand for themselves only in the dialect of the database
(`listRoutes_exact_iff`). With another name there is a route, of any owner and in any status,
that is listed under a name not its own, or not listed under its own (`loneRoute`). The name
widens a user's listing to the user's own routes only.
-/

namespace RouteRegistry

open Relational

/-- The filters asked of a route, each by equality. -/
structure Passes (s : Store) (verificationStatus : Option VerificationStatus)
    (status : Option Status) (name entityId : Option String) (r : Route) : Prop where
  verified : ∀ v, verificationStatus = some v → r.verificationStatus = v
  status : ∀ st, status = some st → r.status = st
  named : ∀ n, name = some n → r.name = n
  owned : ∀ e, entityId = some e → e ∈ s.owners r.id

/-- `list_routes` returns the stored routes that pass its filters, each once. -/
def ListsExactly (eng : Engine) (verificationStatus : Option VerificationStatus)
    (status : Option Status) (name entityId : Option String) (db : Database) : Prop :=
  ∃ routes, listRoutes eng verificationStatus status name entityId db = .ok routes db ∧
    routes.Nodup ∧
    ∀ r, r ∈ routes ↔
      r ∈ db.store.routes ∧ Passes db.store verificationStatus status name entityId r

/-- The name filter tells the stored routes of its name from the others. -/
structure TellsNames (like : List Char → List Char → Bool) (s : Store)
    (verificationStatus : Option VerificationStatus) (status : Option Status)
    (name entityId : Option String) : Prop where
  /-- Of the routes that pass the other filters, its pattern finds those of that name. -/
  names : ∀ r ∈ s.routes, Passes s verificationStatus status none entityId r →
    ∀ n, name = some n → (like n.toList r.name.toList = true ↔ r.name = n)
  /-- An empty owner is no filter, so what is found must be owned by it as it is. -/
  owner : entityId = some "" → ∀ r ∈ s.routes,
    Passes s verificationStatus status none none r →
      (∀ n, name = some n → like n.toList r.name.toList = true) → "" ∈ s.owners r.id

section Listing

variable {like : List Char → List Char → Bool} {s : Store} {vs : Option VerificationStatus}
  {st : Option Status} {name entityId : Option String} {r : Route}

theorem passes_name_iff : Passes s vs st name entityId r ↔
    Passes s vs st none entityId r ∧ ∀ n, name = some n → r.name = n := by
  constructor
  · intro h
    exact ⟨⟨h.verified, h.status, by simp, h.owned⟩, h.named⟩
  · rintro ⟨h, hname⟩
    exact ⟨h.verified, h.status, hname, h.owned⟩

theorem passes_owner_iff : Passes s vs st name entityId r ↔
    Passes s vs st name none r ∧ ∀ e, entityId = some e → e ∈ s.owners r.id := by
  constructor
  · intro h
    exact ⟨⟨h.verified, h.status, h.named, by simp⟩, h.owned⟩
  · rintro ⟨h, howned⟩
    exact ⟨h.verified, h.status, h.named, howned⟩

/-- A name filter that is not empty is a pattern. -/
theorem nameTest_iff (hname : name ≠ some "") :
    (!Text.truthy name || like (Text.fieldText name).toList r.name.toList) = true ↔
      ∀ n, name = some n → like n.toList r.name.toList = true := by
  cases name with
  | none => simp [Text.truthy]
  | some n =>
    have hn : n ≠ "" := fun h => hname (congrArg some h)
    simp [Text.truthy, hn]

/-- An owner filter that is not empty is a test for membership. -/
theorem ownerTest_iff :
    (!Text.truthy entityId || decide (Text.fieldText entityId ∈ s.owners r.id)) = true ↔
      ∀ e, entityId = some e → e ≠ "" → e ∈ s.owners r.id := by
  cases entityId with
  | none => simp [Text.truthy]
  | some e =>
    show (!Text.truthy (some e) || decide (e ∈ s.owners r.id)) = true ↔ _
    by_cases he : e = "" <;> simp [Text.truthy, he]

/-- What the query tests: equal statuses, a matching name, and an owner if one is named. -/
theorem matchesFilters_iff (hname : name ≠ some "") :
    RouteRepo.matchesFilters like s vs st name entityId r = true ↔
      Passes s vs st none none r ∧
      (∀ n, name = some n → like n.toList r.name.toList = true) ∧
      ∀ e, entityId = some e → e ≠ "" → e ∈ s.owners r.id := by
  have hpasses : Passes s vs st none none r ↔
      (∀ v, vs = some v → r.verificationStatus = v) ∧ ∀ x, st = some x → r.status = x :=
    ⟨fun h => ⟨h.verified, h.status⟩, fun h => ⟨h.1, h.2, by simp, by simp⟩⟩
  unfold RouteRepo.matchesFilters
  rw [Bool.and_eq_true, Bool.and_eq_true, nameTest_iff hname, ownerTest_iff, hpasses,
    Bool.and_eq_true, and_assoc]
  refine and_congr_left' (and_congr ?_ ?_)
  · cases vs <;> simp
  · cases st <;> simp

/-- The query finds what passes the filters exactly when the name filter tells the names. -/
theorem matches_iff_passes (hname : name ≠ some "") :
    (∀ r ∈ s.routes, RouteRepo.matchesFilters like s vs st name entityId r = true ↔
      Passes s vs st name entityId r) ↔ TellsNames like s vs st name entityId := by
  constructor
  · intro h
    constructor
    · intro r hr hother n hn
      have hr' := h r hr
      rw [matchesFilters_iff hname] at hr'
      obtain ⟨hstatus, howned⟩ := passes_owner_iff.mp hother
      subst hn
      constructor
      · intro hlike
        refine (hr'.mp ⟨hstatus, ?_, fun e he _ => howned e he⟩).named n rfl
        rintro _ ⟨⟩
        exact hlike
      · intro heq
        refine (hr'.mpr (passes_name_iff.mpr ⟨hother, ?_⟩)).2.1 n rfl
        rintro _ ⟨⟩
        exact heq
    · rintro rfl r hr hstatus hlike
      have hfound : RouteRepo.matchesFilters like s vs st name (some "") r = true :=
        (matchesFilters_iff hname).mpr
          ⟨hstatus, hlike, fun e he hne => absurd (Option.some.inj he).symm hne⟩
      exact ((h r hr).mp hfound).owned "" rfl
  · intro htells r hr
    rw [matchesFilters_iff hname]
    constructor
    · rintro ⟨hstatus, hlike, howned⟩
      have hother : Passes s vs st none entityId r := by
        refine passes_owner_iff.mpr ⟨hstatus, fun e he => ?_⟩
        by_cases hempty : e = ""
        · subst hempty
          exact htells.owner he r hr hstatus hlike
        · exact howned e he hempty
      refine passes_name_iff.mpr ⟨hother, fun n hn => ?_⟩
      exact (htells.names r hr hother n hn).mp (hlike n hn)
    · intro hpass
      obtain ⟨hother, hnamed⟩ := passes_name_iff.mp hpass
      obtain ⟨hstatus, howned⟩ := passes_owner_iff.mp hother
      refine ⟨hstatus, fun n hn => ?_, fun e he _ => howned e he⟩
      exact (htells.names r hr hother n hn).mpr (hnamed n hn)

theorem run_list (like : List Char → List Char → Bool) (s : Store)
    (vs : Option VerificationStatus) (st : Option Status) (name entityId : Option String) :
    (RouteRepo.list like vs st name entityId).run s =
      (.ok (s.routes.filter (RouteRepo.matchesFilters like s vs st name entityId)), []) :=
  rfl

end Listing

/-! ## A route that is mistaken -/

/-- A route of that name, in a status that passes the filters. -/
def lone (vs : Option VerificationStatus) (st : Option Status) (name : String) : Route :=
  { appRoute with
    name := name, verificationStatus := vs.getD .verified, status := st.getD .up }

/-- A registry of one user, with the id `entityId`, and one route. -/
def loneRoute (vs : Option VerificationStatus) (st : Option Status) (name entityId : String)
    (owned : Bool) : Database where
  store := {
    users := [{ alice with id := entityId }]
    domains := [openDomain]
    routes := [lone vs st name]
    ownerships := if owned then [⟨entityId, appRoute.id⟩] else [] }
  valid := by
    constructor <;> cases owned <;>
      simp [Keyed, Store.entityIds, Store.domainIds, Store.routeIds, lone, appRoute, openDomain,
        alice]

section Lone

variable {vs : Option VerificationStatus} {st : Option Status} {name entityId : Option String}
  {n e : String} {owned : Bool}

theorem owners_loneRoute :
    (loneRoute vs st n e owned).store.owners appRoute.id = if owned then [e] else [] := by
  cases owned <;> simp [loneRoute, Store.owners]

theorem passes_lone (howner : ∀ e', entityId = some e' → owned = true ∧ e' = e) :
    Passes (loneRoute vs st n e owned).store vs st none entityId (lone vs st n) where
  verified v h := by simp [lone, h]
  status x h := by simp [lone, h]
  named n h := by cases h
  owned e' h := by
    obtain ⟨rfl, rfl⟩ := howner e' h
    rw [show (lone vs st n).id = appRoute.id from rfl, owners_loneRoute]
    exact List.mem_cons_self

end Lone

section Exact

variable {eng : Engine} {vs : Option VerificationStatus} {st : Option Status}
  {name entityId : Option String}

/-- An exact name tells the routes of its name from the others in every store. -/
theorem tellsNames_of_exact (s : Store)
    (hexact : ∀ n, name = some n → eng.dialect.Exact n.toList) (howner : entityId ≠ some "") :
    TellsNames eng.like s vs st name entityId where
  names r _ _ n hn := by
    rw [eng.documented.of_exact (hexact n hn), String.toList_inj]
  owner h := absurd h howner

/-- A name that tells the routes of its name from the others in every store is exact. -/
theorem exact_of_tellsNames
    (h : ∀ db : Database, TellsNames eng.like db.store vs st name entityId) {n : String}
    (hn : name = some n) : eng.dialect.Exact n.toList := by
  rw [← eng.documented.exact_iff]
  intro text
  have hpass : Passes (loneRoute vs st (String.ofList text) (entityId.getD "") true).store vs st
      none entityId (lone vs st (String.ofList text)) :=
    passes_lone fun e he => ⟨rfl, by rw [he, Option.getD_some]⟩
  have htold := (h (loneRoute vs st (String.ofList text) (entityId.getD "") true)).names
    (lone vs st (String.ofList text)) List.mem_cons_self hpass n hn
  rw [← String.toList_inj] at htold
  simpa [lone] using htold

/-- The empty owner is no filter: a route without owners is listed for it. -/
theorem owner_of_tellsNames
    (h : ∀ db : Database, TellsNames eng.like db.store vs st name entityId) :
    entityId ≠ some "" := by
  intro hempty
  have hpass : Passes (loneRoute vs st (name.getD "") "" false).store vs st none none
      (lone vs st (name.getD "")) :=
    passes_lone fun e he => by cases he
  have howned := (h (loneRoute vs st (name.getD "") "" false)).owner hempty
    (lone vs st (name.getD "")) List.mem_cons_self hpass fun n hn => by
      rw [eng.documented.of_exact (exact_of_tellsNames h hn), hn]
      rfl
  rw [show (lone vs st (name.getD "")).id = appRoute.id from rfl, owners_loneRoute] at howned
  cases howned

end Exact

/-- **When a listing is what its filters ask for.** `list_routes` returns the stored routes
that pass every filter, each once, on every database exactly when the characters of the name
stand for themselves only, and the owner is not empty. On one database it does exactly when
the name, read as a pattern, tells the routes of its name from the other stored ones. Whatever
the name, a listing for an owner contains stored routes of that owner only. -/
theorem listRoutes_exact_iff (eng : Engine) (hrel : eng.Reliable)
    (verificationStatus : Option VerificationStatus) (status : Option Status)
    (name entityId : Option String) (hname : name ≠ some "") :
    ((∀ db, ListsExactly eng verificationStatus status name entityId db) ↔
      (∀ n, name = some n → eng.dialect.Exact n.toList) ∧ entityId ≠ some "") ∧
    (∀ db, ListsExactly eng verificationStatus status name entityId db ↔
      TellsNames eng.like db.store verificationStatus status name entityId) ∧
    ∀ db routes db', listRoutes eng verificationStatus status name entityId db = .ok routes db' →
      ∀ e, entityId = some e → e ≠ "" →
        ∀ r ∈ routes, r ∈ db.store.routes ∧ e ∈ db.store.owners r.id := by
  have hrun := fun db : Database =>
    run_list eng.like db.store verificationStatus status name entityId
  have htells : ∀ db, ListsExactly eng verificationStatus status name entityId db ↔
      TellsNames eng.like db.store verificationStatus status name entityId := by
    intro db
    rw [← matches_iff_passes hname]
    constructor
    · rintro ⟨routes, hok, -, hmem⟩ r hr
      obtain ⟨rfl, -⟩ := withUOW_ok_of_flush hok (hrun db) (flush_nil _)
      have hr' := hmem r
      rw [List.mem_filter] at hr'
      simpa [hr] using hr'
    · intro h
      obtain ⟨db₁, hlist, hdb₁⟩ := withUOW_of_flush hrel (hrun db) (flush_nil _)
      rw [Database.ext hdb₁] at hlist
      refine ⟨_, hlist, (List.Nodup.of_map Route.id db.valid.routeKeys).filter _, fun r => ?_⟩
      rw [List.mem_filter]
      exact and_congr_right (h r)
  refine ⟨⟨fun h => ?_, fun h db => (htells db).mpr (tellsNames_of_exact _ h.1 h.2)⟩, htells, ?_⟩
  · have h' := fun db => (htells db).mp (h db)
    exact ⟨fun n hn => exact_of_tellsNames h' hn, owner_of_tellsNames h'⟩
  · intro db routes db' hok e he hne r hr
    obtain ⟨rfl, -⟩ := withUOW_ok_of_flush hok (hrun db) (flush_nil _)
    obtain ⟨hmem, hmatch⟩ := List.mem_filter.mp hr
    exact ⟨hmem, ((matchesFilters_iff hname).mp hmatch).2.2 e he hne⟩

/-- A database that reads patterns as PostgreSQL does. -/
def caseSensitive : Engine :=
  { Engine.sqlite with
    dialect := .postgresql
    like := Text.Dialect.postgresql.like
    documented := Text.Dialect.postgresql.documents }

theorem listRoutes_app :
    (some "app" : Option String) ≠ some "" ∧
      ∀ db, ListsExactly caseSensitive none none (some "app") (some alice.id) db := by
  refine ⟨by decide, (listRoutes_exact_iff caseSensitive Engine.sqlite_reliable none none
    (some "app") (some alice.id) (by decide)).1.mpr ⟨?_, by decide⟩⟩
  rintro n ⟨⟩ c hc
  have hliteral : ∀ c ∈ "app".toList, caseSensitive.dialect.Literal c :=
    List.forall_iff_forall_mem.mp (by decide)
  exact ⟨hliteral c hc, fun c' hc' => of_decide_eq_true hc'⟩

/-- The filter `a%` lists the route `app`, though no route has that name. -/
theorem listRoutes_percent :
    listRoutes .sqlite none none (some "a%") none oneRoute = .ok [appRoute] oneRoute ∧
      ¬ ListsExactly .sqlite none none (some "a%") none oneRoute := by
  have hlist : listRoutes .sqlite none none (some "a%") none oneRoute =
      .ok [appRoute] oneRoute := by
    rfl
  refine ⟨hlist, ?_⟩
  rintro ⟨routes, hok, -, hmem⟩
  rw [hlist] at hok
  cases hok
  have hpass := ((hmem appRoute).mp List.mem_cons_self).2.named "a%" rfl
  exact absurd hpass (by decide)

end RouteRegistry
