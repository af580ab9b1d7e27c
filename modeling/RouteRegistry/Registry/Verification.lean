import RouteRegistry.Registry.Registration
import RouteRegistry.Registry.System

/-!
# Verified and unverified routes

Who writes `verification_status`, in runs of the whole system.

- Only `register_route` and `validate_route` write `VERIFIED`
  (`Transaction.sets_verified`), the first on a route of the caller, the second on the
  route it is asked about. So an unverified route stays so until one of them
  (`unverified_sticky`).
- A pass unverifies by the `last_contact` of the route object it listed, not by the
  stored one. `passDecide_stale_iff` says when the two agree.
-/

namespace RouteRegistry

open Relational UnitOfWork Runs

/-! ## Unverified is sticky -/

/-- The route is stored and unverified. -/
def Store.Unverified (s : Store) (id : String) : Prop :=
  ∃ r, s.routeOf id = some r ∧ r.verificationStatus = .unverified

/-- An event that may verify the route again: a successful `register_route` of an owner
that generates its `src`, or `validate_route`. -/
def Releases (eng : Engine) (id : String) (s : System) : Event → Prop
  | .transact (.registerRoute reg draws) =>
    ∃ d u src r r' db', Resolves s.db.store reg { draws with now := s.clock } d u src ∧
      s.db.store.routeOfSrc src = some r ∧ r.id = id ∧ u.id ∈ s.db.store.owners id ∧
      registerRoute eng reg { draws with now := s.clock } s.db = .ok r' db'
  | .transact (.validateRoute routeId _) => routeId = id
  | _ => False

/-- An event that unverifies the route: an `unverify_route` that returns, on its own or
as a step of a pass. -/
def Unverifies (eng : Engine) (setup : Setup) (id : String) (s : System) : Event → Prop
  | .transact (.unverifyRoute routeId) =>
    routeId = id ∧ ∃ db', unverifyRoute eng routeId s.db = .ok () db'
  | .passDecide i =>
    ∃ p, s.passes[i]? = some p ∧ p.unverifies setup.pendulum = some id ∧
      ∃ db', unverifyRoute eng id s.db = .ok () db'
  | _ => False

/-- Who writes which verification status. -/
theorem Transaction.sets_verified {t : Transaction} {now : Time} {id : String}
    {v : VerificationStatus} (h : t.mayQueue now (.setRoute id (.verificationStatus v))) :
    v = .unverified ∨ (∃ reg draws, t = .registerRoute reg draws) ∨
      ∃ routeId fetch, t = .validateRoute routeId fetch := by
  cases t with
  | registerRoute reg draws => exact .inr (.inl ⟨reg, draws, rfl⟩)
  | validateRoute routeId fetch => exact .inr (.inr ⟨routeId, fetch, rfl⟩)
  | unverifyRoute routeId =>
    obtain ⟨id', a, heq, rfl | rfl⟩ := h
    · cases heq
      exact .inl rfl
    · cases heq
  | _ => simp [Transaction.mayQueue] at h

/-- `validate_route` sets attributes of no other route. -/
theorem run_validateRouteBody_ids {s : Store} (hv : s.Valid) (bcrypt : Bcrypt) (routeId : String)
    (fetch : Fetch) (schema : Json.Schema) (now : Time) :
    ∀ c ∈ ((validateRouteBody bcrypt routeId fetch schema now).run s).2, ∀ id a,
      c = .setRoute id a → id = routeId := by
  unfold validateRouteBody
  rw [Txn.run_bind_pure (RouteRepo.run_get hv routeId)]
  cases hr : s.routeOf routeId with
  | none => exact fun c hc => by cases hc
  | some route =>
    obtain ⟨-, rfl⟩ := Store.routeOf_mem hr
    refine (queues_validateStored (P := fun c => ∀ id a, c = .setRoute id a → id = route.id)
      ?_ ?_ ?_ ?_ ?_).run s
    · exact fun id id' a h => by cases h
    · exact fun r id' a h => by cases h
    all_goals exact fun id a h => by cases h; rfl

section Sticky

variable {eng : Engine} {setup : Setup} {id : String}

/-- Without a write of `VERIFIED` a block keeps a route unverified. -/
theorem Transaction.keeps_unverified_of {t : Transaction} {now : Time} {db : Database}
    (ht : ∀ v, t.mayQueue now (.setRoute id (.verificationStatus v)) → v = .unverified)
    (h : db.store.Unverified id) :
    ((t.run eng setup now).after db).store.Unverified id := by
  obtain ⟨r, hr, hv⟩ := h
  obtain ⟨as, hr', has⟩ := Transaction.after_routeOf eng setup now t hr
  refine ⟨_, hr', ?_⟩
  rcases RouteAttr.setAll_verificationStatus as r with h | h
  · exact h.trans hv
  · rcases has _ h with h' | h'
    · cases h'
    · exact ht _ h'

/-- A registration keeps a route unverified unless it releases it. -/
theorem registerRoute_keeps_unverified {reg : Registration} {draws : Draws} {db : Database}
    (hrel : ¬ ∃ d u src r r' db', Resolves db.store reg draws d u src ∧
      db.store.routeOfSrc src = some r ∧ r.id = id ∧ u.id ∈ db.store.owners id ∧
      registerRoute eng reg draws db = .ok r' db')
    (h : db.store.Unverified id) :
    ((registerRoute eng reg draws).after db).store.Unverified id := by
  obtain ⟨r, hr, hv⟩ := h
  rcases registerRoute_after_cases eng reg draws db with hsame | ⟨r', db', hcall, hreg⟩
  · rw [hsame]
    exact ⟨r, hr, hv⟩
  generalize ((registerRoute eng reg draws).after db).store = s' at hreg ⊢
  cases hreg with
  | @rebound d u src r₀ hres hr₀ hown hret =>
    -- the route the call rewrites is another one
    have hne : id ≠ r₀.id := by
      rintro rfl
      exact hrel ⟨d, u, src, r₀, r', db', hres, hr₀, rfl, hown, hcall⟩
    refine ⟨r, ?_, hv⟩
    exact (lookup_modify_ne (RouteAttr.setAll_id _) hne _).trans hr
  | created => exact ⟨r, lookup_append_of_some hr, hv⟩
  | dropped => exact ⟨r, hr, hv⟩

/-- A validation of another route keeps a route unverified. -/
theorem validateRoute_keeps_unverified {routeId : String} {fetch : Fetch} {now : Time}
    {db : Database} (hne : id ≠ routeId) (h : db.store.Unverified id) :
    (((Transaction.validateRoute routeId fetch).run eng setup now).after db).store.Unverified
      id := by
  obtain ⟨r, hr, hv⟩ := h
  unfold Service.after
  cases hcall : (Transaction.validateRoute routeId fetch).run eng setup now db with
  | error e db' =>
    rw [show db' = db from withUOW_error hcall]
    exact ⟨r, hr, hv⟩
  | ok u db' =>
    obtain ⟨Δ, hrun, hf | ⟨rfl, -⟩⟩ := withUOW_ok hcall
    · obtain ⟨as, hr', has⟩ := flush_routeOf hf hr
      refine ⟨_, hr', ?_⟩
      rcases RouteAttr.setAll_verificationStatus as r with h | h
      · exact h.trans hv
      · rcases has _ h with h' | h'
        · cases h'
        · -- what the session sets, it sets on the route it is about
          have hids := run_validateRouteBody_ids db.valid setup.bcrypt routeId fetch
            setup.schema now
          rw [show (validateRouteBody setup.bcrypt routeId fetch setup.schema now).run db.store =
            _ from hrun] at hids
          exact absurd (hids _ h' _ _ rfl) hne
    · exact ⟨r, hr, hv⟩

/-- **One step.** An unverified route stays so through any event that does not release
it. -/
theorem step_keeps_unverified {s s' : System} {e : Event}
    (hun : s.db.store.Unverified id) (hrel : ¬ Releases eng id s e)
    (h : step eng setup s e = some s') : s'.db.store.Unverified id := by
  rcases step_db h with hdb | ⟨t, hdb, ht⟩
  · rwa [hdb]
  · rw [hdb]
    by_cases hset : ∀ v, t.mayQueue s.clock (.setRoute id (.verificationStatus v)) → v = .unverified
    · exact Transaction.keeps_unverified_of hset hun
    · -- only the two writers of `VERIFIED` are left
      push Not at hset
      obtain ⟨v, hmay, hv⟩ := hset
      rcases Transaction.sets_verified hmay with hv' | ⟨reg, draws, rfl⟩ | ⟨routeId, fetch, rfl⟩
      · exact absurd hv' hv
      · rcases ht with rfl | ⟨_, _, ht⟩ | ⟨_, ht⟩
        · exact registerRoute_keeps_unverified hrel hun
        · cases ht
        · cases ht
      · rcases ht with rfl | ⟨_, _, ht⟩ | ⟨_, ht⟩
        · exact validateRoute_keeps_unverified (fun h => hrel h.symm) hun
        · cases ht
        · cases ht

/-- What unverifies a route leaves it unverified. -/
theorem unverified_of_unverifies {s s' : System} {e : Event} (hun : Unverifies eng setup id s e)
    (h : step eng setup s e = some s') : s'.db.store.Unverified id := by
  have hwrite : ∀ db', unverifyRoute eng id s.db = .ok () db' → db'.store.Unverified id := by
    intro db' hcall
    obtain ⟨hid, hdb⟩ := unverifyRoute_ok hcall
    obtain ⟨r, hr⟩ := Store.mem_routeIds_iff.mp hid
    rw [hdb]
    -- the status is set after it, and leaves it alone
    refine ⟨RouteAttr.setAll unverifiedAttrs r, ?_, rfl⟩
    exact (lookup_modify_self (RouteAttr.setAll_id _) _).trans (congrArg _ hr)
  cases e with
  | transact t =>
    cases t with
    | unverifyRoute routeId =>
      obtain ⟨rfl, db', hcall⟩ := hun
      cases h
      show ((unverifyRoute eng routeId).after s.db).store.Unverified routeId
      rw [Service.after_of_ok hcall]
      exact hwrite db' hcall
    | _ => exact hun.elim
  | passDecide i =>
    obtain ⟨p, hp, hid, db', hcall⟩ := hun
    obtain ⟨now, d, route, rest, hp', rfl⟩ := step_passDecide h
    cases hp.symm.trans hp'
    rw [Pass.decide_db, hid]
    show ((unverifyRoute eng id).after s.db).store.Unverified id
    rw [Service.after_of_ok hcall]
    exact hwrite db' hcall
  | _ => exact hun.elim

/-- The outcome of `verifiedRouteBody` over a store. -/
def Store.verifiedRoute (s : Store) (claims : Claims) : Except Exc Route :=
  match claims.subject with
  | .error e => .error e
  | .ok sub =>
    match s.routeOf sub with
    | none => .error (httpException 401 "Unauthorized")
    | some route =>
      if route.verificationStatus = .verified then .ok route
      else .error (httpException 401 "Cannot rotate jwt for unverified route")

theorem run_verifiedRouteBody {s : Store} (hv : s.Valid) (claims : Claims) :
    (verifiedRouteBody claims).run s = (s.verifiedRoute claims, []) := by
  unfold verifiedRouteBody Store.verifiedRoute
  cases claims.subject with
  | error e => rfl
  | ok sub =>
    rw [Txn.run_ofExcept_ok_bind, Txn.run_bind_pure (RouteRepo.run_get hv sub)]
    cases hr : s.routeOf sub with
    | none => simp [hr]
    | some route =>
      by_cases hver : route.verificationStatus = .verified
      · simp [hr, hver]
      · simp only [hr, ne_eq, hver, not_false_eq_true, if_true, if_false]
        rfl

theorem Store.verifiedRoute_eq_ok {s : Store} {claims : Claims} {r : Route} :
    s.verifiedRoute claims = .ok r ↔
      ∃ sub, claims.subject = .ok sub ∧ s.routeOf sub = some r ∧
        r.verificationStatus = .verified := by
  unfold Store.verifiedRoute
  cases claims.subject with
  | error e => simp
  | ok sub =>
    cases hr : s.routeOf sub with
    | none => simp [hr]
    | some route =>
      by_cases hv : route.verificationStatus = .verified
      · simp only [hv, if_true, Except.ok.injEq, exists_eq_left', hr, Option.some.injEq]
        constructor
        · rintro rfl
          exact ⟨rfl, hv⟩
        · exact fun h => h.1
      · simp only [hv, if_false, Except.ok.injEq, exists_eq_left', hr, Option.some.injEq,
          reduceCtorEq, false_iff]
        rintro ⟨rfl, h⟩
        exact hv h

/-- What the JWT authenticator returns is stored and verified. -/
theorem jwtAuthenticator_ok {jose : Jose} {xJwt : String} {db db' : Database} {r : Route}
    (h : jwtAuthenticator eng jose xJwt db = .ok r db') :
    db.store.routeOf r.id = some r ∧ r.verificationStatus = .verified := by
  unfold jwtAuthenticator at h
  cases hdec : decodeJwt jose xJwt with
  | error e =>
    rw [hdec] at h
    cases h
  | ok claims =>
    rw [hdec] at h
    obtain ⟨Δ, hrun, -⟩ := withUOW_ok h
    rw [run_verifiedRouteBody db.valid] at hrun
    obtain ⟨hok, -⟩ := Prod.mk.inj hrun
    obtain ⟨sub, -, hr, hv⟩ := Store.verifiedRoute_eq_ok.mp hok
    rw [(Store.routeOf_mem hr).2]
    exact ⟨hr, hv⟩

theorem listAvailableRoutes_ok {db db' : Database} {rs : List Route}
    (h : listAvailableRoutes eng db = .ok rs db') :
    ∀ r ∈ rs, r ∈ db.store.routes ∧ r.verificationStatus = .verified := by
  obtain ⟨Δ, hrun, -⟩ := withUOW_ok h
  cases hrun
  intro r hr
  obtain ⟨hmem, hmatch⟩ := List.mem_filter.mp hr
  refine ⟨hmem, ?_⟩
  simp only [RouteRepo.matchesFilters, Bool.and_eq_true, decide_eq_true_eq] at hmatch
  exact hmatch.1.1.1

theorem listActive_ok {db db' : Database} {rs : List Route}
    (h : withUOW eng RouteRepo.listActive db = .ok rs db') :
    rs = db.store.routes.filter RouteRepo.isActive := by
  obtain ⟨Δ, hrun, -⟩ := withUOW_ok h
  cases hrun
  rfl

/-- **Unverified is sticky.** After an event that unverifies the route `id`, along any
run none of whose events releases it: it is stored as unverified, the JWT authenticator
never returns it, and no listing of available or active routes contains it. -/
theorem unverified_sticky (eng : Engine) (setup : Setup) (id : String) (s₀ s s' : System)
    (e : Event) (es : List Event) (hun : Unverifies eng setup id s₀ e)
    (hstep : step eng setup s₀ e = some s)
    (hrel : Along (step eng setup) (fun s e => ¬ Releases eng id s e) s es)
    (hrun : run (step eng setup) s es = some s') :
    (∃ r, s'.db.store.routeOf id = some r ∧ r.verificationStatus = .unverified) ∧
    (∀ jose xJwt r db', jwtAuthenticator eng jose xJwt s'.db = .ok r db' → r.id ≠ id) ∧
    (∀ rs db', listAvailableRoutes eng s'.db = .ok rs db' → ∀ r ∈ rs, r.id ≠ id) ∧
    (∀ rs db', withUOW eng RouteRepo.listActive s'.db = .ok rs db' → ∀ r ∈ rs, r.id ≠ id) := by
  have hinv : s'.db.store.Unverified id :=
    run_keeps (I := fun s => s.db.store.Unverified id)
      (fun _ _ _ hI hP h => step_keeps_unverified hI hP h) hrel hrun
      (unverified_of_unverifies hun hstep)
  obtain ⟨r, hr, hv⟩ := hinv
  have hnot : ∀ r' ∈ s'.db.store.routes, r'.verificationStatus = .verified → r'.id ≠ id := by
    intro r' hr' hv' hid
    have hl := (lookup_eq_some_iff s'.db.valid.routeKeys).mpr ⟨hr', hid⟩
    cases hl.symm.trans (show lookup Route.id id s'.db.store.routes = some r from hr)
    rw [hv] at hv'
    cases hv'
  refine ⟨⟨r, hr, hv⟩, ?_, ?_, ?_⟩
  · intro jose xJwt r' db' h
    obtain ⟨hr', hv'⟩ := jwtAuthenticator_ok h
    exact hnot r' (Store.routeOf_mem hr').1 hv'
  · intro rs db' h r' hr'
    obtain ⟨hmem, hv'⟩ := listAvailableRoutes_ok h r' hr'
    exact hnot r' hmem hv'
  · intro rs db' h r' hr'
    rw [listActive_ok h] at hr'
    obtain ⟨hmem, hact⟩ := List.mem_filter.mp hr'
    simp only [RouteRepo.isActive, Bool.and_eq_true, decide_eq_true_eq] at hact
    exact hnot r' hmem hact.1

end Sticky

/-! ### A run -/

/-- The shipped schema, and passwords stored as they are. -/
def plainSetup : Setup := 
  ⟨authorizationSchema, ⟨fun p _ => .ok p, fun p h => .ok (decide (p = h))⟩, .utc⟩

theorem unverified_sticky_updated :
    let s' := (step .sqlite plainSetup
      ((step .sqlite plainSetup ⟨oneRoute, 0, []⟩ (.transact (.unverifyRoute "r"))).getD
        ⟨oneRoute, 0, []⟩) (.transact (.updateRoute "r" emptyDocument))).getD ⟨oneRoute, 0, []⟩
    (s'.db.store.routeOf "r").map Route.status = some .up ∧
      ∃ r, s'.db.store.routeOf "r" = some r ∧ r.verificationStatus = .unverified :=
  ⟨by decide, (unverified_sticky .sqlite plainSetup "r" ⟨oneRoute, 0, []⟩ _ _
    (.transact (.unverifyRoute "r")) [.transact (.updateRoute "r" emptyDocument)]
    ⟨rfl, _, rfl⟩ rfl ⟨id, trivial⟩ rfl).1⟩

/-! ## Passes and the age of a route -/

/-- The routes a pass has still to deal with. -/
def Stage.routes : Stage → List Route
  | .opened => []
  | .atRoutes routes => routes
  | .updated route rest => route :: rest

/-- The clock does not go back. -/
def Forward (s : System) : Event → Prop
  | .tick t => s.clock ≤ t
  | _ => True

/-- The rows behind a pass's list are stored: still at the contact it listed or, if time
moves forward (`F`), at one later than its start. -/
structure Pass.Tracks (F : Prop) (p : Pass) (s : Store) (clock : Time) : Prop where
  started : F → p.now ≤ clock
  rows : ∀ r ∈ p.stage.routes, ∃ stored, s.routeOf r.id = some stored ∧
    (stored.lastContact = r.lastContact ∨ (F → p.now ≤ stored.lastContact))

/-- Every contact a block writes is the time it runs at. -/
theorem Transaction.sets_lastContact {t : Transaction} {now c : Time} {id : String}
    (h : t.mayQueue now (.setRoute id (.lastContact c))) : c = now := by
  cases t with
  | registerRoute reg draws =>
    rcases h with ⟨r, h⟩ | ⟨o, h⟩ | ⟨id', a, h, ⟨_, h'⟩ | h' | h'⟩ <;> cases h <;> cases h'
    rfl
  | updateRoute routeId fetch =>
    rcases h with ⟨r, h⟩ | ⟨o, h⟩ | ⟨id', a, h, ⟨_, h'⟩ | h'⟩ <;> cases h <;> cases h'
    rfl
  | validateRoute routeId fetch =>
    rcases h with ⟨r, h⟩ | ⟨o, h⟩ | ⟨id', a, h, h' | h' | h'⟩ <;> cases h <;> cases h'
    rfl
  | unverifyRoute routeId =>
    obtain ⟨id', a, h, h' | h'⟩ := h <;> cases h <;> cases h'
  | _ => simp [Transaction.mayQueue] at h

section Passes

variable {eng : Engine} {setup : Setup} {F : Prop}

/-- A block keeps what a pass tracks. -/
theorem Pass.Tracks.after {p : Pass} {db : Database} {clock : Time}
    (h : p.Tracks F db.store clock) (eng : Engine) (setup : Setup) (t : Transaction) :
    p.Tracks F ((t.run eng setup clock).after db).store clock := by
  refine ⟨h.started, fun r hr => ?_⟩
  obtain ⟨stored, hstored, hlast⟩ := h.rows r hr
  obtain ⟨as, hafter, has⟩ := Transaction.after_routeOf eng setup clock t hstored
  refine ⟨_, hafter, ?_⟩
  rcases RouteAttr.setAll_lastContact as stored with hsame | hset
  · exact hsame ▸ hlast
  · rcases has _ hset with hc | hmay
    · cases hc
    · rw [Transaction.sets_lastContact hmay]
      exact .inr h.started

/-- A pass that goes on to fewer routes still tracks them. -/
theorem Pass.Tracks.of_subset {p : Pass} {s : Store} {clock : Time} (h : p.Tracks F s clock)
    {stage : Stage} (hsub : stage.routes ⊆ p.stage.routes) :
    Pass.Tracks F { p with stage := stage } s clock :=
  ⟨h.started, fun r hr => h.rows r (hsub hr)⟩

/-- The passes of a moved system: the old ones, and the moved one. -/
theorem System.mem_passes_moved {s : System} {db : Database} {i : Nat} {stage : Stage} {p : Pass}
    (h : p ∈ (s.moved db i stage).passes) :
    p ∈ s.passes ∨ ∃ p₀, s.passes[i]? = some p₀ ∧ p = { p₀ with stage := stage } := by
  obtain ⟨j, hj⟩ := List.mem_iff_getElem?.mp h
  rw [System.moved, List.getElem?_modify] at hj
  by_cases hij : i = j
  · subst hij
    cases hp : s.passes[i]? with
    | none =>
      rw [hp] at hj
      cases hj
    | some p₀ =>
      rw [hp] at hj
      exact .inr ⟨p₀, rfl, by simpa using hj.symm⟩
  · refine .inl (List.mem_iff_getElem?.mpr ⟨j, ?_⟩)
    simpa [hij] using hj

/-- Every pass of the system tracks its rows. -/
def System.Tracked (F : Prop) (s : System) : Prop :=
  ∀ p ∈ s.passes, p.Tracks F s.db.store s.clock

/-- A pass moves on, over a database that keeps the rows, to fewer routes. -/
theorem System.tracked_moved {s : System} {db : Database} {i : Nat} {p : Pass}
    {stage : Stage} (hp : s.passes[i]? = some p) (hsub : stage.routes ⊆ p.stage.routes)
    (hdb : ∀ q ∈ s.passes, q.Tracks F db.store s.clock) : (s.moved db i stage).Tracked F := by
  intro q hq
  rcases System.mem_passes_moved hq with hq | ⟨p₀, hp₀, rfl⟩
  · exact hdb q hq
  · rw [hp] at hp₀
    cases hp₀
    exact (hdb p (List.mem_of_getElem? hp)).of_subset hsub

/-- A pass that lists the active routes lists stored rows. -/
theorem System.tracked_list {s : System} {i : Nat} {now : Time} {d : Nat}
    (hp : s.passes[i]? = some ⟨now, d, .opened⟩) (h : s.Tracked F) :
    (Pass.list eng s i).Tracked F := by
  have hstarted := (h _ (List.mem_of_getElem? hp)).started
  have hdb := Pass.list_db eng s i
  unfold Pass.list at hdb ⊢
  cases hlist : withUOW eng RouteRepo.listActive s.db with
  | error e db =>
    rw [hlist] at hdb
    obtain rfl : db = s.db := hdb
    exact System.tracked_moved hp (by simp [Stage.routes]) h
  | ok routes db =>
    rw [hlist] at hdb
    obtain rfl : db = s.db := hdb
    intro q hq
    rcases System.mem_passes_moved hq with hq | ⟨p₀, hp₀, rfl⟩
    · exact h q hq
    · -- what was just listed is what is stored
      rw [hp] at hp₀
      cases hp₀
      refine ⟨hstarted, fun r hr => ⟨r, ?_, .inl rfl⟩⟩
      have hmem : r ∈ s.db.store.routes := by
        have hr' : r ∈ routes := hr
        rw [listActive_ok hlist] at hr'
        exact List.mem_of_mem_filter hr'
      exact (lookup_eq_some_iff s.db.valid.routeKeys).mpr ⟨hmem, rfl⟩

theorem System.tracked_decide (setup : Setup) {s : System} {i : Nat} {now : Time} {d : Nat}
    {route : Route} {rest : List Route} (hp : s.passes[i]? = some ⟨now, d, .updated route rest⟩)
    (h : s.Tracked F) :
    (Pass.decide eng setup.pendulum s i ⟨now, d, .updated route rest⟩ rest).Tracked F := by
  unfold Pass.decide
  cases Pass.unverifies setup.pendulum ⟨now, d, .updated route rest⟩ with
  | none => exact System.tracked_moved hp (List.subset_cons_self route rest) h
  | some id =>
    have hafter : ∀ q ∈ s.passes,
        q.Tracks F ((unverifyRoute eng id).after s.db).store s.clock := fun q hq =>
      (h q hq).after eng setup (.unverifyRoute id)
    unfold Service.after at hafter
    dsimp only
    cases hun : unverifyRoute eng id s.db with
    | ok u db =>
      rw [hun] at hafter
      exact System.tracked_moved hp (List.subset_cons_self route rest) hafter
    | error e db =>
      rw [hun] at hafter
      exact System.tracked_moved hp (List.nil_subset _) hafter

/-- **One step** keeps the passes on the track of their rows. -/
theorem step_tracked {s s' : System} {e : Event} (h : s.Tracked F) (hf : F → Forward s e)
    (hstep : step eng setup s e = some s') : s'.Tracked F := by
  cases e with
  | tick t =>
    cases hstep
    exact fun p hp => ⟨fun hF => Int.le_trans ((h p hp).started hF) (hf hF), (h p hp).rows⟩
  | transact t =>
    cases hstep
    exact fun p hp => (h p hp).after eng setup t
  | openPass d =>
    cases hstep
    intro p hp
    rcases List.mem_append.mp hp with hp | hp
    · exact h p hp
    · rw [List.mem_singleton] at hp
      subst hp
      exact ⟨fun _ => Int.le_refl _, fun r hr => by cases hr⟩
  | passList i =>
    obtain ⟨now, d, hp, rfl⟩ := step_passList hstep
    exact System.tracked_list hp h
  | passUpdate i fetch =>
    obtain ⟨now, d, route, rest, hp, rfl⟩ := step_passUpdate hstep
    rw [updateRoute_after]
    exact System.tracked_moved hp (List.Subset.refl _) fun q hq => (h q hq).after eng setup _
  | passDecide i =>
    obtain ⟨now, d, route, rest, hp, rfl⟩ := step_passDecide hstep
    exact System.tracked_decide setup hp h

/-- **When a pass unverifies a stale route.** In every state a run reaches, the step in which a
pass calls `unverify_route` with an id finds that route stale in the store when the stored
contact is still the listed one, and that one is not in the future. If time moves forward,
only then. -/
theorem passDecide_stale_iff (eng : Engine) (setup : Setup) (db : Database) (clock : Time)
    (es : List Event) (s : System) (hrun : run (step eng setup) ⟨db, clock, []⟩ es = some s)
    (i : Nat) (p : Pass) (hp : s.passes[i]? = some p) (id : String)
    (hcall : p.unverifies setup.pendulum = some id) :
    (∃ s', step eng setup s (.passDecide i) = some s' ∧
      s'.db = (unverifyRoute eng id).after s.db) ∧
    ∃ route rest stored, p.stage = .updated route rest ∧ route.id = id ∧
      s.db.store.routeOf id = some stored ∧
      (stored.lastContact = route.lastContact ∧ route.lastContact ≤ p.now →
        stored.StaleAt setup.pendulum p.now p.staleDuration) ∧
      (Along (step eng setup) Forward ⟨db, clock, []⟩ es →
        stored.StaleAt setup.pendulum p.now p.staleDuration →
        stored.lastContact = route.lastContact ∧ route.lastContact ≤ p.now) := by
  have htracked : s.Tracked (Along (step eng setup) Forward ⟨db, clock, []⟩ es) :=
    run_keeps (I := System.Tracked _) (fun _ _ _ h hf hstep => step_tracked h hf hstep)
      (along_of_imp fun h => h) hrun (fun p hp => by cases hp)
  obtain ⟨now, d, stage⟩ := p
  obtain ⟨route, rest, rfl, rfl, hage⟩ := Pass.unverifies_eq_some.mp hcall
  obtain ⟨stored, hstored, hlast⟩ :=
    (htracked _ (List.mem_of_getElem? hp)).rows route List.mem_cons_self
  have hstep : step eng setup s (.passDecide i) =
      some (Pass.decide eng setup.pendulum s i ⟨now, d, .updated route rest⟩ rest) := by
    simp only [step, hp]
  refine ⟨⟨_, hstep, ?_⟩, route, rest, stored, rfl, rfl, hstored, ?_, ?_⟩
  · rw [Pass.decide_db, hcall]
  · rintro ⟨hsame, hle⟩
    exact ⟨hsame ▸ hle, hsame ▸ hage⟩
  · intro hforward hstale
    rcases hlast with hsame | hlater
    · exact ⟨hsame, hsame ▸ hstale.1⟩
    · -- a contact from the start of the pass on is not stale
      exact absurd hstale (Route.not_staleAt (hlater hforward))

end Passes

/-- A pass starts a hundred days after the contact of the one route, and updates it. -/
def hundredDays (fetch : Fetch) : List Event := [.openPass 90, .passList 0, .passUpdate 0 fetch]

def afterHundredDays (fetch : Fetch) : System :=
  (run (step .sqlite plainSetup) ⟨oneRoute, 8640000000000, []⟩ (hundredDays fetch)).getD
    ⟨oneRoute, 0, []⟩

theorem passDecide_stale_unreachable :
    let s := afterHundredDays (.failed .connectTimeout)
    ∃ stored, s.db.store.routeOf "r" = some stored ∧ stored.StaleAt .utc 8640000000000 90 := by
  intro s
  obtain ⟨-, route, rest, stored, hstage, -, hstored, hstale, -⟩ :=
    passDecide_stale_iff .sqlite plainSetup oneRoute 8640000000000
      (hundredDays (.failed .connectTimeout)) s rfl 0
      ⟨8640000000000, 90, .updated appRoute []⟩ (by decide) "r" (by decide)
  cases hstage
  have hcontact : (s.db.store.routeOf "r").map Route.lastContact = some 0 := by decide
  rw [hstored] at hcontact
  exact ⟨stored, hstored, hstale ⟨Option.some.inj hcontact, by decide⟩⟩

/-- A pass whose update of the route just succeeded goes on to unverify it. -/
theorem passDecide_unverifies_refreshed :
    (¬ ∀ (eng : Engine) (setup : Setup) (db : Database) (clock : Time) (es : List Event)
        (s : System) (i : Nat) (p : Pass) (id : String) (stored : Route),
      Along (step eng setup) Forward ⟨db, clock, []⟩ es →
      run (step eng setup) ⟨db, clock, []⟩ es = some s →
      s.passes[i]? = some p → p.unverifies setup.pendulum = some id →
      s.db.store.routeOf id = some stored →
      stored.StaleAt setup.pendulum p.now p.staleDuration) ∧
    ((step .sqlite plainSetup (afterHundredDays emptyDocument) (.passDecide 0)).bind fun s =>
      (s.db.store.routeOf "r").map Route.verificationStatus) = some .unverified := by
  refine ⟨fun h => ?_, by decide⟩
  have hfresh := h .sqlite plainSetup oneRoute 8640000000000 (hundredDays emptyDocument)
    (afterHundredDays emptyDocument) 0 ⟨8640000000000, 90, .updated appRoute []⟩ "r"
    { appRoute with status := .up, lastContact := 8640000000000 }
    ⟨trivial, trivial, trivial, trivial⟩ rfl (by decide) (by decide) (by decide)
  exact absurd hfresh.2 (by decide)

end RouteRegistry
