import RouteRegistry.Registry.Ownership
import RouteRegistry.Registry.RuleHistory

/-!
# Routes that are not verified

`unverify_route` sets a route `UNVERIFIED` and `DOWN` together, and `list_active` and the
JWT endpoint pass over a route that is not verified. `update_route` does not look: a task
that was queued before the route was unverified still writes its status.

- `RouteStep`: all that a step of the system can do to a row of `route`
  (`step_routes`). The two invariants below are read off it.
- `Quiet`: no update of a route that is not verified writes another status than `DOWN`.
- `unverified_down`: in runs of such steps a route that is not verified is `DOWN`, and
  stays so after a registration has verified it until an update returns normally.
-/

namespace RouteRegistry

open Relational UnitOfWork Runs

/-! ## What a step does to a row -/

/-- The route an event updates, and the outcome of the fetch. -/
def Event.updates (s : System) : Event → Option (String × Fetch)
  | .transact (.updateRoute id fetch) => some (id, fetch)
  | .passUpdate i fetch =>
    match s.passes[i]? with
    | some ⟨_, _, .atRoutes (route :: _)⟩ => some (route.id, fetch)
    | _ => none
  | _ => none

/-- Every way the row `r'` can have come about in a step. -/
inductive RouteStep (eng : Engine) (setup : Setup) (s : System) (e : Event) (r' : Route) :
    Prop where
  | created (hnew : r'.id ∉ s.db.store.routeIds) (hv : r'.verificationStatus = .verified)
      (hst : r'.status = .down)
  /-- Untouched, or registered again. -/
  | kept {r : Route} (hr : r ∈ s.db.store.routes) (hid : r.id = r'.id)
      (hv : r'.verificationStatus = r.verificationStatus ∨ r'.verificationStatus = .verified)
      (hst : r'.status = r.status)
  | unverified {r : Route} (hr : r ∈ s.db.store.routes) (hid : r.id = r'.id)
      (hv : r'.verificationStatus = .unverified) (hst : r'.status = .down)
  | failed {r : Route} {fetch : Fetch} {ex : Exc} {st : Status} (hr : r ∈ s.db.store.routes)
      (hid : r.id = r'.id) (hupd : e.updates s = some (r.id, fetch))
      (href : s.db.store.refreshed setup.schema r.id fetch = .error ex)
      (hfail : failureStatus ex = some st)
      (hv : r'.verificationStatus = r.verificationStatus) (hst : r'.status = st)
  | refreshed {r : Route} {fetch : Fetch} {rules : List Rule} (hr : r ∈ s.db.store.routes)
      (hid : r.id = r'.id) (hupd : e.updates s = some (r.id, fetch))
      (href : s.db.store.refreshed setup.schema r.id fetch = .ok rules)
      (hkeyed : Keyed Rule.entityId rules)
      (hlog : .refreshed r.id rules ∈ observe eng setup s e)
      (hv : r'.verificationStatus = r.verificationStatus) (hst : r'.status = .up)

section Steps

variable {eng : Engine} {setup : Setup} {s s' : System} {e : Event}

/-- A row that is still there is a step of its own. -/
theorem RouteStep.refl {r : Route} (hr : r ∈ s.db.store.routes) : RouteStep eng setup s e r :=
  .kept hr rfl (.inl rfl) rfl

theorem registerRoute_routes (reg : Registration) (draws : Draws) {r' : Route}
    (hr' : r' ∈ ((registerRoute eng reg draws).after s.db).store.routes) :
    RouteStep eng setup s e r' := by
  rcases registerRoute_after_cases eng reg draws s.db with hsame | ⟨ret, db', -, hreg⟩
  · rw [hsame] at hr'
    exact .refl hr'
  generalize ((registerRoute eng reg draws).after s.db).store = after at hreg hr'
  cases hreg with
  | @rebound d u src r hres hr hown hret =>
    rcases Store.mem_routes_withAttrs.mp hr' with ⟨hr', -⟩ | ⟨r₀, hr₀, hid, rfl⟩
    · exact .refl hr'
    · obtain rfl : r₀ = r := s.db.valid.routeKeys.inj hr₀ (Store.routeOfSrc_mem hr).1 hid
      exact .kept hr₀ (RouteAttr.setAll_id _ _).symm
        (.inr (Route.rebind_verificationStatus r₀ reg.community draws.now))
        (Route.rebind_status r₀ reg.community draws.now)
  | @created d u src hres hr hd hret hfresh =>
    rcases List.mem_append.mp hr' with hr' | hr'
    · exact .refl hr'
    · rw [List.mem_singleton] at hr'
      rw [hr']
      exact .created hfresh.1 (by rw [hret]; rfl) (by rw [hret]; rfl)
  | dropped hc hcs => exact .refl hr'

theorem unverifyRoute_routes (id : String) {r' : Route}
    (hr' : r' ∈ ((unverifyRoute eng id).after s.db).store.routes) :
    RouteStep eng setup s e r' := by
  unfold Service.after at hr'
  cases hcall : unverifyRoute eng id s.db with
  | error ex db' =>
    rw [hcall, unverifyRoute_error hcall] at hr'
    exact .refl hr'
  | ok u db' =>
    rw [hcall, (unverifyRoute_ok hcall).2] at hr'
    rcases Store.mem_routes_withAttrs.mp hr' with ⟨hr', -⟩ | ⟨r₀, hr₀, -, rfl⟩
    · exact .refl hr'
    · exact .unverified hr₀ (RouteAttr.setAll_id _ _).symm rfl rfl

theorem updateRoute_routes {id : String} {fetch : Fetch} (hupd : e.updates s = some (id, fetch))
    (hobs : observe eng setup s e = updateEntry eng setup s id fetch) {r' : Route}
    (hr' : r' ∈ ((updateRoute eng setup.schema id fetch s.clock).after s.db).store.routes) :
    RouteStep eng setup s e r' := by
  unfold Service.after at hr'
  cases hcall : updateRoute eng setup.schema id fetch s.clock s.db with
  | error ex db' =>
    rw [hcall] at hr'
    rcases updateRoute_error hcall with rfl | ⟨-, st, href, hfail, hdb⟩
    · exact .refl hr'
    · rw [hdb] at hr'
      rcases Store.mem_routes_withAttrs.mp hr' with ⟨hr', -⟩ | ⟨r₀, hr₀, rfl, rfl⟩
      · exact .refl hr'
      · exact .failed hr₀ (RouteAttr.setAll_id _ _).symm hupd href hfail rfl rfl
  | ok u db' =>
    rw [hcall] at hr'
    obtain ⟨-, rules, href, hkeyed, hdb⟩ := updateRoute_ok hcall
    rw [hdb] at hr'
    rcases Store.mem_routes_withAttrs.mp hr' with ⟨hr', -⟩ | ⟨r₀, hr₀, rfl, rfl⟩
    · exact .refl hr'
    · have hlog : .refreshed r₀.id rules ∈ observe eng setup s e := by
        rw [hobs, updateEntry, hcall, href]
        exact List.mem_singleton_self _
      exact .refreshed hr₀ (RouteAttr.setAll_id _ _).symm hupd href hkeyed hlog rfl rfl

/-- **All that a step does to a row.** -/
theorem step_routes (he : e.ofRoutes) (hstep : step eng setup s e = some s') {r' : Route}
    (hr' : r' ∈ s'.db.store.routes) : RouteStep eng setup s e r' := by
  cases e with
  | tick t =>
    cases hstep
    exact .refl hr'
  | openPass d =>
    cases hstep
    exact .refl hr'
  | transact t =>
    cases hstep
    cases t with
    | registerRoute reg draws => exact registerRoute_routes reg _ hr'
    | updateRoute id fetch =>
      change r' ∈ (((Transaction.updateRoute id fetch).run eng setup s.clock).after
        s.db).store.routes at hr'
      rw [← updateRoute_after] at hr'
      exact updateRoute_routes rfl rfl hr'
    | unverifyRoute id => exact unverifyRoute_routes id hr'
    | _ => exact he.elim
  | passList i =>
    obtain ⟨now, d, -, rfl⟩ := step_passList hstep
    rw [Pass.list_db] at hr'
    exact .refl hr'
  | passUpdate i fetch =>
    obtain ⟨now, d, route, rest, hp, rfl⟩ := step_passUpdate hstep
    change r' ∈ ((updateRoute eng setup.schema route.id fetch s.clock).after
      s.db).store.routes at hr'
    refine updateRoute_routes ?_ ?_ hr'
    · simp only [Event.updates, hp]
    · simp only [observe, hp]
  | passDecide i =>
    obtain ⟨now, d, route, rest, -, rfl⟩ := step_passDecide hstep
    rw [Pass.decide_db] at hr'
    split at hr'
    · exact unverifyRoute_routes _ hr'
    · exact .refl hr'

end Steps

/-! ## The invariants -/

/-- An update with this fetch sets no other status than `DOWN`: the app is not reached, or
the document makes the update raise without setting one, or its rules are refused. -/
structure Store.StaysDown (s : Store) (schema : Json.Schema) (id : String) (fetch : Fetch) :
    Prop where
  refused : ∀ rules, s.refreshed schema id fetch = .ok rules → ¬ Keyed Rule.entityId rules
  down : ∀ e st, s.refreshed schema id fetch = .error e → failureStatus e = some st → st = .down

/-- An event that updates a route that is not verified leaves it `DOWN`. -/
def Quiet (setup : Setup) (s : System) (e : Event) : Prop :=
  ∀ id fetch, e.updates s = some (id, fetch) → ∀ r ∈ s.db.store.routes, r.id = id →
    r.verificationStatus ≠ .verified → s.db.store.StaysDown setup.schema id fetch

/-- What is not verified is `DOWN`. -/
def Store.DownUnlessVerified (s : Store) : Prop :=
  ∀ r ∈ s.routes, r.verificationStatus ≠ .verified → r.status = .down

/-- If the route is `UP`, an update of it has returned normally. -/
def Store.UpByUpdate (id : String) (log : List Entry) (s : Store) : Prop :=
  ∀ r ∈ s.routes, r.id = id → r.status = .up → ∃ rules, .refreshed id rules ∈ log

section Invariants

variable {eng : Engine} {setup : Setup} {s s' : System} {e : Event}

/-- **One step** leaves what is not verified `DOWN`, if it is quiet. -/
theorem step_downUnlessVerified (h : s.db.store.DownUnlessVerified) (he : e.ofRoutes)
    (hquiet : Quiet setup s e) (hstep : step eng setup s e = some s') :
    s'.db.store.DownUnlessVerified := by
  intro r' hr' hnot
  cases step_routes he hstep hr' with
  | created _ _ hst => exact hst
  | @kept r hr _ hv hst =>
    rcases hv with hv | hv
    · rw [hst]
      exact h r hr (hv ▸ hnot)
    · exact absurd hv hnot
  | unverified _ _ _ hst => exact hst
  | @failed r fetch ex st hr _ hupd href hfail hv hst =>
    rw [hst]
    exact (hquiet _ _ hupd r hr rfl (hv ▸ hnot)).down ex st href hfail
  | @refreshed r fetch rules hr _ hupd href hkeyed _ hv _ =>
    exact absurd hkeyed ((hquiet _ _ hupd r hr rfl (hv ▸ hnot)).refused rules href)

/-- **One step** brings a route `UP` only by an update. -/
theorem step_upByUpdate {id : String} {log : List Entry} (h : s.db.store.UpByUpdate id log)
    (he : e.ofRoutes) (hstep : step eng setup s e = some s') :
    s'.db.store.UpByUpdate id (log ++ observe eng setup s e) := by
  rintro r' hr' rfl hup
  cases step_routes he hstep hr' with
  | created _ _ hst => cases hup.symm.trans hst
  | @kept r hr hid _ hst =>
    obtain ⟨rules, hlog⟩ := h r hr hid (hst ▸ hup)
    exact ⟨rules, List.mem_append_left _ hlog⟩
  | unverified _ _ _ hst => cases hup.symm.trans hst
  | failed _ _ _ _ hfail _ hst => exact absurd (hst ▸ hup) (failureStatus_ne_up hfail)
  | @refreshed r fetch rules hr hid _ _ _ hlog =>
    rw [← hid]
    exact ⟨rules, List.mem_append_right _ hlog⟩

/-- A registration leaves a route that is there at its status, or `DOWN`. -/
theorem step_register_status {reg : Registration} {draws : Draws}
    (hstep : step eng setup s (.transact (.registerRoute reg draws)) = some s') {r r' : Route}
    (hr : r ∈ s.db.store.routes) (hr' : r' ∈ s'.db.store.routes) (hid : r'.id = r.id)
    (hdown : r.status = .down) : r'.status = .down := by
  cases step_routes (e := .transact (.registerRoute reg draws)) trivial hstep hr' with
  | created _ _ hst => exact hst
  | @kept r₀ hr₀ hid₀ _ hst =>
    obtain rfl : r₀ = r := s.db.valid.routeKeys.inj hr₀ hr (hid₀.trans hid)
    exact hst.trans hdown
  | unverified _ _ _ hst => exact hst
  | failed _ _ hupd => cases hupd
  | refreshed _ _ hupd => cases hupd

/-- The app is not reached. -/
theorem Store.staysDown_of_unreached {s : Store} {schema : Json.Schema} {id : String}
    {fetch : Fetch} {e : Exc} (h : getAuthorization fetch = .error e)
    (hdown : failureStatus e = some .down) : s.StaysDown schema id fetch := by
  have href : s.refreshed schema id fetch = .error e := by
    unfold refreshed
    rw [h]
    rfl
  refine ⟨fun rules hrules => ?_, fun e' st herr hst => ?_⟩
  · cases href.symm.trans hrules
  · cases href.symm.trans herr
    exact Option.some.inj (hst.symm.trans hdown)

end Invariants

/-- **Unverified routes are down**, in every run of registrations, updates, passes and
unverifications from a store without routes whose updates of routes that are not verified
are quiet. A later registration of such a route leaves it `DOWN`, and it is `UP` again
only once an update has returned normally. -/
theorem unverified_down (eng : Engine) (setup : Setup) (db : Database)
    (hempty : db.store.routes = []) (clock : Time) (es : List Event)
    (hes : ∀ e ∈ es, e.ofRoutes)
    (hquiet : Along (step eng setup) (Quiet setup) ⟨db, clock, []⟩ es) (s : System)
    (hrun : run (step eng setup) ⟨db, clock, []⟩ es = some s) :
    (∀ r ∈ s.db.store.routes, r.verificationStatus ≠ .verified → r.status = .down) ∧
    ∀ reg draws s₁, step eng setup s (.transact (.registerRoute reg draws)) = some s₁ →
      ∀ r ∈ s.db.store.routes, r.verificationStatus ≠ .verified →
        (∀ r₁ ∈ s₁.db.store.routes, r₁.id = r.id → r₁.status = .down) ∧
        ∀ es₁ s₂, (∀ e ∈ es₁, e.ofRoutes) → run (step eng setup) s₁ es₁ = some s₂ →
          ∀ r₂ ∈ s₂.db.store.routes, r₂.id = r.id → r₂.status = .up →
            ∃ rules, .refreshed r.id rules ∈ record (step eng setup) (observe eng setup) s₁ es₁ := by
  have hstart : (System.mk db clock []).db.store.DownUnlessVerified := by
    intro r hr
    rw [show (System.mk db clock []).db.store.routes = [] from hempty] at hr
    cases hr
  have hdown : s.db.store.DownUnlessVerified := by
    refine run_keeps (I := fun s : System => s.db.store.DownUnlessVerified)
      (P := fun s e => e.ofRoutes ∧ Quiet setup s e) ?_ ((along_of_forall hes).and hquiet) hrun
      hstart
    exact fun _ _ _ h he hstep => step_downUnlessVerified h he.1 he.2 hstep
  refine ⟨hdown, fun reg draws s₁ hstep r hr hnot => ?_⟩
  have hafter : ∀ r₁ ∈ s₁.db.store.routes, r₁.id = r.id → r₁.status = .down :=
    fun r₁ hr₁ hid => step_register_status hstep hr hr₁ hid (hdown r hr hnot)
  refine ⟨hafter, fun es₁ s₂ hes₁ hrun₁ => ?_⟩
  have hstart₁ : s₁.db.store.UpByUpdate r.id [] := by
    intro r₁ hr₁ hid hup
    cases hup.symm.trans (hafter r₁ hr₁ hid)
  refine run_records (I := fun log (s : System) => s.db.store.UpByUpdate r.id log)
    (P := fun _ e => e.ofRoutes) ?_ (along_of_forall hes₁) hrun₁ hstart₁
  exact fun _ _ _ _ h he hstep => step_upByUpdate h he hstep

/-- A route is registered, unverified, and updated by a task that was queued before. -/
def lateUpdate (fetch : Fetch) : List Event :=
  [.transact (.registerRoute (callBy "bob" "app" 0).1 (callBy "bob" "app" 0).2),
    .transact (.unverifyRoute "route-0"), .transact (.updateRoute "route-0" fetch)]

def afterLateUpdate (fetch : Fetch) : System :=
  (run (step .sqlite plainSetup) ⟨twoUsers, 0, []⟩ (lateUpdate fetch)).getD ⟨twoUsers, 0, []⟩

/-- The app has gone when the task runs. -/
theorem lateUpdate_unreached_down :
    (afterLateUpdate (.failed .connectTimeout)).db.store.routes.map Route.verificationStatus =
        [.unverified] ∧
      ∀ r ∈ (afterLateUpdate (.failed .connectTimeout)).db.store.routes,
        r.verificationStatus ≠ .verified → r.status = .down := by
  refine ⟨by decide, (unverified_down .sqlite plainSetup twoUsers (by decide) 0
    (lateUpdate (.failed .connectTimeout)) ?_ ?_ _ rfl).1⟩
  · intro e he
    simp only [lateUpdate, List.mem_cons, List.not_mem_nil, or_false] at he
    rcases he with rfl | rfl | rfl <;> trivial
  · refine along_cons (fun _ _ h => ?_) rfl (along_cons (fun _ _ h => ?_) rfl
      (along_cons (fun _ _ h _ _ _ _ => ?_) rfl trivial))
    · cases h
    · cases h
    · cases h
      exact Store.staysDown_of_unreached rfl (by decide)

/-- The app still answers: the route is `UP`, and not verified. -/
theorem lateUpdate_answered_up :
    run (step .sqlite plainSetup) ⟨twoUsers, 0, []⟩ (lateUpdate emptyDocument) =
        some (afterLateUpdate emptyDocument) ∧
      ∃ r ∈ (afterLateUpdate emptyDocument).db.store.routes,
        r.verificationStatus = .unverified ∧ r.status = .up :=
  ⟨rfl, by decide⟩

end RouteRegistry
