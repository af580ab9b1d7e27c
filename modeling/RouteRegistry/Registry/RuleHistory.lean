import RouteRegistry.Registry.Documents
import RouteRegistry.Registry.Verification

/-!
# Rules and the updates that stored them

Runs of registrations, updates, passes and unverifications, with what they did recorded:
the routes created, and the rule set of each update that returned normally
(`observe`). In every state the stored rules of a route are those of its last such
update, and a route in `UP` has had one since it was created (`Recorded`).
-/

namespace RouteRegistry

open Relational UnitOfWork Runs

/-! ## What is recorded -/

inductive Entry where
  | created (routeId : String)
  /-- An update returned normally, having stored these rules. -/
  | refreshed (routeId : String) (rules : List Rule)

/-- The rules of the last normal update of a route; none before the first. -/
def lastRules (log : List Entry) (id : String) : List Rule :=
  log.foldl
    (fun rules entry =>
      match entry with
      | .refreshed id' rules' => if id' = id then rules' else rules
      | .created _ => rules)
    []

/-- The route has had a normal update since it was created. -/
def UpdatedSinceCreation (log : List Entry) (id : String) : Prop :=
  ∃ before since rules, log = before ++ .created id :: since ∧ .refreshed id rules ∈ since

/-- An update of the route `id` in the state `s`, if it returns normally. -/
def updateEntry (eng : Engine) (setup : Setup) (s : System) (id : String) (fetch : Fetch) :
    List Entry :=
  match updateRoute eng setup.schema id fetch s.clock s.db,
    s.db.store.refreshed setup.schema id fetch with
  | .ok _ _, .ok rules => [.refreshed id rules]
  | _, _ => []

/-- The routes a registration creates. -/
def createdEntries (s s' : Store) : List Entry :=
  (s'.routeIds.filter fun id => decide (id ∉ s.routeIds)).map .created

/-- What an event adds to the record. -/
def observe (eng : Engine) (setup : Setup) (s : System) : Event → List Entry
  | .transact (.registerRoute reg draws) =>
    createdEntries s.db.store
      (((Transaction.registerRoute reg draws).run eng setup s.clock).after s.db).store
  | .transact (.updateRoute id fetch) => updateEntry eng setup s id fetch
  | .passUpdate i fetch =>
    match s.passes[i]? with
    | some ⟨_, _, .atRoutes (route :: _)⟩ => updateEntry eng setup s route.id fetch
    | _ => []
  | _ => []

/-- Registrations, updates, unverifications and passes. -/
def Event.ofRoutes : Event → Prop
  | .transact (.registerRoute _ _) => True
  | .transact (.updateRoute _ _) => True
  | .transact (.unverifyRoute _) => True
  | .transact _ => False
  | _ => True

theorem lastRules_append_refreshed (log : List Entry) (id id' : String) (rules : List Rule) :
    lastRules (log ++ [.refreshed id rules]) id' =
      if id = id' then rules else lastRules log id' := by
  simp [lastRules]

theorem lastRules_append_created (log : List Entry) (ids : List String) (id : String) :
    lastRules (log ++ ids.map .created) id = lastRules log id := by
  unfold lastRules
  rw [List.foldl_append]
  generalize log.foldl _ [] = rules
  induction ids generalizing rules with
  | nil => rfl
  | cons i ids ih => exact ih rules

theorem UpdatedSinceCreation.append {log : List Entry} {id : String}
    (h : UpdatedSinceCreation log id) (more : List Entry) :
    UpdatedSinceCreation (log ++ more) id := by
  obtain ⟨before, since, rules, rfl, hmem⟩ := h
  exact ⟨before, since ++ more, rules, by simp, List.mem_append_left _ hmem⟩

/-! ## The invariant -/

/-- The store agrees with the record. -/
structure Recorded (log : List Entry) (s : Store) : Prop where
  rules : ∀ id, s.rulesOf id = lastRules log id
  created : ∀ id ∈ s.routeIds, .created id ∈ log
  up : ∀ r ∈ s.routes, r.status = .up → UpdatedSinceCreation log r.id

theorem Recorded.start {s : Store} (hv : s.Valid) (h : s.routes = []) : Recorded [] s := by
  have hids : s.routeIds = [] := by simp [Store.routeIds, h]
  refine ⟨fun id => hv.rulesOf_eq_nil (by simp [hids]), fun id hid => ?_, fun r hr => ?_⟩
  · rw [hids] at hid
    cases hid
  · rw [h] at hr
    cases hr

/-- Attributes that keep a route from being `UP`, or leave its status alone, keep the
agreement. -/
theorem Recorded.withAttrs {log : List Entry} {s : Store} (h : Recorded log s) {id : String}
    {as : List RouteAttr}
    (has : ∀ r ∈ s.routes, r.id = id → (RouteAttr.setAll as r).status = .up → r.status = .up) :
    Recorded log (s.withAttrs id as) := by
  refine ⟨h.rules, fun i hi => ?_, fun r hr hup => ?_⟩
  · rw [Store.routeIds_withAttrs] at hi
    exact h.created i hi
  · rcases Store.mem_routes_withAttrs.mp hr with ⟨hr, -⟩ | ⟨r₀, hr₀, hid, rfl⟩
    · exact h.up r hr hup
    · rw [RouteAttr.setAll_id]
      exact h.up r₀ hr₀ (has r₀ hr₀ hid hup)

/-- A refresh keeps the agreement, with its rules recorded. -/
theorem Recorded.refresh {log : List Entry} {s : Store} (h : Recorded log s) {id : String}
    {rules : List Rule} {now : Time} (hid : id ∈ s.routeIds)
    (hrules : ∀ r ∈ rules, r.routeId = id) :
    Recorded (log ++ [.refreshed id rules]) (s.afterRefresh id rules now) := by
  refine ⟨fun i => ?_, fun i hi => ?_, fun r hr hup => ?_⟩
  · rw [Store.afterRefresh, Store.rulesOf_withAttrs, Store.rulesOf_withRules hrules,
      lastRules_append_refreshed, h.rules]
  · rw [Store.afterRefresh, Store.routeIds_withAttrs] at hi
    exact List.mem_append_left _ (h.created i hi)
  · rcases Store.mem_routes_withAttrs.mp hr with ⟨hr, -⟩ | ⟨r₀, hr₀, hr₀id, rfl⟩
    · exact (h.up r hr hup).append _
    · -- the route was created before, and updated now
      rw [RouteAttr.setAll_id, hr₀id]
      obtain ⟨before, since, hlog⟩ := List.append_of_mem (h.created id hid)
      exact ⟨before, since ++ [.refreshed id rules], rules, by rw [hlog]; simp, by simp⟩

/-- No failure sets `UP`. -/
theorem failureStatus_ne_up {e : Exc} {st : Status} (h : failureStatus e = some st) :
    st ≠ .up := by
  unfold failureStatus at h
  split_ifs at h
  all_goals cases h
  all_goals decide

section Steps

variable {eng : Engine} {setup : Setup} {log : List Entry}

/-- An update keeps the agreement. -/
theorem Recorded.update {s : System} (h : Recorded log s.db.store) (id : String) (fetch : Fetch) :
    Recorded (log ++ updateEntry eng setup s id fetch)
      ((updateRoute eng setup.schema id fetch s.clock).after s.db).store := by
  unfold updateEntry Service.after
  cases hcall : updateRoute eng setup.schema id fetch s.clock s.db with
  | ok u db' =>
    obtain ⟨hid, rules, href, -, hdb⟩ := updateRoute_ok hcall
    obtain ⟨_, _, -, -, -, hset⟩ := Store.refreshed_ok href
    rw [href]
    show Recorded (log ++ [.refreshed id rules]) db'.store
    rw [hdb]
    exact h.refresh hid (Store.ruleSet_mem hset).1
  | error e db' =>
    show Recorded (log ++ []) db'.store
    rw [List.append_nil]
    rcases updateRoute_error hcall with rfl | ⟨-, st, -, hst, hdb⟩
    · exact h
    · -- the rules are the old ones, and the status is a failure
      rw [hdb]
      exact h.withAttrs fun r _ _ hup => absurd hup (failureStatus_ne_up hst)

/-- An unverification keeps the agreement. -/
theorem Recorded.unverify {db : Database} (h : Recorded log db.store) (id : String) :
    Recorded log ((unverifyRoute eng id).after db).store := by
  unfold Service.after
  cases hcall : unverifyRoute eng id db with
  | ok u db' =>
    show Recorded log db'.store
    rw [(unverifyRoute_ok hcall).2]
    exact h.withAttrs fun r _ _ hup => by cases hup
  | error e db' =>
    rw [unverifyRoute_error hcall]
    exact h

theorem createdEntries_self {s s' : Store} (h : s'.routeIds = s.routeIds) :
    createdEntries s s' = [] := by
  unfold createdEntries
  rw [h, List.filter_eq_nil_iff.mpr fun id hid => by simp [hid]]
  rfl

theorem createdEntries_withRoute {s : Store} {r : Route} {owner : String}
    (h : r.id ∉ s.routeIds) : createdEntries s (s.withRoute r owner) = [.created r.id] := by
  unfold createdEntries
  rw [Store.routeIds_withRoute, List.filter_append,
    List.filter_eq_nil_iff.mpr fun id hid => by simp [hid]]
  simp [h]

/-- A registration keeps the agreement. -/
theorem Recorded.register {db : Database} (h : Recorded log db.store) (reg : Registration)
    (draws : Draws) :
    Recorded
      (log ++ createdEntries db.store ((registerRoute eng reg draws).after db).store)
      ((registerRoute eng reg draws).after db).store := by
  rcases registerRoute_after_cases eng reg draws db with hsame | ⟨r', db', -, hreg⟩
  · rw [hsame, createdEntries_self rfl, List.append_nil]
    exact h
  generalize ((registerRoute eng reg draws).after db).store = s' at hreg ⊢
  cases hreg with
  | @rebound d u src r hres hr hown hret =>
    -- the status is not among the attributes a repeated call sets
    rw [createdEntries_self (Store.routeIds_withAttrs _ _ _), List.append_nil]
    refine h.withAttrs fun r₀ hr₀ hid hup => ?_
    obtain rfl : r₀ = r := db.valid.routeKeys.inj hr₀ (Store.routeOfSrc_mem hr).1 hid
    exact (Route.rebind_status r₀ reg.community draws.now) ▸ hup
  | @created d u src hres hr hd hret hfresh =>
    rw [createdEntries_withRoute hfresh.1]
    refine ⟨fun id => ?_, fun id hid => ?_, fun r₀ hr₀ hup => ?_⟩
    · exact (h.rules id).trans (lastRules_append_created log [r'.id] id).symm
    · rw [Store.routeIds_withRoute] at hid
      rcases List.mem_append.mp hid with hid | hid
      · exact List.mem_append_left _ (h.created id hid)
      · rw [List.mem_singleton] at hid
        simp [hid]
    · rcases List.mem_append.mp hr₀ with hr₀ | hr₀
      · exact (h.up r₀ hr₀ hup).append _
      · -- a new route is not up
        rw [List.mem_singleton] at hr₀
        rw [hr₀, hret] at hup
        cases hup
  | dropped hc hcs =>
    rw [createdEntries_self rfl, List.append_nil]
    exact h

/-- **One step** keeps the store in agreement with the record. -/
theorem step_recorded {s s' : System} {e : Event} (h : Recorded log s.db.store)
    (he : e.ofRoutes) (hstep : step eng setup s e = some s') :
    Recorded (log ++ observe eng setup s e) s'.db.store := by
  cases e with
  | tick t =>
    cases hstep
    exact (List.append_nil log).symm ▸ h
  | openPass d =>
    cases hstep
    exact (List.append_nil log).symm ▸ h
  | transact t =>
    cases hstep
    cases t with
    | registerRoute reg draws => exact h.register reg _
    | updateRoute id fetch =>
      show Recorded _ (((Transaction.updateRoute id fetch).run eng setup s.clock).after s.db).store
      rw [← updateRoute_after]
      exact h.update id fetch
    | unverifyRoute id => exact (List.append_nil log).symm ▸ h.unverify id
    | _ => exact he.elim
  | passList i =>
    obtain ⟨now, d, -, rfl⟩ := step_passList hstep
    rw [Pass.list_db]
    exact (List.append_nil log).symm ▸ h
  | passUpdate i fetch =>
    obtain ⟨now, d, route, rest, hp, rfl⟩ := step_passUpdate hstep
    simp only [observe, hp]
    exact h.update route.id fetch
  | passDecide i =>
    obtain ⟨now, d, route, rest, -, rfl⟩ := step_passDecide hstep
    rw [Pass.decide_db, show observe eng setup s (.passDecide i) = [] from rfl, List.append_nil]
    split
    · exact h.unverify _
    · exact h

end Steps

/-! ## Runs -/

/-- The set names the stored entity `id`. -/
def Store.Named (s : Store) (names : EntitySet) (id : String) : Prop :=
  (∃ u ∈ s.users, u.id = id ∧ ∃ uid ∈ names.uids, u.uid = some uid) ∨
    ∃ g ∈ s.groups, g.id = id ∧ ∃ name ∈ names.groupNames, g.name = some name

/-- The document asks for the rule: it names the rule's entity under the rule's policy. -/
def Store.AsksFor (s : Store) (authz : Authorization) (routeId : String) (r : Rule) : Prop :=
  r.routeId = routeId ∧
    ((r.policy = .allow ∧ s.Named authz.allowed r.entityId) ∨
      (r.policy = .deny ∧ s.Named authz.disallowed r.entityId))

/-- A rule set holds the rules the document asks for and no others. -/
theorem Store.mem_ruleSet {s : Store} {routeId : String} {authz : Authorization}
    {rules : List Rule} (h : s.ruleSet routeId authz = .ok rules) (r : Rule) :
    r ∈ rules ↔ s.AsksFor authz routeId r := by
  obtain ⟨au, du, ag, dg, hau, hdu, hag, hdg, rfl⟩ := ruleSet_ok h
  have husers : ∀ uids us, s.usersNamed uids = .ok us → ∀ id, id ∈ us.map User.id ↔
      ∃ u ∈ s.users, u.id = id ∧ ∃ uid ∈ uids, u.uid = some uid := by
    intro uids us hus id
    rcases s.usersNamed_cases uids with ⟨-, hfound⟩ | ⟨-, msg, hmiss⟩
    · cases hus.symm.trans hfound
      simp only [List.mem_map, List.mem_filter, decide_eq_true_eq]
      exact ⟨fun ⟨u, ⟨hu, hn⟩, hid⟩ => ⟨u, hu, hid, hn⟩, fun ⟨u, hu, hid, hn⟩ => ⟨u, ⟨hu, hn⟩, hid⟩⟩
    · cases hus.symm.trans hmiss
  have hgroups : ∀ names gs, s.groupsNamed names = .ok gs → ∀ id, id ∈ gs.map Group.id ↔
      ∃ g ∈ s.groups, g.id = id ∧ ∃ name ∈ names, g.name = some name := by
    intro names gs hgs id
    rcases s.groupsNamed_cases names with ⟨-, hfound⟩ | ⟨-, msg, hmiss⟩
    · cases hgs.symm.trans hfound
      simp only [List.mem_map, List.mem_filter, decide_eq_true_eq]
      exact ⟨fun ⟨g, ⟨hg, hn⟩, hid⟩ => ⟨g, hg, hid, hn⟩, fun ⟨g, hg, hid, hn⟩ => ⟨g, ⟨hg, hn⟩, hid⟩⟩
    · cases hgs.symm.trans hmiss
  rw [mem_policyRules, husers _ _ hau, husers _ _ hdu, hgroups _ _ hag, hgroups _ _ hdg]
  rfl

/-- **Rules follow the updates.** After any run of registrations, updates, passes and
unverifications from a store without routes:

- the rules of a route are those of its last update that returned normally, and such an
  update stores what the document asks for;
- an update that raises leaves every rule, and all of the store but the `status` of its
  route;
- no update of a route touches a rule of another;
- a route in `UP` has had a normal update since it was created. -/
theorem rules_follow_updates (eng : Engine) (setup : Setup) (db : Database)
    (hempty : db.store.routes = []) (clock : Time) (es : List Event)
    (hes : ∀ e ∈ es, e.ofRoutes) (s : System)
    (hrun : run (step eng setup) ⟨db, clock, []⟩ es = some s) :
    let log := record (step eng setup) (observe eng setup) ⟨db, clock, []⟩ es
    (∀ id, s.db.store.rulesOf id = lastRules log id) ∧
    (∀ id fetch db', updateRoute eng setup.schema id fetch s.clock s.db = .ok () db' →
      ∃ data authz, getAuthorization fetch = .ok data ∧ setup.schema.accepts data = true ∧
        Authorization.ofData data = .ok authz ∧
        ∀ r, r ∈ db'.store.rulesOf id ↔ s.db.store.AsksFor authz id r) ∧
    (∀ id fetch e db', updateRoute eng setup.schema id fetch s.clock s.db = .error e db' →
      db'.store.rules = s.db.store.rules ∧
        (db'.store = s.db.store ∨ ∃ st, db'.store = s.db.store.withAttrs id [.status st])) ∧
    (∀ id fetch id', id' ≠ id →
      ((updateRoute eng setup.schema id fetch s.clock).after s.db).store.rulesOf id' =
        s.db.store.rulesOf id') ∧
    ∀ r ∈ s.db.store.routes, r.status = .up → UpdatedSinceCreation log r.id := by
  intro log
  have hkeep : ∀ (log : List Entry) (s : System) (e : Event) (s' : System),
      Recorded log s.db.store → e.ofRoutes → step eng setup s e = some s' →
        Recorded (log ++ observe eng setup s e) s'.db.store :=
    fun log s e s' h he hstep => step_recorded h he hstep
  have hstart : Recorded [] (System.mk db clock []).db.store := Recorded.start db.valid hempty
  have hrec : Recorded log s.db.store :=
    run_records (I := fun log s => Recorded log s.db.store) hkeep (along_of_forall hes) hrun hstart
  refine ⟨hrec.rules, fun id fetch db' hcall => ?_, fun id fetch e db' hcall => ?_,
    fun id fetch id' hne => ?_, hrec.up⟩
  · obtain ⟨-, rules, href, -, hdb⟩ := updateRoute_ok hcall
    obtain ⟨data, authz, hdata, hacc, hauth, hset⟩ := Store.refreshed_ok href
    refine ⟨data, authz, hdata, hacc, hauth, fun r => ?_⟩
    rw [hdb, Store.afterRefresh, Store.rulesOf_withAttrs,
      Store.rulesOf_withRules (Store.ruleSet_mem hset).1, if_pos rfl]
    exact Store.mem_ruleSet hset r
  · rcases updateRoute_error hcall with rfl | ⟨-, st, -, -, hdb⟩
    · exact ⟨rfl, .inl rfl⟩
    · exact ⟨by rw [hdb]; rfl, .inr ⟨st, hdb⟩⟩
  · unfold Service.after
    cases hcall : updateRoute eng setup.schema id fetch s.clock s.db with
    | ok u db' =>
      obtain ⟨-, rules, href, -, hdb⟩ := updateRoute_ok hcall
      obtain ⟨data, authz, -, -, -, hset⟩ := Store.refreshed_ok href
      show db'.store.rulesOf id' = _
      rw [hdb, Store.afterRefresh, Store.rulesOf_withAttrs,
        Store.rulesOf_withRules (Store.ruleSet_mem hset).1, if_neg hne.symm]
    | error e db' =>
      show db'.store.rulesOf id' = _
      rcases updateRoute_error hcall with rfl | ⟨-, st, -, -, hdb⟩
      · rfl
      · rw [hdb]
        rfl

/-- A document that lets one user in. -/
def aliceAllowed : Fetch := .answered
  ⟨200, .ok (.obj [("version", .str "1"), ("allowed", .obj [("users", .arr [.str "alice"])]),
    ("disallowed", .obj [])])⟩

/-- A route is registered, and updated with that document. -/
def registeredAndUpdated : List Event :=
  [.transact (.registerRoute ⟨"alice", "app", none, "tunnel", false, none⟩ ⟨0, "r", "t", ""⟩),
    .transact (.updateRoute "r" aliceAllowed)]

theorem rules_follow_updates_registered :
    let db := Database.load [.addUser alice, .addDomain openDomain]
    let start : System := ⟨db, 0, []⟩
    let s := (run (step .sqlite plainSetup) start registeredAndUpdated).getD start
    s.db.store.rulesOf "r" = [⟨"r", "1", .allow⟩] ∧
      ∀ id, s.db.store.rulesOf id = lastRules
        (record (step .sqlite plainSetup) (observe .sqlite plainSetup) start
          registeredAndUpdated) id :=
  ⟨by decide, (rules_follow_updates .sqlite plainSetup _ (by decide) 0
    registeredAndUpdated
    (List.forall_mem_cons.mpr ⟨trivial, List.forall_mem_singleton.mpr trivial⟩) _ rfl).1⟩

/-! ## Calls one after the other -/

/-- A service call that acts on routes, with what it meets. -/
inductive RouteCall where
  | registerRoute (reg : Registration) (draws : Draws)
  | updateRoute (routeId : String) (fetch : Fetch) (now : Time)
  | checkRoutes (staleDuration : Nat) (now : Time) (env : PassEnv)
  | unverifyRoute (routeId : String)

/-- The database after a call. -/
def RouteCall.after (eng : Engine) (setup : Setup) (db : Database) : RouteCall → Database
  | registerRoute reg draws => (RouteRegistry.registerRoute eng reg draws).after db
  | updateRoute routeId fetch now =>
    (RouteRegistry.updateRoute eng setup.schema routeId fetch now).after db
  | checkRoutes staleDuration now env =>
    (RouteRegistry.checkRoutes eng setup.pendulum setup.schema staleDuration now env).after db
  | unverifyRoute routeId => (RouteRegistry.unverifyRoute eng routeId).after db

/-- One call is a run. -/
theorem RouteCall.isRun (eng : Engine) (setup : Setup) (call : RouteCall) (s : System) :
    ∃ es s', run (step eng setup) s es = some s' ∧ s'.db = call.after eng setup s.db ∧
      ∀ e ∈ es, e.ofRoutes := by
  cases call with
  | registerRoute reg draws =>
    exact ⟨[.tick draws.now, .transact (.registerRoute reg draws)], _, rfl, rfl, by
      simp [Event.ofRoutes]⟩
  | updateRoute routeId fetch now =>
    exact ⟨[.tick now, .transact (.updateRoute routeId fetch)], _, rfl,
      (updateRoute_after setup routeId fetch now s.db).symm, by simp [Event.ofRoutes]⟩
  | unverifyRoute routeId =>
    exact ⟨[.transact (.unverifyRoute routeId)], _, rfl, rfl, by simp [Event.ofRoutes]⟩
  | checkRoutes staleDuration now env =>
    obtain ⟨es, s', hrun, hdb, hes⟩ := checkRoutes_isRun eng setup staleDuration now env s
    refine ⟨es, s', hrun, hdb, fun e he => ?_⟩
    cases e with
    | transact t => exact absurd he (hes t)
    | _ => trivial

/-- **Calls one after the other are a run**, so what holds after every run holds after
every sequence of calls. -/
theorem routeCalls_isRun (eng : Engine) (setup : Setup) (calls : List RouteCall) (s : System) :
    ∃ es s', run (step eng setup) s es = some s' ∧
      s'.db = calls.foldl (RouteCall.after eng setup) s.db ∧ ∀ e ∈ es, e.ofRoutes := by
  induction calls generalizing s with
  | nil => exact ⟨[], s, rfl, rfl, by simp⟩
  | cons call calls ih =>
    obtain ⟨es, s₁, hrun, hdb, hes⟩ := call.isRun eng setup s
    obtain ⟨es', s', hrun', hdb', hes'⟩ := ih s₁
    refine ⟨es ++ es', s', run_append.mpr ⟨s₁, hrun, hrun'⟩, by rw [hdb', hdb]; rfl, ?_⟩
    intro e he
    rcases List.mem_append.mp he with he | he
    · exact hes e he
    · exact hes' e he

end RouteRegistry
