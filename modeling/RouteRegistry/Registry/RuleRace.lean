import RouteRegistry.Registry.Concurrent
import RouteRegistry.Registry.Updates

/-!
# Two updates of one route

`store_rules` deletes the rules of the route in one statement and inserts the new ones
with the commit. Nothing locks the route in between, so two updates can both delete the
old rules, and then neither deletes what the other one inserts.

- `Updating`: what an update leaves alone while another one is at work.
- `update_concludes`: an update ends as it would in one go on the store at its start.
- `Updated`: everything an update can do to the rules in one statement.
- `Overlap`: both deletes have started, and neither update has ended.
- `Mixes`: the rules of the two documents can be stored side by side, and make a set that
  is neither the old one nor one of the documents'.
- `rulesSettled_iff`: the rules end up mixed exactly when both happen.
-/

namespace RouteRegistry

open Relational UnitOfWork Runs

/-- A call of `update_route`, with what its fetch meets and its time. -/
structure UpdateCall where
  fetch : Fetch
  now : Time

/-! ## What another update may do -/

/-- Updates leave users and groups alone, and the routes that there are. -/
structure Updating (v v' : Store) : Prop where
  valid : v.Valid → v'.Valid
  users : v'.users = v.users
  groups : v'.groups = v.groups
  routeIds : v'.routeIds = v.routeIds

def updating : Rely Store where
  Keeps := Updating
  refl _ := ⟨id, rfl, rfl, rfl⟩
  trans h h' := ⟨h'.valid ∘ h.valid, h'.users.trans h.users, h'.groups.trans h.groups,
    h'.routeIds.trans h.routeIds⟩

section Body

variable {v v' : Store} {schema : Json.Schema} {id : String}

theorem steady_getUsers (uids : List String) : (EntityRepo.getUsers uids).Steady updating := by
  refine Txn.steady_bind (Txn.steady_get fun v v' (h : Updating v v') => ?_) fun users => ?_
  · rw [h.users]
  · split
    · exact .throw _
    · exact .ret _

theorem steady_getGroups (names : List String) : (EntityRepo.getGroups names).Steady updating := by
  refine Txn.steady_bind (Txn.steady_get fun v v' (h : Updating v v') => ?_) fun groups => ?_
  · rw [h.groups]
  · split
    · exact .throw _
    · exact .ret _

theorem steady_storeRules (route : Route) (authz : Authorization) :
    (storeRules route authz).Steady updating := by
  refine Txn.steady_bind (steady_getUsers _) ?_
  intro au
  refine Txn.steady_bind (steady_getUsers _) ?_
  intro du
  refine Txn.steady_bind (steady_getGroups _) ?_
  intro ag
  refine Txn.steady_bind (steady_getGroups _) ?_
  intro dg
  exact Txn.steady_bind (Txn.steady_put _) fun _ => Txn.steady_forM (fun r => Txn.steady_put _) _

theorem steady_refreshRoute (route : Route) (c : UpdateCall) :
    (refreshRoute route c.fetch schema c.now).Steady updating := by
  refine Txn.steady_bind (Txn.steady_ofExcept _) ?_
  intro data
  refine Txn.steady_bind (Txn.steady_ofExcept _) fun _ => ?_
  refine Txn.steady_bind (Txn.steady_ofExcept _) ?_
  intro authz
  refine Txn.steady_bind (steady_storeRules _ _) fun _ => ?_
  refine Txn.steady_bind (Txn.steady_put _) fun _ => ?_
  exact Txn.steady_bind (Txn.steady_put _) fun _ => .ret _

/-- The rules a document asks for stay what they are. -/
theorem Updating.refreshed (h : Updating v v') (c : UpdateCall) :
    v'.refreshed schema id c.fetch = v.refreshed schema id c.fetch := by
  have husers : ∀ uids, v'.usersNamed uids = v.usersNamed uids :=
    fun uids => congrArg Prod.fst ((steady_getUsers uids).run h)
  have hgroups : ∀ names, v'.groupsNamed names = v.groupsNamed names :=
    fun names => congrArg Prod.fst ((steady_getGroups names).run h)
  unfold Store.refreshed Store.ruleSet
  simp only [husers, hgroups]

/-- The `with` block of a call. -/
def UpdateCall.body (schema : Json.Schema) (id : String) (c : UpdateCall) : Session (Option Exc) :=
  updateRouteBody id c.fetch schema c.now

/-- What the block of a stored route returns and queues. -/
theorem run_updateBody (hv : v.Valid) (hid : id ∈ v.routeIds) (c : UpdateCall) :
    (c.body schema id).run v =
      match v.refreshed schema id c.fetch with
      | .ok rules =>
        (.ok none, (.deleteRules id :: rules.map .addRule) ++
          (refreshedAttrs c.now).map (.setRoute id))
      | .error e =>
        match failureStatus e with
        | some st => (.ok (some e), [RouteAttr.status st].map (.setRoute id))
        | none => (.error e, []) := by
  obtain ⟨r, hr⟩ := Store.mem_routeIds_iff.mp hid
  have hrun := run_updateRouteBody hv id c.fetch schema c.now
  rw [hr] at hrun
  exact hrun

/-- A block runs alike before and after what another update does. -/
theorem Updating.run_body (h : Updating v v') (hv : v.Valid) (hid : id ∈ v.routeIds)
    (c : UpdateCall) : (c.body schema id).run v' = (c.body schema id).run v := by
  rw [run_updateBody (h.valid hv) (h.routeIds ▸ hid), run_updateBody hv hid, h.refreshed]

/-- The outcome and the changes of a block are those of the store `s₀`. -/
def Planned (schema : Json.Schema) (id : String) (s₀ : Store) (c : UpdateCall) (_ : Store)
    (x : Except Exc (Option Exc)) (Δ : List Change) : Prop :=
  (x, Δ) = (c.body schema id).run s₀

/-- **An update ends as it would in one go on the store at its start**, whatever another
update does in between. -/
theorem update_concludes (hv : v.Valid) (hid : id ∈ v.routeIds) (c : UpdateCall) :
    (c.body schema id).Concludes updating (Planned schema id v c) v [] := by
  unfold UpdateCall.body updateRouteBody
  refine concludes_queryOne (fun v₁ h₁ => (h₁.valid hv).routeKeys) fun v₁ h₁ => ?_
  have hrun : (c.body schema id).run v₁ = (c.body schema id).run v := h₁.run_body hv hid c
  obtain ⟨r, hr⟩ := Store.mem_routeIds_iff.mp (h₁.routeIds.symm ▸ hid : id ∈ v₁.routeIds)
  have hget : (RouteRepo.get id).run v₁ = (.ok (some r), []) :=
    (RouteRepo.run_get (h₁.valid hv) id).trans (by rw [hr])
  rw [show lookup Route.id id v₁.routes = some r from hr]
  refine Txn.Steady.concludes ?_ fun v₂ _ => ?_
  · refine Txn.steady_tryCatch (steady_refreshRoute r c) ?_
    intro e
    split
    · exact Txn.steady_bind (Txn.steady_put _) fun _ => .ret _
    · exact .throw _
  · exact (Txn.run_bind_pure hget).symm.trans hrun

end Body

/-! ## The rules a commit stores -/

section Store

variable {s : Store} {id : String} {rules : List Rule}

theorem Store.rulesOf_dropRules (s : Store) (id : String) (gone : List Rule) :
    (s.dropRules gone).rulesOf id = (s.rulesOf id).filter fun r => decide (r ∉ gone) := by
  unfold Store.rulesOf Store.dropRules
  rw [List.filter_filter, List.filter_filter]
  exact List.filter_congr fun r _ => Bool.and_comm _ _

theorem Store.rulesOf_dropRules_self (s : Store) (id : String) :
    (s.dropRules (s.rulesOf id)).rulesOf id = [] := by
  rw [Store.rulesOf_dropRules]
  exact List.filter_eq_nil_iff.mpr fun r hr => by simp [hr]

/-- The store with more rules. -/
def Store.addRules (s : Store) (rules : List Rule) : Store := { s with rules := s.rules ++ rules }

theorem Store.rulesOf_addRules (hrules : ∀ r ∈ rules, r.routeId = id) :
    (s.addRules rules).rulesOf id = s.rulesOf id ++ rules := by
  unfold Store.rulesOf Store.addRules
  rw [List.filter_append]
  congr 1
  exact List.filter_eq_self.mpr fun r hr => decide_eq_true (hrules r hr)

/-- What a refresh inserts goes in beside the rules its `DELETE` has left, unless two of
these are about one entity. -/
theorem flush_inserts (now : Time) (hv : s.Valid) (hid : id ∈ s.routeIds)
    (hrules : ∀ r ∈ rules, r.routeId = id) (hent : ∀ r ∈ rules, r.entityId ∈ s.entityIds) :
    flush s (rules.map .addRule ++ (refreshedAttrs now).map (.setRoute id)) =
      if Keyed Rule.entityId (s.rulesOf id ++ rules) then
        .ok ((s.addRules rules).withAttrs id (refreshedAttrs now))
      else .error (.integrity .unique) := by
  have hmore := flush_moreRules hv hid hrules hent
  by_cases h : Keyed Rule.entityId (s.rulesOf id ++ rules)
  · rw [if_pos h] at hmore ⊢
    rw [flush_append_ok hmore]
    exact flush_setPlain (s := s.addRules rules) hid (refreshedAttrs_plain now)
  · rw [if_neg h] at hmore ⊢
    exact flush_append_error hmore

end Store

/-! ## One statement of an update -/

/-- An update has started its `DELETE`. -/
def Sweeping (id : String) (p : Running UpdateCall (Option Exc)) : Prop :=
  .deleteRules id ∈ p.passed

/-- The rows of its `DELETE` are `rows`, locked or not yet. -/
def Sweeps (rows : List Rule) (p : Running UpdateCall (Option Exc)) : Prop :=
  (p.waiting = some rows ∧ p.held = []) ∨ (p.waiting = none ∧ p.held = rows)

/-- Once it has started, the `DELETE` of an update is for `rows`. -/
def Deletes (id : String) (rows : List Rule) (p : Running UpdateCall (Option Exc)) : Prop :=
  Sweeping id p → Sweeps rows p

/-- Before its `DELETE` an update has and wants no rows. -/
def Idle (id : String) (p : Running UpdateCall (Option Exc)) : Prop :=
  ¬ Sweeping id p → p.waiting = none ∧ p.held = []

/-- Everything an update can do to the rules of the route in one statement: go on, end
without a change, or store the rules of its document. -/
inductive Updated (schema : Json.Schema) (id : String) (s₀ : Store) (blocked : List Rule)
    (db : Database) (p : Running UpdateCall (Option Exc)) :
    Database → List Rule → Running UpdateCall (Option Exc) → Prop where
  | stays {p' : Running UpdateCall (Option Exc)} (hout : p'.outcome = none) (hidle : Idle id p')
    (hsweeping : Sweeping id p → Sweeping id p')
    (hdel : ∀ rows, Deletes id rows p → (¬ Sweeping id p → rows = db.store.rulesOf id) →
      Deletes id rows p')
    (hheld : ∀ r ∈ p'.held, r ∈ p.held ∨ r ∉ blocked) : Updated schema id s₀ blocked db p db [] p'
  | ends {db' : Database} {x : Except Exc (Option Exc)}
    (hrules : db'.store.rulesOf id = db.store.rulesOf id)
    (hwhy : ∀ rules, s₀.refreshed schema id p.call.fetch = .ok rules → Sweeping id p ∧
      p.waiting = none ∧ ¬ Keyed Rule.entityId ((db.store.dropRules p.held).rulesOf id ++ rules)) :
    Updated schema id s₀ blocked db p db' [] (p.ended x)
  | stores {db' : Database} {x : Except Exc (Option Exc)} {rules : List Rule}
    (hsweeping : Sweeping id p) (hwait : p.waiting = none)
    (hplan : s₀.refreshed schema id p.call.fetch = .ok rules)
    (hrules : db'.store.rulesOf id = (db.store.dropRules p.held).rulesOf id ++ rules) :
    Updated schema id s₀ blocked db p db' p.held (p.ended x)

section Statement

variable {eng : Engine} {schema : Json.Schema} {id : String} {s₀ : Store} {db db' : Database}
  {blocked gone rows : List Rule} {p p' : Running UpdateCall (Option Exc)} {c : Change}
  {Δ : List Change}

/-- What an update queues after its `DELETE` is left to the commit. -/
theorem finds_refresh (id : String) (rules : List Rule) (attrs : List RouteAttr) :
    ∀ c ∈ rules.map Change.addRule ++ attrs.map (Change.setRoute id), c.finds = none := by
  intro c hc
  rcases List.mem_append.mp hc with hc | hc
  · obtain ⟨r, -, rfl⟩ := List.mem_map.mp hc
    rfl
  · obtain ⟨a, -, rfl⟩ := List.mem_map.mp hc
    rfl

/-- The `DELETE` is the first thing an update queues, and the only bulk change. -/
theorem bulk_first (hv : s₀.Valid) (hid : id ∈ s₀.routeIds) {call : UpdateCall}
    (h : Δ ++ [c] <+: ((call.body schema id).run s₀).2) :
    c.finds = none ∨ (Δ = [] ∧ c = .deleteRules id) := by
  rw [run_updateBody hv hid] at h
  cases href : s₀.refreshed schema id call.fetch with
  | ok rules =>
    rw [href] at h
    cases Δ with
    | nil => exact .inr ⟨rfl, (List.cons_prefix_cons.mp h).1⟩
    | cons c₀ Δ =>
      exact .inl (finds_refresh id rules _ c ((List.cons_prefix_cons.mp h).2.subset (by simp)))
  | error e =>
    rw [href] at h
    have hc := h.subset (List.mem_append_right Δ (List.mem_singleton.mpr rfl))
    cases hst : failureStatus e with
    | none =>
      simp only [hst] at hc
      cases hc
    | some st =>
      simp only [hst] at hc
      exact .inl (finds_refresh id [] [.status st] c hc)

/-- An update that gets to its commit stores the rules of its document, or a status. -/
theorem Planned.of_ok (hv : s₀.Valid) (hid : id ∈ s₀.routeIds) {call : UpdateCall} {v : Store}
    {a : Option Exc} (h : Planned schema id s₀ call v (.ok a) Δ) :
    (∃ rules, s₀.refreshed schema id call.fetch = .ok rules ∧
        Δ = .deleteRules id ::
          (rules.map .addRule ++ (refreshedAttrs call.now).map (.setRoute id))) ∨
      ∃ e st, s₀.refreshed schema id call.fetch = .error e ∧
        Δ = [RouteAttr.status st].map (.setRoute id) := by
  unfold Planned at h
  rw [run_updateBody hv hid] at h
  cases href : s₀.refreshed schema id call.fetch with
  | ok rules =>
    rw [href] at h
    cases h
    exact .inl ⟨rules, rfl, rfl⟩
  | error e =>
    rw [href] at h
    cases hst : failureStatus e with
    | none =>
      simp only [hst] at h
      cases h
    | some st =>
      simp only [hst] at h
      cases h
      exact .inr ⟨e, st, rfl, rfl⟩

/-- An update that raises has no rules to store. -/
theorem Planned.of_error (hv : s₀.Valid) (hid : id ∈ s₀.routeIds) {call : UpdateCall} {v : Store}
    {e : Exc} (h : Planned schema id s₀ call v (.error e) Δ) (rules : List Rule) :
    s₀.refreshed schema id call.fetch ≠ .ok rules := by
  intro href
  unfold Planned at h
  rw [run_updateBody hv hid, href] at h
  cases h

/-! ### An update alone -/

/-- Deleting the old rules before the commit comes to the same as deleting them in it. -/
theorem flush_deletedEarly (s : Store) (id : String) (Δ : List Change) :
    flush (s.dropRules (s.rulesOf id)) Δ = flush s (.deleteRules id :: Δ) := by
  have hdrop : s.dropRules (s.rulesOf id) =
      { s with rules := discard Rule.routeId id s.rules } := by
    unfold Store.dropRules Store.rulesOf Relational.discard
    congr 1
    refine List.filter_congr ?_
    intro r hr
    simp [List.mem_filter, hr]
  rw [hdrop]
  rfl

/-- An update that nobody interferes with does what its block does in one go. -/
theorem update_alone (schema : Json.Schema) (hid : id ∈ db.store.routeIds) (call : UpdateCall) :
    ∃ n db' x p', run (readCommitted .sqlite).move
        ⟨db, [.begin (UpdateCall.body schema id) db.store call]⟩ (List.replicate n 0) =
          some ⟨db', [p']⟩ ∧
      p'.outcome = some x ∧
      withUOW .sqlite (call.body schema id) db = Isolation.result db' x := by
  refine withUOW_alone ?_
  intro a Δ hrun
  have hplan : Planned schema id db.store call db.store (.ok a) Δ := hrun.symm
  rcases hplan.of_ok db.valid hid with ⟨rules, -, rfl⟩ | ⟨e, st, -, rfl⟩
  · have hrest := finds_refresh id rules (refreshedAttrs call.now)
    rw [deferred_delete hrest, found_delete hrest]
    exact sqliteCommit_congr (flush_deletedEarly db.store id _)
  · have hnone : ∀ c ∈ [RouteAttr.status st].map (.setRoute id), Change.finds c = none :=
      finds_refresh id [] [.status st]
    rw [found_eq_nil hnone, Database.dropRules_nil, deferred_eq_self hnone]

/-- The commit of a refresh goes through unless a rule that is left has a new one's key. -/
theorem commit_refresh (hkeeps : Updating s₀ db.store) (hid : id ∈ s₀.routeIds) {call : UpdateCall}
    {rules : List Rule} (href : s₀.refreshed schema id call.fetch = .ok rules) (held : List Rule) :
    flush (db.store.dropRules held)
        (rules.map .addRule ++ (refreshedAttrs call.now).map (.setRoute id)) =
      if Keyed Rule.entityId ((db.store.dropRules held).rulesOf id ++ rules) then
        .ok (((db.store.dropRules held).addRules rules).withAttrs id (refreshedAttrs call.now))
      else .error (.integrity .unique) := by
  obtain ⟨data, authz, -, -, -, hset⟩ := Store.refreshed_ok href
  obtain ⟨hroute, hent⟩ := Store.ruleSet_mem hset
  have hids : (db.store.dropRules held).entityIds = s₀.entityIds := by
    show db.store.users.map User.id ++ db.store.groups.map Group.id = _
    rw [hkeeps.users, hkeeps.groups]
    rfl
  refine flush_inserts call.now (db.valid.dropRules held) ?_ hroute fun r hr => ?_
  · exact (hkeeps.routeIds ▸ hid : id ∈ db.store.routeIds)
  · rw [hids]
    exact hent r hr

/-- What an update writes on its route leaves the rest to the other one. -/
theorem updating_withAttrs {s' : Store} {as : List RouteAttr}
    (hstore : s'.withAttrs id as = db'.store)
    (husers : s'.users = db.store.users) (hgroups : s'.groups = db.store.groups)
    (hroutes : s'.routeIds = db.store.routeIds) : Updating db.store db'.store := by
  refine ⟨fun _ => db'.valid, ?_, ?_, ?_⟩
  · rw [← hstore, ← husers]
    rfl
  · rw [← hstore, ← hgroups]
    rfl
  · rw [← hstore, ← hroutes]
    exact Store.routeIds_withAttrs s' id as

/-- A `DELETE` locks its rows. -/
theorem updated_locked (hidle : Idle id p) (hout : p.outcome = none) {found : List Rule}
    (hwait : p.waiting = some found) (hfree : ∀ r ∈ found, r ∉ blocked) :
    Updated schema id s₀ blocked db p db []
      { p with waiting := none, held := p.held ++ found } := by
  have hsweeping : Sweeping id p := by
    by_contra hs
    cases hwait.symm.trans (hidle hs).1
  refine .stays hout (fun hs => absurd hsweeping hs) (fun h => h) (fun rows hdel _ _ => ?_)
    fun r hr => ?_
  · rcases hdel hsweeping with ⟨hwait', hheld⟩ | ⟨hwait', -⟩
    · cases hwait.symm.trans hwait'
      exact .inr ⟨rfl, by rw [hheld]; rfl⟩
    · cases hwait.symm.trans hwait'
  · rcases List.mem_append.mp hr with hr | hr
    · exact .inl hr
    · exact .inr (hfree r hr)

/-- A change that is left to the commit is queued, or the `DELETE` finds the rules as they
are now. -/
theorem updated_queued (hidle : Idle id p) (hout : p.outcome = none) {k : Session (Option Exc)}
    (hwait : p.waiting = none)
    (hfirst : c.finds = none ∨ (p.passed = [] ∧ c = .deleteRules id)) :
    Updated schema id s₀ blocked db p db []
      { p with
        rest := k
        passed := p.passed ++ [c]
        waiting := (c.finds).map fun find => find db.store } := by
  rcases hfirst with hc | ⟨hpassed, rfl⟩
  · have hsame : ∀ p' : Running UpdateCall (Option Exc), p'.passed = p.passed ++ [c] →
        (Sweeping id p' ↔ Sweeping id p) := by
      intro p' hp'
      unfold Sweeping
      rw [hp', List.mem_append, List.mem_singleton, or_iff_left]
      rintro rfl
      cases hc
    rw [hc, Option.map_none]
    refine .stays hout (fun hs => ⟨rfl, (hidle (mt (hsame _ rfl).mpr hs)).2⟩) (hsame _ rfl).mpr
      (fun rows hdel _ hs => ?_) fun r hr => .inl hr
    rcases hdel ((hsame _ rfl).mp hs) with ⟨hrows, -⟩ | ⟨-, hheld⟩
    · cases hwait.symm.trans hrows
    · exact .inr ⟨rfl, hheld⟩
  · have hs : ¬ Sweeping id p := by
      unfold Sweeping
      rw [hpassed]
      exact List.not_mem_nil
    have hs' : Change.deleteRules id ∈ p.passed ++ [.deleteRules id] := by simp
    refine .stays hout (fun hs => absurd hs' hs) (fun _ => hs') (fun rows _ hrows _ => ?_)
      fun r hr => .inl hr
    rw [hrows hs]
    exact .inl ⟨rfl, (hidle hs).2⟩

/-- A commit goes through: the rules of the document are stored, or a status is. -/
theorem updated_committed (hv : s₀.Valid) (hid : id ∈ s₀.routeIds)
    (hkeeps : Updating s₀ db.store) (hidle : Idle id p) (hwait : p.waiting = none) {v : Store}
    {a : Option Exc} (hplan : Planned schema id s₀ p.call v (.ok a) p.passed)
    (hflush : flush (db.store.dropRules p.held) ((readCommitted eng).deferred p.passed) =
      .ok db'.store) :
    Updating db.store db'.store ∧
      Updated schema id s₀ blocked db p db' p.held (p.ended (.ok a)) := by
  rcases hplan.of_ok hv hid with ⟨rules, href, hΔ⟩ | ⟨e, st, href, hΔ⟩
  · have hsweeping : Sweeping id p := by
      unfold Sweeping
      rw [hΔ]
      exact List.mem_cons_self
    rw [hΔ, deferred_delete (finds_refresh id rules _),
      commit_refresh hkeeps hid href p.held] at hflush
    split at hflush
    · have hstore := Except.ok.inj hflush
      obtain ⟨data, authz, -, -, -, hset⟩ := Store.refreshed_ok href
      refine ⟨updating_withAttrs hstore rfl rfl rfl, .stores hsweeping hwait href ?_⟩
      rw [← hstore, Store.rulesOf_withAttrs]
      exact Store.rulesOf_addRules (Store.ruleSet_mem hset).1
    · cases hflush
  · have hs : ¬ Sweeping id p := by
      unfold Sweeping
      rw [hΔ]
      simp
    have hself : (readCommitted eng).deferred p.passed =
        [RouteAttr.status st].map (.setRoute id) := by
      rw [hΔ]
      exact deferred_eq_self (finds_refresh id [] [.status st])
    rw [(hidle hs).2, Store.dropRules_nil, hself,
      flush_status (hkeeps.routeIds ▸ hid : id ∈ db.store.routeIds)] at hflush
    have hstore := Except.ok.inj hflush
    rw [(hidle hs).2]
    refine ⟨updating_withAttrs hstore rfl rfl rfl, .ends ?_ fun rules href' => ?_⟩
    · rw [← hstore]
      exact Store.rulesOf_withAttrs _ _ _ _
    · cases href.symm.trans href'

/-- A reliable engine refuses the commit of a document's rules only where one of them has
the key of a rule that is left. -/
theorem updated_refused (hrel : eng.Reliable) (hv : s₀.Valid) (hid : id ∈ s₀.routeIds)
    (hkeeps : Updating s₀ db.store) (hwait : p.waiting = none) {v : Store} {a : Option Exc}
    {e : CommitError} {x : Except Exc (Option Exc)}
    (hplan : Planned schema id s₀ p.call v (.ok a) p.passed)
    (hcommit : eng.commit (db.dropRules p.held) ((readCommitted eng).deferred p.passed) =
      .error e) :
    Updated schema id s₀ blocked db p db [] (p.ended x) := by
  refine .ends rfl ?_
  intro rules href
  rcases hplan.of_ok hv hid with ⟨rules', href', hΔ⟩ | ⟨e', st, href', hΔ⟩
  · cases href.symm.trans href'
    have hsweeping : Sweeping id p := by
      unfold Sweeping
      rw [hΔ]
      exact List.mem_cons_self
    refine ⟨hsweeping, hwait, fun hkeyed => ?_⟩
    have hflush := commit_refresh hkeeps hid href p.held
    rw [if_pos hkeyed] at hflush
    obtain ⟨db'', hc⟩ := hrel (db.dropRules p.held) _ _ hflush
    rw [hΔ, deferred_delete (finds_refresh id rules _)] at hcommit
    cases hc.symm.trans hcommit
  · cases href.symm.trans href'

/-- **One statement of an update.** -/
theorem update_cases (hrel : eng.Reliable) (hv : s₀.Valid) (hid : id ∈ s₀.routeIds)
    (hkeeps : Updating s₀ db.store) (hsound : p.Sound updating (Planned schema id s₀) db.store)
    (hidle : Idle id p) (hout : p.outcome = none)
    (hadv : (readCommitted eng).Advanced blocked db p db' gone p') :
    Updating db.store db'.store ∧ Updated schema id s₀ blocked db p db' gone p' := by
  cases hadv with
  | locked hwait hfree => exact ⟨updating.refl _, updated_locked hidle hout hwait hfree⟩
  | queried hwait hrest =>
    exact ⟨updating.refl _, .stays hout hidle (fun h => h) (fun _ hdel _ => hdel)
      fun r hr => .inl hr⟩
  | @queued c k hwait hrest =>
    have hconcludes := (hsound hout).2
    rw [hrest] at hconcludes
    have hfirst : c.finds = none ∨ (p.passed = [] ∧ c = .deleteRules id) := by
      cases hconcludes with
      | queue hk =>
        obtain ⟨v, x, Δ, -, hplan, hprefix⟩ := hk.prefix
        rw [show Δ = _ from congrArg Prod.snd hplan] at hprefix
        exact bulk_first hv hid hprefix
    exact ⟨updating.refl _, updated_queued hidle hout hwait hfirst⟩
  | raised hwait hrest =>
    refine ⟨updating.refl _, .ends rfl fun rules hrules => ?_⟩
    exact absurd hrules ((hsound.throw hout hrest).of_error hv hid rules)
  | committed hwait hret hcommit =>
    exact updated_committed hv hid hkeeps hidle hwait (hsound.ret hout hret).2
      (readCommitted_commit hcommit)
  | refused hwait hret hcommit =>
    exact ⟨updating.refl _, updated_refused hrel hv hid hkeeps hwait (hsound.ret hout hret).2 hcommit⟩

end Statement

/-! ## Two updates -/

/-- Two updates that have just started. -/
def twoUpdates (schema : Json.Schema) (id : String) (db : Database) (c₁ c₂ : UpdateCall) :
    Sessions UpdateCall (Option Exc) :=
  ⟨db, [.begin (UpdateCall.body schema id) db.store c₁,
    .begin (UpdateCall.body schema id) db.store c₂]⟩

/-- The same rules, in any order. -/
def SameRules (rules rules' : List Rule) : Prop := ∀ r, r ∈ rules ↔ r ∈ rules'

/-- The rules are the old ones or those of one of the documents. -/
def RulesSettled (schema : Json.Schema) (id : String) (s₀ : Store) (c₁ c₂ : UpdateCall)
    (rules : List Rule) : Prop :=
  SameRules rules (s₀.rulesOf id) ∨
    (∃ rules₁, s₀.refreshed schema id c₁.fetch = .ok rules₁ ∧ SameRules rules rules₁) ∨
      ∃ rules₂, s₀.refreshed schema id c₂.fetch = .ok rules₂ ∧ SameRules rules rules₂

/-- Both deletes have started, and neither update has ended. -/
def Overlap (id : String) (w : Sessions UpdateCall (Option Exc)) : Prop :=
  ∀ p ∈ w.sessions, p.outcome = none ∧ Sweeping id p

/-- Both documents ask for rules, about different entities, and all of them together are
not the old rules. -/
def Mixes (schema : Json.Schema) (id : String) (s₀ : Store) (c₁ c₂ : UpdateCall) : Prop :=
  ∃ rules₁ rules₂, s₀.refreshed schema id c₁.fetch = .ok rules₁ ∧
    s₀.refreshed schema id c₂.fetch = .ok rules₂ ∧ rules₁ ≠ [] ∧ rules₂ ≠ [] ∧
    Keyed Rule.entityId (rules₁ ++ rules₂) ∧ ¬ SameRules (rules₁ ++ rules₂) (s₀.rulesOf id)

/-- What holds of two updates at every step. -/
structure Updaters (schema : Json.Schema) (id : String) (s₀ : Store) (c₁ c₂ : UpdateCall)
    (db : Database) (p q : Running UpdateCall (Option Exc)) : Prop where
  calls : (p.call = c₁ ∧ q.call = c₂) ∨ (p.call = c₂ ∧ q.call = c₁)
  keeps : Updating s₀ db.store
  left : p.Sound updating (Planned schema id s₀) db.store
  right : q.Sound updating (Planned schema id s₀) db.store
  idleLeft : Idle id p
  idleRight : Idle id q
  apart : ∀ r ∈ p.held, r ∉ q.held
  both : p.outcome = none → q.outcome = none → db.store.rulesOf id = s₀.rulesOf id ∧
    Deletes id (s₀.rulesOf id) p ∧ Deletes id (s₀.rulesOf id) q

section Pair

variable {eng : Engine} {schema : Json.Schema} {id : String} {s₀ : Store} {db db' : Database}
  {gone rows : List Rule} {p p' q : Running UpdateCall (Option Exc)} {c₁ c₂ : UpdateCall}
  {rules rules₁ rules₂ : List Rule}

theorem SameRules.append_comm : SameRules (rules₁ ++ rules₂) (rules₂ ++ rules₁) :=
  fun r => by rw [List.mem_append, List.mem_append, or_comm]

theorem Mixes.symm (h : Mixes schema id s₀ c₁ c₂) : Mixes schema id s₀ c₂ c₁ := by
  obtain ⟨rules₁, rules₂, h₁, h₂, hne₁, hne₂, hkeyed, hnot⟩ := h
  refine ⟨rules₂, rules₁, h₂, h₁, hne₂, hne₁, keyed_append_comm.mp hkeyed, fun h => hnot ?_⟩
  intro r
  exact (SameRules.append_comm r).trans (h r)

theorem RulesSettled.symm (h : RulesSettled schema id s₀ c₁ c₂ rules) :
    RulesSettled schema id s₀ c₂ c₁ rules :=
  h.imp_right Or.symm

theorem Updaters.symm (h : Updaters schema id s₀ c₁ c₂ db p q) :
    Updaters schema id s₀ c₁ c₂ db q p where
  calls := h.calls.symm.imp And.symm And.symm
  keeps := h.keeps
  left := h.right
  right := h.left
  idleLeft := h.idleRight
  idleRight := h.idleLeft
  apart := fun r hr hp => h.apart r hp hr
  both := fun hq hp => ⟨(h.both hp hq).1, (h.both hp hq).2.2, (h.both hp hq).2.1⟩

theorem Idle.ended (h : Idle id p) (x : Except Exc (Option Exc)) : Idle id (p.ended x) :=
  fun hs => ⟨(h hs).1, rfl⟩

theorem Idle.strike (h : Idle id p) (gone : List Rule) : Idle id (p.strike gone) := by
  intro hs
  obtain ⟨hwait, hheld⟩ := h hs
  exact ⟨by simp [InFlight.strike, hwait], hheld⟩

/-- A statement of one update keeps both going. -/
theorem Updaters.advance (h : Updaters schema id s₀ c₁ c₂ db p q) (hrel : eng.Reliable)
    (hv : s₀.Valid) (hid : id ∈ s₀.routeIds) (hout : p.outcome = none)
    (hadv : (readCommitted eng).Advanced q.held db p db' gone p') :
    Updated schema id s₀ q.held db p db' gone p' ∧
      Updaters schema id s₀ c₁ c₂ db' p' (q.strike gone) := by
  obtain ⟨hkeeps, hcases⟩ := update_cases hrel hv hid h.keeps h.left h.idleLeft hout hadv
  refine ⟨hcases, hadv.call ▸ h.calls, updating.trans h.keeps hkeeps,
    h.left.advance hout hadv hkeeps, (h.right.mono hkeeps).strike gone, ?_,
    h.idleRight.strike gone, ?_, ?_⟩
  · cases hcases with
    | stays _ hidle _ _ _ => exact hidle
    | ends _ _ => exact h.idleLeft.ended _
    | stores _ _ _ _ => exact h.idleLeft.ended _
  · cases hcases with
    | stays _ _ _ _ hheld => exact fun r hr => (hheld r hr).elim (h.apart r) fun hr => hr
    | ends _ _ => exact fun r hr => by cases hr
    | stores _ _ _ _ => exact fun r hr => by cases hr
  · intro hp' hq
    cases hcases with
    | stays _ _ _ hdel _ =>
      obtain ⟨hrules, hp, hq'⟩ := h.both hout hq
      rw [InFlight.strike_nil]
      exact ⟨hrules, hdel _ hp fun _ => hrules.symm, hq'⟩
    | ends _ _ => cases hp'
    | stores _ _ _ _ => cases hp'

/-! ### What a commit leaves to the other update -/

/-- The update has started its `DELETE` without the rules of the other one, which are in
the table now. -/
def Missed (schema : Json.Schema) (id : String) (s₀ : Store) (db : Database)
    (p q : Running UpdateCall (Option Exc)) : Prop :=
  Sweeping id p ∧ Sweeps [] p ∧
    s₀.refreshed schema id q.call.fetch = .ok (db.store.rulesOf id)

theorem Sweeps.held (h : Sweeps rows p) (hwait : p.waiting = none) : p.held = rows := by
  rcases h with ⟨hrows, -⟩ | ⟨-, hheld⟩
  · cases hwait.symm.trans hrows
  · exact hheld

/-- Nothing is left to delete of rows that another session has deleted for good. -/
theorem Sweeps.strike (h : Sweeps rows p) (hapart : ∀ r ∈ p.held, r ∉ rows) :
    Sweeps [] (p.strike rows) := by
  rcases h with ⟨hwait, hheld⟩ | ⟨hwait, hheld⟩
  · refine .inl ⟨?_, hheld⟩
    simp [InFlight.strike, hwait]
  · refine .inr ⟨by simp [InFlight.strike, hwait], hheld.trans ?_⟩
    exact List.eq_nil_iff_forall_not_mem.mpr fun r hr => hapart r (hheld ▸ hr) hr

/-- The first of two updates that are both at work to store its rules replaces the old
ones; the other one misses them if its `DELETE` has started. -/
theorem Updaters.stores_first (h : Updaters schema id s₀ c₁ c₂ db p q) (hp : p.outcome = none)
    (hq : q.outcome = none) (hsweeping : Sweeping id p) (hwait : p.waiting = none)
    (hplan : s₀.refreshed schema id p.call.fetch = .ok rules)
    (hrules : db'.store.rulesOf id = (db.store.dropRules p.held).rulesOf id ++ rules)
    (x : Except Exc (Option Exc)) :
    db'.store.rulesOf id = rules ∧
      (Sweeping id q → Missed schema id s₀ db' (q.strike p.held) (p.ended x)) := by
  obtain ⟨hold, hdel, hdel'⟩ := h.both hp hq
  have hheld : p.held = s₀.rulesOf id := (hdel hsweeping).held hwait
  have hnew : db'.store.rulesOf id = rules := by
    rw [hrules, hheld, ← hold, Store.rulesOf_dropRules_self, List.nil_append]
  refine ⟨hnew, fun hs => ⟨hs, ?_, ?_⟩⟩
  · have happart : ∀ r ∈ q.held, r ∉ p.held := fun r hr hr' => h.apart r hr' hr
    rw [hheld] at happart ⊢
    exact (hdel' hs).strike happart
  · rw [hnew]
    exact hplan

/-- An update that has missed the other one's rules goes on so, cannot store its own
beside them, or does. -/
theorem Missed.advance (h : Missed schema id s₀ db p q)
    (hadv : Updated schema id s₀ rows db p db' gone p') :
    (p'.outcome = none ∧ Missed schema id s₀ db' p' q) ∨
      (p'.outcome ≠ none ∧ db'.store.rulesOf id = db.store.rulesOf id ∧
        ∀ rules, s₀.refreshed schema id p.call.fetch = .ok rules →
          ¬ Keyed Rule.entityId (db.store.rulesOf id ++ rules)) ∨
      (p'.outcome ≠ none ∧ ∃ rules, s₀.refreshed schema id p.call.fetch = .ok rules ∧
        db'.store.rulesOf id = db.store.rulesOf id ++ rules) := by
  obtain ⟨hsweeping, hsweeps, hq⟩ := h
  cases hadv with
  | stays hout _ hs hdel _ =>
    refine .inl ⟨hout, hs hsweeping, ?_, hq⟩
    exact hdel [] (fun _ => hsweeps) (fun hn => absurd hsweeping hn) (hs hsweeping)
  | ends hrules hwhy =>
    refine .inr (.inl ⟨by simp [InFlight.ended], hrules, fun rules href => ?_⟩)
    obtain ⟨-, hwait, hkeyed⟩ := hwhy rules href
    rw [hsweeps.held hwait, Store.dropRules_nil] at hkeyed
    exact hkeyed
  | stores _ hwait hplan hrules =>
    rw [hsweeps.held hwait, Store.dropRules_nil] at hrules
    exact .inr (.inr ⟨by simp [InFlight.ended], _, hplan, hrules⟩)

/-! ### Runs in which nothing mixes -/

/-- All rules are for the update to delete: the old ones, or those of the other update,
which has ended. -/
def Follows (schema : Json.Schema) (id : String) (s₀ : Store) (db : Database)
    (p q : Running UpdateCall (Option Exc)) : Prop :=
  Deletes id (db.store.rulesOf id) p ∧
    (db.store.rulesOf id = s₀.rulesOf id ∨
      s₀.refreshed schema id q.call.fetch = .ok (db.store.rulesOf id))

/-- What an update comes to when the other one has ended. -/
def Trails (schema : Json.Schema) (id : String) (s₀ : Store) (db : Database)
    (p q : Running UpdateCall (Option Exc)) : Prop :=
  Follows schema id s₀ db p q ∨
    (¬ Mixes schema id s₀ p.call q.call ∧ Missed schema id s₀ db p q)

structure Unmixed (schema : Json.Schema) (id : String) (s₀ : Store) (db : Database)
    (p q : Running UpdateCall (Option Exc)) : Prop where
  left : p.outcome = none → q.outcome ≠ none → Trails schema id s₀ db p q
  right : q.outcome = none → p.outcome ≠ none → Trails schema id s₀ db q p
  final : p.outcome ≠ none → q.outcome ≠ none →
    RulesSettled schema id s₀ p.call q.call (db.store.rulesOf id)

theorem Unmixed.symm (h : Unmixed schema id s₀ db p q) : Unmixed schema id s₀ db q p :=
  ⟨h.right, h.left, fun hq hp => (h.final hp hq).symm⟩

/-- Rules side by side that are no mixture. -/
theorem settled_of_not_mixes (hno : ¬ Mixes schema id s₀ c₁ c₂)
    (h₁ : s₀.refreshed schema id c₁.fetch = .ok rules₁)
    (h₂ : s₀.refreshed schema id c₂.fetch = .ok rules₂)
    (hkeyed : Keyed Rule.entityId (rules₂ ++ rules₁)) :
    RulesSettled schema id s₀ c₁ c₂ (rules₂ ++ rules₁) := by
  by_cases hne₁ : rules₁ = []
  · refine .inr (.inr ⟨rules₂, h₂, fun r => ?_⟩)
    rw [hne₁, List.append_nil]
  by_cases hne₂ : rules₂ = []
  · refine .inr (.inl ⟨rules₁, h₁, fun r => ?_⟩)
    rw [hne₂, List.nil_append]
  refine .inl (by_contra fun hnot => hno (Mixes.symm ?_))
  exact ⟨rules₂, rules₁, h₂, h₁, hne₂, hne₁, hkeyed, hnot⟩

/-- The rules of a route are about different entities. -/
theorem Store.Valid.keyed_rulesOf {s : Store} (hv : s.Valid) (id : String) :
    Keyed Rule.entityId (s.rulesOf id) :=
  (keyed_key_iff fun _ hr => of_decide_eq_true (List.mem_filter.mp hr).2).mp
    (hv.ruleKeys.filter _)

/-- An update that ends after the other one settles the rules. -/
theorem Trails.advance (h : Trails schema id s₀ db p q) (hcall : p'.call = p.call)
    (hadv : Updated schema id s₀ rows db p db' gone p') :
    (p'.outcome = none → Trails schema id s₀ db' p' q) ∧
      (p'.outcome ≠ none → RulesSettled schema id s₀ p'.call q.call (db'.store.rulesOf id)) := by
  rw [Trails, hcall]
  rcases h with ⟨hdel, hrules⟩ | ⟨hno, hmissed⟩
  · cases hadv with
    | stays hout _ _ hdel' _ =>
      refine ⟨fun _ => .inl ⟨hdel' _ hdel fun _ => rfl, hrules⟩, fun hne => absurd hout hne⟩
    | ends hsame _ =>
      refine ⟨fun hp => (by cases hp), fun _ => ?_⟩
      rw [hsame]
      rcases hrules with hrules | hrules
      · exact .inl fun r => by rw [hrules]
      · exact .inr (.inr ⟨_, hrules, fun r => Iff.rfl⟩)
    | stores hsweeping hwait hplan hnew =>
      refine ⟨fun hp => (by cases hp), fun _ => .inr (.inl ⟨_, hplan, fun r => ?_⟩)⟩
      rw [hnew, (hdel hsweeping).held hwait, Store.rulesOf_dropRules_self, List.nil_append]
  · rcases hmissed.advance hadv with ⟨hout, hmissed'⟩ | ⟨hout, hsame, -⟩ | ⟨hout, rules, href, hnew⟩
    · exact ⟨fun _ => .inr ⟨hno, hmissed'⟩, fun hne => absurd hout hne⟩
    · refine ⟨fun hp => absurd hp hout, fun _ => .inr (.inr ⟨_, hmissed.2.2, fun r => ?_⟩)⟩
      rw [hsame]
    · refine ⟨fun hp => absurd hp hout, fun _ => ?_⟩
      have hkeyed := db'.valid.keyed_rulesOf id
      rw [hnew] at hkeyed ⊢
      exact settled_of_not_mixes hno href hmissed.2.2 hkeyed

theorem unmixed_advance (h : Updaters schema id s₀ c₁ c₂ db p q) (hrel : eng.Reliable)
    (hv : s₀.Valid) (hid : id ∈ s₀.routeIds) (hunmixed : Unmixed schema id s₀ db p q)
    (hno : Mixes schema id s₀ p.call q.call → ¬ Overlap id ⟨db, [p, q]⟩) (hout : p.outcome = none)
    (hadv : (readCommitted eng).Advanced q.held db p db' gone p') :
    Unmixed schema id s₀ db' p' (q.strike gone) := by
  obtain ⟨hcases, hnext⟩ := h.advance hrel hv hid hout hadv
  have hcall : p'.call = p.call := hadv.call
  by_cases hq : q.outcome = none
  · refine ⟨fun _ hne => absurd hq hne, fun _ hp' => ?_, fun _ hne => absurd hq hne⟩
    obtain ⟨hold, -, hdel⟩ := h.both hout hq
    cases hcases with
    | stays hout' _ _ _ _ => exact absurd hout' hp'
    | ends hsame _ =>
      refine .inl ⟨?_, .inl (hsame.trans hold)⟩
      rw [hsame, hold, InFlight.strike_nil]
      exact hdel
    | stores hsweeping hwait hplan hrules =>
      obtain ⟨hnew, hmissed⟩ := h.stores_first hout hq hsweeping hwait hplan hrules _
      by_cases hs : Sweeping id q
      · refine .inr ⟨fun hmix => hno hmix.symm fun r hr => ?_, hmissed hs⟩
        simp only [List.mem_cons, List.not_mem_nil, or_false] at hr
        rcases hr with rfl | rfl
        · exact ⟨hout, hsweeping⟩
        · exact ⟨hq, hs⟩
      · refine .inl ⟨fun hs' => absurd hs' hs, .inr ?_⟩
        rw [hnew]
        exact hplan
  · obtain ⟨htrails, hfinal⟩ := (hunmixed.left hout hq).advance hcall hcases
    exact ⟨fun hp' _ => htrails hp', fun hq' => absurd hq' hq, fun hp' _ => hfinal hp'⟩

/-! ### Runs in which the rules mix -/

/-- Both documents' rules will be in the table: neither is yet, one is and the other update
misses it, or both are. -/
def Mixing (schema : Json.Schema) (id : String) (s₀ : Store) (db : Database)
    (p q : Running UpdateCall (Option Exc)) : Prop :=
  (p.outcome = none ∧ q.outcome = none ∧ Sweeping id p ∧ Sweeping id q) ∨
    (p.outcome = none ∧ q.outcome ≠ none ∧ Missed schema id s₀ db p q) ∨
    (q.outcome = none ∧ p.outcome ≠ none ∧ Missed schema id s₀ db q p) ∨
    (p.outcome ≠ none ∧ q.outcome ≠ none ∧
      ∀ rules₁ rules₂, s₀.refreshed schema id p.call.fetch = .ok rules₁ →
        s₀.refreshed schema id q.call.fetch = .ok rules₂ →
        SameRules (db.store.rulesOf id) (rules₁ ++ rules₂))

theorem Mixing.symm (h : Mixing schema id s₀ db p q) : Mixing schema id s₀ db q p := by
  rcases h with ⟨hp, hq, hsp, hsq⟩ | h | h | ⟨hp, hq, hrules⟩
  · exact .inl ⟨hq, hp, hsq, hsp⟩
  · exact .inr (.inr (.inl h))
  · exact .inr (.inl h)
  · refine .inr (.inr (.inr ⟨hq, hp, fun rules₁ rules₂ h₁ h₂ r => ?_⟩))
    exact (hrules rules₂ rules₁ h₂ h₁ r).trans (SameRules.append_comm r)

theorem mixing_advance (h : Updaters schema id s₀ c₁ c₂ db p q) (hrel : eng.Reliable)
    (hv : s₀.Valid) (hid : id ∈ s₀.routeIds) (hmix : Mixes schema id s₀ p.call q.call)
    (hmixing : Mixing schema id s₀ db p q) (hout : p.outcome = none)
    (hadv : (readCommitted eng).Advanced q.held db p db' gone p') :
    Mixing schema id s₀ db' p' (q.strike gone) := by
  obtain ⟨hcases, hnext⟩ := h.advance hrel hv hid hout hadv
  have hcall : p'.call = p.call := hadv.call
  obtain ⟨rules₁, rules₂, h₁, h₂, -, -, hkeyed, -⟩ := hmix
  rcases hmixing with ⟨-, hq, hsp, hsq⟩ | ⟨-, hq, hmissed⟩ | ⟨-, hp, -⟩ | ⟨hp, -, -⟩
  · cases hcases with
    | stays hout' _ hs _ _ => exact .inl ⟨hout', hq, hs hsp, hsq⟩
    | ends _ hwhy =>
      obtain ⟨-, hwait, hnot⟩ := hwhy rules₁ h₁
      obtain ⟨hold, hdel, -⟩ := h.both hout hq
      rw [(hdel hsp).held hwait, ← hold, Store.rulesOf_dropRules_self, List.nil_append] at hnot
      exact absurd (keyed_append.mp hkeyed).1 hnot
    | stores hsweeping hwait hplan hrules =>
      obtain ⟨-, hmissed⟩ := h.stores_first hout hq hsweeping hwait hplan hrules _
      exact .inr (.inr (.inl ⟨hq, by simp [InFlight.ended], hmissed hsq⟩))
  · rcases hmissed.advance hcases with ⟨hout', hmissed'⟩ | ⟨-, -, hnot⟩ | ⟨hout', rules, href, hnew⟩
    · exact .inr (.inl ⟨hout', hq, hmissed'⟩)
    · cases hmissed.2.2.symm.trans h₂
      exact absurd (keyed_append_comm.mp hkeyed) (hnot rules₁ h₁)
    · refine .inr (.inr (.inr ⟨hout', hq, fun rules₁' rules₂' h₁' h₂' => ?_⟩))
      rw [hcall] at h₁'
      cases href.symm.trans h₁'
      rw [hnew]
      cases hmissed.2.2.symm.trans h₂'
      exact SameRules.append_comm
  · exact absurd hout hp
  · exact absurd hout hp

/-! ### The theorem -/

theorem Updaters.mixes_iff (h : Updaters schema id s₀ c₁ c₂ db p q) :
    Mixes schema id s₀ p.call q.call ↔ Mixes schema id s₀ c₁ c₂ := by
  rcases h.calls with ⟨hp, hq⟩ | ⟨hp, hq⟩
  · rw [hp, hq]
  · rw [hp, hq]
    exact ⟨Mixes.symm, Mixes.symm⟩

theorem Updaters.settled_iff (h : Updaters schema id s₀ c₁ c₂ db p q) :
    RulesSettled schema id s₀ p.call q.call rules ↔ RulesSettled schema id s₀ c₁ c₂ rules := by
  rcases h.calls with ⟨hp, hq⟩ | ⟨hp, hq⟩
  · rw [hp, hq]
  · rw [hp, hq]
    exact ⟨RulesSettled.symm, RulesSettled.symm⟩

/-- A mixture is not settled. -/
theorem Mixes.not_settled (h : Mixes schema id s₀ c₁ c₂)
    (hrules : ∀ rules₁ rules₂, s₀.refreshed schema id c₁.fetch = .ok rules₁ →
      s₀.refreshed schema id c₂.fetch = .ok rules₂ → SameRules rules (rules₁ ++ rules₂)) :
    ¬ RulesSettled schema id s₀ c₁ c₂ rules := by
  obtain ⟨rules₁, rules₂, h₁, h₂, hne₁, hne₂, hkeyed, hnot⟩ := h
  have hboth := hrules rules₁ rules₂ h₁ h₂
  have hapart : ∀ r ∈ rules₁, r ∉ rules₂ :=
    fun r hr₁ hr₂ => (keyed_append.mp hkeyed).2.2 r hr₁ r hr₂ rfl
  rintro (hold | ⟨rules₁', h₁', hsame⟩ | ⟨rules₂', h₂', hsame⟩)
  · exact hnot fun r => (hboth r).symm.trans (hold r)
  · cases h₁.symm.trans h₁'
    refine hne₂ (List.eq_nil_iff_forall_not_mem.mpr fun r hr => ?_)
    exact hapart r ((hsame r).mp ((hboth r).mpr (List.mem_append_right _ hr))) hr
  · cases h₂.symm.trans h₂'
    refine hne₁ (List.eq_nil_iff_forall_not_mem.mpr fun r hr => ?_)
    exact hapart r hr ((hsame r).mp ((hboth r).mpr (List.mem_append_left _ hr)))

theorem twoUpdates_updaters (hid : id ∈ db.store.routeIds) (c₁ c₂ : UpdateCall) :
    (twoUpdates schema id db c₁ c₂).Pair (Updaters schema id db.store c₁ c₂) := by
  have hsound : ∀ c : UpdateCall, (InFlight.begin (UpdateCall.body schema id) db.store c :
      Running UpdateCall (Option Exc)).Sound updating (Planned schema id db.store) db.store :=
    fun c => InFlight.sound_begin (update_concludes db.valid hid c)
  have hnot : ∀ c : UpdateCall, ¬ Sweeping id
      (InFlight.begin (UpdateCall.body schema id) db.store c : Running UpdateCall (Option Exc)) :=
    fun c => List.not_mem_nil
  exact ⟨_, _, rfl, .inl ⟨rfl, rfl⟩, updating.refl _, hsound c₁, hsound c₂, fun _ => ⟨rfl, rfl⟩,
    fun _ => ⟨rfl, rfl⟩, fun r hr => absurd hr List.not_mem_nil, fun _ _ =>
    ⟨rfl, fun hs => absurd hs (hnot c₁), fun hs => absurd hs (hnot c₂)⟩⟩

/-- Two updates with something that an update's move keeps. -/
theorem updaters_step {w w' : Sessions UpdateCall (Option Exc)} {i : Nat}
    {I C : Database → Running UpdateCall (Option Exc) → Running UpdateCall (Option Exc) → Prop}
    (hrel : eng.Reliable) (hv : s₀.Valid) (hid : id ∈ s₀.routeIds)
    (hI : ∀ db p q, I db p q → I db q p) (hC : ∀ db p q, C db p q → C db q p)
    (hadv : ∀ db p q db' gone p', Updaters schema id s₀ c₁ c₂ db p q → I db p q → C db p q →
      p.outcome = none → (readCommitted eng).Advanced q.held db p db' gone p' →
      I db' p' (q.strike gone))
    (h : w.Pair fun db p q => Updaters schema id s₀ c₁ c₂ db p q ∧ I db p q)
    (hcond : ∀ p q, w = ⟨w.db, [p, q]⟩ → C w.db p q)
    (hmove : (readCommitted eng).move w i = some w') :
    w'.Pair fun db p q => Updaters schema id s₀ c₁ c₂ db p q ∧ I db p q := by
  refine Isolation.pair_step (fun db p q h => ⟨h.1.symm, hI db p q h.2⟩) hC ?_ h hcond hmove
  intro db p q db' gone p' ⟨hupdaters, hpq⟩ hc hout hp
  exact ⟨(hupdaters.advance hrel hv hid hout hp).2,
    hadv db p q db' gone p' hupdaters hpq hc hout hp⟩

/-- What holds of two updates holds after every run of theirs. -/
theorem twoUpdates_run (hrel : eng.Reliable) (hid : id ∈ db.store.routeIds) {is : List Nat}
    {w : Sessions UpdateCall (Option Exc)}
    (hrun : run (readCommitted eng).move (twoUpdates schema id db c₁ c₂) is = some w) :
    w.Pair (Updaters schema id db.store c₁ c₂) := by
  have hkept : w.Pair fun db' p q => Updaters schema id db.store c₁ c₂ db' p q ∧ True := by
    refine run_keeps (P := fun _ _ => True) ?_ (along_of_forall fun _ _ => trivial) hrun
      ((twoUpdates_updaters hid c₁ c₂).imp fun p => Exists.imp fun q h => ⟨h.1, h.2, trivial⟩)
    exact fun _ _ _ h _ hmove => updaters_step (C := fun _ _ _ => True) hrel db.valid hid
      (fun _ _ _ h => h) (fun _ _ _ h => h) (fun _ _ _ _ _ _ _ h _ _ _ => h) h
      (fun _ _ _ => trivial) hmove
  exact hkept.imp fun p => Exists.imp fun q h => ⟨h.1, h.2.1⟩

/-- From an overlap on, each update misses the rules of the other one. -/
theorem unsettled_of_overlap (hrel : eng.Reliable) (hv : s₀.Valid) (hid : id ∈ s₀.routeIds)
    {is : List Nat} {w w' : Sessions UpdateCall (Option Exc)}
    (hupdaters : w.Pair (Updaters schema id s₀ c₁ c₂)) (hmix : Mixes schema id s₀ c₁ c₂)
    (hoverlap : Overlap id w) (hrun : run (readCommitted eng).move w is = some w')
    (hdone : w'.Done) : ¬ RulesSettled schema id s₀ c₁ c₂ (w'.db.store.rulesOf id) := by
  have hmixing : w'.Pair fun db p q => Updaters schema id s₀ c₁ c₂ db p q ∧
      Mixing schema id s₀ db p q := by
    obtain ⟨p, q, hsessions, hupdaters⟩ := hupdaters
    rw [Overlap, hsessions] at hoverlap
    obtain ⟨hp, hsp⟩ := hoverlap p (by simp)
    obtain ⟨hq, hsq⟩ := hoverlap q (by simp)
    refine run_keeps (P := fun _ _ => True) ?_ (along_of_forall fun _ _ => trivial) hrun
      ⟨p, q, hsessions, hupdaters, .inl ⟨hp, hq, hsp, hsq⟩⟩
    exact fun _ _ _ h _ hmove => updaters_step (C := fun _ _ _ => True) hrel hv hid
      (fun _ _ _ h => h.symm) (fun _ _ _ h => h)
      (fun _ _ _ _ _ _ hu h _ hout hadv =>
        mixing_advance hu hrel hv hid (hu.mixes_iff.mpr hmix) h hout hadv) h
      (fun _ _ _ => trivial) hmove
  obtain ⟨p, q, hsessions, hupdaters, hmixing⟩ := hmixing
  rw [World.Done, hsessions] at hdone
  have hp : p.outcome ≠ none := hdone p (by simp)
  have hq : q.outcome ≠ none := hdone q (by simp)
  intro hsettled
  rcases hmixing with ⟨hp', -⟩ | ⟨hp', -⟩ | ⟨hq', -⟩ | ⟨-, -, hrules⟩
  · exact hp hp'
  · exact hp hp'
  · exact hq hq'
  · exact (hupdaters.mixes_iff.mpr hmix).not_settled hrules (hupdaters.settled_iff.mpr hsettled)

/-- Without an overlap of documents that mix, the rules are settled in the end. -/
theorem settled_of_apart (hrel : eng.Reliable) (hid : id ∈ db.store.routeIds) {is : List Nat}
    {w : Sessions UpdateCall (Option Exc)}
    (hno : Along (readCommitted eng).move
      (fun w _ => Mixes schema id db.store c₁ c₂ → ¬ Overlap id w)
      (twoUpdates schema id db c₁ c₂) is)
    (hrun : run (readCommitted eng).move (twoUpdates schema id db c₁ c₂) is = some w)
    (hdone : w.Done) : RulesSettled schema id db.store c₁ c₂ (w.db.store.rulesOf id) := by
  have hunmixed : w.Pair fun db' p q => Updaters schema id db.store c₁ c₂ db' p q ∧
      Unmixed schema id db.store db' p q := by
    obtain ⟨p, q, hsessions, hupdaters⟩ : (twoUpdates schema id db c₁ c₂).Pair _ :=
      twoUpdates_updaters hid c₁ c₂
    cases hsessions
    refine run_keeps (P := fun w _ => Mixes schema id db.store c₁ c₂ → ¬ Overlap id w) ?_ hno
      hrun ⟨_, _, rfl, hupdaters, ?_⟩
    · refine fun w i w' h hno hmove => updaters_step
        (C := fun db' p q => Mixes schema id db.store c₁ c₂ → ¬ Overlap id ⟨db', [p, q]⟩)
        hrel db.valid hid (fun _ _ _ h => h.symm)
        (fun db p q h hmix hover => h hmix fun r hr => hover r ?_)
        (fun _ _ _ _ _ _ hu h hno hout hadv => unmixed_advance hu hrel db.valid hid h
          (fun hmix => hno (hu.mixes_iff.mp hmix)) hout hadv) h (fun p q hw => hw ▸ hno) hmove
      simp only [List.mem_cons, List.not_mem_nil, or_false] at hr ⊢
      exact hr.symm
    · exact ⟨fun _ hq => absurd rfl hq, fun _ hp => absurd rfl hp, fun hp => absurd rfl hp⟩
  obtain ⟨p, q, hsessions, hupdaters, h⟩ := hunmixed
  rw [World.Done, hsessions] at hdone
  exact hupdaters.settled_iff.mp (h.final (hdone p (by simp)) (hdone q (by simp)))

end Pair

/-- **Two updates of one route.** Let two updates run side by side to their ends, in any
interleaving. The rules are the old ones or those of one document exactly when the
documents do not mix, or at no moment both deletes have started and neither update has
ended. -/
theorem rulesSettled_iff (eng : Engine) (hrel : eng.Reliable) (schema : Json.Schema)
    (db : Database) (id : String) (hid : id ∈ db.store.routeIds) (c₁ c₂ : UpdateCall)
    (is : List Nat) (w : Sessions UpdateCall (Option Exc))
    (hrun : run (readCommitted eng).move (twoUpdates schema id db c₁ c₂) is = some w)
    (hdone : w.Done) :
    RulesSettled schema id db.store c₁ c₂ (w.db.store.rulesOf id) ↔
      (Mixes schema id db.store c₁ c₂ →
        Along (readCommitted eng).move (fun w _ => ¬ Overlap id w)
          (twoUpdates schema id db c₁ c₂) is) := by
  constructor
  · intro hsettled hmix
    refine along_iff.mpr ?_
    intro is₁ i is₂ w₁ hsplit hrun₁ hoverlap
    obtain ⟨w₁', hrun₁', hrest⟩ := run_append.mp (hsplit ▸ hrun)
    obtain rfl : w₁ = w₁' := Option.some.inj (hrun₁.symm.trans hrun₁')
    exact unsettled_of_overlap hrel db.valid hid (twoUpdates_run hrel hid hrun₁) hmix hoverlap
      hrest hdone hsettled
  · intro hno
    exact settled_of_apart hrel hid (along_of_imp hno) hrun hdone

/-- An update whose document lets one user in. -/
def allowing (uid : String) : UpdateCall :=
  ⟨.answered ⟨200, .ok (.obj [("version", .str "1"),
    ("allowed", .obj [("users", .arr [.str uid])]), ("disallowed", .obj [])])⟩, 5⟩

/-- A route that lets Carol in. -/
def carolAllowed : Database := .load
  [.addUser alice, .addUser { id := "2", uid := some "bob" },
    .addUser { id := "3", uid := some "carol" }, .addDomain openDomain, .addRoute appRoute,
    .addRule ⟨"r", "3", .allow⟩]

/-- One update lets Alice in and the other one Bob, by the statements each one's turn has. -/
def aliceOrBob (is : List Nat) : Sessions UpdateCall (Option Exc) :=
  (run (readCommitted .sqlite).move
    (twoUpdates authorizationSchema "r" carolAllowed (allowing "alice") (allowing "bob")) is).getD
    (twoUpdates authorizationSchema "r" carolAllowed (allowing "alice") (allowing "bob"))

theorem aliceOrBob_mixes :
    Mixes authorizationSchema "r" carolAllowed.store (allowing "alice") (allowing "bob") := by
  refine ⟨[⟨"r", "1", .allow⟩], [⟨"r", "2", .allow⟩], rfl, rfl, by decide, by decide, by decide,
    fun h => ?_⟩
  have hcarol : (⟨"r", "3", .allow⟩ : Rule) ∈ carolAllowed.store.rulesOf "r" := by decide
  exact absurd ((h _).mpr hcarol) (by decide)

/-- Bob's update starts when Alice's has ended. -/
def bobAfterAlice : List Nat := List.replicate 11 0 ++ List.replicate 11 1

theorem bobAfterAlice_settled :
    RulesSettled authorizationSchema "r" carolAllowed.store (allowing "alice") (allowing "bob")
      ((aliceOrBob bobAfterAlice).db.store.rulesOf "r") := by
  refine (rulesSettled_iff .sqlite Engine.sqlite_reliable authorizationSchema carolAllowed "r"
    (by decide) (allowing "alice") (allowing "bob") bobAfterAlice (aliceOrBob bobAfterAlice) rfl
    ?_).mpr fun _ => ?_
  · have hended : ∀ p ∈ (aliceOrBob bobAfterAlice).sessions, p.outcome.isSome = true := by decide
    exact fun p hp => Option.isSome_iff_ne_none.mp (hended p hp)
  · -- at each moment one update has ended or not started to delete
    have hapart : ∀ is ∈ bobAfterAlice.inits, ∃ p ∈ (aliceOrBob is).sessions,
        p.outcome.isSome = true ∨ Change.deleteRules "r" ∉ p.passed := by decide
    refine along_iff.mpr ?_
    intro is₁ i is₂ w₁ hsplit hrun₁ hoverlap
    have hw : aliceOrBob is₁ = w₁ := by
      unfold aliceOrBob
      rw [hrun₁]
      rfl
    obtain ⟨p, hp, hended | hs⟩ := hapart is₁ ((List.mem_inits _ _).mpr ⟨i :: is₂, hsplit.symm⟩)
    · rw [hw] at hp
      exact Option.isSome_iff_ne_none.mp hended (hoverlap p hp).1
    · rw [hw] at hp
      exact hs (hoverlap p hp).2

/-- Both updates delete before one commits. -/
def bobBesideAlice : List Nat :=
  List.replicate 6 0 ++ List.replicate 6 1 ++ List.replicate 5 0 ++ List.replicate 5 1

/-- Alice and Bob are both let in, which neither document asks for. -/
theorem bobBesideAlice_unsettled :
    run (readCommitted .sqlite).move
        (twoUpdates authorizationSchema "r" carolAllowed (allowing "alice") (allowing "bob"))
        bobBesideAlice = some (aliceOrBob bobBesideAlice) ∧
      (aliceOrBob bobBesideAlice).sessions.map InFlight.outcome =
        [some (.ok none), some (.ok none)] ∧
      (aliceOrBob bobBesideAlice).db.store.rulesOf "r" =
        [⟨"r", "1", .allow⟩, ⟨"r", "2", .allow⟩] ∧
      ¬ RulesSettled authorizationSchema "r" carolAllowed.store (allowing "alice") (allowing "bob")
        ((aliceOrBob bobBesideAlice).db.store.rulesOf "r") := by
  have hrules : (aliceOrBob bobBesideAlice).db.store.rulesOf "r" =
      [⟨"r", "1", .allow⟩, ⟨"r", "2", .allow⟩] := by decide
  have halice : carolAllowed.store.refreshed authorizationSchema "r" (allowing "alice").fetch =
      .ok [⟨"r", "1", .allow⟩] := rfl
  have hbob : carolAllowed.store.refreshed authorizationSchema "r" (allowing "bob").fetch =
      .ok [⟨"r", "2", .allow⟩] := rfl
  refine ⟨rfl, rfl, hrules, aliceOrBob_mixes.not_settled fun rules₁ rules₂ h₁ h₂ r => ?_⟩
  rw [hrules, ← Except.ok.inj (halice.symm.trans h₁), ← Except.ok.inj (hbob.symm.trans h₂)]
  rfl

end RouteRegistry
