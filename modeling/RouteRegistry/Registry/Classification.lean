import RouteRegistry.Registry.Documents

/-!
# The status an update leaves

- `Store.statusFor`: the status that the outcome of a fetch calls for, read off the
  outcome and the stored names alone.
- `Store.outcome`: the status `update_route` leaves and whether it raises
  (`updateRoute_outcome`).
- `updateRoute_classifies_iff`: the outcomes on which the two agree. They disagree where
  an exception is none of those the `except` clauses name, which leaves the status the
  route had.
-/

namespace RouteRegistry

open Relational

instance (s : Store) (authz : Authorization) : Decidable (AllStored s authz) :=
  decidable_of_iff
    ((∀ uid ∈ authz.allowed.uids, ∃ u ∈ s.users, u.uid = some uid) ∧
      (∀ uid ∈ authz.disallowed.uids, ∃ u ∈ s.users, u.uid = some uid) ∧
      (∀ name ∈ authz.allowed.groupNames, ∃ g ∈ s.groups, g.name = some name) ∧
      ∀ name ∈ authz.disallowed.groupNames, ∃ g ∈ s.groups, g.name = some name)
    ⟨fun ⟨h₁, h₂, h₃, h₄⟩ => ⟨h₁, h₂, h₃, h₄⟩, fun h => ⟨h.1, h.2, h.3, h.4⟩⟩

/-- `requests` could not connect. -/
def LibExc.isConnectionFailure (e : LibExc) : Prop := e = .connectionError ∨ e = .connectTimeout

instance (e : LibExc) : Decidable e.isConnectionFailure := inferInstanceAs (Decidable (_ ∨ _))

/-- The names of a document, whether its sections are present or not. -/
def namesOf (data : Json) : Authorization := documentOf data .null

/-- The status the outcome of a fetch calls for. -/
def Store.statusFor (s : Store) : Fetch → Status
  | .unsent _ => .serverError
  | .failed e => if e.isConnectionFailure then .down else .serverError
  | .answered r =>
    if r.isHttpError then .serverError
    else
      match r.json with
      | .error _ => .serverError
      | .ok data =>
        if authorizationSchema.accepts data then
          if AllStored s (namesOf data) then .up else .missingEntity
        else .misconfigured

/-- The outcomes of a fetch on which an update of a route with status `previous` leaves
the status they call for. -/
def Classified (s : Store) (previous : Status) : Fetch → Prop
  | .unsent e => previous = .serverError ∧ e ≠ .validationError
  | .failed e => e.isConnectionFailure ∨ previous = .serverError ∧ e ≠ .validationError
  | .answered r =>
    r.isHttpError = true ∨
      match r.json with
      | .error e => previous = .serverError ∧ e ≠ .validationError
      | .ok data =>
        authorizationSchema.accepts data = false ∨
          if hasSection data "allowed" ∧ hasSection data "disallowed" then
            AllStored s (namesOf data) → NoRepeats (namesOf data) ∧ NoConflict (namesOf data)
          else ¬ AllStored s (namesOf data) ∧ previous = .missingEntity

/-! ## What an update leaves -/

/-- The status an update leaves on a route that had `previous`, and whether it raises. -/
def Store.outcome (s : Store) (id : String) (previous : Status) (fetch : Fetch) : Status × Bool :=
  match s.refreshed authorizationSchema id fetch with
  | .ok rules => if Keyed Rule.entityId rules then (.up, false) else (previous, true)
  | .error e => ((failureStatus e).getD previous, true)

theorem Store.status_withAttrs {s : Store} {id : String} {r : Route} (h : s.routeOf id = some r)
    (as : List RouteAttr) :
    ((s.withAttrs id as).routeOf id).map Route.status =
      some (RouteAttr.setAll as r).status := by
  show (lookup Route.id id (modify Route.id id (RouteAttr.setAll as) s.routes)).map _ = _
  rw [lookup_modify_self (RouteAttr.setAll_id as),
    show lookup Route.id id s.routes = some r from h]
  rfl

/-- An update of a stored route leaves its outcome. -/
theorem updateRoute_outcome {eng : Engine} (hrel : eng.Reliable) {db : Database} {r : Route}
    (hr : db.store.routeOf r.id = some r) (fetch : Fetch) (now : Time) :
    (((updateRoute eng authorizationSchema r.id fetch now).after db).store.routeOf r.id).map
        Route.status = some (db.store.outcome r.id r.status fetch).1 ∧
      ((∃ e db', updateRoute eng authorizationSchema r.id fetch now db = .error e db') ↔
        (db.store.outcome r.id r.status fetch).2 = true) := by
  have heq := updateRoute_eq hrel authorizationSchema fetch now
    (Store.mem_routeIds_iff.mpr ⟨r, hr⟩)
  have hsame : (db.store.routeOf r.id).map Route.status = some r.status := by
    rw [hr]
    rfl
  unfold Service.after Store.outcome
  cases href : db.store.refreshed authorizationSchema r.id fetch with
  | ok rules =>
    rw [href] at heq
    change if Keyed Rule.entityId rules then _ else _ at heq
    by_cases hk : Keyed Rule.entityId rules
    · rw [if_pos hk] at heq
      obtain ⟨db', hcall, hdb⟩ := heq
      rw [hcall]
      simp only [hk, if_true, hdb]
      exact ⟨Store.status_withAttrs (s := db.store.withRules r.id rules) hr _, by simp⟩
    · rw [if_neg hk] at heq
      obtain ⟨msg, hcall⟩ := heq
      rw [hcall]
      simp only [hk, if_false]
      exact ⟨hsame, by simp⟩
  | error e =>
    rw [href] at heq
    cases hst : failureStatus e with
    | some st =>
      simp only [hst] at heq
      obtain ⟨db', hcall, hdb⟩ := heq
      rw [hcall]
      simp only [hst, hdb]
      exact ⟨Store.status_withAttrs hr _, by simp⟩
    | none =>
      simp only [hst] at heq
      rw [heq]
      simp only [hst]
      exact ⟨hsame, by simp⟩

/-! ## The exceptions of a fetch -/

/-- An exception of a library passes the client's clauses; `update_route` knows only
`ValidationError`. -/
theorem failureStatus_libExc (e : LibExc) :
    failureStatus (authorizationError (libExc e)) =
      if e = .validationError then some .misconfigured else none := by
  cases e <;> rfl

/-- What `session.send` raises ends as `DOWN` when it is a connection error. -/
theorem failureStatus_failed (e : LibExc) :
    ∃ exc, getAuthorization (.failed e) = .error exc ∧
      failureStatus exc =
        if e.isConnectionFailure then some .down
        else if e = .validationError then some .misconfigured else none := by
  cases e <;> exact ⟨_, rfl, rfl⟩

theorem refreshed_of_fetch_error {s : Store} {schema : Json.Schema} {id : String} {fetch : Fetch}
    {e : Exc} (h : getAuthorization fetch = .error e) : s.refreshed schema id fetch = .error e := by
  unfold Store.refreshed
  rw [h]
  rfl

theorem getAuthorization_httpError {r : Response} (h : r.isHttpError = true) :
    ∃ e, getAuthorization (.answered r) = .error e ∧ failureStatus e = some .serverError := by
  have hprocess : process (.answered r) = .error (handleError r) := if_pos h
  have hkept : authorizationError (handleError r) = handleError r := rfl
  refine ⟨handleError r, ?_, rfl⟩
  simp only [getAuthorization, hprocess, hkept]

theorem getAuthorization_json {r : Response} (h : r.isHttpError = false) :
    getAuthorization (.answered r) =
      match r.json with
      | .error e => .error (authorizationError (libExc e))
      | .ok data => .ok data := by
  have hprocess : process (.answered r) = .ok r := if_neg (by simp [h])
  cases hjson : r.json with
  | error e => simp only [getAuthorization, hprocess, hjson]
  | ok data => simp only [getAuthorization, hprocess, hjson]

/-- The refresh of a document that came through. -/
theorem refreshed_of_fetch_ok {s : Store} {id : String} {fetch : Fetch} {data : Json}
    (h : getAuthorization fetch = .ok data) :
    s.refreshed authorizationSchema id fetch =
      if authorizationSchema.accepts data then
        Authorization.ofData data >>= s.ruleSet id
      else .error ⟨.lib .validationError, "instance does not satisfy the schema", none⟩ := by
  unfold Store.refreshed
  rw [h]
  cases hacc : authorizationSchema.accepts data with
  | true => simp [validate, hacc, bind, Except.bind]
  | false => simp [validate, hacc, bind, Except.bind]

/-- A document with both sections, refreshed. -/
theorem outcome_of_sections {s : Store} (id : String) (previous : Status) (hv : s.Valid)
    {fetch : Fetch} {data : Json} (h : getAuthorization fetch = .ok data)
    (hacc : authorizationSchema.accepts data = true)
    (hsections : hasSection data "allowed" ∧ hasSection data "disallowed") :
    (AllStored s (namesOf data) → NoRepeats (namesOf data) → NoConflict (namesOf data) →
        s.outcome id previous fetch = (.up, false)) ∧
      (AllStored s (namesOf data) → NoRepeats (namesOf data) → ¬ NoConflict (namesOf data) →
        s.outcome id previous fetch = (previous, true)) ∧
      (¬ (AllStored s (namesOf data) ∧ NoRepeats (namesOf data)) →
        s.outcome id previous fetch = (.missingEntity, true)) := by
  obtain ⟨version, hdoc⟩ := ofData_of_sections hacc hsections.1 hsections.2
  have href : s.refreshed authorizationSchema id fetch =
      s.ruleSet id (documentOf data version) := by
    rw [refreshed_of_fetch_ok h, if_pos hacc, hdoc]
    rfl
  have hstored : AllStored s (namesOf data) ↔ AllStored s (documentOf data version) :=
    ⟨fun h => ⟨h.1, h.2, h.3, h.4⟩, fun h => ⟨h.1, h.2, h.3, h.4⟩⟩
  have hrepeats : NoRepeats (namesOf data) ↔ NoRepeats (documentOf data version) :=
    ⟨fun h => ⟨h.1, h.2, h.3, h.4⟩, fun h => ⟨h.1, h.2, h.3, h.4⟩⟩
  have hconflict : NoConflict (namesOf data) ↔ NoConflict (documentOf data version) :=
    ⟨fun h => ⟨h.1, h.2⟩, fun h => ⟨h.1, h.2⟩⟩
  rw [hstored, hrepeats, hconflict, ← ruleSet_ok_iff hv id]
  unfold Store.outcome
  rw [href]
  refine ⟨fun hs hn hc => ?_, fun hs hn hc => ?_, fun hnone => ?_⟩
  · obtain ⟨rules, hset⟩ := (ruleSet_ok_iff hv id).mpr ⟨hs, hn⟩
    simp [hset, (keyed_ruleSet_iff hv hset).mpr hc]
  · obtain ⟨rules, hset⟩ := (ruleSet_ok_iff hv id).mpr ⟨hs, hn⟩
    have hk : ¬ Keyed Rule.entityId rules := fun hk => hc ((keyed_ruleSet_iff hv hset).mp hk)
    simp [hset, hk]
  · cases hset : s.ruleSet id (documentOf data version) with
    | ok rules => exact absurd ⟨rules, hset⟩ hnone
    | error e =>
      have hcls := Store.ruleSet_error hset
      have hst : failureStatus e = some .missingEntity := by
        simp [failureStatus, Exc.isInstance, hcls, ExcClass.mro]
      simp [hst]

/-- A document without one of its sections raises `KeyError`, which no clause takes. -/
theorem outcome_of_missing_section {s : Store} {id : String} {fetch : Fetch} {data : Json}
    {previous : Status} (h : getAuthorization fetch = .ok data)
    (hacc : authorizationSchema.accepts data = true)
    (hsections : ¬ (hasSection data "allowed" ∧ hasSection data "disallowed")) :
    s.outcome id previous fetch = (previous, true) := by
  obtain ⟨msg, hdoc⟩ := ofData_of_missing hacc hsections
  unfold Store.outcome
  rw [refreshed_of_fetch_ok h, if_pos hacc, hdoc]
  rfl

theorem outcome_of_error {s : Store} {id : String} {fetch : Fetch} {previous : Status} {e : Exc}
    (h : getAuthorization fetch = .error e) :
    s.outcome id previous fetch = ((failureStatus e).getD previous, true) := by
  unfold Store.outcome
  rw [refreshed_of_fetch_error h]

theorem outcome_of_rejected {s : Store} {id : String} {fetch : Fetch} {data : Json}
    {previous : Status} (h : getAuthorization fetch = .ok data)
    (hacc : authorizationSchema.accepts data = false) :
    s.outcome id previous fetch = (.misconfigured, true) := by
  unfold Store.outcome
  rw [refreshed_of_fetch_ok h, hacc]
  rfl

/-- Where an exception passes all clauses, the status is right only by luck. -/
theorem classified_unhandled {e : LibExc} {previous : Status} :
    (((if e = .validationError then some Status.misconfigured else none).getD previous =
        .serverError) ∧ (true = true ↔ Status.serverError ≠ .up)) ↔
      previous = .serverError ∧ e ≠ .validationError := by
  by_cases he : e = .validationError
  · simp [he]
  · simp [he]

/-- For a document that satisfies the schema the outcome is the one called for when both
sections are there and no entity is named twice, or by luck. -/
theorem outcome_eq_iff_of_accepted {s : Store} (hv : s.Valid) (id : String) (previous : Status)
    {fetch : Fetch} {data : Json} (h : getAuthorization fetch = .ok data)
    (hacc : authorizationSchema.accepts data = true) :
    let called : Status := if AllStored s (namesOf data) then .up else .missingEntity
    ((s.outcome id previous fetch).1 = called ∧
        ((s.outcome id previous fetch).2 = true ↔ called ≠ .up)) ↔
      if hasSection data "allowed" ∧ hasSection data "disallowed" then
        AllStored s (namesOf data) → NoRepeats (namesOf data) ∧ NoConflict (namesOf data)
      else ¬ AllStored s (namesOf data) ∧ previous = .missingEntity := by
  intro called
  by_cases hsections : hasSection data "allowed" ∧ hasSection data "disallowed"
  · rw [if_pos hsections]
    obtain ⟨hup, hclash, hmissing⟩ := outcome_of_sections id previous hv h hacc hsections
    by_cases hs : AllStored s (namesOf data)
    · by_cases hn : NoRepeats (namesOf data)
      · by_cases hc : NoConflict (namesOf data)
        · rw [hup hs hn hc]
          simp [called, hs, hn, hc]
        · rw [hclash hs hn hc]
          simp [called, hs, hn, hc]
      · rw [hmissing fun h => hn h.2]
        simp [called, hs, hn]
    · rw [hmissing fun h => hs h.1]
      simp [called, hs]
  · rw [if_neg hsections, outcome_of_missing_section h hacc hsections]
    by_cases hs : AllStored s (namesOf data)
    · simp [called, hs]
    · simp [called, hs]

/-- The outcome of an update is the one called for on the classified fetches. -/
theorem outcome_eq_iff {s : Store} (hv : s.Valid) (id : String) (previous : Status)
    (fetch : Fetch) :
    ((s.outcome id previous fetch).1 = s.statusFor fetch ∧
        ((s.outcome id previous fetch).2 = true ↔ s.statusFor fetch ≠ .up)) ↔
      Classified s previous fetch := by
  cases fetch with
  | unsent e =>
    rw [outcome_of_error (show getAuthorization (.unsent e) = _ from rfl), failureStatus_libExc]
    exact classified_unhandled
  | failed e =>
    obtain ⟨exc, hget, hst⟩ := failureStatus_failed e
    rw [outcome_of_error hget, hst]
    rw [Store.statusFor, Classified]
    by_cases he : e.isConnectionFailure
    · simp [he]
    · rw [if_neg he, if_neg he]
      exact classified_unhandled.trans (or_iff_right he).symm
  | answered r =>
    cases hhttp : r.isHttpError with
    | true =>
      obtain ⟨exc, hget, hst⟩ := getAuthorization_httpError hhttp
      rw [outcome_of_error hget, hst]
      simp [Store.statusFor, Classified, hhttp]
    | false =>
      have hget := getAuthorization_json hhttp
      simp only [Store.statusFor, Classified, hhttp, Bool.false_eq_true, if_false, false_or]
      cases hjson : r.json with
      | error e =>
        rw [hjson] at hget
        rw [outcome_of_error hget, failureStatus_libExc]
        exact classified_unhandled
      | ok data =>
        rw [hjson] at hget
        simp only
        cases hacc : authorizationSchema.accepts data with
        | false =>
          rw [outcome_of_rejected hget hacc]
          simp
        | true =>
          simp only [if_true, Bool.true_eq_false, false_or]
          exact outcome_eq_iff_of_accepted hv id previous hget hacc

/-- **When the status is classified as called for.** After an update of a stored route,
with a reliable engine, the stored status is the one the outcome of the fetch calls for
and the call raises unless that is `UP`, exactly on the classified outcomes. -/
theorem updateRoute_classifies_iff (eng : Engine) (hrel : eng.Reliable) (db : Database)
    (r : Route) (hr : r ∈ db.store.routes) (fetch : Fetch) (now : Time) :
    ((((updateRoute eng authorizationSchema r.id fetch now).after db).store.routeOf r.id).map
          Route.status = some (db.store.statusFor fetch) ∧
        ((∃ e db', updateRoute eng authorizationSchema r.id fetch now db = .error e db') ↔
          db.store.statusFor fetch ≠ .up)) ↔
      Classified db.store r.status fetch := by
  have hr' : db.store.routeOf r.id = some r :=
    (lookup_eq_some_iff db.valid.routeKeys).mpr ⟨hr, rfl⟩
  obtain ⟨hstatus, hraises⟩ := updateRoute_outcome hrel hr' fetch now
  rw [hstatus, hraises, Option.some_inj]
  exact outcome_eq_iff db.valid r.id r.status fetch

/-- A registry with one route in `UP`. -/
def upRoute : Route := { appRoute with status := .up }

def oneUpRoute : Database := .load
  [.addUser alice, .addDomain openDomain, .addRoute upRoute, .addOwnership ⟨alice.id, upRoute.id⟩]

theorem updateRoute_classifies_missing :
    (((updateRoute .sqlite authorizationSchema "r" (.failed .connectTimeout) 7).after
        oneUpRoute).store.routeOf "r").map Route.status = some .down :=
  ((updateRoute_classifies_iff .sqlite Engine.sqlite_reliable oneUpRoute upRoute (by decide)
    (.failed .connectTimeout) 7).mpr (.inl (.inr rfl))).1

/-- An app that answers with something other than JSON stays `UP`. -/
theorem updateRoute_leaves_up :
    ¬ ∀ (eng : Engine), eng.Reliable → ∀ (db : Database) (r : Route), r ∈ db.store.routes →
      ∀ (fetch : Fetch) (now : Time),
      (((updateRoute eng authorizationSchema r.id fetch now).after db).store.routeOf r.id).map
          Route.status = some (db.store.statusFor fetch) ∧
        ((∃ e db', updateRoute eng authorizationSchema r.id fetch now db = .error e db') ↔
          db.store.statusFor fetch ≠ .up) := by
  intro h
  have hup := (h .sqlite Engine.sqlite_reliable oneUpRoute upRoute (by decide)
    (.answered ⟨200, .error .requestsJSONDecodeError⟩) 7).1
  exact absurd hup (by decide)

end RouteRegistry
