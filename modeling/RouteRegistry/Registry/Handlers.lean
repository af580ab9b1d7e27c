import RouteRegistry.Registry.Api
import RouteRegistry.Registry.SetDefault
import RouteRegistry.Registry.Communities

/-!
# Missing records (`internal/`, `routers/`)

An endpoint whose record is not stored should answer 404. The repositories, the unit of
work and the services each have a `NotFound` of their own, and `services` a
`DomainNotFound` besides; the handlers take `services.NotFound` only, or nothing at all.
On its way from the query to the handler each of the six exceptions here ends as one that
no clause takes (`missing_unanswered`).
-/

namespace RouteRegistry

open UnitOfWork

/-! ## Handlers -/

/-- `except NotFound: raise HTTPException(status_code=404)`, with the phrase of the code for
its detail. -/
def orNotFound (call : Service Unit) : Service Unit :=
  reraise .notFound (httpException 404 "Not Found") call

/-- `PUT /admin/domain/default/{domain_id}`. -/
def DomainRouter.makeDefaultDomain (eng : Engine) (domainId : String) : Service Unit :=
  orNotFound (setDefaultDomain eng domainId)

/-- `DELETE /admin/domain/{domain_id}`. -/
def DomainRouter.delete (eng : Engine) (domainId : String) : Service Unit :=
  orNotFound (removeDomain eng domainId)

/-- `DELETE /admin/users/{uid}`. -/
def UserRouter.delete (eng : Engine) (uid : String) : Service Unit :=
  orNotFound (removeUser eng uid)

/-- `DELETE /admin/groups/{name}`. -/
def GroupRouter.delete (eng : Engine) (name : String) : Service Unit :=
  orNotFound (removeGroup eng name)

/-- `DELETE /community/{id_or_name}`, which has no `except` clause. -/
def CommunityRouter.remove (eng : Engine) (user : User) (idOrName : String) : Service Unit :=
  removeUserCommunity eng user idOrName

/-- A request that addresses a record. -/
inductive Request where
  | makeDefaultDomain (domainId : String)
  | deleteDomain (domainId : String)
  | deleteUser (uid : String)
  | deleteGroup (name : String)
  | deleteCommunity (user : User) (idOrName : String)
  | register (config : UrlConfig) (user : User) (data : RegistrationRequest) (draws : Draws)

/-- The handler of a request; what it returns is not looked at. -/
def Request.handle (eng : Engine) : Request → Service Unit
  | makeDefaultDomain domainId => DomainRouter.makeDefaultDomain eng domainId
  | deleteDomain domainId => DomainRouter.delete eng domainId
  | deleteUser uid => UserRouter.delete eng uid
  | deleteGroup name => GroupRouter.delete eng name
  | deleteCommunity user idOrName => CommunityRouter.remove eng user idOrName
  | register config user data draws => do
    let _ ← RouteRegistry.register eng config user data draws

/-- The record that a request addresses is not stored: for a community, there is none of the
caller's, and for a registration, neither the named domain nor a default. -/
def Request.Missing (s : Store) : Request → Prop
  | makeDefaultDomain domainId => domainId ∉ s.domainIds
  | deleteDomain domainId => domainId ∉ s.domainIds
  | deleteUser uid => s.userOf (some uid) = none
  | deleteGroup name => s.groupOf name = none
  | deleteCommunity user idOrName => ∀ u, s.userOf user.uid = some u →
    ∀ c ∈ s.communities, c.entityId = u.id → c.id ≠ idOrName ∧ c.name ≠ idOrName
  | register _ _ data _ => (∀ d ∈ s.domains, some d.name ≠ data.domainName) ∧
    ∀ d ∈ s.domains, d.default = false

/-- The handler answers 404, and the store is as it was. -/
def Request.AnswersNotFound (eng : Engine) (req : Request) (db : Database) : Prop :=
  ∃ detail, req.handle eng db = .error (httpException 404 detail) db

/-! ## What escapes -/

section Reraise

variable {α : Type} {call : Service α} {db : Database} {e : Exc}

theorem reraise_of_error (cls : ExcClass) (new : Exc) (h : call db = .error e db) :
    reraise cls new call db = .error (if e.isInstance cls then new else e) db := by
  show EStateM.tryCatch call _ db = _
  unfold EStateM.tryCatch
  rw [h]
  rfl

end Reraise

section Missing

variable {eng : Engine} {db : Database}

theorem makeDefaultDomain_missing {domainId : String} (h : domainId ∉ db.store.domainIds) :
    DomainRouter.makeDefaultDomain eng domainId db =
      .error ⟨.domainNotFound, s!"Unable to find domain with id {domainId}", none⟩ db := by
  have hrun := run_setDefaultDomainBody db.store domainId
  rw [if_neg h] at hrun
  exact reraise_of_error _ _ (withUOW_raised hrun)

theorem deleteDomain_missing {domainId : String} (h : domainId ∉ db.store.domainIds) :
    DomainRouter.delete eng domainId db =
      .error ⟨.domainNotFound, s!"Unable to find domain {domainId}", none⟩ db := by
  have hrun := DomainRepo.run_remove db.valid domainId
  rw [if_neg h] at hrun
  exact reraise_of_error _ _ (reraise_of_error _ _ (withUOW_raised hrun))

theorem deleteUser_missing {uid : String} (h : db.store.userOf (some uid) = none) :
    UserRouter.delete eng uid db =
      .error ⟨.lib .attributeError, "'str' object has no attribute 'uid'", none⟩ db := by
  have hrun := EntityRepo.run_removeUser db.valid uid
  rw [h] at hrun
  exact reraise_of_error _ _ (reraise_of_error _ _ (withUOW_raised hrun))

theorem deleteGroup_missing {name : String} (h : db.store.groupOf name = none) :
    GroupRouter.delete eng name db =
      .error ⟨.lib .attributeError, "'str' object has no attribute 'name'", none⟩ db := by
  have hrun := EntityRepo.run_removeGroup db.valid name
  rw [h] at hrun
  exact reraise_of_error _ _ (reraise_of_error _ _ (withUOW_raised hrun))

/-- `next(…, None)` has no `id`; a caller who is not stored is a `NotFound` that escapes. -/
theorem deleteCommunity_missing (eng : Engine) {user : User} {idOrName : String}
    (h : (Request.deleteCommunity user idOrName).Missing db.store) :
    ∃ e, e.statusCode = none ∧ CommunityRouter.remove eng user idOrName db = .error e db := by
  cases hu : db.store.userOf user.uid with
  | none =>
    have hrun : (removeUserCommunityBody eng user idOrName).run db.store = (.error _, []) :=
      Txn.run_bind_error (EntityRepo.run_getUser_none db.valid hu)
    exact ⟨_, rfl, reraise_of_error _ _ (withUOW_raised hrun)⟩
  | some u =>
    have hnone : db.store.candidate eng u idOrName = none := by
      refine Option.eq_none_iff_forall_ne_some.mpr fun c hfound => ?_
      obtain ⟨hc, howner, hkey⟩ := Store.candidate_mem hfound
      obtain ⟨hid, hname⟩ := h u hu c hc howner
      exact hkey.elim hid hname
    have hrun := run_removeUserCommunityBody_none db.valid hu hnone
    exact ⟨_, rfl, reraise_of_error _ _ (withUOW_raised hrun)⟩

/-- Without the named domain and without a default the repository's `NotFound` is raised. -/
theorem findDomain_missing {s : Store} {domainName : Option String}
    (hname : ∀ d ∈ s.domains, some d.name ≠ domainName)
    (hdefault : ∀ d ∈ s.domains, d.default = false) :
    (findDomain domainName).run s =
      (.error ⟨.repoNotFound, "Unable to find default domain", none⟩, []) := by
  have hnamed : (s.domains.filter fun d => decide (some d.name = domainName)) = [] :=
    List.filter_eq_nil_iff.mpr fun d hd => by simpa using hname d hd
  have hdefaults : s.domains.filter Domain.default = [] :=
    List.filter_eq_nil_iff.mpr fun d hd => by simp [hdefault d hd]
  have hget : (DomainRepo.getByName domainName).run s = (.ok none, []) := by
    show (scalarOneOrNone (s.domains.filter fun d => decide (some d.name = domainName))).run s = _
    rw [hnamed]
    rfl
  have hgetDefault : (queryOne Store.domains Domain.default).run s = (.ok none, []) := by
    show (scalarOneOrNone (s.domains.filter Domain.default)).run s = _
    rw [hdefaults]
    rfl
  unfold findDomain
  rw [Txn.run_bind_pure hget]
  show (DomainRepo.getDefault).run s = _
  unfold DomainRepo.getDefault
  rw [Txn.run_bind_pure hgetDefault]
  rfl

theorem registerRoute_missing {reg : Registration} {draws : Draws}
    (hname : ∀ d ∈ db.store.domains, some d.name ≠ reg.domainName)
    (hdefault : ∀ d ∈ db.store.domains, d.default = false) :
    registerRoute eng reg draws db =
      .error ⟨.repoNotFound, "Unable to find default domain", none⟩ db := by
  have hrun : (registerRouteBody reg draws).run db.store = (.error _, []) :=
    Txn.run_bind_error (findDomain_missing hname hdefault)
  exact withUOW_raised hrun

/-- What a commit raises has no status code, and no clause of `register` takes it. -/
theorem commitHandler_passes {c : CommitError} {e : Exc} (h : commitHandler c = some e) :
    e.statusCode = none ∧ registerError e = e := by
  cases c with
  | integrityError orig msg =>
    simp only [commitHandler] at h
    split at h
    · cases h
      exact ⟨rfl, rfl⟩
    · cases h
  | notFound msg =>
    cases h
    exact ⟨rfl, rfl⟩
  | other msg =>
    cases h
    exact ⟨rfl, rfl⟩

/-- What the lookup of the community raises is no 404, and passes the clauses of `register`. -/
theorem registrationCommunity_passes (eng : Engine) (user : User) (name : Option String)
    (db : Database) :
    (∃ community, registrationCommunity eng user name db = .ok community db) ∨
      ∃ e, e.statusCode ≠ some 404 ∧ registerError e = e ∧
        registrationCommunity eng user name db = .error e db := by
  rcases registrationCommunity_cases eng user name db with
    ⟨community, hok, -⟩ | ⟨e, herror, ⟨detail, rfl⟩ | ⟨msg, rfl⟩ | ⟨c, hc⟩⟩
  · exact .inl ⟨community, hok⟩
  · exact .inr ⟨_, by simp [httpException], rfl, herror⟩
  · exact .inr ⟨_, by simp, rfl, herror⟩
  · obtain ⟨hcode, hpasses⟩ := commitHandler_passes hc
    exact .inr ⟨e, by simp [hcode], hpasses, herror⟩

/-- The lookup of the community may raise or answer 400; otherwise that of the domain raises
what no clause takes. -/
theorem register_missing (eng : Engine) (config : UrlConfig) (user : User)
    {data : RegistrationRequest} (draws : Draws)
    (hname : ∀ d ∈ db.store.domains, some d.name ≠ data.domainName)
    (hdefault : ∀ d ∈ db.store.domains, d.default = false) :
    ∃ e, e.statusCode ≠ some 404 ∧ register eng config user data draws db = .error e db := by
  have hcall : ∀ {e : Exc}, (do
        let community ← registrationCommunity eng user data.communityName
        registerRoute eng ⟨Text.fieldText user.uid, data.name, data.domainName, config.tunnelUrl,
          config.bindSubdomain, community⟩ draws : Service Route) db = .error e db →
      register eng config user data draws db = .error (registerError e) db := by
    intro e h
    show EStateM.tryCatch _ _ db = _
    unfold EStateM.tryCatch
    rw [h]
    rfl
  rcases registrationCommunity_passes eng user data.communityName db with
    ⟨community, hcomm⟩ | ⟨e, hcode, hpasses, hcomm⟩
  · refine ⟨_, ?_, hcall ((Service.bind_of_ok hcomm).trans
      (registerRoute_missing hname hdefault))⟩
    decide
  · refine ⟨_, ?_, hcall (Service.bind_of_error hcomm)⟩
    rw [hpasses]
    exact hcode

end Missing

theorem not_answersNotFound {eng : Engine} {req : Request} {db db' : Database} {e : Exc}
    (hcode : e.statusCode ≠ some 404) (h : req.handle eng db = .error e db') :
    ¬ req.AnswersNotFound eng db := by
  rintro ⟨detail, hanswer⟩
  rw [h] at hanswer
  cases hanswer
  exact hcode rfl

/-- **A missing record is never answered 404.** Whichever of the six requests addresses a
record that is not stored, its handler raises something else. The store is as it was. -/
theorem missing_unanswered (eng : Engine) (db : Database) (req : Request)
    (h : req.Missing db.store) :
    ¬ req.AnswersNotFound eng db ∧
      ∃ e, e.statusCode ≠ some 404 ∧ req.handle eng db = .error e db := by
  have hescapes : ∃ e, e.statusCode ≠ some 404 ∧ req.handle eng db = .error e db := by
    cases req with
    | makeDefaultDomain domainId => exact ⟨_, by simp, makeDefaultDomain_missing h⟩
    | deleteDomain domainId => exact ⟨_, by simp, deleteDomain_missing h⟩
    | deleteUser uid => exact ⟨_, by simp, deleteUser_missing h⟩
    | deleteGroup name => exact ⟨_, by simp, deleteGroup_missing h⟩
    | deleteCommunity user idOrName =>
      obtain ⟨e, hcode, hraised⟩ := deleteCommunity_missing eng h
      exact ⟨e, by simp [hcode], hraised⟩
    | register config user data draws =>
      obtain ⟨e, hcode, hraised⟩ :=
        register_missing eng config user draws h.1 h.2
      exact ⟨e, hcode, Service.bind_of_error hraised⟩
  obtain ⟨e, hcode, hraised⟩ := hescapes
  exact ⟨not_answersNotFound hcode hraised, e, hcode, hraised⟩

theorem deleteUser_bob_unanswered :
    (Request.deleteUser "bob").Missing oneRoute.store ∧
      ¬ (Request.deleteUser "bob").AnswersNotFound .sqlite oneRoute := by
  have hmissing : oneRoute.store.userOf (some "bob") = none := by decide
  exact ⟨hmissing, (missing_unanswered .sqlite oneRoute (.deleteUser "bob") hmissing).1⟩

/-- A registry with one user, and no domain yet. -/
def noDomain : Database := .load [.addUser alice]

/-- What escapes the handlers: `DomainNotFound` (twice), two `except` clauses that read an
attribute of a string, a read of `None.id`, and the repository's `NotFound`. -/
theorem missing_escapes :
    "x" ∉ oneRoute.store.domainIds ∧
      ¬ (Request.makeDefaultDomain "x").AnswersNotFound .sqlite oneRoute ∧
      (Request.makeDefaultDomain "x").handle .sqlite oneRoute =
        .error ⟨.domainNotFound, "Unable to find domain with id x", none⟩ oneRoute ∧
      (Request.deleteDomain "x").handle .sqlite oneRoute =
        .error ⟨.domainNotFound, "Unable to find domain x", none⟩ oneRoute ∧
      (Request.deleteUser "bob").handle .sqlite oneRoute =
        .error ⟨.lib .attributeError, "'str' object has no attribute 'uid'", none⟩ oneRoute ∧
      (Request.deleteGroup "team").handle .sqlite oneRoute =
        .error ⟨.lib .attributeError, "'str' object has no attribute 'name'", none⟩ oneRoute ∧
      (Request.deleteCommunity alice "club").handle .sqlite oneRoute =
        .error (noneAttributeError "id") oneRoute ∧
      (Request.register ⟨"tunnel", false⟩ alice { name := "app" } ⟨0, "r", "t", ""⟩).handle
          .sqlite noDomain =
        .error ⟨.repoNotFound, "Unable to find default domain", none⟩ noDomain := by
  have hescapes : (Request.makeDefaultDomain "x").handle .sqlite oneRoute =
      .error ⟨.domainNotFound, "Unable to find domain with id x", none⟩ oneRoute := rfl
  exact ⟨by decide, not_answersNotFound (by simp) hescapes, hescapes, rfl, rfl, rfl, rfl, rfl⟩

end RouteRegistry
