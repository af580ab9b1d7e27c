import RouteRegistry.Registry.NameRace
import RouteRegistry.Registry.Urls

/-!
# The names of two users

In a user's domain `create_src_url` puts the uid, a hyphen and the route name in a row, and
uids and names may contain hyphens themselves. `Clash` says of two uids, as they stand in a
URL, and two names when the rows are the same. Then, and only then, the URLs are, and a
registration by one user can make `register_route` refuse the other one's
(`userNames_disjoint_iff`).
-/

namespace RouteRegistry

open Relational

/-- A uid as it stands in a URL. A path starts with a slash, which it gets where it has none. -/
def uidInUrl (bindSubdomain : Bool) (uid : List Char) : List Char :=
  if bindSubdomain then uid
  else if uid.head? = some '/' then uid
  else '/' :: uid

/-- One pair is the other, or the hyphen behind one uid stands inside the other one. -/
def Clash (p q m n : List Char) : Prop :=
  (p = q ∧ m = n) ∨ (∃ w, q = p ++ '-' :: w ∧ m = w ++ '-' :: n) ∨
    ∃ w, p = q ++ '-' :: w ∧ n = w ++ '-' :: m

/-- `register_route` refuses the call because of somebody else's route. -/
def RefusedAsTaken (eng : Engine) (reg : Registration) (draws : Draws) (db : Database) : Prop :=
  registerRoute eng reg draws db = .error ⟨.notAllowed, "Route already taken", none⟩ db

/-- The call registers `name` for `u` in `d`. -/
structure CallsFor (s : Store) (d : Domain) (bindSubdomain : Bool) (u : User) (name : String)
    (reg : Registration) (draws : Draws) (src : String) : Prop where
  resolves : Resolves s reg draws d u src
  name : reg.routeName = name
  layout : reg.bindSubdomain = bindSubdomain

/-! ## The URLs of a user's domain -/

/-- Around the uid, the hyphen and the name a URL has the same text for all users. -/
theorem Domain.urlOf_user (d : Domain) (bindSubdomain : Bool) : ∃ pre post : List Char,
    ∀ uid name : String, (d.urlOf (uid ++ "-" ++ name) bindSubdomain).toList =
      pre ++ ((uidInUrl bindSubdomain uid.toList ++ '-' :: name.toList) ++ post) := by
  cases bindSubdomain with
  | true =>
    refine ⟨"https://".toList, '.' :: d.value.toList ++ ['/'], fun uid name => ?_⟩
    rw [Domain.urlOf_bound]
    simp [uidInUrl]
  | false =>
    refine ⟨"https://".toList ++ d.value.toList, [], fun uid name => ?_⟩
    rw [Domain.urlOf_path]
    have happ : (uid ++ "-" ++ name).toList = uid.toList ++ '-' :: name.toList := by simp
    rw [happ, List.append_nil, List.append_assoc, List.append_cancel_left_eq]
    -- the hyphen keeps the first character of the row that of the uid
    have hhead : (uid.toList ++ '-' :: name.toList).take 1 = ['/'] ↔
        uid.toList.head? = some '/' := by
      cases uid.toList <;> simp
    unfold hostAndPath uidInUrl Text.rooted
    simp only [ne_eq, hhead, Bool.false_eq_true, if_false]
    by_cases hslash : uid.toList.head? = some '/'
    · simp [hslash]
    · simp [hslash]

theorem urlOf_user_eq_iff (d : Domain) (bindSubdomain : Bool) (p q m n : String) :
    d.urlOf (p ++ "-" ++ m) bindSubdomain = d.urlOf (q ++ "-" ++ n) bindSubdomain ↔
      Clash (uidInUrl bindSubdomain p.toList) (uidInUrl bindSubdomain q.toList)
        m.toList n.toList := by
  obtain ⟨pre, post, hurl⟩ := d.urlOf_user bindSubdomain
  rw [← String.toList_inj, hurl, hurl, List.append_cancel_left_eq, List.append_cancel_right_eq]
  exact Text.joined_eq_iff

theorem CallsFor.src_eq {s : Store} {d : Domain} (hd : d.domainType = .user)
    {bindSubdomain : Bool} {u : User} {name : String} {reg : Registration} {draws : Draws}
    {src : String} (h : CallsFor s d bindSubdomain u name reg draws src) :
    src = d.urlOf (Text.fieldText u.uid ++ "-" ++ name) bindSubdomain := by
  rw [← h.resolves.url, h.name, h.layout]
  unfold Domain.finalName
  rw [hd]

/-! ## Refused calls -/

section Refused

variable {eng : Engine} {db : Database} {reg : Registration} {draws : Draws} {d : Domain}
  {u : User} {src : String}

/-- What a refused call came upon: a stored route with its `src` that is not the caller's. -/
theorem RefusedAsTaken.route (h : RefusedAsTaken eng reg draws db)
    (hres : Resolves db.store reg draws d u src) :
    ∃ r ∈ db.store.routes, r.src = src ∧ u.id ∉ db.store.owners r.id := by
  rcases withUOW_error_cases h with ⟨Δ, hrun⟩ | ⟨c, hc⟩
  · have hbody := registerRouteBody_registers db.valid reg draws
    rw [hrun] at hbody
    generalize hexc : (Except.error ⟨.notAllowed, "Route already taken", none⟩ :
      Except Exc Route) = res at hbody
    cases hbody with
    | unresolved hnone => exact absurd hres (hnone _ _ _)
    | taken hres' hr hown =>
      obtain ⟨-, rfl, rfl⟩ := hres.unique hres'
      obtain ⟨hmem, hsrc⟩ := Store.routeOfSrc_mem hr
      exact ⟨_, hmem, hsrc, hown⟩
    | rebound => cases hexc
    | restricted => exact absurd hexc (by simp)
    | created => cases hexc
  · -- a commit that fails raises one of the unit of work's own exceptions
    cases c with
    | integrityError orig msg =>
      simp only [commitHandler] at hc
      split at hc <;> cases hc
    | notFound msg => cases hc
    | other msg => cases hc

/-- The routes after a call are those before it, with the owners they had, apart from one with
the `src` that the call generates. -/
theorem registerRoute_other_src (eng : Engine) (hres : Resolves db.store reg draws d u src)
    {r : Route} (hr : r ∈ ((registerRoute eng reg draws).after db).store.routes)
    (hsrc : r.src ≠ src) :
    ∃ r₀ ∈ db.store.routes, r₀.src = r.src ∧
      db.store.owners r₀.id = ((registerRoute eng reg draws).after db).store.owners r.id := by
  rcases registerRoute_after_cases eng reg draws db with hsame | ⟨r', db', -, hreg⟩
  · rw [hsame] at hr ⊢
    exact ⟨r, hr, rfl, rfl⟩
  generalize ((registerRoute eng reg draws).after db).store = s' at hr hreg ⊢
  cases hreg with
  | rebound hres' hr₀ hown hret =>
    rw [Store.owners_withAttrs]
    rcases mem_modify.mp hr with ⟨hmem, -⟩ | ⟨r₁, hmem, hid, rfl⟩
    · exact ⟨r, hmem, rfl, rfl⟩
    · exact ⟨r₁, hmem, (RouteAttr.setAll_src _ r₁).symm, by rw [RouteAttr.setAll_id]⟩
  | created hres' hnone hd hret hfresh =>
    obtain ⟨-, -, rfl⟩ := hres.unique hres'
    rcases List.mem_append.mp hr with hmem | hmem
    · refine ⟨r, hmem, rfl, ?_⟩
      rw [Store.owners_withRoute, if_neg]
      rintro hid
      exact hfresh.1 (hid ▸ List.mem_map_of_mem hmem)
    · obtain rfl := List.mem_singleton.mp hmem
      exact absurd (by rw [hret]; rfl) hsrc
  | dropped hc hcs => exact ⟨r, hr, rfl, rfl⟩

/-- A call resolves alike after another call. -/
theorem Resolves.after_registerRoute (eng : Engine) (reg' : Registration) (draws' : Draws)
    (hres : Resolves db.store reg draws d u src) :
    Resolves ((registerRoute eng reg' draws').after db).store reg draws d u src := by
  have hdomain : ∀ s : Store, s.domains = db.store.domains →
      s.domainFor reg.domainName = .ok d :=
    fun s h => (Store.domainFor_congr h _).trans hres.domain
  rcases registerRoute_after_cases eng reg' draws' db with hsame | ⟨r', db', -, hreg⟩
  · rw [hsame]
    exact hres
  generalize ((registerRoute eng reg' draws').after db).store = s' at hreg ⊢
  cases hreg with
  | rebound => exact ⟨hdomain _ rfl, hres.user, hres.url⟩
  | created => exact ⟨hdomain _ rfl, hres.user, hres.url⟩
  | dropped => exact hres

end Refused

/-- The route name `m` of `u` and `n` of `v` do not meet: their URLs differ, and no call that
registers the one makes `register_route` refuse the other. -/
def KeepApart (d : Domain) (bindSubdomain : Bool) (u v : User) (m n : String) : Prop :=
  (∀ x y, d.createSrcUrl m (some u) bindSubdomain x ≠ d.createSrcUrl n (some v) bindSubdomain y) ∧
  ∀ eng (db : Database) reg draws src reg' draws' src',
    CallsFor db.store d bindSubdomain u m reg draws src →
    CallsFor db.store d bindSubdomain v n reg' draws' src' →
    RefusedAsTaken eng reg' draws' ((registerRoute eng reg draws).after db) →
    RefusedAsTaken eng reg' draws' db

/-- **When two users' names are disjoint.** In a user's domain the route names of two users
keep apart exactly when their pairs of uid and name do not clash. -/
theorem userNames_disjoint_iff (d : Domain) (hd : d.domainType = .user) (bindSubdomain : Bool)
    (u v : User) (m n : String) :
    KeepApart d bindSubdomain u v m n ↔
      ¬ Clash (uidInUrl bindSubdomain (Text.fieldText u.uid).toList)
        (uidInUrl bindSubdomain (Text.fieldText v.uid).toList) m.toList n.toList := by
  rw [← urlOf_user_eq_iff]
  have hsrc : ∀ (w : User) (name uuid : String), d.createSrcUrl name (some w) bindSubdomain uuid =
      .ok (d.urlOf (Text.fieldText w.uid ++ "-" ++ name) bindSubdomain) := by
    intro w name uuid
    unfold Domain.createSrcUrl
    rw [hd]
  constructor
  · rintro ⟨hdiffer, -⟩ hsame
    apply hdiffer "" ""
    rw [hsrc, hsrc, hsame]
  · intro hdiffer
    refine ⟨fun x y h => ?_, ?_⟩
    · rw [hsrc, hsrc] at h
      exact hdiffer (Except.ok.inj h)
    · intro eng db reg draws src reg' draws' src' hcall hcall' hrefused
      obtain ⟨r, hr, hrsrc, hown⟩ :=
        hrefused.route (hcall'.resolves.after_registerRoute eng reg draws)
      have hne : r.src ≠ src := by
        rw [hrsrc, hcall.src_eq hd, hcall'.src_eq hd]
        exact Ne.symm hdiffer
      obtain ⟨r₀, hr₀, hrsrc₀, howners⟩ :=
        registerRoute_other_src eng hcall.resolves hr hne
      refine registerRoute_taken eng hcall'.resolves hr₀ (hrsrc₀.trans hrsrc) ?_
      rw [howners]
      exact hown

/-- A domain with a namespace for each user. -/
def home : Domain :=
  { id := "h", name := "home", value := "example.com", domainType := .user, default := true }

def aliceDev : User := { id := "2", uid := some "alice-dev" }

def sharedHome : Database := .load [.addUser alice, .addUser aliceDev, .addDomain home]

theorem home_app_keepsApart :
    home.domainType = .user ∧ KeepApart home true alice aliceDev "app" "app" := by
  refine ⟨rfl, (userNames_disjoint_iff home rfl true alice aliceDev "app" "app").mpr ?_⟩
  rw [← urlOf_user_eq_iff home]
  decide

/-- A call by `uid`, for a subdomain of the default domain. -/
def registers (uid name : String) : Registration := ⟨uid, name, none, "tunnel", true, none⟩

/-- The user `alice-dev` takes a name of Alice's away. -/
theorem home_clash :
    alice.uid ≠ aliceDev.uid ∧
      home.createSrcUrl "dev-app" (some alice) true "" =
        home.createSrcUrl "app" (some aliceDev) true "" ∧
      ¬ RefusedAsTaken .sqlite (registers "alice" "dev-app") ⟨1, "q", "u", ""⟩ sharedHome ∧
      RefusedAsTaken .sqlite (registers "alice" "dev-app") ⟨1, "q", "u", ""⟩
        ((registerRoute .sqlite (registers "alice-dev" "app") someDraws).after sharedHome) := by
  refine ⟨by decide, by decide, ?_, rfl⟩
  intro h
  have hok : registerRoute .sqlite (registers "alice" "dev-app") ⟨1, "q", "u", ""⟩ sharedHome =
      .ok (newRoute home "https://alice-dev-app.example.com/" (registers "alice" "dev-app")
        ⟨1, "q", "u", ""⟩)
        ((registerRoute .sqlite (registers "alice" "dev-app") ⟨1, "q", "u", ""⟩).after
          sharedHome) := rfl
  unfold RefusedAsTaken at h
  rw [hok] at h
  cases h

end RouteRegistry
