import RouteRegistry.Registry.Ownership

/-!
# Generated names and restricted domains

`register_route` refuses to create routes in a restricted domain, but it goes by the
domain record the request names, while the `src` it generates is a concatenation of an
unchecked route name with that domain's value. `Enters` says, about the two values and
the name alone, when the `src` generated in one domain is one that the other generates.
-/

namespace Text

/-- A path as it stands after an authority. -/
def rooted (path : List Char) : List Char :=
  if path ≠ [] ∧ path.take 1 ≠ ['/'] then '/' :: path else path

theorem mem_rooted {path : List Char} {c : Char} (h : c ∈ path) : c ∈ rooted path := by
  unfold rooted
  split
  · exact List.mem_cons_of_mem _ h
  · exact h

/-- A rooted path is empty or starts with a slash. -/
theorem rooted_eq_nil_or (path : List Char) : rooted path = [] ∨ (rooted path).take 1 = ['/'] := by
  unfold rooted
  split
  · exact .inr rfl
  · rename_i h
    by_cases hp : path = []
    · exact .inl hp
    · exact .inr (by simpa [hp] using h)

theorem rooted_of {path : List Char} (h : path = [] ∨ path.take 1 = ['/']) :
    rooted path = path := by
  unfold rooted
  rw [if_neg]
  rintro ⟨hne, htake⟩
  exact h.elim hne htake

theorem rooted_toList (path : String) :
    (if path ≠ "" ∧ path.toList.take 1 ≠ ['/'] then "/" ++ path else path).toList =
      rooted path.toList := by
  unfold rooted
  rw [apply_ite String.toList, String.toList_append]
  simp

theorem urlunparse_toList (netloc path : String) :
    (urlunparse "https" netloc path).toList =
      "https://".toList ++ (netloc.toList ++ rooted path.toList) := by
  unfold urlunparse
  rw [← rooted_toList]
  simp

end Text

namespace RouteRegistry

open Text

/-! ## URLs of a domain -/

/-- Host and path of a name under a domain value, when names are paths. -/
def hostAndPath (value name : List Char) : List Char := value ++ rooted name

theorem Domain.urlOf_bound (d : Domain) (name : String) :
    (d.urlOf name true).toList =
      "https://".toList ++ (name.toList ++ '.' :: d.value.toList ++ ['/']) := by
  unfold Domain.urlOf
  rw [urlunparse_toList]
  simp [rooted]

theorem Domain.urlOf_path (d : Domain) (name : String) :
    (d.urlOf name false).toList = "https://".toList ++ hostAndPath d.value.toList name.toList := by
  unfold Domain.urlOf hostAndPath
  rw [urlunparse_toList]
  rfl

/-- The names a domain forms: those of users contain the hyphen after the uid. -/
def Domain.Forms (d : Domain) (name : List Char) : Prop := d.domainType = .user → '-' ∈ name

instance (d : Domain) (name : List Char) : Decidable (d.Forms name) :=
  inferInstanceAs (Decidable (_ → _))

/-- What `create_src_url` can generate in a domain that is not ephemeral. -/
theorem Domain.exists_createSrcUrl {d : Domain} (hd : d.domainType ≠ .ephemeral) {bind : Bool}
    {src : String} :
    (∃ n v uuid, d.createSrcUrl n v bind uuid = .ok src) ↔
      ∃ name, d.Forms name.toList ∧ d.urlOf name bind = src := by
  unfold Domain.Forms
  cases ht : d.domainType with
  | ephemeral => exact absurd ht hd
  | standard =>
    simp only [Domain.createSrcUrl, ht, reduceCtorEq, false_implies, true_and]
    constructor
    · rintro ⟨n, -, -, h⟩
      exact ⟨n, Except.ok.inj h⟩
    · rintro ⟨name, h⟩
      exact ⟨name, none, "", congrArg Except.ok h⟩
  | user =>
    simp only [Domain.createSrcUrl, ht, true_implies]
    constructor
    · rintro ⟨n, v, -, h⟩
      cases v with
      | none => cases h
      | some v => exact ⟨_, by simp, Except.ok.inj h⟩
    · rintro ⟨name, hmem, h⟩
      -- the part before a hyphen can be a uid
      obtain ⟨pre, post, hname⟩ := List.append_of_mem hmem
      refine ⟨String.ofList post, some { id := "", uid := some (String.ofList pre) }, "", ?_⟩
      have : Text.fieldText (some (String.ofList pre)) ++ "-" ++ String.ofList post = name := by
        apply String.toList_inj.mp
        simp [hname]
      rw [← h, ← this]

/-! ## Entering a restricted domain -/

/-- A name `a` under the value `dv` as subdomains: `R` forms the same host when its
value, with a dot before it, ends that host, and forms what stands in front. -/
def EntersHost (R : Domain) (dv a : List Char) : Prop :=
  ('.' :: R.value.toList) <:+ (a ++ '.' :: dv) ∧
    R.Forms ((a ++ '.' :: dv).take (a.length + dv.length - R.value.toList.length))

/-- A name `a` under the value `dv` as paths: `R` forms the same URL when its value
starts it, a path (or nothing) follows, and `R` forms that path. -/
def EntersPath (R : Domain) (dv a : List Char) : Prop :=
  R.value.toList <+: hostAndPath dv a ∧
    let rest := (hostAndPath dv a).drop R.value.toList.length
    (rest = [] ∨ rest.take 1 = ['/']) ∧ R.Forms rest

/-- The name `a` in the domain `D` is also a name in `R`. -/
def Enters (D R : Domain) (a : String) : Bool → Prop
  | true => EntersHost R D.value.toList a.toList
  | false => EntersPath R D.value.toList a.toList

instance (R : Domain) (dv a : List Char) : Decidable (EntersHost R dv a) :=
  inferInstanceAs (Decidable (_ ∧ _))

theorem entersHost_iff {R : Domain} {dv a : List Char} :
    EntersHost R dv a ↔
      ∃ b, R.Forms b ∧ b ++ '.' :: R.value.toList = a ++ '.' :: dv := by
  unfold EntersHost
  have hfront : ∀ b, b ++ '.' :: R.value.toList = a ++ '.' :: dv →
      (a ++ '.' :: dv).take (a.length + dv.length - R.value.toList.length) = b := by
    intro b hb
    have hlen := congrArg List.length hb
    simp only [List.length_append, List.length_cons] at hlen
    rw [← hb, show a.length + dv.length - R.value.toList.length = b.length by omega]
    exact List.take_left
  constructor
  · rintro ⟨⟨b, hb⟩, hforms⟩
    rw [hfront b hb] at hforms
    exact ⟨b, hforms, hb⟩
  · rintro ⟨b, hforms, hb⟩
    rw [hfront b hb]
    exact ⟨⟨b, hb⟩, hforms⟩

theorem forms_rooted {R : Domain} {rest : List Char} :
    (∃ b, R.Forms b ∧ rooted b = rest) ↔
      (rest = [] ∨ rest.take 1 = ['/']) ∧ R.Forms rest := by
  constructor
  · rintro ⟨b, hforms, rfl⟩
    exact ⟨rooted_eq_nil_or b, fun ht => mem_rooted (hforms ht)⟩
  · rintro ⟨hrest, hforms⟩
    exact ⟨rest, hforms, rooted_of hrest⟩

theorem entersPath_iff {R : Domain} {dv a : List Char} :
    EntersPath R dv a ↔
      ∃ b, R.Forms b ∧ hostAndPath R.value.toList b = hostAndPath dv a := by
  unfold EntersPath
  generalize hostAndPath dv a = url
  unfold hostAndPath
  simp only [← forms_rooted]
  constructor
  · rintro ⟨⟨rest, hrest⟩, b, hforms, hb⟩
    refine ⟨b, hforms, ?_⟩
    rw [hb, ← hrest, List.drop_left]
  · rintro ⟨b, hforms, hb⟩
    exact ⟨⟨rooted b, hb⟩, b, hforms, by rw [← hb, List.drop_left]⟩

/-- `Enters` is about generated URLs. -/
theorem enters_iff {D R : Domain} {a : String} {bind : Bool} :
    Enters D R a bind ↔
      ∃ name : String, R.Forms name.toList ∧ R.urlOf name bind = D.urlOf a bind := by
  have hlift : ∀ (p : List Char → Prop), (∃ b, p b) ↔ ∃ name : String, p name.toList := by
    intro p
    constructor
    · rintro ⟨b, hb⟩
      exact ⟨String.ofList b, by simpa using hb⟩
    · rintro ⟨name, h⟩
      exact ⟨_, h⟩
  cases bind with
  | true =>
    rw [Enters, entersHost_iff, hlift]
    refine exists_congr fun name => and_congr_right fun _ => ?_
    rw [← String.toList_inj, Domain.urlOf_bound, Domain.urlOf_bound,
      List.append_cancel_left_eq, List.append_cancel_right_eq]
  | false =>
    rw [Enters, entersPath_iff, hlift]
    refine exists_congr fun name => and_congr_right fun _ => ?_
    rw [← String.toList_inj, Domain.urlOf_path, Domain.urlOf_path, List.append_cancel_left_eq]

/-! ## Registrations -/

/-- **When the restriction holds.** A route that a call creates through `D` has a `src`
that no name and user generate in the restricted domain `R`, exactly when the name does
not enter `R`. -/
theorem registerRoute_avoids_iff (eng : Engine) (db db' : Database) (reg : Registration)
    (draws : Draws) (r : Route) (D R : Domain) (u : User)
    (hcall : registerRoute eng reg draws db = .ok r db') (hstored : r ∈ db'.store.routes)
    (hnew : r.id ∉ db.store.routeIds) (hD : db.store.domainFor reg.domainName = .ok D)
    (hu : db.store.userOf (some reg.userUid) = some u) (hR : R.domainType ≠ .ephemeral) :
    (∀ n v uuid, R.createSrcUrl n v reg.bindSubdomain uuid ≠ .ok r.src) ↔
      ¬ Enters D R (D.finalName reg.routeName u draws.nameId) reg.bindSubdomain := by
  have hsrc : r.src = D.urlOf (D.finalName reg.routeName u draws.nameId) reg.bindSubdomain := by
    generalize hs' : db'.store = s' at hstored
    have hreg := registerRoute_ok hcall
    rw [hs'] at hreg
    cases hreg with
    | rebound hres hr hown hret =>
      refine absurd ?_ hnew
      rw [← Store.routeIds_withAttrs]
      exact List.mem_map.mpr ⟨r, hstored, rfl⟩
    | created hres hr hd hret hfresh =>
      obtain rfl : D = _ := Except.ok.inj (hD.symm.trans hres.domain)
      obtain rfl : u = _ := Option.some.inj (hu.symm.trans hres.user)
      rw [hret, hres.url]
      rfl
    | dropped hc hcs => exact absurd (List.mem_map.mpr ⟨r, hstored, rfl⟩) hnew
  rw [enters_iff, ← Domain.exists_createSrcUrl hR, hsrc]
  push Not
  rfl

/-- A restricted domain below the open one. -/
def secret : Domain :=
  { id := "s", name := "secret", value := "secret.example.com", restricted := true }

def nestedDomains : Database := .load [.addUser alice, .addDomain openDomain, .addDomain secret]

/-- Alice registers `name` as a subdomain of the open domain. -/
def subdomain (name : String) : Registration := ⟨"alice", name, none, "tunnel", true, none⟩

def someDraws : Draws := ⟨0, "r", "t", ""⟩

theorem registerRoute_avoids_app :
    let call := registerRoute .sqlite (subdomain "app") someDraws
    let r := newRoute openDomain "https://app.example.com/" (subdomain "app") someDraws
    call nestedDomains = .ok r (call.after nestedDomains) ∧
      ∀ n v uuid, secret.createSrcUrl n v true uuid ≠ .ok "https://app.example.com/" := by
  intro call r
  have hcall : call nestedDomains = .ok r (call.after nestedDomains) := rfl
  have hnot : ¬ EntersHost secret "example.com".toList "app".toList := by decide
  exact ⟨hcall, (registerRoute_avoids_iff .sqlite nestedDomains (call.after nestedDomains)
    (subdomain "app") someDraws r openDomain secret alice hcall (by decide) (by decide) rfl rfl
    (by decide)).mpr hnot⟩

/-- A name with a dot reaches the restricted domain through the open one. -/
theorem registerRoute_enters_secret :
    ¬ ∀ (eng : Engine) (db db' : Database) (reg : Registration) (draws : Draws) (r : Route)
        (D R : Domain), registerRoute eng reg draws db = .ok r db' → r ∈ db'.store.routes →
      r.id ∉ db.store.routeIds → db.store.domainFor reg.domainName = .ok D →
      D.restricted = false → R ∈ db.store.domains → R.restricted = true →
      D.domainType ≠ .ephemeral → R.domainType ≠ .ephemeral →
      ∀ n v uuid, R.createSrcUrl n (some v) reg.bindSubdomain uuid ≠ .ok r.src := by
  intro h
  exact h .sqlite nestedDomains
    ((registerRoute .sqlite (subdomain "app.secret") someDraws).after nestedDomains)
    (subdomain "app.secret") someDraws
    (newRoute openDomain "https://app.secret.example.com/" (subdomain "app.secret") someDraws)
    openDomain secret rfl (by decide) (by decide) rfl rfl (by decide) rfl (by decide) (by decide)
    "app" alice "" rfl

end RouteRegistry
