import RouteRegistry.Formats.Url
import RouteRegistry.Registry.Names

/-!
# Where a generated URL leads

`create_src_url` puts a route name that nobody has checked, and in a user's domain the uid
before it, into the host or into the path of a URL, and nothing is escaped on the way. Read
back as a URL the result stays inside the domain exactly when these texts contain no
delimiter that would cut them there (`createSrcUrl_staysInside_iff`).
-/

namespace RouteRegistry

open Url

/-- A plain host name: labels of letters, digits and hyphens with dots between them. -/
def HostName (value : String) : Prop :=
  ∀ label ∈ Text.splitAt '.' value,
    label ≠ "" ∧ ∀ c ∈ label.toList, c.isAlphanum = true ∨ c = '-'

/-- `src` is a URL of the domain that carries the application name: in front of the domain's
host, or as the path below it. -/
def StaysInside (d : Domain) (bindSubdomain : Bool) (appName src : String) : Prop :=
  ∃ u, parse src.toList = some u ∧ u.scheme = "https".toList ∧ u.userinfo = none ∧
    u.port = none ∧ u.query = none ∧ u.fragment = none ∧
    if bindSubdomain then ('.' :: d.value.toList) <:+ u.host ∧ u.path = ['/']
    else u.host = d.value.toList ∧ u.path = '/' :: appName.toList

/-- What is put into the host has no delimiters: the name, and in a user's domain the uid. -/
structure KeepsHost (d : Domain) (uid name : String) : Prop where
  ofName : ∀ c ∈ name.toList, delimits c = false
  ofUid : d.domainType = .user → ∀ c ∈ uid.toList, delimits c = false

/-- What is put into the path does not end it, and is put behind a slash. -/
structure KeepsPath (d : Domain) (uid name : String) : Prop where
  ofName : '?' ∉ name.toList ∧ '#' ∉ name.toList
  ofUid : d.domainType = .user → '?' ∉ uid.toList ∧ '#' ∉ uid.toList
  /-- A path that starts with a slash gets no other. -/
  slash : (if d.domainType = .user then uid else name).toList.head? ≠ some '/'
  /-- An empty path gets no slash. -/
  nonempty : d.domainType = .standard → name ≠ ""

/-! ## Characters of host names -/

theorem delimits_of_alphanum {c : Char} (h : c.isAlphanum = true ∨ c = '-') :
    delimits c = false := by
  rcases h with h | rfl
  · simp only [delimits_eq_false_iff, endsAuthority, Bool.or_eq_false_iff, decide_eq_false_iff_not]
    refine ⟨⟨⟨?_, ?_⟩, ?_⟩, ?_, ?_⟩ <;>
    · rintro rfl
      revert h
      decide
  · decide

theorem HostName.delimits {value : String} (h : HostName value) :
    ∀ c ∈ value.toList, delimits c = false := by
  intro c hc
  rcases Text.mem_splitAt '.' hc with rfl | ⟨label, hlabel, hc⟩
  · decide
  · exact delimits_of_alphanum ((h label hlabel).2 c hc)

/-! ## The two layouts -/

/-- The URL of a subdomain stays inside when the host is not cut in the name. -/
theorem staysInside_bound_iff {d : Domain} (hd : HostName d.value) (name : String) :
    StaysInside d true name (d.urlOf name true) ↔ ∀ c ∈ name.toList, delimits c = false := by
  have hurl : (d.urlOf name true).toList =
      (bare "https".toList (name.toList ++ '.' :: d.value.toList) ['/']).render := by
    rw [Domain.urlOf_bound, render_bare]
    simp
  unfold StaysInside
  rw [hurl]
  constructor
  · rintro ⟨⟨scheme, userinfo, host, port, path, query, fragment⟩, hparse, hparts⟩
    simp only [if_true] at hparts
    obtain ⟨rfl, rfl, rfl, rfl, rfl, -, rfl⟩ := hparts
    obtain ⟨hwf, hdivided⟩ := parse_bare_iff.mp hparse
    obtain ⟨-, hhost, -⟩ := wellFormed_bare_iff.mp hwf
    have hsame : host = name.toList ++ '.' :: d.value.toList := List.append_cancel_right hdivided
    intro c hc
    exact hhost c (hsame ▸ List.mem_append_left _ hc)
  · intro hname
    have hwf : (bare "https".toList (name.toList ++ '.' :: d.value.toList) ['/']).WellFormed := by
      refine wellFormed_bare_iff.mpr ⟨by decide, fun c hc => ?_, by simp [endsAuthority],
        by decide, by decide⟩
      rcases List.mem_append.mp hc with hc | hc
      · exact hname c hc
      · rcases List.mem_cons.mp hc with rfl | hc
        · decide
        · exact hd.delimits c hc
    exact ⟨_, parse_render hwf, rfl, rfl, rfl, rfl, rfl, List.suffix_append _ _, rfl⟩

/-- The URL of a path stays inside when the name does not end the path and gets a slash. -/
theorem staysInside_path_iff {d : Domain} (hd : HostName d.value) (name : String) :
    StaysInside d false name (d.urlOf name false) ↔
      '?' ∉ name.toList ∧ '#' ∉ name.toList ∧ name.toList ≠ [] ∧ name.toList.head? ≠ some '/' := by
  have hurl : (d.urlOf name false).toList =
      (bare "https".toList d.value.toList (Text.rooted name.toList)).render := by
    rw [Domain.urlOf_path, hostAndPath, render_bare]
    simp
  have hrooted : Text.rooted name.toList = '/' :: name.toList ↔
      name.toList ≠ [] ∧ name.toList.head? ≠ some '/' := by
    unfold Text.rooted
    cases name.toList with
    | nil => simp
    | cons c rest =>
      by_cases hc : c = '/' <;> simp [hc]
  unfold StaysInside
  rw [hurl]
  constructor
  · rintro ⟨⟨scheme, userinfo, host, port, path, query, fragment⟩, hparse, hparts⟩
    simp only [Bool.false_eq_true, if_false] at hparts
    obtain ⟨rfl, rfl, rfl, rfl, rfl, rfl, rfl⟩ := hparts
    obtain ⟨hwf, hdivided⟩ := parse_bare_iff.mp hparse
    obtain ⟨-, -, -, hquestion, hhash⟩ := wellFormed_bare_iff.mp hwf
    have hsame : Text.rooted name.toList = '/' :: name.toList :=
      (List.append_cancel_left hdivided).symm
    exact ⟨fun h => hquestion (List.mem_cons_of_mem _ h), fun h => hhash (List.mem_cons_of_mem _ h),
      hrooted.mp hsame⟩
  · rintro ⟨hquestion, hhash, hslash⟩
    rw [hrooted.mpr hslash]
    have hwf : (bare "https".toList d.value.toList ('/' :: name.toList)).WellFormed := by
      refine wellFormed_bare_iff.mpr ⟨by decide, hd.delimits, by simp [endsAuthority], ?_, ?_⟩
      · simpa using hquestion
      · simpa using hhash
    exact ⟨_, parse_render hwf, rfl, rfl, rfl, rfl, rfl, rfl, rfl⟩

/-- A path of two texts with a hyphen between them. -/
theorem hyphened_path_iff (a b : List Char) :
    ('?' ∉ a ++ '-' :: b ∧ '#' ∉ a ++ '-' :: b ∧ a ++ '-' :: b ≠ [] ∧
      (a ++ '-' :: b).head? ≠ some '/') ↔
      ('?' ∉ a ∧ '#' ∉ a) ∧ ('?' ∉ b ∧ '#' ∉ b) ∧ a.head? ≠ some '/' := by
  have hfirst : (a ++ '-' :: b).head? ≠ some '/' ↔ a.head? ≠ some '/' := by
    cases a <;> simp
  rw [hfirst]
  have hmem : ∀ c, c ≠ '-' → (c ∉ a ++ '-' :: b ↔ c ∉ a ∧ c ∉ b) := by
    intro c hc
    simp [hc]
  rw [hmem '?' (by decide), hmem '#' (by decide)]
  constructor
  · rintro ⟨hq, hh, -, hslash⟩
    exact ⟨⟨hq.1, hh.1⟩, ⟨hq.2, hh.2⟩, hslash⟩
  · rintro ⟨ha, hb, hslash⟩
    exact ⟨⟨ha.1, hb.1⟩, ⟨ha.2, hb.2⟩, by simp, hslash⟩

section FinalName

variable {d : Domain} {user : User} {name uuid : String}

theorem finalName_user (ht : d.domainType = .user) :
    (d.finalName name user uuid).toList =
      (Text.fieldText user.uid).toList ++ '-' :: name.toList := by
  simp [Domain.finalName, ht]

theorem finalName_ephemeral (ht : d.domainType = .ephemeral) :
    (d.finalName name user uuid).toList = name.toList ++ '-' :: uuid.toList := by
  simp [Domain.finalName, ht]

theorem finalName_standard (ht : d.domainType = .standard) :
    d.finalName name user uuid = name := by
  simp [Domain.finalName, ht]

theorem keepsHost_iff (huuid : ∀ c ∈ uuid.toList, c.isAlphanum = true ∨ c = '-') :
    (∀ c ∈ (d.finalName name user uuid).toList, delimits c = false) ↔
      KeepsHost d (Text.fieldText user.uid) name := by
  have hhyphen : delimits '-' = false := by decide
  cases ht : d.domainType with
  | standard =>
    rw [finalName_standard ht]
    exact ⟨fun h => ⟨h, by simp [ht]⟩, fun h => h.ofName⟩
  | ephemeral =>
    rw [finalName_ephemeral ht, List.forall_mem_append, List.forall_mem_cons]
    constructor
    · intro h
      exact ⟨h.1, by simp [ht]⟩
    · intro h
      exact ⟨h.ofName, hhyphen, fun c hc => delimits_of_alphanum (huuid c hc)⟩
  | user =>
    rw [finalName_user ht, List.forall_mem_append, List.forall_mem_cons]
    constructor
    · intro h
      exact ⟨h.2.2, fun _ => h.1⟩
    · intro h
      exact ⟨h.ofUid ht, hhyphen, h.ofName⟩

theorem keepsPath_iff (huuid : ∀ c ∈ uuid.toList, c.isAlphanum = true ∨ c = '-') :
    ('?' ∉ (d.finalName name user uuid).toList ∧ '#' ∉ (d.finalName name user uuid).toList ∧
      (d.finalName name user uuid).toList ≠ [] ∧
      (d.finalName name user uuid).toList.head? ≠ some '/') ↔
      KeepsPath d (Text.fieldText user.uid) name := by
  cases ht : d.domainType with
  | standard =>
    rw [finalName_standard ht]
    constructor
    · rintro ⟨hq, hh, hne, hslash⟩
      exact ⟨⟨hq, hh⟩, by simp [ht], by simpa [ht] using hslash, fun _ => by simpa using hne⟩
    · intro h
      exact ⟨h.ofName.1, h.ofName.2, by simpa using h.nonempty ht, by simpa [ht] using h.slash⟩
  | ephemeral =>
    have hquestion : '?' ∉ uuid.toList := fun h => by simpa using huuid _ h
    have hhash : '#' ∉ uuid.toList := fun h => by simpa using huuid _ h
    rw [finalName_ephemeral ht, hyphened_path_iff]
    constructor
    · rintro ⟨hname, -, hslash⟩
      exact ⟨hname, by simp [ht], by simpa [ht] using hslash, by simp [ht]⟩
    · intro h
      exact ⟨h.ofName, ⟨hquestion, hhash⟩, by simpa [ht] using h.slash⟩
  | user =>
    rw [finalName_user ht, hyphened_path_iff]
    constructor
    · rintro ⟨huid, hname, hslash⟩
      exact ⟨hname, fun _ => huid, by simpa [ht] using hslash, by simp [ht]⟩
    · intro h
      exact ⟨h.ofUid ht, h.ofName, by simpa [ht] using h.slash⟩

end FinalName

/-- **When a generated URL stays inside its domain.** For a domain with a plain host name,
what `create_src_url` returns is, read as a URL, one of the domain exactly when the name, and
in a user's domain the uid, have no delimiter that cuts the host they are put into, or end no
path and are put behind a slash. -/
theorem createSrcUrl_staysInside_iff (d : Domain) (hd : HostName d.value) (user : User)
    (name : String) (bindSubdomain : Bool) (uuid : String)
    (huuid : ∀ c ∈ uuid.toList, c.isAlphanum = true ∨ c = '-') :
    (∃ src, d.createSrcUrl name (some user) bindSubdomain uuid = .ok src ∧
        StaysInside d bindSubdomain (d.finalName name user uuid) src) ↔
      if bindSubdomain then KeepsHost d (Text.fieldText user.uid) name
      else KeepsPath d (Text.fieldText user.uid) name := by
  rw [Domain.createSrcUrl_some]
  have hsrc : (∃ src, Except.ok (ε := Exc) (d.urlOf (d.finalName name user uuid) bindSubdomain) =
        .ok src ∧ StaysInside d bindSubdomain (d.finalName name user uuid) src) ↔
      StaysInside d bindSubdomain (d.finalName name user uuid)
        (d.urlOf (d.finalName name user uuid) bindSubdomain) := by
    simp
  rw [hsrc]
  cases bindSubdomain with
  | true =>
    rw [staysInside_bound_iff hd, if_pos rfl, keepsHost_iff huuid]
  | false =>
    rw [staysInside_path_iff hd, if_neg (by decide), keepsPath_iff huuid]

theorem openDomain_hostName : HostName openDomain.value := by
  have hlabels : Text.splitAt '.' openDomain.value = ["example", "com"] := by decide
  intro label hlabel
  rw [hlabels] at hlabel
  rcases List.mem_pair.mp hlabel with rfl | rfl <;>
    exact ⟨by decide, List.forall_iff_forall_mem.mp (by decide)⟩

theorem createSrcUrl_stays_app :
    HostName openDomain.value ∧ ∃ src, openDomain.createSrcUrl "app" (some alice) true "" =
      .ok src ∧ StaysInside openDomain true "app" src :=
  ⟨openDomain_hostName, (createSrcUrl_staysInside_iff openDomain openDomain_hostName alice "app"
    true "" (by simp)).mpr ⟨List.forall_iff_forall_mem.mp (by decide), fun h => by cases h⟩⟩

/-- A name with a slash puts the domain's host into the path: Alice registers a route for
another host. -/
theorem createSrcUrl_leaves_domain :
    HostName openDomain.value ∧
      openDomain.createSrcUrl "other.org/" (some alice) true "" =
        .ok "https://other.org/.example.com/" ∧
      registerRoute .sqlite (subdomain "other.org/") someDraws nestedDomains =
        .ok (newRoute openDomain "https://other.org/.example.com/" (subdomain "other.org/")
          someDraws)
          ((registerRoute .sqlite (subdomain "other.org/") someDraws).after nestedDomains) ∧
      (parse "https://other.org/.example.com/".toList).map Parts.host =
        some "other.org".toList ∧
      ¬ StaysInside openDomain true "other.org/" "https://other.org/.example.com/" := by
  have hhost : (parse "https://other.org/.example.com/".toList).map Parts.host =
      some "other.org".toList := by
    decide
  refine ⟨openDomain_hostName, rfl, rfl, hhost, ?_⟩
  rintro ⟨u, hparse, -, -, -, -, -, hparts⟩
  rw [hparse, Option.map_some, Option.some.injEq] at hhost
  rw [if_pos rfl, hhost] at hparts
  exact absurd hparts.1 (by decide)

end RouteRegistry
