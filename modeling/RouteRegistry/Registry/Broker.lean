import RouteRegistry.Formats.Percent
import RouteRegistry.Formats.Text
import RouteRegistry.Formats.Urlparse

/-!
# The broker's URL

`create_broker_url` writes the credentials as they are between the scheme and the host of
the configured URL, and nothing else of that URL but its path. What is read back is what was
meant exactly when there was no port and no query to lose, and when the credentials have
nothing that the URL would be cut at, that would be removed or that would be decoded
(`createBrokerUrl_keeps_iff`).
-/

namespace RouteRegistry

open Url Urllib

/-- What `create_broker_url` reads: `RABBITMQ`'s credentials and `CELERY`'s URL. -/
structure BrokerConfig where
  username : Option String := none
  password : Option String := none
  brokerUrl : String

def createBrokerUrl (checks : Checks) (config : BrokerConfig) : Except String String :=
  if Text.truthy config.username && Text.truthy config.password then do
    let parsed ← urlparse checks config.brokerUrl.toList
    let scheme := String.ofList parsed.scheme
    let username := Text.fieldText config.username
    let password := Text.fieldText config.password
    let hostname := Text.fieldText (parsed.hostname.map String.ofList)
    return s!"{scheme}://{username}:{password}@{hostname}{String.ofList parsed.path}"
  else .ok config.brokerUrl

/-- `make_celery_app` overwrites the URL it was given. -/
def makeCeleryApp (checks : Checks) (config : BrokerConfig) : Except String BrokerConfig := do
  return { config with brokerUrl := ← createBrokerUrl checks config }

/-- The URL is parsed to a scheme, a host and more; it is ASCII where it is lowered. -/
structure ConfiguredBroker (checks : Checks) (url : String) (broker : ParseResult) : Prop where
  parsed : urlparse checks url.toList = .ok broker
  scheme : broker.scheme ≠ []
  host : broker.hostname.isSome = true
  ascii : ∀ c ∈ broker.netloc, c.toNat < 128

/-- A URL with credentials that leads where the configured one leads. -/
structure LeadsThere (broker : ParseResult) (user secret : String) (r : ParseResult) : Prop where
  scheme : r.scheme = broker.scheme
  hostname : r.hostname = broker.hostname
  port : r.port = broker.port
  path : r.path = broker.path
  query : r.query = broker.query
  username : r.username.map Percent.unquote = some user.toList
  password : r.password.map Percent.unquote = some secret.toList

/-- The application's URL leads there, and setting up the application again with the
configuration it has overwritten leaves it. -/
def KeepsMeaning (checks : Checks) (url : String) (broker : ParseResult)
    (user secret : String) : Prop :=
  ∃ config, makeCeleryApp checks ⟨some user, some secret, url⟩ = .ok config ∧
    (∃ r, urlparse checks config.brokerUrl.toList = .ok r ∧ LeadsThere broker user secret r) ∧
    makeCeleryApp checks config = .ok config

/-- The authority that is written for some credentials. -/
def authority (user secret host : List Char) : List Char :=
  user ++ ':' :: (secret ++ '@' :: host)

/-- Nothing is lost of the URL, and the credentials are read as they are written. -/
structure Survives (checks : Checks) (broker : ParseResult) (user secret : String) : Prop where
  port : broker.port = .ok none
  query : broker.query = []
  /-- The host was not in brackets. -/
  host : ∀ c ∈ broker.hostname.getD [], c ≠ ':' ∧ c ≠ '['
  username : ∀ c ∈ user.toList, c ≠ ':' ∧ endsAuthority c = false ∧ isUnsafe c = false
  password : ∀ c ∈ secret.toList, endsAuthority c = false ∧ isUnsafe c = false
  escapes : ¬ Percent.HasEscape user.toList ∧ ¬ Percent.HasEscape secret.toList
  brackets : checkBrackets checks
    (authority user.toList secret.toList (broker.hostname.getD [])) = .ok ()
  normal : checkNetloc checks
    (authority user.toList secret.toList (broker.hostname.getD [])) = .ok ()

/-! ## The authority -/

section Authority

variable {r : ParseResult} {user secret host : List Char}

theorem length_authority (user secret host : List Char) :
    (authority user secret host).length = user.length + secret.length + host.length + 2 := by
  simp only [authority, List.length_append, List.length_cons]
  omega

theorem splitLast_authority (hat : '@' ∉ host) :
    splitLast '@' (authority user secret host) = (some (user ++ ':' :: secret), host) :=
  splitLast_eq_iff.mpr ⟨by simp [authority, before], hat⟩

theorem userinfo_authority (hr : r.netloc = authority user secret host) (hat : '@' ∉ host) :
    r.userinfo = (some (splitFirst ':' (user ++ ':' :: secret)).1,
      (splitFirst ':' (user ++ ':' :: secret)).2) := by
  unfold ParseResult.userinfo
  rw [hr, splitLast_authority hat]

theorem hostinfo_authority (hr : r.netloc = authority user secret host) (hat : '@' ∉ host) :
    r.hostinfo = splitHost host := by
  unfold ParseResult.hostinfo
  rw [hr, splitLast_authority hat]

/-- An authority is at least as long as its parts written with their delimiters. -/
theorem length_authority_le (huser : r.username = some user) (hsecret : r.password = some secret)
    (hhost : r.hostname = some host) :
    (authority user secret host).length ≤ r.netloc.length := by
  obtain ⟨o, info, hsplit⟩ : ∃ o b, splitLast '@' r.netloc = (o, b) := ⟨_, _, rfl⟩
  have hnetloc := (splitLast_eq_iff.mp hsplit).1
  have hle := length_splitHost_le info
  have hlen : host.length = (splitHost info).1.length := by
    rw [length_hostname hhost]
    unfold ParseResult.hostinfo
    rw [hsplit]
  unfold ParseResult.username ParseResult.userinfo at huser
  unfold ParseResult.password ParseResult.userinfo at hsecret
  rw [hsplit] at huser hsecret
  cases o with
  | none => cases huser
  | some i =>
    have hinfo := (splitFirst_spec ':' i).1
    rw [Option.some.inj huser, hsecret] at hinfo
    rw [hnetloc, hinfo, length_authority, hlen]
    simp only [before, after, List.length_append, List.length_cons, List.length_nil]
    omega

end Authority

/-! ## What is written -/

section Written

variable {checks : Checks} {url user secret : String} {broker r : ParseResult} {host : List Char}

/-- The URL that is written. -/
def writtenUrl (broker : ParseResult) (user secret host : List Char) : List Char :=
  broker.scheme ++ ':' :: '/' :: '/' :: (authority user secret host ++ broker.path)

theorem createBrokerUrl_eq (hu : user ≠ "") (hw : secret ≠ "")
    (hparsed : urlparse checks url.toList = .ok broker) (hhost : broker.hostname = some host) :
    createBrokerUrl checks ⟨some user, some secret, url⟩ =
      .ok (String.ofList (writtenUrl broker user.toList secret.toList host)) := by
  have htext : s!"{String.ofList broker.scheme}://{user}:{secret}@{String.ofList host}" ++
      String.ofList broker.path =
        String.ofList (writtenUrl broker user.toList secret.toList host) := by
    apply String.toList_inj.mp
    simp [writtenUrl, authority, toString]
  have hfield : Text.fieldText (broker.hostname.map String.ofList) = String.ofList host := by
    rw [hhost]
    rfl
  unfold createBrokerUrl
  simp only [Text.truthy, ne_eq, hu, hw, not_false_eq_true, decide_true, Bool.and_self, if_true,
    hparsed, bind, Except.bind, pure, Except.pure, hfield]
  rw [← htext]
  rfl

/-- Of what is written, at most the authority is parsed as the authority. -/
theorem netloc_sublist (hs : broker.Sound checks) (hscheme : broker.scheme ≠ [])
    (hhost : broker.hostname = some host) {user secret : List Char}
    (h : urlparse checks (writtenUrl broker user secret host) = .ok r) :
    r.netloc.Sublist (authority user secret host) := by
  obtain ⟨his, -⟩ := hs.scheme.resolve_left hscheme
  have hpath : broker.path.filter (fun c => !isUnsafe c) = broker.path :=
    List.filter_eq_self.mpr fun c hc => by rw [(hs.path c hc).2.2]; rfl
  rw [netloc_written his h, List.filter_append, hpath]
  exact (cut_append_isPrefix (hs.rooted (netloc_ne_nil hhost))).sublist.trans List.filter_sublist

/-- **Only the whole authority has room for the parts.** -/
theorem netloc_eq_authority (hs : broker.Sound checks) (hscheme : broker.scheme ≠ [])
    (hhost : broker.hostname = some host)
    (h : urlparse checks (writtenUrl broker user.toList secret.toList host) = .ok r)
    (hr : LeadsThere broker user secret r) :
    r.netloc = authority user.toList secret.toList host := by
  obtain ⟨name, hname, hdecoded⟩ := Option.map_eq_some_iff.mp hr.username
  obtain ⟨word, hword, hopened⟩ := Option.map_eq_some_iff.mp hr.password
  have hle := length_authority_le hname hword (hr.hostname.trans hhost)
  have hlong : user.toList.length ≤ name.length := hdecoded ▸ Percent.length_unquote_le name
  have hlong' : secret.toList.length ≤ word.length := hopened ▸ Percent.length_unquote_le word
  refine (netloc_sublist hs hscheme hhost h).eq_of_length_le ?_
  rw [length_authority] at hle ⊢
  omega

/-- Cut at its first colon, a username with one is cut in two. -/
theorem splitFirst_colon {user secret : List Char}
    (h : user.length ≤ (splitFirst ':' (user ++ ':' :: secret)).1.length) :
    ':' ∉ user := by
  obtain ⟨hwhole, hcolon⟩ := splitFirst_spec ':' (user ++ ':' :: secret)
  have huser : user <+: user ++ ':' :: secret := List.prefix_append _ _
  have hname : (splitFirst ':' (user ++ ':' :: secret)).1 <+: user ++ ':' :: secret :=
    ⟨_, hwhole.symm⟩
  exact fun hmem => hcolon ((List.prefix_of_prefix_length_le huser hname h).subset hmem)

/-- The parts that are read back. -/
def readBack (broker : ParseResult) (user secret host : List Char) : ParseResult where
  scheme := broker.scheme
  netloc := authority user secret host
  path := broker.path

theorem urlparse_writtenUrl (hs : broker.Sound checks) (hscheme : broker.scheme ≠ [])
    (hhost : broker.hostname = some host) {user secret : List Char}
    (hchars : ∀ c ∈ authority user secret host, endsAuthority c = false ∧ isUnsafe c = false)
    (hb : checkBrackets checks (authority user secret host) = .ok ())
    (hc : checkNetloc checks (authority user secret host) = .ok ()) :
    urlparse checks (writtenUrl broker user secret host) =
      .ok (readBack broker user secret host) :=
  urlparse_written
    ⟨hs.scheme, hchars, hs.path, fun _ => hs.rooted (netloc_ne_nil hhost), hs.params, hb, hc⟩
    hscheme (by simp [authority])

theorem mem_authority {user secret : List Char} {c : Char} :
    c ∈ authority user secret host ↔ c ∈ user ∨ c = ':' ∨ c ∈ secret ∨ c = '@' ∨ c ∈ host := by
  simp [authority]

theorem hostinfo_readBack (hhost : broker.hostname = some host) (user secret : List Char) :
    (readBack broker user secret host).hostinfo = splitHost host :=
  hostinfo_authority rfl (at_notMem_hostname hhost)

theorem userinfo_readBack (hhost : broker.hostname = some host) (user secret : List Char) :
    (readBack broker user secret host).userinfo =
      (some (splitFirst ':' (user ++ ':' :: secret)).1,
        (splitFirst ':' (user ++ ':' :: secret)).2) :=
  userinfo_authority rfl (at_notMem_hostname hhost)

/-- Without a port the host is read back, and no port is. -/
theorem leadsThere_readBack_iff (hhost : broker.hostname = some host) :
    LeadsThere broker user secret (readBack broker user.toList secret.toList host) ↔
      broker.port = .ok none ∧ broker.query = [] ∧ (':' ∉ host ∧ '[' ∉ host) ∧
        ':' ∉ user.toList ∧ ¬ Percent.HasEscape user.toList ∧
        ¬ Percent.HasEscape secret.toList := by
  have hinfo := hostinfo_readBack hhost user.toList secret.toList
  have huserinfo := userinfo_readBack hhost user.toList secret.toList
  have hport : ':' ∉ host ∧ '[' ∉ host →
      (readBack broker user.toList secret.toList host).port = .ok none := by
    rintro ⟨hcolon, hbracket⟩
    unfold ParseResult.port
    rw [hinfo, splitHost_plain hcolon hbracket]
  have hcut : ':' ∉ user.toList → splitFirst ':' (user.toList ++ ':' :: secret.toList) =
      (user.toList, some secret.toList) := fun h => splitFirst_eq_iff.mpr ⟨rfl, h⟩
  constructor
  · intro h
    have hlen := length_hostname (h.hostname.trans hhost)
    rw [hinfo] at hlen
    have hplain := plain_of_length_splitHost (Nat.le_of_eq hlen)
    have hname := h.username
    have hword := h.password
    unfold ParseResult.username at hname
    unfold ParseResult.password at hword
    rw [huserinfo, Option.map_some, Option.some.injEq] at hname
    rw [huserinfo] at hword
    have hlong := Percent.length_unquote_le
      (splitFirst ':' (user.toList ++ ':' :: secret.toList)).1
    rw [hname] at hlong
    have huser := splitFirst_colon hlong
    rw [hcut huser] at hname hword
    rw [Option.map_some, Option.some.injEq] at hword
    exact ⟨h.port.symm.trans (hport hplain), h.query.symm, hplain, huser,
      Percent.unquote_eq_self_iff.mp hname, Percent.unquote_eq_self_iff.mp hword⟩
  · rintro ⟨hnone, hquery, hplain, huser, hname, hword⟩
    have hsame : (readBack broker user.toList secret.toList host).hostinfo.1 = host := by
      rw [hinfo, splitHost_plain hplain.1 hplain.2]
    refine ⟨rfl, (hostname_of_hostname hhost hsame).trans hhost.symm,
      (hport hplain).trans hnone.symm, rfl, hquery.symm, ?_, ?_⟩
    · unfold ParseResult.username
      rw [huserinfo, hcut huser, Option.map_some, Percent.unquote_eq_self_iff.mpr hname]
    · unfold ParseResult.password
      rw [huserinfo, hcut huser, Option.map_some, Percent.unquote_eq_self_iff.mpr hword]

theorem survives_of_keeps (hp : ConfiguredBroker checks url broker)
    (hu : user ≠ "") (hw : secret ≠ "") (h : KeepsMeaning checks url broker user secret) :
    Survives checks broker user secret := by
  obtain ⟨host, hhost⟩ := Option.isSome_iff_exists.mp hp.host
  obtain ⟨config, hmake, ⟨r, hparse, hr⟩, -⟩ := h
  have hurl : config.brokerUrl.toList = writtenUrl broker user.toList secret.toList host := by
    unfold makeCeleryApp at hmake
    rw [createBrokerUrl_eq hu hw hp.parsed hhost] at hmake
    cases hmake
    simp
  rw [hurl] at hparse
  have hs := urlparse_sound hp.parsed
  have hsound := urlparse_sound hparse
  have hnetloc := netloc_eq_authority hs hp.scheme hhost hparse hr
  have hchars := hnetloc ▸ hsound.netloc
  have hb := hnetloc ▸ hsound.brackets
  have hc := hnetloc ▸ hsound.normal
  obtain rfl : readBack broker user.toList secret.toList host = r := by
    rw [urlparse_writtenUrl hs hp.scheme hhost hchars hb hc] at hparse
    exact Except.ok.inj hparse
  obtain ⟨hport, hquery, hplain, huser, hescapes⟩ := (leadsThere_readBack_iff hhost).mp hr
  rw [← Option.getD_some (a := host) (b := []), ← hhost] at hb hc
  refine ⟨hport, hquery, ?_, fun c hmem => ?_, fun c hmem => ?_, hescapes, hb, hc⟩
  · rw [hhost]
    exact fun c hmem => ⟨fun h => hplain.1 (h ▸ hmem), fun h => hplain.2 (h ▸ hmem)⟩
  · exact ⟨fun h => huser (h ▸ hmem), hchars c (mem_authority.mpr (.inl hmem))⟩
  · exact hchars c (mem_authority.mpr (.inr (.inr (.inl hmem))))

theorem keeps_of_survives (hp : ConfiguredBroker checks url broker)
    (hu : user ≠ "") (hw : secret ≠ "") (h : Survives checks broker user secret) :
    KeepsMeaning checks url broker user secret := by
  obtain ⟨host, hhost⟩ := Option.isSome_iff_exists.mp hp.host
  have hs := urlparse_sound hp.parsed
  have hhostchars := h.host
  have hb := h.brackets
  have hc := h.normal
  rw [hhost, Option.getD_some] at hhostchars hb hc
  have hplain : ':' ∉ host ∧ '[' ∉ host :=
    ⟨fun hmem => (hhostchars _ hmem).1 rfl, fun hmem => (hhostchars _ hmem).2 rfl⟩
  have hchars : ∀ c ∈ authority user.toList secret.toList host,
      endsAuthority c = false ∧ isUnsafe c = false := by
    intro c hmem
    rcases mem_authority.mp hmem with hmem | rfl | hmem | rfl | hmem
    · exact (h.username c hmem).2
    · exact ⟨rfl, rfl⟩
    · exact h.password c hmem
    · exact ⟨rfl, rfl⟩
    · exact hs.hostname hhost c hmem
  have hparse := urlparse_writtenUrl hs hp.scheme hhost hchars hb hc
  have hleads : LeadsThere broker user secret
      (readBack broker user.toList secret.toList host) := (leadsThere_readBack_iff hhost).mpr
    ⟨h.port, h.query, hplain, fun hmem => (h.username _ hmem).1 rfl, h.escapes⟩
  have hcall := createBrokerUrl_eq hu hw hp.parsed hhost
  have hagain : createBrokerUrl checks ⟨some user, some secret, String.ofList
      (writtenUrl broker user.toList secret.toList host)⟩ = _ :=
    createBrokerUrl_eq hu hw (by simpa using hparse) (hleads.hostname.trans hhost)
  refine ⟨_, by unfold makeCeleryApp; rw [hcall]; rfl, ⟨_, by simpa using hparse, hleads⟩, ?_⟩
  unfold makeCeleryApp
  rw [hagain]
  rfl

end Written

theorem createBrokerUrl_keeps_iff {checks : Checks} {url user secret : String}
    {broker : ParseResult} (hp : ConfiguredBroker checks url broker)
    (hu : user ≠ "") (hw : secret ≠ "") :
    KeepsMeaning checks url broker user secret ↔ Survives checks broker user secret :=
  ⟨survives_of_keeps hp hu hw, keeps_of_survives hp hu hw⟩

theorem createBrokerUrl_keeps_guest :
    KeepsMeaning Checks.ascii "amqp://broker/routes" ⟨"amqp".toList, "broker".toList,
      "/routes".toList, [], [], []⟩ "guest" "s3cret" :=
  (createBrokerUrl_keeps_iff
    ⟨rfl, by decide, rfl, List.forall_iff_forall_mem.mp (by decide)⟩ (by decide)
    (by decide)).mpr
    { port := rfl
      query := rfl
      host := List.forall_iff_forall_mem.mp (by decide)
      username := List.forall_iff_forall_mem.mp (by decide)
      password := List.forall_iff_forall_mem.mp (by decide)
      escapes := ⟨Percent.unquote_eq_self_iff.mp (by decide),
        Percent.unquote_eq_self_iff.mp (by decide)⟩
      brackets := rfl
      normal := rfl }

/-- The shipped URL has a port, which is lost. -/
theorem createBrokerUrl_shipped_loses :
    ConfiguredBroker Checks.ascii "amqp://localhost:5672//" ⟨"amqp".toList,
      "localhost:5672".toList, "//".toList, [], [], []⟩ ∧
    ¬ KeepsMeaning Checks.ascii "amqp://localhost:5672//" ⟨"amqp".toList,
      "localhost:5672".toList, "//".toList, [], [], []⟩ "guest" "s3cret" := by
  have hp : ConfiguredBroker Checks.ascii "amqp://localhost:5672//" ⟨"amqp".toList,
      "localhost:5672".toList, "//".toList, [], [], []⟩ :=
    ⟨rfl, by decide, rfl, List.forall_iff_forall_mem.mp (by decide)⟩
  refine ⟨hp, fun h => ?_⟩
  have hport := (survives_of_keeps hp (by decide) (by decide) h).port
  cases hport

end RouteRegistry
