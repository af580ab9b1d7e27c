import RouteRegistry.Formats.DatabaseUrl
import RouteRegistry.Formats.Text

/-!
# The database's URL

`escape_url` takes the configured URL apart with `urlparse` and has SQLAlchemy write it
anew. The generic parser knows nothing of drivers with underscores, leaves credentials
encoded, lowers hosts and cuts fragments; and the query and the slashes a path begins with
are dropped. `escapeUrl_keeps_iff` says for which URLs and settings what is written means
what was configured.
-/

namespace RouteRegistry

open Url Urllib DatabaseUrl

/-- SQLAlchemy's `make_url`, which fails on what is no URL, and
`render_as_string(hide_password=False)`. -/
structure Sqlalchemy where
  makeUrl : List Char → Option DatabaseUrl
  render : DatabaseUrl → List Char

/-- What is documented of them. -/
structure Sqlalchemy.Documented (sa : Sqlalchemy) : Prop where
  /-- The format of URLs: a driver, percent-encoded credentials, host, port, database and
  query. -/
  reads : ∀ w : Written, w.WellFormed → sa.makeUrl w.text = some w.meaning
  /-- What a URL without a query means is rendered to a URL that means the same. -/
  renders : ∀ w : Written, w.WellFormed → w.query = none →
    sa.makeUrl (sa.render w.meaning) = some w.meaning
  /-- A password is rendered behind a username. -/
  alone : ∀ u : DatabaseUrl, u.username = none →
    sa.render u = sa.render { u with password := none }
  /-- A URL has a driver. -/
  unnamed : ∀ u : DatabaseUrl, u.drivername = [] → sa.makeUrl (sa.render u) = none

/-- The credentials among the settings `DB`; `none` where the key is absent. -/
structure DbConfig where
  username : Option String := none
  password : Option String := none

/-- `s.lstrip("/")`. -/
def lstrip (s : List Char) : List Char := s.dropWhile fun c => decide (c = '/')

def escapeUrl (sa : Sqlalchemy) (checks : Checks) (url : String) (config : DbConfig) :
    Except String String := do
  let parsed ← urlparse checks url.toList
  let port ← parsed.port
  return String.ofList (sa.render
    { drivername := parsed.scheme
      username := (config.username.map String.toList).or parsed.username
      password := (config.password.map String.toList).or parsed.password
      host := parsed.hostname
      port
      database := some (lstrip parsed.path) })

/-- The setting, if it is neither absent nor empty. -/
def supplied (setting : Option String) : Option (List Char) :=
  (setting.filter fun s => decide (s ≠ "")).map String.toList

/-- What is meant by a URL together with the settings. -/
def configured (u : DatabaseUrl) (config : DbConfig) : DatabaseUrl :=
  { u with
    username := (supplied config.username).or u.username
    password := (supplied config.password).or u.password }

/-- What is written means what was configured. -/
def KeepsDatabase (sa : Sqlalchemy) (checks : Checks) (url : String) (config : DbConfig) : Prop :=
  ∃ u out, sa.makeUrl url.toList = some u ∧ escapeUrl sa checks url config = .ok out ∧
    sa.makeUrl out.toList = some (configured u config)

/-- The generic parser and the rendering agree with SQLAlchemy on the URL. -/
structure Agrees (checks : Checks) (w : Written) (config : DbConfig) : Prop where
  /-- Nothing in the credentials ends the authority. -/
  credentials : w.PlainCredentials
  /-- The driver is a scheme in lower case. -/
  driver : isScheme w.driver = true ∧ lower w.driver = w.driver
  username : config.username = none → ¬ Percent.HasEscape (w.username.getD [])
  password : config.password = none → ¬ Percent.HasEscape (w.password.getD [])
  /-- An empty setting replaces an empty credential only. -/
  emptyUsername : config.username = some "" → w.username = some []
  emptyPassword : config.password = some "" → (config.username.isSome ∨ w.username.isSome) →
    w.password = some []
  /-- A password is supplied with a username. -/
  alone : config.password.isSome → config.password ≠ some "" →
    config.username.isSome ∨ w.username.isSome
  host : ∀ host ∈ w.host, lowerHost host = host
  port : ∀ port ∈ w.port, number port ≤ 65535
  /-- There is a database, without a slash at its beginning and without parts that a generic
  parser cuts off. -/
  database : ∃ database, w.database = some database ∧ '#' ∉ database ∧ '/' ∉ database.head? ∧
    (w.driver ∈ usesParams → (splitParams ('/' :: database)).1 = '/' :: database)
  query : parseQsl false (w.query.getD []) = []
  brackets : checkBrackets checks w.netloc = .ok ()
  normal : checkNetloc checks w.netloc = .ok ()

/-! ## The path -/

section Path

variable {w : Written}

theorem lstrip_length_le (s : List Char) : (lstrip s).length ≤ s.length :=
  (List.dropWhile_suffix _).length_le

theorem lstrip_slash (s : List Char) : lstrip ('/' :: s) = lstrip s := by
  simp [lstrip]

theorem lstrip_eq_self_iff {s : List Char} : lstrip s = s ↔ '/' ∉ s.head? := by
  cases s with
  | nil => simp [lstrip]
  | cons c s =>
    by_cases hc : c = '/'
    · subst hc
      rw [lstrip_slash]
      constructor
      · intro h
        have hle := lstrip_length_le s
        rw [h, List.length_cons] at hle
        omega
      · intro h
        exact absurd rfl h
    · simp [lstrip, hc]

/-- What ends a path. -/
def endsPath (c : Char) : Bool := decide (c = '?') || decide (c = '#')

/-- Cutting fragment and query off is cutting at whichever delimiter is first. -/
theorem splitPath_eq_cut (s : List Char) :
    (splitFirst '?' (splitFirst '#' s).1).1 = (cut endsPath s).1 := by
  obtain ⟨front, fragment, hfragment⟩ : ∃ a o, splitFirst '#' s = (a, o) := ⟨_, _, rfl⟩
  obtain ⟨path, query, hquery⟩ : ∃ a o, splitFirst '?' front = (a, o) := ⟨_, _, rfl⟩
  obtain ⟨hs, hhash⟩ := splitFirst_eq_iff.mp hfragment
  obtain ⟨hfront, hquestion⟩ := splitFirst_eq_iff.mp hquery
  have hcut : cut endsPath s = (path, after '?' query ++ after '#' fragment) := by
    refine cut_eq_iff.mpr ⟨by rw [hs, hfront, List.append_assoc], fun c hc => ?_, fun c hc => ?_⟩
    · simp only [endsPath, Bool.or_eq_false_iff, decide_eq_false_iff_not]
      refine ⟨fun h => hquestion (h ▸ hc), fun h => hhash ?_⟩
      rw [hfront]
      exact List.mem_append_left _ (h ▸ hc)
    · cases query with
      | some query =>
        cases hc
        rfl
      | none =>
        cases fragment with
        | some fragment =>
          cases hc
          rfl
        | none => cases hc
  rw [hfragment, hquery, hcut]

theorem endsPath_query (w : Written) : ∀ c ∈ (after '?' w.query).head?, endsPath c = true := by
  intro c hc
  cases hq : w.query with
  | none =>
    rw [hq] at hc
    cases hc
  | some query =>
    rw [hq] at hc
    cases hc
    rfl

theorem parsed_path (w : Written) : w.parsed.path =
    if lower w.driver ∈ usesParams then (splitParams (cut endsPath w.target).1).1
    else (cut endsPath w.target).1 := by
  rw [← splitPath_eq_cut]
  unfold Written.parsed divideParams
  dsimp only
  split <;> rfl

/-- The path that is parsed is a part of slash and database. -/
theorem parsed_path_isPrefix (w : Written) :
    w.parsed.path <+: (cut endsPath w.target).1 ∧
      (cut endsPath w.target).1 <+: after '/' w.database := by
  refine ⟨?_, cut_append_isPrefix (endsPath_query w)⟩
  rw [parsed_path]
  split
  · exact splitParams_isPrefix _
  · exact List.prefix_rfl

/-- All of it is parsed if nothing of it is cut off. -/
theorem parsed_path_eq {database : List Char} (h : w.WellFormed)
    (hdb : w.database = some database) (hhash : '#' ∉ database)
    (hparams : lower w.driver ∈ usesParams → (splitParams ('/' :: database)).1 = '/' :: database) :
    w.parsed.path = '/' :: database := by
  have hquestion := h.database
  rw [hdb, Option.getD_some] at hquestion
  have hcut : cut endsPath w.target = ('/' :: database, after '?' w.query) := by
    unfold Written.target
    rw [hdb]
    refine cut_eq_iff.mpr ⟨rfl, fun c hc => ?_, endsPath_query w⟩
    rcases List.mem_cons.mp hc with rfl | hc
    · rfl
    · simp only [endsPath, Bool.or_eq_false_iff, decide_eq_false_iff_not]
      exact ⟨fun h => hquestion (h ▸ hc), fun h => hhash (h ▸ hc)⟩
  rw [parsed_path, hcut]
  split
  · rename_i hmem
    exact hparams hmem
  · rfl

/-- The database is what is left of the path exactly when there is one that neither begins
with a slash nor has anything that is cut off. -/
theorem lstrip_parsed_path_iff (h : w.WellFormed) :
    some (lstrip w.parsed.path) = w.database ↔
      ∃ database, w.database = some database ∧ '#' ∉ database ∧ '/' ∉ database.head? ∧
        (lower w.driver ∈ usesParams →
          (splitParams ('/' :: database)).1 = '/' :: database) := by
  constructor
  · intro heq
    refine ⟨lstrip w.parsed.path, heq.symm, ?_⟩
    obtain ⟨hpath, hcut⟩ := parsed_path_isPrefix w
    rw [← heq, after] at hcut
    cases hparsed : w.parsed.path with
    | nil => exact ⟨List.not_mem_nil, by simp [lstrip], fun _ => rfl⟩
    | cons c rest =>
      rw [hparsed] at hpath hcut
      obtain ⟨rfl, hrest⟩ := List.cons_prefix_cons.mp (hpath.trans hcut)
      rw [lstrip_slash] at hcut hrest ⊢
      have hlen := lstrip_length_le rest
      have hself : rest = lstrip rest := hrest.eq_of_length_le hlen
      rw [← hself] at hcut ⊢
      have hwhole : (cut endsPath w.target).1 = '/' :: rest :=
        hcut.eq_of_length_le hpath.length_le
      refine ⟨fun hmem => ?_, lstrip_eq_self_iff.mp hself.symm, fun hmem => ?_⟩
      · have hin := (cut_eq_iff.mp (rfl : cut endsPath w.target =
          ((cut endsPath w.target).1, (cut endsPath w.target).2))).2.1
        rw [hwhole] at hin
        cases hin '#' (List.mem_cons_of_mem _ hmem)
      · rw [parsed_path, if_pos hmem, hwhole] at hparsed
        exact hparsed
  · rintro ⟨database, hdb, hhash, hhead, hparams⟩
    rw [parsed_path_eq h hdb hhash hparams, lstrip_slash, lstrip_eq_self_iff.mpr hhead, hdb]

theorem mem_database_of_mem_lstrip {c : Char} (h : c ∈ lstrip w.parsed.path) :
    c = '/' ∨ c ∈ w.database.getD [] := by
  obtain ⟨hpath, hcut⟩ := parsed_path_isPrefix w
  exact mem_of_mem_after ((hpath.trans hcut).subset ((List.dropWhile_suffix _).subset h))

end Path

/-! ## What is rendered -/

section Rendered

variable {sa : Sqlalchemy} {checks : Checks} {w : Written} {config : DbConfig}

/-- What is rendered, if the driver is a scheme. -/
def createdUrl (w : Written) (config : DbConfig) : DatabaseUrl where
  drivername := lower w.driver
  username := (config.username.map String.toList).or w.username
  password := (config.password.map String.toList).or w.password
  host := w.host.map lowerHost
  port := w.port.map number
  database := some (lstrip w.parsed.path)

/-- What is read back of it. -/
def keptUrl (w : Written) (config : DbConfig) : DatabaseUrl :=
  { createdUrl w config with
    password := if (createdUrl w config).username = none then none else (createdUrl w config).password }

theorem escapeUrl_text (h : w.WellFormed) (hplain : w.PlainCredentials)
    (hs : isScheme w.driver = true) (out : String) :
    escapeUrl sa checks (String.ofList w.text) config = .ok out ↔
      checkBrackets checks w.netloc = .ok () ∧ checkNetloc checks w.netloc = .ok () ∧
        (∀ port ∈ w.port, number port ≤ 65535) ∧
        out = String.ofList (sa.render (createdUrl w config)) := by
  unfold escapeUrl
  rw [String.toList_ofList, Written.urlparse_text h hplain hs]
  have huser : w.parsed.username = w.username := by
    unfold ParseResult.username
    rw [Written.parsed_userinfo h]
  have hpassword : w.parsed.password = w.password := by
    unfold ParseResult.password
    rw [Written.parsed_userinfo h]
  cases checkBrackets checks w.netloc with
  | error e => simp [bind, Except.bind]
  | ok u =>
    cases checkNetloc checks w.netloc with
    | error e => simp [bind, Except.bind]
    | ok v =>
      simp only [bind, Except.bind, pure, Except.pure, Written.parsed_port h]
      by_cases hport : ∀ port ∈ w.port, number port ≤ 65535
      · rw [if_pos hport]
        simp only [huser, hpassword, Written.parsed_hostname h, Written.parsed_scheme]
        constructor
        · intro heq
          exact ⟨trivial, trivial, hport, (Except.ok.inj heq).symm⟩
        · rintro ⟨-, -, -, rfl⟩
          rfl
      · rw [if_neg hport]
        constructor
        · intro heq
          cases heq
        · rintro ⟨-, -, hall, -⟩
          exact absurd hall hport

theorem isDriverChar_toLower {c : Char} (h : isDriverChar c = true) :
    isDriverChar c.toLower = true := by
  rcases toLower_cases c with ⟨-, hlower, -⟩ | ⟨-, hsame⟩
  · unfold isDriverChar Char.isAlphanum Char.isAlpha
    simp only [hlower, Bool.or_true, Bool.true_or]
  · rw [hsame]
    exact h

theorem kept_hostChars (h : w.WellFormed) : ∀ c ∈ (keptUrl w config).host.getD [],
    c.toNat < 128 ∧ endsAuthority c = false ∧ c ≠ '@' ∧ c ≠ '[' ∧ c ≠ ']' ∧
      isUnsafe c = false := by
  have hhost := h.hostChars_safe
  have hsmall : ∀ c : Char, c.isLower = true → c.toNat < 128 ∧ endsAuthority c = false ∧
      c ≠ '@' ∧ c ≠ '[' ∧ c ≠ ']' ∧ isUnsafe c = false := by
    intro c hc
    obtain ⟨hascii, hdelimits, hsafe⟩ := plain_of_isLower hc
    obtain ⟨hends, hat, -⟩ := delimits_eq_false_iff.mp hdelimits
    refine ⟨hascii, hends, hat, ?_, ?_, hsafe⟩ <;>
    · rintro rfl
      cases hc
  intro c hc
  cases hw : w.host with
  | none =>
    simp only [keptUrl, createdUrl, hw, Option.map_none] at hc
    cases hc
  | some host =>
    rw [hw] at hhost
    simp only [keptUrl, createdUrl, hw, Option.map_some, Option.getD_some] at hc
    exact forall_lowerHost hsmall hhost c hc

theorem colon_mem_host (hmem : ':' ∈ (keptUrl w config).host.getD []) : ':' ∈ w.host.getD [] := by
  cases hw : w.host with
  | none =>
    simp only [keptUrl, createdUrl, hw, Option.map_none] at hmem
    cases hmem
  | some host =>
    simp only [keptUrl, createdUrl, hw, Option.map_some, Option.getD_some] at hmem
    exact mem_of_mem_lowerHost hmem (by decide)

theorem kept_writable (h : w.WellFormed) : (keptUrl w config).Writable where
  driver := by
    obtain ⟨hne, hchars⟩ := h.driver
    refine ⟨fun hnil => hne (List.map_eq_nil_iff.mp hnil), fun c hc => ?_⟩
    obtain ⟨d, hd, rfl⟩ := List.mem_map.mp hc
    exact isDriverChar_toLower (hchars d hd)
  credentials := fun hnone => if_pos hnone
  host := by
    intro hnil
    obtain ⟨host, hhost, heq⟩ := Option.map_eq_some_iff.mp hnil
    have hlen := length_lowerHost host
    rw [heq] at hlen
    exact h.host (by rw [hhost, List.length_eq_zero_iff.mp hlen.symm])
  hostChars := kept_hostChars h
  database := by
    intro c hc
    rcases mem_database_of_mem_lstrip hc with rfl | hc
    · exact ⟨by decide, rfl⟩
    · refine ⟨fun heq => h.database (heq ▸ hc), h.safe c ?_⟩
      exact mem_text_of_mem_target (mem_target_of_mem_database hc)
  rest := by
    intro hnone
    refine noUserinfo_written h ?_ (kept_hostChars h) colon_mem_host
      (fun hsome => by simpa [keptUrl, createdUrl] using hsome)
      (fun hmem => (mem_database_of_mem_lstrip hmem).resolve_left (by decide))
    simp only [keptUrl] at hnone
    split at hnone
    · rename_i huser
      have hname : w.username = none := (Option.or_eq_none_iff.mp huser).2
      cases hp : w.password with
      | none => rfl
      | some password =>
        have := h.credentials (by rw [hp]; rfl)
        rw [hname] at this
        cases this
    · exact (Option.or_eq_none_iff.mp hnone).2

/-- **What is rendered is read back**, except for a password without a username. -/
theorem makeUrl_created (hsa : sa.Documented) (h : w.WellFormed) :
    sa.makeUrl (sa.render (createdUrl w config)) = some (keptUrl w config) := by
  have hrender : sa.render (createdUrl w config) = sa.render (keptUrl w config) := by
    unfold keptUrl
    split
    · rename_i hnone
      exact hsa.alone _ hnone
    · rfl
  have hwritable : (keptUrl w config).Writable := kept_writable h
  have hmeaning : (keptUrl w config).written.meaning = keptUrl w config :=
    meaning_written rfl hwritable.credentials
  have := hsa.renders _ hwritable.wellFormed rfl
  rwa [hmeaning, ← hrender] at this

end Rendered

/-! ## Credentials -/

section Credentials

variable {w : Written} {config : DbConfig}

theorem not_hasEscape_nil : ¬ Percent.HasEscape [] := Percent.unquote_eq_self_iff.mp rfl

theorem supplied_none : supplied none = none := rfl

theorem supplied_empty : supplied (some "") = none := rfl

theorem supplied_some {s : String} (hs : s ≠ "") : supplied (some s) = some s.toList := by
  simp [supplied, Option.filter, hs]

/-- A setting replaces what the URL says, even if it is empty; and what the URL says is not
decoded. -/
theorem credential_iff (setting : Option String) (raw : Option (List Char)) :
    (setting.map String.toList).or raw = (supplied setting).or (raw.map Percent.unquote) ↔
      (setting = none → ¬ Percent.HasEscape (raw.getD [])) ∧
        (setting = some "" → raw = some []) := by
  cases setting with
  | none =>
    cases raw with
    | none => simp [supplied_none, not_hasEscape_nil]
    | some s => simp [supplied_none, ← Percent.unquote_eq_self_iff, eq_comm]
  | some s =>
    by_cases hs : s = ""
    · subst hs
      cases raw with
      | none => simp [supplied_empty]
      | some r =>
        have hnil := Percent.unquote_eq_nil_iff (s := r)
        rw [supplied_empty, Option.map_some, Option.map_some, Option.some_or, Option.none_or]
        constructor
        · intro heq
          exact ⟨nofun, fun _ => congrArg some (hnil.mp (Option.some.inj heq).symm)⟩
        · rintro ⟨-, hempty⟩
          rw [hnil.mpr (Option.some.inj (hempty rfl))]
          rfl
    · simp [supplied_some hs, hs]

theorem created_username_none :
    (createdUrl w config).username = none ↔ ¬ (config.username.isSome ∨ w.username.isSome) := by
  simp [createdUrl]

/-- A password without a username is lost. -/
theorem kept_password_iff (h : w.WellFormed) :
    (keptUrl w config).password = (supplied config.password).or (w.password.map Percent.unquote) ↔
      (config.password = none → ¬ Percent.HasEscape (w.password.getD [])) ∧
      (config.password = some "" → (config.username.isSome ∨ w.username.isSome) →
        w.password = some []) ∧
      (config.password.isSome → config.password ≠ some "" →
        config.username.isSome ∨ w.username.isSome) := by
  have hcredential := credential_iff config.password w.password
  unfold keptUrl
  dsimp only
  by_cases hnamed : config.username.isSome ∨ w.username.isSome
  · rw [if_neg (fun hnone => created_username_none.mp hnone hnamed)]
    refine hcredential.trans (and_congr_right fun _ => ?_)
    simp [hnamed]
  · rw [if_pos (created_username_none.mpr hnamed)]
    have hpassword : w.password = none := by
      cases hp : w.password with
      | none => rfl
      | some password => exact absurd (.inr (h.credentials (by rw [hp]; rfl))) hnamed
    rw [hpassword]
    cases hsetting : config.password with
    | none => simp [supplied_none, not_hasEscape_nil]
    | some s =>
      by_cases hs : s = ""
      · subst hs
        simp [supplied_empty, hnamed, not_hasEscape_nil]
      · simp [supplied_some hs, hnamed, hs]

theorem kept_eq_configured_iff :
    keptUrl w config = configured w.meaning config ↔
      lower w.driver = w.driver ∧
      ((config.username = none → ¬ Percent.HasEscape (w.username.getD [])) ∧
        (config.username = some "" → w.username = some [])) ∧
      (keptUrl w config).password =
        (supplied config.password).or (w.password.map Percent.unquote) ∧
      w.host.map lowerHost = w.host ∧ some (lstrip w.parsed.path) = w.database ∧
      parseQsl false (w.query.getD []) = [] := by
  rw [← credential_iff]
  unfold keptUrl configured createdUrl Written.meaning
  simp only [DatabaseUrl.mk.injEq, true_and]
  constructor
  · rintro ⟨hdriver, huser, hpassword, hhost, hdatabase, hquery⟩
    exact ⟨hdriver, huser, hpassword, hhost, hdatabase, hquery.symm⟩
  · rintro ⟨hdriver, huser, hpassword, hhost, hdatabase, hquery⟩
    exact ⟨hdriver, huser, hpassword, hhost, hdatabase, hquery.symm⟩

theorem map_lowerHost_iff (host : Option (List Char)) :
    host.map lowerHost = host ↔ ∀ h ∈ host, lowerHost h = h := by
  cases host <;> simp

end Credentials

section Agreement

variable {sa : Sqlalchemy} {checks : Checks} {w : Written} {config : DbConfig}

/-- Behind a driver that is no scheme nothing is read back. -/
theorem isScheme_of_keeps (hsa : sa.Documented) (h : w.WellFormed)
    (hkeeps : KeepsDatabase sa checks (String.ofList w.text) config) :
    isScheme w.driver = true := by
  obtain ⟨u, out, -, hcall, hread⟩ := hkeeps
  by_contra hs
  unfold escapeUrl at hcall
  rw [String.toList_ofList] at hcall
  cases hparsed : urlparse checks w.text with
  | error e =>
    rw [hparsed] at hcall
    cases hcall
  | ok r =>
    have hscheme := Written.urlparse_unnamed h (Bool.eq_false_iff.mpr hs) hparsed
    rw [hparsed] at hcall
    cases hport : r.port with
    | error e =>
      simp [bind, Except.bind, hport] at hcall
    | ok port =>
      simp only [bind, Except.bind, hport, pure, Except.pure, Except.ok.injEq] at hcall
      subst hcall
      rw [String.toList_ofList, hsa.unnamed _ hscheme] at hread
      cases hread

theorem keeps_iff_kept (hsa : sa.Documented) (h : w.WellFormed) (hplain : w.PlainCredentials)
    (hs : isScheme w.driver = true) :
    KeepsDatabase sa checks (String.ofList w.text) config ↔
      checkBrackets checks w.netloc = .ok () ∧ checkNetloc checks w.netloc = .ok () ∧
        (∀ port ∈ w.port, number port ≤ 65535) ∧
        keptUrl w config = configured w.meaning config := by
  unfold KeepsDatabase
  rw [String.toList_ofList, hsa.reads w h]
  constructor
  · rintro ⟨u, out, hu, hcall, hread⟩
    obtain ⟨hb, hc, hport, rfl⟩ := (escapeUrl_text h hplain hs out).mp hcall
    rw [String.toList_ofList, makeUrl_created hsa h, ← Option.some.inj hu] at hread
    exact ⟨hb, hc, hport, Option.some.inj hread⟩
  · rintro ⟨hb, hc, hport, hkept⟩
    refine ⟨w.meaning, _, rfl, (escapeUrl_text h hplain hs _).mpr ⟨hb, hc, hport, rfl⟩, ?_⟩
    rw [String.toList_ofList, makeUrl_created hsa h, hkept]

theorem agrees_of_keeps (hsa : sa.Documented) (h : w.WellFormed) (hplain : w.PlainCredentials)
    (hkeeps : KeepsDatabase sa checks (String.ofList w.text) config) : Agrees checks w config := by
  have hs := isScheme_of_keeps hsa h hkeeps
  obtain ⟨hb, hc, hport, hkept⟩ := (keeps_iff_kept hsa h hplain hs).mp hkeeps
  obtain ⟨hdriver, ⟨huser, hempty⟩, hpassword, hhost, hdatabase, hquery⟩ :=
    kept_eq_configured_iff.mp hkept
  obtain ⟨hescape, hblank, halone⟩ := (kept_password_iff h).mp hpassword
  rw [lstrip_parsed_path_iff h, hdriver] at hdatabase
  exact ⟨hplain, ⟨hs, hdriver⟩, huser, hescape, hempty, hblank, halone,
    (map_lowerHost_iff w.host).mp hhost, hport, hdatabase, hquery, hb, hc⟩

theorem keeps_of_agrees (hsa : sa.Documented) (h : w.WellFormed)
    (hagrees : Agrees checks w config) :
    KeepsDatabase sa checks (String.ofList w.text) config := by
  obtain ⟨hs, hdriver⟩ := hagrees.driver
  refine (keeps_iff_kept hsa h hagrees.credentials hs).mpr
    ⟨hagrees.brackets, hagrees.normal, hagrees.port, kept_eq_configured_iff.mpr ?_⟩
  refine ⟨hdriver, ⟨hagrees.username, hagrees.emptyUsername⟩,
    (kept_password_iff h).mpr ⟨hagrees.password, hagrees.emptyPassword, hagrees.alone⟩,
    (map_lowerHost_iff w.host).mpr hagrees.host, ?_, hagrees.query⟩
  rw [lstrip_parsed_path_iff h, hdriver]
  exact hagrees.database

/-- Where the authority ends inside the credentials, a port is read off what is before. -/
theorem misread_of_keeps (hsa : sa.Documented) (h : w.WellFormed) (hplain : ¬ w.PlainCredentials)
    (hkeeps : KeepsDatabase sa checks (String.ofList w.text) config) : w.Misread := by
  have hs := isScheme_of_keeps hsa h hkeeps
  obtain ⟨u, out, -, hcall, -⟩ := hkeeps
  obtain ⟨front, d, back, hinfo, hfront, hd⟩ := Written.exists_cut_userinfo h hplain
  unfold escapeUrl at hcall
  rw [String.toList_ofList] at hcall
  cases hparsed : urlparse checks w.text with
  | error e =>
    rw [hparsed] at hcall
    cases hcall
  | ok r =>
    have hnetloc := Written.urlparse_misread h hs hparsed hinfo hfront hd
    rw [hparsed] at hcall
    cases hport : r.port with
    | error e => simp [bind, Except.bind, hport] at hcall
    | ok port =>
      refine ⟨front, d, back, port, hinfo, hfront, hd, ?_⟩
      rw [← hport]
      unfold ParseResult.port ParseResult.hostinfo
      rw [hnetloc]

end Agreement

/-- **The configured database is the one that is connected to** if the generic parser and the
rendering agree with SQLAlchemy on the URL and the settings, and only then, unless the
generic parser takes a part of the credentials for an address and finds no fault with it. -/
theorem escapeUrl_keeps_iff {sa : Sqlalchemy} (hsa : sa.Documented) (checks : Checks)
    {w : Written} (h : w.WellFormed) (config : DbConfig) :
    (Agrees checks w config → KeepsDatabase sa checks (String.ofList w.text) config) ∧
      (KeepsDatabase sa checks (String.ofList w.text) config →
        Agrees checks w config ∨ ¬ w.PlainCredentials ∧ w.Misread) := by
  refine ⟨keeps_of_agrees hsa h, fun hkeeps => ?_⟩
  by_cases hplain : w.PlainCredentials
  · exact .inl (agrees_of_keeps hsa h hplain hkeeps)
  · exact .inr ⟨hplain, misread_of_keeps hsa h hplain hkeeps⟩

/-- A toolkit that reads and writes the format. -/
def sqlalchemy : Sqlalchemy where
  makeUrl := DatabaseUrl.read
  render := DatabaseUrl.write

theorem sqlalchemy_documented : sqlalchemy.Documented where
  reads := fun _ h => read_text h
  renders := by
    intro w h hquery
    refine read_write (meaning_writable h) ?_
    unfold Written.meaning
    rw [hquery]
    rfl
  alone := by
    intro u hnone
    simp [sqlalchemy, write, written, hnone]
  unnamed := by
    intro u hnone
    have hdriver : splitFirst ':' u.write = ([], some ('/' :: '/' ::
        (before '@' u.written.userinfo ++ (u.written.address ++ u.written.target)))) := by
      refine splitFirst_eq_iff.mpr ⟨?_, List.not_mem_nil⟩
      simp [write, Written.text, written, hnone, after]
    simp only [sqlalchemy, DatabaseUrl.read, hdriver, if_true]

/-- `postgresql://routes@localhost:5432/registry`. -/
def registryUrl : Written where
  driver := "postgresql".toList
  username := some "routes".toList
  host := some "localhost".toList
  port := some "5432".toList
  database := some "registry".toList

theorem registryUrl_wellFormed : registryUrl.WellFormed where
  driver := ⟨by decide, List.forall_iff_forall_mem.mp (by decide)⟩
  username := List.forall_iff_forall_mem.mp (by decide)
  password := by decide
  credentials := nofun
  host := by decide
  hostChars := List.forall_iff_forall_mem.mp (by decide)
  brackets := nofun
  noBrackets := fun _ => by decide
  port := ⟨by decide, List.forall_iff_forall_mem.mp (by decide)⟩
  database := by decide
  rest := fun _ => noUserinfo_of_notMem (by decide)
  safe := List.forall_iff_forall_mem.mp (by decide)

theorem escapeUrl_keeps_registry : KeepsDatabase sqlalchemy Checks.ascii
    (String.ofList registryUrl.text) { password := some "p@ss/word" } :=
  (escapeUrl_keeps_iff sqlalchemy_documented Checks.ascii registryUrl_wellFormed _).1
    { credentials := List.forall_iff_forall_mem.mp (by decide)
      driver := ⟨by decide, by decide⟩
      username := fun _ => Percent.unquote_eq_self_iff.mp (by decide)
      password := nofun
      emptyUsername := nofun
      emptyPassword := by decide
      alone := by decide
      host := by decide
      port := by decide
      database := ⟨_, rfl, by decide, by decide, by decide⟩
      query := by decide
      brackets := rfl
      normal := rfl }

/-- `postgresql://localhost/registry?sslmode=require`. -/
def sslmodeUrl : Written where
  driver := "postgresql".toList
  host := some "localhost".toList
  database := some "registry".toList
  query := some "sslmode=require".toList

/-- The connection is no longer required to be encrypted. -/
theorem escapeUrl_sslmode_lost : sslmodeUrl.WellFormed ∧
    ¬ KeepsDatabase sqlalchemy Checks.ascii (String.ofList sslmodeUrl.text) {} := by
  have h : sslmodeUrl.WellFormed :=
    { driver := ⟨by decide, List.forall_iff_forall_mem.mp (by decide)⟩
      username := nofun
      password := nofun
      credentials := nofun
      host := by decide
      hostChars := List.forall_iff_forall_mem.mp (by decide)
      brackets := nofun
      noBrackets := fun _ => by decide
      port := ⟨by decide, nofun⟩
      database := by decide
      rest := fun _ => noUserinfo_of_notMem (by decide)
      safe := List.forall_iff_forall_mem.mp (by decide) }
  refine ⟨h, fun hkeeps => ?_⟩
  have hquery := (agrees_of_keeps sqlalchemy_documented h nofun hkeeps).query
  exact absurd hquery (by decide)

/-- `postgresql://routes:12/34@db/registry`. -/
def slashUrl : Written where
  driver := "postgresql".toList
  username := some "routes".toList
  password := some "12/34".toList
  host := some "db".toList
  database := some "registry".toList

/-- A password that begins as a port: without settings the text is put together again as it
was, with other credentials it leads to another host. -/
theorem escapeUrl_slash :
    slashUrl.Misread ∧ KeepsDatabase sqlalchemy Checks.ascii (String.ofList slashUrl.text) {} ∧
      ¬ KeepsDatabase sqlalchemy Checks.ascii (String.ofList slashUrl.text)
        { username := some "u", password := some "p" } := by
  refine ⟨⟨"routes:12".toList, '/', "34".toList, some 12, by decide, ?_, rfl, by decide⟩, ?_, ?_⟩
  · exact List.forall_iff_forall_mem.mp (by decide)
  · exact ⟨slashUrl.meaning, String.ofList slashUrl.text, by decide, by decide, by decide⟩
  · rintro ⟨u, out, hu, hout, hread⟩
    have hcreated : escapeUrl sqlalchemy Checks.ascii (String.ofList slashUrl.text)
        { username := some "u", password := some "p" } =
          .ok "postgresql://u:p@routes:12/34@db/registry" := by decide
    cases hcreated.symm.trans hout
    have hother : (sqlalchemy.makeUrl "postgresql://u:p@routes:12/34@db/registry".toList).map
        DatabaseUrl.host = some (some "routes".toList) := by decide
    have hhost : (sqlalchemy.makeUrl (String.ofList slashUrl.text).toList).map
        DatabaseUrl.host = some (some "db".toList) := by decide
    rw [hread] at hother
    rw [hu] at hhost
    exact absurd (hother.symm.trans hhost) (by decide)

end RouteRegistry
