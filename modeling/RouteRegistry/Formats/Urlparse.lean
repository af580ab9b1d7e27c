import RouteRegistry.Formats.Percent
import RouteRegistry.Formats.Url

/-!
# `urllib.parse`

The parser of Python's library: what it strips and removes before it cuts, the scheme it
lowers, the authority with its checks, the properties that read userinfo, host and port off
the authority, and the parameters of a query. Texts are ASCII where they are lowered.

- `urlparse_written`: a URL written from a scheme, an authority and a path is cut at the end
  of the authority, after what the parser removes is gone.
- `ParseResult.Sound`: what can be said of every result.
-/

namespace Urllib

open Url

/-- What a release of Python knows of addresses in brackets and of Unicode. -/
structure Checks where
  /-- `_check_bracketed_netloc` (earlier `_check_bracketed_host`) lets the authority pass. -/
  bracketed : List Char → Bool
  /-- `unicodedata.normalize('NFKC', …)`. -/
  nfkc : List Char → List Char

/-- On an ASCII authority without brackets all releases agree. -/
def Checks.ascii : Checks where
  bracketed := fun _ => false
  nfkc := id

structure ParseResult where
  scheme : List Char := []
  netloc : List Char := []
  path : List Char := []
  params : List Char := []
  query : List Char := []
  fragment : List Char := []
deriving DecidableEq, Repr

/-! ## Parsing -/

/-- `_WHATWG_C0_CONTROL_OR_SPACE`. -/
def isC0OrSpace (c : Char) : Bool := decide (c.toNat ≤ 32)

/-- `_UNSAFE_URL_BYTES_TO_REMOVE`. -/
def isUnsafe (c : Char) : Bool := decide (c = '\t') || decide (c = '\r') || decide (c = '\n')

/-- `scheme_chars`. -/
def isSchemeChar (c : Char) : Bool :=
  c.isAlpha || c.isDigit || decide (c = '+') || decide (c = '-') || decide (c = '.')

def lower (s : List Char) : List Char := s.map Char.toLower

/-- A scheme begins with a letter. -/
def isScheme : List Char → Bool
  | [] => false
  | c :: s => c.isAlpha && (c :: s).all isSchemeChar

def splitScheme (url : List Char) : List Char × List Char :=
  match splitFirst ':' url with
  | (scheme, some rest) => if isScheme scheme then (lower scheme, rest) else ([], url)
  | (_, none) => ([], url)

def checkBrackets (checks : Checks) (netloc : List Char) : Except String Unit :=
  if ('[' ∈ netloc ↔ ']' ∈ netloc) ∧ ('[' ∈ netloc → checks.bracketed netloc = true) then .ok ()
  else .error "Invalid IPv6 URL"

/-- `_checknetloc`: no character is a delimiter in disguise. -/
def checkNetloc (checks : Checks) (netloc : List Char) : Except String Unit :=
  let n := netloc.filter fun c => decide (c ∉ ['@', ':', '#', '?'])
  if netloc.all (fun c => decide (c.toNat < 128)) || decide (n = checks.nfkc n) ||
      !(checks.nfkc n).any (fun c => decide (c ∈ ['/', '?', '#', '@', ':'])) then .ok ()
  else .error "netloc contains invalid characters under NFKC normalization"

/-- The authority and what follows it. -/
def splitNetloc : List Char → List Char × List Char
  | '/' :: '/' :: rest => cut endsAuthority rest
  | url => ([], url)

/-- `urlsplit` once the scheme is cut off. -/
def splitRest (checks : Checks) (scheme url : List Char) : Except String ParseResult := do
  let (netloc, url) := splitNetloc url
  checkBrackets checks netloc
  let (url, fragment) := splitFirst '#' url
  let (path, query) := splitFirst '?' url
  checkNetloc checks netloc
  return { scheme, netloc, path, query := query.getD [], fragment := fragment.getD [] }

def urlsplit (checks : Checks) (url : List Char) : Except String ParseResult :=
  let url := (url.dropWhile isC0OrSpace).filter fun c => !isUnsafe c
  splitRest checks (splitScheme url).1 (splitScheme url).2

/-- The schemes whose paths have parameters. -/
def usesParams : List (List Char) :=
  ["", "ftp", "hdl", "prospero", "http", "imap", "https", "shttp", "rtsp", "rtsps", "rtspu",
    "sip", "sips", "mms", "sftp", "tel"].map String.toList

/-- `_splitparams`: the parameters of the last segment. -/
def splitParams (url : List Char) : List Char × List Char :=
  let (front, last) := splitLast '/' url
  let (segment, params) := splitFirst ';' last
  (before '/' front ++ segment, params.getD [])

/-- The parameters are divided from the path, if the scheme has any. -/
def divideParams (r : ParseResult) : ParseResult :=
  if r.scheme ∈ usesParams then
    { r with path := (splitParams r.path).1, params := (splitParams r.path).2 }
  else r

def urlparse (checks : Checks) (url : List Char) : Except String ParseResult := do
  return divideParams (← urlsplit checks url)

/-! ## Properties -/

/-- Host and port of an address; an empty port is none. -/
def splitHost (info : List Char) : List Char × Option (List Char) :=
  let (host, port) :=
    match splitFirst '[' info with
    | (_, some bracketed) =>
      let (host, rest) := splitFirst ']' bracketed
      (host, (splitFirst ':' (rest.getD [])).2)
    | (_, none) => splitFirst ':' info
  (host, if port = some [] then none else port)

/-- A host in lower case, up to the zone of an address. -/
def lowerHost (host : List Char) : List Char :=
  let (name, zone) := splitFirst '%' host
  lower name ++ after '%' zone

namespace ParseResult

/-- `_userinfo`. -/
def userinfo (r : ParseResult) : Option (List Char) × Option (List Char) :=
  match splitLast '@' r.netloc with
  | (some info, _) => (some (splitFirst ':' info).1, (splitFirst ':' info).2)
  | (none, _) => (none, none)

def username (r : ParseResult) : Option (List Char) := r.userinfo.1

def password (r : ParseResult) : Option (List Char) := r.userinfo.2

/-- `_hostinfo`. -/
def hostinfo (r : ParseResult) : List Char × Option (List Char) :=
  splitHost (splitLast '@' r.netloc).2

def hostname (r : ParseResult) : Option (List Char) :=
  match r.hostinfo.1 with
  | [] => none
  | c :: host => some (lowerHost (c :: host))

def port (r : ParseResult) : Except String (Option Nat) :=
  match r.hostinfo.2 with
  | none => .ok none
  | some port =>
    if port.all Char.isDigit then
      let n := Nat.ofDigitChars 10 port 0
      if n ≤ 65535 then .ok (some n) else .error "Port out of range 0-65535"
    else .error "Port could not be cast to integer value"

end ParseResult

/-! ## Queries -/

/-- `unquote` after `replace('+', ' ')`. -/
def unquotePlus (s : List Char) : List Char :=
  Percent.unquote (s.map fun c => if c = '+' then ' ' else c)

/-- A name and its value; what has no value is dropped, or kept with an empty one. -/
def parameter (keepBlank : Bool) (s : List Char) : Option (List Char × List Char) :=
  if s = [] then none
  else
    match splitFirst '=' s with
    | (name, some value) =>
      if value = [] ∧ keepBlank = false then none else some (unquotePlus name, unquotePlus value)
    | (name, none) => if keepBlank then some (unquotePlus name, []) else none

/-- `parse_qsl`. -/
def parseQsl (keepBlank : Bool) (query : List Char) : List (List Char × List Char) :=
  (query.splitOn '&').filterMap (parameter keepBlank)

theorem isUnsafe_eq_false_iff {c : Char} :
    isUnsafe c = false ↔ c ≠ '\t' ∧ c ≠ '\r' ∧ c ≠ '\n' := by
  simp [isUnsafe, and_assoc]

/-- What holds of no control character and not of the space is not stripped. -/
theorem isC0OrSpace_eq_false {f : Char → Bool} {c : Char}
    (hf : ∀ n < 33, f (Char.ofNat n) = false) (h : f c = true) : isC0OrSpace c = false := by
  refine decide_eq_false fun hle => ?_
  have := hf c.toNat (by omega)
  rw [Char.ofNat_toNat, h] at this
  cases this

/-! ## Lower case -/

section Lower

variable {c d : Char} {s : List Char}

theorem isUpper_iff : c.isUpper = true ↔ 65 ≤ c.val.toNat ∧ c.val.toNat ≤ 90 := by
  have h : c.isUpper = decide (c.val ≥ 'A'.val ∧ c.val ≤ 'Z'.val) := rfl
  rw [h, decide_eq_true_eq, ge_iff_le, UInt32.le_iff_toNat_le, UInt32.le_iff_toNat_le]
  rfl

theorem isLower_iff : c.isLower = true ↔ 97 ≤ c.val.toNat ∧ c.val.toNat ≤ 122 := by
  have h : c.isLower = (decide (c.val ≥ 'a'.val) && decide (c.val ≤ 'z'.val)) := rfl
  rw [h, Bool.and_eq_true, decide_eq_true_eq, decide_eq_true_eq, ge_iff_le,
    UInt32.le_iff_toNat_le, UInt32.le_iff_toNat_le]
  rfl

/-- Lowering makes a small letter of a capital and leaves the rest alone. -/
theorem toLower_cases (c : Char) :
    (c.isUpper = true ∧ c.toLower.isLower = true ∧ c.toLower.isUpper = false) ∨
      (c.isUpper = false ∧ c.toLower = c) := by
  by_cases h : c.val ≥ 'A'.val ∧ c.val ≤ 'Z'.val
  · have hnat := isUpper_iff.mp (decide_eq_true h)
    have hval : c.toLower.val = c.val + 32 := by
      unfold Char.toLower
      rw [dif_pos h]
      rfl
    have hsum : c.toLower.val.toNat = c.val.toNat + 32 := by
      rw [hval, UInt32.toNat_add]
      simp only [UInt32.reduceToNat]
      omega
    refine .inl ⟨isUpper_iff.mpr hnat, isLower_iff.mpr (by omega), Bool.eq_false_iff.mpr ?_⟩
    intro hupper
    have := isUpper_iff.mp hupper
    omega
  · refine .inr ⟨Bool.eq_false_iff.mpr fun hupper => h ?_, ?_⟩
    · exact of_decide_eq_true hupper
    · unfold Char.toLower
      rw [dif_neg h]

theorem eq_of_toLower_eq (h : c.toLower = d) (hd : d.isLower = false) : c = d := by
  rcases toLower_cases c with ⟨-, hlower, -⟩ | ⟨-, hsame⟩
  · rw [h, hd] at hlower
    cases hlower
  · rw [← h, hsame]

theorem toLower_toLower (c : Char) : c.toLower.toLower = c.toLower := by
  rcases toLower_cases c.toLower with ⟨hupper, -, -⟩ | ⟨-, hsame⟩
  · rcases toLower_cases c with ⟨-, -, hnot⟩ | ⟨hnot, hsame⟩
    · rw [hnot] at hupper
      cases hupper
    · rw [hsame, hsame]
  · exact hsame

theorem isAlpha_toLower (h : c.isAlpha = true) : c.toLower.isAlpha = true := by
  unfold Char.isAlpha
  rcases toLower_cases c with ⟨-, hlower, -⟩ | ⟨-, hsame⟩
  · rw [hlower, Bool.or_true]
  · rw [hsame]
    exact h

theorem lower_lower (s : List Char) : lower (lower s) = lower s := by
  unfold lower
  rw [List.map_map]
  exact List.map_congr_left fun c _ => toLower_toLower c

theorem length_lower (s : List Char) : (lower s).length = s.length := by
  simp [lower]

theorem mem_of_mem_lower (h : d ∈ lower s) (hd : d.isLower = false) : d ∈ s := by
  obtain ⟨c, hc, hcd⟩ := List.mem_map.mp h
  exact eq_of_toLower_eq hcd hd ▸ hc

theorem length_lowerHost (host : List Char) : (lowerHost host).length = host.length := by
  obtain ⟨name, zone, h⟩ : ∃ a o, splitFirst '%' host = (a, o) := ⟨_, _, rfl⟩
  have hhost := (splitFirst_eq_iff.mp h).1
  unfold lowerHost
  rw [h, hhost, List.length_append, List.length_append, length_lower]

theorem lowerHost_lowerHost (host : List Char) : lowerHost (lowerHost host) = lowerHost host := by
  obtain ⟨name, zone, h⟩ : ∃ a o, splitFirst '%' host = (a, o) := ⟨_, _, rfl⟩
  have hname := (splitFirst_eq_iff.mp h).2
  have hlower : '%' ∉ lower name := fun hmem => hname (mem_of_mem_lower hmem (by decide))
  have hagain : splitFirst '%' (lower name ++ after '%' zone) = (lower name, zone) :=
    splitFirst_eq_iff.mpr ⟨rfl, hlower⟩
  unfold lowerHost
  rw [h]
  simp only [hagain, lower_lower]

/-- What is no small letter stands in a lowered host only if it stands in the host. -/
theorem mem_of_mem_lowerHost {host : List Char} (h : d ∈ lowerHost host)
    (hd : d.isLower = false) : d ∈ host := by
  obtain ⟨name, zone, hsplit⟩ : ∃ a o, splitFirst '%' host = (a, o) := ⟨_, _, rfl⟩
  have hhost := (splitFirst_eq_iff.mp hsplit).1
  unfold lowerHost at h
  rw [hsplit] at h
  rw [hhost]
  rcases List.mem_append.mp h with h | h
  · exact List.mem_append_left _ (mem_of_mem_lower h hd)
  · exact List.mem_append_right _ h

/-- What holds of small letters and of a host holds of the lowered host. -/
theorem forall_lowerHost {P : Char → Prop} {host : List Char}
    (hsmall : ∀ c, c.isLower = true → P c) (h : ∀ c ∈ host, P c) : ∀ c ∈ lowerHost host, P c := by
  intro c hc
  cases hlower : c.isLower with
  | true => exact hsmall c hlower
  | false => exact h c (mem_of_mem_lowerHost hc hlower)

/-- Small letters are ASCII, and nothing is cut at them. -/
theorem plain_of_isLower (h : c.isLower = true) :
    c.toNat < 128 ∧ delimits c = false ∧ isUnsafe c = false := by
  have hascii : c.toNat < 128 := Nat.lt_of_le_of_lt (isLower_iff.mp h).2 (by decide)
  refine ⟨hascii, ?_, ?_⟩
  · simp only [delimits_eq_false_iff, endsAuthority, Bool.or_eq_false_iff,
      decide_eq_false_iff_not]
    refine ⟨⟨⟨?_, ?_⟩, ?_⟩, ?_, ?_⟩ <;>
    · rintro rfl
      cases h
  · rw [isUnsafe_eq_false_iff]
    refine ⟨?_, ?_, ?_⟩ <;>
    · rintro rfl
      cases h

end Lower

/-! ## Schemes -/

section Scheme

variable {scheme t : List Char} {c : Char}

theorem isSchemeChar_toLower (h : isSchemeChar c = true) : isSchemeChar c.toLower = true := by
  rcases toLower_cases c with ⟨-, hlower, -⟩ | ⟨-, hsame⟩
  · unfold isSchemeChar Char.isAlpha
    simp only [hlower, Bool.or_true, Bool.true_or]
  · rw [hsame]
    exact h

theorem isScheme_lower (h : isScheme scheme = true) : isScheme (lower scheme) = true := by
  cases scheme with
  | nil => cases h
  | cons c s =>
    simp only [isScheme, Bool.and_eq_true, List.all_eq_true] at h
    simp only [lower, List.map_cons, isScheme, Bool.and_eq_true, List.all_eq_true]
    refine ⟨isAlpha_toLower h.1, fun d hd => ?_⟩
    rw [← List.map_cons] at hd
    obtain ⟨e, he, rfl⟩ := List.mem_map.mp hd
    exact isSchemeChar_toLower (h.2 e he)

theorem isSchemeChar_of_isScheme (h : isScheme scheme = true) (hc : c ∈ scheme) :
    isSchemeChar c = true := by
  cases scheme with
  | nil => cases hc
  | cons d s =>
    simp only [isScheme, Bool.and_eq_true, List.all_eq_true] at h
    exact h.2 c hc

theorem splitScheme_written (h : isScheme scheme = true) :
    splitScheme (scheme ++ ':' :: t) = (lower scheme, t) := by
  have hcolon : ':' ∉ scheme := fun hmem =>
    absurd (isSchemeChar_of_isScheme h hmem) (by decide)
  have hsplit : splitFirst ':' (scheme ++ ':' :: t) = (scheme, some t) :=
    splitFirst_eq_iff.mpr ⟨rfl, hcolon⟩
  unfold splitScheme
  simp only [hsplit, h, if_true]

/-- No part of a scheme is stripped or removed. -/
theorem strip_written (h : isScheme scheme = true) :
    ((scheme ++ ':' :: t).dropWhile isC0OrSpace).filter (fun c => !isUnsafe c) =
      scheme ++ ':' :: t.filter fun c => !isUnsafe c := by
  have hsafe : ∀ c ∈ scheme, (!isUnsafe c) = true := by
    intro c hc
    have hchar := isSchemeChar_of_isScheme h hc
    have hkept : isUnsafe c = false := by
      rw [isUnsafe_eq_false_iff]
      refine ⟨?_, ?_, ?_⟩ <;> rintro rfl <;> exact absurd hchar (by decide)
    rw [hkept]
    rfl
  have hstart : (scheme ++ ':' :: t).dropWhile isC0OrSpace = scheme ++ ':' :: t := by
    cases scheme with
    | nil => cases h
    | cons c s =>
      have halpha : c.isAlpha = true := by
        simp only [isScheme, Bool.and_eq_true] at h
        exact h.1
      have hlarge : isC0OrSpace c = false := isC0OrSpace_eq_false (by decide) halpha
      simp [hlarge]
  rw [hstart, List.filter_append, List.filter_eq_self.mpr hsafe]
  rfl

end Scheme

/-! ## What is parsed -/

/-- What can be said of every result: its parts contain nothing that they would be cut at,
and nothing that is removed. -/
structure ParseResult.Sound (checks : Checks) (r : ParseResult) : Prop where
  scheme : r.scheme = [] ∨ isScheme r.scheme = true ∧ lower r.scheme = r.scheme
  netloc : ∀ c ∈ r.netloc, endsAuthority c = false ∧ isUnsafe c = false
  path : ∀ c ∈ r.path, c ≠ '?' ∧ c ≠ '#' ∧ isUnsafe c = false
  rooted : r.netloc ≠ [] → ∀ c ∈ r.path.head?, endsAuthority c = true
  params : r.scheme ∈ usesParams → (splitParams r.path).1 = r.path
  brackets : checkBrackets checks r.netloc = .ok ()
  normal : checkNetloc checks r.netloc = .ok ()

section Parsed

variable {checks : Checks} {scheme netloc path url rest : List Char} {r : ParseResult}

theorem splitScheme_cases (url : List Char) :
    splitScheme url = ([], url) ∨
      ∃ scheme rest, url = scheme ++ ':' :: rest ∧ isScheme scheme = true ∧
        splitScheme url = (lower scheme, rest) := by
  unfold splitScheme
  obtain ⟨scheme, o, h⟩ : ∃ a o, splitFirst ':' url = (a, o) := ⟨_, _, rfl⟩
  rw [h]
  cases o with
  | none => exact .inl rfl
  | some rest =>
    cases hscheme : isScheme scheme with
    | false => exact .inl (by simp [hscheme])
    | true => exact .inr ⟨scheme, rest, (splitFirst_eq_iff.mp h).1, hscheme, by simp [hscheme]⟩

theorem splitNetloc_cases (url : List Char) :
    splitNetloc url = ([], url) ∨
      ∃ netloc rest, url = '/' :: '/' :: (netloc ++ rest) ∧ splitNetloc url = (netloc, rest) ∧
        (∀ c ∈ netloc, endsAuthority c = false) ∧
        ∀ c ∈ rest.head?, endsAuthority c = true := by
  unfold splitNetloc
  split
  · rename_i rest
    obtain ⟨a, b, h⟩ : ∃ a b, cut endsAuthority rest = (a, b) := ⟨_, _, rfl⟩
    obtain ⟨hrest, hin, hhead⟩ := cut_eq_iff.mp h
    exact .inr ⟨a, b, by rw [hrest], h, hin, hhead⟩
  · exact .inl rfl

theorem splitRest_eq_ok (h : splitRest checks scheme url = .ok r) :
    r.scheme = scheme ∧ r.netloc = (splitNetloc url).1 ∧
      checkBrackets checks r.netloc = .ok () ∧ checkNetloc checks r.netloc = .ok () ∧
      ∃ query fragment, (splitNetloc url).2 = r.path ++ after '?' query ++ after '#' fragment ∧
        '?' ∉ r.path ∧ '#' ∉ r.path := by
  unfold splitRest at h
  obtain ⟨netloc, rest, hnetloc⟩ : ∃ a b, splitNetloc url = (a, b) := ⟨_, _, rfl⟩
  obtain ⟨front, fragment, hfragment⟩ : ∃ a o, splitFirst '#' rest = (a, o) := ⟨_, _, rfl⟩
  obtain ⟨path, query, hquery⟩ : ∃ a o, splitFirst '?' front = (a, o) := ⟨_, _, rfl⟩
  obtain ⟨hrest, hhash⟩ := splitFirst_eq_iff.mp hfragment
  obtain ⟨hfront, hquestion⟩ := splitFirst_eq_iff.mp hquery
  simp only [hnetloc, hfragment, hquery] at h
  cases hb : checkBrackets checks netloc with
  | error e =>
    rw [hb] at h
    cases h
  | ok u =>
    cases hc : checkNetloc checks netloc with
    | error e =>
      rw [hb, hc] at h
      cases h
    | ok v =>
      rw [hb, hc] at h
      cases h
      refine ⟨rfl, by rw [hnetloc], hb, hc, query, fragment, ?_, hquestion, fun hmem => ?_⟩
      · rw [hnetloc, hrest, hfront]
      · rw [hfront] at hhash
        exact hhash (List.mem_append_left _ hmem)

theorem splitParams_isPrefix (path : List Char) : (splitParams path).1 <+: path := by
  obtain ⟨front, last, hlast⟩ : ∃ o b, splitLast '/' path = (o, b) := ⟨_, _, rfl⟩
  obtain ⟨segment, params, hparams⟩ : ∃ a o, splitFirst ';' last = (a, o) := ⟨_, _, rfl⟩
  unfold splitParams
  simp only [hlast, hparams]
  refine ⟨after ';' params, ?_⟩
  rw [(splitLast_eq_iff.mp hlast).1, (splitFirst_eq_iff.mp hparams).1, List.append_assoc]

theorem splitParams_splitParams (path : List Char) :
    splitParams (splitParams path).1 = ((splitParams path).1, []) := by
  obtain ⟨front, last, hlast⟩ : ∃ o b, splitLast '/' path = (o, b) := ⟨_, _, rfl⟩
  obtain ⟨segment, params, hparams⟩ : ∃ a o, splitFirst ';' last = (a, o) := ⟨_, _, rfl⟩
  obtain ⟨hsegment, hsemicolon⟩ := splitFirst_eq_iff.mp hparams
  have hslash : '/' ∉ segment := fun hmem =>
    (splitLast_eq_iff.mp hlast).2 (hsegment ▸ List.mem_append_left _ hmem)
  have hfront : splitLast '/' (before '/' front ++ segment) = (front, segment) :=
    splitLast_eq_iff.mpr ⟨rfl, hslash⟩
  have hfirst : splitFirst ';' segment = (segment, none) :=
    splitFirst_of_notMem hsemicolon
  have hpath : (splitParams path).1 = before '/' front ++ segment := by
    unfold splitParams
    simp only [hlast, hparams]
  rw [hpath]
  unfold splitParams
  simp only [hfront, hfirst]
  rfl

theorem divideParams_spec (r : ParseResult) :
    (divideParams r).scheme = r.scheme ∧ (divideParams r).netloc = r.netloc ∧
      (divideParams r).path <+: r.path ∧
      (r.scheme ∈ usesParams → (splitParams (divideParams r).path).1 = (divideParams r).path) := by
  unfold divideParams
  split
  · refine ⟨rfl, rfl, splitParams_isPrefix r.path, fun _ => ?_⟩
    rw [splitParams_splitParams]
  · rename_i hnot
    exact ⟨rfl, rfl, List.prefix_rfl, fun hmem => absurd hmem hnot⟩

theorem urlparse_eq_ok (h : urlparse checks url = .ok r) :
    ∃ r₀, urlsplit checks url = .ok r₀ ∧ r.scheme = r₀.scheme ∧ r.netloc = r₀.netloc ∧
      r.path <+: r₀.path ∧ (r.scheme ∈ usesParams → (splitParams r.path).1 = r.path) := by
  unfold urlparse at h
  cases hsplit : urlsplit checks url with
  | error e =>
    rw [hsplit] at h
    cases h
  | ok r₀ =>
    rw [hsplit] at h
    cases h
    obtain ⟨hscheme, hnetloc, hpath, hparams⟩ := divideParams_spec r₀
    exact ⟨r₀, rfl, hscheme, hnetloc, hpath, fun hmem => hparams (hscheme ▸ hmem)⟩

theorem urlparse_sound (h : urlparse checks url = .ok r) : r.Sound checks := by
  obtain ⟨r₀, hsplit, hscheme, hnetloc, hpath, hparams⟩ := urlparse_eq_ok h
  unfold urlsplit at hsplit
  generalize hurl : (url.dropWhile isC0OrSpace).filter (fun c => !isUnsafe c) = kept at hsplit
  have hkept : ∀ c ∈ kept, isUnsafe c = false := by
    intro c hc
    rw [← hurl, List.mem_filter] at hc
    simpa using hc.2
  have hrest : ∀ c ∈ (splitScheme kept).2, isUnsafe c = false := by
    rcases splitScheme_cases kept with hs | ⟨s, rest, hkeep, -, hs⟩
    · rw [hs]
      exact hkept
    · rw [hs]
      exact fun c hc => hkept c (hkeep ▸ List.mem_append_right _ (List.mem_cons_of_mem _ hc))
  obtain ⟨hs, hn, hb, hc, query, fragment, htarget, hquestion, hhash⟩ := splitRest_eq_ok hsplit
  have hinpath : ∀ c ∈ r₀.path, c ∈ (splitNetloc (splitScheme kept).2).2 := by
    intro c hc
    rw [htarget]
    exact List.mem_append_left _ (List.mem_append_left _ hc)
  have hcases := splitNetloc_cases (splitScheme kept).2
  refine ⟨?_, fun c hc => ?_, fun c hc => ?_, fun hne c hc => ?_, hparams, hnetloc ▸ hb,
    hnetloc ▸ hc⟩
  · rw [hscheme, hs]
    rcases splitScheme_cases kept with h | ⟨s, rest, -, his, h⟩
    · rw [h]
      exact .inl rfl
    · rw [h]
      exact .inr ⟨isScheme_lower his, lower_lower s⟩
  · rw [hnetloc, hn] at hc
    rcases hcases with h | ⟨n, t, hurl', h, hin, -⟩
    · rw [h] at hc
      cases hc
    · rw [h] at hc
      refine ⟨hin c hc, hrest c ?_⟩
      rw [hurl']
      simp [hc]
  · have hmem := hpath.subset hc
    refine ⟨fun h => hquestion (h ▸ hmem), fun h => hhash (h ▸ hmem), hrest c ?_⟩
    have hin := hinpath c hmem
    rcases hcases with h | ⟨n, t, hurl', h, -, -⟩
    · rwa [h] at hin
    · rw [h] at hin
      rw [hurl']
      simp [hin]
  · rcases hcases with h | ⟨n, t, -, h, -, hhead⟩
    · rw [hnetloc, hn, h] at hne
      exact absurd rfl hne
    · obtain ⟨tail, hpath'⟩ := hpath
      have ht : t = r₀.path ++ after '?' query ++ after '#' fragment := by
        rw [← htarget, h]
      refine hhead c ?_
      rw [ht, ← hpath']
      cases hp : r.path with
      | nil =>
        rw [hp] at hc
        cases hc
      | cons d p =>
        rw [hp] at hc
        simpa using hc

/-- Behind a scheme, what is kept of the rest is parsed. -/
theorem urlsplit_written (hs : isScheme scheme = true) (rest : List Char) :
    urlsplit checks (scheme ++ ':' :: '/' :: '/' :: rest) =
      splitRest checks (lower scheme) ('/' :: '/' :: rest.filter fun c => !isUnsafe c) := by
  unfold urlsplit
  simp only [strip_written hs, splitScheme_written hs]
  rfl

/-- The authority of a written URL ends where the authority of what is kept ends. -/
theorem netloc_written (hs : isScheme scheme = true)
    (h : urlparse checks (scheme ++ ':' :: '/' :: '/' :: rest) = .ok r) :
    r.netloc = (cut endsAuthority (rest.filter fun c => !isUnsafe c)).1 := by
  obtain ⟨r₀, hsplit, -, hnetloc, -⟩ := urlparse_eq_ok h
  rw [urlsplit_written hs] at hsplit
  rw [hnetloc, (splitRest_eq_ok hsplit).2.1]
  rfl

/-- **Sound parts are read back.** A URL written from a scheme, an authority and a path
that are sound is parsed to them. -/
theorem urlparse_written (h : ParseResult.Sound checks { scheme, netloc, path })
    (hs : scheme ≠ []) (hn : netloc ≠ []) :
    urlparse checks (scheme ++ ':' :: '/' :: '/' :: (netloc ++ path)) =
      .ok { scheme, netloc, path } := by
  obtain ⟨his, hlow⟩ := h.scheme.resolve_left hs
  have hkept : (netloc ++ path).filter (fun c => !isUnsafe c) = netloc ++ path := by
    refine List.filter_eq_self.mpr fun c hc => ?_
    rcases List.mem_append.mp hc with hc | hc
    · rw [(h.netloc c hc).2]
      rfl
    · rw [(h.path c hc).2.2]
      rfl
  have hnetloc : splitNetloc ('/' :: '/' :: (netloc ++ path)) = (netloc, path) :=
    cut_eq_iff.mpr ⟨rfl, fun c hc => (h.netloc c hc).1, h.rooted hn⟩
  have hfragment : splitFirst '#' path = (path, none) :=
    splitFirst_of_notMem fun hmem => (h.path _ hmem).2.1 rfl
  have hquery : splitFirst '?' path = (path, none) :=
    splitFirst_of_notMem fun hmem => (h.path _ hmem).1 rfl
  have hsplit : urlsplit checks (scheme ++ ':' :: '/' :: '/' :: (netloc ++ path)) =
      .ok { scheme, netloc, path } := by
    rw [urlsplit_written his, hlow, hkept]
    have hb : checkBrackets checks netloc = .ok () := h.brackets
    have hc : checkNetloc checks netloc = .ok () := h.normal
    unfold splitRest
    simp only [hnetloc, hfragment, hquery, hb, hc]
    rfl
  have hfixed : scheme ∈ usesParams → splitParams path = (path, []) := by
    intro hmem
    have := splitParams_splitParams path
    rwa [h.params hmem] at this
  have hdivide : divideParams { scheme, netloc, path } = { scheme, netloc, path } := by
    unfold divideParams
    split
    · rename_i hmem
      rw [hfixed hmem]
    · rfl
  unfold urlparse
  rw [hsplit]
  exact congrArg Except.ok hdivide

end Parsed

/-! ## Addresses -/

section Addresses

variable {info host : List Char} {r : ParseResult}

theorem splitHost_cases (info : List Char) :
    ((splitHost info).1.length < info.length ∧ (splitHost info).1 ⊆ info ∧
        (':' ∈ info ∨ '[' ∈ info)) ∨
      splitHost info = (info, none) ∧ ':' ∉ info ∧ '[' ∉ info := by
  unfold splitHost
  obtain ⟨front, o, hfront⟩ : ∃ a o, splitFirst '[' info = (a, o) := ⟨_, _, rfl⟩
  obtain ⟨hinfo, hbracket⟩ := splitFirst_eq_iff.mp hfront
  rw [hfront]
  cases o with
  | some bracketed =>
    obtain ⟨host, rest, hhost⟩ : ∃ a o, splitFirst ']' bracketed = (a, o) := ⟨_, _, rfl⟩
    have hinner := (splitFirst_eq_iff.mp hhost).1
    simp only [hhost]
    refine .inl ⟨?_, fun c hc => ?_, .inr ?_⟩
    · rw [hinfo, hinner]
      simp only [after_some, List.length_append, List.length_cons]
      omega
    · rw [hinfo, hinner]
      simp [hc]
    · rw [hinfo]
      simp
  | none =>
    obtain ⟨host, port, hhost⟩ : ∃ a o, splitFirst ':' info = (a, o) := ⟨_, _, rfl⟩
    obtain ⟨hinner, hcolon⟩ := splitFirst_eq_iff.mp hhost
    have hno : '[' ∉ info := by
      rw [hinfo]
      simpa using hbracket
    simp only [hhost]
    cases port with
    | none =>
      obtain rfl : info = host := by
        simpa using hinner
      exact .inr ⟨rfl, hcolon, hno⟩
    | some port =>
      refine .inl ⟨?_, fun c hc => ?_, .inl ?_⟩
      · rw [hinner]
        simp only [after_some, List.length_append, List.length_cons]
        omega
      · rw [hinner]
        exact List.mem_append_left _ hc
      · rw [hinner]
        simp

theorem length_splitHost_le (info : List Char) : (splitHost info).1.length ≤ info.length := by
  rcases splitHost_cases info with ⟨hlt, -⟩ | ⟨h, -⟩
  · omega
  · rw [h]

/-- Without a port and brackets an address is its host. -/
theorem splitHost_plain (hcolon : ':' ∉ info) (hbracket : '[' ∉ info) :
    splitHost info = (info, none) := by
  rcases splitHost_cases info with ⟨-, -, hmem⟩ | ⟨hsame, -⟩
  · exact absurd hmem (not_or.mpr ⟨hcolon, hbracket⟩)
  · exact hsame

theorem plain_of_length_splitHost (h : info.length ≤ (splitHost info).1.length) :
    ':' ∉ info ∧ '[' ∉ info := by
  rcases splitHost_cases info with ⟨hlt, -⟩ | ⟨-, hplain⟩
  · omega
  · exact hplain

theorem splitHost_subset (info : List Char) : (splitHost info).1 ⊆ info := by
  rcases splitHost_cases info with ⟨-, hsub, -⟩ | ⟨h, -⟩
  · exact hsub
  · rw [h]
    exact List.Subset.refl info

theorem hostname_eq_some_iff :
    r.hostname = some host ↔ r.hostinfo.1 ≠ [] ∧ host = lowerHost r.hostinfo.1 := by
  unfold ParseResult.hostname
  cases r.hostinfo.1 with
  | nil => simp
  | cons c raw => simp [eq_comm]

theorem length_hostname (h : r.hostname = some host) : host.length = r.hostinfo.1.length := by
  rw [(hostname_eq_some_iff.mp h).2, length_lowerHost]

theorem ParseResult.Sound.hostname {checks : Checks} (hs : r.Sound checks)
    (h : r.hostname = some host) : ∀ c ∈ host, endsAuthority c = false ∧ isUnsafe c = false := by
  rw [(hostname_eq_some_iff.mp h).2]
  refine forall_lowerHost (fun c hc => ?_) (fun c hc => hs.netloc c ?_)
  · obtain ⟨-, hdelimits, hsafe⟩ := plain_of_isLower hc
    exact ⟨(delimits_eq_false_iff.mp hdelimits).1, hsafe⟩
  · rw [(splitLast_spec '@' r.netloc).1]
    exact List.mem_append_right _ (splitHost_subset _ hc)

theorem netloc_ne_nil (h : r.hostname = some host) : r.netloc ≠ [] := by
  intro hnil
  apply (hostname_eq_some_iff.mp h).1
  unfold ParseResult.hostinfo
  rw [hnil]
  rfl

/-- A hostname is lowered already. -/
theorem hostname_of_hostname {q : ParseResult} (h : r.hostname = some host)
    (hq : q.hostinfo.1 = host) : q.hostname = some host := by
  obtain ⟨hne, hlower⟩ := hostname_eq_some_iff.mp h
  rw [hostname_eq_some_iff, hq]
  refine ⟨fun hnil => hne ?_, by rw [hlower, lowerHost_lowerHost]⟩
  apply List.length_eq_zero_iff.mp
  rw [← length_hostname h, hnil]
  rfl

/-- A hostname has no `@`: it stands behind the last one. -/
theorem at_notMem_hostname (h : r.hostname = some host) : '@' ∉ host := by
  intro hmem
  rw [(hostname_eq_some_iff.mp h).2] at hmem
  have hinfo := splitHost_subset _ (mem_of_mem_lowerHost hmem (by decide))
  exact (splitLast_spec '@' r.netloc).2 hinfo

end Addresses

end Urllib
