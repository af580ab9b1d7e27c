import RouteRegistry.Formats.Templates
import RouteRegistry.Formats.Text
import RouteRegistry.Formats.Urlparse

/-!
# Joining URLs

`urljoin` of Python's library: the URL is parsed under the scheme of the base, and what it does not
give itself is taken from the base. Paths are joined segment by segment, where `.` and `..` move
around in what has been joined so far.

`libUrljoin_written`: joined to a directory, a path to a file leads to a file below the root of
the same authority, and that is read off the result again (`urlparse_fileUrl`).
-/

namespace Urllib

open Url

/-! ## Definitions -/

def usesRelative : List (List Char) :=
  ["", "ftp", "http", "gopher", "nntp", "imap", "wais", "file", "https", "shttp", "mms",
    "prospero", "rtsp", "rtsps", "rtspu", "sftp", "svn", "svn+ssh", "ws", "wss"].map String.toList

def usesNetloc : List (List Char) :=
  ["", "ftp", "http", "gopher", "nntp", "telnet", "imap", "wais", "file", "mms", "https", "shttp",
    "snews", "prospero", "rtsp", "rtsps", "rtspu", "rsync", "svn", "svn+ssh", "sftp", "nfs", "git",
    "git+ssh", "ws", "wss"].map String.toList

/-- `urlsplit(url, scheme)`: a URL without a scheme has the given one. -/
def urlsplitIn (checks : Checks) (scheme url : List Char) : Except String ParseResult :=
  let url := (url.dropWhile isC0OrSpace).filter fun c => !isUnsafe c
  match splitScheme url with
  | ([], url) => splitRest checks scheme url
  | (own, url) => splitRest checks own url

def urlparseIn (checks : Checks) (scheme url : List Char) : Except String ParseResult := do
  return divideParams (← urlsplitIn checks scheme url)

/-- A path behind an authority begins with a slash. -/
def rooted : List Char → List Char
  | [] => []
  | c :: path => if c = '/' then c :: path else '/' :: c :: path

/-- `bare` writes the path of a scheme without an authority, where releases differ. -/
def urlunsplit (bare : List Char → List Char → List Char) (r : ParseResult) : List Char :=
  let target :=
    if r.netloc = [] then bare r.scheme r.path else '/' :: '/' :: (r.netloc ++ rooted r.path)
  let located := if r.scheme = [] then target else r.scheme ++ ':' :: target
  located ++ (if r.query = [] then [] else '?' :: r.query) ++
    if r.fragment = [] then [] else '#' :: r.fragment

def urlunparse (bare : List Char → List Char → List Char) (r : ParseResult) : List Char :=
  urlunsplit bare
    { r with path := if r.params = [] then r.path else r.path ++ ';' :: r.params, params := [] }

/-- The segments of the path in the directory of the base. -/
def joinSegments (base path : List Char) : List (List Char) :=
  if path.head? = some '/' then path.splitOn '/'
  else
    let parts := base.splitOn '/'
    let directory := if parts.getLast? = some [] then parts else parts.dropLast
    let segments := directory ++ path.splitOn '/'
    let middle := (segments.drop 1).dropLast.filter fun s => decide (s ≠ [])
    segments.take 1 ++ middle ++ (segments.drop 1).getLast?.toList

/-- One segment further; above the root is the root. -/
def enter (resolved : List (List Char)) (segment : List Char) : List (List Char) :=
  if segment = ['.', '.'] then resolved.dropLast
  else if segment = ['.'] then resolved
  else resolved ++ [segment]

def resolve (segments : List (List Char)) : List (List Char) :=
  let resolved := segments.foldl enter []
  if segments.getLast? = some ['.'] ∨ segments.getLast? = some ['.', '.'] then resolved ++ [[]]
  else resolved

/-- `urllib.parse.urljoin`. -/
def libUrljoin (checks : Checks) (bare : List Char → List Char → List Char)
    (base url : List Char) : Except String (List Char) := do
  if base = [] then return url
  if url = [] then return base
  let b ← urlparse checks base
  let u ← urlparseIn checks b.scheme url
  if u.scheme ≠ b.scheme ∨ !usesRelative.contains u.scheme then return url
  if usesNetloc.contains u.scheme ∧ u.netloc ≠ [] then return urlunparse bare u
  let netloc := if usesNetloc.contains u.scheme then b.netloc else u.netloc
  if u.path = [] ∧ u.params = [] then
    let query := if u.query = [] then b.query else u.query
    return urlunparse bare { u with netloc, query, path := b.path, params := b.params }
  let path := List.intercalate ['/'] (resolve (joinSegments b.path u.path))
  return urlunparse bare { u with netloc, path := if path = [] then ['/'] else path }

/-! ## Files in directories -/

section Files

variable {checks : Checks} {bare : List Char → List Char → List Char}
  {scheme netloc path directory file : List Char}

/-- A reference to a file: its directories, each of which may be `.` or `..`, and its name. Nothing
in it is stripped, or read as something else. -/
structure Reference (path : List Char) (directories : List (List Char)) (file : List Char) :
    Prop where
  segments : path.splitOn '/' = directories ++ [file]
  plain : ∀ c ∈ path, isC0OrSpace c = false ∧ c ∉ [':', '?', '#', ';']
  file : file ≠ [] ∧ file ≠ ['.'] ∧ file ≠ ['.', '.']
  relative : path.head? ≠ some '/'

theorem isUnsafe_eq_false {c : Char} (h : isC0OrSpace c = false) : isUnsafe c = false := by
  rw [isUnsafe_eq_false_iff]
  refine ⟨?_, ?_, ?_⟩ <;> rintro rfl <;> exact absurd h (by decide)

theorem splitParams_of_notMem (h : ';' ∉ path) : splitParams path = (path, []) := by
  obtain ⟨front, last, hlast⟩ : ∃ o b, splitLast '/' path = (o, b) := ⟨_, _, rfl⟩
  obtain ⟨hpath, -⟩ := splitLast_eq_iff.mp hlast
  have hfirst : splitFirst ';' last = (last, none) :=
    splitFirst_of_notMem fun hmem => h (hpath ▸ List.mem_append_right _ hmem)
  unfold splitParams
  simp only [hlast, hfirst]
  exact Prod.ext hpath.symm rfl

/-- A reference is parsed as a path, under whatever scheme. -/
theorem Reference.parsed {directories : List (List Char)} (h : Reference path directories file)
    (checks : Checks) (scheme : List Char) :
    urlparseIn checks scheme path = .ok { scheme, path } := by
  have hkept : (path.dropWhile isC0OrSpace).filter (fun c => !isUnsafe c) = path := by
    have hdrop : path.dropWhile isC0OrSpace = path := by
      cases path with
      | nil => rfl
      | cons c s =>
        rw [List.dropWhile_cons_of_neg]
        rw [(h.plain c List.mem_cons_self).1]
        exact Bool.false_ne_true
    rw [hdrop]
    refine List.filter_eq_self.mpr fun c hc => ?_
    rw [isUnsafe_eq_false (h.plain c hc).1]
    rfl
  have hnot : ∀ c ∈ [':', '?', '#', ';'], c ∉ path := fun c hc hmem => (h.plain c hmem).2 hc
  have hscheme : splitScheme path = ([], path) := by
    unfold splitScheme
    rw [splitFirst_of_notMem (hnot ':' (by simp))]
  have hnetloc : splitNetloc path = ([], path) := by
    rcases splitNetloc_cases path with hcut | ⟨netloc, rest, hpath, -⟩
    · exact hcut
    · exact absurd (by rw [hpath]; rfl) h.relative
  have hfragment : splitFirst '#' path = (path, none) := splitFirst_of_notMem (hnot '#' (by simp))
  have hquery : splitFirst '?' path = (path, none) := splitFirst_of_notMem (hnot '?' (by simp))
  have hsplit : urlsplitIn checks scheme path = .ok { scheme, path } := by
    unfold urlsplitIn splitRest
    simp only [hkept, hscheme, hnetloc, hfragment, hquery]
    rfl
  have hdivide : divideParams { scheme, path } = { scheme, path } := by
    unfold divideParams
    split
    · rw [splitParams_of_notMem (hnot ';' (by simp))]
    · rfl
  unfold urlparseIn
  rw [hsplit]
  exact congrArg Except.ok hdivide

/-- The folders of a path: its segments with a name. -/
def folders (path : List Char) : List (List Char) :=
  (path.splitOn '/').filter fun s => decide (s ≠ [])

/-- Where a reference leads from some folders. -/
def destination (base directories : List (List Char)) (file : List Char) : List (List Char) :=
  (base ++ directories.filter fun s => decide (s ≠ [])).foldl enter [] ++ [file]

/-- The URL of a file below the root. -/
def fileUrl (scheme netloc : List Char) (segments : List (List Char)) : List Char :=
  scheme ++ ':' :: '/' :: '/' :: (netloc ++ '/' :: List.intercalate ['/'] segments)

/-- What is read off it. -/
def fileParts (scheme netloc : List Char) (segments : List (List Char)) : ParseResult where
  scheme := scheme
  netloc := netloc
  path := '/' :: List.intercalate ['/'] segments

theorem mem_folders {segment : List Char} (h : segment ∈ folders path) :
    segment ≠ [] ∧ '/' ∉ segment := by
  obtain ⟨hmem, hne⟩ := List.mem_filter.mp h
  exact ⟨of_decide_eq_true hne, Templates.notMem_of_mem_splitOn hmem⟩

/-- Nothing is entered but segments. -/
theorem foldl_enter_subset {base segments : List (List Char)} :
    segments.foldl enter base ⊆ base ++ segments := by
  induction segments generalizing base with
  | nil => simp
  | cons s segments ih =>
    intro x hx
    rcases List.mem_append.mp (ih hx) with hx | hx
    · unfold enter at hx
      split_ifs at hx with hup hstay
      · exact List.mem_append_left _ (List.mem_of_mem_dropLast hx)
      · exact List.mem_append_left _ hx
      · rcases List.mem_append.mp hx with hx | hx
        · exact List.mem_append_left _ hx
        · exact List.mem_append_right _ (List.mem_singleton.mp hx ▸ List.mem_cons_self)
    · exact List.mem_append_right _ (List.mem_cons_of_mem s hx)

/-- With the empty segment of the root in front the same is entered, and the root may be left. -/
theorem foldl_enter_root (base segments : List (List Char)) :
    segments.foldl enter ([] :: base) = [] :: segments.foldl enter base ∨
      segments.foldl enter ([] :: base) = segments.foldl enter base := by
  induction segments generalizing base with
  | nil => exact .inl rfl
  | cons s segments ih =>
    rw [List.foldl_cons, List.foldl_cons]
    by_cases hup : s = ['.', '.']
    · cases base with
      | nil => exact .inr (by rw [hup]; rfl)
      | cons b base =>
        have hleft : enter ([] :: b :: base) s = [] :: enter (b :: base) s := by
          unfold enter
          rw [if_pos hup, if_pos hup]
          rfl
        rw [hleft]
        exact ih (enter (b :: base) s)
    · have hleft : enter ([] :: base) s = [] :: enter base s := by
        unfold enter
        rw [if_neg hup, if_neg hup]
        split_ifs
        · rfl
        · rfl
      rw [hleft]
      exact ih (enter base s)

variable {base : List Char} {directories : List (List Char)}

theorem mem_of_mem_splitOn {segment : List Char} {c : Char} (h : segment ∈ path.splitOn '/')
    (hc : c ∈ segment) : c ∈ path := by
  have hback : List.intercalate ['/'] (path.splitOn '/') = path := List.intercalate_splitOn '/'
  rw [← hback]
  generalize path.splitOn '/' = segments at h
  induction segments with
  | nil => cases h
  | cons s segments ih =>
    cases segments with
    | nil =>
      rw [List.intercalate_singleton, ← List.mem_singleton.mp h]
      exact hc
    | cons next segments =>
      rw [List.intercalate_cons_cons]
      rcases List.mem_cons.mp h with rfl | h
      · exact List.mem_append_left _ (List.mem_append_left _ hc)
      · exact List.mem_append_right _ (ih h)

/-- The last segment of a path stands behind a slash. -/
theorem intercalate_concat (segments : List (List Char)) (last : List Char) :
    ∃ front, '/' :: List.intercalate ['/'] (segments ++ [last]) = front ++ '/' :: last := by
  induction segments with
  | nil => exact ⟨[], by rw [List.nil_append, List.intercalate_singleton, List.nil_append]⟩
  | cons s segments ih =>
    obtain ⟨front, hfront⟩ := ih
    refine ⟨'/' :: s ++ front, ?_⟩
    rw [List.cons_append, List.intercalate_cons_of_ne_nil (by simp), List.append_assoc,
      List.singleton_append, hfront]
    simp

theorem Reference.file_mem (h : Reference path directories file) : file ∈ path.splitOn '/' := by
  rw [h.segments]
  exact List.mem_append_right _ (List.mem_singleton_self file)

/-- A destination has no empty segment. -/
theorem mem_destination (h : Reference path directories file) {segment : List Char}
    (hs : segment ∈ destination (folders base) directories file) :
    segment ≠ [] ∧ '/' ∉ segment ∧
      (segment ∈ base.splitOn '/' ∨ segment ∈ path.splitOn '/') := by
  rcases List.mem_append.mp hs with hs | hs
  · have hin := foldl_enter_subset hs
    rw [List.nil_append] at hin
    rcases List.mem_append.mp hin with hin | hin
    · exact ⟨(mem_folders hin).1, (mem_folders hin).2, .inl (List.mem_of_mem_filter hin)⟩
    · obtain ⟨hmem, hne⟩ := List.mem_filter.mp hin
      have hpath : segment ∈ path.splitOn '/' := by
        rw [h.segments]
        exact List.mem_append_left _ hmem
      exact ⟨of_decide_eq_true hne, Templates.notMem_of_mem_splitOn hpath, .inr hpath⟩
  · rw [List.mem_singleton.mp hs]
    exact ⟨h.file.1, Templates.notMem_of_mem_splitOn h.file_mem, .inr h.file_mem⟩

/-- The segments of a reference follow the folders of a directory. -/
theorem joinSegments_directory (h : Reference path directories file)
    (hbase : base = [] ∨ base.head? = some '/') :
    joinSegments (base ++ ['/']) path =
      [] :: (folders base ++ directories.filter fun s => decide (s ≠ [])) ++ [file] := by
  have hroot : ∃ more, base.splitOn '/' = [] :: more := by
    cases base with
    | nil => exact ⟨[], rfl⟩
    | cons c s =>
      obtain rfl : c = '/' := by simpa using hbase
      exact ⟨s.splitOn '/', List.splitOn_append_cons_self [] s⟩
  obtain ⟨more, hmore⟩ := hroot
  have hparts : (base ++ ['/']).splitOn '/' = ([] :: more) ++ [[]] := by
    rw [List.splitOn_append_cons_self, hmore]
    rfl
  have hfolders : folders base = more.filter fun s => decide (s ≠ []) := by
    unfold folders
    rw [hmore]
    rfl
  have hslash : (([] : List Char) :: more ++ [[]]).getLast? = some [] := List.getLast?_concat
  have hrest : ([] :: more ++ [[]] ++ (directories ++ [file])).drop 1 =
      (more ++ [[]] ++ directories) ++ [file] := by
    simp
  unfold joinSegments
  rw [if_neg h.relative, hparts, hfolders, h.segments]
  simp only [hslash, if_true, hrest, List.dropLast_concat, List.getLast?_concat]
  simp [List.filter_append]

/-- Below the root, whether or not the root has been left. -/
theorem rooted_resolve (h : Reference path directories file)
    (hbase : base = [] ∨ base.head? = some '/') :
    rooted (List.intercalate ['/'] (resolve (joinSegments (base ++ ['/']) path))) =
      '/' :: List.intercalate ['/'] (destination (folders base) directories file) := by
  have hlast : resolve (joinSegments (base ++ ['/']) path) =
      ((folders base ++ directories.filter fun s => decide (s ≠ [])).foldl enter [[]]) ++
        [file] := by
    rw [joinSegments_directory h hbase]
    unfold resolve
    have hgiven : ([] :: (folders base ++ directories.filter fun s => decide (s ≠ [])) ++
        [file]).getLast? = some file := List.getLast?_concat
    have hnodots : ¬ (some file = some ['.'] ∨ some file = some ['.', '.']) := by
      rintro (hdot | hdot)
      · exact h.file.2.1 (Option.some.inj hdot)
      · exact h.file.2.2 (Option.some.inj hdot)
    simp only [hgiven, hnodots, if_false, List.foldl_append, List.foldl_cons, List.foldl_nil]
    unfold enter
    rw [if_neg h.file.2.2, if_neg h.file.2.1]
    rfl
  have hne : destination (folders base) directories file ≠ [] :=
    List.append_ne_nil_of_right_ne_nil _ (List.cons_ne_nil file [])
  rw [hlast]
  rcases foldl_enter_root [] (folders base ++ directories.filter fun s => decide (s ≠ [])) with
    hroot | hroot
  · rw [hroot]
    show rooted (List.intercalate ['/'] ([] :: destination (folders base) directories file)) = _
    rw [List.intercalate_cons_of_ne_nil hne]
    rfl
  · rw [hroot]
    show rooted (List.intercalate ['/'] (destination (folders base) directories file)) = _
    -- the first segment begins the path
    cases hdest : destination (folders base) directories file with
    | nil => exact absurd hdest hne
    | cons s segments =>
      have hs : s ∈ destination (folders base) directories file := hdest ▸ List.mem_cons_self
      obtain ⟨hnil, hslash, -⟩ := mem_destination h hs
      cases s with
      | nil => exact absurd rfl hnil
      | cons c s =>
        have hc : c ≠ '/' := fun hc => hslash (hc ▸ List.mem_cons_self)
        cases segments with
        | nil => simp [rooted, hc]
        | cons next segments =>
          rw [List.intercalate_cons_cons, List.cons_append, List.cons_append]
          simp [rooted, hc]

/-- What is known of a directory, and that URLs of its scheme are joined. -/
structure Directory (checks : Checks) (scheme netloc base : List Char) : Prop where
  sound : ParseResult.Sound checks { scheme, netloc, path := base ++ ['/'] }
  given : scheme ≠ [] ∧ netloc ≠ []
  joined : scheme ∈ usesRelative ∧ scheme ∈ usesNetloc

theorem Directory.rooted (h : Directory checks scheme netloc base) :
    base = [] ∨ base.head? = some '/' := by
  cases base with
  | nil => exact .inl rfl
  | cons c s =>
    have hends : endsAuthority c = true := h.sound.rooted h.given.2 c rfl
    obtain ⟨hquestion, hhash, -⟩ := h.sound.path c List.mem_cons_self
    unfold endsAuthority at hends
    simp only [hquestion, hhash, decide_false, Bool.or_false, decide_eq_true_eq] at hends
    exact .inr (by rw [hends]; rfl)

/-- **A reference to a file** leads from a directory to a file of the same authority. -/
theorem libUrljoin_written (bare : List Char → List Char → List Char)
    (h : Directory checks scheme netloc base) (href : Reference path directories file) :
    libUrljoin checks bare (scheme ++ ':' :: '/' :: '/' :: (netloc ++ (base ++ ['/']))) path =
      .ok (fileUrl scheme netloc (destination (folders base) directories file)) := by
  have hbase : scheme ++ ':' :: '/' :: '/' :: (netloc ++ (base ++ ['/'])) ≠ [] := by simp
  have hpath : path ≠ [] := by
    rintro rfl
    have hsegments := href.segments
    rw [List.splitOn_nil] at hsegments
    cases directories with
    | nil =>
      cases hsegments
      exact href.file.1 rfl
    | cons s directories => simp at hsegments
  have hjoined := rooted_resolve href h.rooted
  have hrelative : usesRelative.contains scheme = true := List.contains_iff_mem.mpr h.joined.1
  have hnetloc : usesNetloc.contains scheme = true := List.contains_iff_mem.mpr h.joined.2
  unfold libUrljoin
  rw [if_neg hbase, if_neg hpath, urlparse_written h.sound h.given.1 h.given.2]
  simp only [bind, Except.bind, href.parsed checks scheme, hrelative, hnetloc, hpath, ne_eq,
    Bool.not_true, Bool.false_eq_true, not_true_eq_false, or_false, false_and, and_false, if_false, if_true]
  generalize List.intercalate ['/'] (resolve (joinSegments (base ++ ['/']) path)) = p at hjoined ⊢
  have hp : p ≠ [] := by
    rintro rfl
    cases hjoined
  rw [if_neg hp]
  refine congrArg Except.ok ?_
  unfold urlunparse urlunsplit fileUrl
  simp [h.given.1, h.given.2, hjoined]

/-- And it is read back as such. -/
theorem urlparse_fileUrl (h : Directory checks scheme netloc base)
    (href : Reference path directories file) :
    urlparse checks (fileUrl scheme netloc (destination (folders base) directories file)) =
      .ok (fileParts scheme netloc (destination (folders base) directories file)) := by
  have hchar : ∀ c ∈ '/' :: List.intercalate ['/'] (destination (folders base) directories file),
      c ≠ '?' ∧ c ≠ '#' ∧ isUnsafe c = false := by
    intro c hc
    have hslash : '/' ≠ '?' ∧ '/' ≠ '#' ∧ isUnsafe '/' = false := by decide
    rcases List.mem_cons.mp hc with rfl | hc
    · exact hslash
    rcases Text.mem_intercalate hc with rfl | ⟨segment, hsegment, hc⟩
    · exact hslash
    obtain ⟨-, -, hin | hin⟩ := mem_destination href hsegment
    · exact h.sound.path c (List.mem_append_left _ (mem_of_mem_splitOn hin hc))
    · have hplain := href.plain c (mem_of_mem_splitOn hin hc)
      simp only [List.mem_cons, List.not_mem_nil, or_false, not_or] at hplain
      exact ⟨hplain.2.2.1, hplain.2.2.2.1, isUnsafe_eq_false hplain.1⟩
  refine urlparse_written ⟨h.sound.scheme, h.sound.netloc, hchar, fun _ c hc => ?_, fun _ => ?_,
    h.sound.brackets, h.sound.normal⟩ h.given.1 h.given.2
  · cases hc
    rfl
  · -- the last segment is the file
    obtain ⟨front, hfront⟩ := intercalate_concat
      ((folders base ++ directories.filter fun s => decide (s ≠ [])).foldl enter []) file
    have hpath : '/' :: List.intercalate ['/'] (destination (folders base) directories file) =
        front ++ '/' :: file := hfront
    have hlast : splitLast '/' (front ++ '/' :: file) = (some front, file) :=
      splitLast_eq_iff.mpr ⟨by simp, Templates.notMem_of_mem_splitOn href.file_mem⟩
    have hfirst : splitFirst ';' file = (file, none) := splitFirst_of_notMem fun hmem =>
      (href.plain ';' (mem_of_mem_splitOn href.file_mem hmem)).2 (by simp)
    unfold splitParams
    simp only [hpath, hlast, hfirst]
    simp

end Files

end Urllib
