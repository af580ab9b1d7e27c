import RouteRegistry.Registry.Updates

/-!
# Authorization documents

What `Authorization(data=…)` and the lookups of `store_rules` make of a document that
the shipped schema accepts.

- `namesIn`: the names one list of one section holds; an absent section or list holds
  none.
- `ofData_of_sections`, `ofData_of_missing`: the schema requires neither section, but
  the constructor reads both, so a document without one raises `KeyError`
  (`reads_accepted_iff_sections`).
- `ruleSet_ok_iff`, `keyed_ruleSet_iff`: when the lookups find everybody, and when the
  rules they give can be stored together.
-/

namespace RouteRegistry

open Relational

/-! ## Sections and names -/

/-- The document has the section. -/
def hasSection (data : Json) (sect : String) : Prop := (data.member? sect).isSome

instance (data : Json) (sect : String) : Decidable (hasSection data sect) :=
  inferInstanceAs (Decidable (_ = true))

/-- The names under `key` in a section. -/
def namesIn (data : Json) (sect key : String) : List String :=
  ((data.member? sect).bind fun s => (s.member? key).bind Json.strings?).getD []

/-- The lists of a section the schema accepts read as their names. -/
theorem getNames_of_accepts {sect : Json} (h : sectionSchema.accepts sect = true) :
    (∃ ms, sect = .obj ms) ∧ ∀ key, key = "users" ∨ key = "groups" →
      getNames sect key = .ok (((sect.member? key).bind Json.strings?).getD []) := by
  simp only [sectionSchema, Json.Schema.accepts, Bool.and_eq_true, decide_eq_true_eq,
    Bool.and_true] at h
  obtain ⟨hkind, husers, hgroups⟩ := h
  obtain ⟨ms, rfl⟩ := Json.exists_obj_of_kind hkind
  refine ⟨⟨ms, rfl⟩, fun key hkey => ?_⟩
  -- the schema says the same of both lists
  have hlist : ∀ v, (Json.obj ms).member? key = some v → Json.Schema.strings.accepts v = true := by
    rcases hkey with rfl | rfl
    · intro v hv
      rw [hv] at husers
      exact husers
    · intro v hv
      rw [hv] at hgroups
      exact hgroups
  unfold getNames
  cases hv : (Json.obj ms).member? key with
  | none => rfl
  | some v =>
    obtain ⟨names, hnames⟩ := Json.strings?_isSome_of_accepts (hlist v hv)
    simp [hnames]

/-- What the schema says of a document: an object with a version, whose sections are
accepted where present. -/
theorem accepts_document {data : Json} (h : authorizationSchema.accepts data = true) :
    (∃ ms, data = .obj ms) ∧ (data.member? "version").isSome ∧
      ∀ sect, sect = "allowed" ∨ sect = "disallowed" → ∀ v, data.member? sect = some v →
        sectionSchema.accepts v = true := by
  simp only [authorizationSchema, Json.Schema.accepts, Bool.and_eq_true, decide_eq_true_eq,
    Bool.and_true] at h
  obtain ⟨hkind, -, hdisallowed, hallowed, hversion⟩ := h
  obtain ⟨ms, rfl⟩ := Json.exists_obj_of_kind hkind
  refine ⟨⟨ms, rfl⟩, hversion, fun sect hsect v hv => ?_⟩
  rcases hsect with rfl | rfl
  · rw [hv] at hallowed
    exact hallowed
  · rw [hv] at hdisallowed
    exact hdisallowed

theorem getItem_obj (ms : List (String × Json)) (key : String) :
    getItem (.obj ms) key =
      match (Json.obj ms).member? key with
      | some v => .ok v
      | none => .error ⟨.lib .keyError, s!"'{key}'", none⟩ := rfl

/-- A section of an accepted document: its names, or a `KeyError` where it is absent. -/
theorem ofSection_of_accepts {data : Json} (h : authorizationSchema.accepts data = true)
    {sect : String} (hsect : sect = "allowed" ∨ sect = "disallowed") :
    EntitySet.ofSection data sect =
      if hasSection data sect then
        .ok ⟨namesIn data sect "users", namesIn data sect "groups"⟩
      else .error ⟨.lib .keyError, s!"'{sect}'", none⟩ := by
  obtain ⟨⟨ms, rfl⟩, -, hsections⟩ := accepts_document h
  unfold EntitySet.ofSection
  rw [getItem_obj]
  cases hv : (Json.obj ms).member? sect with
  | none =>
    rw [if_neg (by simp [hasSection, hv])]
    rfl
  | some v =>
    obtain ⟨-, hnames⟩ := getNames_of_accepts (hsections sect hsect v hv)
    rw [if_pos (by simp [hasSection, hv])]
    show (getNames v "users" >>= fun users => getNames v "groups" >>= fun groups =>
      (pure ⟨users, groups⟩ : Except Exc EntitySet)) = _
    rw [hnames "users" (.inl rfl), hnames "groups" (.inr rfl)]
    simp only [namesIn, hv]
    rfl

/-- The document an accepted one with both sections makes. -/
def documentOf (data version : Json) : Authorization where
  version := version
  allowed := ⟨namesIn data "allowed" "users", namesIn data "allowed" "groups"⟩
  disallowed := ⟨namesIn data "disallowed" "users", namesIn data "disallowed" "groups"⟩

theorem ofData_of_sections {data : Json} (h : authorizationSchema.accepts data = true)
    (hallowed : hasSection data "allowed") (hdisallowed : hasSection data "disallowed") :
    ∃ version, Authorization.ofData data = .ok (documentOf data version) := by
  obtain ⟨⟨ms, rfl⟩, hversion, -⟩ := accepts_document h
  obtain ⟨version, hv⟩ := Option.isSome_iff_exists.mp hversion
  refine ⟨version, ?_⟩
  unfold Authorization.ofData
  rw [getItem_obj, hv, ofSection_of_accepts h (.inl rfl), if_pos hallowed,
    ofSection_of_accepts h (.inr rfl), if_pos hdisallowed]
  rfl

theorem ofData_of_missing {data : Json} (h : authorizationSchema.accepts data = true)
    (hmissing : ¬ (hasSection data "allowed" ∧ hasSection data "disallowed")) :
    ∃ msg, Authorization.ofData data = .error ⟨.lib .keyError, msg, none⟩ := by
  obtain ⟨⟨ms, rfl⟩, hversion, -⟩ := accepts_document h
  obtain ⟨version, hv⟩ := Option.isSome_iff_exists.mp hversion
  unfold Authorization.ofData
  rw [getItem_obj, hv, ofSection_of_accepts h (.inl rfl)]
  by_cases hallowed : hasSection (.obj ms) "allowed"
  · rw [if_pos hallowed, ofSection_of_accepts h (.inr rfl),
      if_neg fun hd => hmissing ⟨hallowed, hd⟩]
    exact ⟨_, rfl⟩
  · rw [if_neg hallowed]
    exact ⟨_, rfl⟩

/-- **When the reader takes what the schema accepts.** The schema requires neither section
and the lists default to empty, but `Authorization(data=…)` indexes both sections: it
reads an accepted document as its names, in order, exactly when both sections are there. -/
theorem reads_accepted_iff_sections {data : Json} (h : authorizationSchema.accepts data = true) :
    (∃ authz, Authorization.ofData data = .ok authz ∧
      authz.allowed.uids = namesIn data "allowed" "users" ∧
      authz.allowed.groupNames = namesIn data "allowed" "groups" ∧
      authz.disallowed.uids = namesIn data "disallowed" "users" ∧
      authz.disallowed.groupNames = namesIn data "disallowed" "groups") ↔
    hasSection data "allowed" ∧ hasSection data "disallowed" := by
  constructor
  · rintro ⟨authz, hauthz, -⟩
    by_contra hmissing
    obtain ⟨msg, hmsg⟩ := ofData_of_missing h hmissing
    rw [hauthz] at hmsg
    cases hmsg
  · rintro ⟨hallowed, hdisallowed⟩
    obtain ⟨version, hread⟩ := ofData_of_sections h hallowed hdisallowed
    exact ⟨_, hread, rfl, rfl, rfl, rfl⟩

/-- A document with two sections, one of them without lists. -/
def halfDocument : Json :=
  .obj [("version", .str "1"), ("allowed", .obj [("users", .arr [.str "a", .str "b"])]),
    ("disallowed", .obj [])]

/-- A document with a version and nothing else: the schema accepts it. -/
def bareDocument : Json :=
  .obj [("version", .str "1")]

theorem reads_halfDocument :
    ∃ authz, Authorization.ofData halfDocument = .ok authz ∧
      authz.allowed.uids = namesIn halfDocument "allowed" "users" ∧
      authz.allowed.groupNames = namesIn halfDocument "allowed" "groups" ∧
      authz.disallowed.uids = namesIn halfDocument "disallowed" "users" ∧
      authz.disallowed.groupNames = namesIn halfDocument "disallowed" "groups" :=
  (reads_accepted_iff_sections (by decide)).mpr (by decide)

theorem bareDocument_keyError :
    authorizationSchema.accepts bareDocument = true ∧
      ¬ ∃ authz, Authorization.ofData bareDocument = .ok authz := by
  refine ⟨by decide, ?_⟩
  rintro ⟨authz, h⟩
  cases h

/-! ## Lookups of a document's names -/

/-- Every name the document mentions belongs to a stored user or group. -/
structure AllStored (s : Store) (authz : Authorization) : Prop where
  allowedUsers : ∀ uid ∈ authz.allowed.uids, ∃ u ∈ s.users, u.uid = some uid
  deniedUsers : ∀ uid ∈ authz.disallowed.uids, ∃ u ∈ s.users, u.uid = some uid
  allowedGroups : ∀ name ∈ authz.allowed.groupNames, ∃ g ∈ s.groups, g.name = some name
  deniedGroups : ∀ name ∈ authz.disallowed.groupNames, ∃ g ∈ s.groups, g.name = some name

/-- No list of the document repeats a name. -/
structure NoRepeats (authz : Authorization) : Prop where
  allowedUsers : authz.allowed.uids.Nodup
  deniedUsers : authz.disallowed.uids.Nodup
  allowedGroups : authz.allowed.groupNames.Nodup
  deniedGroups : authz.disallowed.groupNames.Nodup

/-- Nobody is both allowed and disallowed. -/
structure NoConflict (authz : Authorization) : Prop where
  users : ∀ uid ∈ authz.allowed.uids, uid ∉ authz.disallowed.uids
  groups : ∀ name ∈ authz.allowed.groupNames, name ∉ authz.disallowed.groupNames

/-- A query by names returns one row for each exactly when no name repeats and all are
stored. -/
theorem length_filter_names {ρ : Type} {name : ρ → Option String} {t : List ρ}
    (h : Keyed name t) (names : List String) :
    names.length = (t.filter fun r => decide (∃ n ∈ names, name r = some n)).length ↔
      names.Nodup ∧ ∀ n ∈ names, ∃ r ∈ t, name r = some n := by
  -- names are never `NULL`, so they are keys under `some`
  have hmem : ∀ r, decide (∃ n ∈ names, name r = some n) = true ↔ name r ∈ names.map some := by
    intro r
    simp [eq_comm]
  have hcount := length_filter_keys h (names.map some) hmem
  rw [List.length_map, List.nodup_map_iff fun _ _ h => Option.some.inj h] at hcount
  rw [hcount]
  refine and_congr_right fun _ => ?_
  constructor
  · exact fun hall n hn => List.mem_map.mp (hall _ (List.mem_map.mpr ⟨n, hn, rfl⟩))
  · intro hall k hk
    obtain ⟨n, hn, rfl⟩ := List.mem_map.mp hk
    exact List.mem_map.mpr (hall n hn)

/-- A lookup of users succeeds when no name repeats and all are stored. -/
theorem Store.usersNamed_ok_iff {s : Store} (hv : s.Valid) {uids : List String}
    {us : List User} :
    s.usersNamed uids = .ok us ↔
      uids.Nodup ∧ (∀ uid ∈ uids, ∃ u ∈ s.users, u.uid = some uid) ∧
        us = s.users.filter fun u => decide (∃ uid ∈ uids, u.uid = some uid) := by
  rw [← and_assoc, ← length_filter_names hv.uids]
  rcases s.usersNamed_cases uids with ⟨hlen, hfound⟩ | ⟨hlen, msg, hmiss⟩
  · rw [hfound]
    exact ⟨fun h => ⟨hlen, (Except.ok.inj h).symm⟩, fun h => by rw [h.2]⟩
  · rw [hmiss]
    exact ⟨fun h => (nomatch h), fun h => absurd h.1 hlen⟩

theorem Store.groupsNamed_ok_iff {s : Store} (hv : s.Valid) {names : List String}
    {gs : List Group} :
    s.groupsNamed names = .ok gs ↔
      names.Nodup ∧ (∀ name ∈ names, ∃ g ∈ s.groups, g.name = some name) ∧
        gs = s.groups.filter fun g => decide (∃ name ∈ names, g.name = some name) := by
  rw [← and_assoc, ← length_filter_names hv.groupNames]
  rcases s.groupsNamed_cases names with ⟨hlen, hfound⟩ | ⟨hlen, msg, hmiss⟩
  · rw [hfound]
    exact ⟨fun h => ⟨hlen, (Except.ok.inj h).symm⟩, fun h => by rw [h.2]⟩
  · rw [hmiss]
    exact ⟨fun h => (nomatch h), fun h => absurd h.1 hlen⟩

/-- **A document has a rule set** when all its names are stored and none repeats. -/
theorem ruleSet_ok_iff {s : Store} (hv : s.Valid) (id : String) {authz : Authorization} :
    (∃ rules, s.ruleSet id authz = .ok rules) ↔ AllStored s authz ∧ NoRepeats authz := by
  constructor
  · rintro ⟨rules, h⟩
    obtain ⟨au, du, ag, dg, hau, hdu, hag, hdg, -⟩ := Store.ruleSet_ok h
    obtain ⟨hau₁, hau₂, -⟩ := (Store.usersNamed_ok_iff hv).mp hau
    obtain ⟨hdu₁, hdu₂, -⟩ := (Store.usersNamed_ok_iff hv).mp hdu
    obtain ⟨hag₁, hag₂, -⟩ := (Store.groupsNamed_ok_iff hv).mp hag
    obtain ⟨hdg₁, hdg₂, -⟩ := (Store.groupsNamed_ok_iff hv).mp hdg
    exact ⟨⟨hau₂, hdu₂, hag₂, hdg₂⟩, ⟨hau₁, hdu₁, hag₁, hdg₁⟩⟩
  · rintro ⟨hs, hn⟩
    have hau := (Store.usersNamed_ok_iff hv).mpr ⟨hn.allowedUsers, hs.allowedUsers, rfl⟩
    have hdu := (Store.usersNamed_ok_iff hv).mpr ⟨hn.deniedUsers, hs.deniedUsers, rfl⟩
    have hag := (Store.groupsNamed_ok_iff hv).mpr ⟨hn.allowedGroups, hs.allowedGroups, rfl⟩
    have hdg := (Store.groupsNamed_ok_iff hv).mpr ⟨hn.deniedGroups, hs.deniedGroups, rfl⟩
    unfold Store.ruleSet
    rw [hau, hdu, hag, hdg]
    exact ⟨_, rfl⟩

/-- The rules of a document go to the stored entities that it names. -/
theorem Store.ruleSet_eq {s : Store} (hv : s.Valid) {id : String} {authz : Authorization}
    {rules : List Rule} (h : s.ruleSet id authz = .ok rules) :
    rules = policyRules id
      (s.users.filter fun u => decide (∃ uid ∈ authz.allowed.uids, u.uid = some uid))
      (s.users.filter fun u => decide (∃ uid ∈ authz.disallowed.uids, u.uid = some uid))
      (s.groups.filter fun g => decide (∃ n ∈ authz.allowed.groupNames, g.name = some n))
      (s.groups.filter fun g => decide (∃ n ∈ authz.disallowed.groupNames, g.name = some n)) := by
  obtain ⟨au, du, ag, dg, hau, hdu, hag, hdg, rfl⟩ := Store.ruleSet_ok h
  obtain ⟨-, -, rfl⟩ := (Store.usersNamed_ok_iff hv).mp hau
  obtain ⟨-, -, rfl⟩ := (Store.usersNamed_ok_iff hv).mp hdu
  obtain ⟨-, -, rfl⟩ := (Store.groupsNamed_ok_iff hv).mp hag
  obtain ⟨-, -, rfl⟩ := (Store.groupsNamed_ok_iff hv).mp hdg
  rfl

/-- The keys of the rows that a query by names finds. -/
theorem mem_map_filter_names {ρ κ : Type} {name : ρ → Option String} {id : ρ → κ} {t : List ρ}
    {names : List String} {k : κ} :
    k ∈ (t.filter fun r => decide (∃ n ∈ names, name r = some n)).map id ↔
      ∃ r ∈ t, id r = k ∧ ∃ n ∈ names, name r = some n := by
  simp only [List.mem_map, List.mem_filter, decide_eq_true_eq]
  constructor
  · rintro ⟨r, ⟨hr, hn⟩, hid⟩
    exact ⟨r, hr, hid, hn⟩
  · rintro ⟨r, hr, hid, hn⟩
    exact ⟨r, ⟨hr, hn⟩, hid⟩

/-- Rows found by two queries share a row exactly when the queries share a name. -/
theorem disjoint_filter_names {ρ : Type} {name : ρ → Option String} {t : List ρ}
    {as bs : List String} (has : ∀ n ∈ as, ∃ r ∈ t, name r = some n) :
    (∀ r ∈ t, (∃ n ∈ as, name r = some n) → ¬ ∃ n ∈ bs, name r = some n) ↔
      ∀ n ∈ as, n ∉ bs := by
  constructor
  · intro h n hn hb
    obtain ⟨r, hr, hname⟩ := has n hn
    exact h r hr ⟨n, hn, hname⟩ ⟨n, hb, hname⟩
  · rintro h r - ⟨n, hn, hname⟩ ⟨m, hm, hname'⟩
    rw [hname] at hname'
    cases hname'
    exact h n hn hm

/-- Two selections of a table with distinct ids, side by side, have distinct ids exactly
when they share no row. -/
theorem nodup_append_filter {ρ : Type} {id : ρ → String} {t : List ρ} (h : Keyed id t)
    (p q : ρ → Bool) :
    ((t.filter p).map id ++ (t.filter q).map id).Nodup ↔ ∀ r ∈ t, p r = true → ¬ q r = true := by
  rw [List.nodup_append]
  constructor
  · rintro ⟨-, -, hd⟩ r hr hp hq
    exact hd _ (List.mem_map.mpr ⟨r, List.mem_filter.mpr ⟨hr, hp⟩, rfl⟩) _
      (List.mem_map.mpr ⟨r, List.mem_filter.mpr ⟨hr, hq⟩, rfl⟩) rfl
  · intro hd
    refine ⟨h.filter p, h.filter q, ?_⟩
    rintro _ hx _ hy rfl
    obtain ⟨x, hx, hxid⟩ := List.mem_map.mp hx
    obtain ⟨y, hy, hyid⟩ := List.mem_map.mp hy
    obtain ⟨hxt, hp⟩ := List.mem_filter.mp hx
    obtain ⟨hyt, hq⟩ := List.mem_filter.mp hy
    rw [h.inj hxt hyt (hxid.trans hyid.symm)] at hp
    exact hd y hyt hp hq

/-- **Rules of a document can be stored together** when nobody is both allowed and
disallowed. -/
theorem keyed_ruleSet_iff {s : Store} (hv : s.Valid) {id : String} {authz : Authorization}
    {rules : List Rule} (h : s.ruleSet id authz = .ok rules) :
    Keyed Rule.entityId rules ↔ NoConflict authz := by
  obtain ⟨hs, -⟩ := (ruleSet_ok_iff hv _).mp ⟨rules, h⟩
  obtain rfl := Store.ruleSet_eq hv h
  obtain ⟨husers, hgroups, hdisjoint⟩ := List.nodup_append.mp hv.entityKeys
  have hids : ∀ (au du : List User) (ag dg : List Group),
      (policyRules id au du ag dg).map Rule.entityId =
        (au.map User.id ++ du.map User.id) ++ (ag.map Group.id ++ dg.map Group.id) := by
    intro au du ag dg
    simp [policyRules, Function.comp_def]
  unfold Keyed
  rw [hids, List.nodup_append, nodup_append_filter husers, nodup_append_filter hgroups]
  simp only [decide_eq_true_eq]
  rw [disjoint_filter_names hs.allowedUsers, disjoint_filter_names hs.allowedGroups]
  constructor
  · rintro ⟨hu, hg, -⟩
    exact ⟨hu, hg⟩
  · rintro ⟨hu, hg⟩
    refine ⟨hu, hg, fun x hx y hy => hdisjoint x ?_ y ?_⟩
    · rcases List.mem_append.mp hx with hx | hx
      · exact (List.filter_sublist.map _).subset hx
      · exact (List.filter_sublist.map _).subset hx
    · rcases List.mem_append.mp hy with hy | hy
      · exact (List.filter_sublist.map _).subset hy
      · exact (List.filter_sublist.map _).subset hy

end RouteRegistry
