import RouteRegistry.Registry.Documents

/-!
# What a document's names are looked up to, and what is stored of them

`get_users` and `get_groups` decide from two lengths whether somebody is missing, and
`store_rules` inserts one rule for each entry of four lists.

- `ReportsMissing`: a lookup that reports missing names, and nothing else, as missing.
- `Store.Stated`: the policy a document states for an entity, where denial wins.
- `StoresRules`: what storing a document does when every stated policy becomes a rule.
-/

namespace RouteRegistry

open Relational UnitOfWork

/-! ## Lookups by name -/

/-- A lookup of `names` in the table `t`: it raises `MissingEntities` exactly when one of
them is not stored, and returns the rows of the stored ones otherwise. -/
structure ReportsMissing {ρ : Type} (name : ρ → Option String) (t : List ρ)
    (names : List String) (outcome : Except Exc (List ρ)) : Prop where
  raises : (∃ e, outcome = .error e ∧ e.cls = .missingEntities) ↔
    ∃ n ∈ names, ∀ r ∈ t, name r ≠ some n
  returns : (∀ n ∈ names, ∃ r ∈ t, name r = some n) →
    ∃ rs, outcome = .ok rs ∧ rs.Nodup ∧ ∀ r, r ∈ rs ↔ r ∈ t ∧ ∃ n ∈ names, name r = some n

/-- A lookup that compares lengths tells a repeated name from a missing one only when
there is a missing one. -/
theorem reportsMissing_iff {ρ : Type} {name : ρ → Option String} {t : List ρ}
    (h : Keyed name t) {names : List String} {outcome : Except Exc (List ρ)}
    (hcases : let found := t.filter fun r => decide (∃ n ∈ names, name r = some n)
      (names.length = found.length ∧ outcome = .ok found) ∨
        (names.length ≠ found.length ∧ ∃ msg, outcome = .error ⟨.missingEntities, msg, none⟩)) :
    ReportsMissing name t names outcome ↔
      names.Nodup ∨ ∃ n ∈ names, ∀ r ∈ t, name r ≠ some n := by
  have hcount := length_filter_names h names
  have hmissing : (∃ n ∈ names, ∀ r ∈ t, name r ≠ some n) ↔
      ¬ ∀ n ∈ names, ∃ r ∈ t, name r = some n := by
    push Not
    rfl
  rcases hcases with ⟨hlen, hok⟩ | ⟨hlen, msg, herror⟩
  · obtain ⟨hnodup, hstored⟩ := hcount.mp hlen
    refine iff_of_true ⟨?_, fun _ => ⟨_, hok, ?_, fun r => ?_⟩⟩ (.inl hnodup)
    · rw [hmissing, hok]
      constructor
      · rintro ⟨e, he, -⟩
        cases he
      · intro hnot
        exact absurd hstored hnot
    · exact (List.Nodup.of_map name h).filter _
    · rw [List.mem_filter, decide_eq_true_eq]
  · constructor
    · intro hreports
      rw [hmissing]
      by_cases hstored : ∀ n ∈ names, ∃ r ∈ t, name r = some n
      · obtain ⟨rs, hrs, -⟩ := hreports.returns hstored
        rw [herror] at hrs
        cases hrs
      · exact .inr hstored
    · intro hcond
      -- the lengths differ, so without repetitions somebody is missing
      have hnot : ¬ ∀ n ∈ names, ∃ r ∈ t, name r = some n := by
        rcases hcond with hnodup | hmiss
        · exact fun hstored => hlen (hcount.mpr ⟨hnodup, hstored⟩)
        · exact hmissing.mp hmiss
      refine ⟨iff_of_true ⟨_, herror, rfl⟩ (hmissing.mpr hnot), ?_⟩
      intro hstored
      exact absurd hstored hnot

/-- **When `MissingEntities` means missing.** The lookups compare how many names they were
given with how many rows came back, so a name given twice counts as a missing one: they
report what they should exactly when no name repeats or one is missing anyway. A document
whose names are all stored is refused exactly when one of its lists repeats a name. -/
theorem getUsers_getGroups_missing_iff (db : Database) (names : List String) :
    (ReportsMissing User.uid db.store.users names ((EntityRepo.getUsers names).run db.store).1 ↔
      names.Nodup ∨ ∃ uid ∈ names, ∀ u ∈ db.store.users, u.uid ≠ some uid) ∧
    (ReportsMissing Group.name db.store.groups names
        ((EntityRepo.getGroups names).run db.store).1 ↔
      names.Nodup ∨ ∃ name ∈ names, ∀ g ∈ db.store.groups, g.name ≠ some name) ∧
    ∀ route authz, AllStored db.store authz →
      ((∃ e, ((storeRules route authz).run db.store).1 = .error e ∧ e.cls = .missingEntities) ↔
        ¬ NoRepeats authz) := by
  refine ⟨reportsMissing_iff db.valid.uids (db.store.usersNamed_cases names),
    reportsMissing_iff db.valid.groupNames (db.store.groupsNamed_cases names), ?_⟩
  intro route authz hstored
  have hok : (∃ rules, db.store.ruleSet route.id authz = .ok rules) ↔
      AllStored db.store authz ∧ NoRepeats authz := ruleSet_ok_iff db.valid route.id
  rw [run_storeRules]
  cases hset : db.store.ruleSet route.id authz with
  | ok rules =>
    refine iff_of_false ?_ (not_not.mpr (hok.mp ⟨rules, hset⟩).2)
    rintro ⟨e, he, -⟩
    cases he
  | error e =>
    refine iff_of_true ⟨e, rfl, Store.ruleSet_error hset⟩ fun hnodup => ?_
    obtain ⟨rules, hrules⟩ := hok.mpr ⟨hstored, hnodup⟩
    rw [hset] at hrules
    cases hrules

/-- Alice, named twice, is reported as missing. -/
theorem getUsers_twice_missing :
    (∃ u ∈ oneRoute.store.users, u.uid = some "alice") ∧
      ¬ ReportsMissing User.uid oneRoute.store.users ["alice", "alice"]
        ((EntityRepo.getUsers ["alice", "alice"]).run oneRoute.store).1 := by
  refine ⟨⟨alice, by decide, rfl⟩, fun h => ?_⟩
  obtain ⟨n, hn, hmissing⟩ := h.raises.mp ⟨_, rfl, rfl⟩
  obtain rfl : n = "alice" := by simpa using hn
  exact hmissing alice (by decide) rfl

/-! ## The rules of a document -/

/-- The section names the entity. -/
def EntitySet.Covers (s : Store) (names : EntitySet) (entityId : String) : Prop :=
  (∃ u ∈ s.users, u.id = entityId ∧ ∃ uid ∈ names.uids, u.uid = some uid) ∨
    ∃ g ∈ s.groups, g.id = entityId ∧ ∃ name ∈ names.groupNames, g.name = some name

/-- The policy a document states for an entity it names: denial wins. -/
inductive Store.Stated (s : Store) (authz : Authorization) (entityId : String) : Policy → Prop where
  | deny (h : authz.disallowed.Covers s entityId) : s.Stated authz entityId .deny
  | allow (h : authz.allowed.Covers s entityId) (hd : ¬ authz.disallowed.Covers s entityId) :
    s.Stated authz entityId .allow

/-- Storing a document goes through and gives the route one rule for each named entity,
with the stated policy; storing it again changes nothing. -/
def StoresRules (eng : Engine) (db : Database) (route : Route) (authz : Authorization) : Prop :=
  ∃ db', withUOW eng (storeRules route authz) db = .ok () db' ∧
    Keyed Rule.entityId (db'.store.rulesOf route.id) ∧
    (∀ r : Rule, r ∈ db'.store.rulesOf route.id ↔
      r.routeId = route.id ∧ db.store.Stated authz r.entityId r.policy) ∧
    (∀ id, id ≠ route.id → db'.store.rulesOf id = db.store.rulesOf id) ∧
    withUOW eng (storeRules route authz) db' = .ok () db'

section RuleSets

variable {s : Store} {authz : Authorization} {id : String} {rules : List Rule}

/-- A rule of the set is an entry of a list. -/
theorem mem_ruleSet_iff (hv : s.Valid) (h : s.ruleSet id authz = .ok rules) (r : Rule) :
    r ∈ rules ↔ r.routeId = id ∧
      ((r.policy = .allow ∧ authz.allowed.Covers s r.entityId) ∨
        (r.policy = .deny ∧ authz.disallowed.Covers s r.entityId)) := by
  obtain rfl := Store.ruleSet_eq hv h
  rw [mem_policyRules, mem_map_filter_names, mem_map_filter_names, mem_map_filter_names,
    mem_map_filter_names]
  rfl

/-- Where nobody is both allowed and disallowed, the rules of the set are the stated
policies. -/
theorem mem_ruleSet_iff_stated (hv : s.Valid) (h : s.ruleSet id authz = .ok rules)
    (hkeys : Keyed Rule.entityId rules) (r : Rule) :
    r ∈ rules ↔ r.routeId = id ∧ s.Stated authz r.entityId r.policy := by
  rw [mem_ruleSet_iff hv h]
  refine and_congr_right fun hid => ?_
  constructor
  · rintro (⟨hp, ha⟩ | ⟨hp, hd⟩)
    · rw [hp]
      refine .allow ha fun hd => ?_
      -- a second rule of the set, for the same entity
      have hallow : r ∈ rules := (mem_ruleSet_iff hv h r).mpr ⟨hid, .inl ⟨hp, ha⟩⟩
      have hdeny : { r with policy := .deny } ∈ rules :=
        (mem_ruleSet_iff hv h _).mpr ⟨hid, .inr ⟨rfl, hd⟩⟩
      have hsame : r = { r with policy := .deny } := hkeys.inj hallow hdeny rfl
      rw [hsame] at hp
      cases hp
    · rw [hp]
      exact .deny hd
  · generalize hp : r.policy = p
    intro hstated
    cases hstated with
    | deny hd => exact .inr ⟨rfl, hd⟩
    | allow ha _ => exact .inl ⟨rfl, ha⟩

/-- Replacing the rules of a route by those it has changes nothing. -/
theorem Store.withRules_withRules (hrules : ∀ r ∈ rules, r.routeId = id) :
    (s.withRules id rules).withRules id rules = s.withRules id rules := by
  have hnone : discard Rule.routeId id rules = [] := by
    refine List.filter_eq_nil_iff.mpr fun r hr => ?_
    simp [hrules r hr]
  have hdiscard : discard Rule.routeId id (discard Rule.routeId id s.rules ++ rules) =
      discard Rule.routeId id s.rules := by
    have hidem : discard Rule.routeId id (discard Rule.routeId id s.rules) =
        discard Rule.routeId id s.rules := by
      refine List.filter_eq_self.mpr fun r hr => ?_
      exact decide_eq_true (mem_discard.mp hr).2
    calc discard Rule.routeId id (discard Rule.routeId id s.rules ++ rules)
        = discard Rule.routeId id (discard Rule.routeId id s.rules) ++
            discard Rule.routeId id rules := List.filter_append _ _
      _ = discard Rule.routeId id s.rules := by rw [hidem, hnone, List.append_nil]
  unfold Store.withRules
  rw [hdiscard]

end RuleSets

/-- **When every stated policy becomes a rule.** For a document whose names are stored and
do not repeat, storing its rules goes through, with denial winning, exactly when nobody is
both allowed and disallowed: an entity in both sections gets two rules under one key, and
the commit is refused. -/
theorem storeRules_iff_noConflict (eng : Engine) (hrel : eng.Reliable) (db : Database)
    (route : Route) (hroute : route ∈ db.store.routes) (authz : Authorization)
    (hrepeats : NoRepeats authz) (hstored : AllStored db.store authz) :
    StoresRules eng db route authz ↔ NoConflict authz := by
  obtain ⟨rules, hset⟩ := (ruleSet_ok_iff db.valid route.id).mpr ⟨hstored, hrepeats⟩
  obtain ⟨hids, hent⟩ := Store.ruleSet_mem hset
  have hid : route.id ∈ db.store.routeIds := List.mem_map.mpr ⟨route, hroute, rfl⟩
  have hrun : (storeRules route authz).run db.store =
      (.ok (), .deleteRules route.id :: rules.map .addRule) := by
    rw [run_storeRules, hset]
  have hflush := flush_replaceRules db.valid hid hids hent
  rw [← keyed_ruleSet_iff db.valid hset]
  by_cases hkeys : Keyed Rule.entityId rules
  · rw [if_pos hkeys] at hflush
    refine iff_of_true ?_ hkeys
    obtain ⟨db', hblock, hdb'⟩ := withUOW_of_flush hrel hrun hflush
    have hrules : db'.store.rulesOf route.id = rules := by
      rw [hdb', Store.rulesOf_withRules hids, if_pos rfl]
    refine ⟨db', hblock, hrules ▸ hkeys, fun r => ?_, fun id hne => ?_, ?_⟩
    · rw [hrules]
      exact mem_ruleSet_iff_stated db.valid hset hkeys r
    · rw [hdb', Store.rulesOf_withRules hids, if_neg (Ne.symm hne)]
    · have hset' : db'.store.ruleSet route.id authz = .ok rules := by
        rw [← hset]
        exact Store.ruleSet_congr (by rw [hdb']; rfl) (by rw [hdb']; rfl) route.id authz
      have hrun' : (storeRules route authz).run db'.store =
          (.ok (), .deleteRules route.id :: rules.map .addRule) := by
        rw [run_storeRules, hset']
      have hid' : route.id ∈ db'.store.routeIds := by
        rw [hdb']
        exact hid
      have hflush' := flush_replaceRules db'.valid hid' hids (Store.ruleSet_mem hset').2
      rw [if_pos hkeys] at hflush'
      obtain ⟨db'', hblock', hdb''⟩ := withUOW_of_flush hrel hrun' hflush'
      have hsame : db'' = db' := by
        apply Database.ext
        rw [hdb'', hdb', Store.withRules_withRules hids]
      rw [hblock', hsame]
  · rw [if_neg hkeys] at hflush
    refine iff_of_false ?_ hkeys
    rintro ⟨db', hblock, -⟩
    obtain ⟨msg, hraised⟩ : ∃ msg, withUOW eng (storeRules route authz) db =
        .error ⟨.uowAlreadyExists, msg, none⟩ db := withUOW_of_unique hrun hflush
    rw [hblock] at hraised
    cases hraised

/-- Alice is allowed, nobody is disallowed. -/
def onlyAllowed : Authorization := ⟨.str "1", ⟨["alice"], []⟩, ⟨[], []⟩⟩

/-- Alice is allowed and disallowed. -/
def bothSections : Authorization := ⟨.str "1", ⟨["alice"], []⟩, ⟨["alice"], []⟩⟩

theorem storeRules_onlyAllowed :
    appRoute ∈ oneRoute.store.routes ∧ StoresRules .sqlite oneRoute appRoute onlyAllowed := by
  refine ⟨by decide, (storeRules_iff_noConflict .sqlite Engine.sqlite_reliable oneRoute appRoute
    (by decide) onlyAllowed ?_ ?_).mpr ⟨by simp [onlyAllowed], by simp [onlyAllowed]⟩⟩
  · constructor <;> simp [onlyAllowed]
  · constructor <;> simp [onlyAllowed]
    exact ⟨alice, by decide, rfl⟩

/-- The schema admits the overlap and says that it denies; storing it raises. -/
theorem storeRules_bothSections :
    NoRepeats bothSections ∧ AllStored oneRoute.store bothSections ∧
      ¬ StoresRules .sqlite oneRoute appRoute bothSections := by
  refine ⟨?_, ?_, ?_⟩
  · constructor <;> simp [bothSections]
  · constructor <;> simp [bothSections] <;> exact ⟨alice, by decide, rfl⟩
  · rintro ⟨db', hblock, -⟩
    have hraises : withUOW .sqlite (storeRules appRoute bothSections) oneRoute =
        .error ⟨.uowAlreadyExists, "UNIQUE constraint failed", none⟩ oneRoute := rfl
    rw [hraises] at hblock
    cases hblock

end RouteRegistry
