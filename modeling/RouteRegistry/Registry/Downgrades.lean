import RouteRegistry.Registry.Upgrades
import RouteRegistry.Relational.Alterations

/-!
# Downgrades of a populated database (`alembic/versions/`)

`alembic downgrade` takes back the revisions after its target, the last one first, in one
transaction.

- `downgrade_iff`: which databases at the last revision can be downgraded, and what is left.
- `downAndUp_iff`: which ones can then be upgraded again, and what comes back.

There are 15 targets: the scripts of each one are checked once (`wayDown_checked`,
`wayBack_checked`) and go through on every database that satisfies what was assumed.
-/

namespace RouteRegistry

open Relational Runs

/-! ## Alterations of the revisions -/

/-- `982b0a2b0550`; the type is there, as `checkfirst` finds. -/
def addAdminTokenTableAndIsAdminToUserDowngrade : List Alteration :=
  [.dropColumn "user" "is_admin", .dropTable "admin_token", .does (.dropType "adminrole")]

/-- `8ceb564736f7`. -/
def compositeCommunityNameEntityUniqueDowngrade : List Alteration :=
  [.dropUnique (some "community_entity_id_name_key") "community"]

/-- `18380dc634da`. -/
def addRouteCommunityConstructsDowngrade : List Alteration :=
  [.dropForeignKey "route_community_id_fkey" "route", .dropColumn "route" "community_id",
    .dropTable "membership_request", .dropTable "community", .does (.dropType "membershipstatus")]

/-- `032293b44a9c`. -/
def addServerErrorStatusDowngrade : List Alteration :=
  .replace "route" "status" ["SERVER_ERROR"] "DOWN" ::
    (modifyStatusType "status" "status"
      ["UP", "DOWN", "MISCONFIGURED", "MISSING_ENTITY", "UPGRADE_REQUIRED"]).map .does

/-- `8b2e18c8fb42`. -/
def refactorAvailabilityStatusToStatusDowngrade : List Alteration :=
  .replace "route" "status" ["MISCONFIGURED", "MISSING_ENTITY", "UPGRADE_REQUIRED"] "DOWN" ::
    (modifyStatusType "status" "availabilitystatus" ["UP", "DOWN"]).map .does ++
  [.does (.setNotNull "route" "status"),
    .does (.renameColumn "route" "status" "availability_status")]

/-- `c7f339b17766`. -/
def addDomainTypeToDomainTableDowngrade : List Alteration :=
  [.dropUnique (some "domain_id_key") "domain", .dropColumn "domain" "domain_type",
    .does (.dropType "domaintype")]

/-- `3bf5f7623dea`. -/
def addDomainTableDowngrade : List Alteration :=
  [.dropForeignKey "route_domain_id_fkey" "route", .dropColumn "route" "domain_id",
    .dropTable "domain"]

/-- `3acb77dd5d02`. -/
def removeUniqueConstraintOnDuidDowngrade : List Alteration :=
  [.does (.addUnique (some "user_duid_key") "user" ["duid"])]

/-- `3832c52955f5`. -/
def addDuidToUserDowngrade : List Alteration :=
  [.dropUnique (some "user_duid_key") "user", .dropColumn "user" "duid"]

/-- `d5e523d513bf`: the constraints are dropped under no name. -/
def linkEntityAndRouteViaManyToManyDowngrade : List Alteration :=
  [.dropUnique none "route", .dropUnique none "entity", .dropTable "entity_route_association"]

/-- `671ac85bae45`. -/
def dropUniqueConstraintOnDstDowngrade : List Alteration :=
  [.does (.addUnique (some "route_dst_key") "route" ["dst"])]

/-- `7c9e3af1c8a2`. -/
def addNameColumnToRouteDowngrade : List Alteration := [.dropColumn "route" "name"]

/-- `3bfd13c165c0`. -/
def addLastContactColumnToRouteDowngrade : List Alteration := [.dropColumn "route" "last_contact"]

/-- `b70672394cf4`. -/
def initialCommitDowngrade : List Alteration :=
  [.dropTable "user", .dropTable "rule", .dropTable "group", .dropTable "route",
    .dropTable "entity"]

/-- The revisions, the last one first, each with what takes it back. -/
def downgrades : List (Revision × List Alteration) :=
  [(addAdminTokenTableAndIsAdminToUser, addAdminTokenTableAndIsAdminToUserDowngrade),
    (compositeCommunityNameEntityUnique, compositeCommunityNameEntityUniqueDowngrade),
    (addRouteCommunityConstructs, addRouteCommunityConstructsDowngrade),
    (addServerErrorStatus, addServerErrorStatusDowngrade),
    (refactorAvailabilityStatusToStatus, refactorAvailabilityStatusToStatusDowngrade),
    (addDomainTypeToDomainTable, addDomainTypeToDomainTableDowngrade),
    (addDomainTable, addDomainTableDowngrade),
    (removeUniqueConstraintOnDuid, removeUniqueConstraintOnDuidDowngrade),
    (addDuidToUser, addDuidToUserDowngrade),
    (linkEntityAndRouteViaManyToMany, linkEntityAndRouteViaManyToManyDowngrade),
    (dropUniqueConstraintOnDst, dropUniqueConstraintOnDstDowngrade),
    (addNameColumnToRoute, addNameColumnToRouteDowngrade),
    (addLastContactColumnToRoute, addLastContactColumnToRouteDowngrade),
    (initialCommit, initialCommitDowngrade)]

example : downgrades.map Prod.fst = (history versions.length none).reverse := rfl

/-- What `alembic downgrade` can be told: `base`, or a revision. -/
def targets : List (Option String) := none :: versions.map fun r => some r.revision

/-- The revisions that a downgrade takes back. -/
def undone (target : Option String) : List (Revision × List Alteration) :=
  downgrades.takeWhile fun d => decide (some d.1.revision ≠ target)

/-- What a downgrade does. -/
def wayDown (target : Option String) : List Alteration := (undone target).flatMap Prod.snd

/-- What the upgrade back does; a downgrade to `base`, from which the first revision would be
upgraded too, never succeeds. -/
def wayUp (target : Option String) : List Operation :=
  (laterUpgrades.filter fun u => decide (u.1 ∈ (undone target).map Prod.fst)).flatMap Prod.snd

/-- `alembic downgrade`; `now` is the time of `now()`. -/
def downgrade (now : Value) (target : Option String) (db : Populated) : Option Populated :=
  run (Populated.alter now) db (wayDown target)

/-- `alembic upgrade head` after it. -/
def upgradeFrom (now : Value) (target : Option String) (db : Populated) : Option Populated :=
  run (Populated.execute now) db (wayUp target)

/-- The one and then the other. -/
def downAndUp (now : Value) (target : Option String) (db : Populated) : Option Populated :=
  (downgrade now target db).bind (upgradeFrom now target)

/-! ## What is left -/

/-- The statuses of routes, by either name of their type. -/
def statuses (cat : Catalog) : List String :=
  (labelsOf cat.types "status" <|> labelsOf cat.types "availabilitystatus").getD []

/-- The catalog after a downgrade. -/
def catalogAt (target : Option String) : Option Catalog :=
  run Catalog.alter upgradedCatalog (wayDown target)

/-- A status that there no longer is becomes `DOWN`. -/
def lowered (labels : List String) : Option Value → Option Value
  | some (.text s) => if s ∈ labels then some (.text s) else some (.text "DOWN")
  | v => v

/-- The tables that are left have the rows they had, with their values in the columns that are
left. -/
def LeftOf (db db' : Populated) : Prop :=
  ∀ table ∈ db'.catalog.schema.map TableDef.name, ∃ f : Row String Value → Row String Value,
    db'.rows table = (db.rows table).map f ∧
      ∀ r ∈ db.rows table, ∀ column, db'.catalog.HasColumn table column →
        f r column =
          if table = "route" ∧ column ∈ ["status", "availability_status"] then
            lowered (statuses db'.catalog) (r "status")
          else r column

/-- What comes back: the catalog, but not the rows of the tables that were dropped, nor the values
of the columns that were. -/
structure ComesBack (target : Option String) (db db' : Populated) : Prop where
  catalog : db'.catalog = db.catalog
  dropped : ∀ table, .dropTable table ∈ wayDown target → db'.rows table = []
  kept : ∀ table, .dropTable table ∉ wayDown target → ∃ f : Row String Value → Row String Value,
    db'.rows table = (db.rows table).map f ∧
      ∀ r ∈ db.rows table, ∀ p ∈ db.catalog.columns, p.1 = table →
        f r p.2.name =
          if .dropColumn table p.2.name ∈ wayDown target then p.2.default
          else if table = "route" ∧ p.2.name = "status" then
            lowered (statuses ((catalogAt target).getD {})) (r "status")
          else r p.2.name

/-! ## Checks -/

/-- The revision is taken back. -/
def TakesBack (target : Option String) (r : Revision) : Prop := r ∈ (undone target).map Prod.fst

instance (target : Option String) (r : Revision) : Decidable (TakesBack target r) :=
  inferInstanceAs (Decidable (_ ∈ _))

/-- What lets a downgrade through. -/
def knownDown (target : Option String) : Known where
  catalog := upgradedCatalog
  unique := if TakesBack target removeUniqueConstraintOnDuid then [("user", ["duid"])] else []

/-- What lets the upgrade back through as well. -/
def knownBack (target : Option String) : Known :=
  { knownDown target with empty := if TakesBack target addDomainTable then ["route"] else [] }

/-- Down and up in one script. -/
def wayBack (target : Option String) : List Alteration :=
  wayDown target ++ (wayUp target).map .does

/-- What a downgrade replaces, in order. -/
def replacements (target : Option String) : List (List String × String) :=
  (wayDown target).filterMap fun
    | .replace _ _ values value => some (values, value)
    | _ => none

-- All that is decided about a target stands in one statement: then its script and its catalog are
-- computed once, and the kernel has two evaluations to do instead of eleven.

/-- The scripts of the downgrades. -/
theorem wayDown_checked : ∀ target ∈ targets,
    (¬ TakesBack target linkEntityAndRouteViaManyToMany →
      (knownDown target).passes upgradedCatalog [] (wayDown target) = true) ∧
    (TakesBack target linkEntityAndRouteViaManyToMany → catalogAt target = none) ∧
    (TakesBack target removeUniqueConstraintOnDuid →
      wayDown (some removeUniqueConstraintOnDuid.revision) ++
        removeUniqueConstraintOnDuidDowngrade <+: wayDown target) ∧
    ∀ cat ∈ catalogAt target,
      (∀ t ∈ cat.schema, ¬ Clears (wayDown target) t.name) ∧
      (∀ p ∈ cat.columns, origin p.1 (wayDown target) p.2.name = some (
        if p.1 = "route" ∧ p.2.name ∈ ["status", "availability_status"] then
          .column "status" (replacements target)
        else .column p.2.name [])) ∧
      ∀ s ∈ statuses upgradedCatalog,
        (replacements target).foldl replaceIn (some (.text s)) =
          lowered (statuses cat) (some (.text s)) := by
  decide +kernel

/-- The scripts that go down and up again. -/
theorem wayBack_checked : ∀ target ∈ targets,
    (TakesBack target addDomainTable →
      .addColumn "route" (stringColumn "domain_id" 36) ∈ wayUp target) ∧
    (¬ TakesBack target linkEntityAndRouteViaManyToMany →
      (knownBack target).passes upgradedCatalog [] (wayBack target) = true ∧
      run Catalog.alter upgradedCatalog (wayBack target) = some upgradedCatalog ∧
      (∀ a ∈ wayBack target, ∀ table ∈ a.clears,
        .dropTable table ∈ wayDown target ∧ table ≠ "route") ∧
      ∀ p ∈ upgradedCatalog.columns, .dropTable p.1 ∉ wayDown target →
        origin p.1 (wayBack target) p.2.name = some (
          if .dropColumn p.1 p.2.name ∈ wayDown target then .constant p.2.default
          else if p.1 = "route" ∧ p.2.name = "status" then
            .column "status" (replacements target)
          else .column p.2.name [])) := by
  decide +kernel

/-- None of the revisions after `3acb77dd5d02` writes `user.duid` when it is taken back. -/
theorem origin_duid :
    ¬ Clears (wayDown (some removeUniqueConstraintOnDuid.revision)) "user" ∧
      origin "user" (wayDown (some removeUniqueConstraintOnDuid.revision)) "duid" =
        some (.column "duid" []) := by
  decide

theorem wayDown_passes : ∀ target ∈ targets, ¬ TakesBack target linkEntityAndRouteViaManyToMany →
    (knownDown target).passes upgradedCatalog [] (wayDown target) = true :=
  fun target ht => (wayDown_checked target ht).1

/-- No statement drops a constraint without a name. -/
theorem catalogAt_eq_none : ∀ target ∈ targets, TakesBack target linkEntityAndRouteViaManyToMany →
    catalogAt target = none :=
  fun target ht => (wayDown_checked target ht).2.1

/-- The downgrade of `3acb77dd5d02` comes after those of the later revisions. -/
theorem wayDown_duid : ∀ target ∈ targets, TakesBack target removeUniqueConstraintOnDuid →
    wayDown (some removeUniqueConstraintOnDuid.revision) ++
      removeUniqueConstraintOnDuidDowngrade <+: wayDown target :=
  fun target ht => (wayDown_checked target ht).2.2.1

theorem not_clears_wayDown : ∀ target ∈ targets, ∀ cat ∈ catalogAt target, ∀ t ∈ cat.schema,
    ¬ Clears (wayDown target) t.name :=
  fun target ht cat hcat => ((wayDown_checked target ht).2.2.2 cat hcat).1

/-- The columns that are left have their values from where they were. -/
theorem origin_wayDown : ∀ target ∈ targets, ∀ cat ∈ catalogAt target, ∀ p ∈ cat.columns,
    origin p.1 (wayDown target) p.2.name = some (
      if p.1 = "route" ∧ p.2.name ∈ ["status", "availability_status"] then
        .column "status" (replacements target)
      else .column p.2.name []) :=
  fun target ht cat hcat => ((wayDown_checked target ht).2.2.2 cat hcat).2.1

theorem replacements_lower : ∀ target ∈ targets, ∀ cat ∈ catalogAt target,
    ∀ s ∈ statuses upgradedCatalog,
      (replacements target).foldl replaceIn (some (.text s)) =
        lowered (statuses cat) (some (.text s)) :=
  fun target ht cat hcat => ((wayDown_checked target ht).2.2.2 cat hcat).2.2

/-- `route.domain_id` is added again. -/
theorem wayUp_domain : ∀ target ∈ targets, TakesBack target addDomainTable →
    .addColumn "route" (stringColumn "domain_id" 36) ∈ wayUp target :=
  fun target ht => (wayBack_checked target ht).1

theorem wayBack_passes : ∀ target ∈ targets, ¬ TakesBack target linkEntityAndRouteViaManyToMany →
    (knownBack target).passes upgradedCatalog [] (wayBack target) = true :=
  fun target ht hlink => ((wayBack_checked target ht).2 hlink).1

theorem run_wayBack : ∀ target ∈ targets, ¬ TakesBack target linkEntityAndRouteViaManyToMany →
    run Catalog.alter upgradedCatalog (wayBack target) = some upgradedCatalog :=
  fun target ht hlink => ((wayBack_checked target ht).2 hlink).2.1

theorem clears_wayBack : ∀ target ∈ targets, ¬ TakesBack target linkEntityAndRouteViaManyToMany →
    ∀ a ∈ wayBack target, ∀ table ∈ a.clears,
      .dropTable table ∈ wayDown target ∧ table ≠ "route" :=
  fun target ht hlink => ((wayBack_checked target ht).2 hlink).2.2.1

/-- A column that was dropped has its default. -/
theorem origin_wayBack : ∀ target ∈ targets, ¬ TakesBack target linkEntityAndRouteViaManyToMany →
    ∀ p ∈ upgradedCatalog.columns, .dropTable p.1 ∉ wayDown target →
      origin p.1 (wayBack target) p.2.name = some (
        if .dropColumn p.1 p.2.name ∈ wayDown target then .constant p.2.default
        else if p.1 = "route" ∧ p.2.name = "status" then .column "status" (replacements target)
        else .column p.2.name []) :=
  fun target ht hlink => ((wayBack_checked target ht).2 hlink).2.2.2

/-! ### A database at the last revision -/

/-- Two users with one `duid`, and a route of a domain. -/
def officeRows : Rows
  | "entity" => [rowOf [("id", "1"), ("kind", "user")], rowOf [("id", "2"), ("kind", "user")]]
  | "user" =>
    [Function.update (rowOf [("id", "1"), ("uid", "alice"), ("duid", "d")]) "is_admin"
        (some (.boolean true)),
      Function.update (rowOf [("id", "2"), ("uid", "bob"), ("duid", "d")]) "is_admin"
        (some (.boolean false))]
  | "domain" =>
    [rowOf [("id", "apps"), ("name", "apps"), ("value", "apps.example.com"),
      ("domain_type", "STANDARD")]]
  | "route" =>
    [Function.update (rowOf [("id", "r"), ("src", "https://app.apps.example.com/"),
        ("dst", "piko://r"), ("token", "t"), ("verification_status", "VERIFIED"),
        ("status", "SERVER_ERROR"), ("name", "app"), ("domain_id", "apps")])
      "last_contact" (some (.timestamp 0))]
  | _ => []

def office : Populated := ⟨upgradedCatalog, officeRows⟩

theorem office_valid : office.Valid where
  tables table h := by
    change officeRows table ≠ [] at h
    unfold officeRows at h
    split at h
    · decide +kernel
    · decide +kernel
    · decide +kernel
    · decide +kernel
    · exact absurd rfl h
  columns table r hr c hc := by
    have hcolumns : (∀ c ∈ ["id", "kind"], upgradedCatalog.HasColumn "entity" c) ∧
        (∀ c ∈ ["is_admin", "id", "uid", "duid"], upgradedCatalog.HasColumn "user" c) ∧
        (∀ c ∈ ["id", "name", "value", "domain_type"], upgradedCatalog.HasColumn "domain" c) ∧
        ∀ c ∈ ["last_contact", "id", "src", "dst", "token", "verification_status", "status", "name",
          "domain_id"], upgradedCatalog.HasColumn "route" c := by decide +kernel
    have hupdate : ∀ {r : Row String Value} {c' : String} {v : Option Value} {cs : List String},
        (r c ≠ none → c ∈ cs) → Function.update r c' v c ≠ none → c ∈ c' :: cs := by
      intro r c' v cs h hne
      by_cases hcc : c = c'
      · exact hcc ▸ List.mem_cons_self
      · rw [Function.update_of_ne hcc] at hne
        exact List.mem_cons_of_mem c' (h hne)
    change r ∈ officeRows table at hr
    unfold officeRows at hr
    split at hr
    · simp only [List.mem_cons, List.not_mem_nil, or_false] at hr
      rcases hr with rfl | rfl
      · exact hcolumns.1 c (mem_of_rowOf hc)
      · exact hcolumns.1 c (mem_of_rowOf hc)
    · simp only [List.mem_cons, List.not_mem_nil, or_false] at hr
      rcases hr with rfl | rfl
      · exact hcolumns.2.1 c (hupdate mem_of_rowOf hc)
      · exact hcolumns.2.1 c (hupdate mem_of_rowOf hc)
    · rw [List.mem_singleton.mp hr] at hc
      exact hcolumns.2.2.1 c (mem_of_rowOf hc)
    · rw [List.mem_singleton.mp hr] at hc
      exact hcolumns.2.2.2 c (hupdate mem_of_rowOf hc)
    · cases hr
  notNull := by decide +kernel
  typed := by decide +kernel
  keys := by decide +kernel
  foreignKeys := by decide +kernel

/-! ## Which databases -/

section Downgrades

variable {now : Value} {db db' : Populated} {target : Option String}

/-- The statuses of the routes are lowered. -/
theorem status_lowered (hv : db.Valid) (hcat : db.catalog = upgradedCatalog)
    {labels : List String} (hlower : ∀ s ∈ statuses upgradedCatalog,
      (replacements target).foldl replaceIn (some (.text s)) = lowered labels (some (.text s)))
    {r : Row String Value} (hr : r ∈ db.rows "route") :
    (replacements target).foldl replaceIn (r "status") = lowered labels (r "status") := by
  cases hstatus : r "status" with
  | none => exact replaced_none _
  | some v =>
    have hcolumn : ∃ p ∈ upgradedCatalog.columns, p.1 = "route" ∧ p.2.name = "status" ∧
        p.2.type = .enum "status" := by decide
    obtain ⟨p, hp, htable, hname, htype⟩ := hcolumn
    have hfits := hv.typed p (hcat ▸ hp) r (by rw [htable]; exact hr) v
      (by rw [hname]; exact hstatus)
    rw [htype, hcat] at hfits
    cases v with
    | text s =>
      obtain ⟨labels', hlabels', hs⟩ := hfits
      refine hlower s ?_
      unfold statuses
      rw [Option.mem_def.mp hlabels']
      exact hs
    | boolean b | timestamp t => exact hfits.elim

/-- Users share no `duid` when its constraint is added again. -/
theorem duid_unique (ht : target ∈ targets) (hduid : TakesBack target removeUniqueConstraintOnDuid)
    {more : List Alteration}
    (hrun : run (Populated.alter now) db (wayDown target ++ more) = some db') :
    (Key.unique ["duid"]).Holds (db.rows "user") := by
  obtain ⟨after, hsplit⟩ := wayDown_duid target ht hduid
  obtain ⟨hclears, horigin⟩ := origin_duid
  rw [← hsplit, List.append_assoc, List.append_assoc] at hrun
  obtain ⟨cat, hadmits⟩ := run_alter_admits hrun
  have hholds : (Key.unique ["duid"]).Holds (applyAll now
      (wayDown (some removeUniqueConstraintOnDuid.revision)) db.rows "user") := hadmits
  rw [applyAll_of_not_clears hclears] at hholds
  refine (unique_holds_iff fun r c hc => ?_).mp hholds
  rw [List.mem_singleton.mp hc]
  exact onRows_eq horigin r

theorem knownDown_unique (hduid : TakesBack target removeUniqueConstraintOnDuid →
    (Key.unique ["duid"]).Holds (db.rows "user")) :
    ∀ p ∈ (knownDown target).unique, (Key.unique p.2).Holds (db.rows p.1) := by
  intro p hp
  unfold knownDown at hp
  split_ifs at hp with htakes
  · rw [List.mem_singleton.mp hp]
    exact hduid htakes
  · cases hp

/-- What a downgrade leaves. -/
theorem downgrade_leftOf (hcat : db.catalog = upgradedCatalog) (hv : db.Valid)
    (ht : target ∈ targets) (hrun : downgrade now target db = some db') : LeftOf db db' := by
  obtain ⟨hcats, hrows⟩ := run_alter_eq_some hrun
  rw [hcat] at hcats
  intro table htable
  obtain ⟨t, hmem, rfl⟩ := List.mem_map.mp htable
  refine ⟨onRows now t.name (wayDown target), ?_, fun r hr column hcolumn => ?_⟩
  · rw [hrows]
    exact applyAll_of_not_clears (not_clears_wayDown target ht _ hcats t hmem)
  · obtain ⟨p, hp, heq⟩ := List.mem_map.mp hcolumn
    obtain ⟨htab, rfl⟩ := Prod.mk.inj heq
    rw [← htab] at hr ⊢
    rw [onRows_eq (origin_wayDown target ht _ hcats p hp)]
    split_ifs with hstatus
    · rw [hstatus.1] at hr
      exact status_lowered hv hcat (replacements_lower target ht _ hcats) hr
    · rfl

/-- **Which downgrades go through.** A database at the last revision whose rows satisfy its
constraints is downgraded exactly if the many-to-many table of routes is kept, whose downgrade
never succeeds, and no users share a `duid` that has to be unique again; and what is left is as it
was, but for statuses that there no longer are. -/
theorem downgrade_iff (now : Value) (db : Populated) (hcat : db.catalog = upgradedCatalog)
    (hv : db.Valid) (target : Option String) (ht : target ∈ targets) :
    ((∃ db', downgrade now target db = some db') ↔
      ¬ TakesBack target linkEntityAndRouteViaManyToMany ∧
        (TakesBack target removeUniqueConstraintOnDuid →
          (Key.unique ["duid"]).Holds (db.rows "user"))) ∧
      ∀ db', downgrade now target db = some db' → LeftOf db db' := by
  refine ⟨⟨?_, ?_⟩, fun db' hrun => downgrade_leftOf hcat hv ht hrun⟩
  · rintro ⟨db', hrun⟩
    refine ⟨fun hlink => ?_, fun hduid => ?_⟩
    · have hcats := (run_alter_eq_some hrun).1
      rw [hcat] at hcats
      exact absurd (catalogAt_eq_none target ht hlink) (by
        unfold catalogAt
        rw [hcats]
        exact Option.some_ne_none _)
    · have hall : run (Populated.alter now) db (wayDown target ++ []) = some db' := by
        rw [List.append_nil]
        exact hrun
      exact duid_unique ht hduid hall
  · rintro ⟨hlink, hduid⟩
    have hk : (knownDown target).Of db :=
      ⟨hcat, hv, fun t h => absurd h List.not_mem_nil, knownDown_unique hduid⟩
    obtain ⟨cat', hrun⟩ := run_of_passes now hk (wayDown_passes target ht hlink)
    rw [← hcat] at hrun
    exact ⟨_, hrun⟩

/-- It can be downgraded until a `duid` has to be unique. -/
theorem downgrade_iff_office :
    (∃ db', downgrade (.timestamp 0) (some "3acb77dd5d02") office = some db') ∧
      ¬ ∃ db', downgrade (.timestamp 0) (some "3832c52955f5") office = some db' := by
  constructor
  · exact (downgrade_iff (.timestamp 0) office rfl office_valid (some "3acb77dd5d02")
      (by decide)).1.mpr (by decide +kernel)
  · intro h
    have hduid := ((downgrade_iff (.timestamp 0) office rfl office_valid (some "3832c52955f5")
      (by decide)).1.mp h).2
    exact absurd hduid (by decide +kernel)

theorem downAndUp_eq_some_iff :
    downAndUp now target db = some db' ↔
      run (Populated.alter now) db (wayBack target) = some db' := by
  unfold downAndUp wayBack downgrade upgradeFrom
  rw [run_append, Option.bind_eq_some_iff]
  simp only [run_alter_does]

/-- What comes back, once it goes up again. -/
theorem wayBack_comesBack (hcat : db.catalog = upgradedCatalog) (hv : db.Valid)
    (ht : target ∈ targets) (hlink : ¬ TakesBack target linkEntityAndRouteViaManyToMany)
    (hrun : run (Populated.alter now) db (wayBack target) = some db') :
    ComesBack target db db' := by
  obtain ⟨hcats, hrows⟩ := run_alter_eq_some hrun
  rw [hcat, run_wayBack target ht hlink] at hcats
  refine ⟨?_, fun table htable => ?_, fun table htable => ?_⟩
  · rw [hcat]
    exact (Option.some.inj hcats).symm
  · rw [hrows]
    exact applyAll_of_clears ⟨_, List.mem_append_left _ htable, rfl⟩
  · have hclears : ¬ Clears (wayBack target) table := fun ⟨a, ha, hc⟩ =>
      htable (clears_wayBack target ht hlink a ha table hc).1
    refine ⟨onRows now table (wayBack target), ?_, fun r hr p hp hname => ?_⟩
    · rw [hrows]
      exact applyAll_of_not_clears hclears
    · subst hname
      rw [hcat] at hp
      rw [onRows_eq (origin_wayBack target ht hlink p hp htable)]
      split_ifs with hdrop hstatus
      · rfl
      · obtain ⟨cat, hat, -⟩ := run_append.mp (run_wayBack target ht hlink)
        have hcatalogAt : catalogAt target = some cat := hat
        rw [hstatus.1] at hr
        rw [hcatalogAt]
        exact status_lowered hv hcat (replacements_lower target ht cat hcatalogAt) hr
      · rfl

/-- With routes `route.domain_id` is not added again. -/
theorem no_routes (ht : target ∈ targets)
    (hlink : ¬ TakesBack target linkEntityAndRouteViaManyToMany)
    (hdomain : TakesBack target addDomainTable)
    (hrun : run (Populated.alter now) db (wayBack target) = some db') : db.rows "route" = [] := by
  obtain ⟨before, after, hsplit⟩ := List.append_of_mem (wayUp_domain target ht hdomain)
  have hway : wayBack target = (wayDown target ++ before.map .does) ++
      .does (.addColumn "route" (stringColumn "domain_id" 36)) :: after.map .does := by
    unfold wayBack
    rw [hsplit, List.map_append, List.map_cons, List.append_assoc]
  have hclears : ¬ Clears (wayDown target ++ before.map .does) "route" := by
    rintro ⟨a, ha, hc⟩
    refine (clears_wayBack target ht hlink a ?_ "route" hc).2 rfl
    rw [hway]
    exact List.mem_append_left _ ha
  rw [hway] at hrun
  obtain ⟨cat, hadmits⟩ := run_alter_admits hrun
  have hempty : applyAll now (wayDown target ++ before.map .does) db.rows "route" = [] :=
    hadmits rfl rfl
  rw [applyAll_of_not_clears hclears] at hempty
  exact List.map_eq_nil_iff.mp hempty

/-- **Which databases come back.** A database at the last revision whose rows satisfy its
constraints can be downgraded and upgraded again exactly if the downgrade goes through and, where
the table of domains is taken back, there are no routes; and then its catalog comes back, the rows
of dropped tables are lost, the values of dropped columns are their defaults, and statuses that the
target did not have are `DOWN`. -/
theorem downAndUp_iff (now : Value) (db : Populated) (hcat : db.catalog = upgradedCatalog)
    (hv : db.Valid) (target : Option String) (ht : target ∈ targets) :
    ((∃ db', downAndUp now target db = some db') ↔
      ¬ TakesBack target linkEntityAndRouteViaManyToMany ∧
        (TakesBack target removeUniqueConstraintOnDuid →
          (Key.unique ["duid"]).Holds (db.rows "user")) ∧
        (TakesBack target addDomainTable → db.rows "route" = [])) ∧
      ∀ db', downAndUp now target db = some db' → ComesBack target db db' := by
  have hlinks : ∀ db', downAndUp now target db = some db' →
      ¬ TakesBack target linkEntityAndRouteViaManyToMany := by
    intro db' h hlink
    obtain ⟨hcats, -⟩ := run_alter_eq_some (downAndUp_eq_some_iff.mp h)
    obtain ⟨cat, hat, -⟩ := run_append.mp hcats
    rw [hcat] at hat
    have hnone := catalogAt_eq_none target ht hlink
    unfold catalogAt at hnone
    rw [hat] at hnone
    cases hnone
  refine ⟨⟨?_, ?_⟩, fun db' h => ?_⟩
  · rintro ⟨db', h⟩
    have hrun := downAndUp_eq_some_iff.mp h
    exact ⟨hlinks db' h, fun hduid => duid_unique ht hduid hrun,
      fun hdomain => no_routes ht (hlinks db' h) hdomain hrun⟩
  · rintro ⟨hlink, hduid, hdomain⟩
    have hk : (knownBack target).Of db := by
      refine ⟨hcat, hv, fun t h => ?_, knownDown_unique hduid⟩
      unfold knownBack at h
      split_ifs at h with htakes
      · rw [List.mem_singleton.mp h]
        exact hdomain htakes
      · cases h
    obtain ⟨cat', hrun⟩ := run_of_passes now hk (wayBack_passes target ht hlink)
    rw [← hcat] at hrun
    exact ⟨_, downAndUp_eq_some_iff.mpr hrun⟩
  · exact wayBack_comesBack hcat hv ht (hlinks db' h) (downAndUp_eq_some_iff.mp h)

/-- It comes back while it keeps its domain. -/
theorem downAndUp_iff_office :
    (∃ db', downAndUp (.timestamp 0) (some "3bf5f7623dea") office = some db') ∧
      ¬ ∃ db', downAndUp (.timestamp 0) (some "3acb77dd5d02") office = some db' := by
  constructor
  · exact (downAndUp_iff (.timestamp 0) office rfl office_valid (some "3bf5f7623dea")
      (by decide)).1.mpr (by decide +kernel)
  · intro h
    have hroutes := ((downAndUp_iff (.timestamp 0) office rfl office_valid (some "3acb77dd5d02")
      (by decide)).1.mp h).2.2 (by decide +kernel)
    cases hroutes

end Downgrades

end RouteRegistry
