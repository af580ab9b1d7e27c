import RouteRegistry.Registry.Migrations
import RouteRegistry.Relational.Populated

/-!
# Upgrades of a populated database (`alembic/versions/`)

The revisions of `Migrations` once more, with the types, defaults and foreign keys that
matter where there are rows (`upgrades_statements`). One of them adds `route.domain_id` as
`NOT NULL`, without a default and without filling it, so a database with routes cannot be
upgraded (`upgrades_keep_iff`).
-/

namespace RouteRegistry

open Relational Runs

/-! ## Operations of the revisions -/

/-- `sa.ForeignKeyConstraint([column], [target.id])`, under the name PostgreSQL gives it. -/
def referenceTo (table column target : String) : ForeignKey :=
  ⟨table ++ "_" ++ column ++ "_fkey", table, [column], target, ["id"]⟩

/-- `sa.Column(name, sa.String(length=…), nullable=False)`. -/
def stringColumn (name : String) (length : Nat) : ColumnDef :=
  { name := name, type := .varchar length, notNull := true }

/-- `b70672394cf4`; a table's enumeration types are created before it. -/
def initialCommitOperations : List Operation :=
  [.createTable "entity" [stringColumn "id" 36, { name := "kind", type := .varchar 32 }]
      [.primary ["id"], .unique ["id"]] [],
    .createType "verificationstatus" ["VERIFIED", "PENDING", "UNVERIFIED"],
    .createType "availabilitystatus" ["UP", "DOWN"],
    .createTable "route"
      [stringColumn "id" 36, stringColumn "src" 2000, stringColumn "dst" 2000,
        stringColumn "token" 256,
        { name := "verification_status", type := .enum "verificationstatus", notNull := true },
        { name := "availability_status", type := .enum "availabilitystatus", notNull := true }]
      [.primary ["id"], .unique ["dst"], .unique ["id"], .unique ["src"], .unique ["token"]] [],
    .createTable "group" [stringColumn "id" 36, stringColumn "name" 128]
      [.primary ["id"], .unique ["name"]] [referenceTo "group" "id" "entity"],
    .createType "policy" ["ALLOW", "DENY"],
    .createTable "rule"
      [stringColumn "route_id" 36, stringColumn "entity_id" 36,
        { name := "policy", type := .enum "policy", notNull := true }]
      [.primary ["route_id", "entity_id"]]
      [referenceTo "rule" "entity_id" "entity", referenceTo "rule" "route_id" "route"],
    .createTable "user" [stringColumn "id" 36, stringColumn "uid" 128]
      [.primary ["id"], .unique ["uid"]] [referenceTo "user" "id" "entity"]]

/-- `3bfd13c165c0`. -/
def addLastContactColumnToRouteOperations : List Operation :=
  [.addColumn "route" { name := "last_contact", type := .timestamp },
    .fillNow "route" "last_contact",
    .setNotNull "route" "last_contact"]

/-- `7c9e3af1c8a2`. -/
def addNameColumnToRouteOperations : List Operation :=
  [.addColumn "route" { stringColumn "name" 128 with default := some (.text "") },
    .dropDefault "route" "name"]

/-- `671ac85bae45`. -/
def dropUniqueConstraintOnDstOperations : List Operation :=
  [.dropConstraint "route_dst_key" "route"]

/-- `d5e523d513bf`. -/
def linkEntityAndRouteViaManyToManyOperations : List Operation :=
  [.createTable "entity_route_association" [stringColumn "entity_id" 36, stringColumn "route_id" 36]
      [.primary ["entity_id", "route_id"]]
      [referenceTo "entity_route_association" "entity_id" "entity",
        referenceTo "entity_route_association" "route_id" "route"],
    .addUnique none "entity" ["id"],
    .addUnique none "route" ["id"]]

/-- `3832c52955f5`. -/
def addDuidToUserOperations : List Operation :=
  [.addColumn "user" { name := "duid", type := .varchar 128 },
    .addUnique (some "user_duid_key") "user" ["duid"]]

/-- `3acb77dd5d02`. -/
def removeUniqueConstraintOnDuidOperations : List Operation :=
  [.dropConstraint "user_duid_key" "user"]

/-- `3bf5f7623dea`: the new column of `route` has no default, and nothing fills it. -/
def addDomainTableOperations : List Operation :=
  [.createTable "domain"
      [stringColumn "id" 36, stringColumn "name" 128, stringColumn "value" 2048,
        { name := "restricted", type := .boolean }, { name := "default", type := .boolean }]
      [.primary ["id"], .unique ["id"], .unique ["name"], .unique ["value"]] [],
    .addColumn "route" (stringColumn "domain_id" 36),
    .addForeignKey ⟨"route_domain_id_fkey", "route", ["domain_id"], "domain", ["id"]⟩]

/-- `c7f339b17766`. -/
def addDomainTypeToDomainTableOperations : List Operation :=
  [.createType "domaintype" ["STANDARD", "EPHEMERAL", "USER"],
    .addColumn "domain"
      { name := "domain_type", type := .enum "domaintype", notNull := true,
        default := some (.text "STANDARD") },
    .addUnique (some "domain_id_key") "domain" ["id"]]

/-- `type_modifier` around `new_type.create` and the change of `route.status`; where one of
them fails, the `except` clause raises again, and the transaction is lost. -/
def modifyStatusType (oldName newName : String) (labels : List String) : List Operation :=
  [.renameType oldName (oldName ++ "_tmp"), .createType newName labels,
    .retype "route" "status" newName, .dropType (oldName ++ "_tmp")]

/-- `8b2e18c8fb42`. -/
def refactorAvailabilityStatusToStatusOperations : List Operation :=
  [.setNotNull "route" "availability_status",
    .renameColumn "route" "availability_status" "status"] ++
  modifyStatusType "availabilitystatus" "status"
    ["UP", "DOWN", "MISCONFIGURED", "MISSING_ENTITY", "UPGRADE_REQUIRED"]

/-- `032293b44a9c`. -/
def addServerErrorStatusOperations : List Operation :=
  modifyStatusType "status" "status"
    ["UP", "DOWN", "MISCONFIGURED", "MISSING_ENTITY", "UPGRADE_REQUIRED", "SERVER_ERROR"]

/-- `18380dc634da`. -/
def addRouteCommunityConstructsOperations : List Operation :=
  [.createTable "community"
      [stringColumn "id" 36, stringColumn "entity_id" 36, stringColumn "name" 128]
      [.primary ["id"]] [referenceTo "community" "entity_id" "entity"],
    .createType "membershipstatus" ["UNKNOWN", "PENDING", "DECLINED", "APPROVED"],
    .createTable "membership_request"
      [stringColumn "entity_id" 36, stringColumn "community_id" 36, stringColumn "route_id" 36,
        { name := "status", type := .enum "membershipstatus", notNull := true,
          default := some (.text "UNKNOWN") }]
      [.primary ["community_id", "route_id"]]
      [referenceTo "membership_request" "entity_id" "entity",
        referenceTo "membership_request" "community_id" "community",
        referenceTo "membership_request" "route_id" "route"],
    .addColumn "route" { name := "community_id", type := .varchar 36 },
    .addForeignKey ⟨"route_community_id_fkey", "route", ["community_id"], "community", ["id"]⟩]

/-- `8ceb564736f7`. -/
def compositeCommunityNameEntityUniqueOperations : List Operation :=
  [.addUnique (some "community_entity_id_name_key") "community" ["entity_id", "name"]]

/-- `982b0a2b0550`. -/
def addAdminTokenTableAndIsAdminToUserOperations : List Operation :=
  [.createType "adminrole" ["ANY", "OBSERVER", "DOMAIN", "IDENTITY", "NONE"],
    .createTable "admin_token"
      [stringColumn "id" 36, stringColumn "name" 128, stringColumn "value" 128,
        { name := "role", type := .enum "adminrole", notNull := true,
          default := some (.text "NONE") }]
      [.primary ["id"], .unique ["name"], .unique ["value"]] [],
    .addColumn "user"
      { name := "is_admin", type := .boolean, notNull := true, default := some (.boolean false) }]

/-- The later revisions in order, each with its operations. -/
def laterUpgrades : List (Revision × List Operation) :=
  [(addLastContactColumnToRoute, addLastContactColumnToRouteOperations),
    (addNameColumnToRoute, addNameColumnToRouteOperations),
    (dropUniqueConstraintOnDst, dropUniqueConstraintOnDstOperations),
    (linkEntityAndRouteViaManyToMany, linkEntityAndRouteViaManyToManyOperations),
    (addDuidToUser, addDuidToUserOperations),
    (removeUniqueConstraintOnDuid, removeUniqueConstraintOnDuidOperations),
    (addDomainTable, addDomainTableOperations),
    (addDomainTypeToDomainTable, addDomainTypeToDomainTableOperations),
    (refactorAvailabilityStatusToStatus, refactorAvailabilityStatusToStatusOperations),
    (addServerErrorStatus, addServerErrorStatusOperations),
    (addRouteCommunityConstructs, addRouteCommunityConstructsOperations),
    (compositeCommunityNameEntityUnique, compositeCommunityNameEntityUniqueOperations),
    (addAdminTokenTableAndIsAdminToUser, addAdminTokenTableAndIsAdminToUserOperations)]

def laterOperations : List Operation := laterUpgrades.flatMap Prod.snd

/-- The history, and what it does to tables and keys, are those of `Migrations`. -/
theorem upgrades_statements :
    history versions.length none = initialCommit :: laterUpgrades.map Prod.fst ∧
      initialCommitOperations.flatMap Operation.statements = initialCommit.upgrade ∧
      ∀ u ∈ laterUpgrades, u.2.flatMap Operation.statements = u.1.upgrade := by
  decide +kernel

/-- The catalog of a database at the initial revision. -/
def initialCatalog : Catalog := (run Catalog.execute {} initialCommitOperations).getD {}

/-- Its catalog once it is upgraded. -/
def upgradedCatalog : Catalog := (run Catalog.execute initialCatalog laterOperations).getD {}

theorem run_laterOperations :
    run Catalog.execute initialCatalog laterOperations = some upgradedCatalog := by
  decide +kernel

/-- Tables and keys end up as in `Migrations`. -/
theorem upgradedCatalog_schema : upgradedCatalog.schema = migrated := by decide +kernel

/-! ## What the upgrades do to rows -/

/-- `alembic upgrade` from the initial revision to the last; `now` is the time of `now()`. -/
def upgradeAll (now : Value) (db : Populated) : Option Populated :=
  run (Populated.execute now) db laterOperations

/-- The later name of a column. -/
def readAs (table column : String) : String :=
  if table = "route" ∧ column = "availability_status" then "status" else column

/-- Every row of the initial tables is still there, with its values. -/
def KeepsRows (db db' : Populated) : Prop :=
  ∀ table ∈ ["entity", "user", "group", "route", "rule"], ∀ r ∈ db.rows table,
    ∃ r' ∈ db'.rows table, ∀ column, db.catalog.HasColumn table column →
      r' (readAs table column) = r column

/-- The tables without rows in a database without routes, when it is upgraded. -/
def emptyTables : List String :=
  ["route", "rule", "entity_route_association", "domain", "community", "membership_request",
    "admin_token"]

/-- What lets every operation through. -/
structure Settled (rows : Rows) : Prop where
  empty : ∀ table ∈ emptyTables, rows table = []
  entityKey : (Key.unique ["id"]).Holds (rows "entity")
  duid : ∀ r ∈ rows "user", r "duid" = none

/-- The operations that look at a table with rows. -/
theorem laterOperations_looksAt :
    ∀ op ∈ laterOperations, (∀ t ∈ op.looksAt, t ∈ emptyTables) ∨
      op = .addUnique none "entity" ["id"] ∨
      op = .addColumn "user" { name := "duid", type := .varchar 128 } ∨
      op = .addUnique (some "user_duid_key") "user" ["duid"] ∨
      op = .addColumn "user"
        { name := "is_admin", type := .boolean, notNull := true,
          default := some (.boolean false) } := by
  decide +kernel

/-- No later operation creates an initial table or writes an entity; one writes `duid`. -/
theorem laterOperations_writes :
    ∀ op ∈ laterOperations, (∀ t ∈ ["entity", "user", "group", "route", "rule"],
      op.creates ≠ some t) ∧ op.writes "entity" = [] ∧
      ("duid" ∉ op.writes "user" ∨
        op = .addColumn "user" { name := "duid", type := .varchar 128 }) := by
  decide +kernel

/-- Of the initial columns only one of `route` is written. -/
theorem laterOperations_keeps :
    ∀ p ∈ initialCatalog.columns, p.1 ≠ "route" → ∀ op ∈ laterOperations,
      p.2.name ∉ op.writes p.1 := by
  decide +kernel

section Upgrades

variable {now : Value} {db : Populated} {rows : Rows} {op : Operation}

theorem Settled.admits (h : Settled rows) (hop : op ∈ laterOperations) (cat : Catalog) :
    op.Admits cat rows := by
  rcases laterOperations_looksAt op hop with hempty | rfl | rfl | rfl | rfl
  · exact Operation.admits_of_empty fun t ht => h.empty t (hempty t ht)
  · exact h.entityKey
  · exact fun hnull => by cases hnull
  · -- nulls are distinct
    have hnone : (rows "user").filter (Row.complete ["duid"]) = [] := by
      refine List.filter_eq_nil_iff.mpr fun r hr => ?_
      simp [Row.complete, h.duid r hr]
    show Keyed (Row.values ["duid"]) ((rows "user").filter (Row.complete ["duid"]))
    rw [hnone]
    exact List.nodup_nil
  · exact fun _ hdefault => by cases hdefault

theorem Settled.apply (h : Settled rows) (hop : op ∈ laterOperations) :
    Settled (op.apply now rows) := by
  obtain ⟨hcreates, hentity, hduid⟩ := laterOperations_writes op hop
  refine ⟨fun t ht => Operation.apply_empty (h.empty t ht), ?_, ?_⟩
  · have hsame : op.apply now rows "entity" = rows "entity" := by
      rw [Operation.apply_of_not_creates (hcreates "entity" (by simp))]
      refine (List.map_congr_left fun r _ => ?_).trans (List.map_id _)
      funext column
      exact Operation.onRow_keeps (by simp [hentity])
    rw [hsame]
    exact h.entityKey
  · rw [Operation.apply_of_not_creates (hcreates "user" (by simp))]
    intro r' hr'
    obtain ⟨r, hr, rfl⟩ := List.mem_map.mp hr'
    rcases hduid with hno | rfl
    · rw [Operation.onRow_keeps hno]
      exact h.duid r hr
    · rfl

/-- A database without routes is settled. -/
theorem settled_of_valid (hv : db.Valid) (hcat : db.catalog = initialCatalog)
    (hroute : db.rows "route" = []) : Settled db.rows := by
  have hnew : ∀ table, table ∉ initialCatalog.schema.map TableDef.name → db.rows table = [] := by
    intro table hno
    by_contra hrows
    exact hno (hcat ▸ hv.tables table hrows)
  have hrule : db.rows "rule" = [] := by
    -- a rule refers to its route
    refine List.eq_nil_iff_forall_not_mem.mpr fun r hr => ?_
    have hcomplete : (r "route_id").isSome = true :=
      hv.notNull ("rule", stringColumn "route_id" 36) (hcat ▸ by decide +kernel) rfl r hr
    obtain ⟨r', hr', -⟩ := hv.foreignKeys (referenceTo "rule" "route_id" "route")
      (hcat ▸ by decide +kernel) r hr (Row.complete_iff.mpr fun c hc => by
        rw [List.mem_singleton.mp hc]
        exact Option.isSome_iff_exists.mp hcomplete)
    rw [show db.rows (referenceTo "rule" "route_id" "route").target = [] from hroute] at hr'
    cases hr'
  refine ⟨fun table htable => ?_, ?_, fun r hr => ?_⟩
  · simp only [emptyTables, List.mem_cons, List.not_mem_nil, or_false] at htable
    rcases htable with rfl | rfl | rfl | rfl | rfl | rfl | rfl
    · exact hroute
    · exact hrule
    all_goals exact hnew _ (by decide +kernel)
  · have hprimary : ∃ t ∈ initialCatalog.schema, t.name = "entity" ∧
        Key.primary ["id"] ∈ t.keys := by decide +kernel
    obtain ⟨t, ht, hname, hk⟩ := hprimary
    have hholds := hv.keys t (hcat ▸ ht) _ hk
    rw [hname] at hholds
    exact hholds.of_covers rfl
  · by_contra hduid
    have hcolumn := hv.columns "user" r hr "duid" hduid
    rw [hcat] at hcolumn
    exact absurd hcolumn (by decide +kernel)

/-- Without routes every operation goes through. -/
theorem upgradeAll_of_no_routes (now : Value) (hv : db.Valid) (hcat : db.catalog = initialCatalog)
    (hroute : db.rows "route" = []) : ∃ db', upgradeAll now db = some db' := by
  have halong : ∀ ops : List Operation, (∀ op ∈ ops, op ∈ laterOperations) → ∀ rows, Settled rows →
      Along (fun rows op => some (op.apply now rows)) (fun rows op => ∀ cat, op.Admits cat rows)
        rows ops := by
    intro ops
    induction ops with
    | nil => exact fun _ _ _ => trivial
    | cons op ops ih =>
      intro hops rows hrows
      have hop := hops op List.mem_cons_self
      exact ⟨hrows.admits hop, ih (fun op' h => hops op' (List.mem_cons_of_mem op h)) _
        (hrows.apply hop)⟩
  have hrun := run_laterOperations
  rw [← hcat] at hrun
  obtain ⟨rows', h⟩ := run_execute_of_admits hrun
    (halong laterOperations (fun _ h => h) db.rows (settled_of_valid hv hcat hroute))
  exact ⟨_, h⟩

/-- With routes the revision that adds `route.domain_id` fails. -/
theorem upgradeAll_of_routes (now : Value) (hroute : db.rows "route" ≠ []) :
    upgradeAll now db = none := by
  have hsplit : ∃ before after, laterOperations =
      before ++ .addColumn "route" (stringColumn "domain_id" 36) :: after ∧
        ∀ op ∈ before, op ∈ laterOperations := by
    obtain ⟨before, after, h⟩ := List.append_of_mem
      (show Operation.addColumn "route" (stringColumn "domain_id" 36) ∈ laterOperations by
        decide +kernel)
    refine ⟨before, after, h, fun op hop => ?_⟩
    rw [h]
    exact List.mem_append_left _ hop
  obtain ⟨before, after, hsplit, hbefore⟩ := hsplit
  refine run_addColumn_refused hsplit rfl rfl (fun op hop => ?_) hroute
  exact (laterOperations_writes op (hbefore op hop)).1 "route" (by simp)

/-- **Which databases the upgrades keep.** From a database at the initial revision whose rows
satisfy its constraints, all later upgrades succeed and keep the rows exactly when it has no
route. -/
theorem upgrades_keep_iff (now : Value) (db : Populated) (hcat : db.catalog = initialCatalog)
    (hv : db.Valid) :
    (∃ db', upgradeAll now db = some db' ∧ KeepsRows db db') ↔ db.rows "route" = [] := by
  constructor
  · rintro ⟨db', hrun, -⟩
    by_contra hroute
    rw [upgradeAll_of_routes now hroute] at hrun
    cases hrun
  · intro hroute
    obtain ⟨db', hrun⟩ := upgradeAll_of_no_routes now hv hcat hroute
    refine ⟨db', hrun, fun table htable r hr => ?_⟩
    have hne : table ≠ "route" := by
      rintro rfl
      rw [hroute] at hr
      cases hr
    obtain ⟨r', hr', hsame⟩ := run_execute_keeps hrun
      (fun op hop => (laterOperations_writes op hop).1 table htable) r hr
    refine ⟨r', hr', fun column hcolumn => ?_⟩
    have hread : readAs table column = column := if_neg fun h => hne h.1
    rw [hread]
    rw [hcat] at hcolumn
    obtain ⟨p, hp, heq⟩ := List.mem_map.mp hcolumn
    cases heq
    exact hsame p.2.name fun op hop => laterOperations_keeps p hp hne op hop

end Upgrades

/-! ### Two databases -/

/-- The row with these values and no others. -/
def rowOf (values : List (String × String)) : Row String Value := fun c =>
  (lookup Prod.fst c values).map fun p => .text p.2

theorem mem_of_rowOf {values : List (String × String)} {c : String} (h : rowOf values c ≠ none) :
    c ∈ values.map Prod.fst := by
  rw [← lookup_isSome_iff]
  unfold rowOf at h
  simpa [Option.isSome_iff_ne_none] using h

/-- A user's entity and the user. -/
def aliceRows : Rows
  | "entity" => [rowOf [("id", "1"), ("kind", "user")]]
  | "user" => [rowOf [("id", "1"), ("uid", "alice")]]
  | _ => []

/-- A route. -/
def routeRows : Rows
  | "route" =>
    [rowOf [("id", "r"), ("src", "https://app.example.com/"), ("dst", "piko://r"), ("token", "t"),
      ("verification_status", "VERIFIED"), ("availability_status", "UP")]]
  | _ => []

theorem aliceRows_valid : Populated.Valid ⟨initialCatalog, aliceRows⟩ where
  tables table h := by
    change aliceRows table ≠ [] at h
    unfold aliceRows at h
    split at h
    · decide +kernel
    · decide +kernel
    · exact absurd rfl h
  columns table r hr c hc := by
    have hcolumns : (∀ c ∈ ["id", "kind"], initialCatalog.HasColumn "entity" c) ∧
        ∀ c ∈ ["id", "uid"], initialCatalog.HasColumn "user" c := by decide +kernel
    change r ∈ aliceRows table at hr
    unfold aliceRows at hr
    split at hr
    · rw [List.mem_singleton.mp hr] at hc
      exact hcolumns.1 c (mem_of_rowOf hc)
    · rw [List.mem_singleton.mp hr] at hc
      exact hcolumns.2 c (mem_of_rowOf hc)
    · cases hr
  notNull := by decide +kernel
  typed := by decide +kernel
  keys := by decide +kernel
  foreignKeys := by decide +kernel

theorem routeRows_valid : Populated.Valid ⟨initialCatalog, routeRows⟩ where
  tables table h := by
    change routeRows table ≠ [] at h
    unfold routeRows at h
    split at h
    · decide +kernel
    · exact absurd rfl h
  columns table r hr c hc := by
    have hcolumns : ∀ c ∈ ["id", "src", "dst", "token", "verification_status",
        "availability_status"], initialCatalog.HasColumn "route" c := by decide +kernel
    change r ∈ routeRows table at hr
    unfold routeRows at hr
    split at hr
    · rw [List.mem_singleton.mp hr] at hc
      exact hcolumns c (mem_of_rowOf hc)
    · cases hr
  notNull := by decide +kernel
  typed := by decide +kernel
  keys := by decide +kernel
  foreignKeys := by decide +kernel

/-- A user survives the upgrades. -/
theorem upgrades_keep_alice :
    ∃ db', upgradeAll (.timestamp 0) ⟨initialCatalog, aliceRows⟩ = some db' ∧
      KeepsRows ⟨initialCatalog, aliceRows⟩ db' :=
  (upgrades_keep_iff (.timestamp 0) ⟨initialCatalog, aliceRows⟩ rfl aliceRows_valid).mpr rfl

/-- A route stops them. -/
theorem upgrades_fail_route :
    Populated.Valid ⟨initialCatalog, routeRows⟩ ∧
      upgradeAll (.timestamp 0) ⟨initialCatalog, routeRows⟩ = none :=
  ⟨routeRows_valid, upgradeAll_of_routes (.timestamp 0) (by simp [routeRows])⟩

end RouteRegistry
