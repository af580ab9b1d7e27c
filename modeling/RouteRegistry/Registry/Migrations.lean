import RouteRegistry.Relational.Schema

/-!
# Migrations and metadata (`alembic/versions/`, `store/orm.py`)

The keys of a database come from one of two places: a deployment runs the Alembic
revisions, the tests and `create_db` create the tables of the metadata. Here both are
statements, of which foreign keys, nullability, defaults, data and enumeration types are left
out. `migrated_agrees_iff` says for which tables and rows the two databases differ:
membership requests are keyed by community and route after the migrations, and by entity,
community and route in the metadata.
-/

namespace RouteRegistry

open Relational

/-! ## Revisions -/

/-- A file of `alembic/versions/`, with what its `upgrade` does to tables and keys. -/
structure Revision where
  revision : String
  downRevision : Option String
  upgrade : List Statement
deriving DecidableEq, Repr

def initialCommit : Revision where
  revision := "b70672394cf4"
  downRevision := none
  upgrade :=
    [.createTable "entity" ["id", "kind"] [.primary ["id"], .unique ["id"]],
      .createTable "route"
        ["id", "src", "dst", "token", "verification_status", "availability_status"]
        [.primary ["id"], .unique ["dst"], .unique ["id"], .unique ["src"], .unique ["token"]],
      .createTable "group" ["id", "name"] [.primary ["id"], .unique ["name"]],
      .createTable "rule" ["route_id", "entity_id", "policy"]
        [.primary ["route_id", "entity_id"]],
      .createTable "user" ["id", "uid"] [.primary ["id"], .unique ["uid"]]]

def addLastContactColumnToRoute : Revision where
  revision := "3bfd13c165c0"
  downRevision := some "b70672394cf4"
  upgrade := [.addColumn "route" "last_contact"]

def addNameColumnToRoute : Revision where
  revision := "7c9e3af1c8a2"
  downRevision := some "3bfd13c165c0"
  upgrade := [.addColumn "route" "name"]

def dropUniqueConstraintOnDst : Revision where
  revision := "671ac85bae45"
  downRevision := some "7c9e3af1c8a2"
  upgrade := [.dropConstraint "route_dst_key" "route"]

def linkEntityAndRouteViaManyToMany : Revision where
  revision := "d5e523d513bf"
  downRevision := some "671ac85bae45"
  upgrade :=
    [.createTable "entity_route_association" ["entity_id", "route_id"]
        [.primary ["entity_id", "route_id"]],
      .addUnique none "entity" ["id"],
      .addUnique none "route" ["id"]]

def addDuidToUser : Revision where
  revision := "3832c52955f5"
  downRevision := some "d5e523d513bf"
  upgrade := [.addColumn "user" "duid", .addUnique (some "user_duid_key") "user" ["duid"]]

def removeUniqueConstraintOnDuid : Revision where
  revision := "3acb77dd5d02"
  downRevision := some "3832c52955f5"
  upgrade := [.dropConstraint "user_duid_key" "user"]

def addDomainTable : Revision where
  revision := "3bf5f7623dea"
  downRevision := some "3acb77dd5d02"
  upgrade :=
    [.createTable "domain" ["id", "name", "value", "restricted", "default"]
        [.primary ["id"], .unique ["id"], .unique ["name"], .unique ["value"]],
      .addColumn "route" "domain_id"]

def addDomainTypeToDomainTable : Revision where
  revision := "c7f339b17766"
  downRevision := some "3bf5f7623dea"
  upgrade := [.addColumn "domain" "domain_type", .addUnique (some "domain_id_key") "domain" ["id"]]

def refactorAvailabilityStatusToStatus : Revision where
  revision := "8b2e18c8fb42"
  downRevision := some "c7f339b17766"
  upgrade := [.renameColumn "route" "availability_status" "status"]

/-- A new value of the type of `route.status`. -/
def addServerErrorStatus : Revision where
  revision := "032293b44a9c"
  downRevision := some "8b2e18c8fb42"
  upgrade := []

def addRouteCommunityConstructs : Revision where
  revision := "18380dc634da"
  downRevision := some "032293b44a9c"
  upgrade :=
    [.createTable "community" ["id", "entity_id", "name"] [.primary ["id"]],
      .createTable "membership_request" ["entity_id", "community_id", "route_id", "status"]
        [.primary ["community_id", "route_id"]],
      .addColumn "route" "community_id"]

def compositeCommunityNameEntityUnique : Revision where
  revision := "8ceb564736f7"
  downRevision := some "18380dc634da"
  upgrade := [.addUnique (some "community_entity_id_name_key") "community" ["entity_id", "name"]]

def addAdminTokenTableAndIsAdminToUser : Revision where
  revision := "982b0a2b0550"
  downRevision := some "8ceb564736f7"
  upgrade :=
    [.createTable "admin_token" ["id", "name", "value", "role"]
        [.primary ["id"], .unique ["name"], .unique ["value"]],
      .addColumn "user" "is_admin"]

/-- The directory, by file name. -/
def versions : List Revision :=
  [addServerErrorStatus, addRouteCommunityConstructs, addDuidToUser,
    removeUniqueConstraintOnDuid, addDomainTable, addLastContactColumnToRoute,
    dropUniqueConstraintOnDst, addNameColumnToRoute, refactorAvailabilityStatusToStatus,
    compositeCommunityNameEntityUnique, addAdminTokenTableAndIsAdminToUser, initialCommit,
    addDomainTypeToDomainTable, linkEntityAndRouteViaManyToMany]

/-- The revisions after `down`, each the one whose `down_revision` is the one before it; the
number bounds the walk. -/
def history : Nat → Option String → List Revision
  | 0, _ => []
  | n + 1, down =>
    match versions.find? fun r => decide (r.downRevision = down) with
    | some r => r :: history n (some r.revision)
    | none => []

/-- `alembic upgrade head` on an empty database. -/
def upgradeHead : Option Schema :=
  Schema.executeAll [] ((history versions.length none).flatMap Revision.upgrade)

/-! ## Metadata -/

/-- A `Column`, as far as keys go. -/
structure Column where
  name : String
  primaryKey : Bool := false
  unique : Bool := false
deriving DecidableEq, Repr

/-- A `Table` of the metadata with its `UniqueConstraint`s. -/
structure MetaTable where
  name : String
  columns : List Column
  uniqueConstraints : List (List String) := []
deriving DecidableEq, Repr

/-- What `create_all` sends for a table: one primary key of all columns flagged so, and a
unique constraint for each column flagged so. -/
def MetaTable.create (t : MetaTable) : Statement :=
  .createTable t.name (t.columns.map Column.name)
    (.primary ((t.columns.filter Column.primaryKey).map Column.name) ::
      ((t.columns.filter Column.unique).map fun c => .unique [c.name]) ++
      t.uniqueConstraints.map .unique)

def entityTable : MetaTable where
  name := "entity"
  columns := [{ name := "id", primaryKey := true }, { name := "kind" }]

def userTable : MetaTable where
  name := "user"
  columns := [{ name := "id", primaryKey := true }, { name := "uid", unique := true },
    { name := "duid" }, { name := "is_admin" }]

def groupTable : MetaTable where
  name := "group"
  columns := [{ name := "id", primaryKey := true }, { name := "name", unique := true }]

def routeTable : MetaTable where
  name := "route"
  columns := [{ name := "id", primaryKey := true }, { name := "domain_id" },
    { name := "community_id" }, { name := "name" }, { name := "src", unique := true },
    { name := "dst" }, { name := "token", unique := true }, { name := "verification_status" },
    { name := "status" }, { name := "last_contact" }]

def membershipRequestTable : MetaTable where
  name := "membership_request"
  columns := [{ name := "entity_id", primaryKey := true },
    { name := "community_id", primaryKey := true }, { name := "route_id", primaryKey := true },
    { name := "status" }]

def communityTable : MetaTable where
  name := "community"
  columns := [{ name := "id", primaryKey := true }, { name := "entity_id" }, { name := "name" }]
  uniqueConstraints := [["entity_id", "name"]]

def domainTable : MetaTable where
  name := "domain"
  columns := [{ name := "id", primaryKey := true }, { name := "name", unique := true },
    { name := "value", unique := true }, { name := "domain_type" }, { name := "restricted" },
    { name := "default" }]

/-- One policy for each pair of route and entity. -/
def ruleTable : MetaTable where
  name := "rule"
  columns := [{ name := "route_id", primaryKey := true },
    { name := "entity_id", primaryKey := true }, { name := "policy" }]

def entityRouteAssociationTable : MetaTable where
  name := "entity_route_association"
  columns := [{ name := "entity_id", primaryKey := true },
    { name := "route_id", primaryKey := true }]

def adminTokenTable : MetaTable where
  name := "admin_token"
  columns := [{ name := "id", primaryKey := true }, { name := "name", unique := true },
    { name := "value", unique := true }, { name := "role" }]

/-- `mapper_registry.metadata`. -/
def metadata : List MetaTable :=
  [entityTable, userTable, groupTable, routeTable, membershipRequestTable, communityTable,
    domainTable, ruleTable, entityRouteAssociationTable, adminTokenTable]

/-- `create_db`. -/
def createDb : Option Schema := Schema.executeAll [] (metadata.map MetaTable.create)

/-! ## Drift -/

section Drift

variable {V : Type} [DecidableEq V]

/-- The migrated database takes the rows, one after the other. -/
def MigratedTakes (name : String) (rows : List (Row String V)) : Prop :=
  ∃ s, upgradeHead = some s ∧ s.Takes name rows

/-- The database of `create_db` does. -/
def CreatedTakes (name : String) (rows : List (Row String V)) : Prop :=
  ∃ s, createDb = some s ∧ s.Takes name rows

/-- Membership requests that one of the two databases takes: all for some community and
route, and either two of different entities for the same ones, or all for different ones and
one of no entity. -/
def Drifts (rows : List (Row String V)) : Prop :=
  (∀ r ∈ rows, r.complete ["community_id", "route_id"] = true) ∧
    ((∀ r ∈ rows, (r "entity_id").isSome) ∧
        Keyed (Row.values ["entity_id", "community_id", "route_id"]) rows ∧
        ¬ Keyed (Row.values ["community_id", "route_id"]) rows ∨
      (∃ r ∈ rows, r "entity_id" = none) ∧ Keyed (Row.values ["community_id", "route_id"]) rows)

/-- The schemas of the two databases. -/
def migrated : Schema := upgradeHead.getD []

def created : Schema := createDb.getD []

theorem upgradeHead_eq : upgradeHead = some migrated := by decide +kernel

theorem createDb_eq : createDb = some created := by decide +kernel

/-- Apart from membership requests the keys agree. -/
theorem migrated_agreeExcept :
    Schema.agreeExcept "membership_request" migrated created = true := by decide +kernel

theorem migrated_membershipRequest :
    (lookup TableDef.name "membership_request" migrated).map TableDef.keys =
      some [.primary ["community_id", "route_id"]] := by decide +kernel

theorem created_membershipRequest :
    (lookup TableDef.name "membership_request" created).map TableDef.keys =
      some [.primary ["entity_id", "community_id", "route_id"]] := by decide +kernel

/-- Keys of pairs and of triples take the same rows exactly when the rows do not drift. -/
theorem pairs_agree_iff (rows : List (Row String V)) :
    (Accepts [.primary ["community_id", "route_id"]] rows ↔
      Accepts [.primary ["entity_id", "community_id", "route_id"]] rows) ↔ ¬ Drifts rows := by
  have hpairs : Accepts [.primary ["community_id", "route_id"]] rows ↔
      (∀ r ∈ rows, r.complete ["community_id", "route_id"] = true) ∧
        Keyed (Row.values ["community_id", "route_id"]) rows := by
    rw [accepts_iff, List.forall_mem_singleton]
    rfl
  have hcomplete : ∀ r : Row String V, r.complete ["entity_id", "community_id", "route_id"] = true ↔
      (r "entity_id").isSome ∧ r.complete ["community_id", "route_id"] = true := by
    intro r
    unfold Row.complete
    rw [List.all_cons, Bool.and_eq_true]
  have htriples : Accepts [.primary ["entity_id", "community_id", "route_id"]] rows ↔
      (∀ r ∈ rows, (r "entity_id").isSome) ∧
        (∀ r ∈ rows, r.complete ["community_id", "route_id"] = true) ∧
        Keyed (Row.values ["entity_id", "community_id", "route_id"]) rows := by
    rw [accepts_iff, List.forall_mem_singleton]
    simp only [Key.Holds, hcomplete]
    constructor
    · rintro ⟨hall, hkeyed⟩
      exact ⟨fun r hr => (hall r hr).1, fun r hr => (hall r hr).2, hkeyed⟩
    · rintro ⟨hentity, hall, hkeyed⟩
      exact ⟨fun r hr => ⟨hentity r hr, hall r hr⟩, hkeyed⟩
  -- different pairs are parts of different triples
  have hmore : Keyed (Row.values ["community_id", "route_id"]) rows →
      Keyed (Row.values ["entity_id", "community_id", "route_id"]) rows := by
    refine Keyed.of_subset fun c hc => ?_
    exact List.mem_cons_of_mem "entity_id" hc
  have hnone : (∃ r ∈ rows, r "entity_id" = none) ↔ ¬ ∀ r ∈ rows, (r "entity_id").isSome := by
    push Not
    simp
  unfold Drifts
  rw [hpairs, htriples, hnone]
  constructor
  · rintro hagree ⟨hall, ⟨hentity, hkeyed, hclash⟩ | ⟨hmissing, hkeyed⟩⟩
    · exact hclash (hagree.mpr ⟨hentity, hall, hkeyed⟩).2
    · exact hmissing (hagree.mp ⟨hall, hkeyed⟩).1
  · intro hno
    constructor
    · rintro ⟨hall, hkeyed⟩
      refine ⟨?_, hall, hmore hkeyed⟩
      by_contra hmissing
      exact hno ⟨hall, .inr ⟨hmissing, hkeyed⟩⟩
    · rintro ⟨hentity, hall, hkeyed⟩
      refine ⟨hall, ?_⟩
      by_contra hclash
      exact hno ⟨hall, .inl ⟨hentity, hkeyed, hclash⟩⟩

/-- **Where the migrated database and the metadata differ.** They take the same rows into
every table, except for membership requests: those that drift. -/
theorem migrated_agrees_iff (name : String) (rows : List (Row String V)) :
    (MigratedTakes name rows ↔ CreatedTakes name rows) ↔
      ¬ (name = "membership_request" ∧ Drifts rows) := by
  have hmigrated : MigratedTakes name rows ↔ migrated.Takes name rows := by
    unfold MigratedTakes
    rw [upgradeHead_eq]
    simp
  have hcreated : CreatedTakes name rows ↔ created.Takes name rows := by
    unfold CreatedTakes
    rw [createDb_eq]
    simp
  rw [hmigrated, hcreated]
  by_cases hname : name = "membership_request"
  · subst hname
    rw [Schema.takes_iff_of_keys migrated_membershipRequest,
      Schema.takes_iff_of_keys created_membershipRequest, pairs_agree_iff]
    simp
  · refine iff_of_true (Schema.takes_iff_of_agreeExcept migrated_agreeExcept hname rows) ?_
    exact fun h => hname h.1

/-- A request of the entity for one community and route. -/
def requestOf (entity : String) : Row String String
  | "entity_id" => some entity
  | "community_id" => some "c"
  | "route_id" => some "r"
  | "status" => some "PENDING"
  | _ => none

/-- The requests of two users for one community and route: the metadata takes them, the
migrated database refuses the second. -/
theorem twoRequests_drift :
    CreatedTakes "membership_request" [requestOf "1", requestOf "2"] ∧
      ¬ MigratedTakes "membership_request" [requestOf "1", requestOf "2"] := by
  unfold CreatedTakes MigratedTakes
  rw [createDb_eq, upgradeHead_eq]
  simp only [Option.some.injEq, exists_eq_left']
  rw [Schema.takes_iff_of_keys created_membershipRequest,
    Schema.takes_iff_of_keys migrated_membershipRequest]
  unfold Accepts
  decide

end Drift

end RouteRegistry
