import RouteRegistry.Formats.Json
import RouteRegistry.Formats.Text
import RouteRegistry.Registry.Exceptions

/-!
# Models (`models.py`, `config/settings.toml`)

The mapped classes as records of their columns. A relationship is not a field: the
rows on its other side are found through their foreign key, and the many-to-many
`Route.entities` through `Ownership` rows (`entity_route_association`).

`User.uid` and `Group.name` may be `None` on an object, because the wire model lets a
client send `null`; the tables refuse it (`Store.Valid`). Every other column that the
tables declare `NOT NULL` has a type without `None`.
-/

namespace RouteRegistry

/-- Instants, in microseconds (the resolution of the `DateTime` column). -/
abbrev Time := Int

/-- `pendulum`. -/
structure Pendulum where
  /-- `a.diff(b).in_days()`: the days between two instants, whichever comes first. -/
  inDays : (a b : Time) → Nat
  inDays_self : ∀ t, inDays t t = 0

/-- Dates in UTC, from midnight to midnight. -/
def Pendulum.utc : Pendulum where
  inDays a b := (a / 86400000000 - b / 86400000000).natAbs
  inDays_self t := by simp

/-- A person. The uid tells users apart. -/
structure User where
  id : String
  uid : Option String
  duid : Option String := none
  isAdmin : Bool := false
deriving DecidableEq, Repr

/-- A group, which authorization documents name. -/
structure Group where
  id : String
  name : Option String
deriving DecidableEq, Repr

/-- A route that is not `VERIFIED` is not checked any more, and its JWT is not rotated. -/
inductive VerificationStatus where
  | verified | pending | unverified
deriving DecidableEq, Repr

/-- What the last update found. -/
inductive Status where
  | up | misconfigured | missingEntity | upgradeRequired | serverError | down
deriving DecidableEq, Repr

/-- The kind of names that `create_src_url` makes for a domain. -/
inductive DomainType where
  | standard | ephemeral | user
deriving DecidableEq, Repr

/-- Where the URLs of routes are. -/
structure Domain where
  id : String
  name : String
  value : String
  domainType : DomainType := .standard
  restricted : Bool := false
  default : Bool := false
deriving DecidableEq, Repr

/-- The URL `create_src_url` builds once `app_name` is final. -/
def Domain.urlOf (self : Domain) (appName : String) (bindSubdomain : Bool) : String :=
  let netloc := if !bindSubdomain then self.value else appName ++ "." ++ self.value
  let path := if !bindSubdomain then appName else "/"
  Text.urlunparse "https" netloc path

/-- `create_src_url`; `uuid` is the value `uuid4()` draws. -/
def Domain.createSrcUrl (self : Domain) (appName : String) (user : Option User)
    (bindSubdomain : Bool) (uuid : String) : Except Exc String :=
  match self.domainType with
  | .user =>
    match user with
    | none => .error ⟨.lib .valueError, s!"User required to use domain {self.name}", none⟩
    | some user => .ok (self.urlOf (Text.fieldText user.uid ++ "-" ++ appName) bindSubdomain)
  | .ephemeral => .ok (self.urlOf (appName ++ "-" ++ uuid) bindSubdomain)
  | .standard => .ok (self.urlOf appName bindSubdomain)

/-- The final `app_name` of a call by a known user. -/
def Domain.finalName (self : Domain) (appName : String) (user : User) (uuid : String) : String :=
  match self.domainType with
  | .user => Text.fieldText user.uid ++ "-" ++ appName
  | .ephemeral => appName ++ "-" ++ uuid
  | .standard => appName

/-- With a user at hand `create_src_url` never raises. -/
theorem Domain.createSrcUrl_some (d : Domain) (n : String) (u : User) (b : Bool)
    (uuid : String) :
    d.createSrcUrl n (some u) b uuid = .ok (d.urlOf (d.finalName n u uuid) b) := by
  unfold Domain.createSrcUrl Domain.finalName
  cases d.domainType <;> rfl

/-- Where a request stands. The services only write `PENDING`. -/
inductive MembershipStatus where
  | unknown | pending | declined | approved
deriving DecidableEq, Repr

/-- A user asks for a route that is not theirs to be in a community. -/
structure MembershipRequest where
  entityId : String
  communityId : String
  routeId : String
  status : MembershipStatus := .unknown
deriving DecidableEq, Repr

/-- Routes that belong together, under a name that is unique for its owner. -/
structure Community where
  id : String
  name : String
  entityId : String
deriving DecidableEq, Repr

/-- A registered app: the URL it is called by, and the one it is reached at. -/
structure Route where
  id : String
  domainId : String
  communityId : Option String := none
  name : String
  src : String
  dst : String
  token : String
  verificationStatus : VerificationStatus := .unverified
  status : Status := .down
  lastContact : Time
deriving DecidableEq, Repr

/-- The last contact is more than `d` days before `now`. -/
def Route.StaleAt (r : Route) (pendulum : Pendulum) (now : Time) (d : Nat) : Prop :=
  r.lastContact ≤ now ∧ d < pendulum.inDays now r.lastContact

/-- A contact from `now` on is not stale. -/
theorem Route.not_staleAt {r : Route} {pendulum : Pendulum} {now : Time} {d : Nat}
    (h : now ≤ r.lastContact) : ¬ r.StaleAt pendulum now d := by
  rintro ⟨hle, hd⟩
  have hsame : now = r.lastContact := Int.le_antisymm h hle
  rw [← hsame, pendulum.inDays_self] at hd
  exact absurd hd (by simp)

/-- What a rule says of its entity. -/
inductive Policy where
  | allow | deny
deriving DecidableEq, Repr

/-- A line of the authorization document of a route. -/
structure Rule where
  routeId : String
  entityId : String
  policy : Policy := .deny
deriving DecidableEq, Repr

/-- A row of `entity_route_association`: the entity owns the route. -/
structure Ownership where
  entityId : String
  routeId : String
deriving DecidableEq, Repr

/-- What an admin token is for. -/
inductive AdminRole where
  | any | observer | domain | identity | none
deriving DecidableEq, Repr

/-- An admin token, with the hash of its secret for a value. -/
structure AdminToken where
  id : String
  name : String
  value : String
  role : AdminRole
deriving DecidableEq, Repr

/-! ## Authorization documents -/

/-- `EntitySet`, by the names it is used for (`uids`, `group_names`). -/
structure EntitySet where
  uids : List String
  groupNames : List String
deriving DecidableEq, Repr

/-- A document, read. -/
structure Authorization where
  version : Json
  allowed : EntitySet
  disallowed : EntitySet

/-- `data[key]`. -/
def getItem (data : Json) (key : String) : Except Exc Json :=
  match data with
  | .obj _ =>
    match data.member? key with
    | some v => .ok v
    | none => .error ⟨.lib .keyError, s!"'{key}'", none⟩
  | _ => .error ⟨.lib .typeError, "object is not subscriptable", none⟩

/-- `[… for x in section.get(key, [])]`, for a list of strings. Other shapes are
outside the shipped schema, which is checked before a document gets here. -/
def getNames (sect : Json) (key : String) : Except Exc (List String) :=
  match sect with
  | .obj _ =>
    match sect.member? key with
    | none => .ok []
    | some v =>
      match v.strings? with
      | some names => .ok names
      | none => .error ⟨.lib .typeError, "expected a list of strings", none⟩
  | _ => .error ⟨.lib .attributeError, "object has no attribute 'get'", none⟩

/-- The default of the attributes `allowed` and `disallowed`. -/
def EntitySet.ofSection (data : Json) (key : String) : Except Exc EntitySet := do
  let users ← getNames (← getItem data key) "users"
  let groups ← getNames (← getItem data key) "groups"
  return ⟨users, groups⟩

/-- `Authorization(data=…)`: the attribute defaults in field order. -/
def Authorization.ofData (data : Json) : Except Exc Authorization := do
  let version ← getItem data "version"
  let allowed ← EntitySet.ofSection data "allowed"
  let disallowed ← EntitySet.ofSection data "disallowed"
  return ⟨version, allowed, disallowed⟩

open Json in
/-- The schema of one section: `users` and `groups` are lists of strings. -/
def sectionSchema : Schema :=
  .type .object (.property "users" .strings (.property "groups" .strings .any))

open Json in
/-- `default.schema` of `config/settings.toml`. -/
def authorizationSchema : Schema :=
  .type .object
    (.property "version" (.type .string (.minLength 1 .any))
      (.property "disallowed" sectionSchema
        (.property "allowed" sectionSchema
          (.required "version" .any))))

/-- `jsonschema.validate(instance, schema)`. -/
def validate (inst : Json) (schema : Json.Schema) : Except Exc Unit :=
  if schema.accepts inst then .ok ()
  else .error ⟨.lib .validationError, "instance does not satisfy the schema", none⟩

end RouteRegistry
