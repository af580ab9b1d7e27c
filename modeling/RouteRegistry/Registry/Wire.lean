import RouteRegistry.Registry.Adapter
import RouteRegistry.Registry.Defaults

/-!
# Wire objects (`pydantic_models.py`, `adapter.py`)

The other wire models, beside those of `Adapter`, and the functions between them and the
models. What `uuid4` and `make_token` draw is an argument.
-/

namespace RouteRegistry

open UnitOfWork

/-- `PydanticUser`: `is_admin` is not among its fields. -/
structure PydanticUser where
  uid : Option String := some ""
  duid : Option String := some ""
deriving DecidableEq, Repr

/-- `PydanticGroup`. -/
structure PydanticGroup where
  name : Option String := some ""
deriving DecidableEq, Repr

/-- `PydanticDomain`. -/
structure PydanticDomain where
  id : Option String := some ""
  name : String
  value : String
  default : Option Bool := some false
deriving DecidableEq, Repr

/-- `PydanticCommunity`. -/
structure PydanticCommunity where
  name : String
  id : Option String := none
  routes : List PydanticRoute := []
deriving DecidableEq, Repr

/-- `PydanticMembershipRequest`. -/
structure PydanticMembershipRequest where
  entityId : Option String := none
  communityId : Option String := none
  routeId : Option String := none
  status : Option MembershipStatus := none
deriving DecidableEq, Repr

/-- `PydanticAdminToken`. -/
structure PydanticAdminToken where
  name : String
  role : AdminRole
deriving DecidableEq, Repr

/-- `Airlock`, of the answer to a registration. -/
structure Airlock where
  jwtIssuerUrl : Option String := none
deriving DecidableEq, Repr

/-- `Tunnel`, of the same answer: what the route connects with. -/
structure Tunnel where
  url : Option String := none
  jwt : Option String := none
  endpoint : Option String := none
deriving DecidableEq, Repr

/-- `RegistrationResponse`. -/
structure RegistrationResponse where
  url : String
  airlock : Airlock
  tunnel : Tunnel
  endpoint : Option String := none
  jwt : Option String := none
deriving DecidableEq, Repr

/-! ## To the models -/

/-- `toDomain`, of a body. -/
def PydanticDomain.toDomain (uuid : String) (pDomain : PydanticDomain) : Domain :=
  RouteRegistry.toDomain uuid pDomain.name pDomain.value

/-- `to_user`: nobody becomes an administrator by it. -/
def toUser (uuid : String) (pUser : PydanticUser) : User where
  id := uuid
  uid := pUser.uid
  duid := pUser.duid

/-- `to_group`. -/
def toGroup (uuid : String) (pGroup : PydanticGroup) : Group where
  id := uuid
  name := pGroup.name

/-- The owner is assigned by `create_community`. -/
def toCommunity (uuid : String) (pCommunity : PydanticCommunity) : Community where
  id := uuid
  name := pCommunity.name
  entityId := ""

/-- `to_admin_token`, with a secret that is still to be hashed. -/
def toAdminToken (uuid token : String) (pToken : PydanticAdminToken) : AdminToken where
  id := uuid
  name := pToken.name
  value := token
  role := pToken.role

/-! ## From the models -/

/-- The type and the restriction of a domain are not among the fields of the wire model. -/
def fromDomain (domain : Domain) : PydanticDomain where
  id := some domain.id
  name := domain.name
  value := domain.value
  default := some domain.default

/-- `from_user` leaves `duid` at its default. -/
def fromUser (user : User) : PydanticUser where
  uid := user.uid

/-- `from_group`. -/
def fromGroup (group : Group) : PydanticGroup where
  name := group.name

/-- `from_membership_request`. -/
def fromMembershipRequest (request : MembershipRequest) : PydanticMembershipRequest where
  entityId := some request.entityId
  communityId := some request.communityId
  routeId := some request.routeId
  status := some request.status

/-- Neither the id nor the value. -/
def fromAdminToken (token : AdminToken) : PydanticAdminToken where
  name := token.name
  role := token.role

/-! ## Loaded communities -/

/-- A community with its routes, each with its community. -/
structure LoadedCommunity where
  row : Community
  routes : List LoadedRoute
deriving DecidableEq, Repr

/-- What the session loads of a community. -/
def Store.loadCommunity (s : Store) (community : Community) : LoadedCommunity where
  row := community
  routes := (s.routes.filter fun r => decide (r.communityId = some community.id)).map s.load

/-- `from_community`: the routes are shown without their rules. -/
def fromCommunity (community : LoadedCommunity) : Except Exc PydanticCommunity := do
  let pRoutes ← community.routes.mapM fun r => fromRoute r false
  return { id := some community.row.id, name := community.row.name, routes := pRoutes }

/-- `list_communities`, with what it loads. -/
def listLoadedCommunities (eng : Engine) (entityId : Option String) :
    Service (List LoadedCommunity) :=
  withUOW eng do
    let communities ← CommunityRepo.list entityId
    Txn.get fun s => communities.map s.loadCommunity

/-- `get_user_community`, with what it loads. -/
def getLoadedCommunity (eng : Engine) (user : User) (idOrName : String) :
    Service (Option LoadedCommunity) :=
  withUOW eng do
    let community ← CommunityRepo.get idOrName (some user.id)
    Txn.get fun s => community.map s.loadCommunity

end RouteRegistry
