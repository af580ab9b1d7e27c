import Mathlib.Tactic.Common

/-!
# Exception classes

Which `except` clause handles an exception depends on the class hierarchies of four
modules (`store/repository.py`, `service/uow.py`, `services.py`, `clients/`) and of
the libraries below them. `ExcClass.mro` lists a class with its ancestors, and
`Exc.isInstance` is the test an `except` clause makes.

Several modules name a class `NotFound` or `AlreadyExists`; they are unrelated
classes, so each has its own constructor here.
-/

namespace RouteRegistry

/-- Exception classes of Python, `requests`, SQLAlchemy, `jsonschema`, `joserfc`
and FastAPI. `other` is any class outside the hierarchies the registry catches. -/
inductive LibExc where
  | exception
  | valueError
  | keyError
  | typeError
  | attributeError
  | assertionError
  | requestException
  | connectionError
  | connectTimeout
  | readTimeout
  | httpError
  | invalidJSONError
  | jsonDecodeError
  | requestsJSONDecodeError
  | multipleResultsFound
  | validationError
  | invalidClaimError
  | missingClaimError
  | expiredTokenError
  | httpException
  | other (name : String)
deriving DecidableEq, Repr

/-- A library class with its ancestors, `Exception` included. -/
def LibExc.mro : LibExc → List LibExc
  | .exception => [.exception]
  | .requestException => [.requestException, .exception]
  | .connectionError => [.connectionError, .requestException, .exception]
  | .connectTimeout => [.connectTimeout, .connectionError, .requestException, .exception]
  | .readTimeout => [.readTimeout, .requestException, .exception]
  | .httpError => [.httpError, .requestException, .exception]
  | .invalidJSONError => [.invalidJSONError, .requestException, .exception]
  | .jsonDecodeError => [.jsonDecodeError, .valueError, .exception]
  | .requestsJSONDecodeError =>
    [.requestsJSONDecodeError, .invalidJSONError, .requestException, .jsonDecodeError,
      .valueError, .exception]
  | c => [c, .exception]

/-- Exception classes: the libraries' and the registry's own. -/
inductive ExcClass where
  | lib (c : LibExc)
  -- store/repository.py
  | baseRepoException
  | missingEntities
  | repoNotFound
  | repoAlreadyExists
  -- service/uow.py
  | uowException
  | uowAlreadyExists
  | uowNotFound
  -- services.py
  | baseServiceException
  | domainNotFound
  | notAllowed
  | notFound
  | alreadyExists
  -- clients/base_client.py and clients/authorization.py
  | apiClientException
  | apiClientConnectionException
  | authorizationClientException
  | connectionException
deriving DecidableEq, Repr

/-- A class with its ancestors. -/
def ExcClass.mro : ExcClass → List ExcClass
  | .lib c => c.mro.map .lib
  | .baseRepoException => [.baseRepoException, .lib .exception]
  | .missingEntities => [.missingEntities, .baseRepoException, .lib .exception]
  | .repoNotFound => [.repoNotFound, .baseRepoException, .lib .exception]
  | .repoAlreadyExists => [.repoAlreadyExists, .baseRepoException, .lib .exception]
  | .uowException => [.uowException, .lib .exception]
  | .uowAlreadyExists => [.uowAlreadyExists, .uowException, .lib .exception]
  | .uowNotFound => [.uowNotFound, .uowException, .lib .exception]
  | .baseServiceException => [.baseServiceException, .lib .exception]
  | .domainNotFound => [.domainNotFound, .baseServiceException, .lib .exception]
  | .notAllowed => [.notAllowed, .baseServiceException, .lib .exception]
  | .notFound => [.notFound, .baseServiceException, .lib .exception]
  | .alreadyExists => [.alreadyExists, .baseServiceException, .lib .exception]
  | .apiClientException => [.apiClientException, .lib .exception]
  | .apiClientConnectionException =>
    [.apiClientConnectionException, .apiClientException, .lib .exception]
  | .authorizationClientException =>
    [.authorizationClientException, .apiClientException, .lib .exception]
  | .connectionException =>
    [.connectionException, .authorizationClientException, .apiClientException,
      .lib .exception]

/-- A raised exception: its class, its message, and the status code that HTTP and
API client exceptions carry. -/
structure Exc where
  cls : ExcClass
  msg : String
  statusCode : Option Nat := none
deriving DecidableEq, Repr

/-- Whether `except c` catches the exception. -/
def Exc.isInstance (e : Exc) (c : ExcClass) : Bool := decide (c ∈ e.cls.mro)

/-- `HTTPException(status_code, detail)`. -/
def httpException (code : Nat) (detail : String) : Exc := ⟨.lib .httpException, detail, some code⟩

/-- Reading an attribute `None` does not have. -/
def noneAttributeError (attr : String) : Exc :=
  ⟨.lib .attributeError, s!"'NoneType' object has no attribute '{attr}'", none⟩

end RouteRegistry
