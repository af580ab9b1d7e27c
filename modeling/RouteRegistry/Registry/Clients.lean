import RouteRegistry.Registry.Models

/-!
# Fetching authorization files (`clients/base_client.py`, `clients/authorization.py`)

`Fetch` is everything that can happen to one request; `process` and
`getAuthorization` are the two layers of `except` clauses that turn it into a document
or an exception. An answer that is not JSON becomes an `APIClientException`, which is
the base class of the client's exceptions and not an `AuthorizationClientException`.
-/

namespace RouteRegistry

/-- An answer: its status code, and what `resp.json()` returns or raises. -/
structure Response where
  statusCode : Nat
  json : Except LibExc Json

/-- The fate of one request to an app. -/
inductive Fetch where
  /-- Joining the URL or preparing the request raises, before the `try`. -/
  | unsent (e : LibExc)
  /-- `session.send` raises. -/
  | failed (e : LibExc)
  | answered (r : Response)

/-- An exception a library raises. -/
def libExc (e : LibExc) : Exc := ⟨.lib e, "", none⟩

/-- `resp.raise_for_status()` raises `HTTPError`. -/
def Response.isHttpError (r : Response) : Bool :=
  decide (400 ≤ r.statusCode) && decide (r.statusCode < 600)

/-- `AuthorizationClient._handle_error`; an `HTTPError` has no `strerror`. -/
def handleError (r : Response) : Exc :=
  ⟨.authorizationClientException, "None", some r.statusCode⟩

/-- `BaseAPIClient._process`. -/
def process (fetch : Fetch) : Except Exc Response :=
  match fetch with
  | .unsent e => .error (libExc e)
  | .failed e =>
    if (libExc e).isInstance (.lib .connectionError) then
      .error ⟨.apiClientConnectionException, "Unable to connect to API", some 200⟩
    else if (libExc e).isInstance (.lib .httpError) then
      -- raised by `send` itself it has no `response`
      .error (noneAttributeError "status_code")
    else .error (libExc e)
  | .answered r => if r.isHttpError then .error (handleError r) else .ok r

/-- The `except` clauses of `get_authorization`. -/
def authorizationError (e : Exc) : Exc :=
  if e.isInstance .apiClientConnectionException then
    ⟨.connectionException, "Unable to connect to fetch authorization file", some 200⟩
  else if e.isInstance (.lib .jsonDecodeError) then
    ⟨.apiClientException, "Failed decoding response for get_authorization", some 200⟩
  else e

/-- `PikoAuthorizationClient.get_authorization`. -/
def getAuthorization (fetch : Fetch) : Except Exc Json :=
  match process fetch with
  | .error e => .error (authorizationError e)
  | .ok r =>
    match r.json with
    | .error e => .error (authorizationError (libExc e))
    | .ok authz => .ok authz

/-- An answer that asks for no rules. -/
def emptyDocument : Fetch := .answered
  ⟨200, .ok (.obj [("version", .str "1"), ("allowed", .obj []), ("disallowed", .obj [])])⟩

end RouteRegistry
