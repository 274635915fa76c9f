import SparqlSelect.Compile.Query
import SparqlSelect.Json.Reader

/-!
# The web service

One route tells that the service is up, one compiles the request in a body, and the pages about the
service are known by their paths only. A path that would be a route without the slashes at its end
is redirected to that route. What the compiler reports comes back as a JSON error; a fault that it
does not report is an error of the server.

* `Settings.respond` — the answer to a request.
-/

namespace SparqlSelect

/-- The JSON value of the bytes of a body. -/
def decodeBody (body : ByteArray) : Except Failure Json :=
  match String.fromUTF8? body with
  | none => .error .notUtf8
  | some text =>
    match Json.read text with
    | .ok value => .ok value
    | .error .malformed => .error .notJson
    | .error .integerTooLong => .error (.fault .badForm)

/-- What is sent back. -/
inductive ResponseBody where
  | json (value : Json)
  | text (value : String)

/-- An answer with its status. -/
structure Response where
  status : Nat
  body : ResponseBody

namespace Response

/-- A JSON answer with one member. -/
def single (status : Nat) (name text : String) : Response :=
  ⟨status, .json (.obj [(name, .str text)])⟩

/-- The answer to a request that is refused before its body is read. -/
def refused (status : Nat) (detail : String) : Response := single status "detail" detail

/-- The answer to a failure. -/
def ofFailure (f : Failure) : Response :=
  match f with
  | .notUtf8 | .notJson => single 400 "error" f.message
  | .missingField _ _ | .invalidField _ _ _ | .rejected _ _ => single 422 "error" f.message
  | .noSubject | .foreignAnchor | .fault _ => ⟨500, .text "Internal Server Error"⟩

end Response

/-- The routes of the service. -/
inductive Route where
  | health
  | compile
  /-- A page about the service, without what it shows. -/
  | page
deriving DecidableEq, Repr

namespace Route

/-- The path of every route; the pages have several. -/
def paths : List (String × Route) :=
  [("/health", health), ("/getSparql", compile), ("/openapi.json", page), ("/docs", page),
   ("/docs/oauth2-redirect", page), ("/redoc", page)]

/-- The route of a path. A path may have one line feed at its end. -/
def ofPath? (path : List Char) : Option Route :=
  (paths.find? fun (own, _) => path == own.toList || path == own.toList ++ ['\n']).map (·.2)

/-- The methods that a route answers, letter by letter. -/
def methods : Route → List String
  | health => ["GET"]
  | compile => ["POST"]
  | page => ["GET", "HEAD"]

end Route

/-- A path without the slashes at its end. -/
def withoutFinalSlashes (path : List Char) : List Char :=
  (path.reverse.dropWhile (· == '/')).reverse

/-- The answer of a route. -/
def Settings.serve (s : Settings) (body : ByteArray) : Route → Response
  | .health => .single 200 "status" "healthy"
  | .compile =>
    match decodeBody body >>= s.compile with
    | .ok query => .single 200 "query" query
    | .error f => .ofFailure f
  | .page => ⟨200, .text ""⟩

/-- The answer to a request. -/
def Settings.respond (s : Settings) (method path : String) (body : ByteArray) : Response :=
  match Route.ofPath? path.toList with
  | some route =>
    if route.methods.contains method then s.serve body route
    else .refused 405 "Method Not Allowed"
  | none =>
    if (Route.ofPath? (withoutFinalSlashes path.toList)).isSome then ⟨307, .text ""⟩
    else .refused 404 "Not Found"

end SparqlSelect
