import VaultGovernance.Http.Url
import VaultGovernance.Json.Reader
import VaultGovernance.Number.DecimalText

/-!
# VaultGovernance.Http.Request

Requests: a method, a path, a query, headers and a body.
-/

namespace VaultGovernance

namespace Http

/-- The methods that endpoints answer to, and all others. -/
inductive Method where
  | get
  | post
  | put
  | patch
  | delete
  | other (name : String)
deriving DecidableEq

namespace Method

/-- The name of a method. -/
def text : Method → String
  | get => "GET"
  | post => "POST"
  | put => "PUT"
  | patch => "PATCH"
  | delete => "DELETE"
  | other name => name

/-- The method with a name, in any letter case. -/
def ofText (name : String) : Method :=
  let name := String.ofList (name.toList.map Char.toUpper)
  match [get, post, put, patch, delete].find? fun m => m.text = name with
  | some m => m
  | none => other name

end Method

/-- A request. -/
structure Request where
  method : Method
  /-- The path with its percent signs resolved. -/
  path : String
  query : OrderedMap String := []
  headers : List (String × String) := []
  body : Option String := none

/-- What the body of a request holds. -/
inductive Content where
  | absent
  /-- The body is not JSON from a position on. -/
  | unreadable (position : Nat)
  /-- The body is not read, since an integer in it has too many digits. -/
  | overlong
  | value (j : Json)

namespace Request

/-- The request for a target: a path, and a query behind a question mark.  A
target always starts with exactly one slash. -/
def ofTarget (method : Method) (target : String) (query : OrderedMap String)
    (headers : List (String × String)) (body : Option String) : Request :=
  let (target, _) := splitAtChar '#' target.toList
  let (path, written) := splitAtChar '?' target
  let written := written.elim [] fun q => Url.parameters (String.ofList q)
  { method
    path := Url.decode (String.ofList ('/' :: path.dropWhile (· = '/')))
    query := if query.isEmpty then written else query
    headers
    body }

/-- Whether two header names are the same one. -/
def sameName (a b : String) : Bool :=
  Decimal.lowerAscii a.toList = Decimal.lowerAscii b.toList

/-- The value of a header, its name in any letter case. -/
def header? (r : Request) (name : String) : Option String :=
  (r.headers.find? fun h => sameName h.1 name).map (·.2)

/-- The headers that carry the trace of a request, the first one first. -/
def traceHeaders : List String := ["X-Trace-ID", "X-Request-Id"]

/-- The trace a request came with; an empty one does not count. -/
def trace? (r : Request) : Option String :=
  (traceHeaders.filterMap r.header?).find? (· ≠ "")

/-- The mark that may open a text to tell its encoding. -/
def byteOrderMark : Char := Char.ofNat 0xfeff

/-- What the body holds. -/
def content (r : Request) : Content :=
  match r.body with
  | none => .absent
  | some text =>
    if text = "" then .absent
    else
      let text := if text.toList.head? = some byteOrderMark then String.ofList (text.toList.drop 1)
        else text
      match Json.read text with
      | .ok j => .value j
      | .error (.malformed position) => .unreadable position
      | .error (.tooLong _) => .overlong

/-- The path as metrics see it: line breaks and tabs do not count, and it ends
before a question mark or a number sign. -/
def loggedPath (r : Request) : String :=
  String.ofList ((r.path.toList.filter fun c => c ≠ '\n' && c ≠ '\r' && c ≠ '\t').takeWhile
    fun c => c ≠ '?' && c ≠ '#')

end Request

end Http

end VaultGovernance
