import Blocklist.Program.Generation
import Blocklist.Rules.Json
import Blocklist.Service.Query
-- The service: it generates rules on request. Each request is answered by itself.
namespace Blocklist.Service

open Blocklist.Program Blocklist.Fetch Blocklist.Log

structure Request where
  method : String
  -- path and query
  target : String
  deriving DecidableEq, Repr

structure Response where
  status : Nat
  body : String
  -- what was logged meanwhile
  lines : List Line
  deriving DecidableEq, Repr

def serviceLine (text : String) : Line := ownLine "::commands::serve" .info text

def startRemark (limit lists : Nat) : String :=
  "Generating up to " ++ toString limit ++ " rules from " ++ toString lists ++ " lists"

-- What is said while rules are generated for a request, whether it comes to an answer or not
def generationLines (p : Plan) (world : World) (limit : Nat) : List Line :=
  world.weave.lines
    (serviceLine (startRemark limit p.urls.length) :: p.lines world limit) (p.strands world limit)

def repeatedLimit : String :=
  "Failed to deserialize query string: duplicate field `limit`"

-- Rules up to the limit that the query asks for, as JSON
def answerGenerate? (p : Plan) (world : World) (query : List Char) : Option Response :=
  match limitOf? p.settings.limit query with
  | none => some ⟨400, repeatedLimit, []⟩
  | some limit =>
    (generate? p world limit).map fun g =>
      ⟨200, Rule.writeAll .compact g.rules, generationLines p world limit⟩

-- The pages of the service
inductive Page where
  | health
  | generate
  deriving DecidableEq, Repr

def page? (path : String) : Option Page :=
  match path with
  | "/health" => some .health
  | "/generate" => some .generate
  | _ => none

def answerPage? (p : Plan) (world : World) (query : List Char) : Page → Option Response
  | .health => some ⟨200, "ok", []⟩
  | .generate => answerGenerate? p world query

-- The answer to a request. Pages are only to be read, in full or without their bodies.
-- There is no answer if the rules cannot be generated.
def answer? (p : Plan) (world : World) (r : Request) : Option Response :=
  let (path, query) := splitTarget r.target
  match page? path with
  | none => some ⟨404, if r.method == "HEAD" then "" else "not found", []⟩
  | some page =>
    match r.method with
    | "GET" => answerPage? p world query page
    | "HEAD" => (answerPage? p world query page).map fun response => { response with body := "" }
    | _ => some ⟨405, "", []⟩

-- The limit of a request for rules
def requestLimit? (p : Plan) (r : Request) : Option Nat :=
  let (path, query) := splitTarget r.target
  if page? path = some .generate ∧ (r.method = "GET" ∨ r.method = "HEAD") then
    limitOf? p.settings.limit query
  else none

-- What is said meanwhile, also where there is no answer
def requestLines (p : Plan) (world : World) (r : Request) : List Line :=
  match requestLimit? p r with
  | none => []
  | some limit => generationLines p world limit

-- What is said at the end. It does not come if the sign to end cannot be waited for.
def endLine (trouble : Option String) : Line :=
  match trouble with
  | none => serviceLine "Shutting down"
  | some cause => ownLine "::commands::serve" .warn ("Cannot listen for shutdown signal: " ++ cause)

end Blocklist.Service
