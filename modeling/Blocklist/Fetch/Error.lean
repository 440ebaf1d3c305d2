import Blocklist.Fetch.Status
import Blocklist.Files.Path
-- Why a filter list or the dataset cannot be had.
namespace Blocklist.Fetch

-- Kinds of failed input and output
inductive IoKind where
  | notFound
  | permissionDenied
  | connectionRefused
  | alreadyExists
  | invalidData
  | timedOut
  | unexpectedEof
  | interrupted
  | other
  deriving DecidableEq, Repr

def IoKind.text : IoKind → String
  | .notFound => "entity not found"
  | .permissionDenied => "permission denied"
  | .connectionRefused => "connection refused"
  | .alreadyExists => "entity already exists"
  | .invalidData => "invalid data"
  | .timedOut => "timed out"
  | .unexpectedEof => "unexpected end of file"
  | .interrupted => "operation interrupted"
  | .other => "other error"

structure IoFailure where
  kind : IoKind
  -- what to say instead of the text of the kind
  message : Option String
  deriving DecidableEq, Repr

def IoFailure.text (f : IoFailure) : String := f.message.getD f.kind.text

-- Why a request came to nothing: whether its time was up, and what the sender of requests has
-- to say about it
structure Trouble where
  isTimeout : Bool
  text : String
  deriving DecidableEq, Repr

end Blocklist.Fetch

namespace Blocklist

open Blocklist.Fetch Blocklist.Files

inductive FetchError where
  -- no answer: a bad address, no connection, or a connection that closed
  | network (detail : String)
  -- the body of the answer broke off or could not be decoded
  | body (detail : String)
  -- nothing that could send requests was set up
  | client (detail : String)
  | invalidHeader
  | timeout
  | rejected (status : Status)
  | dataset (path : Path) (failure : IoFailure)
  | io (failure : IoFailure)
  deriving DecidableEq

namespace FetchError

-- The error for trouble before the head of an answer has come
def ofRequest (t : Trouble) : FetchError := if t.isTimeout then .timeout else .network t.text

-- The error for trouble while the body of an answer comes
def ofBody (t : Trouble) : FetchError := if t.isTimeout then .timeout else .body t.text

def headerText : String := "failed to parse header value"

-- The text of the failure underneath, if there is one
def cause? : FetchError → Option String
  | .network detail => some detail
  | .body detail => some detail
  | .client detail => some detail
  | .invalidHeader => some headerText
  | .timeout => none
  | .rejected _ => none
  | .dataset _ failure => some failure.text
  | .io failure => some failure.text

def message : FetchError → String
  | .network detail => "Network error: " ++ detail
  | .body detail => "Error reading response body: " ++ detail
  | .client detail => "Error creating request client: " ++ detail
  | .invalidHeader => "Header could not be parsed: " ++ headerText
  | .timeout => "Request timed out"
  | .rejected status => "Rejected status code: " ++ status.display
  | .dataset path failure => "Cannot read dataset `" ++ path ++ "`: " ++ failure.text
  | .io failure => "I/O error: " ++ failure.text

-- Errors that count as the same. Of plain input and output errors only the kind
-- counts, and paths are compared by their steps.
def same : FetchError → FetchError → Bool
  | .network d, .network e => d == e
  | .body d, .body e => d == e
  | .client d, .client e => d == e
  | .invalidHeader, .invalidHeader => true
  | .timeout, .timeout => true
  | .rejected s, .rejected t => s == t
  | .dataset p f, .dataset q g => p.same q && f.text == g.text
  | .io f, .io g => f.kind == g.kind
  | _, _ => false

end FetchError

end Blocklist
