import Blocklist.Fetch.Error
-- What came of fetching one filter list.
namespace Blocklist

structure Outcome where
  url : String
  body : Except FetchError String

namespace Outcome

-- The text of the list, if there is any
def text? (o : Outcome) : Option String :=
  match o.body with
  | .ok text => if text.isEmpty then none else some text
  | .error _ => none

def display (o : Outcome) : String :=
  match o.body with
  | .ok text => o.url ++ " (" ++ toString text.utf8ByteSize ++ " bytes)"
  | .error e => o.url ++ " | " ++ e.message

end Outcome

end Blocklist
