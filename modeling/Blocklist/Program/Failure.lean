import Blocklist.Fetch.Error
-- Failures of a run, and how they are told.
namespace Blocklist.Program

-- A failure with what it was about and its causes, each by the next
structure Failure where
  context : String
  causes : List String
  deriving DecidableEq, Repr

namespace Failure

def line (f : Failure) : String :=
  ": ".intercalate (f.context :: f.causes)

-- Lines of a text after the first stand as far to the right as the first
def indented (first rest : String) (text : String) : String :=
  first ++ String.ofList (['\n'].intercalate
    ((text.toList.splitOn '\n').mapIdx fun i line =>
      if i = 0 then line else rest.toList ++ line))

-- Causes are numbered if there are several
def causeLines (f : Failure) : List String :=
  match f.causes with
  | [cause] => [indented "    " "    " cause]
  | causes => causes.mapIdx fun i cause =>
    indented (String.ofList (List.replicate (5 - (toString i).length) ' ') ++ toString i ++ ": ")
      "       " cause

def display (f : Failure) : String :=
  let causes := if f.causes.isEmpty then []
    else ["", "Caused by:"] ++ f.causeLines
  "Error: " ++ "\n".intercalate (f.context :: causes) ++ "\n"

-- A failed fetch set-up or a failed reading, with what lies under it
def ofFetchError (context : String) (e : FetchError) : Failure :=
  ⟨context, e.message :: e.cause?.toList⟩

end Failure

end Blocklist.Program
