import Blocklist.Fetch.Network
import Blocklist.Program.Failure
import Blocklist.Settings.Basic
-- What a run has before it begins to fetch.
namespace Blocklist.Program

open Blocklist.Fetch

-- Everything that a run needs beside the world
structure Plan where
  settings : Settings
  dataset : Dataset
  client : Client

namespace Plan

-- A run needs a client, whose name must be fit for a header
def create (settings : Settings) (dataset : Dataset) : Except Failure Plan :=
  match Client.create settings.userAgent (settings.timeout * 1000) Client.standardMaxBody with
  | .ok client => .ok ⟨settings, dataset, client⟩
  | .error e => .error (Failure.ofFetchError "Failed to create request client" e)

def urls (p : Plan) : List String := p.dataset.urls p.settings.tags

-- How long the fetch of each list takes, and what it comes to
def script (p : Plan) (network : Network) : Pool.Script := fun url =>
  let fetched := p.client.fetch network url
  (fetched.took, .given fetched.text)

end Plan

end Blocklist.Program
