import Blocklist.Dataset.Basic
import Blocklist.Fetch.Error
import Blocklist.Files.Tree
-- The dataset that a file holds.
namespace Blocklist

open Blocklist.Fetch Blocklist.Files

def Files.FileError.failure (e : FileError) : IoFailure :=
  match e with
  | .missing => ⟨.notFound, e.text⟩
  | .alreadyThere => ⟨.alreadyExists, e.text⟩
  | e => ⟨.other, e.text⟩

namespace Dataset

-- Path of the dataset, unless another is given
def standardPath : Path := "dataset/Add_Block_data.csv"

-- The dataset in what opening a path gave. A folder has no records.
def ofOpened (path : Path) : Except FileError Opened → Except FetchError Dataset
  | .error e => .error (.dataset path e.failure)
  | .ok .folder => .ok ⟨[], 0⟩
  | .ok (.bytes bytes) => .ok (ofBytes bytes)

end Dataset

end Blocklist
