-- Records of a comma-separated table. Fields may be quoted. A line feed, a carriage
-- return or both end a record, and empty lines are no records.
namespace Blocklist.Csv

abbrev Bytes : Type := List UInt8

-- Where the reader stands
inductive Mode where
  | betweenRecords
  | fieldStart
  | plain
  | quoted
  -- after a quote inside a quoted field, which closes the field or begins a pair
  | closingQuote
  deriving DecidableEq, Repr

-- What has been read, everything in reverse
structure Reader where
  mode : Mode
  field : Bytes
  fields : List Bytes
  records : List (List Bytes)

namespace Reader

def start : Reader := ⟨.betweenRecords, [], [], []⟩

def isLineEnd (b : UInt8) : Bool := b == 0x0A || b == 0x0D

def keep (r : Reader) (mode : Mode) (b : UInt8) : Reader :=
  { r with mode := mode, field := b :: r.field }

def endField (r : Reader) : Reader :=
  { r with mode := .fieldStart, field := [], fields := r.field.reverse :: r.fields }

def endRecord (r : Reader) : Reader :=
  let r := r.endField
  ⟨.betweenRecords, [], [], r.fields.reverse :: r.records⟩

-- A byte outside quotes: a comma or line end acts, any other belongs to the field
def bare (r : Reader) (b : UInt8) : Reader :=
  if b == 0x2C then r.endField
  else if isLineEnd b then r.endRecord
  else r.keep .plain b

-- A quote opens a quoted field only where the field starts
def open? (r : Reader) (b : UInt8) : Reader :=
  if b == 0x22 then { r with mode := .quoted } else r.bare b

def step (r : Reader) (b : UInt8) : Reader :=
  match r.mode with
  | .betweenRecords => if isLineEnd b then r else r.open? b
  | .fieldStart => r.open? b
  | .plain => r.bare b
  | .quoted => if b == 0x22 then { r with mode := .closingQuote } else r.keep .quoted b
  | .closingQuote => if b == 0x22 then r.keep .quoted b else r.bare b

-- The end of the input ends a record that has begun, even inside quotes
def finish (r : Reader) : List (List Bytes) :=
  let r := if r.mode == .betweenRecords then r else r.endRecord
  r.records.reverse

end Reader

-- A byte order mark at the start is no part of the table
def withoutMark : Bytes → Bytes
  | 0xEF :: 0xBB :: 0xBF :: rest => rest
  | bytes => bytes

def records (bytes : Bytes) : List (List Bytes) :=
  ((withoutMark bytes).foldl Reader.step Reader.start).finish

end Blocklist.Csv
