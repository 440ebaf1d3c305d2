import Blocklist.Json.Skip
import Blocklist.Json.Writer
import Blocklist.Rules.Basic
-- Rules as JSON: writing, and reading what has been written.
namespace Blocklist

open Blocklist.Json

def Action.write (layout : Layout) (depth : Nat) (a : Action) : List Char :=
  object layout depth [("type", Json.text a.kind)]

def Condition.write (layout : Layout) (depth : Nat) (c : Condition) : List Char :=
  object layout depth [
    ("urlFilter", Json.text c.urlFilter),
    ("resourceTypes", array layout (depth + 1) (c.resourceTypes.map Json.text))]

namespace Rule

def write (layout : Layout) (depth : Nat) (r : Rule) : List Char :=
  object layout depth [
    ("id", number r.id.toNat),
    ("priority", number r.priority.toNat),
    ("action", Action.write layout (depth + 1) r.action),
    ("condition", Condition.write layout (depth + 1) r.condition)]

-- Rules as a JSON array
def writeAll (layout : Layout) (rules : List Rule) : String :=
  String.ofList (array layout 0 (rules.map (write layout 1)))

-- Reading of the fields of an object into a record of which they fill the parts. A
-- field that is no part is passed over, and one that is given twice does not fit.
def fieldsWith {α : Type} (part : String → Option (α → Read α)) : Nat → Bool → α → Read α
  | 0, _, _, _ => .error .unfinished
  | fuel + 1, first, got, text => do
    let (more, rest) ← nextField first text
    if more then
      let (name, rest) ← readText rest
      match part name with
      | none =>
        let (_, rest) ← expect ':' rest
        let (_, rest) ← skipValue rest
        fieldsWith part fuel false got rest
      | some fill =>
        let (got, rest) ← fill got rest
        fieldsWith part fuel false got rest
    else .ok (got, rest)

-- The value of a field that may be given once
def fillOnce {α β : Type} (old : Option β) (read : Read β) (put : β → α) : Read α := fun text =>
  if old.isSome then .error .unfitting
  else do
    let (_, rest) ← expect ':' text
    let (value, rest) ← read rest
    .ok (put value, rest)

-- An item of a list that stands for an object, part by part
def positional {β : Type} (first : Bool) (read : Read β) : Read β := fun text => do
  let (more, rest) ← nextItem first text
  if more then read rest else .error .unfitting

-- The end of a list that stands for an object
def endPositional : Read Unit := fun text => expect ']' text

-- An object, or a list of its parts in order
def readRecord {α β : Type} (start : α) (part : String → Option (α → Read α))
    (complete : α → Option β) (ofItems : Read β) : Read β := fun text =>
  match skipBlanks text with
  | [] => .error .unfinished
  | '[' :: rest => do
    let (value, rest) ← ofItems rest
    let (_, rest) ← endPositional rest
    .ok (value, rest)
  | '\x7b' :: rest => do
    let (got, rest) ← fieldsWith part (rest.length + 1) true start rest
    match complete got with
    | none => .error .unfitting
    | some value =>
      let (_, rest) ← expect '\x7d' rest
      .ok (value, rest)
  | other => .error (unfitting other)

def readAction : Read Action :=
  readRecord (none : Option String)
    (fun name => if name == "type" then some fun old => fillOnce old readText some else none)
    (fun kind => kind.map Action.mk)
    fun text => do
      let (kind, rest) ← positional true readText text
      .ok (⟨kind⟩, rest)

def readCondition : Read Condition :=
  readRecord ((none, none) : Option String × Option (List String))
    (fun name =>
      if name == "urlFilter" then
        some fun old => fillOnce old.1 readText fun u => (some u, old.2)
      else if name == "resourceTypes" then
        some fun old => fillOnce old.2 (readList readText) fun ts => (old.1, some ts)
      else none)
    (fun got => do some ⟨← got.1, ← got.2⟩)
    fun text => do
      let (urlFilter, rest) ← positional true readText text
      let (types, rest) ← positional false (readList readText) rest
      .ok (⟨urlFilter, types⟩, rest)

-- The parts of a rule that have been read
structure Draft where
  id : Option UInt32
  priority : Option UInt32
  action : Option Action
  condition : Option Condition

def Draft.part (name : String) : Option (Draft → Read Draft) :=
  match name with
  | "id" => some fun d => fillOnce d.id readWord32 fun v => { d with id := some v }
  | "priority" => some fun d => fillOnce d.priority readWord32 fun v => { d with priority := some v }
  | "action" => some fun d => fillOnce d.action readAction fun v => { d with action := some v }
  | "condition" =>
    some fun d => fillOnce d.condition readCondition fun v => { d with condition := some v }
  | _ => none

def Draft.complete? (d : Draft) : Option Rule := do
  some ⟨← d.id, ← d.priority, ← d.action, ← d.condition⟩

def read : Read Rule :=
  readRecord ⟨none, none, none, none⟩ Draft.part Draft.complete? fun text => do
    let (id, rest) ← positional true readWord32 text
    let (priority, rest) ← positional false readWord32 rest
    let (action, rest) ← positional false readAction rest
    let (condition, rest) ← positional false readCondition rest
    .ok (⟨id, priority, action, condition⟩, rest)

-- The rules in a JSON text, which holds nothing else
def readAll (text : String) : Except ReadError (List Rule) := do
  let (rules, rest) ← readList read text.toList
  if (skipBlanks rest).isEmpty then .ok rules else .error .malformed

end Rule

end Blocklist
