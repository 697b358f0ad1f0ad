/-!
JSON documents, as far as they go.

A document that is not well formed still has a beginning that is. The tree keeps that beginning:
where the text stops making sense, it holds a `Fault` in the place of what should have come. A
reader of the tree that goes through it in order meets the first fault exactly where it stands in
the text, before or after any mismatch of its own. A string whose escapes do not form characters and
a number beyond all bounds are well formed for a reader that passes over them (`Json.skim`), and
faults for one that wants their value (`Json.check`).
-/

namespace LexicalModes

/-- Why a text stops being JSON. -/
inductive Fault
  /-- The text ends too early. -/
  | truncated
  /-- Something stands where it may not. -/
  | malformed
  deriving DecidableEq, Repr

namespace Json

/-- A string as written: its value if its escapes form one, and the fault that cut it short. -/
structure Quoted where
  value : Except Fault String
  fault : Option Fault := none

/-- A number as written. -/
inductive Numeral
  /-- An integer without sign, fraction and exponent. -/
  | natural (n : Nat)
  /-- Any other number. -/
  | other
  /-- A number too large to have a value. -/
  | tooLarge
  deriving DecidableEq, Repr

end Json

mutual

/-- A value as far as it could be read. -/
inductive Json
  | null
  | bool (b : Bool)
  | number (n : Json.Numeral)
  | string (s : Json.Quoted)
  | array (items : Items)
  | object (fields : Fields)
  | broken (fault : Fault)

/-- The items of an array, up to its end or to a fault between them. -/
inductive Items
  | done
  | broken (fault : Fault)
  | item (value : Json) (rest : Items)

/-- The fields of an object in order, up to its end or to a fault between them. -/
inductive Fields
  | done
  | broken (fault : Fault)
  | field (key : Json.Quoted) (value : Json) (rest : Fields)

end

namespace Json

mutual

/-- The first fault in a value for a reader that passes over it. -/
def skim : Json → Except Fault Unit
  | .null | .bool _ | .number _ => .ok ()
  | .string s => match s.fault with
    | some f => .error f
    | none => .ok ()
  | .array items => skimItems items
  | .object fields => skimFields fields
  | .broken f => .error f

/-- The first fault in items for a reader that passes over them. -/
def skimItems : Items → Except Fault Unit
  | .done => .ok ()
  | .broken f => .error f
  | .item value rest => do
    skim value
    skimItems rest

/-- The first fault in fields for a reader that passes over them. -/
def skimFields : Fields → Except Fault Unit
  | .done => .ok ()
  | .broken f => .error f
  | .field key value rest => do
    match key.fault with
    | some f => throw f
    | none => pure ()
    skim value
    skimFields rest

/-- The first fault in a value for a reader that wants all of it and follows arrays and objects at
most so deep. -/
def check (depth : Nat) : Json → Except Fault Unit
  | .null | .bool _ => .ok ()
  | .number .tooLarge => .error .malformed
  | .number _ => .ok ()
  | .string s => do discard s.value
  | .array items =>
    match depth with
    | 0 => .error .malformed
    | depth + 1 => checkItems depth items
  | .object fields =>
    match depth with
    | 0 => .error .malformed
    | depth + 1 => checkFields depth fields
  | .broken f => .error f

/-- The first fault in items for a reader that wants all of them. -/
def checkItems (depth : Nat) : Items → Except Fault Unit
  | .done => .ok ()
  | .broken f => .error f
  | .item value rest => do
    check depth value
    checkItems depth rest

/-- The first fault in fields for a reader that wants all of them. -/
def checkFields (depth : Nat) : Fields → Except Fault Unit
  | .done => .ok ()
  | .broken f => .error f
  | .field key value rest => do
    discard key.value
    check depth value
    checkFields depth rest

end

/-- Arrays and objects are followed this deep. -/
def depthLimit : Nat := 127

end Json

end LexicalModes
