import Mathlib.Algebra.Group.Int.Defs
import Mathlib.Algebra.GroupWithZero.Nat
import Mathlib.Data.List.Basic

/-! The JSON data model. Objects list their members in the order in which they
are written, and a number that is no integer keeps its canonical text. -/

namespace Foundation

inductive Number where
  | integer (value : Int)
  | float (text : String)
  deriving DecidableEq, Repr

inductive Json where
  | null
  | bool (value : Bool)
  | number (value : Number)
  | string (value : String)
  | array (items : List Json)
  | object (members : List (String × Json))
  deriving Repr, Inhabited

namespace Json

mutual
/-- Equality is decided along the tree. -/
def decEq : (left right : Json) → Decidable (left = right)
  | .null, .null => isTrue rfl
  | .bool left, .bool right => decidable_of_iff (left = right) (by simp)
  | .number left, .number right => decidable_of_iff (left = right) (by simp)
  | .string left, .string right => decidable_of_iff (left = right) (by simp)
  | .array left, .array right =>
    match decEqItems left right with
    | isTrue same => isTrue (same ▸ rfl)
    | isFalse differ => isFalse (by simpa using differ)
  | .object left, .object right =>
    match decEqMembers left right with
    | isTrue same => isTrue (same ▸ rfl)
    | isFalse differ => isFalse (by simpa using differ)
  | .null, .bool _ | .null, .number _ | .null, .string _ | .null, .array _ | .null, .object _
  | .bool _, .null | .bool _, .number _ | .bool _, .string _ | .bool _, .array _ | .bool _, .object _
  | .number _, .null | .number _, .bool _ | .number _, .string _ | .number _, .array _
  | .number _, .object _ | .string _, .null | .string _, .bool _ | .string _, .number _
  | .string _, .array _ | .string _, .object _ | .array _, .null | .array _, .bool _
  | .array _, .number _ | .array _, .string _ | .array _, .object _ | .object _, .null
  | .object _, .bool _ | .object _, .number _ | .object _, .string _ | .object _, .array _ =>
    isFalse (by simp)

def decEqItems : (left right : List Json) → Decidable (left = right)
  | [], [] => isTrue rfl
  | left :: lefts, right :: rights =>
    match decEq left right, decEqItems lefts rights with
    | isTrue head, isTrue tail => isTrue (head ▸ tail ▸ rfl)
    | isFalse differ, _ => isFalse (by simp [differ])
    | _, isFalse differ => isFalse (by simp [differ])
  | [], _ :: _ | _ :: _, [] => isFalse (by simp)

def decEqMembers : (left right : List (String × Json)) → Decidable (left = right)
  | [], [] => isTrue rfl
  | (leftName, left) :: lefts, (rightName, right) :: rights =>
    match decEq left right, decEqMembers lefts rights with
    | isTrue head, isTrue tail =>
      decidable_of_iff (leftName = rightName) (by simp [head, tail])
    | isFalse differ, _ => isFalse (by simp [differ])
    | _, isFalse differ => isFalse (by simp [differ])
  | [], _ :: _ | _ :: _, [] => isFalse (by simp)
end

instance : DecidableEq Json := decEq

/-- The member of an object under a key. -/
def get? (key : String) : Json → Option Json
  | .object members => members.lookup key
  | _ => none

def asString? : Json → Option String
  | .string value => some value
  | _ => none

def asBool? : Json → Option Bool
  | .bool value => some value
  | _ => none

def asArray? : Json → Option (List Json)
  | .array items => some items
  | _ => none

def asObject? : Json → Option (List (String × Json))
  | .object members => some members
  | _ => none

def hexDigit (value : Nat) : Char :=
  if value < 10 then Char.ofNat (48 + value) else Char.ofNat (87 + value)

/-- A character inside a string literal. Controls without a short form are written
with four hexadecimal digits. -/
def escapeChar (char : Char) : List Char :=
  if char = '"' then ['\\', '"']
  else if char = '\\' then ['\\', '\\']
  else if char = '\n' then ['\\', 'n']
  else if char = '\r' then ['\\', 'r']
  else if char = '\t' then ['\\', 't']
  else if char.toNat = 8 then ['\\', 'b']
  else if char.toNat = 12 then ['\\', 'f']
  else if char.toNat < 32 then ['\\', 'u', '0', '0', hexDigit (char.toNat / 16), hexDigit (char.toNat % 16)]
  else [char]

def renderString (text : String) : List Char :=
  '"' :: text.toList.flatMap escapeChar ++ ['"']

def renderNumber : Number → List Char
  | .integer value => (toString value).toList
  | .float text => text.toList

mutual
/-- The compact text of a value. -/
def renderChars : Json → List Char
  | .null => "null".toList
  | .bool true => "true".toList
  | .bool false => "false".toList
  | .number value => renderNumber value
  | .string value => renderString value
  | .array items => '[' :: renderItems items ++ [']']
  | .object members => '{' :: renderMembers members ++ ['}']

def renderItems : List Json → List Char
  | [] => []
  | [item] => renderChars item
  | item :: next :: rest => renderChars item ++ ',' :: renderItems (next :: rest)

def renderMembers : List (String × Json) → List Char
  | [] => []
  | [(name, value)] => renderString name ++ ':' :: renderChars value
  | (name, value) :: next :: rest => renderString name ++ ':' :: renderChars value ++ ',' :: renderMembers (next :: rest)
end

def render (value : Json) : String :=
  String.ofList (renderChars value)

end Json
end Foundation
