import Wisphive.Foundation.Json

/-! Reading JSON text. Space may stand around every token, and containers may be nested
to a given depth. What a number with a fraction, an exponent or too many digits is read
as is left to a parameter. -/

namespace Foundation
namespace Json

def isSpace (char : Char) : Bool :=
  char = ' ' || char = '\n' || char = '\t' || char = '\r'

def skipSpace (text : List Char) : List Char :=
  text.dropWhile isSpace

def hexValue (char : Char) : Option Nat :=
  if '0' ≤ char ∧ char ≤ '9' then some (char.toNat - 48)
  else if 'a' ≤ char ∧ char ≤ 'f' then some (char.toNat - 87)
  else if 'A' ≤ char ∧ char ≤ 'F' then some (char.toNat - 55)
  else none

/-- The number that hexadecimal digits stand for. -/
def hexNumber (digits : List Char) : Option Nat :=
  digits.foldlM (fun value digit => (hexValue digit).map (16 * value + ·)) 0

def shortEscape (kind : Char) : Option Char :=
  if kind = '"' ∨ kind = '\\' ∨ kind = '/' then some kind
  else if kind = 'n' then some '\n'
  else if kind = 'r' then some '\r'
  else if kind = 't' then some '\t'
  else if kind = 'b' then some (Char.ofNat 8)
  else if kind = 'f' then some (Char.ofNat 12)
  else none

/-- A character in front of what was read behind it. -/
def inFront (char : Char) (read : List Char × List Char) : List Char × List Char :=
  (char :: read.1, read.2)

/-- The characters of a string literal up to its closing quote, and what follows. A
character outside the basic plane may be written as two escapes. -/
def readChars : List Char → Option (List Char × List Char)
  | [] => none
  | char :: rest =>
    if char = '"' then some ([], rest)
    else if char = '\\' then
      match rest with
      | 'u' :: a :: b :: c :: d :: rest =>
        match hexNumber [a, b, c, d] with
        | none => none
        | some unit =>
          if 0xD800 ≤ unit ∧ unit < 0xDC00 then
            match rest with
            | '\\' :: 'u' :: e :: f :: g :: h :: rest =>
              match hexNumber [e, f, g, h] with
              | none => none
              | some low =>
                if 0xDC00 ≤ low ∧ low < 0xE000 then
                  (readChars rest).map (inFront (Char.ofNat (0x10000 + (unit - 0xD800) * 0x400 + (low - 0xDC00))))
                else none
            | _ => none
          else if 0xDC00 ≤ unit ∧ unit < 0xE000 then none
          else (readChars rest).map (inFront (Char.ofNat unit))
      | kind :: rest =>
        match shortEscape kind with
        | none => none
        | some char => (readChars rest).map (inFront char)
      | [] => none
    else if char.toNat < 32 then none
    else (readChars rest).map (inFront char)

def digits (text : List Char) : List Char × List Char :=
  (text.takeWhile Char.isDigit, text.dropWhile Char.isDigit)

/-- A point with the digits behind it, if there is one. -/
def readFraction : List Char → Option (List Char × List Char)
  | '.' :: rest => if (digits rest).1 = [] then none else some ('.' :: (digits rest).1, (digits rest).2)
  | text => some ([], text)

def exponentDigits (mark : List Char) (text : List Char) : Option (List Char × List Char) :=
  if (digits text).1 = [] then none else some (mark ++ (digits text).1, (digits text).2)

/-- An exponent, if there is one. -/
def readExponent : List Char → Option (List Char × List Char)
  | mark :: rest =>
    if mark = 'e' ∨ mark = 'E' then
      match rest with
      | '+' :: rest => exponentDigits [mark, '+'] rest
      | '-' :: rest => exponentDigits [mark, '-'] rest
      | rest => exponentDigits [mark] rest
    else some ([], mark :: rest)
  | [] => some ([], [])

section
variable (float : String → Option String)

/-- Integers have 64 bits, and there is no negative zero among them. -/
def numberOf (negative : Bool) (whole tail : List Char) : Option Number :=
  let value := Nat.ofDigitChars 10 whole 0
  let text := String.ofList ((if negative then ['-'] else []) ++ whole ++ tail)
  if tail ≠ [] then (float text).map .float
  else if negative then
    if value = 0 ∨ 2 ^ 63 < value then (float text).map .float else some (.integer (-value))
  else if 2 ^ 64 ≤ value then (float text).map .float
  else some (.integer value)

/-- The digits of a number behind its sign. -/
def readUnsigned (negative : Bool) (text : List Char) : Option (Number × List Char) :=
  match digits text with
  | ([], _) | ('0' :: _ :: _, _) => none
  | (whole, rest) =>
    match readFraction rest with
    | none => none
    | some (fraction, rest) =>
      match readExponent rest with
      | none => none
      | some (exponent, rest) => (numberOf float negative whole (fraction ++ exponent)).map fun value => (value, rest)

def readNumber : List Char → Option (Number × List Char)
  | '-' :: rest => readUnsigned float true rest
  | text => readUnsigned float false text

/-- The words of JSON, and numbers. -/
def readScalar (text : List Char) : Option (Json × List Char) :=
  match text with
  | 'n' :: 'u' :: 'l' :: 'l' :: rest => some (.null, rest)
  | 't' :: 'r' :: 'u' :: 'e' :: rest => some (.bool true, rest)
  | 'f' :: 'a' :: 'l' :: 's' :: 'e' :: rest => some (.bool false, rest)
  | text => (readNumber float text).map fun (value, rest) => (.number value, rest)

mutual
/-- A value at the front of a text, and what follows it. -/
def readValue : (fuel depth : Nat) → List Char → Option (Json × List Char)
  | 0, _, _ => none
  | fuel + 1, depth, text =>
    match depth, skipSpace text with
    | _, '"' :: rest => (readChars rest).map fun (chars, rest) => (.string (String.ofList chars), rest)
    | 0, '[' :: _ | 0, '{' :: _ => none
    | depth + 1, '[' :: rest =>
      match skipSpace rest with
      | ']' :: rest => some (.array [], rest)
      | rest => (readItems fuel depth rest).map fun (items, rest) => (.array items, rest)
    | depth + 1, '{' :: rest =>
      match skipSpace rest with
      | '}' :: rest => some (.object [], rest)
      | rest => (readMembers fuel depth rest).map fun (members, rest) => (.object members, rest)
    | _, text => readScalar float text

/-- The items of an array up to its closing bracket. -/
def readItems : (fuel depth : Nat) → List Char → Option (List Json × List Char)
  | 0, _, _ => none
  | fuel + 1, depth, text =>
    match readValue fuel depth text with
    | none => none
    | some (item, rest) =>
      match skipSpace rest with
      | ']' :: rest => some ([item], rest)
      | ',' :: rest => (readItems fuel depth rest).map fun (items, rest) => (item :: items, rest)
      | _ => none

/-- The members of an object up to its closing brace. -/
def readMembers : (fuel depth : Nat) → List Char → Option (List (String × Json) × List Char)
  | 0, _, _ => none
  | fuel + 1, depth, text =>
    match skipSpace text with
    | '"' :: rest =>
      match readChars rest with
      | none => none
      | some (name, rest) =>
        match skipSpace rest with
        | ':' :: rest =>
          match readValue fuel depth rest with
          | none => none
          | some (value, rest) =>
            match skipSpace rest with
            | '}' :: rest => some ([(String.ofList name, value)], rest)
            | ',' :: rest =>
              (readMembers fuel depth rest).map fun (members, rest) => ((String.ofList name, value) :: members, rest)
            | _ => none
        | _ => none
    | _ => none
end

/-- The containers that a document may nest. -/
def maxDepth : Nat := 127

/-- A whole document. Every two calls consume a character. -/
def parse (text : String) : Option Json :=
  match readValue float (2 * text.toList.length + 2) maxDepth text.toList with
  | some (value, rest) => if skipSpace rest = [] then some value else none
  | none => none

end
end Json
end Foundation
