import Wisphive.Foundation.Json

/-! The secret scrubber: a word scanner over three rules, run on every text before
it is stored. Texts are lists of characters here. -/

namespace Wisphive
open Foundation

namespace Redact

def redacted : List Char := "***REDACTED***".toList

def secretKeyMarkers : List (List Char) :=
  ["api_key", "apikey", "api-key", "secret", "token", "password", "passwd", "credential", "authorization",
    "private_key", "access_key", "client_id", "client-secret"].map (·.toList)

def secretPrefixes : List (List Char) :=
  ["sk-", "ghp_", "gho_", "ghu_", "ghs_", "ghr_", "github_pat_", "xoxb-", "xoxp-", "xoxa-", "xoxr-", "xoxs-",
    "AKIA", "ASIA", "AIza", "glpat-", "eyJ"].map (·.toList)

def secretLeadWords : List (List Char) :=
  ["bearer", "basic"].map (·.toList)

/-- Lowercase as far as it can meet an ASCII marker: besides the capital letters,
the Kelvin sign and the dotted capital I have ASCII lowercase letters. -/
def toLowercase (char : Char) : List Char :=
  if char.toNat = 0x212A then ['k']
  else if char.toNat = 0x130 then ['i', Char.ofNat 0x307]
  else [char.toLower]

/-- The code points with the White_Space property. -/
def isWhitespace (char : Char) : Bool :=
  let code := char.toNat
  (9 ≤ code && code ≤ 13) || code = 32 || code = 0x85 || code = 0xA0 || code = 0x1680 ||
    (0x2000 ≤ code && code ≤ 0x200A) || code = 0x2028 || code = 0x2029 || code = 0x202F || code = 0x205F ||
    code = 0x3000

def utf8Len (text : List Char) : Nat :=
  (text.map (·.utf8Size)).sum

def contains (text marker : List Char) : Bool :=
  text.tails.any (marker.isPrefixOf ·)

def keyIsSecret (key : List Char) : Bool :=
  secretKeyMarkers.any (contains (key.flatMap toLowercase))

/-- A prefix counts only with six more bytes behind it. -/
def tokenHasSecretPrefix (token : List Char) : Bool :=
  secretPrefixes.any fun mark => mark.isPrefixOf token && utf8Len mark + 6 ≤ utf8Len token

/-- Quotes and punctuation that commonly wrap a token. -/
def wraps (char : Char) : Bool :=
  char ∈ "\"'`,;()\x7b\x7d[]".toList

def trimEnd (drops : Char → Bool) (text : List Char) : List Char :=
  (text.reverse.dropWhile drops).reverse

def trimWrapping (token : List Char) : List Char :=
  trimEnd wraps (token.dropWhile wraps)

def hexUpper (value : Nat) : Char :=
  if value < 10 then Char.ofNat (48 + value) else Char.ofNat (55 + value)

/-- A backslash is doubled, and a control other than tab and newline becomes `\xHH`. -/
def logSafeChar (char : Char) : List Char :=
  if char = '\\' then ['\\', '\\']
  else if (char.toNat < 32 || char.toNat = 127) && char ≠ '\t' && char ≠ '\n' then
    ['\\', 'x', hexUpper (char.toNat / 16), hexUpper (char.toNat % 16)]
  else [char]

def pushLogSafe (text : List Char) : List Char :=
  text.flatMap logSafeChar

/-- The text before and after the first separator. -/
def splitOnce (separator : Char) : List Char → Option (List Char × List Char)
  | [] => none
  | char :: rest =>
    if char = separator then some ([], rest)
    else (splitOnce separator rest).map fun halves => (char :: halves.1, halves.2)

/-- `KEY=value` or `KEY:value` where the key names a secret. -/
def redactAssignment (core : List Char) (separator : Char) : Option (List Char) :=
  match splitOnce separator core with
  | some (lhs, rhs) => if keyIsSecret lhs && !rhs.isEmpty then some (lhs ++ separator :: redacted) else none
  | none => none

def isLead (word : List Char) : Bool :=
  secretLeadWords.contains (word.map (·.toLower))

def redactWord (word prevWord : List Char) : List Char :=
  let core := trimWrapping word
  match (redactAssignment core '=').or (redactAssignment core ':') with
  | some replaced => replaced
  | none =>
    -- A value behind a secret key or a lead word. The lead word itself is kept.
    let prevCore := trimEnd (· = ':') (trimWrapping prevWord)
    let prevIsKey := keyIsSecret prevCore && (trimEnd isWhitespace prevWord).getLast? = some ':'
    if (prevIsKey || isLead prevCore) && !core.isEmpty && !isLead core then redacted
    else if tokenHasSecretPrefix core then redacted
    else
      match splitOnce '=' core with
      | some (lhs, rhs) => if tokenHasSecretPrefix rhs then lhs ++ '=' :: redacted else word
      | none => word

/-- Scan white space and words in turn. The fuel bounds the number of words. -/
def redactWords : Nat → List Char → List Char → List Char
  | 0, _, _ => []
  | fuel + 1, prevWord, rest =>
    let space := rest.takeWhile isWhitespace
    let after := rest.dropWhile isWhitespace
    if after.isEmpty then pushLogSafe space
    else
      let word := after.takeWhile (!isWhitespace ·)
      pushLogSafe space ++ pushLogSafe (redactWord word prevWord) ++
        redactWords fuel word (after.dropWhile (!isWhitespace ·))

def redactText (text : String) : String :=
  String.ofList (redactWords (text.length + 1) [] text.toList)

mutual
/-- Members under secret keys are replaced, every string is scanned, and the rest
of the value keeps its shape. -/
def redactValue : Json → Json
  | .object members => .object (redactMembers members)
  | .array items => .array (redactItems items)
  | .string text => .string (redactText text)
  | .null => .null
  | .bool value => .bool value
  | .number value => .number value

def redactItems : List Json → List Json
  | [] => []
  | item :: rest => redactValue item :: redactItems rest

def redactMembers : List (String × Json) → List (String × Json)
  | [] => []
  | (name, value) :: rest =>
    (name, if keyIsSecret name.toList then .string (String.ofList redacted) else redactValue value) ::
      redactMembers rest
end

end Redact
end Wisphive
