import Mathlib.Data.List.Basic

/-! How AppleScript takes a text apart: words between blanks, string literals with escapes, and
statements that end with their line. -/

namespace Foundation
namespace ScriptText

inductive Token where
  | word (text : List Char)
  | literal (text : List Char)
  deriving DecidableEq, Repr

abbrev Statement := List Token

def isBlank (char : Char) : Bool :=
  char = ' ' || char = '\t'

def endsStatement (char : Char) : Bool :=
  char = '\n' || char = '\r'

/-- What a character behind a backslash stands for. -/
def decode (char : Char) : Char :=
  if char = 'n' then '\n' else if char = 'r' then '\r' else if char = 't' then '\t' else char

/-- What the reader is in, with what it has read of it. -/
inductive Place where
  | gap
  | word (text : List Char)
  | literal (text : List Char)
  | escape (text : List Char)
  deriving DecidableEq, Repr

structure Reader where
  statements : List Statement := []
  tokens : Statement := []
  place : Place := .gap
  deriving DecidableEq, Repr

namespace Reader

def push (reader : Reader) (token : Token) : Reader :=
  { reader with tokens := reader.tokens ++ [token], place := .gap }

/-- Empty lines are no statements. -/
def close (reader : Reader) : Reader :=
  if reader.tokens = [] then reader
  else { reader with statements := reader.statements ++ [reader.tokens], tokens := [] }

/-- A character outside of literals. -/
def outside (reader : Reader) (char : Char) : Reader :=
  if isBlank char then reader
  else if endsStatement char then reader.close
  else if char = '"' then { reader with place := .literal [] }
  else { reader with place := .word [char] }

/-- A literal that is still open where its line ends is an error. -/
def step (reader : Reader) (char : Char) : Option Reader :=
  match reader.place with
  | .gap => some (reader.outside char)
  | .word text =>
    if isBlank char || endsStatement char || char = '"' then some ((reader.push (.word text)).outside char)
    else some { reader with place := .word (text ++ [char]) }
  | .literal text =>
    if endsStatement char then none
    else if char = '"' then some (reader.push (.literal text))
    else if char = '\\' then some { reader with place := .escape text }
    else some { reader with place := .literal (text ++ [char]) }
  | .escape text =>
    if endsStatement char then none else some { reader with place := .literal (text ++ [decode char]) }

def run (reader : Reader) (text : List Char) : Option Reader :=
  text.foldlM step reader

def finish (reader : Reader) : Option (List Statement) :=
  match reader.place with
  | .gap => some reader.close.statements
  | .word text => some (reader.push (.word text)).close.statements
  | .literal _ | .escape _ => none

end Reader

/-- The statements of a script. -/
def read (script : List Char) : Option (List Statement) :=
  (Reader.run {} script).bind Reader.finish

/-- A text in which each character stands for itself in a literal. -/
def quoted (text : List Char) : List Char :=
  text.flatMap fun char => if char = '\\' ∨ char = '"' then ['\\', char] else [char]

variable {reader : Reader} {text : List Char} {char : Char}

theorem run_append (left right : List Char) :
    reader.run (left ++ right) = (reader.run left).bind (Reader.run · right) :=
  List.foldlM_append

/-- One quoted character takes the reader from a literal to the longer one. -/
theorem run_quoted_char (place : reader.place = .literal text) (line : endsStatement char = false) :
    reader.run (quoted [char]) = some { reader with place := .literal (text ++ [char]) } := by
  rw [quoted, List.flatMap_singleton]
  split
  · rename_i marked
    have start : reader.step '\\' = some { reader with place := .escape text } := by
      simp only [Reader.step, place]
      rfl
    have ends : ({ reader with place := .escape text } : Reader).step char =
        some { reader with place := .literal (text ++ [char]) } := by
      have same : decode char = char := by
        rcases marked with rfl | rfl <;> rfl
      simp only [Reader.step, line, Bool.false_eq_true, if_false, same]
    simp only [Reader.run, List.foldlM_cons, List.foldlM_nil, start, Option.bind_eq_bind, Option.bind_some, ends,
      Option.pure_def]
  · rename_i plain
    rw [not_or] at plain
    simp only [Reader.run, List.foldlM_cons, List.foldlM_nil, Reader.step, place, line, plain.1, plain.2,
      Bool.false_eq_true, if_false, Option.bind_eq_bind, Option.bind_some, Option.pure_def]

/-- A literal goes on through a quoted text as far as no character of it ends a line. -/
theorem run_quoted (place : reader.place = .literal text) (chars : List Char)
    (lines : ∀ char ∈ chars, endsStatement char = false) :
    reader.run (quoted chars) = some { reader with place := .literal (text ++ chars) } := by
  induction chars generalizing reader text with
  | nil =>
    rw [List.append_nil, ← place]
    rfl
  | cons char chars ih =>
    rw [List.forall_mem_cons] at lines
    have split : quoted (char :: chars) = quoted [char] ++ quoted chars :=
      @List.flatMap_append _ _ [char] chars _
    rw [split, run_append, run_quoted_char place lines.1, Option.bind_some, ih rfl lines.2, List.append_assoc]
    rfl

end ScriptText
end Foundation
