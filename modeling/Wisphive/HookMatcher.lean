import Wisphive.Foundation.Shell
import Wisphive.HookSettings
import Wisphive.Redact

/-! Which hook commands the installer takes for its own: the commands that it writes, the
matcher, and the word that the shell and env(1) execute. -/

namespace Wisphive
open Foundation Redact
namespace HookMatcher

/-- The installer quotes as the audit does. -/
def shellQuoteCommand (command : String) : String :=
  HookSettings.installerShellQuote command

def codexHookCommand (command : String) : String :=
  "env WISPHIVE_AGENT_TYPE=codex " ++ shellQuoteCommand command

/-- The white space of Unicode. -/
@[irreducible] def isSpace (char : Char) : Bool :=
  isWhitespace char

/-- The next word, and what stands behind it and its white space. -/
def splitWord (text : List Char) : List Char × List Char :=
  (text.takeWhile (!isSpace ·), (text.dropWhile (!isSpace ·)).dropWhile isSpace)

/-- What the matcher takes a word behind `env` for. -/
inductive Skip where
  | one
  | two
  | command
  deriving DecidableEq, Repr

/-- A word that starts with a quote is the command, never an assignment. -/
def skipOf (word : List Char) : Skip :=
  if word.head? = some '\'' ∨ word.head? = some '"' then .command
  else if word = "-u".toList ∨ word = "--unset".toList then .two
  else if '=' ∈ word ∨ word.head? = some '-' then .one
  else .command

/-- The text at the command word behind `env`. -/
def skipEnv : Nat → List Char → Option (List Char)
  | 0, _ => none
  | fuel + 1, rest =>
    let (word, after) := splitWord rest
    if word = [] then none
    else
      match skipOf word with
      | .one => skipEnv fuel after
      | .two => skipEnv fuel (splitWord after).2
      | .command => some rest

/-- The quoted and unquoted parts up to the first white space that is not quoted. -/
def argvWord : Shell.Quoting → List Char → Option (List Char)
  | .bare, [] => some []
  | .bare, char :: rest =>
    if isSpace char then some []
    else if char = '\'' then argvWord .single rest
    else if char = '"' then argvWord .double rest
    else if char = '\\' then
      match rest with
      | [] => none
      | next :: rest => (argvWord .bare rest).map (next :: ·)
    else (argvWord .bare rest).map (char :: ·)
  | .single, [] => none
  | .single, char :: rest =>
    if char = '\'' then argvWord .bare rest else (argvWord .single rest).map (char :: ·)
  | .double, [] => none
  | .double, char :: rest =>
    if char = '"' then argvWord .bare rest
    else if char = '\\' then
      match rest with
      | [] => none
      | next :: rest => (argvWord .double rest).map (next :: ·)
    else (argvWord .double rest).map (char :: ·)

def parseArgv0 (text : List Char) : Option (List Char) :=
  match argvWord .bare text with
  | none | some [] => none
  | some out => some out

/-- The last name of a path. Dots are no names. -/
def fileName (path : List Char) : Option (List Char) :=
  match (PathBuf.components ⟨String.ofList path⟩).2.getLast? with
  | some name => if name = ".".toList ∨ name = "..".toList then none else some name
  | none => none

def hookName : List Char := "wisphive-hook".toList

/-- The text at the command word. -/
def commandText (cmd : List Char) : Option (List Char) :=
  let rest := cmd.dropWhile isSpace
  let (first, afterEnv) := splitWord rest
  if first = "env".toList then skipEnv (afterEnv.length + 1) afterEnv else some rest

def isWisphiveHookCommand (cmd : String) : Bool :=
  match (commandText cmd.toList).bind parseArgv0 with
  | none => false
  | some argv0 => (fileName argv0).getD argv0 = hookName

/-! ### What the shell executes -/

def isEnv (word : List Char) : Bool :=
  fileName word = some "env".toList

variable (setting : Shell.Setting)

/-- The word that the shell executes, or env(1) for it, has the name of the hook. -/
def RunsHook (cmd : String) : Prop :=
  ∃ word, Shell.executed setting isEnv cmd.toList = some word ∧ fileName word = some hookName

/-- A word in which backslashes, quotes and white space mean to the shell what they mean to
the matcher, and in which nothing else has a meaning. -/
def plain (patterns : Bool) : Shell.Quoting → List Char → Bool
  | .bare, [] => true
  | .bare, char :: rest =>
    if isSpace char then Shell.isGap char
    else if char = '\'' then plain patterns .single rest
    else if char = '"' then plain patterns .double rest
    else if char = '\\' then
      match rest with
      | [] => false
      | next :: rest => next ≠ '\n' && plain patterns .bare rest
    else
      !Shell.expands char && !(Shell.isOperator char || !patterns && Shell.isPattern char) && plain patterns .bare rest
  | .single, [] => false
  | .single, char :: rest => if char = '\'' then plain patterns .bare rest else plain patterns .single rest
  | .double, [] => false
  | .double, char :: rest =>
    if char = '"' then plain patterns .bare rest
    else if Shell.expands char then false
    else if char = '\\' then
      match rest with
      | [] => false
      | next :: rest => Shell.escapable next && plain patterns .double rest
    else plain patterns .double rest

/-- A slash with a name behind it, from which on the word is plain. -/
def anchors (patterns : Bool) (quoting : Shell.Quoting) (char : Char) (rest : List Char) : Bool :=
  char = '/' && plain patterns quoting rest &&
    (Shell.readWord setting patterns quoting 0 rest).any fun read => (fileName ('/' :: read.1)).isSome

/-- The quotes that are open for the matcher behind a text that does not end its word. -/
def argvState : Shell.Quoting → List Char → Option Shell.Quoting
  | quoting, [] => some quoting
  | .bare, char :: rest =>
    if isSpace char then none
    else if char = '\'' then argvState .single rest
    else if char = '"' then argvState .double rest
    else if char = '\\' then
      match rest with
      | [] => none
      | _ :: rest => argvState .bare rest
    else argvState .bare rest
  | .single, char :: rest => if char = '\'' then argvState .bare rest else argvState .single rest
  | .double, char :: rest =>
    if char = '"' then argvState .bare rest
    else if char = '\\' then
      match rest with
      | [] => none
      | _ :: rest => argvState .double rest
    else argvState .double rest

/-- The shell and the matcher read the same last name. In front of the slash they only have to
agree on the quotes around an expansion and on where the word ends. -/
def endsAlike (patterns : Bool) : Shell.Quoting → Nat → List Char → Bool
  | _, _, [] => false
  | quoting, skipped + 1, _ :: rest => endsAlike patterns quoting skipped rest
  | .bare, 0, char :: rest =>
    anchors setting patterns .bare char rest ||
      if isSpace char then false
      else if char = '\'' then endsAlike patterns .single 0 rest
      else if char = '"' then endsAlike patterns .double 0 rest
      else if char = '\\' then
        match rest with
        | [] => false
        | _ :: rest => endsAlike patterns .bare 0 rest
      else if Shell.expands char then
        match Shell.expanded setting false char rest with
        | none => false
        | some (text, length) =>
          Shell.isWhole text && argvState .bare (rest.take length) = some .bare && endsAlike patterns .bare length rest
      else !(Shell.isOperator char || !patterns && Shell.isPattern char) && endsAlike patterns .bare 0 rest
  | .single, 0, char :: rest =>
    anchors setting patterns .single char rest ||
      if char = '\'' then endsAlike patterns .bare 0 rest else endsAlike patterns .single 0 rest
  | .double, 0, char :: rest =>
    anchors setting patterns .double char rest ||
      if char = '"' then endsAlike patterns .bare 0 rest
      else if Shell.expands char then
        match Shell.expanded setting true char rest with
        | none => false
        | some (_, length) => argvState .double (rest.take length) = some .double && endsAlike patterns .double length rest
      else if char = '\\' then
        match rest with
        | [] => false
        | _ :: rest => endsAlike patterns .double 0 rest
      else endsAlike patterns .double 0 rest

/-- The word at the start of the text is plain, or it ends alike. -/
def namedAlike (patterns : Bool) (text : List Char) : Bool :=
  Shell.starts text && match Shell.tildeLength text with
    | none => plain patterns .bare text || endsAlike setting patterns .bare 0 text
    | some length =>
      argvState .bare (text.tail.take length) = some .bare && endsAlike setting patterns .bare length text.tail

/-- The word that is read ends where the matcher's does, and so does the space behind it. -/
structure Whole (read : List Char → Option (List Char × List Char)) (text found : List Char) : Prop where
  read : read text = some (found, text.dropWhile (!isSpace ·))
  space : Shell.skipBlanks (text.dropWhile (!isSpace ·)) = (splitWord text).2

/-- Each word behind `env` is taken for the same by the matcher and by env(1). -/
inductive AlignedEnv : Shell.EnvPhase → List Char → Prop where
  | one {phase next text found} (kind : skipOf (splitWord text).1 = .one)
      (whole : Whole (Shell.argument setting) text found) (same : Shell.envWord phase found = some (.passed next))
      (later : AlignedEnv next (splitWord text).2) : AlignedEnv phase text
  | two {phase text found name} (kind : skipOf (splitWord text).1 = .two)
      (whole : Whole (Shell.argument setting) text found) (same : Shell.envWord phase found = some .operand)
      (operand : Whole (Shell.word setting false) (splitWord text).2 name)
      (later : AlignedEnv phase (splitWord (splitWord text).2).2) : AlignedEnv phase text
  | command {phase text} (kind : skipOf (splitWord text).1 = .command) (named : namedAlike setting false text = true)
      (same : ∀ found rest, Shell.argument setting text = some (found, rest) →
        Shell.envWord phase found = some .command) : AlignedEnv phase text

/-- Nothing but lines and blanks is in front. The words in front of the command word are for the
shell and env(1) what they are for the matcher, and the command word has its name. -/
def Aligned (cmd : String) : Prop :=
  let text := cmd.toList.dropWhile isSpace
  text = cmd.toList.dropWhile Shell.isGap ∧ Shell.assigns text = false ∧
    if (splitWord text).1 = "env".toList then
      Whole (Shell.word setting true) text "env".toList ∧ AlignedEnv setting .options (splitWord text).2
    else namedAlike setting true text = true

end HookMatcher
end Wisphive
