import Mathlib.Data.List.Basic

/-! The command word of a simple command: the words that sh(1) reads, and what env(1) takes off
its arguments. An operator ends what is read. -/

namespace Foundation

namespace Shell

inductive Quoting where
  | bare
  | single
  | double
  deriving DecidableEq, Repr

/-- What an expansion becomes, given with its first character, and the home directory of a user
or, behind a bare tilde, of nobody in particular. -/
structure Setting where
  expansion : List Char → List Char
  home : List Char → List Char

def isBlank (char : Char) : Bool :=
  char = ' ' || char = '\t'

/-- What ends a word. A newline ends the command, too. -/
def isGap (char : Char) : Bool :=
  isBlank char || char = '\n'

def isOperator (char : Char) : Bool :=
  char ∈ ";&|<>()".toList

def isPattern (char : Char) : Bool :=
  char ∈ "*?[".toList

/-- Operators, expansions and patterns, where they are not quoted. -/
def isSpecial (char : Char) : Bool :=
  char ∈ ";&|<>()$`*?[\x7b\x7d".toList

/-- These keep a meaning between double quotes. -/
def expands (char : Char) : Bool :=
  char ∈ "$`".toList

/-- What a backslash escapes between double quotes. -/
def escapable (char : Char) : Bool :=
  expands char || char = '"' || char = '\\'

def isQuote (char : Char) : Bool :=
  char ∈ "'\"\\".toList

/-- What is open inside an expansion. A parameter that is itself between double quotes is told apart. -/
inductive Nesting where
  | command
  | parameter (quoted : Bool)
  | backquote
  | single
  | double
  deriving DecidableEq, Repr

namespace Nesting

def closer : Nesting → Char
  | command => ')'
  | parameter _ => '\x7d'
  | backquote => '`'
  | single => '\''
  | double => '"'

/-- What a character opens, which may stand behind a dollar sign. Behind backquotes the quotes count
later, when the command is read. -/
def opened (inner : Nesting) (dollar : Bool) (char : Char) : Option Nesting :=
  if inner = backquote then none
  else if char = '(' && (dollar || inner = command) then some command
  else if char = '\x7b' && dollar then some (parameter (inner = double || inner = parameter true))
  else if char = '`' then some backquote
  else if char = '\'' && inner ≠ double then some single
  else if char = '"' then some double
  else none

/-- A comment, a here-document or a case in a command hides what closes it, and so may a single quote
in a quoted parameter. -/
def hides (inner : Nesting) (char : Char) (rest : List Char) : Bool :=
  if inner = command then
    char = '#' || char = '<' && rest.head? = some '<' || "case".toList.isPrefixOf (char :: rest)
  else inner = parameter true && char = '\''

end Nesting

/-- How much of the text an expansion takes, up to where all that is open in it is closed. -/
def closing : Bool → List Nesting → List Char → Option Nat
  | _, [], _ => some 0
  | _, _ :: _, [] => none
  | dollar, inner :: outer, char :: rest =>
    if char = inner.closer then (closing false outer rest).map (· + 1)
    else if inner = .single then (closing false (inner :: outer) rest).map (· + 1)
    else if char = '\\' then
      match rest with
      | [] => none
      | _ :: rest => (closing false (inner :: outer) rest).map (· + 2)
    else if inner.hides char rest then none
    else
      (closing (char = '$' && !dollar)
        (match inner.opened dollar char with
          | some new => new :: inner :: outer
          | none => inner :: outer) rest).map (· + 1)

def isName (char : Char) : Bool :=
  char.isAlphanum || char = '_'

/-- How much an expansion takes behind its first character. A dollar sign alone takes nothing, and
all the parameters at once may be several words. -/
def expansionLength (quoted : Bool) (lead : Char) (rest : List Char) : Option Nat :=
  if lead = '`' then closing false [.backquote] rest
  else
    match rest with
    | [] => some 0
    | char :: inner =>
      if char = '@' || char = '\x7b' && inner.head? = some '@' then none
      else if char = '\x7b' then (closing false [.parameter quoted] inner).map (· + 1)
      else if char = '(' then (closing false [.command] inner).map (· + 1)
      else if char.isDigit || char ∈ "*#?-$!".toList then some 1
      else some (rest.takeWhile isName).length

def expanded (setting : Setting) (quoted : Bool) (lead : Char) (rest : List Char) : Option (List Char × Nat) :=
  (expansionLength quoted lead rest).map fun length =>
    (if length = 0 then [lead] else setting.expansion (lead :: rest.take length), length)

/-- It is neither split into fields nor taken for a pattern. -/
def isWhole (text : List Char) : Bool :=
  text.all fun char => !isGap char && !isPattern char

def push (char : Char) (read : Option (List Char × List Char)) : Option (List Char × List Char) :=
  read.map fun found => (char :: found.1, found.2)

def pushAll (text : List Char) (read : Option (List Char × List Char)) : Option (List Char × List Char) :=
  read.map fun found => (text ++ found.1, found.2)

variable (setting : Setting)

/-- A word without its quotes, and the text behind it. A backslash in front of a newline joins
the lines, and an expansion is skipped once it is replaced. -/
def readWord (patterns : Bool) : Quoting → Nat → List Char → Option (List Char × List Char)
  | .bare, _, [] => some ([], [])
  | .single, _, [] => none
  | .double, _, [] => none
  | quoting, skipped + 1, _ :: rest => readWord patterns quoting skipped rest
  | .bare, 0, char :: rest =>
    if isGap char then some ([], char :: rest)
    else if char = '\'' then readWord patterns .single 0 rest
    else if char = '"' then readWord patterns .double 0 rest
    else if char = '\\' then
      match rest with
      | [] => none
      | next :: rest => if next = '\n' then readWord patterns .bare 0 rest else push next (readWord patterns .bare 0 rest)
    else if expands char then
      match expanded setting false char rest with
      | none => none
      | some (text, length) => if isWhole text then pushAll text (readWord patterns .bare length rest) else none
    else if isOperator char || !patterns && isPattern char then none
    else push char (readWord patterns .bare 0 rest)
  | .single, 0, char :: rest =>
    if char = '\'' then readWord patterns .bare 0 rest else push char (readWord patterns .single 0 rest)
  | .double, 0, char :: rest =>
    if char = '"' then readWord patterns .bare 0 rest
    else if expands char then
      match expanded setting true char rest with
      | none => none
      | some (text, length) => pushAll text (readWord patterns .double length rest)
    else if char = '\\' then
      match rest with
      | [] => none
      | next :: rest =>
        if next = '\n' then readWord patterns .double 0 rest
        else if escapable next then push next (readWord patterns .double 0 rest)
        else push '\\' (push next (readWord patterns .double 0 rest))
    else push char (readWord patterns .double 0 rest)

/-- A word starts here. A number sign would start a comment. -/
def starts : List Char → Bool
  | [] => false
  | char :: _ => !isGap char && char ≠ '#'

/-- The user name behind a tilde, which ends at a slash or with the word. -/
def tildeLength : List Char → Option Nat
  | [] => none
  | char :: rest =>
    let user := rest.takeWhile fun char => isName char || char = '.' || char = '-'
    if char = '~' && (rest.drop user.length).head?.all fun char => char = '/' || isGap char then some user.length
    else none

/-- A word that vanishes with an expansion is not read. -/
def stays (text : List Char) (read : List Char × List Char) : Bool :=
  read.1 ≠ [] || text.head?.any fun char => char = '\'' || char = '"'

def word (patterns : Bool) (text : List Char) : Option (List Char × List Char) :=
  if starts text then
    (match tildeLength text with
      | none => readWord setting patterns .bare 0 text
      | some length =>
        pushAll (setting.home (text.tail.take length)) (readWord setting patterns .bare length text.tail)).filter (stays text)
  else none

/-- An argument of env(1). With a pattern it is read if an equals sign goes before that, for then
every path that matches has the sign. -/
def argument (text : List Char) : Option (List Char × List Char) :=
  (word setting false text).or ((word setting true text).filter fun read => '=' ∈ read.1.takeWhile (!isPattern ·))

/-- An assignment in front of the command word: a name and an equals sign, both unquoted. -/
def assigns (text : List Char) : Bool :=
  let name := text.takeWhile fun char => char.isAlphanum || char = '_'
  name ≠ [] && !(name.head?.any Char.isDigit) && (text.drop name.length).head? = some '='

/-- With one of these a compound command starts. -/
def reserved : List (List Char) :=
  ["!", "\x7b", "\x7d", "case", "do", "done", "elif", "else", "esac", "fi", "for", "if", "in", "then", "until",
    "while"].map String.toList

/-- How far env(1) is with its arguments. A single dash still counts right behind two. -/
inductive EnvPhase where
  | options
  | operands
  | assignments
  deriving DecidableEq, Repr

/-- What env(1) takes a word for. -/
inductive EnvWord where
  | passed (next : EnvPhase)
  | operand
  | command
  deriving DecidableEq, Repr

/-- Letters behind one dash. The last of them may have an operand, in the word or behind it. -/
def envLetters : List Char → Option EnvWord
  | [] => some (.passed .options)
  | char :: rest =>
    if char = 'i' || char = 'v' then envLetters rest
    else if char = 'u' || char = 'C' || char = 'a' then some (if rest = [] then .operand else .passed .options)
    else none

/-- Whether an option takes a value, in the word or behind it, or only in the word. -/
inductive EnvValue where
  | never
  | always
  | sometimes
  | ends
  deriving DecidableEq, Repr

/-- The long options of the GNU utility. Behind the last four there is no command to execute, or it
is in the value. -/
def envOptions : List (List Char × EnvValue) :=
  [("ignore-environment".toList, .never), ("debug".toList, .never), ("list-signal-handling".toList, .never),
    ("unset".toList, .always), ("chdir".toList, .always), ("argv0".toList, .always),
    ("block-signal".toList, .sometimes), ("default-signal".toList, .sometimes), ("ignore-signal".toList, .sometimes),
    ("null".toList, .ends), ("split-string".toList, .ends), ("help".toList, .ends), ("version".toList, .ends)]

/-- A long option may be cut short while no other one begins so. -/
def envLong (text : List Char) : Option EnvWord :=
  let name := text.takeWhile (· ≠ '=')
  let valued := name ≠ text
  match envOptions.filter fun option => name.isPrefixOf option.1 with
  | [(_, .never)] => if valued then none else some (.passed .options)
  | [(_, .always)] => some (if valued then .passed .options else .operand)
  | [(_, .sometimes)] => some (.passed .options)
  | _ => none

/-- The options of the GNU utility that a command may follow. -/
def envOption : List Char → Option EnvWord
  | '-' :: '-' :: [] => some (.passed .operands)
  | '-' :: '-' :: name => envLong name
  | '-' :: [] => some (.passed .assignments)
  | '-' :: letters => envLetters letters
  | _ => none

def envWord (phase : EnvPhase) (text : List Char) : Option EnvWord :=
  if phase = .options ∧ text.head? = some '-' then envOption text
  else if phase = .operands ∧ text = "-".toList then some (.passed .assignments)
  else if '=' ∈ text then some (.passed .assignments)
  else some .command

def skipBlanks (text : List Char) : List Char :=
  text.dropWhile isBlank

/-- The word that env(1) executes. -/
def envCommand : Nat → EnvPhase → List Char → Option (List Char)
  | 0, _, _ => none
  | fuel + 1, phase, text =>
    match argument setting text with
    | none => none
    | some (found, rest) =>
      match envWord phase found with
      | none => none
      | some .command => some found
      | some (.passed next) => envCommand fuel next (skipBlanks rest)
      | some .operand =>
        match word setting false (skipBlanks rest) with
        | none => none
        | some (_, rest) => envCommand fuel phase (skipBlanks rest)

variable (isEnv : List Char → Bool)

/-- The word that the shell executes, behind its own assignments. A pattern in it stands for a path
that ends as the pattern does. -/
def shellCommand : Nat → List Char → Option (List Char)
  | 0, _ => none
  | fuel + 1, text =>
    match word setting true text with
    | none => none
    | some (found, rest) =>
      if assigns text then shellCommand fuel (skipBlanks rest)
      else if found ∈ reserved then none
      else if isEnv found then envCommand setting (rest.length + 1) .options (skipBlanks rest)
      else some found

/-- Lines and blanks in front are skipped. -/
def executed (command : List Char) : Option (List Char) :=
  shellCommand setting isEnv (command.length + 1) (command.dropWhile isGap)

/-- Neither a quote nor anything else that the shell looks for. -/
def isOrdinary (char : Char) : Bool :=
  !isGap char && !isQuote char && !isSpecial char

variable {setting : Setting} {patterns : Bool} {text rest found : List Char} {char : Char}

theorem isSpecial_eq_false (plain : isSpecial char = false) :
    expands char = false ∧ isOperator char = false ∧ isPattern char = false := by
  simp [isSpecial] at plain
  simp [expands, isOperator, isPattern, plain]

theorem readWord_ordinary_cons (ordinary : isOrdinary char = true) :
    readWord setting patterns .bare 0 (char :: rest) = push char (readWord setting patterns .bare 0 rest) := by
  simp only [isOrdinary, Bool.and_eq_true, Bool.not_eq_true'] at ordinary
  obtain ⟨⟨gap, quoted⟩, special⟩ := ordinary
  have apart : char ≠ '\'' ∧ char ≠ '"' ∧ char ≠ '\\' := by simpa [isQuote] using quoted
  obtain ⟨literal, operator, pattern⟩ := isSpecial_eq_false special
  rw [readWord.eq_def]
  simp only [gap, apart.1, apart.2.1, apart.2.2, literal, operator, pattern, Bool.and_false, Bool.or_false,
    Bool.false_eq_true, if_false]

/-- A word without a tilde is what is read of it. -/
theorem word_eq (begins : starts text = true) (plain : tildeLength text = none)
    (read : readWord setting patterns .bare 0 text = some (found, rest)) (some_ : found ≠ []) :
    word setting patterns text = some (found, rest) := by
  simp only [word, begins, plain, read, if_true, Option.filter_some, stays, some_, ne_eq, not_false_eq_true,
    decide_true, Bool.true_or]

theorem tildeLength_head {length : Nat} (found : tildeLength text = some length) : ∃ tail, text = '~' :: tail := by
  cases text with
  | nil => cases found
  | cons char tail =>
    simp only [tildeLength, Option.ite_none_right_eq_some, Bool.and_eq_true, decide_eq_true_eq] at found
    exact ⟨tail, by rw [found.1.1]⟩

theorem argument_eq (read : word setting false text = some (found, rest)) : argument setting text = some (found, rest) := by
  rw [argument, read, Option.some_or]

end Shell

/-! ### Lists of simple commands -/

namespace Shell

inductive Operator where
  | and
  | or
  | sequence
  | pipe
  | background
  | newline
  deriving DecidableEq, Repr

def Operator.text : Operator → List Char
  | .and => ['&', '&']
  | .or => ['|', '|']
  | .sequence => [';']
  | .pipe => ['|']
  | .background => ['&']
  | .newline => ['\n']

/-- What the shell takes a part of the text for. -/
inductive Cell where
  | blank (char : Char)
  | plain (char : Char)
  | mark (char : Char)
  | quoted (char : Char)
  | operator (kind : Operator)
  deriving DecidableEq, Repr

namespace Cell

def raw : Cell → List Char
  | .blank char | .plain char | .mark char | .quoted char => [char]
  | .operator kind => kind.text

/-- What is left once the quotation marks are gone. -/
def value? : Cell → Option Char
  | .plain char | .quoted char => some char
  | .blank _ | .mark _ | .operator _ => none

def isBlank : Cell → Bool
  | .blank _ => true
  | _ => false

/-- The operators that a background command or a line ends with. -/
def joins : Cell → Bool
  | .operator .background | .operator .newline => true
  | _ => false

/-- The other operators. -/
def separates : Cell → Bool
  | .operator .and | .operator .or | .operator .sequence | .operator .pipe => true
  | _ => false

end Cell

def rawText (cells : List Cell) : List Char :=
  cells.flatMap Cell.raw

def prepend (cell : Cell) (read : Option (List Cell)) : Option (List Cell) :=
  read.map (cell :: ·)

/-- The cells of a text. A word starts where the flag is set. -/
def lex : Quoting → Bool → List Char → Option (List Cell)
  | .bare, _, [] => some []
  | .single, _, [] => none
  | .double, _, [] => none
  | .bare, _, '&' :: '&' :: rest => prepend (.operator .and) (lex .bare true rest)
  | .bare, _, '|' :: '|' :: rest => prepend (.operator .or) (lex .bare true rest)
  | .bare, fresh, char :: rest =>
    if char = ';' then prepend (.operator .sequence) (lex .bare true rest)
    else if char = '|' then prepend (.operator .pipe) (lex .bare true rest)
    else if char = '&' then prepend (.operator .background) (lex .bare true rest)
    else if char = '\n' then prepend (.operator .newline) (lex .bare true rest)
    else if isBlank char then prepend (.blank char) (lex .bare true rest)
    else if char = '\'' then prepend (.mark char) (lex .single false rest)
    else if char = '"' then prepend (.mark char) (lex .double false rest)
    else if char = '\\' || isSpecial char || fresh && char = '#' then none
    else prepend (.plain char) (lex .bare false rest)
  | .single, _, char :: rest =>
    if char = '\'' then prepend (.mark char) (lex .bare false rest)
    else prepend (.quoted char) (lex .single false rest)
  | .double, _, char :: rest =>
    if char = '"' then prepend (.mark char) (lex .bare false rest)
    else if expands char || char = '\\' then none
    else prepend (.quoted char) (lex .double false rest)

/-- A text that can be read. -/
structure Script where
  text : List Char
  cells : List Cell
  reads : lex .bare true text = some cells

/-- The cells between blanks. -/
def words (cells : List Cell) : List (List Cell) :=
  (cells.splitOnP Cell.isBlank).filter (· ≠ [])

def value (word : List Cell) : List Char :=
  word.filterMap Cell.value?

/-- The arguments of a simple command, behind its assignments. -/
def arguments (command : List (List Cell)) : List (List Char) :=
  (command.dropWhile fun word => assigns (rawText word)).map value

/-- What stands between `&&`, `||`, `;` and `|`. -/
def Script.stretches (script : Script) : List (List Cell) :=
  script.cells.splitOnP Cell.separates

/-- The simple commands of a stretch, each with its words. -/
def simpleCommands (stretch : List Cell) : List (List (List Cell)) :=
  ((stretch.splitOnP Cell.joins).map words).filter (· ≠ [])

variable {quoting : Quoting} {fresh : Bool} {text : List Char} {cells : List Cell}

theorem prepend_eq_some {cell : Cell} {read : Option (List Cell)} (found : prepend cell read = some cells) :
    ∃ rest, read = some rest ∧ cells = cell :: rest := by
  obtain ⟨rest, held, rfl⟩ := Option.map_eq_some_iff.mp found
  exact ⟨rest, held, rfl⟩

theorem rawText_prepend {cell : Cell} {read : Option (List Cell)} (ih : ∀ {cells}, read = some cells → rawText cells = text)
    (found : prepend cell read = some cells) : rawText cells = cell.raw ++ text := by
  obtain ⟨rest, held, rfl⟩ := prepend_eq_some found
  rw [rawText, List.flatMap_cons, ← rawText, ih held]

/-- The cells are the text. -/
theorem rawText_of_lex (read : lex quoting fresh text = some cells) : rawText cells = text := by
  fun_induction lex quoting fresh text generalizing cells with
  | case1 =>
    cases read
    rfl
  | case2 | case3 | case13 | case18 => cases read
  | case4 | case5 | case6 | case7 | case8 | case9 | case10 | case11 | case12 | case14 | case15 | case16 | case17
  | case19 =>
    rename_i ih
    exact rawText_prepend ih read

end Shell

end Foundation
