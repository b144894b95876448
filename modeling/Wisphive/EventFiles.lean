import Wisphive.EventIngest
import Wisphive.Foundation.Lines

/-! Reading the event log and its rotated segments. One loop serves the tail and the
re-import: they part where a statement fails. -/

namespace Wisphive
open Foundation

abbrev Bytes := List UInt8

namespace EventIngest
variable (platform : IngestPlatform)

def newline : UInt8 := 10

def decode (bytes : Bytes) : Option String :=
  String.fromUTF8? ⟨bytes.toArray⟩

/-- Unicode `White_Space`. -/
def isWhitespace (char : Char) : Bool :=
  let code := char.toNat
  (9 ≤ code ∧ code ≤ 13) ∨ (0x2000 ≤ code ∧ code ≤ 0x200a) ∨
    code ∈ [0x20, 0x85, 0xa0, 0x1680, 0x2028, 0x2029, 0x202f, 0x205f, 0x3000]

def trim (line : String) : String :=
  String.ofList (Redact.trimEnd isWhitespace (line.toList.dropWhile isWhitespace))

/-- What a reader makes of a line. A line that is blank, no JSON or no decision is skipped. -/
inductive Reading where
  | invalid
  | skipped
  | decision (text : String) (row : LogRow)
  deriving DecidableEq, Repr

def readLine (line : Bytes) : Reading :=
  match decode line with
  | none => .invalid
  | some text =>
    if trim text = "" then .skipped
    else match AuditRun.lineRow platform (trim text) with
      | none => .skipped
      | some row => .decision (trim text) row

/-- The store behind a read, the decision lines that were accepted, how many lines were
read, and whether the read came to the end. -/
structure Import (Store : Type) where
  store : Store
  accepted : List String
  read : Nat
  ok : Bool
  deriving DecidableEq, Repr

/-- Lines that are no UTF-8 end a read. A failed statement ends a read that aborts, and
loses the line of a read that does not. `faults` says which statements fail. -/
def importLines {Store : Type} (insert : LogRow → Store → Store) (aborts : Bool) :
    List Bytes → List Bool → Store → Import Store
  | [], _, store => { store, accepted := [], read := 0, ok := true }
  | line :: rest, faults, store =>
    match readLine platform line with
    | .invalid => { store, accepted := [], read := 1, ok := false }
    | .skipped =>
      let later := importLines insert aborts rest faults store
      { later with read := later.read + 1 }
    | .decision text row =>
      if faults.headD false then
        if aborts then { store, accepted := [], read := 1, ok := false }
        else
          let later := importLines insert aborts rest faults.tail store
          { later with read := later.read + 1 }
      else
        let later := importLines insert aborts rest faults.tail (insert row store)
        { later with accepted := text :: later.accepted, read := later.read + 1 }

/-- `reimport_all` on the bytes of a file. -/
def reimportAll {Store : Type} (insert : LogRow → Store → Store) (content : Bytes) (faults : List Bool)
    (store : Store) : Import Store :=
  importLines platform insert true (Lines.pieces newline content) faults store

/-- The tail's loop over the bytes behind its position. -/
def readNewLines {Store : Type} (insert : LogRow → Store → Store) (content : Bytes) (faults : List Bool)
    (store : Store) : Import Store :=
  importLines platform insert false (Lines.pieces newline content) faults store

def insertRow (row : LogRow) (log : List LogRow) : List LogRow :=
  (Table.insertOrIgnore LogRow.conflicts log row).2

/-- The decision in a line, if it records one. -/
def lineDecision (line : Bytes) : Option (String × LogRow) :=
  match readLine platform line with
  | .decision text row => some (text, row)
  | .invalid | .skipped => none

def decisions (lines : List Bytes) : List (String × LogRow) :=
  lines.filterMap (lineDecision platform)

def valid (line : Bytes) : Bool :=
  (decode line).isSome

/-- What stands before the first statement that fails. -/
def untilFault {Item : Type} : List Item → List Bool → List Item
  | [], _ => []
  | items, [] => items
  | item :: rest, fault :: later => if fault then [] else item :: untilFault rest later

end EventIngest
end Wisphive
