import Wisphive.HookPolicy
import Wisphive.Foundation.FileTree

/-! Which paths the hook takes for paths into the state directory: what a path names is
expanded, collapsed lexically, and resolved as far as it exists. -/

namespace Wisphive
open Foundation

abbrev FileName := List Char

/-- The files as the hook finds them, its working directory, and how many links are followed. -/
structure HostFiles where
  tree : FileTree FileName
  cwd : List FileName
  maxLinks : Nat

/-- A path by its names, from the root or from the working directory. -/
structure PathNames where
  rooted : Bool
  names : List FileName
  deriving DecidableEq, Repr

namespace ControlPlane

def stepOf (name : FileName) : Step FileName :=
  if name = ['.'] then .here else if name = ['.', '.'] then .up else .down name

def namesOf (text : String) : PathNames :=
  let (rooted, names) := PathBuf.components ⟨text⟩
  { rooted, names }

/-- What a link with this text leads to. -/
def linkTo (text : String) : Node FileName :=
  .link (namesOf text).rooted ((namesOf text).names.map stepOf)

/-- A rooted path takes the place of the base. -/
def joinNames (base : PathNames) (path : PathNames) : PathNames :=
  if path.rooted then path else { base with names := base.names ++ path.names }

/-- Every component has to exist, and links are followed. The empty path is none. -/
def canonicalize (host : HostFiles) (path : PathNames) : Option (List FileName) :=
  if !path.rooted && path.names.isEmpty then none
  else host.tree.walk false host.maxLinks (if path.rooted then [] else host.cwd) (path.names.map stepOf)

/-- `.` and `..` are collapsed without a look at the files. -/
def lexicalNormalize (path : PathNames) : PathNames :=
  { path with names := FileTree.collapse [] (path.names.map stepOf) }

/-- The names of the path from the last, and those already taken off. -/
def longestExisting (host : HostFiles) (rooted : Bool) : List FileName → List FileName → Option (List FileName)
  | [], suffix => (canonicalize host { rooted, names := [] }).map (· ++ suffix)
  | name :: parent, suffix =>
    match canonicalize host { rooted, names := (name :: parent).reverse } with
    | some canonical => some (canonical ++ suffix)
    | none => longestExisting host rooted parent (name :: suffix)

/-- The deepest ancestor that exists is resolved, and the rest is appended. -/
def resolveExistingAncestor (host : HostFiles) (path : PathNames) : PathNames :=
  match longestExisting host path.rooted path.names.reverse [] with
  | some names => { rooted := true, names }
  | none => path

def stripPrefix (start text : List Char) : Option String :=
  if start.isPrefixOf text then some (String.ofList (text.drop start.length)) else none

/-- The home is the parent of the state directory. -/
def expand (raw : String) (dir : PathNames) : PathNames :=
  let home := { dir with names := dir.names.dropLast }
  let inHome := (stripPrefix "~/".toList raw.toList).or <|
    (stripPrefix "$\x7bHOME\x7d/".toList raw.toList).or (stripPrefix "$HOME/".toList raw.toList)
  if raw = "~" then home
  else
    match inHome with
    | some rest => joinNames home (namesOf rest)
    | none => namesOf raw

/-- Whether a path that a tool names lies in the state directory. -/
def pathInDir (host : HostFiles) (raw : String) (dir : PathNames) : Bool :=
  let target := resolveExistingAncestor host (lexicalNormalize (expand raw dir))
  let dirResolved : PathNames :=
    match canonicalize host dir with
    | some names => { rooted := true, names }
    | none => dir
  target.rooted == dirResolved.rooted && dirResolved.names.isPrefixOf target.names

/-- Where the operating system comes out when it opens the path to write, links before what
follows them. What is missing at the end is created. -/
def openedAt (host : HostFiles) (path : PathNames) : Option (List FileName) :=
  host.tree.walk true host.maxLinks (if path.rooted then [] else host.cwd) (path.names.map stepOf)

/-- Every step up comes out where the names are without their last one, and every link on the
way leads somewhere. The names are those that are left of the path so far. -/
def direct (host : HostFiles) : List FileName → List (Step FileName) → Bool
  | _, [] => true
  | names, .here :: rest => direct host names rest
  | names, .up :: rest =>
    ((canonicalize host { rooted := true, names }).all fun place =>
      canonicalize host { rooted := true, names := names.dropLast } = some place.dropLast) &&
      direct host names.dropLast rest
  | names, .down name :: rest =>
    ((canonicalize host { rooted := true, names }).all fun place =>
      match host.tree.node (place ++ [name]) with
      | some (.link ..) => (canonicalize host { rooted := true, names := names ++ [name] }).isSome
      | _ => true) &&
      direct host (names ++ [name]) rest

end ControlPlane
end Wisphive
