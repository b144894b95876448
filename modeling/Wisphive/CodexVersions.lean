import Wisphive.CodexPlugins
import Wisphive.Foundation.GluedOrder
import Wisphive.Foundation.SemVer

/-! What the order of the plugin versions is meant to be: the precedence of semantic versions,
refined by their build metadata. -/

namespace Wisphive.CodexHost
open Foundation

namespace ParsedCodexSemver

/-- The version without its build metadata. -/
def version (parsed : ParsedCodexSemver) : SemVer.Version where
  major := parsed.major
  minor := parsed.minor
  patch := parsed.patch
  prerelease := parsed.pre.map fun pre => (pre.splitOn '.').map SemVer.read

/-- The numbers of the core are machine integers. -/
def Fits (parsed : ParsedCodexSemver) : Prop :=
  parsed.major < 2 ^ 64 ∧ parsed.minor < 2 ^ 64 ∧ parsed.patch < 2 ^ 64

instance (parsed : ParsedCodexSemver) : Decidable parsed.Fits :=
  inferInstanceAs (Decidable (_ ∧ _))

/-- Identifiers of build metadata that are alike as identifiers differ by their leading zeros. -/
def buildIdentifierOrder : List Char → List Char → Ordering :=
  compareLex (compareOn SemVer.read) (compareOn List.length)

/-- Metadata is above none. -/
def buildOrder : Option (List Char) → Option (List Char) → Ordering :=
  SemVer.partOrder .lt fun left right => List.compareLex buildIdentifierOrder (left.splitOn '.') (right.splitOn '.')

def order (left right : ParsedCodexSemver) : Ordering :=
  (SemVer.precedence left.version right.version).then (buildOrder left.build right.build)

end ParsedCodexSemver

/-- A numeral without leading zeros. -/
def IsNumeral (text : List Char) : Prop :=
  text ≠ [] ∧ text.all Char.isDigit = true ∧ (text = ['0'] ∨ text.head? ≠ some '0')

/-- A part behind its mark. -/
def marked (mark : Char) : Option (List Char) → List Char
  | none => []
  | some part => mark :: part

/-- The grammar of semantic versions. Its numbers have no bound. -/
structure IsSemver (version : String) (parsed : ParsedCodexSemver) : Prop where
  core : ∃ major minor patch, IsNumeral major ∧ IsNumeral minor ∧ IsNumeral patch ∧
    parsed.major = SemVer.decimal major ∧ parsed.minor = SemVer.decimal minor ∧ parsed.patch = SemVer.decimal patch ∧
    version.toList = ['.'].intercalate [major, minor, patch] ++ marked '-' parsed.pre ++ marked '+' parsed.build
  pre : ∀ pre ∈ parsed.pre, validSemverIdentifiers true pre = true
  build : ∀ build ∈ parsed.build, validSemverIdentifiers false build = true

/-- Wherever another name stands between two semantic versions, these are ordered as their texts
are. -/
def VersionsAgree (versions : List String) : Prop :=
  GluedOrder.Agrees parseCodexSemver ParsedCodexSemver.order compare versions

end Wisphive.CodexHost
