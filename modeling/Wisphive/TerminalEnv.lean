import Mathlib.Data.List.Sort
import Wisphive.Foundation.Assoc
import Wisphive.Redact

/-! The environment of a terminal session as it is stored for a respawn: values that are no
secrets as they are, secrets by their names only. -/

namespace Wisphive
open Foundation Redact

/-- The variables of an environment. -/
structure EnvMap where
  entries : List (String × String)
  keyed : Assoc.Keyed entries
  deriving DecidableEq

namespace EnvMap

def empty : EnvMap where
  entries := []
  keyed := Assoc.keyed_nil

def get (env : EnvMap) (name : String) : Option String :=
  env.entries.lookup name

def insert (env : EnvMap) (name value : String) : EnvMap where
  entries := Assoc.put env.entries name value
  keyed := env.keyed.put name value

def filter (env : EnvMap) (keeps : String × String → Bool) : EnvMap where
  entries := env.entries.filter keeps
  keyed := env.keyed.filter keeps

end EnvMap

/-- Some probe of the scrubber leaves its marker, in the object of the pair, in the assignment,
or in the value. -/
def envPairIsSecret (name value : String) : Bool :=
  contains (redactValue (.object [(name, .string value)])).renderChars redacted ||
    (contains (redactText (name ++ "=" ++ value)).toList redacted || contains (redactText value).toList redacted)

/-- The variables that are set, and the names whose values come from the daemon. -/
structure TerminalEnvSpec where
  set : EnvMap
  inheritNames : List String
  deriving DecidableEq

namespace TerminalEnvSpec

/-- A variable whose name the scrubber would alter is dropped. -/
def classify (env : EnvMap) : TerminalEnvSpec :=
  let named := env.filter fun entry => redactText entry.1 = entry.1
  { set := named.filter fun entry => !envPairIsSecret entry.1 entry.2
    inheritNames :=
      ((named.filter fun entry => envPairIsSecret entry.1 entry.2).entries.map (·.1)).insertionSort (· ≤ ·) }

/-- There is no spec where every variable was dropped. -/
def fromRequestedEnv (env : EnvMap) : Option TerminalEnvSpec :=
  let spec := classify env
  if spec.set.entries.isEmpty && spec.inheritNames.isEmpty then none else some spec

/-- A name that the daemon lacks is left out. -/
def inherit (daemonEnv out : EnvMap) (name : String) : EnvMap :=
  match daemonEnv.get name with
  | some value => out.insert name value
  | none => out

def materialize (spec : TerminalEnvSpec) (daemonEnv : EnvMap) : EnvMap :=
  spec.inheritNames.foldl (inherit daemonEnv) spec.set

/-- The overrides of a respawn. Without a spec there are none. -/
def respawnEnv (spec : Option TerminalEnvSpec) (daemonEnv : EnvMap) : EnvMap :=
  spec.elim .empty (·.materialize daemonEnv)

end TerminalEnvSpec
end Wisphive
