import Wisphive.ConfigUpdates
import Wisphive.Foundation.Sections

/-! The writers of the policy files at work at the same time, in several processes. Each
reads, edits and replaces a file under the lock beside the configuration. -/

namespace Wisphive
open Foundation

/-- A writer that has not refused its own request. -/
structure ConfigRequest (platform : HookPlatform) where
  writer : ConfigWriter
  valid : writer.validate platform = .ok ()

/-- The file that a transaction replaces. -/
inductive PolicyWrite where
  | config (file : StoredFile)
  | legacy (file : StoredFile)

def PolicyWrite.rename (files : PolicyFiles) : PolicyWrite → PolicyFiles
  | .config file => { files with config := file }
  | .legacy file => { files with legacy := file }

namespace ConfigTransaction

/-- An Always Allow that finds no configuration goes to the legacy file. -/
def selectAndEdit (effectiveUid : Nat) (config legacy : StoredFile) (writer : ConfigWriter) :
    Except ConfigUpdateError PolicyWrite :=
  match writer, config.read with
  | .alwaysAllow toolName, .notFound => (allowLegacyTool effectiveUid legacy toolName).map .legacy
  | _, _ => (updateJson effectiveUid config (writer.edit ·)).map .config

/-- The system calls of a transaction. The temporary file is complete before the rename. -/
inductive Place where
  | read (writer : ConfigWriter)
  | writeTemp (write : PolicyWrite)
  | rename (write : PolicyWrite)

/-- Every call may fail. -/
def transaction (platform : HookPlatform) : Section PolicyFiles (ConfigRequest platform) Place Unit ConfigUpdateError Bool where
  enter request := .read request.writer
  io := .io
  advance
    | true, _, files => (files, .refuse .io)
    | false, .read writer, files =>
      match selectAndEdit files.effectiveUid files.config.parsed files.legacy.parsed writer with
      | .ok write => (files, .go (.writeTemp write))
      | .error error => (files, .refuse error)
    | false, .writeTemp write, files => (files, .go (.rename write))
    | false, .rename write, files => (write.rename files, .commit ())

end ConfigTransaction
end Wisphive
