import Wisphive.ConfigTransactions
import Wisphive.Foundation.JsonMembers
import Wisphive.Proofs.AlwaysAllow

/-! However the writers of the policy files overlap, fail and die, the files are what the
finished updates make of them one after the other. -/

namespace Wisphive.ConfigTransaction
open Foundation Section

variable {platform : HookPlatform} {files before after : PolicyFiles} {writer : ConfigWriter} {write : PolicyWrite}

theorem parsed_parsed (file : StoredFile) : file.parsed.parsed = file.parsed := by
  cases read : file.read with
  | contents value =>
    have again : (value.map Json.lastWins).map Json.lastWins = value.map Json.lastWins := by
      cases value with
      | none => rfl
      | some value => exact congrArg some (Json.lastWins_of_distinct _ (Json.distinct_lastWins value))
    simp only [StoredFile.parsed, read, again]
  | _ => simp only [StoredFile.parsed, read]

theorem parsed_parsed_files (files : PolicyFiles) : files.parsed.parsed = files.parsed := by
  simp only [PolicyFiles.parsed, parsed_parsed]

/-- What a rename leaves depends on what is read of the other file alone. -/
theorem rename_parsed (same : before.parsed = after.parsed) : (write.rename before).parsed = (write.rename after).parsed := by
  simp only [PolicyFiles.parsed, PolicyFiles.mk.injEq] at same
  obtain ⟨uid, config, legacy⟩ := same
  cases write with
  | config file => simp only [PolicyWrite.rename, PolicyFiles.parsed, uid, legacy]
  | legacy file => simp only [PolicyWrite.rename, PolicyFiles.parsed, uid, config]

/-- An update on its own is the transaction in one piece. -/
theorem update_eq (valid : writer.validate platform = .ok ()) : writer.update platform files.parsed =
    ((selectAndEdit files.effectiveUid files.config.parsed files.legacy.parsed writer).map (·.rename files.parsed)).mapError
      .failed := by
  have edits : ∀ edit : Json.Members → Except String Json.Members,
      ((updateJson files.parsed.effectiveUid files.parsed.config edit).map fun config => { files.parsed with config }) =
        ((updateJson files.effectiveUid files.config.parsed edit).map .config).map
          fun write : PolicyWrite => write.rename files.parsed := by
    intro edit
    change (updateJson files.effectiveUid files.config.parsed edit).map _ = _
    cases updateJson files.effectiveUid files.config.parsed edit <;> rfl
  unfold ConfigWriter.update
  rw [valid]
  cases writer with
  | alwaysAllow toolName =>
    dsimp only
    refine congrArg (Except.mapError UpdateRefusal.failed) ?_
    unfold persistAutoApprove selectAndEdit
    cases read : files.config.parsed.read with
    | notFound =>
      simp only [PolicyFiles.parsed, read]
      cases allowLegacyTool files.effectiveUid files.legacy.parsed toolName <;> rfl
    | _ =>
      simp only [PolicyFiles.parsed, read]
      exact edits (allowTool toolName)
  | _ => exact congrArg (Except.mapError UpdateRefusal.failed) (edits _)

/-! ### Runs -/

/-- The updates of a list, one after the other. -/
def replay (platform : HookPlatform) (files : PolicyFiles) (writers : List ConfigWriter) : Except UpdateRefusal PolicyFiles :=
  writers.foldlM (fun files writer => writer.update platform files.parsed) files

/-- The files read as if the updates had come one after the other. -/
def Replayed (files : PolicyFiles) (commits : List (ConfigRequest platform × Unit)) (shared : PolicyFiles) : Prop :=
  ∃ stored, replay platform files (commits.map (·.1.writer)) = .ok stored ∧ shared.parsed = stored.parsed

/-- What a transaction is about to write was computed from the files as they are. -/
def Computed (request : ConfigRequest platform) (shared : PolicyFiles) : Place → Prop
  | .read writer => writer = request.writer
  | .writeTemp write | .rename write =>
    selectAndEdit shared.effectiveUid shared.config.parsed shared.legacy.parsed request.writer = .ok write

theorem Replayed.commit {commits : List (ConfigRequest platform × Unit)} {shared : PolicyFiles}
    (replayed : Replayed files commits shared) {request : ConfigRequest platform}
    (computed : Computed request shared (.rename write)) : Replayed files (commits ++ [(request, ())]) (write.rename shared) := by
  obtain ⟨stored, ran, same⟩ := replayed
  refine ⟨write.rename shared.parsed, ?_, rename_parsed (parsed_parsed_files shared).symm⟩
  have updated : request.writer.update platform stored.parsed = .ok (write.rename shared.parsed) := by
    rw [← same, update_eq request.valid, computed]
    rfl
  rw [replay] at ran ⊢
  rw [List.map_append, List.foldlM_append, ran]
  change request.writer.update platform stored.parsed >>= pure = _
  rw [updated]
  rfl

theorem keeps (platform : HookPlatform) (files : PolicyFiles) : (transaction platform).Keeps .none (Replayed files)
    (fun request place commits shared => Replayed files commits shared ∧ Computed request shared place) fun _ => True where
  enters _ replayed := ⟨replayed, rfl⟩
  cut _ inside := inside.1
  io := trivial
  advances := by
    rintro request place commits shared fault - ⟨replayed, computed⟩
    cases fault with
    | true => exact ⟨replayed, trivial⟩
    | false =>
      cases place with
      | read writer =>
        obtain rfl : writer = request.writer := computed
        simp only [transaction]
        split
        · next accepted => exact ⟨replayed, accepted⟩
        · exact ⟨replayed, trivial⟩
      | writeTemp write => exact ⟨replayed, computed⟩
      | rename write => exact replayed.commit computed

abbrev Run (platform : HookPlatform) :=
  State PolicyFiles (ConfigRequest platform) Place Unit ConfigUpdateError

theorem kept {run : Run platform} (reached : ((transaction platform).machine files).Reachable Machine.free run) :
    Kept (.none : Limits _ _ Bool) (Replayed files)
      (fun request place commits shared => Replayed files commits shared ∧ Computed request shared place) (fun _ => True) run :=
  Kept.reached (keeps platform files) ⟨files, rfl, rfl⟩ (reachable_none reached)

/-- However updates overlap, fail and die, the files read as if those that were committed had
come one after the other, in an order that only grows. An update is told to have succeeded
exactly if it is one of them. -/
theorem config_updates_serial {run later : Run platform} {events : List (Event (ConfigRequest platform) Bool)}
    (reached : ((transaction platform).machine files).Reachable Machine.free run)
    (taken : ((transaction platform).machine files).run Machine.free run events = some later) :
    Replayed files (later.committed.map Prod.snd) later.shared ∧ run.committed <+: later.committed ∧
      (later.committed.map Prod.fst).Nodup ∧
      ∀ call result, (call, result) ∈ run.results → (result.isOk = true ↔ call ∈ run.committed.map Prod.fst) := by
  have before := kept reached
  have after := kept (reached.run taken)
  refine ⟨after.good_throughout (keeps platform files) fun _ => trivial, run_committed taken, after.orderly.sound.once,
    fun call result member => ?_⟩
  exact (before.orderly.sound.told call _ (List.mem_map_of_mem member)).1

/-- While an update is in flight, one of those in flight can go on, whatever has failed or died before. -/
theorem config_updates_live {run : Run platform} {worker : Worker}
    (reached : ((transaction platform).machine files).Reachable Machine.free run) (flies : run.phases worker ≠ .idle) :
    ∃ event, event.onward = true ∧ ((transaction platform).step run event).isSome = true :=
  (kept reached).orderly.live false flies

def noFile : StoredFile :=
  { kind := .regular, owner := 501, mode := 0o600, read := .notFound }

def noFiles : PolicyFiles :=
  { effectiveUid := 501, config := noFile, legacy := noFile }

def allowBash : ConfigRequest HookPolicy.asciiHost :=
  ⟨.alwaysAllow "Bash", rfl⟩

def raiseLevel : ConfigRequest HookPolicy.asciiHost :=
  ⟨.tui (.autoApproveLevel .write), rfl⟩

/-- A daemon dies right behind its rename while the terminal UI waits for the lock. -/
def overlap : List (Event (ConfigRequest HookPolicy.asciiHost) Bool) :=
  let daemon : Worker := ⟨1, 0⟩
  let tui : Worker := ⟨2, 0⟩
  [.call daemon allowBash, .enter daemon, .take daemon, .call tui raiseLevel, .enter tui, .advance daemon false,
    .advance daemon false, .advance daemon false, .kill 1, .take tui, .advance tui false, .advance tui false,
    .advance tui false, .unlock tui, .leave tui]

theorem overlap_commits :
    (((transaction HookPolicy.asciiHost).machine noFiles).run Machine.free
      ((transaction HookPolicy.asciiHost).machine noFiles).start overlap).map (·.committed.map Prod.fst) = some [0, 1] := by
  decide +kernel

theorem config_updates_serial_overlap :
    ∃ later : Run HookPolicy.asciiHost, later.committed.map Prod.fst = [0, 1] ∧
      Replayed noFiles (later.committed.map Prod.snd) later.shared := by
  obtain ⟨later, taken, both⟩ := Option.map_eq_some_iff.mp overlap_commits
  exact ⟨later, both, (config_updates_serial .start taken).1⟩

theorem overlap_waits :
    (((transaction HookPolicy.asciiHost).machine noFiles).run Machine.free
      ((transaction HookPolicy.asciiHost).machine noFiles).start (overlap.take 9)).map (fun run => (run.phases ⟨2, 0⟩).guards) =
      some true := by
  decide +kernel

/-- The terminal UI goes on behind the dead daemon. -/
theorem config_updates_live_overlap :
    ∃ run : Run HookPolicy.asciiHost, (run.phases ⟨2, 0⟩).guards = true ∧
      ∃ event, event.onward = true ∧ ((transaction HookPolicy.asciiHost).step run event).isSome = true := by
  obtain ⟨run, taken, waits⟩ := Option.map_eq_some_iff.mp overlap_waits
  have flies : run.phases ⟨2, 0⟩ ≠ .idle := by
    intro idle
    rw [idle] at waits
    exact absurd waits Bool.false_ne_true
  exact ⟨run, waits, config_updates_live (Machine.Reachable.start.run taken) flies⟩

end Wisphive.ConfigTransaction
