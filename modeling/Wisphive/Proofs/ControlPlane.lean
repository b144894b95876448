import Wisphive.ControlPlane
import Wisphive.Proofs.HookPolicy
import Mathlib.Data.List.Induction

/-! A path that is opened inside the state directory is taken for one. The hook collapses the
path first and resolves what is left of it, so the two agree where collapsing loses nothing. -/

namespace Wisphive.ControlPlane
open Foundation FileTree

variable {host : HostFiles} {stack names : List FileName} {raw : List (Step FileName)}
  {current place reached root : List FileName} {links more : Nat}

/-- The names lead down, each by itself. -/
def Downward (names : List FileName) : Prop := ∀ name ∈ names, stepOf name = .down name

theorem Downward.steps (down : Downward names) : names.map stepOf = names.map Step.down :=
  List.map_congr_left down

theorem stepOf_down {name other : FileName} (down : stepOf name = .down other) : stepOf other = .down other := by
  have same : name = other := by
    unfold stepOf at down
    split at down
    · cases down
    · split at down
      · cases down
      · exact Step.down.inj down
  exact same ▸ down

theorem Downward.last {name : FileName} (down : Downward stack) (itself : stepOf name = .down name) :
    Downward (stack ++ [name]) := fun other member => by
  rcases List.mem_append.mp member with before | last
  · exact down other before
  · rw [List.mem_singleton.mp last]
    exact itself

theorem Downward.dropLast (down : Downward stack) : Downward stack.dropLast := fun name member =>
  down name (List.dropLast_subset _ member)

theorem canonicalize_rooted (down : Downward names) :
    canonicalize host { rooted := true, names } = host.tree.walk false host.maxLinks [] (names.map .down) := by
  rw [← down.steps]
  rfl

theorem canonicalize_resolves (down : Downward names) (found : canonicalize host { rooted := true, names } = some place) :
    ∃ links, links ≤ host.maxLinks ∧ Resolves host.tree false links [] (names.map .down) place :=
  walk_resolves ((canonicalize_rooted down).symm.trans found)

theorem canonicalize_of_resolves (down : Downward names)
    (found : Resolves host.tree false links [] (names.map .down) place) (bound : links ≤ host.maxLinks) :
    canonicalize host { rooted := true, names } = some place :=
  (canonicalize_rooted down).trans (found.walk bound)

theorem longestExisting_found {suffix : List FileName}
    (found : canonicalize host { rooted := true, names } = some place) :
    longestExisting host true names.reverse suffix = some (place ++ suffix) := by
  rw [← List.reverse_reverse names] at found
  cases reversed : names.reverse with
  | nil =>
    rw [reversed, List.reverse_nil] at found
    rw [longestExisting, found, Option.map_some]
  | cons name parent =>
    rw [reversed] at found
    rw [longestExisting, found]

theorem longestExisting_above {name : FileName} {suffix : List FileName}
    (missing : canonicalize host { rooted := true, names := names ++ [name] } = none) :
    longestExisting host true (names ++ [name]).reverse suffix = longestExisting host true names.reverse (name :: suffix) := by
  have turned : (names ++ [name]).reverse = name :: names.reverse := by rw [List.reverse_append]; rfl
  have back : names ++ [name] = (name :: names.reverse).reverse := by rw [← turned, List.reverse_reverse]
  rw [back] at missing
  rw [turned, longestExisting, missing]

/-- What exists is resolved, and the missing names stay behind it. -/
theorem longestExisting_missing (extra suffix : List FileName)
    (exists_ : canonicalize host { rooted := true, names := stack } = some place)
    (missing : ∀ first rest, extra = first ++ rest → first ≠ [] →
      canonicalize host { rooted := true, names := stack ++ first } = none) :
    longestExisting host true (stack ++ extra).reverse suffix = some (place ++ (extra ++ suffix)) := by
  induction extra using List.reverseRecOn generalizing suffix with
  | nil =>
    rw [List.append_nil]
    exact longestExisting_found exists_
  | append_singleton extra name ih =>
    have gone := missing (extra ++ [name]) [] (List.append_nil _).symm (List.append_ne_nil_of_right_ne_nil _ (List.cons_ne_nil _ _))
    rw [← List.append_assoc] at gone ⊢
    rw [longestExisting_above gone, List.append_assoc, List.singleton_append]
    refine ih (name :: suffix) fun first rest shape => missing first (rest ++ [name]) ?_
    rw [shape, List.append_assoc]

theorem resolveExistingAncestor_missing (extra : List FileName)
    (exists_ : canonicalize host { rooted := true, names := stack } = some place)
    (missing : ∀ first rest, extra = first ++ rest → first ≠ [] →
      canonicalize host { rooted := true, names := stack ++ first } = none) :
    resolveExistingAncestor host { rooted := true, names := stack ++ extra } = { rooted := true, names := place ++ extra } := by
  rw [resolveExistingAncestor, longestExisting_missing extra [] exists_ missing, List.append_nil]

/-- Behind the place to which the names lead, nothing exists under a name that is missing there. -/
theorem canonicalize_missing {name : FileName} {first : List FileName} (down : Downward (stack ++ name :: first))
    (before : Resolves host.tree false links [] (stack.map .down) current)
    (absent : host.tree.node (current ++ [name]) = none) :
    canonicalize host { rooted := true, names := stack ++ name :: first } = none := by
  rw [Option.eq_none_iff_forall_ne_some]
  intro place found
  obtain ⟨_, _, whole⟩ := canonicalize_resolves down found
  rw [List.map_append] at whole
  obtain ⟨_, _, behind, _⟩ := before.follow host.tree.root whole
  exact Bool.false_ne_true (behind.at_missing absent).1

/-- Without its last name, a path leads over no more links. -/
theorem resolves_dropLast (down : Downward stack) (before : Resolves host.tree false links [] (stack.map .down) current)
    (bound : links ≤ host.maxLinks) (above : canonicalize host { rooted := true, names := stack.dropLast } = some place) :
    ∃ fewer, fewer ≤ links ∧ Resolves host.tree false fewer [] (stack.dropLast.map .down) place := by
  rcases List.eq_nil_or_concat stack with rfl | ⟨parent, last, rfl⟩
  · cases before
    have found := canonicalize_of_resolves down (.done []) bound
    rw [List.dropLast_nil, found, Option.some.injEq] at above
    exact ⟨0, Nat.le_refl _, above ▸ .done []⟩
  · rw [List.concat_eq_append] at *
    rw [List.dropLast_concat] at above ⊢
    rw [List.map_append] at before
    obtain ⟨early, late, middle, sum, first, _⟩ := before.split
    have kept : Downward parent := fun name member => down name (List.mem_append_left _ member)
    have found := canonicalize_of_resolves kept first (by omega)
    rw [above, Option.some.injEq] at found
    exact ⟨early, by omega, found ▸ first⟩

/-- Where the steps come out is where the hook looks, from a place to which the names on its
stack lead. The names that are taken off again are links to nowhere else. -/
theorem resolves_direct (down : Downward stack) (named : ∀ name, .down name ∈ raw → stepOf name = .down name)
    (straight : direct host stack raw = true)
    (before : Resolves host.tree false links [] (stack.map .down) current)
    (opens : raw ≠ [] → host.tree.node current = some .directory)
    (whole : Resolves host.tree true more current raw reached) (bound : links + more ≤ host.maxLinks) :
    resolveExistingAncestor host { rooted := true, names := collapse stack raw } = { rooted := true, names := reached } := by
  induction raw generalizing stack current links more with
  | nil =>
    cases whole
    have here := canonicalize_of_resolves down before (Nat.le_of_add_right_le bound)
    have found := resolveExistingAncestor_missing [] here fun first rest shape some =>
      absurd (List.append_eq_nil_iff.mp shape.symm).1 some
    rwa [List.append_nil, List.append_nil] at found
  | cons step rest ih =>
    have open_ := opens (List.cons_ne_nil _ _)
    have enters : host.tree.node current ≠ some .file := by
      intro closed
      cases open_.symm.trans closed
    have later : ∀ name, .down name ∈ rest → stepOf name = .down name := fun name member =>
      named name (List.mem_cons_of_mem _ member)
    cases step with
    | here =>
      cases whole with
      | here whole => exact ih down later straight before (fun _ => open_) whole bound
    | up =>
      cases whole with
      | up whole =>
        rw [direct, Bool.and_eq_true] at straight
        have found := canonicalize_of_resolves down before (Nat.le_of_add_right_le bound)
        have above := straight.1
        rw [found, Option.all_some, decide_eq_true_eq] at above
        obtain ⟨_, fewer, left⟩ := resolves_dropLast down before (Nat.le_of_add_right_le bound) above
        exact ih down.dropLast later straight.2 left (fun _ => directory_dropLast open_) whole (by omega)
    | down name =>
      have itself := named name List.mem_cons_self
      have onward := down.last itself
      have single : (stack ++ [name]).map Step.down = stack.map .down ++ [.down name] := List.map_append
      rw [direct, Bool.and_eq_true] at straight
      rw [collapse]
      cases node : host.tree.node (current ++ [name]) with
      | none =>
        obtain ⟨_, names, tail, rfl⟩ := whole.at_missing node
        have found := canonicalize_of_resolves down before (Nat.le_of_add_right_le bound)
        rw [collapse_plain tail, List.append_assoc, List.singleton_append]
        refine resolveExistingAncestor_missing (name :: names) found fun first rest shape some => ?_
        obtain ⟨first, rfl⟩ : ∃ more, first = name :: more := by
          cases first with
          | nil => exact absurd rfl some
          | cons other more => exact ⟨more, by rw [(List.cons.inj shape).1]⟩
        refine canonicalize_missing (fun other member => ?_) before node
        rcases List.mem_append.mp member with old | new
        · exact down other old
        · refine named other ?_
          rw [plain_map tail, ← List.map_cons]
          exact List.mem_map_of_mem (shape ▸ List.mem_append_left _ new)
      | some found =>
        cases found with
        | directory =>
          refine ih onward later straight.2 ?_ (fun _ => node) (whole.at_directory node) bound
          rw [single, ← Nat.add_zero links]
          exact before.append enters (.directory node (.done _))
        | file =>
          obtain ⟨rfl, rfl, rfl⟩ := whole.at_file node
          refine ih onward later straight.2 ?_ (fun some => absurd rfl some) (.done _) bound
          rw [single]
          exact before.append enters (.file node)
        | link rooted target =>
          have found := canonicalize_of_resolves down before (Nat.le_of_add_right_le bound)
          have leads := straight.1
          rw [found, Option.all_some, node] at leads
          obtain ⟨middle, led⟩ := Option.isSome_iff_exists.mp leads
          obtain ⟨_, _, leads⟩ := canonicalize_resolves onward led
          have both := leads
          rw [single] at both
          obtain ⟨beyond, total, behind, _⟩ := before.follow host.tree.root both
          obtain ⟨left, sum, whole, opens⟩ := behind.follow open_ whole
          exact ih onward later straight.2 leads opens whole (by omega)

/-! ### The guard -/

theorem namesOf_rooted {text : String} (absolute : text.toList.head? = some '/') : (namesOf text).rooted = true := by
  unfold namesOf PathBuf.components
  simp only
  repeat' split
  all_goals exact decide_eq_true absolute

theorem stripPrefix_absolute {start text : List Char} (absolute : text.head? = some '/')
    (other : start.head? ≠ some '/') (some_ : start ≠ []) : stripPrefix start text = none := by
  cases text with
  | nil => cases absolute
  | cons first rest =>
    cases start with
    | nil => exact absurd rfl some_
    | cons head tail =>
      have apart : head ≠ first := fun same => other (by rw [same]; exact absolute)
      rw [stripPrefix, List.isPrefixOf, beq_false_of_ne apart, Bool.false_and]
      rfl

/-- A path from the root is taken as it is. -/
theorem expand_absolute {text : String} {dir : PathNames} (absolute : text.toList.head? = some '/') :
    expand text dir = namesOf text := by
  have named : text ≠ "~" := fun same => by
    rw [same] at absolute
    cases absolute
  rw [expand, if_neg named, stripPrefix_absolute absolute (by decide) (by decide),
    stripPrefix_absolute absolute (by decide) (by decide), stripPrefix_absolute absolute (by decide) (by decide)]
  rfl

theorem openedAt_of_canonicalize {path : PathNames} (found : canonicalize host path = some place) :
    openedAt host path = some place := by
  unfold canonicalize at found
  split at found
  · cases found
  · exact walk_creates found

/-- A path from the root comes out where the guard looks for it. -/
theorem target_opened {text : String} (absolute : text.toList.head? = some '/')
    (straight : direct host [] ((namesOf text).names.map stepOf) = true)
    (opened : openedAt host (namesOf text) = some reached) (dir : PathNames) :
    resolveExistingAncestor host (lexicalNormalize (expand text dir)) = { rooted := true, names := reached } := by
  have rooted := namesOf_rooted absolute
  rw [openedAt, rooted] at opened
  obtain ⟨links, bound, whole⟩ := walk_resolves opened
  rw [expand_absolute absolute, lexicalNormalize, rooted]
  refine resolves_direct (fun _ member => absurd member List.not_mem_nil) (fun name member => ?_) straight (.done [])
    (fun _ => host.tree.root) whole (by rwa [Nat.zero_add])
  obtain ⟨_, _, step⟩ := List.mem_map.mp member
  exact stepOf_down step

/-- A file tool's call on the path, at a host whose guard looks into this state directory. -/
structure EditOf (host : HostFiles) (dir : PathNames) (text : String) (platform : HookPlatform) (call : HookCall) : Prop where
  guard : platform.pathInDir text = pathInDir host text dir
  field : (HookPolicy.pathField call.toolName).bind (call.toolInput.get? ·) = some (.string text)

theorem EditOf.reviewed {dir : PathNames} {text : String} {platform : HookPlatform} {config legacy : Option Json}
    {call : HookCall} (edit : EditOf host dir text platform call) (inside : pathInDir host text dir = true)
    (guarded : HookPolicy.allowSelfModification config = false) : HookPolicy.Gated platform config legacy call := by
  have other : call.toolName ≠ "Bash" := fun bash => by
    have field := edit.field
    rw [bash] at field
    cases field
  have targets : HookPolicy.targetsControlPlane platform call.toolName call.toolInput = true := by
    rw [HookPolicy.targetsControlPlane, if_neg other, edit.field]
    exact edit.guard.trans inside
  intro approved
  rw [HookPolicy.locallyApproved_iff, HookPolicy.forceHumanReview, guarded, targets] at approved
  exact absurd approved.2.1 (by decide)

/-- The state directory exists, or goes by its own place. -/
def Placed (host : HostFiles) (dir : PathNames) (root : List FileName) : Prop :=
  canonicalize host dir ≠ none ∨ dir = { rooted := true, names := root }

/-- A direct path from the root that is opened in the state directory is seen there, and no file
tool's call on it is approved without the human. -/
theorem opened_inside_guarded {text : String} {dir : PathNames} (absolute : text.toList.head? = some '/')
    (straight : direct host [] ((namesOf text).names.map stepOf) = true)
    (state : openedAt host dir = some root) (placed : Placed host dir root)
    (opened : openedAt host (namesOf text) = some reached) (inside : root <+: reached) :
    pathInDir host text dir = true ∧
      ∀ platform config legacy call, EditOf host dir text platform call →
        HookPolicy.allowSelfModification config = false → HookPolicy.Gated platform config legacy call := by
  have seen : pathInDir host text dir = true := by
    rw [pathInDir, target_opened absolute straight opened]
    cases found : canonicalize host dir with
    | some names =>
      obtain rfl : names = root := Option.some.inj ((openedAt_of_canonicalize found).symm.trans state)
      exact List.isPrefixOf_iff_prefix.mpr inside
    | none =>
      rw [placed.resolve_left (absurd found)]
      exact List.isPrefixOf_iff_prefix.mpr inside
  exact ⟨seen, fun _ _ _ _ edit guarded => edit.reviewed seen guarded⟩

private def locate (text : String) : List FileName := (namesOf text).names

/-- A home with a state directory and a project, and links to both from outside. -/
private def laptop : HostFiles where
  tree := FileTree.listed
    [(locate "/tmp", .directory), (locate "/home", .directory), (locate "/home/user", .directory),
      (locate "/home/user/proj", .directory), (locate "/home/user/.wisphive", .directory),
      (locate "/home/user/.wisphive/config.json", .file), (locate "/tmp/home", linkTo "/home/user"),
      (locate "/tmp/proj", linkTo "../home/user/proj")]
    (by decide +kernel)
  cwd := locate "/home/user/proj"
  maxLinks := 40

private def stateDir : PathNames := namesOf "/home/user/.wisphive"

private def guardedHost : HookPlatform := { HookPolicy.asciiHost with pathInDir := (pathInDir laptop · stateDir) }

private def writes : Option Json := some (.object [("auto_approve_level", .string "write")])

private def write (path : String) : HookCall where
  eventType := .preToolUse
  toolName := "Write"
  toolInput := .object [("file_path", .string path)]

theorem opened_inside_guarded_link :
    pathInDir laptop "/tmp/home/proj/../.wisphive/config.json" stateDir = true ∧
      ∀ platform config legacy call, EditOf laptop stateDir "/tmp/home/proj/../.wisphive/config.json" platform call →
        HookPolicy.allowSelfModification config = false → HookPolicy.Gated platform config legacy call :=
  opened_inside_guarded (by decide +kernel) (by decide +kernel)
    (by decide +kernel : openedAt laptop stateDir = some (locate "/home/user/.wisphive")) (.inr (by decide +kernel))
    (by decide +kernel : openedAt laptop (namesOf "/tmp/home/proj/../.wisphive/config.json") =
      some (locate "/home/user/.wisphive/config.json")) (by decide +kernel)

/-- The link is taken back by name only, so the path is opened in the home that the link leads to, and
is looked for beside the link. -/
theorem link_taken_back :
    openedAt laptop (namesOf "/tmp/proj/../.wisphive/config.json") = some (locate "/home/user/.wisphive/config.json") ∧
      canonicalize laptop stateDir = some stateDir.names ∧
      stateDir.names <+: locate "/home/user/.wisphive/config.json" ∧
      pathInDir laptop "/tmp/proj/../.wisphive/config.json" stateDir = false ∧
      EditOf laptop stateDir "/tmp/proj/../.wisphive/config.json" guardedHost (write "/tmp/proj/../.wisphive/config.json") ∧
      HookPolicy.runLocally guardedHost writes none (write "/tmp/proj/../.wisphive/config.json") = .approve "level:write" :=
  ⟨by decide +kernel, by decide +kernel, by decide +kernel, by decide +kernel, ⟨by decide +kernel, by decide +kernel⟩,
    by decide +kernel⟩

end Wisphive.ControlPlane
