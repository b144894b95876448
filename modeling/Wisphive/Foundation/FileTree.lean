import Mathlib.Data.List.Basic

/-! Trees of directories, files and symbolic links, and how a path is resolved in one: step by
step, a link before what follows it. -/

namespace Foundation

inductive Step (Name : Type*) where
  | here
  | up
  | down (name : Name)
  deriving DecidableEq, Repr

inductive Node (Name : Type*) where
  | directory
  | file
  | link (rooted : Bool) (target : List (Step Name))
  deriving DecidableEq, Repr

/-- The nodes by their places. What is somewhere is in a directory. -/
structure FileTree (Name : Type*) where
  node : List Name → Option (Node Name)
  root : node [] = some .directory
  parents : ∀ place name, node (place ++ [name]) ≠ none → node place = some .directory

/-- The nodes as they are listed, each with its directory. -/
def FileTree.listed {Name : Type*} [DecidableEq Name] (entries : List (List Name × Node Name))
    (closed : ∀ entry ∈ entries, entry.1.dropLast = [] ∨ entries.find? (·.1 = entry.1.dropLast) = some (entry.1.dropLast, .directory)) :
    FileTree Name where
  node place := if place = [] then some .directory else (entries.find? (·.1 = place)).map (·.2)
  root := if_pos rfl
  parents place name present := by
    rw [if_neg (List.append_ne_nil_of_right_ne_nil _ (List.cons_ne_nil _ _)), ne_eq, Option.map_eq_none_iff] at present
    obtain ⟨entry, found⟩ := Option.ne_none_iff_exists'.mp present
    have same : entry.1 = place ++ [name] := by simpa using List.find?_some found
    have kept := closed entry (List.mem_of_find?_eq_some found)
    rw [same, List.dropLast_concat] at kept
    by_cases top : place = []
    · exact if_pos top
    · rw [if_neg top, kept.resolve_left top, Option.map_some]

namespace FileTree
variable {Name : Type*} (tree : FileTree Name) (create : Bool)

/-- The names, if there is nothing else. -/
def plain : List (Step Name) → Option (List Name)
  | [] => some []
  | .down name :: rest => (plain rest).map (name :: ·)
  | _ => none

/-- The place to which the steps lead. Where a file is created, what is missing at the end of
the path is taken as it is named. -/
def walkWith (follow : List Name → List (Step Name) → Option (List Name)) :
    List Name → List (Step Name) → Option (List Name)
  | place, [] => some place
  | place, .here :: rest => walkWith follow place rest
  | place, .up :: rest => walkWith follow place.dropLast rest
  | place, .down name :: rest =>
    match tree.node (place ++ [name]) with
    | some .directory => walkWith follow (place ++ [name]) rest
    | some .file => if rest.isEmpty then some (place ++ [name]) else none
    | some (.link rooted target) => follow (if rooted then [] else place) (target ++ rest)
    | none => if create then (plain rest).map fun names => place ++ name :: names else none

/-- At most so many links are followed. -/
def walk : Nat → List Name → List (Step Name) → Option (List Name)
  | 0 => walkWith tree create fun _ _ => none
  | links + 1 => walkWith tree create (walk links)

/-- The steps lead to a place over so many links. -/
inductive Resolves : Nat → List Name → List (Step Name) → List Name → Prop where
  | done (place : List Name) : Resolves 0 place [] place
  | here {links : Nat} {place reached : List Name} {rest : List (Step Name)} (later : Resolves links place rest reached) :
      Resolves links place (.here :: rest) reached
  | up {links : Nat} {place reached : List Name} {rest : List (Step Name)}
      (later : Resolves links place.dropLast rest reached) : Resolves links place (.up :: rest) reached
  | directory {links : Nat} {place reached : List Name} {name : Name} {rest : List (Step Name)}
      (found : tree.node (place ++ [name]) = some .directory) (later : Resolves links (place ++ [name]) rest reached) :
      Resolves links place (.down name :: rest) reached
  | file {place : List Name} {name : Name} (found : tree.node (place ++ [name]) = some .file) :
      Resolves 0 place [.down name] (place ++ [name])
  | link {links : Nat} {place reached : List Name} {name : Name} {rooted : Bool} {target rest : List (Step Name)}
      (found : tree.node (place ++ [name]) = some (.link rooted target))
      (later : Resolves links (if rooted then [] else place) (target ++ rest) reached) :
      Resolves (links + 1) place (.down name :: rest) reached
  | missing {place names : List Name} {name : Name} {rest : List (Step Name)}
      (absent : tree.node (place ++ [name]) = none) (creates : create = true) (tail : plain rest = some names) :
      Resolves 0 place (.down name :: rest) (place ++ name :: names)

/-- The lexical collapse: every step up takes the last name with it. -/
def collapse : List Name → List (Step Name) → List Name
  | names, [] => names
  | names, .here :: rest => collapse names rest
  | names, .up :: rest => collapse names.dropLast rest
  | names, .down name :: rest => collapse (names ++ [name]) rest

variable {tree create} {links more limit : Nat} {place reached middle names : List Name} {name : Name}
  {steps rest first second : List (Step Name)}

theorem collapse_plain (tail : plain rest = some names) : collapse place rest = place ++ names := by
  induction rest generalizing place names with
  | nil => rw [collapse, ← Option.some.inj tail, List.append_nil]
  | cons step rest ih =>
    cases step with
    | here | up => cases tail
    | down name =>
      obtain ⟨later, found, rfl⟩ := Option.map_eq_some_iff.mp tail
      rw [collapse, ih found, List.append_assoc, List.singleton_append]

theorem plain_map (tail : plain rest = some names) : rest = names.map Step.down := by
  induction rest generalizing names with
  | nil => rw [← Option.some.inj tail, List.map_nil]
  | cons step rest ih =>
    cases step with
    | here | up => cases tail
    | down name =>
      obtain ⟨later, found, rfl⟩ := Option.map_eq_some_iff.mp tail
      rw [List.map_cons, ← ih found]

/-! ### Walking is resolving -/

theorem walkWith_resolves {follow : List Name → List (Step Name) → Option (List Name)}
    (follows : ∀ place steps, follow place steps = some reached → ∃ links, links < limit ∧ Resolves tree create links place steps reached)
    (found : walkWith tree create follow place steps = some reached) :
    ∃ links, links ≤ limit ∧ Resolves tree create links place steps reached := by
  induction steps generalizing place with
  | nil => exact ⟨0, Nat.zero_le _, Option.some.inj found ▸ .done place⟩
  | cons step rest ih =>
    cases step with
    | here =>
      obtain ⟨links, bound, later⟩ := ih found
      exact ⟨links, bound, .here later⟩
    | up =>
      obtain ⟨links, bound, later⟩ := ih found
      exact ⟨links, bound, .up later⟩
    | down name =>
      rw [walkWith] at found
      split at found
      · next node =>
        obtain ⟨links, bound, later⟩ := ih found
        exact ⟨links, bound, .directory node later⟩
      · next node =>
        rw [Option.ite_none_right_eq_some] at found
        obtain ⟨empty, same⟩ := found
        rw [List.isEmpty_iff] at empty
        rw [empty, ← Option.some.inj same]
        exact ⟨0, Nat.zero_le _, .file node⟩
      · next node =>
        obtain ⟨links, bound, later⟩ := follows _ _ found
        exact ⟨links + 1, bound, .link node later⟩
      · next node =>
        rw [Option.ite_none_right_eq_some] at found
        obtain ⟨creates, named⟩ := found
        obtain ⟨names, tail, rfl⟩ := Option.map_eq_some_iff.mp named
        exact ⟨0, Nat.zero_le _, .missing node creates tail⟩

theorem walk_resolves (found : walk tree create limit place steps = some reached) :
    ∃ links, links ≤ limit ∧ Resolves tree create links place steps reached := by
  induction limit generalizing place steps with
  | zero => exact walkWith_resolves (fun _ _ none => by cases none) found
  | succ limit ih =>
    refine walkWith_resolves (fun place steps later => ?_) found
    obtain ⟨links, bound, resolves⟩ := ih later
    exact ⟨links, Nat.lt_succ_of_le bound, resolves⟩

theorem Resolves.walk (resolves : Resolves tree create links place steps reached) (bound : links ≤ limit) :
    walk tree create limit place steps = some reached := by
  have split : ∀ limit, ∃ follow, FileTree.walk tree create limit = walkWith tree create follow := fun limit => by
    cases limit <;> exact ⟨_, rfl⟩
  induction resolves generalizing limit with
  | done place =>
    obtain ⟨follow, same⟩ := split limit
    rw [same, walkWith]
  | here _ ih | up _ ih =>
    have later := ih bound
    obtain ⟨follow, same⟩ := split limit
    rw [same] at later ⊢
    exact later
  | directory node _ ih =>
    have later := ih bound
    obtain ⟨follow, same⟩ := split limit
    rw [same] at later ⊢
    rw [walkWith, node]
    exact later
  | file node =>
    obtain ⟨follow, same⟩ := split limit
    rw [same, walkWith, node]
    rfl
  | link node _ ih =>
    obtain ⟨limit, rfl⟩ := Nat.exists_eq_add_of_lt (Nat.lt_of_lt_of_le (Nat.succ_pos _) bound)
    rw [Nat.zero_add] at bound ⊢
    rw [FileTree.walk, walkWith, node]
    exact ih (Nat.le_of_succ_le_succ bound)
  | missing node creates tail =>
    obtain ⟨follow, same⟩ := split limit
    rw [same, walkWith, node]
    exact (if_pos creates).trans (by rw [tail, Option.map_some])

/-- What exists leads there also where files are created. -/
theorem Resolves.creates (found : Resolves tree false links place steps reached) :
    Resolves tree create links place steps reached := by
  induction found with
  | done place => exact .done place
  | here _ ih => exact .here ih
  | up _ ih => exact .up ih
  | directory node _ ih => exact .directory node ih
  | file node => exact .file node
  | link node _ ih => exact .link node ih
  | missing _ creates => cases creates

theorem walk_creates (found : walk tree false limit place steps = some reached) :
    walk tree create limit place steps = some reached := by
  obtain ⟨links, bound, resolves⟩ := walk_resolves found
  exact resolves.creates.walk bound

/-! ### Composition -/

theorem directory_dropLast (found : tree.node place = some .directory) : tree.node place.dropLast = some .directory := by
  rcases List.eq_nil_or_concat place with rfl | ⟨parent, name, rfl⟩
  · exact tree.root
  · rw [List.concat_eq_append] at found ⊢
    rw [List.dropLast_concat]
    exact tree.parents parent name (by rw [found]; exact Option.some_ne_none _)

theorem directory_start {rooted : Bool} (found : tree.node place = some .directory) :
    tree.node (if rooted then [] else place) = some .directory := by
  cases rooted
  · exact found
  · exact tree.root

/-- What a path leads to, the rest of a longer path starts from. -/
theorem Resolves.append (before : Resolves tree false links place first middle)
    (open_ : tree.node middle ≠ some .file) (behind : Resolves tree create more middle second reached) :
    Resolves tree create (links + more) place (first ++ second) reached := by
  induction before with
  | done => rw [Nat.zero_add]; exact behind
  | here _ ih => exact .here (ih open_ behind)
  | up _ ih => exact .up (ih open_ behind)
  | directory node _ ih => exact .directory node (ih open_ behind)
  | file node => exact absurd node open_
  | link node _ ih =>
    have later := ih open_ behind
    rw [List.append_assoc] at later
    rw [Nat.succ_add]
    exact .link node later
  | missing _ creates => cases creates

/-- A path that leads somewhere leads somewhere up to each of its steps. -/
theorem Resolves.split (whole : Resolves tree false links place (first ++ second) reached) :
    ∃ early late middle, early + late = links ∧ Resolves tree false early place first middle ∧
      Resolves tree false late middle second reached := by
  generalize total : first ++ second = steps at whole
  induction whole generalizing first with
  | done place =>
    obtain ⟨rfl, rfl⟩ := List.append_eq_nil_iff.mp total
    exact ⟨0, 0, place, rfl, .done place, .done place⟩
  | missing _ creates => cases creates
  | here later ih =>
    rcases first with _ | ⟨step, first⟩
    · exact ⟨0, _, _, Nat.zero_add _, .done _, (show second = _ from total) ▸ .here later⟩
    · obtain ⟨rfl, rest⟩ := List.cons.inj total
      obtain ⟨early, late, middle, sum, before, behind⟩ := ih rest
      exact ⟨early, late, middle, sum, .here before, behind⟩
  | up later ih =>
    rcases first with _ | ⟨step, first⟩
    · exact ⟨0, _, _, Nat.zero_add _, .done _, (show second = _ from total) ▸ .up later⟩
    · obtain ⟨rfl, rest⟩ := List.cons.inj total
      obtain ⟨early, late, middle, sum, before, behind⟩ := ih rest
      exact ⟨early, late, middle, sum, .up before, behind⟩
  | directory node later ih =>
    rcases first with _ | ⟨step, first⟩
    · exact ⟨0, _, _, Nat.zero_add _, .done _, (show second = _ from total) ▸ .directory node later⟩
    · obtain ⟨rfl, rest⟩ := List.cons.inj total
      obtain ⟨early, late, middle, sum, before, behind⟩ := ih rest
      exact ⟨early, late, middle, sum, .directory node before, behind⟩
  | file node =>
    rcases first with _ | ⟨step, first⟩
    · exact ⟨0, _, _, Nat.zero_add _, .done _, (show second = _ from total) ▸ .file node⟩
    · obtain ⟨rfl, rest⟩ := List.cons.inj total
      obtain ⟨rfl, rfl⟩ := List.append_eq_nil_iff.mp rest
      exact ⟨0, 0, _, rfl, .file node, .done _⟩
  | link node later ih =>
    rcases first with _ | ⟨step, first⟩
    · exact ⟨0, _, _, Nat.zero_add _, .done _, (show second = _ from total) ▸ .link node later⟩
    · obtain ⟨rfl, rest⟩ := List.cons.inj total
      obtain ⟨early, late, middle, sum, before, behind⟩ := ih ((List.append_assoc ..).trans (congrArg _ rest))
      exact ⟨early + 1, late, middle, by rw [← sum, Nat.add_right_comm], .link node before, behind⟩

theorem Resolves.at_directory (whole : Resolves tree create limit place (.down name :: rest) reached)
    (node : tree.node (place ++ [name]) = some .directory) :
    Resolves tree create limit (place ++ [name]) rest reached := by
  cases whole with
  | directory _ later => exact later
  | file other | link other | missing other => rw [node] at other; cases other

theorem Resolves.at_file (whole : Resolves tree create limit place (.down name :: rest) reached)
    (node : tree.node (place ++ [name]) = some .file) : limit = 0 ∧ rest = [] ∧ reached = place ++ [name] := by
  cases whole with
  | file _ => exact ⟨rfl, rfl, rfl⟩
  | directory other | link other | missing other => rw [node] at other; cases other

theorem Resolves.at_link {rooted : Bool} {target : List (Step Name)}
    (whole : Resolves tree create limit place (.down name :: rest) reached)
    (node : tree.node (place ++ [name]) = some (.link rooted target)) :
    ∃ links, limit = links + 1 ∧ Resolves tree create links (if rooted then [] else place) (target ++ rest) reached := by
  cases whole with
  | link other later =>
    rw [node, Option.some.injEq, Node.link.injEq] at other
    obtain ⟨rfl, rfl⟩ := other
    exact ⟨_, rfl, later⟩
  | directory other | file other | missing other => rw [node] at other; cases other

theorem Resolves.at_missing (whole : Resolves tree create limit place (.down name :: rest) reached)
    (absent : tree.node (place ++ [name]) = none) :
    create = true ∧ ∃ names, plain rest = some names ∧ reached = place ++ name :: names := by
  cases whole with
  | missing _ creates tail => exact ⟨creates, _, tail, rfl⟩
  | directory other | file other | link other => rw [absent] at other; cases other

/-- Where a beginning of the path leads, the path goes on from. -/
theorem Resolves.follow (before : Resolves tree false links place first middle)
    (found : tree.node place = some .directory) (whole : Resolves tree create limit place (first ++ second) reached) :
    ∃ more, links + more = limit ∧ Resolves tree create more middle second reached ∧
      (second ≠ [] → tree.node middle = some .directory) := by
  induction before generalizing limit with
  | done => exact ⟨limit, Nat.zero_add _, whole, fun _ => found⟩
  | here _ ih =>
    cases whole with
    | here later => exact ih found later
  | up _ ih =>
    cases whole with
    | up later => exact ih (directory_dropLast found) later
  | directory node _ ih => exact ih node (whole.at_directory node)
  | file node =>
    obtain ⟨rfl, rfl, rfl⟩ := whole.at_file node
    exact ⟨0, rfl, .done _, fun some => absurd rfl some⟩
  | link node _ ih =>
    obtain ⟨onward, rfl, later⟩ := whole.at_link node
    obtain ⟨more, sum, behind, opens⟩ := ih (directory_start found) (by rw [List.append_assoc]; exact later)
    exact ⟨more, by rw [← sum, Nat.succ_add], behind, opens⟩
  | missing _ creates => cases creates

end FileTree
end Foundation
