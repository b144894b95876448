import Wisphive.Proofs.Assignments
import Wisphive.Worktree

/-! What `git status --porcelain=v2 -z` writes, the parser reads back: the entries in their
order up to the cap, with every path as far as it is UTF-8. -/

namespace Wisphive.Worktree
open Foundation

/-- A mode, an object name, a score, or another word without spaces. -/
structure GitField where
  text : List Char
  graphic : ∀ char ∈ text, '!' ≤ char ∧ char ≤ '~'

/-- The state of a file in the index and in the working tree. -/
structure GitCode extends GitField where
  pair : text.length = 2

structure GitPath where
  bytes : List UInt8
  nonempty : bytes ≠ []
  whole : 0 ∉ bytes

/-- The entries of the format, and their fields in the order in which they are written. -/
inductive GitEntry where
  | ordinary (xy : GitCode) (sub modeHead modeIndex modeWorktree nameHead nameIndex : GitField) (path : GitPath)
  | renamed (xy : GitCode) (sub modeHead modeIndex modeWorktree nameHead nameIndex score : GitField)
      (path orig : GitPath)
  | unmerged (xy : GitCode)
      (sub modeBase modeOurs modeTheirs modeWorktree nameBase nameOurs nameTheirs : GitField) (path : GitPath)
  | untracked (path : GitPath)

def encodeText (text : List Char) : List UInt8 :=
  text.flatMap String.utf8EncodeChar

def words (fields : List GitField) : List Char :=
  fields.flatMap fun field => field.text ++ [' ']

namespace GitEntry

/-- What an entry says before its path. -/
def start : GitEntry → List Char
  | ordinary xy sub modeHead modeIndex modeWorktree nameHead nameIndex _ =>
    '1' :: ' ' :: words [xy.toGitField, sub, modeHead, modeIndex, modeWorktree, nameHead, nameIndex]
  | renamed xy sub modeHead modeIndex modeWorktree nameHead nameIndex score _ _ =>
    '2' :: ' ' :: words [xy.toGitField, sub, modeHead, modeIndex, modeWorktree, nameHead, nameIndex, score]
  | unmerged xy sub modeBase modeOurs modeTheirs modeWorktree nameBase nameOurs nameTheirs _ =>
    'u' :: ' ' :: words [xy.toGitField, sub, modeBase, modeOurs, modeTheirs, modeWorktree, nameBase, nameOurs, nameTheirs]
  | untracked _ => ['?', ' ']

def path : GitEntry → GitPath
  | ordinary _ _ _ _ _ _ _ path | renamed _ _ _ _ _ _ _ _ path _ | unmerged _ _ _ _ _ _ _ _ _ path | untracked path => path

def orig : GitEntry → Option GitPath
  | renamed _ _ _ _ _ _ _ _ _ orig => some orig
  | _ => none

def status : GitEntry → List Char
  | ordinary xy .. | renamed xy .. | unmerged xy .. => xy.text
  | untracked _ => "??".toList

/-- A path ends in a zero byte, and a rename has two of them. -/
def encode (entry : GitEntry) : List UInt8 :=
  encodeText entry.start ++ entry.path.bytes ++ 0 :: (entry.orig.elim [] fun orig => orig.bytes ++ [0])

/-- The entry as the parser shows it. -/
def change (entry : GitEntry) : WorktreeChange where
  path := String.ofList (Utf8.lossy entry.path.bytes)
  status := String.ofList entry.status
  origPath := entry.orig.map fun orig => String.ofList (Utf8.lossy orig.bytes)

end GitEntry

/-- The whole output: headers, of which each is a text without zero bytes, and entries. -/
def encodeStatus (headers : List GitPath) (entries : List GitEntry) : List UInt8 :=
  (headers.flatMap fun header => encodeText "# ".toList ++ header.bytes ++ [0]) ++ entries.flatMap GitEntry.encode

/-! ### Tokens -/

variable {field : GitField} {fields : List GitField} {entry : GitEntry} {rest : List UInt8} {text more : List Char}

theorem GitField.ascii (field : GitField) {char : Char} (member : char ∈ field.text) : char.utf8Size = 1 := by
  have bound := (field.graphic char member).2
  exact Char.utf8Size_eq_one_iff.mpr (UInt32.le_trans (Char.le_def.mp bound) (by decide))

theorem GitField.unspaced (field : GitField) : ' ' ∉ field.text := fun member =>
  absurd (field.graphic ' ' member).1 (by decide)

theorem GitField.whole (field : GitField) : '\x00' ∉ field.text := fun member =>
  absurd (field.graphic '\x00' member).1 (by decide)

theorem utf8Len_pair (xy : GitCode) : Redact.utf8Len xy.text = 2 := by
  obtain ⟨first, second, same⟩ := List.length_eq_two.mp xy.pair
  have sizes : ∀ char ∈ [first, second], char.utf8Size = 1 := same ▸ fun _ member => xy.ascii member
  rw [Redact.utf8Len, same, List.map_cons, List.map_cons, sizes first (by simp), sizes second (by simp)]
  rfl

/-- The words come apart, and the path keeps its spaces. -/
theorem splitn_words : splitn (fields.length + 1) (words fields ++ more) = fields.map (·.text) ++ [more] := by
  induction fields with
  | nil => rfl
  | cons field fields ih =>
    have shape : words (field :: fields) ++ more = field.text ++ ' ' :: (words fields ++ more) := by
      simp only [words, List.flatMap_cons, List.append_assoc, List.cons_append, List.nil_append]
    rw [shape, List.length_cons, splitn, Redact.splitOnce_of_not_mem field.unspaced]
    simp only [ih, List.map_cons, List.cons_append]

theorem splitEntry_words (xy : GitCode) {path : List Char} (nonempty : path ≠ []) :
    splitEntry (words (xy.toGitField :: fields) ++ path) fields.length = some (xy.text, path) := by
  have parted : splitn (fields.length + 2) (words (xy.toGitField :: fields) ++ path) =
      xy.text :: (fields.map (·.text) ++ [path]) := @splitn_words (xy.toGitField :: fields) path
  have behind : (fields.map (·.text) ++ [path]).drop fields.length = [path] := by
    rw [← List.length_map (·.text), List.drop_left]
  simp only [splitEntry, parted, behind, utf8Len_pair, nonempty, ne_eq, not_true, or_self, if_false]

theorem lossy_zero : Utf8.lossy (0 :: rest) = '\x00' :: Utf8.lossy rest :=
  @Utf8.lossy_encode rest '\x00'

theorem GitPath.unbroken (path : GitPath) : '\x00' ∉ Utf8.lossy path.bytes := fun member =>
  path.whole (Utf8.mem_of_mem_lossy rfl member)

theorem words_whole : '\x00' ∉ words fields := by
  intro member
  obtain ⟨field, _, inside⟩ := List.mem_flatMap.mp member
  rcases List.mem_append.mp inside with own | space
  · exact field.whole own
  · exact absurd (List.mem_singleton.mp space) (by decide)

theorem GitEntry.start_whole (entry : GitEntry) : '\x00' ∉ entry.start := by
  cases entry with
  | untracked _ => exact of_decide_eq_true rfl
  | ordinary | renamed | unmerged =>
    simp only [start, List.mem_cons, not_or]
    exact ⟨by decide, by decide, words_whole⟩

/-- A header or an entry up to its zero byte, and what follows. -/
theorem token_split (whole : '\x00' ∉ text) (path : GitPath) :
    (Utf8.lossy (encodeText text ++ path.bytes ++ 0 :: rest)).splitOn '\x00' =
      (text ++ Utf8.lossy path.bytes) :: (Utf8.lossy rest).splitOn '\x00' := by
  rw [List.append_assoc, encodeText, Utf8.lossy_text, Utf8.lossy_append (by decide), lossy_zero, ← List.append_assoc]
  refine List.splitOn_append_cons_self_of_not_mem ?_ _
  rw [List.mem_append, not_or]
  exact ⟨whole, path.unbroken⟩

/-- The tokens of an entry. -/
def GitEntry.tokens (entry : GitEntry) : List (List Char) :=
  (entry.start ++ Utf8.lossy entry.path.bytes) :: (entry.orig.map fun orig => Utf8.lossy orig.bytes).toList

theorem GitEntry.split_encode (entry : GitEntry) :
    (Utf8.lossy (entry.encode ++ rest)).splitOn '\x00' = entry.tokens ++ (Utf8.lossy rest).splitOn '\x00' := by
  rw [encode, List.append_assoc (encodeText entry.start ++ entry.path.bytes), List.cons_append,
    token_split entry.start_whole, tokens]
  cases entry.orig with
  | none => rfl
  | some orig =>
    have behind := @token_split rest [] List.not_mem_nil orig
    simp only [encodeText, List.flatMap_nil, List.nil_append] at behind
    rw [Option.elim_some, List.append_assoc, List.singleton_append, behind]
    rfl

/-! ### The parser -/

variable {status : WorktreeStatus} {tokens : List (List Char)}

theorem parseTokens_empty : parseTokens ([] :: tokens) status = parseTokens tokens status := by
  rw [parseTokens, if_pos rfl]

theorem parseTokens_header (header : List Char) :
    parseTokens (("# ".toList ++ header) :: tokens) status = parseTokens tokens (parseBranchHeader header status) := by
  have found : stripPrefix "# ".toList ("# ".toList ++ header) = some header := by
    rw [stripPrefix, if_pos (List.isPrefixOf_iff_prefix.mpr (List.prefix_append ..)), List.drop_left]
  rw [parseTokens, if_neg (by simp), found]

theorem GitEntry.token_shape (entry : GitEntry) (path : List Char) :
    ∃ kind remainder, entry.start ++ path = kind :: ' ' :: remainder ∧ kind ≠ '#' := by
  cases entry <;> exact ⟨_, _, rfl, by decide⟩

/-- At the cap the parser stops at the first token of the next entry. -/
theorem parseTokens_full (entry : GitEntry) (full : maxChanges ≤ status.changes.length) :
    parseTokens (entry.tokens ++ tokens) status = { status with changesTruncated := true } := by
  obtain ⟨kind, remainder, shape, plain⟩ := entry.token_shape (Utf8.lossy entry.path.bytes)
  have headerless : stripPrefix "# ".toList (kind :: ' ' :: remainder) = none :=
    if_neg (by simp [Ne.symm plain])
  rw [GitEntry.tokens, List.cons_append, shape, parseTokens, if_neg (List.cons_ne_nil _ _), headerless]
  exact if_pos full

theorem splitn_kind {kind : Char} (unspaced : kind ≠ ' ') (remainder : List Char) :
    splitn 2 (kind :: ' ' :: remainder) = [[kind], remainder] := by
  have parted : Redact.splitOnce ' ' ([kind] ++ ' ' :: remainder) = some ([kind], remainder) :=
    Redact.splitOnce_of_not_mem (by rw [List.mem_singleton]; exact Ne.symm unspaced)
  rw [List.singleton_append] at parted
  rw [splitn, parted]
  rfl

theorem GitPath.read_nonempty (path : GitPath) : Utf8.lossy path.bytes ≠ [] :=
  Utf8.lossy_ne_nil path.nonempty

/-- Below the cap an entry is recorded, and a rename with the path that it had. -/
theorem parseTokens_entry (entry : GitEntry) (room : status.changes.length < maxChanges) :
    parseTokens (entry.tokens ++ tokens) status =
      parseTokens tokens { status with changes := status.changes ++ [entry.change] } := by
  have below : ¬ maxChanges ≤ status.changes.length := Nat.not_le.mpr room
  cases entry with
  | ordinary xy sub modeHead modeIndex modeWorktree nameHead nameIndex path =>
    have split := @splitEntry_words [sub, modeHead, modeIndex, modeWorktree, nameHead, nameIndex] xy _ path.read_nonempty
    simp only [List.length_cons, List.length_nil, Nat.reduceAdd] at split
    simp only [GitEntry.tokens, GitEntry.start, GitEntry.path, GitEntry.orig, Option.map_none, Option.toList_none,
      List.cons_append, List.nil_append]
    rw [parseTokens, if_neg (List.cons_ne_nil _ _), show stripPrefix "# ".toList _ = none from if_neg (by simp)]
    simp only [if_neg below, splitn_kind (by decide : '1' ≠ ' '), List.head?_cons, Option.getD_some]
    simp only [List.getElem?_cons_succ, List.getElem?_cons_zero, Option.getD_some, split]
    rfl
  | renamed xy sub modeHead modeIndex modeWorktree nameHead nameIndex score path orig =>
    have split :=
      @splitEntry_words [sub, modeHead, modeIndex, modeWorktree, nameHead, nameIndex, score] xy _ path.read_nonempty
    simp only [List.length_cons, List.length_nil, Nat.reduceAdd] at split
    simp only [GitEntry.tokens, GitEntry.start, GitEntry.path, GitEntry.orig, Option.map_some, Option.toList_some,
      List.cons_append, List.nil_append]
    rw [parseTokens, if_neg (List.cons_ne_nil _ _), show stripPrefix "# ".toList _ = none from if_neg (by simp)]
    simp only [if_neg below, splitn_kind (by decide : '2' ≠ ' '), List.head?_cons, Option.getD_some]
    simp only [List.getElem?_cons_succ, List.getElem?_cons_zero, Option.getD_some, split]
    rfl
  | unmerged xy sub modeBase modeOurs modeTheirs modeWorktree nameBase nameOurs nameTheirs path =>
    have split := @splitEntry_words [sub, modeBase, modeOurs, modeTheirs, modeWorktree, nameBase, nameOurs, nameTheirs] xy _
      path.read_nonempty
    simp only [List.length_cons, List.length_nil, Nat.reduceAdd] at split
    simp only [GitEntry.tokens, GitEntry.start, GitEntry.path, GitEntry.orig, Option.map_none, Option.toList_none,
      List.cons_append, List.nil_append]
    rw [parseTokens, if_neg (List.cons_ne_nil _ _), show stripPrefix "# ".toList _ = none from if_neg (by simp)]
    simp only [if_neg below, splitn_kind (by decide : 'u' ≠ ' '), List.head?_cons, Option.getD_some]
    simp only [List.getElem?_cons_succ, List.getElem?_cons_zero, Option.getD_some, split]
    rfl
  | untracked path =>
    simp only [GitEntry.tokens, GitEntry.start, GitEntry.path, GitEntry.orig, Option.map_none, Option.toList_none,
      List.cons_append, List.nil_append]
    rw [parseTokens, if_neg (List.cons_ne_nil _ _), show stripPrefix "# ".toList _ = none from if_neg (by simp)]
    simp only [if_neg below, splitn_kind (by decide : '?' ≠ ' '), List.head?_cons, Option.getD_some]
    rfl

theorem parseAheadBehind_changes (part : List Char) :
    (parseAheadBehind status part).changes = status.changes ∧
      (parseAheadBehind status part).changesTruncated = status.changesTruncated := by
  unfold parseAheadBehind
  split <;> exact ⟨rfl, rfl⟩

theorem ahead_behind_changes (parts : List (List Char)) :
    (parts.foldl parseAheadBehind status).changes = status.changes ∧
      (parts.foldl parseAheadBehind status).changesTruncated = status.changesTruncated := by
  induction parts generalizing status with
  | nil => exact ⟨rfl, rfl⟩
  | cons part parts ih =>
    rw [List.foldl_cons, ih.1, ih.2]
    exact parseAheadBehind_changes part

/-- A header leaves the entries alone. -/
theorem parseBranchHeader_changes (header : List Char) :
    (parseBranchHeader header status).changes = status.changes ∧
      (parseBranchHeader header status).changesTruncated = status.changesTruncated := by
  unfold parseBranchHeader
  split
  · split <;> exact ⟨rfl, rfl⟩
  · split
    · split <;> exact ⟨rfl, rfl⟩
    · split
      · exact ⟨rfl, rfl⟩
      · split
        · exact ahead_behind_changes _
        · exact ⟨rfl, rfl⟩

/-- Behind the entries that are read, as many more are read as there is room for. -/
theorem parseTokens_entries (entries : List GitEntry) (complete : status.changesTruncated = false)
    (bounded : status.changes.length ≤ maxChanges) :
    (parseTokens (entries.flatMap GitEntry.tokens ++ [[]]) status).changes =
        status.changes ++ (entries.map GitEntry.change).take (maxChanges - status.changes.length) ∧
      (parseTokens (entries.flatMap GitEntry.tokens ++ [[]]) status).changesTruncated =
        decide (maxChanges < status.changes.length + entries.length) := by
  induction entries generalizing status with
  | nil =>
    have ends : parseTokens [[]] status = status := by rw [parseTokens_empty, parseTokens]
    simp only [List.flatMap_nil, List.nil_append, ends, List.map_nil, List.take_nil, List.append_nil,
      List.length_nil, Nat.add_zero, complete, true_and]
    exact (decide_eq_false (Nat.not_lt.mpr bounded)).symm
  | cons entry entries ih =>
    rw [List.flatMap_cons, List.append_assoc]
    by_cases room : status.changes.length < maxChanges
    · rw [parseTokens_entry entry room]
      have longer : (status.changes ++ [entry.change]).length = status.changes.length + 1 := List.length_append
      obtain ⟨read, cut⟩ :=
        @ih { status with changes := status.changes ++ [entry.change] } complete (longer.trans_le room)
      have left : maxChanges - status.changes.length = maxChanges - (status.changes.length + 1) + 1 := by omega
      rw [read, cut, longer, left, List.map_cons, List.take_succ_cons, List.length_cons]
      refine ⟨?_, ?_⟩
      · rw [List.append_assoc, List.singleton_append]
      · rw [Nat.add_right_comm, Nat.add_assoc]
    · have full : status.changes.length = maxChanges := Nat.le_antisymm bounded (Nat.not_lt.mp room)
      rw [parseTokens_full entry (Nat.le_of_eq full.symm)]
      refine ⟨?_, ?_⟩
      · simp only [full, Nat.sub_self, List.take_zero, List.append_nil]
      · exact (decide_eq_true (by rw [full, List.length_cons]; omega)).symm

theorem split_entries (entries : List GitEntry) :
    (Utf8.lossy (entries.flatMap GitEntry.encode)).splitOn '\x00' = entries.flatMap GitEntry.tokens ++ [[]] := by
  induction entries with
  | nil => rw [List.flatMap_nil, Utf8.lossy, List.splitOn_nil, List.flatMap_nil, List.nil_append]
  | cons entry entries ih =>
    rw [List.flatMap_cons, GitEntry.split_encode, ih, List.flatMap_cons, List.append_assoc]

/-- The headers are passed, and the entries come after them. -/
theorem parse_headers (headers : List GitPath) :
    ∃ reached : WorktreeStatus,
      reached.changes = status.changes ∧ reached.changesTruncated = status.changesTruncated ∧
        parseTokens ((Utf8.lossy ((headers.flatMap fun header => encodeText "# ".toList ++ header.bytes ++ [0]) ++
            rest)).splitOn '\x00') status =
          parseTokens ((Utf8.lossy rest).splitOn '\x00') reached := by
  induction headers generalizing status with
  | nil => exact ⟨status, rfl, rfl, rfl⟩
  | cons header headers ih =>
    obtain ⟨kept, whole⟩ := @parseBranchHeader_changes status (Utf8.lossy header.bytes)
    obtain ⟨reached, same, flagged, parsed⟩ := @ih (parseBranchHeader (Utf8.lossy header.bytes) status)
    refine ⟨reached, same.trans kept, flagged.trans whole, ?_⟩
    rw [← parsed, List.flatMap_cons, List.append_assoc, List.append_assoc _ [0], List.singleton_append,
      token_split (by decide) header, parseTokens_header]

theorem parse_changes (headers : List GitPath) (entries : List GitEntry) :
    (parsePorcelainV2 (encodeStatus headers entries) {}).changes = (entries.map GitEntry.change).take maxChanges ∧
      (parsePorcelainV2 (encodeStatus headers entries) {}).changesTruncated =
        decide (maxChanges < entries.length) := by
  obtain ⟨reached, same, flagged, parsed⟩ := @parse_headers (entries.flatMap GitEntry.encode) {} headers
  have unread : reached.changes = [] := same
  obtain ⟨read, cut⟩ := @parseTokens_entries reached entries flagged (by rw [unread]; exact Nat.zero_le _)
  rw [unread] at read cut
  rw [parsePorcelainV2, encodeStatus, parsed, split_entries, read, cut]
  exact ⟨rfl, by rw [List.length_nil, Nat.zero_add]⟩

/-- Every entry is read back, in order and up to the cap, with its own path and the path that
it had. A path that is UTF-8 is read as it was written. -/
theorem parse_inverts (headers : List GitPath) (entries : List GitEntry) :
    (parsePorcelainV2 (encodeStatus headers entries) {}).changes = (entries.map GitEntry.change).take maxChanges ∧
      (parsePorcelainV2 (encodeStatus headers entries) {}).changesTruncated =
        decide (maxChanges < entries.length) ∧
      ∀ text, Utf8.lossy (encodeText text) = text := by
  obtain ⟨read, cut⟩ := parse_changes headers entries
  refine ⟨read, cut, fun text => ?_⟩
  have whole := @Utf8.lossy_text [] text
  rw [List.append_nil, Utf8.lossy, List.append_nil] at whole
  exact whole

def strayPath (byte : UInt8) (stray : 0x80 ≤ byte) : GitPath where
  bytes := [byte]
  nonempty := List.cons_ne_nil _ _
  whole := fun zero => absurd (List.mem_singleton.mp zero ▸ stray) (by decide)

theorem lossy_stray {byte : UInt8} (stray : Utf8.leading [byte] = none) : Utf8.lossy [byte] = [Utf8.replacement] := by
  rw [Utf8.lossy_broken stray, List.drop_eq_nil_of_le (Utf8.broken_pos _), Utf8.lossy]

/-- Two names that are no UTF-8 are read as the same name. -/
theorem stray_paths_merge :
    (parsePorcelainV2 (encodeStatus [] [.untracked (strayPath 0xFF (by decide))]) {}).changes =
        (parsePorcelainV2 (encodeStatus [] [.untracked (strayPath 0xFE (by decide))]) {}).changes ∧
      encodeStatus [] [.untracked (strayPath 0xFF (by decide))] ≠
        encodeStatus [] [.untracked (strayPath 0xFE (by decide))] := by
  refine ⟨?_, by decide⟩
  have left : Utf8.lossy [0xFF] = [Utf8.replacement] := lossy_stray (by decide)
  have right : Utf8.lossy [0xFE] = [Utf8.replacement] := lossy_stray (by decide)
  rw [(parse_changes _ _).1, (parse_changes _ _).1]
  simp only [List.map_cons, List.map_nil, GitEntry.change, GitEntry.path, GitEntry.orig, GitEntry.status, strayPath,
    left, right]

end Wisphive.Worktree
