import Wisphive.CodexVersions
import Wisphive.Proofs.Assignments

/-! The order of the plugin versions. On semantic versions it is their precedence, and with
other names between them it orders a directory only where the two comparisons agree. -/

namespace Wisphive.CodexHost
open Foundation Std

variable {version other : String} {parsed given : ParsedCodexSemver} {text part before behind : List Char} {mark char : Char}
  {strict : Bool}

/-! ### The grammar -/

theorem mem_intercalate {parts : List (List Char)} (member : char ∈ ['.'].intercalate parts) :
    char = '.' ∨ ∃ part ∈ parts, char ∈ part := by
  induction parts with
  | nil => cases member
  | cons first rest ih =>
    cases rest with
    | nil =>
      rw [List.intercalate_singleton] at member
      exact .inr ⟨first, List.mem_cons_self .., member⟩
    | cons next more =>
      rw [List.intercalate_cons_cons, List.append_assoc, List.mem_append, List.mem_append, List.mem_singleton] at member
      rcases member with inside | dot | later
      · exact .inr ⟨first, List.mem_cons_self .., inside⟩
      · exact .inl dot
      · rcases ih later with dot | ⟨part, among, inside⟩
        · exact .inl dot
        · exact .inr ⟨part, List.mem_cons_of_mem _ among, inside⟩

theorem valid_identifier (valid : validSemverIdentifiers strict text = true) : ∀ identifier ∈ text.splitOn '.',
    identifier ≠ [] ∧ (∀ char ∈ identifier, char.isAlphanum = true ∨ char = '-') ∧
      (strict = true → 1 < identifier.length → identifier.all Char.isDigit = true → identifier.head? ≠ some '0') := by
  intro identifier member
  rw [validSemverIdentifiers, Bool.and_eq_true] at valid
  have each := List.all_eq_true.mp valid.2 identifier member
  rw [Bool.and_eq_true, Bool.and_eq_true, List.all_eq_true] at each
  obtain ⟨⟨proper, plain⟩, leads⟩ := each
  refine ⟨of_decide_eq_true proper, fun char inside => by simpa using plain char inside, fun rejects long digits leading => ?_⟩
  simp [rejects, long, leading, digits] at leads

/-- Build metadata has no further mark. -/
theorem plus_not_mem (valid : validSemverIdentifiers strict text = true) : '+' ∉ text := by
  intro member
  rw [← @List.intercalate_splitOn Char text _ _ '.'] at member
  rcases mem_intercalate member with dot | ⟨identifier, among, inside⟩
  · cases dot
  · rcases (valid_identifier valid identifier among).2.1 '+' inside with plain | dash
    · revert plain
      decide
    · cases dash

theorem splitMark_shape : text = (splitMark mark text).1 ++ marked mark (splitMark mark text).2 := by
  rw [splitMark]
  cases found : Redact.splitOnce mark text with
  | none => exact (List.append_nil _).symm
  | some halves => exact Redact.splitOnce_shape found

/-- A part is cut off at the first of its marks. -/
theorem splitMark_marked {part : Option (List Char)} (absent : mark ∉ text) :
    splitMark mark (text ++ marked mark part) = (text, part) := by
  cases part with
  | none => rw [marked, List.append_nil, splitMark, Redact.splitOnce_none absent]
  | some part => rw [marked, splitMark, Redact.splitOnce_of_not_mem absent]

theorem parseSemverNumber_eq (numeral : IsNumeral text) :
    parseSemverNumber text = if SemVer.decimal text < 2 ^ 64 then some (SemVer.decimal text) else none := by
  have same : text.foldl (fun value digit => 10 * value + (digit.toNat - 48)) 0 = SemVer.decimal text := rfl
  rw [parseSemverNumber, same]
  obtain ⟨proper, digits, leading⟩ := numeral
  simp only [proper, digits, leading, ne_eq, not_false_eq_true, true_and]

theorem parseSemverNumber_eq_some {value : Nat} (read : parseSemverNumber text = some value) :
    IsNumeral text ∧ value = SemVer.decimal text ∧ value < 2 ^ 64 := by
  rw [parseSemverNumber] at read
  split at read
  next shape =>
    cases read
    exact ⟨⟨shape.1, shape.2.1, shape.2.2.1⟩, rfl, shape.2.2.2⟩
  next => cases read

/-- Text that is read is in the grammar. -/
theorem isSemver_of_parse (read : parseCodexSemver version = some parsed) : IsSemver version parsed ∧ parsed.Fits := by
  have whole := @splitMark_shape version.toList '+'
  have cut := @splitMark_shape (splitMark '+' version.toList).1 '-'
  rw [parseCodexSemver] at read
  generalize splitMark '+' version.toList = parts at whole cut read
  obtain ⟨withoutBuild, build⟩ := parts
  dsimp only at whole cut read
  generalize splitMark '-' withoutBuild = parts at cut read
  obtain ⟨core, pre⟩ := parts
  dsimp only at cut read
  split at read
  next => cases read
  next valid =>
    rw [Bool.or_eq_true, not_or] at valid
    split at read
    next major minor patch pieces =>
      obtain ⟨majorValue, readMajor, read⟩ := Option.bind_eq_some_iff.mp read
      obtain ⟨minorValue, readMinor, read⟩ := Option.bind_eq_some_iff.mp read
      obtain ⟨patchValue, readPatch, read⟩ := Option.bind_eq_some_iff.mp read
      cases read
      obtain ⟨majorShape, majorSame, majorFits⟩ := parseSemverNumber_eq_some readMajor
      obtain ⟨minorShape, minorSame, minorFits⟩ := parseSemverNumber_eq_some readMinor
      obtain ⟨patchShape, patchSame, patchFits⟩ := parseSemverNumber_eq_some readPatch
      refine ⟨⟨⟨major, minor, patch, majorShape, minorShape, patchShape, majorSame, minorSame, patchSame, ?_⟩, ?_, ?_⟩,
        majorFits, minorFits, patchFits⟩
      · rw [← pieces, List.intercalate_splitOn, ← cut, ← whole]
      · rintro text ⟨⟩
        have accepted := valid.2
        simpa using accepted
      · rintro text ⟨⟩
        have accepted := valid.1
        simp only [Option.any_some, Bool.or_eq_true, Bool.not_eq_true', not_or, Bool.not_eq_false] at accepted
        exact accepted.2
    next => cases read

theorem digit_not_mark (numeral : IsNumeral text) (mark : Char) (other : mark.isDigit = false) : mark ∉ text := by
  intro member
  have digit := List.all_eq_true.mp numeral.2.1 mark member
  rw [other] at digit
  cases digit

/-- Text in the grammar is read if its numbers fit. -/
theorem parse_of_isSemver (shape : IsSemver version parsed) :
    parseCodexSemver version = if parsed.Fits then some parsed else none := by
  obtain ⟨⟨major, minor, patch, majorShape, minorShape, patchShape, majorSame, minorSame, patchSame, whole⟩, validPre, validBuild⟩ :=
    shape
  have core (mark : Char) (dot : mark ≠ '.') (plain : mark.isDigit = false) : mark ∉ ['.'].intercalate [major, minor, patch] := by
    intro member
    rcases mem_intercalate member with same | ⟨number, among, inside⟩
    · exact dot same
    · simp only [List.mem_cons, List.not_mem_nil, or_false] at among
      rcases among with rfl | rfl | rfl
      · exact digit_not_mark majorShape mark plain inside
      · exact digit_not_mark minorShape mark plain inside
      · exact digit_not_mark patchShape mark plain inside
  have unmarked : '+' ∉ ['.'].intercalate [major, minor, patch] ++ marked '-' parsed.pre := by
    rw [List.mem_append, not_or]
    refine ⟨core '+' (by decide) (by decide), ?_⟩
    cases held : parsed.pre with
    | none => exact List.not_mem_nil
    | some pre =>
      rw [marked, List.mem_cons, not_or]
      exact ⟨by decide, plus_not_mem (validPre pre held)⟩
  have pieces : (['.'].intercalate [major, minor, patch]).splitOn '.' = [major, minor, patch] := by
    refine List.splitOn_intercalate '.' ?_ (by simp)
    simp only [List.forall_mem_cons, List.not_mem_nil, false_implies, implies_true, and_true]
    exact ⟨digit_not_mark majorShape '.' (by decide), digit_not_mark minorShape '.' (by decide),
      digit_not_mark patchShape '.' (by decide)⟩
  have valid : ¬ (((parsed.build.any fun build => build.contains '+' || !validSemverIdentifiers false build) ||
      parsed.pre.any (!validSemverIdentifiers true ·)) = true) := by
    rw [Bool.or_eq_true, not_or]
    constructor
    · cases held : parsed.build with
      | none => simp
      | some build =>
        have accepted := validBuild build held
        simp [accepted, plus_not_mem accepted]
    · cases held : parsed.pre with
      | none => simp
      | some pre => simp [validPre pre held]
  rw [parseCodexSemver, whole, splitMark_marked unmarked]
  dsimp only
  rw [splitMark_marked (core '-' (by decide) (by decide))]
  dsimp only
  rw [if_neg valid, pieces]
  dsimp only
  rw [parseSemverNumber_eq majorShape, parseSemverNumber_eq minorShape, parseSemverNumber_eq patchShape, ← majorSame, ← minorSame,
    ← patchSame]
  by_cases fits : parsed.Fits
  · rw [if_pos fits, if_pos fits.1, if_pos fits.2.1, if_pos fits.2.2]
    rfl
  · rw [if_neg fits]
    by_cases first : parsed.major < 2 ^ 64
    · by_cases second : parsed.minor < 2 ^ 64
      · have third : ¬ parsed.patch < 2 ^ 64 := fun third => fits ⟨first, second, third⟩
        rw [if_pos first, if_pos second, if_neg third]
        rfl
      · rw [if_pos first, if_neg second]
        rfl
    · rw [if_neg first]
      rfl

/-! ### The order of semantic versions -/

namespace ParsedCodexSemver
open SemVer

instance : TransCmp buildIdentifierOrder :=
  inferInstanceAs (TransCmp (compareLex (compareOn read) (compareOn List.length)))

instance : LawfulEqCmp buildIdentifierOrder where
  compare_self := ReflCmp.compare_self
  eq_of_compare {left right} same := by
    rw [buildIdentifierOrder, compareLex_eq_eq] at same
    have alike : read left = read right := LawfulEqOrd.eq_of_compare same.1
    have lengths : left.length = right.length := LawfulEqOrd.eq_of_compare same.2
    rw [SemVer.read, SemVer.read] at alike
    split at alike
    next leftDigits =>
      split at alike
      next rightDigits =>
        have order := compare_of_length_eq leftDigits rightDigits lengths
        rw [Identifier.numeric.inj alike, Nat.compare_eq_eq.mpr rfl] at order
        exact LawfulEqOrd.eq_of_compare order
      next => cases alike
    next =>
      split at alike
      next => cases alike
      next => exact Identifier.text.inj alike

instance : TransCmp buildOrder := by
  have inner : TransCmp fun left right : List Char => List.compareLex buildIdentifierOrder (left.splitOn '.') (right.splitOn '.') :=
    SemVer.transCmp_of (List.splitOn '.')
  exact partOrder_trans (by decide)

instance : LawfulEqCmp buildOrder where
  compare_self := ReflCmp.compare_self
  eq_of_compare {left right} same := by
    have inner : LawfulEqCmp fun left right : List Char =>
        List.compareLex buildIdentifierOrder (left.splitOn '.') (right.splitOn '.') := by
      refine @LawfulEqCmp.mk _ _ ⟨ReflCmp.compare_self⟩ fun {a b} equal => ?_
      have pieces : a.splitOn '.' = b.splitOn '.' := LawfulEqCmp.eq_of_compare equal
      rw [← @List.intercalate_splitOn Char a _ _ '.', pieces, List.intercalate_splitOn]
    exact partOrder_eq (by decide) same

instance : TransCmp order := by
  have first : TransCmp fun left right : ParsedCodexSemver => precedence left.version right.version :=
    SemVer.transCmp_of ParsedCodexSemver.version
  have second : TransCmp fun left right : ParsedCodexSemver => buildOrder left.build right.build :=
    SemVer.transCmp_of ParsedCodexSemver.build
  exact inferInstanceAs (TransCmp (compareLex _ _))

end ParsedCodexSemver

theorem canonical_identifier (valid : validSemverIdentifiers true text = true) {identifier : List Char}
    (member : identifier ∈ text.splitOn '.') : SemVer.Canonical identifier := by
  obtain ⟨proper, _, leading⟩ := valid_identifier valid identifier member
  exact ⟨proper, leading rfl⟩

theorem map_read_inj {left right : List (List Char)} (first : ∀ identifier ∈ left, SemVer.Canonical identifier)
    (second : ∀ identifier ∈ right, SemVer.Canonical identifier) (same : left.map SemVer.read = right.map SemVer.read) :
    left = right := by
  induction left generalizing right with
  | nil => exact (List.map_eq_nil_iff.mp same.symm).symm
  | cons identifier rest ih =>
    cases right with
    | nil => cases same
    | cons next more =>
      rw [List.map_cons, List.map_cons, List.cons.injEq] at same
      rw [List.forall_mem_cons] at first second
      rw [SemVer.read_inj first.1 second.1 same.1, ih first.2 second.2 same.2]

theorem numeral_inj {left right : List Char} (first : IsNumeral left) (second : IsNumeral right)
    (same : SemVer.decimal left = SemVer.decimal right) : left = right := by
  have canonical {number : List Char} (numeral : IsNumeral number) : SemVer.Canonical number := by
    refine ⟨numeral.1, fun long _ => numeral.2.2.resolve_left ?_⟩
    rintro rfl
    exact absurd long (by decide)
  exact SemVer.decimal_inj (canonical first) (canonical second) first.2.1 second.2.1 same

/-- The order tells versions apart. -/
theorem eq_of_order (first : IsSemver version parsed) (second : IsSemver other given) (same : parsed.order given = .eq) :
    version = other := by
  rw [ParsedCodexSemver.order, Ordering.then_eq_eq] at same
  have versions : parsed.version = given.version := LawfulEqCmp.eq_of_compare same.1
  have builds : parsed.build = given.build := LawfulEqCmp.eq_of_compare same.2
  obtain ⟨major, minor, patch, majorShape, minorShape, patchShape, majorSame, minorSame, patchSame, whole⟩ := first.core
  obtain ⟨major', minor', patch', majorShape', minorShape', patchShape', majorSame', minorSame', patchSame', whole'⟩ := second.core
  have sameMajor : parsed.major = given.major := congrArg SemVer.Version.major versions
  have sameMinor : parsed.minor = given.minor := congrArg SemVer.Version.minor versions
  have samePatch : parsed.patch = given.patch := congrArg SemVer.Version.patch versions
  have samePre : parsed.pre = given.pre := by
    have parts : parsed.pre.map (fun pre => (pre.splitOn '.').map SemVer.read) =
        given.pre.map fun pre => (pre.splitOn '.').map SemVer.read := congrArg SemVer.Version.prerelease versions
    cases left : parsed.pre with
    | none =>
      rw [left] at parts
      exact (Option.map_eq_none_iff.mp parts.symm).symm
    | some pre =>
      rw [left, Option.map_some] at parts
      obtain ⟨pre', right, equal⟩ := Option.map_eq_some_iff.mp parts.symm
      have pieces := map_read_inj (fun _ => canonical_identifier (second.pre pre' right))
        (fun _ => canonical_identifier (first.pre pre left)) equal
      rw [right, ← @List.intercalate_splitOn Char pre _ _ '.', ← pieces, List.intercalate_splitOn]
  rw [majorSame, majorSame'] at sameMajor
  rw [minorSame, minorSame'] at sameMinor
  rw [patchSame, patchSame'] at samePatch
  apply String.toList_inj.mp
  rw [whole, whole', numeral_inj majorShape majorShape' sameMajor, numeral_inj minorShape minorShape' sameMinor,
    numeral_inj patchShape patchShape' samePatch, samePre, builds]

/-! ### What the code compares -/

/-- One identifier of a pair that differs decides. -/
def identifierOrder (numeric : List Char → List Char → Ordering) (left right : List Char) : Ordering :=
  match left.all Char.isDigit, right.all Char.isDigit with
  | true, false => .lt
  | false, true => .gt
  | true, true => numeric left right
  | false, false => compare left right

theorem compareIdentifiers_eq {numeric order : List Char → List Char → Ordering} [ReflCmp order] {left right : List (List Char)}
    (agrees : ∀ first ∈ left, ∀ second ∈ right, first ≠ second → identifierOrder numeric first second = order first second) :
    compareIdentifiers numeric left right = List.compareLex order left right := by
  induction left generalizing right with
  | nil => cases right <;> rfl
  | cons first rest ih =>
    cases right with
    | nil => rfl
    | cons second more =>
      have later := @ih more fun one among another within =>
        agrees one (List.mem_cons_of_mem _ among) another (List.mem_cons_of_mem _ within)
      rw [compareIdentifiers, List.compareLex_cons_cons]
      split
      next same =>
        have equal : order second second = .eq := ReflCmp.compare_self
        rw [same, equal, Ordering.eq_then, later]
      next differs =>
        have here : (identifierOrder numeric first second).then (compareIdentifiers numeric rest more) =
            (order first second).then (List.compareLex order rest more) := by
          rw [agrees first (List.mem_cons_self ..) second (List.mem_cons_self ..) differs, later]
        exact here

theorem compareLex_map {Item Key : Type} {cmp : Key → Key → Ordering} {key : Item → Key} {left right : List Item} :
    List.compareLex cmp (left.map key) (right.map key) = List.compareLex (fun a b => cmp (key a) (key b)) left right := by
  induction left generalizing right with
  | nil => cases right <;> rfl
  | cons first rest ih =>
    cases right with
    | nil => rfl
    | cons second more => rw [List.map_cons, List.map_cons, List.compareLex_cons_cons, List.compareLex_cons_cons, ih]

theorem read_digits {identifier : List Char} (digits : identifier.all Char.isDigit = true) :
    SemVer.read identifier = .numeric (SemVer.decimal identifier) :=
  if_pos digits

theorem read_text {identifier : List Char} (mixed : identifier.all Char.isDigit = false) :
    SemVer.read identifier = .text identifier :=
  if_neg (by simp [mixed])

/-- Prereleases are compared as their identifiers are read. -/
theorem compareSemverPrerelease_eq (first : IsSemver version parsed) (second : IsSemver other given) :
    compareSemverPrerelease parsed.pre given.pre =
      SemVer.partOrder .gt compare parsed.version.prerelease given.version.prerelease := by
  rw [compareSemverPrerelease, ParsedCodexSemver.version, ParsedCodexSemver.version]
  cases left : parsed.pre with
  | none => cases given.pre <;> rfl
  | some pre =>
    cases right : given.pre with
    | none => rfl
    | some pre' =>
      rw [Option.map_some, Option.map_some, SemVer.partOrder, comparePart]
      have whole : compare ((pre.splitOn '.').map SemVer.read) ((pre'.splitOn '.').map SemVer.read) =
          List.compareLex (compareOn SemVer.read) (pre.splitOn '.') (pre'.splitOn '.') := compareLex_map
      rw [whole]
      refine compareIdentifiers_eq fun one among another within _ => ?_
      have canonicalOne := canonical_identifier (first.pre pre left) among
      have canonicalOther := canonical_identifier (second.pre pre' right) within
      rw [identifierOrder, compareOn]
      cases digitsOne : one.all Char.isDigit with
      | true =>
        rw [read_digits digitsOne]
        cases digitsOther : another.all Char.isDigit with
        | true =>
          rw [read_digits digitsOther]
          exact SemVer.compare_canonical canonicalOne canonicalOther digitsOne digitsOther
        | false =>
          rw [read_text digitsOther]
          rfl
      | false =>
        rw [read_text digitsOne]
        cases digitsOther : another.all Char.isDigit with
        | true =>
          rw [read_digits digitsOther]
          rfl
        | false =>
          rw [read_text digitsOther]
          rfl

theorem head_dropZeros : (text.dropWhile (· = '0')).head? ≠ some '0' := by
  induction text with
  | nil => exact fun none => nomatch none
  | cons char rest ih =>
    by_cases zero : char = '0'
    · rw [List.dropWhile_cons_of_pos (by simpa using zero)]
      exact ih
    · rw [List.dropWhile_cons_of_neg (by simpa using zero), List.head?_cons]
      exact fun same => zero (Option.some.inj same)

theorem digits_dropZeros (digits : text.all Char.isDigit = true) : (text.dropWhile (· = '0')).all Char.isDigit = true :=
  List.all_eq_true.mpr fun char inside => List.all_eq_true.mp digits char ((List.dropWhile_sublist _).subset inside)

/-- Build metadata is compared as its identifiers are read, and then by their leading zeros. -/
theorem compareSemverBuild_eq {left right : Option (List Char)} :
    compareSemverBuild left right = ParsedCodexSemver.buildOrder left right := by
  rw [compareSemverBuild, ParsedCodexSemver.buildOrder]
  cases left with
  | none => cases right <;> rfl
  | some build =>
    cases right with
    | none => rfl
    | some build' =>
      rw [SemVer.partOrder, comparePart]
      refine compareIdentifiers_eq fun one _ another _ differs => ?_
      rw [identifierOrder, ParsedCodexSemver.buildIdentifierOrder, compareLex, compareOn, compareOn]
      cases digitsOne : one.all Char.isDigit with
      | true =>
        rw [read_digits digitsOne]
        cases digitsOther : another.all Char.isDigit with
        | true =>
          have values := SemVer.compare_decimal (digits_dropZeros digitsOne) (digits_dropZeros digitsOther) (fun _ => head_dropZeros)
            fun _ => head_dropZeros
          rw [SemVer.decimal_dropZeros, SemVer.decimal_dropZeros] at values
          rw [read_digits digitsOther]
          dsimp only
          rw [values]
          rfl
        | false =>
          rw [read_text digitsOther]
          rfl
      | false =>
        rw [read_text digitsOne]
        cases digitsOther : another.all Char.isDigit with
        | true =>
          rw [read_digits digitsOther]
          rfl
        | false =>
          rw [read_text digitsOther]
          have order : compare (SemVer.Identifier.text one) (.text another) = compare one another := rfl
          rw [order]
          -- Texts that differ are told apart before their lengths are looked at.
          cases held : compare one another with
          | eq => exact absurd (LawfulEqOrd.eq_of_compare held) differs
          | lt | gt => rfl

/-- The comparison of the code glues the order of semantic versions to the one of texts. -/
theorem compareCodexPluginVersions_eq :
    compareCodexPluginVersions = GluedOrder.glue parseCodexSemver ParsedCodexSemver.order compare := by
  funext left right
  rw [compareCodexPluginVersions, GluedOrder.glue]
  cases first : parseCodexSemver left with
  | none => rfl
  | some parsed =>
    cases second : parseCodexSemver right with
    | none => rfl
    | some given =>
      have precedence : SemVer.precedence parsed.version given.version =
          (compare parsed.major given.major).then ((compare parsed.minor given.minor).then ((compare parsed.patch given.patch).then
            (SemVer.partOrder .gt compare parsed.version.prerelease given.version.prerelease))) := rfl
      dsimp only
      rw [compareSemverPrerelease_eq (isSemver_of_parse first).1 (isSemver_of_parse second).1, compareSemverBuild_eq,
        ParsedCodexSemver.order, precedence]
      simp only [Ordering.then_assoc]

instance : OrientedCmp compareCodexPluginVersions := by
  rw [compareCodexPluginVersions_eq]
  infer_instance

theorem tells (first : parseCodexSemver version = some parsed) (second : parseCodexSemver other = some given)
    (same : parsed.order given = .eq) : version = other :=
  eq_of_order (isSemver_of_parse first).1 (isSemver_of_parse second).1 same

instance : LawfulEqCmp compareCodexPluginVersions := by
  rw [compareCodexPluginVersions_eq]
  exact GluedOrder.glue_lawful tells

theorem orders_iff (versions : List String) : GluedOrder.Orders compareCodexPluginVersions versions ↔ VersionsAgree versions := by
  rw [compareCodexPluginVersions_eq, VersionsAgree]
  exact GluedOrder.orders_glue_iff tells

/-- Semantic versions are compared by their precedence if the code can hold their numbers. -/
theorem compare_semver (first : IsSemver version parsed) (second : IsSemver other given) :
    compareCodexPluginVersions version other =
      if parsed.Fits ∧ given.Fits then parsed.order given else compare version other := by
  rw [compareCodexPluginVersions_eq]
  by_cases fits : parsed.Fits
  · by_cases fit : given.Fits
    · rw [if_pos ⟨fits, fit⟩]
      exact GluedOrder.glue_keyed ((parse_of_isSemver first).trans (if_pos fits)) ((parse_of_isSemver second).trans (if_pos fit))
    · rw [if_neg fun both => fit both.2]
      exact GluedOrder.glue_right ((parse_of_isSemver second).trans (if_neg fit))
  · rw [if_neg fun both => fits both.1]
    exact GluedOrder.glue_left ((parse_of_isSemver first).trans (if_neg fits))

/-! ### The active root -/

variable {versions listed : List String} {sort : List String → List String}

theorem activeVersion_perm (sorts : GluedOrder.Sorts compareCodexPluginVersions sort)
    (settled : "local" ∈ versions ∨ VersionsAgree versions) (same : listed.Perm versions) :
    activeVersion sort listed = activeVersion sort versions := by
  rw [activeVersion, activeVersion]
  by_cases named : "local" ∈ versions
  · rw [if_pos named, if_pos (same.mem_iff.mpr named)]
  · rw [if_neg named, if_neg (mt same.mem_iff.mp named),
      sorts.eq_of_perm ((orders_iff versions).mpr (settled.resolve_left named)) same]

section
variable {plugin : EnabledCodexPlugin} {base : String} {entry : Except String DirEntry} {entries others : List (Except String DirEntry)}

/-- The version an entry that was read is for. -/
def entryVersion (isDir : Bool) (name : Option String) : List String :=
  match isDir, name with
  | true, some version => if validCodexPluginVersion version then [version] else []
  | _, _ => []

theorem versionsOf_read {held : DirEntry} {isDir : Bool} (inspected : held.isDir = .ok isDir) :
    versionsOf plugin base versions (.ok held) = .ok (versions ++ entryVersion isDir held.name) := by
  rw [versionsOf]
  change (Except.mapError _ held.isDir >>= _) = _
  rw [inspected]
  cases isDir with
  | false => exact congrArg Except.ok (List.append_nil versions).symm
  | true =>
    cases held.name with
    | none => exact congrArg Except.ok (List.append_nil versions).symm
    | some version =>
      change Except.ok (if validCodexPluginVersion version then versions ++ [version] else versions) =
        .ok (versions ++ if validCodexPluginVersion version then [version] else [])
      split
      next => rfl
      next => rw [List.append_nil]

/-- What is found in an entry does not depend on what was found before. -/
theorem versionsOf_ok (done : versionsOf plugin base versions entry = .ok listed) :
    ∃ found, (∀ before, versionsOf plugin base before entry = .ok (before ++ found)) ∧ listed = versions ++ found := by
  cases entry with
  | error reason => cases done
  | ok held =>
    cases inspected : held.isDir with
    | error reason =>
      rw [versionsOf] at done
      change (Except.mapError _ held.isDir >>= _) = _ at done
      rw [inspected] at done
      cases done
    | ok isDir =>
      rw [versionsOf_read inspected] at done
      exact ⟨entryVersion isDir held.name, fun before => versionsOf_read inspected, (Except.ok.inj done).symm⟩

/-- The entry is read, and this is what it is found to hold. -/
def Finds (plugin : EnabledCodexPlugin) (base : String) (entry : Except String DirEntry) (found : List String) : Prop :=
  ∀ before, versionsOf plugin base before entry = .ok (before ++ found)

theorem foldlM_versionsOf {before : List String} : entries.foldlM (versionsOf plugin base) before = .ok versions ↔
    ∃ founds, List.Forall₂ (Finds plugin base) entries founds ∧ versions = before ++ founds.flatten := by
  induction entries generalizing before with
  | nil =>
    constructor
    · intro done
      cases done
      exact ⟨[], .nil, (List.append_nil _).symm⟩
    · rintro ⟨_, ⟨⟩, rfl⟩
      rw [List.flatten_nil, List.append_nil]
      rfl
  | cons entry rest ih =>
    constructor
    · intro done
      obtain ⟨middle, first, later⟩ := Fold.cons_ok done
      obtain ⟨found, finds, rfl⟩ := versionsOf_ok first
      obtain ⟨founds, others, rfl⟩ := ih.mp later
      exact ⟨found :: founds, .cons finds others, by rw [List.flatten_cons, List.append_assoc]⟩
    · rintro ⟨_, held, rfl⟩
      cases held with
      | @cons _ found _ founds finds others =>
        rw [List.foldlM_cons, finds before]
        exact ih.mpr ⟨founds, others, by rw [List.flatten_cons, List.append_assoc]⟩

/-- A directory listed in another order holds the same versions in another order. -/
theorem foldlM_versionsOf_perm (same : others.Perm entries)
    (done : entries.foldlM (versionsOf plugin base) [] = .ok versions) :
    ∃ listed, others.foldlM (versionsOf plugin base) [] = .ok listed ∧ listed.Perm versions := by
  obtain ⟨founds, finds, rfl⟩ := foldlM_versionsOf.mp done
  obtain ⟨moved, found, shuffled⟩ := List.perm_comp_forall₂ same finds
  exact ⟨moved.flatten, foldlM_versionsOf.mpr ⟨moved, found, rfl⟩, shuffled.flatten⟩

end

/-- Where the two comparisons agree, the active root does not depend on how the directory is
listed. -/
theorem activeCodexPluginRoot_perm (sorts : GluedOrder.Sorts compareCodexPluginVersions sort) {codexHome : String} {plugin : EnabledCodexPlugin} {files again : CodexFiles}
    {entries others : List (Except String DirEntry)} (first : files.readDir (pluginBase codexHome plugin) = .found entries)
    (second : again.readDir (pluginBase codexHome plugin) = .found others) (same : others.Perm entries)
    (found : entries.foldlM (versionsOf plugin (pluginBase codexHome plugin)) [] = .ok versions)
    (settled : "local" ∈ versions ∨ VersionsAgree versions) :
    activeCodexPluginRoot sort codexHome plugin again = activeCodexPluginRoot sort codexHome plugin files := by
  obtain ⟨listed, read, shuffled⟩ := foldlM_versionsOf_perm same found
  rw [activeCodexPluginRoot, activeCodexPluginRoot, first, second]
  dsimp only
  rw [found, read, Except.map, Except.map, activeVersion_perm sorts settled shuffled]

/-- The comparison is antisymmetric and tells any two versions apart. It is the precedence of
semantic versions, refined by their metadata, where the code can hold their numbers or the
texts are in that order. The versions of a directory are ordered, and the active one does not
depend on how they are listed, exactly if every name between two semantic versions stands
between versions that are ordered as their texts are. -/
theorem plugin_versions_ordered_iff (versions : List String) :
    (∀ left right, compareCodexPluginVersions left right = (compareCodexPluginVersions right left).swap) ∧
    (∀ left right, compareCodexPluginVersions left right = .eq ↔ left = right) ∧
    (∀ left right parsed given, IsSemver left parsed → IsSemver right given →
      (compareCodexPluginVersions left right = parsed.order given ↔
        (parsed.Fits ∧ given.Fits) ∨ compare left right = parsed.order given)) ∧
    (GluedOrder.Orders compareCodexPluginVersions versions ↔ VersionsAgree versions) ∧
    ((∀ sort, GluedOrder.Sorts compareCodexPluginVersions sort → ∀ listed, listed.Perm versions →
      activeVersion sort listed = activeVersion sort versions) ↔ "local" ∈ versions ∨ VersionsAgree versions) ∧
    (∀ sort, GluedOrder.Sorts compareCodexPluginVersions sort → ∀ codexHome plugin (files again : CodexFiles) entries others,
      files.readDir (pluginBase codexHome plugin) = .found entries →
      again.readDir (pluginBase codexHome plugin) = .found others → others.Perm entries →
      entries.foldlM (versionsOf plugin (pluginBase codexHome plugin)) [] = .ok versions →
      "local" ∈ versions ∨ VersionsAgree versions →
      activeCodexPluginRoot sort codexHome plugin again = activeCodexPluginRoot sort codexHome plugin files) := by
  refine ⟨fun left right => OrientedCmp.eq_swap, fun left right => LawfulEqCmp.compare_eq_iff_eq, ?_, orders_iff versions, ?_, ?_⟩
  · intro left right parsed given first second
    rw [compare_semver first second]
    by_cases fits : parsed.Fits ∧ given.Fits
    · simp [fits]
    · simp only [fits, if_false, false_or]
  · constructor
    · intro stable
      by_contra open_
      rw [not_or] at open_
      obtain ⟨sort, sorts, listed, same, differs⟩ := GluedOrder.last_depends (mt (orders_iff versions).mp open_.2)
      have kept := stable sort sorts listed same
      rw [activeVersion, activeVersion, if_neg open_.1, if_neg (mt same.mem_iff.mp open_.1)] at kept
      exact differs kept
    · intro settled sort sorts listed same
      exact activeVersion_perm sorts settled same
  · intro sort sorts codexHome plugin files again entries others first second same found settled
    exact activeCodexPluginRoot_perm sorts first second same found settled

/-- A sort of the versions. -/
private def byVersion (versions : List String) : List String :=
  versions.mergeSort fun left right => compareCodexPluginVersions left right ≠ .gt

/-- A release and its prerelease, listed in both orders. -/
theorem plugin_versions_ordered_release :
    compareCodexPluginVersions "1.10.0-rc.1" "1.10.0" = .lt ∧
    (∀ sort, GluedOrder.Sorts compareCodexPluginVersions sort →
      activeVersion sort ["1.10.0", "1.10.0-rc.1"] = activeVersion sort ["1.10.0-rc.1", "1.10.0"]) ∧
    activeCodexPluginRoot byVersion "/home/.codex" ⟨"tool@market", "tool", "market"⟩
      { read := fun _ => .absent "", readDir := fun _ => .found [.ok ⟨"a", some "1.10.0", .ok true⟩, .ok ⟨"b", some "link", .ok false⟩],
        linkMetadata := fun _ => .absent "", metadata := fun _ => .absent "", canonicalize := .ok } =
    activeCodexPluginRoot byVersion "/home/.codex" ⟨"tool@market", "tool", "market"⟩
      { read := fun _ => .absent "", readDir := fun _ => .found [.ok ⟨"b", some "link", .ok false⟩, .ok ⟨"a", some "1.10.0", .ok true⟩],
        linkMetadata := fun _ => .absent "", metadata := fun _ => .absent "", canonicalize := .ok } := by
  have release : parseCodexSemver "1.10.0" = some ⟨1, 10, 0, none, none⟩ := by decide +kernel
  have candidate : parseCodexSemver "1.10.0-rc.1" = some ⟨1, 10, 0, some "rc.1".toList, none⟩ := by decide +kernel
  have settled : VersionsAgree ["1.10.0-rc.1", "1.10.0"] := by
    intro a _ b second c _ x y _ plain
    simp only [List.mem_cons, List.not_mem_nil, or_false] at second
    rcases second with rfl | rfl
    · cases candidate.symm.trans plain
    · cases release.symm.trans plain
  have alone : VersionsAgree ["1.10.0"] := by
    intro a _ b second c _ x y _ plain
    rw [List.mem_singleton.mp second, release] at plain
    cases plain
  refine ⟨?_, fun sort sorts => ?_, ?_⟩
  · have rule := (plugin_versions_ordered_iff []).2.2.1 "1.10.0-rc.1" "1.10.0" _ _ (isSemver_of_parse candidate).1
      (isSemver_of_parse release).1
    rw [rule.mpr (.inl (by decide))]
    decide +kernel
  · exact (plugin_versions_ordered_iff ["1.10.0-rc.1", "1.10.0"]).2.2.2.2.1.mpr (.inr settled) sort sorts
      ["1.10.0", "1.10.0-rc.1"] (.swap ..)
  · exact (plugin_versions_ordered_iff ["1.10.0"]).2.2.2.2.2 byVersion GluedOrder.sorts_mergeSort _ _ _ _ _ _ rfl rfl (.swap ..) (by decide +kernel) (.inr alone)

/-- A name that is no semantic version closes a cycle. With one sort or another, the active version
depends on the listing. -/
theorem plugin_versions_cycle :
    (["9.0.0", "10.0.0", "9"].all validCodexPluginVersion = true ∧
      compareCodexPluginVersions "9.0.0" "10.0.0" = .lt ∧ compareCodexPluginVersions "10.0.0" "9" = .lt ∧
      compareCodexPluginVersions "9.0.0" "9" = .gt) ∧
    ∃ sort, GluedOrder.Sorts compareCodexPluginVersions sort ∧ ∃ listed, listed.Perm ["9.0.0", "10.0.0", "9"] ∧
      activeVersion sort listed ≠ activeVersion sort ["9.0.0", "10.0.0", "9"] := by
  have low : compareCodexPluginVersions "9.0.0" "10.0.0" = .lt := by decide +kernel
  have middle : compareCodexPluginVersions "10.0.0" "9" = .lt := by decide +kernel
  have high : compareCodexPluginVersions "9.0.0" "9" = .gt := by decide +kernel
  refine ⟨⟨by decide +kernel, low, middle, high⟩, ?_⟩
  have cyclic : ¬ GluedOrder.Orders compareCodexPluginVersions ["9.0.0", "10.0.0", "9"] := by
    intro orders
    have above := orders "9.0.0" (by simp) "10.0.0" (by simp) "9" (by simp) (by rw [low]; rfl) (by rw [middle]; rfl)
    rw [high] at above
    cases above
  obtain ⟨sort, sorts, listed, same, differs⟩ := GluedOrder.last_depends cyclic
  refine ⟨sort, sorts, listed, same, ?_⟩
  rwa [activeVersion, activeVersion, if_neg (mt same.mem_iff.mp (by decide)), if_neg (by decide)]

end Wisphive.CodexHost
