import Wisphive.Foundation.JsonLayout

/-! What becomes of a text that is read, written and read again. A number that is no
integer may come back as another one. Objects that are kept as maps are written with
ascending keys. -/

namespace Foundation
namespace Json

/-! ### Numbers -/

/-- What a number is read as once it was written. -/
def settle (float : String → Option String) : Number → Number
  | .integer value => .integer value
  | .float text => .float ((float text).getD text)

/-- What was read as a number is written as a number. -/
def Rewritable (float : String → Option String) : Prop :=
  ∀ {text written}, float text = some written → ReadAs float (.float written) (settle float (.float written))

variable {float : String → Option String}

theorem readAs_nat {value : Nat} (bound : value < 2 ^ 64) :
    ReadAs float (.integer value) (settle float (.integer value)) :=
  (legible_nat bound).readAs

theorem readAs_negative {value : Nat} (positive : 0 < value) (bound : value ≤ 2 ^ 63) :
    ReadAs float (.integer (-value)) (settle float (.integer (-value))) :=
  (legible_negative positive bound).readAs

/-- A digit, a point and more digits are read as what the text stands for. -/
theorem readAs_fraction {digit : Char} {fraction : List Char} {text other : String}
    (shape : text.toList = digit :: '.' :: fraction) (whole : digit.isDigit = true) (given : fraction ≠ [])
    (decimals : fraction.all Char.isDigit = true) (found : float text = some other) :
    ReadAs float (.float text) (.float other) := by
  have tail : ∀ char ∈ fraction, char.isDigit = true := List.all_eq_true.mp decimals
  have unbroken : '\n' ∉ renderNumber (.float text) := by
    rw [renderNumber, shape, List.mem_cons, List.mem_cons, not_or, not_or]
    refine ⟨?_, by decide, fun broken => absurd (tail _ broken) (by decide)⟩
    rintro rfl
    exact absurd whole (by decide)
  refine ⟨⟨digit, _, shape, .inr whole⟩, unbroken, fun {rest} follows => ?_⟩
  have unsigned : digit ≠ '-' := by
    rintro rfl
    exact absurd whole (by decide)
  have first : digits (digit :: '.' :: (fraction ++ rest)) = ([digit], '.' :: (fraction ++ rest)) := by
    rw [digits, List.takeWhile_cons_of_pos whole, List.dropWhile_cons_of_pos whole]
    rfl
  have point : readFraction ('.' :: (fraction ++ rest)) = some ('.' :: fraction, rest) := by
    simp only [readFraction, digits_append tail follows, given, if_false]
  have same : String.ofList (digit :: '.' :: fraction) = text := by rw [← shape, String.ofList_toList]
  have number : numberOf float false [digit] ('.' :: fraction) = some (.float other) := by
    simp only [numberOf, ne_eq, reduceCtorEq, not_false_eq_true, if_true, Bool.false_eq_true, if_false, List.nil_append,
      List.singleton_append, same, found, Option.map_some]
  have start : readNumber float (digit :: '.' :: (fraction ++ rest)) =
      readUnsigned float false (digit :: '.' :: (fraction ++ rest)) := by
    rw [readNumber.eq_def]
    split
    next signed => exact absurd (List.cons.inj signed).1 unsigned
    next => rfl
  rw [renderNumber, shape, List.cons_append, List.cons_append, start, readUnsigned, first]
  simp [point, readExponent_follows follows, number]

theorem readAs_of_numberOf (rewritable : Rewritable float) {negative : Bool} {whole tail : List Char} {number : Number}
    (read : numberOf float negative whole tail = some number) : ReadAs float number (settle float number) := by
  have written : ∀ {text}, (float text).map Number.float = some number → ReadAs float number (settle float number) := by
    intro text found
    obtain ⟨written, parsed, rfl⟩ := Option.map_eq_some_iff.mp found
    exact rewritable parsed
  simp only [numberOf] at read
  split at read
  next => exact written read
  next =>
    split at read
    next =>
      split at read
      next => exact written read
      next fits =>
        cases read
        exact readAs_negative (by omega) (by omega)
    next =>
      split at read
      next => exact written read
      next fits =>
        cases read
        exact readAs_nat (by omega)

theorem readAs_of_readNumber (rewritable : Rewritable float) {text rest : List Char} {number : Number}
    (read : readNumber float text = some (number, rest)) : ReadAs float number (settle float number) := by
  have unsigned : ∀ {negative text}, readUnsigned float negative text = some (number, rest) →
      ReadAs float number (settle float number) := by
    intro negative text read
    rw [readUnsigned.eq_def] at read
    split at read
    next => cases read
    next => cases read
    next =>
      split at read
      next => cases read
      next =>
        split at read
        next => cases read
        next =>
          obtain ⟨found, parsed, same⟩ := Option.map_eq_some_iff.mp read
          cases same
          exact readAs_of_numberOf rewritable parsed
  rw [readNumber.eq_def] at read
  split at read
  next => exact unsigned read
  next => exact unsigned read

/-! ### Values -/

theorem rereadable_of_readScalar (rewritable : Rewritable float) {depth : Nat} {text rest : List Char} {value : Json}
    (read : readScalar float text = some (value, rest)) : Rereadable float (settle float) depth value := by
  rw [readScalar.eq_def] at read
  split at read
  next => cases read; cases depth <;> trivial
  next => cases read; cases depth <;> trivial
  next => cases read; cases depth <;> trivial
  next =>
    obtain ⟨⟨number, after⟩, parsed, same⟩ := Option.map_eq_some_iff.mp read
    cases same
    cases depth <;> exact readAs_of_readNumber rewritable parsed

/-- Whatever is read can be written and read again, at the depth at which it stood. -/
theorem rereadable_of_read (rewritable : Rewritable float) (fuel : Nat) :
    (∀ {depth text value rest}, readValue float fuel depth text = some (value, rest) →
      Rereadable float (settle float) depth value) ∧
    (∀ {depth text items rest}, readItems float fuel depth text = some (items, rest) →
      RereadableItems float (settle float) depth items) ∧
    (∀ {depth text members rest}, readMembers float fuel depth text = some (members, rest) →
      RereadableMembers float (settle float) depth members) := by
  induction fuel with
  | zero =>
    refine ⟨?_, ?_, ?_⟩ <;>
    · intro depth text value rest read
      simp only [readValue, readItems, readMembers] at read
      cases read
  | succ fuel ih =>
    obtain ⟨values, listed, named⟩ := ih
    refine ⟨?_, ?_, ?_⟩
    · intro depth text value rest read
      rw [readValue.eq_def] at read
      dsimp only at read
      split at read
      next =>
        obtain ⟨_, _, same⟩ := Option.map_eq_some_iff.mp read
        cases same
        exact rereadable_string _
      next => cases read
      next => cases read
      next =>
        split at read
        next => cases read; trivial
        next =>
          obtain ⟨_, parsed, same⟩ := Option.map_eq_some_iff.mp read
          cases same
          exact listed parsed
      next =>
        split at read
        next => cases read; trivial
        next =>
          obtain ⟨_, parsed, same⟩ := Option.map_eq_some_iff.mp read
          cases same
          exact named parsed
      next => exact rereadable_of_readScalar rewritable read
    · intro depth text items rest read
      rw [readItems.eq_def] at read
      dsimp only at read
      split at read
      next => cases read
      next first =>
        split at read
        next => cases read; exact ⟨values first, trivial⟩
        next =>
          obtain ⟨_, parsed, same⟩ := Option.map_eq_some_iff.mp read
          cases same
          exact ⟨values first, listed parsed⟩
        next => cases read
    · intro depth text members rest read
      rw [readMembers.eq_def] at read
      dsimp only at read
      split at read
      next =>
        split at read
        next => cases read
        next =>
          split at read
          next =>
            split at read
            next => cases read
            next first =>
              split at read
              next => cases read; exact ⟨values first, trivial⟩
              next =>
                obtain ⟨_, parsed, same⟩ := Option.map_eq_some_iff.mp read
                cases same
                exact ⟨values first, named parsed⟩
              next => cases read
          next => cases read
      next => cases read

theorem rereadable_of_parse (rewritable : Rewritable float) {text : String} {value : Json}
    (read : parse float text = some value) : Rereadable float (settle float) maxDepth value := by
  rw [parse.eq_def] at read
  split at read
  next found =>
    split at read
    next =>
      cases read
      exact (rereadable_of_read rewritable _).1 found
    next => cases read
  next => cases read

/-! ### Maps -/

/-- A member among members with ascending keys. It takes the place of one under the
same key. -/
def insertSorted (key : String) (value : Json) : List (String × Json) → List (String × Json)
  | [] => [(key, value)]
  | (name, held) :: rest =>
    if key < name then (key, value) :: (name, held) :: rest
    else if key = name then (key, value) :: rest
    else (name, held) :: insertSorted key value rest

mutual
/-- A value whose objects are kept as maps that are ordered by their keys. -/
def sorted : Json → Json
  | .null => .null
  | .bool value => .bool value
  | .number value => .number value
  | .string value => .string value
  | .array items => .array (sortedItems items)
  | .object members => .object (sortedMembers [] members)

def sortedItems : List Json → List Json
  | [] => []
  | item :: rest => sorted item :: sortedItems rest

def sortedMembers (before : List (String × Json)) : List (String × Json) → List (String × Json)
  | [] => before
  | (key, value) :: rest => sortedMembers (insertSorted key (sorted value) before) rest
end

/-- Each key is above those before it. -/
def Ascending (members : List (String × Json)) : Prop :=
  members.Pairwise fun earlier later => earlier.1 < later.1

mutual
/-- The keys of an object ascend, at every depth. -/
def Sorted : Json → Prop
  | .null | .bool _ | .number _ | .string _ => True
  | .array items => SortedItems items
  | .object members => Ascending members ∧ SortedMembers members

def SortedItems : List Json → Prop
  | [] => True
  | item :: rest => Sorted item ∧ SortedItems rest

def SortedMembers : List (String × Json) → Prop
  | [] => True
  | (_, value) :: rest => Sorted value ∧ SortedMembers rest
end

theorem insertSorted_last {key : String} {value : Json} {before : List (String × Json)}
    (above : ∀ member ∈ before, member.1 < key) : insertSorted key value before = before ++ [(key, value)] := by
  induction before with
  | nil => rfl
  | cons first rest ih =>
    obtain ⟨name, held⟩ := first
    have below : name < key := above (name, held) (List.mem_cons_self ..)
    have differs : key ≠ name := by
      rintro rfl
      exact String.lt_irrefl _ below
    rw [insertSorted, if_neg (String.lt_asymm below), if_neg differs,
      ih fun member later => above member (List.mem_cons_of_mem _ later), List.cons_append]

mutual
/-- A map is read as itself. -/
theorem sorted_eq : (value : Json) → Sorted value → sorted value = value
  | .null, _ | .bool _, _ | .number _, _ | .string _, _ => by simp only [sorted]
  | .array items, ordered => by rw [sorted, sortedItems_eq items ordered]
  | .object members, ordered => by
    rw [sorted, sortedMembers_eq [] members ordered.1 ordered.2, List.nil_append]

theorem sortedItems_eq : (items : List Json) → SortedItems items → sortedItems items = items
  | [], _ => by rw [sortedItems]
  | item :: rest, ordered => by rw [sortedItems, sorted_eq item ordered.1, sortedItems_eq rest ordered.2]

theorem sortedMembers_eq (before : List (String × Json)) : (members : List (String × Json)) →
    Ascending (before ++ members) → SortedMembers members → sortedMembers before members = before ++ members
  | [], _, _ => by rw [sortedMembers, List.append_nil]
  | (key, value) :: rest, ascending, ordered => by
    have above : ∀ member ∈ before, member.1 < key := fun member earlier =>
      (List.pairwise_append.mp ascending).2.2 member earlier (key, value) (List.mem_cons_self ..)
    have shifted : Ascending ((before ++ [(key, value)]) ++ rest) := by
      rwa [List.append_assoc, List.singleton_append]
    rw [sortedMembers, sorted_eq value ordered.1, insertSorted_last above,
      sortedMembers_eq (before ++ [(key, value)]) rest shifted ordered.2, List.append_assoc, List.singleton_append]
end

theorem rereadable_insertSorted {change : Number → Number} {depth : Nat} {key : String} {value : Json}
    {members : List (String × Json)} (held : Rereadable float change depth value)
    (others : RereadableMembers float change depth members) :
    RereadableMembers float change depth (insertSorted key value members) := by
  induction members with
  | nil => exact ⟨held, trivial⟩
  | cons first rest ih =>
    obtain ⟨name, kept⟩ := first
    rw [insertSorted]
    split
    next => exact ⟨held, others⟩
    next =>
      split
      next => exact ⟨held, others.2⟩
      next => exact ⟨others.1, ih others.2⟩

mutual
theorem rereadable_sorted {change : Number → Number} {depth : Nat} :
    (value : Json) → Rereadable float change depth value → Rereadable float change depth (sorted value)
  | .null, readable | .bool _, readable | .number _, readable | .string _, readable => by rwa [sorted]
  | .array items, readable => by
    obtain ⟨below, rfl, listed⟩ := rereadable_array readable
    rw [sorted]
    exact rereadable_sortedItems items listed
  | .object members, readable => by
    obtain ⟨below, rfl, listed⟩ := rereadable_object readable
    rw [sorted]
    exact rereadable_sortedMembers [] members trivial listed

theorem rereadable_sortedItems {change : Number → Number} {depth : Nat} :
    (items : List Json) → RereadableItems float change depth items → RereadableItems float change depth (sortedItems items)
  | [], _ => by rw [sortedItems]; trivial
  | item :: rest, readable => by
    rw [sortedItems]
    exact ⟨rereadable_sorted item readable.1, rereadable_sortedItems rest readable.2⟩

theorem rereadable_sortedMembers {change : Number → Number} {depth : Nat} (before : List (String × Json)) :
    (members : List (String × Json)) → RereadableMembers float change depth before →
      RereadableMembers float change depth members → RereadableMembers float change depth (sortedMembers before members)
  | [], kept, _ => by rwa [sortedMembers]
  | (key, value) :: rest, kept, readable => by
    rw [sortedMembers]
    exact rereadable_sortedMembers _ rest
      (rereadable_insertSorted (rereadable_sorted value readable.1) kept) readable.2
end

theorem mem_insertSorted {key : String} {value : Json} {entry : String × Json} {members : List (String × Json)}
    (member : entry ∈ insertSorted key value members) : entry = (key, value) ∨ entry ∈ members := by
  induction members with
  | nil => exact .inl (List.mem_singleton.mp member)
  | cons first rest ih =>
    obtain ⟨name, kept⟩ := first
    rw [insertSorted] at member
    split at member
    next => exact List.mem_cons.mp member
    next =>
      split at member
      next => exact (List.mem_cons.mp member).imp_right (List.mem_cons_of_mem _)
      next =>
        rcases List.mem_cons.mp member with rfl | later
        · exact .inr (List.mem_cons_self ..)
        · exact (ih later).imp_right (List.mem_cons_of_mem _)

/-- The members of a map are among those that were given. -/
theorem mem_sortedMembers {entry : String × Json} {before members : List (String × Json)}
    (member : entry ∈ sortedMembers before members) :
    entry ∈ before ∨ ∃ given ∈ members, entry = (given.1, sorted given.2) := by
  induction members generalizing before with
  | nil =>
    rw [sortedMembers] at member
    exact .inl member
  | cons first rest ih =>
    rw [sortedMembers] at member
    rcases ih member with inserted | ⟨given, later, same⟩
    · rcases mem_insertSorted inserted with same | earlier
      · exact .inr ⟨first, List.mem_cons_self .., same⟩
      · exact .inl earlier
    · exact .inr ⟨given, List.mem_cons_of_mem _ later, same⟩

theorem ascending_iff {members : List (String × Json)} :
    Ascending members ↔ (members.map Prod.fst).Pairwise (· < ·) :=
  List.pairwise_map.symm

theorem keys_mapMembers {change : Number → Number} (members : List (String × Json)) :
    (mapMembers change members).map Prod.fst = members.map Prod.fst := by
  induction members with
  | nil => rfl
  | cons first rest ih => rw [mapMembers, List.map_cons, List.map_cons, ih]

theorem ascending_mapMembers {change : Number → Number} {members : List (String × Json)} (ascending : Ascending members) :
    Ascending (mapMembers change members) := by
  rw [ascending_iff, keys_mapMembers]
  exact ascending_iff.mp ascending

mutual
/-- Other numbers leave the keys as they are. -/
theorem sorted_mapNumbers {change : Number → Number} : (value : Json) → Sorted value → Sorted (mapNumbers change value)
  | .null, _ | .bool _, _ | .number _, _ | .string _, _ => by simp only [mapNumbers, Sorted]
  | .array items, ordered => by
    rw [mapNumbers]
    exact sorted_mapItems items ordered
  | .object members, ordered => by
    rw [mapNumbers]
    exact ⟨ascending_mapMembers ordered.1, sorted_mapMembers members ordered.2⟩

theorem sorted_mapItems {change : Number → Number} :
    (items : List Json) → SortedItems items → SortedItems (mapItems change items)
  | [], _ => trivial
  | item :: rest, ordered => ⟨sorted_mapNumbers item ordered.1, sorted_mapItems rest ordered.2⟩

theorem sorted_mapMembers {change : Number → Number} :
    (members : List (String × Json)) → SortedMembers members → SortedMembers (mapMembers change members)
  | [], _ => trivial
  | (_, value) :: rest, ordered => ⟨sorted_mapNumbers value ordered.1, sorted_mapMembers rest ordered.2⟩
end

end Json
end Foundation
