import Wisphive.Foundation.JsonReader

/-! How far a reader gets. What it leaves is the end of its text, and a string is shorter
than the text that it was read from. -/

namespace Foundation
namespace Json

mutual
/-- The strings of a value at any depth, the names of members aside. -/
def strings : Json → List String
  | .null | .bool _ | .number _ => []
  | .string content => [content]
  | .array items => itemStrings items
  | .object members => memberStrings members

def itemStrings : List Json → List String
  | [] => []
  | item :: rest => strings item ++ itemStrings rest

def memberStrings : List (String × Json) → List String
  | [] => []
  | (_, value) :: rest => strings value ++ memberStrings rest
end

theorem mem_memberStrings {members : List (String × Json)} {key content : String}
    (member : (key, .string content) ∈ members) : content ∈ memberStrings members := by
  induction members with
  | nil => cases member
  | cons first rest ih =>
    rw [memberStrings, List.mem_append]
    rcases List.mem_cons.mp member with rfl | later
    · exact .inl (by rw [strings]; exact List.mem_cons_self ..)
    · exact .inr (ih later)

variable {float : String → Option String} {text rest : List Char}

theorem skipSpace_suffix (text : List Char) : skipSpace text <:+ text :=
  List.dropWhile_suffix isSpace

theorem digits_suffix (text : List Char) : (digits text).2 <:+ text :=
  List.dropWhile_suffix Char.isDigit

theorem readFraction_suffix {fraction : List Char} (read : readFraction text = some (fraction, rest)) :
    rest <:+ text := by
  rw [readFraction.eq_def] at read
  split at read
  next more =>
    split at read
    next => cases read
    next =>
      cases read
      exact (digits_suffix more).trans (List.suffix_cons ..)
  next =>
    cases read
    exact List.suffix_rfl

theorem exponentDigits_suffix {mark exponent : List Char} (read : exponentDigits mark text = some (exponent, rest)) :
    rest <:+ text := by
  rw [exponentDigits] at read
  split at read
  next => cases read
  next =>
    cases read
    exact digits_suffix text

theorem readExponent_suffix {exponent : List Char} (read : readExponent text = some (exponent, rest)) :
    rest <:+ text := by
  rw [readExponent.eq_def] at read
  split at read
  next mark more =>
    split at read
    next =>
      have marked : ∀ {signed}, signed <:+ more → rest <:+ signed → rest <:+ mark :: more :=
        fun inside left => left.trans (inside.trans (List.suffix_cons ..))
      split at read
      next => exact marked (List.suffix_cons ..) (exponentDigits_suffix read)
      next => exact marked (List.suffix_cons ..) (exponentDigits_suffix read)
      next => exact marked List.suffix_rfl (exponentDigits_suffix read)
    next =>
      cases read
      exact List.suffix_rfl
  next =>
    cases read
    exact List.suffix_rfl

theorem readUnsigned_suffix {negative : Bool} {number : Number}
    (read : readUnsigned float negative text = some (number, rest)) : rest <:+ text := by
  rw [readUnsigned.eq_def] at read
  split at read
  next => cases read
  next => cases read
  next whole behind _ _ shape =>
    have left : behind <:+ text := by
      have same : (digits text).2 = behind := congrArg Prod.snd shape
      exact same ▸ digits_suffix text
    split at read
    next => cases read
    next fraction =>
      split at read
      next => cases read
      next exponent =>
        obtain ⟨_, _, same⟩ := Option.map_eq_some_iff.mp read
        cases same
        exact (readExponent_suffix exponent).trans ((readFraction_suffix fraction).trans left)

theorem readNumber_suffix {number : Number} (read : readNumber float text = some (number, rest)) : rest <:+ text := by
  rw [readNumber.eq_def] at read
  split at read
  next => exact (readUnsigned_suffix read).trans (List.suffix_cons ..)
  next => exact readUnsigned_suffix read

theorem readScalar_suffix {value : Json} (read : readScalar float text = some (value, rest)) :
    rest <:+ text ∧ strings value = [] := by
  rw [readScalar.eq_def] at read
  split at read
  next =>
    cases read
    exact ⟨⟨"null".toList, rfl⟩, rfl⟩
  next =>
    cases read
    exact ⟨⟨"true".toList, rfl⟩, rfl⟩
  next =>
    cases read
    exact ⟨⟨"false".toList, rfl⟩, rfl⟩
  next =>
    obtain ⟨⟨number, after⟩, parsed, same⟩ := Option.map_eq_some_iff.mp read
    cases same
    exact ⟨readNumber_suffix parsed, rfl⟩

/-- What is left of a literal is the end of its text, and its characters are fewer. -/
def Shorter (text chars rest : List Char) : Prop :=
  rest <:+ text ∧ chars.length < text.length

theorem shorter_inFront {char : Char} {more chars : List Char} (mark : Char) (marks : List Char)
    (inside : ∀ {rest chars}, readChars more = some (chars, rest) → Shorter more chars rest)
    (read : (readChars more).map (inFront char) = some (chars, rest)) : Shorter (mark :: marks ++ more) chars rest := by
  obtain ⟨⟨behind, left⟩, parsed, same⟩ := Option.map_eq_some_iff.mp read
  cases same
  obtain ⟨suffix, fewer⟩ := inside parsed
  refine ⟨suffix.trans (List.suffix_append ..), ?_⟩
  change (char :: behind).length < _
  rw [List.length_cons, List.length_append, List.length_cons]
  omega

/-- An escape stands for one character, and the closing quote for none. -/
theorem readChars_shorter {chars : List Char} (read : readChars text = some (chars, rest)) : Shorter text chars rest := by
  fun_induction readChars text generalizing chars rest with
  | case2 =>
    cases read
    exact ⟨List.suffix_cons .., Nat.succ_pos _⟩
  | case5 _ _ _ _ _ _ _ _ _ _ _ _ _ _ _ _ inside =>
    exact shorter_inFront '\\' ['u', _, _, _, _, '\\', 'u', _, _, _, _] inside read
  | case9 _ _ _ _ _ _ _ _ _ _ inside => exact shorter_inFront '\\' ['u', _, _, _, _] inside read
  | case11 _ _ _ _ _ _ inside => exact shorter_inFront '\\' [_] inside read
  | case14 char _ _ _ _ inside => exact shorter_inFront char [] inside read
  | case1 | case3 | case4 | case6 | case7 | case8 | case10 | case12 | case13 => cases read

/-- What is left is the end of the text, and the strings that were found are shorter. -/
structure Within (text rest : List Char) (found : List String) : Prop where
  left : rest <:+ text
  shorter : ∀ content ∈ found, content.length < text.length

namespace Within
variable {more : List Char} {found others : List String}

theorem extend (within : Within more rest found) (suffix : more <:+ text) : Within text rest found :=
  ⟨within.left.trans suffix,
    fun content member => Nat.lt_of_lt_of_le (within.shorter content member) suffix.length_le⟩

/-- One value is read behind another. -/
theorem append {behind : List Char} (first : Within text behind found) (later : Within more rest others)
    (suffix : more <:+ behind) : Within text rest (found ++ others) := by
  have after := later.extend (suffix.trans first.left)
  refine ⟨after.left, fun content member => ?_⟩
  rcases List.mem_append.mp member with earlier | other
  · exact first.shorter content earlier
  · exact after.shorter content other

theorem none (suffix : rest <:+ text) : Within text rest [] :=
  ⟨suffix, fun _ member => by cases member⟩

theorem string {chars : List Char} (read : readChars more = some (chars, rest)) :
    Within ('"' :: more) rest [String.ofList chars] := by
  obtain ⟨suffix, fewer⟩ := readChars_shorter read
  refine ⟨suffix.trans (List.suffix_cons ..), fun content member => ?_⟩
  rw [List.mem_singleton.mp member, String.length_ofList]
  exact Nat.lt_succ_of_lt fewer

end Within

theorem within_read (fuel : Nat) :
    (∀ {depth text value rest}, readValue float fuel depth text = some (value, rest) → Within text rest (strings value)) ∧
    (∀ {depth text items rest}, readItems float fuel depth text = some (items, rest) →
      Within text rest (itemStrings items)) ∧
    (∀ {depth text members rest}, readMembers float fuel depth text = some (members, rest) →
      Within text rest (memberStrings members)) := by
  induction fuel with
  | zero =>
    refine ⟨?_, ?_, ?_⟩ <;>
    · intro depth text value rest read
      simp only [readValue, readItems, readMembers] at read
      cases read
  | succ fuel ih =>
    obtain ⟨values, listed, named⟩ := ih
    refine ⟨?_, ?_, ?_⟩
    · intro depth text value rest read
      have start := skipSpace_suffix text
      rw [readValue.eq_def] at read
      dsimp only at read
      split at read
      next opened =>
        rw [opened] at start
        obtain ⟨_, chars, same⟩ := Option.map_eq_some_iff.mp read
        cases same
        rw [strings]
        exact (Within.string chars).extend start
      next => cases read
      next => cases read
      next opened =>
        rw [opened] at start
        have inside := (skipSpace_suffix _).trans ((List.suffix_cons ..).trans start)
        split at read
        next closed =>
          rw [closed] at inside
          cases read
          exact .none ((List.suffix_cons ..).trans inside)
        next =>
          obtain ⟨_, parsed, same⟩ := Option.map_eq_some_iff.mp read
          cases same
          rw [strings]
          exact (listed parsed).extend inside
      next opened =>
        rw [opened] at start
        have inside := (skipSpace_suffix _).trans ((List.suffix_cons ..).trans start)
        split at read
        next closed =>
          rw [closed] at inside
          cases read
          exact .none ((List.suffix_cons ..).trans inside)
        next =>
          obtain ⟨_, parsed, same⟩ := Option.map_eq_some_iff.mp read
          cases same
          rw [strings]
          exact (named parsed).extend inside
      next =>
        obtain ⟨suffix, scalar⟩ := readScalar_suffix read
        rw [scalar]
        exact .none (suffix.trans start)
    · intro depth text items rest read
      rw [readItems.eq_def] at read
      dsimp only at read
      split at read
      next => cases read
      next behind first =>
        have inside := skipSpace_suffix behind
        rw [itemStrings.eq_def]
        split at read
        next closed =>
          rw [closed] at inside
          cases read
          exact (values first).append (.none List.suffix_rfl) ((List.suffix_cons ..).trans inside)
        next more =>
          rw [more] at inside
          obtain ⟨_, parsed, same⟩ := Option.map_eq_some_iff.mp read
          cases same
          exact (values first).append (listed parsed) ((List.suffix_cons ..).trans inside)
        next => cases read
    · intro depth text members rest read
      have start := skipSpace_suffix text
      rw [readMembers.eq_def] at read
      dsimp only at read
      split at read
      next opened =>
        rw [opened] at start
        split at read
        next => cases read
        next behind name =>
          have colon := (skipSpace_suffix behind).trans
            ((readChars_shorter name).1.trans ((List.suffix_cons ..).trans start))
          split at read
          next point =>
            rw [point] at colon
            split at read
            next => cases read
            next later first =>
              have value := (values first).extend ((List.suffix_cons ..).trans colon)
              have inside := skipSpace_suffix later
              rw [memberStrings.eq_def]
              split at read
              next closed =>
                rw [closed] at inside
                cases read
                exact value.append (.none List.suffix_rfl) ((List.suffix_cons ..).trans inside)
              next more =>
                rw [more] at inside
                obtain ⟨_, parsed, same⟩ := Option.map_eq_some_iff.mp read
                cases same
                exact value.append (named parsed) ((List.suffix_cons ..).trans inside)
              next => cases read
          next => cases read
      next => cases read

/-- A document is longer than each string in it. -/
theorem shorter_of_parse {document content : String} {value : Json} (read : parse float document = some value)
    (member : content ∈ strings value) : content.length < document.length := by
  rw [parse.eq_def] at read
  split at read
  next value rest found =>
    split at read
    next =>
      cases read
      have within := (within_read _).1 found
      rw [← String.length_toList]
      exact within.shorter content member
    next => cases read
  next => cases read

end Json
end Foundation
