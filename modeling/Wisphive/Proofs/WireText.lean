import Mathlib.Data.Option.Basic
import Wisphive.WireText

/-! What one side of a hook's connection writes, the other side reads back. -/

namespace Wisphive
open Foundation

/-! ### Identifiers -/

theorem hexValue_digitChar : ∀ value : Fin 16, Json.hexValue value.val.digitChar = some value.val := by
  decide

/-- The digits in front stand for the upper bits. -/
theorem hexNumber_prefix (id : Uuid) {count : Nat} (bound : count ≤ 32) :
    Json.hexNumber ((List.range count).map fun place => (id.extractLsb' (4 * (31 - place)) 4).toNat.digitChar) =
      some (id.toNat / 16 ^ (32 - count)) := by
  induction count with
  | zero =>
    have small : id.toNat / 16 ^ 32 = 0 := Nat.div_eq_of_lt id.isLt
    rw [Nat.sub_zero, small]
    rfl
  | succ count ih =>
    have front := ih (by omega)
    have step : 16 ^ (32 - count) = 16 ^ (31 - count) * 16 := by
      rw [← Nat.pow_succ]
      congr 1
      omega
    have lower : 32 - (count + 1) = 31 - count := by omega
    have nibble : (id.extractLsb' (4 * (31 - count)) 4).toNat = id.toNat / 16 ^ (31 - count) % 16 := by
      rw [BitVec.extractLsb'_toNat, Nat.shiftRight_eq_div_pow, Nat.pow_mul]
    have digit := hexValue_digitChar ⟨id.toNat / 16 ^ (31 - count) % 16, Nat.mod_lt _ (by decide)⟩
    unfold Json.hexNumber at front ⊢
    rw [List.range_succ, List.map_append, List.foldlM_append, front]
    simp only [List.map_cons, List.map_nil, List.foldlM_cons, List.foldlM_nil, Option.bind_eq_bind, Option.bind_some,
      nibble, digit, Option.map_some, lower, step, ← Nat.div_div_eq_div_mul]
    exact congrArg some (Nat.div_add_mod _ 16)

theorem uuidDigits_length (id : Uuid) : (uuidDigits id).length = 32 := by
  rw [uuidDigits, List.length_map, List.length_range]

theorem uuidOfDigits_uuidDigits (id : Uuid) : uuidOfDigits (uuidDigits id) = some id := by
  rw [uuidOfDigits, if_pos (uuidDigits_length id), uuidDigits, hexNumber_prefix id (Nat.le_refl 32)]
  simp only [Nat.sub_self, Nat.pow_zero, Nat.div_one, Option.map_some, BitVec.ofNat_toNat, BitVec.setWidth_eq]

theorem parseHyphenated_groups {first second third fourth fifth : List Char} (one : first.length = 8)
    (two : second.length = 4) (three : third.length = 4) (four : fourth.length = 4) :
    parseHyphenated (first ++ '-' :: (second ++ '-' :: (third ++ '-' :: (fourth ++ '-' :: fifth)))) =
      uuidOfDigits (first ++ second ++ third ++ fourth ++ fifth) := by
  match first, one, second, two, third, three, fourth, four with
  | [_, _, _, _, _, _, _, _], _, [_, _, _, _], _, [_, _, _, _], _, [_, _, _, _], _ => rfl

theorem parseUuid_uuidText (id : Uuid) : parseUuid (uuidText id) = some id := by
  have length := uuidDigits_length id
  have group : ∀ start size, start + size ≤ 32 → (((uuidDigits id).drop start).take size).length = size := by
    intro start size inside
    rw [List.length_take, List.length_drop, length]
    omega
  have text : (uuidText id).toList = ((uuidDigits id).drop 0).take 8 ++ '-' :: (((uuidDigits id).drop 8).take 4 ++ '-' ::
      (((uuidDigits id).drop 12).take 4 ++ '-' :: (((uuidDigits id).drop 16).take 4 ++ '-' ::
        ((uuidDigits id).drop 20).take 12))) := by
    simp only [uuidText, String.toList_append, String.toList_ofList, List.append_assoc]
    rfl
  have size : (uuidText id).toList.length = 36 := by
    simp only [text, List.length_append, List.length_cons]
    rw [group 0 8 (by decide), group 8 4 (by decide), group 12 4 (by decide), group 16 4 (by decide),
      group 20 12 (by decide)]
  have joined : ∀ first second : Nat, (uuidDigits id).take first ++ ((uuidDigits id).drop first).take second =
      (uuidDigits id).take (first + second) := fun first second => List.take_add.symm
  have plain : (uuidText id).toList.length ≠ 32 := by
    rw [size]
    decide
  unfold parseUuid
  dsimp only
  rw [if_neg plain, if_pos size, text, parseHyphenated_groups (group 0 8 (by decide)) (group 8 4 (by decide))
    (group 12 4 (by decide)) (group 16 4 (by decide)), List.drop_zero, joined 8 4, joined 12 4, joined 16 4, joined 20 12,
    List.take_of_length_le (Nat.le_of_eq length), uuidOfDigits_uuidDigits]

/-! ### Members -/

namespace Wire

theorem lookup_optional (key name : String) (value : Option Json) :
    (optional name value).lookup key = if key = name then value else none := by
  cases value with
  | none => simp only [optional, List.lookup_nil, ite_self]
  | some value =>
    by_cases same : key = name
    · simp only [optional, same, List.lookup_cons_self, if_true]
    · simp only [optional, List.lookup_cons, beq_false_of_ne same, List.lookup_nil, same, if_false]

/-- Members of which each name stands at most once are single. -/
theorem single_of_sublist (names : List String) {all : List String} {members : List (String × Json)}
    (listed : (members.map (·.1)).Sublist all) (distinct : all.Nodup) : single names (.object members) = true :=
  decide_eq_true ((distinct.sublist listed).filter _)

theorem optional_sublist (name : String) (value : Option Json) : ((optional name value).map (·.1)).Sublist [name] := by
  cases value with
  | none => exact List.nil_sublist _
  | some value => exact List.Sublist.refl _

end Wire

open Wire

theorem PermissionRule.fromValue_toValue (rule : PermissionRule) : fromValue rule.toValue = some rule := rfl

theorem PermissionRule.mapM_fromValue (rules : List PermissionRule) :
    (rules.map (·.toValue)).mapM fromValue = some rules := by
  induction rules with
  | nil => rfl
  | cons rule rest ih =>
    rw [List.map_cons, List.mapM_cons, fromValue_toValue, ih]
    rfl

theorem PermissionSuggestion.fromValue_toValue (suggestion : PermissionSuggestion) :
    fromValue suggestion.toValue = some suggestion := by
  obtain ⟨suggestionType, rules, behavior, destination, mode⟩ := suggestion
  cases rules with
  | nil => cases mode <;> rfl
  | cons rule rest =>
    have listed := PermissionRule.mapM_fromValue (rule :: rest)
    cases mode <;>
    · change ((((rule :: rest).map (·.toValue)).mapM PermissionRule.fromValue).bind _) = _
      rw [listed]
      rfl

namespace ServerMessage

/-- What a reader makes of a replacement input: a null is none. -/
def Replaceable (float : String → Option String) (input : Json) : Prop :=
  input ≠ .null ∧ Json.Readable float (Json.maxDepth - 1) input

/-- What a hook's connection carries. -/
def Carried (float : String → Option String) : ServerMessage → Prop
  | .welcome version => version < 4294967296
  | .decisionResponse _ _ _ updatedInput _ _ => ∀ input ∈ updatedInput, Replaceable float input
  | .error _ | .overloaded _ => True
  | _ => False

theorem u32Of_natCast {value : Nat} (bound : value < 4294967296) :
    u32Of (.number (.integer value)) = some value := by
  have fits : (0 : Int) ≤ value ∧ (value : Int) < 4294967296 := by omega
  simp only [u32Of, fits, and_self, if_true, Int.toNat_natCast]

theorem variantOf_word (decision : Decision) :
    variantOf Decision.word [.approve, .deny, .ask] (.string decision.word) = some decision := by
  cases decision <;> rfl

/-- An optional member is read back, if its text is no null. -/
theorem optionalOf_member {α : Type} {parse : Json → Option α} (render : α → Json) {name : String} {value : Json}
    {member : Option α} (found : value.get? name = member.map render)
    (read : ∀ content ∈ member, parse (render content) = some content ∧ render content ≠ .null) :
    optionalOf parse name value = some member := by
  rw [optionalOf.eq_def, found]
  cases member with
  | none => rfl
  | some content =>
    obtain ⟨parsed, present⟩ := read content rfl
    simp only [Option.map_some, parsed]

theorem fromValue_welcome {version : Nat} (bound : version < 4294967296) :
    fromValue (.object [("type", .string "welcome"), ("version", .number (.integer version))]) =
      some (.welcome version) := by
  have found : (Json.object [("type", .string "welcome"), ("version", .number (.integer version))]).get? "version" =
      some (.number (.integer version)) := rfl
  have read : required u32Of "version" (.object [("type", .string "welcome"), ("version", .number (.integer version))]) =
      some version := by
    rw [required, found, Option.bind_some, u32Of_natCast bound]
  simp only [fromValue, read]
  rfl

theorem fromValue_decisionResponse {float : String → Option String} {id : Uuid} {decision : Decision}
    {message : Option String} {updatedInput : Option Json} {additionalContext : Option String}
    {selectedPermission : Option PermissionSuggestion} {value : Json}
    (carried : ∀ input ∈ updatedInput, Replaceable float input)
    (written : toValue (.decisionResponse id decision message updatedInput additionalContext selectedPermission) =
      some value) :
    fromValue value =
      some (.decisionResponse id decision message updatedInput additionalContext selectedPermission) := by
  obtain ⟨members, rfl, shape⟩ : ∃ members, value = .object members ∧
      members = [("type", .string "decision_response"), ("id", .string (uuidText id)),
        ("decision", .string decision.word)] ++ Wire.optional "message" (message.map .string) ++
        Wire.optional "updated_input" updatedInput ++ Wire.optional "additional_context" (additionalContext.map .string) ++
        Wire.optional "selected_permission" (selectedPermission.map (·.toValue)) :=
    ⟨_, (Option.some.inj written).symm, rfl⟩
  have listed : (members.map (·.1)).Sublist ["type", "id", "decision", "message", "updated_input",
      "additional_context", "selected_permission"] := by
    rw [shape]
    simp only [List.map_append]
    exact ((((List.Sublist.refl ["type", "id", "decision"]).append (optional_sublist ..)).append
      (optional_sublist ..)).append (optional_sublist ..)).append (optional_sublist ..)
  have once := fun names => single_of_sublist names listed (by decide)
  have found : ∀ name, (Json.object members).get? name = members.lookup name := fun _ => rfl
  have tag : required (·.asString?) "type" (.object members) = some "decision_response" := by
    rw [required, found, shape]
    rfl
  have readId : required uuidOf "id" (.object members) = some id := by
    have stands : members.lookup "id" = some (.string (uuidText id)) := by
      rw [shape]
      rfl
    rw [required, found, stands, Option.bind_some, uuidOf, parseUuid_uuidText]
  have readDecision : required (variantOf Decision.word [.approve, .deny, .ask]) "decision" (.object members) =
      some decision := by
    have stands : members.lookup "decision" = some (.string decision.word) := by
      rw [shape]
      rfl
    rw [required, found, stands, Option.bind_some, variantOf_word]
  have readMessage : optionalOf (·.asString?) "message" (.object members) = some message := by
    refine optionalOf_member .string ?_ fun _ _ => ⟨rfl, Json.noConfusion⟩
    rw [found, shape]
    simp [List.lookup_append, List.lookup_cons, lookup_optional]
  have readInput : optionalOf some "updated_input" (.object members) = some updatedInput := by
    refine optionalOf_member (fun input => input) ?_ fun input member => ⟨rfl, (carried input member).1⟩
    rw [found, shape]
    simp [List.lookup_append, List.lookup_cons, lookup_optional]
  have readContext : optionalOf (·.asString?) "additional_context" (.object members) = some additionalContext := by
    refine optionalOf_member .string ?_ fun _ _ => ⟨rfl, Json.noConfusion⟩
    rw [found, shape]
    simp [List.lookup_append, List.lookup_cons, lookup_optional]
  have readPermission : optionalOf PermissionSuggestion.fromValue "selected_permission" (.object members) =
      some selectedPermission := by
    refine optionalOf_member (·.toValue) ?_ fun suggestion _ => ⟨PermissionSuggestion.fromValue_toValue suggestion, Json.noConfusion⟩
    rw [found, shape]
    simp [List.lookup_append, List.lookup_cons, lookup_optional]
  simp only [fromValue, once, tag, readId, readDecision, readMessage, readInput, readContext, readPermission]
  rfl

theorem fromValue_toValue {float : String → Option String} {message : ServerMessage} {value : Json}
    (carried : message.Carried float) (written : message.toValue = some value) : fromValue value = some message := by
  cases message with
  | welcome version =>
    cases written
    exact fromValue_welcome carried
  | error message | overloaded message =>
    cases written
    rfl
  | decisionResponse => exact fromValue_decisionResponse carried written
  | _ => cases written

end ServerMessage

/-- A line of an object is the object's text between the ends. -/
theorem trim_object (members : List (String × Json)) :
    EventIngest.trim ((Json.object members).render ++ "\n") = (Json.object members).render := by
  have text : ((Json.object members).render ++ "\n").toList =
      '{' :: (Json.renderMembers members ++ ['}', '\n']) := by
    rw [String.toList_append, Json.render, String.toList_ofList, Json.renderChars, List.append_assoc]
    rfl
  rw [EventIngest.trim, text, List.dropWhile_cons_of_neg (by decide), Redact.trimEnd, List.reverse_cons,
    List.reverse_append]
  change String.ofList (List.dropWhile _ ('\n' :: '}' :: ((Json.renderMembers members).reverse ++ ['{']))).reverse = _
  rw [List.dropWhile_cons_of_pos (by decide), List.dropWhile_cons_of_neg (by decide), List.reverse_cons,
    List.reverse_append, List.reverse_reverse]
  rfl

namespace PermissionSuggestion

theorem readable_toValue {float : String → Option String} (depth : Nat) (suggestion : PermissionSuggestion) :
    Json.Readable float (depth + 3) suggestion.toValue := by
  have rules : Json.ReadableItems float (depth + 1) (suggestion.rules.map (·.toValue)) := by
    apply Json.readableItems_of
    intro item member
    obtain ⟨rule, _, rfl⟩ := List.mem_map.mp member
    exact ⟨trivial, trivial, trivial⟩
  rw [toValue, Json.Readable]
  simp only [Json.readableMembers_append]
  refine ⟨⟨⟨⟨trivial, trivial⟩, ?_⟩, trivial, trivial, trivial⟩, ?_⟩
  · split
    · trivial
    · exact ⟨rules, trivial⟩
  · cases suggestion.mode with
    | none => trivial
    | some mode => exact ⟨trivial, trivial⟩

end PermissionSuggestion

namespace ServerMessage
variable {float : String → Option String}

theorem readable_toValue {message : ServerMessage} {value : Json} (carried : message.Carried float)
    (written : message.toValue = some value) :
    (∃ members, value = .object members) ∧ Json.Readable float Json.maxDepth value := by
  have text : ∀ name (content : Option String), Json.ReadableMembers float 126 (Wire.optional name (content.map .string)) := by
    intro name content
    cases content with
    | none => trivial
    | some content => exact ⟨trivial, trivial⟩
  cases message with
  | welcome version =>
    cases written
    have bound : version < 4294967296 := carried
    exact ⟨⟨_, rfl⟩, trivial, Json.legible_nat (by omega), trivial⟩
  | error message | overloaded message =>
    cases written
    exact ⟨⟨_, rfl⟩, trivial, trivial, trivial⟩
  | decisionResponse id decision message updatedInput additionalContext selectedPermission =>
    cases written
    refine ⟨⟨_, rfl⟩, ?_⟩
    change Json.ReadableMembers float 126 _
    simp only [Json.readableMembers_append]
    refine ⟨⟨⟨⟨⟨trivial, trivial, trivial, trivial⟩, text ..⟩, ?_⟩, text ..⟩, ?_⟩
    · cases updatedInput with
      | none => trivial
      | some input => exact ⟨(carried input rfl).2, trivial⟩
    · cases selectedPermission with
      | none => trivial
      | some suggestion => exact ⟨suggestion.readable_toValue 123, trivial⟩
  | _ => cases written

/-- A line of a hook's connection is read back as the message that was written. -/
theorem decode_encode {message : ServerMessage} {line : String} (carried : message.Carried float)
    (written : message.encode = some line) : decode float line = some message := by
  obtain ⟨value, shown, rfl⟩ := Option.map_eq_some_iff.mp written
  obtain ⟨⟨members, rfl⟩, readable⟩ := readable_toValue carried shown
  rw [decode, trim_object, Json.parse_render readable, Option.bind_some]
  exact fromValue_toValue carried shown

end ServerMessage
end Wisphive
