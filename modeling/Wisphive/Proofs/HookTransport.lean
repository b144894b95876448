import Wisphive.HookTransport
import Wisphive.Proofs.WireText

/-! A decision that fits a line arrives as it was written. An end of the stream, or a line
beyond the cap, is taken for an outage and approved. -/

namespace Wisphive
open Foundation EventIngest

/-- Only a line end is written with the byte of a line end. -/
theorem newline_utf8EncodeChar {char : Char} (member : newline ∈ String.utf8EncodeChar char) : char = '\n' := by
  have number : newline.toNat = 10 := rfl
  have code : char.val.toNat = 10 := by
    unfold String.utf8EncodeChar at member
    dsimp only at member
    split at member
    · simp only [List.mem_cons, List.not_mem_nil, or_false, ← UInt8.toNat_inj, UInt8.toNat_ofNat', number] at member
      omega
    split at member
    · simp only [List.mem_cons, List.not_mem_nil, or_false, ← UInt8.toNat_inj, UInt8.toNat_ofNat', number] at member
      omega
    split at member
    all_goals
      simp only [List.mem_cons, List.not_mem_nil, or_false, ← UInt8.toNat_inj, UInt8.toNat_ofNat', number] at member
      omega
  rw [← Char.ofNat_toNat char]
  exact congrArg Char.ofNat code

theorem utf8_eq (text : String) : utf8 text = text.toList.flatMap String.utf8EncodeChar := by
  rw [utf8, String.toUTF8_eq_toByteArray, ← String.utf8Encode_toList, List.utf8Encode, List.toList_data_toByteArray]

theorem decode_utf8 (text : String) : decode (utf8 text) = some text :=
  dif_pos text.isValidUTF8

theorem newline_utf8 {text : String} (unbroken : '\n' ∉ text.toList) : newline ∉ utf8 text := by
  rw [utf8_eq, List.mem_flatMap]
  rintro ⟨char, member, byte⟩
  exact unbroken (newline_utf8EncodeChar byte ▸ member)

theorem utf8_append (first later : String) : utf8 (first ++ later) = utf8 first ++ utf8 later := by
  rw [utf8_eq, utf8_eq, utf8_eq, String.toList_append, List.flatMap_append]

section
variable {float : String → Option String} {message : ServerMessage} {line : String} {rest : Bytes}

/-- A message is one line. -/
theorem encode_line (carried : message.Carried float) (written : message.encode = some line) :
    ∃ content, utf8 line = content ++ [newline] ∧ newline ∉ content := by
  obtain ⟨value, shown, rfl⟩ := Option.map_eq_some_iff.mp written
  obtain ⟨_, readable⟩ := ServerMessage.readable_toValue carried shown
  refine ⟨utf8 value.render, utf8_append .., newline_utf8 ?_⟩
  rw [Json.render, String.toList_ofList]
  exact Json.renderChars_unbroken value (Json.Readable.rereadable value readable)

theorem complete_encode (carried : message.Carried float) (written : message.encode = some line) :
    (Lines.complete newline (utf8 line ++ rest)).head? = some (utf8 line) := by
  obtain ⟨content, shape, plain⟩ := encode_line carried written
  rw [shape, List.append_assoc, List.singleton_append, Lines.complete_line plain]
  rfl

/-- A line within the cap is read as it was written. -/
theorem readLineCapped_encode {maxBytes : Nat} (carried : message.Carried float) (written : message.encode = some line)
    (fits : (utf8 line).length ≤ maxBytes) (fault : Option String) :
    readLineCapped (utf8 line ++ rest) fault maxBytes = .ok (line, rest) := by
  simp only [readLineCapped, complete_encode carried written, Option.getD_some, Nat.not_lt.mpr fits, if_false, decode_utf8,
    List.drop_left]

/-- A line beyond the cap is not read. -/
theorem readLineCapped_beyond {maxBytes : Nat} (carried : message.Carried float) (written : message.encode = some line)
    (beyond : maxBytes < (utf8 line).length) (fault : Option String) :
    ∃ error, readLineCapped (utf8 line ++ rest) fault maxBytes = .error error := by
  simp only [readLineCapped, complete_encode carried written, Option.getD_some, beyond, if_true]
  exact ⟨_, rfl⟩

/-- What can be read as a message is not blank. -/
theorem trim_ne_of_decode (read : ServerMessage.decode float line = some message) : trim line ≠ "" := by
  intro blank
  rw [ServerMessage.decode, blank] at read
  cases read

end

section
variable {float : String → Option String} {socket : DaemonSocket} {eventType : HookEventType} {agentType : AgentType}
  {id : Uuid} {decision : Decision} {message : Option String} {updatedInput : Option Json}
  {additionalContext : Option String} {selectedPermission : Option PermissionSuggestion} {line : String} {rest : Bytes}

/-- The exchange with a daemon that welcomes the hook is what follows the welcome. -/
theorem readWelcome_welcome {version : Nat} (bound : version < 4294967296)
    (written : (ServerMessage.welcome version).encode = some line) (fits : (utf8 line).length ≤ maxLineBytes) :
    readWelcome float socket eventType agentType (utf8 line ++ rest) = .ok rest := by
  have carried : (ServerMessage.welcome version).Carried float := bound
  have decoded := ServerMessage.decode_encode carried written
  rw [readWelcome, readLineCapped_encode carried written fits socket.fault]
  change (if trim line = "" then _ else _) = _
  rw [if_neg (trim_ne_of_decode decoded), decoded]

theorem readDecision_response {response : ServerMessage}
    (shape : response = .decisionResponse id decision message updatedInput additionalContext selectedPermission)
    (carried : response.Carried float) (written : response.encode = some line)
    (fits : (utf8 line).length ≤ maxLineBytes) :
    readDecision float socket eventType agentType (utf8 line ++ rest) =
      .ok { decision, message, updatedInput, additionalContext, selectedPermission, eventType, agentType } := by
  have decoded := ServerMessage.decode_encode carried written
  rw [readDecision, readLineCapped_encode carried written fits socket.fault]
  change (if trim line = "" then _ else _) = _
  rw [if_neg (trim_ne_of_decode decoded), decoded, shape]

/-- A response beyond the cap is an outage to the hook. -/
theorem readDecision_beyond {response : ServerMessage} (carried : response.Carried float)
    (written : response.encode = some line) (beyond : maxLineBytes < (utf8 line).length) :
    ∃ failed, readDecision float socket eventType agentType (utf8 line ++ rest) = .error failed ∧
      failed.kind = .daemonUnreachable := by
  obtain ⟨error, read⟩ : ∃ error, readLineCapped (utf8 line ++ rest) socket.fault maxLineBytes = .error error :=
    readLineCapped_beyond carried written beyond socket.fault
  refine ⟨withContext eventType agentType .daemonUnreachable "failed to read daemon decision response" error, ?_, rfl⟩
  rw [readDecision, read]
  rfl

/-- A stream that ends without a response is an outage to the hook. -/
theorem readDecision_silent : ∃ failed, readDecision float socket eventType agentType [] = .error failed ∧
    failed.kind = .daemonUnreachable := by
  unfold readDecision
  cases socket.fault with
  | none => exact ⟨_, rfl, rfl⟩
  | some error => exact ⟨_, rfl, rfl⟩

/-- An outage is approved. -/
theorem responseForFailure_unreachable {failed : HookFailure} (unreachable : failed.kind = .daemonUnreachable)
    (failMode : FailMode) : (responseForFailure failed failMode).decision = .approve := by
  simp only [responseForFailure, unreachable, reduceCtorEq, or_self, if_false, if_true, ite_self]

end
end Wisphive
