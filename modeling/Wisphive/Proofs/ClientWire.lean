import Wisphive.ClientWire

/-! What comes of a command on its way from a browser through the bridge. -/

namespace Wisphive
open Foundation Foundation.Json

namespace Protocol

section
variable {float : String → Option String} {depth : Nat} {α : Type}

/-- Contents that are never written as a null are shown. -/
theorem shown_of {codec : Codec float depth α} {content : Option α} (kept : ∀ value ∈ content, codec.Kept value)
    (never : ∀ value, codec.write value ≠ .null) : Field.Shown codec content :=
  fun value member => ⟨kept value member, never value⟩

theorem shown_string (content : Option String) : Field.Shown (.string : Codec float depth String) content :=
  shown_of (fun _ _ => trivial) fun _ => Json.noConfusion

theorem shown_uuid (content : Option Uuid) : Field.Shown (uuid : Codec float depth Uuid) content :=
  shown_of (fun _ _ => trivial) fun _ => Json.noConfusion

theorem shown_path (content : Option PathBuf) : Field.Shown (path : Codec float depth PathBuf) content :=
  shown_of (fun _ _ => trivial) fun _ => Json.noConfusion

theorem shown_natural {bits : Nat} {bounds : bits ≤ 64} {content : Option Nat} (typed : ∀ value ∈ content, value < 2 ^ bits) :
    Field.Shown (.natural bits bounds : Codec float depth Nat) content :=
  shown_of typed fun _ => Json.noConfusion

theorem shown_strings (content : Option (List String)) :
    Field.Shown (.list .string : Codec float (depth + 1) (List String)) content :=
  shown_of (fun _ _ _ _ => trivial) fun _ => Json.noConfusion

theorem shown_env (content : Option Env) : Field.Shown (.map .string : Codec float (depth + 1) Env) content :=
  shown_of (fun _ _ _ _ => trivial) fun _ => Json.noConfusion

theorem decisionFilter_kept (filter : DecisionFilter) : (decisionFilter : Record float depth DecisionFilter).Kept filter :=
  ⟨shown_string _, shown_path _, shown_of (fun _ _ => trivial) fun _ => Json.noConfusion, trivial⟩

theorem shown_filter (content : Option DecisionFilter) :
    Field.Shown (.record decisionFilter : Codec float (depth + 1) DecisionFilter) content :=
  shown_of (fun _ _ => decisionFilter_kept _) fun _ => Json.noConfusion

theorem permissionSuggestion_kept (suggestion : PermissionSuggestion) :
    (permissionSuggestion : Record float (depth + 2) PermissionSuggestion).Kept suggestion :=
  ⟨trivial, fun _ _ => ⟨trivial, trivial, trivial⟩, trivial, trivial, shown_string _, trivial⟩

theorem shown_suggestions (content : Option (List PermissionSuggestion)) :
    Field.Shown (.list (.record permissionSuggestion) : Codec float (depth + 4) (List PermissionSuggestion)) content :=
  shown_of (fun _ _ _ _ => permissionSuggestion_kept _) fun _ => Json.noConfusion

theorem spawnAgentRequest_kept {req : SpawnAgentRequest} (typed : ∀ turns ∈ req.maxTurns, turns < 2 ^ 32) :
    (spawnAgentRequest : Record float (depth + 1) SpawnAgentRequest).Kept req :=
  ⟨trivial, trivial, trivial, shown_string _, shown_string _, shown_string _, shown_natural typed, shown_string _,
    shown_string _, shown_string _, shown_strings _, shown_strings _, trivial, shown_string _, shown_string _, trivial,
    trivial⟩

end

variable {platform : WirePlatform} {depth : Nat}

theorem value_kept {value : Json} (typed : value.Sorted) (carried : Carries platform value) :
    (Codec.value : Codec platform.float 126 Json).Kept value :=
  ⟨typed, carried⟩

theorem shown_value {content : Option Json} (typed : ∀ value ∈ content, value.Sorted)
    (carried : ∀ value ∈ content, value ≠ .null ∧ Carries platform value) :
    Field.Shown (.value : Codec platform.float 126 Json) content := by
  intro value member
  have ⟨present, carries⟩ := carried value member
  exact ⟨value_kept (typed value member) carries, present⟩

theorem shown_timestamp (content : Option DateTime) :
    Field.Shown (timestamp platform : Codec platform.float depth DateTime) content :=
  shown_of (fun _ _ => trivial) fun _ => Json.noConfusion

/-- What a message can carry, each of its fields keeps. -/
theorem messages_kept {message : ClientMessage} (typed : message.Typed) (carried : message.Carried platform) :
    (messages platform).Kept message := by
  cases message with
  | hello => exact ⟨trivial, typed, trivial⟩
  | decisionRequest =>
    exact ⟨trivial, trivial, trivial, trivial, trivial, value_kept typed.1 carried.1, trivial, trivial, shown_string _,
      shown_suggestions _, shown_value typed.2 carried.2, shown_uuid _, trivial⟩
  | approve => exact ⟨trivial, shown_string _, shown_value typed carried, trivial, shown_string _, trivial⟩
  | deny | termSetGroup => exact ⟨trivial, shown_string _, trivial⟩
  | ask | stopAgent | installHooks | queryProjectHookStatus => exact ⟨trivial, trivial⟩
  | termAttach | termDetach | termClose => exact ⟨trivial, trivial⟩
  | approveAll => exact ⟨shown_filter _, trivial, trivial⟩
  | denyAll => exact ⟨shown_filter _, trivial⟩
  | spawnAgent => exact spawnAgentRequest_kept typed
  | queryHistory => exact ⟨shown_string _, shown_natural typed, shown_string _, trivial⟩
  | toolResult =>
    exact ⟨trivial, trivial, value_kept typed.1 carried.1, value_kept typed.2 carried.2, trivial, shown_string _, trivial⟩
  | searchHistory =>
    exact ⟨shown_string _, shown_string _, shown_string _, shown_natural typed, shown_string _, shown_timestamp _,
      shown_string _, shown_string _, trivial⟩
  | agentRegister => exact ⟨trivial, trivial, trivial, trivial⟩
  | approvePermission => exact ⟨trivial, typed, shown_string _, trivial⟩
  | termCreate =>
    exact ⟨shown_string _, shown_string _, shown_strings _, shown_path _, typed.1, typed.2, shown_env _, trivial⟩
  | termInput | termSetPinned => exact ⟨trivial, trivial, trivial⟩
  | termResize => exact ⟨trivial, typed.1, typed.2, trivial⟩
  | termReplay => exact ⟨trivial, shown_natural typed, carried, trivial⟩
  | termReorder => exact ⟨trivial, typed, trivial⟩
  | listAgents | querySessions | queryProjects | queryWorktrees | queryBurn => trivial
  | reimportEvents | termList | markDeviceFresh => trivial

theorem envelope_kept (deviceId : Option DeviceId) (correlationId : Option String) :
    (envelope platform : Record platform.float depth _).Kept (deviceId, correlationId, ()) :=
  ⟨shown_of (fun _ _ => trivial) fun _ => Json.noConfusion, shown_string _, trivial⟩

theorem apart_names : (Variants.all platform).all (fun variant =>
    ("type" :: variant.record.names).all fun name => decide (name ∉ ["device_id", "correlation_id"])) = true := rfl

theorem messages_apart : (messages platform).Apart (envelope platform) := by
  intro variant member name listed
  have names := List.all_eq_true.mp (@apart_names platform) variant member
  exact of_decide_eq_true (List.all_eq_true.mp names name listed)

/-! ### Lines -/

/-- The text of a command that can be read is one line, and its reader sees the command
with other numbers. -/
theorem line_of_legal {command : ClientCommand} (legal : Legal platform.float maxDepth (command.toValue platform)) :
    (∃ text, (encode platform command).toList = text ++ ['\n'] ∧ '\n' ∉ text) ∧
      decode platform (encode platform command) =
        ClientCommand.fromValue platform (reread platform.float (command.toValue platform)) := by
  constructor
  · refine ⟨renderChars (command.toValue platform), ?_, renderChars_unbroken _ legal⟩
    rw [encode, String.toList_append, render, String.toList_ofList]
    rfl
  · have trimmed : EventIngest.trim (encode platform command) = (command.toValue platform).render := trim_object _
    rw [decode, trimmed, parse_render_change legal]
    rfl

/-- What a command can carry is read back from its line. -/
theorem decode_encode {command : ClientCommand} (typed : command.body.Typed) (carried : command.body.Carried platform) :
    decode platform (encode platform command) = some command := by
  have ⟨legal, back⟩ := Union.readWith_kept messages_apart (messages_kept typed carried)
    (envelope_kept command.deviceId command.correlationId)
  rw [(line_of_legal legal).2, ClientCommand.fromValue, ClientCommand.toValue, back]
  rfl

/-- A command that was decoded is decoded again from its line, in any envelope. The kind
of its message stays. -/
theorem decode_reencoded {line : String} {command : ClientCommand} (decoded : decode platform line = some command)
    (device : Option DeviceId) :
    (∃ text, (encode platform { command with deviceId := device }).toList = text ++ ['\n'] ∧ '\n' ∉ text) ∧
      ∃ body, decode platform (encode platform { command with deviceId := device }) =
          some { command with body := body, deviceId := device } ∧
        (Variants.shape platform body).1 = (Variants.shape platform command.body).1 := by
  obtain ⟨value, parsed, read⟩ := Option.bind_eq_some_iff.mp decoded
  obtain ⟨⟨body, deviceId, correlationId, ⟨⟩⟩, found, rfl⟩ := Option.map_eq_some_iff.mp read
  have readable := rereadable_of_parse platform.rewritable parsed
  have ⟨legal, later, back, kind⟩ := Union.readWith_again messages_apart readable found
    (envelope_kept device correlationId)
  have ⟨oneLine, again⟩ := @line_of_legal platform { body, deviceId := device, correlationId } legal
  refine ⟨oneLine, later, ?_, kind⟩
  rw [again, ClientCommand.fromValue, ClientCommand.toValue, back]
  rfl

/-- A command whose containers nest too deep is not decoded. -/
theorem decode_deep {command : ClientCommand} {more : Nat}
    (readable : Legal platform.float (maxDepth + more) (command.toValue platform))
    (deep : ¬ Legal platform.float maxDepth (command.toValue platform)) : decode platform (encode platform command) = none := by
  have trimmed : EventIngest.trim (encode platform command) = (command.toValue platform).render := trim_object _
  rw [decode, trimmed, parse_deep readable deep]
  rfl

/-- What a command can carry passes the bridge unchanged but for the device, and whatever
a browser sends is forwarded as one line with the device, or not at all. -/
theorem rewrapped_commands (platform : WirePlatform) (device : AuthedDevice) :
    (∀ command : ClientCommand, command.body.Typed → command.body.Carried platform →
      ∃ line, rewrapWithDevice platform (encode platform command) device = some line ∧
        decode platform line = some { command with deviceId := some device.id }) ∧
    (∀ raw line, rewrapWithDevice platform raw device = some line →
      (∃ text, line.toList = text ++ ['\n'] ∧ '\n' ∉ text) ∧
        ∃ command, decode platform line = some command ∧ command.deviceId = some device.id) := by
  constructor
  · intro command typed carried
    refine ⟨encode platform { command with deviceId := some device.id }, ?_, decode_encode typed carried⟩
    rw [rewrapWithDevice, decode_encode typed carried, Option.map_some]
  · intro raw line forwarded
    obtain ⟨command, decoded, rfl⟩ := Option.map_eq_some_iff.mp forwarded
    have ⟨oneLine, body, again, _⟩ := decode_reencoded decoded (some device.id)
    exact ⟨oneLine, _, again, rfl⟩

/-! ### What is lost -/

/-- One number is read as its neighbour. Speeds are one and a half, or an infinity. -/
def sampleFloat (text : String) : Option String :=
  if text = "1.5" then some "1.5"
  else if text = "9.007214264428859" ∨ text = "9.00721426442886" then some "9.00721426442886"
  else none

theorem readAs_half : ReadAs sampleFloat (.float "1.5") (.float "1.5") := by
  have shape : "1.5".toList = '1' :: '.' :: ['5'] := rfl
  exact readAs_fraction shape rfl (by decide) rfl rfl

theorem readAs_neighbour {text : String} (known : text ∈ ["9.007214264428859", "9.00721426442886"]) :
    ReadAs sampleFloat (.float text) (.float "9.00721426442886") := by
  simp only [List.mem_cons, List.not_mem_nil, or_false] at known
  rcases known with rfl | rfl
  · have shape : "9.007214264428859".toList = '9' :: '.' :: "007214264428859".toList := rfl
    exact readAs_fraction shape rfl (by decide) rfl rfl
  · have shape : "9.00721426442886".toList = '9' :: '.' :: "00721426442886".toList := rfl
    exact readAs_fraction shape rfl (by decide) rfl rfl

theorem sampleFloat_rewritable : Rewritable sampleFloat := by
  intro text written read
  have known : written = "1.5" ∨ written = "9.00721426442886" := by
    unfold sampleFloat at read
    split at read
    · cases read; exact .inl rfl
    · split at read
      · cases read; exact .inr rfl
      · cases read
  rcases known with rfl | rfl
  · exact readAs_half
  · exact readAs_neighbour (by decide)

/-- A mark for each nanosecond, behind a sign if the time is before the epoch. -/
def sampleTime : Int → String
  | .ofNat size => String.ofList (List.replicate size 'n')
  | .negSucc size => String.ofList ('-' :: List.replicate size 'n')

def readSampleTime (text : String) : Option Int :=
  match text.toList with
  | '-' :: marks => some (.negSucc marks.length)
  | marks => some (.ofNat marks.length)

theorem readSampleTime_sampleTime (time : Int) : readSampleTime (sampleTime time) = some time := by
  cases time with
  | ofNat size =>
    rw [readSampleTime, sampleTime, String.toList_ofList]
    cases size with
    | zero => rfl
    | succ size =>
      change some (Int.ofNat ('n' :: List.replicate size 'n').length) = _
      rw [List.length_cons, List.length_replicate]
  | negSucc size =>
    rw [readSampleTime, sampleTime, String.toList_ofList]
    change some (Int.negSucc (List.replicate size 'n').length) = _
    rw [List.length_replicate]

def samplePlatform : WirePlatform where
  float := sampleFloat
  f32Text speed := if speed = 0x3fc00000 then some "1.5" else none
  f32Of number := if number = .float "1.5" then 0x3fc00000 else 0
  toRfc3339 := sampleTime
  parseRfc3339 := readSampleTime
  rewritable := sampleFloat_rewritable
  f32Rewritable {speed text} written := by
    split at written
    · cases written; exact @sampleFloat_rewritable "1.5" "1.5" rfl
    · cases written
  timestamps := readSampleTime_sampleTime

/-- A command that comes out of the bridge with the device and no other change. -/
def Passes (platform : WirePlatform) (device : AuthedDevice) (command : ClientCommand) : Prop :=
  ∃ line, rewrapWithDevice platform (encode platform command) device = some line ∧
    decode platform line = some { command with deviceId := some device.id }

/-- What is decoded as a command that differs in its message does not pass unchanged. -/
theorem changed_of_decoded {command other : ClientCommand} {device : AuthedDevice}
    (decoded : decode platform (encode platform command) = some other) (typed : other.body.Typed)
    (carried : other.body.Carried platform) (differs : other.body ≠ command.body) :
    ¬ Passes platform device command := by
  rintro ⟨line, forwarded, same⟩
  rw [rewrapWithDevice, decoded, Option.map_some] at forwarded
  cases forwarded
  rw [@decode_encode platform { other with deviceId := some device.id } typed carried] at same
  exact differs (ClientCommand.mk.inj (Option.some.inj same)).1

def approval (updatedInput : Option Json) : ClientCommand :=
  { body := .approve 7 none updatedInput false none }

def replay (speed : Option F32) : ClientCommand :=
  { body := .termReplay 7 none speed }

/-- Arrays inside one another. -/
def nested : Nat → Json
  | 0 => .null
  | count + 1 => .array [nested count]

theorem legal_nested {float : String → Option String} {count depth : Nat} :
    Legal float depth (nested count) ↔ count ≤ depth := by
  induction count generalizing depth with
  | zero => exact ⟨fun _ => Nat.zero_le _, fun _ => by cases depth <;> trivial⟩
  | succ count ih =>
    cases depth with
    | zero => exact ⟨fun legal => legal.elim, fun bound => absurd bound (by omega)⟩
    | succ depth =>
      rw [Nat.succ_le_succ_iff, ← ih]
      exact ⟨fun legal => legal.1, fun legal => ⟨legal, trivial⟩⟩

theorem toValue_approval (input : Json) : (approval (some input)).toValue platform =
    .object [("type", .string "approve"), ("id", .string (uuidText 7)), ("updated_input", input),
      ("always_allow", .bool false)] := rfl

theorem legal_approval {input : Json} : Legal platform.float (depth + 1) ((approval (some input)).toValue platform) ↔
    Legal platform.float depth input := by
  rw [toValue_approval]
  constructor
  · intro legal
    exact legal.2.2.1
  · intro legal
    exact ⟨rereadable_string _, rereadable_string _, legal, by cases depth <;> trivial, trivial⟩

theorem decode_null :
    decode samplePlatform (encode samplePlatform (approval (some .null))) = some (approval none) := by
  have legal : Legal samplePlatform.float 126 .null := trivial
  rw [(line_of_legal (legal_approval.mpr legal)).2]
  rfl

/-- A number that is read as its neighbour. -/
def rounded : Json :=
  .number (.float "9.007214264428859")

theorem decode_rounded : decode samplePlatform (encode samplePlatform (approval (some rounded))) =
    some (approval (some (.number (.float "9.00721426442886")))) := by
  have legal : Legal samplePlatform.float 126 rounded := readAs_neighbour (List.mem_cons_self ..)
  rw [(line_of_legal (legal_approval.mpr legal)).2]
  rfl

theorem decode_infinity :
    decode samplePlatform (encode samplePlatform (replay (some 0x7f800000))) = some (replay none) := by
  have legal : Legal samplePlatform.float maxDepth ((replay (some 0x7f800000)).toValue samplePlatform) :=
    ⟨trivial, trivial, trivial, trivial⟩
  rw [(line_of_legal legal).2]
  rfl

theorem decode_nested : decode samplePlatform (encode samplePlatform (approval (some (nested 127)))) = none := by
  have readable : Legal samplePlatform.float (maxDepth + 1) ((approval (some (nested 127))).toValue samplePlatform) :=
    legal_approval.mpr (legal_nested.mpr (Nat.le_refl 127))
  have deep : ¬ Legal samplePlatform.float maxDepth ((approval (some (nested 127))).toValue samplePlatform) := by
    intro legal
    exact absurd (legal_nested.mp (legal_approval.mp legal)) (by decide)
  exact decode_deep readable deep

/-- A null input, an infinite speed, a number that is read as its neighbour and a value
that nests too deep do not pass. -/
theorem commands_lost_on_the_bridge :
    ¬ Passes samplePlatform ⟨⟨"phone"⟩⟩ (approval (some .null)) ∧
      ¬ Passes samplePlatform ⟨⟨"phone"⟩⟩ (replay (some 0x7f800000)) ∧
      ¬ Passes samplePlatform ⟨⟨"phone"⟩⟩ (approval (some rounded)) ∧
      ¬ Passes samplePlatform ⟨⟨"phone"⟩⟩ (approval (some (nested 127))) := by
  refine ⟨?_, ?_, ?_, ?_⟩
  · exact changed_of_decoded decode_null (fun _ held => nomatch held) (fun _ held => nomatch held) (by decide)
  · exact changed_of_decoded decode_infinity (fun _ held => nomatch held) (fun _ held => nomatch held) (by decide)
  · refine changed_of_decoded decode_rounded ?_ ?_ (by decide)
    · rintro input ⟨⟩
      trivial
    · rintro input ⟨⟩
      exact ⟨Json.noConfusion, readAs_neighbour (by decide), rfl⟩
  · rintro ⟨line, forwarded, _⟩
    rw [rewrapWithDevice, decode_nested] at forwarded
    cases forwarded

/-- A browser's approval with an input of its own and a device that it does not have. -/
def spoofedApproval : ClientCommand :=
  { body := .approve 7 none (some (.object [("factor", .number (.float "1.5")), ("file", .string "a")])) true none
    deviceId := some ⟨"attacker"⟩
    correlationId := some "c-1" }

theorem rewrapped_commands_spoofed : ∃ line,
    rewrapWithDevice samplePlatform (encode samplePlatform spoofedApproval) ⟨⟨"phone"⟩⟩ = some line ∧
      decode samplePlatform line = some { spoofedApproval with deviceId := some ⟨"phone"⟩ } ∧
      ∃ text, line.toList = text ++ ['\n'] ∧ '\n' ∉ text := by
  have ⟨kept, bridged⟩ := rewrapped_commands samplePlatform ⟨⟨"phone"⟩⟩
  have ordered : ("factor" : String) < "file" := by decide
  obtain ⟨line, forwarded, decoded⟩ := kept spoofedApproval
    (by
      rintro input ⟨⟩
      have ascending : Ascending [("factor", .number (.float "1.5")), ("file", .string "a")] :=
        List.pairwise_pair.mpr ordered
      exact ⟨ascending, trivial, trivial, trivial⟩)
    (by
      rintro input ⟨⟩
      exact ⟨Json.noConfusion, ⟨readAs_half, trivial, trivial⟩, rfl⟩)
  exact ⟨line, forwarded, decoded, (bridged _ line forwarded).1⟩

end Protocol
end Wisphive
