import Wisphive.Foundation.JsonRecord

/-! Messages of several variants. A member holds the tag of the variant, whose record
stands next to it, and an envelope may stand next to both. -/

namespace Foundation
namespace Json

variable {float : String → Option String} {depth : Nat} {Message α : Type}

structure Variant (float : String → Option String) (depth : Nat) (Message : Type) where
  tag : String
  Payload : Type
  record : Record float depth Payload
  build : Payload → Message

/-- Every message is built by one of the variants from one payload. -/
structure Union (float : String → Option String) (depth : Nat) (Message : Type) where
  label : String
  variants : List (Variant float depth Message)
  shape : Message → (variant : Variant float depth Message) × variant.Payload
  found : ∀ message, variants.find? (·.tag = (shape message).1.tag) = some (shape message).1
  built : ∀ message, (shape message).1.build (shape message).2 = message
  shaped : ∀ variant ∈ variants, ∀ payload, shape (variant.build payload) = ⟨variant, payload⟩
  unlabelled : ∀ variant ∈ variants, label ∉ variant.record.names

namespace Union
variable (union : Union float depth Message)

def write (message : Message) : List (String × Json) :=
  (union.label, .string (union.shape message).1.tag) :: (union.shape message).1.record.write (union.shape message).2

/-- A tag is a name, or the place of the variant among all of them. -/
def variantOf : Json → Option (Variant float depth Message)
  | .string text => union.variants.find? (·.tag = text)
  | .number (.integer index) => if 0 ≤ index then union.variants[index.toNat]? else none
  | _ => none

def parse (members : List (String × Json)) : Option Message :=
  if Record.once [union.label] members then
    (members.lookup union.label).bind fun tag =>
      (union.variantOf tag).bind fun variant => (variant.record.parse members).map variant.build
  else none

def Kept (message : Message) : Prop :=
  (union.shape message).1.record.Kept (union.shape message).2

variable {union} {message : Message}

theorem shape_mem (message : Message) : (union.shape message).1 ∈ union.variants :=
  List.mem_of_find?_eq_some (union.found message)

theorem variantOf_mem {tag : Json} {variant : Variant float depth Message} (found : union.variantOf tag = some variant) :
    variant ∈ union.variants := by
  rw [variantOf.eq_def] at found
  split at found
  next => exact List.mem_of_find?_eq_some found
  next =>
    split at found
    next => exact List.mem_of_getElem? found
    next => cases found
  next => cases found

theorem keys_write (message : Message) :
    ((union.write message).map Prod.fst).Sublist (union.label :: (union.shape message).1.record.names) :=
  ((union.shape message).1.record.named _).cons_cons _

theorem nodup_keys_write (message : Message) : ((union.write message).map Prod.fst).Nodup :=
  List.Nodup.sublist (keys_write message)
    (List.nodup_cons.mpr ⟨union.unlabelled _ (shape_mem message), (union.shape message).1.record.distinct⟩)

theorem once_write (names : List String) (message : Message) :
    Record.once names (mapMembers (settle float) (union.write message)) = true := by
  refine Record.once_of_nodup ?_
  rw [keys_mapMembers]
  exact nodup_keys_write message

theorem lookup_write (message : Message) : ∀ name ∈ (union.shape message).1.record.names,
    (mapMembers (settle float) (union.write message)).lookup name =
      (((union.shape message).1.record.write (union.shape message).2).lookup name).map (reread float) := by
  intro name listed
  have differs : name ≠ union.label := by
    rintro rfl
    exact union.unlabelled _ (shape_mem message) listed
  rw [Record.lookup_mapMembers, write, List.lookup_cons, beq_false_of_ne differs]
  rfl

/-- The tag that a message is written with leads back to its variant. -/
theorem parse_write (message : Message) : union.parse (mapMembers (settle float) (union.write message)) =
    ((union.shape message).1.record.parse (mapMembers (settle float) (union.write message))).map
      (union.shape message).1.build := by
  have tag : (mapMembers (settle float) (union.write message)).lookup union.label =
      some (.string (union.shape message).1.tag) := by
    rw [Record.lookup_mapMembers, write, List.lookup_cons_self]
    rfl
  rw [parse, if_pos (once_write _ message), tag, Option.bind_some, variantOf, union.found message, Option.bind_some]

theorem parse_kept (held : union.Kept message) :
    union.parse (mapMembers (settle float) (union.write message)) = some message := by
  rw [parse_write, Record.parse_among_kept held (once_write _ message) (lookup_write message), Option.map_some,
    union.built]

theorem legal_write (legal : RereadableMembers float (settle float) depth
    ((union.shape message).1.record.write (union.shape message).2)) :
    RereadableMembers float (settle float) depth (union.write message) :=
  ⟨rereadable_string _, legal⟩

/-- A message that was read is read again as a message of the same variant. -/
theorem parse_again {members : List (String × Json)} (legal : RereadableMembers float (settle float) depth members)
    (parsed : union.parse members = some message) :
    RereadableMembers float (settle float) depth (union.write message) ∧
      ∃ later, union.parse (mapMembers (settle float) (union.write message)) = some later ∧
        (union.shape later).1 = (union.shape message).1 := by
  rw [parse] at parsed
  split at parsed
  next =>
    obtain ⟨tag, _, parsed⟩ := Option.bind_eq_some_iff.mp parsed
    obtain ⟨variant, known, parsed⟩ := Option.bind_eq_some_iff.mp parsed
    obtain ⟨payload, read, rfl⟩ := Option.map_eq_some_iff.mp parsed
    have member := variantOf_mem known
    have shape := union.shaped variant member payload
    have ⟨written, back⟩ := Record.parse_among_again legal read
    have same := @lookup_write _ _ _ union (variant.build payload)
    have single := @once_write _ _ _ union variant.record.names (variant.build payload)
    rw [shape] at same
    obtain ⟨content, found⟩ := Option.isSome_iff_exists.mp (back single same)
    refine ⟨legal_write (by rw [shape]; exact written), variant.build content, ?_, ?_⟩
    · rw [parse_write, shape, found]
      rfl
    · rw [union.shaped variant member content, shape]
  next => cases parsed

/-! ### Envelopes -/

section
variable (union) (envelope : Record float depth α)

/-- A message and its envelope in one object. -/
def writeWith (message : Message) (context : α) : Json :=
  .object (union.write message ++ envelope.write context)

/-- The message is read from the members that the envelope leaves. -/
def readWith : Json → Option (Message × α)
  | .object members =>
    (envelope.parse members).bind fun context =>
      (union.parse (members.filter fun member => member.1 ∉ envelope.names)).map fun message => (message, context)
  | _ => none

/-- The envelope and the messages share no name. -/
def Apart : Prop :=
  ∀ variant ∈ union.variants, ∀ name ∈ union.label :: variant.record.names, name ∉ envelope.names

variable {union envelope} (apart : union.Apart envelope)
include apart

theorem fresh_write (message : Message) : ∀ member ∈ union.write message, member.1 ∉ envelope.names := by
  intro member listed
  exact apart _ (shape_mem message) _ ((keys_write message).subset (List.mem_map_of_mem listed))

theorem filter_writeWith (message : Message) (context : α) :
    (mapMembers (settle float) (union.write message ++ envelope.write context)).filter
        (fun member => member.1 ∉ envelope.names) = mapMembers (settle float) (union.write message) := by
  rw [mapMembers_eq, List.map_append, List.filter_append, ← mapMembers_eq, ← mapMembers_eq]
  have own : (mapMembers (settle float) (union.write message)).filter (fun member => member.1 ∉ envelope.names) =
      mapMembers (settle float) (union.write message) := by
    refine List.filter_eq_self.mpr fun member listed => ?_
    rw [mapMembers_eq] at listed
    obtain ⟨raw, written, rfl⟩ := List.mem_map.mp listed
    exact decide_eq_true (fresh_write apart message raw written)
  have others : (mapMembers (settle float) (envelope.write context)).filter (fun member => member.1 ∉ envelope.names) =
      [] := by
    refine List.filter_eq_nil_iff.mpr fun member listed => ?_
    rw [mapMembers_eq] at listed
    obtain ⟨raw, written, rfl⟩ := List.mem_map.mp listed
    have named := (envelope.named context).subset (List.mem_map_of_mem written)
    simpa using named
  rw [own, others, List.append_nil]

theorem once_writeWith (names : List String) (message : Message) (context : α) :
    Record.once names (mapMembers (settle float) (union.write message ++ envelope.write context)) = true := by
  refine Record.once_of_nodup ?_
  rw [keys_mapMembers, List.map_append, List.nodup_append]
  refine ⟨nodup_keys_write message, Record.nodup_write context, ?_⟩
  intro name left other right same
  obtain ⟨member, listed, rfl⟩ := List.mem_map.mp left
  exact fresh_write apart message member listed (same ▸ (envelope.named context).subset right)

theorem lookup_writeWith (message : Message) (context : α) : ∀ name ∈ envelope.names,
    (mapMembers (settle float) (union.write message ++ envelope.write context)).lookup name =
      ((envelope.write context).lookup name).map (reread float) := by
  intro name listed
  have absent : (union.write message).lookup name = none := by
    refine List.lookup_eq_none_iff.mpr fun member written => ?_
    have differs : name ≠ member.1 := by
      rintro rfl
      exact fresh_write apart message member written listed
    simpa using differs
  rw [Record.lookup_mapMembers, List.lookup_append, absent, Option.none_or]
  rfl

theorem readWith_kept {context : α} (held : union.Kept message) (carried : envelope.Kept context) :
    Legal float (depth + 1) (union.writeWith envelope message context) ∧
      union.readWith envelope (reread float (union.writeWith envelope message context)) = some (message, context) := by
  constructor
  · exact rereadableMembers_append.mpr
      ⟨legal_write ((union.shape message).1.record.kept held).1, (envelope.kept carried).1⟩
  · rw [writeWith, reread, mapNumbers, readWith,
      Record.parse_among_kept carried (once_writeWith apart _ message context) (lookup_writeWith apart message context),
      Option.bind_some, filter_writeWith apart, parse_kept held]
    rfl

/-- A message that was read from an object is read again, in any envelope that is kept. -/
theorem readWith_again {value : Json} {context other : α} (legal : Legal float (depth + 1) value)
    (parsed : union.readWith envelope value = some (message, context)) (carried : envelope.Kept other) :
    Legal float (depth + 1) (union.writeWith envelope message other) ∧
      ∃ later, union.readWith envelope (reread float (union.writeWith envelope message other)) = some (later, other) ∧
        (union.shape later).1 = (union.shape message).1 := by
  cases value with
  | object members =>
    obtain ⟨_, _, parsed⟩ := Option.bind_eq_some_iff.mp parsed
    obtain ⟨_, read, same⟩ := Option.map_eq_some_iff.mp parsed
    cases same
    have kept : RereadableMembers float (settle float) depth
        (members.filter fun member => member.1 ∉ envelope.names) :=
      rereadableMembers_iff.mpr fun member listed =>
        rereadableMembers_iff.mp legal member (List.mem_of_mem_filter listed)
    have ⟨written, later, back, shape⟩ := parse_again kept read
    refine ⟨rereadableMembers_append.mpr ⟨written, (envelope.kept carried).1⟩, later, ?_, shape⟩
    rw [writeWith, reread, mapNumbers, readWith,
      Record.parse_among_kept carried (once_writeWith apart _ message other) (lookup_writeWith apart message other),
      Option.bind_some, filter_writeWith apart, back]
    rfl
  | null | bool _ | number _ | string _ | array _ => cases parsed

end
end Union
end Json
end Foundation
