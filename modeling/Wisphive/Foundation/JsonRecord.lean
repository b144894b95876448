import Wisphive.Foundation.JsonCodec

/-! Codecs of the members of an object and of records, which are put together field by
field. A record looks its members up by their names, so that other members may stand
among them. -/

namespace Foundation
namespace Json

variable {float : String → Option String} {depth : Nat} {α β : Type}

/-! ### Fields -/

/-- A member of an object. It is written as nothing where it is skipped, and nothing is
read where it is absent. -/
structure Field (float : String → Option String) (depth : Nat) (α : Type) where
  name : String
  write : α → Option Json
  read : Option Json → Option α
  Kept : α → Prop
  kept : ∀ {content}, Kept content →
    (∀ value ∈ write content, Legal float depth value) ∧ read ((write content).map (reread float)) = some content
  again : ∀ {given content}, (∀ value ∈ given, Legal float depth value) → read given = some content →
    (∀ value ∈ write content, Legal float depth value) ∧ (read ((write content).map (reread float))).isSome

namespace Field

/-- A member that must be there. -/
def required (name : String) (codec : Codec float depth α) : Field float depth α where
  name := name
  write content := some (codec.write content)
  read given := given.bind codec.read
  Kept := codec.Kept
  kept held := by
    have ⟨legal, back⟩ := codec.kept held
    exact ⟨by rintro value ⟨⟩; exact legal, back⟩
  again {given content} legal found := by
    obtain ⟨value, rfl, read⟩ := Option.bind_eq_some_iff.mp found
    have ⟨written, back⟩ := codec.again (legal value rfl) read
    exact ⟨by rintro value ⟨⟩; exact written, back⟩

/-- A member that is always written. It may be absent but not null. -/
def defaulted (name : String) (codec : Codec float depth α) (absent : α) (typed : codec.Kept absent) :
    Field float depth α where
  name := name
  write content := some (codec.write content)
  read given := match given with
    | none => some absent
    | some value => codec.read value
  Kept := codec.Kept
  kept held := by
    have ⟨legal, back⟩ := codec.kept held
    exact ⟨by rintro value ⟨⟩; exact legal, back⟩
  again {given content} legal found := by
    cases given with
    | none =>
      cases found
      have ⟨written, back⟩ := codec.kept typed
      exact ⟨by rintro value ⟨⟩; exact written, Option.isSome_iff_exists.mpr ⟨_, back⟩⟩
    | some value =>
      have ⟨written, back⟩ := codec.again (legal value rfl) found
      exact ⟨by rintro value ⟨⟩; exact written, back⟩

/-- A member that is false when it is absent. -/
def flag (name : String) : Field float depth Bool :=
  defaulted name .bool false trivial

/-- An absent member and a null are none. -/
def readOption (codec : Codec float depth α) : Option Json → Option (Option α)
  | none | some .null => some none
  | some value => (codec.read value).map some

theorem readOption_of_ne {codec : Codec float depth α} {value : Json} (given : value ≠ .null) :
    readOption codec (some value) = (codec.read value).map some := by
  cases value with
  | null => exact absurd rfl given
  | bool _ | number _ | string _ | array _ | object _ => rfl

theorem readOption_back {codec : Codec float depth α} {content : α} (held : codec.Kept content)
    (shown : codec.write content ≠ .null) :
    readOption codec (some (reread float (codec.write content))) = some (some content) := by
  rw [readOption_of_ne (mt reread_eq_null.mp shown), (codec.kept held).2, Option.map_some]

/-- Contents that were read are written as a null, or are read again. -/
theorem readOption_again {codec : Codec float depth α} {given : Option Json} {content : α}
    (legal : ∀ value ∈ given, Legal float depth value) (found : readOption codec given = some (some content)) :
    Legal float depth (codec.write content) ∧
      (readOption codec (some (reread float (codec.write content)))).isSome := by
  cases given with
  | none => cases found
  | some value =>
    have given : value ≠ .null := by
      rintro rfl
      cases found
    rw [readOption_of_ne given] at found
    obtain ⟨_, read, same⟩ := Option.map_eq_some_iff.mp found
    cases same
    have ⟨written, back⟩ := codec.again (legal value rfl) read
    refine ⟨written, ?_⟩
    by_cases nothing : reread float (codec.write content) = .null
    · rw [nothing]; rfl
    · rw [readOption_of_ne nothing, Option.isSome_map]; exact back

/-- Contents are kept that are not written as a null. -/
def Shown (codec : Codec float depth α) (content : Option α) : Prop :=
  ∀ value ∈ content, codec.Kept value ∧ codec.write value ≠ .null

/-- A member that is skipped when there is none. -/
def optional (name : String) (codec : Codec float depth α) : Field float depth (Option α) where
  name := name
  write content := content.map codec.write
  read := readOption codec
  Kept := Shown codec
  kept {content} held := by
    cases content with
    | none => exact ⟨by rintro value ⟨⟩, rfl⟩
    | some value =>
      have ⟨kept, shown⟩ := held value rfl
      exact ⟨by rintro value ⟨⟩; exact (codec.kept kept).1, readOption_back kept shown⟩
  again {given content} legal found := by
    cases content with
    | none => exact ⟨by rintro value ⟨⟩, rfl⟩
    | some value =>
      have ⟨written, back⟩ := readOption_again legal found
      exact ⟨by rintro value ⟨⟩; exact written, back⟩

/-- A member that is null when there is none. -/
def nullable (name : String) (codec : Codec float depth α) : Field float depth (Option α) where
  name := name
  write content := some ((content.map codec.write).getD .null)
  read := readOption codec
  Kept := Shown codec
  kept {content} held := by
    cases content with
    | none => exact ⟨by rintro value ⟨⟩; cases depth <;> trivial, rfl⟩
    | some value =>
      have ⟨kept, shown⟩ := held value rfl
      exact ⟨by rintro value ⟨⟩; exact (codec.kept kept).1, readOption_back kept shown⟩
  again {given content} legal found := by
    cases content with
    | none => exact ⟨by rintro value ⟨⟩; cases depth <;> trivial, rfl⟩
    | some value =>
      have ⟨written, back⟩ := readOption_again legal found
      exact ⟨by rintro value ⟨⟩; exact written, back⟩

/-- A list that is skipped when it is empty. -/
def nonempty (name : String) (item : Codec float depth α) : Field float (depth + 1) (List α) where
  name := name
  write content := if content.isEmpty then none else some (item.list.write content)
  read given := match given with
    | none => some []
    | some value => item.list.read value
  Kept := item.list.Kept
  kept {content} held := by
    cases content with
    | nil => exact ⟨by rintro value ⟨⟩, rfl⟩
    | cons first rest =>
      have ⟨legal, back⟩ := item.list.kept held
      exact ⟨by rintro value ⟨⟩; exact legal, back⟩
  again {given content} legal found := by
    cases content with
    | nil => exact ⟨by rintro value ⟨⟩, rfl⟩
    | cons first rest =>
      cases given with
      | none => cases found
      | some value =>
        have ⟨written, back⟩ := item.list.again (legal value rfl) found
        exact ⟨by rintro value ⟨⟩; exact written, back⟩

@[simp] theorem name_required (name : String) (codec : Codec float depth α) : (required name codec).name = name := rfl

@[simp] theorem name_defaulted (name : String) (codec : Codec float depth α) (absent : α) (typed : codec.Kept absent) :
    (defaulted name codec absent typed).name = name := rfl

@[simp] theorem name_flag (name : String) : (flag name : Field float depth Bool).name = name := rfl

@[simp] theorem name_optional (name : String) (codec : Codec float depth α) : (optional name codec).name = name := rfl

@[simp] theorem name_nullable (name : String) (codec : Codec float depth α) : (nullable name codec).name = name := rfl

@[simp] theorem name_nonempty (name : String) (item : Codec float depth α) : (nonempty name item).name = name := rfl

end Field

/-! ### Records -/

/-- The members under different names. They are read by looking each name up. -/
structure Record (float : String → Option String) (depth : Nat) (α : Type) where
  names : List String
  write : α → List (String × Json)
  read : (String → Option Json) → Option α
  Kept : α → Prop
  distinct : names.Nodup
  named : ∀ content, ((write content).map Prod.fst).Sublist names
  kept : ∀ {content}, Kept content → RereadableMembers float (settle float) depth (write content) ∧
    ∀ {given}, (∀ name ∈ names, given name = ((write content).lookup name).map (reread float)) →
      read given = some content
  again : ∀ {given content}, (∀ name ∈ names, ∀ value ∈ given name, Legal float depth value) →
    read given = some content → RereadableMembers float (settle float) depth (write content) ∧
      ∀ {later}, (∀ name ∈ names, later name = ((write content).lookup name).map (reread float)) →
        (read later).isSome

namespace Record

def done : Record float depth Unit where
  names := []
  write _ := []
  read _ := some ()
  Kept _ := True
  distinct := List.nodup_nil
  named _ := List.Sublist.refl _
  kept _ := ⟨trivial, fun _ => rfl⟩
  again _ _ := ⟨trivial, fun _ => rfl⟩

section
variable (first : Field float depth α) (rest : Record float depth β)

def writeField (content : α × β) : List (String × Json) :=
  (first.write content.1).toList.map (first.name, ·) ++ rest.write content.2

variable {first rest}

theorem lookup_absent {members : List (String × Json)} {names : List String} {name : String}
    (named : (members.map Prod.fst).Sublist names) (fresh : name ∉ names) : members.lookup name = none := by
  refine List.lookup_eq_none_iff.mpr fun member listed => ?_
  have differs : name ≠ member.1 := by
    rintro rfl
    exact fresh (named.subset (List.mem_map_of_mem listed))
  simpa using differs

theorem lookup_writeField_first (fresh : first.name ∉ rest.names) (content : α × β) :
    (writeField first rest content).lookup first.name = first.write content.1 := by
  rw [writeField, List.lookup_append, lookup_absent (rest.named content.2) fresh, Option.or_none]
  cases first.write content.1 with
  | none => rfl
  | some value => exact List.lookup_cons_self

theorem lookup_writeField_rest (content : α × β) {name : String} (other : name ≠ first.name) :
    (writeField first rest content).lookup name = (rest.write content.2).lookup name := by
  rw [writeField, List.lookup_append]
  cases first.write content.1 with
  | none => rfl
  | some value =>
    rw [Option.toList_some, List.map_cons, List.lookup_cons, beq_false_of_ne other]
    rfl

theorem rereadable_writeField {content : α × β} (head : ∀ value ∈ first.write content.1, Legal float depth value)
    (tail : RereadableMembers float (settle float) depth (rest.write content.2)) :
    RereadableMembers float (settle float) depth (writeField first rest content) := by
  refine rereadableMembers_append.mpr ⟨?_, tail⟩
  cases written : first.write content.1 with
  | none => trivial
  | some value => exact ⟨head value written, trivial⟩

end

/-- A field in front of the others. -/
def field (first : Field float depth α) (rest : Record float depth β) (fresh : first.name ∉ rest.names := by simp) :
    Record float depth (α × β) where
  names := first.name :: rest.names
  write := writeField first rest
  read given := (first.read (given first.name)).bind fun content => (rest.read given).map fun others => (content, others)
  Kept content := first.Kept content.1 ∧ rest.Kept content.2
  distinct := List.nodup_cons.mpr ⟨fresh, rest.distinct⟩
  named content := by
    have head : (((first.write content.1).toList.map (first.name, ·)).map Prod.fst).Sublist [first.name] := by
      cases first.write content.1 with
      | none => exact List.nil_sublist _
      | some value => exact List.Sublist.refl _
    rw [writeField, List.map_append]
    exact head.append (rest.named content.2)
  kept {content} held := by
    have ⟨head, back⟩ := first.kept held.1
    have ⟨tail, others⟩ := rest.kept held.2
    refine ⟨rereadable_writeField head tail, fun {given} found => ?_⟩
    rw [found _ (List.mem_cons_self ..), lookup_writeField_first fresh, back, Option.bind_some, others fun name listed => ?_]
    · rfl
    · rw [found name (List.mem_cons_of_mem _ listed), lookup_writeField_rest content]
      rintro rfl
      exact fresh listed
  again {given content} legal found := by
    obtain ⟨one, read, found⟩ := Option.bind_eq_some_iff.mp found
    obtain ⟨more, parsed, rfl⟩ := Option.map_eq_some_iff.mp found
    have ⟨head, back⟩ := first.again (legal _ (List.mem_cons_self ..)) read
    have ⟨tail, others⟩ := rest.again (fun name listed => legal name (List.mem_cons_of_mem _ listed)) parsed
    refine ⟨rereadable_writeField head tail, fun {later} found => ?_⟩
    rw [found _ (List.mem_cons_self ..), lookup_writeField_first fresh]
    obtain ⟨_, first⟩ := Option.isSome_iff_exists.mp back
    have rest := @others later fun name listed => by
      rw [found name (List.mem_cons_of_mem _ listed), lookup_writeField_rest (one, more)]
      rintro rfl
      exact fresh listed
    rw [first, Option.bind_some, Option.isSome_map]
    exact rest

@[simp] theorem names_done : (done : Record float depth Unit).names = [] := rfl

@[simp] theorem names_field (first : Field float depth α) (rest : Record float depth β) (fresh : first.name ∉ rest.names) :
    (field first rest fresh).names = first.name :: rest.names := rfl

/-- What is read through another type. -/
def iso (record : Record float depth α) (same : α ≃ β) : Record float depth β where
  names := record.names
  write content := record.write (same.symm content)
  read given := (record.read given).map same
  Kept content := record.Kept (same.symm content)
  distinct := record.distinct
  named content := record.named (same.symm content)
  kept held := by
    have ⟨legal, back⟩ := record.kept held
    exact ⟨legal, fun found => by rw [back found, Option.map_some, Equiv.apply_symm_apply]⟩
  again legal found := by
    obtain ⟨content, read, rfl⟩ := Option.map_eq_some_iff.mp found
    rw [Equiv.symm_apply_apply]
    have ⟨written, back⟩ := record.again legal read
    exact ⟨written, fun found => by rw [Option.isSome_map]; exact back found⟩

@[simp] theorem names_iso (record : Record float depth α) (same : α ≃ β) : (record.iso same).names = record.names := rfl

/-- None of the names stands twice. -/
def once (names : List String) (members : List (String × Json)) : Bool :=
  ((members.map Prod.fst).filter (· ∈ names)).Nodup

def parse (record : Record float depth α) (members : List (String × Json)) : Option α :=
  if once record.names members then record.read (members.lookup ·) else none

theorem once_of_nodup {names : List String} {members : List (String × Json)} (distinct : (members.map Prod.fst).Nodup) :
    once names members = true :=
  decide_eq_true (distinct.filter _)

theorem lookup_mapMembers {change : Number → Number} (members : List (String × Json)) (name : String) :
    (mapMembers change members).lookup name = (members.lookup name).map (mapNumbers change) := by
  rw [mapMembers_eq, lookup_map_values]

theorem legal_lookup {members : List (String × Json)} (legal : RereadableMembers float (settle float) depth members)
    {name : String} : ∀ value ∈ members.lookup name, Legal float depth value := by
  intro value found
  exact rereadableMembers_iff.mp legal _ (Assoc.mem_of_lookup found)

variable {record : Record float depth α}

theorem nodup_write (content : α) : ((record.write content).map Prod.fst).Nodup :=
  record.distinct.sublist (record.named content)

theorem once_write (content : α) : once record.names (mapMembers (settle float) (record.write content)) = true := by
  refine once_of_nodup ?_
  rw [keys_mapMembers]
  exact nodup_write content

/-- A record reads its own members back among others. -/
theorem parse_among_kept {content : α} {members : List (String × Json)} (held : record.Kept content)
    (single : once record.names members = true)
    (found : ∀ name ∈ record.names, members.lookup name = ((record.write content).lookup name).map (reread float)) :
    record.parse members = some content := by
  rw [parse, if_pos single]
  exact (record.kept held).2 found

theorem parse_among_again {members : List (String × Json)} {content : α}
    (legal : RereadableMembers float (settle float) depth members) (parsed : record.parse members = some content) :
    RereadableMembers float (settle float) depth (record.write content) ∧
      ∀ {later}, once record.names later = true →
        (∀ name ∈ record.names, later.lookup name = ((record.write content).lookup name).map (reread float)) →
        (record.parse later).isSome := by
  rw [parse] at parsed
  split at parsed
  next =>
    have ⟨written, back⟩ := record.again (fun _ _ => legal_lookup legal) parsed
    refine ⟨written, fun single found => ?_⟩
    rw [parse, if_pos single]
    exact back found
  next => cases parsed

theorem parse_kept {content : α} (held : record.Kept content) :
    record.parse (mapMembers (settle float) (record.write content)) = some content :=
  parse_among_kept held (once_write content) fun _ _ => lookup_mapMembers ..

theorem parse_again {members : List (String × Json)} {content : α}
    (legal : RereadableMembers float (settle float) depth members) (parsed : record.parse members = some content) :
    RereadableMembers float (settle float) depth (record.write content) ∧
      (record.parse (mapMembers (settle float) (record.write content))).isSome := by
  have ⟨written, back⟩ := parse_among_again legal parsed
  exact ⟨written, back (once_write content) fun _ _ => lookup_mapMembers ..⟩

end Record

/-! ### Records and maps as values -/

namespace Codec

/-- A record is an object, or an array with an item for each field. -/
def readRecord (record : Record float depth α) : Json → Option α
  | .object members => record.parse members
  | .array items =>
    if items.length = record.names.length then record.read ((record.names.zip items).lookup ·) else none
  | _ => none

theorem legal_zip {names : List String} {items : List Json} (legal : RereadableItems float (settle float) depth items)
    (name : String) : ∀ value ∈ (names.zip items).lookup name, Legal float depth value := by
  intro value found
  exact rereadableItems_iff.mp legal value (List.of_mem_zip (Assoc.mem_of_lookup found)).2

def record (record : Record float depth α) : Codec float (depth + 1) α where
  write content := .object (record.write content)
  read := readRecord record
  Kept := record.Kept
  kept held := ⟨(record.kept held).1, Record.parse_kept held⟩
  again {value content} legal found := by
    cases value with
    | object members => exact Record.parse_again legal found
    | array items =>
      rw [readRecord] at found
      split at found
      next =>
        have ⟨written, back⟩ := record.again (fun name _ => legal_zip legal name) found
        refine ⟨written, ?_⟩
        rw [reread, mapNumbers, readRecord, Record.parse, if_pos (Record.once_write content)]
        exact back fun name _ => Record.lookup_mapMembers ..
      next => cases found
    | null | bool _ | number _ | string _ => cases found

/-- Of entries under one key the last one counts. -/
def gather (entries : List (String × α)) : List (String × α) :=
  entries.foldl (fun gathered entry => Assoc.put gathered entry.1 entry.2) []

theorem keyed_gather (entries : List (String × α)) : Assoc.Keyed (gather entries) := by
  refine List.foldlRecOn entries _ Assoc.keyed_nil fun gathered keyed entry _ => ?_
  exact keyed.put entry.1 entry.2

theorem mem_foldl_put {before entries : List (String × α)} :
    ∀ entry ∈ entries.foldl (fun gathered entry => Assoc.put gathered entry.1 entry.2) before,
      entry ∈ before ∨ entry ∈ entries := by
  induction entries generalizing before with
  | nil => exact fun entry member => .inl member
  | cons first rest ih =>
    intro entry member
    rcases ih entry member with gathered | later
    · rcases List.mem_append.mp gathered with old | new
      · exact .inl (List.mem_of_mem_filter old)
      · exact .inr (List.mem_singleton.mp new ▸ List.mem_cons_self ..)
    · exact .inr (List.mem_cons_of_mem _ later)

theorem mem_of_mem_gather {entries : List (String × α)} {entry : String × α} (member : entry ∈ gather entries) :
    entry ∈ entries :=
  (mem_foldl_put entry member).resolve_left (List.not_mem_nil)

theorem foldl_put {before entries : List (String × α)} (keyed : Assoc.Keyed (before ++ entries)) :
    entries.foldl (fun gathered entry => Assoc.put gathered entry.1 entry.2) before = before ++ entries := by
  induction entries generalizing before with
  | nil => rw [List.foldl_nil, List.append_nil]
  | cons entry rest ih =>
    have absent : before.lookup entry.1 = none := by
      refine List.lookup_eq_none_iff.mpr fun other member => ?_
      rw [Assoc.Keyed, List.map_append, List.nodup_append] at keyed
      have differs := keyed.2.2 other.1 (List.mem_map_of_mem member) entry.1 (List.mem_cons_self ..)
      simpa using differs.symm
    have shifted : Assoc.Keyed ((before ++ [entry]) ++ rest) := by
      rwa [List.append_assoc, List.singleton_append]
    rw [List.foldl_cons, Assoc.put, Assoc.erase_absent absent, ih shifted, List.append_assoc, List.singleton_append]

theorem gather_eq {entries : List (String × α)} (keyed : Assoc.Keyed entries) : gather entries = entries :=
  foldl_put keyed

/-- An entry with its value read. -/
def readEntry (item : Codec float depth α) (member : String × Json) : Option (String × α) :=
  (item.read member.2).map fun content => (member.1, content)

/-- A map, in the order in which its entries are written. -/
def map (item : Codec float depth α) : Codec float (depth + 1) { entries : List (String × α) // Assoc.Keyed entries } where
  write content := .object (content.val.map fun entry => (entry.1, item.write entry.2))
  read
    | .object members => (members.mapM (readEntry item)).map fun entries => ⟨gather entries, keyed_gather entries⟩
    | _ => none
  Kept content := ∀ entry ∈ content.val, item.Kept entry.2
  kept {content} held := by
    constructor
    · refine rereadableMembers_iff.mpr fun member listed => ?_
      obtain ⟨entry, found, rfl⟩ := List.mem_map.mp listed
      exact (item.kept (held entry found)).1
    · rw [reread, mapNumbers, mapMembers_eq, List.map_map]
      dsimp only
      rw [mapM_map_kept fun entry listed => ?_]
      · exact congrArg some (Subtype.ext (gather_eq content.property))
      · exact congrArg (Option.map _) (item.kept (held entry listed)).2
  again {value content} legal found := by
    cases value with
    | object members =>
      obtain ⟨entries, parsed, rfl⟩ := Option.map_eq_some_iff.mp found
      have each : ∀ entry ∈ gather entries, Legal float depth (item.write entry.2) ∧
          (item.read (reread float (item.write entry.2))).isSome := by
        intro entry listed
        obtain ⟨member, given, found⟩ := of_mem_mapM parsed (mem_of_mem_gather listed)
        obtain ⟨content, read, rfl⟩ := Option.map_eq_some_iff.mp found
        exact item.again (rereadableMembers_iff.mp legal member given) read
      constructor
      · refine rereadableMembers_iff.mpr fun member listed => ?_
        obtain ⟨entry, found, rfl⟩ := List.mem_map.mp listed
        exact (each entry found).1
      · rw [reread, mapNumbers, mapMembers_eq, List.map_map]
        dsimp only
        rw [Option.isSome_map]
        refine mapM_isSome.mpr fun member listed => ?_
        obtain ⟨entry, found, rfl⟩ := List.mem_map.mp listed
        exact Option.isSome_map.trans (each entry found).2
    | null | bool _ | number _ | string _ | array _ => cases found

end Codec
end Json
end Foundation
