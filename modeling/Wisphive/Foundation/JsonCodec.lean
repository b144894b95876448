import Mathlib.Logic.Equiv.Defs
import Wisphive.Foundation.Assoc
import Wisphive.Foundation.JsonRewriting

/-! Codecs of values. Each carries its own laws: which contents come back from their
text, and that what was read can be written and read again. -/

namespace Foundation
namespace Json

/-- What a value is read as once it was written. -/
def reread (float : String → Option String) (value : Json) : Json :=
  mapNumbers (settle float) value

/-- A value that can be written and read when containers may nest to a depth. -/
def Legal (float : String → Option String) (depth : Nat) (value : Json) : Prop :=
  Rereadable float (settle float) depth value

/-- Contents that are `Kept` come back. Others that were read come back as something. -/
structure Codec (float : String → Option String) (depth : Nat) (α : Type) where
  write : α → Json
  read : Json → Option α
  Kept : α → Prop
  kept : ∀ {content}, Kept content →
    Legal float depth (write content) ∧ read (reread float (write content)) = some content
  again : ∀ {value content}, Legal float depth value → read value = some content →
    Legal float depth (write content) ∧ (read (reread float (write content))).isSome

variable {float : String → Option String} {depth : Nat} {α β : Type}

@[simp] theorem reread_string (text : String) : reread float (.string text) = .string text := rfl

@[simp] theorem reread_bool (value : Bool) : reread float (.bool value) = .bool value := rfl

@[simp] theorem reread_null : reread float .null = .null := rfl

@[simp] theorem reread_integer (value : Int) : reread float (.number (.integer value)) = .number (.integer value) := rfl

theorem reread_eq_null {value : Json} : reread float value = .null ↔ value = .null := by
  cases value <;> simp [reread, mapNumbers]

theorem mapItems_map {change : Number → Number} (write : α → Json) (contents : List α) :
    mapItems change (contents.map write) = contents.map fun content => mapNumbers change (write content) := by
  induction contents with
  | nil => rfl
  | cons content rest ih => rw [List.map_cons, mapItems, ih, List.map_cons]

theorem rereadableItems_iff {change : Number → Number} {items : List Json} :
    RereadableItems float change depth items ↔ ∀ item ∈ items, Rereadable float change depth item := by
  induction items with
  | nil => simp [RereadableItems]
  | cons item rest ih => rw [RereadableItems, ih, List.forall_mem_cons]

theorem rereadableMembers_iff {change : Number → Number} {members : List (String × Json)} :
    RereadableMembers float change depth members ↔ ∀ member ∈ members, Rereadable float change depth member.2 := by
  induction members with
  | nil => simp [RereadableMembers]
  | cons member rest ih =>
    obtain ⟨name, value⟩ := member
    rw [RereadableMembers, ih, List.forall_mem_cons]

theorem mapMembers_eq {change : Number → Number} (members : List (String × Json)) :
    mapMembers change members = members.map fun member => (member.1, mapNumbers change member.2) := by
  induction members with
  | nil => rfl
  | cons member rest ih =>
    obtain ⟨name, value⟩ := member
    rw [mapMembers, ih, List.map_cons]

theorem lookup_map_values {γ δ : Type} (change : γ → δ) (entries : List (String × γ)) (key : String) :
    (entries.map fun entry => (entry.1, change entry.2)).lookup key = (entries.lookup key).map change := by
  induction entries with
  | nil => rfl
  | cons entry rest ih =>
    obtain ⟨name, value⟩ := entry
    rw [List.map_cons, List.lookup_cons, List.lookup_cons, ih]
    cases key == name <;> rfl

/-! ### Lists that are read item by item -/

theorem mapM_map_kept {γ δ : Type} {write : γ → δ} {read : δ → Option γ} {contents : List γ}
    (kept : ∀ content ∈ contents, read (write content) = some content) :
    (contents.map write).mapM read = some contents := by
  induction contents with
  | nil => rfl
  | cons content rest ih =>
    rw [List.map_cons, List.mapM_cons, kept content (List.mem_cons_self ..),
      ih fun other member => kept other (List.mem_cons_of_mem _ member)]
    rfl

theorem mapM_isSome {γ δ : Type} {read : δ → Option γ} {items : List δ} :
    (items.mapM read).isSome ↔ ∀ item ∈ items, (read item).isSome := by
  induction items with
  | nil => simp
  | cons item rest ih =>
    rw [List.mapM_cons, List.forall_mem_cons, ← ih]
    cases read item with
    | none => simp
    | some content => cases rest.mapM read <;> simp

theorem of_mem_mapM {γ δ : Type} {read : δ → Option γ} {items : List δ} {contents : List γ}
    (parsed : items.mapM read = some contents) {content : γ} (member : content ∈ contents) :
    ∃ item ∈ items, read item = some content := by
  induction items generalizing contents with
  | nil => cases parsed; cases member
  | cons item rest ih =>
    rw [List.mapM_cons] at parsed
    cases first : read item with
    | none => rw [first] at parsed; cases parsed
    | some found =>
      cases later : rest.mapM read with
      | none => rw [first, later] at parsed; cases parsed
      | some others =>
        rw [first, later] at parsed
        cases parsed
        rcases List.mem_cons.mp member with rfl | behind
        · exact ⟨item, List.mem_cons_self .., first⟩
        · obtain ⟨other, listed, read⟩ := ih later behind
          exact ⟨other, List.mem_cons_of_mem _ listed, read⟩

/-! ### Values -/

namespace Codec

/-- A codec that keeps whatever it has read. -/
def closed (write : α → Json) (read : Json → Option α) (Kept : α → Prop)
    (kept : ∀ {content}, Kept content →
      Legal float depth (write content) ∧ read (reread float (write content)) = some content)
    (typed : ∀ {value content}, read value = some content → Kept content) : Codec float depth α where
  write := write
  read := read
  Kept := Kept
  kept := kept
  again _ found := by
    have ⟨legal, back⟩ := kept (typed found)
    exact ⟨legal, Option.isSome_iff_exists.mpr ⟨_, back⟩⟩

def string : Codec float depth String :=
  closed .string (·.asString?) (fun _ => True) (fun _ => ⟨rereadable_string _, rfl⟩) fun _ => trivial

def bool : Codec float depth Bool :=
  closed .bool (·.asBool?) (fun _ => True) (fun _ => ⟨by cases depth <;> trivial, rfl⟩) fun _ => trivial

/-- The integers of a range. -/
def readInteger (low high : Int) : Json → Option Int
  | .number (.integer value) => if low ≤ value ∧ value < high then some value else none
  | _ => none

theorem readInteger_eq {low high value : Int} : readInteger low high (.number (.integer value)) = some value ↔
    low ≤ value ∧ value < high := by
  rw [readInteger]
  split <;> simp [*]

theorem range_of_readInteger {low high content : Int} {value : Json} (found : readInteger low high value = some content) :
    low ≤ content ∧ content < high := by
  rw [readInteger.eq_def] at found
  split at found
  next =>
    split at found
    next inside => cases found; exact inside
    next => cases found
  next => cases found

theorem legal_integer {value : Int} (low : -2 ^ 63 ≤ value) (high : value < 2 ^ 64) :
    Legal float depth (.number (.integer value)) := by
  have read : ReadAs float (.integer value) (settle float (.integer value)) := by
    rcases Int.lt_or_le value 0 with negative | natural
    · obtain ⟨size, rfl⟩ : ∃ size : Nat, value = -size := ⟨value.natAbs, by omega⟩
      exact readAs_negative (by omega) (by omega)
    · obtain ⟨size, rfl⟩ := Int.eq_ofNat_of_zero_le natural
      exact readAs_nat (by omega)
  cases depth <;> exact read

def integer (low high : Int) (bounds : -2 ^ 63 ≤ low ∧ high ≤ 2 ^ 64 := by decide) : Codec float depth Int :=
  closed (fun value => .number (.integer value)) (readInteger low high) (fun value => low ≤ value ∧ value < high)
    (fun inside => ⟨legal_integer (by omega) (by omega), readInteger_eq.mpr inside⟩) range_of_readInteger

/-- Unsigned integers of some bits. -/
def natural (bits : Nat) (bounds : bits ≤ 64 := by decide) : Codec float depth Nat :=
  closed (fun value => .number (.integer value)) (fun value => (readInteger 0 (2 ^ bits) value).map Int.toNat)
    (fun value => value < 2 ^ bits)
    (fun {value} inside => by
      have high : (2 : Int) ^ bits ≤ 2 ^ 64 := by exact_mod_cast Nat.pow_le_pow_right (by decide) bounds
      have small : (value : Int) < 2 ^ bits := by exact_mod_cast inside
      refine ⟨legal_integer (by omega) (by omega), ?_⟩
      rw [reread_integer, readInteger_eq.mpr ⟨by omega, small⟩]
      rfl)
    (fun {_ content} found => by
      obtain ⟨value, read, rfl⟩ := Option.map_eq_some_iff.mp found
      have ⟨low, high⟩ := range_of_readInteger read
      obtain ⟨size, rfl⟩ := Int.eq_ofNat_of_zero_le low
      exact_mod_cast high)

/-- Any value. Its objects are maps. -/
def value : Codec float depth Json where
  write value := value
  read value := some value.sorted
  Kept value := value.Sorted ∧ Legal float depth value ∧ reread float value = value
  kept := by
    rintro value ⟨ordered, legal, same⟩
    exact ⟨legal, by rw [same, sorted_eq value ordered]⟩
  again := by
    rintro value _ legal ⟨⟩
    exact ⟨rereadable_sorted value legal, rfl⟩

/-- What is read through another type. -/
def iso (codec : Codec float depth α) (same : α ≃ β) : Codec float depth β where
  write content := codec.write (same.symm content)
  read value := (codec.read value).map same
  Kept content := codec.Kept (same.symm content)
  kept held := by
    have ⟨legal, back⟩ := codec.kept held
    exact ⟨legal, by rw [back, Option.map_some, Equiv.apply_symm_apply]⟩
  again legal found := by
    obtain ⟨content, read, rfl⟩ := Option.map_eq_some_iff.mp found
    rw [Equiv.symm_apply_apply, Option.isSome_map]
    exact codec.again legal read

/-- A unit variant is its name, or an object that maps the name to null or to an empty
object. Names that are not known may stand for a variant of their own. -/
def readVariant (name : α → String) (all : List α) (other : Option α) : Json → Option α
  | .string text | .object [(text, .null)] | .object [(text, .object [])] => (all.find? (name · = text)).or other
  | _ => none

def enumeration (name : α → String) (all : List α) (other : Option α)
    (known : ∀ content, (all.find? (name · = name content)).or other = some content) : Codec float depth α :=
  closed (fun content => .string (name content)) (readVariant name all other) (fun _ => True)
    (fun _ => ⟨rereadable_string _, known _⟩) fun _ => trivial

def list (item : Codec float depth α) : Codec float (depth + 1) (List α) where
  write contents := .array (contents.map item.write)
  read
    | .array items => items.mapM item.read
    | _ => none
  Kept contents := ∀ content ∈ contents, item.Kept content
  kept {contents} held := by
    constructor
    · refine rereadableItems_of fun value member => ?_
      obtain ⟨content, listed, rfl⟩ := List.mem_map.mp member
      exact (item.kept (held content listed)).1
    · rw [reread, mapNumbers, mapItems_map]
      exact mapM_map_kept fun content member => (item.kept (held content member)).2
  again {value contents} legal found := by
    cases value with
    | array items =>
      have each : ∀ content ∈ contents, Legal float depth (item.write content) ∧
          (item.read (reread float (item.write content))).isSome := by
        intro content member
        obtain ⟨value, listed, read⟩ := of_mem_mapM found member
        exact item.again (rereadableItems_iff.mp legal value listed) read
      constructor
      · refine rereadableItems_of fun value member => ?_
        obtain ⟨content, listed, rfl⟩ := List.mem_map.mp member
        exact (each content listed).1
      · rw [reread, mapNumbers, mapItems_map]
        refine mapM_isSome.mpr fun value member => ?_
        obtain ⟨content, listed, rfl⟩ := List.mem_map.mp member
        exact (each content listed).2
    | null | bool _ | number _ | string _ | object _ => cases found

end Codec
end Json
end Foundation
