/-! One field of a record, as a view of the raw value that stands under its key. A missing key
may have a value, and a value may be written by leaving the key out. -/

namespace Foundation

/-- The laws hold of the values of the field's type. -/
structure FieldLens (Raw Value : Type) where
  get : Option Raw → Option Value
  put : Value → Option Raw
  Valid : Value → Prop
  valid_of_get : ∀ {raw value}, get raw = some value → Valid value
  get_put : ∀ {value}, Valid value → get (put value) = some value

namespace FieldLens
variable {Raw Value : Type} {lens : FieldLens Raw Value} {raw : Option Raw} {old new : Value}

variable [DecidableEq Raw]

/-- What stands under the key after a change of the value. A value that is written alike is not
written again. -/
def store (lens : FieldLens Raw Value) (old new : Value) (raw : Option Raw) : Option Raw :=
  if lens.put old = lens.put new then raw else lens.put new

end FieldLens
end Foundation
