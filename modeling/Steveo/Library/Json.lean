import Mathlib.Data.List.Basic
import Mathlib.Data.Rat.Defs
import Steveo.Library.PlainObject

/-!
# JSON values

Objects are finite property lists in which a name is read at its first binding.  An absent value,
the `undefined` of the host language, is `none` of type `Option Json`.
-/

namespace Steveo

/-- A JSON value. -/
inductive Json where
  | null
  | bool (value : Bool)
  | num (value : ℚ)
  | str (value : String)
  /-- A string of one surrogate, as indexing a string gives for half of a character. -/
  | half (unit : UInt16)
  | arr (items : List Json)
  | obj (fields : List (String × Json))

/-- The properties of an object. -/
abbrev Fields := List (String × Json)

namespace Fields

/-- Read a property; `none` when the object does not have it. -/
def get (fields : Fields) (key : String) : Option Json := fields.lookup key

/-- All properties but one: the rest of a destructuring pattern. -/
def without (fields : Fields) (key : String) : Fields :=
  fields.filter fun field => field.1 != key

/-- The object literal `{ ...base, ...extension }`: the extension wins on common names. -/
def spread (base extension : Fields) : Fields :=
  base.filter (fun field => (extension.get field.1).isNone) ++ extension

/-- Assign a property as it will be serialised: `undefined` leaves no property behind. -/
def assign (fields : Fields) (key : String) : Option Json → Fields
  | none => fields.without key
  | some value => fields.without key ++ [(key, value)]

@[simp] theorem get_nil (key : String) : get [] key = none := rfl

theorem get_cons (field : String × Json) (fields : Fields) (key : String) :
    get (field :: fields) key = if key = field.1 then some field.2 else fields.get key := by
  obtain ⟨name, value⟩ := field
  by_cases same : key = name
  · simp [get, same]
  · simp [get, List.lookup_cons, same, beq_false_of_ne same]

theorem get_append (left right : Fields) (key : String) :
    get (left ++ right) key = (left.get key).or (right.get key) :=
  List.lookup_append

/-- A filter that only looks at names keeps or drops a property as a whole. -/
theorem get_filter (fields : Fields) (keep : String → Bool) (key : String) :
    get (fields.filter fun field => keep field.1) key =
      if keep key then fields.get key else none := by
  induction fields with
  | nil => simp
  | cons field fields induction =>
      by_cases kept : keep field.1
      · rw [List.filter_cons_of_pos (by simpa using kept), get_cons, get_cons, induction]
        by_cases same : key = field.1
        · simp [same, kept]
        · simp [same]
      · rw [List.filter_cons_of_neg (by simpa using kept), get_cons, induction]
        by_cases same : key = field.1
        · simp [same, kept]
        · simp [same]

@[simp] theorem get_without (fields : Fields) (removed key : String) :
    get (fields.without removed) key = if key = removed then none else fields.get key := by
  rw [without, get_filter fields (fun name => name != removed)]
  by_cases same : key = removed <;> simp [same]

@[simp] theorem get_spread (base extension : Fields) (key : String) :
    get (base.spread extension) key = (extension.get key).or (base.get key) := by
  rw [spread, get_append, get_filter base (fun name => (extension.get name).isNone)]
  cases extension.get key with
  | none => simp
  | some value => simp

@[simp] theorem get_assign_self (fields : Fields) (key : String) (value : Option Json) :
    get (fields.assign key value) key = value := by
  cases value with
  | none => simp [assign]
  | some value => simp [assign, get_append, get_cons]

theorem get_assign_of_ne (fields : Fields) {assigned key : String} (other : key ≠ assigned)
    (value : Option Json) : get (fields.assign assigned value) key = fields.get key := by
  cases value with
  | none => simp [assign, other]
  | some value => simp [assign, get_append, get_cons, other]

/-- Assign a property as it will be serialised, whatever its name.  Every object inherits an
accessor `__proto__`: assigning to it leaves nothing behind, unless the object has a property of
its own by that name. -/
def setProperty (fields : Fields) (key : String) (value : Option Json) : Fields :=
  if key = "__proto__" ∧ (fields.get key).isNone then fields else fields.assign key value

theorem get_setProperty_self (fields : Fields) {key : String} (ordinary : key ≠ "__proto__")
    (value : Option Json) : get (fields.setProperty key value) key = value := by
  simp [setProperty, ordinary]

theorem get_setProperty_of_ne (fields : Fields) {assigned key : String} (other : key ≠ assigned)
    (value : Option Json) : get (fields.setProperty assigned value) key = fields.get key := by
  rw [setProperty]
  split
  · rfl
  · exact get_assign_of_ne fields other value

/-- Assign to a property of an object: one that is there keeps its place. -/
def put : Fields → String → Json → Fields
  | [], key, value => [(key, value)]
  | field :: fields, key, value =>
      if field.1 = key then (key, value) :: fields else field :: put fields key value

theorem put_cons (field : String × Json) (fields : Fields) (key : String) (value : Json) :
    put (field :: fields) key value =
      if field.1 = key then (key, value) :: fields else field :: put fields key value := rfl

@[simp] theorem get_put_self (fields : Fields) (key : String) (value : Json) :
    get (fields.put key value) key = some value := by
  induction fields with
  | nil => simp [put, get_cons]
  | cons field fields ih =>
      rw [put_cons]
      by_cases same : field.1 = key
      · simp [same, get_cons]
      · simp [same, get_cons, ih, Ne.symm same]

@[simp] theorem put_put (fields : Fields) (key : String) (value value' : Json) :
    put (fields.put key value) key value' = fields.put key value' := by
  induction fields with
  | nil => simp [put]
  | cons field fields ih =>
      rw [put_cons]
      by_cases same : field.1 = key
      · simp [same, put_cons]
      · simp [same, put_cons, ih]

/-- Assigning the value that is there changes nothing. -/
theorem put_get {fields : Fields} {key : String} {value : Json}
    (found : fields.get key = some value) : fields.put key value = fields := by
  induction fields with
  | nil => cases found
  | cons field fields ih =>
      rw [get_cons] at found
      rw [put_cons]
      by_cases same : field.1 = key
      · obtain rfl : field.2 = value := by simpa [same] using found
        simp [← same]
      · rw [if_neg (Ne.symm same)] at found
        simp [same, ih found]

/-- A property is a smaller value than its object. -/
theorem sizeOf_get {fields : Fields} {key : String} {value : Json}
    (found : fields.get key = some value) : sizeOf value < sizeOf (Json.obj fields) := by
  induction fields with
  | nil => simp at found
  | cons field fields induction =>
      rw [get_cons] at found
      split at found
      · obtain rfl := Option.some.inj found
        obtain ⟨name, value⟩ := field
        simp only [Json.obj.sizeOf_spec, List.cons.sizeOf_spec, Prod.mk.sizeOf_spec]
        omega
      · have smaller := induction found
        simp only [Json.obj.sizeOf_spec, List.cons.sizeOf_spec] at smaller ⊢
        omega

end Fields

/-- The host language's test of a value as a condition. -/
def truthy : Option Json → Bool
  | none | some .null => false
  | some (.bool value) => value
  | some (.num value) => value != 0
  | some (.str value) => value != ""
  | some (.half _) | some (.arr _) | some (.obj _) => true

/-- The test of reading a property as a condition: what an object inherits counts as true. -/
def Fields.truthyAt (fields : Fields) (key : String) : Bool :=
  match fields.get key with
  | some value => truthy (some value)
  | none => decide (key ∈ OBJECT_PROTOTYPE)

/-- Whether `??` falls through to its right operand. -/
def nullish : Option Json → Bool
  | none | some .null => true
  | _ => false

theorem nullish_some {value : Json} : nullish (some value) = true ↔ value = .null := by
  cases value <;> simp [nullish]

/-- The strings of one UTF-16 unit each that make up a character. -/
def utf16Units (char : Char) : List Json :=
  if char.toNat < 0x10000 then
    [.str (String.singleton char)]
  else
    let offset := char.toNat - 0x10000
    [.half (.ofNat (0xD800 + offset / 0x400)), .half (.ofNat (0xDC00 + offset % 0x400))]

/-- The own enumerable properties that spreading a value into an object literal copies. -/
def ownFields : Option Json → Fields
  | some (.obj fields) => fields
  | some (.arr items) => items.mapIdx fun index item => (toString index, item)
  | some (.str text) =>
      (text.toList.flatMap utf16Units).mapIdx fun index unit => (toString index, unit)
  | some (.half unit) => [("0", .half unit)]
  | _ => []

namespace Json

/-- Read a property of a value; primitives and arrays have none of the names used here. -/
def get (value : Json) (key : String) : Option Json :=
  match value with
  | .obj fields => Fields.get fields key
  | _ => none

@[simp] theorem get_obj (fields : Fields) (key : String) :
    (Json.obj fields).get key = fields.get key := rfl

end Json

end Steveo
