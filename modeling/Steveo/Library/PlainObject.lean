import Steveo.Library.Dictionary

/-!
# Plain objects as tables

An object that is used as a table also has the properties that every object inherits, and the name
`__proto__` stands for its prototype.  A dictionary holds the properties of the object itself.
-/

namespace Steveo

/-- The names under which every object inherits a property. -/
def OBJECT_PROTOTYPE : List String :=
  ["constructor", "__defineGetter__", "__defineSetter__", "hasOwnProperty", "__lookupGetter__",
    "__lookupSetter__", "isPrototypeOf", "propertyIsEnumerable", "toString", "valueOf", "__proto__",
    "toLocaleString"]

/-- What an object has under a name: a property of its own or an inherited one. -/
inductive Property (α : Type*)
  | own (value : α)
  | inherited

/-- The test of a property that holds a text as a condition: what is inherited counts as true. -/
def Property.truthy : Option (Property String) → Bool
  | none => false
  | some (.own text) => text ≠ ""
  | some .inherited => true

namespace Dictionary

variable {α : Type*}

/-- Read a property of a plain object. -/
def property (object : Dictionary String α) (name : String) : Option (Property α) :=
  match object.get name with
  | some value => some (.own value)
  | none => if name ∈ OBJECT_PROTOTYPE then some .inherited else none

@[simp] theorem property_eq_own {object : Dictionary String α} {name : String} {value : α} :
    object.property name = some (.own value) ↔ object.get name = some value := by
  rw [property]
  cases object.get name with
  | some found => simp
  | none =>
      by_cases inherited : name ∈ OBJECT_PROTOTYPE
      · simp [inherited]
      · simp [inherited]

/-- Under other names than the inherited ones, an object has its own properties only. -/
theorem property_of_not_mem {name : String} (plain : name ∉ OBJECT_PROTOTYPE)
    (object : Dictionary String α) : object.property name = (object.get name).map .own := by
  rw [property]
  cases object.get name with
  | some found => rfl
  | none => simp [plain]

/-- Under other names than the inherited ones, what counts as true is the object's own. -/
theorem isSome_of_truthy {object : Dictionary String String} {name : String}
    (plain : name ∉ OBJECT_PROTOTYPE) (truthy : Property.truthy (object.property name) = true) :
    (object.get name).isSome = true := by
  rw [property_of_not_mem plain] at truthy
  cases found : object.get name with
  | some value => rfl
  | none =>
      rw [found] at truthy
      cases truthy

end Dictionary

end Steveo
