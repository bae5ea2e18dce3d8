import CameraScript.Json.Value

/-!
Typed values out of JSON data. A record is read from an object, in which members of
other names do not count, or from an array of its fields in order. An alternative is
read from its name, or from an object whose only member has that name.
-/

namespace CameraScript.Json

namespace Value

def bool? : Value → Option Bool
  | bool value => some value
  | _ => none

def text? : Value → Option String
  | string pieces => textOf pieces
  | _ => none

/-- An integer from zero on, below a bound. A minus sign is refused also before zero. -/
def nat? (bound : Nat) : Value → Option Nat
  | number numeral => if numeral.negative then none else numeral.magnitude? bound
  | _ => none

/-- A two's complement integer with that many values on either side of zero. A minus
sign before zero is refused. -/
def int? (half : Nat) : Value → Option Int
  | number numeral =>
      if numeral.negative then
        match numeral.magnitude? (half + 1) with
        | some (magnitude + 1) => some (-(Int.ofNat (magnitude + 1)))
        | _ => none
      else (numeral.magnitude? half).map Int.ofNat
  | _ => none

def nullable {Item : Type} (decode : Value → Option Item) : Value → Option (Option Item)
  | null => some none
  | value => (decode value).map some

def alternative? : Value → Option (String × Option Value)
  | string pieces => (textOf pieces).map fun name => (name, none)
  | object [(pieces, payload)] => (textOf pieces).map fun name => (name, some payload)
  | _ => none

end Value

/-- An alternative without data of its own may be given `null`. -/
def isBare : Option Value → Bool
  | none | some .null => true
  | some _ => false

/-- The fields of a record in order, absent ones as `none`. All names have to be
readable, and a field must not be given twice. Where absent fields have defaults, an
array may stop early. -/
def fieldValues (names : List String) (defaults : Bool) : Value → Option (List (Option Value))
  | .array items =>
      if items.length = names.length ∨ (defaults ∧ items.length < names.length) then
        some (items.map some ++ List.replicate (names.length - items.length) none)
      else none
  | .object members => do
      let named ← members.mapM fun (pieces, value) => (textOf pieces).map fun name => (name, value)
      names.mapM fun name =>
        match named.filter fun (given, _) => given == name with
        | [] => some none
        | [(_, value)] => some (some value)
        | _ => none
  | _ => none

def required {Item : Type} (decode : Value → Option Item) (field : Option Value) : Option Item :=
  field.bind decode

def optional {Item : Type} (default : Item) (decode : Value → Option Item) :
    Option Value → Option Item
  | none => some default
  | some value => decode value

def ofText (text : String) : Value :=
  .string (plainPieces text)

def ofNat (value : Nat) : Value :=
  .number (Numeral.ofNat value)

def ofInt (value : Int) : Value :=
  .number (Numeral.ofInt value)

def ofOption {Item : Type} (encode : Item → Value) : Option Item → Value
  | none => .null
  | some item => encode item

def ofFields (fields : List (String × Value)) : Value :=
  .object (fields.map fun (name, value) => (plainPieces name, value))

end CameraScript.Json
