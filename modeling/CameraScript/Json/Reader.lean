import CameraScript.Json.Token

/-!
From tokens to data. The containers that are not closed yet are kept in a list, so
that data may nest to any depth, and reading is one pass over the tokens.
-/

namespace CameraScript.Json

/-- A container that is not closed yet, with what it holds so far in reverse. A member
of an object has its name before its value. -/
inductive Frame where
  | array (items : List Value)
  | object (members : List (List Piece × Value)) (name : List Piece)

inductive Reading where
  /-- A value. -/
  | value (around : List Frame)
  /-- The first item of an array, or its end. -/
  | opened (around : List Frame)
  /-- The first name in an object, or its end. -/
  | openedObject (around : List Frame)
  /-- A further name in an object. -/
  | name (members : List (List Piece × Value)) (around : List Frame)
  /-- The colon after a name. -/
  | colon (members : List (List Piece × Value)) (name : List Piece) (around : List Frame)
  /-- What follows a value: a comma, the end of its container, or nothing. -/
  | complete (value : Value) (around : List Frame)

def beginValue (around : List Frame) : Token → Option Reading
  | .openBrace => some (.openedObject around)
  | .openBracket => some (.opened around)
  | .null => some (.complete .null around)
  | .bool value => some (.complete (.bool value) around)
  | .number numeral => some (.complete (.number numeral) around)
  | .string pieces => some (.complete (.string pieces) around)
  | .closeBrace | .closeBracket | .comma | .colon => none

def endValue (value : Value) : List Frame → Token → Option Reading
  | .array items :: around, .comma => some (.value (.array (value :: items) :: around))
  | .array items :: around, .closeBracket =>
      some (.complete (.array (value :: items).reverse) around)
  | .object members name :: around, .comma => some (.name ((name, value) :: members) around)
  | .object members name :: around, .closeBrace =>
      some (.complete (.object ((name, value) :: members).reverse) around)
  | _, _ => none

def feed : Reading → Token → Option Reading
  | .value around, token => beginValue around token
  | .opened around, .closeBracket => some (.complete (.array []) around)
  | .opened around, token => beginValue (.array [] :: around) token
  | .openedObject around, .closeBrace => some (.complete (.object []) around)
  | .openedObject around, .string pieces => some (.colon [] pieces around)
  | .openedObject _, _ => none
  | .name members around, .string pieces => some (.colon members pieces around)
  | .name _ _, _ => none
  | .colon members name around, .colon => some (.value (.object members name :: around))
  | .colon _ _ _, _ => none
  | .complete value around, token => endValue value around token

def feedAll : Reading → List Token → Option Reading
  | reading, [] => some reading
  | reading, token :: rest =>
      match feed reading token with
      | some next => feedAll next rest
      | none => none

def parse (input : List UInt8) : Option Value :=
  match tokens input with
  | none => none
  | some read =>
      match feedAll (.value []) read with
      | some (.complete value []) => some value
      | _ => none

end CameraScript.Json
