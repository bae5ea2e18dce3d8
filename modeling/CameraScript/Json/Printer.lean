import CameraScript.Json.Value

/-!
Data as JSON text over several lines: two blanks for each level, a member or an item
to a line, and no line break at the end. Empty containers stay on their line.
-/

namespace CameraScript.Json

def asciiBytes (text : String) : List UInt8 :=
  text.toUTF8.toList

def newLine (level : Nat) : List UInt8 :=
  0x0A :: List.replicate (2 * level) 0x20

def printPiece : Piece → List UInt8
  | .byte value => [value]
  | .escape letter => [0x5C, letter]
  | .unit code => asciiBytes ("\\u" ++ Text.hexLower 4 code.toNat)

def printString (pieces : List Piece) : List UInt8 :=
  0x22 :: pieces.flatMap printPiece ++ [0x22]

/-- A number that is not integral gets the shortest fraction there is. -/
def printNumeral (numeral : Numeral) : List UInt8 :=
  asciiBytes ((if numeral.negative then "-" else "") ++ String.ofList numeral.whole ++
    (if numeral.integral then "" else ".0"))

mutual

def printValue (level : Nat) : Value → List UInt8
  | .null => asciiBytes "null"
  | .bool true => asciiBytes "true"
  | .bool false => asciiBytes "false"
  | .number numeral => printNumeral numeral
  | .string pieces => printString pieces
  | .array [] => asciiBytes "[]"
  | .array (first :: rest) =>
      asciiBytes "[" ++ newLine (level + 1) ++ printValue (level + 1) first ++
        printItems (level + 1) rest ++ newLine level ++ asciiBytes "]"
  | .object [] => asciiBytes "\x7b\x7d"
  | .object ((name, first) :: rest) =>
      asciiBytes "\x7b" ++ newLine (level + 1) ++ printString name ++ asciiBytes ": " ++
        printValue (level + 1) first ++ printMembers (level + 1) rest ++ newLine level ++
        asciiBytes "\x7d"

def printItems (level : Nat) : List Value → List UInt8
  | [] => []
  | item :: rest =>
      asciiBytes "," ++ newLine level ++ printValue level item ++ printItems level rest

def printMembers (level : Nat) : List (List Piece × Value) → List UInt8
  | [] => []
  | (name, value) :: rest =>
      asciiBytes "," ++ newLine level ++ printString name ++ asciiBytes ": " ++
        printValue level value ++ printMembers level rest

end

def pretty (value : Value) : List UInt8 :=
  printValue 0 value

end CameraScript.Json
