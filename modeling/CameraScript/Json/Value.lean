import CameraScript.Number

/-!
JSON data as it is written. Strings and numbers keep the form in which they stand in
the text and are interpreted only where a value is asked for: data that nobody asks
for may hold numbers of any size and strings that are no Unicode text.
-/

namespace CameraScript.Json

/-- A unit of a string: a byte that stands for itself, a backslash with a letter, or
four hexadecimal digits after `\u`. -/
inductive Piece where
  | byte (value : UInt8)
  | escape (letter : UInt8)
  | unit (code : UInt16)
  deriving DecidableEq, Repr

/-- A number with the digits before its fraction, and whether it is written without
fraction and exponent. -/
structure Numeral where
  negative : Bool
  whole : List Char
  integral : Bool
  deriving DecidableEq, Repr

inductive Value where
  | null
  | bool (value : Bool)
  | number (numeral : Numeral)
  | string (pieces : List Piece)
  | array (items : List Value)
  | object (members : List (List Piece × Value))

/-- What a letter after a backslash stands for; quote, slash and backslash stand for
themselves. -/
def escapeMeaning (letter : UInt8) : UInt8 :=
  match Char.ofNat letter.toNat with
  | 'b' => 8
  | 'f' => 12
  | 'n' => 10
  | 'r' => 13
  | 't' => 9
  | _ => letter

def isEscapeLetter (letter : UInt8) : Bool :=
  ['"', '\\', '/', 'b', 'f', 'n', 'r', 't'].contains (Char.ofNat letter.toNat)

def isHighHalf (code : UInt16) : Bool :=
  0xD800 ≤ code && code ≤ 0xDBFF

def isLowHalf (code : UInt16) : Bool :=
  0xDC00 ≤ code && code ≤ 0xDFFF

def joinHalves (high low : UInt16) : Char :=
  Char.ofNat (0x10000 + (high.toNat - 0xD800) * 0x400 + (low.toNat - 0xDC00))

def joinPieces (done : ByteArray) : List Piece → Option ByteArray
  | [] => some done
  | .byte value :: rest => joinPieces (done.push value) rest
  | .escape letter :: rest => joinPieces (done.push (escapeMeaning letter)) rest
  | .unit high :: .unit low :: rest =>
      if isHighHalf high then
        if isLowHalf low then
          joinPieces (done ++ (String.singleton (joinHalves high low)).toUTF8) rest
        else none
      else if isLowHalf high then none
      else
        joinPieces (done ++ (String.singleton (Char.ofNat high.toNat)).toUTF8) (.unit low :: rest)
  | .unit code :: rest =>
      if isHighHalf code || isLowHalf code then none
      else joinPieces (done ++ (String.singleton (Char.ofNat code.toNat)).toUTF8) rest

def textOf (pieces : List Piece) : Option String :=
  (joinPieces ByteArray.empty pieces).bind String.fromUTF8?

def plainPieces (text : String) : List Piece :=
  text.toUTF8.toList.map .byte

def Numeral.magnitude? (bound : Nat) (numeral : Numeral) : Option Nat :=
  if numeral.integral then (Number.digits 10 bound 0 numeral.whole).toOption else none

def Numeral.ofNat (value : Nat) : Numeral :=
  ⟨false, Nat.toDigits 10 value, true⟩

def Numeral.ofInt (value : Int) : Numeral :=
  ⟨decide (value < 0), Nat.toDigits 10 value.natAbs, true⟩

end CameraScript.Json
