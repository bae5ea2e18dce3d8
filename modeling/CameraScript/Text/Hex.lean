/-!
Numbers as hexadecimal text and text aligned to the right. Every message of the
library that shows an address or an opcode goes through these functions.
-/

namespace CameraScript.Text

def padLeft (width : Nat) (fill : Char) (text : String) : String :=
  String.ofList (text.toList.leftpad width fill)

def hex (value : Nat) : String :=
  String.ofList (Nat.toDigits 16 value)

def hexLower (width value : Nat) : String :=
  padLeft width '0' (hex value)

def hexUpper (width value : Nat) : String :=
  padLeft width '0' (String.ofList ((Nat.toDigits 16 value).map Char.toUpper))

def alignRight (width : Nat) (text : String) : String :=
  padLeft width ' ' text

end CameraScript.Text
