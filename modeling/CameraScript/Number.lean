import CameraScript.Text.Blank
import CameraScript.Text.Quoted

/-!
Unsigned numbers as they are typed: decimal, or hexadecimal after `0x`. The value is
accumulated without a bound and compared with the bound digit by digit, so a number
that does not fit is refused and never wraps around.
-/

namespace CameraScript

/-- Why a text is no number. The first offending digit decides. -/
inductive NumberFault where
  | empty
  | invalidDigit
  | tooLarge
  deriving DecidableEq, Repr

def NumberFault.text : NumberFault → String
  | empty => "cannot parse integer from empty string"
  | invalidDigit => "invalid digit found in string"
  | tooLarge => "number too large to fit in target type"

namespace Number

def digit? (radix : Nat) (character : Char) : Option Nat :=
  let code := character.toNat
  let value :=
    if 48 ≤ code ∧ code ≤ 57 then code - 48
    else if 97 ≤ code ∧ code ≤ 102 then code - 87
    else if 65 ≤ code ∧ code ≤ 70 then code - 55
    else 16
  if value < radix then some value else none

def digits (radix bound : Nat) : Nat → List Char → Except NumberFault Nat
  | value, [] => .ok value
  | value, character :: rest =>
      match digit? radix character with
      | none => .error .invalidDigit
      | some digit =>
          if value * radix + digit < bound then digits radix bound (value * radix + digit) rest
          else .error .tooLarge

/-- A number below the bound. One plus sign may stand before the digits. -/
def unsigned (radix bound : Nat) : List Char → Except NumberFault Nat
  | [] => .error .empty
  | ['+'] => .error .invalidDigit
  | '+' :: rest => digits radix bound 0 rest
  | text => digits radix bound 0 text

def splitRadix : List Char → Nat × List Char
  | '0' :: 'x' :: rest => (16, rest)
  | '0' :: 'X' :: rest => (16, rest)
  | text => (10, text)

end Number

structure BadNumber where
  text : List Char
  fault : NumberFault
  deriving DecidableEq, Repr

def BadNumber.message (bad : BadNumber) : String :=
  s!"invalid number {Text.quoted bad.text}: {bad.fault.text}"

/-- A 32-bit number; blanks around it do not count. -/
def parseNumber (text : String) : Except BadNumber UInt32 :=
  let trimmed := Text.trim text.toList
  let (radix, digits) := Number.splitRadix trimmed
  match Number.unsigned radix UInt32.size digits with
  | .ok value => .ok (UInt32.ofNat value)
  | .error fault => .error ⟨trimmed, fault⟩

end CameraScript
