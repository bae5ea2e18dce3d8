import CameraScript.Table

/-!
The two dialects of camera scripts. Each is named by the address of the game
routine that interprets it, and has an opcode table of its own and its own place
in the directories of the script tables.
-/

namespace CameraScript

inductive Dialect where
  | routine5C3FD5
  | routine5C23D1
  deriving DecidableEq, Repr

namespace Dialect

def name : Dialect → String
  | routine5C3FD5 => "5c3fd5"
  | routine5C23D1 => "5c23d1"

/-- The name as it is written in records; letters of either case are the same, and
the name may be introduced by `sub_`. -/
def ofText? (text : String) : Option Dialect :=
  let lowered := text.map Char.toLower
  if lowered = "5c3fd5" ∨ lowered = "sub_5c3fd5" then some routine5C3FD5
  else if lowered = "5c23d1" ∨ lowered = "sub_5c23d1" then some routine5C23D1
  else none

/-- The displacement of the dialect's cell in a directory of script tables. -/
def internalOffset : Dialect → UInt32
  | routine5C3FD5 => 4
  | routine5C23D1 => 0

def plain (opcode : UInt8) (argLength : Int8) : Entry :=
  ⟨opcode, ⟨argLength, none, false⟩⟩

def halved (opcode : UInt8) (argLength : Int8) (argument : UInt8) : Entry :=
  ⟨opcode, ⟨argLength, some argument, false⟩⟩

def ending (opcode : UInt8) (argLength : Int8) : Entry :=
  ⟨opcode, ⟨argLength, none, true⟩⟩

def entries5C3FD5 : List Entry :=
  [halved 0xD8 9 8, plain 0xD9 0, plain 0xDB 0, plain 0xDC 0, plain 0xDD 1, plain 0xDE 1,
    plain 0xDF 0, plain 0xE0 2, plain 0xE1 0, halved 0xE2 1 0, halved 0xE3 9 8, halved 0xE4 8 7,
    halved 0xE5 8 7, halved 0xE6 7 6, halved 0xE8 8 7, halved 0xEA 8 7, halved 0xEC 9 8,
    ending 0xF0 8, plain 0xF4 (-1), plain 0xF5 1, ending 0xF8 7, ending 0xF9 7, plain 0xFA 6,
    plain 0xFE 0, ending 0xFF (-1)]

def entries5C23D1 : List Entry :=
  [plain 0xD5 2, plain 0xD6 0, plain 0xD7 2, halved 0xD8 9 8, plain 0xD9 0, plain 0xDA 0,
    plain 0xDB 0, plain 0xDC 0, plain 0xDD 1, plain 0xDE 1, plain 0xDF 0, plain 0xE0 2,
    plain 0xE1 0, halved 0xE2 1 0, halved 0xE3 9 8, halved 0xE4 8 7, halved 0xE5 8 7,
    halved 0xE6 7 6, plain 0xE7 8, plain 0xE9 8, halved 0xEB 9 0, ending 0xEF 8, ending 0xF0 7,
    plain 0xF1 0, plain 0xF2 5, plain 0xF3 5, plain 0xF4 (-1), plain 0xF5 1, ending 0xF7 7,
    plain 0xF8 12, plain 0xF9 6, plain 0xFE 0, ending 0xFF (-1)]

def entries : Dialect → List Entry
  | routine5C3FD5 => entries5C3FD5
  | routine5C23D1 => entries5C23D1

theorem entries_advance (dialect : Dialect) :
    ∀ entry ∈ dialect.entries, entry.Advances := by
  cases dialect <;> decide

def table5C3FD5 : Table :=
  Table.ofAdvancing entries5C3FD5 (entries_advance routine5C3FD5)

def table5C23D1 : Table :=
  Table.ofAdvancing entries5C23D1 (entries_advance routine5C23D1)

def table : Dialect → Table
  | routine5C3FD5 => table5C3FD5
  | routine5C23D1 => table5C23D1

end Dialect

structure PerDialect (Value : Type) where
  at5C3FD5 : Value
  at5C23D1 : Value
  deriving DecidableEq, Repr

def PerDialect.get {Value : Type} (values : PerDialect Value) : Dialect → Value
  | .routine5C3FD5 => values.at5C3FD5
  | .routine5C23D1 => values.at5C23D1

end CameraScript
