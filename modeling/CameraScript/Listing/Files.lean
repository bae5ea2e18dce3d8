import CameraScript.Listing
import CameraScript.Text.Toml

/-!
The two files that a listing is kept in: the instructions as YAML, and a small TOML
record that says which dump they came from.
-/

namespace CameraScript

namespace Instruction

/-- Operands are quoted, since they would be numbers otherwise. -/
def yamlOperands (instruction : Instruction) : String :=
  match instruction.operands with
  | [] => "  operands: []\n"
  | operands =>
      "  operands:\n" ++ String.join (operands.map fun operand => s!"  - '{operand}'\n")

def yaml (instruction : Instruction) : String :=
  let doubled := (instruction.doubled.map toString).getD "null"
  s!"- address: {instruction.address}\n" ++
  s!"  opcode: {instruction.opcode}\n" ++
  s!"  mnemonic: {instruction.mnemonic}\n" ++
  instruction.yamlOperands ++
  s!"  doubled: {doubled}\n" ++
  s!"  terminal: {instruction.terminal}\n"

end Instruction

def Listing.yaml (listing : Listing) : String :=
  if listing.instructions.isEmpty then "[]\n"
  else String.join (listing.instructions.map Instruction.yaml)

def listingFile : String := "listing.yaml"

def projectFile : String := "project.toml"

structure Project where
  input : String
  dialect : Dialect
  offset : Nat
  deriving DecidableEq, Repr

def Project.toml (project : Project) : String :=
  s!"input = {Text.tomlString project.input}\n" ++
  s!"dialect = {Text.tomlString project.dialect.name}\n" ++
  s!"offset = {project.offset}\n" ++
  s!"listing_file = {Text.tomlString listingFile}\n"

end CameraScript
