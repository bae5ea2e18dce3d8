import CameraScript.Dialect

/-!
A dump of script bytes as a sequence of instructions. Instructions lie one after
the other and together hold every byte from the offset to the end of the dump. A
byte that is no opcode of the dialect is listed as data, and the last instruction may
lack arguments.
-/

namespace CameraScript

/-- What a listed opcode is: an opcode of the table, the restart of the interpreter
itself, or a byte without a meaning. -/
inductive Shape where
  | operation (descriptor : Descriptor)
  | restart
  | data
  deriving DecidableEq, Repr

/-- An opcode at its place in the dump, with the argument bytes that are there. Of the
place only the low 32 bits are listed. -/
structure Instruction where
  address : UInt32
  opcode : UInt8
  shape : Shape
  arguments : List UInt8
  deriving DecidableEq, Repr

/-- An opcode that parks the position has no arguments in the dump. -/
def Descriptor.argumentCount (descriptor : Descriptor) : Nat :=
  descriptor.argLength.toInt.toNat

namespace Instruction

def encode (instruction : Instruction) : List UInt8 :=
  instruction.opcode :: instruction.arguments

def mnemonic (instruction : Instruction) : String :=
  match instruction.shape with
  | .data => "db"
  | .operation _ | .restart => Opcode.mnemonic instruction.opcode

/-- Arguments are written in decimal. Data shows its own byte in hexadecimal. -/
def operands (instruction : Instruction) : List String :=
  match instruction.shape with
  | .data => ["0x" ++ Text.hexLower 2 instruction.opcode.toNat]
  | .operation _ | .restart => instruction.arguments.map fun argument => toString argument

/-- The argument that is stored at half resolution. The one argument of a wait is a
duration, whatever its descriptor says. -/
def doubled (instruction : Instruction) : Option UInt8 :=
  match instruction.shape with
  | .operation descriptor =>
      if instruction.opcode = Opcode.setWait then some 0 else descriptor.doubled
  | .restart | .data => none

def terminal (instruction : Instruction) : Bool :=
  match instruction.shape with
  | .operation descriptor => descriptor.terminal
  | .restart | .data => false

/-- The size that the instruction ought to have, also where the dump ends early. -/
def span (instruction : Instruction) : Nat :=
  match instruction.shape with
  | .operation descriptor => 1 + descriptor.argumentCount
  | .restart | .data => 1 + instruction.arguments.length

def decode (table : Table) (place : Nat) (opcode : UInt8) (rest : List UInt8) : Instruction :=
  let address := UInt32.ofNat place
  if opcode = Opcode.restart then
    ⟨address, opcode, .restart, if rest.head? = some Opcode.restartMarker then rest.take 1 else []⟩
  else
    match table.get? opcode with
    | some descriptor =>
        ⟨address, opcode, .operation descriptor, rest.take descriptor.argumentCount⟩
    | none => ⟨address, opcode, .data, []⟩

theorem opcode_decode (table : Table) (place : Nat) (opcode : UInt8) (rest : List UInt8) :
    (decode table place opcode rest).opcode = opcode := by
  simp only [decode]
  split
  · rfl
  · split <;> rfl

theorem arguments_decode_initial (table : Table) (place : Nat) (opcode : UInt8)
    (rest : List UInt8) : (decode table place opcode rest).arguments <+: rest := by
  simp only [decode]
  split
  · dsimp only
    split
    · exact List.take_prefix 1 rest
    · exact List.nil_prefix
  · split
    · exact List.take_prefix _ rest
    · exact List.nil_prefix

/-- The bytes of an instruction and the bytes that the listing goes on with are the
bytes that were there. -/
theorem encode_decode_append (table : Table) (place : Nat) (opcode : UInt8)
    (rest : List UInt8) :
    (decode table place opcode rest).encode ++
        rest.drop (decode table place opcode rest).arguments.length =
      opcode :: rest := by
  simp only [encode, opcode_decode, List.cons_append, List.cons.injEq, true_and]
  exact (List.prefix_iff_eq_append.mp (arguments_decode_initial table place opcode rest))

end Instruction

inductive ListingWarning where
  | truncated (opcode : UInt8) (place present expected : Nat)
  | unknownOpcode (dialect : Dialect) (opcode : UInt8) (place : Nat)
  deriving DecidableEq, Repr

def ListingWarning.message : ListingWarning → String
  | truncated opcode place present expected =>
      let found := s!"opcode 0x{Text.hexLower 2 opcode.toNat} at 0x{Text.hex place}"
      s!"{found} truncated: {present} of {expected} arguments"
  | unknownOpcode dialect opcode place =>
      let code := Text.hexLower 2 opcode.toNat
      s!"unknown {dialect.name} opcode: 0x{code} at 0x{Text.hex place}"

def Instruction.warning? (dialect : Dialect) (place : Nat) (instruction : Instruction) :
    Option ListingWarning :=
  match instruction.shape with
  | .data => some (.unknownOpcode dialect instruction.opcode place)
  | .operation descriptor =>
      if instruction.arguments.length < descriptor.argumentCount then
        some (.truncated instruction.opcode place instruction.arguments.length
          descriptor.argumentCount)
      else none
  | .restart => none

structure OffsetPastEnd where
  offset : Nat
  size : Nat
  deriving DecidableEq, Repr

def OffsetPastEnd.message (fault : OffsetPastEnd) : String :=
  s!"offset 0x{Text.hex fault.offset} is past the end of the dump ({fault.size} bytes)"

structure Listing where
  dialect : Dialect
  offset : Nat
  instructions : List Instruction
  deriving DecidableEq, Repr

namespace Listing

def listFrom (table : Table) (place : Nat) (listed : Array Instruction) :
    List UInt8 → Array Instruction
  | [] => listed
  | opcode :: rest =>
      let instruction := Instruction.decode table place opcode rest
      listFrom table (place + instruction.encode.length) (listed.push instruction)
        (rest.drop instruction.arguments.length)
termination_by bytes => bytes.length
decreasing_by simp only [List.length_drop, List.length_cons]; omega

def ofBytes (dialect : Dialect) (offset : Nat) (bytes : Array UInt8) :
    Except OffsetPastEnd Listing :=
  if offset ≤ bytes.size then
    .ok ⟨dialect, offset, (listFrom dialect.table offset #[] (bytes.toList.drop offset)).toList⟩
  else .error ⟨offset, bytes.size⟩

def finish (listing : Listing) : Nat :=
  listing.instructions.foldl (fun place instruction => place + instruction.span) listing.offset

def warningsFrom (dialect : Dialect) (place : Nat) : List Instruction → List ListingWarning
  | [] => []
  | instruction :: rest =>
      (instruction.warning? dialect place).toList ++
        warningsFrom dialect (place + instruction.span) rest

def warnings (listing : Listing) : List ListingWarning :=
  warningsFrom listing.dialect listing.offset listing.instructions

theorem encode_list_from (table : Table) (place : Nat) (listed : Array Instruction)
    (bytes : List UInt8) :
    (listFrom table place listed bytes).toList.flatMap Instruction.encode =
      listed.toList.flatMap Instruction.encode ++ bytes := by
  fun_induction listFrom table place listed bytes with
  | case1 => simp
  | case2 place listed opcode rest instruction induction =>
      rw [induction, Array.toList_push, List.flatMap_append, List.append_assoc]
      congr 1
      simpa using Instruction.encode_decode_append table place opcode rest

end Listing

end CameraScript
