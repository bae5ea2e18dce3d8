import CameraScript.Proofs.ListedInstructions
import CameraScript.Proofs.WrittenNumbers
import Mathlib.Data.List.Chain

/-!
# What a listing keeps of a dump

The fields that are listed give the dump back. An operand is a decimal number, and reading it
gives the argument byte again; so each instruction gives back its own bytes, and the
instructions lie one behind the other from the offset to the end. Only at the end can there be
fewer argument bytes than an opcode takes.
-/

namespace CameraScript

theorem Opcode.mnemonic_ne_data (opcode : UInt8) : Opcode.mnemonic opcode ≠ "db" := by
  unfold Opcode.mnemonic
  split
  · decide
  · decide
  · decide
  · split <;> decide

namespace Instruction

def decimalByte (operand : String) : Except NumberFault UInt8 :=
  (Number.unsigned 10 UInt8.size operand.toList).map UInt8.ofNat

/-- The bytes of an instruction as its listed fields tell them: the opcode, and the operands
as decimal bytes. The operand of data repeats the opcode and is no byte of its own. -/
def reencode (instruction : Instruction) : Except NumberFault (List UInt8) :=
  if instruction.mnemonic = "db" then .ok [instruction.opcode]
  else (instruction.operands.mapM decimalByte).map (instruction.opcode :: ·)

theorem decimal_byte_to_string (byte : UInt8) : decimalByte (toString byte) = .ok byte := by
  have written : (toString byte).toList = Nat.toDigits 10 byte.toNat := Nat.toList_repr
  have read : Number.unsigned 10 UInt8.size (Nat.toDigits 10 byte.toNat) = .ok byte.toNat := by
    apply Number.unsigned_of_digits (by decide) Nat.toDigits_ne_nil
    exact Number.digits_of_to_digits (by decide) (by decide) byte.toNat_lt
  rw [decimalByte, written, read]
  exact congrArg Except.ok UInt8.ofNat_toNat

theorem decimal_bytes_to_string (arguments : List UInt8) :
    (arguments.map fun argument => toString argument).mapM decimalByte = .ok arguments := by
  have read : (arguments.map fun argument => toString argument).mapM decimalByte =
      .ok (arguments.map id) :=
    map_m_map fun argument _ => decimal_byte_to_string argument
  rw [List.map_id] at read
  exact read

theorem arguments_decode_data {table : Table} {place : Nat} {opcode : UInt8}
    {rest : List UInt8} (data : (decode table place opcode rest).shape = .data) :
    (decode table place opcode rest).arguments = [] := by
  unfold decode at data ⊢
  split
  · rename_i restart
    simp only [if_pos restart] at data
    contradiction
  · rename_i other
    rw [if_neg other] at data
    cases known : table.get? opcode with
    | none => rfl
    | some descriptor =>
        simp only [known] at data
        contradiction

theorem reencode_decode (table : Table) (place : Nat) (opcode : UInt8) (rest : List UInt8) :
    (decode table place opcode rest).reencode =
      .ok (decode table place opcode rest).encode := by
  have bare : (decode table place opcode rest).shape = .data →
      (decode table place opcode rest).arguments = [] := arguments_decode_data
  generalize decode table place opcode rest = instruction at bare
  obtain ⟨address, code, shape, arguments⟩ := instruction
  cases shape with
  | data =>
      have none_left : arguments = [] := bare rfl
      subst none_left
      rfl
  | restart | operation =>
      have other := Opcode.mnemonic_ne_data code
      simp only [reencode, mnemonic, if_neg other, operands, decimal_bytes_to_string]
      rfl

/-- An opcode of a dialect lacks arguments only where the bytes end. -/
theorem ended_of_lacking {dialect : Dialect} {place : Nat} {opcode : UInt8} {rest : List UInt8}
    {descriptor : Descriptor} (known : dialect.table.get? opcode = some descriptor)
    (lacking : ((decode dialect.table place opcode rest).operands.length : Int) <
      descriptor.argLength.toInt) :
    rest.drop (decode dialect.table place opcode rest).arguments.length = [] := by
  by_cases restart : opcode = Opcode.restart
  · subst restart
    rw [dialect.get_restart] at known
    cases known
    have none_taken : (0 : Int8).toInt = 0 := rfl
    simp only [none_taken] at lacking
    omega
  · rw [decode_operation restart known] at lacking ⊢
    have taken : ((rest.take descriptor.argumentCount).length : Int) <
        descriptor.argLength.toInt := by
      simpa only [operands, List.length_map] using lacking
    rw [List.length_take, Descriptor.argumentCount] at taken
    have ends : rest.length ≤ (rest.take descriptor.argumentCount).length := by
      rw [List.length_take, Descriptor.argumentCount]
      omega
    exact List.drop_eq_nil_of_le ends

end Instruction

namespace Listing

variable {table : Table} {dump : List UInt8} {place : Nat}

def reencode (listing : Listing) : Except NumberFault (List UInt8) :=
  (listing.instructions.mapM Instruction.reencode).map List.flatten

def Follows (one next : Instruction) : Prop :=
  ∃ own, one.reencode = .ok own ∧ next.address.toNat = one.address.toNat + own.length

theorem reencode_of_mem {instruction : Instruction}
    (member : instruction ∈ instructionsAt table dump place) :
    instruction.reencode = .ok instruction.encode := by
  obtain ⟨_, -, -, decoded, -⟩ := placed_of_mem member
  rw [decoded]
  exact Instruction.reencode_decode ..

theorem reencode_instructions_at (table : Table) (dump : List UInt8) (place : Nat) :
    ((instructionsAt table dump place).mapM Instruction.reencode).map List.flatten =
      .ok (dump.drop place) := by
  have each : ((instructionsAt table dump place).map id).mapM Instruction.reencode =
      .ok ((instructionsAt table dump place).map Instruction.encode) :=
    map_m_map fun instruction member => reencode_of_mem member
  rw [List.map_id] at each
  have whole : (instructionsAt table dump place).flatMap Instruction.encode = dump.drop place :=
    encode_list_from table place #[] (dump.drop place)
  rw [List.flatMap_def] at whole
  rw [each, ← whole]
  rfl

theorem address_of_head (fits : dump.length ≤ UInt32.size) {first : Instruction}
    (leads : first ∈ (instructionsAt table dump place).head?) : first.address.toNat = place := by
  cases fetched : dump[place]? with
  | none =>
      rw [instructions_at_end (List.getElem?_eq_none_iff.mp fetched)] at leads
      contradiction
  | some opcode =>
      rw [instructions_at_cons table fetched] at leads
      cases leads
      exact address_decode_at fits fetched

theorem instructions_at_follow (table : Table) (fits : dump.length ≤ UInt32.size) (place : Nat) :
    (instructionsAt table dump place).IsChain Follows := by
  induction place using instruction_induction table dump with
  | ended place ended =>
      rw [instructions_at_end ended]
      exact .nil
  | before place opcode fetched ih =>
      rw [instructions_at_cons table fetched, List.isChain_cons]
      constructor
      · intro next leads
        have own : (decodeAt table dump place opcode).reencode =
            .ok (decodeAt table dump place opcode).encode :=
          Instruction.reencode_decode ..
        have here : (decodeAt table dump place opcode).address.toNat = place :=
          address_decode_at fits fetched
        exact ⟨_, own, by rw [here, address_of_head fits leads]⟩
      · exact ih

theorem complete_before_last (dialect : Dialect) (dump : List UInt8) (place : Nat) :
    ∀ instruction ∈ (instructionsAt dialect.table dump place).dropLast, ∀ descriptor,
      dialect.table.get? instruction.opcode = some descriptor →
        descriptor.argLength.toInt ≤ instruction.operands.length := by
  induction place using instruction_induction dialect.table dump with
  | ended place ended =>
      rw [instructions_at_end ended]
      intro instruction member
      contradiction
  | before place opcode fetched ih =>
      intro instruction member descriptor known
      rw [instructions_at_cons _ fetched] at member
      by_cases last : instructionsAt dialect.table dump
          (place + (decodeAt dialect.table dump place opcode).encode.length) = []
      · rw [last] at member
        contradiction
      · rw [List.dropLast_cons_of_ne_nil last] at member
        rcases List.mem_cons.mp member with rfl | later
        · apply Int.le_of_not_gt
          intro lacking
          apply last
          have code : (decodeAt dialect.table dump place opcode).opcode = opcode :=
            Instruction.opcode_decode ..
          rw [code] at known
          have ended := Instruction.ended_of_lacking known lacking
          apply instructions_at_end
          rw [List.drop_drop] at ended
          have size := Instruction.length_encode (decodeAt dialect.table dump place opcode)
          have beyond := List.drop_eq_nil_iff.mp ended
          simp only [decodeAt] at size ⊢
          omega
        · exact ih instruction later descriptor known

/-- The listing of a dump, for each offset inside the dump or just at its end, gives the dump
back from its fields, and every instruction but the last has all of its arguments. In a dump
with an address for every byte the first instruction lies at the offset and each other one
right behind the one before it. -/
theorem listing_gives_dump_back (dialect : Dialect) {bytes : Array UInt8} {offset : Nat}
    (accepted : offset ≤ bytes.size) :
    ∃ listing, ofBytes dialect offset bytes = .ok listing ∧
      listing.reencode = .ok (bytes.toList.drop offset) ∧
      (bytes.size ≤ UInt32.size →
        (∀ first ∈ listing.instructions.head?, first.address.toNat = offset) ∧
          listing.instructions.IsChain Follows ∧
          ∀ instruction ∈ listing.instructions, instruction.address.toNat < bytes.size) ∧
      ∀ instruction ∈ listing.instructions.dropLast, ∀ descriptor,
        dialect.table.get? instruction.opcode = some descriptor →
          descriptor.argLength.toInt ≤ instruction.operands.length := by
  let listed := instructionsAt dialect.table bytes.toList offset
  have listing : ofBytes dialect offset bytes = .ok ⟨dialect, offset, listed⟩ := if_pos accepted
  refine ⟨_, listing, reencode_instructions_at _ _ _, fun fits => ?_,
    complete_before_last dialect _ _⟩
  rw [← Array.length_toList] at fits
  refine ⟨fun _ => address_of_head fits, instructions_at_follow _ fits _, ?_⟩
  intro instruction member
  obtain ⟨-, fetched, -⟩ := addressed_of_mem fits member
  exact (List.getElem?_eq_some_iff.mp fetched).1

/-- Behind the first byte this dump holds a restart with its marker, one without, data, an
opcode that parks the position, one with its argument, and one that lacks its argument. -/
theorem listing_gives_dump_back_to_lacking_argument :
    let bytes : Array UInt8 := #[7, 0xFE, 0xC0, 0xFE, 0x00, 0xF4, 0xF5, 200, 0xE2]
    1 ≤ bytes.size ∧
      ∃ listing, ofBytes .routine5C3FD5 1 bytes = .ok listing ∧
        listing.instructions.map Instruction.operands =
          [["192"], [], ["0x00"], [], ["200"], []] ∧
        listing.reencode = .ok [0xFE, 0xC0, 0xFE, 0x00, 0xF4, 0xF5, 200, 0xE2] ∧
        listing.instructions.IsChain Follows := by
  intro bytes
  have accepted : 1 ≤ bytes.size := by decide
  obtain ⟨listing, listed, whole, addressed, -⟩ :=
    listing_gives_dump_back .routine5C3FD5 accepted
  obtain ⟨-, follow, -⟩ := addressed (by decide)
  refine ⟨accepted, listing, listed, ?_, whole, follow⟩
  cases listed
  decide +kernel

end Listing

end CameraScript
