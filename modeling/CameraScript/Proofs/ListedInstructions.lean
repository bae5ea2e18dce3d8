import CameraScript.Listing
import CameraScript.Proofs.InstructionBoundaries

/-!
# The instructions of a listing

A listing cuts a dump into instructions. Each is decoded from the bytes at its own
place, the next one begins where it ends, and the last one ends with the dump. In a dump
that has an address for every byte the places are the listed addresses, and these are the
boundaries of a script, apart from the marker of a restart: a walk that skips the restart
comes to the marker as to an opcode of its own.
-/

namespace CameraScript

namespace Dialect

/-- The opcodes of the interpreter itself are in both tables, and the marker of a restart is
in none. -/
theorem get_control (dialect : Dialect) :
    dialect.table.get? Opcode.wait = some ⟨-1, none, false⟩ ∧
      dialect.table.get? Opcode.setWait = some ⟨1, none, false⟩ ∧
      dialect.table.get? Opcode.restart = some ⟨0, none, false⟩ ∧
      dialect.table.get? Opcode.restartMarker = none := by
  cases dialect <;> decide +kernel

theorem get_wait (dialect : Dialect) :
    dialect.table.get? Opcode.wait = some ⟨-1, none, false⟩ :=
  dialect.get_control.1

theorem get_set_wait (dialect : Dialect) :
    dialect.table.get? Opcode.setWait = some ⟨1, none, false⟩ :=
  dialect.get_control.2.1

theorem get_restart (dialect : Dialect) :
    dialect.table.get? Opcode.restart = some ⟨0, none, false⟩ :=
  dialect.get_control.2.2.1

theorem get_restart_marker (dialect : Dialect) :
    dialect.table.get? Opcode.restartMarker = none :=
  dialect.get_control.2.2.2

theorem span_of_ne_restart (dialect : Dialect) {opcode : UInt8}
    (other : opcode ≠ Opcode.restart) :
    dialect.table.span opcode =
      1 + (dialect.table.get? opcode).elim 0 Descriptor.argumentCount := by
  unfold Table.span
  cases control : Control.ofOpcode? opcode with
  | none => rfl
  | some kind =>
      have same := Control.of_opcode_eq_some_iff.mp control
      cases kind with
      | wait =>
          rw [same, Control.opcode, dialect.get_wait]
          rfl
      | setWait =>
          rw [same, Control.opcode, dialect.get_set_wait]
          rfl
      | restart => exact absurd same other

theorem span_restart (dialect : Dialect) : dialect.table.span Opcode.restart = 1 :=
  rfl

end Dialect

namespace Instruction

theorem length_encode (instruction : Instruction) :
    instruction.encode.length = 1 + instruction.arguments.length := by
  simp only [encode, List.length_cons]
  omega

theorem address_decode (table : Table) (place : Nat) (opcode : UInt8) (rest : List UInt8) :
    (decode table place opcode rest).address = UInt32.ofNat place := by
  simp only [decode]
  split
  · rfl
  · split <;> rfl

theorem decode_operation {table : Table} {opcode : UInt8} {descriptor : Descriptor}
    (other : opcode ≠ Opcode.restart) (known : table.get? opcode = some descriptor)
    (place : Nat) (rest : List UInt8) :
    decode table place opcode rest =
      ⟨UInt32.ofNat place, opcode, .operation descriptor,
        rest.take descriptor.argumentCount⟩ := by
  simp only [decode, if_neg other, known]

theorem decode_data {table : Table} {opcode : UInt8} (other : opcode ≠ Opcode.restart)
    (unknown : table.get? opcode = none) (place : Nat) (rest : List UInt8) :
    decode table place opcode rest = ⟨UInt32.ofNat place, opcode, .data, []⟩ := by
  simp only [decode, if_neg other, unknown]

theorem decode_restart (table : Table) (place : Nat) (rest : List UInt8) :
    decode table place Opcode.restart rest =
      ⟨UInt32.ofNat place, Opcode.restart, .restart,
        if rest.head? = some Opcode.restartMarker then [Opcode.restartMarker] else []⟩ := by
  cases rest with
  | nil => rfl
  | cons next rest =>
      by_cases marked : next = Opcode.restartMarker <;> simp [decode, marked]

end Instruction

namespace Listing

theorem list_from_append (table : Table) (place : Nat) (listed : Array Instruction)
    (bytes : List UInt8) :
    (listFrom table place listed bytes).toList =
      listed.toList ++ (listFrom table place #[] bytes).toList := by
  match bytes with
  | [] => simp [listFrom]
  | opcode :: rest =>
      simp only [listFrom]
      rw [list_from_append table _ (listed.push _), list_from_append table _ (#[].push _)]
      simp
termination_by bytes.length
decreasing_by all_goals simp only [List.length_drop, List.length_cons]; omega

def decodeAt (table : Table) (dump : List UInt8) (place : Nat) (opcode : UInt8) : Instruction :=
  Instruction.decode table place opcode (dump.drop (place + 1))

def instructionsAt (table : Table) (dump : List UInt8) (place : Nat) : List Instruction :=
  (listFrom table place #[] (dump.drop place)).toList

variable {table : Table} {dump : List UInt8}

theorem instructions_at_end {place : Nat} (ended : dump.length ≤ place) :
    instructionsAt table dump place = [] := by
  rw [instructionsAt, List.drop_eq_nil_of_le ended]
  simp [listFrom]

theorem instructions_at_cons (table : Table) {place : Nat} {opcode : UInt8}
    (fetched : dump[place]? = some opcode) :
    instructionsAt table dump place =
      decodeAt table dump place opcode ::
        instructionsAt table dump (place + (decodeAt table dump place opcode).encode.length) := by
  obtain ⟨inside, here⟩ := List.getElem?_eq_some_iff.mp fetched
  have split : dump.drop place = opcode :: dump.drop (place + 1) := by
    rw [List.drop_eq_getElem_cons inside, here]
  have after : (dump.drop (place + 1)).drop
      (decodeAt table dump place opcode).arguments.length =
        dump.drop (place + (decodeAt table dump place opcode).encode.length) := by
    rw [List.drop_drop, Instruction.length_encode]
    congr 1
    omega
  rw [instructionsAt, split, listFrom, list_from_append]
  simp only [decodeAt] at after ⊢
  rw [after]
  rfl

/-- A listing is followed from its end, one instruction after the other. -/
theorem instruction_induction (table : Table) (dump : List UInt8) {Holds : Nat → Prop}
    (ended : ∀ place, dump.length ≤ place → Holds place)
    (before : ∀ place opcode, dump[place]? = some opcode →
      Holds (place + (decodeAt table dump place opcode).encode.length) → Holds place)
    (place : Nat) : Holds place := by
  by_cases inside : place < dump.length
  · exact before place dump[place] (List.getElem?_eq_getElem inside)
      (instruction_induction table dump ended before _)
  · exact ended place (by omega)
termination_by dump.length - place
decreasing_by rw [Instruction.length_encode]; omega

/-- Every instruction is decoded at a place of its own, and what is listed from there on is
listed from any place before it. -/
theorem placed_of_mem {start : Nat} {instruction : Instruction}
    (member : instruction ∈ instructionsAt table dump start) :
    ∃ place, start ≤ place ∧ dump[place]? = some instruction.opcode ∧
      instruction = decodeAt table dump place instruction.opcode ∧
      instructionsAt table dump place <:+ instructionsAt table dump start := by
  induction start using instruction_induction table dump with
  | ended start ended =>
      rw [instructions_at_end ended] at member
      contradiction
  | before start opcode fetched ih =>
      have here := instructions_at_cons table fetched
      rw [here] at member
      rcases List.mem_cons.mp member with rfl | later
      · have code : (decodeAt table dump start opcode).opcode = opcode :=
          Instruction.opcode_decode ..
        rw [code]
        exact ⟨start, Nat.le_refl _, fetched, rfl, List.suffix_rfl⟩
      · obtain ⟨place, beyond, opens, decoded, listed⟩ := ih later
        rw [here]
        exact ⟨place, by omega, opens, decoded, listed.trans (List.suffix_cons ..)⟩

/-! ## Dumps that have an address for every byte -/

theorem address_decode_at (fits : dump.length ≤ UInt32.size) {place : Nat} {opcode : UInt8}
    (fetched : dump[place]? = some opcode) :
    (decodeAt table dump place opcode).address.toNat = place := by
  have inside := (List.getElem?_eq_some_iff.mp fetched).1
  rw [decodeAt, Instruction.address_decode]
  exact UInt32.toNat_ofNat_of_lt' (by omega)

theorem addressed_of_mem (fits : dump.length ≤ UInt32.size) {start : Nat}
    {instruction : Instruction} (member : instruction ∈ instructionsAt table dump start) :
    start ≤ instruction.address.toNat ∧
      dump[instruction.address.toNat]? = some instruction.opcode ∧
      instruction = decodeAt table dump instruction.address.toNat instruction.opcode ∧
      instructionsAt table dump instruction.address.toNat <:+ instructionsAt table dump start := by
  obtain ⟨place, beyond, opens, decoded, listed⟩ := placed_of_mem member
  have same : instruction.address.toNat = place := by
    rw [decoded]
    exact address_decode_at fits opens
  rw [same]
  exact ⟨beyond, opens, decoded, listed⟩

theorem argument_of_mem (fits : dump.length ≤ UInt32.size) {start : Nat}
    {instruction : Instruction} (member : instruction ∈ instructionsAt table dump start)
    {index : Nat} (inside : index < instruction.arguments.length) :
    instruction.arguments[index]? = dump[instruction.address.toNat + 1 + index]? := by
  obtain ⟨-, -, decoded, -⟩ := addressed_of_mem fits member
  obtain ⟨rest, split⟩ :
      instruction.arguments <+: dump.drop (instruction.address.toNat + 1) := by
    have initial : (decodeAt table dump instruction.address.toNat instruction.opcode).arguments <+:
        dump.drop (instruction.address.toNat + 1) :=
      Instruction.arguments_decode_initial ..
    rwa [← decoded] at initial
  rw [← List.getElem?_drop, ← split, List.getElem?_append_left inside]

/-- A place in a dump where a listed instruction begins, or that holds the marker of a
listed restart, or that lies behind the last byte. -/
def OnBoundary (instructions : List Instruction) (size place : Nat) : Prop :=
  (∃ instruction ∈ instructions, instruction.address.toNat = place) ∨
    (∃ instruction ∈ instructions, instruction.shape = .restart ∧
      instruction.arguments = [Opcode.restartMarker] ∧ instruction.address.toNat + 1 = place) ∨
    size ≤ place

theorem OnBoundary.mono {fewer more : List Instruction} {size place : Nat}
    (listed : OnBoundary fewer size place) (contained : fewer ⊆ more) :
    OnBoundary more size place := by
  rcases listed with ⟨instruction, member, same⟩ | ⟨instruction, member, restart⟩ | beyond
  · exact .inl ⟨instruction, contained member, same⟩
  · exact .inr (.inl ⟨instruction, contained member, restart⟩)
  · exact .inr (.inr beyond)

theorem on_boundary_first (table : Table) (fits : dump.length ≤ UInt32.size) (place : Nat) :
    OnBoundary (instructionsAt table dump place) dump.length place := by
  cases fetched : dump[place]? with
  | none => exact .inr (.inr (List.getElem?_eq_none_iff.mp fetched))
  | some opcode =>
      rw [instructions_at_cons _ fetched]
      exact .inl ⟨_, List.mem_cons_self, address_decode_at fits fetched⟩

theorem on_boundary_after_first (dialect : Dialect) (fits : dump.length ≤ UInt32.size)
    {place : Nat} {opcode : UInt8} (fetched : dump[place]? = some opcode) :
    OnBoundary (instructionsAt dialect.table dump place) dump.length
      (place + dialect.table.span opcode) := by
  have next := on_boundary_first dialect.table fits
    (place + (decodeAt dialect.table dump place opcode).encode.length)
  have address : (decodeAt dialect.table dump place opcode).address.toNat = place :=
    address_decode_at fits fetched
  rw [Instruction.length_encode] at next
  rw [instructions_at_cons _ fetched, Instruction.length_encode]
  by_cases restart : opcode = Opcode.restart
  · subst restart
    rw [dialect.span_restart]
    have decoded : decodeAt dialect.table dump place Opcode.restart = _ :=
      Instruction.decode_restart ..
    by_cases marked : (dump.drop (place + 1)).head? = some Opcode.restartMarker
    · rw [if_pos marked] at decoded
      refine .inr (.inl ⟨_, List.mem_cons_self, ?_⟩)
      rw [address, decoded]
      exact ⟨rfl, rfl, rfl⟩
    · rw [if_neg marked] at decoded
      rw [decoded] at next ⊢
      exact next.mono (List.subset_cons_self ..)
  · rw [dialect.span_of_ne_restart restart]
    cases known : dialect.table.get? opcode with
    | none =>
        rw [decodeAt, Instruction.decode_data restart known] at next ⊢
        exact next.mono (List.subset_cons_self ..)
    | some descriptor =>
        rw [decodeAt, Instruction.decode_operation restart known] at next ⊢
        simp only [List.length_take, List.length_drop, Option.elim_some] at next ⊢
        by_cases whole : descriptor.argumentCount ≤ dump.length - (place + 1)
        · rw [Nat.min_eq_left whole] at next ⊢
          exact next.mono (List.subset_cons_self ..)
        · exact .inr (.inr (by omega))

/-- From each boundary the opcode there leads to another one. -/
theorem on_boundary_next (dialect : Dialect) (fits : dump.length ≤ UInt32.size)
    {start place : Nat} {opcode : UInt8}
    (listed : OnBoundary (instructionsAt dialect.table dump start) dump.length place)
    (fetched : dump[place]? = some opcode) :
    OnBoundary (instructionsAt dialect.table dump start) dump.length
      (place + dialect.table.span opcode) := by
  rcases listed with ⟨instruction, member, rfl⟩ | ⟨instruction, member, restart, marked, rfl⟩ |
    beyond
  · obtain ⟨-, -, -, listed⟩ := addressed_of_mem fits member
    exact (on_boundary_after_first dialect fits fetched).mono listed.subset
  · -- The marker is the last byte of its restart, and the next instruction follows it.
    obtain ⟨-, opens, decoded, listed⟩ := addressed_of_mem fits member
    have marker : dump[instruction.address.toNat + 1]? = some Opcode.restartMarker := by
      have opened : 0 < instruction.arguments.length := by
        rw [marked]
        decide
      have held := argument_of_mem fits member opened
      rw [marked] at held
      exact held.symm
    cases Option.some.inj (marker.symm.trans fetched)
    have single : dialect.table.span Opcode.restartMarker = 1 := by
      rw [dialect.span_of_ne_restart (by decide), dialect.get_restart_marker]
      rfl
    have behind := instructions_at_cons dialect.table opens
    rw [← decoded, Instruction.length_encode, marked] at behind
    have next := on_boundary_first dialect.table fits
      (instruction.address.toNat + (1 + [Opcode.restartMarker].length))
    have inside : instructionsAt dialect.table dump
        (instruction.address.toNat + (1 + [Opcode.restartMarker].length)) ⊆
          instructionsAt dialect.table dump instruction.address.toNat := by
      rw [behind]
      exact List.subset_cons_self ..
    rw [single]
    exact next.mono (List.Subset.trans inside listed.subset)
  · rw [List.getElem?_eq_none_iff.mpr beyond] at fetched
    contradiction

theorem on_boundary_of_begins (dialect : Dialect) (fits : dump.length ≤ UInt32.size)
    {offset : Nat} {fetch : Nat → Option UInt8}
    (same : ∀ index, fetch index = dump[offset + index]?) {index : Nat}
    (begins : dialect.table.Begins fetch index) :
    OnBoundary (instructionsAt dialect.table dump offset) dump.length (offset + index) := by
  obtain ⟨count, rfl⟩ := begins
  induction count with
  | zero => exact on_boundary_first _ fits offset
  | succ count ih =>
      have onward := dialect.table.boundary_lt_next fetch count
      have read := same (dialect.table.boundary fetch count)
      simp only [Table.boundary]
      cases fetched : dump[offset + dialect.table.boundary fetch count]? with
      | none =>
          have beyond := List.getElem?_eq_none_iff.mp fetched
          exact .inr (.inr (by omega))
      | some opcode =>
          rw [read, fetched, Option.elim_some, ← Nat.add_assoc]
          exact on_boundary_next dialect fits ih fetched

end Listing

end CameraScript
