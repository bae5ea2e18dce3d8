import CameraScript.Proofs.OpcodeSpans
import CameraScript.Proofs.PatchAccounting

/-!
# Where instructions begin

Read from its first byte on, a script falls into instructions. What is doubled lies
inside an instruction and never at its beginning, so the opcodes of a script, and
with them its instructions, stay what they were in the original image.
-/

namespace CameraScript

namespace Table

/-- The positions at which the instructions begin, one after the other. A position
without a byte counts as an instruction of one byte. -/
def boundary (table : Table) (fetch : Nat → Option UInt8) : Nat → Nat
  | 0 => 0
  | count + 1 =>
      let position := table.boundary fetch count
      position + (fetch position).elim 1 table.span

theorem boundary_lt_next (table : Table) (fetch : Nat → Option UInt8) (count : Nat) :
    table.boundary fetch count < table.boundary fetch (count + 1) := by
  simp only [boundary]
  cases fetch (table.boundary fetch count) with
  | none => simp
  | some opcode =>
      have single := table.one_le_span opcode
      simp only [Option.elim_some]
      omega

theorem boundary_le_of_le (table : Table) (fetch : Nat → Option UInt8) {first second : Nat}
    (order : first ≤ second) :
    table.boundary fetch first ≤ table.boundary fetch second := by
  induction order with
  | refl => exact Nat.le_refl _
  | step order ih => exact Nat.le_trans ih (Nat.le_of_lt (boundary_lt_next table fetch _))

theorem boundary_no_overlap {table : Table} {fetch : Nat → Option UInt8} {first second : Nat}
    {opcode : UInt8} (fetched : fetch (table.boundary fetch first) = some opcode)
    (after : table.boundary fetch first < table.boundary fetch second) :
    table.boundary fetch first + table.span opcode ≤ table.boundary fetch second := by
  have order : first + 1 ≤ second := by
    refine Nat.lt_of_not_le fun behind => ?_
    have back := boundary_le_of_le table fetch behind
    omega
  have next : table.boundary fetch (first + 1) =
      table.boundary fetch first + table.span opcode := by
    simp only [boundary, fetched, Option.elim_some]
  rw [← next]
  exact boundary_le_of_le table fetch order

def Begins (table : Table) (fetch : Nat → Option UInt8) (index : Nat) : Prop :=
  ∃ count, index = table.boundary fetch count

theorem begins_zero (table : Table) (fetch : Nat → Option UInt8) : table.Begins fetch 0 :=
  ⟨0, rfl⟩

theorem begins_next {table : Table} {fetch : Nat → Option UInt8} {index : Nat} {opcode : UInt8}
    (begins : table.Begins fetch index) (fetched : fetch index = some opcode) :
    table.Begins fetch (index + table.span opcode) := by
  obtain ⟨count, rfl⟩ := begins
  refine ⟨count + 1, ?_⟩
  simp only [boundary, fetched, Option.elim_some]

theorem not_begins_inside {table : Table} {fetch : Nat → Option UInt8} {index argument : Nat}
    {opcode : UInt8} (begins : table.Begins fetch index) (fetched : fetch index = some opcode)
    (after : index < argument) (before : argument < index + table.span opcode) :
    ¬ table.Begins fetch argument := by
  obtain ⟨first, rfl⟩ := begins
  rintro ⟨second, rfl⟩
  have apart := boundary_no_overlap fetched after
  omega

/-- An instruction of the script begins at the position. -/
def AtBoundary (table : Table) (view : View) (memory : Region) (position : UInt16) : Prop :=
  ∃ count, position.toNat =
    table.boundary (fun index => view.byte? memory index.toUInt16) count

def InsideInstruction (table : Table) (view : View) (memory : Region) (argument : UInt16) :
    Prop :=
  ∃ position opcode, table.AtBoundary view memory position ∧
    view.byte? memory position = some opcode ∧ position.toNat < argument.toNat ∧
    argument.toNat < position.toNat + table.span opcode

variable {table : Table} {view : View} {memory : Region}

theorem at_boundary_start : table.AtBoundary view memory Cursor.start.position :=
  begins_zero table _

private theorem fetch_at_boundary {position : UInt16} {opcode : UInt8}
    (fetched : view.byte? memory position = some opcode) :
    view.byte? memory position.toNat.toUInt16 = some opcode := by
  have whole : position.toNat.toUInt16 = position := UInt16.ofNat_toNat
  rw [whole]
  exact fetched

theorem at_boundary_next {position next : UInt16} {opcode : UInt8}
    (begins : table.AtBoundary view memory position)
    (fetched : view.byte? memory position = some opcode)
    (moved : next.toNat = position.toNat + table.span opcode) :
    table.AtBoundary view memory next := by
  have following := begins_next begins (fetch_at_boundary fetched)
  rw [← moved] at following
  exact following

theorem not_at_boundary_of_inside {argument : UInt16}
    (inside : table.InsideInstruction view memory argument) :
    ¬ table.AtBoundary view memory argument := by
  obtain ⟨position, opcode, begins, fetched, after, before⟩ := inside
  exact not_begins_inside begins (fetch_at_boundary fetched) after before

end Table

def View.Readable (view : View) (memory : Region) : Prop :=
  ∀ position : UInt16, position.toNat < view.length → ∃ byte, view.byte? memory position = some byte

theorem View.readable_of_inside {view : View} {memory : Region}
    (after : memory.base ≤ view.start)
    (ends : view.start.toNat + view.length ≤ memory.finish)
    (inSpace : memory.finish ≤ UInt32.size) : view.Readable memory := by
  intro position inside
  exact View.byte_present after ends (Nat.le_trans ends inSpace) inside

/-- A machine that has doubled arguments of one script and nothing else, none of them
with an overflow. -/
structure Machine.Doubled (table : Table) (view : View) (original : Region) (machine : Machine) :
    Prop where
  accounted : Accounted original machine
  enabled : machine.patcher.enabled = true
  arguments : ∀ addr, machine.patcher.isPatched addr = true →
    ∃ argument : UInt16, addr = view.start + argument.toUInt32 ∧
      table.InsideInstruction view original argument
  small : ∀ addr byte, machine.patcher.isPatched addr = true →
    original.byte? addr = some byte → byte.toNat < 128

namespace Machine.Doubled

variable {table : Table} {view : View} {original : Region} {machine : Machine}

theorem initial (table : Table) (view : View) (memory : Region) :
    Machine.Doubled table view memory ⟨memory, .active⟩ := by
  have none_patched (addr : UInt32) : Patcher.active.isPatched addr = false :=
    Std.ExtTreeSet.contains_empty
  exact {
    accounted := Accounted.initial memory rfl
    enabled := rfl
    arguments := by simp [none_patched]
    small := by simp [none_patched] }

/-- No opcode is ever doubled. -/
theorem byte_at_boundary (doubled : machine.Doubled table view original) {position : UInt16}
    (begins : table.AtBoundary view original position) :
    view.byte? machine.memory position = view.byte? original position := by
  have fresh : machine.patcher.isPatched (view.start + position.toUInt32) = false := by
    refine Bool.eq_false_iff.mpr fun known => ?_
    obtain ⟨argument, same, inside⟩ := doubled.arguments _ known
    rw [← view.addr_injective same] at inside
    exact Table.not_at_boundary_of_inside inside begins
  simp only [View.byte?, View.addrOf?]
  split
  · exact doubled.accounted.byte_of_unpatched fresh
  · rfl

theorem byte_of_argument (doubled : machine.Doubled table view original) {argument : UInt16}
    {byte : UInt8} (known : machine.patcher.isPatched (view.start + argument.toUInt32) = true)
    (found : view.byte? original argument = some byte) :
    ∃ twice, view.byte? machine.memory argument = some twice ∧
      twice.toNat = 2 * byte.toNat := by
  obtain ⟨addr, named, present⟩ := Option.bind_eq_some_iff.mp found
  obtain ⟨inside, place⟩ := View.addr_of_eq_some_iff.mp named
  subst place
  have low := doubled.small _ byte known present
  refine ⟨byte * 2, ?_, ?_⟩
  · refine Option.bind_eq_some_iff.mpr ⟨_, named, ?_⟩
    rw [doubled.accounted.byte_of_patched known, present]
    rfl
  · rw [UInt8.toNat_mul]
    simp only [UInt8.reduceToNat]
    omega

theorem readable (doubled : machine.Doubled table view original)
    (readable : view.Readable original) : view.Readable machine.memory := by
  intro position inside
  obtain ⟨byte, found⟩ := readable position inside
  obtain ⟨addr, named, present⟩ := Option.bind_eq_some_iff.mp found
  cases known : machine.patcher.isPatched addr with
  | false =>
      refine ⟨byte, Option.bind_eq_some_iff.mpr ⟨addr, named, ?_⟩⟩
      rw [doubled.accounted.byte_of_unpatched known, present]
  | true =>
      refine ⟨byte * 2, Option.bind_eq_some_iff.mpr ⟨addr, named, ?_⟩⟩
      rw [doubled.accounted.byte_of_patched known, present]
      rfl

/-- Doubling one more argument either raises an overflow or goes on in the same way. -/
theorem patch_at (doubled : machine.Doubled table view original) {argument? : Option UInt16}
    (inside : ∀ argument, argument? = some argument →
      table.InsideInstruction view original argument)
    (calm : machine.overflowAt? view argument? = none) :
    (machine.patchAt view argument?).Doubled table view original := by
  cases argument? with
  | none => exact doubled
  | some argument =>
      simp only [Machine.overflowAt?, Machine.patchAt] at calm ⊢
      rcases machine.patch_cases (view.start + argument.toUInt32) with
        ⟨-, went⟩ | ⟨-, -, went⟩ | ⟨-, -, -, went⟩ | ⟨-, fresh, before, present, went⟩ <;>
        rw [went] at calm ⊢
      · exact doubled
      · exact doubled
      · exact doubled
      · have low : before.toNat < 128 := by
          refine Nat.lt_of_not_le fun large => ?_
          rw [Patcher.outcome_of_large large] at calm
          contradiction
        have recorded (addr : UInt32) := machine.double_is_patched
          (view.start + argument.toUInt32) addr before
        exact {
          accounted := doubled.accounted.double fresh present
          enabled := doubled.enabled
          arguments := by
            intro addr known
            rcases (recorded addr).mp known with rfl | earlier
            · exact ⟨argument, rfl, inside argument rfl⟩
            · exact doubled.arguments addr earlier
          small := by
            intro addr byte known found
            rcases (recorded addr).mp known with rfl | earlier
            · rw [← doubled.accounted.byte_of_unpatched fresh, present] at found
              cases found
              exact low
            · exact doubled.small addr byte earlier found }

end Machine.Doubled

end CameraScript
