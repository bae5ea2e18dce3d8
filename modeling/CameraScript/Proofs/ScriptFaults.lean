import CameraScript.Proofs.HaltReasons
import CameraScript.Proofs.RelocatedScripts

/-!
# Faults are about the script alone

Where an image ends inside the address space every position of a script leads to one of its
bytes, and no doubling takes the bytes away. A walk is then refused a byte only behind the end
of its script, never by the image, and whether it is refused one has nothing to do with the
record of doubled arguments. An image that goes on behind the address space has scripts with
positions that lead to no byte.
-/

namespace CameraScript

namespace Region

variable {region : Region} {view : View}

theorem Offers.readable (offered : region.Offers view) (inSpace : region.finish ≤ UInt32.size) :
    view.Readable region := by
  obtain ⟨after, ends⟩ := offered.inside
  exact View.readable_of_inside after ends inSpace

/-- The end of the address space is the exact bound, for any image that does not hold the first
address as well: behind it the script that begins with the last address has a position that
leads to no byte. -/
theorem offers_readable_iff (high : region.base ≠ 0) :
    (∀ view, region.Offers view → view.Readable region) ↔ region.finish ≤ UInt32.size := by
  constructor
  · intro readable
    apply Nat.le_of_not_lt
    intro beyond
    have size : UInt32.size = 0xFFFFFFFF + 1 := rfl
    have last : (0xFFFFFFFF : UInt32).toNat = 0xFFFFFFFF := rfl
    let view : View := ⟨0xFFFFFFFF, region.finish - 0xFFFFFFFF⟩
    have covered : region.Covers 0xFFFFFFFF 1 := by
      have bound := region.base.toNat_lt
      constructor
      · apply UInt32.le_iff_toNat_le.mpr
        omega
      · omega
    have opened : region.view 0xFFFFFFFF = .ok view := by
      rw [View.region_view_eq, if_pos covered, last]
    have inside : (1 : UInt16).toNat < view.length := by
      change 1 < region.finish - 0xFFFFFFFF
      omega
    obtain ⟨byte, found⟩ := readable view (.opened opened) 1 inside
    have wrapped : view.start + (1 : UInt16).toUInt32 = 0 := by
      change (0xFFFFFFFF : UInt32) + (1 : UInt16).toUInt32 = 0
      decide
    rw [View.byte_of_inside inside, wrapped] at found
    have reached := (Region.byte_eq_some_iff.mp found).1
    have value := UInt32.le_iff_toNat_le.mp reached
    exact high (UInt32.toNat_inj.mp (Nat.le_zero.mp value))
  · intro inSpace view offered
    exact offered.readable inSpace

theorem access_of_byte {addr : UInt32} {byte : UInt8} (present : region.byte? addr = some byte) :
    region.readByte addr = .ok byte ∧
      ∀ value, ∃ written, region.writeByte addr value = .ok written := by
  constructor
  · exact read_byte_eq_ok_iff.mpr present
  · intro value
    cases wrote : region.writeByte addr value with
    | ok written => exact ⟨written, rfl⟩
    | error fault =>
        have outside := ((write_byte_eq_error_iff region addr value fault).mp wrote).1
        rw [(byte_eq_none_iff region addr).mpr outside] at present
        contradiction

end Region

namespace View.Readable

variable {view : View} {machine : Machine}

theorem byte_at {memory : Region} (readable : view.Readable memory) {position : UInt16}
    {addr : UInt32} (named : view.addrOf? position = some addr) :
    ∃ byte, memory.byte? addr = some byte := by
  obtain ⟨inside, rfl⟩ := View.addr_of_eq_some_iff.mp named
  rw [← View.byte_of_inside inside]
  exact readable position inside

theorem outside_of_absent {memory : Region} (readable : view.Readable memory)
    {position : UInt16} (absent : view.byte? memory position = none) :
    view.length ≤ position.toNat := by
  apply Nat.le_of_not_lt
  intro inside
  obtain ⟨byte, found⟩ := readable position inside
  rw [absent] at found
  contradiction

theorem patch (readable : view.Readable machine.memory) (addr : UInt32) :
    view.Readable (machine.patch addr).2.memory := by
  intro position inside
  obtain ⟨byte, found⟩ := readable position inside
  rw [View.byte_of_inside inside] at found ⊢
  by_cases own : view.start + position.toUInt32 = addr
  · rw [own] at found
    rw [own, Machine.byte_patch_self, found]
    split
    · exact ⟨byte * 2, rfl⟩
    · exact ⟨byte, rfl⟩
  · rw [Machine.byte_patch_of_ne machine own]
    exact ⟨byte, found⟩

theorem kept (machine : Machine) (addr : UInt32) (_ : view.Names addr)
    (readable : view.Readable machine.memory) : view.Readable (machine.patch addr).2.memory :=
  readable.patch addr

theorem outside_of_caused (readable : view.Readable machine.memory) {argument : UInt16}
    {reason : FaultReason} (caused : reason.Caused view machine argument) :
    reason = .outsideScript argument ∧ view.length ≤ argument.toNat := by
  cases reason with
  | outsideScript position =>
      obtain ⟨rfl, outside⟩ := caused
      exact ⟨rfl, outside⟩
  | outsideImage fault =>
      obtain ⟨inside, refused⟩ := caused
      obtain ⟨byte, found⟩ := readable argument inside
      rw [View.byte_of_inside inside] at found
      obtain ⟨outcome, accepted⟩ := Machine.patch_ok_of_byte found
      rw [accepted] at refused
      contradiction

end View.Readable

namespace Simulator

variable {simulator : Simulator} {view : View}

def FaultsAt (simulator : Simulator) (view : View) (walk : Walk) : Prop :=
  ∃ failed, simulator.step view walk = .halted .fault failed

/-- The opcode at a position has an argument to be doubled behind the end of the script. -/
def Overreaches (simulator : Simulator) (view : View) (memory : Region) (position : UInt16) :
    Prop :=
  ∃ opcode argument, view.byte? memory position = some opcode ∧
    simulator.table.doubledAt? opcode position = some argument ∧
    view.length ≤ argument.toNat

/-- Where every position has a byte a step faults exactly if its opcode overreaches. -/
theorem faults_at_iff {walk : Walk} (readable : view.Readable walk.machine.memory) :
    simulator.FaultsAt view walk ↔
      simulator.Overreaches view walk.machine.memory walk.cursor.position := by
  constructor
  · rintro ⟨failed, halted⟩
    rcases step_halted halted with
      ⟨reason, -⟩ | ⟨-, faulted⟩ | ⟨opcode, ready, -, -, -, stopped | ⟨-, -, reason, -⟩⟩
    · contradiction
    · obtain ⟨opcode, argument, reason, fetched, doubled, caused, -⟩ := faulted.raised
      exact ⟨opcode, argument, fetched, doubled, (readable.outside_of_caused caused).2⟩
    · obtain ⟨raised?, turned, -⟩ := stopped
      rcases Table.turn_stop turned with
        ⟨reason, -⟩ | ⟨reason, -⟩ | ⟨reason, -⟩ | ⟨descriptor, reason, -⟩ <;> contradiction
    · contradiction
  · rintro ⟨opcode, argument, fetched, doubled, outside⟩
    obtain ⟨failed, halted, -⟩ := simulator.step_of_outside walk fetched doubled outside
    exact ⟨failed, halted⟩

theorem run_refusals (simulator : Simulator) {view : View} (cursor : Cursor) {machine : Machine}
    (readable : view.Readable machine.memory) :
    let simulation := (simulator.run view cursor machine).simulation
    (∀ position length, .overrun position length ∈ simulation.diagnostics →
        length = view.length ∧ view.length ≤ position.toNat) ∧
      ∀ addr reason, .patchFault addr reason ∈ simulation.diagnostics →
        ∃ position, reason = .outsideScript position ∧
          addr = view.start + position.toUInt32 ∧ view.length ≤ position.toNat := by
  intro simulation
  have left : view.Readable (simulator.run view cursor machine).machine.memory :=
    simulator.run_preserves_within view View.Readable.kept cursor readable
  obtain ⟨-, -, -, overflows, closing?, diagnostics, large, closes⟩ :=
    simulator.run_halts_as_reported view cursor machine
  have closing {diagnostic : Diagnostic} (member : diagnostic ∈ simulation.diagnostics)
      (other : ¬ diagnostic.TooLarge) : closing? = some diagnostic := by
    simp only [simulation, diagnostics] at member
    rcases List.mem_append.mp member with overflow | last
    · exact absurd (large diagnostic overflow) other
    · exact Option.mem_toList.mp last
  constructor
  · intro position length member
    rw [closing member id] at closes
    generalize simulation.halt = halt at closes
    cases closes with
    | overrun absent => exact ⟨rfl, left.outside_of_absent absent⟩
  · intro addr reason member
    rw [closing member id] at closes
    generalize simulation.halt = halt at closes
    cases closes with
    | @fault opcode argument reason held doubled caused =>
        obtain ⟨same, outside⟩ := left.outside_of_caused caused
        exact ⟨argument, same, rfl, outside⟩

/-- In an image inside the address space each position of a script leads to a byte that can be
read and written. A run reports an overrun only behind the end of the script, and a fault only
for an argument behind it. Each of its steps faults exactly if the opcode has such an argument,
which does not depend on the patcher. -/
theorem refusals_outside_script (simulator : Simulator) (view : View) (cursor : Cursor)
    (machine : Machine) (offered : machine.memory.Offers view)
    (inSpace : machine.memory.finish ≤ UInt32.size) :
    let simulation := (simulator.run view cursor machine).simulation
    (∀ position addr, view.addrOf? position = some addr →
        (∃ byte, machine.memory.readByte addr = .ok byte) ∧
          ∀ value, ∃ written, machine.memory.writeByte addr value = .ok written) ∧
      (∀ position length, .overrun position length ∈ simulation.diagnostics →
        length = view.length ∧ view.length ≤ position.toNat) ∧
      (∀ addr reason, .patchFault addr reason ∈ simulation.diagnostics →
        ∃ position, reason = .outsideScript position ∧
          addr = view.start + position.toUInt32 ∧ view.length ≤ position.toNat) ∧
      ∀ steps walk, simulator.Reaches view steps (simulator.beginning cursor machine) walk →
        (simulator.FaultsAt view walk ↔
          simulator.Overreaches view walk.machine.memory walk.cursor.position) ∧
        ∀ patcher,
          simulator.FaultsAt view { walk with machine := ⟨walk.machine.memory, patcher⟩ } ↔
            simulator.FaultsAt view walk := by
  intro simulation
  have readable : view.Readable machine.memory := offered.readable inSpace
  obtain ⟨overruns, faults⟩ := simulator.run_refusals cursor readable
  refine ⟨?_, overruns, faults, ?_⟩
  · intro position addr named
    obtain ⟨byte, present⟩ := readable.byte_at named
    obtain ⟨read, written⟩ := Region.access_of_byte present
    exact ⟨⟨byte, read⟩, written⟩
  · intro steps walk reaches
    have here : view.Readable walk.machine.memory :=
      reaches.preserves View.Readable.kept readable
    constructor
    · exact faults_at_iff here
    · intro patcher
      let other : Walk := { walk with machine := ⟨walk.machine.memory, patcher⟩ }
      have there : view.Readable other.machine.memory := here
      rw [faults_at_iff here]
      exact faults_at_iff there

/-- A script that is the last byte of the address space and lacks its argument. The position of
the argument comes round to the first address, which the report names. -/
theorem refusals_outside_script_at_last_address :
    let machine : Machine := ⟨⟨0xFFFFFFFF, ⟨#[0xF5]⟩⟩, .active⟩
    let simulation := ((withLimit Dialect.routine5C3FD5.table .off 8).run ⟨0xFFFFFFFF, 1⟩ .start
      machine).simulation
    machine.memory.finish = UInt32.size ∧
      (∃ byte, machine.memory.readByte 0xFFFFFFFF = .ok byte) ∧
      simulation.diagnostics = [.patchFault 0 (.outsideScript 1)] ∧
      ∃ position : UInt16, FaultReason.outsideScript 1 = .outsideScript position ∧
        0 = 0xFFFFFFFF + position.toUInt32 ∧ 1 ≤ position.toNat := by
  intro machine simulation
  have opened : machine.memory.view 0xFFFFFFFF = .ok ⟨0xFFFFFFFF, 1⟩ := rfl
  have whole : machine.memory.finish = UInt32.size := by decide
  have faulted : simulation.diagnostics = [.patchFault 0 (.outsideScript 1)] := by
    decide +kernel
  obtain ⟨accesses, -, faults, -⟩ :=
    refusals_outside_script (withLimit Dialect.routine5C3FD5.table .off 8) ⟨0xFFFFFFFF, 1⟩
      .start machine (.opened opened) (Nat.le_of_eq whole)
  have named : View.addrOf? ⟨0xFFFFFFFF, 1⟩ 0 = some 0xFFFFFFFF := by decide
  refine ⟨whole, (accesses 0 0xFFFFFFFF named).1, faulted, ?_⟩
  apply faults
  change _ ∈ simulation.diagnostics
  rw [faulted]
  exact List.mem_singleton.mpr rfl

/-- With one byte more the image goes on behind the address space. The argument then lies in the
script and has no address, and the patcher decides what is reported. -/
example :
    let memory : Region := ⟨0xFFFFFFFF, ⟨#[0xF5, 1]⟩⟩
    let run := (withLimit Dialect.routine5C3FD5.table .off 8).run ⟨0xFFFFFFFF, 2⟩ .start
    (run ⟨memory, .active⟩).simulation.diagnostics =
        [.patchFault 0 (.outsideImage ⟨0, 0xFFFFFFFF, 0x100000001⟩)] ∧
      (run ⟨memory, .inactive⟩).simulation.diagnostics = [.overrun 1 2] := by
  decide +kernel

end Simulator

end CameraScript
