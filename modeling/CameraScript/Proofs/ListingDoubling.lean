import Mathlib.Data.List.Forall2
import CameraScript.Proofs.ListingAlignment
import CameraScript.Proofs.PatchAccounting

/-!
# Listing a dump again after its script was played

A playback doubles nothing but arguments that the listing marks. What it leaves behind
is therefore cut into the same instructions as before, and each of them has the operands
that it had, apart from the one that was doubled. As with the walks themselves, the dump
must not have more bytes than there are addresses.
-/

namespace CameraScript

namespace Dialect

theorem doubled_at_eq (dialect : Dialect) (opcode : UInt8) (position : UInt16) (place : Nat)
    (rest : List UInt8) :
    dialect.table.doubledAt? opcode position =
      (Instruction.decode dialect.table place opcode rest).doubled.map fun index =>
        position + 1 + index.toUInt16 := by
  unfold Table.doubledAt?
  cases control : Control.ofOpcode? opcode with
  | some kind =>
      have same := Control.of_opcode_eq_some_iff.mp control
      cases kind with
      | wait =>
          rw [same, Control.opcode, Instruction.decode_operation (by decide) dialect.get_wait]
          rfl
      | setWait =>
          rw [same, Control.opcode, Instruction.decode_operation (by decide) dialect.get_set_wait]
          exact congrArg some (UInt16.add_zero (position + 1)).symm
      | restart =>
          rw [same, Control.opcode, Instruction.decode_restart]
          rfl
  | none =>
      have other (kind : Control) : opcode ≠ kind.opcode := by
        intro same
        rw [Control.of_opcode_eq_some_iff.mpr same] at control
        contradiction
      cases known : dialect.table.get? opcode with
      | none =>
          rw [Instruction.decode_data (other .restart) known]
          rfl
      | some descriptor =>
          have unwaiting : opcode ≠ Opcode.setWait := other .setWait
          rw [Instruction.decode_operation (other .restart) known]
          simp only [Instruction.doubled, if_neg unwaiting, Option.bind_some]

theorem doubled_lt_argument_count {dialect : Dialect} {place : Nat} {opcode index : UInt8}
    {rest : List UInt8}
    (marked : (Instruction.decode dialect.table place opcode rest).doubled = some index) :
    ∃ descriptor, dialect.table.get? opcode = some descriptor ∧ opcode ≠ Opcode.restart ∧
      index.toNat < descriptor.argumentCount := by
  by_cases restart : opcode = Opcode.restart
  · rw [restart, Instruction.decode_restart] at marked
    contradiction
  · cases known : dialect.table.get? opcode with
    | none =>
        rw [Instruction.decode_data restart known] at marked
        contradiction
    | some descriptor =>
        refine ⟨descriptor, rfl, restart, ?_⟩
        rw [Instruction.decode_operation restart known] at marked
        simp only [Instruction.doubled] at marked
        by_cases waits : opcode = Opcode.setWait
        · rw [if_pos waits] at marked
          rw [waits, dialect.get_set_wait] at known
          cases marked
          cases known
          decide
        · rw [if_neg waits] at marked
          have regular := (regular_of_get known).2
          simp only [marked, Option.all_some, decide_eq_true_eq] at regular
          exact regular

theorem doubled_inside {dialect : Dialect} {place : Nat} {opcode index : UInt8}
    {rest : List UInt8}
    (marked : (Instruction.decode dialect.table place opcode rest).doubled = some index)
    (present : index.toNat < rest.length) :
    index.toNat < (Instruction.decode dialect.table place opcode rest).arguments.length := by
  obtain ⟨descriptor, known, restart, within⟩ := doubled_lt_argument_count marked
  rw [Instruction.decode_operation restart known, List.length_take]
  omega

theorem marked_of_doubled_at {dialect : Dialect} {opcode : UInt8} {position argument : UInt16}
    (room : position.toNat < 65523)
    (doubled : dialect.table.doubledAt? opcode position = some argument) (place : Nat)
    (rest : List UInt8) :
    ∃ index, (Instruction.decode dialect.table place opcode rest).doubled = some index ∧
      argument.toNat = position.toNat + 1 + index.toNat := by
  rw [dialect.doubled_at_eq opcode position place rest] at doubled
  obtain ⟨index, marked, rfl⟩ := Option.map_eq_some_iff.mp doubled
  obtain ⟨descriptor, known, -, within⟩ := doubled_lt_argument_count marked
  have few : descriptor.argLength.toInt ≤ 12 := (regular_of_get known).1
  simp only [Descriptor.argumentCount] at within
  refine ⟨index, marked, ?_⟩
  rw [UInt16.toNat_add, Table.to_nat_add_one (by omega), UInt8.toNat_toUInt16,
    Nat.mod_eq_of_lt (by omega)]

end Dialect

/-- The place of an argument that is there and that its instruction marks. -/
def Instruction.Marks (instruction : Instruction) (place : Nat) : Prop :=
  ∃ index, instruction.doubled = some index ∧ index.toNat < instruction.arguments.length ∧
    place = instruction.address.toNat + 1 + index.toNat

/-- The same instruction, with the argument doubled that it marks if the place of that
argument was touched. -/
structure Instruction.Redoubled (touched : Nat → Prop) (before after : Instruction) : Prop where
  address : after.address = before.address
  opcode : after.opcode = before.opcode
  shape : after.shape = before.shape
  count : after.arguments.length = before.arguments.length
  kept : ∀ index, (∀ argument, before.doubled = some argument → argument.toNat = index →
      ¬ touched (before.address.toNat + 1 + index)) →
    after.arguments[index]? = before.arguments[index]?
  redoubled : ∀ argument, before.doubled = some argument →
    touched (before.address.toNat + 1 + argument.toNat) →
      ∃ old, before.arguments[argument.toNat]? = some old ∧
        after.arguments[argument.toNat]? = some (old * 2)

theorem Instruction.Redoubled.refl {touched : Nat → Prop} {instruction : Instruction}
    (unmarked : instruction.doubled = none) : instruction.Redoubled touched instruction where
  address := rfl
  opcode := rfl
  shape := rfl
  count := rfl
  kept _ _ := rfl
  redoubled argument marked := by
    rw [unmarked] at marked
    contradiction

namespace Listing

/-- A dump after the bytes at some places were doubled. -/
structure Touched (touched : Nat → Prop) (before after : List UInt8) : Prop where
  length : after.length = before.length
  kept : ∀ place, ¬ touched place → after[place]? = before[place]?
  doubled : ∀ place, touched place → after[place]? = (before[place]?).map (· * 2)

variable {table : Table} {dialect : Dialect} {dump before after : List UInt8}
  {touched : Nat → Prop}

theorem lt_of_marks (fits : dump.length ≤ UInt32.size) {start place : Nat}
    {instruction : Instruction} (member : instruction ∈ instructionsAt table dump start)
    (marks : instruction.Marks place) : start < place ∧ place < dump.length := by
  obtain ⟨onward, -⟩ := addressed_of_mem fits member
  obtain ⟨index, -, inside, rfl⟩ := marks
  have held := argument_of_mem fits member inside
  rw [List.getElem?_eq_getElem inside] at held
  have bound := (List.getElem?_eq_some_iff.mp held.symm).1
  omega

/-- Of what lies behind a place, only marked arguments were touched. -/
def OnlyMarked (table : Table) (dump : List UInt8) (touched : Nat → Prop) (start : Nat) : Prop :=
  ∀ place, start ≤ place → touched place →
    ∃ instruction ∈ instructionsAt table dump start, instruction.Marks place

namespace OnlyMarked

variable {start place : Nat} {opcode : UInt8}

theorem inside (fits : dump.length ≤ UInt32.size) (marked : OnlyMarked table dump touched start)
    (behind : start ≤ place) (reached : touched place) : start < place ∧ place < dump.length := by
  obtain ⟨instruction, member, marks⟩ := marked place behind reached
  exact lt_of_marks fits member marks

theorem first (fits : dump.length ≤ UInt32.size) (marked : OnlyMarked table dump touched start)
    (fetched : dump[start]? = some opcode) (behind : start ≤ place)
    (near : place ≤ start + (decodeAt table dump start opcode).encode.length)
    (reached : touched place) : (decodeAt table dump start opcode).Marks place := by
  obtain ⟨instruction, member, marks⟩ := marked place behind reached
  rw [instructions_at_cons _ fetched] at member
  rcases List.mem_cons.mp member with rfl | later
  · exact marks
  · have beyond := (lt_of_marks fits later marks).1
    omega

theorem next (fits : dump.length ≤ UInt32.size) (marked : OnlyMarked table dump touched start)
    (fetched : dump[start]? = some opcode) :
    OnlyMarked table dump touched
      (start + (decodeAt table dump start opcode).encode.length) := by
  intro place behind reached
  obtain ⟨instruction, member, marks⟩ := marked place (by omega) reached
  rw [instructions_at_cons _ fetched] at member
  rcases List.mem_cons.mp member with rfl | later
  · obtain ⟨index, -, inside, same⟩ := marks
    rw [address_decode_at fits fetched] at same
    rw [Instruction.length_encode] at behind
    omega
  · exact ⟨instruction, later, marks⟩

end OnlyMarked

variable {place : Nat} {opcode : UInt8}

theorem argument_of_operation {descriptor : Descriptor} (other : opcode ≠ Opcode.restart)
    (known : table.get? opcode = some descriptor) (dump : List UInt8) (place : Nat) {index : Nat}
    (within : index < descriptor.argumentCount) :
    (decodeAt table dump place opcode).arguments[index]? = dump[place + 1 + index]? := by
  rw [decodeAt, Instruction.decode_operation other known, List.getElem?_take_of_lt within,
    List.getElem?_drop]

/-- The marker of a restart is never doubled, nor is a byte that could become one. -/
theorem restart_redoubled (fits : before.length ≤ UInt32.size)
    (doubling : Touched touched before after)
    (fetched : before[place]? = some Opcode.restart)
    (marked : OnlyMarked dialect.table before touched place) :
    (decodeAt dialect.table before place Opcode.restart).Redoubled touched
      (decodeAt dialect.table after place Opcode.restart) := by
  have decoded (dump : List UInt8) : decodeAt dialect.table dump place Opcode.restart = _ :=
    Instruction.decode_restart ..
  have unmarked : (decodeAt dialect.table before place Opcode.restart).doubled = none := by
    rw [decoded]
    rfl
  have next : ¬ touched (place + 1) := by
    intro reached
    have near : place + 1 ≤ place +
        (decodeAt dialect.table before place Opcode.restart).encode.length := by
      rw [Instruction.length_encode]
      omega
    obtain ⟨index, marks, -⟩ := marked.first fits fetched (by omega) near reached
    rw [unmarked] at marks
    contradiction
  have same : decodeAt dialect.table after place Opcode.restart =
      decodeAt dialect.table before place Opcode.restart := by
    rw [decoded, decoded, List.head?_drop, List.head?_drop, doubling.kept _ next]
  rw [same]
  exact .refl unmarked

theorem operation_redoubled (fits : before.length ≤ UInt32.size)
    (doubling : Touched touched before after) (fetched : before[place]? = some opcode)
    (marked : OnlyMarked dialect.table before touched place) {descriptor : Descriptor}
    (other : opcode ≠ Opcode.restart) (known : dialect.table.get? opcode = some descriptor) :
    (decodeAt dialect.table before place opcode).Redoubled touched
      (decodeAt dialect.table after place opcode) := by
  have decoded (dump : List UInt8) : decodeAt dialect.table dump place opcode = _ :=
    Instruction.decode_operation other known ..
  have argument {index : Nat} (within : index < descriptor.argumentCount) (dump : List UInt8) :=
    argument_of_operation other known dump place within
  have address : (decodeAt dialect.table before place opcode).address.toNat = place :=
    address_decode_at fits fetched
  constructor
  · rw [decoded, decoded]
  · rw [decoded, decoded]
  · rw [decoded, decoded]
  · simp only [decoded, List.length_take, List.length_drop, doubling.length]
  · intro index unmarked
    rw [address] at unmarked
    by_cases within : index < descriptor.argumentCount
    · rw [argument within, argument within]
      refine doubling.kept _ fun reached => ?_
      -- A touched place of this instruction is inside the dump, so its own argument is there.
      have bound := (marked.inside fits (by omega) reached).2
      have near : place + 1 + index ≤
          place + (decodeAt dialect.table before place opcode).encode.length := by
        simp only [Instruction.length_encode, decoded, List.length_take, List.length_drop]
        omega
      obtain ⟨found, doubled, -, spot⟩ := marked.first fits fetched (by omega) near reached
      rw [address] at spot
      exact unmarked found doubled (by omega) reached
    · rw [decoded, decoded, List.getElem?_eq_none, List.getElem?_eq_none]
      all_goals
        rw [List.length_take]
        omega
  · intro found doubled reached
    rw [address] at reached
    obtain ⟨_, again, -, within⟩ := Dialect.doubled_lt_argument_count doubled
    cases Option.some.inj (known.symm.trans again)
    have bound := (marked.inside fits (by omega) reached).2
    refine ⟨_, (argument within before).trans (List.getElem?_eq_getElem bound), ?_⟩
    rw [argument within, doubling.doubled _ reached, List.getElem?_eq_getElem bound]
    rfl

theorem decode_redoubled (fits : before.length ≤ UInt32.size)
    (doubling : Touched touched before after) (fetched : before[place]? = some opcode)
    (marked : OnlyMarked dialect.table before touched place) :
    (decodeAt dialect.table before place opcode).Redoubled touched
      (decodeAt dialect.table after place opcode) := by
  by_cases restart : opcode = Opcode.restart
  · subst restart
    exact restart_redoubled fits doubling fetched marked
  · cases known : dialect.table.get? opcode with
    | none =>
        rw [decodeAt, decodeAt, Instruction.decode_data restart known,
          Instruction.decode_data restart known]
        exact .refl rfl
    | some descriptor => exact operation_redoubled fits doubling fetched marked restart known

/-- A dump in which only marked arguments were doubled is listed as before, with those
arguments doubled. -/
theorem instructions_redoubled (fits : before.length ≤ UInt32.size)
    (doubling : Touched touched before after) (place : Nat)
    (marked : OnlyMarked dialect.table before touched place) :
    List.Forall₂ (Instruction.Redoubled touched) (instructionsAt dialect.table before place)
      (instructionsAt dialect.table after place) := by
  induction place using instruction_induction dialect.table before with
  | ended place ended =>
      rw [instructions_at_end ended, instructions_at_end (by rw [doubling.length]; exact ended)]
      exact .nil
  | before place opcode fetched ih =>
      have first := decode_redoubled fits doubling fetched marked
      have untouched : ¬ touched place := fun reached =>
        Nat.lt_irrefl _ (marked.inside fits (Nat.le_refl _) reached).1
      have again : after[place]? = some opcode := (doubling.kept _ untouched).trans fetched
      have size : (decodeAt dialect.table after place opcode).encode.length =
          (decodeAt dialect.table before place opcode).encode.length := by
        rw [Instruction.length_encode, Instruction.length_encode, first.count]
      rw [instructions_at_cons _ fetched, instructions_at_cons _ again, size]
      exact .cons first (ih (marked.next fits fetched))

end Listing

theorem ScriptPlace.marked_of_doubles {place : ScriptPlace} {memory : Region} {view : View}
    {dialect : Dialect} (fits : memory.size ≤ UInt32.size) (opened : place.view memory = .ok view)
    (short : view.length ≤ 65523) {argument : UInt16}
    (doubles : dialect.table.DoublesAt view (place.fetch memory view) argument) :
    ∃ instruction ∈ Listing.instructionsAt dialect.table memory.bytes.toList place.offset.toNat,
      instruction.Marks (place.offset.toNat + argument.toNat) := by
  obtain ⟨-, -, ends⟩ := view_bounds opened
  obtain ⟨position, opcode, reached, begins, fetched, doubled, inside⟩ := doubles
  have room := dialect.fits short opcode
  have ahead := (Dialect.doubled_at_inside (by omega) doubled).1
  have size : memory.size = memory.bytes.toList.length := (Array.length_toList).symm
  have addressed : memory.bytes.toList.length ≤ UInt32.size := size ▸ fits
  rw [fetch_eq fits opened short] at fetched
  rcases begins_listed fits opened short begins with
    ⟨instruction, member, here⟩ | ⟨instruction, member, -, marker, here⟩ | beyond
  · obtain ⟨-, opens, decoded, -⟩ := Listing.addressed_of_mem addressed member
    rw [here] at opens decoded
    cases Option.some.inj (opens.symm.trans fetched)
    obtain ⟨index, marked, apart⟩ := Dialect.marked_of_doubled_at (by omega) doubled
      (place.offset.toNat + position.toNat)
      (memory.bytes.toList.drop (place.offset.toNat + position.toNat + 1))
    have within := Dialect.doubled_inside marked (by
      rw [List.length_drop]
      omega)
    change (Listing.decodeAt ..).doubled = _ at marked
    change _ < (Listing.decodeAt ..).arguments.length at within
    rw [← decoded] at marked within
    exact ⟨instruction, member, index, marked, within, by omega⟩
  · -- The marker of a restart is no opcode, so that nothing is doubled there.
    have present : 0 < instruction.arguments.length := by
      rw [marker]
      decide
    have held := Listing.argument_of_mem addressed member present
    rw [marker, Nat.add_zero, here, fetched] at held
    cases Option.some.inj held
    rw [dialect.doubled_at_eq _ position 0 [],
      Instruction.decode_data (by decide) dialect.get_restart_marker] at doubled
    contradiction
  · omega

def Machine.Touches (machine : Machine) (original : Region) (place : Nat) : Prop :=
  ∃ addr, machine.patcher.isPatched addr = true ∧ addr.toNat = original.base.toNat + place

theorem Accounted.touched {original : Region} {machine : Machine}
    (accounted : Accounted original machine) :
    Listing.Touched (machine.Touches original) original.bytes.toList
      machine.memory.bytes.toList where
  length := accounted.size
  kept place untouched := by
    rw [Array.getElem?_toList, Array.getElem?_toList]
    exact accounted.unpatched place fun addr known here => untouched ⟨addr, known, here⟩
  doubled place := by
    rintro ⟨addr, known, here⟩
    rw [Array.getElem?_toList, Array.getElem?_toList]
    exact accounted.patched place addr known here

theorem Machine.Aligned.recorded_marked {place : ScriptPlace} {memory : Region} {view : View}
    {dialect : Dialect} {machine : Machine} (fits : memory.size ≤ UInt32.size)
    (opened : place.view memory = .ok view) (short : view.length ≤ 65523)
    (accounted : Accounted memory machine)
    (aligned : machine.Aligned dialect.table view (place.fetch memory view) ⟨memory, .active⟩)
    (addr : UInt32) (known : machine.patcher.isPatched addr = true) :
    ∃ instruction ∈ Listing.instructionsAt dialect.table memory.bytes.toList place.offset.toNat,
      ∃ spot, instruction.Marks spot ∧ addr.toNat = memory.base.toNat + spot := by
  have fresh : ¬ Patcher.active.isPatched addr = true := by
    simp [Patcher.isPatched, Patcher.active]
  obtain ⟨argument, doubles, rfl⟩ := (aligned.recorded addr known).resolve_left fresh
  have inside : argument.toNat < view.length := by
    obtain ⟨-, -, -, -, -, -, inside⟩ := doubles
    exact inside
  have reached : memory.base ≤ view.start + argument.toUInt32 := by
    obtain ⟨value, read⟩ := accounted.readable _ known
    rw [← accounted.base]
    exact (Region.byte_eq_some_iff.mp (Region.read_byte_eq_ok_iff.mp read)).1
  obtain ⟨instruction, member, marks⟩ := ScriptPlace.marked_of_doubles fits opened short doubles
  exact ⟨instruction, member, _, marks, ScriptPlace.address_in_dump fits opened inside reached⟩

theorem Playback.play_aligned_to_last {dialect : Dialect} {view : View}
    {fetch : Nat → Option UInt8} {start : Machine} (simulator : Simulator)
    (standard : simulator.table = dialect.table) (short : view.length ≤ 65523)
    (aligned : start.Aligned dialect.table view fetch start)
    (frames : Nat) (unfaulted : ∀ index, index + 1 < frames →
      (frame simulator view start index).simulation.halt ≠ .fault) :
    (play simulator view frames start).machine.Aligned dialect.table view fetch start := by
  cases frames with
  | zero => exact aligned
  | succ last =>
      obtain ⟨-, went, -⟩ := play_next simulator view start last
      rw [went]
      exact (frame_aligned standard short aligned last
        fun index before => unfaulted index (by omega)).1

/-- How an instruction is listed after its marked argument may have been doubled. -/
structure Instruction.Relisted (patched : Nat → Prop) (before after : Instruction) : Prop where
  address : after.address = before.address
  opcode : after.opcode = before.opcode
  mnemonic : after.mnemonic = before.mnemonic
  doubled : after.doubled = before.doubled
  terminal : after.terminal = before.terminal
  count : after.operands.length = before.operands.length
  kept : ∀ index, (∀ argument, before.doubled = some argument → argument.toNat = index →
      ¬ patched (before.address.toNat + 1 + index)) →
    after.operands[index]? = before.operands[index]?
  redoubled : ∀ argument, before.doubled = some argument →
    patched (before.address.toNat + 1 + argument.toNat) →
      ∃ old : UInt8, before.operands[argument.toNat]? = some (toString old) ∧
        after.operands[argument.toNat]? = some (toString (2 * old.toNat % 256))

theorem Instruction.Redoubled.relisted {touched : Nat → Prop} {before after : Instruction}
    (redoubled : before.Redoubled touched after) : before.Relisted touched after where
  address := redoubled.address
  opcode := redoubled.opcode
  mnemonic := by simp only [mnemonic, redoubled.shape, redoubled.opcode]
  doubled := by simp only [doubled, redoubled.shape, redoubled.opcode]
  terminal := by simp only [terminal, redoubled.shape]
  count := by
    simp only [operands, redoubled.shape, redoubled.opcode]
    split
    · rfl
    all_goals simp only [List.length_map, redoubled.count]
  kept index unmarked := by
    simp only [operands, redoubled.shape, redoubled.opcode]
    split
    · rfl
    all_goals rw [List.getElem?_map, List.getElem?_map, redoubled.kept index unmarked]
  redoubled argument marked reached := by
    obtain ⟨old, present, afterwards⟩ := redoubled.redoubled argument marked reached
    simp only [operands, redoubled.shape]
    have twice : toString (old * 2) = toString (2 * old.toNat % 256) := by
      have value : (old * 2).toNat = 2 * old.toNat % 256 := by
        simp only [UInt8.toNat_mul, UInt8.reduceToNat]
        omega
      rw [← value]
      rfl
    split
    · rename_i data
      simp only [doubled, data] at marked
      contradiction
    all_goals
      exact ⟨old, by rw [List.getElem?_map, present, Option.map_some],
        by rw [List.getElem?_map, afterwards, Option.map_some, twice]⟩

/-- In a dump with an address for every byte, unless a frame before the last one gives up an
instruction halfway, the dump is listed after the playback as before it, apart from the marked
arguments that were doubled, and nothing else was doubled. -/
theorem simulate_frames_relisted (dialect : Dialect) (trace : TraceFlags) (limit frames : Nat)
    (place : ScriptPlace) (memory : Region) (view : View) (fits : memory.size ≤ UInt32.size)
    (opened : place.view memory = .ok view) (short : view.length ≤ 65523) :
    let simulator := Simulator.withLimit dialect.table trace limit
    let playback := Playback.play simulator view frames ⟨memory, .active⟩
    simulateFrames simulator place frames ⟨memory, .active⟩ = .ok playback ∧
      ((∀ (index : Nat) (run : Simulation), index + 1 < frames →
          playback.runs[index]? = some run → run.halt ≠ .fault) →
        ∃ before after,
          Listing.ofBytes dialect place.offset.toNat memory.bytes = .ok before ∧
          Listing.ofBytes dialect place.offset.toNat playback.machine.memory.bytes = .ok after ∧
          List.Forall₂ (Instruction.Relisted (playback.machine.Touches memory))
            before.instructions after.instructions ∧
          ∀ addr, playback.machine.patcher.isPatched addr = true →
            ∃ instruction ∈ before.instructions, ∃ argument, instruction.doubled = some argument ∧
              addr.toNat =
                memory.base.toNat + instruction.address.toNat + 1 + argument.toNat) := by
  intro simulator playback
  obtain ⟨start, offset, -⟩ := ScriptPlace.view_bounds opened
  refine ⟨simulate_frames_of_view opened frames, fun unfaulted => ?_⟩
  have accounted : Accounted memory playback.machine :=
    Playback.play_preserves (fun _ addr account => account.patch addr) simulator view frames
      (Accounted.initial memory rfl)
  have aligned := Playback.play_aligned_to_last simulator rfl short
    (Machine.Aligned.initial place dialect.table view ⟨memory, .active⟩) frames
    fun index before => unfaulted index _ before
      (Playback.runs_of_lt simulator view _ (by omega))
  have recorded := fun addr => aligned.recorded_marked fits opened short accounted addr
  have marked : Listing.OnlyMarked dialect.table memory.bytes.toList
      (playback.machine.Touches memory) place.offset.toNat := by
    rintro spot - ⟨addr, known, here⟩
    obtain ⟨instruction, member, other, marks, there⟩ := recorded addr known
    have same : spot = other := by omega
    rw [same]
    exact ⟨instruction, member, marks⟩
  have addressed : memory.bytes.toList.length ≤ UInt32.size := by
    rw [Array.length_toList]
    exact fits
  have relisted := (Listing.instructions_redoubled addressed accounted.touched
    place.offset.toNat marked).imp fun _ _ => Instruction.Redoubled.relisted
  refine ⟨_, _, if_pos (Nat.le_of_lt offset), if_pos ?_, relisted, ?_⟩
  · change place.offset.toNat ≤ playback.machine.memory.size
    rw [accounted.size]
    exact Nat.le_of_lt offset
  · intro addr known
    obtain ⟨instruction, member, spot, ⟨argument, doubled, -, rfl⟩, there⟩ := recorded addr known
    exact ⟨instruction, member, argument, doubled, by omega⟩

/-- The last frame of this script comes to an opcode whose argument the dump lacks. -/
theorem simulate_frames_relisted_at_fault :
    let memory : Region := ⟨0x1000, ⟨#[0, 0xF5, 1, 0xF4, 0xE2]⟩⟩
    let place : ScriptPlace := ⟨1, none⟩
    let simulator := Simulator.withLimit Dialect.routine5C3FD5.table ⟨false, false⟩ 64
    let playback := Playback.play simulator ⟨0x1001, 4⟩ 3 ⟨memory, .active⟩
    playback.machine.memory.bytes = #[0, 0xF5, 2, 0xF4, 0xE2] ∧
      playback.runs.map Simulation.halt = #[.yielded, .yielded, .fault] ∧
      ∃ before after,
        Listing.ofBytes .routine5C3FD5 place.offset.toNat memory.bytes = .ok before ∧
        Listing.ofBytes .routine5C3FD5 place.offset.toNat playback.machine.memory.bytes =
          .ok after ∧
        List.Forall₂ (Instruction.Relisted (playback.machine.Touches memory))
          before.instructions after.instructions := by
  intro memory place simulator playback
  have ends : playback.runs.map Simulation.halt = #[.yielded, .yielded, .fault] := by
    decide +kernel
  have relisted := (simulate_frames_relisted .routine5C3FD5 ⟨false, false⟩ 64 3 place memory
    ⟨0x1001, 4⟩ (by decide) (by cbv) (by decide)).2
  refine ⟨by decide +kernel, ends, ?_⟩
  obtain ⟨before, after, listed, again, alike, -⟩ := relisted fun index run earlier found => by
    have halt : (playback.runs.map Simulation.halt)[index]? = some run.halt := by
      rw [Array.getElem?_map, found, Option.map_some]
    rw [ends] at halt
    obtain rfl | rfl : index = 0 ∨ index = 1 := by omega
    all_goals
      rw [← Option.some.inj halt]
      decide
  simp only [playback, simulator]
  exact ⟨before, after, listed, again, alike⟩

/-- In a dump of more bytes than there are addresses a frame can double a byte in front of the
script, where the listing has no instruction that marks it. -/
theorem simulate_frames_doubles_unmarked_in_overlong_dump :
    let memory := overlongDump (UInt32.size - 6)
    let place : ScriptPlace := ⟨0xFFFFFFFD, none⟩
    ∃ view playback listing run,
      place.view memory = .ok view ∧ view.length ≤ 65523 ∧
      simulateFrames overlongDump.simulator place 1 ⟨memory, .active⟩ = .ok playback ∧
      playback.runs[0]? = some run ∧ run.halt = .terminal 0xFF ∧
      Listing.ofBytes .routine5C3FD5 place.offset.toNat memory.bytes = .ok listing ∧
      (∀ instruction ∈ listing.instructions, instruction.doubled = none) ∧
      playback.machine.patcher.isPatched 1 = true := by
  intro memory place
  have whole : UInt32.size - 6 + 6 = UInt32.size := by decide
  have opened : place.view memory = .ok ⟨0xFFFFFFFD, 7⟩ := overlongDump.view_eq whole
  have listed := overlongDump.listed whole
  obtain ⟨playback, played, run, doubled⟩ := overlongDump.played whole
  have unmarked : ∀ instruction ∈ (Listing.listFrom Dialect.routine5C3FD5.table 4294967293 #[]
      overlongDump.listedBytes).toList, instruction.doubled = none := by
    decide +kernel
  exact ⟨_, playback, _, _, opened, by decide, played, run, rfl, listed, unmarked, doubled⟩

end CameraScript
