import CameraScript.Proofs.ListedInstructions
import CameraScript.Proofs.MirroredWalks
import CameraScript.Proofs.SettledFrames

/-!
# Walks keep to the listed instructions

A walk that starts where a listing starts reads its opcodes where the listing has its
instructions, whatever it doubles on the way and however its frames end, unless a frame
gives up in the middle of an instruction. This takes a dump that has an address for every
byte: the end of a longer one has the addresses of its front, and a walk goes on there.
-/

namespace CameraScript

namespace ScriptPlace

variable {place : ScriptPlace} {memory : Region} {view : View}

/-- The byte of a script that a walk reads at first, or the byte of the dump where no
address leads to it. -/
def fetch (place : ScriptPlace) (memory : Region) (view : View) (index : Nat) : Option UInt8 :=
  (if index < view.length then view.byte? memory index.toUInt16 else none).or
    memory.bytes.toList[place.offset.toNat + index]?

theorem fetch_of_byte {position : UInt16} {byte : UInt8}
    (found : view.byte? memory position = some byte) :
    place.fetch memory view position.toNat = some byte := by
  have whole : position.toNat.toUInt16 = position := UInt16.ofNat_toNat
  rw [fetch, if_pos (View.inside_of_byte found), whole, found]
  rfl

/-- The address of a position that lies in the image is as far from the base as the position
is from the front of the dump. With more bytes than there are addresses it could also have
gone around the address space. -/
theorem address_in_dump (fits : memory.size ≤ UInt32.size) (opened : place.view memory = .ok view)
    {position : UInt16} (inside : position.toNat < view.length)
    (reached : memory.base ≤ view.start + position.toUInt32) :
    (view.start + position.toUInt32).toNat =
      memory.base.toNat + (place.offset.toNat + position.toNat) := by
  obtain ⟨start, -, ends⟩ := view_bounds opened
  have after := UInt32.le_iff_toNat_le.mp reached
  have sum : (view.start + position.toUInt32).toNat =
      (view.start.toNat + position.toNat) % 2 ^ 32 := by
    rw [UInt32.toNat_add, UInt16.toNat_toUInt32]
  have low := view.start.toNat_lt
  have narrow := position.toNat_lt
  have size : UInt32.size = 2 ^ 32 := rfl
  by_cases unwrapped : view.start.toNat + position.toNat < 2 ^ 32
  · rw [Nat.mod_eq_of_lt unwrapped] at sum
    omega
  · omega

theorem byte_in_dump (fits : memory.size ≤ UInt32.size) (opened : place.view memory = .ok view)
    {position : UInt16} {byte : UInt8} (found : view.byte? memory position = some byte) :
    memory.bytes.toList[place.offset.toNat + position.toNat]? = some byte := by
  obtain ⟨addr, named, present⟩ := Option.bind_eq_some_iff.mp found
  obtain ⟨inside, rfl⟩ := View.addr_of_eq_some_iff.mp named
  obtain ⟨reached, here⟩ := Region.byte_eq_some_iff.mp present
  rw [address_in_dump fits opened inside reached, Nat.add_sub_cancel_left] at here
  rw [Array.getElem?_toList]
  exact here

theorem fetch_eq (fits : memory.size ≤ UInt32.size) (opened : place.view memory = .ok view)
    (short : view.length ≤ 65523) (index : Nat) :
    place.fetch memory view index = memory.bytes.toList[place.offset.toNat + index]? := by
  unfold fetch
  split
  · rename_i inside
    have whole : index.toUInt16.toNat = index := UInt16.toNat_ofNat_of_lt' (by
      change index < 65536
      omega)
    cases found : view.byte? memory index.toUInt16 with
    | none => rfl
    | some byte =>
        have here := byte_in_dump fits opened found
        rw [whole] at here
        rw [here]
        rfl
  · rfl

theorem begins_listed (fits : memory.size ≤ UInt32.size) (opened : place.view memory = .ok view)
    (short : view.length ≤ 65523) {dialect : Dialect} {index : Nat}
    (begins : dialect.table.Begins (place.fetch memory view) index) :
    Listing.OnBoundary
      (Listing.instructionsAt dialect.table memory.bytes.toList place.offset.toNat)
      memory.size (place.offset.toNat + index) := by
  have size : memory.size = memory.bytes.toList.length := (Array.length_toList).symm
  rw [size] at fits ⊢
  exact Listing.on_boundary_of_begins dialect fits (fetch_eq (size ▸ fits) opened short) begins

end ScriptPlace

/-- An argument of a script that belongs to one of its instructions and is doubled there. -/
def Table.DoublesAt (table : Table) (view : View) (fetch : Nat → Option UInt8)
    (argument : UInt16) : Prop :=
  ∃ (position : UInt16) (opcode : UInt8), position.toNat < view.length ∧
    table.Begins fetch position.toNat ∧ fetch position.toNat = some opcode ∧
    table.doubledAt? opcode position = some argument ∧ argument.toNat < view.length

/-- A machine that has left all opcodes of a script as they were, and has recorded no
more than the arguments that its instructions double. -/
structure Machine.Aligned (table : Table) (view : View) (fetch : Nat → Option UInt8)
    (machine start : Machine) : Prop where
  opcodes : ∀ (position : UInt16) (byte : UInt8), table.Begins fetch position.toNat →
    view.byte? machine.memory position = some byte → fetch position.toNat = some byte
  recorded : ∀ addr, machine.patcher.isPatched addr = true →
    start.patcher.isPatched addr = true ∨
      ∃ argument, table.DoublesAt view fetch argument ∧ addr = view.start + argument.toUInt32

namespace Machine

variable {dialect : Dialect} {view : View} {fetch : Nat → Option UInt8} {start machine : Machine}

theorem Aligned.initial (place : ScriptPlace) (table : Table) (view : View) (machine : Machine) :
    machine.Aligned table view (place.fetch machine.memory view) machine where
  opcodes _ _ _ found := ScriptPlace.fetch_of_byte found
  recorded _ known := .inl known

theorem patched_of_patch {addr other : UInt32}
    (known : (machine.patch addr).2.patcher.isPatched other = true) :
    other = addr ∨ machine.patcher.isPatched other = true := by
  rcases machine.patch_cases addr with
    ⟨-, went⟩ | ⟨-, -, went⟩ | ⟨-, -, -, went⟩ | ⟨-, -, before, -, went⟩ <;> rw [went] at known
  · exact .inr known
  · exact .inr known
  · exact .inr known
  · exact (machine.double_is_patched addr other before).mp known

theorem Aligned.patch_at (short : view.length ≤ 65523)
    (aligned : machine.Aligned dialect.table view fetch start) {position : UInt16}
    {opcode : UInt8} (reached : position.toNat < view.length)
    (begins : dialect.table.Begins fetch position.toNat)
    (fetched : fetch position.toNat = some opcode)
    (inside : ∀ argument, dialect.table.doubledAt? opcode position = some argument →
      argument.toNat < view.length) :
    (machine.patchAt view (dialect.table.doubledAt? opcode position)).Aligned dialect.table view
      fetch start := by
  cases doubled : dialect.table.doubledAt? opcode position with
  | none => exact aligned
  | some argument =>
      have room := dialect.fits short opcode
      obtain ⟨after, before⟩ := Dialect.doubled_at_inside (by omega) doubled
      constructor
      · intro other byte opens found
        have apart : other ≠ argument := by
          intro same
          rw [same] at opens
          exact Table.not_begins_inside begins fetched after before opens
        rw [Machine.patchAt, view.byte_patch_of_ne machine apart] at found
        exact aligned.opcodes other byte opens found
      · intro addr known
        rcases patched_of_patch known with same | earlier
        · have doubles : dialect.table.DoublesAt view fetch argument :=
            ⟨position, opcode, reached, begins, fetched, doubled, inside argument doubled⟩
          exact .inr ⟨argument, doubles, same⟩
        · exact aligned.recorded addr earlier

end Machine

/-- Where a walk goes on, or leaves off without having given up an instruction halfway,
an instruction begins. -/
inductive Progress.Aligned (table : Table) (view : View) (fetch : Nat → Option UInt8)
    (start : Machine) : Progress → Prop where
  | resumed {walk : Walk} (aligned : walk.machine.Aligned table view fetch start)
      (begins : table.Begins fetch walk.cursor.position.toNat) :
      Aligned table view fetch start (.resumed walk)
  | halted {reason : Halt} {walk : Walk} (aligned : walk.machine.Aligned table view fetch start)
      (begins : reason ≠ .fault → reason ≠ .overrun →
        table.Begins fetch walk.cursor.position.toNat) :
      Aligned table view fetch start (.halted reason walk)

namespace Dialect

variable {dialect : Dialect} {fetch : Nat → Option UInt8}

theorem entries_park (dialect : Dialect) : ∀ entry ∈ dialect.entries,
    0 ≤ entry.descriptor.argLength.toInt ∨ entry.descriptor.argLength = -1 := by
  cases dialect <;> decide

theorem begins_onward {length : Nat} (short : length ≤ 65523) {opcode : UInt8}
    {cursor after : Cursor} {next? : Option UInt8} (inside : cursor.position.toNat < length)
    (begins : dialect.table.Begins fetch cursor.position.toNat)
    (fetched : fetch cursor.position.toNat = some opcode)
    (went : dialect.table.turn length opcode cursor next? = .onward after) :
    dialect.table.Begins fetch after.position.toNat := by
  have room := dialect.fits short opcode
  rw [Table.turn_onward (by omega) went]
  exact Table.begins_next begins fetched

/-- A stop leaves the walk at its opcode or at the next one, unless the byte after the
opcode is missing. -/
theorem begins_stop {length : Nat} (short : length ≤ 65523) {opcode : UInt8}
    {cursor after : Cursor} {next? : Option UInt8} {reason : Halt} {raised? : Option Diagnostic}
    (inside : cursor.position.toNat < length)
    (begins : dialect.table.Begins fetch cursor.position.toNat)
    (fetched : fetch cursor.position.toNat = some opcode)
    (went : dialect.table.turn length opcode cursor next? = .stop reason after raised?)
    (whole : reason ≠ .overrun) :
    dialect.table.Begins fetch after.position.toNat := by
  have room := dialect.fits short opcode
  have next := Table.begins_next begins fetched
  have past : (cursor.position + 1).toNat = cursor.position.toNat + 1 :=
    Table.to_nat_add_one (by omega)
  rcases Table.turn_stop went with ⟨-, -, -, rfl, -⟩ | ⟨overrun, -⟩ |
    ⟨-, control, unknown, rfl, -⟩ | ⟨descriptor, -, control, known, -, rfl, -⟩
  · exact begins
  · exact absurd overrun whole
  · simp only [Table.span, control, unknown, Option.elim_none] at next
    rw [past]
    exact next
  · simp only [Table.span, control, known, Option.elim_some] at next room
    rcases dialect.entries_park _ (entry_of_get known) with forward | parked
    · simp only at forward ⊢
      rw [UInt16.toNat_add, past, Table.to_nat_arg_length forward, Nat.mod_eq_of_lt (by omega),
        Nat.add_assoc]
      exact next
    · change descriptor.argLength = -1 at parked
      simp only [parked, Table.parked_position]
      exact begins

end Dialect

namespace Simulator

variable {simulator : Simulator} {dialect : Dialect} {view : View} {fetch : Nat → Option UInt8}
  {start : Machine}

/-- One step leads from an instruction to an instruction. -/
theorem step_aligned (standard : simulator.table = dialect.table) (short : view.length ≤ 65523)
    {walk : Walk} (aligned : walk.machine.Aligned dialect.table view fetch start)
    (begins : dialect.table.Begins fetch walk.cursor.position.toNat) :
    (simulator.step view walk).Aligned dialect.table view fetch start := by
  rcases simulator.step_cases view walk with
    ⟨-, stepped⟩ | ⟨failed, faulted, stepped⟩ | ⟨opcode, ready, prepared, stepped⟩
  · rw [stepped]
    exact .halted aligned (by simp)
  · rw [stepped]
    refine .halted ?_ (by simp)
    rw [faulted.machine]
    exact aligned
  · rw [standard] at prepared
    have reached := View.inside_of_byte prepared.fetched
    have fetched := aligned.opcodes _ _ begins prepared.fetched
    have kept : ready.machine.Aligned dialect.table view fetch start := by
      rw [prepared.machine]
      exact aligned.patch_at short reached begins fetched
        fun argument doubled => (prepared.settled argument doubled).1
    rw [stepped, turnAt, standard]
    cases went : dialect.table.turn view.length opcode walk.cursor
        (view.byte? ready.machine.memory (walk.cursor.position + 1)) with
    | onward cursor =>
        exact .resumed kept (Dialect.begins_onward short reached begins fetched went)
    | anew =>
        simp only [Walk.follow]
        split
        · exact .halted kept fun _ _ => Table.begins_zero _ _
        · exact .resumed kept (Table.begins_zero _ _)
    | stop reason cursor raised? =>
        obtain ⟨machine, moved, -⟩ := Walk.raise_all_fields { ready with cursor } raised?
        refine .halted (by rw [machine]; exact kept) fun _ whole => ?_
        rw [moved]
        exact Dialect.begins_stop short reached begins fetched went whole

theorem walk_from_aligned (standard : simulator.table = dialect.table)
    (short : view.length ≤ 65523) (budget taken : Nat) {walk : Walk}
    (aligned : walk.machine.Aligned dialect.table view fetch start)
    (begins : dialect.table.Begins fetch walk.cursor.position.toNat) :
    Progress.Aligned dialect.table view fetch start
      (.halted (simulator.walkFrom view budget taken walk).1
        (simulator.walkFrom view budget taken walk).2.2) := by
  induction budget generalizing taken walk with
  | zero => exact .halted aligned fun _ _ => begins
  | succ budget ih =>
      have stepped := step_aligned standard short aligned begins
      unfold walkFrom
      generalize simulator.step view walk = progress at stepped ⊢
      cases stepped with
      | resumed kept onward => exact ih (taken + 1) kept onward
      | halted kept ended => exact .halted kept ended

theorem run_aligned (standard : simulator.table = dialect.table) (short : view.length ≤ 65523)
    {cursor : Cursor} {machine : Machine}
    (aligned : machine.Aligned dialect.table view fetch start)
    (begins : dialect.table.Begins fetch cursor.position.toNat) :
    (simulator.run view cursor machine).machine.Aligned dialect.table view fetch start ∧
      ((simulator.run view cursor machine).simulation.halt ≠ .fault →
        (simulator.run view cursor machine).simulation.halt ≠ .overrun →
          dialect.table.Begins fetch
            (simulator.run view cursor machine).simulation.cursor.position.toNat) := by
  have begun :
      (simulator.beginning cursor machine).machine.Aligned dialect.table view fetch start := aligned
  cases walk_from_aligned standard short simulator.stepLimit 0 begun begins with
  | halted kept ended => exact ⟨kept, ended⟩

end Simulator

namespace Playback

variable {simulator : Simulator} {dialect : Dialect} {view : View} {fetch : Nat → Option UInt8}
  {start : Machine}

/-- Between two frames the next instruction is a listed one, unless the last frame ran
into the end of the script, where all later frames stay. -/
theorem play_aligned (standard : simulator.table = dialect.table) (short : view.length ≤ 65523)
    (aligned : start.Aligned dialect.table view fetch start) (frames : Nat)
    (unfaulted : ∀ index < frames, (frame simulator view start index).simulation.halt ≠ .fault) :
    (play simulator view frames start).machine.Aligned dialect.table view fetch start ∧
      (dialect.table.Begins fetch (play simulator view frames start).cursor.position.toNat ∨
        simulator.Rests view .overrun (play simulator view frames start).cursor
          (play simulator view frames start).machine) := by
  induction frames with
  | zero => exact ⟨aligned, .inl (Table.begins_zero _ _)⟩
  | succ frames ih =>
      obtain ⟨kept, stands⟩ := ih fun index before => unfaulted index (by omega)
      obtain ⟨cursor, machine, -⟩ := play_next simulator view start frames
      rw [cursor, machine]
      by_cases overran : (frame simulator view start frames).simulation.halt = .overrun
      · refine ⟨?_, .inr (Simulator.rests_after_overrun overran)⟩
        rcases stands with begins | rests
        · exact (Simulator.run_aligned standard short kept begins).1
        · rw [frame, rests.unchanged]
          exact kept
      · rcases stands with begins | rests
        · obtain ⟨left, onward⟩ := Simulator.run_aligned standard short kept begins
          exact ⟨left, .inl (onward (unfaulted frames (by omega)) overran)⟩
        · exact absurd rests.halts overran

/-- The last frame may also give up an instruction: it changes nothing then that the
frames before it could not have changed. -/
theorem frame_aligned (standard : simulator.table = dialect.table) (short : view.length ≤ 65523)
    (aligned : start.Aligned dialect.table view fetch start) (last : Nat)
    (unfaulted : ∀ index < last, (frame simulator view start index).simulation.halt ≠ .fault) :
    (frame simulator view start last).machine.Aligned dialect.table view fetch start ∧
      ((frame simulator view start last).simulation.halt ≠ .fault →
        (frame simulator view start last).simulation.halt ≠ .overrun →
          dialect.table.Begins fetch
            (frame simulator view start last).simulation.cursor.position.toNat) := by
  obtain ⟨kept, begins | rests⟩ := play_aligned standard short aligned last unfaulted
  · exact Simulator.run_aligned standard short kept begins
  · rw [frame, rests.unchanged]
    exact ⟨kept, fun _ whole => absurd rests.halts whole⟩

end Playback

/-- In a dump with an address for every byte, up to the first frame that gives up an
instruction halfway, every frame leaves the cursor on an instruction that is listed for the
dump as it was at first, on the marker of a listed restart, or past the end. -/
theorem simulate_frames_aligned (dialect : Dialect) (trace : TraceFlags) (limit frames : Nat)
    (place : ScriptPlace) (machine : Machine) (view : View)
    (fits : machine.memory.size ≤ UInt32.size) (opened : place.view machine.memory = .ok view)
    (short : view.length ≤ 65523) :
    let simulator := Simulator.withLimit dialect.table trace limit
    let playback := Playback.play simulator view frames machine
    simulateFrames simulator place frames machine = .ok playback ∧
      ∃ listing, Listing.ofBytes dialect place.offset.toNat machine.memory.bytes = .ok listing ∧
        ∀ (index : Nat) (run : Simulation), playback.runs[index]? = some run →
          (∀ earlier ≤ index, ∀ before : Simulation, playback.runs[earlier]? = some before →
            before.halt ≠ .fault ∧ before.halt ≠ .overrun) →
          Listing.OnBoundary listing.instructions machine.memory.size
            (place.offset.toNat + run.cursor.position.toNat) := by
  intro simulator playback
  obtain ⟨-, inside, -⟩ := ScriptPlace.view_bounds opened
  refine ⟨simulate_frames_of_view opened frames, _, if_pos (Nat.le_of_lt inside), ?_⟩
  intro index run found clear
  have bound : index < frames := by
    have bound := (Array.getElem?_eq_some_iff.mp found).1
    rwa [Playback.size_runs] at bound
  have ends : ∀ earlier ≤ index,
      (Playback.frame simulator view machine earlier).simulation.halt ≠ .fault ∧
        (Playback.frame simulator view machine earlier).simulation.halt ≠ .overrun :=
    fun earlier before => clear earlier before _
      (Playback.runs_of_lt simulator view machine (by omega))
  rw [Playback.runs_of_lt simulator view machine bound] at found
  cases found
  have aligned := Machine.Aligned.initial place dialect.table view machine
  have begins := (Playback.frame_aligned rfl short aligned index
    fun earlier before => (ends earlier (by omega)).1).2 (ends index (by omega)).1
      (ends index (by omega)).2
  exact ScriptPlace.begins_listed fits opened short begins

/-- The first frame of this script stops on the marker of a restart that it skipped while
waiting, and the second one behind it. -/
theorem simulate_frames_aligned_at_marker :
    let machine : Machine := ⟨⟨0x1000, ⟨#[0, 0xF5, 3, 0xFE, 0xC0, 0xD9, 0xFF]⟩⟩, .active⟩
    let simulator := Simulator.withLimit Dialect.routine5C3FD5.table ⟨false, false⟩ 2
    let playback := Playback.play simulator ⟨0x1001, 6⟩ 3 machine
    playback.runs.map (fun run => run.cursor.position) = #[3, 4, 5] ∧
      ∃ listing, Listing.ofBytes .routine5C3FD5 1 machine.memory.bytes = .ok listing ∧
        ∀ (index : Nat) (run : Simulation), playback.runs[index]? = some run →
          Listing.OnBoundary listing.instructions 7 (1 + run.cursor.position.toNat) := by
  intro machine simulator playback
  obtain ⟨-, listing, listed, aligned⟩ := simulate_frames_aligned .routine5C3FD5 ⟨false, false⟩ 2 3
    ⟨1, none⟩ machine ⟨0x1001, 6⟩ (by decide) (by cbv) (by decide)
  have clear : ∀ run ∈ playback.runs, run.halt ≠ .fault ∧ run.halt ≠ .overrun := by
    decide +kernel
  refine ⟨by decide +kernel, listing, listed, ?_⟩
  intro index run found
  exact aligned index run found fun earlier _ before present =>
    clear before (Array.mem_of_getElem? present)

/-! ## Dumps of more bytes than there are addresses -/

theorem View.byte_from_zero {view : View} {memory : Region} (base : memory.base = 0)
    {position : UInt16} (inside : position.toNat < view.length) :
    view.byte? memory position =
      memory.bytes[(view.start.toNat + position.toNat) % UInt32.size]? := by
  have place : (view.start + position.toUInt32).toNat =
      (view.start.toNat + position.toNat) % UInt32.size := by
    rw [UInt32.toNat_add, UInt16.toNat_toUInt32]
  rw [View.byte_of_inside inside]
  apply Region.byte_at_index
  rw [place, base]
  exact (Nat.zero_add _).symm

namespace overlongDump

/-- The bytes at the end of the dump: three instructions, of which the last lacks its arguments. -/
def listedBytes : List UInt8 := [0xE0, 0, 0, 0xE0, 0, 0, 0xE0]

/-- The bytes that a walk over them comes to, from the fourth on at the front of the dump. -/
def walkedBytes : List UInt8 := [0xE0, 0, 0, 0xF5, 5, 0xFF, 0]

end overlongDump

/-- A dump with a script at its end. With a gap of six bytes less than there are addresses, the
last four positions of the script have the addresses of the first four bytes. -/
def overlongDump (gap : Nat) : Region :=
  ⟨0, ⟨#[0xF5, 5, 0xFF] ++ Array.replicate gap 0 ++ overlongDump.listedBytes.toArray⟩⟩

namespace overlongDump

variable {gap : Nat}

theorem bytes_eq (gap : Nat) :
    (overlongDump gap).bytes.toList =
      [0xF5, 5, 0xFF] ++ List.replicate gap 0 ++ listedBytes := by
  simp [overlongDump, Region.bytes]

theorem size_eq (gap : Nat) : (overlongDump gap).size = gap + 10 := by
  have size : (overlongDump gap).size = (overlongDump gap).bytes.toList.length := rfl
  rw [size, bytes_eq]
  simp [listedBytes]

theorem drop_eq (gap : Nat) :
    (overlongDump gap).bytes.toList.drop (gap + 3) = listedBytes := by
  rw [bytes_eq]
  apply List.drop_left'
  simp

theorem start_eq (whole : gap + 6 = UInt32.size) : (0xFFFFFFFD : UInt32).toNat = gap + 3 := by
  have size : UInt32.size = 4294967296 := rfl
  change 4294967293 = gap + 3
  omega

theorem view_eq (whole : gap + 6 = UInt32.size) :
    ScriptPlace.view ⟨0xFFFFFFFD, none⟩ (overlongDump gap) = .ok ⟨0xFFFFFFFD, 7⟩ := by
  have base : (overlongDump gap).base = 0 := rfl
  have ends : (overlongDump gap).finish = gap + 10 := by
    rw [← size_eq]
    exact Nat.zero_add _
  have inSpace : (overlongDump gap).base.toNat + (0xFFFFFFFD : UInt32).toNat < UInt32.size := by
    rw [base]
    decide
  have covered : (overlongDump gap).Covers 0xFFFFFFFD 1 := by
    rw [Region.Covers, base, ends, start_eq whole]
    exact ⟨by decide, by omega⟩
  have opened := View.region_view_eq (overlongDump gap) 0xFFFFFFFD
  have length : gap + 10 - (0xFFFFFFFD : UInt32).toNat = 7 := by
    rw [start_eq whole]
    omega
  rw [if_pos covered, ends, length] at opened
  rw [ScriptPlace.view, if_pos inSpace, base, UInt32.zero_add, opened]
  rfl

theorem take_eq (wide : 0 < gap) :
    (overlongDump gap).bytes.toList.take 4 = [0xF5, 5, 0xFF, 0] := by
  obtain ⟨rest, rfl⟩ : ∃ rest, gap = rest + 1 := ⟨gap - 1, by omega⟩
  rw [bytes_eq, List.replicate_succ]
  rfl

theorem byte_eq (whole : gap + 6 = UInt32.size) {position : UInt16} (inside : position.toNat < 7) :
    View.byte? ⟨0xFFFFFFFD, 7⟩ (overlongDump gap) position =
      walkedBytes[position.toNat]? := by
  have size : UInt32.size = 4294967296 := rfl
  rw [View.byte_from_zero rfl inside, start_eq whole, ← Array.getElem?_toList]
  by_cases near : position.toNat < 3
  · have index : (gap + 3 + position.toNat) % UInt32.size = gap + 3 + position.toNat :=
      Nat.mod_eq_of_lt (by omega)
    have initial (bytes : List UInt8) : bytes[position.toNat]? = (bytes.take 3)[position.toNat]? :=
      (List.getElem?_take_of_lt near).symm
    rw [index, ← List.getElem?_drop, drop_eq, initial, initial walkedBytes]
    rfl
  · have index : (gap + 3 + position.toNat) % UInt32.size = position.toNat - 3 := by
      have once : gap + 3 + position.toNat = position.toNat - 3 + UInt32.size := by omega
      rw [once, Nat.add_mod_right]
      exact Nat.mod_eq_of_lt (by omega)
    obtain ⟨front, same⟩ : ∃ front, position.toNat = 3 + front := ⟨position.toNat - 3, by omega⟩
    rw [index, same, Nat.add_sub_cancel_left, ← List.getElem?_drop,
      ← List.getElem?_take_of_lt (by omega : front < 4), take_eq (by omega)]
    rfl

def copied : Machine :=
  ⟨⟨0, ⟨walkedBytes.toArray⟩⟩, .active⟩

theorem byte_copied {position : UInt16} (inside : position.toNat < 7) :
    View.byte? ⟨0, 7⟩ copied.memory position =
      walkedBytes[position.toNat]? := by
  have index : ((0 : UInt32).toNat + position.toNat) % UInt32.size = position.toNat := by
    rw [UInt32.toNat_zero, Nat.zero_add]
    exact Nat.mod_eq_of_lt (inside.trans (by decide))
  rw [View.byte_from_zero rfl inside, index, ← Array.getElem?_toList]
  rfl

theorem mirrors (whole : gap + 6 = UInt32.size) :
    copied.Mirrors ⟨0, 7⟩ ⟨0xFFFFFFFD, 7⟩ ⟨overlongDump gap, .active⟩ where
  enabled := rfl
  bytes position := by
    by_cases inside : position.toNat < 7
    · rw [byte_eq whole inside, byte_copied inside]
    · simp [View.byte?, View.addrOf?, inside]
  recorded position inside := by simp [copied, Patcher.isPatched, Patcher.active]
  refused position inside absent := by
    rw [byte_copied inside] at absent
    have present := List.getElem?_eq_none_iff.mp absent
    exact absurd inside (Nat.not_lt.mpr present)

def simulator : Simulator :=
  .withLimit Dialect.routine5C3FD5.table ⟨false, false⟩ Simulator.defaultStepLimit

theorem played (whole : gap + 6 = UInt32.size) :
    ∃ playback, simulateFrames simulator ⟨0xFFFFFFFD, none⟩ 1 ⟨overlongDump gap, .active⟩ =
        .ok playback ∧
      playback.runs[0]? = some ⟨⟨5, 10⟩, .terminal 0xFF, 3, []⟩ ∧
      playback.machine.patcher.isPatched 1 = true := by
  have own : (simulator.run ⟨0, 7⟩ .start copied).simulation =
        ⟨⟨5, 10⟩, .terminal 0xFF, 3, []⟩ ∧
      (simulator.run ⟨0, 7⟩ .start copied).machine.patcher.isPatched 4 = true := by
    decide +kernel
  have lengths : (⟨0xFFFFFFFD, 7⟩ : View).length = (⟨0, 7⟩ : View).length := rfl
  obtain ⟨alike, mirrors⟩ := Simulator.run_mirrors rfl rfl lengths (mirrors whole) .start
  have recorded := mirrors.recorded 4 (by decide)
  have opened : ScriptPlace.view ⟨0xFFFFFFFD, none⟩ (Machine.mk (overlongDump gap) .active).memory =
      .ok ⟨0xFFFFFFFD, 7⟩ := view_eq whole
  have first : Playback.frame simulator ⟨0xFFFFFFFD, 7⟩ ⟨overlongDump gap, .active⟩ 0 =
      simulator.run ⟨0xFFFFFFFD, 7⟩ .start ⟨overlongDump gap, .active⟩ := rfl
  obtain ⟨-, machine, -⟩ :=
    Playback.play_next simulator ⟨0xFFFFFFFD, 7⟩ ⟨overlongDump gap, .active⟩ 0
  refine ⟨_, simulate_frames_of_view opened 1, ?_, ?_⟩
  · rw [Playback.runs_of_lt _ _ _ Nat.one_pos, first, alike, own.1]
    rfl
  · rw [machine, first]
    exact recorded.trans own.2

theorem listed (whole : gap + 6 = UInt32.size) :
    Listing.ofBytes .routine5C3FD5 (0xFFFFFFFD : UInt32).toNat (overlongDump gap).bytes =
      .ok ⟨.routine5C3FD5, 4294967293,
        (Listing.listFrom Dialect.routine5C3FD5.table 4294967293 #[] listedBytes).toList⟩ := by
  have start : 4294967293 = gap + 3 := start_eq whole
  have offset : (0xFFFFFFFD : UInt32).toNat = 4294967293 := rfl
  have within : 4294967293 ≤ (overlongDump gap).bytes.size := by
    change _ ≤ (overlongDump gap).size
    rw [size_eq]
    omega
  rw [offset, Listing.ofBytes, if_pos within, start, drop_eq, ← start]

end overlongDump

/-- In a dump of more bytes than there are addresses a frame can end between two instructions.
The script at the end of this dump goes on, behind its first instruction, in the bytes at the
front: they end the frame on an argument of an instruction that is listed behind the end of
the address space. -/
theorem simulate_frames_strays_in_overlong_dump :
    let memory := overlongDump (UInt32.size - 6)
    let place : ScriptPlace := ⟨0xFFFFFFFD, none⟩
    ∃ view playback listing run,
      place.view memory = .ok view ∧ view.length ≤ 65523 ∧
      simulateFrames overlongDump.simulator place 1 ⟨memory, .active⟩ = .ok playback ∧
      playback.runs[0]? = some run ∧ run.halt = .terminal 0xFF ∧
      Listing.ofBytes .routine5C3FD5 place.offset.toNat memory.bytes = .ok listing ∧
      listing.instructions.map Instruction.address = [0xFFFFFFFD, 0, 3] ∧
      ¬ Listing.OnBoundary listing.instructions memory.size
        (place.offset.toNat + run.cursor.position.toNat) := by
  intro memory place
  have whole : UInt32.size - 6 + 6 = UInt32.size := by decide
  have opened : place.view memory = .ok ⟨0xFFFFFFFD, 7⟩ := overlongDump.view_eq whole
  have listed := overlongDump.listed whole
  obtain ⟨playback, played, run, -⟩ := overlongDump.played whole
  have addresses : (Listing.listFrom Dialect.routine5C3FD5.table 4294967293 #[]
      overlongDump.listedBytes).toList.map Instruction.address = [0xFFFFFFFD, 0, 3] := by
    decide +kernel
  refine ⟨_, playback, _, _, opened, by decide, played, run, rfl, listed, addresses, ?_⟩
  have spot : (0xFFFFFFFD : UInt32).toNat + (5 : UInt16).toNat = UInt32.size + 2 := by decide
  have narrow (instruction : Instruction) : instruction.address.toNat < UInt32.size :=
    instruction.address.toNat_lt
  rw [spot]
  rintro (⟨instruction, -, here⟩ | ⟨instruction, -, -, -, here⟩ | beyond)
  · have bound := narrow instruction
    omega
  · have bound := narrow instruction
    omega
  · rw [overlongDump.size_eq] at beyond
    omega

end CameraScript
