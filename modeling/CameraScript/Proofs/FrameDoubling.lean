import CameraScript.Proofs.WaitFrames

/-!
# Doubled arguments double the frames

A dry playback and a real playback of the same script: for each frame of the former
there are two of the latter, of which the second only counts the wait down. Where the
dry playback comes to a frame that does not wait the real playback comes to the same
frame, with twice as many frames left to wait.
-/

namespace CameraScript

theorem ScriptPlace.view_readable {place : ScriptPlace} {memory : Region} {view : View}
    (opened : place.view memory = .ok view) (inSpace : memory.finish ≤ UInt32.size) :
    view.Readable memory := by
  obtain ⟨start, -, ends⟩ := ScriptPlace.view_bounds opened
  have finish : memory.finish = memory.base.toNat + memory.size := rfl
  have after : memory.base ≤ view.start := UInt32.le_iff_toNat_le.mpr (by omega)
  exact View.readable_of_inside after (by omega) inSpace

def Simulation.Overflows (simulation : Simulation) : Prop :=
  ∃ diagnostic ∈ simulation.diagnostics, diagnostic.Overflow

/-- A dry run and a real run that agree in all but the doubled bytes and the frames
to wait. -/
structure Simulated.InStep (table : Table) (view : View) (original : Region)
    (dry real : Simulated) : Prop where
  halt : real.simulation.halt = dry.simulation.halt
  steps : real.simulation.steps = dry.simulation.steps
  position : real.simulation.cursor.position = dry.simulation.cursor.position
  diagnostics : real.simulation.diagnostics = dry.simulation.diagnostics
  wait : real.simulation.cursor.wait.toNat =
    2 * dry.simulation.cursor.wait.toNat + dry.simulation.halt.surplus
  resting : dry.machine = ⟨original, .inactive⟩
  doubled : real.machine.Doubled table view original
  waiting : dry.simulation.halt = .yielded →
    table.AtBoundary view original dry.simulation.cursor.position ∧
      view.byte? original dry.simulation.cursor.position = some Opcode.wait

structure Playback.InStep (table : Table) (view : View) (original : Region)
    (dry real : Playback) : Prop where
  resting : dry.machine = ⟨original, .inactive⟩
  doubled : real.machine.Doubled table view original
  begins : table.AtBoundary view original dry.cursor.position
  position : real.cursor.position = dry.cursor.position
  wait : real.cursor.wait.toNat = 2 * dry.cursor.wait.toNat

namespace Simulator

variable {simulator : Simulator} {view : View} {original : Region}

theorem run_in_step {dialect : Dialect} (standard : simulator.table = dialect.table)
    (short : view.length ≤ 65523) (readable : view.Readable original) {dry real : Playback}
    (alike : dry.InStep dialect.table view original real)
    (calm : ¬ (simulator.run view real.cursor real.machine).simulation.Overflows) :
    (simulator.run view dry.cursor dry.machine).InStep dialect.table view original
      (simulator.run view real.cursor real.machine) := by
  have begun : (simulator.beginning dry.cursor dry.machine).InStep dialect.table view original 0
      (simulator.beginning real.cursor real.machine) := {
    resting := alike.resting
    doubled := alike.doubled
    position := alike.position
    wait := alike.wait
    restarted := rfl
    diagnostics := rfl }
  obtain ⟨halt, steps, dryFinal, realFinal, dryWalked, realWalked, final, waiting⟩ :=
    walk_from_in_step standard short readable simulator.stepLimit 0 begun alike.begins
      fun diagnostic raised overflow => calm ⟨diagnostic, raised, overflow⟩
  obtain ⟨drySimulation, dryLeft⟩ := run_of_walk_from dryWalked
  obtain ⟨realSimulation, realLeft⟩ := run_of_walk_from realWalked
  exact {
    halt := by rw [realSimulation, drySimulation]
    steps := by rw [realSimulation, drySimulation]
    position := by
      rw [realSimulation, drySimulation]
      exact final.position
    diagnostics := by
      rw [realSimulation, drySimulation]
      exact final.diagnostics
    wait := by
      rw [realSimulation, drySimulation]
      exact final.wait
    resting := dryLeft.trans final.resting
    doubled := by
      rw [realLeft]
      exact final.doubled
    waiting := by
      rw [drySimulation]
      exact waiting }

end Simulator

namespace Playback

variable {simulator : Simulator} {view : View} {original : Region} {dialect : Dialect}

theorem initial_in_step (table : Table) (view : View) (memory : Region) :
    (begin ⟨memory, .inactive⟩).InStep table view memory (begin ⟨memory, .active⟩) where
  resting := rfl
  doubled := Machine.Doubled.initial table view memory
  begins := Table.at_boundary_start
  position := rfl
  wait := rfl

theorem frame_in_step (standard : simulator.table = dialect.table)
    (short : view.length ≤ 65523) (readable : view.Readable original)
    {dryMachine realMachine : Machine} {index later : Nat}
    (alike : (play simulator view index dryMachine).InStep dialect.table view original
      (play simulator view later realMachine))
    (calm : ¬ (frame simulator view realMachine later).simulation.Overflows) :
    (frame simulator view dryMachine index).InStep dialect.table view original
      (frame simulator view realMachine later) :=
  Simulator.run_in_step standard short readable alike calm

/-- A dry frame that waits takes two real frames, and behind them the playbacks are in
step again. -/
theorem next_in_step (standard : simulator.table = dialect.table)
    (short : view.length ≤ 65523) (readable : view.Readable original)
    {dryMachine realMachine : Machine} {index : Nat}
    (alike : (play simulator view index dryMachine).InStep dialect.table view original
      (play simulator view (2 * index) realMachine))
    (yielded : (frame simulator view dryMachine index).simulation.halt = .yielded)
    (calm : ¬ (frame simulator view realMachine (2 * index)).simulation.Overflows) :
    (frame simulator view realMachine (2 * index)).simulation.halt = .yielded ∧
      (frame simulator view realMachine (2 * index + 1)).simulation.halt = .yielded ∧
      (play simulator view (index + 1) dryMachine).InStep dialect.table view original
        (play simulator view (2 * (index + 1)) realMachine) := by
  have first := frame_in_step standard short readable alike calm
  obtain ⟨begins, waits⟩ := first.waiting yielded
  have surplus := first.wait
  simp only [yielded, Halt.surplus, if_true] at surplus
  obtain ⟨dryCursor, dryLeft, -⟩ := play_next simulator view dryMachine index
  obtain ⟨realCursor, realLeft, -⟩ := play_next simulator view realMachine (2 * index)
  obtain ⟨nextCursor, nextLeft, -⟩ := play_next simulator view realMachine (2 * index + 1)
  -- The second real frame begins at the wait with an odd number of frames left.
  have fetched : view.byte?
      (frame simulator view realMachine (2 * index)).machine.memory
      (frame simulator view realMachine (2 * index)).simulation.cursor.position =
        some Opcode.wait := by
    rw [first.position, first.doubled.byte_at_boundary begins]
    exact waits
  have left : (frame simulator view realMachine (2 * index)).simulation.cursor.wait ≠ 0 := by
    intro elapsed
    rw [elapsed, UInt16.toNat_zero] at surplus
    omega
  obtain ⟨answer, still⟩ := simulator.run_at_wait fetched left
  have halted := congrArg Simulation.halt answer
  have moved := congrArg Simulation.cursor answer
  rw [← realCursor, ← realLeft] at halted moved still
  change (frame simulator view realMachine (2 * index + 1)).simulation.halt = _ at halted
  change (frame simulator view realMachine (2 * index + 1)).simulation.cursor = _ at moved
  change (frame simulator view realMachine (2 * index + 1)).machine = _ at still
  refine ⟨first.halt.trans yielded, halted, ?_⟩
  exact {
    resting := dryLeft.trans first.resting
    doubled := by
      change (play simulator view (2 * index + 1 + 1) realMachine).machine.Doubled _ _ _
      rw [nextLeft, still, realLeft]
      exact first.doubled
    begins := by
      rw [dryCursor]
      exact begins
    position := by
      change (play simulator view (2 * index + 1 + 1) realMachine).cursor.position = _
      rw [nextCursor, moved, realCursor, dryCursor]
      exact first.position
    wait := by
      change (play simulator view (2 * index + 1 + 1) realMachine).cursor.wait.toNat = _
      rw [nextCursor, moved, realCursor, dryCursor]
      simp only
      rw [to_nat_sub_one (by omega), surplus]
      omega }

theorem frames_in_step (standard : simulator.table = dialect.table)
    (short : view.length ≤ 65523) (readable : view.Readable original) (frames : Nat)
    (yielded : ∀ index < frames,
      (frame simulator view ⟨original, .inactive⟩ index).simulation.halt = .yielded)
    (calm : ∀ index < 2 * frames,
      ¬ (frame simulator view ⟨original, .active⟩ index).simulation.Overflows) :
    (∀ index < 2 * frames,
        (frame simulator view ⟨original, .active⟩ index).simulation.halt = .yielded) ∧
      (play simulator view frames ⟨original, .inactive⟩).InStep dialect.table view original
        (play simulator view (2 * frames) ⟨original, .active⟩) := by
  induction frames with
  | zero => exact ⟨by simp, initial_in_step dialect.table view original⟩
  | succ frames ih =>
      obtain ⟨earlier, alike⟩ := ih (fun index before => yielded index (by omega))
        fun index before => calm index (by omega)
      obtain ⟨first, second, next⟩ := next_in_step standard short readable alike
        (yielded frames (by omega)) (calm (2 * frames) (by omega))
      refine ⟨?_, next⟩
      intro index before
      by_cases old : index < 2 * frames
      · exact earlier index old
      · by_cases even : index = 2 * frames
        · rw [even]
          exact first
        · rw [show index = 2 * frames + 1 by omega]
          exact second

theorem mem_runs {machine : Machine} {frames : Nat} {run : Simulation}
    (member : run ∈ (play simulator view frames machine).runs) :
    ∃ index < frames, run = (frame simulator view machine index).simulation := by
  obtain ⟨index, found⟩ := Array.getElem?_of_mem member
  have bound := (Array.getElem?_eq_some_iff.mp found).1
  rw [size_runs] at bound
  rw [runs_of_lt simulator view machine bound] at found
  exact ⟨index, bound, (Option.some.inj found).symm⟩

theorem frame_mem_runs (simulator : Simulator) (view : View) (machine : Machine)
    {index frames : Nat} (before : index < frames) :
    (frame simulator view machine index).simulation ∈
      (play simulator view frames machine).runs :=
  Array.mem_of_getElem? (runs_of_lt simulator view machine before)

end Playback

/-- Doubling the arguments of a script doubles the frames that it waits and changes
nothing else about its control flow, as long as no argument overflows. -/
theorem simulate_frames_doubled (dialect : Dialect) (trace : TraceFlags) (limit : Nat)
    (place : ScriptPlace) (memory : Region) (view : View)
    (opened : place.view memory = .ok view) (inSpace : memory.finish ≤ UInt32.size)
    (short : view.length ≤ 65523) :
    let simulator := Simulator.withLimit dialect.table trace limit
    let dry := fun frames => Playback.play simulator view frames ⟨memory, .inactive⟩
    let real := fun frames => Playback.play simulator view frames ⟨memory, .active⟩
    (∀ frames, simulateFrames simulator place frames ⟨memory, .inactive⟩ = .ok (dry frames) ∧
        simulateFrames simulator place frames ⟨memory, .active⟩ = .ok (real frames)) ∧
      ∀ count, (∀ run ∈ (dry count).runs, run.halt = .yielded) →
        (∀ run ∈ (real (2 * count + 1)).runs, ¬ run.Overflows) →
          (∀ run ∈ (real (2 * count)).runs, run.halt = .yielded) ∧
          (real (2 * count)).cursor.position = (dry count).cursor.position ∧
          (real (2 * count)).cursor.wait.toNat = 2 * (dry count).cursor.wait.toNat ∧
          ∃ last again, (dry (count + 1)).runs[count]? = some last ∧
            (real (2 * count + 1)).runs[2 * count]? = some again ∧
            (last.halt ≠ .yielded →
              again.halt = last.halt ∧ again.steps = last.steps ∧
                again.cursor.position = last.cursor.position ∧
                again.cursor.wait.toNat = 2 * last.cursor.wait.toNat ∧
                again.diagnostics = last.diagnostics) := by
  intro simulator dry real
  have standard : simulator.table = dialect.table := rfl
  have readable : view.Readable memory := ScriptPlace.view_readable opened inSpace
  constructor
  · intro frames
    exact ⟨simulate_frames_of_view opened frames, simulate_frames_of_view opened frames⟩
  · intro count yielded calm
    have waits : ∀ index < count,
        (Playback.frame simulator view ⟨memory, .inactive⟩ index).simulation.halt = .yielded :=
      fun index before => yielded _ (Playback.frame_mem_runs simulator view _ before)
    have quiet : ∀ index < 2 * count + 1,
        ¬ (Playback.frame simulator view ⟨memory, .active⟩ index).simulation.Overflows :=
      fun index before => calm _ (Playback.frame_mem_runs simulator view _ before)
    obtain ⟨realWaits, alike⟩ := Playback.frames_in_step standard short readable count waits
      fun index before => quiet index (by omega)
    have last := Playback.frame_in_step standard short readable alike (quiet _ (by omega))
    refine ⟨?_, alike.position, alike.wait, _, _,
      Playback.runs_of_lt simulator view _ (Nat.lt_succ_self count),
      Playback.runs_of_lt simulator view _ (Nat.lt_succ_self (2 * count)), ?_⟩
    · intro run member
      obtain ⟨index, before, rfl⟩ := Playback.mem_runs member
      exact realWaits index before
    · intro ended
      have wait := last.wait
      rw [Halt.surplus, if_neg ended] at wait
      exact ⟨last.halt, last.steps, last.position, wait, last.diagnostics⟩

/-- A script that waits two frames waits four when its argument is doubled, and then
ends at the same mark. -/
theorem simulate_frames_doubled_at_wait :
    let memory : Region := ⟨0x1000, ⟨#[0xF5, 2, 0xF4, 0xFF]⟩⟩
    let simulator := Simulator.withLimit Dialect.routine5C3FD5.table ⟨false, false⟩ 8
    let dry := fun frames => Playback.play simulator ⟨0x1000, 4⟩ frames ⟨memory, .inactive⟩
    let real := fun frames => Playback.play simulator ⟨0x1000, 4⟩ frames ⟨memory, .active⟩
    (∀ run ∈ (dry 2).runs, run.halt = .yielded) ∧
      (∀ run ∈ (real 4).runs, run.halt = .yielded) ∧
      (dry 3).runs[2]? = some ⟨⟨3, 0⟩, .terminal 0xFF, 2, []⟩ ∧
      (real 5).runs[4]? = some ⟨⟨3, 0⟩, .terminal 0xFF, 2, []⟩ := by
  intro memory simulator dry real
  obtain ⟨-, doubles⟩ := simulate_frames_doubled .routine5C3FD5 ⟨false, false⟩ 8 ⟨0, none⟩ memory
    ⟨0x1000, 4⟩ (by cbv) (by decide) (by decide)
  have waits : ∀ run ∈ (dry 2).runs, run.halt = .yielded := by decide +kernel
  have last : (dry 3).runs[2]? = some ⟨⟨3, 0⟩, .terminal 0xFF, 2, []⟩ := by decide +kernel
  have again : (real 5).runs[4]? = some ⟨⟨3, 0⟩, .terminal 0xFF, 2, []⟩ := by decide +kernel
  have silent : ∀ run ∈ (real 5).runs, run.diagnostics = [] := by decide +kernel
  obtain ⟨doubled, -⟩ := doubles 2 waits fun run member overflows => by
    obtain ⟨diagnostic, raised, -⟩ := overflows
    rw [silent run member] at raised
    exact absurd raised List.not_mem_nil
  exact ⟨waits, doubled, last, again⟩

end CameraScript
