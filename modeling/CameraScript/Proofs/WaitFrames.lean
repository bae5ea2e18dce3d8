import CameraScript.Proofs.PlaybackFrames
import CameraScript.Proofs.StepLimits

/-!
# How long a wait lasts

A wait with frames left gives one frame back for each of them, and a run that comes to it
does nothing else. When none are left the walk goes on behind it, as a run from there with
one step less to spare. A wait that is set first is set to the doubled argument, so the
frames it takes are two for each one that the script stores.
-/

namespace CameraScript

/-- A script that sets a wait and waits right behind, where the argument is still to be
doubled and its double fits. -/
structure Machine.SetsWait (view : View) (machine : Machine) (position : UInt16)
    (frames : UInt8) : Prop where
  sets : view.byte? machine.memory position = some Opcode.setWait
  stored : view.byte? machine.memory (position + 1) = some frames
  waits : view.byte? machine.memory (position + 1 + 1) = some Opcode.wait
  small : frames.toNat < 128
  enabled : machine.patcher.enabled = true
  fresh : machine.patcher.isPatched (view.start + (position + 1).toUInt32) = false

namespace Machine.SetsWait

variable {view : View} {machine : Machine} {position : UInt16} {frames : UInt8}

theorem byte_stored (setting : machine.SetsWait view position frames) :
    machine.memory.byte? (view.start + (position + 1).toUInt32) = some frames := by
  rw [← View.byte_of_inside (View.inside_of_byte setting.stored)]
  exact setting.stored

theorem patch_answer (setting : machine.SetsWait view position frames) :
    (machine.patch (view.start + (position + 1).toUInt32)).1 =
      .ok (.doubled frames (frames * 2)) := by
  have on : ¬ machine.patcher.enabled = false := by simp [setting.enabled]
  have unknown := Bool.eq_false_iff.mp setting.fresh
  rw [Machine.patch_answer, if_neg on, if_neg unknown, setting.byte_stored]
  simp only [Patcher.outcome_of_small setting.small]

theorem stored_doubled (setting : machine.SetsWait view position frames) :
    view.byte? (machine.patchAt view (some (position + 1))).memory (position + 1) =
      some (frames * 2) := by
  rw [View.byte_of_inside (View.inside_of_byte setting.stored), Machine.patchAt,
    Machine.byte_patch_self, if_pos ⟨setting.enabled, setting.fresh⟩, setting.byte_stored]
  rfl

theorem waits_doubled (setting : machine.SetsWait view position frames) :
    view.byte? (machine.patchAt view (some (position + 1))).memory (position + 1 + 1) =
      some Opcode.wait := by
  have apart : position + 1 + 1 ≠ position + 1 := by simp
  exact (view.byte_patch_of_ne machine apart).trans setting.waits

theorem bound (setting : machine.SetsWait view position frames) :
    2 * frames.toNat < UInt16.size := by
  have small := setting.small
  exact Nat.lt_trans (Nat.mul_lt_mul_of_pos_left small (by decide)) (by decide)

theorem wait_doubled (setting : machine.SetsWait view position frames) :
    (frames * 2).toUInt16 = UInt16.ofNat (2 * frames.toNat) := by
  have small := setting.small
  have value : (UInt16.ofNat (2 * frames.toNat)).toNat = 2 * frames.toNat :=
    UInt16.toNat_ofNat_of_lt' setting.bound
  apply UInt16.toNat_inj.mp
  simp only [value, UInt8.toNat_toUInt16, UInt8.toNat_mul, UInt8.reduceToNat]
  omega

end Machine.SetsWait

theorem wait_of_succ {left : Nat} (bound : left + 1 < UInt16.size) :
    UInt16.ofNat (left + 1) ≠ 0 ∧ UInt16.ofNat (left + 1) - 1 = UInt16.ofNat left := by
  have value : (UInt16.ofNat (left + 1)).toNat = left + 1 := UInt16.toNat_ofNat_of_lt' bound
  constructor
  · intro elapsed
    rw [elapsed, UInt16.toNat_zero] at value
    contradiction
  · apply UInt16.toNat_inj.mp
    rw [to_nat_sub_one (by omega), value]
    exact (UInt16.toNat_ofNat_of_lt' (by omega)).symm

namespace Simulator

variable {simulator : Simulator} {view : View}

/-- A wait doubles nothing and reports nothing: with frames left it takes one of them and
ends the walk, and otherwise the walk moves on. -/
theorem step_at_wait (walk : Walk)
    (fetched : view.byte? walk.machine.memory walk.cursor.position = some Opcode.wait) :
    ∃ ready : Walk, ready.machine = walk.machine ∧ ready.restarted = walk.restarted ∧
      ready.diagnostics.toList = walk.diagnostics.toList ∧
      simulator.step view walk =
        if walk.cursor.wait = 0 then
          .resumed { ready with cursor := ⟨walk.cursor.position + 1, walk.cursor.wait⟩ }
        else
          .halted .yielded
            { ready with cursor := ⟨walk.cursor.position, walk.cursor.wait - 1⟩ } := by
  have control : Control.ofOpcode? Opcode.wait = some .wait := rfl
  have undoubled : simulator.table.doubledAt? Opcode.wait walk.cursor.position = none := by
    simp only [Table.doubledAt?, control]
  obtain ⟨ready, prepared, machine, stepped⟩ := step_of_settled fetched
    fun argument doubled => by
      rw [undoubled] at doubled
      contradiction
  have reports : ready.diagnostics.toList = walk.diagnostics.toList := by
    rw [prepared.diagnostics, undoubled]
    exact List.append_nil _
  refine ⟨ready, machine, prepared.restarted, reports, stepped.trans ?_⟩
  simp only [turnAt, Table.turn, control]
  split <;> rfl

theorem step_at_set_wait (walk : Walk) {frames : UInt8}
    (setting : walk.machine.SetsWait view walk.cursor.position frames) :
    ∃ next : Walk, simulator.step view walk = .resumed next ∧
      next.cursor = ⟨walk.cursor.position + 1 + 1, UInt16.ofNat (2 * frames.toNat)⟩ ∧
      next.machine =
        walk.machine.patchAt view (some (walk.cursor.position + 1)) ∧
      next.restarted = walk.restarted ∧
      next.diagnostics.toList = walk.diagnostics.toList := by
  let argument := walk.cursor.position + 1
  have control : Control.ofOpcode? Opcode.setWait = some .setWait := rfl
  have doubled : simulator.table.doubledAt? Opcode.setWait walk.cursor.position =
      some argument := by simp only [Table.doubledAt?, control, argument]
  obtain ⟨ready, prepared, stepped⟩ := simulator.step_of_accepted walk setting.sets
    fun other same => by
      cases Option.some.inj (doubled.symm.trans same)
      exact ⟨View.inside_of_byte setting.stored, _, setting.patch_answer⟩
  have machine : ready.machine = walk.machine.patchAt view (some argument) := by
    rw [prepared.machine, doubled]
  have reports : ready.diagnostics.toList = walk.diagnostics.toList := by
    rw [prepared.diagnostics, doubled, Machine.overflowAt?, setting.patch_answer]
    exact List.append_nil _
  have turned : simulator.turnAt view Opcode.setWait walk.cursor ready.machine.memory =
      .onward ⟨argument + 1, UInt16.ofNat (2 * frames.toNat)⟩ := by
    rw [turnAt, machine, setting.stored_doubled, ← setting.wait_doubled]
    simp only [Table.turn, control, argument]
  rw [turned] at stepped
  exact ⟨_, stepped, rfl, machine, prepared.restarted, reports⟩

theorem Reaches.past_wait {steps : Nat} {begun walk : Walk}
    (reaches : simulator.Reaches view steps begun walk)
    (fetched : view.byte? walk.machine.memory walk.cursor.position = some Opcode.wait)
    (elapsed : walk.cursor.wait = 0) :
    ∃ last, simulator.Reaches view (steps + 1) begun last ∧
      last.cursor = ⟨walk.cursor.position + 1, 0⟩ ∧ last.machine = walk.machine ∧
      last.restarted = walk.restarted := by
  obtain ⟨ready, still, restarted, -, stepped⟩ := simulator.step_at_wait walk fetched
  rw [if_pos elapsed, elapsed] at stepped
  have further := reaches.trans (.step stepped (.refl _))
  rw [Nat.zero_add, Nat.add_comm] at further
  exact ⟨_, further, rfl, still, restarted⟩

theorem run_at_wait (simulator : Simulator) {cursor : Cursor} {machine : Machine}
    (fetched : view.byte? machine.memory cursor.position = some Opcode.wait)
    (left : cursor.wait ≠ 0) :
    (simulator.run view cursor machine).simulation =
        ⟨⟨cursor.position, cursor.wait - 1⟩, .yielded, 1, []⟩ ∧
      (simulator.run view cursor machine).machine = machine := by
  let begun := simulator.beginning cursor machine
  have here : view.byte? begun.machine.memory begun.cursor.position = some Opcode.wait := fetched
  have waiting : begun.cursor.wait ≠ 0 := left
  obtain ⟨ready, still, -, silent, stepped⟩ := simulator.step_at_wait begun here
  rw [if_neg waiting] at stepped
  obtain ⟨simulation, after⟩ :=
    run_of_walk_from (walk_from_of_reaches (.refl _) stepped 0 simulator.stepLimit_pos)
  constructor
  · rw [simulation, silent]
    rfl
  · exact after.trans still

end Simulator

namespace Playback

variable (simulator : Simulator) (view : View) (playback : Playback)

/-- The state that a number of further frames leave behind. -/
def later (frames : Nat) : Playback :=
  Nat.repeat (advance simulator view) frames playback

def laterFrame (index : Nat) : Simulated :=
  simulator.run view (later simulator view playback index).cursor
    (later simulator view playback index).machine

theorem later_succ (index : Nat) :
    (later simulator view playback (index + 1)).cursor =
        (laterFrame simulator view playback index).simulation.cursor ∧
      (later simulator view playback (index + 1)).machine =
        (laterFrame simulator view playback index).machine :=
  ⟨rfl, rfl⟩

theorem later_advance (frames : Nat) :
    later simulator view playback (frames + 1) =
      later simulator view (advance simulator view playback) frames := by
  induction frames with
  | zero => rfl
  | succ frames ih => exact congrArg (advance simulator view) ih

theorem later_frame_advance (index : Nat) :
    laterFrame simulator view playback (index + 1) =
      laterFrame simulator view (advance simulator view playback) index := by
  unfold laterFrame
  rw [later_advance]

variable {simulator view playback}

theorem later_frame_at_wait {index left : Nat} {position : UInt16} {machine : Machine}
    (cursor : (later simulator view playback index).cursor = ⟨position, UInt16.ofNat (left + 1)⟩)
    (arrived : (later simulator view playback index).machine = machine)
    (bound : left + 1 < UInt16.size)
    (fetched : view.byte? machine.memory position = some Opcode.wait) :
    (laterFrame simulator view playback index).simulation =
        ⟨⟨position, UInt16.ofNat left⟩, .yielded, 1, []⟩ ∧
      (laterFrame simulator view playback index).machine = machine := by
  obtain ⟨waiting, fewer⟩ := wait_of_succ bound
  let arrival : Cursor := ⟨position, UInt16.ofNat (left + 1)⟩
  have here : view.byte? machine.memory arrival.position = some Opcode.wait := fetched
  obtain ⟨simulation, after⟩ := simulator.run_at_wait here waiting
  rw [laterFrame, cursor, arrived, ← fewer]
  exact ⟨simulation, after⟩

/-- While a wait lasts every frame takes one off it and changes nothing else. -/
theorem later_at_wait {left : Nat} {position : UInt16}
    (cursor : playback.cursor = ⟨position, UInt16.ofNat left⟩) (bound : left < UInt16.size)
    (fetched : view.byte? playback.machine.memory position = some Opcode.wait)
    {index : Nat} (lasts : index ≤ left) :
    (later simulator view playback index).cursor = ⟨position, UInt16.ofNat (left - index)⟩ ∧
      (later simulator view playback index).machine = playback.machine := by
  induction index with
  | zero => exact ⟨cursor, rfl⟩
  | succ index ih =>
      obtain ⟨arrived, machine⟩ := ih (by omega)
      have count : left - index = left - (index + 1) + 1 := by omega
      rw [count] at arrived
      obtain ⟨simulation, after⟩ := later_frame_at_wait arrived machine (by omega) fetched
      obtain ⟨moved, still⟩ := later_succ simulator view playback index
      rw [moved, still, simulation]
      exact ⟨rfl, after⟩

theorem frame_at_wait {left : Nat} {position : UInt16}
    (cursor : playback.cursor = ⟨position, UInt16.ofNat left⟩) (bound : left < UInt16.size)
    (fetched : view.byte? playback.machine.memory position = some Opcode.wait)
    {index : Nat} (lasts : index < left) :
    (laterFrame simulator view playback index).simulation =
        ⟨⟨position, UInt16.ofNat (left - 1 - index)⟩, .yielded, 1, []⟩ ∧
      (laterFrame simulator view playback index).machine = playback.machine := by
  obtain ⟨arrived, machine⟩ := later_at_wait cursor bound fetched (Nat.le_of_lt lasts)
  have count : left - index = left - 1 - index + 1 := by omega
  rw [count] at arrived
  exact later_frame_at_wait arrived machine (by omega) fetched

theorem frame_past_wait (simulator : Simulator) {left : Nat} {position : UInt16}
    (cursor : playback.cursor = ⟨position, UInt16.ofNat left⟩) (bound : left < UInt16.size)
    (fetched : view.byte? playback.machine.memory position = some Opcode.wait) :
    let state := later simulator view playback left
    state.machine = playback.machine ∧
      ∃ last, simulator.Reaches view 1 (simulator.beginning state.cursor state.machine) last ∧
        last.cursor = ⟨position + 1, 0⟩ ∧ last.machine = playback.machine ∧
        last.restarted = false := by
  intro state
  obtain ⟨arrived, machine⟩ : state.cursor = ⟨position, UInt16.ofNat (left - left)⟩ ∧
      state.machine = playback.machine :=
    later_at_wait cursor bound fetched (Nat.le_refl left)
  rw [Nat.sub_self] at arrived
  let begun := simulator.beginning state.cursor state.machine
  have here : view.byte? begun.machine.memory begun.cursor.position = some Opcode.wait := by
    change view.byte? state.machine.memory state.cursor.position = _
    rw [machine, arrived]
    exact fetched
  have elapsed : begun.cursor.wait = 0 := congrArg Cursor.wait arrived
  obtain ⟨last, reaches, moved, still, restarted⟩ :=
    Simulator.Reaches.past_wait (.refl begun) here elapsed
  have place : begun.cursor.position = position := congrArg Cursor.position arrived
  rw [place] at moved
  exact ⟨machine, last, reaches, moved, still.trans machine, restarted⟩

end Playback

namespace Machine.SetsWait

variable {view : View} {machine : Machine} {frames : UInt8}

theorem reaches (simulator : Simulator) {cursor : Cursor}
    (setting : machine.SetsWait view cursor.position frames) :
    ∃ last, simulator.Reaches view 1 (simulator.beginning cursor machine) last ∧
      last.cursor = ⟨cursor.position + 1 + 1, UInt16.ofNat (2 * frames.toNat)⟩ ∧
      last.machine = machine.patchAt view (some (cursor.position + 1)) ∧
      last.restarted = false ∧ last.diagnostics.toList = [] := by
  obtain ⟨next, stepped, moved, left, restarted, silent⟩ :=
    simulator.step_at_set_wait (simulator.beginning cursor machine) setting
  exact ⟨next, .step stepped (.refl next), moved, left, restarted, silent⟩

theorem run_waits (simulator : Simulator) {cursor : Cursor}
    (setting : machine.SetsWait view cursor.position frames) (positive : 0 < frames.toNat)
    (room : 1 < simulator.stepLimit) :
    (simulator.run view cursor machine).simulation =
        ⟨⟨cursor.position + 1 + 1, UInt16.ofNat (2 * frames.toNat - 1)⟩, .yielded, 2, []⟩ ∧
      (simulator.run view cursor machine).machine =
        machine.patchAt view (some (cursor.position + 1)) := by
  obtain ⟨walk, reaches, arrived, doubled, -, silent⟩ := setting.reaches simulator
  have fetched : view.byte? walk.machine.memory walk.cursor.position = some Opcode.wait := by
    rw [arrived, doubled]
    exact setting.waits_doubled
  have bound := setting.bound
  have count : 2 * frames.toNat = 2 * frames.toNat - 1 + 1 := by omega
  obtain ⟨waiting, fewer⟩ := wait_of_succ (show 2 * frames.toNat - 1 + 1 < UInt16.size by omega)
  rw [← count] at waiting fewer
  obtain ⟨ready, still, -, quiet, stepped⟩ := simulator.step_at_wait walk fetched
  rw [arrived, if_neg waiting, fewer] at stepped
  obtain ⟨simulation, after⟩ :=
    Simulator.run_of_walk_from (Simulator.walk_from_of_reaches reaches stepped 0 room)
  constructor
  · rw [simulation, quiet, silent]
  · exact after.trans (still.trans doubled)

end Machine.SetsWait

namespace Playback

variable {simulator : Simulator} {view : View} {playback : Playback} {frames : UInt8}

theorem advance_at_set_wait
    (setting : playback.machine.SetsWait view playback.cursor.position frames)
    (positive : 0 < frames.toNat) (room : 1 < simulator.stepLimit) :
    let next := advance simulator view playback
    next.cursor = ⟨playback.cursor.position + 1 + 1, UInt16.ofNat (2 * frames.toNat - 1)⟩ ∧
      next.machine = playback.machine.patchAt view (some (playback.cursor.position + 1)) ∧
      view.byte? next.machine.memory (playback.cursor.position + 1 + 1) =
        some Opcode.wait := by
  intro next
  obtain ⟨simulation, left⟩ := setting.run_waits simulator positive room
  have doubled : next.machine =
      playback.machine.patchAt view (some (playback.cursor.position + 1)) := left
  refine ⟨congrArg Simulation.cursor simulation, doubled, ?_⟩
  rw [doubled]
  exact setting.waits_doubled

theorem frame_of_set_wait
    (setting : playback.machine.SetsWait view playback.cursor.position frames)
    (room : 1 < simulator.stepLimit) {index : Nat} (lasts : index < 2 * frames.toNat) :
    (laterFrame simulator view playback index).simulation =
        ⟨⟨playback.cursor.position + 1 + 1, UInt16.ofNat (2 * frames.toNat - 1 - index)⟩,
          .yielded, if index = 0 then 2 else 1, []⟩ ∧
      (laterFrame simulator view playback index).machine =
        playback.machine.patchAt view (some (playback.cursor.position + 1)) := by
  have positive : 0 < frames.toNat := by omega
  cases index with
  | zero => exact setting.run_waits simulator positive room
  | succ index =>
      obtain ⟨cursor, machine, fetched⟩ := advance_at_set_wait setting positive room
      have bound := Nat.lt_of_le_of_lt (Nat.sub_le _ 1) setting.bound
      obtain ⟨answer, still⟩ := frame_at_wait cursor bound fetched
        (show index < 2 * frames.toNat - 1 by omega)
      have count : 2 * frames.toNat - 1 - 1 - index = 2 * frames.toNat - 1 - (index + 1) := by
        omega
      rw [count] at answer
      rw [later_frame_advance, answer, if_neg (Nat.succ_ne_zero index)]
      exact ⟨rfl, still.trans machine⟩

theorem frame_past_set_wait
    (setting : playback.machine.SetsWait view playback.cursor.position frames)
    (room : 1 < simulator.stepLimit) :
    let state := later simulator view playback (2 * frames.toNat)
    ∃ last, simulator.Reaches view (if frames = 0 then 2 else 1)
        (simulator.beginning state.cursor state.machine) last ∧
      last.cursor = ⟨playback.cursor.position + 1 + 1 + 1, 0⟩ ∧
      last.machine = playback.machine.patchAt view (some (playback.cursor.position + 1)) := by
  intro state
  by_cases none_left : frames = 0
  · -- A single frame sets the wait and goes past it.
    rw [if_pos none_left]
    have first : state = playback := by
      simp only [state, none_left, UInt8.toNat_zero, Nat.mul_zero]
      rfl
    rw [first]
    obtain ⟨walk, reaches, arrived, doubled, -, -⟩ := setting.reaches simulator
    have fetched : view.byte? walk.machine.memory walk.cursor.position = some Opcode.wait := by
      rw [arrived, doubled]
      exact setting.waits_doubled
    have elapsed : walk.cursor.wait = 0 := by
      rw [arrived, none_left]
      rfl
    obtain ⟨last, further, moved, still, -⟩ := reaches.past_wait fetched elapsed
    rw [arrived] at moved
    exact ⟨last, further, moved, still.trans doubled⟩
  · rw [if_neg none_left]
    have positive : 0 < frames.toNat := by
      apply Nat.pos_of_ne_zero
      intro none_stored
      exact none_left (UInt8.toNat_inj.mp none_stored)
    obtain ⟨cursor, doubled, fetched⟩ := advance_at_set_wait setting positive room
    have bound := Nat.lt_of_le_of_lt (Nat.sub_le _ 1) setting.bound
    have count : 2 * frames.toNat = 2 * frames.toNat - 1 + 1 := by omega
    have others : state = later simulator view (advance simulator view playback)
        (2 * frames.toNat - 1) := by
      rw [← later_advance, ← count]
    rw [others]
    obtain ⟨-, last, reaches, moved, still, -⟩ := frame_past_wait simulator cursor bound fetched
    exact ⟨last, reaches, moved, still.trans doubled⟩

/-- A wait with frames left gives back as many frames, each with one step that changes nothing
but the count; the next frame goes on behind the wait like a run from there with one step less
to take. A wait that is set first takes two frames for each one stored. -/
theorem wait_lasts (table : Table) (trace : TraceFlags) (limit : Nat) (view : View)
    (playback : Playback) :
    let simulator := Simulator.withLimit table trace limit
    let frame := laterFrame simulator view playback
    let position := playback.cursor.position
    let left := playback.cursor.wait.toNat
    (view.byte? playback.machine.memory position = some Opcode.wait →
      (∀ index < left,
        (frame index).simulation =
            ⟨⟨position, UInt16.ofNat (left - 1 - index)⟩, .yielded, 1, []⟩ ∧
          (frame index).machine = playback.machine) ∧
      (2 ≤ limit →
        let rest := (Simulator.withLimit table trace (limit - 1)).run view ⟨position + 1, 0⟩
          playback.machine
        (frame left).simulation.halt = rest.simulation.halt ∧
          (frame left).simulation.cursor = rest.simulation.cursor ∧
          (frame left).machine = rest.machine ∧
          (frame left).simulation.steps = rest.simulation.steps + 1)) ∧
    ∀ frames, playback.machine.SetsWait view position frames → 2 ≤ limit →
      let doubled := playback.machine.patchAt view (some (position + 1))
      let passing := later simulator view playback (2 * frames.toNat)
      (∀ index < 2 * frames.toNat,
        (frame index).simulation =
            ⟨⟨position + 1 + 1, UInt16.ofNat (2 * frames.toNat - 1 - index)⟩, .yielded,
              if index = 0 then 2 else 1, []⟩ ∧
          (frame index).machine = doubled) ∧
      ∃ last, simulator.Reaches view (if frames = 0 then 2 else 1)
          (simulator.beginning passing.cursor passing.machine) last ∧
        last.cursor = ⟨position + 1 + 1 + 1, 0⟩ ∧ last.machine = doubled := by
  intro simulator frame position left
  constructor
  · intro fetched
    have cursor : playback.cursor = ⟨position, UInt16.ofNat left⟩ := by
      rw [UInt16.ofNat_toNat]
    have bound : left < UInt16.size := playback.cursor.wait.toNat_lt
    constructor
    · intro index lasts
      exact frame_at_wait cursor bound fetched lasts
    · intro room
      obtain ⟨fewer, rfl⟩ := Nat.exists_eq_add_of_le (Nat.le_of_succ_le room)
      rw [Nat.add_sub_cancel_left]
      intro rest
      obtain ⟨-, last, reaches, moved, still, single⟩ :=
        frame_past_wait simulator cursor bound fetched
      obtain ⟨cursors, halts, steps, machines⟩ :=
        Simulator.run_resumed (show 0 < fewer by omega) reaches single
      rw [moved, still] at cursors halts steps machines
      exact ⟨halts.symm, cursors.symm, machines.symm, steps⟩
  · intro frames setting room
    have limited : simulator.stepLimit = limit := Nat.max_eq_left (by omega)
    constructor
    · intro index lasts
      exact frame_of_set_wait setting (by omega) lasts
    · exact frame_past_set_wait setting (by omega)

/-- A script that waits one frame and ends, begun at its wait with one frame left, and begun
where it sets the wait, under a limit of two steps. -/
theorem wait_lasts_at_one_frame :
    let table := Dialect.routine5C3FD5.table
    let view : View := ⟨0x1000, 4⟩
    let machine : Machine := ⟨⟨0x1000, ⟨#[0xF5, 1, 0xF4, 0xFF]⟩⟩, .active⟩
    let waiting : Playback := ⟨⟨2, 1⟩, machine, #[], #[]⟩
    let frame := laterFrame (.withLimit table .off 2) view
    let rest := (Simulator.withLimit table .off 1).run view ⟨3, 0⟩ waiting.machine
    (frame waiting 0).simulation = ⟨⟨2, 0⟩, .yielded, 1, []⟩ ∧
      (frame waiting 1).simulation.halt = rest.simulation.halt ∧
      (frame waiting 1).simulation.steps = rest.simulation.steps + 1 ∧
      (frame (begin machine) 0).simulation = ⟨⟨2, 1⟩, .yielded, 2, []⟩ ∧
      (frame (begin machine) 1).simulation = ⟨⟨2, 0⟩, .yielded, 1, []⟩ := by
  intro table view machine waiting frame rest
  have setting : machine.SetsWait view 0 1 := by
    constructor <;> decide +kernel
  have fetched : view.byte? waiting.machine.memory waiting.cursor.position =
      some Opcode.wait := by decide +kernel
  have two : 2 ≤ 2 := Nat.le_refl 2
  obtain ⟨lasts, ends⟩ := (wait_lasts table .off 2 view waiting).1 fetched
  have one : waiting.cursor.wait.toNat = 1 := rfl
  have past : waiting.cursor.position + 1 = 3 := rfl
  rw [one] at lasts ends
  rw [past, show 2 - 1 = 1 from rfl] at ends
  obtain ⟨halts, -, -, steps⟩ := ends two
  obtain ⟨yields, -⟩ := (wait_lasts table .off 2 view (begin machine)).2 1 setting two
  simp only [frame, rest]
  exact ⟨(lasts 0 (by decide)).1, halts, steps, (yields 0 (by decide)).1,
    (yields 1 (by decide)).1⟩

end Playback

end CameraScript
