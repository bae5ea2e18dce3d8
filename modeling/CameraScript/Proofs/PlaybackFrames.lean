import CameraScript.Frames
import CameraScript.Proofs.RegionAccess
import CameraScript.Proofs.WalkStages

/-!
# The frames of a playback

A playback is told apart into its frames: each is one run from the cursor and the
machine that the frames before it left behind.
-/

namespace CameraScript

namespace Playback

variable (simulator : Simulator) (view : View) (machine : Machine)

def frame (index : Nat) : Simulated :=
  simulator.run view (play simulator view index machine).cursor
    (play simulator view index machine).machine

theorem play_next (index : Nat) :
    (play simulator view (index + 1) machine).cursor =
        (frame simulator view machine index).simulation.cursor ∧
      (play simulator view (index + 1) machine).machine =
        (frame simulator view machine index).machine ∧
      (play simulator view (index + 1) machine).runs =
        (play simulator view index machine).runs.push
          (frame simulator view machine index).simulation := by
  rw [play_succ]
  exact ⟨rfl, rfl, rfl⟩

theorem size_runs (frames : Nat) : (play simulator view frames machine).runs.size = frames := by
  induction frames with
  | zero => rfl
  | succ frames ih =>
      obtain ⟨-, -, runs⟩ := play_next simulator view machine frames
      rw [runs, Array.size_push, ih]

theorem runs_of_lt {index frames : Nat} (before : index < frames) :
    (play simulator view frames machine).runs[index]? =
      some (frame simulator view machine index).simulation := by
  induction frames with
  | zero => omega
  | succ frames ih =>
      obtain ⟨-, -, runs⟩ := play_next simulator view machine frames
      rw [runs, Array.getElem?_push, size_runs]
      by_cases last : index = frames
      · rw [if_pos last, last]
      · rw [if_neg last]
        exact ih (by omega)

end Playback

theorem ScriptPlace.view_bounds {place : ScriptPlace} {memory : Region} {view : View}
    (opened : place.view memory = .ok view) :
    view.start.toNat = memory.base.toNat + place.offset.toNat ∧
      place.offset.toNat < memory.size ∧
      place.offset.toNat + view.length ≤ memory.size := by
  simp only [ScriptPlace.view] at opened
  split at opened
  · rename_i inSpace
    have whole : (memory.base + place.offset).toNat =
        memory.base.toNat + place.offset.toNat := by
      rw [UInt32.toNat_add]
      exact Nat.mod_eq_of_lt inSpace
    cases found : memory.view (memory.base + place.offset) with
    | error fault =>
        rw [found] at opened
        contradiction
    | ok script =>
        obtain ⟨start, ends, filled⟩ := Region.view_extent found
        rw [found] at opened
        cases opened
        rw [whole, Region.finish] at ends
        rw [Region.size]
        cases place.length? with
        | none =>
            rw [Option.elim_none, start]
            exact ⟨whole, by omega, by omega⟩
        | some length =>
            simp only [Option.elim_some, View.truncate, start]
            exact ⟨whole, by omega, by omega⟩
  · contradiction

theorem simulate_frames_of_view {simulator : Simulator} {place : ScriptPlace} {view : View}
    {machine : Machine} (opened : place.view machine.memory = .ok view) (frames : Nat) :
    simulateFrames simulator place frames machine =
      .ok (Playback.play simulator view frames machine) := by
  unfold simulateFrames
  rw [opened]

end CameraScript
