import CameraScript.Simulator

/-!
A script over several frames: each frame walks on from where the last one ended.
Frame numbers are counted by repetition of one advance, so that what holds after a
frame is derived from what held after the frame before it.
-/

namespace CameraScript

/-- The state between two frames, with all that earlier frames produced. -/
structure Playback where
  cursor : Cursor
  machine : Machine
  runs : Array Simulation
  log : Array Event

namespace Playback

def begin (machine : Machine) : Playback :=
  ⟨.start, machine, #[], #[]⟩

def advance (simulator : Simulator) (view : View) : Playback → Playback
  | ⟨cursor, machine, runs, log⟩ =>
      match simulator.run view cursor machine with
      | ⟨simulation, after, added⟩ =>
          ⟨simulation.cursor, after, runs.push simulation, log ++ added⟩

def play (simulator : Simulator) (view : View) (frames : Nat) (machine : Machine) : Playback :=
  Nat.repeat (advance simulator view) frames (begin machine)

theorem play_succ (simulator : Simulator) (view : View) (frames : Nat) (machine : Machine) :
    play simulator view (frames + 1) machine =
      advance simulator view (play simulator view frames machine) :=
  rfl

end Playback

inductive FramesError where
  | offsetOverflow
  | outOfRange (fault : OutOfRange)
  deriving DecidableEq, Repr

def FramesError.message : FramesError → String
  | offsetOverflow => "script offset overflows the address space"
  | outOfRange fault => fault.message

/-- A script inside a dump: its offset, and its length where the dump goes on. -/
structure ScriptPlace where
  offset : UInt32
  length? : Option Nat

/-- The view of the script. The offset is added to the base in unbounded arithmetic. -/
def ScriptPlace.view (place : ScriptPlace) (memory : Region) : Except FramesError View :=
  if memory.base.toNat + place.offset.toNat < UInt32.size then
    match memory.view (memory.base + place.offset) with
    | .ok view => .ok (place.length?.elim view view.truncate)
    | .error fault => .error (.outOfRange fault)
  else
    .error .offsetOverflow

/-- Walks a script of a dump once per frame. -/
def simulateFrames (simulator : Simulator) (place : ScriptPlace) (frames : Nat)
    (machine : Machine) : Except FramesError Playback :=
  match place.view machine.memory with
  | .ok view => .ok (Playback.play simulator view frames machine)
  | .error fault => .error fault

end CameraScript
