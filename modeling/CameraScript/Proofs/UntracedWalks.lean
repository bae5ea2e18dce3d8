import CameraScript.Proofs.PlaybackFrames

/-!
# Walks that are traced and walks that are not

Tracing only adds to the log. Two simulators with the same table and the same limit take
a walk to the same end, whatever either of them traces: each stage of a step keeps two
walks alike that differ in nothing but their logs.
-/

namespace CameraScript

inductive Walk.Alike : Walk → Walk → Prop where
  | logs (machine : Machine) (cursor : Cursor) (restarted : Bool) (diagnostics : Array Diagnostic)
      (left right : Array Event) :
      Alike ⟨machine, cursor, restarted, diagnostics, left⟩
        ⟨machine, cursor, restarted, diagnostics, right⟩

inductive Progress.Alike : Progress → Progress → Prop where
  | resumed {left right : Walk} (alike : left.Alike right) : Alike (.resumed left) (.resumed right)
  | halted (reason : Halt) {left right : Walk} (alike : left.Alike right) :
      Alike (.halted reason left) (.halted reason right)

namespace Walk.Alike

variable {left right : Walk}

theorem fields (alike : left.Alike right) :
    left.machine = right.machine ∧ left.cursor = right.cursor ∧
      left.restarted = right.restarted ∧ left.diagnostics = right.diagnostics := by
  cases alike
  exact ⟨rfl, rfl, rfl, rfl⟩

theorem note (alike : left.Alike right) (flags other : TraceFlags) (event : Event) :
    (left.note flags event).Alike (right.note other event) := by
  cases alike
  exact .logs ..

theorem raise (alike : left.Alike right) (diagnostic : Diagnostic) :
    (left.raise diagnostic).Alike (right.raise diagnostic) := by
  cases alike
  exact .logs ..

theorem raise_all (alike : left.Alike right) (raised? : Option Diagnostic) :
    (left.raiseAll raised?).Alike (right.raiseAll raised?) := by
  cases raised? with
  | none => exact alike
  | some diagnostic => exact alike.raise diagnostic

theorem move (alike : left.Alike right) (cursor : Cursor) :
    Walk.Alike { left with cursor } { right with cursor } := by
  cases alike
  exact .logs ..

theorem enter (alike : left.Alike right) (flags other : TraceFlags) (opcode : UInt8) :
    (left.enter flags opcode).Alike (right.enter other opcode) := by
  cases alike
  exact .note (.logs ..) flags other _

theorem glance (alike : left.Alike right) (flags other : TraceFlags) (opcode : UInt8)
    (next? : Option UInt8) :
    (left.glance flags opcode next?).Alike (right.glance other opcode next?) := by
  cases next? with
  | none => exact alike
  | some next =>
      simp only [Walk.glance, alike.fields.2.1]
      by_cases looks : Control.ofOpcode? opcode = some .restart ∧ right.cursor.wait = 0
      · rw [if_pos looks, if_pos looks]
        exact alike.note flags other _
      · rw [if_neg looks, if_neg looks]
        exact alike

theorem patch_argument (alike : left.Alike right) (view : View) (position : UInt16) :
    (left.patchArgument view position).Alike (right.patchArgument view position) := by
  cases alike with
  | logs machine cursor restarted diagnostics first second =>
      simp only [Walk.patchArgument]
      split
      · rcases machine.patch (view.start + position.toUInt32) with ⟨_ | outcome, patched⟩
        · exact .halted _ (.raise (.logs ..) _)
        · simp only
          cases outcome.diagnostic? (view.start + position.toUInt32) with
          | none => exact .resumed (.logs ..)
          | some diagnostic => exact .resumed (.raise (.logs ..) _)
      · exact .halted _ (.raise (.logs ..) _)

theorem patch_at (alike : left.Alike right) (view : View) (argument? : Option UInt16) :
    (left.patchAt view argument?).Alike (right.patchAt view argument?) := by
  cases argument? with
  | none => exact .resumed alike
  | some argument => exact alike.patch_argument view argument

theorem follow (alike : left.Alike right) (turn : Turn) :
    (left.follow turn).Alike (right.follow turn) := by
  cases turn with
  | onward cursor => exact .resumed (alike.move cursor)
  | anew =>
      cases alike with
      | logs machine cursor restarted diagnostics first second =>
          cases restarted with
          | true => exact .halted _ (.logs ..)
          | false => exact .resumed (.logs ..)
  | stop reason cursor raised? => exact .halted reason ((alike.move cursor).raise_all raised?)

theorem read_then (alike : left.Alike right) (view : View) (position : UInt16)
    {first second : UInt8 → Walk → Progress}
    (next : ∀ byte, (first byte left).Alike (second byte right)) :
    (left.readThen view position first).Alike (right.readThen view position second) := by
  simp only [Walk.readThen]
  rw [alike.fields.1]
  cases view.byte? right.machine.memory position with
  | none => exact .halted _ (alike.raise _)
  | some byte => exact next byte

end Walk.Alike

theorem Progress.Alike.and_then {left right : Progress} (alike : left.Alike right)
    {first second : Walk → Progress}
    (next : ∀ {one other : Walk}, one.Alike other → (first one).Alike (second other)) :
    (left.andThen first).Alike (right.andThen second) := by
  cases alike with
  | resumed alike => exact next alike
  | halted reason alike => exact .halted reason alike

namespace Simulator

variable {simulator other : Simulator}

theorem step_alike (tables : simulator.table = other.table) (view : View) {left right : Walk}
    (alike : left.Alike right) :
    (simulator.step view left).Alike (other.step view right) := by
  obtain ⟨-, cursor, -⟩ := alike.fields
  rw [step_eq, step_eq, tables, cursor]
  refine alike.read_then view _ fun opcode => ?_
  refine ((alike.enter simulator.trace other.trace opcode).patch_at view _).and_then ?_
  intro one another patched
  obtain ⟨machine, moved, -⟩ := patched.fields
  simp only [conclude]
  rw [machine, moved, tables]
  exact (patched.glance ..).follow _

theorem walk_from_alike (tables : simulator.table = other.table) (view : View)
    (budget taken : Nat) {left right : Walk} (alike : left.Alike right) :
    ∃ halt steps one another, simulator.walkFrom view budget taken left = (halt, steps, one) ∧
      other.walkFrom view budget taken right = (halt, steps, another) ∧ one.Alike another := by
  induction budget generalizing taken left right with
  | zero => exact ⟨_, _, _, _, rfl, rfl, alike.raise _⟩
  | succ budget ih =>
      have stepped := step_alike tables view alike
      unfold walkFrom
      generalize simulator.step view left = first at stepped ⊢
      generalize other.step view right = second at stepped ⊢
      cases stepped with
      | resumed alike => exact ih (taken + 1) alike
      | halted reason alike => exact ⟨_, _, _, _, rfl, rfl, alike⟩

/-- What a simulator traces has no part in its simulations. -/
theorem run_untraced (tables : simulator.table = other.table)
    (limits : simulator.stepLimit = other.stepLimit) (view : View) (cursor : Cursor)
    (machine : Machine) :
    (simulator.run view cursor machine).simulation = (other.run view cursor machine).simulation ∧
      (simulator.run view cursor machine).machine = (other.run view cursor machine).machine := by
  have begun : (simulator.beginning cursor machine).Alike (other.beginning cursor machine) :=
    .note (.logs ..) ..
  obtain ⟨halt, steps, one, another, first, second, alike⟩ :=
    walk_from_alike tables view simulator.stepLimit 0 begun
  rw [limits] at second
  obtain ⟨simulated, left⟩ := run_of_walk_from first
  obtain ⟨again, right⟩ := run_of_walk_from second
  obtain ⟨machines, cursors, -, diagnostics⟩ := alike.fields
  rw [simulated, again, left, right, machines, cursors, diagnostics]
  exact ⟨rfl, rfl⟩

end Simulator

theorem Playback.play_untraced {simulator other : Simulator}
    (tables : simulator.table = other.table) (limits : simulator.stepLimit = other.stepLimit)
    (view : View) (frames : Nat) (machine : Machine) :
    (play simulator view frames machine).cursor = (play other view frames machine).cursor ∧
      (play simulator view frames machine).machine = (play other view frames machine).machine ∧
      (play simulator view frames machine).runs = (play other view frames machine).runs := by
  induction frames with
  | zero => exact ⟨rfl, rfl, rfl⟩
  | succ frames ih =>
      obtain ⟨cursors, machines, runs⟩ := ih
      obtain ⟨simulations, left⟩ := Simulator.run_untraced tables limits view
        (play other view frames machine).cursor (play other view frames machine).machine
      obtain ⟨first, second, third⟩ := play_next simulator view machine frames
      obtain ⟨one, two, three⟩ := play_next other view machine frames
      rw [first, second, third, one, two, three, frame, frame, cursors, machines, runs,
        simulations, left]
      exact ⟨rfl, rfl, rfl⟩

end CameraScript
