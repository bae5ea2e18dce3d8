import CameraScript.Proofs.PatchAccounting
import CameraScript.Proofs.WalkReplay

/-!
# Frames that repeat for ever

A frame that ends at the end mark, past the end of the script, or with a second
restart leaves a cursor and a machine from which the next frame ends in the same way
and leaves the same again. For the restart this is a replay: the pass that was cut
short is walked twice more over its own final bytes.
-/

namespace CameraScript

/-- The halts that a script does not leave again. -/
def Halt.Settled (halt : Halt) : Prop :=
  halt = .terminal Opcode.finish ∨ halt = .overrun ∨ halt = .restarted

namespace Simulator

variable {simulator : Simulator} {view : View}

/-- A run that ends where it started and changes nothing. -/
structure Rests (simulator : Simulator) (view : View) (halt : Halt) (cursor : Cursor)
    (machine : Machine) : Prop where
  halts : (simulator.run view cursor machine).simulation.halt = halt
  returns : (simulator.run view cursor machine).simulation.cursor = cursor
  unchanged : (simulator.run view cursor machine).machine = machine

theorem rests_of_reaches {steps : Nat} {halt : Halt} {cursor : Cursor} {machine : Machine}
    {last final : Walk}
    (reaches : simulator.Reaches view steps (simulator.beginning cursor machine) last)
    (halted : simulator.step view last = .halted halt final) (few : steps < simulator.stepLimit)
    (returned : final.cursor = cursor) (unchanged : final.machine = machine) :
    simulator.Rests view halt cursor machine := by
  obtain ⟨simulation, left⟩ := run_of_walk_from (walk_from_of_reaches reaches halted 0 few)
  exact {
    halts := by rw [simulation]
    returns := by rw [simulation, returned]
    unchanged := left.trans unchanged }

theorem rests_of_step {halt : Halt} {cursor : Cursor} {machine : Machine} {final : Walk}
    (halted : simulator.step view (simulator.beginning cursor machine) = .halted halt final)
    (returned : final.cursor = cursor) (unchanged : final.machine = machine) :
    simulator.Rests view halt cursor machine :=
  rests_of_reaches (.refl _) halted simulator.stepLimit_pos returned unchanged

theorem run_last_step (simulator : Simulator) (view : View) (cursor : Cursor) (machine : Machine)
    (ends : (simulator.run view cursor machine).simulation.halt ≠ .stepBudget) :
    ∃ steps last final,
      simulator.Reaches view steps (simulator.beginning cursor machine) last ∧
        simulator.step view last =
          .halted (simulator.run view cursor machine).simulation.halt final ∧
        (simulator.run view cursor machine).simulation.cursor = final.cursor ∧
        (simulator.run view cursor machine).machine = final.machine := by
  obtain ⟨steps, last, reaches, -, halted⟩ :=
    walk_from_reaches simulator.stepLimit 0 (simulator.beginning cursor machine) ends
  exact ⟨steps, last, _, reaches, halted, rfl, rfl⟩

theorem rests_after_overrun {cursor : Cursor} {machine : Machine}
    (overran : (simulator.run view cursor machine).simulation.halt = .overrun) :
    simulator.Rests view .overrun (simulator.run view cursor machine).simulation.cursor
      (simulator.run view cursor machine).machine := by
  obtain ⟨steps, last, final, -, halted, moved, left⟩ :=
    run_last_step simulator view cursor machine (by rw [overran]; simp)
  rw [overran] at halted
  rw [moved, left]
  -- In all three cases the cursor is left on the byte that could not be read.
  have absent : view.byte? final.machine.memory final.cursor.position = none := by
    rcases step_halted halted with
      ⟨-, rfl, absent⟩ | ⟨fault, -⟩ | ⟨opcode, ready, -, machine, -, stopped | anew⟩
    · exact absent
    · contradiction
    · obtain ⟨raised?, turned, -⟩ := stopped
      rcases Table.turn_stop turned with
        ⟨yielded, -⟩ | ⟨-, absent, after, -⟩ | ⟨unknown, -⟩ | ⟨descriptor, ended, -⟩
      · contradiction
      · rw [machine, after]
        exact absent
      · contradiction
      · contradiction
    · have restarted := anew.2.2.1
      contradiction
  have again := simulator.step_of_absent (simulator.beginning final.cursor final.machine) absent
  exact rests_of_step again rfl rfl

theorem rests_after_terminal {dialect : Dialect} (standard : simulator.table = dialect.table)
    {cursor : Cursor} {machine : Machine}
    (ended : (simulator.run view cursor machine).simulation.halt = .terminal Opcode.finish) :
    simulator.Rests view (.terminal Opcode.finish)
      (simulator.run view cursor machine).simulation.cursor
      (simulator.run view cursor machine).machine := by
  obtain ⟨steps, last, final, -, halted, moved, left⟩ :=
    run_last_step simulator view cursor machine (by rw [ended]; simp)
  rw [ended] at halted
  rw [moved, left]
  have entry : simulator.table.get? Opcode.finish = some ⟨-1, none, true⟩ := by
    rw [standard]
    exact dialect.get_finish
  have control : Control.ofOpcode? Opcode.finish = none := by decide
  have undoubled (position : UInt16) :
      simulator.table.doubledAt? Opcode.finish position = none := by
    simp only [Table.doubledAt?, control, entry]
    rfl
  rcases step_halted halted with ⟨overrun, -⟩ | ⟨fault, -⟩ |
    ⟨opcode, ready, prepared, machine, -, ⟨raised?, turned, -⟩ | ⟨-, -, restarted, -⟩⟩
  · contradiction
  · contradiction
  · rcases Table.turn_stop turned with ⟨yielded, -⟩ | ⟨overrun, -⟩ | ⟨unknown, -⟩ |
      ⟨descriptor, same, -, found, -, after, -⟩
    · contradiction
    · contradiction
    · contradiction
    · cases same
      cases Option.some.inj (entry.symm.trans found)
      have unchanged : final.machine = last.machine := by
        rw [machine, prepared.machine, undoubled]
        rfl
      have returned : final.cursor = last.cursor := by
        rw [after, Table.parked_position]
      let walk := simulator.beginning final.cursor final.machine
      have fetched : view.byte? walk.machine.memory walk.cursor.position =
          some Opcode.finish := by
        change view.byte? final.machine.memory final.cursor.position = _
        rw [unchanged, returned]
        exact prepared.fetched
      -- Nothing is doubled at the end mark, so the step over it can be taken again.
      obtain ⟨again, -, still, stepped⟩ := step_of_settled fetched
        fun argument doubled => by
          rw [undoubled] at doubled
          contradiction
      have ends (next? : Option UInt8) :
          simulator.table.turn view.length Opcode.finish final.cursor next? =
            .stop (.terminal Opcode.finish) final.cursor none := by
        simp only [Table.turn, control, entry, Table.parked_position, if_true]
      rw [turnAt] at stepped
      have closes := stepped.trans (congrArg again.follow (ends _))
      exact rests_of_step closes rfl still
  · contradiction

theorem reaches_split {steps : Nat} {walk last : Walk}
    (reaches : simulator.Reaches view steps walk last) (first : walk.restarted = false)
    (second : last.restarted = true) :
    ∃ count taken begun,
      simulator.step view taken = .resumed begun ∧ begun.cursor = .start ∧
        begun.restarted = true ∧ simulator.Reaches view count begun last := by
  induction reaches with
  | refl =>
      rw [first] at second
      contradiction
  | step resumed rest ih =>
      obtain ⟨opcode, ready, -, -, -, ⟨-, kept⟩ | ⟨-, -, start, restarted⟩⟩ :=
        step_resumed resumed
      · exact ih (kept.trans first) second
      · exact ⟨_, _, _, resumed, start, restarted, rest⟩

/-- A step that cuts a walk off at its second restart changes nothing, and from the
same place with the same machine it can be taken again: first it leads back to the
start, then it cuts the walk off. -/
theorem restart_again (fits : simulator.table.Fits view.length) {last final : Walk}
    (halted : simulator.step view last = .halted .restarted final) :
    last.restarted = true ∧ final.cursor = .start ∧ final.machine = last.machine ∧
      last.cursor.position.toNat + 1 < view.length ∧
      ∀ again : Walk, again.cursor = last.cursor → again.machine = last.machine →
        ∃ begun, begun.cursor = .start ∧ begun.machine = last.machine ∧
          begun.restarted = true ∧
          simulator.step view again =
            if again.restarted then .halted .restarted begun else .resumed begun := by
  rcases step_halted halted with
    ⟨overrun, -⟩ | ⟨fault, -⟩ | ⟨opcode, ready, prepared, machine, -, stopped | anew⟩
  · contradiction
  · contradiction
  · obtain ⟨raised?, turned, -⟩ := stopped
    rcases Table.turn_stop turned with
      ⟨other, -⟩ | ⟨other, -⟩ | ⟨other, -⟩ | ⟨descriptor, other, -⟩ <;> contradiction
  · obtain ⟨turned, restarted, -, start, -⟩ := anew
    obtain ⟨-, -, marked⟩ := Table.turn_anew turned
    obtain ⟨unchanged, repeats⟩ := step_of_anew prepared turned
    have inside := View.inside_of_byte prepared.fetched
    have after := View.inside_of_byte marked
    have room := fits opcode
    have single := simulator.table.one_le_span opcode
    rw [Table.to_nat_add_one (by omega)] at after
    exact ⟨restarted, start, machine.trans unchanged, after, repeats⟩

theorem rests_after_restart (fits : simulator.table.Fits view.length)
    (ahead : simulator.table.PatchesAhead view.length)
    (enough : 2 * view.length ≤ simulator.stepLimit) {cursor : Cursor} {machine : Machine}
    (cut : (simulator.run view cursor machine).simulation.halt = .restarted) :
    (simulator.run view cursor machine).simulation.cursor = .start ∧
      simulator.Rests view .restarted .start (simulator.run view cursor machine).machine := by
  obtain ⟨steps, last, final, reaches, halted, moved, left⟩ :=
    run_last_step simulator view cursor machine (by rw [cut]; simp)
  rw [cut] at halted
  obtain ⟨restarted, start, unchanged, inside, repeats⟩ := restart_again fits halted
  obtain ⟨count, taken, begun, -, origin, second, pass⟩ := reaches_split reaches rfl restarted
  have single : last.restarted = begun.restarted := restarted.trans second.symm
  have covered := (pass.kept fits ahead single).1
  -- The pass that was cut off is walked again up to its restart, which is now the first one.
  let again := simulator.beginning .start last.machine
  have begins : again.cursor = begun.cursor := origin.symm
  obtain ⟨middle, reached, arrived, still, flag⟩ := pass.replay fits ahead single begins rfl
  obtain ⟨renewed, renewedStart, renewedMachine, renewedFlag, resumed⟩ :=
    repeats middle arrived still
  have fresh : middle.restarted = false := flag
  rw [fresh, if_neg Bool.false_ne_true] at resumed
  -- Behind it the pass is walked once more, and its restart is the second one.
  obtain ⟨finish, reachedAgain, arrivedAgain, stillAgain, flagAgain⟩ :=
    pass.replay fits ahead single (renewedStart.trans origin.symm) renewedMachine
  obtain ⟨stopped, stoppedStart, stoppedMachine, -, ended⟩ :=
    repeats finish arrivedAgain stillAgain
  rw [flagAgain.trans renewedFlag, if_pos rfl] at ended
  have whole := reached.trans (.step resumed reachedAgain)
  refine ⟨moved.trans start, ?_⟩
  rw [left, unchanged]
  exact rests_of_reaches whole ended (by omega) stoppedStart stoppedMachine

theorem rests_after_settled {dialect : Dialect} (standard : simulator.table = dialect.table)
    (short : view.length ≤ 65523) (enough : 2 * view.length ≤ simulator.stepLimit)
    {cursor : Cursor} {machine : Machine}
    (settled : (simulator.run view cursor machine).simulation.halt.Settled) :
    ((simulator.run view cursor machine).simulation.halt = .restarted →
        (simulator.run view cursor machine).simulation.cursor = .start) ∧
      simulator.Rests view (simulator.run view cursor machine).simulation.halt
        (simulator.run view cursor machine).simulation.cursor
        (simulator.run view cursor machine).machine := by
  rcases settled with ended | overran | cut
  · rw [ended]
    exact ⟨by simp, rests_after_terminal standard ended⟩
  · rw [overran]
    exact ⟨by simp, rests_after_overrun overran⟩
  · have fits : simulator.table.Fits view.length := standard ▸ dialect.fits short
    have ahead : simulator.table.PatchesAhead view.length :=
      standard ▸ dialect.patches_ahead short
    obtain ⟨start, rests⟩ := rests_after_restart fits ahead enough cut
    rw [cut, start]
    exact ⟨fun _ => rfl, rests⟩

theorem Rests.passages_unchanged {halt : Halt} {cursor : Cursor} {machine : Machine}
    (rests : simulator.Rests view halt cursor machine) :
    ∀ moment ∈ simulator.runPassages view cursor machine, moment.after = machine := by
  have connected := simulator.run_passages_connected view cursor machine
  rw [rests.unchanged] at connected
  exact Passage.connected_unchanged connected (simulator.passages_lawful view _ _)
    fun _ known => known

end Simulator

namespace Playback

def framePassages (simulator : Simulator) (view : View) (machine : Machine) (index : Nat) :
    List Passage :=
  simulator.runPassages view (play simulator view index machine).cursor
    (play simulator view index machine).machine

/-- Once a frame has left what the next frame leaves alone, all later frames do. -/
theorem rests_onward {simulator : Simulator} {view : View} {machine : Machine}
    {earlier later : Nat} {halt : Halt} {cursor : Cursor} {settled : Machine}
    (rests : simulator.Rests view halt cursor settled)
    (moved : (frame simulator view machine earlier).simulation.cursor = cursor)
    (left : (frame simulator view machine earlier).machine = settled) (order : earlier < later) :
    (play simulator view later machine).cursor = cursor ∧
      (play simulator view later machine).machine = settled := by
  induction order with
  | refl =>
      obtain ⟨next, after, -⟩ := play_next simulator view machine earlier
      exact ⟨next.trans moved, after.trans left⟩
  | @step later order ih =>
      obtain ⟨next, after, -⟩ := play_next simulator view machine later
      rw [next, after, frame, ih.1, ih.2]
      exact ⟨rests.returns, rests.unchanged⟩

end Playback

/-- After a frame that ended at the end mark, past the end of the script or with a
second restart, every frame ends in the same way at the same cursor, and no moment of
any of them changes a byte or the record. -/
theorem simulate_frames_settled (dialect : Dialect) (trace : TraceFlags) (limit frames : Nat)
    (place : ScriptPlace) (machine : Machine) (view : View)
    (opened : place.view machine.memory = .ok view) (short : view.length ≤ 65523)
    (enough : max 1 (2 * view.length) ≤ limit) :
    let simulator := Simulator.withLimit dialect.table trace limit
    let playback := Playback.play simulator view frames machine
    simulateFrames simulator place frames machine = .ok playback ∧
      ∀ earlier run, playback.runs[earlier]? = some run → run.halt.Settled →
        (run.halt = .restarted → run.cursor = .start) ∧
          (∀ later again, earlier ≤ later → playback.runs[later]? = some again →
            again.halt = run.halt ∧ again.cursor = run.cursor) ∧
          playback.machine = (Playback.frame simulator view machine earlier).machine ∧
          ∀ later, earlier < later → later < frames →
            ∀ moment ∈ Playback.framePassages simulator view machine later,
              moment.after = playback.machine := by
  intro simulator playback
  refine ⟨simulate_frames_of_view opened frames, ?_⟩
  intro earlier run found settled
  have inside : earlier < frames := by
    have bound := (Array.getElem?_eq_some_iff.mp found).1
    rwa [Playback.size_runs] at bound
  rw [Playback.runs_of_lt simulator view machine inside] at found
  cases found
  have limit : 2 * view.length ≤ simulator.stepLimit := by
    change 2 * view.length ≤ max limit 1
    omega
  have standard : simulator.table = dialect.table := rfl
  obtain ⟨start, rests⟩ := Simulator.rests_after_settled standard short limit settled
  have resting (later : Nat) (after : earlier < later) :=
    Playback.rests_onward rests rfl rfl after
  have final := (resting frames inside).2
  refine ⟨start, ?_, final, ?_⟩
  · intro later again order present
    have bound := (Array.getElem?_eq_some_iff.mp present).1
    rw [Playback.size_runs] at bound
    rw [Playback.runs_of_lt simulator view machine bound] at present
    cases present
    by_cases same : later = earlier
    · rw [same]
      exact ⟨rfl, rfl⟩
    · obtain ⟨cursor, same⟩ := resting later (by omega)
      rw [Playback.frame, cursor, same]
      exact ⟨rests.halts, rests.returns⟩
  · intro later after bound moment member
    obtain ⟨cursor, same⟩ := resting later after
    rw [Playback.framePassages, cursor, same] at member
    rw [final]
    exact rests.passages_unchanged moment member

/-- The first frame of this script still doubles an argument; from its second restart
on nothing changes. -/
theorem simulate_frames_settled_at_restart :
    let machine : Machine := ⟨⟨0x1000, ⟨#[0xE2, 3, 0xFE, 0xC0]⟩⟩, .active⟩
    let simulator := Simulator.withLimit Dialect.routine5C3FD5.table ⟨false, false⟩ 8
    let playback := Playback.play simulator ⟨0x1000, 4⟩ 3 machine
    (∃ run, playback.runs[0]? = some run ∧ run.halt = .restarted) ∧
      (∀ again, playback.runs[2]? = some again → again.halt = .restarted ∧ again.cursor = .start) ∧
      playback.machine.memory.bytes = #[0xE2, 6, 0xFE, 0xC0] := by
  intro machine simulator playback
  obtain ⟨-, settles⟩ := simulate_frames_settled .routine5C3FD5 ⟨false, false⟩ 8 3 ⟨0, none⟩
    machine ⟨0x1000, 4⟩ (by cbv) (by decide) (by decide)
  have first : playback.runs[0]? = some ⟨.start, .restarted, 4, []⟩ := by decide +kernel
  obtain ⟨-, later, -⟩ := settles 0 _ first (.inr (.inr rfl))
  exact ⟨⟨_, first, rfl⟩, fun again present => later 2 again (by decide) present,
    by decide +kernel⟩

end CameraScript
