import CameraScript.Proofs.InstructionBoundaries

/-!
# Two walks in step

A dry walk doubles nothing, a real walk doubles the arguments that it comes to. As
long as no argument overflows both read the same opcodes, turn alike and differ only
in the frames left to wait, of which the real walk has twice as many.
-/

namespace CameraScript

/-- Both waits lose one frame at a yield, and `2 * w - 1` is one more than `2 * (w - 1)`. -/
def Halt.surplus (halt : Halt) : Nat :=
  if halt = .yielded then 1 else 0

inductive Turn.InStep : Turn → Turn → Prop where
  | onward {position dry real : UInt16} (wait : real.toNat = 2 * dry.toNat) :
      InStep (.onward ⟨position, dry⟩) (.onward ⟨position, real⟩)
  | anew : InStep .anew .anew
  | stop {reason : Halt} {position dry real : UInt16} {raised? : Option Diagnostic}
      (wait : real.toNat = 2 * dry.toNat + reason.surplus) :
      InStep (.stop reason ⟨position, dry⟩ raised?) (.stop reason ⟨position, real⟩ raised?)

theorem to_nat_sub_one {wait : UInt16} (left : wait.toNat ≠ 0) :
    (wait - 1).toNat = wait.toNat - 1 := by
  have one_le : (1 : UInt16) ≤ wait := by
    rw [UInt16.le_iff_toNat_le, UInt16.toNat_one]
    omega
  rw [UInt16.toNat_sub_of_le _ _ one_le, UInt16.toNat_one]

namespace Table

theorem turn_in_step (table : Table) (length : Nat) (opcode : UInt8) (position : UInt16)
    {dry real : UInt16} {dryNext? realNext? : Option UInt8} (wait : real.toNat = 2 * dry.toNat)
    (peeked : Control.ofOpcode? opcode = some .restart → realNext? = dryNext?)
    (loaded : Control.ofOpcode? opcode = some .setWait → ∃ frames twice,
      dryNext? = some frames ∧ realNext? = some twice ∧ twice.toNat = 2 * frames.toNat) :
    Turn.InStep (table.turn length opcode ⟨position, dry⟩ dryNext?)
      (table.turn length opcode ⟨position, real⟩ realNext?) := by
  have elapsed : real = 0 ↔ dry = 0 := by
    rw [← UInt16.toNat_inj, ← UInt16.toNat_inj, wait, UInt16.toNat_zero]
    omega
  simp only [turn]
  cases control : Control.ofOpcode? opcode with
  | none =>
      cases table.get? opcode with
      | none => exact .stop wait
      | some descriptor =>
          simp only
          split
          · exact .stop wait
          · exact .onward wait
  | some kind =>
      cases kind with
      | wait =>
          simp only [elapsed]
          split
          · exact .onward wait
          · rename_i waiting
            refine .stop ?_
            have left : dry.toNat ≠ 0 := fun none_left => waiting (UInt16.toNat_inj.mp none_left)
            rw [to_nat_sub_one left, to_nat_sub_one (by omega)]
            simp only [Halt.surplus, if_true]
            omega
      | setWait =>
          obtain ⟨frames, twice, found, doubled, double⟩ := loaded control
          rw [found, doubled]
          exact .onward (by simpa using double)
      | restart =>
          rw [peeked control]
          simp only [elapsed]
          split
          · cases dryNext? with
            | none => exact .stop wait
            | some next =>
                simp only
                split
                · exact .anew
                · exact .onward wait
          · exact .onward wait

end Table

/-- A dry walk and a real walk over the same script that agree in all but the doubled
bytes and the frames to wait. -/
structure Walk.InStep (table : Table) (view : View) (original : Region) (surplus : Nat)
    (dry real : Walk) : Prop where
  resting : dry.machine = ⟨original, .inactive⟩
  doubled : real.machine.Doubled table view original
  position : real.cursor.position = dry.cursor.position
  wait : real.cursor.wait.toNat = 2 * dry.cursor.wait.toNat + surplus
  restarted : real.restarted = dry.restarted
  diagnostics : real.diagnostics.toList = dry.diagnostics.toList

/-- Where a walk goes on, or will be taken up again in the next frame, it stands at an
instruction, and in the latter case at a wait. -/
inductive Progress.InStep (table : Table) (view : View) (original : Region) :
    Progress → Progress → Prop where
  | resumed {dry real : Walk} (alike : dry.InStep table view original 0 real)
      (begins : table.AtBoundary view original dry.cursor.position) :
      InStep table view original (.resumed dry) (.resumed real)
  | halted {reason : Halt} {dry real : Walk}
      (alike : dry.InStep table view original reason.surplus real)
      (waiting : reason = .yielded → table.AtBoundary view original dry.cursor.position ∧
        view.byte? original dry.cursor.position = some Opcode.wait) :
      InStep table view original (.halted reason dry) (.halted reason real)

def Diagnostic.Overflow : Diagnostic → Prop
  | argumentOverflow _ _ _ => True
  | _ => False

theorem Machine.overflow_at_some {view : View} {machine : Machine} {argument? : Option UInt16}
    {diagnostic : Diagnostic} (raised : machine.overflowAt? view argument? = some diagnostic) :
    diagnostic.Overflow := by
  cases argument? with
  | none => contradiction
  | some argument =>
      simp only [overflowAt?] at raised
      split at raised
      · rename_i outcome accepted
        cases outcome with
        | overflowed before after =>
            cases raised
            trivial
        | doubled before after => contradiction
        | alreadyPatched => contradiction
        | disabled => contradiction
      · contradiction

theorem Machine.patch_at_of_disabled (view : View) {machine : Machine}
    (off : machine.patcher.enabled = false) (argument? : Option UInt16) :
    machine.patchAt view argument? = machine ∧ machine.overflowAt? view argument? = none := by
  cases argument? with
  | none => exact ⟨rfl, rfl⟩
  | some argument =>
      simp only [patchAt, overflowAt?, patch_of_disabled off, true_and]
      rfl

namespace Walk

theorem follow_diagnostics (ready : Walk) (turn : Turn) :
    ready.diagnostics.toList <+: (ready.follow turn).walk.diagnostics.toList := by
  cases turn with
  | onward cursor => exact List.prefix_rfl
  | anew =>
      simp only [follow]
      split <;> exact List.prefix_rfl
  | stop reason cursor raised? =>
      cases raised? with
      | none => exact List.prefix_rfl
      | some diagnostic => exact ⟨[diagnostic], Array.toList_push.symm⟩

theorem InStep.raise {table : Table} {view : View} {original : Region} {surplus : Nat}
    {dry real : Walk} (alike : dry.InStep table view original surplus real)
    (diagnostic : Diagnostic) :
    (dry.raise diagnostic).InStep table view original surplus (real.raise diagnostic) where
  resting := alike.resting
  doubled := alike.doubled
  position := alike.position
  wait := alike.wait
  restarted := alike.restarted
  diagnostics := by simp only [Walk.raise, Array.toList_push, alike.diagnostics]

theorem InStep.follow {table : Table} {view : View} {original : Region} {surplus : Nat}
    {dry real : Walk} {dryTurn realTurn : Turn}
    (alike : dry.InStep table view original surplus real) (turns : dryTurn.InStep realTurn)
    (onward : ∀ cursor, dryTurn = .onward cursor →
      table.AtBoundary view original cursor.position)
    (waiting : ∀ cursor raised?, dryTurn = .stop .yielded cursor raised? →
      table.AtBoundary view original cursor.position ∧
        view.byte? original cursor.position = some Opcode.wait) :
    (dry.follow dryTurn).InStep table view original (real.follow realTurn) := by
  obtain ⟨resting, doubled, -, -, restarted, diagnostics⟩ := alike
  cases turns with
  | onward wait =>
      exact .resumed ⟨resting, doubled, rfl, wait, restarted, diagnostics⟩ (onward _ rfl)
  | anew =>
      simp only [Walk.follow, restarted]
      split
      · exact .halted ⟨resting, doubled, rfl, rfl, rfl, diagnostics⟩ (by simp)
      · exact .resumed ⟨resting, doubled, rfl, rfl, rfl, diagnostics⟩ Table.at_boundary_start
  | @stop reason position dryWait realWait raised? wait =>
      cases raised? with
      | none =>
          refine .halted ⟨resting, doubled, rfl, wait, restarted, diagnostics⟩ ?_
          intro yielded
          subst yielded
          exact waiting _ _ rfl
      | some diagnostic =>
          have stopped : Walk.InStep table view original reason.surplus
              { dry with cursor := ⟨position, dryWait⟩ }
              { real with cursor := ⟨position, realWait⟩ } :=
            ⟨resting, doubled, rfl, wait, restarted, diagnostics⟩
          refine .halted (stopped.raise diagnostic) ?_
          intro yielded
          subst yielded
          exact waiting _ _ rfl

end Walk

namespace Simulator

variable {simulator : Simulator} {view : View} {original : Region} {dry real : Walk}

theorem step_diagnostics (simulator : Simulator) (view : View) (walk : Walk) :
    walk.diagnostics.toList <+: (simulator.step view walk).walk.diagnostics.toList := by
  obtain ⟨argument?, others, -, -, raised, -⟩ := simulator.step_effects view walk
  rw [raised, List.append_assoc]
  apply List.prefix_append

theorem walk_from_diagnostics (simulator : Simulator) (view : View) (budget taken : Nat)
    (walk : Walk) :
    walk.diagnostics.toList <+:
      (simulator.walkFrom view budget taken walk).2.2.diagnostics.toList := by
  induction budget generalizing taken walk with
  | zero => exact ⟨_, Array.toList_push.symm⟩
  | succ budget ih =>
      have raised := simulator.step_diagnostics view walk
      unfold walkFrom
      cases stepped : simulator.step view walk with
      | resumed next =>
          rw [stepped] at raised
          exact raised.trans (ih (taken + 1) next)
      | halted reason final =>
          rw [stepped] at raised
          exact raised

theorem step_of_inside (walk : Walk) {opcode : UInt8}
    (readable : view.Readable walk.machine.memory)
    (fetched : view.byte? walk.machine.memory walk.cursor.position = some opcode)
    (inside : ∀ argument, simulator.table.doubledAt? opcode walk.cursor.position = some argument →
      argument.toNat < view.length) :
    ∃ ready, walk.Ready simulator.table view opcode ready ∧
      simulator.step view walk =
        ready.follow (simulator.turnAt view opcode walk.cursor ready.machine.memory) := by
  apply simulator.step_of_accepted walk fetched
  intro argument doubled
  have reached := inside argument doubled
  obtain ⟨byte, here⟩ := readable argument reached
  obtain ⟨addr, named, present⟩ := Option.bind_eq_some_iff.mp here
  obtain ⟨-, rfl⟩ := View.addr_of_eq_some_iff.mp named
  exact ⟨reached, Machine.patch_ok_of_byte present⟩

theorem inside_of_doubled_at {dialect : Dialect} (short : view.length ≤ 65523)
    {position argument : UInt16} {opcode : UInt8}
    (begins : dialect.table.AtBoundary view original position)
    (fetched : view.byte? original position = some opcode)
    (doubled : dialect.table.doubledAt? opcode position = some argument) :
    dialect.table.InsideInstruction view original argument := by
  have inside := View.inside_of_byte fetched
  have room := dialect.fits short opcode
  obtain ⟨after, before⟩ := Dialect.doubled_at_inside (by omega) doubled
  exact ⟨position, opcode, begins, fetched, after, before⟩

theorem ready_in_step {dialect : Dialect} (short : view.length ≤ 65523) {opcode : UInt8}
    {dryReady realReady : Walk} (alike : dry.InStep dialect.table view original 0 real)
    (begins : dialect.table.AtBoundary view original dry.cursor.position)
    (fetched : view.byte? original dry.cursor.position = some opcode)
    (dryPrepared : dry.Ready dialect.table view opcode dryReady)
    (realPrepared : real.Ready dialect.table view opcode realReady)
    (calm : ∀ diagnostic ∈ realReady.diagnostics.toList, ¬ diagnostic.Overflow) :
    dryReady.InStep dialect.table view original 0 realReady := by
  have disabled : dry.machine.patcher.enabled = false := by
    rw [alike.resting]
    rfl
  obtain ⟨still, silent⟩ := Machine.patch_at_of_disabled view disabled
    (dialect.table.doubledAt? opcode dry.cursor.position)
  have quiet : real.machine.overflowAt? view
      (dialect.table.doubledAt? opcode real.cursor.position) = none := by
    refine Option.eq_none_iff_forall_ne_some.mpr fun diagnostic raised => ?_
    refine calm diagnostic ?_ (Machine.overflow_at_some raised)
    rw [realPrepared.diagnostics, raised]
    simp
  exact {
    resting := by rw [dryPrepared.machine, still, alike.resting]
    doubled := by
      rw [realPrepared.machine]
      refine alike.doubled.patch_at ?_ quiet
      intro argument doubled
      rw [alike.position] at doubled
      exact inside_of_doubled_at short begins fetched doubled
    position := by rw [realPrepared.cursor, dryPrepared.cursor, alike.position]
    wait := by
      rw [realPrepared.cursor, dryPrepared.cursor]
      exact alike.wait
    restarted := by rw [realPrepared.restarted, dryPrepared.restarted, alike.restarted]
    diagnostics := by
      rw [realPrepared.diagnostics, dryPrepared.diagnostics, quiet, silent, alike.diagnostics] }

theorem turn_in_step {dialect : Dialect} (standard : simulator.table = dialect.table)
    (short : view.length ≤ 65523) (readable : view.Readable original) {opcode : UInt8}
    {realReady : Walk} {dryCursor : Cursor}
    (begins : dialect.table.AtBoundary view original dryCursor.position)
    (fetched : view.byte? original dryCursor.position = some opcode)
    (position : real.cursor.position = dryCursor.position)
    (wait : real.cursor.wait.toNat = 2 * dryCursor.wait.toNat)
    (doubled : realReady.machine.Doubled dialect.table view original)
    (realPrepared : real.Ready dialect.table view opcode realReady) :
    (simulator.turnAt view opcode dryCursor original).InStep
      (simulator.turnAt view opcode real.cursor realReady.machine.memory) := by
  obtain ⟨spot, dryWait⟩ := dryCursor
  obtain ⟨machine, ⟨realSpot, realWait⟩, restarted, diagnostics, log⟩ := real
  change realSpot = spot at position
  subst position
  have inside : realSpot.toNat < view.length := View.inside_of_byte fetched
  have past : (realSpot + 1).toNat = realSpot.toNat + 1 := Table.to_nat_add_one (by omega)
  simp only [turnAt, standard]
  refine Table.turn_in_step _ _ _ _ wait ?_ ?_
  · intro control
    have single : dialect.table.span opcode = 1 := by simp only [Table.span, control]
    apply doubled.byte_at_boundary
    exact Table.at_boundary_next begins fetched (by rw [past, single])
  · intro control
    have argument : dialect.table.doubledAt? opcode realSpot = some (realSpot + 1) := by
      simp only [Table.doubledAt?, control]
    -- The wait that is loaded was doubled before, now or in an earlier frame.
    obtain ⟨reached, settled⟩ := realPrepared.settled _ argument
    obtain ⟨frames, loaded⟩ := readable _ reached
    have known := settled.resolve_left (by rw [doubled.enabled]; simp)
    obtain ⟨twice, found, double⟩ := doubled.byte_of_argument known loaded
    exact ⟨frames, twice, loaded, found, double⟩

/-- One step keeps a real walk in step with the dry one, unless an argument overflows. -/
theorem step_in_step {dialect : Dialect} (standard : simulator.table = dialect.table)
    (short : view.length ≤ 65523) (readable : view.Readable original)
    (alike : dry.InStep dialect.table view original 0 real)
    (begins : dialect.table.AtBoundary view original dry.cursor.position)
    (calm : ∀ diagnostic ∈ (simulator.step view real).walk.diagnostics.toList,
      ¬ diagnostic.Overflow) :
    (simulator.step view dry).InStep dialect.table view original (simulator.step view real) := by
  have memory : dry.machine.memory = original := by rw [alike.resting]
  -- Both walks fetch the original opcode, and what they do differs in the argument alone.
  have same : view.byte? real.machine.memory real.cursor.position =
      view.byte? original dry.cursor.position := by
    rw [alike.position]
    exact alike.doubled.byte_at_boundary begins
  cases fetched : view.byte? original dry.cursor.position with
  | none =>
      rw [simulator.step_of_absent dry (by rw [memory, fetched]),
        simulator.step_of_absent real (by rw [same, fetched]), alike.position]
      exact .halted (alike.raise _) (by simp)
  | some opcode =>
      by_cases outside : ∃ argument,
        simulator.table.doubledAt? opcode dry.cursor.position = some argument ∧
          view.length ≤ argument.toNat
      · obtain ⟨argument, doubled, outside⟩ := outside
        obtain ⟨dryFailed, dryStepped, dryFaulted, dryRaised⟩ :=
          simulator.step_of_outside dry (by rw [memory, fetched]) doubled outside
        obtain ⟨realFailed, realStepped, realFaulted, realRaised⟩ :=
          simulator.step_of_outside real (by rw [same, fetched]) (by rw [alike.position, doubled])
            outside
        rw [dryStepped, realStepped]
        exact .halted {
          resting := by rw [dryFaulted.machine, alike.resting]
          doubled := by
            rw [realFaulted.machine]
            exact alike.doubled
          position := by rw [realFaulted.cursor, dryFaulted.cursor, alike.position]
          wait := by
            rw [realFaulted.cursor, dryFaulted.cursor]
            exact alike.wait
          restarted := by rw [realFaulted.restarted, dryFaulted.restarted, alike.restarted]
          diagnostics := by rw [realRaised, dryRaised, alike.diagnostics] } (by simp)
      · have inside : ∀ argument,
            simulator.table.doubledAt? opcode dry.cursor.position = some argument →
              argument.toNat < view.length := fun argument doubled =>
          Nat.lt_of_not_le fun beyond => outside ⟨argument, doubled, beyond⟩
        obtain ⟨dryReady, dryPrepared, dryStepped⟩ := step_of_inside dry
          (memory ▸ readable) (by rw [memory, fetched]) inside
        obtain ⟨realReady, realPrepared, realStepped⟩ := step_of_inside real
          (alike.doubled.readable readable) (by rw [same, fetched])
          (by rw [alike.position]; exact inside)
        rw [standard] at dryPrepared realPrepared
        have quiet : ∀ diagnostic ∈ realReady.diagnostics.toList, ¬ diagnostic.Overflow := by
          intro diagnostic raised
          refine calm diagnostic ?_
          rw [realStepped]
          exact (realReady.follow_diagnostics _).subset raised
        have ready := ready_in_step short alike begins fetched dryPrepared realPrepared quiet
        have turns := turn_in_step standard short readable begins fetched alike.position
          alike.wait ready.doubled realPrepared
        have still : dryReady.machine.memory = original := by rw [ready.resting]
        rw [dryStepped, realStepped, still]
        refine ready.follow turns ?_ ?_
        · intro cursor onward
          have reached := View.inside_of_byte fetched
          have room := dialect.fits short opcode
          simp only [turnAt, standard] at onward
          exact Table.at_boundary_next begins fetched (Table.turn_onward (by omega) onward)
        · intro cursor raised? stopped
          rcases Table.turn_stop stopped with
            ⟨-, control, -, after, -⟩ | ⟨other, -⟩ | ⟨other, -⟩ | ⟨descriptor, other, -⟩
          · rw [after]
            refine ⟨begins, ?_⟩
            rw [fetched, Control.of_opcode_eq_some_iff.mp control]
            rfl
          · contradiction
          · contradiction
          · contradiction

/-- Walks that are in step end in step, after as many steps. -/
theorem walk_from_in_step {dialect : Dialect} (standard : simulator.table = dialect.table)
    (short : view.length ≤ 65523) (readable : view.Readable original) (budget taken : Nat)
    (alike : dry.InStep dialect.table view original 0 real)
    (begins : dialect.table.AtBoundary view original dry.cursor.position)
    (calm : ∀ diagnostic ∈
        (simulator.walkFrom view budget taken real).2.2.diagnostics.toList,
      ¬ diagnostic.Overflow) :
    ∃ halt steps dryFinal realFinal,
      simulator.walkFrom view budget taken dry = (halt, steps, dryFinal) ∧
        simulator.walkFrom view budget taken real = (halt, steps, realFinal) ∧
        dryFinal.InStep dialect.table view original halt.surplus realFinal ∧
        (halt = .yielded → dialect.table.AtBoundary view original dryFinal.cursor.position ∧
          view.byte? original dryFinal.cursor.position = some Opcode.wait) := by
  induction budget generalizing taken dry real with
  | zero =>
      exact ⟨.stepBudget, taken, _, _, rfl, rfl, alike.raise _, by simp⟩
  | succ budget ih =>
      have quiet : ∀ diagnostic ∈ (simulator.step view real).walk.diagnostics.toList,
          ¬ diagnostic.Overflow := by
        intro diagnostic raised
        refine calm diagnostic ?_
        unfold walkFrom
        cases stepped : simulator.step view real with
        | resumed next =>
            rw [stepped] at raised
            exact (simulator.walk_from_diagnostics view budget (taken + 1) next).subset raised
        | halted reason final =>
            rw [stepped] at raised
            exact raised
      have stepped := step_in_step standard short readable alike begins quiet
      unfold walkFrom at calm ⊢
      generalize simulator.step view dry = dryProgress at stepped ⊢
      generalize simulator.step view real = realProgress at stepped calm ⊢
      cases stepped with
      | resumed next onward => exact ih (taken + 1) next onward calm
      | halted final waiting => exact ⟨_, _, _, _, rfl, rfl, final, waiting⟩

end Simulator

end CameraScript
