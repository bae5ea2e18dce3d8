import CameraScript.Proofs.HaltReasons

/-!
# The same walk once more

A script that was walked can be walked again from the same cursor: every byte was read with
its final value, so the second walk turns alike at every opcode, comes to the same end after
the same steps, and finds nothing left to double. Behind a restart this holds within one walk
already, because the part behind it repeats the part before it.
-/

namespace CameraScript

instance : DecidablePred Diagnostic.Overflow
  | .argumentOverflow _ _ _ => isTrue trivial
  | .unknownOpcode _ _ | .overrun _ _ | .patchFault _ _ | .budgetExhausted _
  | .cursorMismatch _ _ _ _ => isFalse id

def Diagnostic.lasting (diagnostics : List Diagnostic) : List Diagnostic :=
  diagnostics.filter fun diagnostic => ¬ diagnostic.Overflow

theorem Diagnostic.lasting_append {overflows others : List Diagnostic}
    (large : ∀ diagnostic ∈ overflows, diagnostic.TooLarge) (plain : lasting others = others) :
    lasting (overflows ++ others) = others := by
  have none_left : lasting overflows = [] := by
    apply List.filter_eq_nil_iff.mpr
    intro diagnostic member
    simpa using (large diagnostic member).overflow
  unfold lasting at none_left plain ⊢
  rw [List.filter_append, none_left, plain, List.nil_append]

theorem Table.lasting_of_turn_stop {table : Table} {length : Nat} {opcode : UInt8}
    {cursor after : Cursor} {next? : Option UInt8} {reason : Halt} {raised? : Option Diagnostic}
    (went : table.turn length opcode cursor next? = .stop reason after raised?) :
    Diagnostic.lasting raised?.toList = raised?.toList := by
  rcases Table.turn_stop went with
    ⟨-, -, -, -, rfl⟩ | ⟨-, -, -, rfl⟩ | ⟨-, -, -, -, rfl⟩ | ⟨_, -, -, -, -, -, rfl⟩ <;> rfl

theorem Table.patches_ahead_of_length_le (table : Table) {length : Nat} (short : length ≤ 65280) :
    table.PatchesAhead length := by
  intro opcode position argument inside doubled
  have ahead (index : UInt8) : position.toNat < (position + 1 + index.toUInt16).toNat := by
    have bound := index.toNat_lt
    simp only [UInt16.toNat_add, UInt16.reduceToNat, UInt8.toNat_toUInt16]
    omega
  simp only [doubledAt?] at doubled
  split at doubled
  · cases doubled
    simpa using ahead 0
  · contradiction
  · obtain ⟨index, -, rfl⟩ := Option.map_eq_some_iff.mp doubled
    exact ahead index

namespace Machine

variable {view : View} {machine : Machine} {argument? : Option UInt16}

theorem patch_at_unrecorded
    (nothing : ∀ addr, (machine.patchAt view argument?).patcher.isPatched addr = true →
      machine.patcher.isPatched addr = true) :
    machine.patchAt view argument? = machine ∧ machine.overflowAt? view argument? = none := by
  cases argument? with
  | none => exact ⟨rfl, rfl⟩
  | some argument =>
      simp only [patchAt, overflowAt?] at nothing ⊢
      rcases machine.patch_cases (view.start + argument.toUInt32) with
        ⟨-, went⟩ | ⟨-, -, went⟩ | ⟨-, -, -, went⟩ | ⟨-, fresh, before, -, went⟩
      · rw [went]
        exact ⟨rfl, rfl⟩
      · rw [went]
        exact ⟨rfl, rfl⟩
      · rw [went]
        exact ⟨rfl, rfl⟩
      · have known := nothing (view.start + argument.toUInt32) (by
          rw [went]
          exact (machine.double_is_patched _ _ before).mpr (.inl rfl))
        rw [fresh] at known
        contradiction

end Machine

theorem FaultReason.Caused.stepped (simulator : Simulator) {view : View} {walk : Walk}
    {opcode : UInt8} {argument : UInt16} {reason : FaultReason}
    (caused : reason.Caused view walk.machine argument)
    (fetched : view.byte? walk.machine.memory walk.cursor.position = some opcode)
    (doubled : simulator.table.doubledAt? opcode walk.cursor.position = some argument) :
    ∃ failed, simulator.step view walk = .halted .fault failed ∧
      failed.cursor = ⟨walk.cursor.position + 1, walk.cursor.wait⟩ ∧
      failed.machine = walk.machine ∧
      failed.diagnostics.toList = walk.diagnostics.toList ++
        [.patchFault (view.start + argument.toUInt32) reason] := by
  let entered := walk.enter simulator.trace opcode
  have refused : entered.patchArgument view argument =
      .halted .fault (entered.raise (.patchFault (view.start + argument.toUInt32) reason)) := by
    cases reason with
    | outsideScript position =>
        obtain ⟨rfl, outside⟩ := caused
        exact Walk.patch_argument_outside outside entered
    | outsideImage fault =>
        obtain ⟨inside, failed⟩ := caused
        have machine : entered.machine = walk.machine := rfl
        rw [Walk.patch_argument_inside inside, machine, failed]
  refine ⟨entered.raise (.patchFault (view.start + argument.toUInt32) reason), ?_, rfl, rfl,
    Array.toList_push⟩
  rw [Simulator.step_eq, Walk.readThen, fetched]
  simp only [doubled, Walk.patchAt]
  rw [refused]
  rfl

namespace Simulator

variable {simulator : Simulator} {view : View}

theorem Reaches.keeps_recorded {steps : Nat} {walk last : Walk}
    (reaches : simulator.Reaches view steps walk last) {addr : UInt32}
    (known : walk.machine.patcher.isPatched addr = true) :
    last.machine.patcher.isPatched addr = true := by
  exact reaches.preserves Machine.patch_keeps_recorded known

/-- A walk that records nothing new on its way changes nothing and raises nothing there. -/
theorem Reaches.unrecorded {steps : Nat} {walk last : Walk}
    (reaches : simulator.Reaches view steps walk last)
    (nothing : ∀ addr, last.machine.patcher.isPatched addr = true →
      walk.machine.patcher.isPatched addr = true) :
    last.machine = walk.machine ∧ last.diagnostics.toList = walk.diagnostics.toList := by
  induction reaches with
  | refl => exact ⟨rfl, rfl⟩
  | @step steps walk next last resumed rest ih =>
      obtain ⟨opcode, ready, prepared, machine, diagnostics, -⟩ := step_resumed resumed
      obtain ⟨still, silent⟩ := Machine.patch_at_unrecorded fun addr known => by
        rw [← prepared.machine, ← machine] at known
        exact nothing addr (rest.keeps_recorded known)
      have unchanged : next.machine = walk.machine := machine.trans (prepared.machine.trans still)
      have quiet : next.diagnostics.toList = walk.diagnostics.toList := by
        rw [diagnostics, prepared.diagnostics, silent, Option.toList_none, List.append_nil]
      rw [← unchanged] at nothing
      obtain ⟨same, kept⟩ := ih nothing
      exact ⟨same.trans unchanged, kept.trans quiet⟩

theorem Reaches.onward {first second : Nat} {walk middle last final : Walk} {reason : Halt}
    (earlier : simulator.Reaches view first walk middle)
    (later : simulator.Reaches view second walk last)
    (halted : simulator.step view last = .halted reason final) :
    ∃ rest, simulator.Reaches view rest middle last := by
  induction earlier generalizing second with
  | refl => exact ⟨second, later⟩
  | step resumed rest ih =>
      cases later with
      | refl =>
          rw [halted] at resumed
          contradiction
      | step resumedAgain restAgain =>
          rw [resumed] at resumedAgain
          cases resumedAgain
          exact ih restAgain

structure Restarts (simulator : Simulator) (view : View) (taken begun : Walk) : Prop where
  resumed : simulator.step view taken = .resumed begun
  first : taken.restarted = false
  start : begun.cursor = .start
  second : begun.restarted = true
  machine : begun.machine = taken.machine
  repeats : ∀ again : Walk, again.cursor = taken.cursor → again.machine = taken.machine →
    ∃ renewed, renewed.cursor = .start ∧ renewed.machine = taken.machine ∧
      renewed.restarted = true ∧
      simulator.step view again =
        if again.restarted then .halted .restarted renewed else .resumed renewed

theorem Reaches.restarts_between {steps : Nat} {walk last : Walk}
    (reaches : simulator.Reaches view steps walk last) (first : walk.restarted = false)
    (second : last.restarted = true) :
    ∃ before taken begun after, simulator.Reaches view before walk taken ∧
      simulator.Restarts view taken begun ∧ simulator.Reaches view after begun last ∧
      steps = after + 1 + before := by
  induction reaches with
  | refl =>
      rw [first] at second
      contradiction
  | @step steps walk next last resumed rest ih =>
      obtain ⟨opcode, ready, prepared, machine, -, ⟨-, kept⟩ | ⟨anew, -, start, restarted⟩⟩ :=
        step_resumed resumed
      · obtain ⟨before, taken, begun, after, pass, restarts, behind, counted⟩ :=
          ih (kept.trans first) second
        exact ⟨before + 1, taken, begun, after, .step resumed pass, restarts, behind, by omega⟩
      · obtain ⟨unchanged, repeats⟩ := step_of_anew prepared anew
        refine ⟨0, walk, next, steps, .refl walk, ?_, rest, rfl⟩
        exact {
          resumed := resumed
          first := first
          start := start
          second := restarted
          machine := machine.trans unchanged
          repeats := repeats }

/-- Behind its restart a walk from the front of the script changes nothing any more, and is
bound to be cut off by a second restart. -/
theorem Restarts.cut_off (fits : simulator.table.Fits view.length)
    (ahead : simulator.table.PatchesAhead view.length) {before after : Nat}
    {walk taken begun last : Walk} (origin : walk.cursor = .start)
    (fresh : walk.restarted = false)
    (pass : simulator.Reaches view before walk taken)
    (restarts : simulator.Restarts view taken begun)
    (behind : simulator.Reaches view after begun last) :
    last.machine = begun.machine ∧ last.diagnostics.toList = begun.diagnostics.toList ∧
      ∀ reason final, simulator.step view last = .halted reason final →
        final.machine = last.machine := by
  obtain ⟨middle, reached, arrived, still, flag⟩ := pass.replay fits ahead
    (restarts.first.trans fresh.symm) (restarts.start.trans origin.symm) restarts.machine
  obtain ⟨renewed, -, renewedMachine, -, stepped⟩ := restarts.repeats middle arrived still
  rw [flag, restarts.second, if_pos rfl] at stepped
  obtain ⟨rest, remaining⟩ := behind.onward reached stepped
  obtain ⟨machine, diagnostics⟩ := behind.unrecorded fun addr known => by
    rw [restarts.machine, ← still]
    exact remaining.keeps_recorded known
  refine ⟨machine, diagnostics, ?_⟩
  intro reason final halted
  cases remaining with
  | refl =>
      rw [stepped] at halted
      cases halted
      exact renewedMachine.trans still.symm
  | step resumed rest =>
      rw [halted] at resumed
      contradiction

theorem beginning_again (fits : simulator.table.Fits view.length)
    (ahead : simulator.table.PatchesAhead view.length) {steps : Nat} {cursor : Cursor}
    {machine later : Machine} {last : Walk}
    (reaches : simulator.Reaches view steps (simulator.beginning cursor machine) last)
    (start : cursor = .start ∨ last.restarted = false)
    (kept : last.machine.KeptBy view last.cursor.position.toNat later)
    (same : last.restarted = true → later = last.machine) :
    ∃ after, simulator.Reaches view steps (simulator.beginning cursor later) after ∧
      after.cursor = last.cursor ∧ after.machine = later ∧ after.restarted = last.restarted ∧
      after.diagnostics.toList = [] := by
  have silent {after : Walk}
      (reached : simulator.Reaches view steps (simulator.beginning cursor later) after)
      (unchanged : after.machine = later) : after.diagnostics.toList = [] := by
    refine (reached.unrecorded fun addr known => ?_).2
    rw [unchanged] at known
    exact known
  have begins : (simulator.beginning cursor later).cursor =
      (simulator.beginning cursor machine).cursor := rfl
  cases restarted : last.restarted with
  | false =>
      obtain ⟨after, reached, cursors, unchanged, flag⟩ :=
        reaches.replay_later fits ahead restarted begins kept
      exact ⟨after, reached, cursors, unchanged, flag, silent reached unchanged⟩
  | true =>
      have origin : cursor = .start := start.resolve_right (by simp [restarted])
      obtain ⟨before, taken, begun, count, pass, restarts, behind, counted⟩ :=
        reaches.restarts_between rfl restarted
      obtain ⟨machines, -, -⟩ := Restarts.cut_off fits ahead origin rfl pass restarts behind
      have settled : later = taken.machine :=
        (same restarted).trans (machines.trans restarts.machine)
      obtain ⟨middle, reached, arrived, still, flag⟩ :=
        pass.replay fits ahead restarts.first begins settled
      obtain ⟨renewed, renewedStart, renewedMachine, renewedFlag, stepped⟩ :=
        restarts.repeats middle arrived still
      have fresh : middle.restarted = false := flag
      rw [fresh, if_neg Bool.false_ne_true] at stepped
      obtain ⟨after, reachedAgain, cursors, unchanged, flagAgain⟩ := behind.replay fits ahead
        (restarted.trans restarts.second.symm) (renewedStart.trans restarts.start.symm)
        (renewedMachine.trans (machines.trans restarts.machine).symm)
      have whole := reached.trans (.step stepped reachedAgain)
      rw [← counted] at whole
      have calm : after.machine = later := unchanged.trans (same restarted).symm
      exact ⟨after, whole, cursors, calm, flagAgain.trans renewedFlag, silent whole calm⟩

theorem halt_keeps (ahead : simulator.table.PatchesAhead view.length) {last final : Walk}
    {reason : Halt} (halted : simulator.step view last = .halted reason final) :
    last.machine.KeptBy view last.cursor.position.toNat final.machine := by
  rcases step_halted halted with
    ⟨-, rfl, -⟩ | ⟨-, faulted⟩ | ⟨opcode, ready, prepared, machine, -, -⟩
  · exact .refl view _ _
  · rw [faulted.machine]
    exact .refl view _ _
  · rw [machine, prepared.machine]
    have inside := View.inside_of_byte prepared.fetched
    exact Machine.kept_by_patch_at view last.machine fun argument doubled =>
      ahead opcode _ argument inside doubled

/-- A run that has taken its restart, and then halts, has nothing left to double. -/
theorem halt_unchanged (fits : simulator.table.Fits view.length)
    (ahead : simulator.table.PatchesAhead view.length) {steps : Nat} {cursor : Cursor}
    {machine : Machine} {last final : Walk} {reason : Halt}
    (reaches : simulator.Reaches view steps (simulator.beginning cursor machine) last)
    (start : cursor = .start ∨ last.restarted = false)
    (halted : simulator.step view last = .halted reason final) :
    last.restarted = true → final.machine = last.machine := by
  intro restarted
  have origin : cursor = .start := start.resolve_right (by simp [restarted])
  obtain ⟨before, taken, begun, after, pass, restarts, behind, -⟩ :=
    reaches.restarts_between rfl restarted
  exact (Restarts.cut_off fits ahead origin rfl pass restarts behind).2.2 reason final halted

/-- The step that ends a walk is taken again over the machine that it left behind, with no
overflow but with the report that goes with the halt. -/
theorem halt_again {last final again : Walk} {reason : Halt}
    (halted : simulator.step view last = .halted reason final)
    (large : ∀ diagnostic ∈ last.diagnostics.toList, diagnostic.TooLarge)
    (cursor : again.cursor = last.cursor) (machine : again.machine = final.machine)
    (restarted : again.restarted = last.restarted) :
    ∃ ended, simulator.step view again = .halted reason ended ∧ ended.cursor = final.cursor ∧
      ended.machine = final.machine ∧
      ended.diagnostics.toList =
        again.diagnostics.toList ++ Diagnostic.lasting final.diagnostics.toList := by
  rcases step_halted halted with
    ⟨rfl, rfl, absent⟩ | ⟨rfl, faulted⟩ | ⟨opcode, ready, prepared, left, -, stopped⟩
  · have missing : view.byte? again.machine.memory again.cursor.position = none := by
      rw [machine, cursor]
      exact absent
    refine ⟨_, simulator.step_of_absent again missing, cursor, machine, ?_⟩
    have reports : (last.raise (.overrun last.cursor.position view.length)).diagnostics.toList =
        last.diagnostics.toList ++ [.overrun last.cursor.position view.length] :=
      Array.toList_push
    rw [reports, Diagnostic.lasting_append large rfl, cursor]
    exact Array.toList_push
  · obtain ⟨opcode, argument, reason, fetched, doubled, caused, raised⟩ := faulted.raised
    rw [← faulted.machine, ← machine] at fetched caused
    rw [← cursor] at fetched doubled
    obtain ⟨failed, stepped, moved, still, added⟩ := caused.stepped simulator fetched doubled
    refine ⟨failed, stepped, ?_, still.trans machine, ?_⟩
    · rw [moved, faulted.cursor, cursor]
    · rw [added, raised, Diagnostic.lasting_append large rfl]
  · rw [left] at machine
    have fetched : view.byte? again.machine.memory again.cursor.position = some opcode := by
      rw [machine, cursor]
      exact prepared.opcode_kept
    obtain ⟨readyAgain, preparedAgain, still, stepped⟩ := step_of_settled fetched
      fun argument doubled => by
        rw [cursor] at doubled
        rw [machine]
        exact prepared.settled argument doubled
    have quiet : readyAgain.diagnostics.toList = again.diagnostics.toList := by
      have silent := (Machine.patch_at_unrecorded fun addr known => by
        rw [← preparedAgain.machine, still] at known
        exact known).2
      rw [preparedAgain.diagnostics, silent, Option.toList_none, List.append_nil]
    rw [cursor, machine] at stepped
    rcases stopped with ⟨raised?, turned, diagnostics⟩ | ⟨turned, second, rfl, start, diagnostics⟩
    · obtain ⟨machines, moved, -⟩ :=
        Walk.raise_all_fields { readyAgain with cursor := final.cursor } raised?
      rw [turned] at stepped
      refine ⟨_, stepped, moved, machines.trans (still.trans (machine.trans left.symm)), ?_⟩
      rw [diagnostics, Diagnostic.lasting_append (prepared.too_large large)
        (Table.lasting_of_turn_stop turned), ← quiet]
      cases raised? with
      | none => exact (List.append_nil _).symm
      | some diagnostic => exact Array.toList_push
    · have flag : readyAgain.restarted = true :=
        preparedAgain.restarted.trans (restarted.trans second)
      rw [turned, Walk.follow, if_pos flag] at stepped
      refine ⟨_, stepped, start.symm, still.trans (machine.trans left.symm), ?_⟩
      have none_left : Diagnostic.lasting (ready.diagnostics.toList ++ []) = [] :=
        Diagnostic.lasting_append (prepared.too_large large) rfl
      rw [List.append_nil] at none_left
      rw [diagnostics, none_left, List.append_nil]
      exact quiet

/-- A run that starts at the front of the script, or takes no restart, can be taken again: over
the machine that it left behind it ends in the same way after the same steps, changes nothing
and reports the same but for the overflows. -/
theorem run_again (simulator : Simulator) (view : View) (cursor : Cursor) (machine : Machine)
    (short : view.length ≤ 65280)
    (start : cursor = .start ∨ simulator.takesRestart view cursor machine = false) :
    let first := simulator.run view cursor machine
    let second := simulator.run view cursor first.machine
    second.simulation.cursor = first.simulation.cursor ∧
      second.simulation.halt = first.simulation.halt ∧
      second.simulation.steps = first.simulation.steps ∧ second.machine = first.machine ∧
      second.simulation.diagnostics =
        first.simulation.diagnostics.filter fun diagnostic => ¬ diagnostic.Overflow := by
  intro first second
  have fits : simulator.table.Fits view.length := simulator.table.fits_of_length_le (by omega)
  have ahead := simulator.table.patches_ahead_of_length_le short
  have fresh : ∀ diagnostic ∈ (simulator.beginning cursor machine).diagnostics.toList,
      diagnostic.TooLarge := fun diagnostic absent => by cases absent
  change _ ∧ _ ∧ _ ∧ _ ∧ _ = Diagnostic.lasting first.simulation.diagnostics
  rcases simulator.run_cases view cursor machine with
    ⟨steps, last, reason, final, reaches, few, halted, answer, left, flag⟩ |
      ⟨last, reaches, answer, left, flag⟩
  · -- The flag of the last walk is that of the whole run, because a restart is never undone.
    have single : cursor = .start ∨ last.restarted = false := start.imp_right fun untaken => by
      cases restarted : last.restarted with
      | false => rfl
      | true =>
          have kept := restarted_of_step simulator view restarted
          rw [halted] at kept
          exact kept.symm.trans (flag.symm.trans untaken)
    obtain ⟨after, reached, cursors, unchanged, flags, silent⟩ := beginning_again fits ahead
      reaches single (halt_keeps ahead halted) (halt_unchanged fits ahead reaches single halted)
    obtain ⟨ended, haltedAgain, moved, still, reports⟩ :=
      halt_again halted (reaches_too_large reaches fresh) cursors unchanged flags
    obtain ⟨answerAgain, leftAgain⟩ :=
      run_of_walk_from (walk_from_of_reaches reached haltedAgain 0 few)
    rw [silent, List.nil_append] at reports
    rw [Nat.zero_add, moved, reports] at answerAgain
    simp only [second, first, left, answer, answerAgain, leftAgain, still, and_self]
  · -- Without a halt of its own the second run is cut off after as many steps.
    have single : cursor = .start ∨ last.restarted = false :=
      start.imp_right fun untaken => flag.symm.trans untaken
    obtain ⟨after, reached, cursors, unchanged, -, silent⟩ := beginning_again fits ahead reaches
      single (.refl view _ _) fun _ => rfl
    obtain ⟨answerAgain, leftAgain⟩ := run_of_walk_from (walk_from_exhausts reached 0)
    have reports : (after.raise (.budgetExhausted simulator.stepLimit)).diagnostics.toList =
        after.diagnostics.toList ++ [.budgetExhausted simulator.stepLimit] := Array.toList_push
    rw [Nat.zero_add, reports, silent, List.nil_append] at answerAgain
    have lasting : Diagnostic.lasting
        (last.diagnostics.toList ++ [.budgetExhausted simulator.stepLimit]) =
          [.budgetExhausted simulator.stepLimit] :=
      Diagnostic.lasting_append (reaches_too_large reaches fresh) rfl
    simp only [second, first, left, answer, answerAgain, leftAgain, lasting]
    exact ⟨cursors, trivial, trivial, unchanged, trivial⟩

/-- The opcode at position 0 doubles a byte that is read as an opcode later on. The byte
overflows, and its double is a restart: the walk takes it, walks the script over again and is
cut off there. -/
theorem run_again_at_restart :
    let table := Table.ofAdvancing [⟨1, ⟨0, some 1, false⟩⟩, ⟨2, ⟨0, none, false⟩⟩] (by decide)
    let simulator := withLimit table .off 16
    let machine : Machine := ⟨⟨0x1000, ⟨#[1, 2, 0xFF, 0xC0]⟩⟩, .active⟩
    let first := simulator.run ⟨0x1000, 4⟩ .start machine
    let second := simulator.run ⟨0x1000, 4⟩ .start first.machine
    first.machine.memory.bytes = #[1, 2, 0xFE, 0xC0] ∧
      first.simulation = ⟨.start, .restarted, 6, [.argumentOverflow 0x1002 0xFF 0xFE]⟩ ∧
      second.machine = first.machine ∧ second.simulation.halt = .restarted ∧
      second.simulation.steps = 6 ∧ second.simulation.diagnostics = [] := by
  intro table simulator machine
  have rewritten : (simulator.run ⟨0x1000, 4⟩ .start machine).machine.memory.bytes =
      #[1, 2, 0xFE, 0xC0] := by decide +kernel
  have walked : (simulator.run ⟨0x1000, 4⟩ .start machine).simulation =
      ⟨.start, .restarted, 6, [.argumentOverflow 0x1002 0xFF 0xFE]⟩ := by decide +kernel
  have again := run_again simulator ⟨0x1000, 4⟩ .start machine (by decide) (.inl rfl)
  generalize simulator.run ⟨0x1000, 4⟩ .start machine = first at rewritten walked again ⊢
  simp only at again ⊢
  generalize simulator.run ⟨0x1000, 4⟩ .start first.machine = second at again ⊢
  rw [walked] at again
  obtain ⟨-, halt, steps, unchanged, diagnostics⟩ := again
  exact ⟨rewritten, walked, unchanged, halt, steps, diagnostics⟩

end Simulator

end CameraScript
