import CameraScript.Proofs.RegionAccess
import CameraScript.Proofs.TracedSessions

/-!
# The trace of a walk

While tracing is on, a walk leaves one record for each opcode that it fetches, in their order,
between a record of its start and one of its end. Every step fetches an opcode but the one that
finds the script at its end, and this step is the last. The errors of a call are its
diagnostics, each in the words of the place that noticed it.
-/

namespace CameraScript

def Event.fetched? : Event → Option UInt8
  | fetched opcode => some opcode
  | _ => none

def Event.isMarker : Event → Bool
  | walkStarted | walkEnded => true
  | _ => false

/-- The log goes on from an earlier one with a record for each of these opcodes, and without
a marker. -/
def Fetches (earlier later : Array Event) (opcodes : List UInt8) : Prop :=
  ∃ events, later.toList = earlier.toList ++ events ∧
    events.filterMap Event.fetched? = opcodes ∧ ∀ event ∈ events, event.isMarker = false

namespace Fetches

theorem refl (log : Array Event) : Fetches log log [] :=
  ⟨[], (List.append_nil _).symm, rfl, by simp⟩

theorem trans {first second third : Array Event} {opcodes more : List UInt8}
    (before : Fetches first second opcodes) (after : Fetches second third more) :
    Fetches first third (opcodes ++ more) := by
  obtain ⟨events, went, rfl, unmarked⟩ := before
  obtain ⟨later, goes, rfl, unmarkedLater⟩ := after
  refine ⟨events ++ later, by rw [goes, went, List.append_assoc], List.filterMap_append, ?_⟩
  intro event member
  exact (List.mem_append.mp member).elim (unmarked event) (unmarkedLater event)

theorem push (log : Array Event) {event : Event} (unmarked : event.isMarker = false) :
    Fetches log (log.push event) event.fetched?.toList := by
  refine ⟨[event], Array.toList_push, ?_, by simpa using unmarked⟩
  cases found : event.fetched? <;> simp [found]

end Fetches

namespace Walk

def opcode? (view : View) (walk : Walk) : Option UInt8 :=
  view.byte? walk.machine.memory walk.cursor.position

variable (walk : Walk)

theorem raise_fetches (diagnostic : Diagnostic) : Fetches walk.log (walk.raise diagnostic).log [] :=
  .push walk.log rfl

theorem raise_all_fetches (raised? : Option Diagnostic) :
    Fetches walk.log (walk.raiseAll raised?).log [] := by
  cases raised? with
  | none => exact .refl walk.log
  | some diagnostic => exact walk.raise_fetches diagnostic

variable {flags : TraceFlags}

theorem note_fetches (enabled : flags.enabled = true) {event : Event}
    (unmarked : event.isMarker = false) :
    Fetches walk.log (walk.note flags event).log event.fetched?.toList := by
  have noted : (walk.note flags event).log = walk.log.push event := if_pos enabled
  rw [noted]
  exact .push walk.log unmarked

theorem enter_fetches (enabled : flags.enabled = true) (opcode : UInt8) :
    Fetches walk.log (walk.enter flags opcode).log [opcode] :=
  (walk.moveTo (walk.cursor.position + 1)).note_fetches enabled rfl

theorem glance_fetches (enabled : flags.enabled = true) (opcode : UInt8) (next? : Option UInt8) :
    Fetches walk.log (walk.glance flags opcode next?).log [] := by
  unfold glance
  split
  · split
    · exact walk.note_fetches enabled rfl
    · exact .refl walk.log
  · exact .refl walk.log

theorem patch_at_fetches (view : View) (argument? : Option UInt16) :
    Fetches walk.log (walk.patchAt view argument?).walk.log [] := by
  cases argument? with
  | none => exact .refl walk.log
  | some argument =>
      rcases walk.patch_argument_cases view argument with
        ⟨reason, -, failed⟩ | ⟨outcome, -, -, went⟩
      · rw [patchAt, failed]
        exact walk.raise_fetches _
      · rw [patchAt, went]
        exact raise_all_fetches { walk with machine := _ } _

theorem follow_fetches (turn : Turn) : Fetches walk.log (walk.follow turn).walk.log [] := by
  cases turn with
  | onward cursor => exact .refl walk.log
  | anew =>
      simp only [follow]
      split <;> exact .refl walk.log
  | stop reason cursor raised? => exact raise_all_fetches { walk with cursor } raised?

end Walk

theorem Progress.and_then_fetches {log : Array Event} {opcodes : List UInt8} {progress : Progress}
    {next : Walk → Progress} (went : Fetches log progress.walk.log opcodes)
    (goes : ∀ walk : Walk, Fetches walk.log (next walk).walk.log []) :
    Fetches log (progress.andThen next).walk.log opcodes := by
  cases progress with
  | resumed walk => exact List.append_nil opcodes ▸ went.trans (goes walk)
  | halted reason walk => exact went

namespace Simulator

variable (simulator : Simulator) (view : View)

def trail : (budget : Nat) → Walk → List Walk
  | 0, _ => []
  | budget + 1, walk =>
      walk ::
        match simulator.step view walk with
        | .resumed next => trail budget next
        | .halted _ _ => []

theorem step_fetches (enabled : simulator.trace.enabled = true) (walk : Walk) :
    Fetches walk.log (simulator.step view walk).walk.log (walk.opcode? view).toList := by
  rw [step_eq, Walk.readThen, Walk.opcode?]
  cases view.byte? walk.machine.memory walk.cursor.position with
  | none => exact walk.raise_fetches _
  | some opcode =>
      have entered := walk.enter_fetches enabled opcode
      have patched := (walk.enter simulator.trace opcode).patch_at_fetches view
        (simulator.table.doubledAt? opcode walk.cursor.position)
      refine Progress.and_then_fetches (entered.trans patched) fun patched => ?_
      exact (patched.glance_fetches enabled opcode _).trans (Walk.follow_fetches _ _)

theorem walk_from_fetches (enabled : simulator.trace.enabled = true) (budget taken : Nat)
    (walk : Walk) :
    Fetches walk.log (simulator.walkFrom view budget taken walk).2.2.log
      ((simulator.trail view budget walk).filterMap (Walk.opcode? view)) := by
  induction budget generalizing taken walk with
  | zero => exact walk.raise_fetches _
  | succ budget ih =>
      have stepped := simulator.step_fetches view enabled walk
      have first (rest : List Walk) : (walk :: rest).filterMap (Walk.opcode? view) =
          (walk.opcode? view).toList ++ rest.filterMap (Walk.opcode? view) := by
        rw [List.filterMap_cons]
        cases walk.opcode? view <;> rfl
      rw [walkFrom, trail, first]
      cases went : simulator.step view walk with
      | resumed next =>
          rw [went] at stepped
          exact stepped.trans (ih (taken + 1) next)
      | halted reason final =>
          rw [went] at stepped
          exact (List.append_nil (walk.opcode? view).toList).symm ▸ stepped

theorem length_trail (budget taken : Nat) (walk : Walk) :
    (simulator.walkFrom view budget taken walk).2.1 =
      taken + (simulator.trail view budget walk).length := by
  induction budget generalizing taken walk with
  | zero => rfl
  | succ budget ih =>
      rw [walkFrom, trail]
      cases simulator.step view walk with
      | resumed next =>
          simp only
          rw [ih (taken + 1) next, List.length_cons]
          omega
      | halted reason final => rfl

/-- Only the last step can find no opcode, and it ends the walk as an overrun. -/
theorem trail_cases (budget taken : Nat) (walk : Walk) :
    (∀ station ∈ simulator.trail view budget walk, (station.opcode? view).isSome = true) ∨
      ∃ before last, simulator.trail view budget walk = before ++ [last] ∧
        (∀ station ∈ before, (station.opcode? view).isSome = true) ∧
        last.opcode? view = none ∧
        (simulator.walkFrom view budget taken walk).1 = .overrun := by
  induction budget generalizing taken walk with
  | zero => exact .inl (by simp [trail])
  | succ budget ih =>
      rw [walkFrom, trail]
      cases fetched : walk.opcode? view with
      | none =>
          rw [simulator.step_of_absent walk fetched]
          exact .inr ⟨[], walk, rfl, by simp, fetched, rfl⟩
      | some opcode =>
          have present : (walk.opcode? view).isSome = true := by rw [fetched]; rfl
          cases simulator.step view walk with
          | halted reason final => exact .inl (List.forall_mem_singleton.mpr present)
          | resumed next =>
              rcases ih (taken + 1) next with all | ⟨before, last, trail, all, absent, ends⟩
              · exact .inl (List.forall_mem_cons.mpr ⟨present, all⟩)
              · exact .inr ⟨walk :: before, last, congrArg (walk :: ·) trail,
                  List.forall_mem_cons.mpr ⟨present, all⟩, absent, ends⟩

/-- The walks at which the steps of a run begin. -/
def stations (cursor : Cursor) (machine : Machine) : List Walk :=
  simulator.trail view simulator.stepLimit (simulator.beginning cursor machine)

def fetched (cursor : Cursor) (machine : Machine) : List UInt8 :=
  (simulator.stations view cursor machine).filterMap (Walk.opcode? view)

/-- What the log of a traced run holds besides its errors. -/
theorem run_fetches (enabled : simulator.trace.enabled = true) (cursor : Cursor)
    (machine : Machine) :
    ∃ between, (simulator.run view cursor machine).log.toList =
        .walkStarted :: (between ++ [.walkEnded]) ∧
      (∀ event ∈ between, event.isMarker = false) ∧
      between.filterMap Event.fetched? = simulator.fetched view cursor machine := by
  obtain ⟨between, went, found, unmarked⟩ := simulator.walk_from_fetches view enabled
    simulator.stepLimit 0 (simulator.beginning cursor machine)
  refine ⟨between, ?_, unmarked, found⟩
  have begun : (simulator.beginning cursor machine).log = #[.walkStarted] := if_pos enabled
  have ended : (simulator.run view cursor machine).log =
      (simulator.walkFrom view simulator.stepLimit 0
        (simulator.beginning cursor machine)).2.2.log.push .walkEnded := if_pos enabled
  rw [ended, Array.toList_push, went, begun]
  rfl

theorem run_steps (cursor : Cursor) (machine : Machine) :
    (simulator.run view cursor machine).simulation.steps =
      (simulator.stations view cursor machine).length :=
  (simulator.length_trail view simulator.stepLimit 0 _).trans (Nat.zero_add _)

theorem length_fetched (cursor : Cursor) (machine : Machine) :
    let simulation := (simulator.run view cursor machine).simulation
    ((∀ station ∈ simulator.stations view cursor machine,
          (station.opcode? view).isSome = true) ∧
        (simulator.fetched view cursor machine).length = simulation.steps) ∨
      ∃ last, (simulator.stations view cursor machine).getLast? = some last ∧
        last.opcode? view = none ∧ simulation.halt = .overrun ∧
        (simulator.fetched view cursor machine).length + 1 = simulation.steps := by
  intro simulation
  have counted := simulator.run_steps view cursor machine
  have every {walks : List Walk} (all : ∀ station ∈ walks, (station.opcode? view).isSome = true) :
      (walks.filterMap (Walk.opcode? view)).length = walks.length := by
    rw [List.length_filterMap_eq_countP, List.countP_eq_length]
    exact all
  rcases simulator.trail_cases view simulator.stepLimit 0 (simulator.beginning cursor machine) with
    all | ⟨before, last, trail, all, absent, ends⟩
  · exact .inl ⟨all, (every all).trans counted.symm⟩
  · have stations : simulator.stations view cursor machine = before ++ [last] := trail
    refine .inr ⟨last, by rw [stations, List.getLast?_concat], absent, ends, ?_⟩
    rw [fetched, counted, stations, List.filterMap_append, List.length_append, every all]
    simp [absent]

end Simulator

/-! ## Calls -/

/-- The words in which a diagnostic is logged: those of the patcher, where it is the patcher that
notices an overflow, and otherwise its own. -/
def Diagnostic.wording : Diagnostic → String
  | argumentOverflow addr before after =>
      let place := Text.hex addr.toNat
      s!"Script arg multiplication out of bound at 0x{place}: before is {before}, after is {after}"
  | diagnostic => diagnostic.message

theorem Event.text_raised (diagnostic : Diagnostic) :
    (Event.raised diagnostic).text = diagnostic.wording := by
  cases diagnostic <;> rfl

theorem Layout.resolve_log_of_ok {layout : Layout} {flags : TraceFlags} {memory : Region}
    {dialect : Dialect} {variation : Int8} {selector : Int16} {script : View}
    (found : (layout.resolve flags memory dialect variation selector).1 = .ok script) :
    (layout.resolve flags memory dialect variation selector).2 =
      flags.record #[] (.located dialect variation selector script.start) := by
  unfold resolve at found ⊢
  split
  · rename_i unknown
    rw [unknown] at found
    contradiction
  · rename_i selected known
    simp only [known] at found
    split
    · rename_i fault unreadable
      rw [unreadable] at found
      contradiction
    · rename_i addr located
      simp only [located] at found
      cases opened : memory.view addr with
      | error fault =>
          rw [opened] at found
          contradiction
      | ok view =>
          rw [opened] at found
          cases found
          rw [(Region.view_extent opened).1]

namespace Session

variable {Native : Type} (engine : ImageEngine Native) {session : Session Native} {call : Call}

/-- The parts of the log of a call, in their order. -/
theorem call_on_log {script : View} (resolved : session.located call = .ok script) :
    (session.callOn engine call).2.2 =
      session.settings.trace.record #[]
          (.called call.dialect call.variation call.param call.selector) ++
        session.settings.trace.record #[]
          (.located call.dialect call.variation call.selector script.start) ++
        (session.walked engine call script).log ++
        ((session.reported engine call script).mismatches.map Event.raised).toArray := by
  have logged := Layout.resolve_log_of_ok resolved
  obtain ⟨settings, machine, flags, native⟩ := session
  simp only [located] at resolved
  simp only [callOn]
  split
  · rename_i fault events answer
    rw [answer] at resolved
    contradiction
  · rename_i found events answer
    rw [answer] at resolved logged
    cases resolved
    dsimp only at logged
    subst logged
    rfl

/-- Every diagnostic of a call is in its log once, in the order of the report and in the words
of the place that noticed it, and no other error is there. The trace of a call begins with the
call itself and the place of its script. Between its two markers the walk leaves one record for
each opcode that it fetches, in their order. These are as many as its steps, or one less if the
last step found the script at its end. -/
theorem call_logs_diagnostics_once (engine : ImageEngine Native) {session : Session Native}
    {call : Call} {report : CallReport} (answered : (session.callOn engine call).1 = .ok report) :
    let log := (session.callOn engine call).2.2.toList
    let stations :=
      (session.simulator call).stations report.script report.start session.machine
    let fetched := stations.filterMap (Walk.opcode? report.script)
    log.filter (fun event => event.level = .error) = report.diagnostics.map .raised ∧
      (log.filter fun event => event.level = .error).map Event.text =
        report.diagnostics.map Diagnostic.wording ∧
      (session.settings.trace.enabled = true →
        ∃ between, log =
            .called call.dialect call.variation call.param call.selector ::
              .located call.dialect call.variation call.selector report.script.start ::
                .walkStarted :: (between ++ .walkEnded :: report.mismatches.map .raised) ∧
          (∀ event ∈ between, event.isMarker = false) ∧
          between.filterMap Event.fetched? = fetched) ∧
      report.simulation.steps = stations.length ∧
      ((∀ station ∈ stations, (station.opcode? report.script).isSome = true) ∧
          fetched.length = report.simulation.steps ∨
        ∃ last, stations.getLast? = some last ∧ last.opcode? report.script = none ∧
          report.simulation.halt = .overrun ∧ fetched.length + 1 = report.simulation.steps) := by
  intro log stations fetched
  have errors : log.filter (fun event => event.level = .error) =
      report.diagnostics.map .raised := by
    have logged := (session.call_on_logged engine call).errors
    rwa [answered] at logged
  have located : ∃ script, session.located call = .ok script := by
    cases found : session.located call with
    | ok script => exact ⟨script, rfl⟩
    | error fault =>
        rw [(call_on_of_unresolved engine found).1] at answered
        contradiction
  obtain ⟨script, resolved⟩ := located
  have whole := call_on_log engine resolved
  rw [(call_on_of_resolved engine resolved).1] at answered
  cases answered
  refine ⟨errors, ?_, ?_, ?_, ?_⟩
  · rw [errors, List.map_map]
    exact List.map_congr_left fun diagnostic _ => Event.text_raised diagnostic
  · intro enabled
    obtain ⟨between, ran, unmarked, found⟩ :=
      (session.simulator call).run_fetches script enabled
        (Cursor.ofNative (engine.cursor session.native call.dialect call.variation))
        session.machine
    refine ⟨between, ?_, unmarked, found⟩
    have traced (event : Event) : session.settings.trace.record #[] event = #[event] :=
      if_pos enabled
    simp only [log, whole, traced, Array.toList_append, walked, ran, List.cons_append,
      List.append_assoc, List.nil_append]
    rfl
  · exact (session.simulator call).run_steps script _ session.machine
  · exact (session.simulator call).length_fetched script _ session.machine

/-- A wait that is too large, at the end of its script, and a game that does not move: the
patcher, the walk and the comparison each have something to report. -/
theorem call_logs_diagnostics_once_of_three_places :
    let engine : ImageEngine Unit :=
      ⟨fun _ _ _ => .start, ⟨fun _ _ _ _ _ => (), fun _ _ _ _ _ => ()⟩⟩
    let session : Session Unit :=
      ⟨⟨⟨⟨0x1000, 0⟩, ⟨0, 0⟩, 0, 0, 0⟩, .camera, true, 64⟩, ⟨⟨0x1000, ⟨#[0xF5, 200]⟩⟩, .active⟩,
        .clear, ()⟩
    let call : Call := ⟨.routine5C3FD5, 0, 0, -1⟩
    let report : CallReport :=
      ⟨.routine5C3FD5, ⟨0x1000, 2⟩, .start,
        ⟨⟨2, 144⟩, .overrun, 2, [.argumentOverflow 0x1001 200 144, .overrun 2 2]⟩, .start,
        [.cursorMismatch .routine5C3FD5 .position 2 0, .cursorMismatch .routine5C3FD5 .wait 144 0]⟩
    (session.callOn engine call).1 = .ok report ∧
      ((session.callOn engine call).2.2.toList.filter fun event => event.level = .error) =
        report.diagnostics.map .raised ∧
      ((session.simulator call).stations report.script report.start
        session.machine).length = 2 := by
  intro engine session call report
  have found : session.located call = .ok report.script :=
    located_of_resolved (by decide +kernel)
  have reports : session.reported engine call report.script = report := by decide +kernel
  have answered := (call_on_of_resolved engine found).1
  rw [reports] at answered
  obtain ⟨errors, -, -, steps, -⟩ := call_logs_diagnostics_once engine answered
  exact ⟨answered, errors, steps.symm⟩

end Session

end CameraScript
