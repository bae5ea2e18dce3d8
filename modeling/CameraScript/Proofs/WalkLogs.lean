import CameraScript.Proofs.PlaybackFrames

/-!
# What a walk writes to the log

The errors of a log are the diagnostics that were raised, each of them once and in their
order, and everything else is there only while tracing is on. Both hold of a walk after every
stage of a step.
-/

namespace CameraScript

/-- A log with these diagnostics as its errors, and with traces only if they are asked for. -/
structure Logged (flags : TraceFlags) (log : Array Event) (diagnostics : List Diagnostic) :
    Prop where
  errors : log.toList.filter (fun event => event.level = .error) = diagnostics.map .raised
  traces : ∀ event ∈ log, event.level = .trace → flags.enabled = true

namespace Logged

variable {flags : TraceFlags} {log other : Array Event} {diagnostics later : List Diagnostic}

theorem empty (flags : TraceFlags) : Logged flags #[] [] :=
  ⟨rfl, fun _ absent => by cases absent; contradiction⟩

theorem append (first : Logged flags log diagnostics) (second : Logged flags other later) :
    Logged flags (log ++ other) (diagnostics ++ later) where
  errors := by
    rw [Array.toList_append, List.filter_append, first.errors, second.errors, List.map_append]
  traces event member := by
    rcases Array.mem_append.mp member with here | there
    · exact first.traces event here
    · exact second.traces event there

theorem raised (flags : TraceFlags) (diagnostics : List Diagnostic) :
    Logged flags (diagnostics.map Event.raised).toArray diagnostics where
  errors := by
    apply List.filter_eq_self.mpr
    intro event member
    obtain ⟨diagnostic, -, rfl⟩ := List.mem_map.mp member
    rfl
  traces event member traced := by
    obtain ⟨diagnostic, -, rfl⟩ := List.mem_map.mp (List.mem_toArray.mp member)
    contradiction

theorem push (logged : Logged flags log diagnostics) (diagnostic : Diagnostic) :
    Logged flags (log.push (.raised diagnostic)) (diagnostics ++ [diagnostic]) := by
  rw [Array.push_eq_append]
  exact logged.append (raised flags [diagnostic])

theorem record (logged : Logged flags log diagnostics) {event : Event}
    (trace : event.level = .trace) : Logged flags (flags.record log event) diagnostics := by
  unfold TraceFlags.record
  split
  · rename_i enabled
    rw [Array.push_eq_append, ← List.append_nil diagnostics]
    refine logged.append ⟨?_, fun _ _ _ => enabled⟩
    simp [trace]
  · exact logged

end Logged

namespace Walk

def Logs (flags : TraceFlags) (walk : Walk) : Prop :=
  Logged flags walk.log walk.diagnostics.toList

namespace Logs

variable {flags : TraceFlags} {walk : Walk}

theorem raise (logs : walk.Logs flags) (diagnostic : Diagnostic) :
    (walk.raise diagnostic).Logs flags := by
  have pushed : (walk.raise diagnostic).diagnostics.toList =
      walk.diagnostics.toList ++ [diagnostic] := Array.toList_push
  unfold Logs
  rw [pushed]
  exact logs.push diagnostic

theorem note (logs : walk.Logs flags) {event : Event} (trace : event.level = .trace) :
    (walk.note flags event).Logs flags :=
  logs.record trace

theorem raise_all (logs : walk.Logs flags) (raised? : Option Diagnostic) :
    (walk.raiseAll raised?).Logs flags := by
  cases raised? with
  | none => exact logs
  | some diagnostic => exact logs.raise diagnostic

theorem enter (logs : walk.Logs flags) (opcode : UInt8) :
    (walk.enter flags opcode).Logs flags := by
  have moved : (walk.moveTo (walk.cursor.position + 1)).Logs flags := logs
  exact moved.note rfl

theorem glance (logs : walk.Logs flags) (opcode : UInt8) (next? : Option UInt8) :
    (walk.glance flags opcode next?).Logs flags := by
  unfold Walk.glance
  split
  · split
    · exact logs.note rfl
    · exact logs
  · exact logs

theorem patch_at (logs : walk.Logs flags) (view : View) (argument? : Option UInt16) :
    (walk.patchAt view argument?).walk.Logs flags := by
  cases argument? with
  | none => exact logs
  | some argument =>
      rcases walk.patch_argument_cases view argument with
        ⟨reason, -, failed⟩ | ⟨outcome, -, -, went⟩
      · rw [Walk.patchAt, failed]
        exact logs.raise _
      · rw [Walk.patchAt, went]
        let addr := view.start + argument.toUInt32
        have patched : Logs flags { walk with machine := (walk.machine.patch addr).2 } := logs
        exact patched.raise_all (outcome.diagnostic? addr)

theorem follow (logs : walk.Logs flags) (turn : Turn) : (walk.follow turn).walk.Logs flags := by
  cases turn with
  | onward cursor => exact logs
  | anew =>
      simp only [Walk.follow]
      split <;> exact logs
  | stop reason cursor raised? =>
      have moved : Logs flags { walk with cursor } := logs
      exact moved.raise_all raised?

end Logs

end Walk

theorem Progress.and_then_logs {flags : TraceFlags} {progress : Progress} {next : Walk → Progress}
    (logs : progress.walk.Logs flags)
    (kept : ∀ {walk : Walk}, walk.Logs flags → (next walk).walk.Logs flags) :
    (progress.andThen next).walk.Logs flags := by
  cases progress with
  | resumed walk => exact kept logs
  | halted reason walk => exact logs

namespace Simulator

variable (simulator : Simulator) (view : View)

theorem step_logs {walk : Walk} (logs : walk.Logs simulator.trace) :
    (simulator.step view walk).walk.Logs simulator.trace := by
  rw [step_eq, Walk.readThen]
  split
  · rename_i opcode fetched
    refine Progress.and_then_logs ((logs.enter opcode).patch_at view _) fun patched => ?_
    exact (patched.glance opcode _).follow _
  · exact logs.raise _

theorem walk_from_logs (budget taken : Nat) {walk : Walk} (logs : walk.Logs simulator.trace) :
    (simulator.walkFrom view budget taken walk).2.2.Logs simulator.trace := by
  induction budget generalizing taken walk with
  | zero => exact logs.raise _
  | succ budget ih =>
      have stepped := simulator.step_logs view logs
      unfold walkFrom
      cases went : simulator.step view walk with
      | resumed next =>
          rw [went] at stepped
          exact ih (taken + 1) stepped
      | halted reason final =>
          rw [went] at stepped
          exact stepped

/-- The errors that a run logs are the diagnostics that it answers. -/
theorem run_logged (cursor : Cursor) (machine : Machine) :
    Logged simulator.trace (simulator.run view cursor machine).log
      (simulator.run view cursor machine).simulation.diagnostics := by
  have fresh : (Walk.begin machine cursor).Logs simulator.trace := .empty simulator.trace
  have begun : (simulator.beginning cursor machine).Logs simulator.trace := fresh.note rfl
  have walked := simulator.walk_from_logs view simulator.stepLimit 0 begun
  exact walked.record rfl

end Simulator

end CameraScript
