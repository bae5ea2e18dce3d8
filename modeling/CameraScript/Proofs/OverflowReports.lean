import CameraScript.Proofs.CallContract

/-!
# Every overflow is reported once

An argument overflows when it is doubled, and it is doubled once. The walk that doubles it
raises the only report of it, before it can fault, stop or begin anew. So the reports of all
walks together name the recorded addresses whose original bytes are too large, each of them
once and with the byte that it held at first.
-/

namespace CameraScript

def Region.overflow? (original : Region) (addr : UInt32) : Option Diagnostic :=
  (original.byte? addr).bind fun before => (Patcher.outcomeOf before).diagnostic? addr

theorem Region.overflow_eq_some_iff {original : Region} {addr : UInt32} {before after : UInt8} :
    original.overflow? addr = some (.argumentOverflow addr before after) ↔
      original.byte? addr = some before ∧ 128 ≤ before.toNat ∧
        after.toNat = 2 * before.toNat - 256 := by
  unfold overflow?
  cases original.byte? addr with
  | none => simp
  | some byte =>
      rw [Option.bind_some, Option.some.injEq]
      by_cases large : 128 ≤ byte.toNat
      · have wrapped : (byte * 2).toNat = 2 * byte.toNat - 256 := by
          have bound := byte.toNat_lt
          simp only [UInt8.toNat_mul, UInt8.reduceToNat]
          omega
        rw [Patcher.outcome_of_large large]
        simp only [PatchOutcome.diagnostic?, Option.some.injEq, Diagnostic.argumentOverflow.injEq,
          true_and]
        constructor
        · rintro ⟨rfl, rfl⟩
          exact ⟨rfl, large, wrapped⟩
        · rintro ⟨rfl, -, value⟩
          exact ⟨rfl, UInt8.toNat_inj.mp (wrapped.trans value.symm)⟩
      · rw [Patcher.outcome_of_small (by omega)]
        simp only [PatchOutcome.diagnostic?, reduceCtorEq, false_iff]
        rintro ⟨rfl, bound, -⟩
        exact large bound

theorem Region.overflow_at {original : Region} {addr : UInt32} {diagnostic : Diagnostic}
    (raised : original.overflow? addr = some diagnostic) (other : UInt32) :
    diagnostic.overflowsAt other = (addr == other) := by
  obtain ⟨before, -, outcome⟩ := Option.bind_eq_some_iff.mp raised
  cases went : Patcher.outcomeOf before with
  | overflowed first last =>
      rw [went] at outcome
      cases outcome
      rfl
  | doubled | alreadyPatched | disabled =>
      rw [went] at outcome
      contradiction

/-- The reports that the recorded addresses of a machine call for, and no others. -/
structure Reported (original : Region) (machine : Machine) (reports : List Diagnostic) :
    Prop where
  accounted : Accounted original machine
  exact : ∀ addr, reports.filter (Diagnostic.overflowsAt addr) =
    if machine.patcher.isPatched addr then (original.overflow? addr).toList else []

def Machine.overflow? (machine : Machine) (addr : UInt32) : Option Diagnostic :=
  match (machine.patch addr).1 with
  | .ok outcome => outcome.diagnostic? addr
  | .error _ => none

namespace Reported

variable {original : Region} {machine : Machine} {reports others : List Diagnostic}

theorem initial (memory : Region) {patcher : Patcher} (fresh : patcher.patched = ∅) :
    Reported memory ⟨memory, patcher⟩ [] where
  accounted := .initial memory fresh
  exact addr := by
    have unknown : patcher.isPatched addr = false := by simp [Patcher.isPatched, fresh]
    rw [unknown]
    rfl

theorem silent (reported : Reported original machine reports)
    (quiet : ∀ addr, others.filter (Diagnostic.overflowsAt addr) = []) :
    Reported original machine (reports ++ others) where
  accounted := reported.accounted
  exact addr := by
    rw [List.filter_append, quiet addr, List.append_nil]
    exact reported.exact addr

/-- The one step of the account: an address that was not recorded has not been reported
either, and still has its original byte. -/
theorem patch (reported : Reported original machine reports) (addr : UInt32) :
    Reported original (machine.patch addr).2 (reports ++ (machine.overflow? addr).toList) := by
  have accounted := reported.accounted.patch addr
  unfold Machine.overflow?
  rcases machine.patch_cases addr with
    ⟨-, went⟩ | ⟨-, -, went⟩ | ⟨-, -, -, went⟩ | ⟨-, fresh, before, present, went⟩ <;>
      rw [went] at accounted ⊢
  · exact reported.silent fun _ => rfl
  · exact reported.silent fun _ => rfl
  · exact reported.silent fun _ => rfl
  · refine ⟨accounted, ?_⟩
    have first : original.overflow? addr = (Patcher.outcomeOf before).diagnostic? addr := by
      rw [reported.accounted.byte_of_unpatched fresh] at present
      rw [Region.overflow?, present, Option.bind_some]
    intro other
    rw [List.filter_append, reported.exact other]
    simp only [machine.double_is_patched addr other before]
    rw [← first]
    cases raised : original.overflow? addr with
    | none =>
        by_cases own : other = addr
        · rw [own, raised]
          simp
        · simp [own]
    | some diagnostic =>
        have at_other := Region.overflow_at raised other
        by_cases own : other = addr
        · rw [own] at at_other ⊢
          simp [fresh, raised, at_other]
        · have apart : (addr == other) = false := by simp [Ne.symm own]
          simp [own, at_other, apart]

theorem patch_at (reported : Reported original machine reports) (view : View)
    (argument? : Option UInt16) :
    Reported original (machine.patchAt view argument?)
      (reports ++ (machine.overflowAt? view argument?).toList) := by
  cases argument? with
  | none =>
      rw [Machine.overflowAt?, Option.toList_none, List.append_nil]
      exact reported
  | some argument => exact reported.patch (view.start + argument.toUInt32)

end Reported

namespace Simulator

variable {original : Region} {earlier : List Diagnostic}

theorem step_reported (simulator : Simulator) (view : View) {walk : Walk}
    (reported : Reported original walk.machine (earlier ++ walk.diagnostics.toList)) :
    Reported original (simulator.step view walk).walk.machine
      (earlier ++ (simulator.step view walk).walk.diagnostics.toList) := by
  obtain ⟨argument?, others, -, machine, diagnostics, quiet⟩ := simulator.step_effects view walk
  rw [machine, diagnostics, ← List.append_assoc, ← List.append_assoc]
  apply Reported.silent _ quiet
  apply reported.patch_at

theorem walk_from_reported (simulator : Simulator) (view : View) (budget taken : Nat)
    (walk : Walk)
    (reported : Reported original walk.machine (earlier ++ walk.diagnostics.toList)) :
    Reported original (simulator.walkFrom view budget taken walk).2.2.machine
      (earlier ++ (simulator.walkFrom view budget taken walk).2.2.diagnostics.toList) := by
  induction budget generalizing taken walk with
  | zero =>
      change Reported original walk.machine
        (earlier ++ (walk.raise (.budgetExhausted taken)).diagnostics.toList)
      rw [show (walk.raise (.budgetExhausted taken)).diagnostics.toList =
        walk.diagnostics.toList ++ [.budgetExhausted taken] from Array.toList_push,
        ← List.append_assoc]
      apply reported.silent
      intro addr
      rfl
  | succ budget ih =>
      have stepped := simulator.step_reported view reported
      unfold walkFrom
      cases went : simulator.step view walk with
      | resumed next =>
          rw [went] at stepped
          exact ih (taken + 1) next stepped
      | halted reason final =>
          rw [went] at stepped
          exact stepped

/-- A run adds to the reports what its own patches call for. -/
theorem run_reported (simulator : Simulator) (view : View) (cursor : Cursor) {machine : Machine}
    (reported : Reported original machine earlier) :
    Reported original (simulator.run view cursor machine).machine
      (earlier ++ (simulator.run view cursor machine).simulation.diagnostics) := by
  have begun : Reported original (simulator.beginning cursor machine).machine
      (earlier ++ (simulator.beginning cursor machine).diagnostics.toList) := by
    change Reported original machine (earlier ++ [])
    rw [List.append_nil]
    exact reported
  exact simulator.walk_from_reported view simulator.stepLimit 0 _ begun

end Simulator

/-- What leads to a walk. -/
inductive WalkRequest where
  | run (simulator : Simulator) (view : View) (cursor : Cursor)
  | call (call : Call)

def WalkRequest.operation : WalkRequest → Operation
  | run simulator view cursor => .run simulator view cursor
  | call made => .call made

namespace Session

variable {Native : Type} (engine : ScriptEngine Native)

def diagnosed (session : Session Native) : WalkRequest → List Diagnostic
  | .run simulator view cursor =>
      (simulator.run view cursor session.machine).simulation.diagnostics
  | .call call =>
      match (session.call engine call).1 with
      | .ok report => report.simulation.diagnostics
      | .error _ => []

def allDiagnosed (session : Session Native) : List WalkRequest → List Diagnostic
  | [] => []
  | request :: rest =>
      session.diagnosed engine request ++
        (session.perform engine request.operation).allDiagnosed rest

theorem perform_reported {original : Region} {earlier : List Diagnostic}
    {session : Session Native} (reported : Reported original session.machine earlier)
    (request : WalkRequest) :
    Reported original (session.perform engine request.operation).machine
      (earlier ++ session.diagnosed engine request) := by
  cases request with
  | run simulator view cursor => exact simulator.run_reported view cursor reported
  | call call =>
      simp only [WalkRequest.operation, perform, diagnosed, Session.call]
      cases located : session.located call with
      | error fault =>
          obtain ⟨answered, kept⟩ := call_on_of_unresolved engine.onImage located
          rw [answered, kept, List.append_nil]
          exact reported
      | ok script =>
          obtain ⟨answered, went⟩ := call_on_of_resolved engine.onImage located
          rw [answered, went]
          apply Simulator.run_reported
          exact reported

theorem perform_all_reported {original : Region} (requests : List WalkRequest)
    {earlier : List Diagnostic} {session : Session Native}
    (reported : Reported original session.machine earlier) :
    Reported original
      (session.performAll engine (requests.map WalkRequest.operation)).machine
      (earlier ++ session.allDiagnosed engine requests) := by
  induction requests generalizing earlier session with
  | nil =>
      rw [allDiagnosed, List.append_nil]
      exact reported
  | cons request rest ih =>
      rw [allDiagnosed, ← List.append_assoc]
      exact ih (perform_reported engine reported request)

/-- From a record without addresses on, an overflow is among the diagnostics of all walks
exactly if its address is recorded in the end and the original byte there is too large. It
is there once, with this byte and what is left of its double. -/
theorem overflows_reported_once (session : Session Native) (requests : List WalkRequest)
    (fresh : session.machine.patcher.patched = ∅) (addr : UInt32) (before after : UInt8) :
    (session.allDiagnosed engine requests).count (.argumentOverflow addr before after) =
      if (session.performAll engine (requests.map WalkRequest.operation)).machine.patcher.isPatched
            addr = true ∧
          session.machine.memory.byte? addr = some before ∧ 128 ≤ before.toNat ∧
          after.toNat = 2 * before.toNat - 256
      then 1 else 0 := by
  have start : Reported session.machine.memory session.machine [] := .initial _ fresh
  have reported := (perform_all_reported engine requests start).exact addr
  have overflows : (Diagnostic.argumentOverflow addr before after).overflowsAt addr = true := by
    simp [Diagnostic.overflowsAt]
  rw [List.nil_append] at reported
  rw [← List.count_filter overflows, reported]
  simp only [← Region.overflow_eq_some_iff]
  split
  · rename_i recorded
    cases session.machine.memory.overflow? addr with
    | none => simp
    | some raised => simp [recorded, List.count_singleton]
  · rename_i unrecorded
    simp [unrecorded]

/-- Scripts of both dialects reach the argument at `0x1003`, and so does a run from the
middle of the first one. -/
theorem overflows_reported_once_of_overlapping_scripts :
    let engine : ScriptEngine Unit := ⟨fun _ _ _ => .start, fun native _ => native⟩
    let layout : Layout := ⟨⟨0x1000, 0x1002⟩, ⟨0, 0⟩, 0, 0, 0⟩
    let session : Session Unit :=
      ⟨⟨layout, .off, false, 64⟩,
        ⟨⟨0x1000, ⟨#[0xF5, 0xF5, 0xF5, 130, 0xFF]⟩⟩, .active⟩, .clear, ()⟩
    let requests : List WalkRequest :=
      [.call ⟨.routine5C3FD5, 0, 0, -1⟩, .call ⟨.routine5C23D1, 0, 0, -1⟩,
        .run (Simulator.withLimit Dialect.routine5C3FD5.table .off 64) ⟨0x1000, 5⟩ ⟨2, 0⟩]
    session.machine.patcher.patched = ∅ ∧
      (session.allDiagnosed engine requests).count (.argumentOverflow 0x1003 130 4) = 1 ∧
      (session.allDiagnosed engine requests).count (.argumentOverflow 0x1001 0xF5 0xEA) = 1 ∧
      (session.allDiagnosed engine requests).count (.argumentOverflow 0x1002 0xF5 0xEA) = 0 := by
  intro engine layout session requests
  have once := overflows_reported_once engine session requests rfl
  refine ⟨rfl, ?_, ?_, ?_⟩
  · rw [once, if_pos]
    decide +kernel
  · rw [once, if_pos]
    decide +kernel
  · rw [once, if_neg]
    decide +kernel

end Session

end CameraScript
