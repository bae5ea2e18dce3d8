import CameraScript.Proofs.PatchAccounting

/-!
# The contract of a call

A call either finds no script and is as if it had not been made, or it walks the script
that it finds and then lets the game interpret it, once, over the image that the walk has
left behind. How the walk ended has no part in this. A game that keeps a list of its calls
therefore lists the calls whose scripts were found, in their order.
-/

namespace CameraScript

def CursorField.value (cursor : Cursor) : CursorField → UInt16
  | position => cursor.position
  | wait => cursor.wait

def Cursor.differences (dialect : Dialect) (simulated actual : Cursor) : List Diagnostic :=
  ([CursorField.position, .wait].filter fun field =>
      field.value simulated != field.value actual).map fun field =>
    .cursorMismatch dialect field (field.value simulated) (field.value actual)

theorem mismatches_eq_differences (dialect : Dialect) (simulated actual : Cursor) :
    mismatches dialect simulated actual = simulated.differences dialect actual := by
  unfold mismatches Cursor.differences
  by_cases position : simulated.position = actual.position <;>
    by_cases wait : simulated.wait = actual.wait <;>
    simp [CursorField.value, position, wait]

namespace Session

variable {Native : Type}

def located (session : Session Native) (call : Call) : Except ResolveError View :=
  (session.settings.layout.resolve session.settings.trace session.machine.memory call.dialect
    call.variation call.selector).1

def walked (engine : ImageEngine Native) (session : Session Native) (call : Call)
    (script : View) : Simulated :=
  (session.simulator call).run script
    (Cursor.ofNative (engine.cursor session.native call.dialect call.variation)) session.machine

def reported (engine : ImageEngine Native) (session : Session Native) (call : Call)
    (script : View) : CallReport :=
  let ran := session.walked engine call script
  let actual := engine.cursor (engine.execute ran.machine.memory session.native call)
    call.dialect call.variation
  { dialect := call.dialect
    script := script
    start := Cursor.ofNative (engine.cursor session.native call.dialect call.variation)
    simulation := ran.simulation
    native := actual
    mismatches :=
      if session.settings.crossCheck then
        mismatches call.dialect ran.simulation.cursor actual
      else [] }

/-- The session after a walk, with the game still as it was before the call. -/
def executed (engine : ImageEngine Native) (session : Session Native) (call : Call)
    (script : View) : Session Native :=
  let ran := session.walked engine call script
  { session with
    machine := ran.machine
    native := engine.execute ran.machine.memory session.native call }

variable (engine : ImageEngine Native) {session : Session Native} {call : Call}

theorem call_on_of_unresolved {fault : ResolveError}
    (unresolved : session.located call = .error fault) :
    (session.callOn engine call).1 = .error fault ∧
      (session.callOn engine call).2.1 = session := by
  obtain ⟨settings, machine, flags, native⟩ := session
  simp only [located] at unresolved
  simp only [callOn]
  split
  · rename_i reason events answer
    rw [answer] at unresolved
    cases unresolved
    exact ⟨rfl, rfl⟩
  · rename_i script events answer
    rw [answer] at unresolved
    contradiction

theorem call_on_of_resolved {script : View} (resolved : session.located call = .ok script) :
    (session.callOn engine call).1 = .ok (session.reported engine call script) ∧
      (session.callOn engine call).2.1 = session.executed engine call script := by
  obtain ⟨settings, machine, flags, native⟩ := session
  simp only [located] at resolved
  simp only [callOn]
  split
  · rename_i fault events answer
    rw [answer] at resolved
    contradiction
  · rename_i found events answer
    rw [answer] at resolved
    cases resolved
    exact ⟨rfl, rfl⟩

theorem located_of_resolved {script : View} (resolved : session.resolved? call = some script) :
    session.located call = .ok script := by
  simp only [resolved?] at resolved
  simp only [located]
  split at resolved
  · rename_i found events answer
    rw [answer]
    cases resolved
    rfl
  · contradiction

/-- What a call does that finds its script. The game is let run once, by the interpreter of
the dialect, and reads the image that the walk has patched. -/
structure Wraps (engine : ImageEngine Native) (session : Session Native) (call : Call)
    (script : View) (report : CallReport) (after : Session Native) : Prop where
  reported : report.dialect = call.dialect ∧ report.script = script
  start : report.start =
    let raw := engine.cursor session.native call.dialect call.variation
    if raw.position = 255 then ⟨0, 0⟩ else raw
  simulation : report.simulation =
    ((session.simulator call).run script report.start session.machine).simulation
  machine : after.machine =
    ((session.simulator call).run script report.start session.machine).machine
  interpreted : after.native = engine.interpreters.get call.dialect after.machine.memory
    session.native call.variation call.param call.selector
  kept : after.settings = session.settings ∧ after.flags = session.flags
  native : report.native = engine.cursor after.native call.dialect call.variation
  unchecked : session.settings.crossCheck = false → report.mismatches = []
  checked : session.settings.crossCheck = true →
    report.mismatches = report.simulation.cursor.differences call.dialect report.native

/-- What a call owes to whoever makes it. -/
structure Fulfils (engine : ImageEngine Native) (session : Session Native) (call : Call) :
    Prop where
  fails : ∀ fault, (session.callOn engine call).1 = .error fault ↔
    session.located call = .error fault
  refused : ∀ fault, session.located call = .error fault →
    (session.callOn engine call).2.1 = session
  resolved : ∀ script, session.located call = .ok script →
    ∃ report, (session.callOn engine call).1 = .ok report ∧
      session.Wraps engine call script report (session.callOn engine call).2.1

theorem executed_wraps (script : View) :
    session.Wraps engine call script (session.reported engine call script)
      (session.executed engine call script) where
  reported := ⟨rfl, rfl⟩
  start := rfl
  simulation := rfl
  machine := rfl
  interpreted := rfl
  kept := ⟨rfl, rfl⟩
  native := rfl
  unchecked off := by simp only [reported, off, Bool.false_eq_true, if_false]
  checked on := by
    simp only [reported, on, if_true]
    apply mismatches_eq_differences

theorem call_fulfils (session : Session Native) (call : Call) : session.Fulfils engine call := by
  cases located : session.located call with
  | error fault =>
      obtain ⟨answered, kept⟩ := call_on_of_unresolved engine located
      constructor
      · intro other
        rw [answered, located, Except.error.injEq, Except.error.injEq]
      · intro _ _
        exact kept
      · intro script found
        rw [located] at found
        contradiction
  | ok script =>
      obtain ⟨answered, went⟩ := call_on_of_resolved engine located
      constructor
      · intro fault
        simp only [answered, located, reduceCtorEq]
      · intro fault failed
        rw [located] at failed
        contradiction
      · intro other found
        rw [located] at found
        cases found
        rw [went]
        exact ⟨_, answered, executed_wraps engine script⟩

def callAll (engine : ImageEngine Native) (session : Session Native) (calls : List Call) :
    Session Native :=
  calls.foldl (fun earlier call => (earlier.callOn engine call).2.1) session

/-- The calls that find a script when their turn comes. An earlier call may have patched
the tables through which a later one looks. -/
def resolvedCalls (engine : ImageEngine Native) (session : Session Native) :
    List Call → List Call
  | [] => []
  | call :: rest =>
      let later := (session.callOn engine call).2.1.resolvedCalls engine rest
      match session.located call with
      | .ok _ => call :: later
      | .error _ => later

end Session

def ImageEngine.recorded {Native : Type} (engine : ImageEngine Native) :
    ImageEngine (Native × List Call) where
  cursor native := engine.cursor native.1
  interpreters := ⟨record .routine5C3FD5, record .routine5C23D1⟩
where
  record (dialect : Dialect) (image : Region) (native : Native × List Call) (variation : Int8)
      (param : UInt32) (selector : Int16) : Native × List Call :=
    let call : Call := ⟨dialect, variation, param, selector⟩
    (engine.execute image native.1 call, native.2 ++ [call])

theorem ImageEngine.execute_recorded {Native : Type} (engine : ImageEngine Native)
    (image : Region) (native : Native) (log : List Call) (call : Call) :
    engine.recorded.execute image (native, log) call =
      (engine.execute image native call, log ++ [call]) := by
  obtain ⟨dialect, variation, param, selector⟩ := call
  cases dialect <;> rfl

namespace Session

variable {Native : Type} (engine : ImageEngine Native)

def withLog (session : Session Native) (log : List Call) : Session (Native × List Call) :=
  ⟨session.settings, session.machine, session.flags, (session.native, log)⟩

theorem call_on_recorded (session : Session Native) (log : List Call) (call : Call) :
    ((session.withLog log).callOn engine.recorded call).2.1 =
      (session.callOn engine call).2.1.withLog
        (log ++ session.resolvedCalls engine [call]) := by
  have same : (session.withLog log).located call = session.located call := rfl
  simp only [resolvedCalls]
  cases located : session.located call with
  | error fault =>
      rw [(call_on_of_unresolved engine located).2,
        (call_on_of_unresolved engine.recorded (same.trans located)).2, List.append_nil]
  | ok script =>
      rw [(call_on_of_resolved engine located).2,
        (call_on_of_resolved engine.recorded (same.trans located)).2]
      simp only [executed, withLog, ImageEngine.execute_recorded]
      rfl

theorem resolved_calls_cons (session : Session Native) (call : Call) (rest : List Call) :
    session.resolvedCalls engine (call :: rest) =
      session.resolvedCalls engine [call] ++
        (session.callOn engine call).2.1.resolvedCalls engine rest := by
  simp only [resolvedCalls]
  cases session.located call <;> rfl

theorem call_all_recorded (session : Session Native) (log calls : List Call) :
    (session.withLog log).callAll engine.recorded calls =
      (session.callAll engine calls).withLog (log ++ session.resolvedCalls engine calls) := by
  induction calls generalizing session log with
  | nil => simp only [callAll, List.foldl_nil, resolvedCalls, List.append_nil]
  | cons call rest ih =>
      unfold callAll at ih ⊢
      rw [List.foldl_cons, List.foldl_cons, call_on_recorded, ih, List.append_assoc,
        ← resolved_calls_cons]

/-- Every call of a sequence fulfils its contract, and the calls that reach the game are
those that found a script, each of them once and in their order. -/
theorem calls_fulfil_contract (engine : ImageEngine Native) (session : Session Native)
    (calls : List Call) :
    (∀ index : Fin calls.length,
      (session.callAll engine (calls.take index)).Fulfils engine (calls.get index)) ∧
      (session.withLog []).callAll engine.recorded calls =
        (session.callAll engine calls).withLog (session.resolvedCalls engine calls) :=
  ⟨fun _ => call_fulfils engine _ _, call_all_recorded engine session [] calls⟩

/-- A script that doubles the index through which it was found. The next cell of the table
leads nowhere, so that the same call finds no script when it is made again. -/
example :
    let engine : ImageEngine Unit :=
      ⟨fun _ _ _ => .start, ⟨fun _ _ _ _ _ => (), fun _ _ _ _ _ => ()⟩⟩
    let layout : Layout := ⟨⟨0, 0⟩, ⟨0xFFFC1401, 0⟩, 0x1001, 0, 0⟩
    let session : Session Unit :=
      ⟨⟨layout, .off, true, 64⟩,
        ⟨⟨0x1000, ⟨#[0xF5, 1, 0xFF, 0, 0, 0, 0x10, 0, 0, 0, 0, 0, 0]⟩⟩, .active⟩, .clear, ()⟩
    let call : Call := ⟨.routine5C3FD5, 0, 0, -2⟩
    session.resolvedCalls engine [call, call] = [call] := by
  decide +kernel

end Session

end CameraScript
