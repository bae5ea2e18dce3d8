import CameraScript.Frames
import CameraScript.Layout
import CameraScript.Slots

/-!
The subsystem around the game's own interpreters. For each call it resolves the
script, walks it (doubling arguments on the way), lets the game interpret it, and
compares the cursors at which both ended.
-/

namespace CameraScript

/-- A call of an interpreter of the game. The wrapper of one dialect makes calls of that
dialect alone. -/
structure Call where
  dialect : Dialect
  variation : Int8
  param : UInt32
  selector : Int16
  deriving DecidableEq, Repr

/-- The game's own interpreters, as operations on its state. -/
structure ScriptEngine (Native : Type) where
  /-- The cursor as the game stores it. -/
  cursor : Native → Dialect → Int8 → Cursor
  execute : Native → Call → Native

/-- The game's own interpreters, one for each dialect. They read their scripts out of the
image, as it stands when the game is let run. -/
structure ImageEngine (Native : Type) where
  /-- The cursor as the game stores it. -/
  cursor : Native → Dialect → Int8 → Cursor
  interpreters : PerDialect (Region → Native → Int8 → UInt32 → Int16 → Native)

def ImageEngine.execute {Native : Type} (engine : ImageEngine Native) (image : Region)
    (native : Native) (call : Call) : Native :=
  engine.interpreters.get call.dialect image native call.variation call.param call.selector

/-- An engine of which it is not modelled what it reads out of the image. -/
def ScriptEngine.onImage {Native : Type} (engine : ScriptEngine Native) : ImageEngine Native where
  cursor := engine.cursor
  interpreters := ⟨interpret .routine5C3FD5, interpret .routine5C23D1⟩
where
  interpret (dialect : Dialect) (_ : Region) (native : Native) (variation : Int8) (param : UInt32)
      (selector : Int16) : Native :=
    engine.execute native ⟨dialect, variation, param, selector⟩

theorem ScriptEngine.execute_on_image {Native : Type} (engine : ScriptEngine Native)
    (image : Region) (native : Native) (call : Call) :
    engine.onImage.execute image native call = engine.execute native call := by
  obtain ⟨dialect, variation, param, selector⟩ := call
  cases dialect <;> rfl

structure CameraSettings where
  layout : Layout
  trace : TraceFlags
  crossCheck : Bool
  stepLimit : Nat
  deriving DecidableEq, Repr

/-- The subsystem with the game's memory and the rest of the game. -/
structure Session (Native : Type) where
  settings : CameraSettings
  machine : Machine
  flags : SlotFlags
  native : Native

structure CallReport where
  dialect : Dialect
  script : View
  start : Cursor
  simulation : Simulation
  native : Cursor
  mismatches : List Diagnostic
  deriving DecidableEq, Repr

namespace CallReport

def matched (report : CallReport) : Bool :=
  report.mismatches.isEmpty

def diagnostics (report : CallReport) : List Diagnostic :=
  report.simulation.diagnostics ++ report.mismatches

end CallReport

def mismatches (dialect : Dialect) (simulated actual : Cursor) : List Diagnostic :=
  (if simulated.position = actual.position then []
    else [.cursorMismatch dialect .position simulated.position actual.position]) ++
  (if simulated.wait = actual.wait then []
    else [.cursorMismatch dialect .wait simulated.wait actual.wait])

namespace Session

variable {Native : Type}

/-- The walk comes before the game's own interpretation, so that the game reads the
doubled arguments. A script that cannot be resolved is not interpreted at all. -/
def callOn (engine : ImageEngine Native) (session : Session Native) (call : Call) :
    Except ResolveError CallReport × Session Native × Array Event :=
  match session with
  | ⟨settings, machine, flags, native⟩ =>
      let calling := settings.trace.record #[]
        (.called call.dialect call.variation call.param call.selector)
      match settings.layout.resolve settings.trace machine.memory call.dialect call.variation
          call.selector with
      | (.error fault, resolving) =>
          (.error fault, ⟨settings, machine, flags, native⟩, calling ++ resolving)
      | (.ok script, resolving) =>
          let start := Cursor.ofNative (engine.cursor native call.dialect call.variation)
          let simulator :=
            Simulator.withLimit call.dialect.table settings.trace settings.stepLimit
          match simulator.run script start machine with
          | ⟨simulation, after, walking⟩ =>
              let executed := engine.execute after.memory native call
              let actual := engine.cursor executed call.dialect call.variation
              let differing :=
                if settings.crossCheck then mismatches call.dialect simulation.cursor actual
                else []
              (.ok ⟨call.dialect, script, start, simulation, actual, differing⟩,
                ⟨settings, after, flags, executed⟩,
                calling ++ resolving ++ walking ++ (differing.map Event.raised).toArray)

def call (engine : ScriptEngine Native) (session : Session Native) (call : Call) :
    Except ResolveError CallReport × Session Native × Array Event :=
  session.callOn engine.onImage call

def addFunction (host : FunctionHost Native) (session : Session Native) (function : UInt32) :
    Except SlotOutOfRange Nat × Session Native :=
  match session.flags.register host session.native function with
  | (answer, flags, native) => (answer, { session with flags, native })

/-- The dispatch of a frame: compensation first, then the game's own routine. -/
def dispatch (host : FunctionHost Native) (session : Session Native) :
    Session Native × Array Event :=
  match session.flags.dispatch host session.settings.trace session.native with
  | (flags, native, log) => ({ session with flags, native }, log)

end Session

end CameraScript
