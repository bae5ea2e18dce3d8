import CameraScript.Proofs.CallContract
import CameraScript.Proofs.UntracedWalks
import CameraScript.Proofs.WalkLogs

/-!
# Sessions that are traced and sessions that are not

Whatever is asked of the subsystem, in whatever order: the trace flags have no part in the
answers, in what becomes of the image and its record, and in what reaches the game. They
have no part in the errors of the log either, because these are the diagnostics of the
answers.
-/

namespace CameraScript

/-- What the subsystem can be asked for. Looking up a script and walking one is also done
without a call of the game. -/
inductive Request where
  | resolve (layout : Layout) (dialect : Dialect) (variation : Int8) (selector : Int16)
  | run (table : Table) (limit : Nat) (view : View) (cursor : Cursor)
  | call (call : Call)
  | register (function : UInt32)
  | dispatch

inductive Answer where
  | resolved (script : Except ResolveError View)
  | simulated (simulation : Simulation)
  | called (report : Except ResolveError CallReport)
  | registered (slot : Except SlotOutOfRange Nat)
  | dispatched

def Answer.diagnostics : Answer → List Diagnostic
  | simulated simulation => simulation.diagnostics
  | called (.ok report) => report.diagnostics
  | called (.error _) | resolved _ | registered _ | dispatched => []

structure Transcript (Native : Type) where
  answers : List Answer
  session : Session Native
  log : Array Event

theorem Layout.resolve_untraced (layout : Layout) (left right : TraceFlags) (memory : Region)
    (dialect : Dialect) (variation : Int8) (selector : Int16) :
    (layout.resolve left memory dialect variation selector).1 =
      (layout.resolve right memory dialect variation selector).1 := by
  unfold resolve
  split
  · rfl
  · split <;> rfl

theorem Layout.resolve_logged (layout : Layout) (flags : TraceFlags) (memory : Region)
    (dialect : Dialect) (variation : Int8) (selector : Int16) :
    Logged flags (layout.resolve flags memory dialect variation selector).2 [] := by
  unfold resolve
  split
  · exact .empty flags
  · split
    · exact .empty flags
    · exact (Logged.empty flags).record rfl

theorem SlotFlags.dispatch_logged {Native : Type} (host : FunctionHost Native)
    (flags : TraceFlags) (slots : SlotFlags) (native : Native) :
    Logged flags (slots.dispatch host flags native).2.2 [] := by
  have started (functions : List UInt32) {log : Array Event} (logged : Logged flags log []) :
      Logged flags
        (functions.foldl (fun log function => flags.record log (.functionStarted function)) log)
        [] := by
    induction functions generalizing log with
    | nil => exact logged
    | cons function rest ih => exact ih (logged.record rfl)
  exact started _ (.empty flags)

namespace Session

variable {Native : Type} (engine : ImageEngine Native) (host : FunctionHost Native)

def tracing (session : Session Native) (flags : TraceFlags) : Session Native :=
  { session with settings := { session.settings with trace := flags } }

def serve (session : Session Native) : Request → Answer × Session Native × Array Event
  | .resolve layout dialect variation selector =>
      match layout.resolve session.settings.trace session.machine.memory dialect variation
          selector with
      | (script, log) => (.resolved script, session, log)
  | .run table limit view cursor =>
      match (Simulator.withLimit table session.settings.trace limit).run view cursor
          session.machine with
      | ⟨simulation, machine, log⟩ => (.simulated simulation, { session with machine }, log)
  | .call call =>
      match session.callOn engine call with
      | (report, after, log) => (.called report, after, log)
  | .register function =>
      match session.addFunction host function with
      | (slot, after) => (.registered slot, after, #[])
  | .dispatch =>
      match session.dispatch host with
      | (after, log) => (.dispatched, after, log)

def serveAll (session : Session Native) : List Request → Transcript Native
  | [] => ⟨[], session, #[]⟩
  | request :: rest =>
      match session.serve engine host request with
      | (answer, after, log) =>
          let later := after.serveAll rest
          ⟨answer :: later.answers, later.session, log ++ later.log⟩

theorem located_tracing (session : Session Native) (flags : TraceFlags) (call : Call) :
    (session.tracing flags).located call = session.located call :=
  session.settings.layout.resolve_untraced ..

theorem walked_tracing (session : Session Native) (flags : TraceFlags) (call : Call)
    (script : View) :
    ((session.tracing flags).walked engine call script).simulation =
        (session.walked engine call script).simulation ∧
      ((session.tracing flags).walked engine call script).machine =
        (session.walked engine call script).machine :=
  have tables : ((session.tracing flags).simulator call).table = (session.simulator call).table :=
    rfl
  Simulator.run_untraced tables rfl script _ session.machine

theorem call_on_tracing (session : Session Native) (flags : TraceFlags) (call : Call) :
    ((session.tracing flags).callOn engine call).1 = (session.callOn engine call).1 ∧
      ((session.tracing flags).callOn engine call).2.1 =
        (session.callOn engine call).2.1.tracing flags := by
  have same := session.located_tracing flags call
  cases located : session.located call with
  | error fault =>
      obtain ⟨answered, kept⟩ := call_on_of_unresolved engine located
      obtain ⟨again, keptAgain⟩ := call_on_of_unresolved engine (same.trans located)
      rw [answered, kept, again, keptAgain]
      exact ⟨rfl, rfl⟩
  | ok script =>
      obtain ⟨answered, went⟩ := call_on_of_resolved engine located
      obtain ⟨again, wentAgain⟩ := call_on_of_resolved engine (same.trans located)
      obtain ⟨simulation, machine⟩ := session.walked_tracing engine flags call script
      rw [answered, went, again, wentAgain]
      constructor
      · simp only [reported, simulation, machine]
        rfl
      · simp only [executed, machine]
        rfl

theorem call_on_logged (session : Session Native) (call : Call) :
    Logged session.settings.trace (session.callOn engine call).2.2
      (Answer.called (session.callOn engine call).1).diagnostics := by
  obtain ⟨settings, machine, flags, native⟩ := session
  have calling : Logged settings.trace
      (settings.trace.record #[] (.called call.dialect call.variation call.param call.selector))
      [] := (Logged.empty settings.trace).record rfl
  have resolving := settings.layout.resolve_logged settings.trace machine.memory call.dialect
    call.variation call.selector
  simp only [callOn]
  split
  · rename_i fault events answer
    rw [answer] at resolving
    exact calling.append resolving
  · rename_i script events answer
    rw [answer] at resolving
    have walking := (Simulator.withLimit call.dialect.table settings.trace
      settings.stepLimit).run_logged script
        (Cursor.ofNative (engine.cursor native call.dialect call.variation)) machine
    exact ((calling.append resolving).append walking).append (.raised settings.trace _)

theorem serve_tracing (session : Session Native) (flags : TraceFlags) (request : Request) :
    ((session.tracing flags).serve engine host request).1 =
        (session.serve engine host request).1 ∧
      ((session.tracing flags).serve engine host request).2.1 =
        (session.serve engine host request).2.1.tracing flags := by
  cases request with
  | resolve layout dialect variation selector =>
      refine ⟨congrArg Answer.resolved ?_, rfl⟩
      exact layout.resolve_untraced ..
  | run table limit view cursor =>
      have tables : (Simulator.withLimit table flags limit).table =
          (Simulator.withLimit table session.settings.trace limit).table := rfl
      obtain ⟨simulation, machine⟩ :=
        Simulator.run_untraced tables rfl view cursor session.machine
      refine ⟨congrArg Answer.simulated simulation, ?_⟩
      change Session.mk _ _ _ _ = Session.mk _ _ _ _
      rw [Session.mk.injEq]
      exact ⟨rfl, machine, rfl, rfl⟩
  | call call =>
      obtain ⟨report, after⟩ := session.call_on_tracing engine flags call
      exact ⟨congrArg Answer.called report, after⟩
  | register function => exact ⟨rfl, rfl⟩
  | dispatch => exact ⟨rfl, rfl⟩

theorem serve_logged (session : Session Native) (request : Request) :
    Logged session.settings.trace (session.serve engine host request).2.2
      (session.serve engine host request).1.diagnostics := by
  cases request with
  | resolve layout dialect variation selector => exact layout.resolve_logged ..
  | run table limit view cursor =>
      exact (Simulator.withLimit table session.settings.trace limit).run_logged view cursor _
  | call call => exact session.call_on_logged engine call
  | register function => exact .empty _
  | dispatch => exact session.flags.dispatch_logged host _ _

theorem serve_settings (session : Session Native) (request : Request) :
    (session.serve engine host request).2.1.settings = session.settings := by
  cases request with
  | resolve | run | register | dispatch => rfl
  | call call =>
      change (session.callOn engine call).2.1.settings = session.settings
      cases located : session.located call with
      | error fault => rw [(call_on_of_unresolved engine located).2]
      | ok script =>
          rw [(call_on_of_resolved engine located).2]
          rfl

theorem serve_all_tracing (session : Session Native) (flags : TraceFlags)
    (requests : List Request) :
    ((session.tracing flags).serveAll engine host requests).answers =
        (session.serveAll engine host requests).answers ∧
      ((session.tracing flags).serveAll engine host requests).session =
        (session.serveAll engine host requests).session.tracing flags := by
  induction requests generalizing session with
  | nil => exact ⟨rfl, rfl⟩
  | cons request rest ih =>
      obtain ⟨answer, after⟩ := session.serve_tracing engine host flags request
      obtain ⟨answers, last⟩ := ih (session.serve engine host request).2.1
      simp only [serveAll]
      rw [answer, after, answers, last]
      exact ⟨rfl, rfl⟩

theorem serve_all_logged (session : Session Native) (requests : List Request) :
    Logged session.settings.trace (session.serveAll engine host requests).log
      ((session.serveAll engine host requests).answers.flatMap Answer.diagnostics) := by
  induction requests generalizing session with
  | nil => exact .empty _
  | cons request rest ih =>
      have served := session.serve_logged engine host request
      have later := ih (session.serve engine host request).2.1
      rw [session.serve_settings engine host request] at later
      exact served.append later

/-- Under any two settings of the trace flags a sequence of requests has the same answers, and
leaves the same image, record and flags. The game comes to the same state, and so does a game
that counts its timings or keeps a list of its calls. The errors in the log are the same, and
traces are there only if one of the flags asks for them. -/
theorem serve_all_untraced (engine : ImageEngine Native) (host : FunctionHost Native)
    (session : Session Native) (requests : List Request) (left right : TraceFlags) :
    let first := (session.tracing left).serveAll engine host requests
    let second := (session.tracing right).serveAll engine host requests
    first.answers = second.answers ∧ first.session.machine = second.session.machine ∧
      first.session.flags = second.session.flags ∧
      first.session.native = second.session.native ∧
      first.log.toList.filter (fun event => event.level = .error) =
        second.log.toList.filter (fun event => event.level = .error) ∧
      ∀ event ∈ first.log, event.level = .trace →
        left.all = true ∨ left.battleCamera = true := by
  intro first second
  obtain ⟨answers, last⟩ := session.serve_all_tracing engine host left requests
  obtain ⟨answersAgain, lastAgain⟩ := session.serve_all_tracing engine host right requests
  have same : first.answers = second.answers := answers.trans answersAgain.symm
  have logged := (session.tracing left).serve_all_logged engine host requests
  have loggedAgain := (session.tracing right).serve_all_logged engine host requests
  refine ⟨same, ?_, ?_, ?_, ?_, ?_⟩
  · simp only [first, second, last, lastAgain]
    rfl
  · simp only [first, second, last, lastAgain]
    rfl
  · simp only [first, second, last, lastAgain]
    rfl
  · rw [logged.errors, loggedAgain.errors]
    exact congrArg (fun given => (given.flatMap Answer.diagnostics).map Event.raised) same
  · intro event member traced
    have enabled := logged.traces event member traced
    change (left.all || left.battleCamera) = true at enabled
    rwa [Bool.or_eq_true] at enabled

end Session

end CameraScript
