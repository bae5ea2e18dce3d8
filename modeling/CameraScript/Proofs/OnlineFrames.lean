import CameraScript.Config
import CameraScript.Proofs.CallContract
import CameraScript.Proofs.UntracedWalks

/-!
# Calls online and frames offline

A wrapped call looks its script up anew and takes its cursor from the game. As long as the
game keeps the cursors that the walks end with, the calls are the frames of a playback of
the same script: the look-up always finds the same view, because walks leave the image in
its place, and the cursor of the game is the one that the playback carries over. Only the
position by which the game marks a script that has not begun cannot be carried over.
-/

namespace CameraScript

structure Region.Placed (original region : Region) : Prop where
  base : region.base = original.base
  size : region.size = original.size

namespace Region.Placed

variable {original region : Region}

theorem finish (placed : original.Placed region) : region.finish = original.finish := by
  have sizes := placed.size
  simp only [Region.size] at sizes
  simp only [Region.finish, placed.base, sizes]

theorem covers (placed : original.Placed region) {addr : UInt32} {count : Nat}
    (covered : original.Covers addr count) : region.Covers addr count := by
  simp only [Region.Covers, placed.base, placed.finish]
  exact covered

theorem within {view : View} {before after : Machine} (placed : original.Placed before.memory)
    (patched : before.PatchedWithin view after) : original.Placed after.memory where
  base := patched.base.trans placed.base
  size := patched.size.trans placed.size

end Region.Placed

theorem Region.covers_of_read_byte {memory : Region} {addr : UInt32} {byte : UInt8}
    (read : memory.readByte addr = .ok byte) : memory.Covers addr 1 :=
  Region.read_byte_ok_iff.mp ⟨byte, read⟩

theorem ScriptPlace.view_of_readable {memory : Region} {addr : UInt32}
    (covered : memory.Covers addr 1) :
    ScriptPlace.view ⟨addr - memory.base, none⟩ memory =
      .ok ⟨addr, memory.finish - addr.toNat⟩ := by
  have after := UInt32.le_iff_toNat_le.mp covered.1
  have bound := addr.toNat_lt
  have distance : (addr - memory.base).toNat = addr.toNat - memory.base.toNat :=
    UInt32.toNat_sub_of_le _ _ covered.1
  have inSpace : memory.base.toNat + (addr - memory.base).toNat < UInt32.size := by
    rw [distance]
    change _ < 2 ^ 32
    omega
  have whole : memory.base + (addr - memory.base) = addr := by
    rw [UInt32.add_comm, UInt32.sub_add_cancel]
  simp only [ScriptPlace.view, if_pos inSpace, whole, View.region_view_eq, if_pos covered,
    Option.elim_none]

theorem mismatches_self (dialect : Dialect) (cursor : Cursor) :
    mismatches dialect cursor cursor = [] := by
  simp [mismatches]

namespace Session

variable {Native : Type} (engine : ScriptEngine Native)

theorem call_of_resolved {session : Session Native} {call : Call} {script : View}
    (resolved : session.resolved? call = some script) :
    let ran := (session.simulator call).run script (session.startCursor engine call)
      session.machine
    let executed := engine.execute session.native call
    let actual := engine.cursor executed call.dialect call.variation
    (session.call engine call).1 = .ok
        { dialect := call.dialect
          script := script
          start := session.startCursor engine call
          simulation := ran.simulation
          native := actual
          mismatches :=
            if session.settings.crossCheck then
              mismatches call.dialect ran.simulation.cursor actual
            else [] } ∧
      (session.call engine call).2.1 =
        { session with machine := ran.machine, native := executed } := by
  have went := call_on_of_resolved engine.onImage (located_of_resolved resolved)
  simp only [reported, executed, ScriptEngine.execute_on_image] at went
  exact went

/-- A call of the fixed script of a dialect, which lies at a readable address. -/
structure Locates (session : Session Native) (call : Call) (addr : UInt32) : Prop where
  selected : call.selector = -1
  fixed : session.settings.layout.fixedScripts.get call.dialect = addr
  covered : session.machine.memory.Covers addr 1

variable {start session : Session Native} {call : Call} {addr : UInt32}

theorem Locates.placed (locates : start.Locates call addr)
    (settings : session.settings = start.settings)
    (placed : start.machine.memory.Placed session.machine.memory) : session.Locates call addr where
  selected := locates.selected
  fixed := by
    rw [settings]
    exact locates.fixed
  covered := placed.covers locates.covered

theorem Locates.resolved (locates : session.Locates call addr) :
    session.resolved? call = some ⟨addr, session.machine.memory.finish - addr.toNat⟩ := by
  have chosen : Selector.ofNumber? (-1) = some .fixed := rfl
  simp only [resolved?, Layout.resolve, locates.selected, chosen, Layout.scriptAddr, locates.fixed,
    View.region_view_eq, if_pos locates.covered]
  rfl

def afterCalls (call : Call) (session : Session Native) (count : Nat) : Session Native :=
  Nat.repeat (fun earlier => (earlier.call engine call).2.1) count session

def answer (call : Call) (session : Session Native) (index : Nat) :
    Except ResolveError CallReport :=
  ((session.afterCalls engine call index).call engine call).1

theorem after_calls_succ (call : Call) (session : Session Native) (count : Nat) :
    session.afterCalls engine call (count + 1) =
      ((session.afterCalls engine call count).call engine call).2.1 :=
  rfl

theorem Locates.after_calls (locates : start.Locates call addr) (index : Nat) :
    (start.afterCalls engine call index).settings = start.settings ∧
      start.machine.memory.Placed (start.afterCalls engine call index).machine.memory ∧
      (start.afterCalls engine call index).resolved? call =
        some ⟨addr, start.machine.memory.finish - addr.toNat⟩ := by
  have found {later : Session Native} (settings : later.settings = start.settings)
      (placed : start.machine.memory.Placed later.machine.memory) :
      later.resolved? call = some ⟨addr, start.machine.memory.finish - addr.toNat⟩ := by
    rw [← placed.finish]
    exact (locates.placed settings placed).resolved
  induction index with
  | zero => exact ⟨rfl, ⟨rfl, rfl⟩, found rfl ⟨rfl, rfl⟩⟩
  | succ index ih =>
      obtain ⟨settings, placed, resolved⟩ := ih
      have after := (call_of_resolved engine resolved).2
      have walked := placed.within <|
        Simulator.run_patched_within ((start.afterCalls engine call index).simulator call)
          ⟨addr, start.machine.memory.finish - addr.toNat⟩
          ((start.afterCalls engine call index).startCursor engine call) _
      rw [after_calls_succ, after]
      exact ⟨settings, walked, found settings walked⟩

/-- Each of the calls reports the walk of that script from the cursor that the game holds,
and no mismatch if the game then holds the cursor of the walk. -/
theorem Locates.answer (locates : start.Locates call addr) (index : Nat) :
    let later := start.afterCalls engine call index
    let ran := (start.simulator call).run ⟨addr, start.machine.memory.finish - addr.toNat⟩
      (later.startCursor engine call) later.machine
    ∃ report, start.answer engine call index = .ok report ∧ report.simulation = ran.simulation ∧
      (start.afterCalls engine call (index + 1)).machine = ran.machine ∧
      (engine.cursor (start.afterCalls engine call (index + 1)).native call.dialect
          call.variation = report.simulation.cursor → report.mismatches = []) := by
  intro later ran
  obtain ⟨settings, -, resolved⟩ := locates.after_calls engine index
  have same : later.simulator call = start.simulator call := by
    simp only [simulator, later, settings]
  obtain ⟨answered, after⟩ := call_of_resolved engine resolved
  rw [same] at answered after
  refine ⟨_, answered, rfl, ?_, ?_⟩
  · rw [after_calls_succ, after]
  · intro followed
    rw [after_calls_succ, after] at followed
    simp only at followed ⊢
    rw [followed]
    split
    · exact mismatches_self call.dialect _
    · rfl

variable {engine}

/-- The playback of the bytes of a session that its calls are compared with. -/
def offline (call : Call) (addr : UInt32) (session : Session Native) (frames : Nat) : Playback :=
  Playback.play (session.simulator call) ⟨addr, session.machine.memory.finish - addr.toNat⟩ frames
    session.machine

/-- A session has come as far as a playback. -/
structure Reaches (engine : ScriptEngine Native) (call : Call) (session : Session Native)
    (playback : Playback) : Prop where
  machine : session.machine = playback.machine
  cursor : session.startCursor engine call = playback.cursor

theorem Reaches.next (locates : start.Locates call addr) {index : Nat}
    (reaches : (start.afterCalls engine call index).Reaches engine call
      (start.offline call addr index)) :
    ∃ report, start.answer engine call index = .ok report ∧
      (Playback.frame (start.simulator call) ⟨addr, start.machine.memory.finish - addr.toNat⟩
        start.machine index).simulation = report.simulation ∧
      (start.offline call addr (index + 1)).cursor = report.simulation.cursor ∧
      (start.afterCalls engine call (index + 1)).machine =
        (start.offline call addr (index + 1)).machine := by
  obtain ⟨report, answered, simulated, after, -⟩ := locates.answer engine index
  rw [reaches.cursor, reaches.machine] at simulated after
  obtain ⟨cursor, machine, -⟩ := Playback.play_next (start.simulator call)
    ⟨addr, start.machine.memory.finish - addr.toNat⟩ start.machine index
  refine ⟨report, answered, ?_, ?_, after.trans machine.symm⟩
  · rw [simulated]
    rfl
  · rw [simulated]
    exact cursor

/-- As long as the game keeps the cursors of the walks, and no walk ends where the game
marks a script as not begun, the calls come as far as the playback. -/
theorem Locates.reaches (locates : start.Locates call addr)
    (unstarted : (engine.cursor start.native call.dialect call.variation).position =
      Cursor.unstarted) {frames : Nat}
    (follows : ∀ index < frames, ∀ report, start.answer engine call index = .ok report →
      engine.cursor (start.afterCalls engine call (index + 1)).native call.dialect
        call.variation = report.simulation.cursor)
    (begun : ∀ index, index + 1 < frames →
      (start.offline call addr (index + 1)).cursor.position ≠ Cursor.unstarted) :
    ∀ index < frames, (start.afterCalls engine call index).Reaches engine call
      (start.offline call addr index) := by
  intro index before
  induction index with
  | zero =>
      refine ⟨rfl, ?_⟩
      change Cursor.ofNative (engine.cursor start.native call.dialect call.variation) = .start
      rw [Cursor.ofNative, if_pos unstarted]
  | succ index ih =>
      obtain ⟨report, answered, -, cursor, machine⟩ := (ih (by omega)).next locates
      refine ⟨machine, ?_⟩
      rw [startCursor, follows index (by omega) report answered, ← cursor]
      exact Cursor.of_native_of_ne (begun index before)

/-- Calls whose cursors the game keeps report no mismatch. They are the frames of a
playback of the same bytes, whatever that playback traces, unless a walk before the last
ends where the game marks a script as not begun. -/
theorem calls_match_frames (engine : ScriptEngine Native) (config : CameraConfig)
    (environment trace : TraceFlags) (layout : Layout) (memory : Region) (native : Native)
    (dialect : Dialect) (variation : Int8) (param : UInt32) (frames : Nat) :
    let addr := (config.layout.getD layout).fixedScripts.get dialect
    let call : Call := ⟨dialect, variation, param, -1⟩
    let online := config.session environment layout memory native
    (∃ byte, memory.readByte addr = .ok byte) →
      (engine.cursor native dialect variation).position = Cursor.unstarted →
      (∀ index < frames, ∀ report, online.answer engine call index = .ok report →
        engine.cursor (online.afterCalls engine call (index + 1)).native dialect variation =
          report.simulation.cursor) →
      (∀ index < frames, ∃ report, online.answer engine call index = .ok report ∧
        report.mismatches = []) ∧
      ∃ playback,
        simulateFrames (Simulator.withLimit dialect.table trace config.stepLimit.toNat)
          ⟨addr - memory.base, none⟩ frames ⟨memory, .ofEnabled config.patchScriptArgs⟩ =
            .ok playback ∧
        ((∀ (index : Nat) (run : Simulation), index + 1 < frames →
            playback.runs[index]? = some run → run.cursor.position ≠ Cursor.unstarted) →
          (∀ index < frames, ∃ report, online.answer engine call index = .ok report ∧
            playback.runs[index]? = some report.simulation) ∧
          (online.afterCalls engine call frames).machine = playback.machine) := by
  intro addr call online readable unstarted follows
  obtain ⟨byte, read⟩ := readable
  have covered : memory.Covers addr 1 := Region.covers_of_read_byte read
  have locates : online.Locates call addr := ⟨rfl, rfl, covered⟩
  constructor
  · intro index before
    obtain ⟨report, answered, -, -, clean⟩ := locates.answer engine index
    exact ⟨report, answered, clean (follows index before report answered)⟩
  · refine ⟨_, simulate_frames_of_view (ScriptPlace.view_of_readable covered) frames,
      fun begun => ?_⟩
    have tables : (Simulator.withLimit dialect.table trace config.stepLimit.toNat).table =
      (online.simulator call).table := rfl
    obtain ⟨-, machines, runs⟩ := Playback.play_untraced tables rfl
      ⟨addr, memory.finish - addr.toNat⟩ frames ⟨memory, .ofEnabled config.patchScriptArgs⟩
    rw [machines]
    rw [runs] at begun ⊢
    have run {index : Nat} (before : index < frames) := Playback.runs_of_lt (online.simulator call)
      ⟨addr, memory.finish - addr.toNat⟩ online.machine before
    have reaches := locates.reaches unstarted follows fun index before =>
      begun index _ before (run (by omega))
    constructor
    · intro index before
      obtain ⟨report, answered, simulated, -, -⟩ := (reaches index before).next locates
      exact ⟨report, answered, (run before).trans (congrArg some simulated)⟩
    · cases frames with
      | zero => rfl
      | succ last =>
          obtain ⟨-, -, -, -, left⟩ := (reaches last (by omega)).next locates
          exact left

/-- A script that waits two frames and begins anew, in a game that plays along. -/
theorem calls_match_frames_of_loop :
    let engine : ScriptEngine (List Cursor) :=
      ⟨fun native _ _ => native.headD .start, fun native _ => native.tail⟩
    let config : CameraConfig := { CameraConfig.standard with stepLimit := 64 }
    let layout : Layout := ⟨⟨0, 0x1001⟩, ⟨0, 0⟩, 0, 0, 0⟩
    let memory : Region := ⟨0x1000, ⟨#[0, 0xF5, 1, 0xF4, 0xFE, 0xC0]⟩⟩
    let call : Call := ⟨.routine5C23D1, 0, 0, -1⟩
    let online := config.session .off layout memory [⟨255, 7⟩, ⟨2, 1⟩, ⟨2, 0⟩, ⟨2, 1⟩]
    let simulator := Simulator.withLimit Dialect.routine5C23D1.table .camera 64
    let playback := Playback.play simulator ⟨0x1001, 5⟩ 3 ⟨memory, .active⟩
    simulateFrames simulator ⟨0x1001 - 0x1000, none⟩ 3 ⟨memory, .active⟩ = .ok playback ∧
      playback.machine.memory.bytes = #[0, 0xF5, 2, 0xF4, 0xFE, 0xC0] ∧
      (online.afterCalls engine call 3).machine = playback.machine ∧
      ∀ index < 3, ∃ report, online.answer engine call index = .ok report ∧
        playback.runs[index]? = some report.simulation := by
  intro engine config layout memory call online simulator playback
  have held : ∀ index < 3, (online.answer engine call index).toOption.map
      (fun report => report.simulation.cursor) =
        some (engine.cursor (online.afterCalls engine call (index + 1)).native
          .routine5C23D1 0) := by
    decide +kernel
  have begun : ∀ run ∈ playback.runs, run.cursor.position ≠ Cursor.unstarted := by
    decide +kernel
  have opened : ScriptPlace.view ⟨0x1001 - 0x1000, none⟩ memory = .ok ⟨0x1001, 5⟩ := by cbv
  have played : simulateFrames simulator ⟨0x1001 - 0x1000, none⟩ 3 ⟨memory, .active⟩ =
      .ok playback := by
    simp only [simulateFrames, opened]
    rfl
  obtain ⟨-, other, simulated, matched⟩ := calls_match_frames engine config .off .camera layout
    memory [⟨255, 7⟩, ⟨2, 1⟩, ⟨2, 0⟩, ⟨2, 1⟩] .routine5C23D1 0 0 3
    ⟨0xF5, Region.read_byte_eq_ok_iff.mpr (by decide +kernel)⟩ rfl (by
      intro index before report answered
      have same := held index before
      rw [answered] at same
      exact (Option.some.inj same).symm)
  have same : other = playback := Except.ok.inj (simulated.symm.trans played)
  rw [same] at matched
  obtain ⟨reported, machine⟩ := matched fun index run _ found =>
    begun run (Array.mem_of_getElem? found)
  exact ⟨played, by decide +kernel, machine, reported⟩

end Session

end CameraScript
