import CameraScript.Camera
import CameraScript.Proofs.PlaybackFrames
import CameraScript.Proofs.WalkFrame

/-!
# The account of doubled bytes over a whole lifetime

A lifetime is any sequence of patches, walks, wrapped calls and writes of the host.
It is followed machine by machine, so that every moment is covered, also those
between two steps of one walk. Each moment of the subsystem is one patch or none;
the account is kept by a patch and therefore by every lifetime.
-/

namespace CameraScript

inductive Author where
  | host
  | subsystem
  deriving DecidableEq

/-- One moment: the machine before it and the machine after it. -/
structure Passage where
  author : Author
  before : Machine
  after : Machine

namespace Passage

/-- A moment of the subsystem rewrites an address when the byte there changes or
when the address becomes recorded, which also shows when the double of a byte is
the byte itself. -/
def Rewrites (moment : Passage) (addr : UInt32) : Prop :=
  moment.author = .subsystem ∧
    (moment.before.memory.byte? addr ≠ moment.after.memory.byte? addr ∨
      (moment.before.patcher.isPatched addr = false ∧
        moment.after.patcher.isPatched addr = true))

/-- The host may write any image but knows nothing of the record. The subsystem
patches or does nothing. -/
inductive Lawful : Passage → Prop where
  | write (machine : Machine) (memory : Region) :
      Lawful ⟨.host, machine, { machine with memory }⟩
  | idle (machine : Machine) : Lawful ⟨.subsystem, machine, machine⟩
  | patch (machine : Machine) (addr : UInt32) :
      Lawful ⟨.subsystem, machine, (machine.patch addr).2⟩

/-- Each moment begins where the one before it ended. -/
def Connected (start : Machine) : List Passage → Machine → Prop
  | [], finish => start = finish
  | moment :: rest, finish => moment.before = start ∧ Connected moment.after rest finish

theorem connected_append {start middle finish : Machine} {first second : List Passage}
    (earlier : Connected start first middle) (later : Connected middle second finish) :
    Connected start (first ++ second) finish := by
  induction first generalizing start with
  | nil =>
      cases earlier
      exact later
  | cons moment rest ih => exact ⟨earlier.1, ih earlier.2⟩

theorem Lawful.keeps_patched {moment : Passage} (lawful : moment.Lawful) {addr : UInt32}
    (known : moment.before.patcher.isPatched addr = true) :
    moment.after.patcher.isPatched addr = true := by
  cases lawful with
  | write => exact known
  | idle => exact known
  | patch machine patched => exact machine.patch_keeps_patched patched known

/-- What is rewritten was not recorded before, and is recorded from then on. -/
theorem Lawful.rewrites_records {moment : Passage} (lawful : moment.Lawful) {addr : UInt32}
    (rewrites : moment.Rewrites addr) :
    moment.before.patcher.isPatched addr = false ∧
      moment.after.patcher.isPatched addr = true := by
  obtain ⟨own, changed | recorded⟩ := rewrites
  · cases lawful with
    | write => contradiction
    | idle => exact absurd rfl changed
    | patch machine patched =>
        have same : addr = patched := Decidable.byContradiction fun different =>
          changed (machine.byte_patch_of_ne different).symm
        subst same
        rcases machine.patch_cases addr with
          ⟨-, went⟩ | ⟨-, -, went⟩ | ⟨-, -, -, went⟩ | ⟨-, fresh, before, -, went⟩
        · exact absurd (by rw [went]) changed
        · exact absurd (by rw [went]) changed
        · exact absurd (by rw [went]) changed
        · refine ⟨fresh, ?_⟩
          rw [went]
          exact (machine.double_is_patched addr addr before).mpr (.inl rfl)
  · exact recorded

/-- What every moment preserves holds at all of them. -/
theorem connected_invariant (Holds : Machine → Prop) {start finish : Machine}
    {moments : List Passage} (connected : Connected start moments finish)
    (kept : ∀ moment ∈ moments, Holds moment.before → Holds moment.after)
    (holds : Holds start) :
    Holds finish ∧ ∀ moment ∈ moments, Holds moment.before ∧ Holds moment.after := by
  induction moments generalizing start with
  | nil =>
      cases connected
      exact ⟨holds, by simp⟩
  | cons first rest ih =>
      obtain ⟨begins, continues⟩ := connected
      have before : Holds first.before := by
        rw [begins]
        exact holds
      have after := kept first List.mem_cons_self before
      obtain ⟨last, always⟩ := ih continues
        (fun moment member => kept moment (List.mem_cons_of_mem _ member)) after
      refine ⟨last, ?_⟩
      intro moment member
      rcases List.mem_cons.mp member with rfl | later
      · exact ⟨before, after⟩
      · exact always moment later

theorem own_preserves {Holds : Machine → Prop}
    (kept : ∀ machine addr, Holds machine → Holds (machine.patch addr).2) {moments : List Passage}
    (own : ∀ moment ∈ moments, moment.Lawful ∧ moment.author = .subsystem) :
    ∀ moment ∈ moments, Holds moment.before → Holds moment.after := by
  intro moment member before
  obtain ⟨lawful, author⟩ := own moment member
  cases lawful with
  | write => contradiction
  | idle => exact before
  | patch machine addr => exact kept machine addr before

theorem connected_preserves {Holds : Machine → Prop}
    (kept : ∀ machine addr, Holds machine → Holds (machine.patch addr).2)
    {start finish : Machine} {moments : List Passage}
    (connected : Connected start moments finish)
    (own : ∀ moment ∈ moments, moment.Lawful ∧ moment.author = .subsystem)
    (holds : Holds start) : ∀ moment ∈ moments, Holds moment.after := fun moment member =>
  ((connected_invariant Holds connected (own_preserves kept own) holds).2 moment member).2

theorem connected_keeps_patched {start finish : Machine} {moments : List Passage}
    (connected : Connected start moments finish) (lawful : ∀ moment ∈ moments, moment.Lawful)
    {addr : UInt32} (known : start.patcher.isPatched addr = true) :
    finish.patcher.isPatched addr = true ∧
      ∀ moment ∈ moments, moment.before.patcher.isPatched addr = true := by
  obtain ⟨last, always⟩ := connected_invariant
    (fun machine => machine.patcher.isPatched addr = true) connected
    (fun moment member => (lawful moment member).keeps_patched) known
  exact ⟨last, fun moment member => (always moment member).1⟩

theorem connected_unchanged {start finish : Machine} {moments : List Passage}
    (connected : Connected start moments finish)
    (own : ∀ moment ∈ moments, moment.Lawful ∧ moment.author = .subsystem)
    (nothing : ∀ addr, finish.patcher.isPatched addr = true →
      start.patcher.isPatched addr = true) :
    ∀ moment ∈ moments, moment.after = start := by
  induction moments generalizing start with
  | nil => simp
  | cons first rest ih =>
      obtain ⟨begins, continues⟩ := connected
      have laterOwn : ∀ moment ∈ rest, moment.Lawful ∧ moment.author = .subsystem :=
        fun moment member => own moment (List.mem_cons_of_mem _ member)
      have still : first.after = start := by
        obtain ⟨lawful, author⟩ := own first List.mem_cons_self
        cases lawful with
        | write => contradiction
        | idle => exact begins
        | patch machine addr =>
            change machine = start at begins
            subst begins
            rcases machine.patch_cases addr with
              ⟨-, went⟩ | ⟨-, -, went⟩ | ⟨-, -, -, went⟩ | ⟨-, fresh, before, -, went⟩
            · simp only [went]
            · simp only [went]
            · simp only [went]
            · have recorded : (machine.patch addr).2.patcher.isPatched addr = true := by
                rw [went]
                exact (machine.double_is_patched addr addr before).mpr (.inl rfl)
              have known := nothing addr (connected_keeps_patched continues
                (fun moment member => (laterOwn moment member).1) recorded).1
              rw [fresh] at known
              contradiction
      rw [still] at continues
      intro moment member
      rcases List.mem_cons.mp member with rfl | later
      · exact still
      · exact ih continues laterOwn nothing moment later

/-- An address that was rewritten is recorded at all later moments, and what is
recorded is not rewritten. -/
theorem rewrites_pairwise {start finish : Machine} {moments : List Passage}
    (connected : Connected start moments finish) (lawful : ∀ moment ∈ moments, moment.Lawful) :
    moments.Pairwise fun earlier later =>
      ∀ addr, earlier.Rewrites addr → ¬ later.Rewrites addr := by
  induction moments generalizing start with
  | nil => exact .nil
  | cons first rest ih =>
      obtain ⟨-, continues⟩ := connected
      have laterLawful : ∀ moment ∈ rest, moment.Lawful := fun moment member =>
        lawful moment (List.mem_cons_of_mem _ member)
      refine .cons ?_ (ih continues laterLawful)
      intro later member addr rewritten again
      have recorded := ((lawful first List.mem_cons_self).rewrites_records rewritten).2
      have known := (connected_keeps_patched continues laterLawful recorded).2 later member
      have fresh := ((laterLawful later member).rewrites_records again).1
      rw [known] at fresh
      contradiction

end Passage

/-- How the bytes of an image stand against the original image. Bytes are counted
from the start of the image, so that also those are accounted for that no address
names. -/
structure Accounted (original : Region) (machine : Machine) : Prop where
  base : machine.memory.base = original.base
  size : machine.memory.size = original.size
  unpatched : ∀ index,
    (∀ addr, machine.patcher.isPatched addr = true →
      addr.toNat ≠ original.base.toNat + index) →
    machine.memory.bytes[index]? = original.bytes[index]?
  patched : ∀ index addr, machine.patcher.isPatched addr = true →
    addr.toNat = original.base.toNat + index →
    machine.memory.bytes[index]? = (original.bytes[index]?).map (· * 2)
  readable : ∀ addr, machine.patcher.isPatched addr = true →
    ∃ value, machine.memory.readByte addr = .ok value

namespace Accounted

variable {original : Region} {machine : Machine}

theorem initial (memory : Region) {patcher : Patcher} (fresh : patcher.patched = ∅) :
    Accounted memory ⟨memory, patcher⟩ := by
  have none_patched (addr : UInt32) : patcher.isPatched addr = false := by
    simp [Patcher.isPatched, fresh]
  exact {
    base := rfl
    size := rfl
    unpatched := fun _ _ => rfl
    patched := by simp [none_patched]
    readable := by simp [none_patched] }

theorem double (accounted : Accounted original machine) {addr : UInt32} {before : UInt8}
    (fresh : machine.patcher.isPatched addr = false)
    (present : machine.memory.byte? addr = some before) :
    Accounted original (machine.double addr before) where
  base := accounted.base
  size := by
    rw [← accounted.size]
    exact machine.size_double addr before
  unpatched index none_patched := by
    have own := none_patched addr ((machine.double_is_patched addr addr before).mpr (.inl rfl))
    rw [Machine.double_bytes machine present, accounted.base, if_neg own]
    apply accounted.unpatched
    intro other known
    exact none_patched other ((machine.double_is_patched addr other before).mpr (.inr known))
  patched index other known place := by
    rw [Machine.double_bytes machine present, accounted.base]
    rcases (machine.double_is_patched addr other before).mp known with rfl | earlier
    · have found := (Region.byte_eq_some_iff.mp present).2
      have offset : other.toNat - machine.memory.base.toNat = index := by
        rw [accounted.base]
        omega
      rw [offset, accounted.unpatched index ?_] at found
      · rw [if_pos place, found]
        rfl
      · intro another known same
        have equal : another = other := UInt32.toNat_inj.mp (same.trans place.symm)
        rw [equal, fresh] at known
        contradiction
    · have different : addr.toNat ≠ original.base.toNat + index := by
        intro same
        have equal : addr = other := UInt32.toNat_inj.mp (same.trans place.symm)
        rw [equal, earlier] at fresh
        contradiction
      rw [if_neg different]
      exact accounted.patched index other earlier place
  readable other known := by
    have presentAfter : ∃ value, (machine.double addr before).memory.byte? other = some value := by
      rw [Machine.byte_double machine present]
      by_cases same : other = addr
      · exact ⟨_, if_pos same⟩
      · rw [if_neg same]
        rcases (machine.double_is_patched addr other before).mp known with equal | earlier
        · contradiction
        · obtain ⟨value, read⟩ := accounted.readable other earlier
          exact ⟨value, Region.read_byte_eq_ok_iff.mp read⟩
    obtain ⟨value, found⟩ := presentAfter
    exact ⟨value, Region.read_byte_eq_ok_iff.mpr found⟩

theorem patch (accounted : Accounted original machine) (addr : UInt32) :
    Accounted original (machine.patch addr).2 := by
  rcases machine.patch_cases addr with
    ⟨-, went⟩ | ⟨-, -, went⟩ | ⟨-, -, -, went⟩ | ⟨-, fresh, before, present, went⟩ <;> rw [went]
  all_goals first
    | exact accounted
    | exact accounted.double fresh present

theorem byte_of_unpatched (accounted : Accounted original machine) {addr : UInt32}
    (fresh : machine.patcher.isPatched addr = false) :
    machine.memory.byte? addr = original.byte? addr := by
  simp only [Region.byte?, accounted.base]
  by_cases reached : original.base ≤ addr
  · have after := UInt32.le_iff_toNat_le.mp reached
    rw [if_pos reached, if_pos reached]
    apply accounted.unpatched
    intro other known place
    have same : other = addr := UInt32.toNat_inj.mp (by omega)
    rw [same, fresh] at known
    contradiction
  · rw [if_neg reached, if_neg reached]

theorem byte_of_patched (accounted : Accounted original machine) {addr : UInt32}
    (known : machine.patcher.isPatched addr = true) :
    machine.memory.byte? addr = (original.byte? addr).map (· * 2) := by
  simp only [Region.byte?, accounted.base]
  by_cases reached : original.base ≤ addr
  · have after := UInt32.le_iff_toNat_le.mp reached
    rw [if_pos reached, if_pos reached]
    exact accounted.patched _ addr known (by omega)
  · rw [if_neg reached, if_neg reached]
    rfl

end Accounted

namespace Simulator

/-- The moments of a walk, one for each step. -/
def passages (simulator : Simulator) (view : View) : Nat → Walk → List Passage
  | 0, _ => []
  | budget + 1, walk =>
      match simulator.step view walk with
      | .resumed next =>
          ⟨.subsystem, walk.machine, next.machine⟩ :: simulator.passages view budget next
      | .halted _ final => [⟨.subsystem, walk.machine, final.machine⟩]

variable (simulator : Simulator) (view : View)

theorem step_lawful (walk : Walk) :
    Passage.Lawful ⟨.subsystem, walk.machine, (simulator.step view walk).walk.machine⟩ := by
  rcases simulator.step_machine view walk with same | ⟨addr, -, patched⟩
  · rw [same]
    exact .idle walk.machine
  · rw [patched]
    exact .patch walk.machine addr

theorem passages_lawful (budget : Nat) (walk : Walk) :
    ∀ moment ∈ simulator.passages view budget walk,
      moment.Lawful ∧ moment.author = .subsystem := by
  induction budget generalizing walk with
  | zero => simp [passages]
  | succ budget ih =>
      have lawful := simulator.step_lawful view walk
      unfold passages
      cases stepped : simulator.step view walk with
      | resumed next =>
          rw [stepped] at lawful
          intro moment member
          rcases List.mem_cons.mp member with rfl | later
          · exact ⟨lawful, rfl⟩
          · exact ih next moment later
      | halted reason final =>
          rw [stepped] at lawful
          intro moment member
          rw [List.mem_singleton.mp member]
          exact ⟨lawful, rfl⟩

theorem passages_connected (budget taken : Nat) (walk : Walk) :
    Passage.Connected walk.machine (simulator.passages view budget walk)
      (simulator.walkFrom view budget taken walk).2.2.machine := by
  induction budget generalizing taken walk with
  | zero => exact rfl
  | succ budget ih =>
      unfold passages walkFrom
      cases simulator.step view walk with
      | resumed next => exact ⟨rfl, ih (taken + 1) next⟩
      | halted reason final => exact ⟨rfl, rfl⟩

def runPassages (cursor : Cursor) (machine : Machine) : List Passage :=
  simulator.passages view simulator.stepLimit (simulator.beginning cursor machine)

theorem run_passages_connected (cursor : Cursor) (machine : Machine) :
    Passage.Connected machine (simulator.runPassages view cursor machine)
      (simulator.run view cursor machine).machine :=
  simulator.passages_connected view simulator.stepLimit 0 (simulator.beginning cursor machine)

end Simulator

theorem Playback.play_preserves {Holds : Machine → Prop}
    (kept : ∀ machine addr, Holds machine → Holds (machine.patch addr).2) (simulator : Simulator)
    (view : View) (frames : Nat) {machine : Machine} (holds : Holds machine) :
    Holds (play simulator view frames machine).machine := by
  induction frames with
  | zero => exact holds
  | succ frames ih =>
      obtain ⟨-, went, -⟩ := play_next simulator view machine frames
      rw [went]
      exact simulator.run_preserves_within view (fun machine addr _ => kept machine addr) _ ih

/-- What the subsystem is asked to do, and what the host does by itself in between. -/
inductive Operation where
  | patch (addr : UInt32)
  | run (simulator : Simulator) (view : View) (cursor : Cursor)
  | call (call : Call)
  | write (addr : UInt32) (value : UInt8)

def Operation.author : Operation → Author
  | write _ _ => .host
  | patch _ | run _ _ _ | call _ => .subsystem

namespace Session

variable {Native : Type} (engine : ScriptEngine Native)

def resolved? (session : Session Native) (call : Call) : Option View :=
  match session.settings.layout.resolve session.settings.trace session.machine.memory
      call.dialect call.variation call.selector with
  | (.ok script, _) => some script
  | (.error _, _) => none

def simulator (session : Session Native) (call : Call) : Simulator :=
  Simulator.withLimit call.dialect.table session.settings.trace session.settings.stepLimit

def startCursor (session : Session Native) (call : Call) : Cursor :=
  Cursor.ofNative (engine.cursor session.native call.dialect call.variation)

def perform (session : Session Native) : Operation → Session Native
  | .patch addr => { session with machine := (session.machine.patch addr).2 }
  | .run simulator view cursor =>
      { session with machine := (simulator.run view cursor session.machine).machine }
  | .call call => (session.call engine call).2.1
  | .write addr value =>
      match session.machine.memory.writeByte addr value with
      | .ok memory => { session with machine := { session.machine with memory } }
      | .error _ => session

def passages (session : Session Native) : Operation → List Passage
  | .patch addr => [⟨.subsystem, session.machine, (session.machine.patch addr).2⟩]
  | .run simulator view cursor => simulator.runPassages view cursor session.machine
  | .call call =>
      match session.resolved? call with
      | some script =>
          (session.simulator call).runPassages script (session.startCursor engine call)
            session.machine
      | none => []
  | .write addr value =>
      [⟨.host, session.machine, (session.perform engine (.write addr value)).machine⟩]

def performAll (session : Session Native) (operations : List Operation) : Session Native :=
  operations.foldl (perform engine) session

/-- All moments of a sequence of operations, in order. -/
def lifetime (session : Session Native) : List Operation → List Passage
  | [] => []
  | operation :: rest =>
      session.passages engine operation ++ (session.perform engine operation).lifetime rest

theorem call_machine (session : Session Native) (call : Call) :
    (session.call engine call).2.1.machine =
      match session.resolved? call with
      | some script =>
          ((session.simulator call).run script (session.startCursor engine call)
            session.machine).machine
      | none => session.machine := by
  obtain ⟨settings, machine, flags, native⟩ := session
  simp only [Session.call, Session.callOn, resolved?]
  rcases settings.layout.resolve settings.trace machine.memory call.dialect call.variation
    call.selector with ⟨_ | script, events⟩ <;> rfl

theorem passages_connected (session : Session Native) (operation : Operation) :
    Passage.Connected session.machine (session.passages engine operation)
      (session.perform engine operation).machine := by
  cases operation with
  | patch addr => exact ⟨rfl, rfl⟩
  | run simulator view cursor => exact simulator.run_passages_connected view cursor session.machine
  | call call =>
      simp only [passages, perform, call_machine]
      cases session.resolved? call with
      | none => rfl
      | some script =>
          exact (session.simulator call).run_passages_connected script _ session.machine
  | write addr value => exact ⟨rfl, rfl⟩

theorem passages_lawful (session : Session Native) (operation : Operation) :
    ∀ moment ∈ session.passages engine operation,
      moment.Lawful ∧ moment.author = operation.author := by
  cases operation with
  | patch addr =>
      intro moment member
      cases List.mem_singleton.mp member
      exact ⟨.patch session.machine addr, rfl⟩
  | run simulator view cursor => exact simulator.passages_lawful view _ _
  | call call =>
      simp only [passages]
      cases session.resolved? call with
      | none => simp
      | some script => exact (session.simulator call).passages_lawful script _ _
  | write addr value =>
      intro moment member
      cases List.mem_singleton.mp member
      refine ⟨?_, rfl⟩
      simp only [perform]
      cases session.machine.memory.writeByte addr value with
      | ok memory => exact .write session.machine memory
      | error fault => exact .write session.machine session.machine.memory

theorem lifetime_connected (session : Session Native) (operations : List Operation) :
    Passage.Connected session.machine (session.lifetime engine operations)
      (session.performAll engine operations).machine := by
  induction operations generalizing session with
  | nil => rfl
  | cons operation rest ih =>
      exact Passage.connected_append (session.passages_connected engine operation)
        (ih (session.perform engine operation))

theorem lifetime_lawful (session : Session Native) (operations : List Operation) :
    ∀ moment ∈ session.lifetime engine operations,
      moment.Lawful ∧ ∃ operation ∈ operations, moment.author = operation.author := by
  induction operations generalizing session with
  | nil => simp [lifetime]
  | cons operation rest ih =>
      intro moment member
      rcases List.mem_append.mp member with now | later
      · obtain ⟨lawful, author⟩ := session.passages_lawful engine operation moment now
        exact ⟨lawful, operation, List.mem_cons_self, author⟩
      · obtain ⟨lawful, other, inside, author⟩ := ih (session.perform engine operation) moment later
        exact ⟨lawful, other, List.mem_cons_of_mem _ inside, author⟩

/-- At every moment of a lifetime without host writes each byte is the original byte
or, where its address is recorded, the double of it. With host writes anywhere in
between, no address is rewritten twice. -/
theorem patch_accounting (session : Session Native) (operations : List Operation)
    (fresh : session.machine.patcher.patched = ∅) :
    Passage.Connected session.machine (session.lifetime engine operations)
        (session.performAll engine operations).machine ∧
      ((∀ operation ∈ operations, operation.author = .subsystem) →
        ∀ moment ∈ session.lifetime engine operations,
          Accounted session.machine.memory moment.after ∧
            (session.machine.patcher.enabled = false → moment.after = session.machine)) ∧
      (∀ moment ∈ session.lifetime engine operations, ∀ addr,
        moment.before.patcher.isPatched addr = true →
          moment.after.patcher.isPatched addr = true) ∧
      (session.lifetime engine operations).Pairwise fun earlier later =>
        ∀ addr, earlier.Rewrites addr → ¬ later.Rewrites addr := by
  have connected := session.lifetime_connected engine operations
  have lawful := session.lifetime_lawful engine operations
  refine ⟨connected, ?_, ?_, ?_⟩
  · intro unwritten moment member
    have own : ∀ moment ∈ session.lifetime engine operations,
        moment.Lawful ∧ moment.author = .subsystem := by
      intro moment member
      obtain ⟨legal, operation, inside, author⟩ := lawful moment member
      exact ⟨legal, author.trans (unwritten operation inside)⟩
    have start : Accounted session.machine.memory session.machine :=
      Accounted.initial session.machine.memory fresh
    refine ⟨Passage.connected_preserves (fun _ addr accounted => accounted.patch addr)
      connected own start moment member, ?_⟩
    intro off
    have kept : ∀ machine addr, machine = session.machine →
        (machine.patch addr).2 = session.machine := by
      intro machine addr same
      rw [same, Machine.patch_of_disabled off]
    exact Passage.connected_preserves kept connected own rfl moment member
  · intro moment member addr known
    exact (lawful moment member).1.keeps_patched known
  · exact Passage.rewrites_pairwise connected fun moment member => (lawful moment member).1

/-- The argument at `0x1003` is patched by hand and then reached by the scripts of both
dialects, of which one lies inside the other. -/
theorem patch_accounting_of_overlapping_scripts :
    let engine : ScriptEngine Unit := ⟨fun _ _ _ => .start, fun native _ => native⟩
    let layout : Layout := ⟨⟨0x1000, 0x1002⟩, ⟨0, 0⟩, 0, 0, 0⟩
    let session : Session Unit :=
      ⟨⟨layout, ⟨false, false⟩, false, 64⟩,
        ⟨⟨0x1000, ⟨#[0xF5, 3, 0xF5, 5, 0xFF]⟩⟩, .active⟩, .clear, ()⟩
    let operations : List Operation :=
      [.patch 0x1003, .call ⟨.routine5C3FD5, 0, 0, -1⟩, .call ⟨.routine5C23D1, 0, 0, -1⟩]
    (session.performAll engine operations).machine.memory.bytes = #[0xF5, 6, 0xF5, 10, 0xFF] ∧
      (∀ moment ∈ session.lifetime engine operations,
        Accounted session.machine.memory moment.after) ∧
      (session.lifetime engine (operations ++ [.write 0x1003 5, .patch 0x1003])).Pairwise
        fun earlier later => ∀ addr, earlier.Rewrites addr → ¬ later.Rewrites addr := by
  intro engine layout session operations
  have accounting := session.patch_accounting engine operations rfl
  have interleaved :=
    session.patch_accounting engine (operations ++ [.write 0x1003 5, .patch 0x1003]) rfl
  have unwritten : ∀ operation ∈ operations, operation.author = .subsystem := by
    simp [operations, Operation.author]
  exact ⟨by decide +kernel, fun moment member => (accounting.2.1 unwritten moment member).1,
    interleaved.2.2.2⟩

end Session

end CameraScript
