import CameraScript.Proofs.SlotHistory

/-!
# The account of compensated slots

A flag stands for a registration whose compensation is still owed. A dispatch that finds a
function in the slot pays for all registrations of that slot at once, so that a slot is
compensated at most as often as it was given to a registration, and a slot that no
registration was ever given is left alone.
-/

namespace CameraScript

/-- What happens to the slots from outside: a registration, a dispatch, or a change that the
game makes by itself. -/
inductive SlotAction (Native : Type) where
  | register (function : UInt32)
  | change (change : Native → Native)
  | dispatch

structure SlotMoment (Native : Type) where
  action : SlotAction Native
  session : Session Native

/-- Setting the timings of the slots sets them to what was asked for and nothing else. -/
def FunctionHost.Lawful {Native : Type} (host : FunctionHost Native) : Prop :=
  ∀ native timings,
    host.slots (host.setTimings native timings) = { host.slots native with timings }

namespace SlotMoment

variable {Native : Type} (host : FunctionHost Native)

def returns (slot : Nat) : SlotMoment Native → Bool
  | ⟨.register function, session⟩ => (host.addFunction session.native function).1 == slot
  | ⟨.change _, _⟩ | ⟨.dispatch, _⟩ => false

def finds (slot : Fin slotCount) : SlotMoment Native → Bool
  | ⟨.dispatch, session⟩ => (host.slots session.native).held slot != 0
  | ⟨.register _, _⟩ | ⟨.change _, _⟩ => false

def doubles (slot : Fin slotCount) (moment : SlotMoment Native) : Bool :=
  moment.finds host slot && moment.session.flags.isSet slot

/-- A registration was given the slot, and no dispatch has found a function there since. -/
def Owed (moments : List (SlotMoment Native)) (slot : Fin slotCount) : Prop :=
  ∃ earlier moment later, moments = earlier ++ moment :: later ∧
    moment.returns host slot = true ∧ ∀ other ∈ later, other.finds host slot = false

variable {host} {slot : Fin slotCount} {moments : List (SlotMoment Native)}
  {moment : SlotMoment Native}

theorem not_owed_nil : ¬ Owed host [] slot := by
  rintro ⟨earlier, moment, later, split, -⟩
  simp at split

theorem owed_cons_iff :
    Owed host (moment :: moments) slot ↔
      (moment.returns host slot = true ∧ ∀ other ∈ moments, other.finds host slot = false) ∨
        Owed host moments slot := by
  constructor
  · rintro ⟨earlier, first, later, split, returned, unfound⟩
    cases earlier with
    | nil =>
        cases split
        exact .inl ⟨returned, unfound⟩
    | cons head rest =>
        cases split
        exact .inr ⟨rest, first, later, rfl, returned, unfound⟩
  · rintro (⟨returned, unfound⟩ | ⟨earlier, first, later, rfl, returned, unfound⟩)
    · exact ⟨[], moment, moments, rfl, returned, unfound⟩
    · exact ⟨moment :: earlier, first, later, rfl, returned, unfound⟩

end SlotMoment

namespace Session

variable {Native : Type} (host : FunctionHost Native)

def act (session : Session Native) : SlotAction Native → Session Native
  | .register function => (session.addFunction host function).2
  | .change change => { session with native := change session.native }
  | .dispatch => (session.dispatch host).1

def actAll (session : Session Native) (actions : List (SlotAction Native)) : Session Native :=
  actions.foldl (act host) session

def moments (session : Session Native) : List (SlotAction Native) → List (SlotMoment Native)
  | [] => []
  | action :: rest => ⟨action, session⟩ :: (session.act host action).moments rest

/-- A flag is set by a registration and kept until a dispatch finds a function. -/
theorem flag_act (session : Session Native) (action : SlotAction Native) (slot : Fin slotCount) :
    let moment : SlotMoment Native := ⟨action, session⟩
    (session.act host action).flags.isSet slot =
      (moment.returns host slot || (session.flags.isSet slot && !moment.finds host slot)) := by
  apply Bool.eq_iff_iff.mpr
  cases action with
  | register function =>
      have happens : Happens host session _ (session.act host (.register function)) :=
        .register session function
      rw [happens.flag slot]
      simp [SlotMoment.returns, SlotMoment.finds, SlotEvent.Finds]
  | change change =>
      have happens : Happens host session _ (session.act host (.change change)) :=
        .change session _ rfl
      rw [happens.flag slot]
      simp [SlotMoment.returns, SlotMoment.finds, SlotEvent.Finds]
  | dispatch =>
      have happens : Happens host session _ (session.act host .dispatch) := .dispatch session
      rw [happens.flag slot]
      simp [SlotMoment.returns, SlotMoment.finds, SlotEvent.Finds]

/-- A flag is set exactly if a compensation is owed, either from one of the moments or from
the start. -/
theorem flag_act_all (session : Session Native) (actions : List (SlotAction Native))
    (slot : Fin slotCount) :
    (session.actAll host actions).flags.isSet slot = true ↔
      SlotMoment.Owed host (session.moments host actions) slot ∨
        (session.flags.isSet slot = true ∧
          ∀ moment ∈ session.moments host actions, moment.finds host slot = false) := by
  induction actions generalizing session with
  | nil =>
      simp [actAll, moments, SlotMoment.not_owed_nil]
  | cons action rest ih =>
      have after : session.actAll host (action :: rest) =
          (session.act host action).actAll host rest := rfl
      rw [after, ih, flag_act, moments, SlotMoment.owed_cons_iff, List.forall_mem_cons]
      simp only [Bool.or_eq_true, Bool.and_eq_true, Bool.not_eq_true']
      grind

theorem doubles_add_flag_le (session : Session Native) (action : SlotAction Native)
    (slot : Fin slotCount) :
    let moment : SlotMoment Native := ⟨action, session⟩
    (if moment.doubles host slot then 1 else 0) +
        (if (session.act host action).flags.isSet slot then 1 else 0) ≤
      (if moment.returns host slot then 1 else 0) +
        if session.flags.isSet slot then 1 else 0 := by
  intro moment
  rw [flag_act]
  unfold SlotMoment.doubles
  change (if (moment.finds host slot && session.flags.isSet slot) = true then 1 else 0) +
    (if (moment.returns host slot ||
      (session.flags.isSet slot && !moment.finds host slot)) = true then 1 else 0) ≤ _
  cases session.flags.isSet slot <;> cases moment.finds host slot <;>
    cases moment.returns host slot <;> decide

/-- Doublings, and a flag that is left over, are paid for by registrations and by the flag
at the start. -/
theorem doubled_add_flag_le (session : Session Native) (actions : List (SlotAction Native))
    (slot : Fin slotCount) :
    (session.moments host actions).countP (SlotMoment.doubles host slot) +
        (if (session.actAll host actions).flags.isSet slot then 1 else 0) ≤
      (session.moments host actions).countP (SlotMoment.returns host slot) +
        if session.flags.isSet slot then 1 else 0 := by
  induction actions generalizing session with
  | nil => exact Nat.le_refl _
  | cons action rest ih =>
      have now := session.doubles_add_flag_le host action slot
      have later := ih (session.act host action)
      have after : session.actAll host (action :: rest) =
          (session.act host action).actAll host rest := rfl
      rw [moments, List.countP_cons, List.countP_cons, after]
      omega

theorem untouched_of_never_returned {session : Session Native} {slot : Fin slotCount}
    (unset : session.flags.isSet slot = false) (actions : List (SlotAction Native))
    (never : ∀ moment ∈ session.moments host actions, moment.returns host slot = false) :
    ∀ moment ∈ session.moments host actions,
      moment.session.flags.isSet slot = false ∧ moment.doubles host slot = false := by
  induction actions generalizing session with
  | nil =>
      intro moment member
      contradiction
  | cons action rest ih =>
      rw [moments, List.forall_mem_cons] at never
      have still : (session.act host action).flags.isSet slot = false := by
        rw [flag_act, never.1, unset]
        rfl
      rw [moments, List.forall_mem_cons]
      constructor
      · refine ⟨unset, ?_⟩
        rw [SlotMoment.doubles, unset, Bool.and_false]
      · exact ih still never.2

/-- What a dispatch hands over to the game: the timings of the slots that are owed a
compensation and hold a function are doubled, and nothing else has changed. -/
structure Compensated (session : Session Native) (native : Native) : Prop where
  held : ∀ slot, (host.slots native).held slot = (host.slots session.native).held slot
  due : ∀ slot : Fin slotCount, session.flags.isSet slot = true →
    (host.slots session.native).held slot ≠ 0 →
      (host.slots native).timing slot = (host.slots session.native).timing slot * 2
  other : ∀ slot : Fin slotCount,
    ¬ (session.flags.isSet slot = true ∧ (host.slots session.native).held slot ≠ 0) →
      (host.slots native).timing slot = (host.slots session.native).timing slot

theorem dispatch_compensates {host : FunctionHost Native} (lawful : host.Lawful)
    (session : Session Native) :
    ∃ timings, session.Compensated host (host.setTimings session.native timings) ∧
      (session.dispatch host).1.native =
        host.runFunctions (host.setTimings session.native timings) := by
  refine ⟨session.flags.compensate (host.slots session.native), ?_, rfl⟩
  constructor
  · intro slot
    rw [lawful]
    rfl
  · intro slot flagged filled
    rw [lawful, SlotFlags.timing_compensate, if_pos ⟨flagged, filled⟩]
  · intro slot idle
    rw [lawful, SlotFlags.timing_compensate, if_neg idle]

theorem add_function_outside (session : Session Native) {function : UInt32}
    (outside : slotCount ≤ (host.addFunction session.native function).1) :
    (session.addFunction host function).1 =
        .error ⟨(host.addFunction session.native function).1⟩ ∧
      (session.addFunction host function).2.flags = session.flags := by
  have refused : session.flags.mark (host.addFunction session.native function).1 =
      .error ⟨(host.addFunction session.native function).1⟩ :=
    dif_neg (Nat.not_lt.mpr outside)
  simp only [addFunction, SlotFlags.register, refused, and_self]

/-- The account of the slots after any actions on a subsystem that began without flags. -/
theorem slots_accounted {host : FunctionHost Native} (lawful : host.Lawful)
    {start : Session Native} (fresh : start.flags = .clear)
    (actions : List (SlotAction Native)) :
    let session := start.actAll host actions
    let moments := start.moments host actions
    (∀ slot : Fin slotCount,
        session.flags.isSet slot = true ↔ SlotMoment.Owed host moments slot) ∧
      (∃ timings, session.Compensated host (host.setTimings session.native timings) ∧
        (session.dispatch host).1.native =
          host.runFunctions (host.setTimings session.native timings)) ∧
      (∀ function, slotCount ≤ (host.addFunction session.native function).1 →
        (session.addFunction host function).1 =
            .error ⟨(host.addFunction session.native function).1⟩ ∧
          (session.addFunction host function).2.flags = session.flags) ∧
      (∀ slot : Fin slotCount, moments.countP (SlotMoment.doubles host slot) ≤
        moments.countP (SlotMoment.returns host slot)) ∧
      ∀ slot : Fin slotCount, (∀ moment ∈ moments, moment.returns host slot = false) →
        ∀ moment ∈ moments,
          moment.session.flags.isSet slot = false ∧ moment.doubles host slot = false := by
  intro session moments
  have unset (slot : Fin slotCount) : start.flags.isSet slot = false := by
    rw [fresh, SlotFlags.is_set_clear]
  refine ⟨?_, dispatch_compensates lawful session, ?_, ?_, ?_⟩
  · intro slot
    have flagged := start.flag_act_all host actions slot
    simp only [unset slot, Bool.false_eq_true, false_and, or_false] at flagged
    exact flagged
  · intro function outside
    exact session.add_function_outside host outside
  · intro slot
    have paid := start.doubled_add_flag_le host actions slot
    simp only [unset slot, Bool.false_eq_true, if_false, Nat.add_zero] at paid
    exact Nat.le_trans (Nat.le_add_right _ _) paid
  · intro slot never
    exact untouched_of_never_returned host (unset slot) actions never

/-- Slot 0 is given to a registration, compensated once by two dispatches, freed by the game
and given to another registration. -/
theorem slots_accounted_of_reused_slot :
    let slot : Fin slotCount := ⟨0, by decide⟩
    let spare : Fin slotCount := ⟨5, by decide⟩
    let start := aroundSlots ⟨Vector.replicate slotCount 0, Vector.replicate slotCount 0⟩
    let actions : List (SlotAction SlotTable) :=
      [.register 0x1000,
        .change fun table => { table with timings := table.timings.set slot 15 slot.isLt },
        .dispatch, .dispatch,
        .change fun table => { table with functions := table.functions.set slot 0 slot.isLt },
        .register 0x2000]
    let session := start.actAll SlotTable.host actions
    let moments := start.moments SlotTable.host actions
    session.native.timing slot = 30 ∧ SlotMoment.Owed SlotTable.host moments slot ∧
      moments.countP (SlotMoment.doubles SlotTable.host slot) = 1 ∧
      moments.countP (SlotMoment.returns SlotTable.host slot) = 2 ∧
      ∀ moment ∈ moments, moment.doubles SlotTable.host spare = false := by
  intro slot spare start actions session moments
  have lawful : SlotTable.host.Lawful := fun _ _ => rfl
  have fresh : start.flags = .clear := rfl
  obtain ⟨flags, -, -, -, untouched⟩ := slots_accounted lawful fresh actions
  have flagged : session.flags.isSet slot = true := by decide +kernel
  have never : ∀ moment ∈ moments, moment.returns SlotTable.host spare = false := by
    decide +kernel
  exact ⟨by decide +kernel, (flags slot).mp flagged, by decide +kernel, by decide +kernel,
    fun moment member => (untouched spare never moment member).2⟩

end Session

end CameraScript
