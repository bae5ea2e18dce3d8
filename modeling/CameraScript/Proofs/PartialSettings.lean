import CameraScript.Proofs.WrittenForms

/-!
# Settings that name only what differs

A choice says which settings are given, and how. It may be written with its fields in any
order, with members between them that are no settings, and with any blanks and spellings;
what is read are the standard settings with the given ones in their place. Where some field
of a record stands twice nothing is read.
-/

namespace CameraScript

open Json

/-! ## Values and ways to write them -/

/-- Each way to write a choice is read as what the choice means. -/
def Understood {Choice Item : Type} (written : Choice → Value → Prop) (meaning : Choice → Item)
    (decode : Value → Option Item) : Prop :=
  ∀ choice value, written choice value → decode value = some (meaning choice)

def OrNull {Item : Type} (written : Item → Value → Prop) : Option Item → Value → Prop
  | none, value => value = .null
  | some item, value => written item value

inductive LevelFilter.Written (filter : LevelFilter) : Value → Prop
  | name {pieces : List Piece} {name : String} (spelled : textOf pieces = some name)
      (same : name.map Char.toUpper = filter.name) : Written filter (.string pieces)

inductive LoggerConfig.Written (logger : LoggerConfig) : Value → Prop
  | record {app other value : Value} (appWritten : logger.appLevelFilter.Written app)
      (otherWritten : logger.levelFilter.Written other)
      (fields : IsRecord ["app_level_filter", "level_filter"] [some app, some other] value) :
      Written logger value

def PerDialect.Written (addrs : PerDialect UInt32) (value : Value) : Prop :=
  IsRecord ["sub_5c3fd5", "sub_5c23d1"]
    [some (ofNat addrs.at5C3FD5.toNat), some (ofNat addrs.at5C23D1.toNat)] value

inductive Layout.Written (layout : Layout) : Value → Prop
  | record {fixed history value : Value} (fixedWritten : layout.fixedScripts.Written fixed)
      (historyWritten : layout.historyTables.Written history)
      (fields : IsRecord Layout.fieldNames [some fixed, some history,
        some (ofNat layout.scriptIndexAddr.toNat), some (ofNat layout.tableOriginAddr.toNat),
        some (ofNat layout.offsetBaseAddr.toNat)] value) :
      Written layout value

structure TraceFlags.Choice where
  all : Option Bool
  battleCamera : Option Bool
  deriving DecidableEq, Repr

namespace TraceFlags.Choice

def flags (choice : Choice) : TraceFlags where
  all := choice.all.getD TraceFlags.off.all
  battleCamera := choice.battleCamera.getD TraceFlags.off.battleCamera

def Written (choice : Choice) (value : Value) : Prop :=
  IsRecord ["all", "battle_camera"]
    [choice.all.map .bool, choice.battleCamera.map .bool] value

end TraceFlags.Choice

/-- Settings, each of which may be left out. A logger or layout that is left out is not
one that is absent. -/
structure CameraConfig.Choice where
  logger : Option (Option LoggerConfig)
  trace : Option TraceFlags.Choice
  patchScriptArgs : Option Bool
  crossCheck : Option Bool
  stepLimit : Option UInt64
  layout : Option (Option Layout)
  deriving DecidableEq, Repr

namespace CameraConfig.Choice

def settings (choice : Choice) : CameraConfig where
  logger := choice.logger.getD standard.logger
  trace := (choice.trace.map TraceFlags.Choice.flags).getD standard.trace
  patchScriptArgs := choice.patchScriptArgs.getD standard.patchScriptArgs
  crossCheck := choice.crossCheck.getD standard.crossCheck
  stepLimit := choice.stepLimit.getD standard.stepLimit
  layout := choice.layout.getD standard.layout

inductive Written (choice : Choice) : Value → Prop
  | record {logger trace layout : Option Value} {value : Value}
      (loggerWritten : Option.Rel (OrNull LoggerConfig.Written) choice.logger logger)
      (traceWritten : Option.Rel TraceFlags.Choice.Written choice.trace trace)
      (layoutWritten : Option.Rel (OrNull Layout.Written) choice.layout layout)
      (fields : IsRecord fieldNames [logger, trace, choice.patchScriptArgs.map .bool,
        choice.crossCheck.map .bool, choice.stepLimit.map fun limit => ofNat limit.toNat,
        layout] value) :
      Written choice value

end CameraConfig.Choice

/-! ## Fields that stand twice -/

inductive Layout.Repeats : Value → Prop
  | here {value : Value} (twice : Repeated fieldNames value) : Repeats value
  | addresses {name : String} {given value : Value}
      (field : name = "fixed_scripts" ∨ name = "history_tables")
      (held : HasField fieldNames name given value)
      (twice : Repeated ["sub_5c3fd5", "sub_5c23d1"] given) : Repeats value

/-- A field stands twice, among the settings themselves or within one of them. -/
inductive CameraConfig.Repeats : Value → Prop
  | here {value : Value} (twice : Repeated fieldNames value) : Repeats value
  | logger {given value : Value} (held : HasField fieldNames "logger_config" given value)
      (twice : Repeated ["app_level_filter", "level_filter"] given) : Repeats value
  | trace {given value : Value} (held : HasField fieldNames "trace" given value)
      (twice : Repeated ["all", "battle_camera"] given) : Repeats value
  | layout {given value : Value} (held : HasField fieldNames "layout" given value)
      (twice : Layout.Repeats given) : Repeats value

/-! ## What is read -/

section
variable {Choice Item : Type} {written : Choice → Value → Prop} {meaning : Choice → Item}
  {decode : Value → Option Item}

theorem Understood.optional (understood : Understood written meaning decode) (default : Item)
    {choice : Option Choice} {field : Option Value} (given : Option.Rel written choice field) :
    Json.optional default decode field = some ((choice.map meaning).getD default) := by
  cases given with
  | none => rfl
  | some form => exact understood _ _ form

theorem Understood.nullable {written : Item → Value → Prop}
    (understood : Understood written id decode) (refused : decode .null = none) :
    Understood (OrNull written) id (Value.nullable decode) := by
  intro choice value form
  cases choice with
  | none =>
      cases form
      rfl
  | some item =>
      have read : decode value = some item := understood item value form
      cases value
      case null => exact absurd (refused.symm.trans read) nofun
      all_goals simp [Value.nullable, read]

theorem Faithful.optional {encode : Item → Value} (faithful : Faithful encode decode)
    (default : Item) (choice : Option Item) :
    Json.optional default decode (choice.map encode) = some (choice.getD default) := by
  cases choice with
  | none => rfl
  | some item => exact faithful.decoded item

end

theorem LevelFilter.understood : Understood LevelFilter.Written id LevelFilter.ofJson? := by
  rintro filter _ ⟨spelled, same⟩
  simp [LevelFilter.ofJson?, Value.alternative?, spelled, isBare,
    LevelFilter.of_name_of_upper same]

theorem LoggerConfig.understood : Understood LoggerConfig.Written id LoggerConfig.ofJson? := by
  rintro logger value ⟨app, other, fields⟩
  have read := field_values_of_record false (by decide) rfl fields
  simp [LoggerConfig.ofJson?, read, required, LevelFilter.understood _ _ app,
    LevelFilter.understood _ _ other]

theorem PerDialect.understood : Understood PerDialect.Written id PerDialect.ofJson? := by
  intro addrs value fields
  have read := field_values_of_record false (by decide) rfl fields
  simp [PerDialect.ofJson?, read, required, word_faithful.decoded]

theorem Layout.understood : Understood Layout.Written id Layout.ofJson? := by
  rintro layout value ⟨fixed, history, fields⟩
  have read := field_values_of_record false (by decide) rfl fields
  simp [Layout.ofJson?, read, required, word_faithful.decoded, PerDialect.understood _ _ fixed,
    PerDialect.understood _ _ history]

theorem TraceFlags.Choice.understood :
    Understood TraceFlags.Choice.Written TraceFlags.Choice.flags TraceFlags.ofJson? := by
  intro choice value fields
  have read := field_values_of_record true (by decide) rfl fields
  simp [TraceFlags.ofJson?, read, bool_faithful.optional, TraceFlags.Choice.flags, TraceFlags.off]

theorem CameraConfig.Choice.understood :
    Understood CameraConfig.Choice.Written CameraConfig.Choice.settings CameraConfig.ofJson? := by
  rintro choice value ⟨logger, trace, layout, fields⟩
  have read := field_values_of_record true (by decide) rfl fields
  have loggerRead := (LoggerConfig.understood.nullable rfl).optional standard.logger logger
  have traceRead := TraceFlags.Choice.understood.optional standard.trace trace
  have layoutRead := (Layout.understood.nullable rfl).optional standard.layout layout
  simp [CameraConfig.ofJson?, read, loggerRead, traceRead, layoutRead, bool_faithful.optional,
    limit_faithful.optional, Choice.settings]

/-! ## What is refused -/

theorem nullable_refused {Item : Type} {decode : Value → Option Item} {value : Value}
    (refused : decode value = none) (present : value ≠ .null) :
    Value.nullable decode value = none := by
  cases value
  case null => exact absurd rfl present
  all_goals simp [Value.nullable, refused]

theorem LoggerConfig.refused {value : Value}
    (twice : Repeated ["app_level_filter", "level_filter"] value) :
    LoggerConfig.ofJson? value = none := by
  simp [LoggerConfig.ofJson?, field_values_of_repeated false twice]

theorem PerDialect.refused {value : Value}
    (twice : Repeated ["sub_5c3fd5", "sub_5c23d1"] value) : PerDialect.ofJson? value = none := by
  simp [PerDialect.ofJson?, field_values_of_repeated false twice]

theorem TraceFlags.refused {value : Value} (twice : Repeated ["all", "battle_camera"] value) :
    TraceFlags.ofJson? value = none := by
  simp [TraceFlags.ofJson?, field_values_of_repeated true twice]

theorem Layout.fields_of_read {layout : Layout} {value : Value}
    (read : Layout.ofJson? value = some layout) :
    ∃ fixed history index origin base,
      fieldValues fieldNames false value = some [fixed, history, index, origin, base] ∧
        required PerDialect.ofJson? fixed = some layout.fixedScripts ∧
        required PerDialect.ofJson? history = some layout.historyTables := by
  simp only [Layout.ofJson?, Option.bind_eq_bind, Option.bind_eq_some_iff] at read
  obtain ⟨values, given, read⟩ := read
  split at read
  case h_2 => cases read
  case h_1 fixed history index origin base =>
    simp only [Option.bind_eq_some_iff] at read
    obtain ⟨_, fixedRead, _, historyRead, _, _, _, _, _, _, same⟩ := read
    cases same
    exact ⟨fixed, history, index, origin, base, given, fixedRead, historyRead⟩

theorem Layout.Repeats.ne_null {value : Value} (repeats : Layout.Repeats value) :
    value ≠ .null := by
  rcases repeats with ⟨⟨⟩⟩ | ⟨_, ⟨⟩, _⟩ <;> exact nofun

theorem Layout.refused {value : Value} (repeats : Layout.Repeats value) :
    Layout.ofJson? value = none := by
  refine Option.eq_none_iff_forall_ne_some.mpr fun layout read => ?_
  obtain ⟨fixed, history, index, origin, base, fields, fixedRead, historyRead⟩ :=
    fields_of_read read
  cases repeats with
  | here twice => exact absurd (field_values_of_repeated false twice) (fields ▸ nofun)
  | @addresses name given _ field held twice =>
      have refused := PerDialect.refused twice
      have placed := value_of_field fields held
      obtain rfl | rfl := field
      · obtain rfl : some given = fixed := by simpa [fieldNames] using placed
        exact absurd (refused.symm.trans fixedRead) nofun
      · obtain rfl : some given = history := by simpa [fieldNames] using placed
        exact absurd (refused.symm.trans historyRead) nofun

theorem CameraConfig.fields_of_read {config : CameraConfig} {value : Value}
    (read : CameraConfig.ofJson? value = some config) :
    ∃ logger trace patch check limit layout,
      fieldValues fieldNames true value = some [logger, trace, patch, check, limit, layout] ∧
        Json.optional standard.logger (Value.nullable LoggerConfig.ofJson?) logger =
          some config.logger ∧
        Json.optional standard.trace TraceFlags.ofJson? trace = some config.trace ∧
        Json.optional standard.layout (Value.nullable Layout.ofJson?) layout =
          some config.layout := by
  simp only [CameraConfig.ofJson?, Option.bind_eq_bind, Option.bind_eq_some_iff] at read
  obtain ⟨values, given, read⟩ := read
  split at read
  case h_2 => cases read
  case h_1 logger trace patch check limit layout =>
    simp only [Option.bind_eq_some_iff] at read
    obtain ⟨_, loggerRead, _, traceRead, _, _, _, _, _, _, _, layoutRead, same⟩ := read
    cases same
    exact ⟨logger, trace, patch, check, limit, layout, given, loggerRead, traceRead, layoutRead⟩

theorem CameraConfig.refused {value : Value} (repeats : CameraConfig.Repeats value) :
    CameraConfig.ofJson? value = none := by
  refine Option.eq_none_iff_forall_ne_some.mpr fun config read => ?_
  obtain ⟨logger, trace, patch, check, limit, layout, fields, loggerRead, traceRead, layoutRead⟩ :=
    fields_of_read read
  cases repeats with
  | here twice => exact absurd (field_values_of_repeated true twice) (fields ▸ nofun)
  | @logger given _ held twice =>
      obtain rfl : some given = logger := by simpa [fieldNames] using value_of_field fields held
      have present : given ≠ .null := by rcases twice with ⟨⟩; exact nofun
      have refused := nullable_refused (LoggerConfig.refused twice) present
      exact absurd (refused.symm.trans loggerRead) nofun
  | @trace given _ held twice =>
      obtain rfl : some given = trace := by simpa [fieldNames] using value_of_field fields held
      exact absurd ((TraceFlags.refused twice).symm.trans traceRead) nofun
  | @layout given _ held twice =>
      obtain rfl : some given = layout := by simpa [fieldNames] using value_of_field fields held
      have refused := nullable_refused (Layout.refused twice) twice.ne_null
      exact absurd (refused.symm.trans layoutRead) nofun

/-- Whatever the text looks like: the given settings are read in place of the standard
ones, and a field that stands twice lets nothing be read. -/
theorem CameraConfig.read_partial {value : Value} {text : List UInt8}
    (spaced : Spaced (rowOf value) text) :
    (∀ choice : Choice, choice.Written value → CameraConfig.read text = some choice.settings) ∧
      (Repeats value → CameraConfig.read text = none) := by
  have read : CameraConfig.read text = ofJson? value := by
    rw [CameraConfig.read, parse_spaced spaced, Option.bind_some]
  rw [read]
  exact ⟨fun choice written => Choice.understood choice value written, refused⟩

/-- No cross-check, no logger, and tracing of the battle camera; the first member is no
setting. -/
def sparse : Value :=
  ofFields [("note", .array [.null, .bool true]), ("cross_check", .bool false),
    ("logger_config", .null), ("trace", ofFields [("battle_camera", .bool true)])]

theorem sparse_printable : sparse.Printable := by
  have note : (Value.array [.null, .bool true]).Printable :=
    .array (by simp [Value.Printable.null, Value.Printable.bool])
  have trace := fields_printable ["battle_camera"] [.bool true] (by decide)
    (by simp [Value.Printable.bool])
  exact fields_printable ["note", "cross_check", "logger_config", "trace"]
    [_, .bool false, .null, _] (by decide)
    (by simpa [note, Value.Printable.bool, Value.Printable.null] using trace)

theorem sparse_written :
    CameraConfig.Choice.Written ⟨some none, some ⟨none, some true⟩, none, some false, none, none⟩
      sparse := by
  have trace : TraceFlags.Choice.Written ⟨none, some true⟩
      (ofFields [("battle_camera", .bool true)]) :=
    .object .rfl (.field (text_of_plain_pieces _) .nil)
  -- The check stands before the logger and the trace; the order of the fields is after them.
  refine .record (.some rfl) (.some trace) .none
    (.object (.trans (.swap ..) (.cons _ (.swap ..))) ?_)
  exact .other (text_of_plain_pieces _) (by decide) (.field (text_of_plain_pieces _)
    (.field (text_of_plain_pieces _) (.field (text_of_plain_pieces _) .nil)))

def limitedTwice : Value :=
  ofFields [("step_limit", ofNat 512), ("cross_check", .bool false), ("step_limit", ofNat 512)]

theorem limited_twice_printable : limitedTwice.Printable := by
  have limit : (ofNat 512).Printable := .number (digits_printable false 512)
  exact fields_printable ["step_limit", "cross_check", "step_limit"] [_, .bool false, _]
    (by decide) (by simp [limit, Value.Printable.bool])

theorem limited_twice_repeats : CameraConfig.Repeats limitedTwice :=
  .here (.object (by decide) (.cons_cons _ (.cons _ (.refl _)))
    (text_of_plain_pieces "step_limit") (text_of_plain_pieces "step_limit"))

theorem CameraConfig.read_partial_of_sparse :
    CameraConfig.read (pretty sparse) = some ⟨none, ⟨false, true⟩, true, false, 65536, none⟩ ∧
      CameraConfig.read (pretty limitedTwice) = none :=
  ⟨(read_partial (spaced_pretty sparse_printable)).1 _ sparse_written,
    (read_partial (spaced_pretty limited_twice_printable)).2 limited_twice_repeats⟩

end CameraScript
