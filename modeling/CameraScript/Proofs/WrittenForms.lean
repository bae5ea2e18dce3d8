import CameraScript.Config.Form
import CameraScript.Proofs.JsonRecords
import CameraScript.Proofs.JsonText

/-!
What is written is read back. Every setting and every result has a written form that can
be printed as text; reading the text gives the same value again, and therefore the same
text when it is written once more.
-/

namespace CameraScript

open Json

structure Faithful {Item : Type} (encode : Item → Value) (decode : Value → Option Item) :
    Prop where
  printable : ∀ item, (encode item).Printable
  decoded : ∀ item, decode (encode item) = some item

namespace Json

/-! ## Texts -/

def PlainText (text : String) : Prop :=
  ∀ character ∈ text.toList,
    0x20 ≤ character.toNat ∧ character.toNat < 0x7F ∧ character ≠ '"' ∧ character ≠ '\\'

instance (text : String) : Decidable (PlainText text) :=
  List.decidableBAll _ text.toList

theorem PlainText.printable {text : String} (plain : PlainText text) :
    ∀ piece ∈ plainPieces text, piece.Printable := by
  have ascii : ∀ character ∈ text.toList, character.toNat < 128 := fun character member => by
    have bounds := plain character member
    omega
  have bytes : text.toUTF8.toList =
      text.toList.map fun character => UInt8.ofNat character.toNat := by
    have written := ascii_bytes_of_list ascii
    rwa [String.ofList_toList] at written
  have all : ∀ code < 0x7F, 0x20 ≤ code → Char.ofNat code ≠ '"' → Char.ofNat code ≠ '\\' →
      (Piece.byte (UInt8.ofNat code)).Printable := by decide
  rw [plainPieces, bytes, List.map_map]
  intro piece member
  obtain ⟨character, present, rfl⟩ := List.mem_map.mp member
  obtain ⟨low, high, quote, backslash⟩ := plain character present
  refine all character.toNat high low ?_ ?_ <;> rwa [Char.ofNat_toNat]

theorem join_bytes (done : ByteArray) (bytes : List UInt8) :
    joinPieces done (bytes.map .byte) = some (done ++ bytes.toByteArray) := by
  induction bytes generalizing done with
  | nil => simp [joinPieces]
  | cons byte rest induction =>
      rw [List.map_cons, joinPieces, induction]
      congr 1
      apply ByteArray.ext
      simp [List.data_toByteArray]

theorem text_of_plain_pieces (text : String) : textOf (plainPieces text) = some text := by
  have same : text.toUTF8.toList.toByteArray = text.toUTF8 := by
    apply ByteArray.ext
    simp [byte_array_to_list, List.data_toByteArray]
  rw [textOf, plainPieces, join_bytes, same, ByteArray.empty_append, Option.bind_some]
  simp only [String.fromUTF8?, String.toUTF8_eq_toByteArray, dif_pos text.isValidUTF8]
  rfl

theorem alternative_of_text (name : String) : (ofText name).alternative? = some (name, none) := by
  simp [ofText, Value.alternative?, text_of_plain_pieces]

theorem alternative_of_field (name : String) (payload : Value) :
    (ofFields [(name, payload)]).alternative? = some (name, some payload) := by
  simp [ofFields, Value.alternative?, text_of_plain_pieces]

/-! ## Numbers -/

theorem digits_printable (negative : Bool) (value : Nat) :
    Numeral.Printable ⟨negative, Nat.toDigits 10 value, true⟩ where
  nonempty := Nat.toDigits_ne_nil
  digits _ member := Nat.isDigit_of_mem_toDigits (by decide) (by decide) member
  leading zero := by
    cases value with
    | zero => rfl
    | succ value => exact absurd zero (Number.no_leading_zero (by decide) value.succ_pos)

theorem magnitude_of_digits {bound value : Nat} (negative : Bool) (fits : value < bound) :
    Numeral.magnitude? bound ⟨negative, Nat.toDigits 10 value, true⟩ = some value := by
  simp [Numeral.magnitude?, Number.digits_of_to_digits _ _ fits, Except.toOption]

theorem nat_of_nat {bound value : Nat} (fits : value < bound) :
    (ofNat value).nat? bound = some value :=
  magnitude_of_digits false fits

theorem int_printable (value : Int) : (ofInt value).Printable :=
  .number (digits_printable _ _)

theorem int_of_int {half : Nat} {value : Int} (low : -half ≤ value) (high : value < half) :
    (ofInt value).int? half = some value := by
  cases value with
  | ofNat magnitude =>
      have form : Numeral.ofInt (.ofNat magnitude) = ⟨false, Nat.toDigits 10 magnitude, true⟩ := by
        simp [Numeral.ofInt]
      simp only [ofInt, form, Value.int?, Bool.false_eq_true, if_false]
      rw [magnitude_of_digits false (Int.ofNat_lt.mp high)]
      rfl
  | negSucc below =>
      have form : Numeral.ofInt (.negSucc below) = ⟨true, Nat.toDigits 10 (below + 1), true⟩ := by
        simp [Numeral.ofInt]
      simp only [ofInt, form, Value.int?, if_true]
      rw [magnitude_of_digits true (by omega)]
      rfl

/-! ## Records -/

theorem interspersed_of_fields (names : List String) (fields : List (String × Value)) :
    Interspersed names fields (fields.map fun (name, value) => (plainPieces name, value)) := by
  induction fields with
  | nil => exact .nil
  | cons field fields induction => exact .field (text_of_plain_pieces field.1) induction

theorem given_fields_of_all (names : List String) (values : List Value) :
    givenFields names (values.map some) = names.zip values := by
  rw [givenFields, List.zip_map_right, List.filterMap_map]
  exact List.filterMap_some

theorem field_values_of_fields {names : List String} (defaults : Bool) (values : List Value)
    (different : names.Nodup) (all : names.length = values.length) :
    fieldValues names defaults (ofFields (names.zip values)) = some (values.map some) :=
  field_values_of_record defaults different (by rw [all, List.length_map])
    (.object (.of_eq (given_fields_of_all names values).symm) (interspersed_of_fields names _))

theorem fields_printable (names : List String) (values : List Value)
    (plain : ∀ name ∈ names, PlainText name) (printable : ∀ value ∈ values, value.Printable) :
    (ofFields (names.zip values)).Printable := by
  refine .object ?_ ?_
  · intro member present
    obtain ⟨field, given, rfl⟩ := List.mem_map.mp present
    exact (plain field.1 (List.of_mem_zip given).1).printable
  · intro member present
    obtain ⟨field, given, rfl⟩ := List.mem_map.mp present
    exact printable field.2 (List.of_mem_zip given).2

end Json

theorem unsigned_faithful {Word : Type} {toNat : Word → Nat} {fromNat : Nat → Word} {bound : Nat}
    (fits : ∀ word, toNat word < bound) (back : ∀ word, fromNat (toNat word) = word) :
    Faithful (fun word => ofNat (toNat word)) (fun value => (value.nat? bound).map fromNat) where
  printable word := .number (digits_printable false (toNat word))
  decoded word := by simp [nat_of_nat (fits word), back]

theorem byte_faithful : Faithful (fun byte : UInt8 => ofNat byte.toNat) byte? :=
  unsigned_faithful UInt8.toNat_lt fun _ => UInt8.ofNat_toNat

theorem half_faithful : Faithful (fun half : UInt16 => ofNat half.toNat) half? :=
  unsigned_faithful UInt16.toNat_lt fun _ => UInt16.ofNat_toNat

theorem word_faithful : Faithful (fun word : UInt32 => ofNat word.toNat) word? :=
  unsigned_faithful UInt32.toNat_lt fun _ => UInt32.ofNat_toNat

theorem limit_faithful :
    Faithful (fun limit : UInt64 => ofNat limit.toNat) CameraConfig.stepLimit? :=
  unsigned_faithful UInt64.toNat_lt fun _ => UInt64.ofNat_toNat

theorem bool_faithful : Faithful Value.bool Value.bool? where
  printable := .bool
  decoded _ := rfl

theorem Faithful.nullable {Item : Type} {encode : Item → Value} {decode : Value → Option Item}
    (faithful : Faithful encode decode) (present : ∀ item, encode item ≠ .null) :
    Faithful (ofOption encode) (Value.nullable decode) where
  printable
    | none => .null
    | some item => faithful.printable item
  decoded
    | none => rfl
    | some item => by
        simp only [ofOption, Value.nullable]
        split
        · exact absurd ‹_› (present item)
        · rw [faithful.decoded item]
          rfl

/-- A record is faithful if it can be put together again from the values of its fields. -/
theorem record_faithful {Item : Type} {encode : Item → Value} {decode : Value → Option Item}
    (names : List String) (values : Item → List Value) (defaults : Bool)
    (encoded : ∀ item, encode item = ofFields (names.zip (values item)))
    (all : ∀ item, names.length = (values item).length) (different : names.Nodup)
    (plain : ∀ name ∈ names, PlainText name)
    (printable : ∀ item, ∀ value ∈ values item, value.Printable)
    (rebuilt : ∀ item value,
      fieldValues names defaults value = some ((values item).map some) → decode value = some item) :
    Faithful encode decode where
  printable item := by
    rw [encoded item]
    exact fields_printable names (values item) plain (printable item)
  decoded item := by
    rw [encoded item]
    exact rebuilt item _ (field_values_of_fields defaults (values item) different (all item))

theorem Cursor.faithful : Faithful Cursor.toJson Cursor.ofJson? :=
  record_faithful ["position", "frames_to_wait"]
    (fun cursor => [ofNat cursor.position.toNat, ofNat cursor.wait.toNat]) false
    (fun _ => rfl) (fun _ => rfl) (by decide) (by decide)
    (by simp [half_faithful.printable])
    (fun cursor value fields => by
      simp [Cursor.ofJson?, fields, required, half_faithful.decoded])

theorem PerDialect.faithful : Faithful PerDialect.toJson PerDialect.ofJson? :=
  record_faithful ["sub_5c3fd5", "sub_5c23d1"]
    (fun addrs => [ofNat addrs.at5C3FD5.toNat, ofNat addrs.at5C23D1.toNat]) false
    (fun _ => rfl) (fun _ => rfl) (by decide) (by decide)
    (by simp [word_faithful.printable])
    (fun addrs value fields => by
      simp [PerDialect.ofJson?, fields, required, word_faithful.decoded])

theorem Layout.faithful : Faithful Layout.toJson Layout.ofJson? :=
  record_faithful Layout.fieldNames
    (fun layout => [layout.fixedScripts.toJson, layout.historyTables.toJson,
      ofNat layout.scriptIndexAddr.toNat, ofNat layout.tableOriginAddr.toNat,
      ofNat layout.offsetBaseAddr.toNat]) false
    (fun _ => rfl) (fun _ => rfl) (by decide) (by decide)
    (by simp [word_faithful.printable, PerDialect.faithful.printable])
    (fun layout value fields => by
      simp [Layout.ofJson?, fields, required, word_faithful.decoded, PerDialect.faithful.decoded])

theorem Descriptor.faithful : Faithful Descriptor.toJson Descriptor.ofJson? :=
  have doubled := byte_faithful.nullable (fun _ => nofun)
  record_faithful ["arg_len", "doubled_arg", "terminal"]
    (fun descriptor => [ofInt descriptor.argLength.toInt,
      ofOption (fun index => ofNat index.toNat) descriptor.doubled, .bool descriptor.terminal])
    false (fun _ => rfl) (fun _ => rfl) (by decide) (by decide)
    (by simp [int_printable, doubled.printable, bool_faithful.printable])
    (fun descriptor value fields => by
      have length := int_of_int (Int8.le_toInt descriptor.argLength) (Int8.toInt_lt _)
      simp [Descriptor.ofJson?, fields, required, Json.optional, length, doubled.decoded,
        bool_faithful.decoded])

theorem TraceFlags.faithful : Faithful TraceFlags.toJson TraceFlags.ofJson? :=
  record_faithful ["all", "battle_camera"]
    (fun flags => [.bool flags.all, .bool flags.battleCamera]) true
    (fun _ => rfl) (fun _ => rfl) (by decide) (by decide)
    (by simp [bool_faithful.printable])
    (fun flags value fields => by
      simp [TraceFlags.ofJson?, fields, Json.optional, bool_faithful.decoded])

theorem Dialect.faithful : Faithful Dialect.toJson Dialect.ofJson? where
  printable dialect := .string (PlainText.printable (by cases dialect <;> decide))
  decoded dialect := by
    rw [Dialect.ofJson?, Dialect.toJson, alternative_of_text]
    cases dialect <;> decide

theorem LevelFilter.of_name_of_upper {filter : LevelFilter} {name : String}
    (same : name.map Char.toUpper = filter.name) : ofName? name = some filter := by
  rw [ofName?, same]
  cases filter with
  | off => decide
  | upTo level => cases level <;> decide

theorem LevelFilter.name_upper : (filter : LevelFilter) →
    filter.name.map Char.toUpper = filter.name
  | .off => by decide +kernel
  | .upTo level => by cases level <;> decide +kernel

theorem LevelFilter.faithful : Faithful LevelFilter.toJson LevelFilter.ofJson? where
  printable
    | .off => .string (PlainText.printable (by decide))
    | .upTo level => .string (PlainText.printable (by cases level <;> decide))
  decoded filter := by
    rw [LevelFilter.ofJson?, LevelFilter.toJson, alternative_of_text]
    exact LevelFilter.of_name_of_upper filter.name_upper

theorem LoggerConfig.faithful : Faithful LoggerConfig.toJson LoggerConfig.ofJson? :=
  record_faithful ["app_level_filter", "level_filter"]
    (fun logger => [logger.appLevelFilter.toJson, logger.levelFilter.toJson]) false
    (fun _ => rfl) (fun _ => rfl) (by decide) (by decide)
    (by simp [LevelFilter.faithful.printable])
    (fun logger value fields => by
      simp [LoggerConfig.ofJson?, fields, required, LevelFilter.faithful.decoded])

theorem Halt.faithful : Faithful Halt.toJson Halt.ofJson? where
  printable
    | .terminal opcode =>
        fields_printable ["Terminal"] [ofNat opcode.toNat] (by decide)
          (by simp [byte_faithful.printable])
    | .unknownOpcode opcode =>
        fields_printable ["UnknownOpcode"] [ofNat opcode.toNat] (by decide)
          (by simp [byte_faithful.printable])
    | .yielded | .restarted | .overrun | .fault | .stepBudget =>
        .string (PlainText.printable (by decide))
  decoded
    | .terminal opcode | .unknownOpcode opcode => by
        simp [Halt.ofJson?, Halt.toJson, alternative_of_field, byte_faithful.decoded]
    | .yielded | .restarted | .overrun | .fault | .stepBudget => by
        simp [Halt.ofJson?, Halt.toJson, Halt.text, alternative_of_text, isBare]

theorem CameraConfig.faithful : Faithful CameraConfig.toJson CameraConfig.ofJson? :=
  have logger := LoggerConfig.faithful.nullable (fun _ => nofun)
  have layout := Layout.faithful.nullable (fun _ => nofun)
  record_faithful CameraConfig.fieldNames
    (fun config => [ofOption LoggerConfig.toJson config.logger, config.trace.toJson,
      .bool config.patchScriptArgs, .bool config.crossCheck, ofNat config.stepLimit.toNat,
      ofOption Layout.toJson config.layout]) true
    (fun _ => rfl) (fun _ => rfl) (by decide) (by decide)
    (by simp [logger.printable, TraceFlags.faithful.printable, bool_faithful.printable,
      limit_faithful.printable, layout.printable])
    (fun config value fields => by
      simp [CameraConfig.ofJson?, fields, Json.optional, logger.decoded, layout.decoded,
        TraceFlags.faithful.decoded, bool_faithful.decoded, limit_faithful.decoded])

/-! ## Written text -/

def asText {Item : Type} (encode : Item → Value) (item : Item) : List UInt8 :=
  pretty (encode item)

def ofText? {Item : Type} (decode : Value → Option Item) (text : List UInt8) : Option Item :=
  (parse text).bind decode

/-- Every item is read back from its text, and has the same text when it is written again. -/
def ReadsBack {Item : Type} (write : Item → List UInt8) (read : List UInt8 → Option Item) : Prop :=
  ∀ item, read (write item) = some item ∧ (read (write item)).map write = some (write item)

theorem Faithful.reads_back {Item : Type} {encode : Item → Value} {decode : Value → Option Item}
    (faithful : Faithful encode decode) : ReadsBack (asText encode) (ofText? decode) := by
  intro item
  have read : ofText? decode (asText encode item) = some item := by
    rw [ofText?, asText, parse_pretty (faithful.printable item)]
    exact faithful.decoded item
  exact ⟨read, by rw [read]; rfl⟩

/-- Settings and results are what their text is read as. -/
theorem written_forms_read_back :
    ReadsBack CameraConfig.write CameraConfig.read ∧
    ReadsBack (asText Cursor.toJson) (ofText? Cursor.ofJson?) ∧
    ReadsBack (asText Halt.toJson) (ofText? Halt.ofJson?) ∧
    ReadsBack (asText Dialect.toJson) (ofText? Dialect.ofJson?) ∧
    ReadsBack (asText PerDialect.toJson) (ofText? PerDialect.ofJson?) ∧
    ReadsBack (asText Layout.toJson) (ofText? Layout.ofJson?) ∧
    ReadsBack (asText Descriptor.toJson) (ofText? Descriptor.ofJson?) ∧
    ReadsBack (asText TraceFlags.toJson) (ofText? TraceFlags.ofJson?) ∧
    ReadsBack (asText LoggerConfig.toJson) (ofText? LoggerConfig.ofJson?) :=
  ⟨CameraConfig.faithful.reads_back, Cursor.faithful.reads_back, Halt.faithful.reads_back,
    Dialect.faithful.reads_back, PerDialect.faithful.reads_back, Layout.faithful.reads_back,
    Descriptor.faithful.reads_back, TraceFlags.faithful.reads_back,
    LoggerConfig.faithful.reads_back⟩

end CameraScript
