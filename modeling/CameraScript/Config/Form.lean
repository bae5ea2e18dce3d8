import CameraScript.Config
import CameraScript.Json.Printer
import CameraScript.Json.Reader
import CameraScript.Json.Shape

/-!
The written form of settings and results. For each type there is a function to JSON
data and one from it, with the names of the fields in the order in which they are
written.
-/

namespace CameraScript

open Json

def word? (value : Value) : Option UInt32 :=
  (value.nat? UInt32.size).map UInt32.ofNat

def half? (value : Value) : Option UInt16 :=
  (value.nat? UInt16.size).map UInt16.ofNat

def byte? (value : Value) : Option UInt8 :=
  (value.nat? UInt8.size).map UInt8.ofNat

namespace Cursor

def toJson (cursor : Cursor) : Value :=
  ofFields [("position", ofNat cursor.position.toNat), ("frames_to_wait", ofNat cursor.wait.toNat)]

def ofJson? (value : Value) : Option Cursor := do
  let [position, wait] ← fieldValues ["position", "frames_to_wait"] false value | none
  return ⟨← required half? position, ← required half? wait⟩

end Cursor

namespace Halt

def toJson : Halt → Value
  | terminal opcode => ofFields [("Terminal", ofNat opcode.toNat)]
  | unknownOpcode opcode => ofFields [("UnknownOpcode", ofNat opcode.toNat)]
  | halt => ofText halt.text

def ofJson? (value : Value) : Option Halt := do
  let (name, payload) ← value.alternative?
  match name with
  | "Terminal" => (payload.bind byte?).map terminal
  | "UnknownOpcode" => (payload.bind byte?).map unknownOpcode
  | _ =>
      if isBare payload then
        [yielded, restarted, overrun, fault, stepBudget].find? fun halt => halt.text == name
      else none

end Halt

namespace Dialect

def toJson (dialect : Dialect) : Value :=
  ofText dialect.name

def ofJson? (value : Value) : Option Dialect := do
  let (name, payload) ← value.alternative?
  if isBare payload then
    [routine5C3FD5, routine5C23D1].find? fun dialect => dialect.name == name
  else none

end Dialect

namespace PerDialect

def toJson (addrs : PerDialect UInt32) : Value :=
  ofFields [("sub_5c3fd5", ofNat addrs.at5C3FD5.toNat), ("sub_5c23d1", ofNat addrs.at5C23D1.toNat)]

def ofJson? (value : Value) : Option (PerDialect UInt32) := do
  let [first, second] ← fieldValues ["sub_5c3fd5", "sub_5c23d1"] false value | none
  return ⟨← required word? first, ← required word? second⟩

end PerDialect

namespace Layout

def fieldNames : List String :=
  ["fixed_scripts", "history_tables", "script_index_addr", "table_origin_addr",
    "offset_base_addr"]

def toJson (layout : Layout) : Value :=
  ofFields (fieldNames.zip [layout.fixedScripts.toJson, layout.historyTables.toJson,
    ofNat layout.scriptIndexAddr.toNat, ofNat layout.tableOriginAddr.toNat,
    ofNat layout.offsetBaseAddr.toNat])

def ofJson? (value : Value) : Option Layout := do
  let [fixed, history, index, origin, base] ← fieldValues fieldNames false value | none
  return ⟨← required PerDialect.ofJson? fixed, ← required PerDialect.ofJson? history,
    ← required word? index, ← required word? origin, ← required word? base⟩

end Layout

namespace Descriptor

def toJson (descriptor : Descriptor) : Value :=
  ofFields [("arg_len", ofInt descriptor.argLength.toInt),
    ("doubled_arg", ofOption (fun index => ofNat index.toNat) descriptor.doubled),
    ("terminal", .bool descriptor.terminal)]

/-- A descriptor that does not mention a doubled argument has none. -/
def ofJson? (value : Value) : Option Descriptor := do
  let [argLength, doubled, terminal] ←
    fieldValues ["arg_len", "doubled_arg", "terminal"] false value | none
  return ⟨Int8.ofInt (← required (Value.int? 128) argLength),
    ← optional none (Value.nullable byte?) doubled, ← required Value.bool? terminal⟩

end Descriptor

namespace TraceFlags

def toJson (flags : TraceFlags) : Value :=
  ofFields [("all", .bool flags.all), ("battle_camera", .bool flags.battleCamera)]

def ofJson? (value : Value) : Option TraceFlags := do
  let [all, camera] ← fieldValues ["all", "battle_camera"] true value | none
  return ⟨← optional false Value.bool? all, ← optional false Value.bool? camera⟩

end TraceFlags

namespace LevelFilter

def toJson (filter : LevelFilter) : Value :=
  ofText filter.name

def ofJson? (value : Value) : Option LevelFilter := do
  let (name, payload) ← value.alternative?
  if isBare payload then ofName? name else none

end LevelFilter

namespace LoggerConfig

def toJson (logger : LoggerConfig) : Value :=
  ofFields [("app_level_filter", logger.appLevelFilter.toJson),
    ("level_filter", logger.levelFilter.toJson)]

def ofJson? (value : Value) : Option LoggerConfig := do
  let [app, other] ← fieldValues ["app_level_filter", "level_filter"] false value | none
  return ⟨← required LevelFilter.ofJson? app, ← required LevelFilter.ofJson? other⟩

end LoggerConfig

namespace CameraConfig

def fieldNames : List String :=
  ["logger_config", "trace", "patch_script_args", "cross_check", "step_limit", "layout"]

def toJson (config : CameraConfig) : Value :=
  ofFields (fieldNames.zip [ofOption LoggerConfig.toJson config.logger, config.trace.toJson,
    .bool config.patchScriptArgs, .bool config.crossCheck, ofNat config.stepLimit.toNat,
    ofOption Layout.toJson config.layout])

def stepLimit? (value : Value) : Option UInt64 :=
  (value.nat? UInt64.size).map UInt64.ofNat

/-- A setting that is not mentioned keeps its default; `null` is not the default of the
logger but its absence. -/
def ofJson? (value : Value) : Option CameraConfig := do
  let [logger, trace, patch, check, limit, layout] ← fieldValues fieldNames true value | none
  return {
    logger := ← optional standard.logger (Value.nullable LoggerConfig.ofJson?) logger
    trace := ← optional standard.trace TraceFlags.ofJson? trace
    patchScriptArgs := ← optional standard.patchScriptArgs Value.bool? patch
    crossCheck := ← optional standard.crossCheck Value.bool? check
    stepLimit := ← optional standard.stepLimit stepLimit? limit
    layout := ← optional standard.layout (Value.nullable Layout.ofJson?) layout }

def read (bytes : List UInt8) : Option CameraConfig :=
  (Json.parse bytes).bind ofJson?

def write (config : CameraConfig) : List UInt8 :=
  Json.pretty config.toJson

end CameraConfig

end CameraScript
