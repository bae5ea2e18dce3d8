import CameraScript.Dialect
import CameraScript.Log
import CameraScript.View

/-!
Where scripts are found. The game keeps a fixed script for each dialect, a history
table of script addresses, and a relocated table of tables: its entries are offsets
that were stored relative to a load base, which is subtracted again on the way. All
sums are taken modulo the address space.
-/

namespace CameraScript

structure Layout where
  fixedScripts : PerDialect UInt32
  historyTables : PerDialect UInt32
  scriptIndexAddr : UInt32
  tableOriginAddr : UInt32
  offsetBaseAddr : UInt32
  deriving DecidableEq, Repr

inductive Selector where
  | fixed
  | history
  | byVariation
  | indexed (script : Nat)
  deriving DecidableEq, Repr

/-- Three negative numbers have a meaning of their own, and every other negative
number has none. -/
def Selector.ofNumber? (number : Int16) : Option Selector :=
  if number = -1 then some fixed
  else if number = -2 then some history
  else if number = -3 then some byVariation
  else if 0 ≤ number.toInt then some (indexed number.toInt.toNat)
  else none

inductive ResolveError where
  | outOfRange (fault : OutOfRange)
  | unsupportedSelector (selector : Int16)
  deriving DecidableEq, Repr

def ResolveError.message : ResolveError → String
  | outOfRange fault => fault.message
  | unsupportedSelector selector => s!"unsupported camera script selector: {selector.toInt}"

namespace Layout

/-- Every indexed script takes three consecutive cells, one for each variation. -/
def variationsPerScript : UInt32 := 3

def variationDirectory : UInt32 := 8

/-- The directory cell leads to a row of cells, and the cell of the slot to the script.
Both hold offsets from the origin with the load base added. -/
def followTables (layout : Layout) (memory : Region) (directory slot : UInt32) :
    Except OutOfRange UInt32 := do
  let origin ← memory.readWord layout.tableOriginAddr
  let loadBase ← memory.readWord layout.offsetBaseAddr
  let row ← memory.readWord (origin + directory)
  let script ← memory.readWord (origin + (slot * 4 + row - loadBase))
  return origin + (script - loadBase)

def scriptAddr (layout : Layout) (memory : Region) (dialect : Dialect) (variation : Int8) :
    Selector → Except OutOfRange UInt32
  | .fixed => .ok (layout.fixedScripts.get dialect)
  | .history => do
      let index ← memory.readWord layout.scriptIndexAddr
      memory.readWord (layout.historyTables.get dialect + index * 4)
  | .byVariation =>
      layout.followTables memory (variationDirectory + dialect.internalOffset)
        variation.toInt32.toUInt32
  | .indexed script =>
      layout.followTables memory dialect.internalOffset
        (variationsPerScript * UInt32.ofNat script + variation.toInt32.toUInt32)

/-- The script of a call. The address is traced before it is checked. -/
def resolve (layout : Layout) (trace : TraceFlags) (memory : Region) (dialect : Dialect)
    (variation : Int8) (selector : Int16) : Except ResolveError View × Array Event :=
  match Selector.ofNumber? selector with
  | none => (.error (.unsupportedSelector selector), #[])
  | some selected =>
      match layout.scriptAddr memory dialect variation selected with
      | .error fault => (.error (.outOfRange fault), #[])
      | .ok addr =>
          ((memory.view addr).mapError .outOfRange,
            trace.record #[] (.located dialect variation selector addr))

end Layout

end CameraScript
