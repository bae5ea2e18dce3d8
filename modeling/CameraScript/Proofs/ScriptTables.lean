import CameraScript.Layout
import Mathlib.Data.UInt

/-!
# Scripts found through the tables

A selector leads to its script along a trail of words, each at an address that the words before
it give. A resolution follows the trail: the script begins where the last word says, and the
first word of the trail that lies outside of the image is reported. What the tables hold is
relative to a load base, and what is subtracted on the way is this base again, so that scripts
are found where they are whatever the base is.
-/

namespace CameraScript

namespace Region

variable {region : Region} {addr word start : UInt32} {trail : List (UInt32 × UInt32)}

theorem read_word_outside (outside : ¬ region.Covers addr 4) :
    region.readWord addr = .error (region.refusal addr) := by
  simp only [readWord, locate, dif_neg outside]

/-- The words of a trail are what they are said to be. Behind a word outside of the image the
trail is not followed, and nothing is said of it. -/
def Holds (region : Region) : List (UInt32 × UInt32) → Prop
  | [] => True
  | (addr, word) :: rest =>
      region.Covers addr 4 → region.readWord addr = .ok word ∧ region.Holds rest

instance decidableHolds (region : Region) :
    (trail : List (UInt32 × UInt32)) → Decidable (region.Holds trail)
  | [] => isTrue trivial
  | (addr, word) :: rest =>
      have := decidableHolds region rest
      inferInstanceAs
        (Decidable (region.Covers addr 4 → region.readWord addr = .ok word ∧ region.Holds rest))

/-- The script that begins at an address and runs to the end of the image, provided that the
words that lead to it and its own first byte lie in the image. -/
def scriptBehind (region : Region) (trail : List (UInt32 × UInt32)) (start : UInt32) :
    Except OutOfRange View :=
  match (trail.map Prod.fst).find? fun addr => !decide (region.Covers addr 4) with
  | some addr => .error (region.refusal addr)
  | none =>
      if region.Covers start 1 then .ok ⟨start, region.finish - start.toNat⟩
      else .error (region.refusal start)

theorem script_behind_nil (region : Region) (start : UInt32) :
    region.view start = region.scriptBehind [] start :=
  View.region_view_eq region start

theorem script_behind_cons {next : UInt32 → Except OutOfRange View}
    (holds : region.Holds ((addr, word) :: trail))
    (rest : region.Holds trail → next word = region.scriptBehind trail start) :
    region.readWord addr >>= next = region.scriptBehind ((addr, word) :: trail) start := by
  by_cases inside : region.Covers addr 4
  · have here := holds inside
    have passed : region.scriptBehind ((addr, word) :: trail) start =
        region.scriptBehind trail start := by
      simp only [scriptBehind, List.map_cons, List.find?_cons, inside, decide_true, Bool.not_true]
    rw [here.1, passed]
    exact rest here.2
  · rw [read_word_outside inside]
    simp only [scriptBehind, List.map_cons, List.find?_cons, inside, decide_false, Bool.not_false]
    rfl

end Region

/-- The slots of the tables are counted by signed numbers, of which only the value modulo the
address space matters. -/
theorem variation_to_word (variation : Int8) :
    variation.toInt32.toUInt32 = UInt32.ofInt variation.toInt := by
  rw [← Int32.ofInt_int8ToInt]
  apply UInt32.toNat_inj.mp
  simp [UInt32.ofInt, Int32.ofInt]
  omega

theorem nat_to_word {value : Int} (positive : 0 ≤ value) :
    UInt32.ofNat value.toNat = UInt32.ofInt value := by
  apply UInt32.toNat_inj.mp
  simp [UInt32.ofInt]
  omega

namespace Layout

/-- The words on the way to a script of the tables: the origin and the load base, the cell of
the directory, and the cell of the slot. -/
def tableTrail (layout : Layout) (cell : UInt32) (slot : Int)
    (origin loadBase directory script : UInt32) : List (UInt32 × UInt32) :=
  [(layout.tableOriginAddr, origin), (layout.offsetBaseAddr, loadBase),
    (cell, directory + loadBase),
    (origin + 4 * UInt32.ofInt slot + directory, script + loadBase)]

def historyTrail (layout : Layout) (dialect : Dialect) (index script : UInt32) :
    List (UInt32 × UInt32) :=
  [(layout.scriptIndexAddr, index), (layout.historyTables.get dialect + 4 * index, script)]

variable {layout : Layout} {region : Region} {dialect : Dialect} {variation : Int8}

theorem resolve_of_found {selector : Int16} {selected : Selector}
    {outcome : Except OutOfRange View} (chosen : Selector.ofNumber? selector = some selected)
    (found : layout.scriptAddr region dialect variation selected >>= region.view = outcome)
    (trace : TraceFlags) :
    (layout.resolve trace region dialect variation selector).1 =
      outcome.mapError .outOfRange := by
  unfold resolve
  rw [chosen, ← found]
  simp only
  cases layout.scriptAddr region dialect variation selected <;> rfl

/-- The load base that is subtracted is the one that was added. -/
theorem follow_tables_trail {displacement slot : UInt32} {number : Int}
    (origin loadBase directory script : UInt32) (counted : slot = UInt32.ofInt number)
    (holds : region.Holds
      (layout.tableTrail (origin + displacement) number origin loadBase directory script)) :
    layout.followTables region displacement slot >>= region.view =
      region.scriptBehind
        (layout.tableTrail (origin + displacement) number origin loadBase directory script)
        (origin + script) := by
  have cell : origin + (slot * 4 + (directory + loadBase) - loadBase) =
      origin + 4 * UInt32.ofInt number + directory := by
    rw [counted]
    grind
  have found : origin + (script + loadBase - loadBase) = origin + script := by
    rw [UInt32.add_sub_cancel]
  simp only [followTables, bind_assoc, pure_bind]
  apply Region.script_behind_cons holds
  intro holds
  apply Region.script_behind_cons holds
  intro holds
  apply Region.script_behind_cons holds
  intro holds
  rw [cell]
  apply Region.script_behind_cons holds
  intro holds
  rw [found]
  exact region.script_behind_nil _

theorem history_trail (index script : UInt32)
    (holds : region.Holds (layout.historyTrail dialect index script)) :
    layout.scriptAddr region dialect variation .history >>= region.view =
      region.scriptBehind (layout.historyTrail dialect index script) script := by
  have cell : layout.historyTables.get dialect + index * 4 =
      layout.historyTables.get dialect + 4 * index := by
    rw [UInt32.mul_comm]
  simp only [scriptAddr, bind_assoc]
  apply Region.script_behind_cons holds
  intro holds
  rw [cell]
  apply Region.script_behind_cons holds
  intro holds
  exact region.script_behind_nil script

theorem selected_of_number {selector : Int16} (positive : 0 ≤ selector.toInt) :
    Selector.ofNumber? selector = some (.indexed selector.toInt.toNat) := by
  have other {number : Int16} (negative : number.toInt < 0) : selector ≠ number := by
    rintro rfl
    omega
  unfold Selector.ofNumber?
  rw [if_neg (other (by decide)), if_neg (other (by decide)), if_neg (other (by decide)),
    if_pos positive]

/-- A script of the tables, or of the history, is found where the tables and the load base say.
Whatever the load base is, it begins at its offset from the origin and runs to the end of the
image, and of the words on the way and its own address the first one outside of the image is
reported. -/
theorem resolve_inverts_tables (layout : Layout) (trace : TraceFlags) (region : Region)
    (dialect : Dialect) (variation : Int8) (selector : Int16) :
    let resolved := (layout.resolve trace region dialect variation selector).1
    (0 ≤ selector.toInt → ∀ origin loadBase directory script,
      let trail := layout.tableTrail (origin + dialect.internalOffset)
        (3 * selector.toInt + variation.toInt) origin loadBase directory script
      region.Holds trail →
        resolved = (region.scriptBehind trail (origin + script)).mapError
          ResolveError.outOfRange) ∧
      (selector = -3 → ∀ origin loadBase directory script,
        let trail := layout.tableTrail (origin + 8 + dialect.internalOffset)
          variation.toInt origin loadBase directory script
        region.Holds trail →
          resolved = (region.scriptBehind trail (origin + script)).mapError
            ResolveError.outOfRange) ∧
      (selector = -2 → ∀ index script,
        let trail := layout.historyTrail dialect index script
        region.Holds trail →
          resolved = (region.scriptBehind trail script).mapError
            ResolveError.outOfRange) := by
  intro resolved
  refine ⟨?indexed, ?byVariation, ?history⟩
  case indexed =>
    intro positive origin loadBase directory script trail holds
    have counted : variationsPerScript * UInt32.ofNat selector.toInt.toNat +
        variation.toInt32.toUInt32 = UInt32.ofInt (3 * selector.toInt + variation.toInt) := by
      rw [nat_to_word positive, variation_to_word, UInt32.ofInt_add, UInt32.ofInt_mul]
      rfl
    apply resolve_of_found (selected_of_number positive)
    exact follow_tables_trail origin loadBase directory script counted holds
  case byVariation =>
    intro chosen origin loadBase directory script trail holds
    have cell : origin + 8 + dialect.internalOffset =
        origin + (variationDirectory + dialect.internalOffset) :=
      UInt32.add_assoc ..
    have counted := variation_to_word variation
    simp only [trail] at holds ⊢
    rw [cell] at holds ⊢
    subst chosen
    apply resolve_of_found rfl
    exact follow_tables_trail origin loadBase directory script counted holds
  case history =>
    intro chosen index script trail holds
    subst chosen
    apply resolve_of_found rfl
    exact history_trail index script holds

/-- The slot of script one and variation minus one is the second. Its cell is in this image, and
the cell of the next script is not. The load base is taken as large as the address space. -/
theorem resolve_inverts_tables_of_two_scripts :
    let region : Region := ⟨0x1000,
      ⟨#[0x08, 0x10, 0, 0, 0, 0xFF, 0xFF, 0xFF, 4, 0xFF, 0xFF, 0xFF, 0, 0, 0, 0, 0, 0, 0, 0,
        0x10, 0xFF, 0xFF, 0xFF, 0xFF]⟩⟩
    let layout : Layout := ⟨⟨0, 0⟩, ⟨0, 0⟩, 0, 0x1000, 0x1004⟩
    region.Holds (layout.tableTrail 0x1008 2 0x1008 0xFFFFFF00 4 0x10) ∧
      region.Holds (layout.tableTrail 0x1008 5 0x1008 0xFFFFFF00 4 0x10) ∧
      (layout.resolve .off region .routine5C23D1 (-1) 1).1 = .ok ⟨0x1018, 1⟩ ∧
      (layout.resolve .off region .routine5C23D1 (-1) 2).1 =
        .error (.outOfRange ⟨0x1020, 0x1000, 0x1019⟩) := by
  intro region layout
  have first : region.Holds (layout.tableTrail 0x1008 2 0x1008 0xFFFFFF00 4 0x10) := by
    decide +kernel
  have second : region.Holds (layout.tableTrail 0x1008 5 0x1008 0xFFFFFF00 4 0x10) := by
    decide +kernel
  have found := (resolve_inverts_tables layout .off region .routine5C23D1 (-1) 1).1 (by decide)
    0x1008 0xFFFFFF00 4 0x10 first
  have missed := (resolve_inverts_tables layout .off region .routine5C23D1 (-1) 2).1 (by decide)
    0x1008 0xFFFFFF00 4 0x10 second
  exact ⟨first, second, found.trans (by decide +kernel), missed.trans (by decide +kernel)⟩

end Layout

end CameraScript
