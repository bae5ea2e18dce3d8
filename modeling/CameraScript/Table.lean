import CameraScript.Opcode
import CameraScript.Text.Hex

/-!
What an opcode takes along. A table gives each opcode at most one descriptor, and
admits only descriptors with which a walk makes progress: an opcode that neither
ends the script nor steers the control flow must not move the position back. The
rule is part of the type, so it holds of every table there is.
-/

namespace CameraScript

/-- The number of argument bytes (a negative one parks the position on the opcode),
the argument that is stored at half resolution, and whether the script ends here. -/
structure Descriptor where
  argLength : Int8
  doubled : Option UInt8
  terminal : Bool
  deriving DecidableEq, Repr

structure Entry where
  opcode : UInt8
  descriptor : Descriptor
  deriving DecidableEq, Repr

/-- Control opcodes move the position themselves and terminal ones end the walk. Any
other opcode must not move back. -/
def Entry.Advances (entry : Entry) : Prop :=
  (Control.ofOpcode? entry.opcode).isSome ∨ entry.descriptor.terminal ∨
    0 ≤ entry.descriptor.argLength.toInt

instance (entry : Entry) : Decidable entry.Advances :=
  inferInstanceAs (Decidable (_ ∨ _))

structure NonAdvancing where
  opcode : UInt8
  argLength : Int8
  deriving DecidableEq, Repr

def NonAdvancing.message (fault : NonAdvancing) : String :=
  let opcode := Text.hexUpper 2 fault.opcode.toNat
  s!"opcode 0x{opcode} is not terminal but never advances (args={fault.argLength.toInt})"

structure Table where
  slots : Vector (Option Descriptor) 256
  advances : ∀ (opcode : UInt8) (descriptor : Descriptor),
    getElem slots opcode.toNat opcode.toNat_lt = some descriptor →
      Entry.Advances ⟨opcode, descriptor⟩

namespace Table

def empty : Table where
  slots := Vector.replicate 256 none
  advances opcode descriptor found := by simp at found

def get? (table : Table) (opcode : UInt8) : Option Descriptor :=
  getElem table.slots opcode.toNat opcode.toNat_lt

theorem ext_get {left right : Table} (same : ∀ opcode, left.get? opcode = right.get? opcode) :
    left = right := by
  obtain ⟨leftSlots, _⟩ := left
  obtain ⟨rightSlots, _⟩ := right
  have equal : leftSlots = rightSlots := by
    apply Vector.ext
    intro index inside
    have found := same (UInt8.ofNat index)
    simpa [get?, Nat.mod_eq_of_lt inside] using found
  subst equal
  rfl

theorem get_empty (opcode : UInt8) : empty.get? opcode = none := by
  simp [get?, empty]

def insert (table : Table) (entry : Entry) (advances : entry.Advances) : Table where
  slots := table.slots.set entry.opcode.toNat (some entry.descriptor) entry.opcode.toNat_lt
  advances opcode descriptor found := by
    rw [Vector.getElem_set] at found
    split at found
    · rename_i same
      cases found
      exact UInt8.toNat_inj.mp same ▸ advances
    · exact table.advances opcode descriptor found

theorem get_insert (table : Table) (entry : Entry) (advances : entry.Advances) (opcode : UInt8) :
    (table.insert entry advances).get? opcode =
      if opcode = entry.opcode then some entry.descriptor else table.get? opcode := by
  simp only [get?, insert, Vector.getElem_set, UInt8.toNat_inj, eq_comm]

def insertMany (table : Table) :
    (entries : List Entry) → (∀ entry ∈ entries, entry.Advances) → Table
  | [], _ => table
  | entry :: rest, advance =>
      (table.insert entry (advance entry List.mem_cons_self)).insertMany rest
        fun later member => advance later (List.mem_cons_of_mem entry member)

def ofAdvancing (entries : List Entry) (advance : ∀ entry ∈ entries, entry.Advances) : Table :=
  empty.insertMany entries advance

/-- An entry is checked when its turn comes, so also one that a later entry would replace. -/
def accept (table : Table) (entry : Entry) : Except NonAdvancing Table :=
  if advances : entry.Advances then .ok (table.insert entry advances)
  else .error ⟨entry.opcode, entry.descriptor.argLength⟩

/-- The first entry that does not advance is reported, whatever comes after it. -/
def ofEntries (entries : List Entry) : Except NonAdvancing Table :=
  entries.foldlM accept empty

def opcodes : List UInt8 :=
  (List.range 256).map UInt8.ofNat

def entries (table : Table) : List Entry :=
  opcodes.filterMap fun opcode => (table.get? opcode).map (Entry.mk opcode)

def size (table : Table) : Nat :=
  table.entries.length

def isEmpty (table : Table) : Bool :=
  table.entries.isEmpty

end Table

end CameraScript
