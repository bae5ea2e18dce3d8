import CameraScript.Text.Hex

/-!
A contiguous image of the game's memory, placed at a 32-bit base address. The end
of an image is a natural number: an image may reach past the end of the address
space, and the bytes out there exist although no address names them. Every access
is checked against the unbounded end, so no sum wraps around before the check.
-/

namespace CameraScript

structure OutOfRange where
  addr : UInt32
  base : UInt32
  finish : Nat
  deriving DecidableEq, Repr

def OutOfRange.message (fault : OutOfRange) : String :=
  let addr := Text.hexUpper 8 fault.addr.toNat
  let base := Text.hexUpper 8 fault.base.toNat
  let finish := Text.hexUpper 8 fault.finish
  s!"address out of range: addr=0x{addr}, region=0x{base}..0x{finish}"

structure Region where
  base : UInt32
  image : ByteArray

namespace Region

def bytes (region : Region) : Array UInt8 :=
  region.image.data

def size (region : Region) : Nat :=
  region.image.size

def finish (region : Region) : Nat :=
  region.base.toNat + region.image.size

def Covers (region : Region) (addr : UInt32) (count : Nat) : Prop :=
  region.base ≤ addr ∧ addr.toNat + count ≤ region.finish

instance (region : Region) (addr : UInt32) (count : Nat) :
    Decidable (region.Covers addr count) :=
  inferInstanceAs (Decidable (_ ∧ _))

def refusal (region : Region) (addr : UInt32) : OutOfRange :=
  ⟨addr, region.base, region.finish⟩

/-- A checked access yields an index together with the proof that all of the
bytes asked for are there. -/
def locate (region : Region) (addr : UInt32) (count : Nat) :
    Except OutOfRange { offset : Nat // offset + count ≤ region.image.size } :=
  if covered : region.Covers addr count then
    .ok ⟨addr.toNat - region.base.toNat, by
      have after := UInt32.le_iff_toNat_le.mp covered.1
      have before := covered.2
      simp only [finish] at before
      omega⟩
  else
    .error (region.refusal addr)

/-- The byte that an address names, if any. This is the view of an image by which
all of its operations are described. -/
def byte? (region : Region) (addr : UInt32) : Option UInt8 :=
  if region.base ≤ addr then region.image[addr.toNat - region.base.toNat]? else none

def readByte (region : Region) (addr : UInt32) : Except OutOfRange UInt8 :=
  match region.locate addr 1 with
  | .ok ⟨offset, _⟩ => .ok region.image[offset]
  | .error fault => .error fault

def writeByte (region : Region) (addr : UInt32) (value : UInt8) : Except OutOfRange Region :=
  match region.locate addr 1 with
  | .ok ⟨offset, _⟩ => .ok { region with image := region.image.set offset value }
  | .error fault => .error fault

/-- Four bytes as one word, the first byte counting least. -/
def wordOfBytes (first second third fourth : UInt8) : UInt32 :=
  first.toUInt32 + 256 * second.toUInt32 + 65536 * third.toUInt32 + 16777216 * fourth.toUInt32

/-- A word may straddle any two alignments: only its four bytes have to be there. -/
def readWord (region : Region) (addr : UInt32) : Except OutOfRange UInt32 :=
  match region.locate addr 4 with
  | .ok ⟨offset, _⟩ =>
      .ok (wordOfBytes region.image[offset] region.image[offset + 1]
        region.image[offset + 2] region.image[offset + 3])
  | .error fault => .error fault

def readSigned (region : Region) (addr : UInt32) : Except OutOfRange Int32 :=
  (region.readWord addr).map UInt32.toInt32

theorem word_of_bytes_toNat (first second third fourth : UInt8) :
    (wordOfBytes first second third fourth).toNat =
      first.toNat + 256 * second.toNat + 65536 * third.toNat + 16777216 * fourth.toNat := by
  have bound1 := first.toNat_lt
  have bound2 := second.toNat_lt
  have bound3 := third.toNat_lt
  have bound4 := fourth.toNat_lt
  simp only [wordOfBytes, UInt32.toNat_add, UInt32.toNat_mul, UInt8.toNat_toUInt32,
    UInt32.reduceToNat]
  omega

theorem finish_eq (region : Region) :
    region.finish = region.base.toNat + region.bytes.size :=
  rfl

theorem byte_eq (region : Region) (addr : UInt32) :
    region.byte? addr =
      if region.base ≤ addr then region.bytes[addr.toNat - region.base.toNat]? else none :=
  rfl

theorem bytes_set (region : Region) {index : Nat} (inside : index < region.image.size)
    (value : UInt8) :
    bytes { region with image := region.image.set index value inside } =
      region.bytes.setIfInBounds index value := by
  have present : index < region.bytes.size := inside
  rw [Array.setIfInBounds, dif_pos present]
  rfl

theorem byte_eq_none_iff (region : Region) (addr : UInt32) :
    region.byte? addr = none ↔ ¬ region.Covers addr 1 := by
  simp only [byte_eq, Covers, finish_eq]
  split <;> rename_i reached
  · have after := UInt32.le_iff_toNat_le.mp reached
    simp only [Array.getElem?_eq_none_iff, reached, true_and]
    omega
  · simp [reached]

theorem read_byte_eq (region : Region) (addr : UInt32) :
    region.readByte addr =
      match region.byte? addr with
      | some value => .ok value
      | none => .error (region.refusal addr) := by
  by_cases covered : region.Covers addr 1
  · have located := covered.2
    have after := UInt32.le_iff_toNat_le.mp covered.1
    simp only [finish] at located
    have inside : addr.toNat - region.base.toNat < region.image.size := by omega
    simp [readByte, locate, covered, byte?, covered.1, getElem?_pos, inside]
  · have absent := (byte_eq_none_iff region addr).mpr covered
    simp [readByte, locate, covered, absent]

theorem write_byte_eq (region : Region) (addr : UInt32) (value : UInt8) :
    region.writeByte addr value =
      match region.byte? addr with
      | some _ => .ok { region with
          image := ⟨region.bytes.setIfInBounds (addr.toNat - region.base.toNat) value⟩ }
      | none => .error (region.refusal addr) := by
  by_cases covered : region.Covers addr 1
  · have located := covered.2
    have after := UInt32.le_iff_toNat_le.mp covered.1
    simp only [finish] at located
    have inside : addr.toNat - region.base.toNat < region.image.size := by omega
    have written := bytes_set region inside value
    simp only [writeByte, locate, covered, dite_true, byte?, covered.1, if_true,
      getElem?_pos, inside, ← written]
    rfl
  · have absent := (byte_eq_none_iff region addr).mpr covered
    simp [writeByte, locate, covered, absent]

theorem write_byte_eq_ok_iff {region written : Region} {addr : UInt32} {value : UInt8} :
    region.writeByte addr value = .ok written ↔
      region.Covers addr 1 ∧ written = { region with
        image := ⟨region.bytes.setIfInBounds (addr.toNat - region.base.toNat) value⟩ } := by
  have absent := byte_eq_none_iff region addr
  rw [write_byte_eq]
  cases found : region.byte? addr with
  | none => simp [absent.mp found]
  | some before =>
      have covered : region.Covers addr 1 := by
        refine Decidable.byContradiction fun outside => ?_
        rw [absent.mpr outside] at found
        contradiction
      simp [covered, eq_comm]

theorem write_byte_eq_error_iff (region : Region) (addr : UInt32) (value : UInt8)
    (fault : OutOfRange) :
    region.writeByte addr value = .error fault ↔
      ¬ region.Covers addr 1 ∧ fault = region.refusal addr := by
  by_cases covered : region.Covers addr 1 <;> simp [writeByte, locate, covered, eq_comm]

theorem write_byte_placement {region written : Region} {addr : UInt32} {value : UInt8}
    (wrote : region.writeByte addr value = .ok written) :
    written.base = region.base ∧ written.bytes.size = region.bytes.size := by
  obtain ⟨-, rfl⟩ := write_byte_eq_ok_iff.mp wrote
  exact ⟨rfl, Array.size_setIfInBounds⟩

theorem byte_write_byte {region written : Region} {addr : UInt32} {value : UInt8}
    (wrote : region.writeByte addr value = .ok written) (other : UInt32) :
    written.byte? other = if other = addr then some value else region.byte? other := by
  obtain ⟨⟨reached, located⟩, rfl⟩ := write_byte_eq_ok_iff.mp wrote
  have after := UInt32.le_iff_toNat_le.mp reached
  rw [finish_eq] at located
  have inside : addr.toNat - region.base.toNat < region.bytes.size := by omega
  simp only [byte_eq]
  by_cases same : other = addr
  · rw [same, if_pos reached, if_pos rfl]
    exact Array.getElem?_setIfInBounds_self_of_lt inside
  · have distinct : other.toNat ≠ addr.toNat := fun eq => same (UInt32.toNat_inj.mp eq)
    rw [if_neg same]
    split
    · rename_i begun
      have beyond := UInt32.le_iff_toNat_le.mp begun
      exact Array.getElem?_setIfInBounds_ne (by omega)
    · rfl

end Region

end CameraScript
