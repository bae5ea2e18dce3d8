import CameraScript.Memory

/-!
The part of an image that a script may occupy. A view never reaches past its
image when it is made, and truncation only shortens it. Positions inside a script
are 16-bit numbers and are added to the start as 32-bit addresses, so a script
that crosses the end of the address space has positions without a byte.
-/

namespace CameraScript

structure View where
  start : UInt32
  length : Nat
  deriving DecidableEq, Repr

/-- A script runs from its first byte to the end of the image. An address just
past the last byte starts no script. -/
def Region.view (region : Region) (addr : UInt32) : Except OutOfRange View :=
  match region.locate addr 0 with
  | .ok ⟨offset, _⟩ =>
      if offset < region.size then .ok ⟨addr, region.size - offset⟩
      else .error (region.refusal addr)
  | .error fault => .error fault

namespace View

def isEmpty (view : View) : Bool :=
  view.length == 0

def addrOf? (view : View) (position : UInt16) : Option UInt32 :=
  if position.toNat < view.length then some (view.start + position.toUInt32) else none

def truncate (view : View) (length : Nat) : View :=
  { view with length := min view.length length }

/-- The byte at a position: inside the script, and inside the image as well. -/
def byte? (view : View) (region : Region) (position : UInt16) : Option UInt8 :=
  (view.addrOf? position).bind region.byte?

theorem addr_of_eq_some_iff {view : View} {position : UInt16} {addr : UInt32} :
    view.addrOf? position = some addr ↔
      position.toNat < view.length ∧ view.start + position.toUInt32 = addr := by
  by_cases inside : position.toNat < view.length <;> simp [addrOf?, inside]

theorem region_view_eq (region : Region) (addr : UInt32) :
    region.view addr =
      if region.Covers addr 1 then .ok ⟨addr, region.finish - addr.toNat⟩
      else .error (region.refusal addr) := by
  by_cases reached : region.base ≤ addr
  · have after := UInt32.le_iff_toNat_le.mp reached
    by_cases whole : addr.toNat ≤ region.finish
    · have located : region.Covers addr 0 := ⟨reached, by simpa using whole⟩
      have size : region.finish = region.base.toNat + region.size := rfl
      simp only [Region.view, Region.locate, located, dite_true]
      simp only [Region.Covers, reached, true_and, size] at whole ⊢
      by_cases inside : addr.toNat + 1 ≤ region.base.toNat + region.size
      · have offset : addr.toNat - region.base.toNat < region.size := by omega
        simp only [inside, offset, if_true, Except.ok.injEq, View.mk.injEq, true_and]
        omega
      · have offset : ¬ addr.toNat - region.base.toNat < region.size := by omega
        simp [inside, offset]
    · have outside : ¬ region.Covers addr 0 := fun covered => whole (by simpa using covered.2)
      have outside' : ¬ region.Covers addr 1 := fun covered => whole (by
        have := covered.2
        omega)
      simp [Region.view, Region.locate, outside, outside']
  · have outside : ¬ region.Covers addr 0 := fun covered => reached covered.1
    have outside' : ¬ region.Covers addr 1 := fun covered => reached covered.1
    simp [Region.view, Region.locate, outside, outside']

end View

end CameraScript
