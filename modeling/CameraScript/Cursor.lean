/-!
Where a script stands between two frames: the position of the next opcode and
the number of frames that a wait still has to go.
-/

namespace CameraScript

structure Cursor where
  position : UInt16
  wait : UInt16
  deriving DecidableEq, Repr

namespace Cursor

def start : Cursor := ⟨0, 0⟩

/-- The position under which the game stores a script that has not begun. -/
def unstarted : UInt16 := 255

/-- A stored cursor as a walk uses it. The wait of a script that has not begun is
not looked at. -/
def ofNative (stored : Cursor) : Cursor :=
  if stored.position = unstarted then start else stored

theorem of_native_of_ne {stored : Cursor} (begun : stored.position ≠ unstarted) :
    ofNative stored = stored := by
  simp [ofNative, begun]

end Cursor

end CameraScript
