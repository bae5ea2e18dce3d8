import CameraScript.Text.Blank

/-!
Trace categories. They are read from a list of names, from single switches in the
environment and from the configuration, and joined as sets.
-/

namespace CameraScript

structure TraceFlags where
  all : Bool
  battleCamera : Bool
  deriving DecidableEq, Repr

namespace TraceFlags

def off : TraceFlags := ⟨false, false⟩

def camera : TraceFlags := ⟨false, true⟩

def merge (left right : TraceFlags) : TraceFlags :=
  ⟨left.all || right.all, left.battleCamera || right.battleCamera⟩

def enabled (flags : TraceFlags) : Bool :=
  flags.all || flags.battleCamera

/-- One name out of a list; letters of either case are the same, and a name of some
other category sets nothing. -/
def ofName (name : List Char) : TraceFlags :=
  let lowered := String.ofList ((Text.trim name).map Char.toLower)
  if lowered = "all" then ⟨true, false⟩
  else if lowered = "battle_camera" ∨ lowered = "camera" ∨ lowered = "bcam" then ⟨false, true⟩
  else off

def separates (character : Char) : Bool :=
  character == ',' || character == ';' || Text.isBlank character

def ofList (text : String) : TraceFlags :=
  (Text.fields separates text.toList).foldl (fun flags name => flags.merge (ofName name)) off

/-- A switch is on unless it is empty or says no. -/
def switchOn (value : String) : Bool :=
  let lowered := String.ofList ((Text.trim value.toList).map Char.toLower)
  !(["", "0", "false", "no", "off"].contains lowered)

def ofEnvironment (setting? : String → Option String) : TraceFlags :=
  let listed := ((setting? "FFCAM_TRACE").map ofList).getD off
  let all := ((setting? "FFCAM_TRACE_ALL").map switchOn).getD false
  let camera := ((setting? "FFCAM_TRACE_BATTLE_CAMERA").map switchOn).getD false
  listed.merge ⟨all, camera⟩

theorem merge_assoc (first second third : TraceFlags) :
    (first.merge second).merge third = first.merge (second.merge third) := by
  simp [merge, Bool.or_assoc]

theorem off_merge (flags : TraceFlags) : off.merge flags = flags := by
  simp [merge, off]

end TraceFlags

end CameraScript
