import CameraScript.Text.Hex

/-!
A string as a TOML value. Text with a backslash is written literally when a literal
form can hold it; all other text stands between double quotes with escapes. Text with
a line break takes the form with three quotes.
-/

namespace CameraScript.Text

def singleQuoteRuns (text : List Char) : Nat × Nat :=
  text.foldl (fun (longest, current) character =>
    if character = '\'' then (max longest (current + 1), current + 1) else (longest, 0)) (0, 0)

/-- A control character that has to be escaped even in a multi-line form. -/
def isTomlControl (character : Char) : Bool :=
  (character.toNat ≤ 0x1F && character ≠ '\t' && character ≠ '\n') || character.toNat = 0x7F

/-- A literal form has no escapes: it cannot hold control characters, three quotes in
a row, or a quote at its end. -/
def fitsTomlLiteral (text : List Char) : Bool :=
  let (longest, last) := singleQuoteRuns text
  longest < 3 && last = 0 && !text.any isTomlControl

def escapeToml (multiline : Bool) (character : Char) : String :=
  if character = '\x08' then "\\b"
  else if character = '\t' then "\\t"
  else if character = '\n' then (if multiline then "\n" else "\\n")
  else if character = '\x0c' then "\\f"
  else if character = '\r' then "\\r"
  else if character = '"' then "\\\""
  else if character = '\\' then "\\\\"
  else if character.toNat ≤ 0x1F || character.toNat = 0x7F then
    "\\u" ++ hexUpper 4 character.toNat
  else String.singleton character

def tomlString (text : String) : String :=
  let characters := text.toList
  let multiline := characters.contains '\n'
  if characters.contains '\\' && fitsTomlLiteral characters then
    if multiline then "'''\n" ++ text ++ "'''"
    else if characters.contains '\'' then "'''" ++ text ++ "'''"
    else "'" ++ text ++ "'"
  else
    let body := String.join (characters.map (escapeToml multiline))
    if multiline then "\"\"\"\n" ++ body ++ "\"\"\"" else "\"" ++ body ++ "\""

end CameraScript.Text
