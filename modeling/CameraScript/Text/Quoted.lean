import CameraScript.Text.Hex
import CameraScript.Text.Invisible

/-!
Text between double quotes in messages, so that its ends and its odd characters can
be seen.
-/

namespace CameraScript.Text

/-- One character inside double quotes. A single quote needs no escape there. -/
def quoteCharacter (character : Char) : String :=
  if character = '\x00' then "\\0"
  else if character = '\t' then "\\t"
  else if character = '\r' then "\\r"
  else if character = '\n' then "\\n"
  else if character = '\\' then "\\\\"
  else if character = '"' then "\\\""
  else if isInvisible character then "\\u\x7b" ++ hex character.toNat ++ "\x7d"
  else String.singleton character

def quoted (text : List Char) : String :=
  "\"" ++ String.join (text.map quoteCharacter) ++ "\""

end CameraScript.Text
