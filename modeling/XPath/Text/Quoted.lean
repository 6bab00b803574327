import XPath.CodePoint
import XPath.Text.Ranges

/-! Text in double quotes, for log lines: one line whatever the text holds, and every character of it
shows. -/
namespace XPath.Text

/-- Whether a character shows as itself, and apart from the character before it. -/
def isVisible (c : Char) : Bool :=
  !(CodePoint.within c.toNat blankRanges || CodePoint.within c.toNat extendingRanges)

/-- A character by its number, in lower-case hexadecimal. -/
def numbered (c : Char) : String :=
  "\\u\x7b" ++ String.ofList (Nat.toDigits 16 c.toNat) ++ "\x7d"

/-- A character between double quotes. The double quote, the backslash and four control characters
have escapes of their own. The single quote needs none. -/
def quotedChar (c : Char) : String :=
  if c == '"' then "\\\""
  else if c == '\\' then "\\\\"
  else if c == '\n' then "\\n"
  else if c == '\t' then "\\t"
  else if c == '\r' then "\\r"
  else if c == '\x00' then "\\0"
  else if isVisible c then c.toString
  else numbered c

def quoted (s : String) : String :=
  "\"" ++ String.join (s.toList.map quotedChar) ++ "\""

end XPath.Text
