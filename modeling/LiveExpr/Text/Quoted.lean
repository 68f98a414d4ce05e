import LiveExpr.Text.Hex
import LiveExpr.Text.Unprintable

/-!
# Quoted text

A text between double quotes, for use inside a message: what could be misread or shows
no glyph is escaped, so that the reader sees every character.
-/

namespace LiveExpr.Text

/-- The quoted form of one character. -/
def quoteChar (c : Char) : List Char :=
  if c = '"' then ['\\', '"']
  else if c = '\\' then ['\\', '\\']
  else if c = '\n' then ['\\', 'n']
  else if c = '\r' then ['\\', 'r']
  else if c = '\t' then ['\\', 't']
  else if c.toNat = 0 then ['\\', '0']
  else if isUnprintable c then
    ['\\', 'u', '\x7b'] ++ hexNumber c.toNat ++ ['\x7d']
  else [c]

/-- A text between double quotes, its special characters escaped. -/
def quoted (text : String) : String :=
  String.ofList ('"' :: text.toList.flatMap quoteChar ++ ['"'])

end LiveExpr.Text
