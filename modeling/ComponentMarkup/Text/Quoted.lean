import ComponentMarkup.Text.Hidden

/-!
# Quoted text in messages

A message shows a text between double quotes.  The quote, the backslash and the
common control characters have escapes by name, and a hidden character is shown
by its code point in hexadecimal.
-/

namespace ComponentMarkup
namespace Text

/-- The form of one character inside a quoted text. -/
def quotedChar (c : Char) : List Char :=
  if c = '\x00' then ['\\', '0']
  else if c = '\t' then ['\\', 't']
  else if c = '\r' then ['\\', 'r']
  else if c = '\n' then ['\\', 'n']
  else if c = '"' then ['\\', '"']
  else if c = '\\' then ['\\', '\\']
  else if isHidden c then ['\\', 'u', '\x7b'] ++ Nat.toDigits 16 c.toNat ++ ['\x7d']
  else [c]

def quoted (s : String) : String :=
  "\"" ++ String.ofList (s.toList.flatMap quotedChar) ++ "\""

end Text
end ComponentMarkup
