import ComponentMarkup.Text.Hexadecimal

/-!
# Strings as they are written in JSON

A string stands between double quotes.  The quote and the backslash are escaped,
a control character below U+0020 has its short escape or its code, and every
other character stands for itself.
-/

namespace ComponentMarkup
namespace Json

def quotedChar (c : Char) : List Char :=
  if c = '"' then ['\\', '"']
  else if c = '\\' then ['\\', '\\']
  else if c = '\x08' then ['\\', 'b']
  else if c = '\t' then ['\\', 't']
  else if c = '\n' then ['\\', 'n']
  else if c = '\x0c' then ['\\', 'f']
  else if c = '\r' then ['\\', 'r']
  else if c.toNat < 0x20 then
    ['\\', 'u', '0', '0', Text.Hexadecimal.lowerDigit (c.toNat / 16),
      Text.Hexadecimal.lowerDigit (c.toNat % 16)]
  else [c]

def quotedChars (cs : List Char) : List Char :=
  '"' :: cs.flatMap quotedChar ++ ['"']

def quoted (s : String) : String :=
  String.ofList (quotedChars s.toList)

end Json
end ComponentMarkup
