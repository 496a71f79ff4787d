import ComponentMarkup.Text.Hexadecimal

/-!
# Percent encoding

A text is written for a part of an address: the ASCII letters and digits and the
marks `-_.!~*'()` stand for themselves, and every other byte of the UTF-8 form
is written as a percent sign and two upper-case hexadecimal digits.
-/

namespace ComponentMarkup
namespace Text
namespace Percent

def isPlain (c : Char) : Bool :=
  c.isAlphanum || c == '-' || c == '_' || c == '.' || c == '!' || c == '~' ||
    c == '*' || c == '\'' || c == '(' || c == ')'

def byteGroup (b : UInt8) : List Char :=
  ['%', Hexadecimal.upperDigit (b.toNat / 16), Hexadecimal.upperDigit (b.toNat % 16)]

def encodeChar (c : Char) : List Char :=
  if isPlain c then [c] else (String.utf8EncodeChar c).flatMap byteGroup

def encode (s : String) : String :=
  String.ofList (s.toList.flatMap encodeChar)

end Percent
end Text
end ComponentMarkup
