/-
# Writer.Texts -- the texts a writer puts into a header

Decimal numbers, the UTF-8 check and the escaping of `writer.cpp`.  A text is
walked from its front, so the loop of `is_valid_xml_utf8` is a recursion over
what is left of it; `fuel` bounds its rounds, and every round takes a byte.
-/
import Mmxisf.Base

namespace Mmxisf.Writer

set_option autoImplicit false

/-! ## Numbers -/

/-- `std::to_string` of an unsigned number. -/
def decimal (value : Nat) : Text := lit (toString value)

/-! ## UTF-8 -/

/-- The continuation bytes of a sequence: the code point with their bits, and
what follows them. -/
def continueCodePoint : Nat → Nat → Text → Option (Nat × Text)
  | 0, codePoint, rest => some (codePoint, rest)
  | _ + 1, _, [] => none
  | count + 1, codePoint, byte :: rest =>
      if byte &&& 0xc0 ≠ 0x80 then none
      else continueCodePoint count (codePoint * 64 + (byte &&& 0x3f).toNat) rest

/-- The bits of a lead byte and the number of continuation bytes it announces. -/
def leadByte (lead : Byte) : Option (Nat × Nat) :=
  if lead < 0x80 then some (lead.toNat, 0)
  else if 0xc2 ≤ lead ∧ lead ≤ 0xdf then some ((lead &&& 0x1f).toNat, 1)
  else if 0xe0 ≤ lead ∧ lead ≤ 0xef then some ((lead &&& 0x0f).toNat, 2)
  else if 0xf0 ≤ lead ∧ lead ≤ 0xf4 then some ((lead &&& 0x07).toNat, 3)
  else none

def isXmlCharacter (codePoint : Nat) : Bool :=
  codePoint = 0x09 || codePoint = 0x0a || codePoint = 0x0d ||
    (0x20 ≤ codePoint && codePoint ≤ 0xd7ff) || (0xe000 ≤ codePoint && codePoint ≤ 0xfffd) ||
    (0x10000 ≤ codePoint && codePoint ≤ 0x10ffff)

/-- A sequence in more bytes than its code point needs, a code point beyond the
last, or a surrogate. -/
def isIllFormed (continuationCount codePoint : Nat) : Bool :=
  (continuationCount = 2 && codePoint < 0x800) ||
    (continuationCount = 3 && codePoint < 0x10000) || codePoint > 0x10ffff ||
    (0xd800 ≤ codePoint && codePoint ≤ 0xdfff)

/-- The loop of `is_valid_xml_utf8` on what is left of the text. -/
def isValidXmlUtf8From : Nat → Text → Bool
  | _, [] => true
  | 0, _ :: _ => false
  | fuel + 1, lead :: rest =>
      match leadByte lead with
      | none => false
      | some (bits, continuationCount) =>
          if continuationCount > rest.length then false
          else
            match continueCodePoint continuationCount bits rest with
            | none => false
            | some (codePoint, rest) =>
                if isIllFormed continuationCount codePoint then false
                else if isXmlCharacter codePoint = false then false
                else isValidXmlUtf8From fuel rest

def isValidXmlUtf8 (text : Text) : Bool := isValidXmlUtf8From text.length text

/-! ## Escaping -/

/-- What `escape_xml` appends for one character. -/
def escapeCharacter (inAttribute : Bool) (character : Byte) : Text :=
  if character = ch '&' then lit "&amp;"
  else if character = ch '<' then lit "&lt;"
  else if character = ch '>' then lit "&gt;"
  else if character = ch '"' then (if inAttribute then lit "&quot;" else lit "\"")
  else [character]

def escapeXml (input : Text) (inAttribute : Bool) : Result Text := do
  reject (isValidXmlUtf8 input = false) .invalidArgument "Writer text is not valid XML 1.0 UTF-8"
  return input.flatMap (escapeCharacter inAttribute)

end Mmxisf.Writer
