import GrammarCompiler.Text.Unprintable
import GrammarCompiler.Text.Extender
import GrammarCompiler.Text.Ignorable

/-!
Escaped text for messages. Whatever could not be read off a line of output is
written as an escape: quotes, the backslash, the usual control characters by
their letter, and every other unprintable or ignorable character by its code
point. A mark
that extends the character in front of it is left alone, except at the start
of the text, where there is nothing for it to extend.
-/

namespace GrammarCompiler.Text

/-- The escape by code point, in lower-case hexadecimal without padding. -/
def codePointEscape (c : Char) : List Char :=
  ['\\', 'u', '\x7b'] ++ Nat.toDigits 16 c.toNat ++ ['\x7d']

/-- The characters that have an escape of one letter. -/
def letterEscape? (c : Char) : Option Char :=
  match c.toNat with
  | 0x00 => some '0'
  | 0x09 => some 't'
  | 0x0A => some 'n'
  | 0x0D => some 'r'
  | 0x22 => some '\x22'
  | 0x27 => some '\x27'
  | 0x5C => some '\\'
  | _ => none

/-- The characters that would leave nothing to read. -/
def isInvisible (c : Char) : Bool := ignorable.contains c || unprintable.contains c

/-- One character of a message. At the `start` of a text a mark is escaped too. -/
def escapeChar (start : Bool) (c : Char) : List Char :=
  match letterEscape? c with
  | some letter => ['\\', letter]
  | none =>
    if (start && extender.contains c) || isInvisible c then codePointEscape c else [c]

def escapeChars : List Char → List Char
  | [] => []
  | c :: rest => escapeChar true c ++ rest.flatMap (escapeChar false)

/-- The text as it stands in a message. -/
def escape (text : String) : String := String.ofList (escapeChars text.toList)

end GrammarCompiler.Text
