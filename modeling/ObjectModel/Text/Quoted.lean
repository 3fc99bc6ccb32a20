/-
Text in double quotes.

A quoted text reads back unambiguously: the quote and the backslash are
written behind a backslash, three control characters and NUL have a letter
of their own, and every other character that cannot be seen by itself is
written as its code point in braces.
-/
import ObjectModel.Text.CharClass
import ObjectModel.Text.Extending
import ObjectModel.Text.Ignorable
import ObjectModel.Text.Unprintable

namespace ObjectModel.Text.Quoted

/-- Lower-case hexadecimal numeral, without leading zeros. -/
def hexadecimal (n : Nat) : List Char :=
  Nat.toDigits 16 n

/-- Characters that stand for themselves inside quotes. -/
def plain (c : Char) : Bool :=
  c == ' ' || !(extending.contains c || ignorable.contains c || unprintable.contains c)

/-- One character as it is written inside quotes. -/
def escape (c : Char) : List Char :=
  if c = '\x00' then ['\\', '0']
  else if c = '\t' then ['\\', 't']
  else if c = '\r' then ['\\', 'r']
  else if c = '\n' then ['\\', 'n']
  else if c = '"' then ['\\', '"']
  else if c = '\\' then ['\\', '\\']
  else if plain c then [c]
  else '\\' :: 'u' :: '\x7b' :: (hexadecimal c.toNat ++ ['\x7d'])

/-- A text between quotes. -/
def quote (text : String) : String :=
  String.ofList ('"' :: (text.toList.flatMap escape ++ ['"']))

end ObjectModel.Text.Quoted
