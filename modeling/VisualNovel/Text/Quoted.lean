import VisualNovel.Text.Halves
import VisualNovel.Text.Printable
/-!
# Quoted text

How messages show a string: between single quotes, or between double quotes if it holds a single
quote and no double one. A backslash and the quote in use are escaped by a backslash, line feed,
carriage return and tab by a letter, and every other character that is not printable by its code
in two, four or eight hexadecimal digits.
-/
namespace VisualNovel.Text

/-- The digit of `n < 16`. -/
def hexDigit (n : Nat) : Char := (Nat.toDigits 16 n).headD '0'

/-- The last `width` hexadecimal digits of `n`. -/
def hexDigits : (width n : Nat) → List Char
  | 0, _ => []
  | w + 1, n => hexDigits w (n / 16) ++ [hexDigit (n % 16)]

/-- The quote a string is shown between. -/
def quoteMark (s : List Char) : Char :=
  if s.contains '\'' && !s.contains '"' then '"' else '\''

/-- One character of a string shown between the quotes `q`. -/
def quoteChar (q c : Char) : List Char :=
  if c = '\\' || c = q then ['\\', c]
  else if c = '\n' then ['\\', 'n']
  else if c = '\r' then ['\\', 'r']
  else if c = '\t' then ['\\', 't']
  else if isPrintable c then [c]
  else if c.toNat < 0x100 then '\\' :: 'x' :: hexDigits 2 c.toNat
  else if codeOf c < 0x10000 then '\\' :: 'u' :: hexDigits 4 (codeOf c)
  else '\\' :: 'U' :: hexDigits 8 c.toNat

/-- A string as messages show it. -/
def quoted (s : String) : String :=
  let cs := s.toList
  let q := quoteMark cs
  .ofList (q :: cs.flatMap (quoteChar q) ++ [q])

/-- A list of strings as messages show it. -/
def quotedList (ss : List String) : String :=
  "[" ++ ", ".intercalate (ss.map quoted) ++ "]"

end VisualNovel.Text
