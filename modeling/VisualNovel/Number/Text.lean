import VisualNovel.Number.Digits
import VisualNovel.Number.Double
import VisualNovel.Text.Blank
/-!
# Doubles written as text

A text is a double if it is, white space around it and a sign aside, a decimal number or one of the
words `inf`, `infinity` and `nan` in any case. A decimal number has digits, a point with digits on
at least one side of it, and maybe an exponent. Single underscores may stand between characters.
-/
namespace VisualNovel.Number

/-- A sign in front, if there is one; true for a minus. -/
def readSign : List Char → Bool × List Char
  | '-' :: s => (true, s)
  | '+' :: s => (false, s)
  | s => (false, s)

/-- An exponent that makes up the text; no text is the exponent zero. -/
def readPower? : List Char → Option Int
  | [] => some 0
  | e :: s =>
    if e = 'e' || e = 'E' then
      let (negative, ds) := readSign s
      if ds.isEmpty || !ds.all Char.isDigit then none
      else some (if negative then -(ofDigits ds : Int) else ofDigits ds)
    else none

/-- A decimal number that makes up the text. -/
def readDecimal? (negative : Bool) (s : List Char) : Option Float :=
  let whole := s.takeWhile Char.isDigit
  let rest := s.dropWhile Char.isDigit
  let (fraction, power) : List Char × List Char :=
    match rest with
    | '.' :: t => (t.takeWhile Char.isDigit, t.dropWhile Char.isDigit)
    | t => ([], t)
  if whole.isEmpty && fraction.isEmpty then none
  else (readPower? power).map fun e =>
    ofDecimal negative (ofDigits (whole ++ fraction)) (e - fraction.length)

/-- A signed number that makes up the text. -/
def readFloat? (s : List Char) : Option Float :=
  let (negative, s) := readSign s
  let word := String.ofList (s.map Char.toLower)
  if word = "inf" ∨ word = "infinity" then some (if negative then -1 / 0 else 1 / 0)
  else if word = "nan" then some (0 / 0)
  else readDecimal? negative s

/-- Whether underscores stand singly between other characters. -/
def underscoresSeparate (s : List Char) : Bool :=
  s.head? ≠ some '_' && s.getLast? ≠ some '_' &&
    !(s.zip (s.drop 1)).any fun (a, b) => a = '_' && b = '_'

/-- White space, without the information separators. -/
def isSpace (c : Char) : Bool := Text.isBlank c && !(0x1c ≤ c.toNat && c.toNat ≤ 0x1f)

/-- The double that a text writes. -/
def ofText? (text : String) : Option Float :=
  let s := text.toList
  let trimmed := ((s.dropWhile isSpace).reverse.dropWhile isSpace).reverse
  match readFloat? trimmed with
  | some x => some x
  | none => if underscoresSeparate s then readFloat? (s.filter (· ≠ '_')) else none

/-- The integer that a text writes, blanks around it and a sign in front of it aside; single
underscores may stand between digits. -/
def intOfText? (text : String) : Option Int :=
  let (negative, s) := readSign (Text.trim text.toList)
  let ds := s.filter (· ≠ '_')
  if ds.isEmpty || !ds.all Char.isDigit || !underscoresSeparate s then none
  else some (if negative then -(ofDigits ds : Int) else ofDigits ds)

end VisualNovel.Number
