import VisualNovel.Assoc
import VisualNovel.Json.Value
import VisualNovel.Number.Digits
import VisualNovel.Text.Halves
/-!
# Reading JSON

A reader of one JSON text. Beside the standard it takes `NaN`, `Infinity` and `-Infinity`; of two
members with one name the last value counts, at the place of the first; control characters must
be escaped inside strings; only space, tab, line feed and carriage return stand between tokens. A
number is an integer unless it has a fraction or an exponent. An integer of more than 4300 digits is
refused, and so are lists and objects that are nested too deeply.

A step takes a character or hands on to one that does, so twice the length of the text bounds the
depth of the recursion.
-/
namespace VisualNovel.Json

/-- Why a text is not read. -/
inductive ReadError where
  /-- It is no JSON text. -/
  | notJson
  /-- Up to here it is one, but it cannot be taken in. -/
  | misfit (e : Misfit)
  deriving DecidableEq, Repr

/-- What can be read, or why it cannot. -/
abbrev Reader := Except ReadError

/-- What was read if there is something; otherwise the text is no JSON. -/
def orNotJson : Option α → Reader α
  | some x => .ok x
  | none => .error .notJson

/-- Drops the blanks in front of a token. -/
def skipBlanks (s : List Char) : List Char :=
  s.dropWhile fun c => c == ' ' || c == '\t' || c == '\n' || c == '\r'

/-- The value of a hexadecimal digit. -/
def hexValue? (c : Char) : Option Nat :=
  if '0' ≤ c && c ≤ '9' then some (c.toNat - '0'.toNat)
  else if 'a' ≤ c && c ≤ 'f' then some (c.toNat - 'a'.toNat + 10)
  else if 'A' ≤ c && c ≤ 'F' then some (c.toNat - 'A'.toNat + 10)
  else none

/-- Four hexadecimal digits, and what follows. -/
def readHex4 : List Char → Option (Nat × List Char)
  | a :: b :: c :: d :: rest => do
    let a ← hexValue? a
    let b ← hexValue? b
    let c ← hexValue? c
    let d ← hexValue? d
    some (((a * 16 + b) * 16 + c) * 16 + d, rest)
  | _ => none

/-- The character of a code unit that was written as an escape; a leading half takes the trailing
half that follows it, and a half that stands alone stays one. -/
def readUnit (unit : Nat) (rest : List Char) : Char × List Char :=
  if 0xd800 ≤ unit && unit < 0xdc00 then
    match rest with
    | '\\' :: 'u' :: tail =>
      match readHex4 tail with
      | some (low, after) =>
        if 0xdc00 ≤ low && low < 0xe000 then
          (Char.ofNat (0x10000 + (unit - 0xd800) * 0x400 + (low - 0xdc00)), after)
        else (Text.halfChar unit, rest)
      | none => (Text.halfChar unit, rest)
    | _ => (Text.halfChar unit, rest)
  else if 0xdc00 ≤ unit && unit < 0xe000 then (Text.halfChar unit, rest)
  else (Char.ofNat unit, rest)

/-- The character a one-letter escape stands for. -/
def escape? : Char → Option Char
  | '"' => some '"'
  | '\\' => some '\\'
  | '/' => some '/'
  | 'b' => some '\x08'
  | 'f' => some '\x0c'
  | 'n' => some '\n'
  | 'r' => some '\r'
  | 't' => some '\t'
  | _ => none

/-- The rest of a string after its opening quote, in front of `done` reversed. -/
def readString : (fuel : Nat) → (done : List Char) → List Char → Option (String × List Char)
  | 0, _, _ => none
  | _ + 1, _, [] => none
  | _ + 1, done, '"' :: rest => some (.ofList done.reverse, rest)
  | fuel + 1, done, '\\' :: 'u' :: rest => do
    let (unit, rest) ← readHex4 rest
    let (c, rest) := readUnit unit rest
    readString fuel (c :: done) rest
  | fuel + 1, done, '\\' :: e :: rest => do
    readString fuel ((← escape? e) :: done) rest
  | fuel + 1, done, c :: rest =>
    if c.toNat < 0x20 then none else readString fuel (c :: done) rest

/-- The digits in front, and what follows them. -/
def spanDigits (s : List Char) : List Char × List Char :=
  (s.takeWhile Char.isDigit, s.dropWhile Char.isDigit)

/-- A fraction: a point and at least one digit. -/
def readFraction : List Char → Option (List Char × List Char)
  | '.' :: s =>
    match spanDigits s with
    | ([], _) => none
    | ds => some ds
  | _ => none

/-- The value of an exponent's digits. -/
def exponentOf (negative : Bool) (ds : List Char) : Int :=
  if negative then -(Number.ofDigits ds : Int) else Number.ofDigits ds

/-- An exponent: a letter, a sign or none, and at least one digit. -/
def readExponent : List Char → Option (Int × List Char)
  | e :: s =>
    if e == 'e' || e == 'E' then
      let (negative, digits) : Bool × List Char :=
        match s with
        | '-' :: s => (true, s)
        | '+' :: s => (false, s)
        | s => (false, s)
      match spanDigits digits with
      | ([], _) => none
      | (ds, rest) => some (exponentOf negative ds, rest)
    else none
  | [] => none

/-- The whole part of a number: zero, or digits that do not start with zero. -/
def readWhole : List Char → Option (List Char × List Char)
  | '0' :: s => some (['0'], s)
  | s =>
    match spanDigits s with
    | ([], _) => none
    | ds => some ds

/-- The most digits of an integer. -/
def mostDigits : Nat := 4300

/-- A number after its sign. -/
def readNumber (negative : Bool) (s : List Char) : Reader (Json × List Char) := do
  let (whole, s) ← orNotJson (readWhole s)
  let (fraction, afterFraction) := (readFraction s).getD ([], s)
  let exponent := readExponent afterFraction
  if fraction.isEmpty && exponent.isNone then
    if mostDigits < whole.length then .error (.misfit .value)
    else
      let n : Int := Number.ofDigits whole
      .ok (int (if negative then -n else n), s)
  else
    let (e, rest) := exponent.getD (0, afterFraction)
    let digits := Number.ofDigits (whole ++ fraction)
    .ok (real (Number.ofDecimal negative digits (e - fraction.length)), rest)

/-- A value that is written as a word, and what follows it. -/
def readWord (word : String) (value : Json) (s : List Char) : Reader (Json × List Char) :=
  if word.toList.isPrefixOf s then .ok (value, s.drop word.length) else .error .notJson

/-- The rest of a string after its opening quote. -/
def readText (s : List Char) : Reader (String × List Char) :=
  orNotJson (readString (s.length + 1) [] s)

/-- How deeply lists and objects may be nested. -/
def mostLevels : Nat := 985

/-- The room inside one more level. -/
def enter : (room : Nat) → Reader Nat
  | 0 => .error (.misfit .depth)
  | room + 1 => .ok room

mutual

/-- One value at the start of the text, and what follows it; there is room for so many levels. -/
def readValue : (fuel room : Nat) → List Char → Reader (Json × List Char)
  | 0, _, _ => .error .notJson
  | fuel + 1, room, s =>
    match s with
    | '"' :: rest => (readText rest).map fun (t, rest) => (str t, rest)
    | '[' :: rest => do
      let room ← enter room
      match skipBlanks rest with
      | ']' :: rest => .ok (arr [], rest)
      | rest => (readItems fuel room rest).map fun (items, rest) => (arr items, rest)
    | '\x7b' :: rest => do
      let room ← enter room
      match skipBlanks rest with
      | '\x7d' :: rest => .ok (obj [], rest)
      | rest => (readMembers fuel room [] rest).map fun (members, rest) => (obj members, rest)
    | 'n' :: _ => readWord "null" null s
    | 't' :: _ => readWord "true" (bool true) s
    | 'f' :: _ => readWord "false" (bool false) s
    | 'N' :: _ => readWord "NaN" (real (0 / 0)) s
    | 'I' :: _ => readWord "Infinity" (real (1 / 0)) s
    | '-' :: 'I' :: _ => readWord "-Infinity" (real (-1 / 0)) s
    | '-' :: rest => readNumber true rest
    | _ => readNumber false s

/-- The items of a list up to its closing bracket. -/
def readItems : (fuel room : Nat) → List Char → Reader (List Json × List Char)
  | 0, _, _ => .error .notJson
  | fuel + 1, room, s => do
    let (item, rest) ← readValue fuel room s
    match skipBlanks rest with
    | ']' :: rest => .ok ([item], rest)
    | ',' :: rest =>
      let (items, rest) ← readItems fuel room (skipBlanks rest)
      .ok (item :: items, rest)
    | _ => .error .notJson

/-- The members of an object up to its closing brace, added to those `done`. -/
def readMembers :
    (fuel room : Nat) → (done : List (String × Json)) → List Char →
      Reader (List (String × Json) × List Char)
  | 0, _, _, _ => .error .notJson
  | fuel + 1, room, done, s =>
    match s with
    | '"' :: rest => do
      let (name, rest) ← readText rest
      match skipBlanks rest with
      | ':' :: rest =>
        let (value, rest) ← readValue fuel room (skipBlanks rest)
        let done := Assoc.upsert name value done
        match skipBlanks rest with
        | '\x7d' :: rest => .ok (done, rest)
        | ',' :: rest => readMembers fuel room done (skipBlanks rest)
        | _ => .error .notJson
      | _ => .error .notJson
    | _ => .error .notJson

end

/-- The value a JSON text holds. -/
def parse (text : String) : Reader Json := do
  let s := text.toList
  let (value, rest) ← readValue (2 * s.length + 2) mostLevels (skipBlanks s)
  if (skipBlanks rest).isEmpty then .ok value else .error .notJson

end VisualNovel.Json
