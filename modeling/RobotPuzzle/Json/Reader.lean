/-
  Reading JSON text.

  The grammar is the standard one with three more numbers (`NaN`, `Infinity`, `-Infinity`); of members
  with one name the last wins, at the place of the first.  The reader walks the list of characters and
  stops at the first character that no value can continue with.  A stop names what was expected and how
  many characters were left, from which `place` computes line, column and offset.

  Every nested value starts behind at least one character, so the length of the text bounds the depth
  of the recursion; `Json.parse` supplies that bound.
-/
import RobotPuzzle.Json.Basic

namespace RobotPuzzle

namespace Json

/-- What is wrong at a place of a text. -/
inductive Problem where
  | byteOrderMark
  | expectingValue
  | expectingName
  | expectingColon
  | expectingComma
  | extraData
  | unterminatedText
  | controlCharacter
  | escape
  | unicodeEscape
deriving DecidableEq

def Problem.message : Problem → String
  | .byteOrderMark => "Unexpected UTF-8 BOM (decode using utf-8-sig)"
  | .expectingValue => "Expecting value"
  | .expectingName => "Expecting property name enclosed in double quotes"
  | .expectingColon => "Expecting ':' delimiter"
  | .expectingComma => "Expecting ',' delimiter"
  | .extraData => "Extra data"
  | .unterminatedText => "Unterminated string starting at"
  | .controlCharacter => "Invalid control character at"
  | .escape => "Invalid \\escape"
  | .unicodeEscape => "Invalid \\uXXXX escape"

/-- A place in a text: line and column count from one, the offset from zero. -/
structure Place where
  line : Nat
  column : Nat
  offset : Nat
deriving DecidableEq

/-- The place behind the characters `before`. -/
def placeAfter (before : List Char) : Place :=
  { line := before.count '\n' + 1
    column := (before.reverse.takeWhile (· != '\n')).length + 1
    offset := before.length }

/-- Why a text is not JSON. -/
inductive TextFault where
  | problem (what : Problem) (place : Place)
  | numeral (fault : Numeral.Fault)

def TextFault.message : TextFault → String
  | .problem what place =>
    what.message ++ ": line " ++ toString place.line ++ " column " ++ toString place.column
      ++ " (char " ++ toString place.offset ++ ")"
  | .numeral fault => fault.message

/-! ## The walk -/

/-- Where the walk stops: the problem and the number of characters left. -/
inductive Stop where
  | at (what : Problem) (left : Nat)
  | numeral (fault : Numeral.Fault)

def isSpace (c : Char) : Bool := c == ' ' || c == '\t' || c == '\n' || c == '\r'

def skipSpace (cs : List Char) : List Char := cs.dropWhile isSpace

def hexValue? (c : Char) : Option Nat :=
  if '0' ≤ c && c ≤ '9' then some (c.toNat - 48)
  else if 'a' ≤ c && c ≤ 'f' then some (c.toNat - 87)
  else if 'A' ≤ c && c ≤ 'F' then some (c.toNat - 55)
  else none

/-- Four hexadecimal digits. -/
def hex4? (a b c d : Char) : Option Nat := do
  let a ← hexValue? a
  let b ← hexValue? b
  let c ← hexValue? c
  let d ← hexValue? d
  pure (((a * 16 + b) * 16 + c) * 16 + d)

/-- The character behind a backslash, other than `u`. -/
def unescape? : Char → Option Char
  | '"' => some '"'
  | '\\' => some '\\'
  | '/' => some '/'
  | 'b' => some '\x08'
  | 'f' => some '\x0c'
  | 'n' => some '\n'
  | 'r' => some '\r'
  | 't' => some '\t'
  | _ => none

def isHighSurrogate (n : Nat) : Bool := 0xD800 ≤ n && n ≤ 0xDBFF

def isLowSurrogate (n : Nat) : Bool := 0xDC00 ≤ n && n ≤ 0xDFFF

/-- The character of a code unit; a surrogate on its own is no character. -/
def unitChar (n : Nat) : Char :=
  if isHighSurrogate n || isLowSurrogate n then '\uFFFD' else Char.ofNat n

/-- The text up to the closing quote.  `start` is what was left at the opening quote, `done` the
characters read so far, last first. -/
def textBody (start : Nat) (done : List Char) : List Char → Except Stop (String × List Char)
  | [] => .error (.at .unterminatedText start)
  | '"' :: rest => .ok (String.ofList done.reverse, rest)
  | ['\\'] => .error (.at .unterminatedText start)
  | '\\' :: 'u' :: a :: b :: c :: d :: more =>
    match hex4? a b c d, more with
    | some _, [] => .error (.at .unicodeEscape 5)
    | none, more => .error (.at .unicodeEscape (more.length + 5))
    | some high, '\\' :: 'u' :: e :: f :: g :: h :: next :: rest =>
      if isHighSurrogate high then
        match hex4? e f g h with
        | none => .error (.at .unicodeEscape (rest.length + 6))
        | some low =>
          if isLowSurrogate low then
            let joined := 0x10000 + (high - 0xD800) * 0x400 + (low - 0xDC00)
            textBody start (Char.ofNat joined :: done) (next :: rest)
          else textBody start (unitChar high :: done) ('\\' :: 'u' :: e :: f :: g :: h :: next :: rest)
      else textBody start (unitChar high :: done) ('\\' :: 'u' :: e :: f :: g :: h :: next :: rest)
    | some unit, c :: rest => textBody start (unitChar unit :: done) (c :: rest)
  | '\\' :: 'u' :: rest => .error (.at .unicodeEscape (rest.length + 1))
  | '\\' :: c :: rest =>
    match unescape? c with
    | some u => textBody start (u :: done) rest
    | none => .error (.at .escape (rest.length + 2))
  | c :: rest =>
    if c.toNat ≤ 0x1F then .error (.at .controlCharacter (rest.length + 1))
    else textBody start (c :: done) rest
termination_by cs => cs.length

def isDigit (c : Char) : Bool := '0' ≤ c && c ≤ '9'

/-- The fraction behind whole digits: a point counts only with a digit behind it. -/
def fraction : List Char → Option (List Char) × List Char
  | '.' :: d :: rest =>
    if isDigit d then (some (d :: rest.takeWhile isDigit), rest.dropWhile isDigit)
    else (none, '.' :: d :: rest)
  | cs => (none, cs)

/-- The exponent behind a number: a mark counts only with a digit behind it and its sign. -/
def exponent (cs : List Char) : Option Int × List Char :=
  match cs with
  | mark :: rest =>
    if mark == 'e' || mark == 'E' then
      let (negative, digits) := Numeral.splitSign rest
      match digits.takeWhile isDigit with
      | [] => (none, cs)
      | ds =>
        let n : Int := Numeral.valueOf (ds.map fun c => c.toNat - 48)
        (some (if negative then -n else n), digits.dropWhile isDigit)
    else (none, cs)
  | [] => (none, [])

/-- A number, `left` characters from the end. -/
def number (left : Nat) (cs : List Char) : Except Stop (Json × List Char) :=
  let (negative, cs) := match cs with
    | '-' :: rest => (true, rest)
    | cs => (false, cs)
  let (whole, rest) := match cs with
    | '0' :: rest => (['0'], rest)
    | cs => (cs.takeWhile isDigit, cs.dropWhile isDigit)
  if whole.isEmpty then .error (.at .expectingValue left)
  else
    let value (ds : List Char) : Nat := Numeral.valueOf (ds.map fun c => c.toNat - 48)
    let (part, rest) := fraction rest
    let (power, rest) := exponent rest
    if part.isNone && power.isNone then
      if whole.length > Numeral.digitLimit then .error (.numeral (.tooLong whole.length))
      else .ok (.int (if negative then -(value whole : Int) else value whole), rest)
    else
      let places := part.getD []
      .ok (.real (Decimal.nearest negative (value (whole ++ places)) (power.getD 0 - places.length)),
        rest)

mutual

/-- A value at the head of the characters. -/
def readValue : Nat → List Char → Except Stop (Json × List Char)
  | 0, cs => .error (.at .expectingValue cs.length)
  | fuel + 1, cs =>
    match cs with
    | '"' :: rest => do
      let (text, rest) ← textBody (rest.length + 1) [] rest
      pure (.str text, rest)
    | '\x7b' :: rest =>
      match skipSpace rest with
      | '\x7d' :: rest => .ok (.obj [], rest)
      | rest => readMembers fuel [] rest
    | '[' :: rest =>
      match skipSpace rest with
      | ']' :: rest => .ok (.arr [], rest)
      | rest => readItems fuel [] rest
    | 'n' :: 'u' :: 'l' :: 'l' :: rest => .ok (.null, rest)
    | 't' :: 'r' :: 'u' :: 'e' :: rest => .ok (.bool true, rest)
    | 'f' :: 'a' :: 'l' :: 's' :: 'e' :: rest => .ok (.bool false, rest)
    | 'N' :: 'a' :: 'N' :: rest => .ok (.real (0.0 / 0.0), rest)
    | 'I' :: 'n' :: 'f' :: 'i' :: 'n' :: 'i' :: 't' :: 'y' :: rest => .ok (.real (1.0 / 0.0), rest)
    | '-' :: 'I' :: 'n' :: 'f' :: 'i' :: 'n' :: 'i' :: 't' :: 'y' :: rest =>
      .ok (.real (-1.0 / 0.0), rest)
    | cs => number cs.length cs

/-- The items of a list, the last one read first in `done`; the characters start an item. -/
def readItems : Nat → List Json → List Char → Except Stop (Json × List Char)
  | 0, _, cs => .error (.at .expectingValue cs.length)
  | fuel + 1, done, cs => do
    let (item, rest) ← readValue fuel cs
    match skipSpace rest with
    | ']' :: rest => .ok (.arr (item :: done).reverse, rest)
    | ',' :: rest => readItems fuel (item :: done) (skipSpace rest)
    | rest => .error (.at .expectingComma rest.length)

/-- The members of an object; the characters start a name. -/
def readMembers : Nat → List (String × Json) → List Char → Except Stop (Json × List Char)
  | 0, _, cs => .error (.at .expectingName cs.length)
  | fuel + 1, done, cs =>
    match cs with
    | '"' :: rest => do
      let (name, rest) ← textBody (rest.length + 1) [] rest
      match skipSpace rest with
      | ':' :: rest => do
        let (value, rest) ← readValue fuel (skipSpace rest)
        let done := insert name value done
        match skipSpace rest with
        | '\x7d' :: rest => .ok (.obj done, rest)
        | ',' :: rest => readMembers fuel done (skipSpace rest)
        | rest => .error (.at .expectingComma rest.length)
      | rest => .error (.at .expectingColon rest.length)
    | cs => .error (.at .expectingName cs.length)

end

/-- A value and nothing behind it but space. -/
def readAll (cs : List Char) : Except Stop Json :=
  match cs with
  | '\uFEFF' :: _ => .error (.at .byteOrderMark cs.length)
  | cs => do
    let (value, rest) ← readValue (2 * cs.length + 2) (skipSpace cs)
    match skipSpace rest with
    | [] => pure value
    | rest => .error (.at .extraData rest.length)

/-- The value a text stands for. -/
def parse (text : String) : Except TextFault Json :=
  let cs := text.toList
  match readAll cs with
  | .ok value => .ok value
  | .error (.at what left) => .error (.problem what (placeAfter (cs.take (cs.length - left))))
  | .error (.numeral fault) => .error (.numeral fault)

end Json

end RobotPuzzle
