/-
  Files of variables, one `NAME=value` a line.

  1. **Lines** (`bindings`) — a line may start with `export`; the name may stand between single quotes;
     the value may stand between quotes of either kind and then run over several lines; a number sign
     starts a comment, behind a value only after a blank.  A line that cannot be read is left out.
  2. **Escapes** — between single quotes the backslash and the quote are escaped, between double quotes
     the usual control characters as well.
  3. **References** (`expand`) — `$` and a name in braces stands for the value of a variable, with an
     alternative behind `:-`; the variables of the file win over those of the environment.

  Every line takes characters off the front, so that a file has at most as many bindings as
  characters; `bindings` passes this number along as its measure.
-/
import RobotPuzzle.Text.Blank
import RobotPuzzle.Text.Lines

namespace RobotPuzzle

namespace EnvFile

/-- White space in these files: blanks, and the four separators of information. -/
def isSpace (c : Char) : Bool := Text.isBlank c || (0x1C ≤ c.toNat && c.toNat ≤ 0x1F)

/-- White space that does not end a line. -/
def isInlineSpace (c : Char) : Bool := isSpace c && c != '\n' && c != '\r'

/-- The character ends a line. -/
def isBreak (c : Char) : Bool := c == '\n' || c == '\r'

/-! ## Values between quotes -/

/-- What follows a quote up to the next one that is not escaped, and the rest behind it.  Without such
a quote the last escaped one counts. -/
def quotedBody (quote : Char) : List Char → Option (List Char × List Char)
  | [] => none
  | [c] => if c = quote then some ([], []) else none
  | c :: d :: rest =>
    if c = quote then some ([], d :: rest)
    else if c = '\\' ∧ d = quote then
      match quotedBody quote rest with
      | some (body, after) => some (c :: d :: body, after)
      | none => some ([c], rest)
    else (quotedBody quote (d :: rest)).map fun (body, after) => (c :: body, after)

/-- The character that a letter behind a backslash stands for. -/
def escaped? (inDouble : Bool) : Char → Option Char
  | '\\' => some '\\'
  | '\'' => some '\''
  | '"' => if inDouble then some '"' else none
  | 'a' => if inDouble then some '\x07' else none
  | 'b' => if inDouble then some '\x08' else none
  | 'f' => if inDouble then some '\x0c' else none
  | 'n' => if inDouble then some '\n' else none
  | 'r' => if inDouble then some '\r' else none
  | 't' => if inDouble then some '\t' else none
  | 'v' => if inDouble then some '\x0b' else none
  | _ => none

/-- The text with its escapes resolved. -/
def unescape (inDouble : Bool) : List Char → List Char
  | '\\' :: c :: rest =>
    match escaped? inDouble c with
    | some d => d :: unescape inDouble rest
    | none => '\\' :: unescape inDouble (c :: rest)
  | c :: rest => c :: unescape inDouble rest
  | [] => []

/-! ## Values without quotes -/

/-- The value before a comment: a number sign behind white space. -/
def beforeComment : List Char → List Char
  | c :: '#' :: rest => if isSpace c then [] else c :: beforeComment ('#' :: rest)
  | c :: rest => c :: beforeComment rest
  | [] => []

/-- The text without white space at its end. -/
def trimEnd (cs : List Char) : List Char := (cs.reverse.dropWhile isSpace).reverse

/-! ## Lines -/

/-- The text behind a word and at least one blank; the text itself if it does not start so. -/
def skipExport (cs : List Char) : List Char :=
  match cs with
  | 'e' :: 'x' :: 'p' :: 'o' :: 'r' :: 't' :: c :: rest =>
    if isInlineSpace c then rest.dropWhile isInlineSpace else cs
  | _ => cs

/-- The value at the front, and the rest. -/
def readValue : List Char → Option (List Char × List Char)
  | '\'' :: rest => (quotedBody '\'' rest).map fun (body, after) => (unescape false body, after)
  | '"' :: rest => (quotedBody '"' rest).map fun (body, after) => (unescape true body, after)
  | cs => some (trimEnd (beforeComment (cs.takeWhile (!isBreak ·))), cs.dropWhile (!isBreak ·))

/-- The name at the front, and the rest; a comment has no name. -/
def readName : List Char → Option (Option (List Char) × List Char)
  | '#' :: rest => some (none, '#' :: rest)
  | '\'' :: rest =>
    match rest.takeWhile (· ≠ '\''), rest.dropWhile (· ≠ '\'') with
    | c :: name, _ :: after => some (some (c :: name), after)
    | _, _ => none
  | cs =>
    let inName (c : Char) : Bool := c != '=' && c != '#' && !isSpace c
    match cs.takeWhile inName with
    | [] => none
    | name => some (some name, cs.dropWhile inName)

/-- What is left of a line must be blanks or a comment. -/
def endOfLine (cs : List Char) : Option (List Char) :=
  let cs := cs.dropWhile isInlineSpace
  let cs := if cs.head? = some '#' then cs.dropWhile (!isBreak ·) else cs
  match cs with
  | [] => some []
  | c :: rest => if isBreak c then some rest else none

/-- A name with its value, if it has one. -/
structure Binding where
  name : String
  value : Option String
deriving DecidableEq, Repr

/-- The rest behind the end of the line. -/
def skipLine (cs : List Char) : List Char := (cs.dropWhile (!isBreak ·)).tail

/-- One line: what it binds, if it can be read and binds anything, and the rest. -/
def readLine (cs : List Char) : Option Binding × List Char :=
  let cs := skipExport cs
  match readName cs with
  | none => (none, skipLine cs)
  | some (name, rest) =>
    match rest.dropWhile isInlineSpace with
    | '=' :: after =>
      let after := after.dropWhile isInlineSpace
      match readValue after with
      | none => (none, skipLine after)
      | some (value, rest) => close name (some value) rest
    | rest => close name none rest
where
  close (name value : Option (List Char)) (rest : List Char) : Option Binding × List Char :=
    match endOfLine rest with
    | none => (none, skipLine rest)
    | some after => (name.map fun n => ⟨String.ofList n, value.map String.ofList⟩, after)

/-- All bindings of a file; the measure is one more than its length. -/
def bindings : (measure : Nat) → List Char → List Binding
  | 0, _ => []
  | measure + 1, cs =>
    match cs.dropWhile isSpace with
    | [] => []
    | start =>
      let (binding, rest) := readLine start
      binding.toList ++ bindings measure rest

/-! ## References -/

/-- The value of a variable: the last binding wins. -/
def find? (known : List Binding) (name : String) : Option Binding :=
  known.reverse.find? (·.name == name)

/-- What a reference stands for. -/
def resolve (known : List Binding) (name : String) (alternative : String) : String :=
  match find? known name with
  | some binding => binding.value.getD ""
  | none => alternative

/-- A reference at the front, behind the dollar sign and the brace: name, alternative, and the rest. -/
def reference? (cs : List Char) : Option (List Char × List Char × List Char) :=
  let inName (c : Char) : Bool := c != '\x7d' && c != ':'
  let name := cs.takeWhile inName
  match cs.dropWhile inName with
  | '\x7d' :: rest => some (name, [], rest)
  | ':' :: '-' :: after =>
    match after.dropWhile (· ≠ '\x7d') with
    | _ :: rest => some (name, after.takeWhile (· ≠ '\x7d'), rest)
    | [] => none
  | _ => none

/-- The text with its references resolved. -/
def expand (known : List Binding) : (measure : Nat) → List Char → List Char
  | 0, cs => cs
  | _, [] => []
  | measure + 1, '$' :: '\x7b' :: rest =>
    match reference? rest with
    | some (name, alternative, after) =>
      (resolve known (String.ofList name) (String.ofList alternative)).toList
        ++ expand known measure after
    | none => '$' :: expand known measure ('\x7b' :: rest)
  | measure + 1, c :: rest => c :: expand known measure rest

/-- Resolves the references in bindings, one after the other. -/
def expandAll (known : List Binding) : List Binding → List Binding
  | [] => []
  | b :: rest =>
    let value := b.value.map fun v => String.ofList (expand known v.length v.toList)
    ⟨b.name, value⟩ :: expandAll (known ++ [⟨b.name, value⟩]) rest

/-- The bindings of a file, in an environment. -/
def read (environment : List Binding) (content : String) : List Binding :=
  let cs := Text.unifyBreaks content.toList
  expandAll environment (bindings (cs.length + 1) cs)

end EnvFile

end RobotPuzzle
