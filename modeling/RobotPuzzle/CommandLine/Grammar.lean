/-
  Words on a command line: options, their arguments, and operands.

  1. **Tokens** (`Grammar.classify`) — a word that starts with a dash is an option if it is the name of
     one, possibly with an argument behind an equals sign, or the beginning of exactly one name.  A
     negative number, a word with a space in it, and everything behind `--` are no options.
  2. **Matching** (`Grammar.match`) — an option takes what its arity says from the words behind it.  The
     operand is the first word that no option takes; where the grammar says so, it takes along all that
     follows.  What nobody takes is left over.
  3. **Reading** (`Reading.accepts`) — arguments are texts, numerals or words of a list.

  Every grammar has the option for help.  A word matched is a token less, so matching ends.
-/
import RobotPuzzle.Numeral

namespace RobotPuzzle

namespace CommandLine

/-- How many arguments an option takes. -/
inductive Arity where
  | none
  | one
  /-- at least one, and as many as there are -/
  | many
deriving DecidableEq, Repr

/-- What an argument must be. -/
inductive Reading where
  | text
  | number
  | oneOf (words : List String)
deriving DecidableEq, Repr

def Reading.accepts : Reading → String → Bool
  | .text, _ => true
  | .number, word =>
    match Numeral.read word with
    | .ok _ => true
    | .error _ => false
  | .oneOf words, word => words.contains word

/-- An option. -/
structure Flag where
  /-- the name, dashes included -/
  name : String
  arity : Arity := .none
  reading : Reading := .text
deriving DecidableEq, Repr

/-- What may stand on a line besides options. -/
inductive Operand where
  | nothing
  /-- one word -/
  | one
  /-- one word and all that follows -/
  | all
deriving DecidableEq, Repr

/-- What a line may hold. -/
structure Grammar where
  flags : List Flag
  operand : Operand
  /-- the names of options that must be there -/
  required : List String := []
deriving Repr

/-- Why a line is not accepted. -/
inductive Refusal where
  /-- help was asked for -/
  | help
  | ambiguous (word : String)
  | noArgument (name : String)
  | needlessArgument (name : String)
  | badArgument (name word : String)
  | missing (names : List String)
  | leftOver (words : List String)
  | badChoice (word : String)
deriving DecidableEq, Repr

def Refusal.message : Refusal → String
  | .help => "usage: levels | run | solve | serve"
  | .ambiguous word => "ambiguous option: " ++ word
  | .noArgument name => "argument " ++ name ++ ": expected an argument"
  | .needlessArgument name => "argument " ++ name ++ ": takes no argument"
  | .badArgument name word => "argument " ++ name ++ ": invalid value: " ++ Text.quoted word
  | .missing names => "the following arguments are required: " ++ ", ".intercalate names
  | .leftOver words => "unrecognized arguments: " ++ " ".intercalate words
  | .badChoice word => "invalid choice: " ++ Text.quoted word

/-- The option for help. -/
def helpFlag : Flag := { name := "--help" }

/-- The short name of the option for help. -/
def helpLetter : String := "-h"

/-! ## Tokens -/

/-- A word of the line, with the part it plays. -/
inductive Token where
  | word (text : String)
  /-- two dashes: no options from here on -/
  | marker
  /-- an option, or a word that looks like one, with the argument attached to it -/
  | option (flag : Option Flag) (text : String) (attached : Option String)
deriving DecidableEq, Repr

/-- The word as it was written. -/
def Token.text : Token → String
  | .word text => text
  | .marker => "--"
  | .option _ text _ => text

def Token.isOption : Token → Bool
  | .option _ _ _ => true
  | _ => false

def Token.isWord : Token → Bool
  | .word _ => true
  | _ => false

/-- What stands before the first equals sign, and what stands behind it. -/
def splitEquals (cs : List Char) : List Char × Option (List Char) :=
  match cs.dropWhile (· ≠ '=') with
  | [] => (cs, none)
  | _ :: value => (cs.takeWhile (· ≠ '='), some value)

/-- The word looks like a negative number. -/
def isNegativeNumber (cs : List Char) : Bool :=
  let isDigit (c : Char) : Bool := (Text.digitValue? c).isSome
  match if cs.getLast? = some '\n' then cs.dropLast else cs with
  | '-' :: rest =>
    match rest.dropWhile isDigit with
    | [] => !rest.isEmpty
    | '.' :: fraction => !fraction.isEmpty && fraction.all isDigit
    | _ => false
  | _ => false

namespace Grammar

/-- All options, that for help first. -/
def allFlags (g : Grammar) : List Flag := helpFlag :: g.flags

/-- The option of that name. -/
def flag? (g : Grammar) (name : String) : Option Flag :=
  if name == helpLetter then some helpFlag else g.allFlags.find? (·.name == name)

/-- The options whose names start so. -/
def startingWith (g : Grammar) (start : List Char) : List Flag :=
  g.allFlags.filter fun f => start.isPrefixOf f.name.toList

/-- The part that a word plays. -/
def classify (g : Grammar) (word : String) : Except Refusal Token :=
  let cs := word.toList
  match cs with
  | '-' :: second :: _ =>
    match g.flag? word with
    | some flag => .ok (.option (some flag) word none)
    | none =>
      let (name, value) := splitEquals cs
      let attached := value.map String.ofList
      match attached, g.flag? (String.ofList name) with
      | some value, some flag => .ok (.option (some flag) word (some value))
      | _, _ =>
        if second = '-' then
          match g.startingWith name with
          | [flag] => .ok (.option (some flag) word attached)
          | _ :: _ :: _ => .error (.ambiguous word)
          | [] => .ok (if cs.contains ' ' then .word word else .option none word none)
        else if second = 'h' then .ok (.option (some helpFlag) word none)
        else if isNegativeNumber cs || cs.contains ' ' then .ok (.word word)
        else .ok (.option none word none)
  | _ => .ok (.word word)

/-- The parts that all words play. -/
def tokens (g : Grammar) : List String → Except Refusal (List Token)
  | [] => .ok []
  | "--" :: rest => .ok (.marker :: rest.map .word)
  | word :: rest => do
    let token ← g.classify word
    let others ← g.tokens rest
    pure (token :: others)

end Grammar

/-! ## Matching -/

/-- What has been found on a line. -/
structure Found where
  /-- options with their arguments, in order -/
  options : List (String × List String) := []
  /-- the operand, and what it took along -/
  operand : Option (List String) := none
  leftOver : List String := []
deriving Repr

namespace Found

/-- The arguments of an option; the last time it was given counts. -/
def arguments? (f : Found) (name : String) : Option (List String) :=
  (f.options.reverse.find? (·.1 == name)).map Prod.snd

/-- The option was given. -/
def has (f : Found) (name : String) : Bool := (f.arguments? name).isSome

/-- The argument of an option that takes one. -/
def text? (f : Found) (name : String) : Option String := (f.arguments? name).bind List.head?

/-- The number given with an option. -/
def number? (f : Found) (name : String) : Option Int :=
  (f.text? name).bind fun word => (Numeral.read word).toOption

end Found

/-- The arguments of an option, checked. -/
def Flag.take (flag : Flag) (words : List String) : Except Refusal (String × List String) :=
  match words.find? fun word => !flag.reading.accepts word with
  | some word => .error (.badArgument flag.name word)
  | none => if flag = helpFlag then .error .help else .ok (flag.name, words)

/-- What an option takes from the tokens behind it, and how many of them. -/
def Flag.grab (flag : Flag) (attached : Option String) (rest : List Token) :
    Except Refusal ((String × List String) × Nat) :=
  match flag.arity, attached, rest with
  | .none, none, _ => (flag.take []).map (·, 0)
  | .none, some _, _ => .error (.needlessArgument flag.name)
  | _, some word, _ => (flag.take [word]).map (·, 0)
  | .one, none, .word word :: _ => (flag.take [word]).map (·, 1)
  | .many, none, .word word :: more =>
    let words := word :: (more.takeWhile Token.isWord).map Token.text
    (flag.take words).map (·, words.length)
  | _, none, _ => .error (.noArgument flag.name)

namespace Operand

/-- What the operand takes from the front of the tokens: the words, and how many tokens. -/
def grab? : Operand → List Token → Option (List String × Nat)
  | .nothing, _ => none
  | .one, .marker :: .word text :: _ => some ([text], 2)
  | .one, .word text :: .marker :: _ => some ([text], 2)
  | .one, .word text :: _ => some ([text], 1)
  | .all, tokens =>
    match tokens with
    | .word _ :: _ => some (tokens.map Token.text, tokens.length)
    | .marker :: .word _ :: _ => some (tokens.map Token.text, tokens.length)
    | _ => none
  | .one, _ => none

end Operand

/-- The tokens from the next option on. -/
def behindWords (tokens : List Token) : List Token := tokens.dropWhile (!·.isOption)

theorem length_behindWords_le (tokens : List Token) : (behindWords tokens).length ≤ tokens.length :=
  (List.dropWhile_sublist _).length_le

/-- Matches the tokens one after the other; `operand` is what has not been found yet. -/
def matchTokens (operand : Operand) (found : Found) (tokens : List Token) : Except Refusal Found :=
  match tokens with
  | [] => .ok found
  | .option none text _ :: rest =>
    matchTokens operand { found with leftOver := found.leftOver ++ [text] } rest
  | .option (some flag) _ attached :: rest =>
    match flag.grab attached rest with
    | .error refusal => .error refusal
    | .ok (given, count) =>
      matchTokens operand { found with options := found.options ++ [given] } (rest.drop count)
  | token :: rest =>
    match operand.grab? (token :: rest) with
    | some (words, count) =>
      matchTokens .nothing { found with operand := some words } (rest.drop (count - 1))
    | none =>
      let passed := token.text :: (rest.takeWhile (!·.isOption)).map Token.text
      matchTokens operand { found with leftOver := found.leftOver ++ passed } (behindWords rest)
termination_by tokens.length
decreasing_by
  all_goals have passed := length_behindWords_le rest
  all_goals simp only [List.length_cons, List.length_drop]
  all_goals omega

/-- What is on a line; words that nobody took are left over. -/
def Grammar.parse (g : Grammar) (words : List String) : Except Refusal Found := do
  let tokens ← g.tokens words
  let found ← matchTokens g.operand {} tokens
  let missing := (if g.operand ≠ .nothing && found.operand.isNone then ["operand"] else []) ++
    g.required.filter fun name => !found.has name
  if missing.isEmpty then pure found else throw (.missing missing)

end CommandLine

end RobotPuzzle
