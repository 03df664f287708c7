/-
Command lines.

A grammar says which switches there are and what may stand beside them.  Each switch and each other
argument changes a value of type `σ`, the options collected so far, so that a program reads its
arguments into a type of its own.  Long switches may be shortened as long as they stay unique, and
may carry their value after an equals sign; after two dashes nothing is a switch any more.  Two
dashes that stand where a value is expected are no value, so that a switch can be given without one.
-/
import LiveFeed.Text.Numeral

namespace LiveFeed.CommandLine

/-- Why arguments are not accepted. -/
inductive Fault where
  /-- No fault: help is asked for. -/
  | help
  | ambiguous (text : Text) (candidates : List Text)
  | expectedOne (name : Text)
  | expectedSome (name : Text)
  /-- The switch takes no value. -/
  | ignoredValue (name value : Text)
  | notWhole (name value : Text)
  | notDecimal (name value : Text)
  | unknownChoice (name value : Text) (choices : List Text)
  | missing (name : Text)
  | unrecognized (texts : List Text)
  /-- The arguments are well formed, but a program does not accept them. -/
  | refused (reason : String)
deriving Repr, DecidableEq

def Fault.message : Fault → Text
  | .help => ""
  | .ambiguous text candidates =>
      "ambiguous option: " ++ text ++ " could match " ++ Text.join ", " candidates
  | .expectedOne name => "argument " ++ name ++ ": expected one argument"
  | .expectedSome name => "argument " ++ name ++ ": expected at least one argument"
  | .ignoredValue name value =>
      "argument " ++ name ++ ": ignored explicit argument " ++ Quoted.text value
  | .notWhole name value => "argument " ++ name ++ ": invalid int value: " ++ Quoted.text value
  | .notDecimal name value => "argument " ++ name ++ ": invalid float value: " ++ Quoted.text value
  | .unknownChoice name value choices =>
      "argument " ++ name ++ ": invalid choice: " ++ Quoted.text value ++ " (choose from " ++
        String.intercalate ", " (choices.map Quoted.text) ++ ")"
  | .missing name => "the following arguments are required: " ++ name
  | .unrecognized texts => "unrecognized arguments: " ++ Text.join " " texts
  | .refused reason => reason

def dashes : Text := "--"

/-- How many values follow a switch. -/
inductive Arity where
  | none
  | one
  | some
deriving Repr, DecidableEq

/-- A switch: its names, and what it does with its values. -/
structure Switch (σ : Type) where
  names : List Text
  arity : Arity
  store : List Text → σ → Except Fault σ

/-- What stands beside the switches: its name, whether everything after its first argument belongs
to it, and what it does with its arguments.  What it does not recognize is left over. -/
structure Operand (σ : Type) where
  name : Text
  takesAll : Bool
  store : List Text → σ → Except Fault (σ × List Text)

/-- The switches and the operand of a program. -/
structure Grammar (σ : Type) where
  switches : List (Switch σ)
  operand : Option (Operand σ)

namespace Switch

variable {σ : Type}

def help : Switch σ := ⟨["-h", "--help"], .none, fun _ _ => .error .help⟩

/-- A switch without a value. -/
def flag (name : Text) (set : σ → σ) : Switch σ :=
  ⟨[name], .none, fun _ s => .ok (set s)⟩

def text (name : Text) (set : Option Text → σ → σ) : Switch σ :=
  ⟨[name], .one, fun values s => .ok (set values.head? s)⟩

def texts (name : Text) (set : List Text → σ → σ) : Switch σ :=
  ⟨[name], .some, fun values s => .ok (set values s)⟩

def whole (name : Text) (set : Option Int → σ → σ) : Switch σ :=
  ⟨[name], .one, fun values s =>
    match values with
    | [] => .ok (set none s)
    | value :: _ =>
        match Numeral.readInt 10 value with
        | .ok n => .ok (set (some n) s)
        | .error _ => .error (.notWhole name value)⟩

def decimal (name : Text) (set : Option Float → σ → σ) : Switch σ :=
  ⟨[name], .one, fun values s =>
    match values with
    | [] => .ok (set none s)
    | value :: _ =>
        match Numeral.readFloat? value with
        | some x => .ok (set (some x) s)
        | none => .error (.notDecimal name value)⟩

/-- The name of a switch in messages. -/
def title (switch : Switch σ) : Text := Text.join "/" switch.names

end Switch

/-- What an argument is taken for. -/
inductive Role (σ : Type) where
  | argument
  /-- The two dashes after which nothing is a switch. -/
  | mark
  /-- A switch, the name that it is given by, and the value that is part of the same argument: after
  an equals sign, or behind the letter of a short name. -/
  | switch (switch : Switch σ) (name : Text) (attached : Option Text)
  | unknownSwitch

/-- An argument and what it is taken for. -/
structure Word (σ : Type) where
  text : Text
  role : Role σ

namespace Word

variable {σ : Type}

def isSwitch (word : Word σ) : Bool :=
  match word.role with
  | .switch .. | .unknownSwitch => true
  | _ => false

def isArgument (word : Word σ) : Bool :=
  match word.role with
  | .argument => true
  | _ => false

/-- Whether a word is the two dashes. -/
def isMark (word : Word σ) : Bool :=
  match word.role with
  | .mark => true
  | _ => false

end Word

namespace Grammar

variable {σ : Type}

def names (grammar : Grammar σ) : List (Text × Switch σ) :=
  grammar.switches.flatMap fun switch => switch.names.map fun name => (name, switch)

def switch? (grammar : Grammar σ) (name : Text) : Option (Switch σ) :=
  (grammar.names.find? (·.1 = name)).map (·.2)

/-- Splits a text at its first equals sign. -/
def splitEquals (text : Text) : Text × Option Text :=
  let name : Text := ⟨text.points.takeWhile (· != .char '=')⟩
  match text.points.dropWhile (· != .char '=') with
  | [] => (name, none)
  | _ :: value => (name, some ⟨value⟩)

/-- The switches that a text which names none may be short for. -/
def candidates (grammar : Grammar σ) (text : Text) : List (Text × Switch σ × Option Text) :=
  match text.points with
  | .char '-' :: .char '-' :: _ =>
      let (name, value) := splitEquals text
      (grammar.names.filter fun n => name.points.isPrefixOf n.1.points).map fun (n, switch) =>
        (n, switch, value)
  | .char '-' :: letter :: rest =>
      grammar.names.filterMap fun (n, switch) =>
        if n.points = [.char '-', letter] then some (n, switch, some ⟨rest⟩)
        else if text.points.isPrefixOf n.points then some (n, switch, none)
        else none
  | _ => []

/-- Whether a text is a negative number without exponent, which is no switch. -/
def isNegativeNumber (text : Text) : Bool :=
  let isDigit (c : Char) : Bool := (Numeral.normalDigit c).isDigit
  match text.chars with
  | '-' :: rest =>
      let body := match rest.reverse with
        | '\n' :: others => others.reverse
        | _ => rest
      match body.dropWhile isDigit with
      | [] => !body.isEmpty
      | '.' :: fraction => !fraction.isEmpty && fraction.all isDigit
      | _ => false
  | _ => false

/-- What an argument before the two dashes is taken for. -/
def role (grammar : Grammar σ) (text : Text) : Except Fault (Role σ) :=
  if text.points.head? != some (.char '-') then .ok .argument
  else match grammar.switch? text with
    | some switch => .ok (.switch switch text none)
    | none =>
        if text = "-" then .ok .argument
        else
          let (name, value) := splitEquals text
          match value, grammar.switch? name with
          | some value, some switch => .ok (.switch switch name (some value))
          | _, _ =>
              match grammar.candidates text with
              | [(name, switch, attached)] => .ok (.switch switch name attached)
              | [] =>
                  if isNegativeNumber text || text.contains " " then .ok .argument
                  else .ok .unknownSwitch
              | several => .error (.ambiguous text (several.map (·.1)))

/-- Takes each argument for what it is. -/
def words (grammar : Grammar σ) : List Text → Except Fault (List (Word σ))
  | [] => .ok []
  | text :: rest =>
      if text = dashes then .ok (⟨text, .mark⟩ :: rest.map fun text => ⟨text, .argument⟩)
      else do
        let role ← grammar.role text
        return ⟨text, role⟩ :: (← words grammar rest)

/-- Arguments in the course of being read. -/
structure Progress (σ : Type) where
  options : σ
  /-- The operand that is still to come. -/
  pending : Option (Operand σ)
  /-- What was not recognized. -/
  extras : List Text
  /-- What the operand did not recognize. -/
  leftOver : List Text

/-- The number of words at the beginning that an operand takes. -/
def operandSize (operand : Operand σ) (words : List (Word σ)) : Nat :=
  let marks := words.takeWhile Word.isMark
  let rest := words.drop marks.length
  match rest with
  | [] => 0
  | word :: _ =>
      if !word.isArgument then 0
      else if operand.takesAll then words.length
      else marks.length + (rest.takeWhile fun word => word.isArgument || word.isMark).length

/-- Gives the operand what stands at the beginning of the words, if it is still to come. -/
def takeOperand (p : Progress σ) (words : List (Word σ)) :
    Except Fault (Progress σ × List (Word σ)) :=
  match p.pending with
  | none => .ok (p, words)
  | some operand =>
      let size := operandSize operand words
      if size = 0 then .ok (p, words)
      else do
        let texts := (words.take size).map (·.text)
        let texts := if operand.takesAll then texts else texts.erase dashes
        let (options, leftOver) ← operand.store texts p.options
        return ({ p with options, pending := none, leftOver := p.leftOver ++ leftOver },
          words.drop size)

/-- The switches without values whose letters are written behind that of another one. -/
def cluster (grammar : Grammar σ) (switch : Switch σ) :
    List CodePoint → Except Fault (List (Switch σ))
  | [] => .ok [switch]
  | letter :: rest =>
      match grammar.switch? ⟨[.char '-', letter]⟩ with
      | some next => do return switch :: (← cluster grammar next rest)
      | none => .error (.ignoredValue switch.title ⟨letter :: rest⟩)

/-- The switches that a switch without values stands for when something is attached to it: a long
name and an empty text allow nothing behind them. -/
def flags (grammar : Grammar σ) (switch : Switch σ) (name value : Text) :
    Except Fault (List (Switch σ)) :=
  if value.isEmpty || (name.points.drop 1).head? == some (.char '-') then
    .error (.ignoredValue switch.title value)
  else grammar.cluster switch value.points

/-- Gives a switch its values, which may stand in front of the words, and returns the words after
them. -/
def takeSwitch (grammar : Grammar σ) (switch : Switch σ) (name : Text) (attached : Option Text)
    (p : Progress σ) (words : List (Word σ)) : Except Fault (Progress σ × List (Word σ)) :=
  let run (values : List Text) (rest : List (Word σ)) : Except Fault (Progress σ × List (Word σ)) :=
    return ({ p with options := ← switch.store (values.erase dashes) p.options }, rest)
  match switch.arity, attached with
  | .none, none => run [] words
  | .none, some value => do
      let switches ← grammar.flags switch name value
      let options ← switches.foldlM (fun options switch => switch.store [] options) p.options
      return ({ p with options }, words)
  | _, some value => run [value] words
  | .one, none =>
      match words with
      | word :: rest =>
          if word.isArgument then run [word.text] rest else .error (.expectedOne switch.title)
      | [] => .error (.expectedOne switch.title)
  | .some, none =>
      let values := words.takeWhile Word.isArgument
      if values.isEmpty then .error (.expectedSome switch.title)
      else run (values.map (·.text)) (words.drop values.length)

/-- Reads words: operands and switches in turn, and what follows the last switch. -/
def readWords (grammar : Grammar σ) : Nat → Progress σ → List (Word σ) → Except Fault (Progress σ)
  | 0, p, _ => .ok p
  | fuel + 1, p, words =>
      let leading := words.takeWhile fun word => !word.isSwitch
      if leading.length = words.length then do
        let (p, rest) ← takeOperand p words
        return { p with extras := p.extras ++ rest.map (·.text) }
      else do
        let (p, rest) ← if leading.isEmpty then .ok (p, words) else takeOperand p words
        if rest.length < words.length then readWords grammar fuel p rest
        else
          let p := { p with extras := p.extras ++ leading.map (·.text) }
          match words.drop leading.length with
          | [] => .ok p
          | word :: rest =>
              match word.role with
              | .switch switch name attached => do
                  let (p, rest) ← takeSwitch grammar switch name attached p rest
                  readWords grammar fuel p rest
              | _ => readWords grammar fuel { p with extras := p.extras ++ [word.text] } rest

/-- Reads arguments, and returns those that are not recognized. -/
def readKnown (grammar : Grammar σ) (options : σ) (arguments : List Text) :
    Except Fault (σ × List Text) := do
  let words ← grammar.words arguments
  let p ← readWords grammar (words.length + 1) ⟨options, grammar.operand, [], []⟩ words
  match p.pending with
  | some operand => throw (.missing operand.name)
  | none => return (p.options, p.extras ++ p.leftOver)

/-- Reads arguments, all of which must be recognized. -/
def read (grammar : Grammar σ) (options : σ) (arguments : List Text) : Except Fault σ := do
  let (options, extras) ← grammar.readKnown options arguments
  if extras.isEmpty then return options else throw (.unrecognized extras)

end Grammar

namespace Operand

variable {σ : Type}

/-- One or more arguments. -/
def several (name : Text) (set : List Text → σ → σ) : Operand σ :=
  ⟨name, false, fun texts s => .ok (set texts s, [])⟩

/-- A command and its own arguments. -/
def command (name : Text)
    (commands : List (Text × (List Text → σ → Except Fault (σ × List Text)))) : Operand σ :=
  ⟨name, true, fun texts s =>
    let chosen := texts.headD ""
    match commands.find? (·.1 = chosen) with
    | some (_, run) => run (texts.drop 1) s
    | none => .error (.unknownChoice name chosen (commands.map (·.1)))⟩

end Operand
end LiveFeed.CommandLine
