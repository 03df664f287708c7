/-
A text cut into the tokens of YAML 1.1.

Indentation becomes tokens of its own.  A key need not be marked as one: where a scalar, an alias or
a flow collection begins, the lexer notes a candidate, and a colon that follows on the same line
turns it into a key afterwards, so that tokens are inserted before those already found.

Nothing is read beyond what a token takes, and a token is released as soon as no other one can be
inserted before it.  So where the text breaks a rule, all tokens before that place are there, and
what they mean is looked at first.
-/
import LiveFeed.Yaml.Source

namespace LiveFeed.Yaml

/-- A place where a key may have begun. -/
structure Candidate where
  /-- The number of tokens before it. -/
  tokens : Nat
  /-- Whether nothing but a key may stand there. -/
  required : Bool
  index : Nat
  line : Nat
  column : Nat
deriving Repr

/-- A lexer in the middle of a text. -/
structure Lexer where
  /-- The characters to come.  The last one is the end mark if nothing is wrong with the text. -/
  rest : List Char
  /-- Why there are no more characters than these. -/
  beyond : Fault
  /-- The number of characters of the whole text. -/
  size : Nat
  index : Nat
  line : Nat
  column : Nat
  /-- How many flow collections are open. -/
  flowLevel : Nat
  indent : Int
  /-- The indents around the current one, the innermost first. -/
  indents : List Int
  /-- Whether a key may begin without a mark. -/
  allowKey : Bool
  /-- The candidates, at most one for each flow level. -/
  candidates : List (Nat × Candidate)
  tokens : Array Token
  /-- How many tokens are released. -/
  released : Nat

namespace Lexer

abbrev Step := EStateM Fault Lexer

/-- The character that stands for the end of the text, where it cannot occur. -/
def endMark : Char := '\x00'

/-- A lexer at the beginning of a text. -/
def start (source : Source) : Lexer :=
  let rest := if source.beyond.isNone then source.chars ++ [endMark] else source.chars
  ⟨rest, source.beyond.getD .malformed, rest.length, 0, 0, 0, 0, -1, [], true, [], #[], 0⟩

/-- Whether a character ends a line. -/
def isBreak (c : Char) : Bool :=
  c == '\r' || c == '\n' || c == '\x85' || c == '\u2028' || c == '\u2029'

def isLineEnd (c : Char) : Bool := c == endMark || isBreak c

/-- Whether a line ends or a blank stands at a character. -/
def isGap (c : Char) : Bool := c == ' ' || isLineEnd c

/-- The same with tabs. -/
def isSpace (c : Char) : Bool := c == '\t' || isGap c

/-- The characters of names of anchors and directives. -/
def isNameChar (c : Char) : Bool := c.isAlphanum || c == '-' || c == '_'

/-- The character `n` places ahead. -/
def peek (n : Nat) : Step Char := do
  let s ← get
  match s.rest[n]? with
  | some c => return c
  | none => throw s.beyond

/-- The next characters, fewer than asked for only at the end of the text. -/
def upcoming (n : Nat) : Step (List Char) := do
  let s ← get
  let cs := s.rest.take n
  if cs.length == n || cs.getLast? == some endMark then return cs else throw s.beyond

def passed (s : Lexer) : Lexer :=
  match s.rest with
  | [] => s
  | c :: rest =>
      let s := { s with rest, index := s.index + 1 }
      if c == '\n' || c == '\x85' || c == '\u2028' || c == '\u2029' ||
          (c == '\r' && rest.head? != some '\n') then
        { s with line := s.line + 1, column := 0 }
      else if c == '\uFEFF' then s
      else { s with column := s.column + 1 }

/-- Passes a number of characters. -/
def passedMany (s : Lexer) : Nat → Lexer
  | 0 => s
  | n + 1 => passedMany (passed s) n

/-- Passes a number of characters.  There must be one after them. -/
def pass (n : Nat) : Step Unit := do
  let s := passedMany (← get) n
  set s
  if s.rest.isEmpty then throw s.beyond

/-- Passes the characters of a kind and returns them. -/
def passWhile (test : Char → Bool) : Step (List Char) := do
  let taken := (← get).rest.takeWhile test
  pass taken.length
  return taken

/-- Breaks off. -/
def fail {α : Type} : Step α := throw .malformed

/-- Goes on only if something holds. -/
def require (condition : Bool) : Step Unit := if condition then return else fail

/-- Passes a line break, if there is one, and returns what it stands for. -/
def lineBreak : Step (List Char) := do
  let c ← peek 0
  if c == '\r' || c == '\n' || c == '\x85' then
    pass (if c == '\r' && (← peek 1) == '\n' then 2 else 1)
    return ['\n']
  else if c == '\u2028' || c == '\u2029' then
    pass 1
    return [c]
  else return []

/-- Whether one of the marks of a document's beginning or end follows. -/
def atDocumentMark : Step Bool := do
  let cs ← upcoming 3
  if cs == ['-', '-', '-'] || cs == ['.', '.', '.'] then return isSpace (← peek 3) else return false

def emit (token : Token) : Step Unit :=
  modify fun s => { s with tokens := s.tokens.push token }

/-- Adds a token before the last ones. -/
def emitAt (position : Nat) (token : Token) : Step Unit :=
  modify fun s => { s with tokens := s.tokens.insertIdxIfInBounds position token }

def comment : Step Unit := do
  if (← peek 0) == '#' then
    let _ ← passWhile (!isLineEnd ·)

/-- Passes blanks, comments and line breaks before the next token.  After a line break a key may
begin, except inside a flow collection. -/
def toNextToken : Nat → Step Unit
  | 0 => return
  | fuel + 1 => do
      let _ ← passWhile (· == ' ')
      comment
      if !(← lineBreak).isEmpty then
        if (← get).flowLevel == 0 then modify fun s => { s with allowKey := true }
        toNextToken fuel

/-- Whether a key that began at a candidate must have ended: keys are short and stay on one line. -/
def isStale (s : Lexer) (c : Candidate) : Bool :=
  c.line != s.line || 1024 < s.index - c.index

/-- Gives up candidates that can no longer become keys. -/
def dropStale : Step Unit := do
  let s ← get
  let (stale, fresh) := s.candidates.partition fun c => isStale s c.2
  require (!(stale.any (·.2.required)))
  set { s with candidates := fresh }

/-- Gives up the candidate of the current flow level. -/
def dropCandidate : Step Unit := do
  let s ← get
  let (here, others) := s.candidates.partition (·.1 == s.flowLevel)
  require (!(here.any (·.2.required)))
  set { s with candidates := others }

/-- Notes that a key may begin here. -/
def noteCandidate : Step Unit := do
  let s ← get
  if s.allowKey then
    dropCandidate
    let required := s.flowLevel == 0 && s.indent == (s.column : Int)
    let candidate : Candidate := ⟨s.tokens.size, required, s.index, s.line, s.column⟩
    modify fun s => { s with candidates := (s.flowLevel, candidate) :: s.candidates }

/-- Closes the block collections that are indented further than a column. -/
def unwindTo (column : Int) : List Int → Step Unit
  | [] => return
  | outer :: others => do
      if column < (← get).indent then
        modify fun s =>
          { s with indent := outer, indents := others, tokens := s.tokens.push .blockEnd }
        unwindTo column others

/-- Closes the block collections that end before a column; a flow collection has none inside. -/
def unwind (column : Int) : Step Unit := do
  let s ← get
  if s.flowLevel == 0 then unwindTo column s.indents

/-- Opens a block collection at a column, unless one is open there. -/
def indentTo (column : Nat) : Step Bool := do
  let s ← get
  if s.indent < (column : Int) then
    set { s with indents := s.indent :: s.indents, indent := (column : Int) }
    return true
  else return false

/-- Says whether a key may begin without a mark from here on. -/
def allow (allowKey : Bool) : Step Unit := modify fun s => { s with allowKey }

/-! Directives and document marks -/

def versionNumber : Step Nat := do
  let digits := (← get).rest.takeWhile Char.isDigit
  let _ ← peek digits.length
  require !digits.isEmpty
  if Digits.limit < digits.length then throw (.notInt (.tooLong digits.length))
  pass digits.length
  return Nat.ofDigitChars 10 digits 0

/-- A tag handle: an exclamation mark, or a name between two. -/
def tagHandle : Step String := do
  require ((← peek 0) == '!')
  if (← peek 1) == ' ' then
    pass 1
    return "!"
  else
    let name := ((← get).rest.drop 1).takeWhile isNameChar
    require ((← peek (name.length + 1)) == '!')
    pass (name.length + 2)
    return String.ofList ('!' :: name ++ ['!'])

/-- The octets of escapes that follow each other. -/
def uriOctets : Nat → Step Bytes
  | 0 => return []
  | fuel + 1 => do
      if (← peek 0) == '%' then
        pass 1
        match Hex.value? (← peek 0) with
        | none => fail
        | some high =>
            match Hex.value? (← peek 1) with
            | none => fail
            | some low =>
                pass 2
                return UInt8.ofNat (16 * high + low) :: (← uriOctets fuel)
      else return []

/-- Whether a character may stand in the suffix of a tag. -/
def isUriChar (c : Char) : Bool :=
  c.isAlphanum || "-;/?:@&=+$,_.!~*'()[]".toList.contains c

/-- The characters of a suffix, with its escapes read as UTF-8. -/
def uriChars : Nat → Step (List Char)
  | 0 => return []
  | fuel + 1 => do
      let plain ← passWhile isUriChar
      if (← peek 0) == '%' then
        let octets ← uriOctets (fuel + 1)
        match Utf8.decode octets with
        | .ok text => return plain ++ text.toList ++ (← uriChars fuel)
        | .error _ => fail
      else return plain

/-- The suffix of a tag, which is not empty. -/
def uri : Step String := do
  let begun ← get
  let cs ← uriChars begun.size
  require ((← get).index != begun.index)
  return String.ofList cs

/-- The end of a line on which nothing but a comment may follow. -/
def restOfLine : Step Unit := do
  let _ ← passWhile (· == ' ')
  comment
  require (isLineEnd (← peek 0))
  let _ ← lineBreak

/-- What a directive says after its name. -/
def directiveContent (name : String) : Step Directive := do
  if name == "YAML" then
    let _ ← passWhile (· == ' ')
    let major ← versionNumber
    require ((← peek 0) == '.')
    pass 1
    let _ ← versionNumber
    require (isGap (← peek 0))
    return .version major
  else if name == "TAG" then
    let _ ← passWhile (· == ' ')
    let handle ← tagHandle
    require ((← peek 0) == ' ')
    let _ ← passWhile (· == ' ')
    let meaning ← uri
    require (isGap (← peek 0))
    return .handle handle meaning
  else
    let _ ← passWhile (!isLineEnd ·)
    return .other

def directive : Step Unit := do
  unwind (-1)
  dropCandidate
  allow false
  pass 1
  let name ← passWhile isNameChar
  require !name.isEmpty
  require (isGap (← peek 0))
  let content ← directiveContent (String.ofList name)
  restOfLine
  emit (.directive content)

/-- The mark of a document's beginning or end. -/
def documentMark (token : Token) : Step Unit := do
  unwind (-1)
  dropCandidate
  allow false
  pass 3
  emit token

def streamEnd : Step Unit := do
  unwind (-1)
  dropCandidate
  emit .streamEnd

/-! Structure -/

/-- The beginning of a flow collection. -/
def flowStart (token : Token) : Step Unit := do
  noteCandidate
  modify fun s => { s with flowLevel := s.flowLevel + 1, allowKey := true }
  pass 1
  emit token

def flowEnd (token : Token) : Step Unit := do
  require (0 < (← get).flowLevel)
  dropCandidate
  modify fun s => { s with flowLevel := s.flowLevel - 1, allowKey := false }
  pass 1
  emit token

/-- The comma of a flow collection. -/
def flowEntry : Step Unit := do
  allow true
  dropCandidate
  pass 1
  emit .flowEntry

/-- Opens a block collection at the current column, where a key must be allowed to begin. -/
def openBlock (token : Token) : Step Unit := do
  let s ← get
  if s.flowLevel == 0 then
    require s.allowKey
    if ← indentTo s.column then emit token

/-- The dash of a block sequence. -/
def blockEntry : Step Unit := do
  openBlock .blockSequenceStart
  allow true
  dropCandidate
  pass 1
  emit .blockEntry

def keyMark : Step Unit := do
  openBlock .blockMappingStart
  allow ((← get).flowLevel == 0)
  dropCandidate
  pass 1
  emit .key

/-- The colon of a value, which turns the candidate of its flow level into a key. -/
def valueMark : Step Unit := do
  let s ← get
  match s.candidates.find? (·.1 == s.flowLevel) with
  | some (level, candidate) =>
      modify fun s => { s with candidates := s.candidates.filter (·.1 != level) }
      emitAt candidate.tokens .key
      if s.flowLevel == 0 then
        if ← indentTo candidate.column then emitAt candidate.tokens .blockMappingStart
      allow false
  | none =>
      openBlock .blockMappingStart
      allow ((← get).flowLevel == 0)
      dropCandidate
  pass 1
  emit .value

/-! Anchors and tags -/

def anchor (token : String → Token) : Step Unit := do
  noteCandidate
  allow false
  pass 1
  let name ← passWhile isNameChar
  require !name.isEmpty
  let c ← peek 0
  require (isSpace c || "?:,]\x7d%@\x60".toList.contains c)
  emit (token (String.ofList name))

/-- A tag: verbatim, a single exclamation mark, or a handle and a suffix. -/
def tag : Step Unit := do
  noteCandidate
  allow false
  let c ← peek 1
  let token : Token ←
    if c == '<' then do
      pass 2
      let suffix ← uri
      require ((← peek 0) == '>')
      pass 1
      pure (Token.tag none suffix)
    else if isSpace c then do
      pass 1
      pure (Token.tag none "!")
    else do
      let body := ((← get).rest.drop 1).takeWhile fun c => !(isGap c || c == '!')
      let handle ← if (← peek (body.length + 1)) == '!' then tagHandle else do
        pass 1
        pure "!"
      let suffix ← uri
      pure (Token.tag (some handle) suffix)
  require (isGap (← peek 0))
  emit token

/-! Block scalars -/

/-- Passes line breaks and the indentation of the lines between them. -/
def blockBreaks (indent : Nat) : Nat → Step (List Char)
  | 0 => return []
  | fuel + 1 => do
      let s ← get
      pass ((s.rest.takeWhile (· == ' ')).length.min (indent - s.column))
      let found ← lineBreak
      if found.isEmpty then return [] else return found ++ (← blockBreaks indent fuel)

/-- Passes the empty lines before a block scalar, and returns how far they are indented at most. -/
def blockIndentation : Nat → Nat → Step (List Char × Nat)
  | 0, deepest => return ([], deepest)
  | fuel + 1, deepest => do
      let _ ← passWhile (· == ' ')
      let deepest := deepest.max (← get).column
      let found ← lineBreak
      if found.isEmpty then return ([], deepest)
      else
        let (more, deepest) ← blockIndentation fuel deepest
        return (found ++ more, deepest)

/-- The lines of a block scalar from the current one on, without its last line break, and that line
break with the empty lines after it.  `breaks` are the empty lines before the current one. -/
def blockLines (folded : Bool) (indent : Nat) :
    Nat → List Char → List Char → Step (List Char × List Char × List Char)
  | 0, last, breaks => return ([], last, breaks)
  | fuel + 1, last, breaks => do
      if (← get).column != indent || (← peek 0) == endMark then return ([], last, breaks)
      else
        let first ← peek 0
        let line ← passWhile (!isLineEnd ·)
        let last ← lineBreak
        let after ← blockBreaks indent (fuel + 1)
        if (← get).column == indent && (← peek 0) != endMark then
          let next ← peek 0
          let isBlank (c : Char) : Bool := c == ' ' || c == '\t'
          let glue :=
            if folded && last == ['\n'] && !isBlank first && !isBlank next then
              if after.isEmpty then [' '] else []
            else last
          let (text, last, tail) ← blockLines folded indent fuel last after
          return (breaks ++ line ++ glue ++ text, last, tail)
        else return (breaks ++ line, last, after)

/-- Whether the line breaks at the end of a block scalar are kept: all, one, or none. -/
inductive Chomping where
  | keep
  | clip
  | strip
deriving Repr, DecidableEq

/-- The sign that says which line breaks are kept, if there is one. -/
def chomping : Step (Option Chomping) := do
  let c ← peek 0
  if c == '+' then
    pass 1
    return some .keep
  else if c == '-' then
    pass 1
    return some .strip
  else return none

/-- The digit that says how far a block scalar is indented, if there is one. -/
def increment : Step (Option Nat) := do
  let c ← peek 0
  if c.isDigit then
    require (c != '0')
    pass 1
    return some (c.toNat - 48)
  else return none

def blockScalar (folded : Bool) : Step Unit := do
  allow true
  dropCandidate
  pass 1
  let before ← chomping
  let increment ← increment
  let after ← if before.isNone && increment.isSome then chomping else pure none
  require (isGap (← peek 0))
  restOfLine
  let s ← get
  let least := (s.indent + 1).toNat.max 1
  let fuel := s.size
  let (breaks, indent) ← match increment with
    | none => do
        let (breaks, deepest) ← blockIndentation fuel 0
        pure (breaks, least.max deepest)
    | some n => do
        let indent := least + n - 1
        pure (← blockBreaks indent fuel, indent)
  let (text, last, tail) ← blockLines folded indent fuel [] breaks
  let ending := match before.orElse fun _ => after with
    | some .strip => []
    | some .keep => last ++ tail
    | _ => last
  emit (.scalar (Text.ofChars (text ++ ending)) false)

/-! Quoted scalars -/

/-- The character that a letter after a backslash stands for. -/
def escaped? (c : Char) : Option Nat :=
  ([('0', 0), ('a', 7), ('b', 8), ('t', 9), ('\t', 9), ('n', 10), ('v', 11), ('f', 12), ('r', 13),
    ('e', 27), (' ', 32), ('"', 34), ('\\', 92), ('/', 47), ('N', 0x85), ('_', 0xA0), ('L', 0x2028),
    ('P', 0x2029)].find? (·.1 == c)).map (·.2)

/-- How many digits follow a letter after a backslash. -/
def escapeWidth? (c : Char) : Option Nat :=
  ([('x', 2), ('u', 4), ('U', 8)].find? (·.1 == c)).map (·.2)

/-- Passes blanks and line breaks inside a quoted scalar; the marks of a document may not follow. -/
def quotedBreaks : Nat → Step (List Char)
  | 0 => return []
  | fuel + 1 => do
      require !(← atDocumentMark)
      let _ ← passWhile fun c => c == ' ' || c == '\t'
      let found ← lineBreak
      if found.isEmpty then return [] else return found ++ (← quotedBreaks fuel)

/-- Blanks inside a quoted scalar: kept within a line; a single line break becomes a space. -/
def quotedSpaces (fuel : Nat) : Step (List Char) := do
  let blanks ← passWhile fun c => c == ' ' || c == '\t'
  require ((← peek 0) != endMark)
  let found ← lineBreak
  if found.isEmpty then return blanks
  else
    let more ← quotedBreaks fuel
    return (if found != ['\n'] then found else if more.isEmpty then [' '] else []) ++ more

/-- An escape, after its backslash. -/
def quotedEscape (fuel : Nat) : Step (List CodePoint) := do
  let c ← peek 0
  match escaped? c, escapeWidth? c with
  | some n, _ =>
      pass 1
      return [.ofNat n]
  | none, some width =>
      pass 1
      let digits := ((← get).rest.take width).takeWhile fun d => (Hex.value? d).isSome
      if digits.length < width then
        let _ ← peek digits.length
        fail
      else
        let n := Numeral.ofDigits 16 digits
        if 0x7FFFFFFF < n then throw .codePointTooLarge
        if 0x10FFFF < n then throw .noCodePoint
        pass width
        return [.ofNat n]
  | none, none =>
      require (isBreak c)
      let _ ← lineBreak
      return (← quotedBreaks fuel).map .char

/-- The code points of a quoted scalar up to its closing quote. -/
def quotedBody (double : Bool) : Nat → Step (List CodePoint)
  | 0 => fail
  | fuel + 1 => do
      let plain ← passWhile fun c => !(isSpace c || c == '\'' || c == '"' || c == '\\')
      let c ← peek 0
      let text := plain.map CodePoint.char
      if c == (if double then '"' else '\'') then
        if double then
          pass 1
          return text
        else if (← peek 1) == '\'' then
          pass 2
          return text ++ .char c :: (← quotedBody double fuel)
        else
          pass 1
          return text
      else if double && c == '\\' then
        pass 1
        let more ← quotedEscape fuel
        return text ++ more ++ (← quotedBody double fuel)
      else if c == '\'' || c == '"' || c == '\\' then
        pass 1
        return text ++ .char c :: (← quotedBody double fuel)
      else
        let more ← quotedSpaces fuel
        return text ++ more.map .char ++ (← quotedBody double fuel)

def quotedScalar (double : Bool) : Step Unit := do
  noteCandidate
  allow false
  pass 1
  let text ← quotedBody double (← get).size
  emit (.scalar ⟨text⟩ false)

/-! Plain scalars -/

/-- Whether a plain scalar is broken off before the first of the given characters; not known without
it, and before a colon not without the one after it. -/
def endsPlain? (inFlow : Bool) : List Char → Option Bool
  | [] => none
  | ':' :: rest =>
      rest.head?.map fun next => isSpace next || (inFlow && ",[]\x7b\x7d".toList.contains next)
  | c :: _ => some (isSpace c || (inFlow && ",?[]\x7b\x7d".toList.contains c))

/-- How many of the characters belong to a plain scalar without a gap, if that is known. -/
def plainLength? (inFlow : Bool) : List Char → Option Nat
  | [] => none
  | c :: rest =>
      match endsPlain? inFlow (c :: rest) with
      | none => none
      | some true => some 0
      | some false => (plainLength? inFlow rest).map (· + 1)

/-- The part of a plain scalar up to the next gap. -/
def plainPart : Step (List Char) := do
  let s ← get
  match plainLength? (s.flowLevel != 0) s.rest with
  | none => throw s.beyond
  | some length => return s.rest.take length

/-- Passes the blank lines inside a plain scalar; none when the marks of a document follow. -/
def plainBreaks : Nat → Step (Option (List Char))
  | 0 => return some []
  | fuel + 1 => do
      if ← atDocumentMark then return none
      else
        let _ ← passWhile (· == ' ')
        let found ← lineBreak
        if found.isEmpty then return some []
        else return (← plainBreaks fuel).map (found ++ ·)

/-- The gap after a part of a plain scalar; an empty one ends the scalar. -/
def plainGap (fuel : Nat) : Step (List Char) := do
  let blanks ← passWhile (· == ' ')
  let found ← lineBreak
  if found.isEmpty then return blanks
  else
    allow true
    match ← plainBreaks fuel with
    | none => return []
    | some more =>
        return (if found != ['\n'] then found else if more.isEmpty then [' '] else []) ++ more

/-- The characters of a plain scalar from the current one on; `gap` is what separates them from
those before. -/
def plainBody (indent : Int) : Nat → List Char → Step (List Char)
  | 0, _ => return []
  | fuel + 1, gap => do
      let part ← plainPart
      if part.isEmpty then return []
      else
        allow false
        pass part.length
        let next ← plainGap fuel
        let c ← peek 0
        let s ← get
        if next.isEmpty || c == '#' || (s.flowLevel == 0 && (s.column : Int) < indent) then
          return gap ++ part
        else return gap ++ part ++ (← plainBody indent fuel next)

def plainScalar : Step Unit := do
  noteCandidate
  allow false
  let s ← get
  let text ← plainBody (s.indent + 1) s.size []
  emit (.scalar (Text.ofChars text) true)

/-- Whether a plain scalar may begin with a character: with a dash, a question mark or a colon only
if no gap follows. -/
def startsPlain (inFlow : Bool) (c : Char) : Step Bool := do
  if isSpace c || "-?:,[]\x7b\x7d#&*!|>'\"%@\x60".toList.contains c then
    let next ← peek 1
    return !isSpace next && (c == '-' || (!inFlow && (c == '?' || c == ':')))
  else return true

/-! The whole text -/

/-- Whether a gap follows the next character. -/
def gapFollows : Step Bool := do return isSpace (← peek 1)

/-- Takes a plain scalar, if one may begin with a character. -/
def plainOrFail (inFlow : Bool) (c : Char) : Step Unit := do
  if ← startsPlain inFlow c then plainScalar else fail

/-- Takes the token that begins with a dash, a point, a question mark or a colon: the mark of a
document, that of an entry, a key or a value, or else a plain scalar. -/
def marked (inFlow : Bool) (c : Char) : Step Unit := do
  let s ← get
  let ofDocument ← if s.column == 0 && (c == '-' || c == '.') then atDocumentMark else pure false
  if ofDocument then documentMark (if c == '-' then .documentStart else .documentEnd)
  else if c == '.' then plainScalar
  else
    let alone ← if inFlow && c != '-' then pure true else gapFollows
    if !alone then plainScalar
    else if c == '-' then blockEntry
    else if c == '?' then keyMark
    else valueMark

/-- Takes the next token.  The answer says whether it was the last one. -/
def next : Step Bool := do
  if (← get).index == 0 then
    if (← peek 0) == '\uFEFF' then pass 1
  toNextToken (← get).size
  dropStale
  unwind (← get).column
  let s ← get
  let inFlow := s.flowLevel != 0
  match ← peek 0 with
  | '\x00' =>
      streamEnd
      return true
  | '%' => if s.column == 0 then directive else plainOrFail inFlow '%'
  | '-' => marked inFlow '-'
  | '.' => marked inFlow '.'
  | '?' => marked inFlow '?'
  | ':' => marked inFlow ':'
  | '[' => flowStart .flowSequenceStart
  | '\x7b' => flowStart .flowMappingStart
  | ']' => flowEnd .flowSequenceEnd
  | '\x7d' => flowEnd .flowMappingEnd
  | ',' => flowEntry
  | '*' => anchor .alias
  | '&' => anchor .anchor
  | '!' => tag
  | '\'' => quotedScalar false
  | '"' => quotedScalar true
  | c =>
      if c == '|' && !inFlow then blockScalar false
      else if c == '>' && !inFlow then blockScalar true
      else plainOrFail inFlow c
  return false

/-- Releases tokens, up to the first one that a key may still be inserted before. -/
def release : Nat → Step Unit
  | 0 => return
  | fuel + 1 => do
      dropStale
      let s ← get
      if !(s.candidates.any (·.2.tokens == s.released)) then
        set { s with released := s.released + 1 }
        release fuel

/-- Takes all tokens. -/
def all : Nat → Step Unit
  | 0 => return
  | fuel + 1 => do
      if !(← next) then
        let s ← get
        release (s.tokens.size - s.released)
        all fuel

end Lexer

/-- The tokens of a text, and the fault that follows them if the text breaks a rule there. -/
def Token.ofSource (source : Source) : List Token × Option Fault :=
  match Lexer.all (source.chars.length + 1) (Lexer.start source) with
  | .ok _ s => (s.tokens.toList, none)
  | .error fault s => (s.tokens.toList.take s.released, some fault)

end LiveFeed.Yaml
