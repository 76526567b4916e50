import TypePages.Yaml.Block
import TypePages.Yaml.Flow

/-!
The tokens of a document.

Tokens make the structure explicit that a document expresses by indentation: where a collection in
block form starts and ends, and what is a key.  Whether a text is a key shows only at the colon
behind it.  The scanner therefore remembers for each level of brackets where a key might have
started, and puts the key's token in there when it meets the colon on the same line.
-/

namespace TypePages.Yaml

/-- A token of a document. -/
inductive Token
  | documentStart
  | documentEnd
  | blockSequence
  | blockMapping
  | blockEnd
  | sequenceOpen
  | sequenceClose
  | mappingOpen
  | mappingClose
  | itemMark
  | comma
  | key
  | value
  | plain (text : String)
  | quoted (text : String)
  deriving DecidableEq, Inhabited

/-- A place at which a key may have started. -/
structure KeyStart where
  /-- The number of tokens before it. -/
  position : Nat
  /-- Whether nothing but a key can stand there. -/
  required : Bool
  line : Nat
  column : Nat
  index : Nat

/-- What has been scanned. -/
structure Scan where
  rest : Marks
  tokens : Array Token := #[]
  /-- The number of brackets that are open. -/
  depth : Nat := 0
  /-- The column of the innermost open block collection, or -1. -/
  indentation : Int := -1
  /-- The columns of the outer ones. -/
  outer : List Int := []
  /-- Whether a key may start here. -/
  mayStartKey : Bool := true
  /-- The places at which keys may have started, by the number of brackets open there. -/
  keyStarts : List (Nat × KeyStart) := []

namespace Scan

open Marks

/-- The longest distance between the start of a key and its colon. -/
def keyLimit : Nat := 1024

/-- Adds a token. -/
def emit (s : Scan) (t : Token) : Scan := { s with tokens := s.tokens.push t }

/-- Goes over characters. -/
def advance (s : Scan) (n : Nat) : Scan := { s with rest := List.drop n s.rest }

/-- Adds the token of the next character. -/
def emitNext (s : Scan) (t : Token) : Scan := (s.emit t).advance 1

/-- Goes over what separates tokens. -/
def skip (s : Scan) : Scan :=
  let (broke, rest) := Marks.skip false false s.rest
  { s with rest, mayStartKey := s.mayStartKey || (broke && s.depth == 0) }

/-- Whether a key that started there is too far behind to end here. -/
def isStale (s : Scan) (k : KeyStart) : Bool :=
  k.line != line s.rest || keyLimit + k.index < index s.rest

/-- Forgets keys that are too far behind; a required one must not be. -/
def dropStale? (s : Scan) : Option Scan :=
  if s.keyStarts.any fun (_, k) => s.isStale k && k.required then none
  else some { s with keyStarts := s.keyStarts.filter fun (_, k) => !s.isStale k }

/-- Closes the block collections that are indented deeper than a column. -/
def unwindTo (column : Int) (s : Scan) : Scan :=
  if s.depth != 0 then s
  else
    let closed := (s.indentation :: s.outer).takeWhile (column < ·)
    let left := (s.indentation :: s.outer).drop closed.length
    { s with
      tokens := s.tokens ++ (closed.map fun _ => Token.blockEnd).toArray
      indentation := left.headD (-1)
      outer := left.tail }

/-- Forgets the key that may have started at this depth; a required one must not be. -/
def dropKey? (s : Scan) : Option Scan :=
  match s.keyStarts.lookup s.depth with
  | some k =>
    if k.required then none
    else some { s with keyStarts := s.keyStarts.filter (·.1 != s.depth) }
  | none => some s

/-- Remembers that a key may start here. -/
def saveKey? (s : Scan) : Option Scan :=
  if s.mayStartKey then do
    let required := s.depth == 0 && s.indentation == (column s.rest : Int)
    let s ← s.dropKey?
    let k : KeyStart :=
      { position := s.tokens.size, required, line := line s.rest, column := column s.rest
        index := index s.rest }
    return { s with keyStarts := (s.depth, k) :: s.keyStarts }
  else some s

/-- Opens a block collection at a column, if none is open there. -/
def openBlock (s : Scan) (column position : Nat) (t : Token) : Scan :=
  if s.indentation < column then
    { s with
      indentation := column, outer := s.indentation :: s.outer
      tokens := s.tokens.insertIdxIfInBounds position t }
  else s

/-! ### Scanning the tokens -/

/-- A document start or end. -/
def documentRule? (s : Scan) (t : Token) : Option Scan := do
  let s ← (s.unwindTo (-1)).dropKey?
  return ({ s with mayStartKey := false }.emit t).advance 3

/-- An opening bracket. -/
def openBracket? (s : Scan) (t : Token) : Option Scan := do
  let s ← s.saveKey?
  return { s with depth := s.depth + 1, mayStartKey := true }.emitNext t

/-- A closing bracket. -/
def closeBracket? (s : Scan) (t : Token) : Option Scan := do
  let s ← s.dropKey?
  guard (s.depth != 0)
  return { s with depth := s.depth - 1, mayStartKey := false }.emitNext t

/-- A comma between brackets. -/
def comma? (s : Scan) : Option Scan := do
  let s ← { s with mayStartKey := true }.dropKey?
  return s.emitNext .comma

/-- The mark of an item in a block sequence. -/
def itemMark? (s : Scan) : Option Scan := do
  guard (s.depth != 0 || s.mayStartKey)
  let s := if s.depth == 0 then s.openBlock (column s.rest) s.tokens.size .blockSequence else s
  let s ← { s with mayStartKey := true }.dropKey?
  return s.emitNext .itemMark

/-- The mark of a key that stands on its own. -/
def keyMark? (s : Scan) : Option Scan := do
  guard (s.depth != 0 || s.mayStartKey)
  let s := if s.depth == 0 then s.openBlock (column s.rest) s.tokens.size .blockMapping else s
  let s ← { s with mayStartKey := s.depth == 0 }.dropKey?
  return s.emitNext .key

/-- A colon behind a key that started earlier. -/
def endKey (s : Scan) (k : KeyStart) : Scan :=
  let s := { s with
    keyStarts := s.keyStarts.filter (·.1 != s.depth)
    tokens := s.tokens.insertIdxIfInBounds k.position .key
    mayStartKey := false }
  if s.depth == 0 then s.openBlock k.column k.position .blockMapping else s

/-- A colon without a key before it. -/
def bareValue? (s : Scan) : Option Scan := do
  guard (s.depth != 0 || s.mayStartKey)
  let s := if s.depth == 0 then s.openBlock (column s.rest) s.tokens.size .blockMapping else s
  { s with mayStartKey := s.depth == 0 }.dropKey?

/-- A colon. -/
def value? (s : Scan) : Option Scan := do
  let s ← match s.keyStarts.lookup s.depth with
    | some k => pure (s.endKey k)
    | none => s.bareValue?
  return s.emitNext .value

/-- A block scalar. -/
def block? (s : Scan) (folded : Bool) : Option Scan := do
  let s ← { s with mayStartKey := true }.dropKey?
  let (text, rest) ← Block.scan? folded s.indentation s.rest.tail
  return { s with rest }.emit (.quoted (.ofList text))

/-- A quoted text. -/
def quoted? (s : Scan) (double : Bool) : Option Scan := do
  let s ← s.saveKey?
  let (text, rest) ← Flow.quoted? double s.rest.tail
  return { s with rest, mayStartKey := false }.emit (.quoted (.ofList text))

/-- A plain text. -/
def plain? (s : Scan) : Option Scan := do
  let s ← s.saveKey?
  let (text, broke, rest) := Flow.plain (s.depth != 0) s.indentation s.rest
  return { s with rest, mayStartKey := broke }.emit (.plain (.ofList text))

/-- Whether a character with another one after it starts a plain text. -/
def startsPlain (inBrackets : Bool) (c next : Char) : Bool :=
  (!isGap c && !"-?:,[]\x7b\x7d#&*!|>'\"%@`".toList.contains c)
    || (!isGap next && (c == '-' || (!inBrackets && (c == '?' || c == ':'))))

/-- Whether a mark such as a colon counts: between brackets always, else only before a gap. -/
def countsAsMark (s : Scan) : Bool := s.depth != 0 || isGap (peekSecond s.rest)

/-- The next token, when what separates it has been gone over. -/
def token? (s : Scan) : Option Scan :=
  let c := peek s.rest
  if column s.rest == 0 && s.rest.isRule '-' then s.documentRule? .documentStart
  else if column s.rest == 0 && s.rest.isRule '.' then s.documentRule? .documentEnd
  else if c == '[' then s.openBracket? .sequenceOpen
  else if c == '\x7b' then s.openBracket? .mappingOpen
  else if c == ']' then s.closeBracket? .sequenceClose
  else if c == '\x7d' then s.closeBracket? .mappingClose
  else if c == ',' then s.comma?
  else if c == '-' && isGap (peekSecond s.rest) then s.itemMark?
  else if c == '?' && s.countsAsMark then s.keyMark?
  else if c == ':' && s.countsAsMark then s.value?
  else if (c == '|' || c == '>') && s.depth == 0 then s.block? (c == '>')
  else if c == '\'' || c == '"' then s.quoted? (c == '"')
  else if startsPlain (s.depth != 0) c (peekSecond s.rest) then s.plain?
  else none

/-- Scans to the end, with at most as many tokens as given. -/
def run? : Nat → Scan → Option (List Token)
  | 0, _ => none
  | n + 1, s => do
    let s ← s.skip.dropStale?
    let s := s.unwindTo (column s.rest)
    if peek s.rest == endChar then
      let s ← (s.unwindTo (-1)).dropKey?
      return s.tokens.toList
    else run? n (← s.token?)

end Scan

/-- The tokens of a document.  Every token but the last takes a character. -/
def tokens? (cs : List Char) : Option (List Token) :=
  if cs.all isAllowed then
    let ms := marks cs
    Scan.run? (ms.length + 1) { rest := ms }
  else none

end TypePages.Yaml
