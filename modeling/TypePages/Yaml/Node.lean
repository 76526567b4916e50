import TypePages.Yaml.Plain
import TypePages.Yaml.Token

/-!
The value that a document's tokens spell out.

A collection is read entry by entry.  Whatever is left out, be it a key, a value or an item, is
null.  A key has to be a scalar, and of two entries under one key the later value counts.
-/

namespace TypePages.Yaml

/-- A value with the tokens after it. -/
abbrev Reading := Except Fault (Value × List Token)

/-- Entries of a mapping with the tokens after it. -/
abbrev EntriesReading := Except Fault (List (Scalar × Value) × List Token)

/-- Items of a list with the tokens after it. -/
abbrev ItemsReading := Except Fault (List Value × List Token)

/-- Whether the next token is one of the given ones, or there is none. -/
def nextIs (ts : List Token) (these : List Token) : Bool :=
  match ts with
  | [] => false
  | t :: _ => these.contains t

/-- The key that a value stands for. -/
def keyOf : Value → Except Fault Scalar
  | .scalar s => .ok s
  | _ => .error .malformed

/-- Mappings are written from the front, so that of equal keys the last value counts. -/
def mappingOf (entries : List (Scalar × Value)) : Value :=
  .mapping (entries.foldl (fun es (k, v) => putEntry k v es) [])

/-- A null for what is left out before one of the given tokens. -/
def orNull (these : List Token) (ts : List Token) (read : List Token → Reading) : Reading :=
  if nextIs ts these then .ok (.null, ts) else read ts

/-- The tokens behind a comma, which has to be there. -/
def afterComma : List Token → Except Fault (List Token)
  | .comma :: ts => .ok ts
  | _ => .error .malformed

mutual

/-- A node; in block form only where block collections may start, and a list of items without
indentation of its own only where a mapping's entry is read. -/
def node (block indentless : Bool) : Nat → List Token → Reading
  | 0, _ => .error .malformed
  | _ + 1, [] => .error .malformed
  | n + 1, t :: ts =>
    match t with
    | .plain s => do return (.scalar (← plainScalar s), ts)
    | .quoted s => .ok (.text s, ts)
    | .sequenceOpen => do
      let (items, rest) ← bracketItems true n ts
      return (.list items, rest)
    | .mappingOpen => do
      let (entries, rest) ← bracketEntries true n ts
      return (mappingOf entries, rest)
    | .itemMark =>
      if indentless then do
        let (items, rest) ← looseItems n (t :: ts)
        return (.list items, rest)
      else .error .malformed
    | .blockSequence =>
      if block then do
        let (items, rest) ← blockItems n ts
        return (.list items, rest)
      else .error .malformed
    | .blockMapping =>
      if block then do
        let (entries, rest) ← blockEntries n ts
        return (mappingOf entries, rest)
      else .error .malformed
    | _ => .error .malformed

/-- The items of a block sequence up to its end. -/
def blockItems : Nat → List Token → ItemsReading
  | 0, _ => .error .malformed
  | n + 1, .itemMark :: ts => do
    let (item, ts) ← orNull [.itemMark, .blockEnd] ts (node true false n)
    let (items, ts) ← blockItems n ts
    return (item :: items, ts)
  | _ + 1, .blockEnd :: ts => .ok ([], ts)
  | _ + 1, _ => .error .malformed

/-- The items of a sequence that is indented like the mapping it stands in. -/
def looseItems : Nat → List Token → ItemsReading
  | 0, _ => .error .malformed
  | n + 1, .itemMark :: ts => do
    let (item, ts) ← orNull [.itemMark, .key, .value, .blockEnd] ts (node true false n)
    let (items, ts) ← looseItems n ts
    return (item :: items, ts)
  | _ + 1, ts => .ok ([], ts)

/-- The value of an entry in a block mapping. -/
def blockValue : Nat → List Token → Reading
  | 0, _ => .error .malformed
  | n + 1, .value :: ts => orNull [.key, .value, .blockEnd] ts (node true true n)
  | _ + 1, ts => .ok (.null, ts)

/-- The entries of a block mapping up to its end. -/
def blockEntries : Nat → List Token → EntriesReading
  | 0, _ => .error .malformed
  | n + 1, .key :: ts => do
    let (key, ts) ← orNull [.key, .value, .blockEnd] ts (node true true n)
    let (value, ts) ← blockValue n ts
    let (entries, ts) ← blockEntries n ts
    return ((← keyOf key, value) :: entries, ts)
  | _ + 1, .blockEnd :: ts => .ok ([], ts)
  | _ + 1, _ => .error .malformed

/-- The value of an entry between brackets that one of the given tokens ends. -/
def bracketValue (ends : List Token) : Nat → List Token → Reading
  | 0, _ => .error .malformed
  | n + 1, .value :: ts => orNull ends ts (node false false n)
  | _ + 1, ts => .ok (.null, ts)

/-- The items between brackets, of which all but the first stand behind a comma. -/
def bracketItems (first : Bool) : Nat → List Token → ItemsReading
  | 0, _ => .error .malformed
  | _ + 1, .sequenceClose :: ts => .ok ([], ts)
  | n + 1, ts => do
    let ts ← if first then pure ts else afterComma ts
    match ts with
    | .sequenceClose :: ts => return ([], ts)
    | .key :: ts => do
      let (key, ts) ← orNull [.value, .comma, .sequenceClose] ts (node false false n)
      let (value, ts) ← bracketValue [.comma, .sequenceClose] n ts
      let (items, ts) ← bracketItems false n ts
      return (.mapping [(← keyOf key, value)] :: items, ts)
    | ts => do
      let (item, ts) ← node false false n ts
      let (items, ts) ← bracketItems false n ts
      return (item :: items, ts)

/-- The entries between braces, of which all but the first stand behind a comma. -/
def bracketEntries (first : Bool) : Nat → List Token → EntriesReading
  | 0, _ => .error .malformed
  | _ + 1, .mappingClose :: ts => .ok ([], ts)
  | n + 1, ts => do
    let ts ← if first then pure ts else afterComma ts
    match ts with
    | .mappingClose :: ts => return ([], ts)
    | .key :: ts => do
      let (key, ts) ← orNull [.value, .comma, .mappingClose] ts (node false false n)
      let (value, ts) ← bracketValue [.comma, .mappingClose] n ts
      let (entries, ts) ← bracketEntries false n ts
      return ((← keyOf key, value) :: entries, ts)
    | ts => do
      let (key, ts) ← node false false n ts
      let (entries, ts) ← bracketEntries false n ts
      return ((← keyOf key, .null) :: entries, ts)

end

/-- A node among all tokens.  Every token is looked at a few times at most. -/
def rootNode (ts : List Token) : Reading := node true false (4 * ts.length + 8) ts

/-- The value of the only document that tokens spell out; null if there is none. -/
def valueOf (ts : List Token) : Except Fault Value := do
  let (value, rest) ← match ts with
    | [] => pure (.null, [])
    | .documentStart :: ts =>
      if ts.isEmpty then pure (.null, [])
      else orNull [.documentStart, .documentEnd] ts rootNode
    | ts => rootNode ts
  match rest.dropWhile (· == .documentEnd) with
  | [] => return value
  | _ => .error .malformed

/-- The value of a text. -/
def load (text : String) : Except Fault Value :=
  match tokens? text.toList with
  | some ts => valueOf ts
  | none => .error .malformed

end TypePages.Yaml
