import TypePages.Message.Description
import TypePages.Message.Part
import TypePages.Message.Template

/-!
The things that the fields of a template stand for.

A field names an argument and steps from there into attributes and items.  Most arguments are texts
and most fields take no step, but every value has a kind, and the kind has parts that a field can
show.  What has no text of its own, such as an operation, shows what it is and where it belongs.
-/

namespace TypePages.Template

/-- A thing that a field can stand for. -/
inductive Subject
  | value (v : Value)
  | kind (k : Kind)
  /-- A fixed sequence of kinds. -/
  | kinds (ks : List Kind)
  /-- A kind narrowed by an argument. -/
  | application (k : Kind) (argument : Scalar)
  /-- What a kind has under a name, belonging to no single thing. -/
  | part (p : Part) (owner : Kind) (name : String)
  /-- What a kind has under a name, for one thing. -/
  | bound (p : Part) (owner : Kind) (name : String) (holder : Subject)

namespace Subject

/-- A text as a subject. -/
@[match_pattern] abbrev text (s : String) : Subject := .value (.text s)

/-- The kind of a subject. -/
def kindOf : Subject → Kind
  | .value v => .value v.form
  | .kind _ => .kind
  | .kinds _ => .sequence
  | .application .. => .application
  | .part .operator .. => .operator
  | .part .quantity .. => .quantity
  | .part .. => .method
  | .bound .operator .. => .boundOperator
  | .bound .. => .boundMethod

/-! ### Texts of subjects -/

/-- The text of kinds in a sequence, which has a comma after a single one. -/
def kindsText : List Kind → String
  | [k] => "(" ++ k.text ++ ",)"
  | ks => "(" ++ ", ".intercalate (ks.map Kind.text) ++ ")"

/-- What a part is called in its text. -/
def partTitle : Part → String
  | .operator => "slot wrapper"
  | .quantity => "attribute"
  | _ => "method"

/-- A subject in its quoted form.  A bound operation tells where its holder lies in memory, a place
which no two runs share; it stands as zero. -/
def shown : Subject → String
  | .value v => v.shown
  | .kind k => k.text
  | .kinds ks => kindsText ks
  | .application k a => k.title ++ "[" ++ a.shown ++ "]"
  | .part p owner name =>
    "<" ++ partTitle p ++ " '" ++ name ++ "' of '" ++ owner.title ++ "' objects>"
  | .bound .operator _ name holder =>
    "<method-wrapper '" ++ name ++ "' of " ++ holder.kindOf.title ++ " object at 0x0>"
  | .bound _ _ name holder =>
    "<built-in method " ++ name ++ " of " ++ holder.kindOf.title ++ " object at 0x0>"

/-- A subject as it stands without a layout. -/
def display : Subject → String
  | .value v => v.display
  | s => s.shown

/-! ### Attributes -/

/-- A quantity of a number: its parts as a complex number and, of an integer, as a fraction. -/
def quantity? : Value → String → Option Value
  | .int n, "real" | .int n, "numerator" => some (.int n)
  | .bool b, "real" | .bool b, "numerator" => some (.int (Scalar.ofBool b))
  | .int _, "imag" | .bool _, "imag" => some (.int 0)
  | .int _, "denominator" | .bool _, "denominator" => some (.int 1)
  | .real x, "real" => some (.real x)
  | .real _, "imag" => some (.real (.zero false))
  | _, _ => none

/-- A text that may be absent as a value. -/
def ofText? (s : Option String) : Subject := .value ((s.map .text).getD .null)

/-- What a kind tells of itself. -/
def fact? (k : Kind) : String → Option Subject
  | "__name__" | "__qualname__" => some (.text k.name)
  | "__module__" => some (.text k.home)
  | "__doc__" => some (ofText? k.description?)
  | "__text_signature__" => some (ofText? k.signature?)
  | "__base__" => some ((k.ancestry[1]?.map .kind).getD (.value .null))
  | "__bases__" => some (.kinds (k.ancestry.tail.take 1))
  | "__mro__" => some (.kinds k.ancestry)
  | name => (k.measure? name).map fun n => .value (.int n)

/-- The name that an operation goes by together with the kind it belongs to. -/
def fullName (owner : Kind) (name : String) : Subject := .text (owner.name ++ "." ++ name)

/-- What a subject tells of itself, before its kind is asked for a part. -/
def ownAttribute? (s : Subject) (name : String) : Option Subject :=
  if name = "__class__" then some (.kind s.kindOf)
  else match s with
    | .value v =>
      if name = "__doc__" then some (ofText? s.kindOf.description?)
      else (quantity? v name).map .value
    | .kinds _ => if name = "__doc__" then some (ofText? s.kindOf.description?) else none
    | .kind k => fact? k name
    | .application k _ => if name = "__origin__" then some (.kind k) else fact? k name
    | .part _ owner own => match name with
      | "__name__" => some (.text own)
      | "__qualname__" => some (fullName owner own)
      | "__objclass__" => some (.kind owner)
      | _ => none
    | .bound .operator owner own holder => match name with
      | "__name__" => some (.text own)
      | "__qualname__" => some (fullName owner own)
      | "__objclass__" => some (.kind owner)
      | "__self__" => some holder
      | _ => none
    | .bound _ _ own holder => match name, holder with
      | "__name__", _ => some (.text own)
      | "__qualname__", .kind k => some (fullName k own)
      | "__qualname__", _ => some (fullName holder.kindOf own)
      | "__self__", _ => some holder
      | "__module__", _ => some (.value .null)
      | _, _ => none

/-- A part of its kind for a subject. -/
def bind (s : Subject) (owner : Kind) (name : String) : Part → Subject
  | .withdrawn => .value .null
  | .shared => .bound .shared owner name (.kind s.kindOf)
  | p => .bound p owner name s

/-- A part of a kind for the kind. -/
def ofKind (k owner : Kind) (name : String) : Part → Subject
  | .withdrawn => .value .null
  | .shared => .bound .shared owner name (.kind k)
  | p => .part p owner name

/-- The attribute of a kind: what it has for its things, else what it has as a kind.  Operations
that are left to other kinds have a place in every kind, and no kind here leaves any. -/
def kindAttribute (k : Kind) (name : String) : Except TemplateFault Subject :=
  match k.part? name with
  | some (owner, p) => .ok (ofKind k owner name p)
  | none => match Kind.kind.part? name with
    | some (owner, p) => .ok (bind (.kind k) owner name p)
    | none =>
      .error (if name = "__abstractmethods__" then .emptyPart name else .noPartOfKind k name)

/-- The attribute of a subject under a name. -/
def attributeOf (s : Subject) (name : String) : Except TemplateFault Subject :=
  match ownAttribute? s name with
  | some t => .ok t
  | none => match s with
    | .kind k | .application k _ => kindAttribute k name
    | s => match s.kindOf.part? name with
      | some (owner, p) => .ok (s.bind owner name p)
      | none => .error (.noPart s.kindOf name)

/-! ### Items -/

/-- The item of a value under a name or, if the name is a numeral, under its number. -/
def itemOfValue (v : Value) (number : Option Nat) (name : List Char) : Except Fault Value :=
  match v, number with
  | .text s, some n => match s.toList[n]? with
    | some c => .ok (.text (.ofList [c]))
    | none => .error (.template .characterOutOfRange)
  | .list items, some n => match items[n]? with
    | some w => .ok w
    | none => .error (.template .itemOutOfRange)
  | .mapping entries, some n => match entryAt? (.int n) entries with
    | some w => .ok w
    | none => .error (.missingKey (.int n))
  | v, _ => v.entry (.ofList name)

/-- The item of a subject under a name. -/
def item (s : Subject) (name : List Char) : Except Fault Subject := do
  let number ← lift (number? name)
  match s, number with
  | .value v, _ => return .value (← itemOfValue v number name)
  | .kind k, _ =>
    let key := (number.map fun n => .int n).getD (.text (.ofList name))
    if k.isApplicable then return .application k key else .error (.template (.notApplicable k))
  | .kinds ks, some n => match ks[n]? with
    | some k => return .kind k
    | none => .error (.template .kindOutOfRange)
  | .kinds _, none => .error (.template .namedKind)
  | .application .., _ => .error (.template (.alreadyApplied s.display))
  | s, _ => .error (.template (.noItems s.kindOf))

end Subject

/-! ### Arguments -/

/-- A step into a subject. -/
def enter (s : Subject) (a : Except TemplateFault Access) : Except Fault Subject := do
  match ← lift a with
  | .attribute name => lift (s.attributeOf (.ofList name))
  | .item name => s.item name

/-- The subject that a field name stands for. -/
def argument (args : List Value) (numbering : Numbering) (name : List Char) :
    Except Fault (Subject × Numbering) := do
  let first := name.takeWhile fun c => c != '.' && c != '['
  let (position, numbering) ← lift (position? numbering first)
  match position with
  | none => .error (.missingKey (.text (.ofList first)))
  | some n =>
    match args[n]? with
    | none => .error (.template (.argumentOutOfRange n))
    | some v =>
      let steps := accessesWithin name.length (name.drop first.length)
      return (← steps.foldlM enter (.value v), numbering)

/-- The subject in the form that a conversion asks for. -/
def convert (s : Subject) : Option Char → Except TemplateFault Subject
  | none | some '\x00' => .ok s
  | some 's' => .ok (.text s.display)
  | some 'r' => .ok (.text s.shown)
  | some 'a' => .ok (.text (.ofList (s.shown.toList.flatMap inAscii)))
  | some c => .error (.unknownConversion c)
where
  /-- A character as ASCII shows it. -/
  inAscii (c : Char) : List Char :=
    if c.toNat < 128 then [c]
    else if c.toNat < 0x100 then '\\' :: 'x' :: hexDigits 2 c.toNat
    else if c.toNat < 0x10000 then '\\' :: 'u' :: hexDigits 4 c.toNat
    else '\\' :: 'U' :: hexDigits 8 c.toNat

end TypePages.Template
