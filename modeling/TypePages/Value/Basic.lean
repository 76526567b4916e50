import TypePages.Number.Binary64

/-!
Values of a metadata document or a configuration.

A document is a tree of lists and mappings over scalars.  A mapping keeps the order in which its
entries were written, and its keys are scalars.  Nothing about the shape of a document is promised:
a list may stand where a text is expected, so every reader asks a value for its `Form` and answers
for each form.
-/

namespace TypePages

/-- A value without parts. -/
inductive Scalar
  | null
  | bool (b : Bool)
  | int (n : Int)
  | real (x : Binary64)
  | text (s : String)
  deriving DecidableEq, Inhabited

/-- A value of a document. -/
inductive Value
  | scalar (s : Scalar)
  | list (items : List Value)
  | mapping (entries : List (Scalar × Value))
  deriving Inhabited

namespace Value

/-- The value of an empty field. -/
@[match_pattern] abbrev null : Value := .scalar .null

/-- A truth value. -/
@[match_pattern] abbrev bool (b : Bool) : Value := .scalar (.bool b)

/-- An integer. -/
@[match_pattern] abbrev int (n : Int) : Value := .scalar (.int n)

/-- A floating-point number. -/
@[match_pattern] abbrev real (x : Binary64) : Value := .scalar (.real x)

/-- A text. -/
@[match_pattern] abbrev text (s : String) : Value := .scalar (.text s)

/-- A list of texts. -/
def texts (ss : List String) : Value := .list (ss.map .text)

/-- The forms a value may have. -/
inductive Form
  | null
  | bool
  | int
  | real
  | text
  | list
  | mapping
  deriving DecidableEq

/-- The word by which messages call a form. -/
def Form.name : Form → String
  | .null => "NoneType"
  | .bool => "bool"
  | .int => "int"
  | .real => "float"
  | .text => "str"
  | .list => "list"
  | .mapping => "dict"

/-- The form of a value. -/
def form : Value → Form
  | .null => .null
  | .bool _ => .bool
  | .int _ => .int
  | .real _ => .real
  | .text _ => .text
  | .list _ => .list
  | .mapping _ => .mapping

/-- Whether a value counts as given: empty texts and collections, zeros, `false` and null do not. -/
def isGiven : Value → Bool
  | .null => false
  | .bool b => b
  | .int n => n != 0
  | .real x => !x.isZero
  | .text s => s != ""
  | .list items => !items.isEmpty
  | .mapping entries => !entries.isEmpty

end Value

/-! ### Equality of values

Numbers and truth values are equal when they stand for the same quantity, whatever their form, and
mappings are equal when they hold equal values under equal keys, in whatever order.
-/

/-- The quantity that a truth value counts for. -/
def Scalar.ofBool (b : Bool) : Int := if b then 1 else 0

/-- Equality of scalars. -/
def Scalar.same : Scalar → Scalar → Bool
  | .null, .null => true
  | .text s, .text t => s == t
  | .bool a, .bool b => a == b
  | .bool a, .int n => ofBool a == n
  | .bool a, .real x => x.equalInt (ofBool a)
  | .int n, .bool b => n == ofBool b
  | .int m, .int n => m == n
  | .int n, .real x => x.equalInt n
  | .real x, .bool b => x.equalInt (ofBool b)
  | .real x, .int n => x.equalInt n
  | .real x, .real y => x.equal y
  | _, _ => false

/-- The entry of a mapping under a key. -/
def entryAt? (key : Scalar) : List (Scalar × Value) → Option Value
  | [] => none
  | (k, v) :: rest => if k.same key then some v else entryAt? key rest

mutual

/-- Equality of values. -/
def Value.same : Value → Value → Bool
  | .scalar a, .scalar b => a.same b
  | .list xs, .list ys => sameItems xs ys
  | .mapping es, .mapping fs => es.length == fs.length && sameEntries es fs
  | _, _ => false

/-- Equality of lists, item by item. -/
def sameItems : List Value → List Value → Bool
  | [], [] => true
  | x :: xs, y :: ys => x.same y && sameItems xs ys
  | _, _ => false

/-- Whether every entry of the first mapping has an equal one in the second. -/
def sameEntries : List (Scalar × Value) → List (Scalar × Value) → Bool
  | [], _ => true
  | (k, v) :: es, fs =>
    (match entryAt? k fs with
      | some w => v.same w
      | none => false) && sameEntries es fs

end

/-- Whether a list has an item equal to a value. -/
def Value.isIn (v : Value) (items : List Value) : Bool := items.any fun w => w.same v

/-- The mapping with an entry written: in place of the one under an equal key, else at the end. -/
def putEntry (key : Scalar) (value : Value) : List (Scalar × Value) → List (Scalar × Value)
  | [] => [(key, value)]
  | (k, v) :: rest => if k.same key then (k, value) :: rest else (k, v) :: putEntry key value rest

end TypePages
