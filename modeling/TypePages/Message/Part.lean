import TypePages.Message.Kind

/-!
What the kinds have under names.

A kind has operators, methods and quantities of its own, and it inherits those of the kinds it comes
from unless it has something else under the same name.
-/

namespace TypePages.Template

/-- What a kind has under a name. -/
inductive Part
  | operator
  | method
  | quantity
  /-- An operation of the kind itself and not of the things of the kind. -/
  | shared
  /-- Nothing, although an ancestor has something under the name. -/
  | withdrawn
  deriving DecidableEq

namespace Kind

/-- The names of the operators of a kind. -/
def operators : Kind → List String
  | .anything =>
    ["__repr__", "__hash__", "__str__", "__getattribute__", "__setattr__", "__delattr__",
      "__lt__", "__le__", "__eq__", "__ne__", "__gt__", "__ge__", "__init__"]
  | .value .null => ["__repr__", "__bool__"]
  | .value .bool => ["__repr__", "__and__", "__rand__", "__xor__", "__rxor__", "__or__", "__ror__"]
  | .value .int =>
    ["__repr__", "__hash__", "__getattribute__", "__lt__", "__le__", "__eq__", "__ne__", "__gt__",
      "__ge__", "__add__", "__radd__", "__sub__", "__rsub__", "__mul__", "__rmul__", "__mod__",
      "__rmod__", "__divmod__", "__rdivmod__", "__pow__", "__rpow__", "__neg__", "__pos__",
      "__abs__", "__bool__", "__invert__", "__lshift__", "__rlshift__", "__rshift__",
      "__rrshift__", "__and__", "__rand__", "__xor__", "__rxor__", "__or__", "__ror__", "__int__",
      "__float__", "__floordiv__", "__rfloordiv__", "__truediv__", "__rtruediv__", "__index__"]
  | .value .real =>
    ["__repr__", "__hash__", "__getattribute__", "__lt__", "__le__", "__eq__", "__ne__", "__gt__",
      "__ge__", "__add__", "__radd__", "__sub__", "__rsub__", "__mul__", "__rmul__", "__mod__",
      "__rmod__", "__divmod__", "__rdivmod__", "__pow__", "__rpow__", "__neg__", "__pos__",
      "__abs__", "__bool__", "__int__", "__float__", "__floordiv__", "__rfloordiv__",
      "__truediv__", "__rtruediv__"]
  | .value .text =>
    ["__repr__", "__hash__", "__str__", "__getattribute__", "__lt__", "__le__", "__eq__",
      "__ne__", "__gt__", "__ge__", "__iter__", "__mod__", "__rmod__", "__len__", "__getitem__",
      "__add__", "__mul__", "__rmul__", "__contains__"]
  | .value .list =>
    ["__repr__", "__getattribute__", "__lt__", "__le__", "__eq__", "__ne__", "__gt__", "__ge__",
      "__iter__", "__init__", "__len__", "__setitem__", "__delitem__", "__add__", "__mul__",
      "__rmul__", "__contains__", "__iadd__", "__imul__"]
  | .value .mapping =>
    ["__repr__", "__getattribute__", "__lt__", "__le__", "__eq__", "__ne__", "__gt__", "__ge__",
      "__iter__", "__init__", "__or__", "__ror__", "__ior__", "__len__", "__setitem__",
      "__delitem__"]
  | .sequence =>
    ["__repr__", "__hash__", "__getattribute__", "__lt__", "__le__", "__eq__", "__ne__", "__gt__",
      "__ge__", "__iter__", "__len__", "__getitem__", "__add__", "__mul__", "__rmul__",
      "__contains__"]
  | .kind =>
    ["__repr__", "__call__", "__getattribute__", "__setattr__", "__delattr__", "__init__",
      "__or__", "__ror__"]
  | .operator | .method => ["__repr__", "__call__", "__getattribute__", "__get__"]
  | .quantity => ["__repr__", "__getattribute__", "__get__", "__set__", "__delete__"]
  | .boundOperator | .boundMethod =>
    ["__repr__", "__hash__", "__call__", "__getattribute__", "__lt__", "__le__", "__eq__", "__ne__",
      "__gt__", "__ge__"]
  | _ => []

/-- The names of the methods of a kind. -/
def methods : Kind → List String
  | .anything =>
    ["__reduce_ex__", "__reduce__", "__getstate__", "__format__", "__sizeof__", "__dir__"]
  | .value .int =>
    ["conjugate", "bit_length", "bit_count", "to_bytes", "as_integer_ratio", "__trunc__",
      "__floor__", "__ceil__", "__round__", "__getnewargs__", "__format__", "__sizeof__"]
  | .value .real =>
    ["conjugate", "__trunc__", "__floor__", "__ceil__", "__round__", "as_integer_ratio", "hex",
      "is_integer", "__getnewargs__", "__format__"]
  | .value .text =>
    ["encode", "replace", "split", "rsplit", "join", "capitalize", "casefold", "title", "center",
      "count", "expandtabs", "find", "partition", "index", "ljust", "lower", "lstrip", "rfind",
      "rindex", "rjust", "rstrip", "rpartition", "splitlines", "strip", "swapcase", "translate",
      "upper", "startswith", "endswith", "removeprefix", "removesuffix", "isascii", "islower",
      "isupper", "istitle", "isspace", "isdecimal", "isdigit", "isnumeric", "isalpha", "isalnum",
      "isidentifier", "isprintable", "zfill", "format", "format_map", "__format__", "__sizeof__",
      "__getnewargs__"]
  | .value .list =>
    ["__getitem__", "__reversed__", "__sizeof__", "clear", "copy", "append", "insert", "extend",
      "pop", "remove", "index", "count", "reverse", "sort"]
  | .value .mapping =>
    ["__getitem__", "__contains__", "__sizeof__", "get", "setdefault", "pop", "popitem", "keys",
      "items", "values", "update", "clear", "copy", "__reversed__"]
  | .sequence => ["__getnewargs__", "index", "count"]
  | .kind =>
    ["mro", "__subclasses__", "__instancecheck__", "__subclasscheck__", "__dir__", "__sizeof__"]
  | .operator | .method | .boundOperator | .boundMethod => ["__reduce__"]
  | _ => []

/-- The names of the quantities that the things of a kind have. -/
def quantities : Kind → List String
  | .value .int => ["real", "imag", "numerator", "denominator"]
  | .value .real => ["real", "imag"]
  | _ => []

/-- The names of the operations of the kind itself. -/
def shared : Kind → List String
  | .anything => ["__new__", "__subclasshook__", "__init_subclass__"]
  | .value .null => ["__new__"]
  | .value .bool => ["__new__"]
  | .value .int => ["__new__", "from_bytes"]
  | .value .real => ["__new__", "fromhex", "__getformat__"]
  | .value .text => ["__new__", "maketrans"]
  | .value .list => ["__new__", "__class_getitem__"]
  | .value .mapping => ["__new__", "fromkeys", "__class_getitem__"]
  | .sequence => ["__new__", "__class_getitem__"]
  | .kind => ["__new__", "__prepare__"]
  | _ => []

/-- The names under which a kind has nothing, although an ancestor has. -/
def withdrawn : Kind → List String
  | .value .list | .value .mapping => ["__hash__"]
  | _ => []

/-- What a kind itself has under a name. -/
def ownPart? (k : Kind) (name : String) : Option Part :=
  if k.operators.contains name then some .operator
  else if k.methods.contains name then some .method
  else if k.quantities.contains name then some .quantity
  else if k.shared.contains name then some .shared
  else if k.withdrawn.contains name then some .withdrawn
  else none

/-- What a kind has under a name, with the nearest kind in its ancestry that has it. -/
def part? (k : Kind) (name : String) : Option (Kind × Part) :=
  k.ancestry.findSome? fun owner => (owner.ownPart? name).map fun p => (owner, p)

end Kind

end TypePages.Template
