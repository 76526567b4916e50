import TypePages.Message.Kind

/-!
What the kinds say of themselves.

A kind that values are of, and each kind above it, has a description, and some have a signature, the
parameters by which a thing of the kind is made.  They also tell how much room their things take.
-/

namespace TypePages.Template.Kind

/-- Lines of a description as one text. -/
def lines (ls : List String) : String := "\n".intercalate ls

/-- The description of a kind. -/
def description? : Kind → Option String
  | .anything => some <| lines
    ["The base class of the class hierarchy.",
      "",
      "When called, it accepts no arguments and returns a new featureless",
      "instance that has no instance attributes and cannot be given any.",
      ""]
  | .value .bool => some <| lines
    ["bool(x) -> bool",
      "",
      "Returns True when the argument x is true, False otherwise.",
      "The builtins True and False are the only two instances of the class bool.",
      "The class bool is a subclass of the class int, and cannot be subclassed."]
  | .value .int => some <| lines
    ["int([x]) -> integer",
      "int(x, base=10) -> integer",
      "",
      "Convert a number or string to an integer, or return 0 if no arguments",
      "are given.  If x is a number, return x.__int__().  For floating point",
      "numbers, this truncates towards zero.",
      "",
      "If x is not a number or if base is given, then x must be a string,",
      "bytes, or bytearray instance representing an integer literal in the",
      "given base.  The literal can be preceded by '+' or '-' and be surrounded",
      "by whitespace.  The base defaults to 10.  Valid bases are 0 and 2-36.",
      "Base 0 means to interpret the base from the string as an integer literal.",
      ">>> int('0b100', base=0)",
      "4"]
  | .value .real => some <| lines
    ["Convert a string or number to a floating point number, if possible."]
  | .value .text => some <| lines
    ["str(object='') -> str",
      "str(bytes_or_buffer[, encoding[, errors]]) -> str",
      "",
      "Create a new string object from the given object. If encoding or",
      "errors is specified, then the object must expose a data buffer",
      "that will be decoded using the given encoding and error handler.",
      "Otherwise, returns the result of object.__str__() (if defined)",
      "or repr(object).",
      "encoding defaults to sys.getdefaultencoding().",
      "errors defaults to 'strict'."]
  | .value .list => some <| lines
    ["Built-in mutable sequence.",
      "",
      "If no argument is given, the constructor creates a new empty list.",
      "The argument must be an iterable if specified."]
  | .value .mapping => some <| lines
    ["dict() -> new empty dictionary",
      "dict(mapping) -> new dictionary initialized from a mapping object's",
      "    (key, value) pairs",
      "dict(iterable) -> new dictionary initialized as if via:",
      "    d = \x7b\x7d",
      "    for k, v in iterable:",
      "        d[k] = v",
      "dict(**kwargs) -> new dictionary initialized with the name=value pairs",
      "    in the keyword argument list.  For example:  dict(one=1, two=2)"]
  | .sequence => some <| lines
    ["Built-in immutable sequence.",
      "",
      "If no argument is given, the constructor returns an empty tuple.",
      "If iterable is specified the tuple is initialized from iterable's items.",
      "",
      "If the argument is a tuple, the return value is the same object."]
  | .kind => some <| lines
    ["type(object) -> the object's type",
      "type(name, bases, dict, **kwds) -> a new type"]
  | _ => none

/-- The signature of a kind. -/
def signature? : Kind → Option String
  | .anything => some "()"
  | .value .real => some "(x=0, /)"
  | .value .list | .sequence => some "(iterable=(), /)"
  | _ => none

/-- The names of the measures of a kind. -/
def measureNames : List String :=
  ["__basicsize__", "__itemsize__", "__dictoffset__", "__weakrefoffset__", "__flags__"]

/-- The measures of a kind, in the order of their names. -/
def measures : Kind → List Int
  | .anything => [16, 0, 0, 0, 529664]
  | .value .null => [16, 0, 0, 0, 528640]
  | .value .bool => [32, 4, 0, 0, 21500160]
  | .value .int => [24, 4, 0, 0, 21501184]
  | .value .real => [24, 0, 0, 0, 4723968]
  | .value .text => [80, 0, 0, 0, 273159424]
  | .value .list => [40, 0, 0, 0, 38294816]
  | .value .mapping => [48, 0, 0, 0, 541611328]
  | .sequence => [24, 8, 0, 0, 71849248]
  | .kind => [904, 40, 264, 368, 2148031744]
  | _ => []

/-- The measure of a kind under a name. -/
def measure? (k : Kind) (name : String) : Option Int := (measureNames.zip k.measures).lookup name

end TypePages.Template.Kind
