import TypePages.Message.Kind
import TypePages.Value.Display

/-!
The causes for which a request is refused.

Documents and configurations come without a schema, so most causes name the form of a value that was
met where another was needed.  The wording of each cause is given once, in `Fault.message`.
-/

namespace TypePages

/-- The two ends of a text at which a prefix or suffix of a naming rule is looked for. -/
inductive Affix
  | start
  | ending
  deriving DecidableEq

/-- The word by which messages call the look-up of an affix. -/
def Affix.name : Affix → String
  | .start => "startswith"
  | .ending => "endswith"

/-- Why the file tree refuses a request. -/
inductive FileFault
  | notFound
  | notFolder
  | isFolder
  | alreadyThere
  /-- A name or a whole path is too long. -/
  | nameTooLong
  /-- A name has the zero byte, which ends a path. -/
  | zeroByte
  /-- A path needs more new folders than are made at once. -/
  | tooManyFolders
  deriving DecidableEq

/-- Why a message template has no text for its arguments. -/
inductive TemplateFault
  /-- A brace that closes or opens nothing. -/
  | loneBrace (brace : Char)
  /-- A field that the template ends before closing. -/
  | unclosedField
  | braceInFieldName
  | unclosedSpec
  | noConversion
  | colonExpected
  | unknownConversion (c : Char)
  | bracketUnclosed
  | emptyAttribute
  | junkAfterBracket
  | manualAfterAutomatic
  | automaticAfterManual
  | tooManyDigits
  | tooDeep
  | argumentOutOfRange (position : Nat)
  | characterOutOfRange
  | itemOutOfRange
  | missingPrecision
  | invalidSpec (spec : String) (form : Value.Form)
  | unknownCode (code : Char) (form : Value.Form)
  | bothSeparators
  | separatorNotAllowed (separator code : Char)
  | signNotAllowed
  | spaceNotAllowed
  | zeroCoercionNotAllowed (ofText : Bool)
  | alternateNotAllowed
  | alignNotAllowed
  | precisionNotAllowed
  | signWithCharacter
  | alternateWithCharacter
  | precisionTooBig
  /-- The integer is no code point. -/
  | codeOutOfRange
  /-- The integer does not even fit a machine word. -/
  | codeTooWide
  /-- The integer is too large for a floating-point number. -/
  | integerTooLarge
  | noSpecAllowed (k : Template.Kind)
  /-- A thing has nothing under the name. -/
  | noPart (k : Template.Kind) (name : String)
  /-- A kind has nothing under the name. -/
  | noPartOfKind (k : Template.Kind) (name : String)
  /-- A kind has a place for something under the name, and the place is empty. -/
  | emptyPart (name : String)
  /-- A thing of the kind has no items. -/
  | noItems (k : Template.Kind)
  /-- The kind cannot be narrowed by an argument. -/
  | notApplicable (k : Template.Kind)
  /-- The kind of that text has its argument already. -/
  | alreadyApplied (text : String)
  | kindOutOfRange
  /-- A sequence of kinds was looked up by a name instead of a position. -/
  | namedKind
  deriving DecidableEq

/-- Why a request is refused. -/
inductive Fault
  /-- The value cannot be gone through item by item. -/
  | notIterable (form : Value.Form)
  /-- The value has no operation or field of that name. -/
  | noAttribute (form : Value.Form) (name : String)
  /-- The value has no entries to look up. -/
  | notSubscriptable (form : Value.Form)
  /-- A text was looked up by a name instead of a position. -/
  | namedCharacter
  /-- A list was looked up by a name instead of a position. -/
  | namedItem
  /-- The value has no entries to write. -/
  | notAssignable (form : Value.Form)
  /-- A collection stands where only scalars can be told apart. -/
  | unhashable (form : Value.Form)
  /-- The value has no length. -/
  | noLength (form : Value.Form)
  /-- The parts to be joined are no collection. -/
  | notJoinable
  /-- A part to be joined is no text. -/
  | partNotText (position : Nat) (form : Value.Form)
  /-- A prefix or suffix is no text. -/
  | affixNotText (affix : Affix) (form : Value.Form)
  /-- A name cannot be put after the value. -/
  | notAddable (form : Value.Form)
  /-- A mapping has no entry under the key. -/
  | missingKey (key : Scalar)
  /-- A method that should take a value has no parameter. -/
  | noParameter
  | template (fault : TemplateFault)
  /-- A numeral that announces a base has no digits. -/
  | emptyNumeral (base : Nat)
  /-- A decimal numeral has too many digits to be read. -/
  | numeralTooLong (digits : Nat)
  /-- An integer has too many decimal digits to be written. -/
  | integerTooLong
  /-- A quantity in base sixty is too large for a floating-point number. -/
  | quantityTooLarge
  /-- The text is no document. -/
  | malformed
  /-- The bytes are no text. -/
  | undecodable
  | file (fault : FileFault)
  deriving DecidableEq

/-- A character as messages show it: itself from `!` up to the given limit, else its code point. -/
def shownBelow (limit : Nat) (c : Char) : String :=
  .ofList (if 32 < c.toNat ∧ c.toNat < limit then [c] else '\\' :: 'x' :: Nat.toDigits 16 c.toNat)

/-- A conversion as messages show it. -/
def shownConversion (c : Char) : String := shownBelow 127 c

/-- The code of a layout as messages show it. -/
def shownCode (c : Char) : String := shownBelow 128 c

/-- The wording of a template fault. -/
def TemplateFault.message : TemplateFault → String
  | .loneBrace brace => "Single '" ++ .ofList [brace] ++ "' encountered in format string"
  | .unclosedField => "expected '\x7d' before end of string"
  | .braceInFieldName => "unexpected '\x7b' in field name"
  | .unclosedSpec => "unmatched '\x7b' in format spec"
  | .noConversion => "end of string while looking for conversion specifier"
  | .colonExpected => "expected ':' after conversion specifier"
  | .unknownConversion c => "Unknown conversion specifier " ++ shownConversion c
  | .bracketUnclosed => "Missing ']' in format string"
  | .emptyAttribute => "Empty attribute in format string"
  | .junkAfterBracket => "Only '.' or '[' may follow ']' in format field specifier"
  | .manualAfterAutomatic =>
    "cannot switch from automatic field numbering to manual field specification"
  | .automaticAfterManual =>
    "cannot switch from manual field specification to automatic field numbering"
  | .tooManyDigits => "Too many decimal digits in format string"
  | .tooDeep => "Max string recursion exceeded"
  | .argumentOutOfRange position =>
    "Replacement index " ++ toString position ++ " out of range for positional args tuple"
  | .characterOutOfRange => "string index out of range"
  | .itemOutOfRange => "list index out of range"
  | .missingPrecision => "Format specifier missing precision"
  | .invalidSpec spec form =>
    "Invalid format specifier '" ++ spec ++ "' for object of type '" ++ form.name ++ "'"
  | .unknownCode code form =>
    "Unknown format code '" ++ shownCode code ++ "' for object of type '" ++ form.name ++ "'"
  | .bothSeparators => "Cannot specify both ',' and '_'."
  | .separatorNotAllowed separator code =>
    "Cannot specify '" ++ .ofList [separator] ++ "' with '" ++ shownCode code ++ "'."
  | .signNotAllowed => "Sign not allowed in string format specifier"
  | .spaceNotAllowed => "Space not allowed in string format specifier"
  | .zeroCoercionNotAllowed ofText =>
    "Negative zero coercion (z) not allowed in " ++ (if ofText then "string" else "integer")
      ++ " format specifier"
  | .alternateNotAllowed => "Alternate form (#) not allowed in string format specifier"
  | .alignNotAllowed => "'=' alignment not allowed in string format specifier"
  | .precisionNotAllowed => "Precision not allowed in integer format specifier"
  | .signWithCharacter => "Sign not allowed with integer format specifier 'c'"
  | .alternateWithCharacter => "Alternate form (#) not allowed with integer format specifier 'c'"
  | .precisionTooBig => "precision too big"
  | .codeOutOfRange => "%c arg not in range(0x110000)"
  | .codeTooWide => "Python int too large to convert to C long"
  | .integerTooLarge => "int too large to convert to float"
  | .noSpecAllowed k => "unsupported format string passed to " ++ k.title ++ ".__format__"
  | .noPart k name => "'" ++ k.title ++ "' object has no attribute '" ++ name ++ "'"
  | .noPartOfKind k name => "type object '" ++ k.title ++ "' has no attribute '" ++ name ++ "'"
  | .emptyPart name => name
  | .noItems k => "'" ++ k.title ++ "' object is not subscriptable"
  | .notApplicable k => "type '" ++ k.title ++ "' is not subscriptable"
  | .alreadyApplied text => text ++ " is not a generic class"
  | .kindOutOfRange => "tuple index out of range"
  | .namedKind => "tuple indices must be integers or slices, not str"

/-- The wording of a file fault. -/
def FileFault.message : FileFault → String
  | .notFound => "No such file or directory"
  | .notFolder => "Not a directory"
  | .isFolder => "Is a directory"
  | .alreadyThere => "File exists"
  | .nameTooLong => "File name too long"
  | .zeroByte => "embedded null byte"
  | .tooManyFolders => "maximum recursion depth exceeded while calling a Python object"

/-- The wording of a fault. -/
def Fault.message : Fault → String
  | .notIterable form => "'" ++ form.name ++ "' object is not iterable"
  | .noAttribute form name => "'" ++ form.name ++ "' object has no attribute '" ++ name ++ "'"
  | .notSubscriptable form => "'" ++ form.name ++ "' object is not subscriptable"
  | .namedCharacter => "string indices must be integers, not 'str'"
  | .namedItem => "list indices must be integers or slices, not str"
  | .notAssignable form => "'" ++ form.name ++ "' object does not support item assignment"
  | .unhashable form => "unhashable type: '" ++ form.name ++ "'"
  | .noLength form => "object of type '" ++ form.name ++ "' has no len()"
  | .notJoinable => "can only join an iterable"
  | .partNotText position form =>
    "sequence item " ++ toString position ++ ": expected str instance, " ++ form.name ++ " found"
  | .affixNotText affix form =>
    affix.name ++ " first arg must be str or a tuple of str, not " ++ form.name
  | .notAddable .list => "can only concatenate list (not \"str\") to list"
  | .notAddable form => "unsupported operand type(s) for +: '" ++ form.name ++ "' and 'str'"
  | .missingKey key => key.shown
  | .noParameter => "list index out of range"
  | .template fault => fault.message
  | .emptyNumeral base => "invalid literal for int() with base " ++ toString base ++ ": ''"
  | .numeralTooLong digits =>
    tooManyDigits ++ ": value has " ++ toString digits ++ " digits" ++ remedy
  | .integerTooLong => tooManyDigits ++ remedy
  | .quantityTooLarge => TemplateFault.integerTooLarge.message
  | .malformed => "malformed document"
  | .undecodable => "undecodable text"
  | .file fault => fault.message
where
  /-- How messages on long integers start. -/
  tooManyDigits : String :=
    "Exceeds the limit (" ++ toString digitLimit ++ " digits) for integer string conversion"
  /-- How messages on long integers end. -/
  remedy : String := "; use sys.set_int_max_str_digits() to increase the limit"

/-- The fault of looking up a name in a value of that form. -/
def Fault.ofNamedLookup : Value.Form → Fault
  | .text => .namedCharacter
  | .list => .namedItem
  | form => .notSubscriptable form

end TypePages
