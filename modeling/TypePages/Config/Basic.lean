import TypePages.Config.Merge
import TypePages.Value.Read
import TypePages.Yaml.Node

/-!
The configuration.

A configuration is a value, laid over the defaults.  It is kept as a value, because a setting that
makes no sense is refused only where it is used.
-/

namespace TypePages.Config

/-- A mapping from names. -/
def named (entries : List (String × Value)) : Value :=
  .mapping (entries.map fun (k, v) => (.text k, v))

/-- The default messages. -/
def defaultMessages : List (String × String) :=
  [("property_getter_with_name", "Gets the value of the property \x7b0\x7d."),
    ("property_setter_with_name", "Sets the value of the property \x7b0\x7d."),
    ("nested_types_summary", "Nested Class Summary"),
    ("enum_constants_summary", "Enum Constant Summary"),
    ("fields_summary", "Field Summary"),
    ("properties_summary", "Property Summary"),
    ("constructors_summary", "Constructor Summary"),
    ("methods_summary", "Method Summary"),
    ("annotation_fields_summary", "Field Summary"),
    ("annotation_required_elements_summary", "Required Element Summary"),
    ("annotation_optional_elements_summary", "Optional Element Summary"),
    ("nested_types_inherited_from",
      "Nested classes/interfaces inherited from \x7b0\x7d \x7b1\x7d"),
    ("fields_inherited_from", "Fields inherited from \x7b0\x7d \x7b1\x7d"),
    ("properties_inherited_from", "Properties inherited from \x7b0\x7d \x7b1\x7d"),
    ("methods_inherited_from", "Methods inherited from \x7b0\x7d \x7b1\x7d")]

/-- The default configuration. -/
def default : Value :=
  named [
    ("visibility", named [("min_access", .text "protected"), ("linkable_external", .list [])]),
    ("properties", named [("enabled", .bool true)]),
    ("naming", named [
      ("getter_prefixes", .texts ["get", "is"]),
      ("setter_prefixes", .texts ["set"]),
      ("property_suffix", .text "Property")]),
    ("messages", named (defaultMessages.map fun (k, s) => (k, .text s))),
    ("output", named [("api_root", .text "/api")])]

/-- The configuration of a file's text. -/
def ofText (text : String) : Except Fault Value := do
  merge default ((← Yaml.load text).orElse (.mapping []))

/-- The root of all pages. -/
def pageRoot (config : Value) : Except Fault Value := do (← config.entry "output").entry "api_root"

/-- The configuration with another root of all pages. -/
def withPageRoot (config : Value) (root : String) : Except Fault Value := do
  match config, ← config.entry "output" with
  | .mapping entries, .mapping output =>
    let output := putEntry (.text "api_root") (.text root) output
    return .mapping (putEntry (.text "output") (.mapping output) entries)
  | _, .list _ => .error .namedItem
  | _, v => .error (.notAssignable v.form)

end TypePages.Config
