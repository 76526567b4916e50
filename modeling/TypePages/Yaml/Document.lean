import TypePages.Text.Chars
import TypePages.Value.Read
import TypePages.Yaml.Node

/-!
Metadata documents.

A metadata file may open with a header line that names its type.  The line is no part of the
document; when it is dropped, the rest is written anew line by line, and empty lines at its start
are dropped as well.
-/

namespace TypePages.Yaml

/-- The start of a header line. -/
def headerStart : List Char := "### YamlMime:".toList

/-- A text without its header line. -/
def stripHeaderChars (cs : List Char) : List Char :=
  match Chars.lines cs with
  | first :: rest =>
    if (Chars.afterStart? headerStart first).isSome then
      (['\n'].intercalate rest).dropWhile (· == '\n')
    else cs
  | [] => cs

/-- A text without its header line. -/
def stripHeader (text : String) : String := .ofList (stripHeaderChars text.toList)

/-- The metadata document of a file's text; one that gives nothing is an empty mapping. -/
def document (text : String) : Except Fault Value := do
  return (← load (stripHeader text)).orElse (.mapping [])

end TypePages.Yaml
