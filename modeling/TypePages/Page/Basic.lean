import TypePages.Member.Trace
import TypePages.Page.Details

/-!
The page of a type.

A page opens with its metadata, the name of the type, its package and its direct supertypes, and the
description from the type's comment.  The summary of its members follows, and their details if they
are asked for.
-/

namespace TypePages.Page

/-- What is asked of a page. -/
structure Options where
  /-- Whether the details of the members are shown. -/
  details : Bool := false
  /-- The path that the page is known by. -/
  canonicalPath : Option String := none

/-- The settings of a configuration that pages depend on. -/
structure Settings where
  messages : Value
  rules : Table.Rules

/-- Whether property methods are told apart. -/
def propertiesEnabled (config : Value) : Except Fault Bool := do
  return (← (← config.entry "properties").entry "enabled").isGiven

/-- The settings of a configuration. -/
def Settings.ofConfig (config : Value) : Except Fault Settings := do
  let messages ← config.entry "messages"
  let naming ← Naming.ofConfig config
  let properties ← propertiesEnabled config
  return { messages, rules := { naming, properties } }

/-- The metadata of a page and its heading. -/
def opening (e : Element) (canonicalPath : Option String) : List String :=
  let path := match canonicalPath with
    | some path => if path = "" then [] else ["canonical_path: " ++ path]
    | none => []
  let heading := "# " ++ Text.capitalize e.kind.name ++ " " ++ e.name
  ["---", "uid: " ++ e.uid] ++ path ++ ["---", "", heading, ""]
    ++ if e.package = "" then [] else ["**Package:** " ++ e.package, ""]

/-- The lines on the direct supertypes of a type. -/
def hierarchy (m : Model) (targets : Targets) (e : Element) : List String :=
  let superclass := e.superclass.toList.map fun uid =>
    "**Extends:** " ++ Builder.typeLink m targets uid
  let interfaces := if e.interfaces.isEmpty then []
    else ["**Implements:** " ++ Text.join ", " (e.interfaces.map (Builder.typeLink m targets))]
  match superclass ++ interfaces with
  | [] => []
  | lines => lines ++ [""]

/-- The lines of a page before the summary. -/
def introduction (b : Builder) (o : Overlay) (canonicalPath : Option String) : List String :=
  let description := Inline.markdown b.model b.targets (some b.owner) (o.body b.owner)
  opening b.owner canonicalPath ++ hierarchy b.model b.targets b.owner
    ++ if description = "" then [] else [description, ""]

/-- Writes the summary of the members, and their details if they are asked for. -/
def writeMembers (b : Builder) (details : Bool) : Work Unit := do
  if b.hasMembers then
    discard b.build
    if details then modify fun d => { d with tree := d.tree ++ b.details d.overlay }

/-- Writes a page. -/
def write (b : Builder) (options : Options) : Work Unit := do
  modify fun d => { d with tree := d.tree ++ introduction b d.overlay options.canonicalPath }
  writeMembers b options.details

/-- The text of lines as a file. -/
def text (lines : List String) : String := Text.trimEnd (Text.join "\n" lines) ++ "\n"

/-- A page, and what its writing reports. -/
def render (config : Value) (m : Model) (targets : Targets) (e : Element) (options : Options) :
    Except Fault String × List Note :=
  match Settings.ofConfig config with
  | .error fault => (.error fault, [])
  | .ok settings =>
    let reading := Table.notes settings.rules m e
    match Builder.ofType m targets settings.messages settings.rules e with
    | .error fault => (.error fault, reading)
    | .ok b =>
      let (result, draft) := (write b options).run {}
      (result.map fun _ => text draft.tree, reading ++ Sources.notes b.table ++ draft.notes)

end TypePages.Page
