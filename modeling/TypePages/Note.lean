import TypePages.Value.Display

/-!
What a run reports on the way.

A note is a finding that stops nothing: a reference that leads out of the model, a uid met twice,
the place from which a property is documented.  A log line tells how serious the note is, which part
of the program made it, and what was found.
-/

namespace TypePages

/-- A finding of a run. -/
inductive Note
  | duplicateUid (uid path : String)
  | indexed (elements files types : Nat)
  | overriddenMissing (uid method : String)
  | superclassMissing (uid type : String)
  | interfaceMissing (uid type : String)
  | unknownKind (uid kind : String)
  | bareProperty (uid : String)
  | propertySource (uid source : String)
  | nothingInherited (uid : String)
  deriving DecidableEq

/-- How serious a note is. -/
inductive Note.Level
  | debug
  | info
  | warning
  deriving DecidableEq

namespace Note

/-- The word for a level. -/
def Level.word : Level → String
  | .debug => "DEBUG"
  | .info => "INFO"
  | .warning => "WARNING"

/-- How serious the note is. -/
def level : Note → Level
  | .duplicateUid .. => .warning
  | .indexed .. => .info
  | _ => .debug

/-- The part of the program that makes the note. -/
def origin : Note → String
  | .duplicateUid .. => "member_summary.build_index"
  | .indexed .. => "member_summary.run_generation"
  | .overriddenMissing .. => "member_summary.metadata_index"
  | .superclassMissing .. | .interfaceMissing .. | .unknownKind .. | .bareProperty .. =>
    "member_summary.visible_member_table"
  | .propertySource .. => "member_summary.property_helper"
  | .nothingInherited .. => "member_summary.doc_finder"

/-- What was found. -/
def text : Note → String
  | .duplicateUid uid path => "Duplicate uid " ++ uid ++ " in " ++ path ++ "; keeping the last"
  | .indexed elements files types =>
    "Indexed " ++ toString elements ++ " elements from " ++ toString files ++ " files; "
      ++ toString types ++ " types documented"
  | .overriddenMissing uid method =>
    "Overridden method " ++ uid ++ " of " ++ method ++ " is not in the model"
  | .superclassMissing uid type => "Superclass " ++ uid ++ " of " ++ type ++ " is not in the model"
  | .interfaceMissing uid type => "Interface " ++ uid ++ " of " ++ type ++ " is not in the model"
  | .unknownKind uid kind => "Ignoring member " ++ uid ++ " of unknown kind " ++ quoted kind
  | .bareProperty uid => "Property " ++ uid ++ " has no field, getter or setter"
  | .propertySource uid source => "Property " ++ uid ++ " documented from " ++ source
  | .nothingInherited uid => "No inherited documentation for " ++ uid

/-- The note as a line of the log. -/
def line (n : Note) : String := n.level.word ++ " " ++ n.origin ++ ": " ++ n.text

/-- Whether the note is shown. -/
def isShown (verbose : Bool) (n : Note) : Bool := verbose || n.level != .debug

end Note

end TypePages
