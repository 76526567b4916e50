import TypePages.Config.Basic
import TypePages.Page.Basic
import TypePages.Run.CommandLine
import TypePages.Yaml.Document

/-!
A run: reading the metadata, and writing a page for every documented type.

All metadata files below a folder are read in the order of their paths.  A run that finds none stops
with a message; one that meets a fault stops there, and what it has printed, noted and written
stays.
-/

namespace TypePages

/-- What a run sees and leaves behind. -/
structure Run.State where
  /-- The current folder. -/
  current : Place
  tree : FileTree
  /-- The lines printed. -/
  printed : List String := []
  notes : List Note := []

/-- Why a run ends early. -/
inductive Stop
  /-- There is nothing to do, as the message says. -/
  | message (text : String)
  | fault (f : Fault)

/-- A step of a run. -/
abbrev Run := ExceptT Stop (StateM Run.State)

namespace Run

/-- A computation that changes nothing, as a step. -/
def of {α : Type} (r : Except Fault α) : Run α := ExceptT.mk (pure (r.mapError .fault))

/-- A request to the file tree, as a step. -/
def ofFile {α : Type} (r : Except FileFault α) : Run α := of (r.mapError .file)

/-- Prints a line. -/
def print (line : String) : Run Unit := modify fun w => { w with printed := w.printed ++ [line] }

/-- Makes notes. -/
def report (notes : List Note) : Run Unit := modify fun w => { w with notes := w.notes ++ notes }

/-- The text of a file. -/
def readText (p : Path) : Run String := do
  let w ← get
  of (decodeText (← ofFile (w.tree.read w.current p)))

/-! ### Reading -/

/-- The ending of metadata files. -/
def metadataEnding : String := ".yml"

/-- The metadata files below a folder; there has to be one. -/
def metadataFiles (folder : Path) : Run (List Path) := do
  let w ← get
  match ← ofFile (w.tree.find w.current folder metadataEnding) with
  | [] => throw (.message ("No .yml files found under: " ++ folder.text))
  | found => return found.map folder.below

/-- The configuration of a file, or the default one where there is no such file. -/
def configuration (path : Option String) : Run Value := do
  match path with
  | none | some "" => return Config.default
  | some path =>
    let p := Path.ofText path
    let w ← get
    match ← ofFile (w.tree.search w.current p) with
    | some _ => of (Config.ofText (← readText p))
    | none => return Config.default

/-- The configuration of a run. -/
def requestedConfiguration (r : Request) : Run Value := do
  let config ← configuration r.config
  match r.pageRoot with
  | none | some "" => return config
  | some root => of (Config.withPageRoot config root)

/-- The catalog with the element of an item written. -/
def addItem (p : Path) (c : Catalog) (item : Value) : Run Catalog := do
  let e ← of (Element.ofValue item)
  if c.contains e.uid then report [.duplicateUid e.uid p.text]
  return c.insert e

/-- The catalog with the items of a file written. -/
def addFile (c : Catalog) (p : Path) : Run Catalog := do
  let doc ← of (Yaml.document (← readText p))
  (← of (Catalog.itemsOf doc)).foldlM (addItem p) c

/-- The elements of the metadata files. -/
def catalog (files : List Path) : Run Catalog := do
  return (← files.foldlM addFile .empty).granted

/-! ### Writing -/

/-- The path of a type's page. -/
def pagePath (config : Value) (targets : Targets) (e : Element) : Except Fault String :=
  match targets.find? e.uid with
  | some t => .ok t.page
  | none => do PagePath.ofSetting (← Config.pageRoot config) e.fullName e.package

/-- The file of a page below a folder. -/
def pageFile (folder : Path) (path : String) : Path :=
  folder.below (Path.ofText (PagePath.file path)).names

/-- Makes the folders of a path. -/
def makeFolders (p : Path) : Run Unit := do
  let w ← get
  let (made, tree) := w.tree.makeFolders w.current p
  set { w with tree }
  ofFile made

/-- Makes the folder of a page's file, and yields the file. -/
def preparePage (folder : Path) (path : String) : Run Path := do
  let p := pageFile folder path
  makeFolders p.parent
  return p

/-- Writes the page of a type. -/
def writePage (r : Request) (config : Value) (m : Model) (targets : Targets) (folder : Path)
    (e : Element) : Run Unit := do
  let path ← of (pagePath config targets e)
  let options : Page.Options := { details := r.details, canonicalPath := some path }
  let (page, notes) := Page.render config m targets e options
  report notes
  let text ← of page
  let p ← preparePage folder path
  let w ← get
  let tree ← ofFile (w.tree.write w.current p text.toUTF8)
  set { w with tree }

/-- The number of pages between two lines on progress. -/
def progressStep : Nat := 50

/-- Writes the pages of types, after a number of others. -/
def writePages (write : Element → Run Unit) (total : Nat) : Nat → List Element → Run Unit
  | _, [] => return
  | done, e :: es => do
    write e
    if (done + 1) % progressStep = 0 then
      print ("  ... wrote " ++ toString (done + 1) ++ "/" ++ toString total ++ " types")
    writePages write total (done + 1) es

/-- The requested folder, seen from the root. -/
def outputFolder (r : Request) : Run Path := do
  match r.output with
  | none => of (.error (.noAttribute .list "resolve"))
  | some p =>
    if p.hasZeroByte then ofFile (.error .zeroByte)
    return { isAbsolute := true, names := FileTree.place (← get).current p }

/-- Writes all pages into the requested folder. -/
def writeAll (r : Request) (config : Value) (m : Model) (targets : Targets)
    (types : List Element) : Run Unit := do
  let folder ← outputFolder r
  makeFolders folder
  let count := toString types.length
  print ("Writing " ++ count ++ " type pages...")
  writePages (writePage r config m targets folder) types.length 0 types
  print ("Generated " ++ count ++ " Markdown pages into: " ++ folder.text)

/-! ### The run -/

/-- Does what is requested. -/
def generate (r : Request) : Run Unit := do
  let files ← metadataFiles r.metadata
  let config ← requestedConfiguration r
  let catalog ← catalog files
  let m ← of (do Model.ofCatalog catalog (← config.entry "visibility"))
  let targets ← of (do Targets.ofModel m (← Config.pageRoot config))
  let types ← of m.documentedTypes
  report [.indexed m.elements.length files.length types.length]
  if r.dryRun then print "Dry run complete. No pages written."
  else writeAll r config m targets types

end Run

/-- The log of a run. -/
def Run.State.log (w : Run.State) (verbose : Bool) : List String :=
  (w.notes.filter (·.isShown verbose)).map (·.line)

end TypePages
