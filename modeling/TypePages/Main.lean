import TypePages.Run.Generate

/-!
The program.

The disk is read into a tree wherever a request can look, the run is a function on that tree, and
what it changed there is then written back.  Nothing is decided here.
-/

namespace TypePages

/-- The text of a place. -/
def Place.text (place : Place) : String := (Path.mk true place).text

namespace Disk

/-- What the disk has at a place, below which links are not followed. -/
partial def load (t : FileTree) (place : Place) : IO FileTree := do
  let p := (← IO.currentDir) / place.text
  if !(← p.pathExists) then return t
  if !(← p.isDir) then return .put (.file (← IO.FS.readBinFile p)) place t
  let t := if t.isFolder place then t else FileTree.put (.folder []) place t
  if (← p.symlinkMetadata).type == .symlink then return t
  (← p.readDir).foldlM (fun t e => load t (place ++ [e.fileName])) t

/-- The folders that lead to a place, and the file where a folder is missing. -/
def loadAbove (t : FileTree) (place : Place) : IO FileTree :=
  (List.range place.length).foldlM (fun t n => do
    let above : Place := place.take n
    let p := (← IO.currentDir) / above.text
    if t.isFolder above then return t
    else if ← p.isDir then return .put (.folder []) above t
    else if ← p.pathExists then return .put (.file .empty) above t
    else return t) t

/-- Writes the folders and files that a run made or changed. -/
def save (before after : FileTree) : IO Unit := do
  for place in after.placesBelow do
    match before.lookup? place, after.lookup? place with
    | none, some (.folder _) => IO.FS.createDirAll place.text
    | some (.file old), some (.file content) =>
      unless old == content do IO.FS.writeBinFile place.text content
    | _, some (.file content) => IO.FS.writeBinFile place.text content
    | _, _ => pure ()

end Disk

namespace Request

/-- The paths at which a run looks. -/
def paths (r : Request) : List Path :=
  r.metadata :: r.output.toList ++ (r.config.map Path.ofText).toList

/-- Does what is requested, and yields the exit status. -/
def run (r : Request) : IO UInt32 := do
  let current := (Path.ofText (← IO.currentDir).toString).names
  let places := r.paths.map (FileTree.place current)
  let above ← (current :: places).foldlM Disk.loadAbove (.folder [])
  let above := if above.isFolder current then above else FileTree.put (.folder []) current above
  let tree ← places.foldlM Disk.load above
  let (result, w) := (Run.generate r).run { current, tree }
  Disk.save tree w.tree
  (w.log r.verbose).forM IO.eprintln
  w.printed.forM IO.println
  match result with
  | .ok () => return 0
  | .error (.message text) => IO.eprintln text; return 1
  | .error (.fault f) => IO.eprintln f.message; return 1

end Request

namespace CommandLine

/-- How the program is called. -/
def usage : String :=
  "usage: typepages [-h] [--api-root ROOT] [--config FILE] [--include-member-details]\n"
    ++ "                 [--dry-run] [--verbose] METADATA OUTPUT"

end CommandLine

end TypePages

/-- Runs the program. -/
def main (args : List String) : IO UInt32 := do
  match TypePages.CommandLine.parse args with
  | .request r => r.run
  | .help => IO.println TypePages.CommandLine.usage; return 0
  | .misuse => IO.eprintln TypePages.CommandLine.usage; return 2
