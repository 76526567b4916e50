import TypePages.Fault
import TypePages.Text.Basic

/-!
Files and folders.

A run reads and writes a tree of files that is a value, so what it does to the disk is a function of
what was there.  A place is a list of names from the root.  A path is what the user writes: names
that start at the root or at the current folder, in which two dots lead back to the folder above.
A path is followed name by name, and the first name that cannot be followed decides how it fails.
-/

namespace TypePages

/-- A path as the user writes it. -/
structure Path where
  isAbsolute : Bool := false
  names : List String
  deriving DecidableEq

namespace Path

/-- The path of a text: empty names and single dots lead nowhere. -/
def ofText (s : String) : Path where
  isAbsolute := s.toList.head? == some '/'
  names := (Text.splitAt '/' s).filter fun n => n != "" && n != "."

/-- The text of a path; that of the current folder is a dot. -/
def text (p : Path) : String :=
  if p.isAbsolute then "/" ++ Text.join "/" p.names
  else if p.names.isEmpty then "."
  else Text.join "/" p.names

/-- A path below another one. -/
def below (p : Path) (names : List String) : Path := { p with names := p.names ++ names }

/-- The folder that a path lies in. -/
def parent (p : Path) : Path := { p with names := p.names.dropLast }

/-- Whether a name has the zero byte, which ends a path. -/
def hasZeroByte (p : Path) : Bool := p.names.any (·.toList.contains '\x00')

/-- The longest path, in bytes. -/
def limit : Nat := 4095

/-- Refuses paths that no file can have. -/
def check (p : Path) : Except FileFault Unit :=
  if p.hasZeroByte then .error .zeroByte
  else if limit < p.text.utf8ByteSize then .error .nameTooLong
  else .ok ()

end Path

/-- The names that lead from the root to a file or folder. -/
abbrev Place := List String

/-- A file, or a folder with what is in it. -/
inductive FileTree
  | file (content : ByteArray)
  | folder (entries : List (String × FileTree))

namespace FileTree

/-- What is in a folder under a name. -/
def child? (name : String) : FileTree → Option FileTree
  | .file _ => none
  | .folder entries => entries.lookup name

/-- What is at a place. -/
def lookup? (t : FileTree) : Place → Option FileTree
  | [] => some t
  | name :: names =>
    match t.child? name with
    | some c => c.lookup? names
    | none => none

/-- Whether there is a folder at a place. -/
def isFolder (t : FileTree) (place : Place) : Bool :=
  match t.lookup? place with
  | some (.folder _) => true
  | _ => false

/-- Entries with one written: in place of the one with its name, else at the end. -/
def putName (name : String) (c : FileTree) : List (String × FileTree) → List (String × FileTree)
  | [] => [(name, c)]
  | (n, d) :: rest => if n = name then (n, c) :: rest else (n, d) :: putName name c rest

/-- The tree with something written at a place.  Folders that are missing on the way are made, and
below a file nothing is written. -/
def put (c : FileTree) : Place → FileTree → FileTree
  | [], _ => c
  | name :: names, .folder entries =>
    .folder (putName name (put c names ((entries.lookup name).getD (.folder []))) entries)
  | _ :: _, .file content => .file content

mutual

/-- The files of a tree by their places. -/
def files : FileTree → List (Place × ByteArray)
  | .file content => [([], content)]
  | .folder entries => filesOfEntries entries

/-- The files of a folder's entries by their places. -/
def filesOfEntries : List (String × FileTree) → List (Place × ByteArray)
  | [] => []
  | (name, c) :: rest => c.files.map (fun (p, b) => (name :: p, b)) ++ filesOfEntries rest

end

mutual

/-- The places below a folder at which there is something. -/
def placesBelow : FileTree → List Place
  | .file _ => []
  | .folder entries => placesOfEntries entries

/-- The places of a folder's entries and below them. -/
def placesOfEntries : List (String × FileTree) → List Place
  | [] => []
  | (name, c) :: rest => [name] :: c.placesBelow.map (name :: ·) ++ placesOfEntries rest

end

/-! ### Following paths -/

/-- The longest name, in bytes. -/
def nameLimit : Nat := 255

/-- Whether a name is too long for a file or folder. -/
def isTooLong (name : String) : Bool := nameLimit < name.utf8ByteSize

/-- The place that names lead to from a folder.  All names but the last have to lead to folders. -/
def walk (t : FileTree) (place : Place) : List String → Except FileFault Place
  | [] => .ok place
  | name :: names =>
    if name = ".." then walk t place.dropLast names
    else if isTooLong name then .error .nameTooLong
    else if names.isEmpty then .ok (place ++ [name])
    else match t.lookup? (place ++ [name]) with
      | some (.folder _) => walk t (place ++ [name]) names
      | some (.file _) => .error .notFolder
      | none => .error .notFound

/-- The place at which a path starts, seen from the current folder. -/
def start (current : Place) (p : Path) : Place := if p.isAbsolute then [] else current

/-- The place of a path, seen from the current folder. -/
def locate (t : FileTree) (current : Place) (p : Path) : Except FileFault Place := do
  p.check
  walk t (start current p) p.names

/-- What a path leads to, if anything; only a path that is too long is refused. -/
def search (t : FileTree) (current : Place) (p : Path) : Except FileFault (Option FileTree) :=
  match t.locate current p with
  | .ok place => .ok (t.lookup? place)
  | .error .nameTooLong => .error .nameTooLong
  | .error _ => .ok none

/-- The place of a path, whether its folders are there or not. -/
def place (current : Place) (p : Path) : Place :=
  p.names.foldl (fun place name => if name = ".." then place.dropLast else place ++ [name])
    (start current p)

/-! ### Reading and writing -/

/-- The content of a file. -/
def read (t : FileTree) (current : Place) (p : Path) : Except FileFault ByteArray := do
  match t.lookup? (← t.locate current p) with
  | some (.file content) => return content
  | some (.folder _) => .error .isFolder
  | none => .error .notFound

/-- The names below a folder that lead to files and folders with the given ending, in order. -/
def find (t : FileTree) (current : Place) (p : Path) (ending : String) :
    Except FileFault (List Place) := do
  let below := ((← t.search current p).map placesBelow).getD []
  let named := below.filter fun names => (Text.beforeEnd? ending (names.getLastD "")).isSome
  return named.mergeSort fun a b => (compare a b).isLE

/-- The greatest number of folders that are made for one path. -/
def makingLimit : Nat := 980

/-- Makes the folders that names lead through from a place.  Once one had to be made, a file in the
way counts as something that is already there; before, it counts as no folder.  The folders made
before a refusal stay. -/
def makeFrom (t : FileTree) (place : Place) (making : Bool) :
    List String → Except FileFault Unit × FileTree
  | [] => (.ok (), t)
  | name :: names =>
    if name = ".." then makeFrom t place.dropLast making names
    else if isTooLong name then (.error .nameTooLong, t)
    else
      let next := place ++ [name]
      match t.lookup? next with
      | some (.folder _) => makeFrom t next making names
      | some (.file _) =>
        (.error (if making || names.isEmpty then .alreadyThere else .notFolder), t)
      | none =>
        if !making && makingLimit ≤ names.length then (.error .tooManyFolders, t)
        else makeFrom (put (.folder []) next t) next true names

/-- Makes all folders of a path. -/
def makeFolders (t : FileTree) (current : Place) (p : Path) : Except FileFault Unit × FileTree :=
  match p.check with
  | .error fault => (.error fault, t)
  | .ok () => makeFrom t (start current p) false p.names

/-- The tree with a file written. -/
def write (t : FileTree) (current : Place) (p : Path) (content : ByteArray) :
    Except FileFault FileTree := do
  let place ← t.locate current p
  if t.isFolder place then throw .isFolder
  return put (.file content) place t

end FileTree

/-- The text of a file's bytes, in which every line ends in a newline. -/
def decodeText (bytes : ByteArray) : Except Fault String :=
  match String.fromUTF8? bytes with
  | some s => .ok (.ofList (Chars.unifyBreaks s.toList))
  | none => .error .undecodable

end TypePages
