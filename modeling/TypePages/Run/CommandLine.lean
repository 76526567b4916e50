import TypePages.Run.FileTree
import TypePages.Text.Digit

/-!
The command line.

Two folders are required, and the options may stand anywhere among them, in full or by any start
that fits one option only.  Two hyphens on their own end the options.
-/

namespace TypePages

/-- What a run is asked to do. -/
structure Request where
  /-- The folder with the metadata. -/
  metadata : Path
  /-- The folder that the pages are written to; none if the argument in its place names no folder.
  -/
  output : Option Path
  pageRoot : Option String := none
  config : Option String := none
  details : Bool := false
  dryRun : Bool := false
  verbose : Bool := false

namespace CommandLine

/-- The options. -/
inductive Choice
  | pageRoot
  | config
  | details
  | dryRun
  | verbose
  | help
  deriving DecidableEq

/-- The options by name. -/
def choices : List (String × Choice) :=
  [("--help", .help), ("--api-root", .pageRoot), ("--config", .config),
    ("--include-member-details", .details), ("--dry-run", .dryRun), ("--verbose", .verbose)]

/-- Whether an option takes a value. -/
def Choice.takesValue : Choice → Bool
  | .pageRoot | .config => true
  | _ => false

/-- What a command line asks for. -/
inductive Outcome
  | request (r : Request)
  | help
  /-- The command line makes no sense. -/
  | misuse

/-- What an argument is. -/
inductive Argument
  | positional (text : String)
  | option (choice : Choice) (value : Option String)
  | separator
  | unknown
  /-- The start of several options. -/
  | ambiguous
  deriving DecidableEq

/-- Whether digits, which may have a point among them but not behind them, are a number.  A newline
may end them. -/
def isNumeral (cs : List Char) : Bool :=
  let body := if cs.getLast? = some '\n' then cs.dropLast else cs
  match Chars.cut '.' body with
  | (whole, none) => !whole.isEmpty && whole.all Text.isDigit
  | (whole, some part) => whole.all Text.isDigit && !part.isEmpty && part.all Text.isDigit

/-- Whether a text reads as a negative number, which is no option. -/
def isNegativeNumber : List Char → Bool
  | '-' :: body => isNumeral body
  | _ => false

/-- The options whose names start with a text. -/
def startingWith (name : String) : List Choice :=
  (choices.filter fun (n, _) => (Text.afterStart? name n).isSome).map (·.2)

/-- What an argument is that goes on after the short name of help.  The name may be repeated, also
behind an equals sign; any other text is a value that help does not take. -/
def helpWith (tail : String) : Argument :=
  let repeats (cs : List Char) := cs.all (· == 'h')
  let isHelp := match tail.toList with
    | '=' :: cs => !cs.isEmpty && repeats cs
    | cs => repeats cs
  .option .help (if isHelp then none else some tail)

/-- What an argument is that starts with a hyphen. -/
def hyphenated (arg : String) : Argument :=
  match Text.afterStart? "-h" arg, choices.lookup arg with
  | some tail, _ => helpWith tail
  | none, some c => .option c none
  | none, none =>
    let (name, value) := match Chars.cut '=' arg.toList with
      | (name, some value) => (String.ofList name, some (String.ofList value))
      | (_, none) => (arg, none)
    let fitting := if (Text.afterStart? "--" arg).isSome then startingWith name else []
    match fitting with
    | [c] => .option c value
    | _ :: _ :: _ => .ambiguous
    | [] =>
      if isNegativeNumber arg.toList || arg.toList.contains ' ' then .positional arg else .unknown

/-- What an argument before the separator is. -/
def classify (arg : String) : Argument :=
  if arg = "--" then .separator
  else if arg.toList.head? = some '-' ∧ arg ≠ "-" then hyphenated arg
  else .positional arg

/-- What the arguments are.  Behind the separator, all are positional. -/
def classifyAll : List String → List Argument
  | [] => []
  | arg :: rest =>
    match classify arg with
    | .separator => .separator :: rest.map .positional
    | a => a :: classifyAll rest

/-- What has been read of a command line. -/
structure Partial where
  /-- The folders; none where an argument names no folder. -/
  folders : List (Option String) := []
  options : List (Choice × String) := []
  /-- Whether the last argument was a folder. -/
  behindFolder : Bool := false
  /-- Whether the next folder comes with the separator in front of it. -/
  behindSeparator : Bool := false
  isMisuse : Bool := false

/-- What has been read, with an option more. -/
def Partial.addOption (p : Partial) (c : Choice) (value : String) : Partial :=
  { p with options := (c, value) :: p.options, behindFolder := false }

/-- What has been read, with a folder more.  Two hyphens name a folder only behind the separator
that comes with them. -/
def Partial.addFolder (p : Partial) (s : String) : Partial :=
  let folder := if s = "--" ∧ !p.behindSeparator then none else some s
  { p with folders := p.folders ++ [folder], behindFolder := true, behindSeparator := false }

/-- The value of an option.  Two hyphens behind an equals sign are no value. -/
def explicitValue (value : String) : String := if value = "--" then "" else value

/-- Reads arguments.  The separator goes with the folder before it, or else with one that is still
missing after it. -/
def readAll (p : Partial) : List Argument → Partial
  | [] => p
  | .unknown :: rest | .ambiguous :: rest =>
    readAll { p with isMisuse := true, behindFolder := false } rest
  | .positional s :: rest => readAll (p.addFolder s) rest
  | .separator :: rest =>
    if p.behindFolder then readAll p rest
    else if p.folders.length < 2 ∧ !rest.isEmpty then
      readAll { p with behindSeparator := true } rest
    else { p with isMisuse := true }
  | .option c (some value) :: rest =>
    if c.takesValue then readAll (p.addOption c (explicitValue value)) rest
    else { p with isMisuse := true }
  | .option c none :: rest =>
    if c.takesValue then
      match rest with
      | .positional s :: rest => readAll (p.addOption c s) rest
      | _ => { p with isMisuse := true }
    else if c = .help then p.addOption c ""
    else readAll (p.addOption c "") rest

/-- What a command line asks for.  Ambiguous options are noticed first, and help comes before all
else. -/
def parse (args : List String) : Outcome :=
  let arguments := classifyAll args
  let p := readAll {} arguments
  let value (c : Choice) := p.options.lookup c
  if arguments.contains .ambiguous then .misuse
  else if (value .help).isSome then .help
  else if p.isMisuse then .misuse
  else match p.folders with
    | [some metadata, output] => .request {
        metadata := .ofText metadata
        output := output.map .ofText
        pageRoot := value .pageRoot
        config := value .config
        details := (value .details).isSome
        dryRun := (value .dryRun).isSome
        verbose := (value .verbose).isSome }
    | _ => .misuse

end CommandLine

end TypePages
