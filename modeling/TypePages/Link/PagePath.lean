import TypePages.Text.Basic
import TypePages.Link.Anchor
import TypePages.Value.Read

/-!
Paths of pages.

The segments of a package become folders and the rest of a type's name becomes the page: the type
`com.example.Outer.Inner` of package `com.example` has the page `com/example/Outer-Inner` below the
root of all pages.  A segment consists of ASCII letters, digits, underscores and hyphens.
-/

namespace TypePages.PagePath

/-! ### Type arguments

`Map<K, List<V>>` is shown on the page of `Map`.  Innermost pairs of angle brackets are dropped with
what they hold, again and again until none is left; brackets without a partner stay.
-/

/-- What follows a pair of brackets whose opening one has just been passed, if it holds no bracket.
-/
def afterPair? : List Char → Option (List Char)
  | [] => none
  | c :: cs => if c = '>' then some cs else if c = '<' then none else afterPair? cs

theorem length_afterPair? {cs rest : List Char} (h : afterPair? cs = some rest) :
    rest.length < cs.length := by
  induction cs with
  | nil => simp [afterPair?] at h
  | cons c cs ih =>
    unfold afterPair? at h
    split at h
    · cases h; simp
    · split at h
      · cases h
      · exact Nat.lt_succ_of_lt (ih h)

/-- The text without the pairs of brackets that hold no bracket. -/
def dropPairs : List Char → List Char
  | [] => []
  | c :: cs =>
    if c = '<' then
      match _h : afterPair? cs with
      | some rest => dropPairs rest
      | none => c :: dropPairs cs
    else c :: dropPairs cs
termination_by cs => cs.length
decreasing_by
  · have := length_afterPair? _h; simp; omega
  · simp
  · simp

theorem length_dropPairs_le (cs : List Char) : (dropPairs cs).length ≤ cs.length := by
  fun_induction dropPairs cs with
  | case1 => simp
  | case2 cs rest h ih => have := length_afterPair? h; simp; omega
  | case3 cs h ih => simp; omega
  | case4 c cs h ih => simp; omega

/-- The text without type arguments, however deep they are nested. -/
def dropArguments (cs : List Char) : List Char :=
  if (dropPairs cs).length < cs.length then dropArguments (dropPairs cs) else cs
termination_by cs.length

/-! ### Segments -/

/-- A character that a segment keeps. -/
def isKept (c : Char) : Bool := c.isAlphanum || c == '_' || c == '-'

/-- A run of characters that a segment does not keep becomes one hyphen. -/
def replaceRuns : List Char → List Char
  | [] => []
  | c :: cs =>
    if isKept c then c :: replaceRuns cs
    else match cs with
      | [] => ['-']
      | d :: _ => if isKept d then '-' :: replaceRuns cs else replaceRuns cs

/-- The segment of a name; dots and dollar signs each become a hyphen of their own. -/
def segmentChars (cs : List Char) : List Char :=
  let spelled := (dropArguments cs).map fun c => if c = '$' ∨ c = '.' then '-' else c
  match Chars.strip '-' (replaceRuns spelled) with
  | [] => ['U', 'n', 'k', 'n', 'o', 'w', 'n']
  | cs => cs

/-- The segment of a name. -/
def segment (name : String) : String := .ofList (segmentChars name.toList)

/-! ### Paths -/

/-- The segments of a type: one for each part of its package, and one for the rest of its name. -/
def segments (fullName package : String) : List String :=
  match if package = "" then none else Text.afterStart? (package ++ ".") fullName with
  | some rest => (Text.splitAt '.' package).map segment ++ [segment rest]
  | none => [segment fullName]

/-- The path of a type's page below a root. -/
def ofType (root fullName package : String) : String :=
  Text.join "/" (.ofList (Chars.dropWhileEnd (· == '/') root.toList) :: segments fullName package)

/-- The path of a type's page below a root that is a setting. -/
def ofSetting (root : Value) (fullName package : String) : Except Fault String :=
  match root with
  | .text s => .ok (ofType s fullName package)
  | v => .error (.noAttribute v.form "rstrip")

/-- The file of a page below the folder of all pages: its path without leading slashes and anchor.
-/
def file (path : String) : String :=
  .ofList ((Text.before '#' path).toList.dropWhile (· == '/')) ++ ".md"

end TypePages.PagePath
