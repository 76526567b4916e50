import TypePages.Link.Target

/-!
Inline tags in prose.

An inline tag is a name and a content in braces, with an at sign before the name.  The tags `code`
and `literal` become code; `link` and `linkplain` become links, or code where the reference has no
target.  The content of a link is a reference and, after a space, a label.  A reference names a
type, a member of a type behind a hash, or with nothing before the hash a member of the type in
whose context the prose stands.
-/

namespace TypePages.Inline

open Text (isBlank)

/-! ### References -/

/-- The type of a name: by its uid, or by its simple name, in the package of the context first. -/
def findType? (m : Model) (context : Option Element) (name : String) : Option Element :=
  match m.find? name with
  | some e => if e.isType then some e else bySimpleName
  | none => bySimpleName
where
  /-- The type of a simple name. -/
  bySimpleName : Option Element :=
    let named := m.elements.filter fun e => e.isType && e.name == name
    match context with
    | some c => (named.find? (·.package == c.package)).or named.head?
    | none => named.head?

/-- The parameter types that a reference lists between its parentheses. -/
def listedTypes (args : List Char) : List String :=
  let types := ((Chars.dropWhileEnd (· == ')') args).splitOn ',').map Chars.trim
  (types.filter (!·.isEmpty)).map .ofList

/-- The member of a type that a reference names; with parentheses the one with the listed parameter
types is preferred. -/
def findMember? (m : Model) (owner : Element) (member : List Char) : Option Element :=
  let (name, args) := Chars.cut '(' member
  let named := (m.membersOf owner).filter (·.name == .ofList name)
  match args with
  | none => named.head?
  | some args => (named.find? (·.parameterTypes == listedTypes args)).or named.head?

/-- The element that a reference names. -/
def resolve? (m : Model) (context : Option Element) (ref : String) : Option Element := do
  let (type, member) := Chars.cut '#' ref.toList
  let owner ← if type.isEmpty then context else findType? m context (.ofList type)
  match member with
  | none | some [] => some owner
  | some member => findMember? m owner member

/-! ### Tags -/

/-- What an inline tag does with its content. -/
inductive Tag.Use
  | code
  | link
  deriving DecidableEq

/-- The inline tags by name. -/
def uses : List (List Char × Tag.Use) :=
  [("link".toList, .link), ("linkplain".toList, .link), ("code".toList, .code),
    ("literal".toList, .code)]

/-- The use that a text starts with, if a blank follows its name, and what follows the name. -/
def useHere? (cs : List Char) : Option (Tag.Use × List Char) :=
  uses.findSome? fun (name, use) =>
    match Chars.afterStart? name cs with
    | some rest => if rest.head?.any isBlank then some (use, rest) else none
    | none => none

/-- The tag that a text starts with: its use, its content and what follows it. -/
def tagHere? (cs : List Char) : Option (Tag.Use × List Char × List Char) :=
  match (Chars.afterStart? ['\x7b', '@'] cs).bind useHere? with
  | none => none
  | some (use, rest) =>
    match Chars.cut '\x7d' rest with
    | (content, some rest) => some (use, Chars.trim content, rest)
    | (_, none) => none

/-- The Markdown of a code span. -/
def codeSpan (cs : List Char) : List Char := '`' :: cs ++ ['`']

/-- The Markdown that a link stands for. -/
def linkText (m : Model) (targets : Targets) (context : Option Element) (content : List Char) :
    List Char :=
  let (ref, label) := Chars.cut ' ' content
  let label := match Chars.trim (label.getD []) with
    | [] => Chars.replace '#' ['.'] (ref.dropWhile (· == '#'))
    | label => label
  match (resolve? m context (.ofList ref)).bind (targets.find? ·.uid) with
  | some t => '[' :: label ++ "](".toList ++ t.page.toList ++ [')']
  | none => codeSpan label

/-- The Markdown that a tag stands for. -/
def tagText (m : Model) (targets : Targets) (context : Option Element) (use : Tag.Use)
    (content : List Char) : List Char :=
  match use with
  | .code => codeSpan content
  | .link => linkText m targets context content

theorem length_useHere?_le {cs rest : List Char} {use : Tag.Use}
    (h : useHere? cs = some (use, rest)) : rest.length ≤ cs.length := by
  obtain ⟨⟨name, use'⟩, -, h⟩ := List.exists_of_findSome?_eq_some h
  simp only at h
  split at h
  next rest' hs =>
    split at h
    · cases h
      simp [Chars.afterStart?_eq_some_iff.1 hs]
    · cases h
  · cases h

/-- A tag is not empty: what follows it is shorter than the text that starts with it. -/
theorem length_tagHere? {cs content rest : List Char} {use : Tag.Use}
    (h : tagHere? cs = some (use, content, rest)) : rest.length < cs.length := by
  unfold tagHere? at h
  split at h
  · cases h
  next use' rest' hu =>
    obtain ⟨inner, hs, hu⟩ := Option.bind_eq_some_iff.1 hu
    have hlen := length_useHere?_le hu
    have hcs := congrArg List.length (Chars.afterStart?_eq_some_iff.1 hs)
    simp only [List.length_append, List.length_cons, List.length_nil] at hcs
    split at h
    next hc =>
      cases h
      have : rest.length < rest'.length := Chars.length_of_cut (congrArg Prod.snd hc)
      omega
    · cases h

/-- The Markdown of prose: inline tags are replaced, and everything else is kept. -/
def markdownChars (m : Model) (targets : Targets) (context : Option Element) (cs : List Char) :
    List Char :=
  match cs with
  | [] => []
  | c :: cs =>
    match _h : tagHere? (c :: cs) with
    | some (use, content, rest) =>
      tagText m targets context use content ++ markdownChars m targets context rest
    | none => c :: markdownChars m targets context cs
termination_by cs.length
decreasing_by
  · exact length_tagHere? _h
  · simp

/-- The Markdown of prose. -/
def markdown (m : Model) (targets : Targets) (context : Option Element) (text : String) : String :=
  .ofList (markdownChars m targets context text.toList)

end TypePages.Inline
