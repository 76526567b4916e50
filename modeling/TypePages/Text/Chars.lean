import TypePages.Text.Blank

/-!
Cutting and joining of character lists.

Every rule on text below is a function on `List Char`, so that it can be reasoned about by
induction; `TypePages.Text.Basic` carries the ones that are used on strings over to `String`.
-/

namespace TypePages.Chars

open Text (isBlank isLineEnd)

/-! ### Trimming -/

/-- Drops the longest run of characters in the class at the end. -/
def dropWhileEnd (p : Char → Bool) (cs : List Char) : List Char :=
  (cs.reverse.dropWhile p).reverse

/-- Drops the blanks at the start. -/
def trimStart (cs : List Char) : List Char := cs.dropWhile isBlank

/-- Drops the blanks at the end. -/
def trimEnd (cs : List Char) : List Char := dropWhileEnd isBlank cs

/-- Drops the blanks at both ends. -/
def trim (cs : List Char) : List Char := trimEnd (trimStart cs)

/-- Drops every copy of a character at both ends. -/
def strip (c : Char) (cs : List Char) : List Char := dropWhileEnd (· == c) (cs.dropWhile (· == c))

/-! ### Words and lines -/

/-- The runs of characters that are not blank. -/
def words (cs : List Char) : List (List Char) := (cs.splitOnP isBlank).filter (!·.isEmpty)

/-- The words, with one space between neighbours. -/
def collapse (cs : List Char) : List Char := [' '].intercalate (words cs)

/-- The lines of a text without their ends.  A line end closes a line, so none is left open after
it. -/
def lines : List Char → List (List Char)
  | [] => []
  | '\r' :: '\n' :: cs => [] :: lines cs
  | c :: cs =>
    if isLineEnd c then [] :: lines cs
    else match lines cs with
      | [] => [[c]]
      | l :: ls => (c :: l) :: ls

/-- A text in which every line ends in a newline, whether it ended in a carriage return, in a
newline or in both. -/
def unifyBreaks : List Char → List Char
  | [] => []
  | '\r' :: '\n' :: cs => '\n' :: unifyBreaks cs
  | c :: cs => (if c = '\r' then '\n' else c) :: unifyBreaks cs

/-! ### Parts around a character -/

/-- The part before the first copy of a character, and the part after it if there is one. -/
def cut (c : Char) (cs : List Char) : List Char × Option (List Char) :=
  match cs.dropWhile (· != c) with
  | [] => (cs, none)
  | _ :: rest => (cs.takeWhile (· != c), some rest)

/-- What follows a given start of the text. -/
def afterStart? : List Char → List Char → Option (List Char)
  | [], cs => some cs
  | _ :: _, [] => none
  | s :: ss, c :: cs => if s = c then afterStart? ss cs else none

/-- Replaces every copy of a character. -/
def replace (c : Char) (by' : List Char) (cs : List Char) : List Char :=
  cs.flatMap fun x => if x == c then by' else [x]

theorem lines_nil : lines [] = [] := rfl

/-- Nothing is lost by a cut. -/
theorem cut_append (c : Char) (cs : List Char) :
    (cut c cs).1 ++ ((cut c cs).2.elim [] (c :: ·)) = cs := by
  unfold cut
  have split : cs.takeWhile (· != c) ++ cs.dropWhile (· != c) = cs :=
    List.takeWhile_append_dropWhile
  split
  · simp
  next d rest h =>
    have hd : d = c := by
      have := List.head_dropWhile_not (p := (· != c)) (l := cs) (by simp [h])
      simpa [h] using this
    simp only [Option.elim_some]
    rw [← hd, ← h, hd]
    exact split

/-- What a cut leaves behind the character is shorter than the text. -/
theorem length_of_cut {c : Char} {cs rest : List Char} (h : (cut c cs).2 = some rest) :
    rest.length < cs.length := by
  have := congrArg List.length (cut_append c cs)
  simp only [h, Option.elim_some, List.length_append, List.length_cons] at this
  omega

/-- A text has the given start exactly when it is the start and what follows it. -/
theorem afterStart?_eq_some_iff {start cs rest : List Char} :
    afterStart? start cs = some rest ↔ cs = start ++ rest := by
  fun_induction afterStart? start cs with
  | case1 cs => simp
  | case2 s ss => simp
  | case3 ss c cs ih => simp [ih]
  | case4 s ss c cs h =>
    have : ¬c = s := fun he => h he.symm
    simp [this]

end TypePages.Chars
