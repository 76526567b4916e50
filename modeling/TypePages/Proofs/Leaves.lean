import TypePages.Proofs.Refusal
import TypePages.Proofs.Trimmed
import TypePages.Value.Read

/-!
The plain text of a value is that of its leaves.

At every level of a nested list empty texts are left out and the others joined, so a text that has
been joined is joined again further up.  To see that this comes to the same as joining the leaves
once, each text is taken with the line end in front of it, and an empty text as nothing (`lineOf`).
So written, the parts of a list simply follow one another: `lineOf_stacked` says it of one level, and
going up the tree nothing is left to do but to append.
-/

namespace TypePages.Value

open Chars (Tight)

variable {s t : String} {v : Value} {texts : List String}

/-! ### Texts below one another -/

/-- Texts below one another, without the empty ones. -/
def stacked (texts : List String) : String := Text.join "\n" (texts.filter (· ≠ ""))

/-- A text behind the end of the line before it; nothing if the text is empty. -/
def lineOf (s : String) : List Char := if s = "" then [] else '\n' :: s.toList

theorem lineOf_inj : lineOf s = lineOf t ↔ s = t := by
  refine ⟨fun h => ?_, congrArg lineOf⟩
  unfold lineOf at h
  split at h
  next hs =>
    split at h
    next ht => rw [hs, ht]
    next => cases h
  next =>
    split at h
    next => cases h
    next => exact String.toList_inj.mp (List.cons.inj h).2

theorem lineOf_of_ne (h : s ≠ "") : lineOf s = '\n' :: s.toList := if_neg h

theorem flatMap_lineOf (texts : List String) :
    texts.flatMap lineOf = (texts.filter (· ≠ "")).flatMap fun s => '\n' :: s.toList := by
  induction texts with
  | nil => rfl
  | cons s texts ih =>
      by_cases hs : s = ""
      · rw [List.flatMap_cons, ih, List.filter_cons_of_neg (by simp [hs]), lineOf, if_pos hs,
          List.nil_append]
      · rw [List.flatMap_cons, ih, List.filter_cons_of_pos (by simp [hs]), lineOf_of_ne hs,
          List.flatMap_cons]

/-- Below one another, texts follow one another line by line. -/
theorem lineOf_stacked (texts : List String) : lineOf (stacked texts) = texts.flatMap lineOf := by
  rw [flatMap_lineOf, stacked]
  cases hparts : texts.filter (· ≠ "") with
  | nil => rfl
  | cons s rest =>
      have hs : s ≠ "" := by
        have hmem : s ∈ texts.filter (· ≠ "") := hparts ▸ List.mem_cons_self
        simpa using (List.mem_filter.mp hmem).2
      have hjoin : (Text.join "\n" (s :: rest)).toList =
          s.toList ++ rest.flatMap fun t => '\n' :: t.toList := by
        rw [Text.join, String.toList_ofList, List.map_cons, Chars.intercalate_cons,
          List.flatMap_map]
        rfl
      have hne : Text.join "\n" (s :: rest) ≠ "" := by
        intro heq
        rw [heq] at hjoin
        exact hs (String.toList_eq_nil_iff.mp (List.append_eq_nil_iff.mp hjoin.symm).1)
      rw [lineOf_of_ne hne, hjoin, List.flatMap_cons, List.cons_append]

/-! ### Leaves -/

mutual

theorem lineOf_prose : (v : Value) →
    lineOf v.prose = v.leaves.flatMap fun leaf => lineOf (leafText leaf)
  | .list items => by
      rw [prose, leaves, ← flatMap_proseItems items]
      exact lineOf_stacked _
  | .scalar s => by rw [prose, leaves, List.flatMap_singleton]
  | .mapping entries => by rw [prose, leaves, List.flatMap_singleton]

theorem flatMap_proseItems : (items : List Value) →
    (proseItems items).flatMap lineOf =
      (leavesOfItems items).flatMap fun leaf => lineOf (leafText leaf)
  | [] => by rw [proseItems, leavesOfItems]; rfl
  | x :: xs => by
      rw [proseItems, leavesOfItems, List.flatMap_cons, List.flatMap_append, lineOf_prose x,
        flatMap_proseItems xs]

end

/-- The plain text of a value has the texts of its leaves below one another. -/
theorem prose_eq_stacked (v : Value) : v.prose = stacked (v.leaves.map leafText) := by
  rw [← lineOf_inj, lineOf_prose, lineOf_stacked, List.flatMap_map]

mutual

theorem isTooLong_eq_any : (v : Value) → v.isTooLong = v.leaves.any isTooLong
  | .list items => by
      rw [isTooLong, leaves]
      exact areItemsTooLong_eq_any items
  | .scalar s => by rw [leaves, List.any_cons, List.any_nil, Bool.or_false]
  | .mapping entries => by rw [leaves, List.any_cons, List.any_nil, Bool.or_false]

theorem areItemsTooLong_eq_any : (items : List Value) →
    areItemsTooLong items = (leavesOfItems items).any isTooLong
  | [] => by rw [areItemsTooLong, leavesOfItems]; rfl
  | x :: xs => by
      rw [areItemsTooLong, leavesOfItems, List.any_append, isTooLong_eq_any x,
        areItemsTooLong_eq_any xs]

end

/-- The trimmed text of a leaf. -/
def readLeaf (leaf : Value) : Except Fault String := leaf.checkLength.map fun _ => leafText leaf

/-- The texts of leaves are read, or one of them is refused. -/
theorem mapM_readLeaf (vs : List Value) : vs.mapM readLeaf =
    if vs.any isTooLong then .error .integerTooLong else .ok (vs.map leafText) := by
  induction vs with
  | nil => rfl
  | cons v vs ih =>
      rw [List.mapM_cons, ih, List.any_cons, readLeaf, checkLength]
      cases v.isTooLong with
      | true => rfl
      | false =>
          cases vs.any isTooLong with
          | true => rfl
          | false => rfl

/-! ### Blanks at the ends -/

theorem tight_leafText (v : Value) : Tight (leafText v).toList := by
  unfold leafText
  split
  · exact Chars.tight_nil
  · exact Chars.tight_ofList_trim _
  · exact Chars.tight_ofList_trim _

theorem tight_stacked (h : ∀ s ∈ texts, Tight s.toList) : Tight (stacked texts).toList := by
  rw [stacked, Text.join, String.toList_ofList]
  refine Chars.tight_intercalate _ fun part hpart => ?_
  obtain ⟨s, hs, rfl⟩ := List.mem_map.mp hpart
  obtain ⟨hmem, hne⟩ := List.mem_filter.mp hs
  exact ⟨h s hmem, mt String.toList_eq_nil_iff.mp (of_decide_eq_true hne)⟩

theorem tight_prose (v : Value) : Tight v.prose.toList := by
  rw [prose_eq_stacked]
  refine tight_stacked fun s hs => ?_
  obtain ⟨leaf, -, rfl⟩ := List.mem_map.mp hs
  exact tight_leafText leaf

/-- **How leaves are grouped makes no difference to the plain text of a value.**  It has the trimmed
texts of the leaves below one another, but for the empty ones, and is refused just in case the text of
a leaf is.  It neither starts nor ends with a blank, and is its own plain text. -/
theorem readProse_of_leaves (v : Value) :
    v.readProse = (v.leaves.mapM readLeaf).map stacked ∧
      (∀ w : Value, w.leaves = v.leaves → w.readProse = v.readProse) ∧
      ∀ text, v.readProse = .ok text →
        Tight text.toList ∧ (Value.text text).readProse = .ok text := by
  have hleaves : ∀ w : Value, w.readProse = (w.leaves.mapM readLeaf).map stacked := by
    intro w
    rw [readProse, checkLength, mapM_readLeaf, isTooLong_eq_any, prose_eq_stacked]
    cases w.leaves.any isTooLong with
    | true => rfl
    | false => rfl
  refine ⟨hleaves v, fun w hw => by rw [hleaves w, hleaves v, hw], fun text htext => ?_⟩
  obtain ⟨-, -, rfl⟩ := Refusal.map_eq_ok.mp htext
  have htight := tight_prose v
  refine ⟨htight, ?_⟩
  show Except.ok (Text.trim v.prose) = Except.ok v.prose
  rw [Text.trim, htight.trim_eq, String.ofList_toList]

/-- Leaves on three levels, among them an empty field, a blank text and an empty list. -/
def nested : Value :=
  .list [.list [.text " First. ", .null], .list [], .text " ", .list [.list [.int 12]]]

theorem readProse_of_leaves_nested :
    (Value.list [.text " First. ", .null, .text " ", .int 12]).leaves = nested.leaves ∧
      nested.readProse = .ok "First.\n12" ∧
      (Value.list [.text " First. ", .null, .text " ", .int 12]).readProse = .ok "First.\n12" ∧
      Tight "First.\n12".toList ∧ (Value.text "First.\n12").readProse = .ok "First.\n12" := by
  have hleaves : (Value.list [.text " First. ", .null, .text " ", .int 12]).leaves =
      nested.leaves := rfl
  have hread : nested.readProse = .ok "First.\n12" := by
    rw [← Refusal.toOption_eq_some_iff]
    decide +kernel
  obtain ⟨-, hgrouped, hresult⟩ := readProse_of_leaves nested
  obtain ⟨htight, hagain⟩ := hresult _ hread
  exact ⟨hleaves, hread, (hgrouped _ hleaves).trans hread, htight, hagain⟩

end TypePages.Value
