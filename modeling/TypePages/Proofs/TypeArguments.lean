import Mathlib.Logic.Function.Iterate
import TypePages.Proofs.PagePath

/-!
Type arguments are what stands between angle brackets that match.

They are dropped in rounds, and a round drops the innermost pairs of brackets only.  What is left in
the end is told by one pass from the left that remembers where the brackets stand that are still
open (`Pass.step`): a closing bracket takes away everything from the last of them on, and stays
where none is open.  A pair that holds no bracket leaves no trace in the pass (`foldl_step_pair`), so
the pass does not notice a round.  In a text that a round leaves alone, every closing bracket stands
in front of every opening one, and the pass keeps the whole text.
-/

namespace TypePages.PagePath

/-- A text that has been read from the left up to some character. -/
structure Pass where
  /-- What is kept of it so far. -/
  kept : List Char
  /-- Where in this the opening brackets without a partner stand, the last one first. -/
  opened : List Nat

variable {c : Char} {cs body rest : List Char} {pass : Pass}

/-- Every character is kept, but a closing bracket with a partner takes away itself, its partner and
all between them. -/
def Pass.step (pass : Pass) (c : Char) : Pass :=
  if c = '<' then ⟨pass.kept ++ [c], pass.kept.length :: pass.opened⟩
  else if c = '>' then
    match pass.opened with
    | position :: opened => ⟨pass.kept.take position, opened⟩
    | [] => ⟨pass.kept ++ [c], []⟩
  else ⟨pass.kept ++ [c], pass.opened⟩

/-- The text without the brackets that match and all between them, in one pass. -/
def withoutPairs (cs : List Char) : List Char := (cs.foldl Pass.step ⟨[], []⟩).kept

/-! ### A pair that holds no bracket -/

/-- A text without brackets. -/
def Unbracketed (cs : List Char) : Prop := ∀ c ∈ cs, c ≠ '<' ∧ c ≠ '>'

theorem exists_of_afterPair? (h : afterPair? cs = some rest) :
    ∃ body, Unbracketed body ∧ cs = body ++ '>' :: rest := by
  induction cs with
  | nil => cases h
  | cons c cs ih =>
      rw [afterPair?] at h
      split at h
      next hclose =>
        cases h
        exact ⟨[], by simp [Unbracketed], by rw [hclose]; rfl⟩
      next hclose =>
        split at h
        next => cases h
        next hopen =>
          obtain ⟨body, hbody, rfl⟩ := ih h
          exact ⟨c :: body, List.forall_mem_cons.mpr ⟨⟨hopen, hclose⟩, hbody⟩, rfl⟩

theorem foldl_step_unbracketed (h : Unbracketed cs) (pass : Pass) :
    cs.foldl Pass.step pass = ⟨pass.kept ++ cs, pass.opened⟩ := by
  induction cs generalizing pass with
  | nil => simp
  | cons c cs ih =>
      obtain ⟨⟨hopen, hclose⟩, hrest⟩ := List.forall_mem_cons.mp h
      rw [List.foldl_cons, Pass.step, if_neg hopen, if_neg hclose, ih hrest]
      simp

/-- What is kept in front of a pair is kept behind it, and nothing else. -/
theorem foldl_step_pair (h : Unbracketed body) (pass : Pass) (rest : List Char) :
    ('<' :: body ++ '>' :: rest).foldl Pass.step pass = rest.foldl Pass.step pass := by
  have hopen : pass.step '<' = ⟨pass.kept ++ ['<'], pass.kept.length :: pass.opened⟩ := rfl
  have hclose : (⟨pass.kept ++ ['<'] ++ body, pass.kept.length :: pass.opened⟩ : Pass).step '>' =
      pass := by
    show (⟨(pass.kept ++ ['<'] ++ body).take pass.kept.length, pass.opened⟩ : Pass) = pass
    rw [List.append_assoc, List.take_left]
  rw [List.cons_append, List.foldl_cons, hopen, List.foldl_append, foldl_step_unbracketed h,
    List.foldl_cons, hclose]

/-- The pass does not notice that innermost pairs have been dropped. -/
theorem foldl_step_dropPairs (cs : List Char) (pass : Pass) :
    (dropPairs cs).foldl Pass.step pass = cs.foldl Pass.step pass := by
  fun_induction dropPairs cs generalizing pass with
  | case1 => rfl
  | case2 cs rest h ih =>
      obtain ⟨body, hbody, rfl⟩ := exists_of_afterPair? h
      exact (ih pass).trans (foldl_step_pair hbody pass rest).symm
  | case3 cs h ih => exact ih _
  | case4 c cs hc ih => exact ih _

/-! ### Texts without a pair -/

theorem dropPairs_eq_self_cons_iff :
    dropPairs (c :: cs) = c :: cs ↔ (c = '<' → afterPair? cs = none) ∧ dropPairs cs = cs := by
  rw [dropPairs]
  split
  next hc =>
    split
    next rest h =>
      have hshort := length_afterPair? h
      have hle := length_dropPairs_le rest
      refine iff_of_false (fun heq => ?_) fun hnone => ?_
      · have hlength := congrArg List.length heq
        rw [List.length_cons] at hlength
        omega
      · rw [hnone.1 hc] at h
        cases h
    next h => simp [h]
  next hc => simp [hc]

/-- Where no pair is left, nothing closes behind an opening bracket. -/
theorem notMem_of_afterPair?_eq_none (hfix : dropPairs cs = cs) (h : afterPair? cs = none) :
    '>' ∉ cs := by
  induction cs with
  | nil => exact List.not_mem_nil
  | cons c cs ih =>
      obtain ⟨hopen, hfix⟩ := dropPairs_eq_self_cons_iff.mp hfix
      rw [afterPair?] at h
      split at h
      next => cases h
      next hclose =>
        have hrest : afterPair? cs = none := by
          split at h
          next hc => exact hopen hc
          next => exact h
        exact List.not_mem_cons_of_ne_of_not_mem (Ne.symm hclose) (ih hfix hrest)

theorem kept_foldl_of_notMem (h : '>' ∉ cs) (pass : Pass) :
    (cs.foldl Pass.step pass).kept = pass.kept ++ cs := by
  induction cs generalizing pass with
  | nil => simp
  | cons c cs ih =>
      rw [List.mem_cons, not_or] at h
      have hstep : (pass.step c).kept = pass.kept ++ [c] := by
        rw [Pass.step, if_neg (Ne.symm h.1)]
        split <;> rfl
      rw [List.foldl_cons, ih h.2, hstep, List.append_assoc, List.singleton_append]

/-- The pass keeps a text from which no pair can be dropped. -/
theorem kept_foldl_of_dropPairs_eq (hfix : dropPairs cs = cs) (kept : List Char) :
    (cs.foldl Pass.step ⟨kept, []⟩).kept = kept ++ cs := by
  induction cs generalizing kept with
  | nil => simp
  | cons c cs ih =>
      obtain ⟨hopen, hfix⟩ := dropPairs_eq_self_cons_iff.mp hfix
      by_cases hc : c = '<'
      · have hnone := notMem_of_afterPair?_eq_none hfix (hopen hc)
        refine kept_foldl_of_notMem ?_ _
        exact List.not_mem_cons_of_ne_of_not_mem (by rw [hc]; decide) hnone
      · have hstep : (⟨kept, []⟩ : Pass).step c = ⟨kept ++ [c], []⟩ := by
          rw [Pass.step, if_neg hc]
          split <;> rfl
        rw [List.foldl_cons, hstep, ih hfix, List.append_assoc, List.singleton_append]

theorem withoutPairs_dropPairs (cs : List Char) : withoutPairs (dropPairs cs) = withoutPairs cs :=
  congrArg Pass.kept (foldl_step_dropPairs cs ⟨[], []⟩)

/-! ### Rounds -/

theorem dropPairs_sublist (cs : List Char) : (dropPairs cs).Sublist cs := by
  fun_induction dropPairs cs with
  | case1 => exact List.Sublist.refl _
  | case2 cs rest h ih =>
      obtain ⟨body, -, rfl⟩ := exists_of_afterPair? h
      have hsuffix : rest <:+ '<' :: (body ++ '>' :: rest) := ⟨'<' :: body ++ ['>'], by simp⟩
      exact ih.trans hsuffix.sublist
  | case3 cs h ih => exact ih.cons_cons _
  | case4 c cs hc ih => exact ih.cons_cons _

/-- A round that takes no character away changes nothing. -/
theorem dropPairs_eq_self (h : ¬(dropPairs cs).length < cs.length) : dropPairs cs = cs :=
  (dropPairs_sublist cs).eq_of_length_le (Nat.le_of_not_lt h)

/-- Type arguments are dropped in rounds, up to the first round that changes nothing. -/
theorem exists_rounds (cs : List Char) : ∃ rounds,
    (∀ k < rounds, dropPairs^[k + 1] cs ≠ dropPairs^[k] cs) ∧
      dropPairs^[rounds + 1] cs = dropPairs^[rounds] cs ∧
      dropArguments cs = dropPairs^[rounds] cs := by
  fun_induction dropArguments cs with
  | case1 cs hshorter ih =>
      obtain ⟨rounds, hbefore, hfixed, hresult⟩ := ih
      refine ⟨rounds + 1, fun k hk => ?_, hfixed, hresult⟩
      cases k with
      | zero => exact fun heq => Nat.ne_of_lt hshorter (congrArg List.length heq)
      | succ k => exact hbefore k (Nat.lt_of_succ_lt_succ hk)
  | case2 cs hfixed =>
      exact ⟨0, fun k hk => absurd hk (Nat.not_lt_zero k), dropPairs_eq_self hfixed, rfl⟩

/-- The rounds come to what one pass with a stack comes to. -/
theorem dropArguments_eq_withoutPairs (cs : List Char) : dropArguments cs = withoutPairs cs := by
  fun_induction dropArguments cs with
  | case1 cs hshorter ih => rw [ih, withoutPairs_dropPairs]
  | case2 cs hfixed => exact (kept_foldl_of_dropPairs_eq (dropPairs_eq_self hfixed) []).symm

/-- A bracket without a partner stays, in front of a pair as behind it. -/
example : withoutPairs "Map>K<V<E>>, <T".toList = "Map>K, <T".toList := by decide

/-! ### Segments of segments -/

/-- A segment is its own segment. -/
theorem segmentChars_eq_self (hne : cs ≠ []) (hkept : ∀ c ∈ cs, isKept c = true)
    (hhead : cs.head? ≠ some '-') (hlast : cs.getLast? ≠ some '-') : segmentChars cs = cs := by
  refine segmentChars_of_spelled (fun hmem => ?_) ?_ hkept hne hhead hlast
  · cases hkept '<' hmem
  · refine (List.map_congr_left fun c hc => if_neg ?_).trans (List.map_id cs)
    rintro (rfl | rfl)
    · cases hkept '$' hc
    · cases hkept '.' hc

theorem segment_segment (name : String) : segment (segment name) = segment name := by
  have hchars : (segment name).toList = segmentChars name.toList := String.toList_ofList
  obtain ⟨hhead, hlast⟩ := ends_segmentChars name.toList
  have hself := segmentChars_eq_self (segmentChars_ne_nil name.toList)
    (fun c hc => isKept_of_mem_segmentChars hc) hhead hlast
  rw [← String.toList_inj, segment, hchars, String.toList_ofList, hself]

/-- **Type arguments are the brackets that match and all between them.**  Rounds that drop innermost
pairs come to an end, with what one pass from the left leaves that remembers the open brackets.
Nothing is left to drop in a segment, nor anything to replace. -/
theorem segment_without_pairs (name : String) :
    (∃ rounds, (∀ k < rounds, dropPairs^[k + 1] name.toList ≠ dropPairs^[k] name.toList) ∧
        dropPairs^[rounds + 1] name.toList = dropPairs^[rounds] name.toList ∧
        dropArguments name.toList = dropPairs^[rounds] name.toList) ∧
      dropArguments name.toList = withoutPairs name.toList ∧
      segment (segment name) = segment name :=
  ⟨exists_rounds _, dropArguments_eq_withoutPairs _, segment_segment name⟩

end TypePages.PagePath
