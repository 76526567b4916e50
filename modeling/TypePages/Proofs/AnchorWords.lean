import TypePages.Proofs.Prose
import TypePages.Proofs.References

/-!
What an anchor tells of a member.

The anchor of a text consists of the words that are left of it in lowercase when everything but
ASCII letters and digits is taken out, with hyphens between them, so two texts have one anchor just
in case they have the same words (`slug_eq_iff`).  A text without words is the exception: it has a
word lent to it.  The words of a member are those of its name and then those of each parameter type.
Brackets, dots and the case of letters are lost, and so is where one type ends and the next begins,
so overloads can share an anchor: `overloads_share_anchor_iff` says which.
-/

namespace TypePages

namespace Chars

open Text (isBlank)

variable {p : Char → Bool} {c d : Char} {cs xs ys : List Char}

/-! ### Lowercase -/

/-- The lowercase form of a character, with one form of the sigma for both. -/
def lowerAlone (c : Char) : List Char := if c = 'Σ' then ['σ'] else lowerChar c

theorem splitOnP_append_congr (cs : List Char) (h : xs.splitOnP p = ys.splitOnP p) :
    (cs ++ xs).splitOnP p = (cs ++ ys).splitOnP p := by
  induction cs with
  | nil => exact h
  | cons c cs ih =>
      rw [List.cons_append, List.cons_append, List.splitOnP_cons_eq_if_modifyHead,
        List.splitOnP_cons_eq_if_modifyHead, ih]

/-- Where sigmas do not count, lowercase is taken character by character. -/
theorem splitOnP_lowerFrom (hmedial : p 'σ' = true) (hfinal : p 'ς' = true)
    (before cs : List Char) :
    (lowerFrom before cs).splitOnP p = (cs.flatMap lowerAlone).splitOnP p := by
  induction cs generalizing before with
  | nil => rfl
  | cons c cs ih =>
      rw [lowerFrom, List.flatMap_cons, lowerAlone]
      split
      · have hsigma : p (lowerSigma before cs) = true := by
          unfold lowerSigma
          split
          · exact hfinal
          · exact hmedial
        rw [List.singleton_append, List.singleton_append, List.splitOnP_cons_eq_if_modifyHead,
          List.splitOnP_cons_eq_if_modifyHead, if_pos hsigma, if_pos hmedial, ih]
      · exact splitOnP_append_congr _ (ih _)

/-! ### Ends of a text -/

/-- What is dropped at the end goes on to the front only if nothing is left behind it. -/
theorem dropWhileEnd_cons (p : Char → Bool) (c : Char) (cs : List Char) :
    dropWhileEnd p (c :: cs) =
      if p c = true ∧ dropWhileEnd p cs = [] then [] else c :: dropWhileEnd p cs := by
  unfold dropWhileEnd
  rw [List.reverse_cons, List.dropWhile_append]
  cases hrest : cs.reverse.dropWhile p with
  | nil =>
      cases hc : p c with
      | true => simp [hc]
      | false => simp [hc]
  | cons d ds => simp

theorem dropWhileEnd_cons_of_neg (h : p c = false) (cs : List Char) :
    dropWhileEnd p (c :: cs) = c :: dropWhileEnd p cs := by
  rw [dropWhileEnd_cons, if_neg (by simp [h])]

theorem dropWhileEnd_cons_self (c : Char) (cs : List Char) :
    dropWhileEnd (· == c) (c :: cs) = behind c (dropWhileEnd (· == c) cs) := by
  rw [dropWhileEnd_cons]
  cases dropWhileEnd (· == c) cs with
  | nil => simp [behind]
  | cons d ds => simp [behind]

end Chars

namespace Anchor

open Chars (runs squeeze squeezeOn lowerAlone)
open Text (isBlank)

variable {c : Char} {cs xs ys : List Char}

/-! ### Words of an anchor -/

/-- The words that an anchor keeps of a text. -/
def words (cs : List Char) : List (List Char) := runs (!isKept ·) (Chars.lower cs)

/-- A character that stands between words of an anchor. -/
def isGap (c : Char) : Bool :=
  match lowerAlone c with
  | [d] => !isKept d
  | _ => false

theorem words_eq (cs : List Char) : words cs = runs (!isKept ·) (cs.flatMap lowerAlone) := by
  rw [words, runs, Chars.lower, Chars.splitOnP_lowerFrom (by decide) (by decide)]
  rfl

theorem words_nil : words [] = [] := rfl

theorem words_append_cons (h : isGap c = true) (xs ys : List Char) :
    words (xs ++ c :: ys) = words xs ++ words ys := by
  unfold isGap at h
  split at h
  next d hd =>
    rw [words_eq, words_eq, words_eq, List.flatMap_append, List.flatMap_cons, hd,
      List.singleton_append, Chars.runs_append_cons h]
  next => cases h

theorem words_cons (h : isGap c = true) (cs : List Char) : words (c :: cs) = words cs := by
  rw [← List.nil_append (c :: cs), words_append_cons h, words_nil, List.nil_append]

theorem words_append_gaps (cs : List Char) (h : ∀ c ∈ xs, isGap c = true) :
    words (cs ++ xs) = words cs := by
  induction xs generalizing cs with
  | nil => rw [List.append_nil]
  | cons c xs ih =>
      have hrest := ih [] fun d hd => h d (List.mem_cons_of_mem c hd)
      rw [List.nil_append, words_nil] at hrest
      rw [words_append_cons (h c List.mem_cons_self), hrest, List.append_nil]

theorem isGap_of_isBlank (h : isBlank c = true) : isGap c = true := by
  have hcodes : ∀ n ∈ Text.blankCodes, isGap (Char.ofNat n) = true := by decide +kernel
  have hc := hcodes _ (Text.toNat_mem_blankCodes h)
  rwa [Char.ofNat_toNat] at hc

/-- A text need not be trimmed before its words are taken. -/
theorem words_trim (cs : List Char) : words (Chars.trim cs) = words cs := by
  have hstart : words (Chars.trimStart cs) = words cs := by
    induction cs with
    | nil => rfl
    | cons c cs ih =>
        by_cases hc : isBlank c = true
        · rw [Chars.trimStart, List.dropWhile_cons_of_pos hc, words_cons (isGap_of_isBlank hc)]
          exact ih
        · rw [Chars.trimStart, List.dropWhile_cons_of_neg hc]
  obtain ⟨tail, htail, hblanks⟩ := Chars.exists_append_dropWhileEnd isBlank (Chars.trimStart cs)
  rw [← hstart, htail, words_append_gaps _ fun c hc => isGap_of_isBlank (hblanks c hc)]
  rfl

/-! ### Anchors are words with hyphens between them -/

section Hyphens

variable {kept : Char → Bool}

/-- No two hyphens stand at the start. -/
theorem head?_of_hyphenate (hhyphen : kept '-' = false) {rest : List Char}
    (h : hyphenate kept cs = '-' :: rest) : rest.head? ≠ some '-' := by
  induction cs generalizing rest with
  | nil => cases h
  | cons c cs ih =>
      unfold hyphenate at h
      split at h
      next hc =>
        rw [(List.cons.inj h).1, hhyphen] at hc
        cases hc
      · split at h
        next hrest => exact ih (hrest.trans h)
        next hne =>
          rw [← (List.cons.inj h).2]
          intro hhead
          obtain ⟨rest', hrest'⟩ := List.head?_eq_some_iff.mp hhead
          exact hne rest' hrest'

/-- A character that is not kept becomes a hyphen before what is left of the rest. -/
theorem hyphenate_cons_of_neg (hhyphen : kept '-' = false) (h : kept c = false)
    (cs : List Char) :
    hyphenate kept (c :: cs) = '-' :: (hyphenate kept cs).dropWhile (· == '-') := by
  rw [hyphenate, if_neg (by simp [h])]
  split
  next rest hrest =>
    have hhead := head?_of_hyphenate hhyphen hrest
    rw [hrest, List.dropWhile_cons_of_pos (by simp)]
    cases rest with
    | nil => rfl
    | cons d ds => rw [List.dropWhile_cons_of_neg (by simpa using hhead)]
  next hne =>
    cases hcs : hyphenate kept cs with
    | nil => rfl
    | cons d ds =>
        rw [List.dropWhile_cons_of_neg]
        intro hd
        exact hne ds (by rw [hcs, beq_iff_eq.mp hd])

/-- Hyphens that are stripped from the ends leave the runs of what is kept with single hyphens. -/
theorem strip_hyphenate_and (hhyphen : kept '-' = false) (cs : List Char) :
    Chars.strip '-' (hyphenate kept cs) = squeeze (!kept ·) '-' cs ∧
      Chars.dropWhileEnd (· == '-') (hyphenate kept cs) = squeezeOn (!kept ·) '-' cs := by
  induction cs with
  | nil => exact ⟨rfl, rfl⟩
  | cons c cs ih =>
      obtain ⟨hstrip, hend⟩ := ih
      cases hc : kept c with
      | true =>
          have hne : (c == '-') = false := by
            rw [beq_eq_false_iff_ne]
            rintro rfl
            rw [hhyphen] at hc
            cases hc
          have hcons : Chars.dropWhileEnd (· == '-') (c :: hyphenate kept cs) =
              c :: squeezeOn (!kept ·) '-' cs :=
            (Chars.dropWhileEnd_cons_of_neg (p := (· == '-')) hne _).trans (congrArg (c :: ·) hend)
          rw [hyphenate, if_pos hc, Chars.squeeze_cons_of_neg (by simp [hc]),
            Chars.squeezeOn_cons_of_neg (by simp [hc]), Chars.strip,
            List.dropWhile_cons_of_neg (by simp [hne]), hcons]
          exact ⟨rfl, rfl⟩
      | false =>
          have hidem : ((hyphenate kept cs).dropWhile (· == '-')).dropWhile (· == '-') =
              (hyphenate kept cs).dropWhile (· == '-') := List.dropWhile_idempotent _ _
          rw [hyphenate_cons_of_neg hhyphen hc, Chars.squeeze_cons_of_pos (by simp [hc]),
            Chars.squeezeOn_cons_of_pos (by simp [hc]), Chars.dropWhileEnd_cons_self, ← hstrip,
            Chars.strip, List.dropWhile_cons_of_pos (by simp), hidem]
          exact ⟨rfl, rfl⟩

end Hyphens

/-- The words that an anchor spells; a text without words has a word lent to it. -/
def spelled : List (List Char) → List (List Char)
  | [] => ["section".toList]
  | word :: rest => word :: rest

theorem spelled_ne_nil (ws : List (List Char)) : spelled ws ≠ [] := by
  cases ws <;> exact List.cons_ne_nil _ _

theorem slug_eq (cs : List Char) : slug cs = ['-'].intercalate (spelled (words cs)) := by
  have hstrip : Chars.strip '-' (hyphenate isKept (Chars.lower (Chars.trim cs))) =
      ['-'].intercalate (words cs) := by
    rw [(strip_hyphenate_and (by decide) _).1, ← words_trim cs]
    rfl
  rw [slug, hstrip]
  cases hws : words cs with
  | nil => rfl
  | cons word rest =>
      have hmem : word ∈ words cs := hws ▸ List.mem_cons_self
      obtain ⟨c, word', rfl⟩ := List.exists_cons_of_ne_nil
        (show word ≠ [] by simpa using (List.mem_filter.mp hmem).2)
      rw [Chars.intercalate_cons, spelled, Chars.intercalate_cons]
      rfl

/-- No word has a hyphen. -/
theorem hyphen_notMem_of_mem_spelled {word : List Char} (h : word ∈ spelled (words cs)) :
    '-' ∉ word := by
  intro hc
  cases hws : words cs with
  | nil =>
      rw [hws, spelled, List.mem_singleton] at h
      rw [h] at hc
      exact absurd hc (by decide)
  | cons first rest =>
      rw [hws, spelled, ← hws] at h
      exact absurd (Chars.of_mem_runs h hc) (by decide)

/-- Two texts have one anchor just in case they spell the same words. -/
theorem slug_eq_iff : slug xs = slug ys ↔ spelled (words xs) = spelled (words ys) := by
  constructor
  · intro h
    rw [slug_eq, slug_eq] at h
    have hsplit := congrArg (List.splitOn '-') h
    rwa [List.splitOn_intercalate _ (fun _ => hyphen_notMem_of_mem_spelled) (spelled_ne_nil _),
      List.splitOn_intercalate _ (fun _ => hyphen_notMem_of_mem_spelled) (spelled_ne_nil _)]
      at hsplit
  · intro h
    rw [slug_eq, slug_eq, h]

/-! ### Anchors of members -/

variable {x y : Element}

/-- The words of the parameter types, one type after the other. -/
def typeWords (e : Element) : List (List Char) := e.parameterTypes.flatMap fun s => words s.toList

/-- What a signature is written with beside the types stands between words. -/
theorem isGap_of_mem (h : c ∈ ['(', ',', ' ', ')']) : isGap c = true := by
  simp only [List.mem_cons, List.not_mem_nil, or_false] at h
  rcases h with rfl | rfl | rfl | rfl <;> decide +kernel

theorem words_typeList (types : List String) :
    words (Inline.typeList types) = types.flatMap fun s => words s.toList := by
  induction types with
  | nil => rfl
  | cons s types ih =>
      cases types with
      | nil => rw [Inline.typeList, List.map_singleton, List.intercalate_singleton,
          List.flatMap_singleton]
      | cons s' types =>
          rw [Inline.typeList_cons_cons, words_append_cons (isGap_of_mem (by simp)),
            words_cons (isGap_of_mem (by simp)), ih]
          rfl

/-- The anchor of an executable spells its name and its parameter types. -/
theorem ofMember_eq (h : x.isExecutable = true) :
    ofMember x = .ofList (slug (x.name.toList ++ x.signature.toList)) ∧
      words (x.name.toList ++ x.signature.toList) = words x.name.toList ++ typeWords x := by
  constructor
  · rw [ofMember, ofText, if_pos h, String.toList_append]
  · have hclosing : ∀ c ∈ [')'], isGap c = true := fun c hc =>
      isGap_of_mem (by rw [List.mem_singleton.mp hc]; simp)
    rw [Inline.toList_signature, words_append_cons (isGap_of_mem (by simp)),
      words_append_gaps _ hclosing, words_typeList]
    rfl

/-- What stands behind the same words is spelled the same, but for the word that is lent to a text
without any. -/
theorem spelled_append_eq_iff (name ws vs : List (List Char)) :
    spelled (name ++ ws) = spelled (name ++ vs) ↔
      ws = vs ∨ name = [] ∧
        (ws = [] ∧ vs = ["section".toList] ∨ ws = ["section".toList] ∧ vs = []) := by
  cases name with
  | cons word rest =>
      rw [List.cons_append, List.cons_append, spelled, spelled, ← List.cons_append,
        ← List.cons_append, List.append_cancel_left_eq]
      simp
  | nil =>
      rw [List.nil_append, List.nil_append]
      cases ws <;> cases vs <;> simp [spelled, eq_comm]

/-- A link to a member on a page leads elsewhere than one to another member if their anchors
differ. -/
theorem page_ofMember_eq_iff (t : Target) (x y : Element) :
    (t.ofMember x).page = (t.ofMember y).page ↔ ofMember x = ofMember y := by
  show Text.before '#' t.page ++ "#" ++ ofMember x =
    Text.before '#' t.page ++ "#" ++ ofMember y ↔ _
  simp only [← String.toList_inj, String.toList_append, List.append_cancel_left_eq]

/-- **Overloads have one anchor just in case their parameter types have the same words.**  Where one
type ends and the next begins does not count, and neither do brackets, dots and the case of letters.
A name without words leaves the anchor to the types, and then no words stand for the one that an
empty anchor is given.  Links to both on one page are the same if and only if the anchors are. -/
theorem overloads_share_anchor_iff (hx : x.isExecutable = true) (hy : y.isExecutable = true)
    (hname : x.name = y.name) :
    (ofMember x = ofMember y ↔
      typeWords x = typeWords y ∨ words x.name.toList = [] ∧
        (typeWords x = [] ∧ typeWords y = ["section".toList] ∨
          typeWords x = ["section".toList] ∧ typeWords y = [])) ∧
      ∀ t : Target, (t.ofMember x).page = (t.ofMember y).page ↔ ofMember x = ofMember y := by
  refine ⟨?_, fun t => page_ofMember_eq_iff t x y⟩
  obtain ⟨hxanchor, hxwords⟩ := ofMember_eq hx
  obtain ⟨hyanchor, hywords⟩ := ofMember_eq hy
  rw [hxanchor, hyanchor, String.ofList_inj, slug_eq_iff, hxwords, hywords, ← hname]
  exact spelled_append_eq_iff _ _ _

/-! ### A box that is filled with a number or with many -/

/-- The box. -/
def box : Element where
  uid := "com.example.Box"
  kind := .classType
  name := "Box"
  fullName := "com.example.Box"
  package := "com.example"
  access := "public"

/-- A method of the box with one parameter of a given type. -/
def fill (type : String) : Element where
  uid := "com.example.Box.fill(" ++ type ++ ")"
  kind := .method
  name := "fill"
  fullName := "com.example.Box.fill(" ++ type ++ ")"
  parent := some "com.example.Box"
  package := "com.example"
  access := "public"
  parameters := [{ name := "value", type }]

/-- The box with what it can be filled with. -/
def boxes : Model where
  elements := [box, fill "int", fill "int[]", fill "long"]
  distinct_uids := by decide +kernel
  minAccess := .text "public"
  external := []

theorem typeWords_fill (type : String) : typeWords (fill type) = words type.toList :=
  List.append_nil _

/-- Filling with an `int` shares its anchor with filling with many, and not with filling with a
`long`. -/
theorem overloads_share_anchor_fill :
    ofMember (fill "int") = ofMember (fill "int[]") ∧
      ofMember (fill "int") ≠ ofMember (fill "long") ∧
      ∀ t : Target, (t.ofMember (fill "int")).page ≠ (t.ofMember (fill "long")).page := by
  obtain ⟨hshared, -⟩ :=
    overloads_share_anchor_iff (x := fill "int") (y := fill "int[]") rfl rfl rfl
  obtain ⟨hapart, hpage⟩ :=
    overloads_share_anchor_iff (x := fill "int") (y := fill "long") rfl rfl rfl
  have hname : words "fill".toList ≠ [] := by decide +kernel
  have hne : ofMember (fill "int") ≠ ofMember (fill "long") := by
    rw [Ne, hapart, typeWords_fill, typeWords_fill, not_or, not_and]
    exact ⟨by decide +kernel, fun h => absurd h hname⟩
  refine ⟨hshared.mpr (.inl ?_), hne, fun t h => hne ((hpage t).mp h)⟩
  rw [typeWords_fill, typeWords_fill]
  decide +kernel

/-- Both of the overloads are members of the box with targets of their own, and the links to them
are one. -/
theorem fill_lands_on_fill :
    (fill "int").parameterTypes ≠ (fill "int[]").parameterTypes ∧
      (∀ e ∈ [fill "int", fill "int[]"],
        e ∈ boxes.membersOf box ∧ e.isExecutable = true ∧ e.name = "fill") ∧
      ∃ ts, Targets.ofModel boxes (.text "/api") = .ok ts ∧
        ∀ e ∈ [fill "int", fill "int[]"],
          ofMember e = "fill-int" ∧
            ts.find? e.uid = some ⟨"fill", "/api/com/example/Box#fill-int"⟩ := by
  have hmembers : ∀ e ∈ [fill "int", fill "int[]"],
      e ∈ boxes.membersOf box ∧ e.isExecutable = true ∧ e.name = "fill" := by decide +kernel
  have hanchors : ∀ e ∈ [fill "int", fill "int[]"], ofMember e = "fill-int" := by decide +kernel
  have hmethods : ∀ e ∈ [fill "int", fill "int[]"], e.isType = false := by decide +kernel
  have hpage : ∀ e ∈ [fill "int", fill "int[]"],
      Target.ofMember ⟨"Box", "/api/com/example/Box"⟩ e =
        ⟨"fill", "/api/com/example/Box#fill-int"⟩ := by decide +kernel
  obtain ⟨ts, hts⟩ := Targets.ofModel_returns (m := boxes) rfl "/api"
  have hbox : ts.find? box.uid = some ⟨"Box", "/api/com/example/Box"⟩ :=
    (Targets.find?_type hts (by decide +kernel) rfl).mpr ⟨by decide +kernel, by decide +kernel⟩
  refine ⟨by decide +kernel, hmembers, ts, hts, fun e he => ⟨hanchors e he, ?_⟩⟩
  have hfind := Targets.find?_member hts (by decide +kernel) rfl hbox (hmembers e he).1
    (hmethods e he)
  rw [hfind, hpage e he]

end Anchor

end TypePages
