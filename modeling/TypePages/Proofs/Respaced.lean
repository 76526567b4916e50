import TypePages.Proofs.Sentences

/-!
Texts that differ in their blanks.

A first sentence is shown with single spaces between its words.  What it holds of a word is
untouched by that, and so is whether anything stands between two words.  `Respaced` says this of two
texts without saying which of them was there first: between their words stand blanks that may be
others, but blanks stand in one text where they stand in the other.
-/

namespace TypePages.Chars

open Text (isBlank)

variable {c d : Char} {as bs cs xs ys word : List Char}

/-- The texts have the same words, with whatever blanks between them and at their end. -/
inductive Respaced : List Char → List Char → Prop
  | tail {xs ys : List Char} (hx : ∀ c ∈ xs, isBlank c = true) (hy : ∀ c ∈ ys, isBlank c = true) :
      Respaced xs ys
  | letter {c : Char} {xs ys : List Char} (hc : isBlank c = false) (h : Respaced xs ys) :
      Respaced (c :: xs) (c :: ys)
  | gap {as bs xs ys : List Char} (ha : ∀ c ∈ as, isBlank c = true)
      (hb : ∀ c ∈ bs, isBlank c = true) (hane : as ≠ []) (hbne : bs ≠ []) (h : Respaced xs ys) :
      Respaced (as ++ xs) (bs ++ ys)

namespace Respaced

theorem symm (h : Respaced xs ys) : Respaced ys xs := by
  induction h with
  | tail hx hy => exact .tail hy hx
  | letter hc _ ih => exact .letter hc ih
  | gap ha hb hane hbne _ ih => exact .gap hb ha hbne hane ih

theorem nil : Respaced [] [] := .tail nofun nofun

/-- A text that starts with a letter starts with it however it is spaced. -/
theorem exists_cons (h : Respaced xs (c :: ys)) (hc : isBlank c = false) :
    ∃ rest, xs = c :: rest ∧ Respaced rest ys := by
  generalize htext : c :: ys = text at h
  cases h with
  | tail _ hy =>
      have hblank := hy c (htext ▸ List.mem_cons_self)
      rw [hc] at hblank
      cases hblank
  | letter _ h =>
      obtain ⟨rfl, rfl⟩ := List.cons.inj htext
      exact ⟨_, rfl, h⟩
  | @gap _ bs _ _ _ hb _ hbne _ =>
      obtain ⟨b, bs, rfl⟩ := List.exists_cons_of_ne_nil hbne
      have hblank := hb b List.mem_cons_self
      rw [← (List.cons.inj htext).1, hc] at hblank
      cases hblank

theorem exists_append (h : Respaced xs (word ++ ys)) (hword : ∀ c ∈ word, isBlank c = false) :
    ∃ rest, xs = word ++ rest ∧ Respaced rest ys := by
  induction word generalizing xs with
  | nil => exact ⟨xs, rfl, h⟩
  | cons c word ih =>
      obtain ⟨rest, rfl, hrest⟩ := h.exists_cons (hword c List.mem_cons_self)
      obtain ⟨rest', rfl, hrest'⟩ := ih hrest fun d hd => hword d (List.mem_cons_of_mem _ hd)
      exact ⟨rest', rfl, hrest'⟩

/-- A letter is found in one text where it stands in the other. -/
theorem exists_split (h : Respaced xs (as ++ c :: bs)) (hc : isBlank c = false) :
    ∃ as' bs', xs = as' ++ c :: bs' ∧ Respaced as' as ∧ Respaced bs' bs := by
  generalize htext : as ++ c :: bs = text at h
  induction h generalizing as with
  | tail _ hy =>
      have hblank := hy c (htext ▸ List.mem_append_right as List.mem_cons_self)
      rw [hc] at hblank
      cases hblank
  | @letter d xs ys hd h ih =>
      cases as with
      | nil =>
          obtain ⟨rfl, rfl⟩ := List.cons.inj htext
          exact ⟨[], xs, rfl, nil, h⟩
      | cons a as =>
          rw [List.cons_append] at htext
          obtain ⟨rfl, hrest⟩ := List.cons.inj htext
          obtain ⟨as', bs', rfl, has, hbs⟩ := ih hrest
          exact ⟨a :: as', bs', rfl, .letter hd has, hbs⟩
  | @gap gx gy xs ys hx hy hxne hyne h ih =>
      rcases List.append_eq_append_iff.mp htext with ⟨zs, rfl, hzs⟩ | ⟨zs, rfl, hzs⟩
      · -- The letter would be one of the blanks.
        cases zs with
        | nil =>
            obtain ⟨as', bs', rfl, has, hbs⟩ := ih (show [] ++ c :: bs = ys from hzs)
            refine ⟨gx ++ as', bs', by rw [List.append_assoc], ?_, hbs⟩
            simpa using Respaced.gap hx hy hxne hyne has
        | cons z zs =>
            have hblank := hy z (List.mem_append_right as List.mem_cons_self)
            rw [← (List.cons.inj hzs).1, hc] at hblank
            cases hblank
      · obtain ⟨as', bs', rfl, has, hbs⟩ := ih hzs.symm
        exact ⟨gx ++ as', bs', by rw [List.append_assoc], .gap hx hy hxne hyne has, hbs⟩

theorem mem (h : Respaced xs ys) (hc : isBlank c = false) (hmem : c ∈ ys) : c ∈ xs := by
  obtain ⟨as, bs, rfl⟩ := List.append_of_mem hmem
  obtain ⟨as', bs', rfl, -⟩ := h.exists_split hc
  exact List.mem_append_right as' List.mem_cons_self

/-- Where a blank comes before a letter in one text, a blank comes before it in the other. -/
theorem exists_blank_cons (h : Respaced xs (d :: ys)) (hd : isBlank d = true)
    (hc : isBlank c = false) (hmem : c ∈ ys) :
    ∃ d' rest, xs = d' :: rest ∧ isBlank d' = true ∧ c ∈ rest := by
  have hfound : c ∈ xs := h.mem hc (List.mem_cons_of_mem _ hmem)
  cases xs with
  | nil => cases hfound
  | cons d' rest =>
      have hd' : isBlank d' = true := by
        by_contra hletter
        obtain ⟨rest', heq, -⟩ := h.symm.exists_cons (by simpa using hletter)
        rw [(List.cons.inj heq).1] at hd
        exact hletter hd
      refine ⟨d', rest, rfl, hd', (List.mem_cons.mp hfound).resolve_left ?_⟩
      rintro rfl
      rw [hc] at hd'
      cases hd'

/-- A blank in front of blanks makes no difference. -/
theorem blank_cons (h : Respaced xs ys) (hd : isBlank d = true)
    (hy : ∀ c, ys.head? = some c → isBlank c = true) : Respaced (d :: xs) ys := by
  cases h with
  | tail hx hy =>
      refine .tail (fun c hc => ?_) hy
      rcases List.mem_cons.mp hc with rfl | hc
      · exact hd
      · exact hx c hc
  | letter hc h =>
      have hblank := hy _ rfl
      rw [hc] at hblank
      cases hblank
  | gap ha hb hane hbne h =>
      have hda : ∀ c ∈ d :: _, isBlank c = true := fun c hc => by
        rcases List.mem_cons.mp hc with rfl | hc
        · exact hd
        · exact ha c hc
      exact Respaced.gap hda hb (List.cons_ne_nil _ _) hbne h

end Respaced

/-! ### Single spaces -/

theorem head?_behind (cs : List Char) :
    ∀ c, (behind ' ' cs).head? = some c → isBlank c = true := by
  intro c hc
  cases cs with
  | nil => cases hc
  | cons d cs =>
      cases hc
      rfl

theorem respaced_collapseOn_and (cs : List Char) : Respaced cs (collapseOn cs) ∧
    ∀ c, isBlank c = true → Respaced (c :: cs) (behind ' ' (collapse cs)) := by
  have hspace : ∀ x ∈ [' '], isBlank x = true := List.forall_mem_singleton.mpr rfl
  induction cs with
  | nil => exact ⟨.nil, fun c hc => .tail (List.forall_mem_singleton.mpr hc) nofun⟩
  | cons d cs ih =>
      cases hd : isBlank d with
      | true =>
          have hrest := ih.2 d hd
          rw [collapseOn_cons_of_blank hd, collapse_cons_of_blank hd]
          exact ⟨hrest, fun c hc => hrest.blank_cons hc (head?_behind _)⟩
      | false =>
          have hrest : Respaced (d :: cs) (d :: collapseOn cs) := .letter hd ih.1
          rw [collapseOn_cons hd, collapse_cons hd]
          refine ⟨hrest, fun c hc => ?_⟩
          exact .gap (List.forall_mem_singleton.mpr hc) hspace (List.cons_ne_nil c [])
            (List.cons_ne_nil ' ' []) hrest

/-- Putting single spaces between the words of a flush text respaces it. -/
theorem respaced_collapse (h : Flush cs) : Respaced cs (collapse cs) := by
  cases cs with
  | nil => exact .nil
  | cons c cs =>
      have hc : isBlank c = false := flush_cons_iff.mp h
      rw [collapse_cons hc]
      exact .letter hc (respaced_collapseOn_and cs).1

end TypePages.Chars
