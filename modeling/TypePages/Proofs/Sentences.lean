import TypePages.Comment.Sentence
import TypePages.Proofs.Catalog
import TypePages.Proofs.Leaves
import TypePages.Proofs.Refusal

/-!
Bodies without a first sentence.

Cutting a text at the end of its first paragraph and of its first sentence keeps the character that
it starts with, so only a blank body has no first sentence.  A body that was read from a document is
never blank without being empty, because whatever is read there is *flush*: it does not start with a
blank.  So where the summary has nothing to show of such a body, there is no body.
-/

namespace TypePages

/-! ### First sentences -/

namespace Comment

open Text (isBlank)

variable {c : Char} {cs : List Char}

theorem paragraph_prefix (cs : List Char) : paragraph cs <+: cs := by
  unfold paragraph
  split
  · exact List.prefix_rfl
  · exact untilBreak_prefix cs

theorem exists_paragraph (c : Char) (cs : List Char) : ∃ rest, paragraph (c :: cs) = c :: rest := by
  unfold paragraph
  split
  · exact ⟨cs, rfl⟩
  next hne =>
    unfold untilBreak at hne ⊢
    split
    next hbreaks => exact absurd (if_pos hbreaks) hne
    · exact ⟨untilBreak cs, rfl⟩

theorem exists_untilStop (c : Char) (cs : List Char) : ∃ rest, untilStop (c :: cs) = c :: rest := by
  unfold untilStop
  split
  · exact ⟨[], rfl⟩
  · exact ⟨untilStop cs, rfl⟩

/-- A text has no first sentence exactly when it is blank. -/
theorem sentence_eq_nil_iff : sentence cs = [] ↔ Chars.trim cs = [] := by
  unfold sentence
  cases htrim : Chars.trim cs with
  | nil => exact iff_of_true rfl rfl
  | cons c rest =>
      obtain ⟨part, hpart⟩ := exists_paragraph c rest
      obtain ⟨start, hstart⟩ := exists_untilStop c part
      rw [hpart, hstart]
      have hc : isBlank c = false := Chars.flush_trim cs c rest htrim
      exact iff_of_false (Chars.collapse_ne_nil hc start) (List.cons_ne_nil _ _)

/-- Without a first sentence a flush body is empty. -/
theorem eq_empty_of_firstSentence {body : String} (hflush : Chars.Flush body.toList)
    (h : firstSentence body = "") : body = "" := by
  have hnil : sentence body.toList = [] := by
    rw [← String.toList_ofList (l := sentence body.toList)]
    exact congrArg String.toList h
  exact String.toList_eq_nil_iff.mp (hflush.eq_nil_of_trim (sentence_eq_nil_iff.mp hnil))

end Comment

/-! ### What is read from documents -/

namespace Comment

theorem eq_of_nonempty? {c c' : Comment} (h : c.nonempty? = some c') : c' = c := by
  unfold nonempty? at h
  split at h
  · cases h
  · exact (Option.some.inj h).symm

/-- The body of a comment that was read from a document is flush. -/
theorem flush_of_ofValue? {v : Value} {c : Comment} (h : ofValue? v = .ok (some c)) :
    Chars.Flush c.body.toList := by
  unfold ofValue? at h
  split at h
  · cases h
  next entries =>
    obtain ⟨c', hc', h₁⟩ := Refusal.bind_eq_ok.mp h
    rw [eq_of_nonempty? (Refusal.pure_eq_ok.mp h₁)]
    obtain ⟨_, -, h₂⟩ := Refusal.bind_eq_ok.mp hc'
    obtain ⟨tags, -, h₃⟩ := Refusal.bind_eq_ok.mp h₂
    obtain ⟨body, hbody, h₄⟩ := Refusal.bind_eq_ok.mp h₃
    rw [← Refusal.pure_eq_ok.mp h₄]
    obtain ⟨_, -, rfl⟩ := Refusal.map_eq_ok.mp hbody
    exact (Value.tight_prose _).flush
  · obtain ⟨text, -, h₁⟩ := Refusal.bind_eq_ok.mp h
    rw [eq_of_nonempty? (Refusal.pure_eq_ok.mp h₁)]
    exact (Chars.tight_ofList_trim _).flush

end Comment

/-! ### Elements and models that were read from documents -/

/-- An element as an item of a document describes it, but for the access that its enclosing type may
have given it. -/
def Element.Loaded (e : Element) : Prop :=
  ∃ v e', Element.ofValue v = .ok e' ∧ e = { e' with access := e.access }

/-- A model whose elements were all read from documents. -/
def Model.Loaded (m : Model) : Prop := ∀ e ∈ m.elements, e.Loaded

namespace Element

variable {e : Element} {v : Value}

/-- What fields of a mapping say about the element that is read from it. -/
structure ReadFrom (entries : List (Scalar × Value)) (e : Element) : Prop where
  uid : (Value.fieldOf entries "uid").readText = .ok e.uid
  parent : (Value.fieldOf entries "parent").readGiven? = .ok e.parent
  access : ∃ text, (Value.fieldOf entries "access").readProse = .ok text ∧
    e.access = (nonempty? (Text.lower text)).getD "package"
  statesAccess : e.statesAccess = (entryAt? (.text "access") entries).isSome
  comment : Comment.ofValue? (Value.fieldOf entries "comment") = .ok e.comment

theorem readFrom_of_ofFields {entries : List (Scalar × Value)} (h : ofFields entries = .ok e) :
    ReadFrom entries e := by
  unfold ofFields at h
  obtain ⟨uid, huid, h⟩ := Refusal.bind_eq_ok.mp h
  obtain ⟨kind, -, h⟩ := Refusal.bind_eq_ok.mp h
  obtain ⟨name, -, h⟩ := Refusal.bind_eq_ok.mp h
  obtain ⟨fullName, -, h⟩ := Refusal.bind_eq_ok.mp h
  obtain ⟨parent, hparent, h⟩ := Refusal.bind_eq_ok.mp h
  obtain ⟨package, -, h⟩ := Refusal.bind_eq_ok.mp h
  obtain ⟨access, haccess, h⟩ := Refusal.bind_eq_ok.mp h
  obtain ⟨_, -, h⟩ := Refusal.bind_eq_ok.mp h
  obtain ⟨modifiers, -, h⟩ := Refusal.bind_eq_ok.mp h
  obtain ⟨_, -, h⟩ := Refusal.bind_eq_ok.mp h
  obtain ⟨parameters, -, h⟩ := Refusal.bind_eq_ok.mp h
  obtain ⟨returnType, -, h⟩ := Refusal.bind_eq_ok.mp h
  obtain ⟨superclass, -, h⟩ := Refusal.bind_eq_ok.mp h
  obtain ⟨interfaces, -, h⟩ := Refusal.bind_eq_ok.mp h
  obtain ⟨overrides, -, h⟩ := Refusal.bind_eq_ok.mp h
  obtain ⟨defaultValue, -, h⟩ := Refusal.bind_eq_ok.mp h
  obtain ⟨comment, hcomment, h⟩ := Refusal.bind_eq_ok.mp h
  rw [← Refusal.pure_eq_ok.mp h]
  exact ⟨huid, hparent, ⟨access, haccess, rfl⟩, rfl, hcomment⟩

/-- The parent and the comment of an element are read from two fields of its item. -/
theorem exists_fields_of_ofValue (h : ofValue v = .ok e) :
    ∃ entries, (Value.fieldOf entries "parent").readGiven? = .ok e.parent ∧
      Comment.ofValue? (Value.fieldOf entries "comment") = .ok e.comment := by
  unfold ofValue at h
  split at h
  next entries =>
    have hread := readFrom_of_ofFields h
    exact ⟨entries, hread.parent, hread.comment⟩
  · cases h

/-- The body of a loaded element's comment is flush. -/
theorem Loaded.flush (h : e.Loaded) : Chars.Flush (e.comment.getD .empty).body.toList := by
  obtain ⟨v, e', he', heq⟩ := h
  have hsame : e.comment = e'.comment := by rw [heq]
  obtain ⟨_, -, hw⟩ := exists_fields_of_ofValue he'
  rw [← hsame] at hw
  cases hc : e.comment with
  | none => exact Chars.flush_nil
  | some c => exact Comment.flush_of_ofValue? (hc ▸ hw)

theorem loaded_of_ofValue (h : ofValue v = .ok e) : e.Loaded := ⟨v, e, h, rfl⟩

end Element

namespace Catalog

variable {c c' : Catalog} {e x : Element}

theorem mem_put {es : List Element} (h : x ∈ put e es) : x = e ∨ x ∈ es := by
  induction es with
  | nil => exact .inl (List.mem_singleton.mp h)
  | cons y es ih =>
      unfold put at h
      split at h
      · exact (List.mem_cons.mp h).imp_right (List.mem_cons_of_mem y)
      · rcases List.mem_cons.mp h with rfl | h
        · exact .inr List.mem_cons_self
        · exact (ih h).imp_right (List.mem_cons_of_mem y)

theorem loaded_grantAccess (h : e.Loaded) : (c.grantAccess e).Loaded := by
  obtain ⟨v, e', he', heq⟩ := h
  refine ⟨v, e', he', ?_⟩
  unfold grantAccess
  split
  · split
    · rw [heq]
    · exact heq
  · exact heq

/-- Whatever is in the catalog of some documents is loaded. -/
theorem loaded_of_ofDocuments {docs : List Value} (h : ofDocuments docs = .ok c) :
    ∀ e ∈ c.elements, e.Loaded := by
  obtain ⟨read, hread, h₁⟩ := Refusal.bind_eq_ok.mp h
  have hloaded : ∀ e ∈ read.elements, e.Loaded := by
    refine Refusal.foldlM_preserves (P := fun c => ∀ e ∈ c.elements, e.Loaded)
      (fun c doc c' hc hdoc => ?_) (fun e he => absurd he List.not_mem_nil) hread
    obtain ⟨items, -, hitems⟩ := Refusal.bind_eq_ok.mp hdoc
    refine Refusal.foldlM_preserves (P := fun c => ∀ e ∈ c.elements, e.Loaded)
      (fun c item c' hc hitem => ?_) hc hitems
    obtain ⟨e, he, h₂⟩ := Refusal.bind_eq_ok.mp hitem
    rw [← Refusal.pure_eq_ok.mp h₂]
    intro x hx
    rcases mem_put hx with rfl | hx
    · exact Element.loaded_of_ofValue he
    · exact hc x hx
  rw [← Refusal.pure_eq_ok.mp h₁]
  intro e he
  obtain ⟨x, hx, rfl⟩ := List.mem_map.mp he
  exact loaded_grantAccess (hloaded x hx)

end Catalog

end TypePages
