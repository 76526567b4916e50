import TypePages.Proofs.References
import TypePages.Proofs.Sentences

/-!
A reference with a signature leads to the overload that has it.

The signature is written in one place and read in another, and what lies between the two is
`listedTypes_join`: the types that are read are those of the member.  A member of the name with these
types is then preferred to every other member of the name, and there is one, because the reference
was made from it.  The owner is either the context or found by its uid, and a uid that is found is
never looked for among the simple names, so types of the same name do not matter.

With nothing before the hash a reference stands for the context, so the owner has to have a uid to
be named by.  In a model of documents every type with members has one, since what is not given is
not read as a parent (`uid_ne_empty`).
-/

namespace TypePages

/-! ### Texts of what is given -/

namespace Binary64

theorem quantityText_ne_nil (m : Nat) (e : Int) : quantityText m e ≠ [] := by
  unfold quantityText
  split
  · exact List.cons_ne_nil _ _
  · unfold digitsText
    dsimp only
    split
    · split <;> simp
    · simp [exponentText]

theorem toText_ne_empty (x : Binary64) : x.toText ≠ "" := by
  cases x with
  | undefined => decide
  | infinite negative => cases negative <;> decide
  | finite negative m e =>
      rw [toText, Ne, String.ofList_eq_empty_iff]
      split
      · exact List.cons_ne_nil _ _
      · exact quantityText_ne_nil m e

end Binary64

/-- What is given is not written as the empty text. -/
theorem Value.display_ne_empty {v : Value} (h : v.isGiven = true) : v.display ≠ "" := by
  cases v with
  | list items => simp [display, shown]
  | mapping entries => simp [display, shown]
  | scalar s =>
      cases s with
      | null => cases h
      | bool b => cases b <;> decide
      | int n =>
          cases n with
          | ofNat n => exact Nat.repr_ne_empty
          | negSucc n => exact fun heq => absurd (String.append_eq_empty_iff.mp heq).1 (by decide)
      | real x => exact x.toText_ne_empty
      | text s => exact bne_iff_ne.mp h

/-- A loaded element has no parent or one with a uid. -/
theorem Element.Loaded.parent_ne {e : Element} (h : e.Loaded) : e.parent ≠ some "" := by
  obtain ⟨v, e', he', heq⟩ := h
  obtain ⟨entries, hparent, -⟩ := exists_fields_of_ofValue he'
  have hsame : e.parent = e'.parent := by rw [heq]
  rw [hsame]
  rw [Value.readGiven?] at hparent
  split at hparent
  next hgiven =>
    obtain ⟨uid, huid, huid'⟩ := Refusal.map_eq_ok.mp hparent
    obtain ⟨_, -, rfl⟩ := Refusal.map_eq_ok.mp huid
    rw [← huid', Ne, Option.some.injEq]
    exact Value.display_ne_empty hgiven
  · rw [← Except.ok.inj hparent]
    exact (Option.some_ne_none _).symm

namespace Inline

variable {m : Model} {owner e : Element} {context : Option Element}

/-! ### The owner -/

/-- In a model of documents a type with members has a uid. -/
theorem uid_ne_empty (hm : m.Loaded) (he : e ∈ m.membersOf owner) : owner.uid ≠ "" := by
  obtain ⟨hmem, hparent⟩ := List.mem_filter.mp he
  intro hempty
  rw [hempty] at hparent
  exact (hm e hmem).parent_ne (beq_iff_eq.mp hparent)

/-- A type is found by its uid, wherever the reference stands. -/
theorem findType?_uid (howner : owner ∈ m.elements) (htype : owner.isType = true) :
    findType? m context owner.uid = some owner := by
  unfold findType?
  rw [Model.find?_eq_some_iff.mpr ⟨howner, rfl⟩]
  exact if_pos htype

/-! ### The member -/

/-- The first member of a type that has the name and the parameter types of a given one. -/
def firstAlike (m : Model) (owner e : Element) : Option Element :=
  (m.membersOf owner).find? fun x => x.name == e.name && x.parameterTypes == e.parameterTypes

theorem exists_firstAlike (he : e ∈ m.membersOf owner) :
    ∃ x ∈ m.membersOf owner, firstAlike m owner e = some x ∧
      x.name = e.name ∧ x.parameterTypes = e.parameterTypes := by
  have hsome : (firstAlike m owner e).isSome = true :=
    List.find?_isSome.mpr ⟨e, he, by simp⟩
  obtain ⟨x, hx⟩ := Option.isSome_iff_exists.mp hsome
  have halike := List.find?_some hx
  rw [Bool.and_eq_true, beq_iff_eq, beq_iff_eq] at halike
  exact ⟨x, List.mem_of_find?_eq_some hx, hx, halike⟩

/-- The name and the signature of a member lead to the first member that has both. -/
theorem findMember?_signature (h : Readable e) (he : e ∈ m.membersOf owner) :
    findMember? m owner (e.name ++ e.signature).toList = firstAlike m owner e := by
  obtain ⟨x, -, hx, -⟩ := exists_firstAlike he
  have hfind : ((m.membersOf owner).filter (·.name == e.name)).find?
      (·.parameterTypes == e.parameterTypes) = some x := by
    rw [List.find?_filter, ← hx, firstAlike]
    refine congrArg (List.find? · _) (funext fun y => ?_)
    rw [Bool.decide_and, Bool.decide_eq_true, Bool.decide_eq_true]
  rw [String.toList_append, toList_signature, findMember?_eq h.name, listedTypes_join h, hfind, hx,
    Option.some_or]

/-- **A reference by name and signature leads to a member with this name and these parameter
types.**  It does so behind a hash in the context of the type, and in every context behind the uid
of the type, unless that is empty, which it never is in a model of documents.  Both ways lead to the
same member. -/
theorem resolve?_signature (howner : owner ∈ m.elements) (htype : owner.isType = true)
    (hhash : '#' ∉ owner.uid.toList) (he : e ∈ m.membersOf owner) (h : Readable e) :
    ∃ x ∈ m.membersOf owner, (x.name = e.name ∧ x.parameterTypes = e.parameterTypes) ∧
      resolve? m (some owner) ("#" ++ e.name ++ e.signature) = some x ∧
      (m.Loaded ∨ owner.uid ≠ "" →
        ∀ context, resolve? m context (owner.uid ++ "#" ++ e.name ++ e.signature) = some x) := by
  obtain ⟨x, hx, hfirst, halike⟩ := exists_firstAlike he
  have hmember : (e.name ++ e.signature).toList ≠ [] := by
    rw [String.toList_append, toList_signature]
    simp
  refine ⟨x, hx, halike, ?_, fun huid context => ?_⟩
  · have href : "#" ++ e.name ++ e.signature =
        .ofList ([] ++ '#' :: (e.name ++ e.signature).toList) := by
      rw [← String.toList_inj, String.toList_ofList]
      simp [String.toList_append]
    rw [href, resolve?_behind List.not_mem_nil hmember rfl, findMember?_signature h he, hfirst]
  · have href : owner.uid ++ "#" ++ e.name ++ e.signature =
        .ofList (owner.uid.toList ++ '#' :: (e.name ++ e.signature).toList) := by
      rw [← String.toList_inj, String.toList_ofList]
      simp [String.toList_append]
    have hne : owner.uid ≠ "" := huid.elim (fun hm => uid_ne_empty hm he) id
    have hempty : owner.uid.toList.isEmpty = false :=
      List.isEmpty_eq_false_iff.mpr fun hnil => hne (String.toList_eq_nil_iff.mp hnil)
    rw [href, resolve?_behind hhash hmember, findMember?_signature h he, hfirst]
    rw [hempty, String.ofList_toList]
    exact findType?_uid howner htype

/-! ### Shelves of two packages

Both types have the simple name of the other, and the methods of one share their name with a field.
-/

/-- A type of shelves. -/
def shelf (package : String) : Element where
  uid := package ++ ".Shelf"
  kind := .classType
  name := "Shelf"
  fullName := package ++ ".Shelf"
  package

/-- A member of the red shelves with parameters of the given types. -/
def putting (kind : Element.Kind) (uid : String) (types : List String) : Element where
  uid
  kind
  name := "put"
  fullName := uid
  parent := some "red.Shelf"
  parameters := types.map fun type => { name := "x", type }

/-- The method that takes a function and a count. -/
def putMapped : Element := putting .method "red.Shelf.put(..)" ["(int) -> int", "unsigned int"]

/-- The shelves. -/
def shelves : Model where
  elements := [shelf "blue", putting .field "red.Shelf.put" [],
    putting .method "red.Shelf.put(int)" ["int"], shelf "red", putMapped]
  distinct_uids := by decide +kernel
  minAccess := .text "public"
  external := []

/-- The method is found from the other type of the same name and from nowhere. -/
theorem resolve?_signature_putMapped :
    resolve? shelves (some (shelf "red")) "#put((int) -> int, unsigned int)" = some putMapped ∧
      ∀ context ∈ [none, some (shelf "blue"), some putMapped],
        resolve? shelves context "red.Shelf#put((int) -> int, unsigned int)" = some putMapped := by
  have howner : shelf "red" ∈ shelves.elements := by decide +kernel
  have hmember : putMapped ∈ shelves.membersOf (shelf "red") := by decide +kernel
  have hreadable : Readable putMapped := by
    constructor <;> decide +kernel
  obtain ⟨x, hx, halike, hcontext, huid⟩ :=
    resolve?_signature howner rfl (by decide +kernel) hmember hreadable
  have hput : ∀ y ∈ shelves.membersOf (shelf "red"),
      y.name = putMapped.name ∧ y.parameterTypes = putMapped.parameterTypes → y = putMapped := by
    decide +kernel
  obtain rfl := hput x hx halike
  exact ⟨hcontext, fun context _ => huid (.inr (by decide +kernel)) context⟩

end Inline

end TypePages
