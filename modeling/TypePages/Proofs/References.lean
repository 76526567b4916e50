import TypePages.Link.Inline
import TypePages.Proofs.Hiding
import TypePages.Proofs.PagePath
import TypePages.Proofs.Targets
import TypePages.Proofs.Trimmed

/-!
Links to members that are spelled with their parameter types.

A member is shown as its name and its parameter types, with a comma and a space between two of them,
and the same text behind a hash is meant to refer to it.  Reading it takes three cuts: the tag ends
at the brace, the reference at the first space, and the list of types at its commas.  The last one
undoes the writing for any number of types (`listedTypes_join`), so a whole reference leads to its
member.  The second one cuts a list of two or more types after its first comma, and then the rest of
the list is taken for the label: `markdown_link_iff` says that this and hashes within the types are
all that keeps a member from being linked as it is shown.
-/

namespace TypePages.Inline

open Text (isBlank)

variable {m : Model} {root : Value} {ts : Targets} {owner e x : Element} {t tx : Target}

/-! ### Spelling of members -/

/-- A member whose name and parameter types can be told from what stands around them. -/
structure Spelled (e : Element) : Prop where
  name_ne : e.name ≠ ""
  name_chars : ∀ c ∈ e.name.toList, isBlank c = false ∧ c ∉ ['(', '#', '\x7d']
  type_ne : ∀ s ∈ e.parameterTypes, s ≠ ""
  type_chars : ∀ s ∈ e.parameterTypes, ∀ c ∈ s.toList,
    isBlank c = false ∧ c ∉ [',', '(', ')', '\x7d']

/-- A member whose name and parameter types are read back from its signature. -/
structure Readable (e : Element) : Prop where
  name : '(' ∉ e.name.toList
  type_ne : ∀ s ∈ e.parameterTypes, s ≠ ""
  type_trim : ∀ s ∈ e.parameterTypes, Chars.trim s.toList = s.toList
  type_comma : ∀ s ∈ e.parameterTypes, ',' ∉ s.toList
  type_last : ∀ s ∈ e.parameterTypes, s.toList.getLast? ≠ some ')'

theorem Spelled.readable (h : Spelled e) : Readable e where
  name hc := (h.name_chars _ hc).2 (by decide)
  type_ne := h.type_ne
  type_trim s hs := (Chars.tight_of_forall fun c hc => (h.type_chars s hs c hc).1).trim_eq
  type_comma s hs hc := (h.type_chars s hs ',' hc).2 (by decide)
  type_last s hs hlast := (h.type_chars s hs ')' (List.mem_of_getLast? hlast)).2 (by decide)

/-- The list of types as a signature shows it, without the parentheses. -/
def typeList (types : List String) : List Char := [',', ' '].intercalate (types.map (·.toList))

/-- The reference to a member of the type in whose context it stands. -/
def reference (e : Element) : List Char :=
  '#' :: (e.name.toList ++ '(' :: (typeList e.parameterTypes ++ [')']))

theorem toList_signature (e : Element) :
    e.signature.toList = '(' :: (typeList e.parameterTypes ++ [')']) := by
  have hjoin : (Text.join ", " e.parameterTypes).toList = typeList e.parameterTypes :=
    String.toList_ofList
  rw [Element.signature, String.toList_append, String.toList_append, hjoin]
  rfl

theorem mem_typeList {types : List String} {c : Char} (h : c ∈ typeList types) :
    c = ',' ∨ c = ' ' ∨ ∃ s ∈ types, c ∈ s.toList := by
  rcases Chars.mem_intercalate h with h | ⟨part, hpart, h⟩
  · rcases List.mem_pair.mp h with rfl | rfl
    · exact .inl rfl
    · exact .inr (.inl rfl)
  · obtain ⟨s, hs, rfl⟩ := List.mem_map.mp hpart
    exact .inr (.inr ⟨s, hs, h⟩)

theorem mem_typeList_of_mem {types : List String} {s : String} {c : Char} (hs : s ∈ types)
    (hc : c ∈ s.toList) : c ∈ typeList types := by
  cases types with
  | nil => cases hs
  | cons s' types =>
      rw [typeList, List.map_cons, Chars.intercalate_cons, List.flatMap_map, List.mem_append,
        List.mem_flatMap]
      rcases List.mem_cons.mp hs with rfl | hs
      · exact .inl hc
      · exact .inr ⟨s, hs, List.mem_append_right _ hc⟩

/-- With one type at most there is no separator. -/
theorem mem_typeList_of_short (h : e.parameters.length ≤ 1) {c : Char}
    (hc : c ∈ typeList e.parameterTypes) : ∃ s ∈ e.parameterTypes, c ∈ s.toList := by
  have hlength : e.parameterTypes.length ≤ 1 := by rwa [Element.parameterTypes, List.length_map]
  cases htypes : e.parameterTypes with
  | nil =>
      rw [htypes] at hc
      cases hc
  | cons s types =>
      rw [htypes, List.length_cons] at hlength
      have hnil : types = [] := List.eq_nil_of_length_eq_zero (by omega)
      rw [htypes, hnil, typeList, List.map_singleton, List.intercalate_singleton] at hc
      exact ⟨s, List.mem_cons_self, hc⟩

theorem mem_reference {c : Char} : c ∈ reference e ↔
    c = '#' ∨ c ∈ e.name.toList ∨ c = '(' ∨ c ∈ typeList e.parameterTypes ∨ c = ')' := by
  rw [reference, List.mem_cons, List.mem_append, List.mem_cons, List.mem_append,
    List.mem_singleton]

/-- Parentheses and braces do not occur in the list of types. -/
theorem Spelled.notMem_typeList (h : Spelled e) {c : Char} (hc : c ∈ ['(', ')', '\x7d']) :
    c ∉ typeList e.parameterTypes := by
  intro hmem
  rcases mem_typeList hmem with rfl | rfl | ⟨s, hs, hcs⟩
  · exact absurd hc (by decide)
  · exact absurd hc (by decide)
  · exact (h.type_chars s hs c hcs).2 (List.mem_cons_of_mem _ hc)

/-! ### The list of types -/

/-- With the space counted to the type behind it, the list has one-character separators. -/
theorem typeList_cons (s : String) (types : List String) : typeList (s :: types) =
    [','].intercalate (s.toList :: types.map fun s => ' ' :: s.toList) := by
  rw [typeList, List.map_cons, Chars.intercalate_cons, Chars.intercalate_cons, List.flatMap_map,
    List.flatMap_map]
  rfl

theorem typeList_cons_cons (s s' : String) (types : List String) :
    typeList (s :: s' :: types) = s.toList ++ ',' :: ' ' :: typeList (s' :: types) := by
  rw [typeList, List.map_cons, List.map_cons, List.intercalate_cons_cons, List.append_assoc]
  rfl

/-- Parts that are not empty and do not end in a character do not end in it together. -/
theorem getLast?_typeList {types : List String} {c : Char}
    (h : ∀ s ∈ types, s ≠ "" ∧ s.toList.getLast? ≠ some c) :
    (typeList types).getLast? ≠ some c := by
  induction types with
  | nil => simp [typeList]
  | cons s types ih =>
      cases types with
      | nil =>
          rw [typeList, List.map_singleton, List.intercalate_singleton]
          exact (h s List.mem_cons_self).2
      | cons s' types =>
          have hrest : typeList (s' :: types) ≠ [] := by
            intro hnil
            rw [typeList, List.map_cons, Chars.intercalate_cons] at hnil
            exact (h s' (by simp)).1 (String.toList_eq_nil_iff.mp (List.append_eq_nil_iff.mp hnil).1)
          have hcons : typeList (s :: s' :: types) =
              (s.toList ++ [',', ' ']) ++ typeList (s' :: types) := by
            rw [typeList_cons_cons, List.append_assoc]
            rfl
          rw [hcons, List.getLast?_append_of_ne_nil _ hrest]
          exact ih fun x hx => h x (List.mem_cons_of_mem _ hx)

/-- The closing parenthesis is dropped, and no part of a type with it. -/
theorem dropWhileEnd_typeList (h : Readable e) :
    Chars.dropWhileEnd (· == ')') (typeList e.parameterTypes ++ [')']) =
      typeList e.parameterTypes := by
  have hlast := getLast?_typeList fun s hs => ⟨h.type_ne s hs, h.type_last s hs⟩
  rw [Chars.dropWhileEnd_eq, List.rdropWhile_concat_pos _ _ _ (by simp),
    List.rdropWhile_eq_self_iff]
  intro hne hparen
  rw [List.getLast?_eq_some_getLast hne, beq_iff_eq.mp hparen] at hlast
  exact hlast rfl

/-- The list is cut back into its types, of which there has to be one. -/
theorem splitOn_typeList (h : Readable e) (hne : e.parameterTypes ≠ []) :
    ((typeList e.parameterTypes).splitOn ',').map Chars.trim =
      e.parameterTypes.map (·.toList) := by
  have htrim := h.type_trim
  have hcomma := h.type_comma
  obtain ⟨s, types, htypes⟩ := List.exists_cons_of_ne_nil hne
  rw [htypes] at htrim hcomma
  rw [htypes, typeList_cons, List.splitOn_intercalate _ _ (List.cons_ne_nil _ _), List.map_cons,
    htrim s List.mem_cons_self, List.map_map, List.map_cons]
  · refine congrArg _ (List.map_congr_left fun s' hs' => ?_)
    exact (Chars.trim_cons_of_blank (by decide) _).trans
      (htrim s' (List.mem_cons_of_mem _ hs'))
  · intro l hl
    rcases List.mem_cons.mp hl with rfl | hl
    · exact hcomma s List.mem_cons_self
    · obtain ⟨s', hs', rfl⟩ := List.mem_map.mp hl
      rw [List.mem_cons, not_or]
      exact ⟨by decide, hcomma s' (List.mem_cons_of_mem _ hs')⟩

/-- What is listed is read back, whatever the number of types. -/
theorem listedTypes_join (h : Readable e) :
    listedTypes (typeList e.parameterTypes ++ [')']) = e.parameterTypes := by
  rw [listedTypes, dropWhileEnd_typeList h]
  by_cases hnil : e.parameterTypes = []
  · rw [hnil]
    rfl
  · rw [splitOn_typeList h hnil, List.filter_eq_self.mpr, List.map_map]
    · exact (List.map_congr_left fun s _ => String.ofList_toList).trans (List.map_id _)
    · intro l hl
      obtain ⟨s, hs, rfl⟩ := List.mem_map.mp hl
      have hne : s.toList ≠ [] := fun heq => h.type_ne s hs (String.toList_eq_nil_iff.mp heq)
      rw [List.isEmpty_eq_false_iff.mpr hne]
      rfl

/-! ### What a reference resolves to -/

/-- What stands behind the hash is looked for in the type that is named before it, or where none is
in the context. -/
theorem resolve?_behind {context : Option Element} {type member : List Char} (hhash : '#' ∉ type)
    (hmember : member ≠ [])
    (howner : (if type.isEmpty then context else findType? m context (.ofList type)) = some owner) :
    resolve? m context (.ofList (type ++ '#' :: member)) = findMember? m owner member := by
  obtain ⟨c, cs, rfl⟩ := List.exists_cons_of_ne_nil hmember
  unfold resolve?
  rw [String.toList_ofList, Chars.cut_append_cons hhash]
  cases htype : type.isEmpty with
  | true =>
      rw [if_pos htype] at howner
      simp only [htype, if_true, howner]
      rfl
  | false =>
      rw [if_neg (by simp [htype])] at howner
      simp only [htype, Bool.false_eq_true, if_false, howner]
      rfl

/-- Of the members of a name one with the listed types is preferred. -/
theorem findMember?_eq (hname : '(' ∉ e.name.toList) (rest : List Char) :
    findMember? m owner (e.name.toList ++ '(' :: rest) =
      (((m.membersOf owner).filter (·.name == e.name)).find?
          (·.parameterTypes == listedTypes rest)).or
        ((m.membersOf owner).filter (·.name == e.name)).head? := by
  unfold findMember?
  rw [Chars.cut_append_cons hname]
  simp only [String.ofList_toList]

theorem resolve?_member (h : Readable e) (rest : List Char) :
    resolve? m (some owner) (.ofList ('#' :: (e.name.toList ++ '(' :: rest))) =
      (((m.membersOf owner).filter (·.name == e.name)).find?
          (·.parameterTypes == listedTypes rest)).or
        ((m.membersOf owner).filter (·.name == e.name)).head? :=
  (resolve?_behind List.not_mem_nil (by simp) rfl).trans (findMember?_eq h.name rest)

/-- A reference that has its opening parenthesis finds some member of the name, even if it was cut
behind it. -/
theorem exists_resolve? (h : Spelled e) (he : e ∈ m.membersOf owner) (rest : List Char) :
    ∃ x ∈ m.membersOf owner,
      resolve? m (some owner) (.ofList ('#' :: (e.name.toList ++ '(' :: rest))) = some x := by
  have hnamed : e ∈ (m.membersOf owner).filter (·.name == e.name) :=
    List.mem_filter.mpr ⟨he, by simp⟩
  have hmem : ∀ x ∈ (m.membersOf owner).filter (·.name == e.name), x ∈ m.membersOf owner :=
    fun x hx => (List.mem_filter.mp hx).1
  rw [resolve?_member h.readable]
  cases hfind : ((m.membersOf owner).filter (·.name == e.name)).find?
      (·.parameterTypes == listedTypes rest) with
  | some x => exact ⟨x, hmem x (List.mem_of_find?_eq_some hfind), rfl⟩
  | none =>
      cases hhead : ((m.membersOf owner).filter (·.name == e.name)).head? with
      | none => exact absurd (List.head?_eq_none_iff.mp hhead ▸ hnamed) List.not_mem_nil
      | some x => exact ⟨x, hmem x (List.mem_of_head? hhead), rfl⟩

/-- A whole reference resolves to its member, whatever the number of types. -/
theorem resolve?_reference (h : Spelled e) (he : e ∈ m.membersOf owner)
    (hunique : ∀ x ∈ m.membersOf owner, x.name = e.name → x.parameterTypes = e.parameterTypes →
      x = e) :
    resolve? m (some owner) (.ofList (reference e)) = some e := by
  have hnamed : e ∈ (m.membersOf owner).filter (·.name == e.name) :=
    List.mem_filter.mpr ⟨he, by simp⟩
  rw [reference, resolve?_member h.readable, listedTypes_join h.readable]
  cases hfind : ((m.membersOf owner).filter (·.name == e.name)).find?
      (·.parameterTypes == e.parameterTypes) with
  | none => exact absurd (List.find?_eq_none.mp hfind e hnamed) (by simp)
  | some x =>
      obtain ⟨hx, hname⟩ := List.mem_filter.mp (List.mem_of_find?_eq_some hfind)
      have htypes : (x.parameterTypes == e.parameterTypes) = true :=
        List.find?_some (p := fun y : Element => y.parameterTypes == e.parameterTypes) hfind
      rw [hunique x hx (beq_iff_eq.mp hname) (beq_iff_eq.mp htypes)]
      rfl

/-! ### The tag -/

theorem tagHere?_link {content : List Char} (hbrace : '\x7d' ∉ content)
    (htrim : Chars.trim content = content) :
    tagHere? ("\x7b@link ".toList ++ (content ++ ['\x7d'])) = some (.link, content, []) := by
  have huse : (Chars.afterStart? ['\x7b', '@'] ("\x7b@link ".toList ++ (content ++ ['\x7d']))).bind
      useHere? = some (.link, ' ' :: (content ++ ['\x7d'])) := rfl
  have hcut : Chars.cut '\x7d' (' ' :: (content ++ ['\x7d'])) = (' ' :: content, some []) := by
    have hspace : '\x7d' ∉ ' ' :: content := by
      rw [List.mem_cons, not_or]
      exact ⟨by decide, hbrace⟩
    exact Chars.cut_append_cons hspace []
  unfold tagHere?
  rw [huse]
  simp only [hcut, Chars.trim_cons_of_blank (c := ' ') (by decide), htrim]

/-- The text that is meant to link a member. -/
def linkTo (e : Element) : String := "\x7b@link #" ++ e.name ++ e.signature ++ "\x7d"

theorem toList_linkTo (e : Element) :
    (linkTo e).toList = "\x7b@link ".toList ++ (reference e ++ ['\x7d']) := by
  rw [linkTo, String.toList_append, String.toList_append, String.toList_append, toList_signature,
    reference]
  simp

theorem Spelled.brace_notMem (h : Spelled e) : '\x7d' ∉ reference e := by
  rw [mem_reference]
  rintro (heq | hname | heq | htypes | heq)
  · exact absurd heq (by decide)
  · exact (h.name_chars _ hname).2 (by decide)
  · exact absurd heq (by decide)
  · exact h.notMem_typeList (by decide) htypes
  · exact absurd heq (by decide)

/-- The text becomes what its reference stands for, and nothing else. -/
theorem markdown_linkTo (h : Spelled e) :
    markdown m ts (some owner) (linkTo e) = .ofList (linkText m ts (some owner) (reference e)) := by
  have htrim : Chars.trim (reference e) = reference e := by
    have hends : reference e =
        ('#' :: (e.name.toList ++ '(' :: typeList e.parameterTypes)) ++ [')'] := by
      simp [reference]
    have htight := Chars.tight_of_ends (by decide : isBlank '#' = false)
      (by decide : isBlank ')' = false) hends
    exact htight.trim_eq
  have htag := tagHere?_link h.brace_notMem htrim
  rw [markdown, toList_linkTo]
  show String.ofList (markdownChars m ts (some owner)
    ('\x7b' :: ("@link ".toList ++ (reference e ++ ['\x7d'])))) = _
  unfold markdownChars
  split
  next use content rest heq =>
    have heq : some (use, content, rest) = some (.link, reference e, []) := heq.symm.trans htag
    cases heq
    rw [markdownChars, List.append_nil]
    rfl
  next heq => exact absurd (heq.symm.trans htag) (by simp)

/-! ### Where a reference is cut -/

/-- With one type at most there is no space to cut at, and the label is what is behind the hash,
with a dot for every further one. -/
theorem linkText_of_short (h : Spelled e) (hshort : e.parameters.length ≤ 1)
    (hresolve : resolve? m (some owner) (.ofList (reference e)) = some e)
    (hte : ts.find? e.uid = some t) :
    linkText m ts (some owner) (reference e) =
      '[' :: (Chars.replace '#' ['.'] (e.name ++ e.signature).toList ++
        "](".toList ++ t.page.toList ++ [')']) := by
  have hspace : ' ' ∉ reference e := by
    rw [mem_reference]
    rintro (heq | hname | heq | htypes | heq)
    · exact absurd heq (by decide)
    · exact absurd (h.name_chars _ hname).1 (by decide)
    · exact absurd heq (by decide)
    · obtain ⟨s, hs, hc⟩ := mem_typeList_of_short hshort htypes
      exact absurd (h.type_chars s hs _ hc).1 (by decide)
    · exact absurd heq (by decide)
  have hdrop : (reference e).dropWhile (· == '#') = (e.name ++ e.signature).toList := by
    rw [String.toList_append, toList_signature, reference, List.dropWhile_cons_of_pos (by simp)]
    obtain ⟨c, cs, hname⟩ := List.exists_cons_of_ne_nil fun heq =>
      h.name_ne (String.toList_eq_nil_iff.mp heq)
    have hc : c ≠ '#' := fun heq => (h.name_chars c (hname ▸ List.mem_cons_self)).2 (by simp [heq])
    rw [hname, List.cons_append, List.dropWhile_cons_of_neg (by simp [hc])]
  unfold linkText
  rw [Chars.cut_of_notMem hspace]
  simp only [hresolve, hdrop, Option.getD_none, Option.bind_some, hte]
  rfl

/-- A label as it is shown, with a link where there is a target. -/
def labelled (target? : Option Target) (label : List Char) : List Char :=
  match target? with
  | some t => '[' :: label ++ "](".toList ++ t.page.toList ++ [')']
  | none => codeSpan label

/-- With two types or more the list is cut behind its first comma. -/
theorem cut_reference_of_long (h : Spelled e) {s s' : String} {types : List String}
    (htypes : e.parameterTypes = s :: s' :: types) :
    Chars.cut ' ' (reference e) = ('#' :: (e.name.toList ++ '(' :: (s.toList ++ [','])),
      some (typeList (s' :: types) ++ [')'])) := by
  have hrest : reference e = ('#' :: (e.name.toList ++ '(' :: (s.toList ++ [',']))) ++
      ' ' :: (typeList (s' :: types) ++ [')']) := by
    rw [reference, htypes, typeList_cons_cons]
    simp
  rw [hrest]
  refine Chars.cut_append_cons ?_ _
  rw [List.mem_cons, List.mem_append, List.mem_cons, List.mem_append, List.mem_singleton]
  rintro (heq | hname | heq | hs | heq)
  · exact absurd heq (by decide)
  · exact absurd (h.name_chars _ hname).1 (by decide)
  · exact absurd heq (by decide)
  · exact absurd (h.type_chars s (htypes ▸ List.mem_cons_self) _ hs).1 (by decide)
  · exact absurd heq (by decide)

/-- What follows the first comma is then the label. -/
theorem linkText_of_long (h : Spelled e) {s s' : String} {types : List String}
    (htypes : e.parameterTypes = s :: s' :: types) :
    linkText m ts (some owner) (reference e) =
      labelled ((resolve? m (some owner)
          (.ofList ('#' :: (e.name.toList ++ '(' :: (s.toList ++ [',']))))).bind (ts.find? ·.uid))
        (typeList (s' :: types) ++ [')']) := by
  obtain ⟨c, cs, hlabel, hc⟩ : ∃ c cs, typeList (s' :: types) ++ [')'] = c :: cs ∧
      isBlank c = false := by
    have hs' : s' ∈ e.parameterTypes := htypes ▸ List.mem_cons_of_mem _ List.mem_cons_self
    obtain ⟨c, cs, hchars⟩ := List.exists_cons_of_ne_nil fun heq =>
      h.type_ne s' hs' (String.toList_eq_nil_iff.mp heq)
    have hblank := (h.type_chars s' hs' c (hchars ▸ List.mem_cons_self)).1
    rw [typeList, List.map_cons, Chars.intercalate_cons, hchars, List.cons_append, List.cons_append]
    exact ⟨c, _, rfl, hblank⟩
  have htrim : Chars.trim (c :: cs) = c :: cs :=
    (Chars.tight_of_ends hc (by decide : isBlank ')' = false) hlabel.symm).trim_eq
  unfold linkText
  rw [cut_reference_of_long h htypes]
  simp only [Option.getD_some, hlabel, htrim]
  rfl

/-! ### Pages of members -/

theorem toList_page_ofMember (t : Target) (e : Element) : ∃ anchor,
    (t.ofMember e).page.toList = (Text.before '#' t.page).toList ++ '#' :: anchor ∧
      '#' ∉ anchor ∧ '/' ∉ anchor := by
  have hkept : ∀ c ∈ (Anchor.ofMember e).toList, Anchor.isKept c = true ∨ c = '-' := by
    intro c hc
    rw [Anchor.ofMember, Anchor.ofText, String.toList_ofList] at hc
    exact Anchor.of_mem_slug hc
  refine ⟨(Anchor.ofMember e).toList, ?_, ?_, ?_⟩
  · rw [Target.ofMember, String.toList_append, String.toList_append, List.append_assoc]
    rfl
  · exact fun hc => absurd (hkept '#' hc) (by decide)
  · exact fun hc => absurd (hkept '/' hc) (by decide)

theorem toList_page_ofType (h : Target.ofType root x = .ok t) : ∃ before last,
    t.page.toList = before ++ '/' :: last ∧ '#' ∉ last := by
  obtain ⟨s, -, rfl⟩ := Target.ofType_eq_ok.mp h
  obtain ⟨folders, name, heq, -⟩ := PagePath.exists_segments x.fullName x.package
  refine ⟨Chars.dropWhileEnd (· == '/') s.toList ++ folders.flatMap fun s => '/' :: s.toList,
    (PagePath.segment name).toList, ?_, (PagePath.isSegment_segment name).notMem rfl⟩
  rw [PagePath.toList_ofType, heq, List.flatMap_append, List.flatMap_singleton, List.append_assoc]

/-- Two texts that end in the same way behind different or new characters are not the same. -/
theorem of_append_cons_eq {xs ys as bs : List Char} {a b : Char}
    (h : xs ++ a :: as = ys ++ b :: bs) : (xs = ys ∧ a = b) ∨ b ∈ as ∨ a ∈ bs := by
  rcases List.append_eq_append_iff.mp h with ⟨zs, hys, htail⟩ | ⟨zs, hxs, htail⟩
  · cases zs with
    | nil => exact .inl ⟨(List.append_nil xs ▸ hys).symm, (List.cons.inj htail).1⟩
    | cons z zs => exact .inr (.inl (by rw [(List.cons.inj htail).2]; simp))
  · cases zs with
    | nil => exact .inl ⟨List.append_nil ys ▸ hxs, ((List.cons.inj htail).1).symm⟩
    | cons z zs => exact .inr (.inr (by rw [(List.cons.inj htail).2]; simp))

/-- The page of a member, with anything put before it, is no page of a member of the same type. -/
theorem page_ne_append (hts : Targets.ofModel m root = .ok ts) (howner : owner ∈ m.elements)
    (htype : owner.isType = true) (ht : ts.find? owner.uid = some t)
    (hx : x ∈ m.membersOf owner) (htx : ts.find? x.uid = some tx) {start : List Char}
    (hstart : start ≠ []) : tx.page.toList ≠ start ++ (t.ofMember e).page.toList := by
  intro heq
  obtain ⟨anchor, hpage, hhash, hslash⟩ := toList_page_ofMember t e
  rw [hpage, ← List.append_assoc] at heq
  cases hkind : x.isType with
  | true =>
      obtain ⟨hmem, -⟩ := Model.mem_membersOf_iff.mp hx
      obtain ⟨-, hofType⟩ := (Targets.find?_type hts hmem hkind).mp htx
      obtain ⟨before, last, hxpage, hlast⟩ := toList_page_ofType hofType
      rw [hxpage] at heq
      rcases of_append_cons_eq heq with ⟨-, hchar⟩ | hmem | hmem
      · exact absurd hchar (by decide)
      · exact hlast hmem
      · exact hslash hmem
  | false =>
      have hfind := Targets.find?_member hts howner htype ht hx hkind
      rw [hfind, Option.some.injEq] at htx
      obtain ⟨anchor', hxpage, hhash', -⟩ := toList_page_ofMember t x
      rw [← htx, hxpage] at heq
      rcases of_append_cons_eq heq with ⟨hsame, -⟩ | hmem | hmem
      · exact hstart (List.append_left_eq_self.mp hsame.symm)
      · exact hhash' hmem
      · exact hhash hmem

/-! ### When a member is linked as it is shown -/

theorem isType_of_isExecutable (h : e.isExecutable = true) : e.isType = false := by
  unfold Element.isExecutable at h
  unfold Element.isType
  cases hkind : e.kind with
  | method => rfl
  | constructor => rfl
  | annotationElement => rfl
  | _ => rw [hkind] at h; cases h

/-- The Markdown that links a member under the name and the types it is shown with. -/
def linkAsShown (t : Target) (e : Element) : String :=
  "[" ++ e.name ++ e.signature ++ "](" ++ t.page ++ ")"

theorem toList_linkAsShown (t : Target) (e : Element) : (linkAsShown t e).toList =
    '[' :: ((e.name ++ e.signature).toList ++ "](".toList ++ t.page.toList ++ [')']) := by
  rw [linkAsShown]
  simp [String.toList_append]

/-- With one type at most, the label is the member as it is shown unless a type has a hash. -/
theorem linkText_eq_iff_of_short (h : Spelled e) (hshort : e.parameters.length ≤ 1)
    (hresolve : resolve? m (some owner) (.ofList (reference e)) = some e)
    (hte : ts.find? e.uid = some t) :
    linkText m ts (some owner) (reference e) = (linkAsShown t e).toList ↔
      ∀ s ∈ e.parameterTypes, '#' ∉ s.toList := by
  have hname : '#' ∉ e.name.toList := fun hc => (h.name_chars _ hc).2 (by decide)
  rw [linkText_of_short h hshort hresolve hte, toList_linkAsShown, List.cons.injEq,
    List.append_left_inj, List.append_left_inj, List.append_left_inj, and_iff_right rfl]
  constructor
  · intro hsame s hs hc
    refine Chars.notMem_replace (c := '#') (d := '.') (by decide) (e.name ++ e.signature).toList ?_
    rw [hsame, String.toList_append, toList_signature]
    exact List.mem_append_right _ (List.mem_cons_of_mem _
      (List.mem_append_left _ (mem_typeList_of_mem hs hc)))
  · intro hnone
    refine Chars.replace_of_notMem ?_ _
    rw [String.toList_append, toList_signature, List.mem_append, List.mem_cons, List.mem_append,
      List.mem_singleton]
    rintro (hc | heq | htypes | heq)
    · exact hname hc
    · exact absurd heq (by decide)
    · obtain ⟨s, hs, hc⟩ := mem_typeList_of_short hshort htypes
      exact hnone s hs hc
    · exact absurd heq (by decide)

theorem exists_two_types (hlong : 1 < e.parameters.length) :
    ∃ s s' types, e.parameterTypes = s :: s' :: types := by
  have hlength : 1 < e.parameterTypes.length := by rwa [Element.parameterTypes, List.length_map]
  generalize e.parameterTypes = types at hlength
  rcases types with _ | ⟨s, _ | ⟨s', types⟩⟩
  · exact absurd hlength (Nat.not_lt_zero 1)
  · exact absurd hlength (Nat.lt_irrefl 1)
  · exact ⟨s, s', types, rfl⟩

/-- With two types or more, the member is not linked as it is shown, whatever the reference that
was cut leads to. -/
theorem linkText_ne_of_long (hts : Targets.ofModel m root = .ok ts) (howner : owner ∈ m.elements)
    (htype : owner.isType = true) (ht : ts.find? owner.uid = some t) (he : e ∈ m.membersOf owner)
    (h : Spelled e) (hlong : 1 < e.parameters.length) :
    linkText m ts (some owner) (reference e) ≠ (linkAsShown (t.ofMember e) e).toList := by
  obtain ⟨s, s', types, htypes⟩ := exists_two_types hlong
  obtain ⟨x, hx, hresolve⟩ := exists_resolve? h he (s.toList ++ [','])
  have hshown : (linkAsShown (t.ofMember e) e).toList = '[' :: (e.name.toList ++ '(' ::
      ((s.toList ++ ',' :: ' ' :: (typeList (s' :: types) ++ [')'] ++ "](".toList)) ++
        (t.ofMember e).page.toList ++ [')'])) := by
    rw [toList_linkAsShown, String.toList_append, toList_signature, htypes, typeList_cons_cons]
    simp
  have hparen : '(' ∉ typeList (s' :: types) ++ [')', ']'] := by
    rw [List.mem_append]
    rintro (hc | hc)
    · rcases mem_typeList hc with heq | heq | ⟨s₁, hs₁, hc⟩
      · exact absurd heq (by decide)
      · exact absurd heq (by decide)
      · exact (h.type_chars s₁ (htypes ▸ List.mem_cons_of_mem _ hs₁) _ hc).2 (by decide)
    · exact absurd hc (by decide)
  have hname : '(' ∉ e.name.toList := fun hc => (h.name_chars _ hc).2 (by decide)
  rw [linkText_of_long h htypes, hresolve, Option.bind_some, hshown]
  cases htx : ts.find? x.uid with
  | none => exact fun heq => absurd (List.cons.inj heq).1 (by decide)
  | some tx =>
      intro heq
      have hlinked : (typeList (s' :: types) ++ [')', ']']) ++ '(' :: (tx.page.toList ++ [')']) =
          e.name.toList ++ '(' :: ((s.toList ++ ',' :: ' ' ::
            (typeList (s' :: types) ++ [')'] ++ "](".toList)) ++ (t.ofMember e).page.toList ++
              [')']) := by
        refine Eq.trans ?_ (List.cons.inj heq).2
        simp
      -- Before the first parenthesis the two differ or not; what follows it cannot be the same.
      have hcut := congrArg (Chars.cut '(') hlinked
      rw [Chars.cut_append_cons hparen, Chars.cut_append_cons hname, Prod.mk.injEq,
        Option.some.injEq, List.append_left_inj] at hcut
      exact page_ne_append hts howner htype ht hx htx (by simp) hcut.2

/-- A member that its name and types tell from the other members of its type is linked as it is
shown exactly when it has one type at most and no type has a hash. -/
theorem markdown_link_iff (hts : Targets.ofModel m root = .ok ts) (howner : owner ∈ m.elements)
    (htype : owner.isType = true) (ht : ts.find? owner.uid = some t) (he : e ∈ m.membersOf owner)
    (hexecutable : e.isExecutable = true) (h : Spelled e)
    (hunique : ∀ x ∈ m.membersOf owner, x.name = e.name → x.parameterTypes = e.parameterTypes →
      x = e) :
    ts.find? e.uid = some (t.ofMember e) ∧
      (markdown m ts (some owner) (linkTo e) = linkAsShown (t.ofMember e) e ↔
        e.parameters.length ≤ 1 ∧ ∀ s ∈ e.parameterTypes, '#' ∉ s.toList) := by
  have hte := Targets.find?_member hts howner htype ht he (isType_of_isExecutable hexecutable)
  refine ⟨hte, ?_⟩
  rw [markdown_linkTo h, ← String.toList_inj, String.toList_ofList]
  by_cases hshort : e.parameters.length ≤ 1
  · rw [linkText_eq_iff_of_short h hshort (resolve?_reference h he hunique) hte,
      and_iff_right hshort]
  · exact iff_of_false (linkText_ne_of_long hts howner htype ht he h (by omega))
      fun hboth => hshort hboth.1

/-! A robot moves along one axis or along both. -/

/-- The class of robots. -/
def robot : Element := Table.sampleType .classType "Robot" none []

/-- The move along one axis. -/
def moveOne : Element :=
  { Table.sampleMethod "Robot" "move" "public" [] with
    uid := "Robot.move(int)", parameters := [⟨"x", "int", false⟩] }

/-- The move along both axes. -/
def moveBoth : Element :=
  { Table.sampleMethod "Robot" "move" "public" [] with
    uid := "Robot.move(int,int)", parameters := [⟨"x", "int", false⟩, ⟨"y", "int", false⟩] }

/-- Robots and their moves. -/
def robots : Model where
  elements := [robot, moveOne, moveBoth]
  distinct_uids := by decide +kernel
  minAccess := .text "protected"
  external := []

/-- The targets of robots and their moves. -/
def robotTargets : Targets :=
  [("Robot", ⟨"Robot", "/api/Robot"⟩), ("Robot.move(int)", ⟨"move", "/api/Robot#move-int"⟩),
    ("Robot.move(int,int)", ⟨"move", "/api/Robot#move-int-int"⟩)]

theorem ofModel_robots : Targets.ofModel robots (.text "/api") = .ok robotTargets := by
  cbv

theorem spelled_move (hname : e.name = "move") (htypes : ∀ s ∈ e.parameterTypes, s = "int") :
    Spelled e where
  name_ne := by rw [hname]; decide
  name_chars := by
    rw [hname]
    exact @of_decide_eq_true _ (List.decidableBAll _ _) rfl
  type_ne s hs := by rw [htypes s hs]; decide
  type_chars s hs := by
    rw [htypes s hs]
    exact @of_decide_eq_true _ (List.decidableBAll _ _) rfl

theorem markdown_link_moveOne :
    Targets.ofModel robots (.text "/api") = .ok robotTargets ∧
      moveOne ∈ robots.membersOf robot ∧ moveOne.isExecutable = true ∧ Spelled moveOne ∧
      (∀ x ∈ robots.membersOf robot, x.name = moveOne.name →
        x.parameterTypes = moveOne.parameterTypes → x = moveOne) ∧
      markdown robots robotTargets (some robot) "\x7b@link #move(int)\x7d" =
        "[move(int)](/api/Robot#move-int)" := by
  have hmem : moveOne ∈ robots.membersOf robot := by decide +kernel
  have hunique : ∀ x ∈ robots.membersOf robot, x.name = moveOne.name →
      x.parameterTypes = moveOne.parameterTypes → x = moveOne := by decide +kernel
  obtain ⟨-, hiff⟩ := markdown_link_iff ofModel_robots (by decide +kernel) rfl rfl hmem rfl
    (spelled_move rfl (by decide)) hunique
  exact ⟨ofModel_robots, hmem, rfl, spelled_move rfl (by decide), hunique, hiff.mpr (by decide)⟩

/-- The move along both axes is linked under half of its types, and to the other move. -/
theorem markdown_link_moveBoth :
    Targets.ofModel robots (.text "/api") = .ok robotTargets ∧
      robotTargets.find? robot.uid = some ⟨"Robot", "/api/Robot"⟩ ∧
      moveBoth ∈ robots.membersOf robot ∧ moveBoth.isExecutable = true ∧ Spelled moveBoth ∧
      (∀ x ∈ robots.membersOf robot, x.name = moveBoth.name →
        x.parameterTypes = moveBoth.parameterTypes → x = moveBoth) ∧
      robotTargets.find? moveBoth.uid = some ⟨"move", "/api/Robot#move-int-int"⟩ ∧
      markdown robots robotTargets (some robot) "\x7b@link #move(int, int)\x7d" =
        "[int)](/api/Robot#move-int)" := by
  have hspelled : Spelled moveBoth := spelled_move rfl (by decide)
  refine ⟨ofModel_robots, rfl, by decide +kernel, rfl, hspelled, by decide +kernel,
    by decide +kernel, ?_⟩
  have htext : "\x7b@link #move(int, int)\x7d" = linkTo moveBoth := by decide +kernel
  rw [htext, markdown_linkTo hspelled]
  decide +kernel

end TypePages.Inline
