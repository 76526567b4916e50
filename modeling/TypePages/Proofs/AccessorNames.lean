import Mathlib
import TypePages.Proofs.Rows
import TypePages.Proofs.Synthesis

/-!
Accessors are named after the property that is shown.

The name of an accessor is put together in one place, as a prefix and the capitalised name of the
property, and taken apart in another.  Behind the prefix stands a capital, and prefixes are of
lowercase letters.  So a longer prefix would run into the capital, and behind a shorter one the word
goes on: of all prefixes only the one that the name was made with fits (`afterPrefix_boundary?`), in
whatever order they are tried.  With no prefix in both lists a getter is then no setter.
-/

namespace TypePages

/-! ### Case of ASCII letters -/

namespace Text

variable {c : Char}

theorem toNat_lt_of_isAlpha (h : c.isAlpha = true) : c.toNat < 128 := by
  simp only [Char.isAlpha, Char.isUpper, Char.isLower, Bool.or_eq_true, Bool.and_eq_true,
    decide_eq_true_eq, UInt32.le_iff_toNat_le, ge_iff_le] at h
  have hnat : c.toNat = c.val.toNat := rfl
  have hupper : 'Z'.val.toNat = 90 := rfl
  have hlower : 'z'.val.toNat = 122 := rfl
  omega

theorem isAlpha_of_isLower (h : c.isLower = true) : c.isAlpha = true := by
  rw [Char.isAlpha, h, Bool.or_true]

theorem toNat_toUpper_lt (h : c.isLower = true) : c.toUpper.toNat < 128 :=
  toNat_lt_of_isAlpha ((Char.isAlpha_toUpper_eq_isAlpha c).trans (isAlpha_of_isLower h))

theorem isLowercase_of_isLower (h : c.isLower = true) : isLowercase c = true := by
  rw [isLowercase, if_pos (toNat_lt_of_isAlpha (isAlpha_of_isLower h)), h]

theorem isLowercase_toUpper (h : c.isLower = true) : isLowercase c.toUpper = false := by
  rw [isLowercase, if_pos (toNat_toUpper_lt h), Char.isLower_toUpper_eq_false]

end Text

namespace Chars

variable {c : Char}

theorem upperFirst_of_isLower (h : c.isLower = true) (cs : List Char) :
    upperFirst (c :: cs) = c.toUpper :: cs := by
  rw [upperFirst, upperChar, if_pos (Text.toNat_lt_of_isAlpha (Text.isAlpha_of_isLower h))]
  rfl

/-- A letter that was capitalised is made small again. -/
theorem lowerFirst_toUpper (h : c.isLower = true) (cs : List Char) :
    lowerFirst (c.toUpper :: cs) = c :: cs := by
  have hlt := Text.toNat_toUpper_lt h
  have hsigma : c.toUpper ≠ 'Σ' := by
    intro heq
    rw [heq] at hlt
    exact absurd hlt (by decide)
  have hlower : c.toLower = c :=
    Char.toLower_eq_of_not_isUpper (Char.not_isUpper_of_isLower h)
  rw [lowerFirst, lower, lowerFrom, lowerFrom, if_neg hsigma, lowerChar, if_pos hlt,
    Char.toLower_toUpper_eq_toLower, hlower]
  rfl

end Chars

namespace Naming

variable {n : Naming} {vs : List Value} {e : Element} {p q base capital name : String} {c : Char}

/-! ### Prefixes of lowercase letters -/

/-- Every value of a list is a text of lowercase ASCII letters. -/
def AllLower (vs : List Value) : Prop :=
  ∀ v ∈ vs, ∃ p, v = .text p ∧ ∀ c ∈ p.toList, c.isLower = true

/-- The prefixes of a convention are texts of lowercase ASCII letters, and none of them is listed
both for getters and for setters. -/
structure Plain (n : Naming) : Prop where
  getters : AllLower n.getterPrefixes
  setters : AllLower n.setterPrefixes
  distinct : ∀ v ∈ n.getterPrefixes, v ∉ n.setterPrefixes

theorem AllLower.allTexts (h : AllLower vs) : AllTexts vs := fun v hv =>
  (h v hv).imp fun _ hp => hp.1

theorem AllLower.lower (h : AllLower vs) (hp : .text p ∈ vs) : ∀ c ∈ p.toList, c.isLower = true := by
  obtain ⟨q, hq, hlower⟩ := h _ hp
  cases hq
  exact hlower

theorem allLower_map {ss : List String} (h : ∀ s ∈ ss, ∀ c ∈ s.toList, c.isLower = true) :
    AllLower (ss.map .text) := by
  intro v hv
  obtain ⟨s, hs, rfl⟩ := List.mem_map.mp hv
  exact ⟨s, rfl, h s hs⟩

theorem plain_ofTexts {getters setters : List String} (suffix : String)
    (hgetters : ∀ s ∈ getters, ∀ c ∈ s.toList, c.isLower = true)
    (hsetters : ∀ s ∈ setters, ∀ c ∈ s.toList, c.isLower = true)
    (hdistinct : ∀ s ∈ getters, s ∉ setters) : (ofTexts getters setters suffix).Plain := by
  refine ⟨allLower_map hgetters, allLower_map hsetters, fun v hv hv' => ?_⟩
  obtain ⟨s, hs, rfl⟩ := List.mem_map.mp hv
  obtain ⟨s', hs', heq⟩ := List.mem_map.mp hv'
  cases heq
  exact hdistinct s hs hs'

/-- A text that goes on with a capital, as the name of a property does in its accessors. -/
def Capital (s : String) : Prop := ∃ C cs, s.toList = C :: cs ∧ Text.isLowercase C = false

theorem boundary?_cons {rest : List Char} :
    boundary? (.ofList (c :: rest)) =
      if Text.isLowercase c then none else some (.ofList (c :: rest)) := by
  rw [boundary?, String.toList_ofList]

/-- Another prefix than the one in front of a capital does not end at a word boundary. -/
theorem boundary?_of_ne {p q rest cs : List Char} {C : Char} (hp : ∀ c ∈ p, c.isLower = true)
    (hq : ∀ c ∈ q, c.isLower = true) (hC : Text.isLowercase C = false) (hne : q ≠ p)
    (hrest : p ++ C :: cs = q ++ rest) : boundary? (.ofList rest) = none := by
  rcases List.append_eq_append_iff.mp hrest with ⟨more, hlonger, hmore⟩ | ⟨more, hshorter, hmore⟩
  · -- A longer prefix has a lowercase letter where the name has its capital.
    cases more with
    | nil => exact absurd (hlonger.trans (List.append_nil _)) hne
    | cons x xs =>
        obtain ⟨rfl, -⟩ := List.cons.inj hmore
        have hx := Text.isLowercase_of_isLower (hq C (by rw [hlonger]; simp))
        rw [hC] at hx
        cases hx
  · -- Behind a shorter prefix the word goes on.
    cases more with
    | nil => exact absurd (hshorter.trans (List.append_nil _)).symm hne
    | cons x xs =>
        have hx := Text.isLowercase_of_isLower (hp x (by rw [hshorter]; simp))
        rw [hmore, List.cons_append, boundary?_cons, hx]
        rfl

/-- In front of a capital only one prefix fits, since the others do not end at a word boundary. -/
theorem afterPrefix_boundary? (hp : ∀ c ∈ p.toList, c.isLower = true)
    (hq : ∀ c ∈ q.toList, c.isLower = true) (hcapital : Capital capital) :
    (Text.afterStart? q (p ++ capital)).bind boundary? = if q = p then some capital else none := by
  obtain ⟨C, cs, hcs, hC⟩ := hcapital
  rw [Text.afterStart?, String.toList_append, hcs]
  by_cases hqp : q = p
  · have hof : capital = .ofList (C :: cs) := by rw [← hcs, String.ofList_toList]
    rw [if_pos hqp, hqp, Chars.afterStart?_eq_some_iff.mpr rfl, Option.map_some, Option.bind_some,
      boundary?_cons, hC, hof]
    rfl
  · have hne : q.toList ≠ p.toList := fun heq => hqp (String.toList_inj.mp heq)
    rw [if_neg hqp]
    cases hrest : Chars.afterStart? q.toList (p.toList ++ C :: cs) with
    | none => rfl
    | some rest => exact boundary?_of_ne hp hq hC hne (Chars.afterStart?_eq_some_iff.mp hrest)

open Classical in
theorem stripFirst?_eq (hvs : AllLower vs) (hp : ∀ c ∈ p.toList, c.isLower = true)
    (hcapital : Capital capital) :
    stripFirst? (p ++ capital) vs = .ok (if .text p ∈ vs then some capital else none) := by
  induction vs with
  | nil => rw [stripFirst?, if_neg List.not_mem_nil]
  | cons v vs ih =>
      obtain ⟨q, rfl, hq⟩ := hvs v List.mem_cons_self
      rw [stripFirst?, afterPrefix_boundary? hp hq hcapital]
      by_cases hqp : q = p
      · rw [if_pos hqp, hqp, if_pos List.mem_cons_self]
      · have hne : Value.text p ≠ .text q := fun heq => hqp (by cases heq; rfl)
        have hmem : Value.text p ∈ .text q :: vs ↔ .text p ∈ vs :=
          List.mem_cons.trans (or_iff_right hne)
        rw [if_neg hqp, if_congr hmem rfl rfl]
        exact ih fun w hw => hvs w (List.mem_cons_of_mem _ hw)

open Classical in
/-- The order of the prefixes does not matter, since one fits at most. -/
theorem stripPrefix?_eq (hvs : AllLower vs) (hp : ∀ c ∈ p.toList, c.isLower = true)
    (hcapital : Capital capital) :
    stripPrefix? (p ++ capital) vs = .ok (if .text p ∈ vs then some capital else none) := by
  obtain ⟨ws, hws, hperm⟩ := longestFirst_of_allTexts hvs.allTexts
  rw [stripPrefix?, hws, ← if_congr hperm.mem_iff rfl rfl]
  exact stripFirst?_eq (fun w hw => hvs w (hperm.mem_iff.mp hw)) hp hcapital

/-! ### Roles of accessors -/

/-- A text that starts with a lowercase ASCII letter. -/
def StartsLower (s : String) : Prop := ∃ c ∈ s.toList.head?, c.isLower = true

/-- A name of a property behind a prefix. -/
def accessorName (p base : String) : String := p ++ .ofList (Chars.upperFirst base.toList)

/-- A capitalised name has a capital, and its small form is the name. -/
theorem StartsLower.capitalised (h : StartsLower base) :
    Capital (.ofList (Chars.upperFirst base.toList)) ∧
      String.ofList (Chars.lowerFirst (String.ofList (Chars.upperFirst base.toList)).toList) =
        base := by
  obtain ⟨c, hc, hlower⟩ := h
  obtain ⟨cs, hcs⟩ := List.head?_eq_some_iff.mp hc
  rw [String.toList_ofList, hcs, Chars.upperFirst_of_isLower hlower,
    Chars.lowerFirst_toUpper hlower, ← hcs, String.ofList_toList]
  exact ⟨⟨_, _, String.toList_ofList, Text.isLowercase_toUpper hlower⟩, rfl⟩

theorem mem_prefixed {names : List String} (h : prefixed vs base = .ok names) :
    name ∈ names ↔ ∃ p, .text p ∈ vs ∧ name = accessorName p base := by
  rw [Refusal.mem_iff_of_mapM_eq_ok h]
  constructor
  · rintro ⟨v, hv, hname⟩
    obtain ⟨p, rfl⟩ := allTexts_of_prefixed h v hv
    exact ⟨p, hv, (Except.ok.inj hname).symm⟩
  · rintro ⟨p, hp, rfl⟩
    exact ⟨_, hp, rfl⟩

/-- A name with a prefix of getters is that of a getter of the property. -/
theorem Plain.of_getter (hn : n.Plain) (hbase : StartsLower base) (hp : .text p ∈ n.getterPrefixes)
    (hname : e.name = accessorName p base) :
    n.role e = .ok .getter ∧ n.propertyName e = .ok base := by
  obtain ⟨hcapital, hback⟩ := hbase.capitalised
  have hlower := hn.getters.lower hp
  rw [role, propertyName, hname, accessorName, stripPrefix?_eq hn.setters hlower hcapital,
    if_neg (hn.distinct _ hp), stripPrefix?_eq hn.getters hlower hcapital, if_pos hp]
  exact ⟨rfl, congrArg Except.ok hback⟩

/-- A name with a prefix of setters is that of a setter of the property. -/
theorem Plain.of_setter (hn : n.Plain) (hbase : StartsLower base) (hp : .text p ∈ n.setterPrefixes)
    (hname : e.name = accessorName p base) :
    n.role e = .ok .setter ∧ n.propertyName e = .ok base := by
  obtain ⟨hcapital, hback⟩ := hbase.capitalised
  have hlower := hn.setters.lower hp
  rw [role, propertyName, hname, accessorName, stripPrefix?_eq hn.setters hlower hcapital,
    if_pos hp]
  exact ⟨rfl, congrArg Except.ok hback⟩

end Naming

namespace Table

variable {rules : Rules} {m : Model} {owner p : Element} {t : Table}

/-- Accessors named after a property. -/
structure NamedAfter (n : Naming) (base : String) (found : Accessors) : Prop where
  field : ∀ f, found.field = some f → f.name = base
  getter : ∀ g, found.getter = some g →
    ∃ q, .text q ∈ n.getterPrefixes ∧ g.name = Naming.accessorName q base
  setter : ∀ s, found.setter = some s →
    ∃ q, .text q ∈ n.setterPrefixes ∧ s.name = Naming.accessorName q base

theorem namedAfter_of_findAccessors {n : Naming} {members : List Element} {found : Accessors}
    (h : findAccessors n members p = .ok found) :
    ∃ base, n.baseName p = .ok base ∧ NamedAfter n base found := by
  obtain ⟨base, getters, setters, hbase, hgetters, hsetters, hfield, hgetter, hsetter⟩ :=
    findAccessors_eq_ok.mp h
  refine ⟨base, hbase, fun f hf => ?_, fun g hg => ?_, fun s hs => ?_⟩
  · have hfound := List.find?_some (hfield.symm.trans hf)
    simp only [Bool.and_eq_true, beq_iff_eq] at hfound
    exact hfound.2
  · exact (Naming.mem_prefixed hgetters).mp (of_findMethod? (hgetter.symm.trans hg)).1
  · exact (Naming.mem_prefixed hsetters).mp (of_findMethod? (hsetter.symm.trans hs)).1

/-- What a table knows as the accessors of a property is named after the property. -/
theorem names_of_read (ht : read rules m owner = .ok t) (hp : p ∈ t.visible .properties) :
    ∃ base, rules.naming.baseName p = .ok base ∧
      (∀ g, t.getter? p = some g →
        ∃ q, .text q ∈ rules.naming.getterPrefixes ∧ g.name = Naming.accessorName q base) ∧
      ∀ s, t.setter? p = some s →
        ∃ q, .text q ∈ rules.naming.setterPrefixes ∧ s.name = Naming.accessorName q base := by
  obtain ⟨found, hfound⟩ := exists_accessors ht hp
  obtain ⟨base, hbase, hnamed⟩ := namedAfter_of_findAccessors ((accessors_of_read ht).2 _ hfound)
  have hknown := accessorsOf?_of_mem ht hfound
  refine ⟨base, hbase, fun g hg => hnamed.getter g ?_, fun s hs => hnamed.setter s ?_⟩
  · rwa [getter?, hknown, Option.bind_some] at hg
  · rwa [setter?, hknown, Option.bind_some] at hs

end Table

namespace Builder

variable {b : Builder} {m : Model} {targets : Targets} {messages : Value} {rules : Table.Rules}
  {owner e p : Element} {base key : String} {role : Naming.Role}

/-! ### Sentences of accessors -/

/-- The text of a documented accessor is the message with the name of its property, and where the
message is refused the synthesis is. -/
theorem body_synthesize_of_role (hrole : b.naming.role e = .ok role)
    (hkey : messageKey role = some key) (hname : b.naming.propertyName e = .ok base)
    (hsource : (b.sources.find? e.uid).isSome = true) (o : Overlay) :
    (b.synthesize o e).map (·.1.body) = (b.message key [base]).map Text.collapse := by
  obtain ⟨s, hs⟩ := Option.isSome_iff_exists.mp hsource
  have hcomment : b.propertyComment e s = b.accessorComment key e (s.comment.getD .empty) := by
    rw [propertyComment_eq hrole, hkey]
  rw [synthesize_eq, commentFor_eq hs, hcomment]
  cases hmessage : b.message key [base] with
  | error f =>
      have hrefused : b.accessorComment key e (s.comment.getD .empty) = .error f := by
        rw [accessorComment, hname]
        show (b.message key [base] >>= _) = _
        rw [hmessage]
        rfl
      rw [hrefused]
      rfl
  | ok sentence =>
      obtain ⟨w, hw, hbody⟩ := accessorComment_of_message hname hmessage (s.comment.getD .empty)
      rw [hw]
      show Except.ok (b.recordOf (o.install e w) e).body = Except.ok (Text.collapse sentence)
      rw [body_recordOf, body_install, hbody]

/-- A method has a role for the property of the given name: its own name gives it the role, it
leads back to the property, and wherever the method is documented from a source its text is the
message of the role with the name of the property. -/
structure Serves (b : Builder) (e : Element) (r : Naming.Role) (base : String) : Prop where
  role : b.naming.role e = .ok r
  name : b.naming.propertyName e = .ok base
  sentence : ∀ key, messageKey r = some key → (b.sources.find? e.uid).isSome = true →
    ∀ o, (b.synthesize o e).map (·.1.body) = (b.message key [base]).map Text.collapse

theorem serves_of_role (h : b.naming.role e = .ok role ∧ b.naming.propertyName e = .ok base) :
    b.Serves e role base :=
  ⟨h.1, h.2, fun _ hkey hsource o => body_synthesize_of_role h.1 hkey h.2 hsource o⟩

/-- **The accessors that are found for a property are taken for its accessors.**  A property that
starts with a lowercase letter is shown by its name, and this is the name that its getter and its
setter lead back to, and that their sentences say. -/
theorem accessors_serve_property (hb : ofType m targets messages rules owner = .ok b)
    (hn : b.naming.Plain) (hp : p ∈ b.table.visible .properties) :
    ∃ base, b.naming.baseName p = .ok base ∧
      b.memberLink .properties p = .ok ("[" ++ base ++ "](#" ++ Anchor.ofMember p ++ ")") ∧
      (Naming.StartsLower base →
        (∀ g, b.table.getter? p = some g → b.Serves g .getter base) ∧
          ∀ s, b.table.setter? p = some s → b.Serves s .setter base) := by
  obtain ⟨-, -, hnaming, ht, -⟩ := of_ofType hb
  obtain ⟨base, hbase, hgetter, hsetter⟩ := Table.names_of_read ht hp
  rw [← hnaming] at hbase hgetter hsetter
  refine ⟨base, hbase, ?_, fun hlower => ⟨fun g hg => ?_, fun s hs => ?_⟩⟩
  · have hcall : callText .properties p = "" := if_neg fun h => h.2 rfl
    refine memberLink_eq_ok_iff.mpr ⟨base, ?_, ?_⟩
    · rwa [IsTitle, if_pos rfl]
    · rw [hcall, String.append_empty]
  · obtain ⟨q, hq, hname⟩ := hgetter g hg
    exact serves_of_role (hn.of_getter hlower hq hname)
  · obtain ⟨q, hq, hname⟩ := hsetter s hs
    exact serves_of_role (hn.of_setter hlower hq hname)

/-! ### Tanks

All the prefixes of tanks start with the shortest of them.
-/

/-- The naming of tanks. -/
def tankNaming : Naming := .ofTexts ["g", "get"] ["ge", "gets"] "Property"

/-- The class of tanks. -/
def tank : Element := Table.sampleType .classType "Tank" none []

/-- The property method of the level. -/
def tankLevel : Element :=
  { Table.sampleMethod "Tank" "levelProperty" "public" [] with
    comment := some { body := "The level." } }

/-- The getter of the level. -/
def getTankLevel : Element := Table.sampleMethod "Tank" "getLevel" "public" []

/-- The setter of the level. -/
def setTankLevel : Element :=
  { Table.sampleMethod "Tank" "geLevel" "public" [] with parameters := [⟨"level", "int", false⟩] }

/-- Tanks. -/
def tanks : Model where
  elements := [tank, setTankLevel, getTankLevel, tankLevel]
  distinct_uids := by decide +kernel
  minAccess := .text "protected"
  external := []

/-- The table of tanks. -/
def tankTable : Table :=
  ⟨tanks, tankNaming, tank, .protectedOnly,
    [(.methods, setTankLevel), (.methods, getTankLevel), (.properties, tankLevel)], [],
    [(tankLevel, ⟨none, some getTankLevel, some setTankLevel⟩)]⟩

/-- The builder of tanks. -/
def tankBuilder : Builder where
  model := tanks
  targets := []
  messages := boxMessages
  naming := tankNaming
  table := tankTable
  sources := Sources.ofTable tankTable

theorem ofType_tank : ofType tanks [] boxMessages ⟨tankNaming, true⟩ tank = .ok tankBuilder := by
  have hread : Table.read ⟨tankNaming, true⟩ tanks tank = .ok tankTable := by cbv
  exact Refusal.bind_eq_ok.mpr ⟨tankTable, hread, rfl⟩

theorem accessors_serve_tank :
    tankNaming.Plain ∧ tankBuilder.memberLink .properties tankLevel = .ok "[level](#levelproperty)" ∧
      tankNaming.role setTankLevel = .ok .setter ∧
      tankNaming.propertyName setTankLevel = .ok "level" ∧
      tankNaming.role getTankLevel = .ok .getter ∧
      (tankBuilder.synthesize {} getTankLevel).map (·.1.body) =
        .ok "Gets the value of the property level." := by
  have hplain : tankNaming.Plain :=
    Naming.plain_ofTexts "Property" (by simp) (by simp) (by decide)
  have hvisible : tankLevel ∈ tankBuilder.table.visible .properties := by decide +kernel
  obtain ⟨base, hbase, hlink, hserves⟩ := accessors_serve_property ofType_tank hplain hvisible
  have hlevel : tankBuilder.naming.baseName tankLevel = .ok "level" := by cbv
  obtain rfl := Except.ok.inj (hbase.symm.trans hlevel)
  obtain ⟨hgetter, hsetter⟩ := hserves ⟨'l', by decide +kernel, rfl⟩
  have hg := hgetter getTankLevel (by decide +kernel)
  have hs := hsetter setTankLevel (by decide +kernel)
  have hanchor : "[" ++ "level" ++ "](#" ++ Anchor.ofMember tankLevel ++ ")" =
      "[level](#levelproperty)" := by decide +kernel
  have hmessage : tankBuilder.message "property_getter_with_name" ["level"] =
      .ok "Gets the value of the property level." := by
    rw [← Refusal.toOption_eq_some_iff]
    decide +kernel
  have hsentence := hg.sentence _ rfl (by decide +kernel) {}
  rw [hmessage] at hsentence
  refine ⟨hplain, hlink.trans (congrArg _ hanchor), hs.role, hs.name, hg.role, hsentence.trans ?_⟩
  exact congrArg Except.ok (by decide +kernel)

end Builder

end TypePages
