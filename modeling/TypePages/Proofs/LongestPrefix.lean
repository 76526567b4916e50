import Mathlib
import TypePages.Proofs.Cutting
import TypePages.Proofs.Naming

/-!
Of several prefixes the longest counts.

A prefix is looked for in a list that is sorted by length, and the first one that stands at a word
boundary is taken.  What is taken is therefore a longest one of those that do, and two of one length
in front of the same name are the same (`Strips.unique`).  So the order of a list and its repetitions
say nothing: `Strips` speaks of the entries of the list only, and the role and the property of a
method are what `Strips` says of its name.

Entries that are no texts have no say.  They may make a question be refused, in one order and not in
another, but never change an answer.
-/

namespace TypePages.Naming

variable {n n' : Naming} {vs ws : List Value} {e : Element} {name p q rest rest' : String}
  {rest? rest?' : Option String} {role role' : Role}

/-! ### Prefixes that count -/

/-- A prefix of a name that stands at a word boundary: no lowercase letter starts the rest. -/
structure Starts (p name rest : String) : Prop where
  split : name = p ++ rest
  boundary : ∀ c, rest.toList.head? = some c → Text.isLowercase c = false

theorem boundary?_eq_some_iff {s : String} : boundary? s = some rest ↔
    s = rest ∧ ∀ c, rest.toList.head? = some c → Text.isLowercase c = false := by
  unfold boundary?
  split
  next c cs hs =>
    cases hc : Text.isLowercase c with
    | true =>
        refine iff_of_false (by simp) ?_
        rintro ⟨rfl, hboundary⟩
        have hfalse := hboundary c (by rw [hs, List.head?_cons])
        rw [hc] at hfalse
        cases hfalse
    | false =>
        rw [if_neg Bool.false_ne_true, Option.some.injEq]
        refine (and_iff_left_of_imp ?_).symm
        rintro rfl d hd
        rw [hs, List.head?_cons, Option.some.injEq] at hd
        rw [← hd, hc]
  next hs =>
    rw [Option.some.injEq]
    refine (and_iff_left_of_imp ?_).symm
    rintro rfl d hd
    rw [hs] at hd
    cases hd

theorem starts_iff : (Text.afterStart? p name).bind boundary? = some rest ↔ Starts p name rest := by
  simp only [Option.bind_eq_some_iff, Text.afterStart?_eq_some_iff, boundary?_eq_some_iff]
  constructor
  · rintro ⟨_, hname, rfl, hboundary⟩
    exact ⟨hname, hboundary⟩
  · exact fun h => ⟨rest, h.split, rfl, h.boundary⟩

/-! ### The longest of them -/

/-- A prefix of a name at a word boundary that is listed, and no shorter than any other of these. -/
structure Longest (vs : List Value) (name p rest : String) : Prop where
  listed : .text p ∈ vs
  starts : Starts p name rest
  longest : ∀ q rest', .text q ∈ vs → Starts q name rest' → q.length ≤ p.length

/-- What is left of a name behind the longest prefix of a list, if one is there. -/
def Strips (vs : List Value) (name : String) : Option String → Prop
  | some rest => ∃ p, Longest vs name p rest
  | none => ∀ p rest, .text p ∈ vs → ¬Starts p name rest

/-- Two prefixes of one length leave the same. -/
theorem Strips.unique (h : Strips vs name rest?) (h' : Strips vs name rest?') : rest? = rest?' := by
  cases rest? with
  | none =>
      cases rest?' with
      | none => rfl
      | some rest' =>
          obtain ⟨q, hq⟩ := h'
          exact absurd hq.starts (h q rest' hq.listed)
  | some rest =>
      obtain ⟨p, hp⟩ := h
      cases rest?' with
      | none => exact absurd hp.starts (h' p rest hp.listed)
      | some rest' =>
          obtain ⟨q, hq⟩ := h'
          have hlength : p.length = q.length :=
            Nat.le_antisymm (hq.longest p rest hp.listed hp.starts)
              (hp.longest q rest' hq.listed hq.starts)
          have hsplit := congrArg String.toList (hp.starts.split.symm.trans hq.starts.split)
          rw [String.toList_append, String.toList_append] at hsplit
          have hrest := List.append_inj_right hsplit
            (by rw [String.length_toList, String.length_toList, hlength])
          rw [String.toList_inj.mp hrest]

/-- Lists with the same texts strip the same. -/
theorem Strips.of_same_texts (h : Strips vs name rest?)
    (hsame : ∀ p : String, .text p ∈ vs ↔ .text p ∈ ws) : Strips ws name rest? := by
  cases rest? with
  | none => exact fun p rest hp => h p rest ((hsame p).mpr hp)
  | some rest =>
      obtain ⟨p, hp⟩ := h
      exact ⟨p, (hsame p).mp hp.listed, hp.starts,
        fun q rest' hq => hp.longest q rest' ((hsame q).mpr hq)⟩

/-! ### The walk through a list -/

/-- A list of texts, the longer before the shorter. -/
def Descending (vs : List Value) : Prop :=
  vs.Pairwise fun v w => ∀ p q : String, v = .text p → w = .text q → q.length ≤ p.length

theorem descending_longestFirst (h : longestFirst vs = .ok ws) : Descending ws := by
  obtain ⟨ps, hps, hws⟩ := Refusal.bind_eq_ok.mp h
  obtain ⟨-, hmeasured⟩ := of_measured hps
  have hlength : ∀ pair ∈ ps, ∀ s : String, pair.2 = .text s → s.length = pair.1 := by
    intro pair hpair s hs
    have hpair := hmeasured pair hpair
    rw [hs] at hpair
    exact Except.ok.inj (hpair : Except.ok s.length = _)
  have hsorted : (ps.mergeSort fun a b => b.1 ≤ a.1).Pairwise fun a b =>
      decide (b.1 ≤ a.1) = true :=
    List.pairwise_mergeSort
      (fun a b c hab hbc => by simpa using Nat.le_trans (by simpa using hbc) (by simpa using hab))
      (fun a b => by simpa using Nat.le_total b.1 a.1) ps
  rw [Descending, ← Refusal.pure_eq_ok.mp hws, List.pairwise_map]
  refine hsorted.imp_of_mem fun {a b} ha hb hab p q hp hq => ?_
  rw [hlength a (List.mem_mergeSort.mp ha) p hp, hlength b (List.mem_mergeSort.mp hb) q hq]
  exact of_decide_eq_true hab

/-- A prefix that does not count changes nothing. -/
theorem Strips.cons_of_not_starts (h : Strips vs name rest?) (hp : ∀ rest, ¬Starts p name rest) :
    Strips (.text p :: vs) name rest? := by
  cases rest? with
  | none =>
      intro q rest hq hstarts
      rcases List.mem_cons.mp hq with heq | hq
      · cases heq
        exact hp rest hstarts
      · exact h q rest hq hstarts
  | some rest =>
      obtain ⟨longest, hlongest⟩ := h
      refine ⟨longest, List.mem_cons_of_mem _ hlongest.listed, hlongest.starts,
        fun q rest' hq hstarts => ?_⟩
      rcases List.mem_cons.mp hq with heq | hq
      · cases heq
        exact absurd hstarts (hp rest')
      · exact hlongest.longest q rest' hq hstarts

/-- In a sorted list the first prefix that counts is the longest. -/
theorem strips_of_stripFirst? (hsorted : Descending ws)
    (h : stripFirst? name ws = .ok rest?) : Strips ws name rest? := by
  fun_induction stripFirst? name ws with
  | case1 =>
      cases h
      exact fun p rest hp => absurd hp List.not_mem_nil
  | case2 p ps rest hrest =>
      cases h
      refine ⟨p, List.mem_cons_self, starts_iff.mp hrest, fun q rest' hq _ => ?_⟩
      rcases List.mem_cons.mp hq with heq | hq
      · cases heq
        exact Nat.le_refl _
      · exact (List.pairwise_cons.mp hsorted).1 _ hq p q rfl rfl
  | case3 p ps hnone ih =>
      refine (ih (List.pairwise_cons.mp hsorted).2 h).cons_of_not_starts fun rest hstarts => ?_
      rw [starts_iff.mpr hstarts] at hnone
      cases hnone
  | case4 => cases h

theorem strips_of_stripPrefix? (h : stripPrefix? name vs = .ok rest?) : Strips vs name rest? := by
  obtain ⟨ws, hws, hfirst⟩ := Refusal.bind_eq_ok.mp h
  exact (strips_of_stripFirst? (descending_longestFirst hws) hfirst).of_same_texts
    fun p => (longestFirst_perm hws).mem_iff

/-- Something is true of any list, since only its texts have a say. -/
theorem exists_strips (vs : List Value) (name : String) : ∃ rest?, Strips vs name rest? := by
  have htexts : AllTexts (vs.filter (·.form = .text)) := by
    intro v hv
    have hform : v.form = .text := of_decide_eq_true (List.mem_filter.mp hv).2
    cases v with
    | scalar s =>
        cases s with
        | text s => exact ⟨s, rfl⟩
        | _ => cases hform
    | _ => cases hform
  obtain ⟨rest?, hrest⟩ := stripPrefix?_of_allTexts name htexts
  exact ⟨rest?, (strips_of_stripPrefix? hrest).of_same_texts fun p =>
    List.mem_filter.trans (and_iff_left rfl)⟩

/-! ### Roles and properties -/

/-- The role of a name under a convention, and what is left of the name behind the prefix that gives
it the role.  Setters come before getters. -/
inductive Takes (n : Naming) (name : String) : Role → Option String → Prop
  | setter {rest : String} (h : Strips n.setterPrefixes name (some rest)) :
      Takes n name .setter (some rest)
  | getter {rest : String} (hsetter : Strips n.setterPrefixes name none)
      (h : Strips n.getterPrefixes name (some rest)) : Takes n name .getter (some rest)
  | property (hsetter : Strips n.setterPrefixes name none)
      (hgetter : Strips n.getterPrefixes name none) : Takes n name .property none

/-- The name of a property after what is left of the name of an accessor. -/
def propertyOf (rest? : Option String) : String :=
  .ofList (Chars.lowerFirst (rest?.getD "").toList)

theorem Takes.unique (h : n.Takes name role rest?) (h' : n.Takes name role' rest?') :
    role = role' ∧ rest? = rest?' := by
  cases h with
  | setter h =>
      cases h' with
      | setter h' =>
          cases h.unique h'
          exact ⟨rfl, rfl⟩
      | getter hnone _ => cases h.unique hnone
      | property hnone _ => cases h.unique hnone
  | getter hnone h =>
      cases h' with
      | setter h' => cases hnone.unique h'
      | getter _ h' =>
          cases h.unique h'
          exact ⟨rfl, rfl⟩
      | property _ hnone' => cases h.unique hnone'
  | property hsetter hgetter =>
      cases h' with
      | setter h' => cases hsetter.unique h'
      | getter _ h' => cases hgetter.unique h'
      | property => exact ⟨rfl, rfl⟩

/-- Two lists with the same entries, in whatever order and however often. -/
def SameEntries (vs ws : List Value) : Prop := ∀ v, v ∈ vs ↔ v ∈ ws

theorem sameEntries_map {ss ts : List String} (h : ss ⊆ ts) (h' : ts ⊆ ss) :
    SameEntries (ss.map .text) (ts.map .text) :=
  fun _ => ⟨fun hv => List.map_subset _ h hv, fun hv => List.map_subset _ h' hv⟩

theorem Takes.of_same_entries (h : n.Takes name role rest?)
    (hgetters : SameEntries n.getterPrefixes n'.getterPrefixes)
    (hsetters : SameEntries n.setterPrefixes n'.setterPrefixes) : n'.Takes name role rest? := by
  have hgetters : ∀ p : String, .text p ∈ n.getterPrefixes ↔ .text p ∈ n'.getterPrefixes :=
    fun p => hgetters (.text p)
  have hsetters : ∀ p : String, .text p ∈ n.setterPrefixes ↔ .text p ∈ n'.setterPrefixes :=
    fun p => hsetters (.text p)
  cases h with
  | setter h => exact .setter (h.of_same_texts hsetters)
  | getter hnone h => exact .getter (hnone.of_same_texts hsetters) (h.of_same_texts hgetters)
  | property hsetter hgetter =>
      exact .property (hsetter.of_same_texts hsetters) (hgetter.of_same_texts hgetters)

theorem exists_takes (n : Naming) (name : String) : ∃ role rest?, n.Takes name role rest? := by
  obtain ⟨setter?, hsetter⟩ := exists_strips n.setterPrefixes name
  obtain ⟨getter?, hgetter⟩ := exists_strips n.getterPrefixes name
  cases setter? with
  | some rest => exact ⟨_, _, .setter hsetter⟩
  | none =>
      cases getter? with
      | some rest => exact ⟨_, _, .getter hsetter hgetter⟩
      | none => exact ⟨_, _, .property hsetter hgetter⟩

theorem takes_of_role (h : n.role e = .ok role) : ∃ rest?, n.Takes e.name role rest? := by
  obtain ⟨setter?, hsetter, h⟩ := Refusal.bind_eq_ok.mp h
  have hsetter := strips_of_stripPrefix? hsetter
  cases setter? with
  | some rest =>
      cases Refusal.pure_eq_ok.mp h
      exact ⟨_, .setter hsetter⟩
  | none =>
      obtain ⟨getter?, hgetter, h⟩ := Refusal.bind_eq_ok.mp h
      have hgetter := strips_of_stripPrefix? hgetter
      cases getter? with
      | some rest =>
          cases Refusal.pure_eq_ok.mp h
          exact ⟨_, .getter hsetter hgetter⟩
      | none =>
          cases Refusal.pure_eq_ok.mp h
          exact ⟨_, .property hsetter hgetter⟩

theorem takes_of_propertyName {property : String} (h : n.propertyName e = .ok property) :
    ∃ role rest?, n.Takes e.name role rest? ∧ property = propertyOf rest? := by
  obtain ⟨setter?, hsetter, h⟩ := Refusal.bind_eq_ok.mp h
  have hsetter := strips_of_stripPrefix? hsetter
  cases setter? with
  | some rest =>
      cases Refusal.pure_eq_ok.mp h
      exact ⟨_, _, .setter hsetter, rfl⟩
  | none =>
      obtain ⟨getter?, hgetter, h⟩ := Refusal.bind_eq_ok.mp h
      have hgetter := strips_of_stripPrefix? hgetter
      cases Refusal.pure_eq_ok.mp h
      cases getter? with
      | some rest => exact ⟨_, _, .getter hsetter hgetter, rfl⟩
      | none => exact ⟨_, _, .property hsetter hgetter, rfl⟩

/-- What a convention gives a method: its role and its property.  Where the convention is asked and
answers, it answers these, and it always answers if its prefixes are texts. -/
structure Gives (n : Naming) (e : Element) (role : Role) (property : String) : Prop where
  of_role : ∀ role', n.role e = .ok role' → role' = role
  of_propertyName : ∀ property', n.propertyName e = .ok property' → property' = property
  answers : AllTexts n.getterPrefixes → AllTexts n.setterPrefixes →
    n.role e = .ok role ∧ n.propertyName e = .ok property

theorem Takes.gives (h : n.Takes e.name role rest?) : n.Gives e role (propertyOf rest?) := by
  have hrole : ∀ role', n.role e = .ok role' → role' = role := by
    intro role' hrole'
    obtain ⟨rest?', h'⟩ := takes_of_role hrole'
    exact (h'.unique h).1
  have hproperty : ∀ property', n.propertyName e = .ok property' →
      property' = propertyOf rest? := by
    intro property' hproperty'
    obtain ⟨role', rest?', h', rfl⟩ := takes_of_propertyName hproperty'
    rw [(h'.unique h).2]
  refine ⟨hrole, hproperty, fun hgetters hsetters => ?_⟩
  obtain ⟨role', hrole'⟩ := role_of_allTexts hsetters hgetters e
  obtain ⟨property', hproperty'⟩ := propertyName_of_allTexts hsetters hgetters e
  rw [hrole', hproperty', hrole role' hrole', hproperty property' hproperty']
  exact ⟨rfl, rfl⟩

/-- **How prefixes are listed makes no difference.**  Conventions with the same prefixes say the same
of every method, and what they say is told by the longest prefix at a word boundary, looked for among
the setters first and then among the getters. -/
theorem gives_of_same_entries (hgetters : SameEntries n.getterPrefixes n'.getterPrefixes)
    (hsetters : SameEntries n.setterPrefixes n'.setterPrefixes) (e : Element) :
    ∃ role rest?, n.Takes e.name role rest? ∧
      n.Gives e role (propertyOf rest?) ∧ n'.Gives e role (propertyOf rest?) := by
  obtain ⟨role, rest?, htakes⟩ := exists_takes n e.name
  exact ⟨role, rest?, htakes, htakes.gives, (htakes.of_same_entries hgetters hsetters).gives⟩

/-- A convention whose longest prefixes end inside a word of the name. -/
def overlapping : Naming := ofTexts ["", "get", "getX", "ge"] ["set"] "Property"

/-- The same convention, listed otherwise. -/
def overlapping' : Naming := ofTexts ["ge", "getX", "getX", "", "get"] ["set", "set"] "Property"

/-- A getter of an X-ray. -/
def getXray : Element where
  uid := "Lab.getXray"
  kind := .method
  name := "getXray"
  fullName := "Lab.getXray"

theorem gives_of_same_entries_getXray :
    SameEntries overlapping.getterPrefixes overlapping'.getterPrefixes ∧
      SameEntries overlapping.setterPrefixes overlapping'.setterPrefixes ∧
      overlapping.role getXray = .ok .getter ∧ overlapping'.role getXray = .ok .getter ∧
      overlapping.propertyName getXray = .ok "xray" ∧
      overlapping'.propertyName getXray = .ok "xray" := by
  have hgetters : SameEntries overlapping.getterPrefixes overlapping'.getterPrefixes :=
    sameEntries_map (by decide) (by decide)
  have hsetters : SameEntries overlapping.setterPrefixes overlapping'.setterPrefixes :=
    sameEntries_map (by decide) (by decide)
  obtain ⟨role, rest?, -, hgives, hgives'⟩ := gives_of_same_entries hgetters hsetters getXray
  have hrole : overlapping.role getXray = .ok .getter := by cbv
  have hproperty : overlapping.propertyName getXray = .ok "xray" := by cbv
  have htexts := isText_ofTexts ["ge", "getX", "getX", "", "get"] ["set", "set"] "Property"
  obtain ⟨hrole', hproperty'⟩ := hgives'.answers htexts.getters htexts.setters
  rw [← hgives.of_role _ hrole] at hrole'
  rw [← hgives.of_propertyName _ hproperty] at hproperty'
  exact ⟨hgetters, hsetters, hrole, hrole', hproperty, hproperty'⟩

end TypePages.Naming
