import TypePages.Proofs.Merge

/-!
Laying a configuration over another twice does no more than doing it once.

A merge writes one entry after another, and it leaves the base as it is where each entry of the
update is absorbed: the base has a value under its key, and the entry laid over this value is the
value again (`mergeEntries_absorbed`).  A mapping absorbs itself, and what came out of a merge
absorbs the update.  Both go down to the values by induction, and the second needs the first, because
an update that replaced something in the first merge meets itself in the second.

All that is asked is that no mapping has two equal keys.  Nothing is asked of the form of the keys,
and lists may hold mappings.  Equality goes by meaning there, so `true` is found where a one stands.
-/

namespace TypePages

/-! ### Mappings without equal keys -/

section Keys

variable {key k k' : Scalar} {v w : Value} {es fs : List (Scalar × Value)} {e : Scalar × Value}

/-- No two keys of the entries are equal. -/
def DistinctKeys (es : List (Scalar × Value)) : Prop :=
  es.Pairwise fun e f => e.1.same f.1 = false

theorem Scalar.same_self (s : Scalar) : s.same s = true := Scalar.same_iff.mpr rfl

theorem Scalar.same_comm (a b : Scalar) : a.same b = b.same a := by
  rw [Bool.eq_iff_iff, Scalar.same_iff, Scalar.same_iff]
  exact eq_comm

theorem entryAt?_eq_none_of_ne (h : ∀ e ∈ es, e.1.same key = false) : entryAt? key es = none := by
  cases hentry : entryAt? key es with
  | none => rfl
  | some v =>
      obtain ⟨k, hmem, hk⟩ := exists_of_entryAt? hentry
      rw [h _ hmem] at hk
      cases hk

/-- Where keys differ, each finds its own entry. -/
theorem entryAt?_of_mem (h : DistinctKeys es) (he : e ∈ es) : entryAt? e.1 es = some e.2 := by
  induction es with
  | nil => cases he
  | cons f es ih =>
      obtain ⟨k, v⟩ := f
      obtain ⟨hfirst, hrest⟩ := List.pairwise_cons.mp h
      rw [entryAt?]
      rcases List.mem_cons.mp he with heq | he
      · rw [heq, if_pos (Scalar.same_self k)]
      · rw [hfirst e he, if_neg Bool.false_ne_true]
        exact ih hrest he

/-- Writing what is there already changes nothing. -/
theorem putEntry_of_entryAt? (h : entryAt? key es = some v) : putEntry key v es = es := by
  induction es with
  | nil => cases h
  | cons e es ih =>
      obtain ⟨k, w⟩ := e
      rw [entryAt?] at h
      rw [putEntry]
      by_cases hk : k.same key = true
      · rw [if_pos hk] at h ⊢
        rw [Option.some.inj h]
      · rw [if_neg hk] at h ⊢
        rw [ih h]

/-- An entry under a new key comes last. -/
theorem putEntry_of_ne (h : ∀ e ∈ es, e.1.same key = false) (v : Value) :
    putEntry key v es = es ++ [(key, v)] := by
  induction es with
  | nil => rfl
  | cons e es ih =>
      obtain ⟨k, w⟩ := e
      have hk : k.same key = false := h _ List.mem_cons_self
      rw [putEntry, hk, if_neg Bool.false_ne_true,
        ih fun e he => h e (List.mem_cons_of_mem _ he)]
      rfl

end Keys

namespace Value

/-- A value in which no mapping has two equal keys. -/
inductive Keyed : Value → Prop
  | scalar (s : Scalar) : Keyed (.scalar s)
  | list {items : List Value} (values : ∀ v ∈ items, Keyed v) : Keyed (.list items)
  | mapping {es : List (Scalar × Value)} (distinct : DistinctKeys es)
      (values : ∀ e ∈ es, Keyed e.2) : Keyed (.mapping es)

variable {v : Value} {items : List Value} {es fs : List (Scalar × Value)}

theorem sameItems_self (h : ∀ v ∈ items, v.same v = true) : sameItems items items = true := by
  induction items with
  | nil => rfl
  | cons v items ih =>
      rw [sameItems, h v List.mem_cons_self, Bool.true_and]
      exact ih fun w hw => h w (List.mem_cons_of_mem v hw)

theorem sameEntries_of_forall
    (h : ∀ e ∈ es, ∃ w, entryAt? e.1 fs = some w ∧ e.2.same w = true) :
    sameEntries es fs = true := by
  induction es with
  | nil => rfl
  | cons e es ih =>
      exact sameEntries_cons_iff.mpr ⟨h e List.mem_cons_self,
        ih fun f hf => h f (List.mem_cons_of_mem e hf)⟩

/-- A value equals itself, as long as each of its keys finds its own entry. -/
theorem Keyed.same_self (h : v.Keyed) : v.same v = true := by
  induction h with
  | scalar s => exact Scalar.same_self s
  | list values ih => exact sameItems_self ih
  | mapping distinct values ih =>
      rw [Value.same, Bool.and_eq_true, beq_iff_eq]
      exact ⟨rfl, sameEntries_of_forall fun e he =>
        ⟨e.2, entryAt?_of_mem distinct he, ih e he⟩⟩

theorem isIn_of_mem (h : v.Keyed) (hmem : v ∈ items) : v.isIn items = true :=
  List.any_eq_true.mpr ⟨v, hmem, h.same_self⟩

end Value

namespace Config

open Value

variable {v : Value} {items base : List Value} {key : Scalar} {old : Option Value}
  {bs us es : List (Scalar × Value)} {e : Scalar × Value}

/-! ### Lists that add up -/

/-- A list takes no item that equals one of its own. -/
theorem extend_absorbed (h : ∀ v ∈ items, v.isIn base = true) : extend base items = base := by
  induction items with
  | nil => rfl
  | cons v items ih =>
      rw [extend, if_pos (h v List.mem_cons_self)]
      exact ih fun w hw => h w (List.mem_cons_of_mem v hw)

theorem isIn_extend_of_isIn (h : v.isIn base = true) (items : List Value) :
    v.isIn (extend base items) = true := by
  rw [extend_eq, isIn_append, h, Bool.true_or]

/-- What was added, or was left out because something equal was there, is there afterwards. -/
theorem isIn_extend (hitems : ∀ v ∈ items, v.Keyed) (hv : v ∈ items) (base : List Value) :
    v.isIn (extend base items) = true := by
  induction items generalizing base with
  | nil => cases hv
  | cons x items ih =>
      rw [extend]
      rcases List.mem_cons.mp hv with heq | hv
      · rw [heq]
        refine isIn_extend_of_isIn ?_ items
        split
        · assumption
        · exact isIn_of_mem (hitems x List.mem_cons_self) (by simp)
      · exact ih (fun w hw => hitems w (List.mem_cons_of_mem x hw)) hv _

theorem extend_self (hitems : ∀ v ∈ items, v.Keyed) : extend items items = items :=
  extend_absorbed fun v hv => isIn_of_mem (hitems v hv) hv

theorem extend_extend (hitems : ∀ v ∈ items, v.Keyed) (base : List Value) :
    extend (extend base items) items = extend base items :=
  extend_absorbed fun _ hv => isIn_extend hitems hv base

/-! ### One merge -/

/-- An entry of the base is kept where no entry of the update has its key. -/
theorem entryAt?_mergeEntries_of_ne (h : ∀ e ∈ us, e.1.same key = false)
    (bs : List (Scalar × Value)) : entryAt? key (mergeEntries bs us) = entryAt? key bs := by
  induction us generalizing bs with
  | nil => rfl
  | cons e us ih =>
      obtain ⟨k, v⟩ := e
      have hk : k.same key = false := h _ List.mem_cons_self
      rw [mergeEntries, ih fun e he => h e (List.mem_cons_of_mem _ he), entryAt?_putEntry, hk,
        if_neg Bool.false_ne_true]

/-- Each entry of the update is laid over what the base has under its key. -/
theorem entryAt?_mergeEntries_of_mem (h : DistinctKeys us) (he : e ∈ us)
    (bs : List (Scalar × Value)) :
    entryAt? e.1 (mergeEntries bs us) = some (mergeValue e.1 (entryAt? e.1 bs) e.2) := by
  induction us generalizing bs with
  | nil => cases he
  | cons f us ih =>
      obtain ⟨k, v⟩ := f
      obtain ⟨hfirst, hrest⟩ := List.pairwise_cons.mp h
      rw [mergeEntries]
      rcases List.mem_cons.mp he with heq | he
      · have hothers : ∀ f ∈ us, f.1.same k = false := fun f hf => by
          rw [Scalar.same_comm]
          exact hfirst f hf
        rw [heq, entryAt?_mergeEntries_of_ne hothers, entryAt?_putEntry,
          if_pos (Scalar.same_self k)]
      · rw [ih hrest he, entryAt?_putEntry, hfirst e he, if_neg Bool.false_ne_true]

/-- Entries under new keys come last, as they are. -/
theorem mergeEntries_eq_append (h : DistinctKeys (bs ++ us)) : mergeEntries bs us = bs ++ us := by
  induction us generalizing bs with
  | nil => rw [mergeEntries, List.append_nil]
  | cons e us ih =>
      obtain ⟨k, v⟩ := e
      have hnew : ∀ e ∈ bs, e.1.same k = false := fun e he =>
        (List.pairwise_append.mp h).2.2 e he _ List.mem_cons_self
      rw [List.append_cons] at h
      rw [mergeEntries, entryAt?_eq_none_of_ne hnew, mergeValue_none, putEntry_of_ne hnew, ih h,
        ← List.append_cons]

/-! ### The second merge -/

/-- A merge changes nothing where every entry of the update is absorbed. -/
theorem mergeEntries_absorbed
    (h : ∀ e ∈ us, ∃ w, entryAt? e.1 bs = some w ∧ mergeValue e.1 (some w) e.2 = w) :
    mergeEntries bs us = bs := by
  induction us with
  | nil => rw [mergeEntries]
  | cons e us ih =>
      obtain ⟨k, v⟩ := e
      obtain ⟨w, hw, habsorbed⟩ := h _ List.mem_cons_self
      rw [mergeEntries, hw, habsorbed, putEntry_of_entryAt? hw]
      exact ih fun e he => h e (List.mem_cons_of_mem _ he)

/-- A value laid over itself is itself. -/
theorem mergeValue_self (h : v.Keyed) (key : Scalar) : mergeValue key (some v) v = v := by
  induction h generalizing key with
  | scalar s => rfl
  | list values ih =>
      rw [mergeValue, extend_self values, ite_self]
  | mapping distinct values ih =>
      rw [mergeValue, mergeEntries_absorbed fun e he =>
        ⟨e.2, entryAt?_of_mem distinct he, ih e he e.1⟩]

/-- What a value was laid over absorbs it. -/
theorem mergeValue_mergeValue (h : v.Keyed) (key : Scalar) (old : Option Value) :
    mergeValue key (some (mergeValue key old v)) v = mergeValue key old v := by
  induction h generalizing key old with
  | scalar s => rfl
  | @list items values ih =>
      by_cases hlist : ∃ base, old = some (.list base)
      · obtain ⟨base, rfl⟩ := hlist
        rw [mergeValue, mergeValue]
        by_cases hkey : additiveKeys.contains key = true
        · rw [if_pos hkey, if_pos hkey, extend_extend values]
        · rw [if_neg hkey, if_neg hkey]
      · -- The list replaced what was there, and comes over itself.
        have hreplaced : mergeValue key old (.list items) = .list items :=
          mergeValue_replaced (by simp [form]) fun _ _ _ base hold => hlist ⟨base, hold⟩
        rw [hreplaced]
        exact mergeValue_self (.list values) key
  | @mapping us distinct values ih =>
      by_cases hmapping : ∃ bs, old = some (.mapping bs)
      · obtain ⟨bs, rfl⟩ := hmapping
        rw [mergeValue, mergeValue, mergeEntries_absorbed fun e he =>
          ⟨_, entryAt?_mergeEntries_of_mem distinct he bs, ih e he e.1 _⟩]
      · have hgrafted : mergeValue key old (.mapping us) = .mapping us :=
          mergeValue_grafted fun bs hold => hmapping ⟨bs, hold⟩
        rw [hgrafted]
        exact mergeValue_self (.mapping distinct values) key

/-! ### Configurations -/

/-- Mappings are merged alike under every key. -/
theorem merge_eq_mergeValue (key : Scalar) (bs us : List (Scalar × Value)) :
    merge (.mapping bs) (.mapping us) =
      .ok (mergeValue key (some (.mapping bs)) (.mapping us)) := by
  rw [merge, mergeValue]

/-- **Merging is idempotent, and the empty mapping is neutral on either side.** -/
theorem merge_idempotent (hbase : (mapping bs).Keyed) (hupdate : (mapping us).Keyed) :
    (∃ result, merge (.mapping bs) (.mapping us) = .ok result ∧
        merge result (.mapping us) = .ok result) ∧
      merge (.mapping bs) (.mapping []) = .ok (.mapping bs) ∧
      merge (.mapping []) (.mapping us) = .ok (.mapping us) ∧
      merge (.mapping bs) (.mapping bs) = .ok (.mapping bs) := by
  refine ⟨⟨.mapping (mergeEntries bs us), rfl, ?_⟩, rfl, ?_, ?_⟩
  · have hagain := mergeValue_mergeValue hupdate .null (some (.mapping bs))
    rw [mergeValue] at hagain
    rw [merge_eq_mergeValue .null, hagain]
  · cases hupdate with
    | mapping distinct values =>
        have hnew : DistinctKeys ([] ++ us) := distinct
        rw [merge, mergeEntries_eq_append hnew, List.nil_append]
  · rw [merge_eq_mergeValue .null, mergeValue_self hbase]

theorem keyed_named {entries : List (String × Value)} (distinct : (entries.map (·.1)).Nodup)
    (values : ∀ e ∈ entries, Keyed e.2) : Keyed (named entries) := by
  refine .mapping ?_ fun e he => ?_
  · have hkeys : entries.Pairwise fun x y => (Scalar.text x.1).same (.text y.1) = false :=
      (List.pairwise_map.mp distinct).imp fun hne => beq_eq_false_iff_ne.mpr hne
    exact hkeys.map _ fun _ _ h => h
  · obtain ⟨x, hx, rfl⟩ := List.mem_map.mp he
    exact values x hx

/-- Prefixes of which one is a number. -/
def onePrefix : Value :=
  named [("naming", named [("getter_prefixes", .list [.text "get", .int 1])])]

/-- Prefixes of which one equals the number, and one is named twice. -/
def repeatedPrefixes : Value :=
  named [("naming", named [("getter_prefixes", .list [.bool true, .text "has", .text "has"]),
    ("setter_prefixes", .list [.text "put", .text "put"])])]

/-- Where lists add up a prefix comes once, and where the list is new it stays as it is; the second
time nothing is added to either. -/
theorem merge_idempotent_repeatedPrefixes : onePrefix.Keyed ∧ repeatedPrefixes.Keyed ∧
    ∃ result, merge onePrefix repeatedPrefixes = .ok result ∧
      merge result repeatedPrefixes = .ok result ∧
      result.at? ["naming", "getter_prefixes"] =
        some (.list [.text "get", .int 1, .text "has"]) ∧
      result.at? ["naming", "setter_prefixes"] = some (.texts ["put", "put"]) := by
  have hscalars : ∀ ss : List Scalar, (list (ss.map .scalar)).Keyed := fun ss =>
    .list fun v hv => by
      obtain ⟨s, -, rfl⟩ := List.mem_map.mp hv
      exact .scalar s
  have hbase : onePrefix.Keyed := by
    refine keyed_named (by decide) fun e he => ?_
    rw [List.mem_singleton.mp he]
    refine keyed_named (by decide) fun e he => ?_
    rw [List.mem_singleton.mp he]
    exact hscalars [.text "get", .int 1]
  have hupdate : repeatedPrefixes.Keyed := by
    refine keyed_named (by decide) fun e he => ?_
    rw [List.mem_singleton.mp he]
    refine keyed_named (by decide) fun e he => ?_
    rcases List.mem_pair.mp he with rfl | rfl
    · exact hscalars [.bool true, .text "has", .text "has"]
    · exact hscalars [.text "put", .text "put"]
  obtain ⟨⟨result, hmerge, hagain⟩, -⟩ := merge_idempotent hbase hupdate
  refine ⟨hbase, hupdate, result, hmerge, hagain, ?_⟩
  cases hmerge
  exact ⟨rfl, rfl⟩

end Config

end TypePages
