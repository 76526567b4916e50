import TypePages.Config.Basic
import TypePages.Proofs.Equality

/-!
What laying one configuration over another leaves along each path.

One pass over the update says what becomes of an entry (`entryAt?_mergeEntries`), and along a path
the same is true of the value under the last key (`at?_merged_concat`): where the update has a
mapping before it, the base either has one too and the two are merged, or it has nothing behind it
and leaves the update as it is.  Each promise is this equation for one kind of value.

The base need not have any shape.  In the update no key may come twice, or the later entry would be
laid over the earlier one.
-/

namespace TypePages

namespace Value

/-! ### Paths -/

/-- What a walk along keys ends at, if it meets nothing but mappings before. -/
def at? : Value → List String → Option Value
  | v, [] => some v
  | .mapping es, k :: p => (entryAt? (.text k) es).bind (·.at? p)
  | _, _ :: _ => none

/-- A nested mapping, with texts for keys and no key twice in a mapping.  What lists hold may be of
any shape. -/
inductive Nested : Value → Prop
  | scalar (s : Scalar) : Nested (.scalar s)
  | list (items : List Value) : Nested (.list items)
  | mapping {es : List (Scalar × Value)} (texts : ∀ e ∈ es, ∃ k, e.1 = .text k)
      (distinct : (es.map (·.1)).Nodup) (values : ∀ e ∈ es, Nested e.2) : Nested (.mapping es)

variable {es : List (Scalar × Value)} {v : Value} {k : String} {p q : List String}

theorem at?_nil (v : Value) : v.at? [] = some v := by cases v <;> rfl

theorem at?_cons (es : List (Scalar × Value)) (k : String) (p : List String) :
    (mapping es).at? (k :: p) = (entryAt? (.text k) es).bind (·.at? p) := rfl

theorem at?_singleton (es : List (Scalar × Value)) (k : String) :
    (mapping es).at? [k] = entryAt? (.text k) es := by
  rw [at?_cons]
  cases entryAt? (.text k) es with
  | none => rfl
  | some v => exact at?_nil v

/-- Only a mapping has anything behind it. -/
theorem exists_of_at?_cons {w : Value} (h : v.at? (k :: p) = some w) :
    ∃ es u, v = .mapping es ∧ entryAt? (.text k) es = some u ∧ u.at? p = some w := by
  cases v with
  | scalar s => cases h
  | list items => cases h
  | mapping es =>
      obtain ⟨u, hu, hw⟩ := Option.bind_eq_some_iff.mp h
      exact ⟨es, u, rfl, hu, hw⟩

theorem exists_mapping_of_at? (h : v.at? p = some (.mapping es)) : ∃ es', v = .mapping es' := by
  cases p with
  | nil => exact ⟨es, Option.some.inj ((at?_nil v).symm.trans h)⟩
  | cons k p =>
      obtain ⟨es', u, rfl, -, -⟩ := exists_of_at?_cons h
      exact ⟨es', rfl⟩

theorem at?_append (v : Value) (p q : List String) :
    v.at? (p ++ q) = (v.at? p).bind (·.at? q) := by
  induction p generalizing v with
  | nil => rw [List.nil_append, at?_nil, Option.bind_some]
  | cons k p ih =>
      cases v with
      | scalar s => rfl
      | list items => rfl
      | mapping es =>
          rw [List.cons_append, at?_cons, at?_cons, Option.bind_assoc]
          exact congrArg _ (funext fun u => ih u)

/-- At the end of a path that goes one key on from a mapping is the entry under this key. -/
theorem at?_concat_of_mapping (h : v.at? p = some (.mapping es)) (k : String) :
    v.at? (p ++ [k]) = entryAt? (.text k) es := by
  rw [at?_append, h, Option.bind_some, at?_singleton]

/-- The value before the last key of a path is a mapping. -/
theorem exists_of_at?_concat {w : Value} (h : v.at? (p ++ [k]) = some w) :
    ∃ es, v.at? p = some (.mapping es) := by
  rw [at?_append] at h
  obtain ⟨u, hu, hw⟩ := Option.bind_eq_some_iff.mp h
  obtain ⟨es, -, rfl, -, -⟩ := exists_of_at?_cons hw
  exact ⟨es, hu⟩

end Value

/-! ### Entries under texts -/

section Entries

variable {es : List (Scalar × Value)} {k k' : String} {v : Value}

theorem entryAt?_text_cons (k : String) (key : Scalar) (v : Value) (es : List (Scalar × Value)) :
    entryAt? (.text k) ((key, v) :: es) =
      if key = .text k then some v else entryAt? (.text k) es := by
  rw [entryAt?]
  exact if_congr Scalar.same_text_iff rfl rfl

theorem mem_of_entryAt? (h : entryAt? (.text k) es = some v) : (.text k, v) ∈ es := by
  obtain ⟨key, hmem, hkey⟩ := exists_of_entryAt? h
  rwa [Scalar.same_text_iff.mp hkey] at hmem

theorem entryAt?_eq_none (h : .text k ∉ es.map (·.1)) : entryAt? (.text k) es = none := by
  cases hentry : entryAt? (.text k) es with
  | none => rfl
  | some v => exact absurd (List.mem_map_of_mem (f := (·.1)) (mem_of_entryAt? hentry)) h

/-- A key finds what was last written under an equal one. -/
theorem entryAt?_putEntry (key key' : Scalar) (v : Value) (es : List (Scalar × Value)) :
    entryAt? key (putEntry key' v es) =
      if key'.same key = true then some v else entryAt? key es := by
  induction es with
  | nil => rfl
  | cons e es ih =>
      obtain ⟨k, w⟩ := e
      rw [putEntry]
      by_cases hk : k.same key' = true
      · have hsame : k.same key = key'.same key := by
          rw [Bool.eq_iff_iff, Scalar.same_iff, Scalar.same_iff, Scalar.same_iff.mp hk]
        rw [if_pos hk, entryAt?, entryAt?, hsame]
        split <;> rfl
      · rw [if_neg hk, entryAt?, entryAt?, ih]
        by_cases hkey : key'.same key = true
        · have hne : ¬k.same key = true := fun h =>
            hk (Scalar.same_iff.mpr ((Scalar.same_iff.mp h).trans (Scalar.same_iff.mp hkey).symm))
          rw [if_neg hne, if_pos hkey, if_pos hkey]
        · rw [if_neg hkey, if_neg hkey]

theorem entryAt?_text_putEntry (k k' : String) (v : Value) (es : List (Scalar × Value)) :
    entryAt? (.text k) (putEntry (.text k') v es) =
      if k' = k then some v else entryAt? (.text k) es := by
  have htext : (Scalar.text k').same (.text k) = true ↔ k' = k :=
    Scalar.same_text_iff.trans (Scalar.text.injEq k' k ▸ Iff.rfl)
  rw [entryAt?_putEntry, if_congr htext rfl rfl]

/-- Writing an entry adds its key at the end if it is new. -/
theorem keys_putEntry (k : String) (v : Value) (es : List (Scalar × Value)) :
    (putEntry (.text k) v es).map (·.1) =
      es.map (·.1) ++ [Scalar.text k].filter (· ∉ es.map (·.1)) := by
  induction es with
  | nil => rfl
  | cons e es ih =>
      obtain ⟨key, w⟩ := e
      rw [putEntry]
      split
      next hkey =>
        rw [Scalar.same_text_iff.mp hkey]
        simp
      next hkey =>
        have hne : Scalar.text k ≠ key := fun h => hkey (Scalar.same_text_iff.mpr h.symm)
        have hnew : [Scalar.text k].filter (· ∉ es.map (·.1)) =
            [Scalar.text k].filter (· ∉ key :: es.map (·.1)) := by
          refine List.filter_congr fun x hx => ?_
          rw [List.mem_singleton.mp hx]
          simp [hne]
        rw [List.map_cons, ih, List.map_cons, List.cons_append, hnew]

end Entries

namespace Config

open Value

variable {bs us bs' us' : List (Scalar × Value)} {k : String} {p : List String}

/-! ### Values -/

/-- The items of a list that equal no earlier one, where some come before the list. -/
def newcomers : List Value → List Value → List Value
  | _, [] => []
  | earlier, v :: vs =>
    if v.isIn earlier then newcomers (earlier ++ [v]) vs else v :: newcomers (earlier ++ [v]) vs

theorem isIn_append (v : Value) (xs ys : List Value) :
    v.isIn (xs ++ ys) = (v.isIn xs || v.isIn ys) := List.any_append

theorem isIn_of_same {v w : Value} {items : List Value} (hv : v.isIn items = true)
    (hvw : v.same w = true) : w.isIn items = true := by
  obtain ⟨u, hu, huv⟩ := List.any_eq_true.mp hv
  exact List.any_eq_true.mpr ⟨u, hu, Value.same_trans huv hvw⟩

theorem extend_eq_append {kept earlier : List Value}
    (h : ∀ v : Value, v.isIn kept = v.isIn earlier) (items : List Value) :
    extend kept items = kept ++ newcomers earlier items := by
  induction items generalizing kept earlier with
  | nil => rw [extend, newcomers, List.append_nil]
  | cons v vs ih =>
      rw [extend, newcomers, h v]
      split
      next hv =>
        -- What equals an item that was left out equals the one that it was left out for.
        refine ih fun w => ?_
        rw [h w, isIn_append]
        cases hvw : v.same w with
        | true => rw [isIn_of_same hv hvw, Bool.true_or]
        | false => simp [isIn, hvw]
      · have hnext : ∀ w : Value, w.isIn (kept ++ [v]) = w.isIn (earlier ++ [v]) := fun w => by
          rw [isIn_append, isIn_append, h w]
        rw [ih hnext, List.append_assoc]
        rfl

/-- Lists that add up keep the items of the first, and of the second what equals no earlier item. -/
theorem extend_eq (base items : List Value) : extend base items = base ++ newcomers base items :=
  extend_eq_append (fun _ => rfl) items

theorem mergeValue_none (key : Scalar) (v : Value) : mergeValue key none v = v := by
  cases v <;> rfl

theorem mergeValue_grafted {key : Scalar} {old : Option Value}
    (h : ∀ bs, old ≠ some (.mapping bs)) : mergeValue key old (.mapping us) = .mapping us := by
  unfold mergeValue
  split
  next bs => exact absurd rfl (h bs)
  · rfl

theorem mergeValue_replaced {key : Scalar} {old : Option Value} {v : Value}
    (hform : v.form ≠ .mapping)
    (h : key ∈ additiveKeys → ∀ items, v = .list items → ∀ base, old ≠ some (.list base)) :
    mergeValue key old v = v := by
  cases v with
  | scalar s => rfl
  | mapping es => exact absurd rfl hform
  | list items =>
      unfold mergeValue
      split
      next base =>
        have hkey : ¬additiveKeys.contains key = true := fun hkey =>
          h (List.contains_iff_mem.mp hkey) items rfl base rfl
        rw [if_neg hkey]
      · rfl

theorem mergeValue_added {key : Scalar} (h : key ∈ additiveKeys) (base items : List Value) :
    mergeValue key (some (.list base)) (.list items) = .list (base ++ newcomers base items) := by
  rw [mergeValue, if_pos (List.contains_iff_mem.mpr h), extend_eq]

/-! ### Entries -/

/-- What becomes of an entry: that of the update is laid over it, if there is one. -/
theorem entryAt?_mergeEntries (htexts : ∀ e ∈ us, ∃ k, e.1 = .text k)
    (hdistinct : (us.map (·.1)).Nodup) (k : String) (bs : List (Scalar × Value)) :
    entryAt? (.text k) (mergeEntries bs us) =
      ((entryAt? (.text k) us).map (mergeValue (.text k) (entryAt? (.text k) bs))).or
        (entryAt? (.text k) bs) := by
  induction us generalizing bs with
  | nil => rfl
  | cons e us ih =>
      obtain ⟨key, v⟩ := e
      obtain ⟨k', rfl⟩ := htexts _ List.mem_cons_self
      rw [List.map_cons, List.nodup_cons] at hdistinct
      rw [mergeEntries, ih (fun e he => htexts e (List.mem_cons_of_mem _ he)) hdistinct.2,
        entryAt?_text_putEntry, entryAt?_text_cons]
      by_cases hk : k' = k
      · obtain rfl := hk
        rw [if_pos rfl, if_pos rfl, entryAt?_eq_none hdistinct.1]
        rfl
      · rw [if_neg hk, if_neg fun h => hk (Scalar.text.inj h)]

/-- The keys of the base stay where they are, and the new ones of the update come behind them. -/
theorem keys_mergeEntries (htexts : ∀ e ∈ us, ∃ k, e.1 = .text k)
    (hdistinct : (us.map (·.1)).Nodup) (bs : List (Scalar × Value)) :
    (mergeEntries bs us).map (·.1) =
      bs.map (·.1) ++ (us.map (·.1)).filter (· ∉ bs.map (·.1)) := by
  induction us generalizing bs with
  | nil => simp [mergeEntries]
  | cons e us ih =>
      obtain ⟨key, v⟩ := e
      obtain ⟨k', rfl⟩ := htexts _ List.mem_cons_self
      rw [List.map_cons, List.nodup_cons] at hdistinct
      have hfirst : (((Scalar.text k', v) :: us).map (·.1)).filter (· ∉ bs.map (·.1)) =
          [Scalar.text k'].filter (· ∉ bs.map (·.1)) ++
            (us.map (·.1)).filter (· ∉ bs.map (·.1)) := List.filter_append [Scalar.text k'] _
      rw [mergeEntries, ih (fun e he => htexts e (List.mem_cons_of_mem _ he)) hdistinct.2,
        keys_putEntry, List.append_assoc, hfirst]
      refine congrArg _ (congrArg _ (List.filter_congr fun x hx => ?_))
      have hne : x ≠ .text k' := fun h => hdistinct.1 (h ▸ hx)
      simp [hne]

/-! ### Walks -/

/-- What a nested mapping holds along a path is nested. -/
theorem nested_of_at? {v w : Value} (h : v.Nested) (hw : v.at? p = some w) : w.Nested := by
  induction p generalizing v with
  | nil => exact Option.some.inj ((at?_nil v).symm.trans hw) ▸ h
  | cons k p ih =>
      obtain ⟨es, u, rfl, hentry, hu⟩ := exists_of_at?_cons hw
      cases h with
      | mapping texts distinct values => exact ih (values _ (mem_of_entryAt? hentry)) hu

/-- What becomes of the value at the end of a path: that of the update is laid over it, if there is
one.  All that is asked is that the update has a mapping before the last key. -/
theorem at?_merged_concat (hus : Nested (.mapping us))
    (hu : (mapping us).at? p = some (.mapping us')) (k : String) (bs : List (Scalar × Value)) :
    (mapping (mergeEntries bs us)).at? (p ++ [k]) =
      (((mapping us).at? (p ++ [k])).map
        (mergeValue (.text k) ((mapping bs).at? (p ++ [k])))).or
        ((mapping bs).at? (p ++ [k])) := by
  induction p generalizing bs us with
  | nil =>
      cases hus with
      | mapping texts distinct values =>
          rw [List.nil_append, at?_singleton, at?_singleton, at?_singleton,
            entryAt?_mergeEntries texts distinct]
  | cons k' p ih =>
      obtain ⟨_, u, hus', huentry, hu⟩ := exists_of_at?_cons hu
      rw [← mapping.inj hus'] at huentry
      obtain ⟨us₁, rfl⟩ := exists_mapping_of_at? hu
      cases hus with
      | mapping texts distinct values =>
          have hnested := values _ (mem_of_entryAt? huentry)
          rw [List.cons_append, at?_cons, at?_cons, at?_cons,
            entryAt?_mergeEntries texts distinct, huentry, Option.map_some, Option.some_or,
            Option.bind_some, Option.bind_some]
          by_cases hold : ∃ bs₁, entryAt? (.text k') bs = some (.mapping bs₁)
          · obtain ⟨bs₁, hbentry⟩ := hold
            rw [hbentry]
            exact ih hnested hu bs₁
          · -- Nothing of the base is left along the path.
            have hnone : (entryAt? (.text k') bs).bind (·.at? (p ++ [k])) = none := by
              rw [Option.bind_eq_none_iff]
              intro w hw
              rw [Option.eq_none_iff_forall_ne_some]
              intro x hx
              obtain ⟨es, hes⟩ := exists_of_at?_concat hx
              obtain ⟨bs₁, rfl⟩ := exists_mapping_of_at? hes
              exact hold ⟨bs₁, hw⟩
            rw [mergeValue_grafted fun bs₁ h => hold ⟨bs₁, h⟩, hnone, Option.or_none]
            cases (mapping us₁).at? (p ++ [k]) with
            | none => rfl
            | some v => rw [Option.map_some, mergeValue_none]

/-- Where both sides have mappings, the mappings are merged. -/
theorem at?_of_mappings (hus : Nested (.mapping us))
    (hb : (mapping bs).at? p = some (.mapping bs'))
    (hu : (mapping us).at? p = some (.mapping us')) :
    (mapping (mergeEntries bs us)).at? p = some (.mapping (mergeEntries bs' us')) := by
  rcases List.eq_nil_or_concat p with rfl | ⟨q, k, rfl⟩
  · rw [at?_nil, Option.some.injEq, mapping.injEq] at hb hu
    rw [at?_nil, hb, hu]
  · rw [List.concat_eq_append] at hb hu ⊢
    obtain ⟨us₁, hq⟩ := exists_of_at?_concat hu
    rw [at?_merged_concat hus hq, hb, hu]
    rfl

/-! ### What is promised -/

/-- What a configuration laid over a base has along every path. -/
structure Overlays (base update result : Value) : Prop where
  /-- What the update has at the end of a path is taken, unless it is a mapping, or lists add up
  there. -/
  replaced : ∀ p k v, update.at? (p ++ [k]) = some v → v.form ≠ .mapping →
    (.text k ∈ additiveKeys → ∀ items, v = .list items →
      ∀ old, base.at? (p ++ [k]) ≠ some (.list old)) →
    result.at? (p ++ [k]) = some v
  /-- Lists that add up keep the items of the base, and those of the update that equal no earlier
  item come behind them. -/
  added : ∀ p k old items, .text k ∈ additiveKeys → base.at? (p ++ [k]) = some (.list old) →
    update.at? (p ++ [k]) = some (.list items) →
    result.at? (p ++ [k]) = some (.list (old ++ newcomers old items))
  /-- A mapping of the update is taken where the base has none. -/
  grafted : ∀ p us, update.at? p = some (.mapping us) →
    (∀ bs, base.at? p ≠ some (.mapping bs)) → result.at? p = some (.mapping us)
  /-- Behind a key that the update does not have everything is as in the base. -/
  kept : ∀ p k rest us, update.at? p = some (.mapping us) → entryAt? (.text k) us = none →
    result.at? (p ++ k :: rest) = base.at? (p ++ k :: rest)
  /-- The keys of the base stay where they are, and the new ones of the update come behind them. -/
  keys : ∀ p bs us, base.at? p = some (.mapping bs) → update.at? p = some (.mapping us) →
    ∃ rs, result.at? p = some (.mapping rs) ∧
      rs.map (·.1) = bs.map (·.1) ++ (us.map (·.1)).filter (· ∉ bs.map (·.1))

/-- **A configuration is laid over the base path by path.**  Of the base nothing is asked but that
it is a mapping, and of the update that no key comes twice in a mapping of it. -/
theorem merge_overlays (hus : Nested (.mapping us)) (bs : List (Scalar × Value)) :
    ∃ rs, merge (.mapping bs) (.mapping us) = .ok (.mapping rs) ∧
      Overlays (.mapping bs) (.mapping us) (.mapping rs) := by
  refine ⟨mergeEntries bs us, rfl, ?_⟩
  constructor
  case replaced =>
    intro p k v hv hform hadd
    obtain ⟨us', hu⟩ := exists_of_at?_concat hv
    rw [at?_merged_concat hus hu, hv, Option.map_some, Option.some_or,
      mergeValue_replaced hform hadd]
  case added =>
    intro p k old items hkey hold hitems
    obtain ⟨us', hu⟩ := exists_of_at?_concat hitems
    rw [at?_merged_concat hus hu, hitems, hold, Option.map_some, Option.some_or,
      mergeValue_added hkey]
  case grafted =>
    intro p us' hu hb
    rcases List.eq_nil_or_concat p with rfl | ⟨q, k, rfl⟩
    · exact absurd (at?_nil _) (hb bs)
    · rw [List.concat_eq_append] at hu hb ⊢
      obtain ⟨us₁, hq⟩ := exists_of_at?_concat hu
      rw [at?_merged_concat hus hq, hu, Option.map_some, Option.some_or, mergeValue_grafted hb]
  case kept =>
    intro p k rest us' hu hmissing
    have hsplit : p ++ k :: rest = (p ++ [k]) ++ rest := by rw [List.append_assoc]; rfl
    rw [hsplit, at?_append, at?_append (p := p ++ [k]), at?_merged_concat hus hu,
      at?_concat_of_mapping hu, hmissing, Option.map_none, Option.none_or]
  case keys =>
    intro p bs' us' hb hu
    cases nested_of_at? hus hu with
    | mapping texts distinct values =>
        exact ⟨_, at?_of_mappings hus hb hu, keys_mergeEntries texts distinct bs'⟩

/-! ### A configuration over the defaults -/

theorem nested_named {entries : List (String × Value)} (distinct : (entries.map (·.1)).Nodup)
    (values : ∀ e ∈ entries, Nested e.2) : Nested (named entries) := by
  constructor
  case texts =>
    intro e he
    obtain ⟨x, -, rfl⟩ := List.mem_map.mp he
    exact ⟨x.1, rfl⟩
  case distinct =>
    have hkeys := distinct.map (f := Scalar.text) fun _ _ h => Scalar.text.inj h
    rw [List.map_map] at hkeys ⊢
    exact hkeys
  case values =>
    intro e he
    obtain ⟨x, hx, rfl⟩ := List.mem_map.mp he
    exact values x hx

/-- A configuration that documents less and names one getter prefix more. -/
def fewerTypes : Value :=
  named [("visibility", named [("min_access", .text "public")]),
    ("naming", named [("getter_prefixes", .texts ["has", "get"])])]

/-- It replaces the least level, adds its prefix, and leaves the rest of the defaults alone. -/
theorem merge_overlays_fewerTypes : fewerTypes.Nested ∧
    ∃ result, merge Config.default fewerTypes = .ok result ∧
      result.at? ["visibility", "min_access"] = some (.text "public") ∧
      result.at? ["naming", "getter_prefixes"] = some (.texts ["get", "is", "has"]) ∧
      result.at? ["naming", "setter_prefixes"] = some (.texts ["set"]) ∧
      result.at? ["output", "api_root"] = some (.text "/api") := by
  have hnested : fewerTypes.Nested := by
    refine nested_named (by decide) ?_
    intro e he
    rcases List.mem_pair.mp he with rfl | rfl
    · exact nested_named (by decide) fun e he => List.mem_singleton.mp he ▸ .scalar _
    · exact nested_named (by decide) fun e he => List.mem_singleton.mp he ▸ .list _
  obtain ⟨rs, hmerge, hoverlays⟩ := merge_overlays hnested _
  refine ⟨hnested, .mapping rs, hmerge, ?_, ?_, ?_, ?_⟩
  · have hkey : Scalar.text "min_access" ∉ additiveKeys := by decide
    exact hoverlays.replaced ["visibility"] "min_access" _ rfl (by decide) fun h => absurd h hkey
  · exact hoverlays.added ["naming"] "getter_prefixes" _ _ (by decide) rfl rfl
  · exact hoverlays.kept ["naming"] "setter_prefixes" [] _ rfl rfl
  · exact hoverlays.kept [] "output" ["api_root"] _ rfl rfl

end Config

end TypePages
