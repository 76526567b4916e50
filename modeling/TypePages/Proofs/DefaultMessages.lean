import Mathlib
import TypePages.Config.Basic
import TypePages.Member.Kind
import TypePages.Message.Text
import TypePages.Proofs.Refusal

/-!
Templates that are never refused.

A template may be refused for the way it is written, for the arguments that it asks for, and for
what it asks of them.  One that asks for arguments by position and shows them as they stand needs
nothing but enough of them (`format_returns`), and the default templates are of that kind.  Whether
they are is a question that can be computed, so a template that is added is checked by running
`takes`.
-/

namespace TypePages

namespace Template

variable {args : List Value} {name : List Char} {n : Nat}

/-! ### Fields by position -/

/-- The position that a field asks for, if it shows the argument there as it stands. -/
def Field.position? (f : Field) : Option Nat :=
  if f.conversion = none ∧ f.spec = [] ∧ f.name.all (fun c => c != '.' && c != '[') then
    (number? f.name).toOption.join
  else none

/-- The piece can be written with so many arguments. -/
def Piece.fits (count : Nat) : Piece → Bool
  | .literal _ => true
  | .field f => f.position?.any (· < count)
  | .refused _ => false

/-- The template can be written with so many arguments. -/
def takes (template : String) (count : Nat) : Bool := (pieces template.toList).all (·.fits count)

theorem Field.of_position? {f : Field} (h : f.position? = some n) :
    f.conversion = none ∧ f.spec = [] ∧ f.name.all (fun c => c != '.' && c != '[') = true ∧
      number? f.name = .ok (some n) := by
  unfold position? at h
  split at h
  next hplain =>
    obtain ⟨o, ho, rfl⟩ : ∃ o, (number? f.name).toOption = some o ∧ o = some n := by
      simpa [Option.join_eq_some_iff] using h
    exact ⟨hplain.1, hplain.2.1, hplain.2.2, Refusal.toOption_eq_some_iff.mp ho⟩
  next => cases h

theorem position?_of_number {numbering : Numbering} (h : number? name = .ok (some n))
    (hnumbering : ∀ next, numbering ≠ .automatic next) :
    position? numbering name = .ok (some n, .manual) := by
  unfold position?
  rw [h]
  cases numbering with
  | automatic next => exact absurd rfl (hnumbering next)
  | unset => rfl
  | manual => rfl

/-- An argument that is asked for by its position is found there. -/
theorem argument_of_number {numbering : Numbering} (h : number? name = .ok (some n))
    (hplain : name.all (fun c => c != '.' && c != '[') = true)
    (hnumbering : ∀ next, numbering ≠ .automatic next) {v : Value} (hv : args[n]? = some v) :
    argument args numbering name = .ok (.value v, .manual) := by
  have hfirst : name.takeWhile (fun c => c != '.' && c != '[') = name :=
    List.takeWhile_eq_self_iff.mpr (List.all_eq_true.mp hplain)
  have hposition : lift (position? numbering name) = .ok (some n, .manual) := by
    rw [position?_of_number h hnumbering]
    rfl
  have hsteps : accessesWithin name.length [] = [] := by
    cases name.length <;> rfl
  unfold argument
  simp only [hfirst, List.drop_length, hsteps]
  refine Refusal.bind_eq_ok.mpr ⟨_, hposition, ?_⟩
  dsimp only
  rw [hv]
  rfl

/-- Pieces that fit are written, as long as no field has gone without a position. -/
theorem writePieces_returns
    (expand : Numbering → List Char → Except Fault (List Char × Numbering)) {ps : List Piece}
    (h : ∀ p ∈ ps, p.fits args.length = true) {numbering : Numbering}
    (hnumbering : ∀ next, numbering ≠ .automatic next) :
    ∃ r, writePieces expand args numbering ps = .ok r := by
  induction ps generalizing numbering with
  | nil => exact ⟨_, rfl⟩
  | cons p ps ih =>
      have hp := h p List.mem_cons_self
      have hrest : ∀ q ∈ ps, q.fits args.length = true := fun q hq =>
        h q (List.mem_cons_of_mem _ hq)
      cases p with
      | literal text =>
          obtain ⟨r, hr⟩ := ih hrest hnumbering
          exact ⟨_, Refusal.bind_eq_ok.mpr ⟨r, hr, rfl⟩⟩
      | refused fault => cases hp
      | field f =>
          obtain ⟨n, hn, hlt⟩ : ∃ n, f.position? = some n ∧ n < args.length := by
            simpa [Piece.fits, Option.any_eq_true] using hp
          obtain ⟨hconversion, hspec, hplain, hnumber⟩ := Field.of_position? hn
          have hfound := argument_of_number hnumber hplain hnumbering (List.getElem?_eq_getElem hlt)
          obtain ⟨r, hr⟩ := ih hrest
            (show ∀ next, Numbering.manual ≠ .automatic next from nofun)
          refine ⟨((Subject.value args[n]).display.toList ++ r.1, r.2), ?_⟩
          rw [writePieces, hconversion, hspec]
          exact Refusal.bind_eq_ok.mpr ⟨_, hfound, Refusal.bind_eq_ok.mpr ⟨_, rfl,
            Refusal.bind_eq_ok.mpr ⟨([], .manual), rfl, Refusal.bind_eq_ok.mpr ⟨_, rfl,
              Refusal.bind_eq_ok.mpr ⟨r, hr, rfl⟩⟩⟩⟩⟩

/-- A template that takes its arguments is written with them. -/
theorem format_returns {template : String} (h : takes template args.length = true) :
    ∃ text, format template args = .ok text := by
  obtain ⟨r, hr⟩ : ∃ r, expand args 2 .unset template.toList = .ok r :=
    writePieces_returns _ (List.all_eq_true.mp h) nofun
  exact ⟨_, Refusal.bind_eq_ok.mpr ⟨r, hr, rfl⟩⟩

end Template

namespace Config

/-- The default messages as a setting. -/
def defaultCatalog : Value := named (defaultMessages.map fun (k, s) => (k, .text s))

theorem entryAt?_named (key : String) (entries : List (String × Value)) :
    entryAt? (.text key) (entries.map fun (k, v) => (.text k, v)) = entries.lookup key := by
  induction entries with
  | nil => rfl
  | cons entry entries ih =>
      obtain ⟨k, v⟩ := entry
      by_cases h : key = k
      · simp [entryAt?, Scalar.same, h]
      · have hne : (key == k) = false := beq_eq_false_iff_ne.mpr h
        have hne' : ¬k = key := fun heq => h heq.symm
        simpa [entryAt?, Scalar.same, hne', List.lookup, hne] using ih

/-- What stands under a name is found there. -/
theorem entry_named {key : String} {entries : List (String × Value)} {v : Value}
    (h : entries.lookup key = some v) : (named entries).entry key = .ok v := by
  unfold named Value.entry
  dsimp only
  rw [entryAt?_named, h]

theorem lookup_texts (key : String) (entries : List (String × String)) :
    (entries.map fun (k, s) => (k, Value.text s)).lookup key =
      (entries.lookup key).map .text := by
  induction entries with
  | nil => rfl
  | cons entry entries ih =>
      rw [List.map_cons, List.lookup, List.lookup]
      split
      · rfl
      · exact ih

/-- A default message is written with the arguments that its template takes. -/
theorem message_default {key : String} {args : List Value}
    (h : (defaultMessages.lookup key).any (Template.takes · args.length) = true) :
    ∃ text, Template.message defaultCatalog key args = .ok text := by
  obtain ⟨template, hkey, htakes⟩ : ∃ template, defaultMessages.lookup key = some template ∧
      Template.takes template args.length = true := by
    simpa [Option.any_eq_true] using h
  have hentry : defaultCatalog.entry key = .ok (.text template) :=
    entry_named (by rw [lookup_texts, hkey, Option.map_some])
  obtain ⟨text, htext⟩ := Template.format_returns htakes
  exact ⟨text, Refusal.bind_eq_ok.mpr ⟨_, hentry, htext⟩⟩

end Config

end TypePages
