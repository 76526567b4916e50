import TypePages.Page.Basic
import TypePages.Proofs.Completion
import TypePages.Proofs.DefaultMessages
import TypePages.Proofs.Synthesis
import TypePages.Proofs.Targets

/-!
Every page is rendered.

Nothing that a model may hold refuses its pages: hierarchies may be cyclic, supertypes and
overridden methods missing, comments and names anything.  What is left to refuse are the settings.
The least level and the naming convention are texts, so questions about levels and names have
answers; each message that is asked for is there and takes what it is given; and a setter is found
by its one parameter, so there is a parameter to name.  `writable_of_texts` puts these together for
the section of a kind, and everything else on a page is written without asking.
-/

namespace TypePages

namespace Builder

open Work

variable {b : Builder} {m : Model} {targets : Targets} {rules : Table.Rules} {owner e a : Element}
  {k : Member.Kind} {least : String}

theorem ofType_returns (messages : Value) (hmin : m.minAccess = .text least)
    (hnaming : rules.naming.IsText) (targets : Targets) (e : Element) :
    ∃ b, ofType m targets messages rules e = .ok b := by
  obtain ⟨t, ht⟩ := Table.read_returns hmin hnaming e
  exact ⟨_, Refusal.bind_eq_ok.mpr ⟨t, ht, rfl⟩⟩

/-! ### Messages -/

section Messages

variable (hmessages : b.messages = Config.defaultCatalog)

include hmessages

theorem message_returns (key : String) (args : List String)
    (h : (Config.defaultMessages.lookup key).any (Template.takes · args.length) = true) :
    ∃ text, b.message key args = .ok text := by
  rw [message, hmessages]
  refine Config.message_default ?_
  rwa [List.length_map]

/-- Every kind has a heading. -/
theorem heading_returns (k : Member.Kind) : ∃ lines, b.heading k = .ok lines := by
  have hall : ∀ k ∈ Member.Kind.all, (Config.defaultMessages.lookup (k.key ++ "_summary")).any
      (Template.takes · 0) = true := by decide
  obtain ⟨text, htext⟩ := message_returns hmessages _ [] (hall k (Member.Kind.mem_all k))
  exact ⟨_, Refusal.bind_eq_ok.mpr ⟨text, htext, rfl⟩⟩

/-- The kinds that are handed down have a heading for what is inherited. -/
theorem inheritedHeading_returns (hk : k.isHandedDown = true) (a : Element) :
    ∃ lines, b.inheritedHeading k a = .ok lines := by
  have hall : ∀ k ∈ Member.Kind.all, k.isHandedDown = true →
      (Config.defaultMessages.lookup (k.key ++ "_inherited_from")).any
        (Template.takes · 2) = true := by decide
  obtain ⟨text, htext⟩ := message_returns hmessages _ [_, _] (hall k (Member.Kind.mem_all k) hk)
  exact ⟨_, Refusal.bind_eq_ok.mpr ⟨text, htext, rfl⟩⟩

end Messages

/-! ### Levels -/

theorem isShownAncestor_returns (hmin : b.model.minAccess = .text least) (a : Element) :
    ∃ s, b.isShownAncestor a = .ok s := by
  unfold isShownAncestor
  split
  · exact ⟨true, rfl⟩
  · exact Model.isLinkable_returns hmin a

theorem attributedTo_returns (hmin : b.model.minAccess = .text least) (a : Element) :
    ∃ x, b.attributedTo a = .ok x := by
  unfold attributedTo
  split
  · obtain ⟨linkable, hlinkable⟩ := Model.isLinkable_returns hmin a
    exact ⟨_, Refusal.bind_eq_ok.mpr ⟨linkable, hlinkable, rfl⟩⟩
  · exact ⟨a, rfl⟩

/-! ### Comments and names -/

section Texts

variable (hb : ofType m targets Config.defaultCatalog rules owner = .ok b)
  (hnaming : rules.naming.IsText)

include hb hnaming

theorem isText_naming : b.naming.IsText := by
  rw [(of_ofType hb).2.2.1]
  exact hnaming

theorem accessorComment_returns {key : String} (source : Comment) (e : Element)
    (h : (Config.defaultMessages.lookup key).any (Template.takes · 1) = true) :
    ∃ c, b.accessorComment key e source = .ok c := by
  have htext := isText_naming hb hnaming
  obtain ⟨name, hname⟩ := Naming.propertyName_of_allTexts htext.setters htext.getters e
  obtain ⟨sentence, hsentence⟩ := message_returns (of_ofType hb).2.1 key [name] h
  obtain ⟨c, hc, -⟩ := accessorComment_of_message hname hsentence source
  exact ⟨c, hc⟩

theorem propertyComment_returns (e source : Element) : ∃ c, b.propertyComment e source = .ok c := by
  have htext := isText_naming hb hnaming
  obtain ⟨role, hrole⟩ := Naming.role_of_allTexts htext.setters htext.getters e
  unfold propertyComment
  rw [hrole]
  cases role with
  | getter => exact accessorComment_returns hb hnaming _ e (by decide)
  | setter => exact accessorComment_returns hb hnaming _ e (by decide)
  | property =>
      obtain ⟨tags, htags⟩ := accessorTags_returns hb e
      exact ⟨_, Refusal.bind_eq_ok.mpr ⟨.property, rfl,
        Refusal.bind_eq_ok.mpr ⟨tags, htags, rfl⟩⟩⟩

theorem commentFor_returns (e : Element) : ∃ c, b.commentFor e = .ok c := by
  unfold commentFor
  cases b.sources.find? e.uid with
  | none => exact ⟨none, rfl⟩
  | some source =>
      obtain ⟨c, hc⟩ := propertyComment_returns hb hnaming e source
      exact ⟨some c, Refusal.bind_eq_ok.mpr ⟨c, hc, rfl⟩⟩

theorem displayName_returns (k : Member.Kind) (e : Element) :
    ∃ title, b.displayName k e = .ok title := by
  unfold displayName
  split
  · exact Naming.baseName_of_isText (isText_naming hb hnaming) e
  · exact ⟨_, rfl⟩

/-! ### Inherited members -/

theorem inheritedLinks_returns (k : Member.Kind) (type : Element) (es : List Element) :
    ∃ links, b.inheritedLinks k type es = .ok links := by
  induction es with
  | nil => exact ⟨[], rfl⟩
  | cons e es ih =>
      obtain ⟨title, htitle⟩ := displayName_returns hb hnaming k e
      obtain ⟨rest, hrest⟩ := ih
      have hlink : ∃ first, b.inheritedLink k type e es.isEmpty = .ok first :=
        ⟨_, Refusal.bind_eq_ok.mpr ⟨title, htitle, rfl⟩⟩
      obtain ⟨first, hfirst⟩ := hlink
      exact ⟨_, Refusal.bind_eq_ok.mpr ⟨first, hfirst, Refusal.bind_eq_ok.mpr ⟨rest, hrest, rfl⟩⟩⟩

theorem inheritedGroup?_returns (hmin : b.model.minAccess = .text least)
    (hk : k.isHandedDown = true) (a : Element) : ∃ o, b.inheritedGroup? k a = .ok o := by
  obtain ⟨s, hs⟩ := isShownAncestor_returns hmin a
  obtain ⟨heading, hheading⟩ := inheritedHeading_returns (of_ofType hb).2.1 hk a
  obtain ⟨x, hx⟩ := attributedTo_returns hmin a
  obtain ⟨links, hlinks⟩ := inheritedLinks_returns hb hnaming k x (b.membersFrom k a)
  unfold inheritedGroup?
  rw [hs]
  cases s with
  | false => exact ⟨none, rfl⟩
  | true =>
      by_cases hempty : (b.membersFrom k a).isEmpty = true
      · exact ⟨none, if_pos hempty⟩
      · refine ⟨some (⟨k, a, x, b.membersFrom k a, [], true⟩,
          block (heading ++ [Text.join " " links])), (if_neg hempty).trans ?_⟩
        exact Refusal.bind_eq_ok.mpr ⟨heading, hheading, Refusal.bind_eq_ok.mpr ⟨x, hx,
          Refusal.bind_eq_ok.mpr ⟨links, hlinks, rfl⟩⟩⟩

/-- With texts for settings nothing that the section of a kind needs is refused. -/
theorem writable_of_texts (hmin : b.model.minAccess = .text least) (k : Member.Kind) :
    b.Writable k where
  heading := heading_returns (of_ofType hb).2.1 k
  inherited hshows := by
    have hk : k.isHandedDown = true := (Bool.and_eq_true_iff.mp hshows).2
    exact ⟨_, Refusal.filterMapM_eq_ok.mpr
      ⟨fun a _ => inheritedGroup?_returns hb hnaming hmin hk a, rfl⟩⟩
  comment e _ := commentFor_returns hb hnaming e
  name e _ := displayName_returns hb hnaming k e

end Texts

end Builder

/-! ### Configurations -/

namespace Config

/-- What is left to choose where the default messages are kept. -/
structure Choices where
  minAccess : String
  external : List String
  getterPrefixes : List String
  setterPrefixes : List String
  propertySuffix : String
  properties : Bool
  pageRoot : String

namespace Choices

/-- The naming convention that is chosen. -/
def naming (c : Choices) : Naming := .ofTexts c.getterPrefixes c.setterPrefixes c.propertySuffix

/-- The configuration of the choices. -/
def config (c : Choices) : Value :=
  named [
    ("visibility", named [("min_access", .text c.minAccess),
      ("linkable_external", .texts c.external)]),
    ("properties", named [("enabled", .bool c.properties)]),
    ("naming", named [
      ("getter_prefixes", .texts c.getterPrefixes),
      ("setter_prefixes", .texts c.setterPrefixes),
      ("property_suffix", .text c.propertySuffix)]),
    ("messages", defaultCatalog),
    ("output", named [("api_root", .text c.pageRoot)])]

theorem ofConfig_config (c : Choices) : Page.Settings.ofConfig c.config =
    .ok ⟨defaultCatalog, ⟨c.naming, c.properties⟩⟩ := by
  rfl

/-- The model of a catalog under the choices. -/
def model (c : Choices) (catalog : Catalog) : Model :=
  { toCatalog := catalog, minAccess := .text c.minAccess, external := c.external }

theorem externalOf_texts (uids : List String) : Model.externalOf (.texts uids) = .ok uids := by
  have hitems : (Value.texts uids).givenItems = .ok (uids.map .text) := by
    cases uids <;> rfl
  refine Refusal.bind_eq_ok.mpr ⟨_, hitems, Refusal.bind_eq_ok.mpr ⟨uids.map some, ?_, ?_⟩⟩
  · rw [Refusal.mapM_eq_ok, List.forall₂_map_left_iff, List.forall₂_map_right_iff,
      List.forall₂_same]
    exact fun _ _ => rfl
  · simp [pure, Except.pure]

theorem ofCatalog_config (c : Choices) (catalog : Catalog) : ∃ visibility,
    c.config.entry "visibility" = .ok visibility ∧
      Model.ofCatalog catalog visibility = .ok (c.model catalog) := by
  refine ⟨_, rfl, ?_⟩
  exact Refusal.bind_eq_ok.mpr ⟨_, rfl, Refusal.bind_eq_ok.mpr ⟨_, rfl,
    Refusal.bind_eq_ok.mpr ⟨_, externalOf_texts c.external, rfl⟩⟩⟩

end Choices

/-- The default configuration is one of them. -/
example :
    (Choices.mk "protected" [] ["get", "is"] ["set"] "Property" true "/api").config = default := rfl

end Config

namespace Page

open Builder Work

variable {b : Builder} {m : Model} {targets : Targets} {rules : Table.Rules} {config : Value}
  {least : String} {e : Element}

theorem total_write (h : Total b.build) (options : Options) : Total (write b options) := by
  refine (total_modify _).bind fun _ => ?_
  unfold writeMembers
  split
  · refine (total_discard h).bind fun _ => ?_
    split
    · exact total_modify _
    · exact total_pure ()
  · exact total_pure ()

theorem render_returns_of_settings
    (hsettings : Settings.ofConfig config = .ok ⟨Config.defaultCatalog, rules⟩)
    (hnaming : rules.naming.IsText) (hmin : m.minAccess = .text least) (targets : Targets)
    (e : Element) (options : Options) :
    ∃ page, (render config m targets e options).1 = .ok page := by
  obtain ⟨b, hb⟩ := ofType_returns Config.defaultCatalog hmin hnaming targets e
  have hbuild : Total b.build := total_build fun k _ _ =>
    writable_of_texts hb hnaming ((of_ofType hb).1 ▸ hmin) k
  obtain ⟨⟨⟩, d, hwrite⟩ := total_write hbuild options {}
  have hrun : (write b options).run {} = (.ok (), d) := hwrite
  unfold render
  rw [hsettings]
  dsimp only
  rw [hb]
  dsimp only
  rw [hrun]
  exact ⟨_, rfl⟩

/-- **Every page is rendered**, whatever the documents hold and whatever is chosen, as long as the
messages are the default ones.  No heading lacks its message, and every setter that is found has the
parameter that a reference to it names. -/
theorem render_returns (catalog : Catalog) (c : Config.Choices) : ∃ visibility m root targets,
    c.config.entry "visibility" = .ok visibility ∧ Model.ofCatalog catalog visibility = .ok m ∧
    Config.pageRoot c.config = .ok root ∧ Targets.ofModel m root = .ok targets ∧
    ∀ e, (∀ options, ∃ page, (render c.config m targets e options).1 = .ok page) ∧
      ∃ settings b, Settings.ofConfig c.config = .ok settings ∧
        Builder.ofType m targets settings.messages settings.rules e = .ok b ∧
        (∀ k, ∃ lines, b.heading k = .ok lines) ∧
        (∀ k a, b.showsInherited k = true → ∃ lines, b.inheritedHeading k a = .ok lines) ∧
        ∀ p setter, b.table.setter? p = some setter →
          ∃ parameter, setter.parameters = [parameter] := by
  obtain ⟨visibility, hvisibility, hmodel⟩ := c.ofCatalog_config catalog
  have hmin : (c.model catalog).minAccess = .text c.minAccess := rfl
  obtain ⟨targets, htargets⟩ := Targets.ofModel_returns hmin c.pageRoot
  have hnaming : (Table.Rules.mk c.naming c.properties).naming.IsText :=
    Naming.isText_ofTexts _ _ _
  refine ⟨visibility, _, .text c.pageRoot, targets, hvisibility, hmodel, rfl, htargets, fun e => ?_⟩
  refine ⟨render_returns_of_settings c.ofConfig_config hnaming hmin targets e, ?_⟩
  obtain ⟨b, hb⟩ := ofType_returns Config.defaultCatalog hmin hnaming targets e
  refine ⟨_, b, c.ofConfig_config, hb, heading_returns (of_ofType hb).2.1,
    fun k a hk => inheritedHeading_returns (of_ofType hb).2.1 (Bool.and_eq_true_iff.mp hk).2 a,
    fun p setter hsetter => Table.parameters_of_setter? (of_ofType hb).2.2.2.1 hsetter⟩

end Page

end TypePages
