import Handoff.Design.TextGroup
import Handoff.Proofs.Decimal.Order
import Handoff.Proofs.Design.SnakeNames
import Mathlib.Data.List.Nodup

/-!
Texts in groups.

Two texts share a text style if their typographies are equal.  Equality of typographies is
symmetric and transitive (`Typography` is a `PartialEquivBEq`), and reflexive where all numbers
are finite.

`TextGroup.Partition texts groups` says that groups are the classes of texts under it: each
group lists the texts that fit it in their order, shows the first of them, and comes before the
groups whose first text is later.  One text more keeps it (`Partition.insert`), so
`partition_ofForest` holds of every forest.  The names that the groups then get are those that a
registry hands out for their titles (`names_ofForest`).
-/

namespace Handoff.Design

open Decimal (beq_self_of_isFinite)

/-! ## Equal typography -/

namespace Typography

variable {t u : Typography}

/-- All numbers of a typography are finite. -/
structure IsFinite (t : Typography) : Prop where
  size : t.size.isFinite = true
  lineHeight : ∀ height, t.lineHeight = some height → height.isFinite = true
  letterSpacing : t.letterSpacing.isFinite = true

instance (t : Typography) : Decidable t.IsFinite :=
  decidable_of_iff
    (t.size.isFinite = true ∧ t.lineHeight.all Float.isFinite = true ∧
      t.letterSpacing.isFinite = true)
    ⟨fun ⟨size, height, spacing⟩ => ⟨size, Option.all_eq_true _ _ |>.mp height, spacing⟩,
      fun finite => ⟨finite.size, Option.all_eq_true _ _ |>.mpr finite.lineHeight,
        finite.letterSpacing⟩⟩

theorem beq_iff : (t == u) = true ↔
    t.family = u.family ∧ t.weight = u.weight ∧ t.italic = u.italic ∧ (t.size == u.size) = true ∧
      (t.lineHeight == u.lineHeight) = true ∧ (t.letterSpacing == u.letterSpacing) = true ∧
      t.align = u.align ∧ t.alignVertical = u.alignVertical ∧ t.textCase = u.textCase ∧
      t.decoration = u.decoration := by
  cases t
  cases u
  show instBEqTypography.beq _ _ = true ↔ _
  simp only [instBEqTypography.beq, Bool.and_eq_true, beq_iff_eq]

instance : PartialEquivBEq Typography where
  symm {t u} same := by
    obtain ⟨family, weight, italic, size, lineHeight, spacing, align, vertical, letters, line⟩ :=
      beq_iff.mp same
    exact beq_iff.mpr ⟨family.symm, weight.symm, italic.symm, PartialEquivBEq.symm size,
      PartialEquivBEq.symm lineHeight, PartialEquivBEq.symm spacing, align.symm, vertical.symm,
      letters.symm, line.symm⟩
  trans {t u v} first second := by
    obtain ⟨family, weight, italic, size, lineHeight, spacing, align, vertical, letters, line⟩ :=
      beq_iff.mp first
    obtain ⟨family', weight', italic', size', lineHeight', spacing', align', vertical', letters',
      line'⟩ := beq_iff.mp second
    exact beq_iff.mpr ⟨family.trans family', weight.trans weight', italic.trans italic',
      PartialEquivBEq.trans size size', PartialEquivBEq.trans lineHeight lineHeight',
      PartialEquivBEq.trans spacing spacing', align.trans align', vertical.trans vertical',
      letters.trans letters', line.trans line'⟩

/-- A typography of finite numbers equals itself. -/
theorem IsFinite.beq_self (finite : t.IsFinite) : (t == t) = true := by
  refine beq_iff.mpr ⟨rfl, rfl, rfl, beq_self_of_isFinite finite.size, ?_,
    beq_self_of_isFinite finite.letterSpacing, rfl, rfl, rfl, rfl⟩
  cases height : t.lineHeight with
  | none => rfl
  | some h => exact beq_self_of_isFinite (finite.lineHeight h height)

end Typography

/-- The texts of a forest in preorder, each with the id of its node. -/
def textsOf (forest : List Node) : List (String × TextStyle) :=
  (Node.preorderList forest).filterMap fun n => n.box.style.text.map (n.box.id, ·)

theorem textsOf_ne_nil_iff {forest : List Node} :
    textsOf forest ≠ [] ↔ ∃ n ∈ Node.preorderList forest, n.box.style.text.isSome = true := by
  constructor
  · intro filled
    obtain ⟨text, member⟩ := List.exists_mem_of_ne_nil _ filled
    obtain ⟨n, among, own⟩ := List.mem_filterMap.mp member
    obtain ⟨style, present, -⟩ := Option.map_eq_some_iff.mp own
    exact ⟨n, among, Option.isSome_iff_exists.mpr ⟨style, present⟩⟩
  · rintro ⟨n, among, present⟩
    obtain ⟨style, own⟩ := Option.isSome_iff_exists.mp present
    have member : (n.box.id, style) ∈ textsOf forest :=
      List.mem_filterMap.mpr ⟨n, among, by rw [own]; rfl⟩
    exact List.ne_nil_of_mem member

namespace TextGroup

variable {texts : List (String × TextStyle)} {groups : List TextGroup}
  {text : String × TextStyle} {g : TextGroup}

/-- Whether a text is set like a group. -/
def fits (g : TextGroup) (text : String × TextStyle) : Bool :=
  g.typography == text.2.typography

/-- Two texts that fit a group are set alike, so one that fits another group with them does
not set the groups apart. -/
theorem beq_of_fits {h : TextGroup} (here : g.fits text = true) (there : h.fits text = true) :
    (g.typography == h.typography) = true :=
  PartialEquivBEq.trans here (PartialEquivBEq.symm there)

/-! ## One text -/

/-- A group with one more text, if the text fits. -/
def extend (text : String × TextStyle) (g : TextGroup) : TextGroup :=
  if g.fits text then { g with nodeIds := g.nodeIds ++ [text.1] } else g

@[simp]
theorem typography_extend : (g.extend text).typography = g.typography := by
  unfold extend
  split <;> rfl

@[simp]
theorem sample_extend : (g.extend text).sample = g.sample := by
  unfold extend
  split <;> rfl

@[simp]
theorem fits_extend : (g.extend text).fits = g.fits := by
  funext other
  rw [fits, typography_extend, fits]

/-- The group of a single text. -/
def single (text : String × TextStyle) : TextGroup :=
  ⟨"", text.2.typography, [text.1], text.2.characters⟩

theorem insert_of_not_fits (unfit : ∀ g ∈ groups, g.fits text = false) :
    insert groups text.1 text.2 = groups ++ [single text] := by
  induction groups with
  | nil => rfl
  | cons g rest ih =>
      have differs : ¬(g.typography == text.2.typography) = true :=
        Bool.eq_false_iff.mp (unfit g List.mem_cons_self)
      rw [insert, if_neg differs, ih fun h member => unfit h (List.mem_cons_of_mem g member)]
      rfl

/-- Of groups set apart only one takes the text. -/
theorem insert_of_fits
    (apart : groups.Pairwise fun g h => (g.typography == h.typography) = false)
    (fitting : ∃ g ∈ groups, g.fits text = true) :
    insert groups text.1 text.2 = groups.map (extend text) := by
  induction groups with
  | nil =>
      obtain ⟨g, member, -⟩ := fitting
      cases member
  | cons g rest ih =>
      obtain ⟨alone, apart⟩ := List.pairwise_cons.mp apart
      rw [insert, List.map_cons]
      by_cases fit : g.fits text = true
      · have unchanged : rest.map (extend text) = rest := by
          refine (List.map_congr_left fun h member => ?_).trans (List.map_id rest)
          have unfit : ¬h.fits text = true := fun other =>
            Bool.false_ne_true ((alone h member).symm.trans (beq_of_fits fit other))
          rw [extend, if_neg unfit, id]
        have same : (g.typography == text.2.typography) = true := fit
        rw [if_pos same, unchanged, extend, if_pos fit]
      · have differs : ¬(g.typography == text.2.typography) = true := fit
        have fitting : ∃ h ∈ rest, h.fits text = true := by
          obtain ⟨h, member, own⟩ := fitting
          rcases List.mem_cons.mp member with rfl | member
          · exact absurd own fit
          · exact ⟨h, member, own⟩
        rw [if_neg differs, ih apart fitting, extend, if_neg fit]

/-! ## Classes -/

/-- Groups are the classes of texts of equal typography. -/
structure Partition (texts : List (String × TextStyle)) (groups : List TextGroup) : Prop where
  /-- A group lists the texts that fit, in their order. -/
  members : ∀ g ∈ groups, g.nodeIds = (texts.filter g.fits).map (·.1)
  /-- A group is like the first of its texts. -/
  first : ∀ g ∈ groups, (texts.find? g.fits).map (·.2) = some ⟨g.sample, g.typography⟩
  covers : ∀ text ∈ texts, ∃ g ∈ groups, g.fits text = true
  apart : groups.Pairwise fun g h => (g.typography == h.typography) = false
  /-- The groups come in the order of their first texts. -/
  ordered : groups.Pairwise fun g h => texts.findIdx g.fits < texts.findIdx h.fits

theorem fits_single (finite : text.2.typography.IsFinite) : (single text).fits text = true :=
  finite.beq_self

theorem nodeIds_extend :
    (g.extend text).nodeIds = g.nodeIds ++ ([text].filter g.fits).map (·.1) := by
  unfold extend
  by_cases fit : g.fits text = true
  · rw [if_pos fit, List.filter_cons_of_pos fit]
    rfl
  · rw [if_neg fit, List.filter_cons_of_neg fit]
    exact (List.append_nil _).symm

namespace Partition

/-- Every group has a text. -/
theorem inhabited (classes : Partition texts groups) (member : g ∈ groups) :
    ∃ other ∈ texts, g.fits other = true := by
  have first := classes.first g member
  cases found : texts.find? g.fits with
  | none => rw [found] at first; cases first
  | some other => exact ⟨other, List.mem_of_find?_eq_some found, List.find?_some found⟩

theorem findIdx_lt (classes : Partition texts groups) (member : g ∈ groups) :
    texts.findIdx g.fits < texts.length :=
  List.findIdx_lt_length.mpr (classes.inhabited member)

/-- The first text of a group stays the first with more texts behind it. -/
theorem findIdx_append (classes : Partition texts groups) (member : g ∈ groups)
    (more : List (String × TextStyle)) :
    (texts ++ more).findIdx g.fits = texts.findIdx g.fits := by
  rw [List.findIdx_append, if_pos (classes.findIdx_lt member)]

theorem find?_append (classes : Partition texts groups) (member : g ∈ groups)
    (more : List (String × TextStyle)) :
    (texts ++ more).find? g.fits = texts.find? g.fits := by
  have first := classes.first g member
  rw [List.find?_append]
  cases found : texts.find? g.fits with
  | none => rw [found] at first; cases first
  | some other => rfl

/-- A text that no group takes is set like none of the texts before it. -/
theorem unfit_single (classes : Partition texts groups)
    (unfit : ∀ g ∈ groups, g.fits text = false) :
    ∀ other ∈ texts, ¬(single text).fits other = true := by
  intro other member alike
  obtain ⟨g, among, fit⟩ := classes.covers other member
  have takes : g.fits text = true := PartialEquivBEq.trans fit (PartialEquivBEq.symm alike)
  exact Bool.false_ne_true ((unfit g among).symm.trans takes)

/-- One text more keeps groups the classes of the texts. -/
theorem insert (classes : Partition texts groups) (finite : text.2.typography.IsFinite) :
    Partition (texts ++ [text]) (insert groups text.1 text.2) := by
  by_cases fitting : ∃ g ∈ groups, g.fits text = true
  · rw [insert_of_fits classes.apart fitting]
    constructor
    case members =>
      intro h member
      obtain ⟨g, among, rfl⟩ := List.mem_map.mp member
      rw [nodeIds_extend, fits_extend, List.filter_append, List.map_append,
        classes.members g among]
    case first =>
      intro h member
      obtain ⟨g, among, rfl⟩ := List.mem_map.mp member
      rw [fits_extend, sample_extend, typography_extend, classes.find?_append among,
        classes.first g among]
    case covers =>
      intro other member
      have covered : ∃ g ∈ groups, g.fits other = true := by
        rcases List.mem_append.mp member with earlier | last
        · exact classes.covers other earlier
        · rwa [List.mem_singleton.mp last]
      obtain ⟨g, among, fit⟩ := covered
      exact ⟨g.extend text, List.mem_map_of_mem among, by rwa [fits_extend]⟩
    case apart =>
      simpa only [List.pairwise_map, typography_extend] using classes.apart
    case ordered =>
      simp only [List.pairwise_map, fits_extend]
      refine classes.ordered.imp_of_mem fun {g h} first second before => ?_
      rwa [classes.findIdx_append first, classes.findIdx_append second]
  · have unfit : ∀ g ∈ groups, g.fits text = false := fun g member =>
      Bool.eq_false_iff.mpr fun fit => fitting ⟨g, member, fit⟩
    have fresh := classes.unfit_single unfit
    have own : [text].filter (single text).fits = [text] :=
      List.filter_cons_of_pos (fits_single finite)
    rw [insert_of_not_fits unfit]
    constructor
    case members =>
      intro h member
      rcases List.mem_append.mp member with among | last
      · have other : ¬h.fits text = true := Bool.eq_false_iff.mp (unfit h among)
        rw [List.filter_append, List.filter_cons_of_neg other, List.filter_nil, List.append_nil,
          classes.members h among]
      · rw [List.mem_singleton.mp last, List.filter_append, List.filter_eq_nil_iff.mpr fresh, own]
        rfl
    case first =>
      intro h member
      rcases List.mem_append.mp member with among | last
      · rw [classes.find?_append among, classes.first h among]
      · rw [List.mem_singleton.mp last, List.find?_append, List.find?_eq_none.mpr fresh,
          Option.none_or, List.find?_cons_of_pos (fits_single finite)]
        rfl
    case covers =>
      intro other member
      rcases List.mem_append.mp member with earlier | last
      · obtain ⟨g, among, fit⟩ := classes.covers other earlier
        exact ⟨g, List.mem_append_left _ among, fit⟩
      · rw [List.mem_singleton.mp last]
        exact ⟨single text, List.mem_append_right _ (List.mem_singleton_self _),
          fits_single finite⟩
    case apart =>
      refine List.pairwise_append.mpr ⟨classes.apart, List.pairwise_singleton _ _, ?_⟩
      intro g among h last
      rw [List.mem_singleton.mp last]
      exact unfit g among
    case ordered =>
      refine List.pairwise_append.mpr ⟨?_, List.pairwise_singleton _ _, ?_⟩
      · refine classes.ordered.imp_of_mem fun {g h} first second before => ?_
        rwa [classes.findIdx_append first, classes.findIdx_append second]
      · intro g among h last
        have missing : ¬texts.findIdx (single text).fits < texts.length := by
          intro found
          obtain ⟨other, member, fit⟩ := List.findIdx_lt_length.mp found
          exact fresh other member fit
        rw [List.mem_singleton.mp last, classes.findIdx_append among, List.findIdx_append,
          if_neg missing]
        exact Nat.lt_of_lt_of_le (classes.findIdx_lt among) (Nat.le_add_left _ _)

/-- A text fits one group and no other. -/
theorem filter_fits (classes : Partition texts groups) (member : text ∈ texts) :
    ∃ g, groups.filter (·.fits text) = [g] := by
  have apart := classes.apart.filter (·.fits text)
  have fitting : ∀ g ∈ groups.filter (·.fits text), g.fits text = true :=
    fun g among => (List.mem_filter.mp among).2
  obtain ⟨g, among, fit⟩ := classes.covers text member
  have kept : g ∈ groups.filter (·.fits text) := List.mem_filter.mpr ⟨among, fit⟩
  match takers : groups.filter (·.fits text) with
  | [] =>
      rw [takers] at kept
      cases kept
  | [only] => exact ⟨only, takers⟩
  | first :: second :: rest =>
      rw [takers] at apart fitting
      have differ := (List.pairwise_cons.mp apart).1 second List.mem_cons_self
      have same := beq_of_fits (fitting first List.mem_cons_self)
        (fitting second (List.mem_cons_of_mem _ List.mem_cons_self))
      exact absurd (differ.symm.trans same) Bool.false_ne_true

/-- Where no two texts have one id, a group has the ids of the texts that fit it only. -/
theorem mem_nodeIds_iff (classes : Partition texts groups) (among : g ∈ groups)
    (distinct : (texts.map (·.1)).Nodup) (member : text ∈ texts) :
    text.1 ∈ g.nodeIds ↔ g.fits text = true := by
  rw [classes.members g among, List.mem_map]
  constructor
  · rintro ⟨other, kept, same⟩
    obtain ⟨earlier, fit⟩ := List.mem_filter.mp kept
    rwa [← List.inj_on_of_nodup_map distinct earlier member same]
  · exact fun fit => ⟨text, List.mem_filter.mpr ⟨member, fit⟩, rfl⟩

end Partition

/-! ## All texts -/

/-- The groups of texts in turn, without names. -/
def collect (texts : List (String × TextStyle)) : List TextGroup :=
  texts.foldl (fun groups text => insert groups text.1 text.2) []

/-- What a group asks a registry for. -/
def request (g : TextGroup) : String × String :=
  (g.typography.title, "text_style")

/-- A group without its name. -/
def unnamed (g : TextGroup) : TextGroup := { g with name := "" }

theorem ofForest_eq (forest : List Node) :
    ofForest forest = nameAll .empty (collect (textsOf forest)) := by
  rw [ofForest, collect, textsOf, List.foldl_filterMap]
  congr 2
  funext groups n
  unfold insertNode
  cases n.box.style.text <;> rfl

theorem partition_collect (finite : ∀ text ∈ texts, text.2.typography.IsFinite) :
    Partition texts (collect texts) := by
  have run : ∀ (later earlier : List (String × TextStyle)) (groups : List TextGroup),
      Partition earlier groups →
      (∀ text ∈ later, text.2.typography.IsFinite) →
      Partition (earlier ++ later)
        (later.foldl (fun groups text => insert groups text.1 text.2) groups) := by
    intro later
    induction later with
    | nil =>
        intro earlier groups classes _
        rwa [List.append_nil]
    | cons text later ih =>
        intro earlier groups classes finite
        obtain ⟨own, finite⟩ := List.forall_mem_cons.mp finite
        have next := ih _ _ (classes.insert own) finite
        rwa [List.append_assoc] at next
  have none : Partition [] [] := by
    constructor
    case apart | ordered => exact List.Pairwise.nil
    all_goals exact fun _ member => nomatch member
  exact run texts [] [] none finite

theorem perm_insert (groups : List TextGroup) (id : String) (text : TextStyle) :
    ((insert groups id text).flatMap nodeIds).Perm (groups.flatMap nodeIds ++ [id]) := by
  induction groups with
  | nil => exact .refl _
  | cons g rest ih =>
      rw [insert]
      split
      · rw [List.flatMap_cons, List.flatMap_cons, List.append_assoc, List.append_assoc]
        exact .append_left _ List.perm_append_comm
      · rw [List.flatMap_cons, List.flatMap_cons, List.append_assoc]
        exact .append_left _ ih

/-- The groups have the ids of the texts, each as often as texts have it. -/
theorem perm_collect (texts : List (String × TextStyle)) :
    ((collect texts).flatMap nodeIds).Perm (texts.map (·.1)) := by
  have run : ∀ (texts : List (String × TextStyle)) (groups : List TextGroup),
      ((texts.foldl (fun groups text => insert groups text.1 text.2) groups).flatMap
        nodeIds).Perm (groups.flatMap nodeIds ++ texts.map (·.1)) := by
    intro texts
    induction texts with
    | nil =>
        intro groups
        rw [List.map_nil, List.append_nil]
        exact .refl _
    | cons text rest ih =>
        intro groups
        have next := (ih (insert groups text.1 text.2)).trans
          ((perm_insert groups text.1 text.2).append_right _)
        rwa [List.append_assoc] at next
  exact run texts []

/-- A text has the family of the group that takes it. -/
theorem forall_family_insert {P : String → Prop} (groups : List TextGroup) (id : String)
    (text : TextStyle) :
    (∀ g ∈ insert groups id text, P g.typography.family) ↔
      (∀ g ∈ groups, P g.typography.family) ∧ P text.typography.family := by
  induction groups with
  | nil => simp [insert]
  | cons g rest ih =>
      rw [insert]
      split
      · rename_i fit
        have same : g.typography.family = text.typography.family := (Typography.beq_iff.mp fit).1
        rw [List.forall_mem_cons, List.forall_mem_cons, ← same]
        exact ⟨fun all => ⟨all, all.1⟩, fun all => all.1⟩
      · rw [List.forall_mem_cons, List.forall_mem_cons, ih, and_assoc]

/-- The families of the groups are those of the texts. -/
theorem forall_family_collect {P : String → Prop} (texts : List (String × TextStyle)) :
    (∀ g ∈ collect texts, P g.typography.family) ↔
      ∀ text ∈ texts, P text.2.typography.family := by
  have run : ∀ (texts : List (String × TextStyle)) (groups : List TextGroup),
      (∀ g ∈ texts.foldl (fun groups text => insert groups text.1 text.2) groups,
          P g.typography.family) ↔
        (∀ g ∈ groups, P g.typography.family) ∧ ∀ text ∈ texts, P text.2.typography.family := by
    intro texts
    induction texts with
    | nil => simp
    | cons text rest ih =>
        intro groups
        rw [List.foldl_cons, ih, forall_family_insert, List.forall_mem_cons, and_assoc]
  rw [collect, run]
  simp

theorem map_name_nameAll (names : Registry) (groups : List TextGroup) :
    (nameAll names groups).map name = (names.registerAll (groups.map request)).1 := by
  induction groups generalizing names with
  | nil => rfl
  | cons g rest ih => exact congrArg (_ :: ·) (ih _)

theorem map_unnamed_nameAll (names : Registry) (groups : List TextGroup) :
    (nameAll names groups).map unnamed = groups.map unnamed := by
  induction groups generalizing names with
  | nil => rfl
  | cons g rest ih => exact congrArg (_ :: ·) (ih _)

/-- Names play no part in what the classes are. -/
theorem partition_map_unnamed :
    Partition texts (groups.map unnamed) ↔ Partition texts groups := by
  constructor
  · rintro ⟨members, first, covers, apart, ordered⟩
    rw [List.pairwise_map] at apart ordered
    refine ⟨List.forall_mem_map.mp members, List.forall_mem_map.mp first, fun text member => ?_,
      apart, ordered⟩
    obtain ⟨h, renamed, fit⟩ := covers text member
    obtain ⟨g, among, rfl⟩ := List.mem_map.mp renamed
    exact ⟨g, among, fit⟩
  · rintro ⟨members, first, covers, apart, ordered⟩
    refine ⟨List.forall_mem_map.mpr members, List.forall_mem_map.mpr first, fun text member => ?_,
      ?_, ?_⟩
    · obtain ⟨g, among, fit⟩ := covers text member
      exact ⟨g.unnamed, List.mem_map.mpr ⟨g, among, rfl⟩, fit⟩
    · rwa [List.pairwise_map]
    · rwa [List.pairwise_map]

/-! ## Forests -/

variable {forest : List Node}

/-- The text styles of a forest are the classes of its texts. -/
theorem partition_ofForest (finite : ∀ text ∈ textsOf forest, text.2.typography.IsFinite) :
    Partition (textsOf forest) (ofForest forest) := by
  rw [← partition_map_unnamed, ofForest_eq, map_unnamed_nameAll, partition_map_unnamed]
  exact partition_collect finite

theorem perm_ofForest (forest : List Node) :
    ((ofForest forest).flatMap nodeIds).Perm ((textsOf forest).map (·.1)) := by
  have ids : ∀ groups : List TextGroup,
      groups.flatMap nodeIds = (groups.map unnamed).flatMap nodeIds := fun groups => by
    rw [List.flatMap_map]
    rfl
  rw [ids, ofForest_eq, map_unnamed_nameAll, ← ids]
  exact perm_collect (textsOf forest)

/-- The families of the text styles are those of the texts. -/
theorem forall_family_ofForest {P : String → Prop} (forest : List Node) :
    (∀ g ∈ ofForest forest, P g.typography.family) ↔
      ∀ n ∈ Node.preorderList forest, ∀ t, n.box.style.text = some t → P t.typography.family := by
  have nameless : ∀ groups : List TextGroup, (∀ g ∈ groups, P g.typography.family) ↔
      ∀ g ∈ groups.map unnamed, P g.typography.family := by
    intro groups
    rw [List.forall_mem_map]
    rfl
  rw [nameless, ofForest_eq, map_unnamed_nameAll, ← nameless, forall_family_collect, textsOf]
  simp only [List.mem_filterMap, Option.map_eq_some_iff, forall_exists_index, and_imp]
  exact ⟨fun all n member t text => all _ n member t text rfl,
    fun all text n member t own same => same ▸ all n member t own⟩

/-- A forest has text styles if it has texts. -/
theorem ofForest_eq_nil_iff : ofForest forest = [] ↔ textsOf forest = [] := by
  constructor
  · intro empty
    have ids := perm_ofForest forest
    rw [empty, List.flatMap_nil] at ids
    exact List.map_eq_nil_iff.mp ids.nil_eq.symm
  · intro empty
    rw [ofForest_eq, empty]
    rfl

/-- The names of the text styles are those that a registry hands out for their titles. -/
theorem names_ofForest (forest : List Node) :
    (ofForest forest).map name =
      (Registry.empty.registerAll ((ofForest forest).map request)).1 := by
  have requests : ∀ groups : List TextGroup,
      groups.map request = (groups.map unnamed).map request := fun groups => by
    rw [List.map_map]
    rfl
  rw [requests, ofForest_eq, map_name_nameAll, map_unnamed_nameAll, ← requests]

theorem nodup_names (forest : List Node) : ((ofForest forest).map name).Nodup := by
  rw [names_ofForest]
  exact (Registry.nodup_registerAll _ _).1

theorem isIdentifier_name (member : g ∈ ofForest forest) :
    Naming.isIdentifier g.name = true := by
  have handed := List.mem_map_of_mem (f := name) member
  rw [names_ofForest] at handed
  have usable : Naming.isIdentifier "text_style" = true := by decide
  refine Registry.isIdentifier_registerAll .empty (fun asked among => ?_) _ handed
  obtain ⟨h, -, rfl⟩ := List.mem_map.mp among
  exact usable

/-- Every name is a word of the family, a size and a weight in snake case, or what stands in
for them. -/
theorem isSnake_name (member : g ∈ ofForest forest) : Text.IsSnake g.name.toList := by
  have word : Text.IsPiece "text".toList := Text.isPiece_of_all_isLower (by decide) (by decide)
  have style : Text.IsPiece "style".toList := Text.isPiece_of_all_isLower (by decide) (by decide)
  have fallback : Text.IsSnake "text_style".toList := word.isSnake.append style.isSnake
  have handed := List.mem_map_of_mem (f := name) member
  rw [names_ofForest] at handed
  refine Registry.isSnake_registerAll .empty (fun asked among => ?_) _ handed
  obtain ⟨h, -, rfl⟩ := List.mem_map.mp among
  exact fallback

end TextGroup

end Handoff.Design
