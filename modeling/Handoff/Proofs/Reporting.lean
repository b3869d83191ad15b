import Mathlib.Data.List.Nodup
import Handoff.Conversion
import Handoff.Proofs.Design.Omissions
import Handoff.Proofs.Markup.Structure

/-!
The warnings of a conversion.

What is left out of the design and what is left out of the code are found by walks that know
nothing of each other: one over the outlines of the selection, and one for each target over
the design.  `Reported` says what they have in common.  A walk names each unsupported type
once, in preorder, and for all else it gives reasons of its own under the ids of the nodes.
It is shown of every walk from how the walk treats a single node (`Reported.node`).

A log tells warnings apart by node and reason, a reader by node and wording.  It comes to the
same, since no two reasons that the walks give are worded alike (`Reason.eq_of_text_eq`).

The main statement is `accounted_of_convert`.
-/

namespace Handoff

open Design (Box Node)

/-! ## Wordings -/

namespace Reason

/-- Whether a reason names a type that has no counterpart. -/
def isUnsupportedType : Reason → Bool
  | unsupportedType _ => true
  | _ => false

/-- Whether a reason is one of those that are always worded the same. -/
def isFixed : Reason → Bool
  | unsupportedType _ | worded _ => false
  | _ => true

/-- Whether the wording of a reason is not up to whoever raises it. -/
def isOwn : Reason → Bool
  | worded _ => false
  | _ => true

/-- All reasons that are always worded the same. -/
def fixed : List Reason := [
  gradientWithoutStops, radialGradient, angularGradient, diamondGradient, videoFill,
  unknownPaint, noiseEffect, textureEffect, unknownEffect, textImageFill, textFillNotSolid,
  multipleFills, multipleStrokes, imageStroke, strokeNotSolid, innerShadow, textInnerShadow,
  shadowSpread, backgroundBlur, wrapping]

theorem mem_fixed {r : Reason} (isFixed : r.isFixed = true) : r ∈ fixed := by
  cases r with
  | unsupportedType nodeType => cases isFixed
  | worded text => cases isFixed
  | _ => decide

theorem isOwn_of_isFixed {r : Reason} (isFixed : r.isFixed = true) : r.isOwn = true := by
  cases r with
  | worded text => cases isFixed
  | _ => rfl

theorem isUnsupportedType_of_isFixed {r : Reason} (isFixed : r.isFixed = true) :
    r.isUnsupportedType = false := by
  cases r with
  | unsupportedType nodeType => cases isFixed
  | _ => rfl

theorem nodup_map_text_fixed : (fixed.map text).Nodup := by decide +kernel

theorem toList_isPrefix_append (first second third : String) :
    first.toList <+: (first ++ second ++ third).toList := by
  rw [String.toList_append, String.toList_append, List.append_assoc]
  exact List.prefix_append _ _

theorem isPrefix_text_unsupportedType (nodeType : String) :
    "unsupported".toList <+: (text (unsupportedType nodeType)).toList := by
  have beginning : "unsupported".toList <+: "unsupported node type '".toList := by decide +kernel
  exact beginning.trans (toList_isPrefix_append _ nodeType _)

theorem not_isPrefix_text_fixed : ∀ r ∈ fixed, ¬ "unsupported".toList <+: r.text.toList := by
  decide +kernel

theorem nodeType_eq_of_text_eq {first second : String}
    (same : text (unsupportedType first) = text (unsupportedType second)) : first = second :=
  (String.append_right_inj _).mp ((String.append_left_inj _).mp same)

/-- No two reasons are worded alike, as long as their wording is not up to others. -/
theorem eq_of_text_eq {first second : Reason} (firstOwn : first.isOwn = true)
    (secondOwn : second.isOwn = true) (same : first.text = second.text) : first = second := by
  -- Wordings are taken up in sorts, since those of types are without number.
  have sorted : ∀ r : Reason, r.isOwn = true →
      (∃ nodeType, r = unsupportedType nodeType) ∨ r ∈ fixed := by
    intro r own
    cases r with
    | unsupportedType nodeType => exact .inl ⟨nodeType, rfl⟩
    | worded text => cases own
    | _ => exact .inr (mem_fixed rfl)
  rcases sorted first firstOwn with ⟨firstType, rfl⟩ | firstFixed <;>
    rcases sorted second secondOwn with ⟨secondType, rfl⟩ | secondFixed
  · rw [nodeType_eq_of_text_eq same]
  · exact (not_isPrefix_text_fixed second secondFixed
      (same ▸ isPrefix_text_unsupportedType firstType)).elim
  · exact (not_isPrefix_text_fixed first firstFixed
      (same ▸ isPrefix_text_unsupportedType secondType)).elim
  · exact List.inj_on_of_nodup_map nodup_map_text_fixed firstFixed secondFixed same

end Reason

/-! ## Walks -/

theorem Warning.mem_about {id : String} {reasons : List Reason} {w : Warning} :
    w ∈ about id reasons ↔ w.nodeId = id ∧ w.reason ∈ reasons := by
  constructor
  · intro member
    obtain ⟨reason, raised, rfl⟩ := List.mem_map.mp member
    exact ⟨rfl, raised⟩
  · rintro ⟨rfl, raised⟩
    exact List.mem_map_of_mem raised

/-- The unsupported types of nodes in turn, each under the id of its node. -/
def unsupportedOf (nodes : List Node) : List Warning :=
  nodes.flatMap fun n => Warning.about n.box.id n.box.unsupported

/-- What a walk over nodes gives: each unsupported type, node by node, and beside these reasons
of its own, all under the ids of the nodes. -/
structure Reported (nodes : List Node) (raised : List Warning) : Prop where
  unsupported : raised.filter (·.reason.isUnsupportedType) = unsupportedOf nodes
  node : ∀ w ∈ raised, ∃ n ∈ nodes, n.box.id = w.nodeId
  own : ∀ w ∈ raised, w.reason.isOwn = true

namespace Reported

variable {first later below : List Node} {raised more : List Warning}

theorem nil : Reported [] [] :=
  ⟨rfl, fun _ member => (nomatch member), fun _ member => (nomatch member)⟩

/-- Walks in turn are a walk over all their nodes. -/
theorem append (earlier : Reported first raised) (after : Reported later more) :
    Reported (first ++ later) (raised ++ more) where
  unsupported := by
    rw [List.filter_append, earlier.unsupported, after.unsupported, unsupportedOf, unsupportedOf,
      unsupportedOf, List.flatMap_append]
  node := by
    intro w member
    rcases List.mem_append.mp member with member | member
    · obtain ⟨n, among, same⟩ := earlier.node w member
      exact ⟨n, List.mem_append_left _ among, same⟩
    · obtain ⟨n, among, same⟩ := after.node w member
      exact ⟨n, List.mem_append_right _ among, same⟩
  own := by
    intro w member
    rcases List.mem_append.mp member with member | member
    · exact earlier.own w member
    · exact after.own w member

/-- A walk may go on below a node between its type and all else that is said of it. -/
theorem around (n : Node) {omitted : List Reason} (fixed : ∀ r ∈ omitted, r.isFixed = true)
    (inner : Reported below raised) :
    Reported (n :: below) (Warning.about n.box.id n.box.unsupported ++ raised ++
      Warning.about n.box.id omitted) where
  unsupported := by
    have type : ∀ w ∈ Warning.about n.box.id n.box.unsupported,
        w.reason.isUnsupportedType = true := by
      intro w member
      obtain ⟨nodeType, -, named⟩ := List.mem_map.mp (Warning.mem_about.mp member).2
      rw [← named]
      rfl
    have others : ∀ w ∈ Warning.about n.box.id omitted, ¬ w.reason.isUnsupportedType = true := by
      intro w member
      rw [Reason.isUnsupportedType_of_isFixed (fixed _ (Warning.mem_about.mp member).2)]
      exact Bool.false_ne_true
    rw [List.filter_append, List.filter_append, List.filter_eq_self.mpr type,
      List.filter_eq_nil_iff.mpr others, inner.unsupported, List.append_nil]
    rfl
  node := by
    intro w member
    rcases List.mem_append.mp member with member | member
    · rcases List.mem_append.mp member with member | member
      · exact ⟨n, List.mem_cons_self, (Warning.mem_about.mp member).1.symm⟩
      · obtain ⟨m, among, same⟩ := inner.node w member
        exact ⟨m, List.mem_cons_of_mem n among, same⟩
    · exact ⟨n, List.mem_cons_self, (Warning.mem_about.mp member).1.symm⟩
  own := by
    intro w member
    rcases List.mem_append.mp member with member | member
    · rcases List.mem_append.mp member with member | member
      · obtain ⟨nodeType, -, named⟩ := List.mem_map.mp (Warning.mem_about.mp member).2
        rw [← named]
        rfl
      · exact inner.own w member
    · exact Reason.isOwn_of_isFixed (fixed _ (Warning.mem_about.mp member).2)

/-- A walk that treats nodes one by one. -/
theorem flatMap {omissions : Node → List Reason}
    (fixed : ∀ n, ∀ r ∈ omissions n, r.isFixed = true) (nodes : List Node) :
    Reported nodes
      (nodes.flatMap fun n => Warning.about n.box.id (n.box.unsupported ++ omissions n)) := by
  induction nodes with
  | nil => exact nil
  | cons n rest ih =>
      have single := (around n (fixed n) nil).append ih
      rw [List.append_nil, Warning.about, Warning.about, ← List.map_append] at single
      exact single

end Reported

/-! ## Fixed reasons -/

/-- All of some reasons are always worded the same. -/
def AllFixed (reasons : List Reason) : Prop :=
  ∀ r ∈ reasons, r.isFixed = true

namespace AllFixed

theorem append {first later : List Reason} (earlier : AllFixed first) (after : AllFixed later) :
    AllFixed (first ++ later) :=
  List.forall_mem_append.mpr ⟨earlier, after⟩

theorem filterMap {α : Type} {f : α → Option Reason}
    (each : ∀ a r, f a = some r → r.isFixed = true) (items : List α) :
    AllFixed (items.filterMap f) := by
  intro r member
  obtain ⟨a, -, given⟩ := List.mem_filterMap.mp member
  exact each a r given

theorem flatMap {α : Type} {f : α → List Reason} (each : ∀ a, AllFixed (f a)) (items : List α) :
    AllFixed (items.flatMap f) := by
  intro r member
  obtain ⟨a, -, given⟩ := List.mem_flatMap.mp member
  exact each a r given

end AllFixed

theorem allFixed_css (n : Node) : AllFixed (Css.omissions n) := by
  refine .append ?_ (.filterMap (fun effect r omitted => ?_) _)
  · unfold Css.contentOmissions Css.textOmissions Css.borderOmissions
    repeat' split
    all_goals simp [AllFixed, Reason.isFixed]
  · cases effect with
    | innerShadow shadow =>
        obtain ⟨-, same⟩ := Option.ite_none_right_eq_some.mp omitted
        cases same
        rfl
    | dropShadow | layerBlur | backgroundBlur => cases omitted

theorem allFixed_tailwind (n : Node) : AllFixed (Tailwind.omissions n) := by
  refine .append ?_ ?_
  · unfold Tailwind.contentOmissions Tailwind.strokeOmissions
    repeat' split
    all_goals simp [AllFixed, Reason.isFixed]
  · split
    · intro r member
      obtain ⟨effect, -, rfl⟩ := List.mem_map.mp member
      rfl
    · exact fun r member => nomatch member

theorem allFixed_dart (b : Box) :
    AllFixed (Dart.contentOmissions b ++ Dart.effectOmissions b) := by
  refine .append ?_ (.filterMap (fun effect r omitted => ?_) _)
  · unfold Dart.contentOmissions Dart.decorationOmissions
    repeat' split
    all_goals simp [AllFixed, Reason.isFixed]
  · cases effect with
    | innerShadow shadow =>
        cases omitted
        rfl
    | dropShadow | layerBlur | backgroundBlur => cases omitted

theorem allFixed_swift (n : Node) :
    AllFixed (Swift.contentOmissions n ++ Swift.strokeOmissions n.box ++
      n.box.style.effects.flatMap Swift.effectOmissions) := by
  refine .append (.append ?_ ?_) (.flatMap (fun effect => ?_) _)
  · unfold Swift.contentOmissions Swift.flowOmissions
    repeat' split
    all_goals simp [AllFixed, Reason.isFixed]
  · unfold Swift.strokeOmissions
    repeat' split
    all_goals simp [AllFixed, Reason.isFixed]
  · unfold Swift.effectOmissions
    repeat' split
    all_goals simp [AllFixed, Reason.isFixed]

/-! ## The walks of the targets -/

/-- A walk that goes on below every node but the leaves, where there is nothing to find. -/
theorem Reported.walk {leaf : Node → Bool} {omitted : Node → List Reason}
    {walked : List Node → List Warning} (fixed : ∀ n, AllFixed (omitted n))
    (nil : walked [] = [])
    (cons : ∀ box children rest, walked (.mk box children :: rest) =
      Warning.about box.id box.unsupported ++
          (if leaf (.mk box children) then [] else walked children) ++
        Warning.about box.id (omitted (.mk box children)) ++ walked rest)
    (forest : List Node) :
    (∀ n ∈ Node.preorderList forest, leaf n = true → n.children = []) →
      Reported (Node.preorderList forest) (walked forest) := by
  induction forest using Node.forestInduction with
  | nil =>
      rw [nil]
      exact fun _ => .nil
  | cons box children rest below after =>
      intro leafless
      obtain ⟨own, inner, others⟩ := Node.forall_preorderList_mk_cons.mp leafless
      have inside : (if leaf (.mk box children) then [] else walked children) =
          walked children := by
        split
        · rename_i isLeaf
          rw [show children = [] from own isLeaf, nil]
        · rfl
      rw [cons, inside, Node.preorderList_mk_cons]
      exact (Reported.around (.mk box children) (fixed _) (below inner)).append (after others)

theorem Markup.reported {omissions : Node → List Reason} (fixed : ∀ n, AllFixed (omissions n))
    {forest : List Node}
    (leafless : ∀ n ∈ Node.preorderList forest, isLeaf n.box = true → n.children = []) :
    Reported (Node.preorderList forest) (warnings omissions forest) := by
  have nodes : (visits forest).map (·.2) = Node.preorderList forest := by
    rw [visits, visitsOfList_eq forest none leafless, Node.map_snd_preorderListUnder]
  have one : warnings omissions forest = ((visits forest).map (·.2)).flatMap fun n =>
      Warning.about n.box.id (n.box.unsupported ++ omissions n) := by
    rw [List.flatMap_map]
    rfl
  rw [one, nodes]
  exact Reported.flatMap fixed _

theorem Dart.reported (forest : List Node)
    (leafless : ∀ n ∈ Node.preorderList forest, isLeaf n.box = true → n.children = []) :
    Reported (Node.preorderList forest) (listWarnings forest) := by
  refine Reported.walk (fun n => allFixed_dart n.box) rfl (fun box children rest => ?_) forest
    leafless
  rw [listWarnings, warnings]
  rfl

theorem Swift.reported (forest : List Node)
    (leafless : ∀ n ∈ Node.preorderList forest, isLeaf n = true → n.children = []) :
    Reported (Node.preorderList forest) (listWarnings forest) := by
  refine Reported.walk allFixed_swift rfl (fun box children rest => ?_) forest leafless
  rw [listWarnings, warnings]
  rfl

/-- Every target walks over all nodes of a design. -/
theorem Framework.reported_of_build {s : Settings} {host : Option Scene.Node}
    {roots : List Scene.Node} {forest : List Node}
    (built : Design.build s host roots = .ok forest) (f : Framework) :
    Reported (Node.preorderList forest) (f.warnings forest) := by
  have leafless := fun n member => @Design.leafless_of_build s host roots forest built n member
  cases f with
  | html => exact Markup.reported allFixed_css fun n member leaf => leafless n member (.inl leaf)
  | tailwind =>
      exact Markup.reported allFixed_tailwind fun n member leaf => leafless n member (.inl leaf)
  | flutter => exact Dart.reported forest fun n member leaf => leafless n member (.inr (.inl leaf))
  | swiftUI => exact Swift.reported forest fun n member leaf => leafless n member (.inr (.inr leaf))

/-! ## The walk over the selection -/

namespace Scene

theorem Paint.isFixed_of_refused {p : Paint} {r : Reason} (refused : p.Refused r) :
    r.isFixed = true := by
  cases refused <;> rfl

theorem Effect.isFixed_of_refused {e : Effect} {r : Reason} (refused : e.Refused r) :
    r.isFixed = true := by
  cases refused <;> rfl

theorem allFixed_reasons {α β : Type} {drawable : α → Bool} {Becomes : α → β → Prop}
    {Refused : α → Reason → Prop} {f : α → Except Reason β}
    (answer : ∀ a, Answer (drawable a) (Becomes a) (Refused a) (f a))
    (fixed : ∀ a r, Refused a r → r.isFixed = true) (items : List α) :
    AllFixed (reasons (items.map f)) := by
  intro r member
  obtain ⟨result, given, error⟩ := List.mem_filterMap.mp member
  obtain ⟨a, -, rfl⟩ := List.mem_map.mp given
  have own := answer a
  cases result : f a with
  | ok b =>
      rw [result] at error
      cases error
  | error reason =>
      rw [result] at own error
      cases error
      exact fixed a r own.2

theorem Layer.allFixed_refusals (s : Settings) (l : Layer) : AllFixed (l.refusals s) := by
  have paint := fun p r => @Paint.isFixed_of_refused p r
  rw [refusals, l.fillResults_eq s, l.strokeResults_eq s, l.effectResults_eq s]
  exact .append
    (.append (allFixed_reasons (Paint.answer_toDesign s l.width l.height) paint _)
      (allFixed_reasons (Paint.answer_toDesign s l.width l.height) paint _))
    (allFixed_reasons (Effect.answer_toDesign s) (fun e r => @Effect.isFixed_of_refused e r) _)

end Scene

namespace Outline

/-- The type of a node that has no counterpart. -/
def unsupportedType (o : Outline) : Option String :=
  if o.layer.kind?.isSome then none else some o.layer.nodeType

theorem filter_refusals (s : Settings) (o : Outline) :
    (o.refusals s).filter (·.isUnsupportedType) =
      o.unsupportedType.toList.map .unsupportedType := by
  unfold refusals unsupportedType
  cases o.layer.kind? with
  | none => rfl
  | some kind =>
      refine List.filter_eq_nil_iff.mpr fun r member => ?_
      rw [Reason.isUnsupportedType_of_isFixed (o.layer.allFixed_refusals s r member)]
      exact Bool.false_ne_true

theorem isOwn_of_mem_refusals {s : Settings} {o : Outline} {r : Reason}
    (member : r ∈ o.refusals s) : r.isOwn = true := by
  unfold refusals at member
  cases known : o.layer.kind? with
  | none =>
      rw [known] at member
      rw [List.mem_singleton.mp member]
      rfl
  | some kind =>
      rw [known] at member
      exact Reason.isOwn_of_isFixed (o.layer.allFixed_refusals s r member)

end Outline

/-- What is missing from a design is told of the nodes of the design. -/
theorem Design.reported_of_build {s : Settings} {host : Option Scene.Node}
    {roots : List Scene.Node} {forest : List Node}
    (built : Design.build s host roots = .ok forest) :
    Reported (Node.preorderList forest) (Design.warningsOf s roots) := by
  obtain ⟨rfl, -⟩ := build_eq_ok built
  -- Node by node, the design has the ids and unsupported types of the outlines.
  have same : (Node.preorderList (ofSelection s host roots .empty).1).map
        (fun n => (n.box.id, n.box.unsupportedType)) =
      (Outline.preorderList (Outline.ofRoots roots)).map (fun o => (o.id, o.unsupportedType)) :=
    @map_preorderList_ofSelection _ (fun b => (b.id, b.unsupportedType)) s
      (fun o => (o.id, o.unsupportedType)) (fun _ _ _ => rfl) (fun _ => rfl) host roots .empty
  constructor
  · have outlines : (warningsOf s roots).filter (·.reason.isUnsupportedType) =
        ((Outline.preorderList (Outline.ofRoots roots)).map
          (fun o => (o.id, o.unsupportedType))).flatMap
            fun named => Warning.about named.1 (named.2.toList.map .unsupportedType) := by
      rw [warningsOf, Outline.warnings, List.filter_flatMap, List.flatMap_map]
      refine List.flatMap_congr fun o _ => ?_
      rw [Warning.about, List.filter_map]
      exact congrArg (Warning.about o.id) (o.filter_refusals s)
    rw [outlines, ← same, List.flatMap_map]
    rfl
  · intro w member
    obtain ⟨o, among, raised⟩ := List.mem_flatMap.mp member
    have named : (o.id, o.unsupportedType) ∈
        (Outline.preorderList (Outline.ofRoots roots)).map (fun o => (o.id, o.unsupportedType)) :=
      List.mem_map_of_mem among
    rw [← same] at named
    obtain ⟨n, inForest, equal⟩ := List.mem_map.mp named
    refine ⟨n, inForest, ?_⟩
    rw [(Warning.mem_about.mp raised).1]
    exact congrArg Prod.fst equal
  · intro w member
    obtain ⟨o, -, raised⟩ := List.mem_flatMap.mp member
    exact Outline.isOwn_of_mem_refusals (Warning.mem_about.mp raised).2

/-! ## Conversions -/

theorem mem_unsupportedOf {nodes : List Node} {id nodeType : String} :
    ⟨id, .unsupportedType nodeType⟩ ∈ unsupportedOf nodes ↔
      ∃ n ∈ nodes, n.box.id = id ∧ n.box.unsupportedType = some nodeType := by
  simp only [unsupportedOf, List.mem_flatMap, Warning.mem_about, Box.unsupported,
    List.mem_map, Option.mem_toList, Reason.unsupportedType.injEq,
    exists_eq_right]
  constructor
  · rintro ⟨n, member, rfl, type⟩
    exact ⟨n, member, rfl, type⟩
  · rintro ⟨n, member, rfl, type⟩
    exact ⟨n, member, rfl, type⟩

/-- What can be relied on about the warnings of a conversion: `left` is what is left out of the
design, `emitted` what the code leaves out. -/
structure Accounted (forest : List Node) (left emitted warnings : List Warning) : Prop where
  /-- No two read the same. -/
  distinct : (warnings.map fun w => (w.nodeId, w.reason.text)).Nodup
  first : Warning.distinct left <+: warnings
  node : ∀ w ∈ warnings, ∃ n ∈ Node.preorderList forest, n.box.id = w.nodeId
  /-- The code leaves out each unsupported node once more, and no other. -/
  again : emitted.filter (·.reason.isUnsupportedType) =
    (Node.preorderList forest).flatMap fun n => Warning.about n.box.id n.box.unsupported
  /-- Which adds nothing. -/
  unsupported : warnings.filter (·.reason.isUnsupportedType) =
    (Warning.distinct left).filter (·.reason.isUnsupportedType)
  named : ∀ id nodeType, ⟨id, .unsupportedType nodeType⟩ ∈ warnings ↔
    ∃ n ∈ Node.preorderList forest, n.box.id = id ∧ n.box.unsupportedType = some nodeType

theorem accounted_of_reported {forest : List Node} {left emitted : List Warning}
    (design : Reported (Node.preorderList forest) left)
    (code : Reported (Node.preorderList forest) emitted) :
    Accounted forest left emitted (Warning.distinct (left ++ emitted)) := by
  have both : ∀ w ∈ Warning.distinct (left ++ emitted), w ∈ left ∨ w ∈ emitted := by
    intro w member
    exact List.mem_append.mp (Warning.mem_distinct.mp member)
  have own : ∀ w ∈ Warning.distinct (left ++ emitted), w.reason.isOwn = true := by
    intro w member
    rcases both w member with member | member
    · exact design.own w member
    · exact code.own w member
  have later : Warning.distinct (left ++ emitted) =
      Warning.recordAll (Warning.distinct left) emitted :=
    Warning.recordAll_append [] left emitted
  constructor
  · refine (Warning.nodup_recordAll _ List.nodup_nil).map_on fun w member v other same => ?_
    obtain ⟨nodeId, text⟩ := Prod.ext_iff.mp same
    have reason := Reason.eq_of_text_eq (own w member) (own v other) text
    cases w
    cases v
    cases nodeId
    cases reason
    rfl
  · rw [later]
    exact Warning.prefix_recordAll emitted _
  · intro w member
    rcases both w member with member | member
    · exact design.node w member
    · exact code.node w member
  · exact code.unsupported
  · rw [later, Warning.filter_recordAll]
    -- Both walks name the same types, so those of the code have been recorded already.
    refine Warning.recordAll_of_forall_mem fun w member => ?_
    rw [code.unsupported, ← design.unsupported] at member
    obtain ⟨raised, sort⟩ := List.mem_filter.mp member
    exact List.mem_filter.mpr ⟨Warning.mem_distinct.mpr raised, sort⟩
  · intro id nodeType
    have sorted : ∀ {nodes : List Node} {raised : List Warning}, Reported nodes raised →
        (⟨id, .unsupportedType nodeType⟩ ∈ raised ↔
          ⟨id, .unsupportedType nodeType⟩ ∈ unsupportedOf nodes) := by
      intro nodes raised walk
      rw [← walk.unsupported, List.mem_filter]
      exact ⟨fun member => ⟨member, rfl⟩, And.left⟩
    rw [Warning.mem_distinct, List.mem_append, sorted design, sorted code, or_self,
      mem_unsupportedOf]

/-- The warnings of a conversion are told apart by node and wording.  Those about the design
come first, as for the design alone, and all are about nodes of the design.  That a type is
unsupported is said once for each node of the type, whatever the target. -/
theorem accounted_of_convert {s : Settings} {parent : Option Scene.Node}
    {roots : List Scene.Node} {c : Conversion} (converted : convert s parent roots = .ok c) :
    ∃ forest, Design.build s parent roots = .ok forest ∧
      Accounted forest (Design.warningsOf s roots) (s.framework.warnings forest) c.warnings := by
  unfold convert at converted
  cases built : Design.build s parent roots with
  | error cause =>
      rw [built] at converted
      cases converted
  | ok forest =>
      rw [built] at converted
      cases converted
      exact ⟨forest, rfl, accounted_of_reported (Design.reported_of_build built)
        (Framework.reported_of_build built s.framework)⟩

/-- Notes of a type that has no counterpart, one of them hidden, on a sheet with a paint that is
left out. -/
theorem accounted_of_convert_sheet :
    let note : Scene.Node := .mk { id := "1:2", nodeType := "STICKY" } []
    let hidden : Scene.Node := .mk { id := "1:3", nodeType := "STICKY", visible := false } []
    let sheet : Scene.Node :=
      .mk { id := "1:1", nodeType := "FRAME", fills := [{ paintType := .video }] } [note, hidden]
    let s : Settings := { Settings.defaults with framework := .flutter }
    ∃ c, convert s none [sheet] = .ok c ∧
      ∃ forest, Design.build s none [sheet] = .ok forest ∧
        Accounted forest (Design.warningsOf s [sheet]) (s.framework.warnings forest)
          c.warnings :=
  ⟨_, rfl, accounted_of_convert rfl⟩

end Handoff
