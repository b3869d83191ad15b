import Handoff.Proofs.Dart.ParentData

/-!
The calls that make up the widget of a single node.

A widget is in the widget around it as its child, and only a row, a column, a `Wrap` or a `Stack`
lists others.  So the calls of one node are a chain, from the outermost on, each in the one
before it as its child, and the chain ends where the widgets of other nodes are listed.
`Expr.chain` reads it off an expression, and `Expr.given` what its calls are given for a name.

What a node is drawn with around its widget (`wrappers`) comes first and is given neither sizes
nor children (`around_wrapped`).
-/

namespace Handoff.Dart

open Design (Box Node)
open Handoff.Dart.Expr (raw call list commented)

namespace Expr

/-! ## Chains -/

mutual

/-- The calls of an expression from the outermost on, each in the one before it as its child. -/
def chain : Expr → List (String × List Arg)
  | raw _ => []
  | call name args => (name, args) :: childChain args
  | list _ => []
  | commented _ inner => inner.chain

/-- The chain of the child among arguments. -/
def childChain : List (Option String × Expr) → List (String × List Arg)
  | [] => []
  | (label, e) :: rest => (if label = some "child" then e.chain else []) ++ childChain rest

end

/-- What is given for a name among arguments. -/
def valuesOf (label : String) (args : List Arg) : List Expr :=
  args.filterMap fun a => if a.1 = some label then some a.2 else none

section

variable {label name : String} {e : Expr}

@[simp] theorem valuesOf_nil : valuesOf label [] = [] := rfl

@[simp] theorem valuesOf_append (first later : List Arg) :
    valuesOf label (first ++ later) = valuesOf label first ++ valuesOf label later :=
  List.filterMap_append

@[simp] theorem valuesOf_arg : valuesOf label (arg name e) = if name = label then [e] else [] := by
  unfold valuesOf arg
  by_cases same : name = label <;> simp [same]

@[simp] theorem valuesOf_positional : valuesOf label (positional e) = [] := rfl

@[simp] theorem valuesOf_argOpt (given : Option Expr) :
    valuesOf label (argOpt name given) = if name = label then given.toList else [] := by
  cases given with
  | none => simp [argOpt]
  | some e => exact valuesOf_arg

@[simp] theorem valuesOf_argIf (condition : Bool) :
    valuesOf label (argIf condition name e) =
      if condition = true ∧ name = label then [e] else [] := by
  cases condition <;> simp [argIf]

end

theorem childChain_eq_flatMap (args : List Arg) :
    childChain args = (valuesOf "child" args).flatMap chain := by
  induction args with
  | nil => rfl
  | cons a rest ih =>
      rw [childChain, ih, valuesOf, valuesOf]
      by_cases child : a.1 = some "child" <;> simp [child]

@[simp] theorem chain_call (name : String) (args : List Arg) :
    (call name args).chain = (name, args) :: (valuesOf "child" args).flatMap chain := by
  rw [chain, childChain_eq_flatMap]

@[simp] theorem chain_commented (comment : String) (e : Expr) :
    (commented comment e).chain = e.chain := by
  rw [chain]

/-- What the calls of a chain are given for a name. -/
def given (label : String) (e : Expr) : List Expr :=
  e.chain.flatMap fun c => valuesOf label c.2

theorem given_call (label name : String) (args : List Arg) : (call name args).given label =
    valuesOf label args ++ (valuesOf "child" args).flatMap (given label) := by
  rw [given, chain_call, List.flatMap_cons, List.flatMap_assoc]
  rfl

/-- The classes of the calls of a chain. -/
def classes (e : Expr) : List String := e.chain.map (·.1)

theorem classes_call (name : String) (args : List Arg) :
    (call name args).classes = name :: (valuesOf "child" args).flatMap classes := by
  rw [classes, chain_call, List.map_cons, List.map_flatMap]
  rfl

/-! ## What stands around a widget -/

/-- The names of arguments that say how large a widget is and what is in it. -/
def contentLabels : List String := ["width", "height", "clipBehavior", "children"]

/-- A chain has calls of certain classes before those of an expression in it, and they say nothing
of its contents. -/
def Around (classes : List String) (outer inner : Expr) : Prop :=
  ∃ calls, outer.chain = calls ++ inner.chain ∧ calls.map (·.1) = classes ∧
    ∀ c ∈ calls, ∀ label ∈ contentLabels, valuesOf label c.2 = []

theorem Around.refl (e : Expr) : Around [] e e :=
  ⟨[], rfl, rfl, List.forall_mem_nil _⟩

section

variable {first later : List String} {outer middle inner : Expr}

theorem Around.trans (outside : Around first outer middle) (inside : Around later middle inner) :
    Around (first ++ later) outer inner := by
  obtain ⟨calls, chained, rfl, silent⟩ := outside
  obtain ⟨deeper, continued, rfl, others⟩ := inside
  refine ⟨calls ++ deeper, ?_, List.map_append, List.forall_mem_append.mpr ⟨silent, others⟩⟩
  rw [chained, continued, List.append_assoc]

theorem Around.classes_eq (around : Around first outer inner) :
    outer.classes = first ++ inner.classes := by
  obtain ⟨calls, chained, rfl, -⟩ := around
  rw [classes, chained, List.map_append]
  rfl

theorem Around.given_eq (around : Around first outer inner) {label : String}
    (content : label ∈ contentLabels) : outer.given label = inner.given label := by
  obtain ⟨calls, chained, -, silent⟩ := around
  have nothing : (calls.flatMap fun c => valuesOf label c.2) = [] :=
    List.flatMap_eq_nil_iff.mpr fun c member => silent c member label content
  rw [given, chained, List.flatMap_append, nothing]
  rfl

end

/-- A call stands around its child if all else it is given says nothing of the contents. -/
theorem around_call {name : String} {before : List Arg} {e : Expr}
    (childless : valuesOf "child" before = [])
    (silent : ∀ label ∈ contentLabels, valuesOf label before = []) :
    Around [name] (call name (before ++ arg "child" e)) e := by
  refine ⟨[(name, before ++ arg "child" e)], ?_, rfl, ?_⟩
  · simp [childless]
  · rw [List.forall_mem_singleton]
    intro label content
    have other : "child" ≠ label := fun same => absurd content (by simp [← same, contentLabels])
    rw [valuesOf_append, silent label content, valuesOf_arg, if_neg other, List.append_nil]

end Expr

open Handoff.Dart.Expr (Around around_call valuesOf chain given classes contentLabels)

/-! ## What a node is drawn with -/

/-- The classes of the widgets for an effect, from the outermost on. -/
def effectClasses : Design.Effect → List String
  | .layerBlur _ => ["ImageFiltered"]
  | .backgroundBlur _ => ["ClipRect", "BackdropFilter"]
  | .dropShadow _ | .innerShadow _ => []

/-- The classes of the widgets that a node is drawn with, from the outermost on.  An effect is
around those that come before it. -/
def wrappers (b : Box) : List String :=
  (if b.geometry.rotation != 0.0 then ["Transform.rotate"] else []) ++
    (if b.style.opacity < 1.0 then ["Opacity"] else []) ++
    b.style.effects.reverse.flatMap effectClasses

theorem effectClasses_subset (effect : Design.Effect) :
    effectClasses effect ⊆ ["ImageFiltered", "ClipRect", "BackdropFilter"] := by
  cases effect <;> simp [effectClasses]

/-- Only widgets that change how a widget is drawn are around that of a node. -/
theorem wrappers_subset (b : Box) : wrappers b ⊆
    ["Transform.rotate", "Opacity", "ImageFiltered", "ClipRect", "BackdropFilter"] := by
  intro name member
  rcases List.mem_append.mp member with early | drawn
  · rcases List.mem_append.mp early with rotated | faded
    · split at rotated
      · exact List.mem_singleton.mp rotated ▸ by simp
      · cases rotated
    · split at faded
      · exact List.mem_singleton.mp faded ▸ by simp
      · cases faded
  · obtain ⟨effect, -, own⟩ := List.mem_flatMap.mp drawn
    exact List.mem_cons_of_mem _ (List.mem_cons_of_mem _ (effectClasses_subset effect own))

theorem around_withEffect (e : Expr) (effect : Design.Effect) :
    Around (effectClasses effect) (withEffect e effect) e := by
  cases effect with
  | dropShadow | innerShadow => exact .refl e
  | layerBlur radius => exact around_call (by simp) (by simp [contentLabels])
  | backgroundBlur radius =>
      have filtered : Around ["BackdropFilter"]
          (call "BackdropFilter" (arg "filter" (blurFilter radius) ++ arg "child" e)) e :=
        around_call (by simp) (by simp [contentLabels])
      exact (@around_call "ClipRect" [] _ rfl fun _ _ => rfl).trans filtered

theorem around_effects (effects : List Design.Effect) (e : Expr) :
    Around (effects.reverse.flatMap effectClasses) (effects.foldl withEffect e) e := by
  induction effects generalizing e with
  | nil => exact .refl e
  | cons effect rest ih =>
      rw [List.reverse_cons, List.flatMap_append, List.flatMap_singleton]
      exact (ih _).trans (around_withEffect e effect)

theorem around_wrapped (names : Bool) (b : Box) (e : Expr) :
    Around (wrappers b) (wrapped names b e) e := by
  have opacity (e : Expr) : Around (if b.style.opacity < 1.0 then ["Opacity"] else [])
      (withOpacity b.style.opacity e) e := by
    unfold withOpacity
    split
    · exact around_call (by simp) (by simp [contentLabels])
    · exact .refl e
  have rotation (e : Expr) :
      Around (if b.geometry.rotation != 0.0 then ["Transform.rotate"] else [])
        (withRotation b.geometry.rotation e) e := by
    unfold withRotation
    split
    · exact around_call (by simp) (by simp [contentLabels])
    · exact .refl e
  have name (e : Expr) : Around [] (withName names b.name e) e := by
    unfold withName
    split
    · exact ⟨[], Expr.chain_commented _ e, rfl, List.forall_mem_nil _⟩
    · exact .refl e
  exact (name _).trans (((rotation _).trans (opacity _)).trans (around_effects _ e))

/-! ## What lists the children -/

/-- The classes of the widgets that list others. -/
def listingClasses : List String := ["Row", "Column", "Wrap", "Stack"]

/-- A call that lists widgets; `clips` says whether it is a stack that cuts off what overflows. -/
structure Lists (clips : Bool) (name : String) (args : List Arg) : Prop where
  isClass : name ∈ listingClasses
  listed : ∃ items, valuesOf "children" args = [list items]
  /-- It has no child of its own and is given no size. -/
  silent : ∀ label ∈ ["child", "width", "height"], valuesOf label args = []
  clips : name = "Stack" ∧ raw "Clip.none" ∉ valuesOf "clipBehavior" args ↔ clips = true

section

variable {clips : Bool} {name : String} {args : List Arg}

/-- No call of the same node follows on one that lists widgets. -/
theorem Lists.chain_eq (lists : Lists clips name args) :
    (call name args).chain = [(name, args)] := by
  rw [Expr.chain_call, lists.silent "child" (by simp), List.flatMap_nil]

theorem Lists.classes_eq (lists : Lists clips name args) :
    (call name args).classes = [name] := by
  rw [classes, lists.chain_eq, List.map_singleton]

theorem Lists.given_eq_nil (lists : Lists clips name args) {label : String}
    (size : label ∈ ["width", "height"]) : (call name args).given label = [] := by
  rw [given, lists.chain_eq, List.flatMap_singleton,
    lists.silent label (List.mem_cons_of_mem _ size)]

end

theorem lists_stack (clips : Bool) (items : List Expr) :
    ∃ args, stack clips items = call "Stack" args ∧ Lists clips "Stack" args := by
  refine ⟨_, rfl, by simp [listingClasses], ⟨items, by simp⟩, by simp, ?_⟩
  cases clips <;> simp

theorem lists_flowCall (f : Design.Flow) (hugs : Bool) (items : List Expr) :
    ∃ name args, flowCall f hugs items = call name args ∧ Lists false name args := by
  unfold flowCall
  split
  · exact ⟨_, _, rfl, by simp [listingClasses], ⟨items, by simp⟩, by simp, by simp⟩
  · refine ⟨_, _, rfl, ?_, ⟨items, by simp⟩, by simp, ?_⟩
    · cases f.direction <;> simp [listingClasses]
    · cases f.direction <;> simp

/-- The widget that holds the children of a node lists them, or a line of them and others. -/
theorem lists_childrenWidget? {b : Box} {made : List (Node × Expr)} {e : Expr}
    (given : childrenWidget? b made = some e) :
    ∃ name args, e = call name args ∧
      Lists (b.layout.flow?.isNone && b.style.clipsContent) name args := by
  unfold childrenWidget? at given
  unfold Design.Layout.flow?
  split at given
  · cases given
  · split at given
    · rename_i f mode
      rw [mode]
      dsimp only at given
      split at given
      · cases given
        exact lists_flowCall f _ _
      · cases given
        exact ⟨_, lists_stack false _⟩
    · rename_i mode
      rw [mode]
      cases given
      exact ⟨_, lists_stack _ _⟩

/-! ## In the code -/

/-- The widget of a node as the widget around it holds it. -/
def heldWidget (names : Bool) (parent : Option Node) (n : Node) : Expr :=
  match parent with
  | some p => placed p n (widget names parent n)
  | none => widget names none n

theorem Expr.mem_parts_self (e : Expr) : e ∈ e.parts := by
  cases e <;> rw [Expr.parts] <;> exact List.mem_cons_self

theorem parts_sublist_heldWidget (names : Bool) (parent : Option Node) (n : Node) :
    (widget names parent n).parts.Sublist (heldWidget names parent n).parts := by
  cases parent with
  | none => exact .refl _
  | some p => exact parts_sublist_placed p n _

/-- All widgets of a forest whose trees are held somewhere are in there as they are held. -/
theorem heldWidget_mem_parts (names : Bool) (forest : List Node) :
    ∀ parent, (∀ n ∈ Node.preorderList forest, n.WellFormed) →
      ∀ v ∈ Node.preorderListUnder parent forest,
        heldWidget names v.1 v.2 ∈ forest.flatMap fun n => (heldWidget names parent n).parts := by
  induction forest using Node.forestInduction with
  | nil => exact fun _ _ v member => nomatch member
  | cons box children rest below after =>
      intro parent formed v member
      obtain ⟨own, inner, others⟩ := Node.forall_preorderList_mk_cons.mp formed
      rw [Node.preorderListUnder_mk_cons, List.mem_cons, List.mem_append] at member
      rw [List.flatMap_cons, List.mem_append]
      rcases member with rfl | deeper | later
      · exact .inl (Expr.mem_parts_self _)
      · have among := below (some (.mk box children)) inner v deeper
        have lined := ((box.lineUp_perm children).flatMap_right fun c =>
          (heldWidget names (some (.mk box children)) c).parts).mem_iff.mpr among
        have inside := (sublist_parts_held own names parent).subset lined
        exact .inl ((parts_sublist_heldWidget names parent _).subset inside)
      · exact .inr (after parent others v later)

/-- The widget of every node is in the code of its forest, as it is held. -/
theorem heldWidget_mem_trees (s : Settings) {forest : List Node}
    (formed : ∀ n ∈ Node.preorderList forest, n.WellFormed) :
    ∀ v ∈ Node.preorderListUnder none forest,
      heldWidget s.showLayerNames v.1 v.2 ∈ (trees s forest).flatMap Expr.parts := by
  intro v member
  have among := heldWidget_mem_parts s.showLayerNames forest none formed v member
  unfold trees
  split
  · rw [List.flatMap_singleton]
    unfold forestWidget
    split
    · rename_i only single
      obtain ⟨n, rfl, rfl⟩ := List.map_eq_singleton_iff.mp single
      rwa [List.flatMap_singleton] at among
    · refine (Expr.listed_sublist_call (List.mem_append_right _ (mem_arg "children" _))).subset ?_
      rwa [List.flatMap_map]
  · rwa [List.flatMap_map]

end Handoff.Dart
