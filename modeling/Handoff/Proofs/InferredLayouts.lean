import Handoff.Conversion
import Handoff.Proofs.Design.Names

/-!
Where inferred auto-layouts come in.

`Layer.settled` writes the auto-layout that is in force for the children of a layer down as the
layer's own and drops the inferred one.  A settled layer arranges its children in the same mode
as before, now whatever the settings allow (`Layer.mode_settled`), and every other question that
is asked of a layer on the way to a design is about other attributes.  So a selection and its
settled form convert alike, even if the settings no longer agree on inferred layouts
(`convert_settled`).

Two selections that settle to the same one therefore convert to the same.  The main statement,
`convert_inferredAutoLayout`, names the two ways in which this happens: inferred layouts are
exchanged on layers that do not use them, or none of them has a direction and the settings
change.
-/

namespace Handoff

/-! ## Settling -/

/-- Whether nodes of a kind arrange their children. -/
def Design.Kind.arranges : Kind → Bool
  | container | component => true
  | _ => false

theorem Design.Kind.arranges_iff {kind : Kind} :
    kind.arranges = true ↔ kind = .container ∨ kind = .component := by
  cases kind <;> simp [arranges]

namespace Scene

/-- The auto-layout by which a layer arranges its children. -/
def Layer.arrangement? (s : Settings) (l : Layer) : Option AutoLayout :=
  if l.kind.arranges then l.autoLayoutInForce? s else none

/-- A layer with the auto-layout by which it arranges its children as its own, and none
inferred. -/
def Layer.settled (s : Settings) (l : Layer) : Layer :=
  { l with autoLayout := (l.arrangement? s).getD l.autoLayout, inferredAutoLayout := none }

mutual

/-- A node with its layer, and those below it, settled. -/
def Node.settled (s : Settings) : Node → Node
  | mk layer children => mk (layer.settled s) (Node.settledAll s children)

/-- Nodes with all their layers settled. -/
def Node.settledAll (s : Settings) : List Node → List Node
  | [] => []
  | n :: rest => n.settled s :: Node.settledAll s rest

end

section

variable (s : Settings)

theorem Node.settledAll_eq_map (nodes : List Node) :
    Node.settledAll s nodes = nodes.map (Node.settled s) := by
  induction nodes with
  | nil =>
      rw [Node.settledAll]
      rfl
  | cons n rest ih => rw [Node.settledAll, ih, List.map_cons]

theorem Node.layer_settled (n : Node) : (n.settled s).layer = n.layer.settled s := by
  cases n with
  | mk layer children =>
      rw [Node.settled]
      rfl

theorem Node.children_settled (n : Node) :
    (n.settled s).children = n.children.map (Node.settled s) := by
  cases n with
  | mk layer children =>
      rw [Node.settled, Node.settledAll_eq_map]
      rfl

/-! ## The mode of a settled layer -/

theorem Layer.mode_eq (l : Layer) :
    l.mode s l.kind = ((l.arrangement? s).bind AutoLayout.flow?).elim .absolute .flow := by
  unfold Layer.mode Layer.arrangement? Design.Kind.arranges
  cases l.kind
  case container | component =>
    simp only [if_true]
    cases (l.autoLayoutInForce? s).bind AutoLayout.flow? <;> rfl
  all_goals rfl

/-- With nothing inferred, the settings do not matter. -/
theorem Layer.inForce_of_uninferred {l : Layer} (uninferred : l.inferredAutoLayout = none) :
    l.autoLayoutInForce? s = if l.autoLayout.flows then some l.autoLayout else none := by
  unfold Layer.autoLayoutInForce?
  rw [uninferred, Option.filter_none, ite_self]

variable {s} in
/-- The auto-layout in force has a direction; if there is none, the layer's own has none. -/
theorem Layer.flows_inForce_getD (l : Layer) :
    ((l.autoLayoutInForce? s).getD l.autoLayout).flows = (l.autoLayoutInForce? s).isSome := by
  unfold Layer.autoLayoutInForce?
  split
  case isTrue own => exact own
  case isFalse own =>
    split
    · cases found : l.inferredAutoLayout.filter AutoLayout.flows with
      | none => exact Bool.eq_false_iff.mpr own
      | some a => exact (Option.filter_eq_some_iff.mp found).2
    · exact Bool.eq_false_iff.mpr own

/-- A settled layer arranges its children as before, whatever the settings allow. -/
theorem Layer.arrangement?_settled (t : Settings) (l : Layer) :
    (l.settled s).arrangement? t = l.arrangement? s := by
  have kind : (l.settled s).kind = l.kind := rfl
  unfold Layer.arrangement?
  rw [kind]
  by_cases arranged : l.kind.arranges = true
  · -- What was in force has become the own layout, and stays in force as that.
    have own : (l.settled s).autoLayout = (l.autoLayoutInForce? s).getD l.autoLayout := by
      rw [Layer.settled, Layer.arrangement?, if_pos arranged]
    rw [if_pos arranged, if_pos arranged, Layer.inForce_of_uninferred t rfl, own,
      l.flows_inForce_getD]
    cases l.autoLayoutInForce? s <;> rfl
  · rw [if_neg arranged, if_neg arranged]

theorem Layer.mode_settled (t : Settings) (l : Layer) :
    (l.settled s).mode t (l.settled s).kind = l.mode s l.kind := by
  rw [Layer.mode_eq, Layer.mode_eq, Layer.arrangement?_settled]

/-! ## Stand-ins -/

/-- The stand-in of a node stays its stand-in. -/
theorem Node.passThrough?_settled (n : Node) :
    (n.settled s).passThrough? = n.passThrough?.map (Node.settled s) := by
  have bare : (n.layer.settled s).isBareGroup = n.layer.isBareGroup := rfl
  have shown : (n.children.map (Node.settled s)).filter (·.layer.visible) =
      (n.children.filter (·.layer.visible)).map (Node.settled s) := by
    rw [List.filter_map]
    congr 1
    refine List.filter_congr fun child _ => ?_
    rw [Function.comp_apply, child.layer_settled]
    rfl
  unfold Node.passThrough?
  rw [n.layer_settled, n.children_settled, bare, shown]
  generalize n.children.filter (·.layer.visible) = shown
  split
  · rcases shown with _ | ⟨only, _ | ⟨second, rest⟩⟩
    · rfl
    · have positioning : (only.settled s).layer.positioning = only.layer.positioning := by
        rw [only.layer_settled]
        rfl
      simp only [List.map_cons, List.map_nil, positioning]
      split <;> rfl
    · rfl
  · rfl

end

end Scene

/-! ## Outlines -/

namespace Outline

open Scene (Node)

section

variable (s : Settings)

mutual

/-- An outline with all its layers settled. -/
def settled : Outline → Outline
  | mk layer id dx dy children => mk (layer.settled s) id dx dy (settledAll children)

/-- Outlines with all their layers settled. -/
def settledAll : List Outline → List Outline
  | [] => []
  | o :: rest => o.settled :: settledAll rest

end

theorem settledAll_eq_map (outlines : List Outline) :
    settledAll s outlines = outlines.map (settled s) := by
  induction outlines with
  | nil =>
      rw [settledAll]
      rfl
  | cons o rest ih => rw [settledAll, ih, List.map_cons]

variable {s} in
/-- If outlines of single nodes settle with the nodes, those of nodes in turn do. -/
theorem ofChildren_settled {parent : String} : ∀ {nodes : List Node},
    (∀ n ∈ nodes, ∀ fallback dx dy,
      ofNode fallback dx dy (n.settled s) = (ofNode fallback dx dy n).map (settled s)) →
    ∀ index : Nat, ofChildren parent index (nodes.map (Node.settled s)) =
      (ofChildren parent index nodes).map (settled s)
  | [], _, index => by
      rw [List.map_nil, ofChildren, List.map_nil]
  | n :: rest, each, index => by
      rw [List.map_cons, ofChildren, ofChildren, List.map_append, each n List.mem_cons_self,
        ofChildren_settled (fun m member => each m (List.mem_cons_of_mem n member))]
      cases ofNode (childIdentity parent index) 0.0 0.0 n <;> rfl

/-- The outline of a settled node is the settled outline of the node. -/
theorem ofNode_settled (n : Node) : ∀ (fallback : String) (dx dy : Float),
    ofNode fallback dx dy (n.settled s) = (ofNode fallback dx dy n).map (settled s) := by
  have visible_eq : ∀ m : Node, (m.settled s).layer.visible = m.layer.visible := by
    intro m
    rw [m.layer_settled]
    rfl
  induction n using Node.shownInduction with
  | hidden n hidden =>
      intro fallback dx dy
      rw [ofNode_hidden hidden, ofNode_hidden ((visible_eq n).trans hidden)]
      rfl
  | passThrough n child visible found ih =>
      intro fallback dx dy
      have found' : (n.settled s).passThrough? = some (child.settled s) := by
        rw [n.passThrough?_settled, found]
        rfl
      rw [ofNode_passThrough ((visible_eq n).trans visible) found',
        ofNode_passThrough visible found, n.layer_settled]
      exact ih _ _ _
  | kept n visible kept ih =>
      intro fallback dx dy
      have kept' : (n.settled s).passThrough? = none := by
        rw [n.passThrough?_settled, kept]
        rfl
      have kind : (n.layer.settled s).kind = n.layer.kind := rfl
      have same : identity (n.layer.settled s) fallback = identity n.layer fallback := rfl
      rw [ofNode_kept ((visible_eq n).trans visible) kept', ofNode_kept visible kept,
        n.layer_settled, n.children_settled, kind, same, Option.map_some, settled,
        settledAll_eq_map]
      split
      · rw [ofChildren_settled ih]
      · rfl

theorem ofRoots_settled (roots : List Node) :
    ofRoots (Node.settledAll s roots) = settledAll s (ofRoots roots) := by
  rw [Node.settledAll_eq_map, settledAll_eq_map]
  exact ofChildren_settled (fun n _ => ofNode_settled s n) 0

/-! ## Designs -/

section

variable (optimize : Bool)

/-- The box of a settled outline does not depend on whether inferred layouts are in use. -/
theorem box_settled (around : Surroundings) (name : String) (o : Outline) :
    (o.settled s).box { s with optimizeLayout := optimize } around name =
      o.box s around name := by
  cases o with
  | mk layer id dx dy children =>
      have mode := layer.mode_settled s { s with optimizeLayout := optimize }
      have kind : (layer.settled s).kind = layer.kind := rfl
      rw [kind] at mode
      rw [settled]
      simp only [box, Outline.layer, kind, Scene.Layer.layout, mode]
      rfl

mutual

/-- The design of a settled outline does not depend on whether inferred layouts are in use. -/
theorem toDesign_settled : ∀ (o : Outline) (around : Surroundings) (names : Registry),
    (o.settled s).toDesign { s with optimizeLayout := optimize } around names =
      o.toDesign s around names
  | mk layer id dx dy children, around, names => by
      have box := fun name => box_settled s optimize around name (mk layer id dx dy children)
      have kind : (layer.settled s).kind = layer.kind := rfl
      rw [settled] at box ⊢
      rw [toDesign_mk, toDesign_mk]
      simp only [kind, box, listToDesign_settled children]
      rfl

/-- The designs of settled outlines do not depend on whether inferred layouts are in use. -/
theorem listToDesign_settled : ∀ (outlines : List Outline) (around : Surroundings)
    (names : Registry),
    listToDesign { s with optimizeLayout := optimize } around names (settledAll s outlines) =
      listToDesign s around names outlines
  | [], around, names => by
      rw [settledAll, listToDesign, listToDesign]
  | o :: rest, around, names => by
      rw [settledAll, listToDesign_cons, listToDesign_cons]
      simp only [toDesign_settled o, listToDesign_settled rest]

end

mutual

theorem preorder_settled : ∀ o : Outline,
    (o.settled s).preorder = o.preorder.map (settled s)
  | mk layer id dx dy children => by
      rw [settled, preorder, preorder, List.map_cons, settled, preorderList_settled children]

theorem preorderList_settled : ∀ outlines : List Outline,
    preorderList (settledAll s outlines) = (preorderList outlines).map (settled s)
  | [] => by
      rw [settledAll, preorderList]
      rfl
  | o :: rest => by
      rw [settledAll, preorderList, preorderList, List.map_append, preorder_settled o,
        preorderList_settled rest]

end

theorem warnings_settled (outlines : List Outline) :
    warnings { s with optimizeLayout := optimize } (settledAll s outlines) =
      warnings s outlines := by
  unfold warnings
  rw [preorderList_settled, List.flatMap_map]
  refine congrArg (List.flatMap · _) (funext fun o => ?_)
  cases o with
  | mk layer id dx dy children =>
      rw [settled]
      rfl

end

end

end Outline

/-! ## Conversions -/

theorem Surroundings.ofParent_settled (s : Settings) (optimize : Bool)
    (parent : Option Scene.Node) :
    ofParent { s with optimizeLayout := optimize } (parent.map (Scene.Node.settled s)) =
      ofParent s parent := by
  cases parent with
  | none => rfl
  | some node =>
      rw [Option.map_some, ofParent, ofParent, node.layer_settled, Scene.Layer.mode_settled]

theorem Design.build_settled (s : Settings) (optimize : Bool) (parent : Option Scene.Node)
    (roots : List Scene.Node) :
    Design.build { s with optimizeLayout := optimize } (parent.map (Scene.Node.settled s))
        (Scene.Node.settledAll s roots) =
      Design.build s parent roots := by
  unfold Design.build Design.ofSelection
  rw [Surroundings.ofParent_settled, Outline.ofRoots_settled, Outline.listToDesign_settled]

/-- No target looks at whether inferred layouts are in use. -/
theorem artifactsOf_congr (s : Settings) (optimize : Bool) (forest : List Design.Node) :
    artifactsOf { s with optimizeLayout := optimize } forest = artifactsOf s forest := by
  have artifacts (f : Framework) :
      f.artifacts { s with optimizeLayout := optimize } forest = f.artifacts s forest := by
    cases f <;> rfl
  have textStyles (f : Framework) (groups : List Design.TextGroup) :
      f.textStyles { s with optimizeLayout := optimize } groups = f.textStyles s groups := by
    cases f <;> rfl
  have language (f : Framework) :
      f.textStylesLanguage { s with optimizeLayout := optimize } = f.textStylesLanguage s := by
    cases f <;> rfl
  unfold artifactsOf
  simp only [textStylesArtifact, artifacts, textStyles, language]

/-- A selection converts like its settled form, for which it does not matter whether inferred
layouts are in use. -/
theorem convert_settled (s : Settings) (optimize : Bool) (parent : Option Scene.Node)
    (roots : List Scene.Node) :
    convert { s with optimizeLayout := optimize } (parent.map (Scene.Node.settled s))
        (Scene.Node.settledAll s roots) =
      convert s parent roots := by
  have warnings : Design.warningsOf { s with optimizeLayout := optimize }
      (Scene.Node.settledAll s roots) = Design.warningsOf s roots := by
    unfold Design.warningsOf
    rw [Outline.ofRoots_settled, Outline.warnings_settled]
  unfold convert
  rw [Design.build_settled, warnings]
  simp only [artifactsOf_congr]
  rfl

/-! ## Exchanging inferred layouts -/

namespace Scene

/-- A layer does not use an inferred auto-layout: the settings do not allow it, its own has a
direction, or its children are not arranged at all. -/
def Layer.Uninferring (s : Settings) (l : Layer) : Prop :=
  s.optimizeLayout = true →
    l.autoLayout.mode = .horizontal ∨ l.autoLayout.mode = .vertical ∨
      (l.kind ≠ .container ∧ l.kind ≠ .component)

mutual

/-- Two nodes are the same but for the inferred auto-layouts of layers that do not use them. -/
def Node.Reinferred (s : Settings) : Node → Node → Prop
  | mk layer children, mk layer' children' =>
    (layer' = layer ∨ layer.Uninferring s ∧
      ∃ inferred, layer' = { layer with inferredAutoLayout := inferred }) ∧
    Node.AllReinferred s children children'

/-- Nodes are the same, one by one, but for inferred auto-layouts of layers that do not use
them. -/
def Node.AllReinferred (s : Settings) : List Node → List Node → Prop
  | [], [] => True
  | n :: rest, n' :: rest' => Node.Reinferred s n n' ∧ Node.AllReinferred s rest rest'
  | _, _ => False

end

/-- A layer that does not use an inferred auto-layout settles to the same with any other. -/
theorem Layer.Uninferring.settled_eq {s : Settings} {l : Layer} (unused : l.Uninferring s)
    (inferred : Option AutoLayout) :
    Layer.settled s { l with inferredAutoLayout := inferred } = l.settled s := by
  have inForce : l.kind.arranges = true →
      Layer.autoLayoutInForce? s { l with inferredAutoLayout := inferred } =
        l.autoLayoutInForce? s := by
    intro arranged
    unfold Layer.autoLayoutInForce?
    by_cases allowed : s.optimizeLayout = true
    · have own : l.autoLayout.flows = true := by
        rcases unused allowed with horizontal | vertical | ⟨container, component⟩
        · rw [AutoLayout.flows, horizontal]
          rfl
        · rw [AutoLayout.flows, vertical]
          rfl
        · exact absurd (Design.Kind.arranges_iff.mp arranged) (not_or.mpr ⟨container, component⟩)
      simp only [own, if_true]
    · simp only [allowed, Bool.false_eq_true, if_false]
  have same : Layer.arrangement? s { l with inferredAutoLayout := inferred } =
      l.arrangement? s := by
    have kind : Layer.kind { l with inferredAutoLayout := inferred } = l.kind := rfl
    unfold Layer.arrangement?
    rw [kind]
    split
    case isTrue arranged => exact inForce arranged
    case isFalse => rfl
  rw [Layer.settled, same]
  rfl

mutual

theorem Node.Reinferred.settled_eq {s : Settings} : ∀ {n n' : Node},
    Node.Reinferred s n n' → n'.settled s = n.settled s
  | mk layer children, mk layer' children', alike => by
      obtain ⟨same, below⟩ := alike
      have layers : layer'.settled s = layer.settled s := by
        rcases same with rfl | ⟨unused, inferred, rfl⟩
        · rfl
        · exact unused.settled_eq inferred
      rw [Node.settled, Node.settled, layers, below.settled_eq]

theorem Node.AllReinferred.settled_eq {s : Settings} : ∀ {nodes nodes' : List Node},
    Node.AllReinferred s nodes nodes' → Node.settledAll s nodes' = Node.settledAll s nodes
  | [], [], _ => rfl
  | n :: rest, n' :: rest', alike => by
      rw [Node.settledAll, Node.settledAll, alike.1.settled_eq, alike.2.settled_eq]

end

/-- Without an inferred direction a layer settles to the same whatever the settings allow. -/
theorem Layer.settled_of_unflowing {l : Layer} (s : Settings) (optimize : Bool)
    (unflowing : ∀ a, l.inferredAutoLayout = some a → a.flows = false) :
    l.settled { s with optimizeLayout := optimize } = l.settled s := by
  have unused : l.inferredAutoLayout.filter AutoLayout.flows = none :=
    Option.filter_eq_none_iff.mpr fun a found => Bool.eq_false_iff.mp (unflowing a found)
  unfold Layer.settled Layer.arrangement? Layer.autoLayoutInForce?
  rw [unused, ite_self, ite_self]

mutual

theorem Node.settled_of_unflowing (s : Settings) (optimize : Bool) : ∀ {n : Node},
    (∀ l ∈ n.layers, ∀ a, l.inferredAutoLayout = some a → a.flows = false) →
      n.settled { s with optimizeLayout := optimize } = n.settled s
  | mk layer children, unflowing => by
      rw [Node.layers] at unflowing
      rw [Node.settled, Node.settled,
        Layer.settled_of_unflowing s optimize (unflowing layer List.mem_cons_self),
        Node.settledAll_of_unflowing s optimize fun l member =>
          unflowing l (List.mem_cons_of_mem layer member)]

theorem Node.settledAll_of_unflowing (s : Settings) (optimize : Bool) : ∀ {nodes : List Node},
    (∀ l ∈ Node.layersAll nodes, ∀ a, l.inferredAutoLayout = some a → a.flows = false) →
      Node.settledAll { s with optimizeLayout := optimize } nodes = Node.settledAll s nodes
  | [], _ => by rw [Node.settledAll, Node.settledAll]
  | n :: rest, unflowing => by
      rw [Node.layersAll] at unflowing
      rw [Node.settledAll, Node.settledAll,
        Node.settled_of_unflowing s optimize fun l member =>
          unflowing l (List.mem_append_left _ member),
        Node.settledAll_of_unflowing s optimize fun l member =>
          unflowing l (List.mem_append_right _ member)]

end

theorem Node.map_settled_of_toList {s t : Settings} {parent parent' : Option Node}
    (same : Node.settledAll t parent'.toList = Node.settledAll s parent.toList) :
    parent'.map (Node.settled t) = parent.map (Node.settled s) := by
  rw [Node.settledAll_eq_map, Node.settledAll_eq_map] at same
  cases parent <;> cases parent' <;> simp_all

end Scene

/-- Inferred auto-layouts come in only where they are allowed, and where there is no other.

Adding, changing or removing them leaves the design and all that is made of it as it was if the
settings do not allow them, and otherwise if each layer on which it happens has a direction of
its own or does not arrange its children.  And unless one that is inferred has a direction, it
does not matter whether the settings allow them. -/
theorem convert_inferredAutoLayout (s : Settings) (parent : Option Scene.Node)
    (roots : List Scene.Node) :
    (∀ parent' roots', Scene.Node.AllReinferred s parent.toList parent'.toList →
      Scene.Node.AllReinferred s roots roots' →
        Design.build s parent' roots' = Design.build s parent roots ∧
          convert s parent' roots' = convert s parent roots) ∧
      ((∀ l ∈ Scene.Node.layersAll parent.toList ++ Scene.Node.layersAll roots,
          ∀ a, l.inferredAutoLayout = some a → a.flows = false) →
        ∀ optimize,
          Design.build { s with optimizeLayout := optimize } parent roots =
              Design.build s parent roots ∧
            convert { s with optimizeLayout := optimize } parent roots =
              convert s parent roots) := by
  constructor
  · intro parent' roots' aboveAlike alike
    have above := Scene.Node.map_settled_of_toList aboveAlike.settled_eq
    constructor
    · rw [← Design.build_settled s s.optimizeLayout parent' roots', above, alike.settled_eq,
        Design.build_settled]
    · rw [← convert_settled s s.optimizeLayout parent' roots', above, alike.settled_eq,
        convert_settled]
  · intro unflowing optimize
    have above := Scene.Node.map_settled_of_toList
      (Scene.Node.settledAll_of_unflowing s optimize fun l member =>
        unflowing l (List.mem_append_left _ member))
    have below := Scene.Node.settledAll_of_unflowing s optimize fun l member =>
      unflowing l (List.mem_append_right _ member)
    constructor
    · rw [← Design.build_settled { s with optimizeLayout := optimize } s.optimizeLayout, above,
        below]
      exact Design.build_settled s s.optimizeLayout parent roots
    · rw [← convert_settled { s with optimizeLayout := optimize } s.optimizeLayout, above, below]
      exact convert_settled s s.optimizeLayout parent roots

/-- A row in a column, and a text: the row has a direction of its own and the text arranges
nothing, so neither follows what is inferred for it. -/
theorem convert_inferredAutoLayout_row :
    let text (inferred : Option Scene.AutoLayout) : Scene.Node :=
      .mk { nodeType := "TEXT", inferredAutoLayout := inferred } []
    let row (inferred : Option Scene.AutoLayout) (child : Scene.Node) : Scene.Node :=
      .mk { nodeType := "FRAME", autoLayout := { mode := .horizontal },
            inferredAutoLayout := inferred } [child]
    let column : Scene.Node := .mk { nodeType := "FRAME", autoLayout := { mode := .vertical } } []
    let plain := [row none (text none)]
    let inferred := [row (some { mode := .vertical }) (text (some { mode := .horizontal }))]
    let s := Settings.defaults
    let still : Settings := { s with optimizeLayout := false }
    s.optimizeLayout = true ∧ Scene.Node.AllReinferred s plain inferred ∧
      convert s (some column) inferred = convert s (some column) plain ∧
      convert still (some column) plain = convert s (some column) plain := by
  intro text row column plain inferred s still
  have alike : Scene.Node.AllReinferred s plain inferred :=
    ⟨⟨Or.inr ⟨fun _ => Or.inl rfl, _, rfl⟩,
      ⟨Or.inr ⟨fun _ => Or.inr (Or.inr (by decide)), _, rfl⟩, trivial⟩, trivial⟩, trivial⟩
  have above : Scene.Node.AllReinferred s (some column).toList (some column).toList :=
    ⟨⟨Or.inl rfl, trivial⟩, trivial⟩
  have unflowing : ∀ l ∈ Scene.Node.layersAll (some column).toList ++ Scene.Node.layersAll plain,
      ∀ a, l.inferredAutoLayout = some a → a.flows = false := by
    intro l member a found
    simp [plain, row, text, column, Scene.Node.layersAll, Scene.Node.layers] at member
    rcases member with rfl | rfl | rfl <;> cases found
  exact ⟨rfl, alike,
    ((convert_inferredAutoLayout s (some column) plain).1 _ _ above alike).2,
    ((convert_inferredAutoLayout s (some column) plain).2 unflowing false).2⟩

end Handoff
