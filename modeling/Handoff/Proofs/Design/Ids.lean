import Mathlib.Data.List.Nodup
import Handoff.Proofs.Design.Preorder
import Handoff.Proofs.Naming

/-!
What the ids of a design tell apart.

A node without an id of its own is called by the id of its parent and its place, with a colon in
between.  The place has no colon, so the made-up ids of two nodes are the same only if the ids of
their parents are.  By that the ids of a design are pairwise distinct if those that are given are, as
long as no id is made up that is given, and as long as no node is called like the parent that the
roots are taken to have.  Both do happen (`not_nodup_ids`).

The main statement is `nodup_ids_iff`.
-/

namespace Handoff

/-! ## Given ids -/

namespace Scene

mutual

/-- The ids that a node and the nodes below it have of their own, if it is visible. -/
def Node.givenIds : Node → List String
  | mk layer children =>
    if layer.visible then
      (if layer.id = "" then [] else [layer.id]) ++ Node.allGivenIds children
    else []

/-- The ids that visible nodes and the visible nodes below them have of their own. -/
def Node.allGivenIds : List Node → List String
  | [] => []
  | n :: rest => n.givenIds ++ Node.allGivenIds rest

end

theorem Node.sublist_allGivenIds {n : Node} {nodes : List Node} (member : n ∈ nodes) :
    n.givenIds.Sublist (Node.allGivenIds nodes) := by
  induction nodes with
  | nil => cases member
  | cons first rest ih =>
    rw [Node.allGivenIds]
    rcases List.mem_cons.mp member with rfl | later
    · exact List.sublist_append_left _ _
    · exact (ih later).trans (List.sublist_append_right _ _)

end Scene

namespace Outline

open Naming (numbered_injective toList_numbered)
open Scene (Node)

/-! ## Forests -/

/-- Induction on a forest: what holds of the forest below a node and of the trees after it holds
with the node in front. -/
theorem forestInduction {motive : List Outline → Prop} (nil : motive [])
    (cons : ∀ o rest, motive o.children → motive rest → motive (o :: rest))
    (forest : List Outline) : motive forest :=
  -- A tree is taken care of in front of every list.
  @Outline.rec_1 (fun o => ∀ rest, motive rest → motive (o :: rest)) motive
    (fun layer id dx dy children below rest later =>
      cons (mk layer id dx dy children) rest below later) nil
    (fun _ rest first later => first rest later) forest

theorem preorderList_cons (o : Outline) (rest : List Outline) :
    preorderList (o :: rest) = o :: (preorderList o.children ++ preorderList rest) := by
  cases o with
  | mk layer id dx dy children =>
    rw [preorderList, preorder, List.cons_append]
    rfl

/-- What is below the trees of a forest. -/
def inner (forest : List Outline) : List Outline :=
  forest.flatMap fun o => preorderList o.children

/-- A forest is its roots and what is below them. -/
theorem preorderList_perm (forest : List Outline) :
    (preorderList forest).Perm (forest ++ inner forest) := by
  induction forest with
  | nil => exact .refl _
  | cons o rest ih =>
    rw [preorderList_cons, inner, List.flatMap_cons, List.cons_append]
    refine .cons o (.trans (.append_left _ ih) ?_)
    exact List.perm_append_comm_assoc _ _ _

/-- What is not a root is the child of a node. -/
theorem mem_inner_iff {forest : List Outline} {child : Outline} :
    child ∈ inner forest ↔ ∃ o ∈ preorderList forest, child ∈ o.children := by
  induction forest using forestInduction with
  | nil => simp [inner, preorderList]
  | cons o rest inside later =>
    have own : child ∈ preorderList o.children ↔
        child ∈ o.children ∨ ∃ p ∈ preorderList o.children, child ∈ p.children := by
      rw [(preorderList_perm o.children).mem_iff, List.mem_append, inside]
    have others : child ∈ rest.flatMap (fun o => preorderList o.children) ↔
        ∃ p ∈ preorderList rest, child ∈ p.children := later
    rw [inner, List.flatMap_cons, List.mem_append, own, others, preorderList_cons]
    simp only [List.mem_cons, List.mem_append, or_and_right, exists_or, exists_eq_left, or_assoc]

/-! ## Ids that are made up -/

/-- Made-up ids are the same only if both the parents and the places are. -/
theorem childIdentity_inj {parent parent' : String} {place place' : Nat} :
    childIdentity parent place = childIdentity parent' place' ↔
      parent = parent' ∧ place = place' := by
  refine ⟨fun same => ?_, fun ⟨first, second⟩ => by rw [first, second]⟩
  have plain : ∀ n, ':' ∉ Nat.toDigits 10 n := fun n member =>
    absurd (Nat.isDigit_of_mem_toDigits (by decide) (by decide) member) (by decide)
  have chars : ∀ (p : String) (n : Nat),
      (childIdentity p n).toList = p.toList ++ ':' :: Nat.toDigits 10 n := by
    intro p n
    rw [childIdentity, String.toList_append, String.toList_append, Nat.toString_eq_repr,
      Nat.toList_repr, List.append_assoc]
    rfl
  have lists := congrArg String.toList same
  rw [chars, chars] at lists
  have parents : parent = parent' := by
    -- The longer one of two different parents would end among the digits of the other's place.
    refine String.ext ?_
    rcases List.append_eq_append_iff.mp lists with ⟨more, longer, rest⟩ | ⟨more, longer, rest⟩
    · cases more with
      | nil => rw [longer, List.append_nil]
      | cons c more =>
        injection rest with _ digits
        exact absurd (digits ▸ List.mem_append_right more List.mem_cons_self) (plain place)
    · cases more with
      | nil => rw [longer, List.append_nil]
      | cons c more =>
        injection rest with _ digits
        exact absurd (digits ▸ List.mem_append_right more List.mem_cons_self) (plain place')
  subst parents
  exact ⟨rfl, numbered_injective same⟩

/-- Whether a node has the id, and not of its own. -/
def isMade (id : String) (o : Outline) : Bool :=
  o.layer.id == "" && o.id == id

/-- Whether a node has the id of its own. -/
def isGiven (id : String) (o : Outline) : Bool :=
  !(o.layer.id == "") && o.id == id

/-- How many nodes have an id. -/
theorem count_ids (forest : List Outline) (x : String) :
    (forest.map id).count x = forest.countP (isMade x) + forest.countP (isGiven x) := by
  induction forest with
  | nil => rfl
  | cons o rest ih =>
    rw [List.map_cons, List.count_cons, ih, List.countP_cons, List.countP_cons, isMade, isGiven]
    generalize (o.layer.id == "") = unnamed
    generalize (o.id == x) = called
    cases unnamed <;> cases called <;> simp <;> omega

mutual

/-- The nodes below a node are called by their own ids, or by the one above them and their place. -/
def Placed : Outline → Prop
  | mk _ id _ _ children => AllPlaced id 0 children

/-- Nodes at places from a first one on are called by their own ids, or by their parent and their
place, and so are the nodes below them. -/
def AllPlaced (parent : String) (first : Nat) : List Outline → Prop
  | [] => True
  | o :: rest => ∃ place, first ≤ place ∧
      o.id = identity o.layer (childIdentity parent place) ∧ o.Placed ∧
        AllPlaced parent (place + 1) rest

end

theorem placed_iff (o : Outline) : o.Placed ↔ AllPlaced o.id 0 o.children := by
  cases o with
  | mk layer id dx dy children =>
    rw [Placed]
    rfl

/-- Places may begin anywhere before. -/
theorem AllPlaced.mono {parent : String} {first next : Nat} (before : first ≤ next)
    {forest : List Outline} (placed : AllPlaced parent next forest) :
    AllPlaced parent first forest := by
  cases forest with
  | nil => exact trivial
  | cons o rest =>
    obtain ⟨place, after, own, inside, later⟩ := placed
    exact ⟨place, Nat.le_trans before after, own, inside, later⟩

/-- If every outline of a node is called by its fallback, nodes in turn are placed. -/
theorem allPlaced_ofChildren_of_ofNode {parent : String} : ∀ {nodes : List Node} (index : Nat),
    (∀ n ∈ nodes, ∀ fallback dx dy, ∀ o ∈ ofNode fallback dx dy n,
      o.id = identity o.layer fallback ∧ o.Placed) →
    AllPlaced parent index (ofChildren parent index nodes)
  | [], _, _ => by
      rw [ofChildren]
      exact trivial
  | n :: rest, index, each => by
      have later : AllPlaced parent (index + 1) (ofChildren parent (index + 1) rest) :=
        allPlaced_ofChildren_of_ofNode (index + 1) fun m member =>
          each m (List.mem_cons_of_mem n member)
      rw [ofChildren]
      cases outline : ofNode (childIdentity parent index) 0.0 0.0 n with
      | none => exact later.mono (Nat.le_succ index)
      | some o =>
        obtain ⟨own, inside⟩ := each n List.mem_cons_self _ _ _ o outline
        exact ⟨index, Nat.le_refl index, own, inside, later⟩

theorem placed_ofNode (n : Node) : ∀ fallback dx dy, ∀ o ∈ ofNode fallback dx dy n,
    o.id = identity o.layer fallback ∧ o.Placed := by
  induction n using Node.shownInduction with
  | hidden n hidden =>
      intro fallback dx dy o found
      rw [ofNode_hidden hidden] at found
      cases found
  | passThrough n child visible replaced ih =>
      intro fallback dx dy o found
      rw [ofNode_passThrough visible replaced] at found
      exact ih fallback _ _ o found
  | kept n visible kept ih =>
      intro fallback dx dy o found
      rw [ofNode_kept visible kept] at found
      cases found
      refine ⟨rfl, ?_⟩
      rw [Placed]
      split
      · exact allPlaced_ofChildren_of_ofNode 0 ih
      · exact trivial

/-- The nodes of a selection are called by their own ids or by their places. -/
theorem allPlaced_ofRoots (roots : List Node) : AllPlaced "root" 0 (ofRoots roots) :=
  allPlaced_ofChildren_of_ofNode 0 fun n _ => placed_ofNode n

/-! ## How often an id is made up -/

section

variable {forest : List Outline} {parent p : String} {first place : Nat}

/-- Of some nodes in turn at most one is called by a place, and only by a place of their parent. -/
theorem AllPlaced.countP_le (placed : AllPlaced parent first forest) :
    forest.countP (isMade (childIdentity p place)) ≤
      if p = parent ∧ first ≤ place then 1 else 0 := by
  induction forest generalizing first with
  | nil => exact Nat.zero_le _
  | cons o rest ih =>
    obtain ⟨own, after, called, -, later⟩ := placed
    have others := ih later
    rw [List.countP_cons]
    by_cases made : isMade (childIdentity p place) o = true
    · obtain ⟨unnamed, same⟩ := Bool.and_eq_true_iff.mp made
      rw [identity, if_pos (beq_iff_eq.mp unnamed)] at called
      obtain ⟨rfl, rfl⟩ := childIdentity_inj.mp ((beq_iff_eq.mp same).symm.trans called)
      rw [if_neg (by omega)] at others
      rw [if_pos made, if_pos ⟨rfl, after⟩]
      omega
    · rw [if_neg made]
      refine Nat.le_trans others ?_
      by_cases within : p = parent ∧ own + 1 ≤ place
      · exact Nat.le_of_eq (by rw [if_pos within, if_pos ⟨within.1, by omega⟩])
      · rw [if_neg within]
        exact Nat.zero_le _

/-- Below the roots an id is made up at most as often as there are nodes with the id of the
parent. -/
theorem AllPlaced.countP_inner_le (placed : AllPlaced parent first forest) :
    (inner forest).countP (isMade (childIdentity p place)) ≤
      ((preorderList forest).map id).count p := by
  induction forest using forestInduction generalizing parent first with
  | nil => exact Nat.zero_le _
  | cons o rest inside later =>
    obtain ⟨own, -, -, children, others⟩ := placed
    have children := (placed_iff o).mp children
    have beneath := inside children
    have after : (rest.flatMap fun o => preorderList o.children).countP _ ≤ _ := later others
    have level : o.children.countP (isMade (childIdentity p place)) ≤
        if p = o.id ∧ 0 ≤ place then 1 else 0 := children.countP_le
    rw [inner, List.flatMap_cons, List.countP_append, (preorderList_perm o.children).countP_eq,
      List.countP_append, preorderList_cons, List.map_cons, List.map_append, List.count_cons,
      List.count_append]
    by_cases same : p = o.id
    · have called : (o.id == p) = true := beq_iff_eq.mpr same.symm
      simp only [same, Nat.zero_le, and_self, if_true] at level
      rw [if_pos called]
      subst same
      omega
    · simp only [same, false_and, if_false] at level
      omega

theorem AllPlaced.of_mem (placed : AllPlaced parent first forest) : ∀ o ∈ forest,
    (∃ place, o.id = identity o.layer (childIdentity parent place)) ∧ o.Placed := by
  induction forest generalizing first with
  | nil => exact fun o member => nomatch member
  | cons o rest ih =>
    obtain ⟨place, -, own, inside, later⟩ := placed
    exact List.forall_mem_cons.mpr ⟨⟨⟨place, own⟩, inside⟩, ih later⟩

theorem AllPlaced.placed_of_mem_preorderList (placed : AllPlaced parent first forest) :
    ∀ o ∈ preorderList forest, o.Placed := by
  induction forest using forestInduction generalizing parent first with
  | nil => exact fun o member => nomatch member
  | cons o rest inside later =>
    obtain ⟨place, -, -, children, others⟩ := placed
    rw [preorderList_cons, List.forall_mem_cons, List.forall_mem_append]
    exact ⟨children, inside ((placed_iff o).mp children), later others⟩

/-- What is made up below the roots is made of the id of a parent. -/
theorem AllPlaced.exists_parent (placed : AllPlaced parent first forest) {child : Outline}
    (member : child ∈ inner forest) (unnamed : child.layer.id = "") :
    ∃ o ∈ preorderList forest, child ∈ o.children ∧ ∃ place, child.id = childIdentity o.id place := by
  obtain ⟨o, among, below⟩ := mem_inner_iff.mp member
  have children := (placed_iff o).mp (placed.placed_of_mem_preorderList o among)
  obtain ⟨place, called⟩ := (children.of_mem child below).1
  rw [identity, if_pos unnamed] at called
  exact ⟨o, among, below, place, called⟩

end

/-! ## Ids apart -/

/-- No id is made up that a node has of its own, and none is made up for a root as well as for the
child of a node that is called like the parent of the roots. -/
structure MadeApart (forest : List Outline) : Prop where
  given : ∀ o ∈ preorderList forest, o.layer.id = "" →
    ∀ p ∈ preorderList forest, p.layer.id ≠ "" → o.id ≠ p.id
  roots : ∀ root ∈ forest, root.layer.id = "" → ∀ o ∈ preorderList forest, o.id = "root" →
    ∀ child ∈ o.children, child.layer.id = "" → root.id ≠ child.id

/-- The ids that nodes of a forest have of their own. -/
def ownIds (forest : List Outline) : List String :=
  ((preorderList forest).filter (·.layer.id != "")).map (·.layer.id)

section

variable {forest : List Outline}

theorem length_childIdentity (p : String) (place : Nat) : p.length < (childIdentity p place).length := by
  rw [childIdentity, String.length_append, String.length_append]
  have colon : (":" : String).length = 1 := rfl
  omega

/-- No id is given twice. -/
theorem countP_isGiven_le (keeps : ∀ o ∈ preorderList forest, o.KeepsId)
    (distinct : (ownIds forest).Nodup) (x : String) :
    (preorderList forest).countP (isGiven x) ≤ 1 := by
  have once := List.nodup_iff_count_le_one.mp distinct x
  rw [ownIds, List.count, List.countP_map, List.countP_filter] at once
  refine Nat.le_trans (List.countP_mono_left fun o member given => ?_) once
  simp only [isGiven, Bool.and_eq_true, Bool.not_eq_true', beq_iff_eq, beq_eq_false_iff_ne] at given
  simp only [Function.comp_apply, Bool.and_eq_true, bne_iff_ne, beq_iff_eq]
  exact ⟨(keeps o member given.1).symm.trans given.2, given.1⟩

theorem isMade_iff {x : String} {o : Outline} :
    isMade x o = true ↔ o.layer.id = "" ∧ o.id = x := by
  simp only [isMade, Bool.and_eq_true, beq_iff_eq]

theorem isGiven_iff {x : String} {o : Outline} :
    isGiven x o = true ↔ o.layer.id ≠ "" ∧ o.id = x := by
  simp only [isGiven, Bool.and_eq_true, Bool.not_eq_true', beq_eq_false_iff_ne, ne_eq, beq_iff_eq]

/-- What is made up for a root is made of the id that their parent is taken to have. -/
theorem AllPlaced.exists_place (placed : AllPlaced "root" 0 forest) {root : Outline}
    (member : root ∈ forest) (unnamed : root.layer.id = "") :
    ∃ place, root.id = childIdentity "root" place := by
  obtain ⟨place, called⟩ := (placed.of_mem root member).1
  rw [identity, if_pos unnamed] at called
  exact ⟨place, called⟩

/-- An id is not made up for a root as well as below the roots. -/
theorem countP_isMade_eq_zero (placed : AllPlaced "root" 0 forest) (apart : MadeApart forest)
    (x : String) : forest.countP (isMade x) = 0 ∨ (inner forest).countP (isMade x) = 0 := by
  refine Decidable.byContradiction fun both => ?_
  obtain ⟨above, beneath⟩ := not_or.mp both
  obtain ⟨root, among, made⟩ := List.countP_pos_iff.mp (Nat.pos_of_ne_zero above)
  obtain ⟨child, inside, made'⟩ := List.countP_pos_iff.mp (Nat.pos_of_ne_zero beneath)
  obtain ⟨unnamed, called⟩ := isMade_iff.mp made
  obtain ⟨unnamed', called'⟩ := isMade_iff.mp made'
  obtain ⟨i, first⟩ := placed.exists_place among unnamed
  obtain ⟨o, listed, below, j, second⟩ := placed.exists_parent inside unnamed'
  have parents := childIdentity_inj.mp
    (second.symm.trans (called'.trans (called.symm.trans first)))
  exact apart.roots root among unnamed o listed parents.1 child below unnamed'
    (called.trans called'.symm)

/-- If what is made up is apart from what is given, no id is there twice. -/
theorem count_ids_le (placed : AllPlaced "root" 0 forest)
    (keeps : ∀ o ∈ preorderList forest, o.KeepsId) (distinct : (ownIds forest).Nodup)
    (apart : MadeApart forest) (x : String) : ((preorderList forest).map id).count x ≤ 1 := by
  -- An id that is made up is longer than that of the parent, which is not there twice either.
  induction shorter : x.length using Nat.strongRecOn generalizing x with
  | ind n ih =>
    have given := countP_isGiven_le keeps distinct x
    rw [count_ids]
    by_cases made : ∃ o ∈ preorderList forest, isMade x o = true
    · obtain ⟨o, member, made⟩ := made
      obtain ⟨unnamed, rfl⟩ := isMade_iff.mp made
      have foreign : (preorderList forest).countP (isGiven o.id) = 0 := by
        refine List.countP_eq_zero.mpr fun p among own => ?_
        obtain ⟨named, same⟩ := isGiven_iff.mp own
        exact apart.given o member unnamed p among named same.symm
      obtain ⟨p, place, called⟩ : ∃ p place, o.id = childIdentity p place := by
        rcases List.mem_append.mp ((preorderList_perm forest).mem_iff.mp member) with root | child
        · exact ⟨_, placed.exists_place root unnamed⟩
        · obtain ⟨above, -, -, place, called⟩ := placed.exists_parent child unnamed
          exact ⟨_, place, called⟩
      have parents := ih p.length (shorter ▸ called ▸ length_childIdentity p place) p rfl
      have level : forest.countP (isMade (childIdentity p place)) ≤
          if p = "root" ∧ 0 ≤ place then 1 else 0 := placed.countP_le
      have deeper : (inner forest).countP (isMade (childIdentity p place)) ≤
          ((preorderList forest).map id).count p := placed.countP_inner_le
      have either := countP_isMade_eq_zero placed apart o.id
      rw [foreign, (preorderList_perm forest).countP_eq, List.countP_append, called]
      rw [called] at either
      split at level <;> omega
    · have none : (preorderList forest).countP (isMade x) = 0 :=
        List.countP_eq_zero.mpr fun o member own => made ⟨o, member, own⟩
      omega

/-- The ids of nodes are pairwise distinct just if what is made up is apart from what is given. -/
theorem nodup_map_id_iff (placed : AllPlaced "root" 0 forest)
    (keeps : ∀ o ∈ preorderList forest, o.KeepsId) (distinct : (ownIds forest).Nodup) :
    ((preorderList forest).map id).Nodup ↔ MadeApart forest := by
  constructor
  · intro nodup
    constructor
    case given =>
      intro o member unnamed p among named same
      have identical := List.inj_on_of_nodup_map nodup member among same
      exact named (identical ▸ unnamed)
    case roots =>
      intro root among _ o listed _ child below _ same
      have split := (((preorderList_perm forest).map id).nodup_iff.mp nodup)
      rw [List.map_append] at split
      refine List.disjoint_of_nodup_append split (List.mem_map_of_mem among) ?_
      exact List.mem_map.mpr ⟨child, mem_inner_iff.mpr ⟨o, listed, below⟩, same.symm⟩
  · intro apart
    exact List.nodup_iff_count_le_one.mpr (count_ids_le placed keeps distinct apart)

end

/-! ## Selections -/

theorem ownIds_cons (o : Outline) (rest : List Outline) :
    ownIds (o :: rest) =
      (if o.layer.id = "" then [] else [o.layer.id]) ++ (ownIds o.children ++ ownIds rest) := by
  rw [ownIds, preorderList_cons, List.filter_cons, ownIds, ownIds]
  by_cases unnamed : o.layer.id = ""
  · simp [unnamed]
  · simp [unnamed]

/-- If outlines keep the ids that are given below their nodes, so do those of nodes in turn. -/
theorem sublist_ofChildren_of_ofNode {parent : String} : ∀ {nodes : List Node} (index : Nat),
    (∀ n ∈ nodes, ∀ fallback dx dy,
      (ownIds (ofNode fallback dx dy n).toList).Sublist n.givenIds) →
    (ownIds (ofChildren parent index nodes)).Sublist (Node.allGivenIds nodes)
  | [], _, _ => by
      rw [ofChildren]
      exact .refl _
  | n :: rest, index, each => by
      have later : (ownIds (ofChildren parent (index + 1) rest)).Sublist (Node.allGivenIds rest) :=
        sublist_ofChildren_of_ofNode (index + 1) fun m member =>
          each m (List.mem_cons_of_mem n member)
      have own := each n List.mem_cons_self (childIdentity parent index) 0.0 0.0
      rw [ofChildren, Node.allGivenIds]
      cases outline : ofNode (childIdentity parent index) 0.0 0.0 n with
      | none => exact later.trans (List.sublist_append_right _ _)
      | some o =>
        rw [outline] at own
        have both := own.append later
        rw [Option.toList_some, ownIds_cons, List.append_assoc, List.append_assoc] at both
        rw [Option.toList_some, List.cons_append, List.nil_append, ownIds_cons]
        exact both

theorem sublist_ofNode (n : Node) : ∀ fallback dx dy,
    (ownIds (ofNode fallback dx dy n).toList).Sublist n.givenIds := by
  have visible_eq : ∀ m : Node, m.layer.visible = true →
      m.givenIds = (if m.layer.id = "" then [] else [m.layer.id]) ++ Node.allGivenIds m.children := by
    rintro ⟨layer, children⟩ visible
    rw [Node.givenIds, if_pos (show layer.visible = true from visible)]
    rfl
  induction n using Node.shownInduction with
  | hidden n hidden =>
      intro fallback dx dy
      rw [ofNode_hidden hidden]
      exact List.nil_sublist _
  | passThrough n child visible replaced ih =>
      intro fallback dx dy
      rw [ofNode_passThrough visible replaced, visible_eq n visible]
      refine (ih fallback _ _).trans ?_
      exact (Node.sublist_allGivenIds (Node.passThrough?_mem replaced).1).trans
        (List.sublist_append_right _ _)
  | kept n visible kept ih =>
      intro fallback dx dy
      rw [ofNode_kept visible kept, visible_eq n visible, Option.toList_some, ownIds_cons]
      refine .append (.refl _) ?_
      have nothing : ownIds [] = [] := rfl
      rw [nothing, List.append_nil]
      split
      · exact sublist_ofChildren_of_ofNode 0 ih
      · exact List.nil_sublist _

/-- The nodes of a design have no other ids of their own than the visible nodes of the selection. -/
theorem sublist_ofRoots (roots : List Node) :
    (ownIds (ofRoots roots)).Sublist (Node.allGivenIds roots) :=
  sublist_ofChildren_of_ofNode 0 fun n _ => sublist_ofNode n

end Outline

namespace Design

section

variable {s : Settings} {host : Option Scene.Node} {roots : List Scene.Node} {forest : List Node}

/-- The ids of a design are those of the outlines of the selection. -/
theorem map_id_of_build (built : build s host roots = .ok forest) :
    (Node.preorderList forest).map (·.box.id) =
      (Outline.preorderList (Outline.ofRoots roots)).map Outline.id := by
  obtain ⟨rfl, -⟩ := build_eq_ok built
  exact map_preorderList_ofSelection (g := Box.id) (fun _ _ _ => rfl) (fun _ => rfl) host roots _

/-- If no id is given twice in a selection, the ids of its design are pairwise distinct just if no
id is made up that a node has of its own, and none is made up for a root as well as for the child of
a node that is called `root`. -/
theorem nodup_ids_iff (built : build s host roots = .ok forest)
    (distinct : (Scene.Node.allGivenIds roots).Nodup) :
    ((Node.preorderList forest).map (·.box.id)).Nodup ↔
      Outline.MadeApart (Outline.ofRoots roots) := by
  rw [map_id_of_build built]
  exact Outline.nodup_map_id_iff (Outline.allPlaced_ofRoots roots) (Outline.keepsId_ofRoots roots)
    (distinct.sublist (Outline.sublist_ofRoots roots))

/-- A frame with two boxes, of which only the second has an id. -/
theorem nodup_ids_iff_frame :
    let box (id : String) : Scene.Node := .mk { id, nodeType := "RECTANGLE" } []
    let roots : List Scene.Node := [.mk { id := "1:1", nodeType := "FRAME" } [box "", box "1:3"]]
    let s := Settings.defaults
    let forest := (ofSelection s none roots .empty).1
    build s none roots = .ok forest ∧ (Scene.Node.allGivenIds roots).Nodup ∧
      (Node.preorderList forest).map (·.box.id) = ["1:1", "1:1:0", "1:3"] ∧
      (((Node.preorderList forest).map (·.box.id)).Nodup ↔
        Outline.MadeApart (Outline.ofRoots roots)) := by
  intro box roots s forest
  have built : build s none roots = .ok forest := rfl
  have distinct : (Scene.Node.allGivenIds roots).Nodup := by decide
  exact ⟨built, distinct, by decide +kernel, nodup_ids_iff built distinct⟩

end

/-- The first of two frames has no id, and the second is called what is made up for the first. -/
theorem not_nodup_ids :
    ¬∀ (s : Settings) (host : Option Scene.Node) (roots : List Scene.Node) (forest : List Node),
      build s host roots = .ok forest → (Scene.Node.allGivenIds roots).Nodup →
        ((Node.preorderList forest).map (·.box.id)).Nodup := by
  intro all
  let frame (id : String) : Scene.Node := .mk { id, nodeType := "FRAME" } []
  have nodup := all .defaults none [frame "", frame "root:0"] _ rfl (by decide)
  exact absurd nodup (by decide +kernel)

end Design

end Handoff
