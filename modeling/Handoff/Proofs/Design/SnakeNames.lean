import Handoff.Proofs.Design.Names
import Handoff.Proofs.Text.SnakeCase

/-!
The names that a registry hands out are in snake case.

A layer name leaves pieces of letters and of digits, a fallback puts its own pieces in front,
and the number that makes a name unique is one more piece.  So every name of a design can be
taken to the identifier styles by what is known of snake case (`Design.isSnake_of_build`), and
no two nodes of a design share one (`Design.nodup_uniqueNames`).
-/

namespace Handoff

/-! ## Putting names together -/

namespace Text

theorem IsPiece.isSnake {word : List Char} (piece : IsPiece word) : IsSnake word :=
  ⟨[word], List.cons_ne_nil word [], List.intercalate_singleton.symm,
    fun _ member => List.mem_singleton.mp member ▸ piece⟩

theorem IsSnake.append {front back : List Char} (first : IsSnake front) (second : IsSnake back) :
    IsSnake (front ++ '_' :: back) := by
  obtain ⟨pieces, filled, rfl, all⟩ := first
  obtain ⟨pieces', filled', rfl, all'⟩ := second
  refine ⟨pieces ++ pieces', List.append_ne_nil_of_left_ne_nil filled _, ?_,
    List.forall_mem_append.mpr ⟨all, all'⟩⟩
  -- In front of an underscore both lists of pieces can be told without their ends.
  have joined := cons_intercalate (List.append_ne_nil_of_left_ne_nil filled pieces')
  rw [List.flatMap_append, ← cons_intercalate filled, ← cons_intercalate filled',
    List.cons_append, List.cons.injEq] at joined
  exact joined.2.symm

end Text

/-! ## Names of a registry -/

namespace Naming

open Text (IsSnake IsPiece)

/-- The base made from any layer name is in snake case if the fallback is. -/
theorem isSnake_identifier (raw : String) {fallback : String} (usable : IsSnake fallback.toList) :
    IsSnake (identifier raw fallback).toList := by
  have chars : (Text.snake (String.ofList (spaced raw.toList))).toList =
      Text.joinLower '_' (spaced raw.toList) := by
    rw [Text.snake, String.toList_ofList, String.toList_ofList]
  unfold identifier
  simp only [chars]
  cases joined : Text.joinLower '_' (spaced raw.toList) with
  | nil => exact usable
  | cons c rest =>
      have filled : (Text.words (spaced raw.toList)).map Text.lowerChars ≠ [] := by
        intro empty
        rw [Text.joinLower, empty] at joined
        cases joined
      have own : IsSnake (c :: rest) :=
        ⟨_, filled, joined.symm, fun word member =>
          Text.isPiece_of_mem_words (Text.isSpaced_spaced raw.toList) member⟩
      dsimp only
      split
      · rw [String.toList_append, String.toList_append, chars, joined, List.append_assoc]
        exact usable.append own
      · rwa [chars, joined]

theorem isSnake_suffixed {base : String} (snake : IsSnake base.toList) (n : Nat) :
    IsSnake (suffixed base n).toList := by
  have number : IsPiece (Nat.toDigits 10 n) :=
    ⟨Nat.toDigits_ne_nil, .inr fun _ member => Nat.isDigit_of_mem_toDigits (by decide) (by decide)
      member⟩
  rw [toList_suffixed]
  exact snake.append number.isSnake

end Naming

namespace Registry

open Text (IsSnake)

theorem Grants.isSnake {r : Registry} {base name : String} (grants : r.Grants base name)
    (snake : IsSnake base.toList) : IsSnake name.toList := by
  rcases grants with ⟨-, rfl⟩ | ⟨-, n, -, -, rfl, -, -⟩
  · exact snake
  · exact Naming.isSnake_suffixed snake n

/-- Names handed out with fallbacks in snake case are in snake case. -/
theorem isSnake_registerAll (r : Registry) {requests : List (String × String)}
    (usable : ∀ request ∈ requests, IsSnake request.2.toList) :
    ∀ name ∈ (r.registerAll requests).1, IsSnake name.toList := by
  induction requests generalizing r with
  | nil => exact fun name member => nomatch member
  | cons request rest ih =>
      obtain ⟨raw, fallback⟩ := request
      obtain ⟨own, others⟩ := List.forall_mem_cons.mp usable
      intro name member
      rw [registerAll] at member
      rcases List.mem_cons.mp member with rfl | later
      · exact (grants_pick r _).isSnake (Naming.isSnake_identifier raw own)
      · exact ih _ others name later

end Registry

/-! ## Names of a design -/

namespace Design

open Text (IsSnake IsPiece)

theorem Kind.isSnake_fallbackName (kind : Kind) : IsSnake kind.fallbackName.toList := by
  have piece : IsPiece kind.fallbackName.toList := by
    refine Text.isPiece_of_all_isLower ?_ ?_
    · rcases kind with _ | _ | (_ | _ | _ | _) | _ | _ | _ <;> decide
    · rcases kind with _ | _ | (_ | _ | _ | _) | _ | _ | _ <;> decide
  exact piece.isSnake

section

variable {s : Settings} {host : Option Scene.Node} {roots : List Scene.Node} {forest : List Node}

/-- A design has the names that the layers shown are given when they ask for them in
preorder. -/
theorem uniqueNames_of_build (built : build s host roots = .ok forest) :
    (Node.preorderList forest).map (·.box.uniqueName) =
      (Registry.empty.registerAll (requests roots)).1 := by
  obtain ⟨rfl, -⟩ := build_eq_ok built
  exact congrArg Prod.fst (names_ofSelection s host roots .empty)

theorem nodup_uniqueNames (built : build s host roots = .ok forest) :
    ((Node.preorderList forest).map (·.box.uniqueName)).Nodup := by
  rw [uniqueNames_of_build built]
  exact (Registry.nodup_registerAll _ _).1

theorem isSnake_of_build (built : build s host roots = .ok forest) {n : Node}
    (member : n ∈ Node.preorderList forest) : IsSnake n.box.uniqueName.toList := by
  have handed : n.box.uniqueName ∈ (Registry.empty.registerAll (requests roots)).1 := by
    rw [← uniqueNames_of_build built]
    exact List.mem_map_of_mem member
  refine Registry.isSnake_registerAll .empty (fun request asked => ?_) _ handed
  obtain ⟨layer, -, rfl⟩ := List.mem_map.mp asked
  exact layer.kind.isSnake_fallbackName

end

end Design

end Handoff
