import Mathlib.Tactic.Common

/-!
# Lines of bytes

Lines that hold no line feed of their own, each followed by one, can be told apart again.
-/

namespace AuctionLog.Lines

/-- Cuts bytes after each line feed, going on with a piece that has been begun. -/
def cutFrom (piece : List UInt8) : List UInt8 → List (List UInt8)
  | [] => if piece.isEmpty then [] else [piece]
  | byte :: rest =>
      if byte = 0x0A then (piece ++ [byte]) :: cutFrom [] rest
      else cutFrom (piece ++ [byte]) rest

/-- Bytes cut after each line feed. What follows the last one is a piece too, unless it is empty. -/
def cut (bytes : List UInt8) : List (List UInt8) :=
  cutFrom [] bytes

theorem cutFrom_line {line : List UInt8} (hline : 0x0A ∉ line) (piece rest : List UInt8) :
    cutFrom piece (line ++ 0x0A :: rest) = (piece ++ line ++ [0x0A]) :: cutFrom [] rest := by
  induction line generalizing piece with
  | nil => simp [cutFrom]
  | cons byte line ih =>
      have hbyte : byte ≠ 0x0A := fun heq => hline (heq ▸ List.mem_cons_self ..)
      have hrest : 0x0A ∉ line := fun hmem => hline (List.mem_cons_of_mem _ hmem)
      rw [List.cons_append, cutFrom, if_neg hbyte, ih hrest]
      simp

/-- **Lines are told apart**: cutting gives each of them back, with its line feed. -/
theorem cut_flatMap {α : Type} {text : α → List UInt8} {items : List α}
    (hitems : ∀ item ∈ items, 0x0A ∉ text item) :
    cut (items.flatMap fun item => text item ++ [0x0A]) =
      items.map fun item => text item ++ [0x0A] := by
  induction items with
  | nil => rfl
  | cons item items ih =>
      obtain ⟨hitem, hitems⟩ := List.forall_mem_cons.mp hitems
      have hrest := ih hitems
      rw [cut] at hrest ⊢
      rw [List.flatMap_cons, List.append_assoc, List.singleton_append, cutFrom_line hitem, hrest,
        List.nil_append, List.map_cons]

end AuctionLog.Lines
