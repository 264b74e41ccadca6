import AuctionLog.Proofs.Json.Composed

/-!
# What stands outside of string literals

The compact text of a value has nothing outside of its string literals but digits, letters and
marks: no blank is ever put between two of its parts.
-/

namespace AuctionLog.Json

/-- Where the reader of a text stands. -/
inductive Place where
  | outside
  | inside
  | escape

/-- The characters that stand outside of string literals, from a place on. The quotes of a literal
belong to it. -/
def outsideFrom : Place → List Char → List Char
  | _, [] => []
  | .outside, char :: rest =>
      if char = '"' then outsideFrom .inside rest else char :: outsideFrom .outside rest
  | .inside, char :: rest =>
      if char = '"' then outsideFrom .outside rest
      else if char = '\\' then outsideFrom .escape rest
      else outsideFrom .inside rest
  | .escape, _ :: rest => outsideFrom .inside rest

def outside (text : List Char) : List Char :=
  outsideFrom .outside text

theorem outsideFrom_escaped (char : Char) (rest : List Char) :
    outsideFrom .inside (escaped char ++ rest) = outsideFrom .inside rest := by
  unfold escaped
  split_ifs with hquote hslash
  any_goals (solve | simp [outsideFrom])
  simp [outsideFrom, hquote, hslash]

theorem outside_quoted (text : String) (rest : List Char) :
    outside (quoted text ++ rest) = outside rest := by
  have hinside : outsideFrom .inside (text.toList.flatMap escaped ++ '"' :: rest) =
      outside rest := by
    induction text.toList with
    | nil => simp [outsideFrom, outside]
    | cons char chars ih => rw [List.flatMap_cons, List.append_assoc, outsideFrom_escaped, ih]
  rw [quoted, List.cons_append, List.cons_append, List.append_assoc, List.singleton_append,
    outside, outsideFrom, if_pos rfl, hinside]

theorem outside_bare {text : List Char} (htext : Bare text) (rest : List Char) :
    outside (text ++ rest) = text ++ outside rest := by
  induction text with
  | nil => rfl
  | cons char text ih =>
      obtain ⟨hchar, htext⟩ := bare_cons.mp htext
      rw [List.cons_append, outside, outsideFrom, if_neg hchar.2]
      exact congrArg (char :: ·) (ih htext)

-- Where a piece leaves the reader shows in what follows it, so what follows is general.
theorem composed_outside :
    Composed fun text => ∀ rest, Bare (outside rest) → Bare (outside (text ++ rest)) where
  bare text htext := by
    intro rest hrest
    rw [outside_bare htext]
    exact bare_append.mpr ⟨htext, hrest⟩
  quoted text := by
    intro rest hrest
    rwa [outside_quoted]
  append left right hleft hright := by
    intro rest hrest
    rw [List.append_assoc]
    exact hleft _ (hright rest hrest)

/-- **No text of a value has a blank outside of its literals.** -/
theorem bare_outside_chars (value : Json) : Bare (outside value.chars) := by
  have hchars := composed_outside.chars value [] (List.forall_mem_nil _)
  rwa [List.append_nil] at hchars

end AuctionLog.Json
