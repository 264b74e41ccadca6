import AuctionLog.Json.Basic
import Mathlib.Tactic.Common

/-!
# Dropping undeclared members

A record declares the members that it is read from. All others can be dropped from an object: the
declared ones stay, in their order, and in each of them members may be dropped as well. A list that
stands for a record has nothing to drop but what is in its items.
-/

namespace AuctionLog.Json

/-- The members that are declared, each with all its names and what is dropped in its value. -/
abbrev Declared := List (List String × (Json → Json))

namespace Declared

def plain (names : List String) : Declared :=
  names.map fun name => ([name], id)

/-- What is dropped in the value of a member, if it is declared. -/
def find? (declared : Declared) (name : String) : Option (Json → Json) :=
  (List.find? (fun entry => entry.1.contains name) declared).map (·.2)

def dropMembers (declared : Declared) : Members → Members
  | [] => []
  | (name, value) :: rest =>
      match declared.find? name with
      | none => dropMembers declared rest
      | some inner => (name, inner value) :: dropMembers declared rest

def dropItems : Declared → List Json → List Json
  | [], items => items
  | _ :: _, [] => []
  | entry :: declared, item :: items => entry.2 item :: dropItems declared items

end Declared

/-- The value without what is not declared. -/
def declaredOf (declared : Declared) : Json → Json
  | .obj members => .obj (declared.dropMembers members)
  | .arr items => .arr (declared.dropItems items)
  | scalar => scalar

/-- The list with each item changed; other values stay as they are. -/
def onItems (inner : Json → Json) : Json → Json
  | .arr items => .arr (items.map inner)
  | value => value

/-- Whether a change keeps null, and makes no other value null. -/
def KeepsNull (change : Json → Json) : Prop :=
  ∀ value, change value = .null ↔ value = .null

theorem keepsNull_id : KeepsNull id :=
  fun _ => Iff.rfl

theorem keepsNull_declaredOf (declared : Declared) : KeepsNull (declaredOf declared) := by
  intro value
  cases value <;> simp [declaredOf]

namespace Declared

theorem dropItems_nil (declared : Declared) : declared.dropItems [] = [] := by
  cases declared <;> rfl

theorem dropMembers_insert {declared : Declared} {name : String}
    (hname : declared.find? name = none) (before after : Members) (value : Json) :
    declared.dropMembers (before ++ (name, value) :: after) =
      declared.dropMembers (before ++ after) := by
  induction before with
  | nil => simp only [List.nil_append, dropMembers, hname]
  | cons member before ih =>
      obtain ⟨other, held⟩ := member
      simp only [List.cons_append, dropMembers]
      rw [ih]

end Declared

end AuctionLog.Json
