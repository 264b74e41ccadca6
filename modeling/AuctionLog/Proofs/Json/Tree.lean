import AuctionLog.Json.Basic
import Mathlib.Tactic.Common

/-!
# Values as trees

Induction over a value with the parts of its lists and objects at hand, how deep its lists and
objects nest, and which doubles it holds.
-/

namespace AuctionLog.Json

/-- What holds of a list once it holds of its items, and of an object once it holds of its members,
holds of every value. -/
@[elab_as_elim]
theorem tree_induction {P : Json → Prop} (null : P .null) (bool : ∀ value, P (.bool value))
    (num : ∀ value, P (.num value)) (str : ∀ value, P (.str value))
    (arr : ∀ items, (∀ item ∈ items, P item) → P (.arr items))
    (obj : ∀ members, (∀ member ∈ members, P member.2) → P (.obj members)) (value : Json) :
    P value :=
  @Json.rec P (fun items => ∀ item ∈ items, P item) (fun members => ∀ member ∈ members, P member.2)
    (fun member => P member.2) null bool num str arr obj (by simp)
    (fun _ _ hitem hrest => List.forall_mem_cons.mpr ⟨hitem, hrest⟩) (by simp)
    (fun _ _ hmember hrest => List.forall_mem_cons.mpr ⟨hmember, hrest⟩) (fun _ _ hvalue => hvalue)
    value

mutual

/-- How deep the lists and objects of a value nest. -/
def depth : Json → Nat
  | .arr items => itemsDepth items + 1
  | .obj members => membersDepth members + 1
  | _ => 0

def itemsDepth : List Json → Nat
  | [] => 0
  | item :: rest => max item.depth (itemsDepth rest)

def membersDepth : List (String × Json) → Nat
  | [] => 0
  | (_, value) :: rest => max value.depth (membersDepth rest)

end

theorem itemsDepth_le_iff {items : List Json} {levels : Nat} :
    itemsDepth items ≤ levels ↔ ∀ item ∈ items, item.depth ≤ levels := by
  induction items with
  | nil => simp [itemsDepth]
  | cons item rest ih => rw [itemsDepth, Nat.max_le, ih, List.forall_mem_cons]

theorem membersDepth_le_iff {members : Members} {levels : Nat} :
    membersDepth members ≤ levels ↔ ∀ member ∈ members, member.2.depth ≤ levels := by
  induction members with
  | nil => simp [membersDepth]
  | cons member rest ih => rw [membersDepth, Nat.max_le, ih, List.forall_mem_cons]

mutual

/-- The doubles that a value holds, at every depth. -/
def doubles : Json → List Double
  | .num (.double value) => [value]
  | .arr items => itemsDoubles items
  | .obj members => membersDoubles members
  | _ => []

def itemsDoubles : List Json → List Double
  | [] => []
  | item :: rest => item.doubles ++ itemsDoubles rest

def membersDoubles : List (String × Json) → List Double
  | [] => []
  | (_, value) :: rest => value.doubles ++ membersDoubles rest

end

theorem mem_itemsDoubles {items : List Json} {d : Double} :
    d ∈ itemsDoubles items ↔ ∃ item ∈ items, d ∈ item.doubles := by
  induction items with
  | nil => simp [itemsDoubles]
  | cons item rest ih => simp [itemsDoubles, ih]

theorem mem_membersDoubles {members : Members} {d : Double} :
    d ∈ membersDoubles members ↔ ∃ member ∈ members, d ∈ member.2.doubles := by
  induction members with
  | nil => simp [membersDoubles]
  | cons member rest ih => simp [membersDoubles, ih]

/-- Whether all doubles that a value holds have a property. -/
def AllDoubles (P : Double → Prop) (value : Json) : Prop :=
  ∀ d ∈ value.doubles, P d

section AllDoubles

variable {P : Double → Prop}

theorem allDoubles_null : null.AllDoubles P :=
  List.forall_mem_nil P

theorem allDoubles_bool (value : Bool) : (bool value).AllDoubles P :=
  List.forall_mem_nil P

theorem allDoubles_int (value : Int) (hlower : -0x8000000000000000 ≤ value)
    (hupper : value < 0x10000000000000000) : (num (.int value hlower hupper)).AllDoubles P :=
  List.forall_mem_nil P

theorem allDoubles_double {value : Double} : (num (.double value)).AllDoubles P ↔ P value :=
  List.forall_mem_singleton

theorem allDoubles_str (value : String) : (str value).AllDoubles P :=
  List.forall_mem_nil P

theorem allDoubles_arr {items : List Json} :
    (arr items).AllDoubles P ↔ ∀ item ∈ items, item.AllDoubles P := by
  simp only [AllDoubles, doubles, mem_itemsDoubles]
  exact ⟨fun h item hmem d hd => h d ⟨item, hmem, hd⟩, fun h d ⟨item, hmem, hd⟩ => h item hmem d hd⟩

theorem allDoubles_obj {members : Members} :
    (obj members).AllDoubles P ↔ ∀ member ∈ members, member.2.AllDoubles P := by
  simp only [AllDoubles, doubles, mem_membersDoubles]
  exact ⟨fun h member hmem d hd => h d ⟨member, hmem, hd⟩,
    fun h d ⟨member, hmem, hd⟩ => h member hmem d hd⟩

end AllDoubles

end AuctionLog.Json
