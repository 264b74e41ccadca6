import AuctionLog.Proofs.Json.Tree
import Mathlib.Data.String.Basic

/-!
# Values with their members in order

Members that are in strict order of their names are in the one order that they can be arranged in,
so arranging them again changes nothing. What is read from a text is in this order at every depth.
-/

namespace AuctionLog.Json

namespace Members

/-- Whether members are in strict order of their names, so that none is repeated. -/
def Sorted (members : Members) : Prop :=
  members.Pairwise fun left right => left.1 < right.1

variable {members : Members} {name : String} {value : Json}

theorem mem_insert {member : String × Json} (hmem : member ∈ insert name value members) :
    member = (name, value) ∨ member ∈ members := by
  induction members with
  | nil => simpa [insert] using hmem
  | cons held rest ih =>
      obtain ⟨other, kept⟩ := held
      rw [insert] at hmem
      split_ifs at hmem
      · simpa using hmem
      · exact .inr hmem
      · rcases List.mem_cons.mp hmem with rfl | hrest
        · exact .inr (List.mem_cons_self ..)
        · exact (ih hrest).imp_right (List.mem_cons_of_mem _)

theorem Sorted.insert (hsorted : Sorted members) (name : String) (value : Json) :
    Sorted (insert name value members) := by
  induction members with
  | nil => exact List.pairwise_singleton ..
  | cons held rest ih =>
      obtain ⟨other, kept⟩ := held
      obtain ⟨hhead, hrest⟩ := List.pairwise_cons.mp hsorted
      rw [Members.insert]
      split_ifs with hlt heq
      · refine List.pairwise_cons.mpr ⟨fun member hmem => ?_, hsorted⟩
        rcases List.mem_cons.mp hmem with rfl | hmem
        · exact hlt
        · exact hlt.trans (hhead member hmem)
      · exact hsorted
      · refine List.pairwise_cons.mpr ⟨fun member hmem => ?_, ih hrest⟩
        rcases mem_insert hmem with rfl | hmem
        · exact lt_of_le_of_ne (not_lt.mp hlt) (Ne.symm heq)
        · exact hhead member hmem

theorem sorted_ofList (members : List (String × Json)) : Sorted (ofList members) := by
  induction members with
  | nil => exact List.Pairwise.nil
  | cons member rest ih => exact ih.insert member.1 member.2

theorem mem_of_mem_ofList {members : List (String × Json)} {member : String × Json}
    (hmem : member ∈ ofList members) : member ∈ members := by
  induction members with
  | nil => exact hmem
  | cons head rest ih =>
      rcases mem_insert hmem with rfl | hmem
      · exact List.mem_cons_self ..
      · exact List.mem_cons_of_mem _ (ih hmem)

theorem perm_insert (hname : ∀ member ∈ members, member.1 ≠ name) :
    (insert name value members).Perm ((name, value) :: members) := by
  induction members with
  | nil => exact List.Perm.refl _
  | cons held rest ih =>
      obtain ⟨other, kept⟩ := held
      obtain ⟨hother, hrest⟩ := List.forall_mem_cons.mp hname
      rw [insert]
      split_ifs with hlt heq
      · exact List.Perm.refl _
      · exact absurd heq.symm hother
      · exact ((ih hrest).cons _).trans (List.Perm.swap ..)

theorem perm_ofList {members : List (String × Json)}
    (hnames : members.Pairwise fun left right => left.1 ≠ right.1) :
    (ofList members).Perm members := by
  induction members with
  | nil => exact List.Perm.refl _
  | cons member rest ih =>
      obtain ⟨hhead, hrest⟩ := List.pairwise_cons.mp hnames
      have hname : ∀ other ∈ ofList rest, other.1 ≠ member.1 :=
        fun other hmem => (hhead other (mem_of_mem_ofList hmem)).symm
      exact (perm_insert hname).trans ((ih hrest).cons member)

/-- **Members have one order**: however they are listed, those of some names in order are what
arranging them gives. -/
theorem Sorted.ofList_eq_of_perm (hsorted : Sorted members) {listed : List (String × Json)}
    (hperm : listed.Perm members) : ofList listed = members := by
  have hnames : listed.Pairwise fun left right => left.1 ≠ right.1 :=
    (hperm.pairwise_iff Ne.symm).mpr (hsorted.imp ne_of_lt)
  have hunique : ∀ left right : String × Json, left ∈ ofList listed → right ∈ members →
      left.1 < right.1 → right.1 < left.1 → left = right := by
    intro left right _ _ hlt hgt
    exact absurd hgt hlt.not_gt
  exact List.Perm.eq_of_pairwise hunique (sorted_ofList listed) hsorted
    ((perm_ofList hnames).trans hperm)

theorem Sorted.ofList_eq (hsorted : Sorted members) : ofList members = members :=
  hsorted.ofList_eq_of_perm (List.Perm.refl _)

theorem mem_of_get? (hget : get? members name = some value) : (name, value) ∈ members := by
  obtain ⟨before, after, rfl, -⟩ := List.lookup_eq_some_iff.mp hget
  exact List.mem_append_right _ (List.mem_cons_self ..)

theorem get?_eq_some_of_mem (hnames : members.Pairwise fun left right => left.1 ≠ right.1)
    (hmem : (name, value) ∈ members) : get? members name = some value := by
  induction members with
  | nil => exact absurd hmem List.not_mem_nil
  | cons member rest ih =>
      obtain ⟨other, held⟩ := member
      obtain ⟨hhead, hrest⟩ := List.pairwise_cons.mp hnames
      rw [get?, List.lookup_cons]
      rcases List.mem_cons.mp hmem with heq | hmem
      · obtain ⟨rfl, rfl⟩ := Prod.mk.inj heq
        rw [beq_self_eq_true]
      · have hne : (name == other) = false := beq_eq_false_iff_ne.mpr (hhead _ hmem).symm
        rw [hne]
        exact ih hrest hmem

end Members

theorem arrangedItems_eq_map (items : List Json) : arrangedItems items = items.map arranged := by
  induction items with
  | nil => rfl
  | cons item rest ih => rw [arrangedItems, ih, List.map_cons]

theorem arrangedMembers_eq_map (members : Members) :
    arrangedMembers members = members.map fun member => (member.1, member.2.arranged) := by
  induction members with
  | nil => rfl
  | cons member rest ih => rw [arrangedMembers, ih, List.map_cons]

theorem Members.Sorted.arranged {members : Members} (hsorted : members.Sorted) :
    Members.Sorted (arrangedMembers members) := by
  rw [arrangedMembers_eq_map]
  exact List.pairwise_map.mpr hsorted

theorem arranged_arr_iff {items : List Json} :
    (arr items).arranged = arr items ↔ ∀ item ∈ items, item.arranged = item := by
  have hmap : items.map arranged = items.map id ↔ ∀ item ∈ items, item.arranged = id item :=
    List.map_inj_left
  rw [List.map_id] at hmap
  rw [arranged, arrangedItems_eq_map, arr.injEq]
  exact hmap

theorem arranged_obj_iff {members : Members} :
    (obj members).arranged = obj members ↔
      Members.Sorted members ∧ ∀ member ∈ members, member.2.arranged = member.2 := by
  have hmap : (members.map fun member => (member.1, member.2.arranged)) = members.map id ↔
      ∀ member ∈ members, (member.1, member.2.arranged) = id member := List.map_inj_left
  rw [List.map_id, ← arrangedMembers_eq_map] at hmap
  have hvalues : (∀ member ∈ members, (member.1, member.2.arranged) = id member) ↔
      ∀ member ∈ members, member.2.arranged = member.2 := by
    simp [Prod.ext_iff]
  rw [arranged, obj.injEq, ← hvalues, ← hmap]
  constructor
  · intro heq
    have hsorted : Members.Sorted members := heq ▸ Members.sorted_ofList _
    rw [hsorted.arranged.ofList_eq] at heq
    exact ⟨hsorted, heq⟩
  · rintro ⟨hsorted, heq⟩
    rwa [hsorted.arranged.ofList_eq]

theorem arranged_eq_str_iff {value : Json} {text : String} :
    value.arranged = .str text ↔ value = .str text := by
  cases value <;> simp [arranged]

theorem map_arranged_eq_map_str_iff {items : List Json} {texts : List String} :
    items.map arranged = texts.map str ↔ items = texts.map str := by
  induction items generalizing texts with
  | nil => simp
  | cons item rest ih => cases texts <;> simp [arranged_eq_str_iff, ih]

theorem arranged_arranged (value : Json) : value.arranged.arranged = value.arranged := by
  induction value using tree_induction with
  | null | bool | num | str => rfl
  | arr items ih =>
      rw [arranged, arranged_arr_iff, arrangedItems_eq_map, List.forall_mem_map]
      exact ih
  | obj members ih =>
      rw [arranged, arranged_obj_iff]
      refine ⟨Members.sorted_ofList _, fun member hmem => ?_⟩
      have hmem := Members.mem_of_mem_ofList hmem
      rw [arrangedMembers_eq_map, List.mem_map] at hmem
      obtain ⟨listed, hlisted, rfl⟩ := hmem
      exact ih listed hlisted

theorem depth_arranged_le (value : Json) : value.arranged.depth ≤ value.depth := by
  induction value using tree_induction with
  | null | bool | num | str => exact Nat.le_refl _
  | arr items ih =>
      rw [arranged, depth, depth, Nat.add_le_add_iff_right, itemsDepth_le_iff,
        arrangedItems_eq_map, List.forall_mem_map]
      intro item hmem
      exact (ih item hmem).trans (itemsDepth_le_iff.mp (Nat.le_refl _) item hmem)
  | obj members ih =>
      rw [arranged, depth, depth, Nat.add_le_add_iff_right, membersDepth_le_iff]
      intro member hmem
      have hmem := Members.mem_of_mem_ofList hmem
      rw [arrangedMembers_eq_map, List.mem_map] at hmem
      obtain ⟨listed, hlisted, rfl⟩ := hmem
      exact (ih listed hlisted).trans (membersDepth_le_iff.mp (Nat.le_refl _) listed hlisted)

end AuctionLog.Json
