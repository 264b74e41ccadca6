import AuctionLog.Proofs.Json.Fits
import Mathlib.Data.List.Sort

/-!
# Objects given by tables

An object can be given by a table that lists its names in order, each with its value if it has one.
Two values are the same if nothing that reads them tells them apart: they are arranged alike and
nest equally deep. An object that was written in another order is the same as that of its table.
-/

namespace AuctionLog.Json

/-- Names with their values, of which those that are absent have no member. -/
abbrev Table := List (String × Option Json)

namespace Table

def members (table : Table) : Members :=
  table.filterMap fun entry => entry.2.map fun value => (entry.1, value)

def Sorted (table : Table) : Prop :=
  table.Pairwise fun left right => left.1 < right.1

def All (P : Json → Prop) (table : Table) : Prop :=
  ∀ entry ∈ table, ∀ value ∈ entry.2, P value

def merge (left right : Table) : Table :=
  List.merge left right fun left right => left.1 ≤ right.1

variable {table written : Table}

@[simp]
theorem members_cons_none (name : String) (rest : Table) :
    members ((name, none) :: rest) = members rest := rfl

@[simp]
theorem members_cons_some (name : String) (value : Json) (rest : Table) :
    members ((name, some value) :: rest) = (name, value) :: members rest := rfl

theorem all_nil {P : Json → Prop} : All P [] ↔ True := by
  simp [All]

theorem all_cons {P : Json → Prop} {name : String} {value : Option Json} {rest : Table} :
    All P ((name, value) :: rest) ↔ (∀ held ∈ value, P held) ∧ All P rest :=
  List.forall_mem_cons

theorem member?_eq_members (name : String) (value : Option Json) :
    member? name value = members [(name, value)] := by
  cases value <;> rfl

theorem members_append (left right : Table) :
    members (left ++ right) = members left ++ members right := by
  rw [members, members, members, List.filterMap_append]

theorem mem_members {member : String × Json} :
    member ∈ members table ↔ (member.1, some member.2) ∈ table := by
  rw [members, List.mem_filterMap]
  constructor
  · rintro ⟨⟨name, _ | value⟩, hmem, heq⟩
    · simp at heq
    · simp only [Option.map_some, Option.some.injEq] at heq
      rwa [← heq]
  · intro hmem
    exact ⟨_, hmem, rfl⟩

theorem names_members (table : Table) :
    ((members table).map (·.1)).Sublist (table.map (·.1)) := by
  induction table with
  | nil => exact List.Sublist.slnil
  | cons entry rest ih =>
      obtain ⟨name, value⟩ := entry
      cases value with
      | none => exact ih.cons name
      | some value => exact ih.cons_cons name

theorem Sorted.members (hsorted : Sorted table) : Members.Sorted (members table) := by
  refine List.Pairwise.filterMap _ (fun left right hlt => ?_) hsorted
  intro leftMember hleft rightMember hright
  simp only [Option.map_eq_some_iff] at hleft hright
  obtain ⟨_, -, rfl⟩ := hleft
  obtain ⟨_, -, rfl⟩ := hright
  exact hlt

/-- A name that a table lists has the value that the table gives it. -/
theorem Sorted.get?_members (hsorted : Sorted table) {name : String} {value : Option Json}
    (hlookup : table.lookup name = some value) :
    Members.get? (Table.members table) name = value := by
  obtain ⟨before, after, rfl, -⟩ := List.lookup_eq_some_iff.mp hlookup
  have hmem : (name, value) ∈ before ++ (name, value) :: after := by simp
  cases value with
  | some value =>
      exact Members.get?_eq_some_of_mem (hsorted.members.imp ne_of_lt) (mem_members.mpr hmem)
  | none =>
      have hnames := List.pairwise_map.mpr (hsorted.imp ne_of_lt)
      rw [Members.get?, List.lookup_eq_none_iff]
      rintro ⟨other, held⟩ hheld
      refine bne_iff_ne.mpr ?_
      rintro rfl
      have hsame := List.inj_on_of_nodup_map hnames hmem (mem_members.mp hheld) rfl
      exact absurd (congrArg Prod.snd hsame) (Option.some_ne_none _).symm

theorem sorted_iff : Sorted table ↔ (table.map (·.1)).Pairwise (· < ·) := by
  rw [List.pairwise_map]
  rfl

theorem perm_of_sort (hsort : written.insertionSort (fun left right => left.1 ≤ right.1) = table) :
    written.Perm table :=
  hsort ▸ (List.perm_insertionSort _ written).symm

theorem merge_perm (left right : Table) : (merge left right).Perm (left ++ right) :=
  List.merge_perm_append _

/-- Two tables that share no name are merged into one that is sorted. -/
theorem Sorted.merge {left right : Table} (hleft : Sorted left) (hright : Sorted right)
    (hdisjoint : ∀ entry ∈ left, ∀ other ∈ right, entry.1 ≠ other.1) :
    Sorted (merge left right) := by
  have hle : (Table.merge left right).Pairwise fun entry other => decide (entry.1 ≤ other.1) := by
    refine List.pairwise_merge ?_ ?_ left right ?_ ?_
    · intro first second third hfirst hsecond
      simp only [decide_eq_true_eq] at hfirst hsecond ⊢
      exact hfirst.trans hsecond
    · intro first second
      simpa using le_total first.1 second.1
    · exact hleft.imp fun hlt => decide_eq_true hlt.le
    · exact hright.imp fun hlt => decide_eq_true hlt.le
  have hne : (Table.merge left right).Pairwise fun entry other => entry.1 ≠ other.1 := by
    rw [(merge_perm left right).pairwise_iff Ne.symm, List.pairwise_append]
    exact ⟨hleft.imp ne_of_lt, hright.imp ne_of_lt, hdisjoint⟩
  refine (hle.and hne).imp fun hboth => ?_
  exact lt_of_le_of_ne (of_decide_eq_true hboth.1) hboth.2

end Table

/-- Whether two values cannot be told apart: they are arranged alike and are equally deep. -/
def Same (left right : Json) : Prop :=
  left.arranged = right.arranged ∧ left.depth = right.depth

/-- Whether two tables have the same value under each name, in the same order. -/
def Table.Alike (left right : Table) : Prop :=
  List.Forall₂ (fun entry other => entry.1 = other.1 ∧ Option.Rel Same entry.2 other.2) left right

namespace Same

theorem refl (value : Json) : Same value value := ⟨rfl, rfl⟩

theorem trans {first second third : Json} (hfirst : Same first second)
    (hsecond : Same second third) : Same first third :=
  ⟨hfirst.1.trans hsecond.1, hfirst.2.trans hsecond.2⟩

theorem arr {α : Type} {left right : α → Json} (hsame : ∀ item, Same (left item) (right item))
    (items : List α) : Same (.arr (items.map left)) (.arr (items.map right)) := by
  have hitems : arrangedItems (items.map left) = arrangedItems (items.map right) ∧
      itemsDepth (items.map left) = itemsDepth (items.map right) := by
    induction items with
    | nil => exact ⟨rfl, rfl⟩
    | cons item rest ih => simp [arrangedItems, itemsDepth, (hsame item).1, (hsame item).2, ih]
  rw [Same, arranged, arranged, depth, depth, hitems.1, hitems.2]
  exact ⟨rfl, rfl⟩

theorem obj_of_alike {left right : Table} (halike : Table.Alike left right) :
    Same (.obj left.members) (.obj right.members) := by
  have hmembers : arrangedMembers left.members = arrangedMembers right.members ∧
      membersDepth left.members = membersDepth right.members := by
    induction halike with
    | nil => exact ⟨rfl, rfl⟩
    | @cons entry other lefts rights hentry _ ih =>
        obtain ⟨name, value⟩ := entry
        obtain ⟨_, kept⟩ := other
        obtain ⟨rfl, hvalue⟩ := hentry
        cases hvalue with
        | none => simpa using ih
        | some hvalue => simp [arrangedMembers, membersDepth, hvalue.1, hvalue.2, ih]
  rw [Same, arranged, arranged, depth, depth, hmembers.1, hmembers.2]
  exact ⟨rfl, rfl⟩

theorem obj_of_perm {written table : Table} (hsorted : table.Sorted) (hperm : written.Perm table) :
    Same (.obj written.members) (.obj table.members) := by
  have hmembers : written.members.Perm table.members := hperm.filterMap _
  have harranged : (arrangedMembers written.members).Perm (arrangedMembers table.members) := by
    rw [arrangedMembers_eq_map, arrangedMembers_eq_map]
    exact hmembers.map _
  constructor
  · rw [arranged, arranged, hsorted.members.arranged.ofList_eq_of_perm harranged,
      hsorted.members.arranged.ofList_eq]
  · rw [depth, depth, Nat.add_right_cancel_iff]
    refine le_antisymm (membersDepth_le_iff.mpr fun member hmem => ?_)
      (membersDepth_le_iff.mpr fun member hmem => ?_)
    · exact membersDepth_le_iff.mp le_rfl member (hmembers.mem_iff.mp hmem)
    · exact membersDepth_le_iff.mp le_rfl member (hmembers.mem_iff.mpr hmem)

end Same

namespace Table

variable {table left right : Table} {name : String} {value : Option Json}

theorem Alike.refl (table : Table) : Alike table table := by
  refine List.forall₂_same.mpr fun entry _ => ⟨rfl, ?_⟩
  cases entry.2 with
  | none => exact .none
  | some value => exact .some (.refl value)

theorem Alike.keep (halike : Alike left right) :
    Alike ((name, value) :: left) ((name, value) :: right) :=
  List.rel_append (Alike.refl [(name, value)]) halike

theorem Alike.change {α : Type} {first second : α → Json}
    (hsame : ∀ item, Same (first item) (second item)) (item : Option α)
    (halike : Alike left right) :
    Alike ((name, item.map first) :: left) ((name, item.map second) :: right) := by
  refine List.Forall₂.cons ⟨rfl, ?_⟩ halike
  cases item with
  | none => exact .none
  | some item => exact .some (hsame item)

/-- Whether members write a table out: in some order, and with values that are the same. -/
def WrittenAs (table : Table) (written : Members) : Prop :=
  ∃ listed kept : Table, written = listed.members ∧ Alike listed kept ∧ kept.Perm table

theorem WrittenAs.of_alike {listed kept : Table} (halike : Alike listed kept)
    (hsort : kept.insertionSort (fun entry other => entry.1 ≤ other.1) = table) :
    table.WrittenAs listed.members :=
  ⟨listed, kept, rfl, halike, perm_of_sort hsort⟩

theorem WrittenAs.of_sort {listed : Table}
    (hsort : listed.insertionSort (fun entry other => entry.1 ≤ other.1) = table) :
    table.WrittenAs listed.members :=
  .of_alike (.refl listed) hsort

theorem WrittenAs.append {written more : Members} (hleft : left.WrittenAs written)
    (hright : right.WrittenAs more) : (merge left right).WrittenAs (written ++ more) := by
  obtain ⟨listed, kept, rfl, halike, hperm⟩ := hleft
  obtain ⟨others, others', rfl, halike', hperm'⟩ := hright
  refine ⟨listed ++ others, kept ++ others', (members_append _ _).symm,
    List.rel_append halike halike', ?_⟩
  exact (hperm.append hperm').trans (merge_perm left right).symm

theorem WrittenAs.same {written : Members} (hwritten : table.WrittenAs written)
    (hsorted : table.Sorted) : Same (.obj written) (.obj table.members) := by
  obtain ⟨listed, kept, rfl, halike, hperm⟩ := hwritten
  exact (Same.obj_of_alike halike).trans (Same.obj_of_perm hsorted hperm)

end Table

def textsObject (entries : List (String × String)) : Json :=
  .obj (Members.ofList (entries.map fun entry => (entry.1, .str entry.2)))

theorem fits_textsObject {levels : Nat} (entries : List (String × String)) :
    Fits (levels + 1) (textsObject entries) := by
  rw [textsObject, fits_obj_iff]
  refine ⟨Members.sorted_ofList _, fun member hmem => ?_⟩
  have hmem := Members.mem_of_mem_ofList hmem
  rw [List.mem_map] at hmem
  obtain ⟨entry, -, rfl⟩ := hmem
  exact fits_str entry.2

theorem same_textsObject (entries : List (String × String)) :
    Same (.obj (entries.map fun entry => (entry.1, .str entry.2))) (textsObject entries) := by
  set listed : Members := entries.map fun entry => (entry.1, .str entry.2) with hlisted
  have hvalues : ∀ member ∈ listed, ∃ text, member.2 = .str text := by
    intro member hmem
    rw [hlisted, List.mem_map] at hmem
    obtain ⟨entry, -, rfl⟩ := hmem
    exact ⟨entry.2, rfl⟩
  have harranged : (obj listed).arranged = textsObject entries := by
    rw [arranged, textsObject, arrangedMembers_eq_map, hlisted, List.map_map]
    rfl
  have hflat : ∀ members : Members, (∀ member ∈ members, member ∈ listed) →
      membersDepth members = 0 := by
    intro members hmembers
    refine Nat.le_zero.mp (membersDepth_le_iff.mpr fun member hmem => ?_)
    obtain ⟨text, htext⟩ := hvalues member (hmembers member hmem)
    rw [htext]
    exact Nat.le_refl 0
  constructor
  · rw [← harranged, arranged_arranged]
  · rw [textsObject, depth, depth, hflat listed fun _ => id,
      hflat _ fun _ => Members.mem_of_mem_ofList]

theorem fits_table_iff {levels : Nat} {table : Table} (hsorted : table.Sorted) :
    Fits (levels + 1) (.obj table.members) ↔ table.All (Fits levels) := by
  rw [fits_obj_iff, Table.All]
  constructor
  · rintro ⟨-, hvalues⟩ entry hentry value hvalue
    refine hvalues (entry.1, value) (Table.mem_members.mpr ?_)
    rwa [← Option.mem_def.mp hvalue]
  · intro hvalues
    refine ⟨hsorted.members, fun member hmem => ?_⟩
    exact hvalues _ (Table.mem_members.mp hmem) member.2 rfl

end AuctionLog.Json
