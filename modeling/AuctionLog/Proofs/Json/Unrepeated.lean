import AuctionLog.Proofs.Json.Table

/-!
# Values whose objects repeat no name

A value can list a name twice in one of its objects, however deep that is. Arranged values never do,
nor do objects that are given by tables of different names and repeat none further down.
-/

namespace AuctionLog.Json

/-- Whether one value is another one or a part of it, at any depth. -/
inductive Within (part : Json) : Json → Prop where
  | self : Within part part
  | item {items : List Json} {item : Json} (hmem : item ∈ items) (hwithin : Within part item) :
      Within part (.arr items)
  | member {members : Members} {member : String × Json} (hmem : member ∈ members)
      (hwithin : Within part member.2) : Within part (.obj members)

/-- Whether no object in a value repeats a name. -/
def Unrepeated (value : Json) : Prop :=
  ∀ members, Within (.obj members) value → (members.map (·.1)).Nodup

theorem Within.trans {part whole value : Json} (hpart : Within part whole)
    (hwhole : Within whole value) : Within part value := by
  induction hwhole with
  | self => exact hpart
  | item hmem _ ih => exact .item hmem ih
  | member hmem _ ih => exact .member hmem ih

theorem Unrepeated.part {part value : Json} (hunrepeated : Unrepeated value)
    (hpart : Within part value) : Unrepeated part :=
  fun members hwithin => hunrepeated members (hwithin.trans hpart)

theorem unrepeated_bool (value : Bool) : Unrepeated (.bool value) := nofun

theorem unrepeated_num (value : Number) : Unrepeated (.num value) := nofun

theorem unrepeated_str (value : String) : Unrepeated (.str value) := nofun

theorem unrepeated_arr {items : List Json} (hitems : ∀ item ∈ items, Unrepeated item) :
    Unrepeated (.arr items) := by
  intro members hwithin
  cases hwithin with
  | item hmem hwithin => exact hitems _ hmem members hwithin

theorem unrepeated_obj {members : Members} (hnames : (members.map (·.1)).Nodup)
    (hmembers : ∀ member ∈ members, Unrepeated member.2) : Unrepeated (.obj members) := by
  intro inner hwithin
  cases hwithin with
  | self => exact hnames
  | member hmem hwithin => exact hmembers _ hmem inner hwithin

theorem unrepeated_table {table : Table} (hnames : (table.map (·.1)).Nodup)
    (hvalues : table.All Unrepeated) : Unrepeated (.obj table.members) := by
  apply unrepeated_obj (table.names_members.nodup hnames)
  intro member hmem
  exact hvalues _ (Table.mem_members.mp hmem) member.2 rfl

theorem nodup_of_sorted {α : Type} {entries : List (String × α)}
    (hsorted : entries.Pairwise fun left right => left.1 < right.1) :
    (entries.map (·.1)).Nodup := by
  rw [List.Nodup, List.pairwise_map]
  exact hsorted.imp ne_of_lt

/-- **An arranged value repeats no name.** -/
theorem unrepeated_of_arranged {value : Json} (harranged : value.arranged = value) :
    Unrepeated value := by
  induction value using tree_induction with
  | null => exact nofun
  | bool value => exact unrepeated_bool value
  | num value => exact unrepeated_num value
  | str value => exact unrepeated_str value
  | arr items ih =>
      have hitems := arranged_arr_iff.mp harranged
      exact unrepeated_arr fun item hmem => ih item hmem (hitems item hmem)
  | obj members ih =>
      obtain ⟨hsorted, hmembers⟩ := arranged_obj_iff.mp harranged
      apply unrepeated_obj (nodup_of_sorted hsorted)
      intro member hmem
      exact ih member hmem (hmembers member hmem)

end AuctionLog.Json
