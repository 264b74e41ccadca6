import AuctionLog.Proofs.Json.Written
import Mathlib.Data.List.Forall2
import Mathlib.Data.List.ReduceOption

/-!
# Members in another order

What a value is read as does not depend on the order that the members of its objects are written
in, however deep they are, nor on how its literals are spelled. That takes objects which repeat no
name: of members that share one, the last is kept.
-/

namespace AuctionLog.Json

/-- Members of different names come to the same, in whatever order they are listed. -/
theorem Members.ofList_eq_of_perm {left right : List (String × Json)}
    (hnames : (left.map (·.1)).Nodup) (hperm : left.Perm right) : ofList left = ofList right := by
  have hnames : (right.map (·.1)).Nodup := (hperm.map (·.1)).nodup_iff.mp hnames
  have hright := (perm_ofList (List.pairwise_map.mp hnames)).symm
  exact (sorted_ofList right).ofList_eq_of_perm (hperm.trans hright)

namespace Written

/-- The name of a member, if its literal stands for a text. -/
def name? (member : List StringLiteral.Piece × Written) : Option String :=
  StringLiteral.text? member.1

/-- Whether two values are the same but for the order of members in their objects, and for the
spelling of literals. -/
inductive Reordered : Written → Written → Prop where
  | null : Reordered .null .null
  | bool (value : Bool) : Reordered (.bool value) (.bool value)
  | num {number other : NumberLiteral.Text} (hnumber : number.number? = other.number?) :
      Reordered (.num number) (.num other)
  | str {pieces others : List StringLiteral.Piece}
      (htext : StringLiteral.text? pieces = StringLiteral.text? others) :
      Reordered (.str pieces) (.str others)
  | arr {items others : List Written} (hitems : List.Forall₂ Reordered items others) :
      Reordered (.arr items) (.arr others)
  | obj {members listed others : List (List StringLiteral.Piece × Written)}
      (hnames : members.map name? = listed.map name?)
      (hvalues : List.Forall₂ Reordered (members.map (·.2)) (listed.map (·.2)))
      (hperm : listed.Perm others) : Reordered (.obj members) (.obj others)

/-- Whether no object in a value repeats a name. -/
inductive Unrepeated : Written → Prop where
  | null : Unrepeated .null
  | bool (value : Bool) : Unrepeated (.bool value)
  | num (number : NumberLiteral.Text) : Unrepeated (.num number)
  | str (pieces : List StringLiteral.Piece) : Unrepeated (.str pieces)
  | arr {items : List Written} (hitems : ∀ item ∈ items, Unrepeated item) :
      Unrepeated (.arr items)
  | obj {members : List (List StringLiteral.Piece × Written)}
      (hnames : (members.map name?).reduceOption.Nodup)
      (hvalues : ∀ member ∈ members, Unrepeated member.2) : Unrepeated (.obj members)

variable {levels : Nat} {member : List StringLiteral.Piece × Written}
  {members others : List (List StringLiteral.Piece × Written)}

theorem Reordered.refl (written : Written) : Reordered written written := by
  induction written using tree_induction with
  | null => exact .null
  | bool value => exact .bool value
  | num number => exact .num rfl
  | str pieces => exact .str rfl
  | arr items ih => exact .arr (List.forall₂_same.mpr ih)
  | obj members ih =>
      exact .obj rfl (List.forall₂_same.mpr (List.forall_mem_map.mpr ih)) (List.Perm.refl _)

theorem Reordered.of_perm (hperm : members.Perm others) :
    Reordered (.obj members) (.obj others) := by
  have hvalues : ∀ value ∈ members.map (·.2), Reordered value value := fun value _ => .refl value
  exact .obj rfl (List.forall₂_same.mpr hvalues) hperm

/-- A member may be given another value. -/
theorem Reordered.of_member {name : List StringLiteral.Piece} {value twin : Written}
    (before after : List (List StringLiteral.Piece × Written)) (hvalue : Reordered value twin) :
    Reordered (.obj (before ++ (name, value) :: after))
      (.obj (before ++ (name, twin) :: after)) := by
  have hsame : ∀ members : List (List StringLiteral.Piece × Written),
      List.Forall₂ Reordered (members.map (·.2)) (members.map (·.2)) :=
    fun members => List.forall₂_same.mpr fun value _ => .refl value
  refine .obj ?_ ?_ (List.Perm.refl _)
  · simp [name?]
  · rw [List.map_append, List.map_append]
    exact List.rel_append (hsame before) (.cons hvalue (hsame after))

/-- A name with the value that it is given. -/
def memberValue? (levels : Nat) (member : List StringLiteral.Piece × Written) :
    Option (String × Json) := do
  let name ← name? member
  let value ← member.2.value? levels
  return (name, value)

theorem memberValues?_cons :
    memberValues? levels (member :: members) = (do
      let value ← memberValue? levels member
      let values ← memberValues? levels members
      return value :: values) := by
  rw [memberValues?, memberValue?, name?]
  simp only [bind_assoc, pure_bind]

theorem names_of_memberValues? {values : Members}
    (hvalues : memberValues? levels members = some values) :
    values.map (·.1) = (members.map name?).reduceOption := by
  induction members generalizing values with
  | nil =>
      obtain rfl := Option.some.inj hvalues
      rfl
  | cons member members ih =>
      simp only [memberValues?, Option.bind_eq_bind, Option.bind_eq_some_iff, pure,
        Option.some.injEq] at hvalues
      obtain ⟨name, hname, value, -, rest, hrest, rfl⟩ := hvalues
      have hname : name? member = some name := hname
      rw [List.map_cons, List.map_cons, hname, List.reduceOption_cons_of_some, ih hrest]

/-- Members in another order have their values in that order, or neither have. -/
theorem memberValues?_perm (hperm : members.Perm others) :
    Option.Rel List.Perm (memberValues? levels members) (memberValues? levels others) := by
  induction hperm with
  | nil => exact .some (List.Perm.refl _)
  | @cons member left right _ ih =>
      rw [memberValues?_cons, memberValues?_cons]
      generalize memberValues? levels left = values at ih ⊢
      generalize memberValues? levels right = others at ih ⊢
      cases memberValue? levels member with
      | none => exact .none
      | some value =>
          cases ih with
          | none => exact .none
          | some hperm => exact .some (hperm.cons value)
  | swap first second members =>
      simp only [memberValues?_cons]
      cases memberValue? levels first with
      | none => cases memberValue? levels second <;> exact .none
      | some value =>
          cases memberValue? levels second with
          | none => exact .none
          | some next =>
              cases memberValues? levels members with
              | none => exact .none
              | some values => exact .some (List.Perm.swap ..)
  | @trans left middle right _ _ ihleft ihright =>
      generalize memberValues? levels left = values at ihleft ⊢
      generalize memberValues? levels middle = between at ihleft ihright
      generalize memberValues? levels right = others at ihright ⊢
      cases ihleft with
      | none => exact ihright
      | some hleft =>
          cases ihright with
          | some hright => exact .some (hleft.trans hright)

/-- Members of different names make the same object in whatever order they are. -/
theorem ofList_memberValues? (hnames : (members.map name?).reduceOption.Nodup)
    (hperm : members.Perm others) :
    (memberValues? levels members).map Members.ofList =
      (memberValues? levels others).map Members.ofList := by
  have hvalues := @memberValues?_perm levels _ _ hperm
  cases hread : memberValues? levels members with
  | none =>
      rw [hread] at hvalues
      generalize memberValues? levels others = read at hvalues ⊢
      cases hvalues
      rfl
  | some values =>
      rw [← names_of_memberValues? hread] at hnames
      rw [hread] at hvalues
      generalize memberValues? levels others = read at hvalues ⊢
      cases hvalues with
      | some hvalues =>
          exact congrArg some (Members.ofList_eq_of_perm hnames hvalues)

/-- Whether two values are read as the same, however deep they may nest. -/
def Alike (written other : Written) : Prop :=
  ∀ levels, written.value? levels = other.value? levels

theorem itemValues?_congr {items others : List Written}
    (hitems : List.Forall₂ Alike items others) :
    itemValues? levels items = itemValues? levels others := by
  induction hitems with
  | nil => rfl
  | cons hitem _ ih => rw [itemValues?, itemValues?, hitem, ih]

theorem memberValues?_congr (hnames : members.map name? = others.map name?)
    (hvalues : List.Forall₂ Alike (members.map (·.2)) (others.map (·.2))) :
    memberValues? levels members = memberValues? levels others := by
  induction members generalizing others with
  | nil =>
      obtain rfl := List.map_eq_nil_iff.mp hnames.symm
      rfl
  | cons member members ih =>
      cases others with
      | nil => simp at hnames
      | cons other others =>
          obtain ⟨hname, hnames⟩ := List.cons.inj hnames
          obtain ⟨hvalue, hvalues⟩ := List.forall₂_cons.mp hvalues
          rw [memberValues?_cons, memberValues?_cons, ih hnames hvalues, memberValue?, hname,
            hvalue levels, memberValue?]

theorem Alike.arr {items others : List Written} (hitems : List.Forall₂ Alike items others) :
    Alike (.arr items) (.arr others) := by
  intro levels
  cases levels with
  | zero => rfl
  | succ levels => rw [value?, value?, itemValues?_congr hitems]

theorem Alike.obj {listed : List (List StringLiteral.Piece × Written)}
    (hunrepeated : (members.map name?).reduceOption.Nodup)
    (hnames : members.map name? = listed.map name?)
    (hvalues : List.Forall₂ Alike (members.map (·.2)) (listed.map (·.2)))
    (hperm : listed.Perm others) : Alike (.obj members) (.obj others) := by
  intro levels
  cases levels with
  | zero => rfl
  | succ levels =>
      rw [hnames] at hunrepeated
      have hobject := @ofList_memberValues? levels _ _ hunrepeated hperm
      calc
        value? (levels + 1) (.obj members) =
            ((memberValues? levels listed).map Members.ofList).map Json.obj := by
          rw [value?, memberValues?_congr hnames hvalues, Option.map_map]
          rfl
        _ = ((memberValues? levels others).map Members.ofList).map Json.obj := by rw [hobject]
        _ = value? (levels + 1) (.obj others) := by
          rw [value?, Option.map_map]
          rfl

theorem forall₂_alike {items others : List Written}
    (halike : ∀ item ∈ items, ∀ {other}, Reordered item other → Unrepeated item → Alike item other)
    (hunrepeated : ∀ item ∈ items, Unrepeated item) (hitems : List.Forall₂ Reordered items others) :
    List.Forall₂ Alike items others := by
  have hkept : ∀ item ∈ items, ∀ other, Reordered item other → Alike item other :=
    fun item hmem other hreordered => halike item hmem hreordered (hunrepeated item hmem)
  exact ((List.forall₂_and_left items others).mpr ⟨hkept, hitems⟩).imp
    fun _ other hboth => hboth.1 other hboth.2

/-- **The order of members does not matter** to the value that is read. -/
theorem Reordered.alike {written other : Written} (hreordered : Reordered written other)
    (hunrepeated : Unrepeated written) : Alike written other := by
  induction written using tree_induction generalizing other with
  | null | bool =>
      cases hreordered
      exact fun _ => rfl
  | num number =>
      cases hreordered with
      | num hnumber => exact fun levels => by rw [value?, value?, hnumber]
  | str pieces =>
      cases hreordered with
      | str htext => exact fun levels => by rw [value?, value?, htext]
  | arr items ih =>
      cases hreordered with
      | arr hitems =>
          cases hunrepeated with
          | arr hunrepeated => exact .arr (forall₂_alike ih hunrepeated hitems)
  | obj members ih =>
      cases hreordered with
      | obj hnames hvalues hperm =>
          cases hunrepeated with
          | obj hdifferent hunrepeated =>
              refine .obj hdifferent hnames (forall₂_alike ?_ ?_ hvalues) hperm
              · exact List.forall_mem_map.mpr ih
              · exact List.forall_mem_map.mpr hunrepeated

end Written

/-- Two texts are read as one value if the members of the one are those of the other in another
order. If one is not read, neither is the other. -/
theorem parse_reordered {text other : List UInt8} {written reordered : Written}
    (hspells : Spells text written) (hother : Spells other reordered)
    (hreordered : written.Reordered reordered) (hunrepeated : written.Unrepeated) :
    (parse text).toOption = (parse other).toOption := by
  rw [hspells.parse_eq, hother.parse_eq, hreordered.alike hunrepeated maxLevels]

end AuctionLog.Json
