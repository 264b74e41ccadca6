import AuctionLog.Proofs.Json.Arranged
import AuctionLog.Proofs.Text.Utf8Order
import Mathlib.Data.List.Sort

/-!
# The members that are kept

Of members with one name a value keeps the last, and it lists what it keeps by the bytes of the
names. Nothing else can be said of the members that are kept: there is one such list.
-/

namespace AuctionLog.Json

/-- Whether the name of a member comes before that of another one, by their bytes. -/
def NamedBefore (left right : String × Json) : Prop :=
  Utf8.encode left.1.toList < Utf8.encode right.1.toList

instance : Std.Irrefl NamedBefore :=
  ⟨fun _ => List.lt_irrefl _⟩

instance : Std.Antisymm NamedBefore :=
  ⟨fun _ _ hlt hgt => absurd hgt (List.lt_asymm hlt)⟩

/-- Whether members are the last one of each name of others, in the order of the bytes of their
names. -/
structure Kept (members kept : Members) : Prop where
  mem_iff : ∀ member, member ∈ kept ↔ ∃ before after, members = before ++ member :: after ∧
    ∀ later ∈ after, later.1 ≠ member.1
  sorted : kept.Pairwise NamedBefore

namespace Members

variable {members : Members} {name : String} {value : Json} {member : String × Json}

theorem mem_insert_iff (hsorted : Sorted members) :
    member ∈ insert name value members ↔
      member ∈ members ∨ member = (name, value) ∧ ∀ held ∈ members, held.1 ≠ name := by
  induction members with
  | nil => simp [insert]
  | cons held rest ih =>
      obtain ⟨other, kept⟩ := held
      obtain ⟨hhead, hrest⟩ := List.pairwise_cons.mp hsorted
      rw [insert, List.forall_mem_cons]
      split_ifs with hlt heq
      · have hnames : other ≠ name ∧ ∀ held ∈ rest, held.1 ≠ name :=
          ⟨hlt.ne', fun held hmem => (hlt.trans (hhead held hmem)).ne'⟩
        rw [List.mem_cons, or_comm, and_iff_left hnames]
      · rw [or_iff_left fun habsent => habsent.2.1 heq.symm]
      · rw [List.mem_cons, List.mem_cons, ih hrest, or_assoc, and_iff_right (Ne.symm heq)]

theorem exists_mem_ofList {members : List (String × Json)} (hmem : member ∈ members) :
    ∃ held ∈ ofList members, held.1 = member.1 := by
  induction members with
  | nil => exact absurd hmem List.not_mem_nil
  | cons first rest ih =>
      simp only [ofList, mem_insert_iff (sorted_ofList rest)]
      rcases List.mem_cons.mp hmem with rfl | hmem
      · by_cases habsent : ∀ held ∈ ofList rest, held.1 ≠ member.1
        · exact ⟨member, .inr ⟨rfl, habsent⟩, rfl⟩
        · push Not at habsent
          obtain ⟨held, hheld, hname⟩ := habsent
          exact ⟨held, .inl hheld, hname⟩
      · obtain ⟨held, hheld, hname⟩ := ih hmem
        exact ⟨held, .inl hheld, hname⟩

theorem mem_ofList_iff {members : List (String × Json)} :
    member ∈ ofList members ↔ ∃ before after, members = before ++ member :: after ∧
      ∀ later ∈ after, later.1 ≠ member.1 := by
  induction members with
  | nil => simp [ofList]
  | cons first rest ih =>
      have hnames : (∀ held ∈ ofList rest, held.1 ≠ first.1) ↔ ∀ held ∈ rest, held.1 ≠ first.1 := by
        constructor
        · intro habsent held hmem
          obtain ⟨kept, hkept, hname⟩ := exists_mem_ofList hmem
          exact hname ▸ habsent kept hkept
        · exact fun habsent held hmem => habsent held (mem_of_mem_ofList hmem)
      rw [ofList, mem_insert_iff (sorted_ofList rest), ih, hnames]
      constructor
      · rintro (⟨before, after, rfl, hafter⟩ | ⟨rfl, habsent⟩)
        · exact ⟨first :: before, after, rfl, hafter⟩
        · exact ⟨[], rest, rfl, habsent⟩
      · rintro ⟨before, after, hsplit, hafter⟩
        rcases List.cons_eq_append_iff.mp hsplit with ⟨rfl, hrest⟩ | ⟨before, rfl, rfl⟩
        · obtain ⟨rfl, rfl⟩ := List.cons.inj hrest
          exact .inr ⟨rfl, hafter⟩
        · exact .inl ⟨before, after, rfl, hafter⟩

theorem kept_ofList (members : List (String × Json)) : Kept members (ofList members) where
  mem_iff _ := mem_ofList_iff
  sorted := (sorted_ofList members).imp fun hlt =>
    Utf8.encode_lt_encode (String.lt_iff_toList_lt.mp hlt)

end Members

/-- **There is one list of the members that are kept.** -/
theorem Kept.eq_ofList {members kept : Members} (hkept : Kept members kept) :
    kept = Members.ofList members := by
  have hother := Members.kept_ofList members
  exact hkept.sorted.eq_of_mem_iff hother.sorted fun member =>
    (hkept.mem_iff member).trans (hother.mem_iff member).symm

/-- Where no name comes twice, every member is kept. -/
theorem Kept.perm {members kept : Members} (hkept : Kept members kept)
    (hnames : members.Pairwise fun left right => left.1 ≠ right.1) : kept.Perm members := by
  rw [hkept.eq_ofList]
  exact Members.perm_ofList hnames

end AuctionLog.Json
