import AuctionLog.Json.Reader
import AuctionLog.Proofs.Json.Arranged
import AuctionLog.Proofs.Results

/-!
# What can be read

A value that was read with some levels nests no deeper than that and has its members in order. Such
values fit into each other level by level.
-/

namespace AuctionLog.Json

/-- Whether a value is one that can be read with that many levels. -/
def Fits (levels : Nat) (value : Json) : Prop :=
  value.arranged = value ∧ value.depth ≤ levels

variable {number : Bool → List UInt8 → Reading Number} {levels : Nat}

theorem fits_bool (value : Bool) : Fits levels (.bool value) := ⟨rfl, Nat.zero_le levels⟩

theorem fits_num (value : Number) : Fits levels (.num value) := ⟨rfl, Nat.zero_le levels⟩

theorem fits_str (value : String) : Fits levels (.str value) := ⟨rfl, Nat.zero_le levels⟩

theorem fits_arr_iff {items : List Json} :
    Fits (levels + 1) (.arr items) ↔ ∀ item ∈ items, Fits levels item := by
  rw [Fits, arranged_arr_iff, depth, Nat.add_le_add_iff_right, itemsDepth_le_iff]
  simp only [Fits, forall_and]

theorem fits_obj_iff {members : Members} :
    Fits (levels + 1) (.obj members) ↔
      Members.Sorted members ∧ ∀ member ∈ members, Fits levels member.2 := by
  rw [Fits, arranged_obj_iff, depth, Nat.add_le_add_iff_right, membersDepth_le_iff, and_assoc]
  simp only [Fits, forall_and]

theorem Fits.mono {value : Json} {more : Nat} (hfits : Fits levels value) (hle : levels ≤ more) :
    Fits more value :=
  ⟨hfits.1, hfits.2.trans hle⟩

/-! ## Reading -/

theorem forall_mem_of_readItems {α : Type} {P : α → Prop} {item : List UInt8 → Reading α}
    (hitem : ∀ input value rest, item input = .ok (value, rest) → P value) {most : Nat}
    {first : Bool} {input rest : List UInt8} {values : List α}
    (hread : readItems item most first input = .ok (values, rest)) : ∀ value ∈ values, P value := by
  induction most generalizing first input rest values with
  | zero => simp [readItems, stop] at hread
  | succ most ih =>
      rw [readItems, bind_eq_ok] at hread
      obtain ⟨⟨more, start⟩, -, hread⟩ := hread
      cases more with
      | false =>
          simp only [Except.ok.injEq, Prod.mk.injEq] at hread
          simp [← hread.1]
      | true =>
          simp only [bind_eq_ok] at hread
          obtain ⟨⟨value, middle⟩, hvalue, ⟨others, last⟩, hothers, hread⟩ := hread
          simp only [Except.ok.injEq, Prod.mk.injEq] at hread
          rw [← hread.1]
          exact List.forall_mem_cons.mpr ⟨hitem _ _ _ hvalue, ih hothers⟩

theorem forall_mem_of_readMembers {α : Type} {P : α → Prop} {item : List UInt8 → Reading α}
    (hitem : ∀ input value rest, item input = .ok (value, rest) → P value) {most : Nat}
    {first : Bool} {input rest : List UInt8} {members : List (String × α)}
    (hread : readMembers item most first input = .ok (members, rest)) :
    ∀ member ∈ members, P member.2 := by
  induction most generalizing first input rest members with
  | zero => simp [readMembers, stop] at hread
  | succ most ih =>
      rw [readMembers, bind_eq_ok] at hread
      obtain ⟨⟨more, start⟩, -, hread⟩ := hread
      cases more with
      | false =>
          simp only [Except.ok.injEq, Prod.mk.injEq] at hread
          simp [← hread.1]
      | true =>
          simp only [bind_eq_ok] at hread
          obtain ⟨⟨name, colon⟩, -, begun, -, ⟨value, middle⟩, hvalue, ⟨others, last⟩, hothers,
            hread⟩ := hread
          simp only [Except.ok.injEq, Prod.mk.injEq] at hread
          rw [← hread.1]
          exact List.forall_mem_cons.mpr ⟨hitem _ _ _ hvalue, ih hothers⟩

/-- What reading a value can come to: a scalar, or a list or an object whose parts were read with
one level less. -/
theorem readTree_cases {input rest : List UInt8} {value : Json}
    (hread : readTree number levels input = .ok (value, rest)) :
    value.depth = 0 ∨
      (∃ below most start items, levels = below + 1 ∧ value = .arr items ∧
        readItems (readTree number below) most true start = .ok (items, rest)) ∨
      (∃ below most start members, levels = below + 1 ∧ value = .obj members ∧
        readMembers (readTree number below) most true start = .ok (members, rest)) := by
  rw [readTree] at hread
  split at hread
  · simp [stop] at hread
  simp only at hread
  split_ifs at hread
  all_goals try (
    obtain ⟨_, -, hread⟩ := bind_eq_ok.mp hread
    obtain ⟨rfl, -⟩ := Prod.mk.inj (Except.ok.inj hread)
    exact .inl rfl)
  · cases levels with
    | zero => simp [stop] at hread
    | succ below =>
        obtain ⟨⟨items, last⟩, hitems, hread⟩ := bind_eq_ok.mp hread
        obtain ⟨rfl, rfl⟩ := Prod.mk.inj (Except.ok.inj hread)
        exact .inr (.inl ⟨below, _, _, items, rfl, rfl, hitems⟩)
  · cases levels with
    | zero => simp [stop] at hread
    | succ below =>
        obtain ⟨⟨members, last⟩, hmembers, hread⟩ := bind_eq_ok.mp hread
        obtain ⟨rfl, rfl⟩ := Prod.mk.inj (Except.ok.inj hread)
        exact .inr (.inr ⟨below, _, _, members, rfl, rfl, hmembers⟩)
  · simp [stop] at hread

theorem depth_le_of_readTree {input rest : List UInt8} {value : Json}
    (hread : readTree number levels input = .ok (value, rest)) : value.depth ≤ levels := by
  induction levels generalizing input rest value with
  | zero =>
      rcases readTree_cases hread with hscalar | ⟨_, _, _, _, hlevels, -⟩ | ⟨_, _, _, _, hlevels, -⟩
      · omega
      · omega
      · omega
  | succ levels ih =>
      rcases readTree_cases hread with hscalar | ⟨below, _, _, items, hlevels, rfl, hitems⟩ |
        ⟨below, _, _, members, hlevels, rfl, hmembers⟩
      · omega
      · obtain rfl := Nat.succ.inj hlevels
        rw [depth, Nat.add_le_add_iff_right, itemsDepth_le_iff]
        exact forall_mem_of_readItems (fun _ _ _ hitem => ih hitem) hitems
      · obtain rfl := Nat.succ.inj hlevels
        rw [depth, Nat.add_le_add_iff_right, membersDepth_le_iff]
        exact forall_mem_of_readMembers (fun _ _ _ hvalue => ih hvalue) hmembers

/-- **What a text denotes fits**: it is arranged, and no deeper than texts may nest. -/
theorem fits_of_parse {input : List UInt8} {value : Json} (hparse : parse input = .ok value) :
    Fits maxLevels value := by
  obtain ⟨⟨read, rest⟩, hread, hend⟩ := bind_eq_ok.mp hparse
  obtain ⟨⟨tree, last⟩, htree, hread⟩ := bind_eq_ok.mp hread
  obtain ⟨rfl, rfl⟩ := Prod.mk.inj (Except.ok.inj hread)
  have hvalue : tree.arranged = value := by
    simp only [readEnd] at hend
    split at hend
    · exact Except.ok.inj hend
    · simp [stop] at hend
  rw [← hvalue]
  exact ⟨arranged_arranged tree, (depth_arranged_le tree).trans (depth_le_of_readTree htree)⟩

end AuctionLog.Json
