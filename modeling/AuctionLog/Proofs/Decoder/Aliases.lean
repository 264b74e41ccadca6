import AuctionLog.Proofs.Decoder.Given

/-!
# Fields with several names

A field that has other names is read from a member with any of them. An object is thus read as the
one that has the first name of each field instead, by fields that have no other name, and no two of
its members may be for one field, under whichever names. To a list the names of fields are nothing.
-/

namespace AuctionLog

open Json

variable {ρ : Type}

def Field.unaliased (field : Field ρ) : Field ρ :=
  { field with aliases := [] }

theorem Field.unaliased_optional {α : Type} {name : String} {decoder : Decoder α}
    {set : ρ → Option α → ρ} :
    (Field.optional name decoder set).unaliased = .optional name decoder set :=
  rfl

theorem Field.unaliased_withAlias {field : Field ρ} {name : String} :
    (field.withAlias name).unaliased = field.unaliased :=
  rfl

namespace Decoder

variable {fields : List (Field ρ)} {field : Field ρ} {seen : List String} {name : String}
  {record result : ρ} {members : Members}

/-- The first name of the field that a name is for, or the name itself if it is for none. -/
def resolve (fields : List (Field ρ)) (name : String) : String :=
  ((fields.find? (·.isNamed name)).map (·.name)).getD name

def resolved (fields : List (Field ρ)) (members : Members) : Members :=
  members.map fun member => (resolve fields member.1, member.2)

theorem get?_resolved_of_iff {old : String}
    (hname : ∀ member ∈ members, resolve fields member.1 = name ↔ member.1 = old) :
    Members.get? (resolved fields members) name = Members.get? members old := by
  induction members with
  | nil => rfl
  | cons member rest ih =>
      obtain ⟨other, value⟩ := member
      obtain ⟨hhead, hrest⟩ := List.forall_mem_cons.mp hname
      rw [resolved, List.map_cons, ← resolved]
      by_cases heq : other = old
      · rw [hhead.mpr heq, heq, get?_cons_self, get?_cons_self]
      · have hne : resolve fields other ≠ name := hhead.not.mpr heq
        rw [get?_cons_of_ne hne.symm, get?_cons_of_ne (Ne.symm heq), ih hrest]

theorem find?_resolve_of_none (hfields : Independent (fields.map Field.unaliased))
    (hfind : fields.find? (·.isNamed name) = none) :
    (fields.map Field.unaliased).find? (·.isNamed (resolve fields name)) = none := by
  rw [resolve, hfind]
  refine hfields.find?_eq_none_iff.mpr (List.forall_mem_map.mpr fun field hmem => ?_)
  rintro rfl
  have hnamed : field.isNamed field.unaliased.name := by
    simp [Field.isNamed, Field.unaliased]
  exact List.find?_eq_none.mp hfind field hmem hnamed

theorem find?_resolve_of_some (hfields : Independent (fields.map Field.unaliased))
    (hfind : fields.find? (·.isNamed name) = some field) :
    (fields.map Field.unaliased).find? (·.isNamed (resolve fields name)) =
      some field.unaliased := by
  rw [resolve, hfind]
  exact hfields.find?_eq_some_iff.mpr ⟨List.mem_map_of_mem (List.mem_of_find?_eq_some hfind), rfl⟩

/-- **An object is read as if its members had the first names of their fields.** -/
theorem ofMembers_resolved (hfields : Independent (fields.map Field.unaliased)) :
    ofMembers fields seen record members =
      ofMembers (fields.map Field.unaliased) seen record (resolved fields members) := by
  induction members generalizing seen record with
  | nil =>
      have hnone : ∀ field ∈ fields, field.presence ≠ .required :=
        fun field hmem => hfields.unrequired field.unaliased (List.mem_map_of_mem hmem)
      exact (complete_of_optional hnone seen record).trans
        (complete_of_optional hfields.unrequired seen record).symm
  | cons member rest ih =>
      obtain ⟨name, value⟩ := member
      rw [resolved, List.map_cons, ← resolved, ofMembers, ofMembers, fieldFor, fieldFor]
      cases hfind : fields.find? (·.isNamed name) with
      | none =>
          rw [find?_resolve_of_none hfields hfind]
          exact ih
      | some field =>
          rw [find?_resolve_of_some hfields hfind]
          by_cases hseen : seen.contains field.name
          · simp only [Field.unaliased, hseen, if_true]
            rfl
          · simp only [Field.unaliased, hseen]
            change (field.decoder.ofJson value >>= fun update => _) =
              field.decoder.ofJson value >>= fun update => _
            congr 1
            funext update
            exact ih

theorem ofItems_unaliased {type : String} {size position : Nat} {items : List Json} :
    ofItems type size record position (fields.map Field.unaliased) items =
      ofItems type size record position fields items := by
  induction fields generalizing record position items with
  | nil => rfl
  | cons field fields ih =>
      cases items <;> simp only [List.map_cons, ofItems, ih] <;> rfl

/-! ## No field is given twice -/

theorem find?_ne_of_seen (hseen : field.name ∈ seen)
    (hread : ofMembers fields seen record members = .ok result) :
    ∀ member ∈ members, fields.find? (·.isNamed member.1) ≠ some field := by
  induction members generalizing seen record with
  | nil => exact List.forall_mem_nil _
  | cons member rest ih =>
      rw [List.forall_mem_cons]
      rcases ofMembers_cons_cases hread with
        ⟨hfind, hread⟩ | ⟨found, update, hfind, hfresh, -, hread⟩
      · rw [hfind]
        exact ⟨nofun, ih hseen hread⟩
      · rw [hfind]
        refine ⟨?_, ih (List.mem_cons_of_mem _ hseen) hread⟩
        rintro ⟨⟩
        exact hfresh hseen

/-- **No two members are for one field** in an object that is read. -/
theorem pairwise_of_ofMembers (hread : ofMembers fields seen record members = .ok result) :
    members.Pairwise fun left right => ∀ field, fields.find? (·.isNamed left.1) = some field →
      fields.find? (·.isNamed right.1) ≠ some field := by
  induction members generalizing seen record with
  | nil => exact .nil
  | cons member rest ih =>
      rw [List.pairwise_cons]
      rcases ofMembers_cons_cases hread with
        ⟨hfind, hread⟩ | ⟨found, update, hfind, -, -, hread⟩
      · refine ⟨fun other _ field hfield => ?_, ih hread⟩
        exact absurd (hfind.symm.trans hfield) nofun
      · refine ⟨fun other hother field hfield => ?_, ih hread⟩
        obtain rfl := Option.some.inj (hfind.symm.trans hfield)
        exact find?_ne_of_seen (List.mem_cons_self ..) hread other hother

theorem ne_ok_of_given_twice {left right : String × Json} (hleft : left ∈ members)
    (hright : right ∈ members) (hne : left ≠ right)
    (hleftName : fields.find? (·.isNamed left.1) = some field)
    (hrightName : fields.find? (·.isNamed right.1) = some field) :
    ofMembers fields seen record members ≠ .ok result := by
  intro hread
  have hsymm : Std.Symm fun left right : String × Json =>
      ∀ field, fields.find? (·.isNamed left.1) = some field →
        fields.find? (·.isNamed right.1) ≠ some field :=
    ⟨fun left right hdistinct field hright hleft => hdistinct field hleft hright⟩
  exact (pairwise_of_ofMembers hread).forall hleft hright hne field hleftName hrightName

end Decoder

end AuctionLog
