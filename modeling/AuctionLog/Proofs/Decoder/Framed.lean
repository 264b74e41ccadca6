import AuctionLog.Proofs.Decoder.Given

/-!
# What one member does

Among members of different names, a member that is read changes the record by what it holds, and
does nothing else: whatever the other members come to, a record or a fault, is what they come to
without it. A member that cannot be read leaves no record, and where it is the only one its own
fault is reported.
-/

namespace AuctionLog

open Json

variable {ρ : Type} {fields : List (Field ρ)} {field : Field ρ} {update : ρ → ρ} {value : Json}

instance : Std.Symm (@Field.Commutes ρ) where
  symm _ _ hcommutes value other update change hupdate hchange record :=
    (hcommutes other value change update hchange hupdate record).symm

/-- Whether a change of a record can be made before or after any other field is read. -/
def Commuting (fields : List (Field ρ)) (name : String) (update : ρ → ρ) : Prop :=
  ∀ other ∈ fields, other.name ≠ name → ∀ held change, other.decoder.ofJson held = .ok change →
    ∀ record, update (change record) = change (update record)

theorem Independent.commuting (hfields : Independent fields) (hmem : field ∈ fields)
    (hread : field.decoder.ofJson value = .ok update) : Commuting fields field.name update := by
  intro other hother hname held change hchange
  have hne : field ≠ other := fun heq => hname (heq ▸ rfl)
  have hcommutes := hfields.commutes.forall hmem hother hne
  exact hcommutes value held update change hread hchange

namespace Decoder

variable {seen other : List String} {record result : ρ} {before after members : Members}
  {mismatch : Mismatch} {name : String}

/-- It makes no difference which names have been seen that do not come again. -/
theorem ofMembers_congr_seen (hfields : Independent fields) (hseen : Unseen seen members)
    (hother : Unseen other members) :
    ofMembers fields seen record members = ofMembers fields other record members := by
  induction members generalizing seen other record with
  | nil =>
      have hcomplete := complete_of_optional hfields.unrequired
      rw [ofMembers, ofMembers, hcomplete, hcomplete]
  | cons member rest ih =>
      obtain ⟨name, value⟩ := member
      cases hfind : fields.find? (·.isNamed name) with
      | none =>
          rw [ofMembers_cons_undeclared hfind, ofMembers_cons_undeclared hfind]
          exact ih hseen.tail hother.tail
      | some field =>
          obtain ⟨-, rfl⟩ := hfields.find?_eq_some_iff.mp hfind
          rw [ofMembers_cons_declared hfind hseen.head, ofMembers_cons_declared hfind hother.head]
          congr 1
          funext update
          exact ih hseen.next hother.next

/-- **A change that no member undoes can be made at the end**, on whatever the members come to. -/
theorem ofMembers_update (hfields : Independent fields) (hcommuting : Commuting fields name update)
    (hunseen : Unseen seen members) (hname : ∀ member ∈ members, member.1 ≠ name) :
    ofMembers fields seen (update record) members =
      (ofMembers fields seen record members).map update := by
  induction members generalizing seen record with
  | nil =>
      have hcomplete := complete_of_optional hfields.unrequired seen
      rw [ofMembers, ofMembers, hcomplete, hcomplete]
      rfl
  | cons member rest ih =>
      obtain ⟨key, value⟩ := member
      obtain ⟨hkey, hrest⟩ := List.forall_mem_cons.mp hname
      cases hfind : fields.find? (·.isNamed key) with
      | none =>
          rw [ofMembers_cons_undeclared hfind, ofMembers_cons_undeclared hfind]
          exact ih hunseen.tail hrest
      | some field =>
          obtain ⟨hmem, rfl⟩ := hfields.find?_eq_some_iff.mp hfind
          rw [ofMembers_cons_declared hfind hunseen.head,
            ofMembers_cons_declared hfind hunseen.head]
          cases hread : field.decoder.ofJson value with
          | error mismatch => rfl
          | ok change =>
              change ofMembers fields _ (change (update record)) rest =
                (ofMembers fields _ (change record) rest).map update
              rw [← hcommuting field hmem hkey value change hread]
              exact ih hunseen.next hrest

theorem Unseen.append_cons (hunseen : Unseen seen (before ++ (name, value) :: after)) :
    Unseen seen (before ++ after) := by
  have hsub : (before ++ after).Sublist (before ++ (name, value) :: after) :=
    (List.sublist_cons_self (name, value) after).append_left before
  exact ⟨hunseen.distinct.sublist (hsub.map _), fun member hmem => hunseen.fresh member
    (hsub.subset hmem)⟩

theorem Unseen.name_ne_of_append (hunseen : Unseen seen (before ++ (name, value) :: after)) :
    ∀ member ∈ before ++ after, member.1 ≠ name := by
  have hdistinct := hunseen.distinct
  rw [List.map_append, List.map_cons, List.nodup_middle, ← List.map_append] at hdistinct
  rintro member hmem rfl
  have hnames : member.1 ∈ (before ++ after).map (·.1) := List.mem_map_of_mem hmem
  exact (List.nodup_cons.mp hdistinct).1 hnames

/-- **A member that is read does what it says and nothing else**, wherever it stands. -/
theorem ofMembers_insert (hfields : Independent fields) (hmem : field ∈ fields)
    (hunseen : Unseen seen (before ++ (field.name, value) :: after))
    (hread : field.decoder.ofJson value = .ok update) :
    ofMembers fields seen record (before ++ (field.name, value) :: after) =
      (ofMembers fields seen record (before ++ after)).map update := by
  induction before generalizing seen record with
  | nil =>
      have hfind := hfields.find?_eq_some_iff.mpr ⟨hmem, rfl⟩
      rw [List.nil_append, ofMembers_cons_declared hfind hunseen.head, hread]
      change ofMembers fields (field.name :: seen) (update record) after = _
      rw [ofMembers_congr_seen hfields hunseen.next hunseen.tail]
      exact ofMembers_update hfields (hfields.commuting hmem hread) hunseen.tail hunseen.name_ne
  | cons member rest ih =>
      obtain ⟨name, held⟩ := member
      cases hfind : fields.find? (·.isNamed name) with
      | none =>
          rw [List.cons_append, List.cons_append, ofMembers_cons_undeclared hfind,
            ofMembers_cons_undeclared hfind]
          exact ih hunseen.tail
      | some other =>
          obtain ⟨-, rfl⟩ := hfields.find?_eq_some_iff.mp hfind
          rw [List.cons_append, List.cons_append, ofMembers_cons_declared hfind hunseen.head,
            ofMembers_cons_declared hfind hunseen.head]
          cases other.decoder.ofJson held with
          | error mismatch => rfl
          | ok change => exact ih hunseen.next

theorem ofJson_map {α β : Type} (decoder : Decoder α) (f : α → β) (value : Json) :
    (decoder.map f).ofJson value = (decoder.ofJson value).map f := by
  simp only [map, refine]
  cases decoder.ofJson value <;> rfl

/-- What cannot be read leaves no record. -/
theorem ofMembers_insert_ne_ok (hfields : Independent fields) (hmem : field ∈ fields)
    (hunseen : Unseen seen (before ++ (field.name, value) :: after))
    (hread : field.decoder.ofJson value = .error mismatch) :
    ofMembers fields seen record (before ++ (field.name, value) :: after) ≠ .ok result := by
  intro hresult
  have hfilled := (ofMembers_eq_ok_iff hfields hunseen).mp hresult
  have hgiven : Members.get? (before ++ (field.name, value) :: after) field.name = some value :=
    List.lookup_eq_some_iff.mpr ⟨before, after, rfl, ?_⟩
  · obtain ⟨update, hupdate⟩ := exists_fill_iff.mp ⟨result, hfilled⟩ field hmem value hgiven
    rw [hread] at hupdate
    exact absurd hupdate nofun
  · intro member hmember
    exact bne_iff_ne.mpr (hunseen.name_ne_of_append member (List.mem_append_left _ hmember)).symm

/-- The only member that cannot be read is the one that is complained of. -/
theorem ofMembers_insert_error (hfields : Independent fields) (hmem : field ∈ fields)
    (hunseen : Unseen seen (before ++ (field.name, value) :: after))
    (hread : field.decoder.ofJson value = .error mismatch)
    (hrest : ofMembers fields seen record (before ++ after) = .ok result) :
    ofMembers fields seen record (before ++ (field.name, value) :: after) = .error mismatch := by
  induction before generalizing seen record with
  | nil =>
      have hfind := hfields.find?_eq_some_iff.mpr ⟨hmem, rfl⟩
      rw [List.nil_append, ofMembers_cons_declared hfind hunseen.head, hread]
      rfl
  | cons member rest ih =>
      obtain ⟨name, held⟩ := member
      rw [List.cons_append] at hrest ⊢
      cases hfind : fields.find? (·.isNamed name) with
      | none =>
          rw [ofMembers_cons_undeclared hfind] at hrest ⊢
          exact ih hunseen.tail hrest
      | some other =>
          obtain ⟨-, rfl⟩ := hfields.find?_eq_some_iff.mp hfind
          rw [ofMembers_cons_declared hfind hunseen.head] at hrest ⊢
          obtain ⟨change, hchange, hrest⟩ := bind_eq_ok.mp hrest
          rw [hchange]
          exact ih hunseen.next hrest

end Decoder

end AuctionLog
