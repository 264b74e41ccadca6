import AuctionLog.Proofs.Decoder.Tables
import Mathlib.Data.List.Pairwise

/-!
# Records by what is given for their fields

Where each field has one name of its own and no field undoes what another one does, a record depends
on nothing but the values that are given for its fields, and not on the order in which they come.
A list gives the values in the order of the fields, and so stands for the object that gives each
under its name. What cannot be read is reported of the first member that cannot be.
-/

namespace AuctionLog

open Json

variable {ρ : Type}

namespace Decoder

variable {α β : Type} {decoder : Decoder α} {f : α → β} {value : Json}

theorem map_eq_ok_iff {result : β} :
    (decoder.map f).ofJson value = .ok result ↔
      ∃ read, decoder.ofJson value = .ok read ∧ f read = result := by
  simp only [map, refine, bind_eq_ok, Except.ok.injEq]

theorem map_eq_error_iff {mismatch : Mismatch} :
    (decoder.map f).ofJson value = .error mismatch ↔ decoder.ofJson value = .error mismatch := by
  simp only [map, refine]
  cases decoder.ofJson value <;> simp [bind, Except.bind]

end Decoder

/-- Whether it makes no difference which of two fields is read first. -/
def Field.Commutes (first second : Field ρ) : Prop :=
  ∀ value other update change, first.decoder.ofJson value = .ok update →
    second.decoder.ofJson other = .ok change → ∀ record, update (change record) =
      change (update record)

/-- Fields that set different members commute, which is so by definition for those of a record. -/
@[simp]
theorem Field.commutes_of_apart {α β : Type} {name other : String} {aliases others : List String}
    {presence shown : Presence} {decoder : Decoder α} {another : Decoder β} {set : ρ → α → ρ}
    {put : ρ → β → ρ}
    (hapart : ∀ record value held, set (put record held) value = put (set record value) held) :
    Field.Commutes ⟨name, aliases, presence, decoder.map fun value record => set record value⟩
      ⟨other, others, shown, another.map fun held record => put record held⟩ := by
  intro value held update change hupdate hchange record
  obtain ⟨read, -, rfl⟩ := Decoder.map_eq_ok_iff.mp hupdate
  obtain ⟨told, -, rfl⟩ := Decoder.map_eq_ok_iff.mp hchange
  exact hapart record read told

/-- Fields that can be given in any order, and of which none has to be given. -/
structure Independent (fields : List (Field ρ)) : Prop where
  unaliased : ∀ field ∈ fields, field.aliases = []
  distinct : (fields.map (·.name)).Nodup
  unrequired : ∀ field ∈ fields, field.presence ≠ .required
  commutes : fields.Pairwise Field.Commutes

namespace Independent

variable {fields : List (Field ρ)} {field : Field ρ} {name : String}

theorem tail (hfields : Independent (field :: fields)) : Independent fields where
  unaliased := (List.forall_mem_cons.mp hfields.unaliased).2
  distinct := (List.nodup_cons.mp hfields.distinct).2
  unrequired := (List.forall_mem_cons.mp hfields.unrequired).2
  commutes := (List.pairwise_cons.mp hfields.commutes).2

theorem head_name_ne (hfields : Independent (field :: fields)) :
    ∀ other ∈ fields, other.name ≠ field.name := by
  intro other hmem heq
  have hnames := List.mem_map_of_mem (f := Field.name) hmem
  rw [heq] at hnames
  exact (List.nodup_cons.mp hfields.distinct).1 hnames

@[simp]
theorem nil : Independent ([] : List (Field ρ)) :=
  ⟨nofun, .nil, nofun, .nil⟩

/-- Fields are independent one by one: each has one name of its own, can be missing and commutes
with those after it. -/
@[simp]
theorem cons_iff :
    Independent (field :: fields) ↔ field.aliases = [] ∧ field.presence ≠ .required ∧
      (∀ other ∈ fields, other.name ≠ field.name) ∧ (∀ other ∈ fields, field.Commutes other) ∧
        Independent fields := by
  constructor
  · intro hfields
    have hself : field ∈ field :: fields := List.mem_cons_self ..
    exact ⟨hfields.unaliased _ hself, hfields.unrequired _ hself, hfields.head_name_ne,
      (List.pairwise_cons.mp hfields.commutes).1, hfields.tail⟩
  · rintro ⟨halias, hpresence, hnames, hcommutes, hfields⟩
    exact {
      unaliased := List.forall_mem_cons.mpr ⟨halias, hfields.unaliased⟩
      distinct := by
        rw [List.map_cons, List.nodup_cons, List.mem_map]
        refine ⟨?_, hfields.distinct⟩
        rintro ⟨other, hmem, hname⟩
        exact hnames other hmem hname
      unrequired := List.forall_mem_cons.mpr ⟨hpresence, hfields.unrequired⟩
      commutes := List.pairwise_cons.mpr ⟨hcommutes, hfields.commutes⟩ }

theorem isNamed_iff (hfields : Independent fields) (hmem : field ∈ fields) :
    field.isNamed name ↔ field.name = name := by
  rw [Field.isNamed, hfields.unaliased field hmem]
  simp

theorem find?_eq_none_iff (hfields : Independent fields) :
    fields.find? (·.isNamed name) = none ↔ ∀ field ∈ fields, field.name ≠ name := by
  rw [List.find?_eq_none]
  exact forall₂_congr fun field hmem => (hfields.isNamed_iff hmem).not

theorem find?_eq_some_iff (hfields : Independent fields) :
    fields.find? (·.isNamed name) = some field ↔ field ∈ fields ∧ field.name = name := by
  have hfound : ∀ {found}, fields.find? (·.isNamed name) = some found →
      found ∈ fields ∧ found.name = name := by
    intro found hfind
    have hmem := List.mem_of_find?_eq_some hfind
    have hnamed := List.find?_some hfind
    exact ⟨hmem, (hfields.isNamed_iff hmem).mp hnamed⟩
  constructor
  · exact hfound
  · rintro ⟨hmem, rfl⟩
    cases hfind : fields.find? (·.isNamed field.name) with
    | none => exact absurd rfl (hfields.find?_eq_none_iff.mp hfind field hmem)
    | some found =>
        obtain ⟨hother, hname⟩ := hfound hfind
        rw [List.inj_on_of_nodup_map hfields.distinct hother hmem hname]

end Independent

namespace Decoder

variable {fields : List (Field ρ)} {field : Field ρ} {given other : String → Option Json}
  {record result : ρ} {name : String} {value : Json} {members : Members} {mismatch : Mismatch}

/-- The record that what is given for its fields makes of another one, field by field in order. A
field for which nothing is given leaves the record as it is. -/
def fill (given : String → Option Json) : List (Field ρ) → ρ → Except Mismatch ρ
  | [], record => .ok record
  | field :: fields, record =>
      match given field.name with
      | none => fill given fields record
      | some value => do
          let update ← field.decoder.ofJson value
          fill given fields (update record)

theorem fill_nil : fill given [] record = .ok record :=
  rfl

theorem fill_cons_none (hnone : given field.name = none) :
    fill given (field :: fields) record = fill given fields record := by
  rw [fill, hnone]

theorem fill_cons_some (hsome : given field.name = some value) :
    fill given (field :: fields) record =
      field.decoder.ofJson value >>= fun update => fill given fields (update record) := by
  rw [fill, hsome]

/-- A field that is not set is as good as set to nothing, so that one step is the same for a member
that is given and one that is not. -/
theorem fill_cons_iff {α : Type} {decoder : Decoder (Option α)} {put : ρ → Option α → ρ}
    {Records : Option Json → Option α → Prop}
    (hfield : field.decoder = decoder.map fun told record => put record told)
    (hunset : put record none = record) (hnone : ∀ told, Records none told ↔ told = none)
    (hrecords : ∀ value ∈ given field.name, ∀ told,
      decoder.ofJson value = .ok told ↔ Records (some value) told) :
    fill given (field :: fields) record = .ok result ↔
      ∃ told, Records (given field.name) told ∧
        fill given fields (put record told) = .ok result := by
  cases hgiven : given field.name with
  | none =>
      simp only [fill_cons_none hgiven, hnone, exists_eq_left, hunset]
  | some value =>
      rw [fill_cons_some hgiven, bind_eq_ok, hfield]
      simp only [map_eq_ok_iff, hrecords value hgiven]
      constructor
      · rintro ⟨_, ⟨told, htold, rfl⟩, hfill⟩
        exact ⟨told, htold, hfill⟩
      · rintro ⟨told, htold, hfill⟩
        exact ⟨_, ⟨told, htold, rfl⟩, hfill⟩

theorem fill_congr (hsame : ∀ field ∈ fields, other field.name = given field.name) :
    fill other fields record = fill given fields record := by
  induction fields generalizing record with
  | nil => rfl
  | cons field fields ih =>
      obtain ⟨hhead, hrest⟩ := List.forall_mem_cons.mp hsame
      simp only [fill, hhead, ih hrest]

theorem fill_of_none (hnone : ∀ field ∈ fields, given field.name = none) :
    fill given fields record = .ok record := by
  induction fields with
  | nil => rfl
  | cons field fields ih =>
      obtain ⟨hhead, hrest⟩ := List.forall_mem_cons.mp hnone
      rw [fill_cons_none hhead, ih hrest]

theorem exists_fill_iff :
    (∃ result, fill given fields record = .ok result) ↔
      ∀ field ∈ fields, ∀ value ∈ given field.name,
        ∃ update, field.decoder.ofJson value = .ok update := by
  induction fields generalizing record with
  | nil => exact iff_of_true ⟨record, rfl⟩ (List.forall_mem_nil _)
  | cons field fields ih =>
      rw [List.forall_mem_cons]
      cases hgiven : given field.name with
      | none =>
          rw [fill_cons_none hgiven, ih]
          simp
      | some value =>
          rw [fill_cons_some hgiven]
          cases hread : field.decoder.ofJson value with
          | error mismatch => simp [hread, bind, Except.bind]
          | ok update =>
              have hrest := @ih (update record)
              simpa [hread, bind, Except.bind] using hrest

/-- A value that is given for one field more is as good as read before all others. -/
theorem fill_give {update : ρ → ρ} (hfields : Independent fields) (hmem : field ∈ fields)
    (hnone : given field.name = none) (hsome : other field.name = some value)
    (hsame : ∀ name, name ≠ field.name → other name = given name)
    (hread : field.decoder.ofJson value = .ok update) :
    fill other fields record = .ok result ↔ fill given fields (update record) = .ok result := by
  -- On the fields up to the one in question: each of those before it commutes with it.
  induction fields generalizing record with
  | nil => exact absurd hmem List.not_mem_nil
  | cons head fields ih =>
      have hnames := hfields.head_name_ne
      rcases List.mem_cons.mp hmem with rfl | hmem
      · have hrest : fill other fields (update record) = fill given fields (update record) :=
          fill_congr fun kept hkept => hsame _ (hnames kept hkept)
        rw [fill_cons_some hsome, fill_cons_none hnone, hread, ← hrest]
        rfl
      · have hhead := hsame head.name (Ne.symm (hnames field hmem))
        have hcommutes := (List.pairwise_cons.mp hfields.commutes).1 field hmem
        cases hgiven : given head.name with
        | none =>
            rw [fill_cons_none (hhead.trans hgiven), fill_cons_none hgiven]
            exact ih hfields.tail hmem
        | some held =>
            rw [fill_cons_some (hhead.trans hgiven), fill_cons_some hgiven]
            cases hheld : head.decoder.ofJson held with
            | error mismatch => exact Iff.rfl
            | ok change =>
                change fill other fields (change record) = _ ↔
                  fill given fields (change (update record)) = _
                rw [ih hfields.tail hmem, ← hcommutes held value change update hheld hread]

/-! ## From objects -/

theorem get?_cons_self : Members.get? ((name, value) :: members) name = some value := by
  rw [Members.get?, List.lookup_cons_self]

theorem get?_cons_of_ne {asked : String} (hname : asked ≠ name) :
    Members.get? ((name, value) :: members) asked = Members.get? members asked := by
  have hbeq : (asked == name) = false := beq_eq_false_iff_ne.mpr hname
  simp only [Members.get?, List.lookup_cons, hbeq]

theorem get?_eq_none (hname : ∀ member ∈ members, member.1 ≠ name) :
    Members.get? members name = none := by
  rw [Members.get?, List.lookup_eq_none_iff]
  intro member hmem
  exact bne_iff_ne.mpr (hname member hmem).symm

theorem ofMembers_cons_undeclared {seen : List String}
    (hfind : fields.find? (·.isNamed name) = none) :
    ofMembers fields seen record ((name, value) :: members) =
      ofMembers fields seen record members := by
  rw [ofMembers, fieldFor, hfind]
  rfl

theorem ofMembers_cons_declared {seen : List String}
    (hfind : fields.find? (·.isNamed name) = some field) (hfresh : field.name ∉ seen) :
    ofMembers fields seen record ((name, value) :: members) =
      field.decoder.ofJson value >>= fun update =>
        ofMembers fields (field.name :: seen) (update record) members := by
  have hcontains : ¬ seen.contains field.name = true := List.contains_iff_mem.not.mpr hfresh
  rw [ofMembers, fieldFor, hfind]
  simp only [if_neg hcontains]
  rfl

/-- A member that is read is passed over, or is the first one for its field. -/
theorem ofMembers_cons_cases {seen : List String}
    (hread : ofMembers fields seen record ((name, value) :: members) = .ok result) :
    (fields.find? (·.isNamed name) = none ∧ ofMembers fields seen record members = .ok result) ∨
      ∃ field update, fields.find? (·.isNamed name) = some field ∧ field.name ∉ seen ∧
        field.decoder.ofJson value = .ok update ∧
        ofMembers fields (field.name :: seen) (update record) members = .ok result := by
  cases hfind : fields.find? (·.isNamed name) with
  | none =>
      rw [ofMembers_cons_undeclared hfind] at hread
      exact .inl ⟨rfl, hread⟩
  | some field =>
      have hfresh : field.name ∉ seen := by
        intro hseen
        rw [ofMembers, fieldFor, hfind] at hread
        simp [hseen, bind, Except.bind] at hread
      rw [ofMembers_cons_declared hfind hfresh] at hread
      obtain ⟨update, hupdate, hread⟩ := bind_eq_ok.mp hread
      exact .inr ⟨field, update, rfl, hfresh, hupdate, hread⟩

/-- Whether members have names that differ from each other and from those that have been seen. -/
structure Unseen (seen : List String) (members : Members) : Prop where
  distinct : (members.map (·.1)).Nodup
  fresh : ∀ member ∈ members, member.1 ∉ seen

namespace Unseen

variable {seen : List String}

theorem start (hdistinct : (members.map (·.1)).Nodup) : Unseen [] members :=
  ⟨hdistinct, fun _ _ => List.not_mem_nil⟩

theorem head (hunseen : Unseen seen ((name, value) :: members)) : name ∉ seen :=
  (List.forall_mem_cons.mp hunseen.fresh).1

theorem tail (hunseen : Unseen seen ((name, value) :: members)) : Unseen seen members where
  distinct := (List.nodup_cons.mp hunseen.distinct).2
  fresh := (List.forall_mem_cons.mp hunseen.fresh).2

theorem name_ne (hunseen : Unseen seen ((name, value) :: members)) :
    ∀ member ∈ members, member.1 ≠ name := by
  intro member hmem heq
  have hnames : member.1 ∈ members.map (·.1) := List.mem_map_of_mem hmem
  rw [heq] at hnames
  exact (List.nodup_cons.mp hunseen.distinct).1 hnames

theorem next (hunseen : Unseen seen ((name, value) :: members)) :
    Unseen (name :: seen) members where
  distinct := hunseen.tail.distinct
  fresh := by
    intro member hmem hseen
    rcases List.mem_cons.mp hseen with heq | hseen
    · exact hunseen.name_ne member hmem heq
    · exact hunseen.tail.fresh member hmem hseen

end Unseen

/-- **Members are read as what they give for each field**, in whichever order they come. -/
theorem ofMembers_eq_ok_iff (hfields : Independent fields) {seen : List String}
    (hunseen : Unseen seen members) :
    ofMembers fields seen record members = .ok result ↔
      fill (Members.get? members) fields record = .ok result := by
  induction members generalizing seen record with
  | nil =>
      have hcomplete := complete_of_optional hfields.unrequired seen record
      rw [fill_of_none fun _ _ => rfl, ofMembers, hcomplete]
  | cons member rest ih =>
      obtain ⟨name, value⟩ := member
      cases hfind : fields.find? (·.isNamed name) with
      | none =>
          have hundeclared := hfields.find?_eq_none_iff.mp hfind
          rw [ofMembers_cons_undeclared hfind,
            fill_congr fun field hmem => get?_cons_of_ne (hundeclared field hmem)]
          exact ih hunseen.tail
      | some field =>
          obtain ⟨hmem, rfl⟩ := hfields.find?_eq_some_iff.mp hfind
          rw [ofMembers_cons_declared hfind hunseen.head]
          cases hread : field.decoder.ofJson value with
          | error mismatch =>
              have hstuck : ¬ ∃ result,
                  fill (Members.get? ((field.name, value) :: rest)) fields record = .ok result := by
                intro hfill
                obtain ⟨update, hupdate⟩ := exists_fill_iff.mp hfill field hmem value get?_cons_self
                simp [hread] at hupdate
              simp only [not_exists] at hstuck
              simp [hstuck, bind, Except.bind]
          | ok update =>
              -- The member that comes first need not be of the field that is filled first.
              rw [fill_give hfields hmem (get?_eq_none hunseen.name_ne) get?_cons_self
                (fun _ hname => get?_cons_of_ne hname) hread]
              exact ih hunseen.next

/-- What cannot be read is reported of the first member that cannot be. -/
theorem exists_first_of_ofMembers (hfields : Independent fields) {seen : List String}
    (hunseen : Unseen seen members)
    (hread : ofMembers fields seen record members = .error mismatch) :
    ∃ before value after field, members = before ++ (field.name, value) :: after ∧
      field ∈ fields ∧ field.decoder.ofJson value = .error mismatch ∧
      ∀ earlier ∈ before, ∀ field ∈ fields, field.name = earlier.1 →
        ∃ update, field.decoder.ofJson earlier.2 = .ok update := by
  induction members generalizing seen record with
  | nil => simp [ofMembers, complete_of_optional hfields.unrequired] at hread
  | cons member rest ih =>
      obtain ⟨name, value⟩ := member
      cases hfind : fields.find? (·.isNamed name) with
      | none =>
          have hundeclared := hfields.find?_eq_none_iff.mp hfind
          rw [ofMembers_cons_undeclared hfind] at hread
          obtain ⟨before, held, after, stuck, rfl, hstuck, hheld, hbefore⟩ := ih hunseen.tail hread
          refine ⟨(name, value) :: before, held, after, stuck, rfl, hstuck, hheld, ?_⟩
          refine List.forall_mem_cons.mpr ⟨?_, hbefore⟩
          intro field hmem heq
          exact absurd heq (hundeclared field hmem)
      | some field =>
          obtain ⟨hmem, rfl⟩ := hfields.find?_eq_some_iff.mp hfind
          rw [ofMembers_cons_declared hfind hunseen.head] at hread
          cases hvalue : field.decoder.ofJson value with
          | error reason =>
              rw [hvalue] at hread
              obtain rfl := Except.error.inj hread
              exact ⟨[], value, rest, field, rfl, hmem, hvalue, List.forall_mem_nil _⟩
          | ok update =>
              rw [hvalue] at hread
              obtain ⟨before, held, after, stuck, rfl, hstuck, hheld, hbefore⟩ :=
                ih hunseen.next hread
              refine ⟨(field.name, value) :: before, held, after, stuck, rfl, hstuck, hheld, ?_⟩
              refine List.forall_mem_cons.mpr ⟨?_, hbefore⟩
              intro twin htwin hsame
              obtain rfl := List.inj_on_of_nodup_map hfields.distinct htwin hmem hsame
              exact ⟨update, hvalue⟩

/-! ## From lists -/

variable {items : List Json}

/-- A list gives each field what is at its place. -/
theorem ofItems_eq_fill (hfields : Independent fields)
    (hlength : items.length = fields.length) (type : String) (size position : Nat) :
    ofItems type size record position fields items =
      fill (Members.get? ((fields.map (·.name)).zip items)) fields record := by
  induction fields generalizing position record items with
  | nil =>
      obtain rfl := List.length_eq_zero_iff.mp hlength
      rfl
  | cons field fields ih =>
      obtain ⟨item, items, rfl⟩ := List.exists_cons_of_length_eq_add_one hlength
      have hlength : items.length = fields.length := Nat.succ.inj hlength
      have hrest : ∀ record, fill (Members.get? ((field.name, item) ::
          (fields.map (·.name)).zip items)) fields record =
            fill (Members.get? ((fields.map (·.name)).zip items)) fields record := by
        intro record
        exact fill_congr fun other hmem => get?_cons_of_ne (hfields.head_name_ne other hmem)
      rw [ofItems, List.map_cons, List.zip_cons_cons, fill_cons_some get?_cons_self]
      congr 1
      funext update
      rw [ih hfields.tail hlength, hrest]

theorem length_le_of_ofItems {type : String} {size position : Nat}
    (hread : ofItems type size record position fields items = .ok result) :
    items.length ≤ fields.length := by
  induction fields generalizing position record items with
  | nil =>
      rw [ofItems] at hread
      split_ifs at hread with hempty
      rw [List.isEmpty_iff.mp hempty]
      exact Nat.le_refl _
  | cons field fields ih =>
      cases items with
      | nil => exact Nat.zero_le _
      | cons item items =>
          obtain ⟨update, -, hread⟩ := bind_eq_ok.mp hread
          exact Nat.succ_le_succ (ih hread)

theorem le_length_of_ofItems {type : String} {size position : Nat}
    (hlast : ∀ field ∈ fields.getLast?, field.presence ≠ .defaulted)
    (hread : ofItems type size record position fields items = .ok result) :
    fields.length ≤ items.length := by
  induction fields generalizing position record items with
  | nil => exact Nat.zero_le _
  | cons field fields ih =>
      cases items with
      | nil =>
          rw [ofItems] at hread
          split_ifs at hread with hdefaulted
          cases fields with
          | nil => exact absurd hdefaulted (hlast field rfl)
          | cons next fields => exact absurd (ih hlast hread) (Nat.not_succ_le_zero _)
      | cons item items =>
          obtain ⟨update, -, hread⟩ := bind_eq_ok.mp hread
          cases fields with
          | nil => exact Nat.succ_le_succ (Nat.zero_le _)
          | cons next fields => exact Nat.succ_le_succ (ih hlast hread)

/-- **A list is read as what it gives for each field**, provided that it has an item for every field
and no more. -/
theorem ofItems_eq_ok_iff (hfields : Independent fields)
    (hlast : ∀ field ∈ fields.getLast?, field.presence ≠ .defaulted) {type : String}
    {size position : Nat} :
    ofItems type size record position fields items = .ok result ↔
      items.length = fields.length ∧
        fill (Members.get? ((fields.map (·.name)).zip items)) fields record = .ok result := by
  constructor
  · intro hread
    have hlength : items.length = fields.length :=
      (length_le_of_ofItems hread).antisymm (le_length_of_ofItems hlast hread)
    exact ⟨hlength, ofItems_eq_fill hfields hlength type size position ▸ hread⟩
  · rintro ⟨hlength, hread⟩
    rwa [ofItems_eq_fill hfields hlength]

end Decoder

end AuctionLog
