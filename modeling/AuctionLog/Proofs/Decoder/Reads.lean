import AuctionLog.Proofs.Decoder.Given

/-!
# What is given for optional values

An optional value is read from a member that need not be there: nothing and null stand for no value,
and any other one for what it means. A record of independent fields is read as what is given for
each of them, by name in an object and by place in a list, and a list as what its items are read as,
all of them or none.
-/

namespace AuctionLog

open Json

variable {α ρ : Type}

/-- Whether what is given stands for a value that need not be given. -/
inductive GivenAs (Means : Json → α → Prop) : Option Json → Option α → Prop where
  | absent : GivenAs Means none none
  | null : GivenAs Means (some .null) none
  | value {value : Json} {told : α} (hnull : value ≠ .null) (hmeans : Means value told) :
      GivenAs Means (some value) (some told)

/-- Whether a value is what something is written as. -/
def WrittenBy (write : α → Json) (value : Json) (told : α) : Prop :=
  value = write told

/-- The members that a value gives for fields of some names, in order. -/
inductive GivenIn (names : List String) : Json → Members → Prop where
  | object (members : Members) : GivenIn names (.obj members) members
  | list {items : List Json} (hlength : items.length = names.length) :
      GivenIn names (.arr items) (names.zip items)

/-- Whether a decoder reads the values that have a meaning, and each as what it means. -/
def Decoder.Reads (decoder : Decoder α) (Means : Json → α → Prop) : Prop :=
  ∀ value told, decoder.ofJson value = .ok told ↔ Means value told

namespace GivenAs

variable {β : Type} {Means : Json → α → Prop} {given : Option Json} {told : Option α}

theorem none_iff : GivenAs Means none told ↔ told = none :=
  ⟨fun hgiven => by cases hgiven; rfl, fun hnone => hnone ▸ .absent⟩

theorem map_iff {f : α → β} {result : Option β} :
    (∃ told, GivenAs Means given told ∧ told.map f = result) ↔
      GivenAs (fun value result => ∃ told, Means value told ∧ f told = result) given result := by
  constructor
  · rintro ⟨_, hgiven, rfl⟩
    cases hgiven with
    | absent => exact .absent
    | null => exact .null
    | value hnull hmeans => exact .value hnull ⟨_, hmeans, rfl⟩
  · intro hgiven
    cases hgiven with
    | absent => exact ⟨none, .absent, rfl⟩
    | null => exact ⟨none, .null, rfl⟩
    | value hnull hmeans =>
        obtain ⟨told, hmeans, rfl⟩ := hmeans
        exact ⟨some told, .value hnull hmeans, rfl⟩

theorem imp {Other : Json → α → Prop}
    (himp : ∀ value ∈ given, ∀ told, Means value told → Other value told)
    (hgiven : GivenAs Means given told) : GivenAs Other given told := by
  cases hgiven with
  | absent => exact .absent
  | null => exact .null
  | value hnull hmeans => exact .value hnull (himp _ rfl _ hmeans)

theorem congr {Other : Json → α → Prop}
    (hsame : ∀ value ∈ given, ∀ told, Means value told ↔ Other value told) :
    GivenAs Means given told ↔ GivenAs Other given told :=
  ⟨imp fun value hvalue told => (hsame value hvalue told).mp,
    imp fun value hvalue told => (hsame value hvalue told).mpr⟩

end GivenAs

namespace Decoder

variable {decoder : Decoder α} {Means : Json → α → Prop}

theorem reads_self : decoder.Reads fun value told => decoder.ofJson value = .ok told :=
  fun _ _ => Iff.rfl

theorem Reads.optional (hreads : decoder.Reads Means) {value : Json} {told : Option α} :
    decoder.optional.ofJson value = .ok told ↔ GivenAs Means (some value) told := by
  by_cases hnull : value = .null
  · subst hnull
    change Except.ok none = .ok told ↔ _
    rw [Except.ok.injEq]
    constructor
    · rintro rfl
      exact .null
    · intro hgiven
      cases hgiven with
      | null => rfl
      | value hnull => exact absurd rfl hnull
  · rw [optional_of_ne_null hnull, bind_eq_ok]
    simp only [hreads value, Except.ok.injEq]
    constructor
    · rintro ⟨read, hmeans, rfl⟩
      exact .value hnull hmeans
    · intro hgiven
      cases hgiven with
      | null => exact absurd rfl hnull
      | value _ hmeans => exact ⟨_, hmeans, rfl⟩

theorem Reads.fill_optional (hreads : decoder.Reads Means) {name : String}
    {put : ρ → Option α → ρ} {given : String → Option Json} {fields : List (Field ρ)}
    {record result : ρ} (hunset : put record none = record) :
    fill given (.optional name decoder put :: fields) record = .ok result ↔
      ∃ told, GivenAs Means (given name) told ∧ fill given fields (put record told) = .ok result :=
  fill_cons_iff rfl hunset (fun _ => GivenAs.none_iff) fun _ _ _ => hreads.optional

theorem reads_text : Decoder.text.Reads (WrittenBy .str) := by
  intro value told
  cases value <;> simp [text, wrongType, WrittenBy]

theorem reads_flag : Decoder.flag.Reads (WrittenBy .bool) := by
  intro value told
  cases value <;> simp [flag, wrongType, WrittenBy]

theorem reads_nat64 : Decoder.nat64.Reads (WrittenBy (.num <| .ofUInt64 ·)) := by
  intro value told
  constructor
  · intro hread
    cases value with
    | num number =>
        cases number with
        | int value lower upper =>
            simp only [nat64, number] at hread
            split_ifs at hread with hnonneg
            obtain rfl := Except.ok.inj hread
            have htoNat : ((UInt64.ofNat value.toNat).toNat : Int) = value := by
              rw [UInt64.toNat_ofNat_of_lt' (by rw [UInt64.size]; omega),
                Int.toNat_of_nonneg hnonneg]
            simp only [WrittenBy, Number.ofUInt64, htoNat]
        | double value => simp [nat64, number] at hread
    | _ => simp [nat64, number, wrongType] at hread
  · rintro rfl
    exact (nat64_of_num told).2

/-! ## Choices -/

section Choices

variable {choices : List (String × α)} {value : Json} {result : α}

theorem pick_eq_ok_iff {name : String} :
    pick choices name = .ok result ↔ choices.lookup name = some result := by
  rw [pick]
  cases choices.lookup name <;> simp

theorem choice_eq_ok_iff :
    (choice choices).ofJson value = .ok result ↔
      ∃ name, choices.lookup name = some result ∧
        (value = .str name ∨ value = .obj [(name, .null)]) := by
  constructor
  · intro hread
    cases value with
    | str name => exact ⟨name, pick_eq_ok_iff.mp hread, .inl rfl⟩
    | obj members =>
        match members, hread with
        | [], hread => exact absurd hread nofun
        | [(name, content)], hread =>
            obtain ⟨picked, hpicked, hread⟩ := bind_eq_ok.mp hread
            cases content with
            | null =>
                obtain rfl := Except.ok.inj hread
                exact ⟨name, pick_eq_ok_iff.mp hpicked, .inr rfl⟩
            | _ => exact absurd hread nofun
        | _ :: _ :: _, hread => exact absurd hread nofun
    | _ => exact absurd hread nofun
  · rintro ⟨name, hname, rfl | rfl⟩
    · exact pick_eq_ok_iff.mpr hname
    · exact bind_eq_ok.mpr ⟨result, pick_eq_ok_iff.mpr hname, rfl⟩
end Choices

/-! ## Records -/

variable {fields : List (Field ρ)} {empty result : ρ} {value : Json}

/-- **A record is read as what is given for its fields**, in an object or in a list that has an item
for each. -/
theorem record_eq_ok_iff (hfields : Independent fields)
    (hlast : ∀ field ∈ fields.getLast?, field.presence ≠ .defaulted) {type : String}
    (hdistinct : ∀ members, value = .obj members → (members.map (·.1)).Nodup) :
    (Decoder.record type fields empty).ofJson value = .ok result ↔
      ∃ members, GivenIn (fields.map (·.name)) value members ∧
        fill (Members.get? members) fields empty = .ok result := by
  cases value with
  | obj members =>
      have hunseen := Unseen.start (hdistinct members rfl)
      refine (ofMembers_eq_ok_iff hfields hunseen).trans ⟨fun hfill => ⟨_, .object _, hfill⟩, ?_⟩
      rintro ⟨_, ⟨⟩, hfill⟩
      exact hfill
  | arr items =>
      refine (ofItems_eq_ok_iff hfields hlast).trans ?_
      constructor
      · rintro ⟨hlength, hfill⟩
        exact ⟨_, .list (by simpa using hlength), hfill⟩
      · rintro ⟨_, hgiven, hfill⟩
        cases hgiven with
        | list hlength => exact ⟨by simpa using hlength, hfill⟩
  | null | bool | num | str =>
      refine iff_of_false (by simp [Decoder.record, wrongType]) ?_
      rintro ⟨_, ⟨⟩, -⟩

end Decoder

/-! ## Lists -/

theorem forall₂_congr_of_mem {α β : Type} {R S : α → β → Prop} {items : List α} {results : List β}
    (hsame : ∀ item ∈ items, ∀ result, R item result ↔ S item result) :
    List.Forall₂ R items results ↔ List.Forall₂ S items results := by
  induction items generalizing results with
  | nil => simp
  | cons item rest ih =>
      obtain ⟨hhead, hrest⟩ := List.forall_mem_cons.mp hsame
      simp only [List.forall₂_cons_left_iff, hhead, ih hrest]

theorem forall₂_map_iff {α β γ : Type} {R : α → β → Prop} {f : β → γ} {items : List α}
    {results : List γ} :
    (∃ read, List.Forall₂ R items read ∧ read.map f = results) ↔
      List.Forall₂ (fun item result => ∃ value, R item value ∧ f value = result) items results := by
  induction items generalizing results with
  | nil => simp [eq_comm]
  | cons item rest ih =>
      simp only [List.forall₂_cons_left_iff, ← ih]
      constructor
      · rintro ⟨_, ⟨value, others, hvalue, hothers, rfl⟩, rfl⟩
        exact ⟨f value, others.map f, ⟨value, hvalue, rfl⟩, ⟨others, hothers, rfl⟩, rfl⟩
      · rintro ⟨_, _, ⟨value, hvalue, rfl⟩, ⟨others, hothers, rfl⟩, rfl⟩
        exact ⟨value :: others, ⟨value, others, hvalue, hothers, rfl⟩, rfl⟩

/-- To change one item is to change one result. -/
theorem forall₂_set {α β : Type} {R : α → β → Prop} {items : List α} {results : List β}
    (hitems : List.Forall₂ R items results) {item : α} {result : β} (hresult : R item result)
    (index : Nat) : List.Forall₂ R (items.set index item) (results.set index result) := by
  induction hitems generalizing index with
  | nil => exact .nil
  | cons hhead hrest ih =>
      cases index with
      | zero => exact .cons hresult hrest
      | succ index => exact .cons hhead (ih index)

end AuctionLog
