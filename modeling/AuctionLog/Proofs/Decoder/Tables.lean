import AuctionLog.Proofs.Decoder.Yields
import AuctionLog.Proofs.Json.Table

/-!
# Records read from tables

The object of a table is read as a record entry by entry, in the order of the table: an entry that
is absent or undeclared leaves the record as it is, and any other one changes it as its field does.
-/

namespace AuctionLog

open Json

namespace Decoder

variable {ρ α : Type} {fields : List (Field ρ)}

/-- Whether the entries of a table, read one after another, make one record into another. The fields
listed in `seen` are those that no entry may be for. -/
inductive ReadAs (fields : List (Field ρ)) : List String → Table → ρ → ρ → Prop where
  | nil {seen : List String} (record : ρ) : ReadAs fields seen [] record record
  | absent {seen : List String} {name : String} {rest : Table} {record result : ρ}
      (hrest : ReadAs fields seen rest record result) :
      ReadAs fields seen ((name, none) :: rest) record result
  | undeclared {seen : List String} {name : String} {value : Json} {rest : Table}
      {record result : ρ} (hname : fields.find? (·.isNamed name) = none)
      (hrest : ReadAs fields seen rest record result) :
      ReadAs fields seen ((name, some value) :: rest) record result
  | declared {seen : List String} {name : String} {value : Json} {rest : Table} {record result : ρ}
      {field : Field ρ} {update : ρ → ρ} (hname : fields.find? (·.isNamed name) = some field)
      (hfresh : field.name ∉ seen) (hvalue : field.decoder.ofJson value = .ok update)
      (hrest : ReadAs fields (field.name :: seen) rest (update record) result) :
      ReadAs fields seen ((name, some value) :: rest) record result

variable {seen : List String} {name : String} {rest table : Table} {record result : ρ}

theorem ReadAs.mono {fewer : List String} (hread : ReadAs fields seen table record result)
    (hfewer : fewer ⊆ seen) : ReadAs fields fewer table record result := by
  induction hread generalizing fewer with
  | nil record => exact .nil record
  | absent _ ih => exact .absent (ih hfewer)
  | undeclared hname _ ih => exact .undeclared hname (ih hfewer)
  | declared hname hfresh hvalue _ ih =>
      exact .declared hname (fun hmem => hfresh (hfewer hmem)) hvalue
        (ih (List.cons_subset_cons _ hfewer))

/-- An entry that no field is for, whether it has a value or not. -/
theorem ReadAs.ignored {value : Option Json} (hname : fields.find? (·.isNamed name) = none)
    (hrest : ReadAs fields seen rest record result) :
    ReadAs fields seen ((name, value) :: rest) record result := by
  cases value with
  | none => exact .absent hrest
  | some value => exact .undeclared hname hrest

/-- An entry for a field that need not be given, of a value that is read back from what it is
written as. The field must not have been set before, so that it is as good as set to nothing. -/
theorem ReadAs.chosen {decoder : Decoder (Option α)} {set : ρ → Option α → ρ} {write : α → Json}
    {option : Option α} {field : Field ρ} (hname : fields.find? (·.isNamed name) = some field)
    (hfield : field.decoder = decoder.map fun value record => set record value)
    (hfresh : field.name ∉ seen) (hunset : set record none = record)
    (hvalue : ∀ value ∈ option, decoder.ofJson (write value) = .ok (some value))
    (hrest : ReadAs fields (field.name :: seen) rest (set record option) result) :
    ReadAs fields seen ((name, option.map write) :: rest) record result := by
  cases option with
  | none =>
      rw [hunset] at hrest
      exact .absent (hrest.mono (List.subset_cons_self _ _))
  | some value =>
      have hupdate : field.decoder.ofJson (write value) =
          .ok fun record => set record (some value) := by
        rw [hfield]
        simp only [map, refine, hvalue value rfl, bind, Except.bind]
      exact .declared hname hfresh hupdate hrest

/-- An entry for an optional field, of a value that is not written as null. -/
theorem ReadAs.optional {decoder : Decoder α} {set : ρ → Option α → ρ} {write : α → Json}
    {option : Option α} {field : Field ρ} (hname : fields.find? (·.isNamed name) = some field)
    (hfield : field.decoder = decoder.optional.map fun value record => set record value)
    (hfresh : field.name ∉ seen) (hunset : set record none = record)
    (hvalue : ∀ value ∈ option, write value ≠ .null ∧ decoder.ofJson (write value) = .ok value)
    (hrest : ReadAs fields (field.name :: seen) rest (set record option) result) :
    ReadAs fields seen ((name, option.map write) :: rest) record result := by
  refine .chosen hname hfield hfresh hunset (fun value hmem => ?_) hrest
  obtain ⟨hnull, hread⟩ := hvalue value hmem
  rw [optional_of_ne_null hnull, hread]
  rfl

theorem complete_of_optional (hnone : ∀ field ∈ fields, field.presence ≠ .required)
    (seen : List String) (record : ρ) : complete fields seen record = .ok record := by
  have hfind : (fields.find? fun field =>
      field.presence == .required && !seen.contains field.name) = none := by
    refine List.find?_eq_none.mpr fun field hmem hrequired => ?_
    rw [Bool.and_eq_true, beq_iff_eq] at hrequired
    exact hnone field hmem hrequired.1
  rw [complete, hfind]

/-- **The object of a table is read entry by entry.** -/
theorem ofMembers_of_readAs (hnone : ∀ field ∈ fields, field.presence ≠ .required)
    (hread : ReadAs fields seen table record result) :
    ofMembers fields seen record table.members = .ok result := by
  induction hread with
  | nil record => exact complete_of_optional hnone _ record
  | absent _ ih => exact ih
  | undeclared hname _ ih =>
      rw [Table.members_cons_some, ofMembers, fieldFor, hname]
      exact ih
  | declared hname hfresh hvalue _ ih =>
      have hcontains : ¬ List.contains _ _ = true := List.contains_iff_mem.not.mpr hfresh
      rw [Table.members_cons_some, ofMembers, fieldFor, hname]
      simp only [if_neg hcontains, hvalue, bind, Except.bind]
      exact ih

theorem list_of_items {decoder : Decoder α} {β : Type} {write : β → Json} {read : β → α}
    (hitem : ∀ item, decoder.ofJson (write item) = .ok (read item)) (items : List β) :
    decoder.list.ofJson (.arr (items.map write)) = .ok (items.map read) := by
  induction items with
  | nil => rfl
  | cons item rest ih =>
      simp only [list] at ih ⊢
      rw [List.map_cons, List.mapM_cons, hitem, ih]
      rfl

end Decoder

theorem text_of_str (value : String) :
    Json.str value ≠ .null ∧ Decoder.text.ofJson (.str value) = .ok value :=
  ⟨by simp, rfl⟩

theorem flag_of_bool (value : Bool) :
    Json.bool value ≠ .null ∧ Decoder.flag.ofJson (.bool value) = .ok value :=
  ⟨by simp, rfl⟩

theorem nat64_of_num (value : UInt64) :
    Json.num (.ofUInt64 value) ≠ .null ∧
      Decoder.nat64.ofJson (.num (.ofUInt64 value)) = .ok value := by
  refine ⟨by simp, ?_⟩
  simp [Decoder.nat64, Decoder.number, Number.ofUInt64]

end AuctionLog
