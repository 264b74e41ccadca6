import AuctionLog.Proofs.Decoder.Yields
import AuctionLog.Proofs.Json.Declared

/-!
# What decoders ignore

A decoder ignores what a change does to values if it makes of the changed value what it makes of the
value itself, or refuses both for the same reason. Results that keep a part of the value as it is
cannot be equal then; they are related instead. A record ignores undeclared members, and whatever
its fields ignore in the values of the declared ones.
-/

namespace AuctionLog

open Json

/-- Whether two results agree: they fail for the same reason, or give related values. -/
inductive Agree {ε α β : Type} (R : α → β → Prop) : Except ε α → Except ε β → Prop where
  | error (reason : ε) : Agree R (.error reason) (.error reason)
  | ok {value : α} {other : β} (hrelated : R value other) : Agree R (.ok value) (.ok other)

namespace Agree

variable {ε α β γ δ : Type} {R : α → β → Prop} {S : γ → δ → Prop}

theorem bind {first : Except ε α} {other : Except ε β} {next : α → Except ε γ}
    {nextOther : β → Except ε δ} (hfirst : Agree R first other)
    (hnext : ∀ value result, R value result → Agree S (next value) (nextOther result)) :
    Agree S (first >>= next) (other >>= nextOther) := by
  cases hfirst with
  | error reason => exact .error reason
  | ok hrelated => exact hnext _ _ hrelated

theorem refl (result : Except ε α) : Agree (fun value other => other = value) result result := by
  cases result with
  | error reason => exact .error reason
  | ok value => exact .ok rfl

theorem eq {result other : Except ε α}
    (hagree : Agree (fun value other => other = value) result other) : other = result := by
  cases hagree with
  | error reason => rfl
  | ok hrelated => rw [hrelated]

end Agree

/-- Whether a decoder makes related results of a value and of the changed value. -/
def Decoder.Ignores {α : Type} (decoder : Decoder α) (change : Json → Json) (R : α → α → Prop) :
    Prop :=
  ∀ value, Agree R (decoder.ofJson value) (decoder.ofJson (change value))

/-- Whether a field changes related records to related records. -/
def Field.Ignores {ρ : Type} (field : Field ρ) (change : Json → Json) (R : ρ → ρ → Prop) : Prop :=
  field.decoder.Ignores change fun update other =>
    ∀ record trimmed, R record trimmed → R (update record) (other trimmed)

namespace Decoder

variable {α β ρ : Type} {decoder : Decoder α} {change : Json → Json} {R : α → α → Prop}
  {S : β → β → Prop}

abbrev IgnoresAll (decoder : Decoder α) (change : Json → Json) : Prop :=
  decoder.Ignores change fun value other => other = value

theorem ignores_id : decoder.IgnoresAll id :=
  fun value => .refl (decoder.ofJson value)

theorem ignores_json : Decoder.json.Ignores change fun value other => other = change value :=
  fun _ => .ok rfl

theorem Ignores.map {f : α → β} (hdecoder : decoder.Ignores change R)
    (hmap : ∀ value other, R value other → S (f value) (f other)) :
    (decoder.map f).Ignores change S :=
  fun value => (hdecoder value).bind fun read other hrelated => .ok (hmap read other hrelated)

theorem Ignores.optional (hdecoder : decoder.Ignores change R) (hnull : KeepsNull change) :
    decoder.optional.Ignores change (Option.Rel R) := by
  intro value
  by_cases hvalue : value = .null
  · have hchange : change value = .null := (hnull value).mpr hvalue
    rw [hchange, hvalue]
    exact .ok .none
  · have hchange : change value ≠ .null := (hnull value).not.mpr hvalue
    rw [optional_of_ne_null hvalue, optional_of_ne_null hchange]
    exact (hdecoder value).bind fun read other hrelated => .ok (.some hrelated)

theorem Ignores.list (hdecoder : decoder.IgnoresAll change) :
    decoder.list.IgnoresAll (onItems change) := by
  intro value
  cases value with
  | arr items =>
      have hitems : decoder.list.ofJson (.arr (items.map change)) =
          decoder.list.ofJson (.arr items) := by
        change (items.map change).mapM decoder.ofJson = items.mapM decoder.ofJson
        rw [List.mapM_map]
        congr 1
        funext item
        exact (hdecoder item).eq
      rw [onItems, hitems]
      exact .refl _
  | _ => exact .refl _

end Decoder

namespace Field

variable {α ρ : Type} {name : String} {decoder : Decoder α} {change : Json → Json}
  {Q : α → α → Prop} {R : ρ → ρ → Prop}

theorem Ignores.optional {set : ρ → Option α → ρ} (hdecoder : decoder.Ignores change Q)
    (hnull : KeepsNull change)
    (hset : ∀ option other, Option.Rel Q option other → ∀ record trimmed, R record trimmed →
      R (set record option) (set trimmed other)) :
    (Field.optional name decoder set).Ignores change R :=
  (hdecoder.optional hnull).map hset

theorem eq_map_of_rel {option other : Option Json}
    (hrel : Option.Rel (fun value other => other = change value) option other) :
    other = option.map change := by
  cases hrel with
  | none => rfl
  | some hrelated => rw [hrelated, Option.map_some]

/-- A field that keeps a value as it is keeps the changed one. -/
theorem Ignores.optional_json {set : ρ → Option Json → ρ} (hnull : KeepsNull change)
    (hset : ∀ option record trimmed, R record trimmed →
      R (set record option) (set trimmed (option.map change))) :
    (Field.optional name .json set).Ignores change R := by
  apply Ignores.optional Decoder.ignores_json hnull
  intro option other hrel record trimmed hrelated
  rw [eq_map_of_rel hrel]
  exact hset option record trimmed hrelated

theorem Ignores.optional_same {set : ρ → Option α → ρ} (hdecoder : decoder.IgnoresAll change)
    (hnull : KeepsNull change)
    (hset : ∀ option record trimmed, R record trimmed →
      R (set record option) (set trimmed option)) :
    (Field.optional name decoder set).Ignores change R := by
  apply Ignores.optional hdecoder hnull
  intro option other hrel record trimmed hrelated
  have heq : other = option := by
    cases hrel with
    | none => rfl
    | some hvalue => rw [hvalue]
  rw [heq]
  exact hset option record trimmed hrelated

theorem Ignores.defaulted {set : ρ → α → ρ} (hdecoder : decoder.Ignores change Q)
    (hset : ∀ value other, Q value other → ∀ record trimmed, R record trimmed →
      R (set record value) (set trimmed other)) :
    (Field.defaulted name decoder set).Ignores change R :=
  hdecoder.map hset

end Field

/-- Whether members are declared for the fields of a record, in order: under the same names, and
with changes to their values that the fields ignore. -/
def Declares {ρ : Type} (R : ρ → ρ → Prop) (fields : List (Field ρ)) (declared : Declared) : Prop :=
  List.Forall₂ (fun field entry => entry.1 = field.name :: field.aliases ∧
    field.Ignores entry.2 R) fields declared

namespace Decoder

variable {ρ : Type} {R : ρ → ρ → Prop} {fields : List (Field ρ)} {declared : Declared}

theorem Declares.find_cases (hdeclares : Declares R fields declared) (name : String) :
    (fields.find? (·.isNamed name) = none ∧ declared.find? name = none) ∨
      ∃ field inner, fields.find? (·.isNamed name) = some field ∧
        declared.find? name = some inner ∧ field.Ignores inner R := by
  induction hdeclares with
  | nil => exact .inl ⟨rfl, rfl⟩
  | @cons field entry fields declared hentry _ ih =>
      obtain ⟨names, inner⟩ := entry
      obtain ⟨rfl, hignores⟩ := hentry
      have hnamed : (field.name :: field.aliases).contains name = field.isNamed name := by
        rw [List.contains_cons, Field.isNamed, Bool.beq_comm]
      simp only [Declared.find?, List.find?_cons, hnamed] at ih ⊢
      by_cases hname : field.isNamed name
      · simp only [hname]
        exact .inr ⟨field, inner, rfl, rfl, hignores⟩
      · simp only [hname]
        exact ih

theorem complete_agree {record trimmed : ρ} (hrelated : R record trimmed) (seen : List String) :
    Agree R (complete fields seen record) (complete fields seen trimmed) := by
  unfold complete
  split
  · exact .ok hrelated
  · exact .error _

theorem ofMembers_agree (hdeclares : Declares R fields declared) {seen : List String}
    {record trimmed : ρ} (hrelated : R record trimmed) (members : Members) :
    Agree R (ofMembers fields seen record members)
      (ofMembers fields seen trimmed (declared.dropMembers members)) := by
  induction members generalizing seen record trimmed with
  | nil => exact complete_agree hrelated seen
  | cons member rest ih =>
      obtain ⟨name, value⟩ := member
      -- An undeclared member is passed over on one side and is not there on the other.
      rw [ofMembers, Declared.dropMembers, fieldFor]
      rcases Declares.find_cases hdeclares name with
        ⟨hfield, hfind⟩ | ⟨field, inner, hfield, hfind, hignores⟩
      · rw [hfield, hfind]
        exact ih hrelated
      · rw [hfield, hfind]
        simp only
        rw [ofMembers, fieldFor, hfield]
        by_cases hseen : seen.contains field.name
        · simp only [hseen, if_true]
          exact .error _
        · simp only [hseen]
          apply (hignores value).bind
          intro update other hupdate
          exact ih (hupdate record trimmed hrelated)

theorem ofItems_agree (hdeclares : Declares R fields declared) (name : String) (size position : Nat)
    {record trimmed : ρ} (hrelated : R record trimmed) (items : List Json) :
    Agree R (ofItems name size record position fields items)
      (ofItems name size trimmed position fields (declared.dropItems items)) := by
  induction hdeclares generalizing position record trimmed items with
  | nil =>
      rw [Declared.dropItems, ofItems, ofItems]
      split
      · exact .ok hrelated
      · exact .error _
  | @cons field entry fields declared hentry _ ih =>
      obtain ⟨names, inner⟩ := entry
      cases items with
      | nil =>
          have hrest := ih (position + 1) hrelated []
          rw [Declared.dropItems_nil] at hrest
          rw [Declared.dropItems, ofItems, ofItems]
          split
          · exact hrest
          · exact .error _
      | cons item items =>
          rw [Declared.dropItems, ofItems, ofItems]
          apply (hentry.2 item).bind
          intro update other hupdate
          exact ih _ (hupdate record trimmed hrelated) items

/-- **A record ignores what it does not declare.** -/
theorem ignores_record {name : String} {empty : ρ} (hdeclares : Declares R fields declared)
    (hempty : R empty empty) :
    (Decoder.record name fields empty).Ignores (declaredOf declared) R := by
  intro value
  cases value with
  | obj members => exact ofMembers_agree hdeclares hempty members
  | arr items => exact ofItems_agree hdeclares name fields.length 0 hempty items
  | _ => exact .error _

end Decoder

end AuctionLog
