import Mathlib.Data.List.Forall2
import Mathlib.Tactic.Common

/-!
# Results and faults

A computation of steps gives a result when each of its steps does, and else the fault of the first
step that has none.
-/

namespace AuctionLog

variable {ε α β : Type} {fault : ε}

theorem bind_eq_ok {first : Except ε α} {next : α → Except ε β} {result : β} :
    first >>= next = .ok result ↔ ∃ value, first = .ok value ∧ next value = .ok result := by
  cases first <;> simp [bind, Except.bind]

theorem bind_eq_error {first : Except ε α} {next : α → Except ε β} :
    first >>= next = .error fault ↔
      first = .error fault ∨ ∃ value, first = .ok value ∧ next value = .error fault := by
  cases first <;> simp [bind, Except.bind]

theorem exists_eq_error_iff {result : Except ε α} :
    (∃ fault, result = .error fault) ↔ ¬ ∃ value, result = .ok value := by
  cases result <;> simp

theorem map_eq_ok {first : Except ε α} {f : α → β} {result : β} :
    first.map f = .ok result ↔ ∃ value, first = .ok value ∧ f value = result := by
  cases first <;> simp [Except.map]

theorem map_eq_error {first : Except ε α} {f : α → β} :
    first.map f = .error fault ↔ first = .error fault := by
  cases first <;> simp [Except.map]

variable {read : α → Except ε β} {items : List α} {result : β} {results : List β}

/-- **Items are read all or none**, each on its own and in their order. -/
theorem mapM_eq_ok_iff :
    items.mapM read = .ok results ↔
      List.Forall₂ (fun item result => read item = .ok result) items results := by
  induction items generalizing results with
  | nil => simp [pure, Except.pure, eq_comm]
  | cons item rest ih =>
      rw [List.mapM_cons, bind_eq_ok, List.forall₂_cons_left_iff]
      simp only [bind_eq_ok, ih]
      constructor
      · rintro ⟨result, hresult, others, hothers, hresults⟩
        exact ⟨result, others, hresult, hothers, (Except.ok.inj hresults).symm⟩
      · rintro ⟨result, others, hresult, hothers, rfl⟩
        exact ⟨result, hresult, others, hothers, rfl⟩

theorem exists_item_of_mapM (hread : items.mapM read = .ok results) (hmem : result ∈ results) :
    ∃ item ∈ items, read item = .ok result := by
  have hitems := mapM_eq_ok_iff.mp hread
  clear hread
  induction hitems with
  | nil => exact absurd hmem List.not_mem_nil
  | cons hfirst _ ih =>
      rcases List.mem_cons.mp hmem with rfl | hmem
      · exact ⟨_, List.mem_cons_self .., hfirst⟩
      · obtain ⟨item, hitem, hresult⟩ := ih hmem
        exact ⟨item, List.mem_cons_of_mem _ hitem, hresult⟩

theorem exists_mapM_iff :
    (∃ results, items.mapM read = .ok results) ↔
      ∀ item ∈ items, ∃ result, read item = .ok result := by
  simp only [mapM_eq_ok_iff]
  induction items with
  | nil => simp
  | cons item rest ih =>
      simp only [List.forall₂_cons_left_iff, List.forall_mem_cons, ← ih]
      constructor
      · rintro ⟨_, result, others, hresult, hothers, rfl⟩
        exact ⟨⟨result, hresult⟩, others, hothers⟩
      · rintro ⟨⟨result, hresult⟩, others, hothers⟩
        exact ⟨_, result, others, hresult, hothers, rfl⟩

end AuctionLog
