import Mathlib.Data.List.Forall2

/-!
# Maps that can fail

A loop over a list that collects one result for every item and stops at the first failure.
It succeeds exactly with the results of all items (`mapM_eq_ok`), and it fails with the
failure of the first item that has one (`mapM_eq_error`). Where a failure says nothing, the
loop has results exactly when every item has one (`isSome_mapM_iff`).
-/

set_option autoImplicit false

namespace SenderAnalysis

variable {ε α β : Type*}

/-- Lists that are related item by item are related at every position. -/
theorem forall₂_iff_getElem? {R : α → β → Prop} {items : List α} {results : List β} :
    List.Forall₂ R items results ↔ items.length = results.length ∧
      ∀ (idx : Nat) item result, items[idx]? = some item → results[idx]? = some result →
        R item result := by
  rw [List.forall₂_iff_get]
  refine and_congr_right fun _ => ⟨fun each idx item result there here => ?_,
    fun each idx inside within => each idx _ _ (List.getElem?_eq_getElem inside)
      (List.getElem?_eq_getElem within)⟩
  obtain ⟨inside, rfl⟩ := List.getElem?_eq_some_iff.mp there
  obtain ⟨within, rfl⟩ := List.getElem?_eq_some_iff.mp here
  exact each idx inside within

theorem mapM_cons_eq_ok (f : α → Except ε β) (item : α) (rest : List α) (results : List β) :
    (item :: rest).mapM f = .ok results ↔
      ∃ first others, f item = .ok first ∧ rest.mapM f = .ok others ∧
        results = first :: others := by
  rw [List.mapM_cons]
  cases f item with
  | error failure => simp [bind, Except.bind]
  | ok first =>
    cases rest.mapM f <;> simp [bind, Except.bind, pure, Except.pure, eq_comm]

theorem mapM_eq_ok (f : α → Except ε β) (items : List α) (results : List β) :
    items.mapM f = .ok results ↔
      List.Forall₂ (fun item result => f item = .ok result) items results := by
  induction items generalizing results with
  | nil => cases results <;> simp [pure, Except.pure]
  | cons item rest ih =>
    rw [mapM_cons_eq_ok]
    cases results with
    | nil => simp
    | cons result others =>
      rw [List.forall₂_cons, ← ih]
      constructor
      · rintro ⟨first, others', found, more, same⟩
        obtain ⟨rfl, rfl⟩ := List.cons.inj same
        exact ⟨found, more⟩
      · rintro ⟨found, more⟩
        exact ⟨result, others, found, more, rfl⟩

/-- The first item that fails ends the loop, with its failure. -/
theorem mapM_eq_error (f : α → Except ε β) (items : List α) (failure : ε) :
    items.mapM f = .error failure ↔
      ∃ before item after, items = before ++ item :: after ∧
        (∀ earlier ∈ before, ∃ result, f earlier = .ok result) ∧ f item = .error failure := by
  induction items with
  | nil => simp [pure, Except.pure]
  | cons item rest ih =>
    rw [List.mapM_cons]
    cases own : f item with
    | error first =>
      simp only [bind, Except.bind, Except.error.injEq]
      constructor
      · rintro rfl
        exact ⟨[], item, rest, rfl, by simp, own⟩
      · rintro ⟨before, culprit, after, split, fine, fails⟩
        cases before with
        | nil =>
          obtain ⟨rfl, rfl⟩ := List.cons.inj split
          exact Except.error.inj (own.symm.trans fails)
        | cons head tail =>
          obtain ⟨rfl, rfl⟩ := List.cons.inj split
          obtain ⟨result, succeeded⟩ := fine item (List.mem_cons_self ..)
          cases own.symm.trans succeeded
    | ok result =>
      have passes : (do let others ← rest.mapM f; pure (result :: others) : Except ε (List β)) =
          .error failure ↔ rest.mapM f = .error failure := by
        cases rest.mapM f <;> simp [bind, Except.bind, pure, Except.pure]
      refine passes.trans (ih.trans ⟨?_, ?_⟩)
      · rintro ⟨before, culprit, after, rfl, fine, fails⟩
        refine ⟨item :: before, culprit, after, rfl, ?_, fails⟩
        intro earlier member
        rcases List.mem_cons.mp member with rfl | later
        · exact ⟨result, own⟩
        · exact fine earlier later
      · rintro ⟨before, culprit, after, split, fine, fails⟩
        cases before with
        | nil =>
          obtain ⟨rfl, rfl⟩ := List.cons.inj split
          cases own.symm.trans fails
        | cons head tail =>
          obtain ⟨rfl, rfl⟩ := List.cons.inj split
          exact ⟨tail, culprit, after, rfl,
            fun earlier member => fine earlier (List.mem_cons_of_mem _ member), fails⟩

/-! ## Maps that may have no result -/

section OptionMaps

variable {f : α → Option β} {items : List α}

/-- The loop ends exactly when every item has a result. -/
theorem isSome_mapM_iff : (items.mapM f).isSome ↔ ∀ item ∈ items, (f item).isSome := by
  induction items with
  | nil => simp
  | cons first rest ih =>
    rw [List.mapM_cons, List.forall_mem_cons, ← ih]
    cases f first with
    | none => simp
    | some result => cases rest.mapM f <;> simp

/-- What the loop collects are the results of its items. -/
theorem mem_of_mapM_eq_some {results : List β} (collected : items.mapM f = some results)
    {result : β} : result ∈ results ↔ ∃ item ∈ items, f item = some result := by
  induction items generalizing results with
  | nil =>
    cases collected
    simp
  | cons first rest ih =>
    rw [List.mapM_cons] at collected
    obtain ⟨head, found, collected⟩ := Option.bind_eq_some_iff.mp collected
    obtain ⟨tail, others, same⟩ := Option.bind_eq_some_iff.mp collected
    cases same
    rw [List.mem_cons, ih others, List.exists_mem_cons_iff, found, Option.some.injEq]
    exact or_congr_left eq_comm

end OptionMaps

end SenderAnalysis
