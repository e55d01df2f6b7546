import Mathlib.Data.Finset.Max
import Mathlib.Data.List.MinMax

/-!
# Modes

A mode of a list is a value that occurs most often in it. A list that is not empty has
one (`exists_isMode`), and `mode` finds the least. When values are only known through what
they are mapped to, a mode of the images need not be the image of a mode. It is when no
other value has the same image (`IsMode.of_map`).
-/

set_option autoImplicit false

namespace SenderAnalysis

variable {α β : Type*} [DecidableEq α] [DecidableEq β]

/-- A value that occurs, and no value occurs more often. -/
def IsMode (values : List α) (value : α) : Prop :=
  value ∈ values ∧ ∀ other ∈ values, values.count other ≤ values.count value

instance (values : List α) (value : α) : Decidable (IsMode values value) :=
  inferInstanceAs (Decidable (_ ∧ _))

theorem exists_isMode {values : List α} (nonempty : values ≠ []) :
    ∃ value, IsMode values value := by
  have some' : values.toFinset.Nonempty := by
    obtain ⟨value, mem⟩ := List.exists_mem_of_ne_nil values nonempty
    exact ⟨value, List.mem_toFinset.mpr mem⟩
  obtain ⟨value, mem, most⟩ :=
    Finset.exists_max_image values.toFinset (fun value => values.count value) some'
  exact ⟨value, List.mem_toFinset.mp mem, fun other there =>
    most other (List.mem_toFinset.mpr there)⟩

/-- A mode of the images is the image of a mode, when no other value has that image. -/
theorem IsMode.of_map {values : List β} {value : β} {image : β → α}
    (isMode : IsMode (values.map image) (image value)) (mem : value ∈ values)
    (alone : ∀ other ∈ values, image other = image value → other = value) :
    IsMode values value := by
  refine ⟨mem, ?_⟩
  intro other there
  have own : (values.map image).count (image value) = values.count value := by
    rw [List.count, List.count, List.countP_map]
    apply List.countP_congr
    intro this present
    simp only [Function.comp_apply, beq_iff_eq]
    exact ⟨alone this present, fun same => congrArg image same⟩
  calc values.count other
      ≤ (values.map image).count (image other) := List.count_le_count_map
    _ ≤ (values.map image).count (image value) :=
      isMode.2 _ (List.mem_map.mpr ⟨other, there, rfl⟩)
    _ = values.count value := own

/-- A mode by the numbers of times that values occur. -/
theorem isMode_iff_count {values : List α} {value : α} :
    IsMode values value ↔
      0 < values.count value ∧ ∀ other, values.count other ≤ values.count value := by
  rw [IsMode, List.count_pos_iff]
  refine and_congr_right fun _ => ⟨fun most other => ?_, fun most other _ => most other⟩
  by_cases there : other ∈ values
  · exact most other there
  · rw [List.count_eq_zero_of_not_mem there]
    exact Nat.zero_le _

/-- The least mode occurs more often than any smaller number, and not less often than any
larger one. -/
theorem isLeastMode_iff_count {values : List Nat} {value : Nat} :
    (IsMode values value ∧ ∀ other, IsMode values other → value ≤ other) ↔
      0 < values.count value ∧ (∀ smaller < value, values.count smaller < values.count value) ∧
        ∀ larger > value, values.count larger ≤ values.count value := by
  simp only [isMode_iff_count]
  constructor
  · rintro ⟨⟨occurs, most⟩, least⟩
    refine ⟨occurs, fun smaller less => ?_, fun larger _ => most larger⟩
    by_contra notLess
    -- A smaller number that occurs as often would be a mode too.
    have isMode : 0 < values.count smaller ∧
        ∀ other, values.count other ≤ values.count smaller := by
      refine ⟨by omega, fun other => ?_⟩
      have := most other
      omega
    exact absurd (least smaller isMode) (by omega)
  · rintro ⟨occurs, smaller, larger⟩
    refine ⟨⟨occurs, fun other => ?_⟩, fun other isMode => ?_⟩
    · rcases Nat.lt_trichotomy other value with less | rfl | more
      · exact (smaller other less).le
      · exact le_refl _
      · exact larger other more
    · by_contra less
      have := smaller other (by omega)
      have := isMode.2 value
      omega

/-- The least mode of a list of numbers. -/
def mode (values : List Nat) : Option Nat :=
  (values.filter fun value => IsMode values value).min?

theorem mode_eq_some_iff {values : List Nat} {value : Nat} :
    mode values = some value ↔
      IsMode values value ∧ ∀ other, IsMode values other → value ≤ other := by
  have mem : ∀ other, other ∈ values.filter (fun value => IsMode values value) ↔
      IsMode values other := by
    intro other
    rw [List.mem_filter, decide_eq_true_eq]
    exact ⟨And.right, fun isMode => ⟨isMode.1, isMode⟩⟩
  rw [mode, List.min?_eq_some_iff, mem]
  exact and_congr_right fun _ => forall_congr' fun other => imp_congr (mem other) Iff.rfl

theorem mode_eq_none_iff {values : List Nat} : mode values = none ↔ values = [] := by
  rw [mode, List.min?_eq_none_iff, List.filter_eq_nil_iff]
  constructor
  · intro none'
    by_contra nonempty
    obtain ⟨value, isMode⟩ := exists_isMode nonempty
    exact none' value isMode.1 (decide_eq_true isMode)
  · rintro rfl value mem
    cases mem

end SenderAnalysis
