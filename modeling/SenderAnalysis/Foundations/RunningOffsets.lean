import Mathlib.Algebra.Ring.Nat
import Mathlib.Data.Set.Basic
import SenderAnalysis.Foundations.Runs
import SenderAnalysis.Foundations.Traces

/-!
# Running offsets

Items arrive in batches, and a component numbers them by a running offset: the items
of a batch get the offset and the numbers after it, and the offset moves past the
batch. The offset is the true position of the next item only as long as every batch
is counted and the offset is not forgotten. A batch that was not counted, or that
was counted before the offset was forgotten, is lost (`Lost`), and from there on the
numbers are too small (`offset_eq_position_iff`).

Offsets are kept for every key of a table, as 32-bit numbers. A `Numbering` is a
component that does so, and `Numbering.aligned_iff` says which of its steps give every
item its position.
-/

set_option autoImplicit false

namespace SenderAnalysis

/-- What one step means for the offset of one key: the number of items that were due,
whether the offset moves past them, and whether it is forgotten afterwards. -/
structure Delivery where
  length : Nat
  counted : Bool
  forgotten : Bool
deriving DecidableEq, Repr

/-- A step that does not concern the key. -/
def Delivery.idle : Delivery := ⟨0, false, false⟩

/-- By how many items the offset moves. -/
def Delivery.advance (delivery : Delivery) : Nat := if delivery.counted then delivery.length else 0

/-- The offset after a list of deliveries. -/
def offset : List Delivery → Nat :=
  List.foldl (fun sum delivery =>
    if delivery.forgotten then 0 else sum + delivery.advance) 0

/-- The number of items due in a list of deliveries: the true position of the next. -/
def position (deliveries : List Delivery) : Nat := (deliveries.map Delivery.length).sum

/-- Some items are missing from the offset: they were not counted, or were counted
before the offset was forgotten. -/
def Lost (deliveries : List Delivery) : Prop :=
  ∃ before delivery after, deliveries = before ++ delivery :: after ∧ 0 < delivery.length ∧
    (delivery.counted = false ∨ ∃ later ∈ delivery :: after, later.forgotten = true)

/-! ## The offset and the position -/

theorem offset_concat (past : List Delivery) (delivery : Delivery) :
    offset (past ++ [delivery]) =
      if delivery.forgotten then 0 else offset past + delivery.advance :=
  List.foldl_concat _ _ _ _

theorem position_concat (past : List Delivery) (delivery : Delivery) :
    position (past ++ [delivery]) = position past + delivery.length := by
  simp [position]

theorem advance_le (delivery : Delivery) : delivery.advance ≤ delivery.length := by
  rw [Delivery.advance]
  split <;> omega

theorem offset_le_position (deliveries : List Delivery) :
    offset deliveries ≤ position deliveries := by
  induction deliveries using List.reverseRecOn with
  | nil => exact Nat.le_refl _
  | append_singleton past delivery ih =>
    have moved := advance_le delivery
    rw [offset_concat, position_concat]
    split <;> omega

theorem position_pos_iff {deliveries : List Delivery} :
    0 < position deliveries ↔ ∃ delivery ∈ deliveries, 0 < delivery.length := by
  induction deliveries with
  | nil => simp [position]
  | cons first rest ih =>
    have split : position (first :: rest) = first.length + position rest := by simp [position]
    rw [split, List.exists_mem_cons_iff, ← ih]
    omega

/-- One delivery more loses its own items, or all that came before. -/
theorem lost_concat {past : List Delivery} {delivery : Delivery} :
    Lost (past ++ [delivery]) ↔
      Lost past ∨ (0 < delivery.length ∧ delivery.counted = false) ∨
        (delivery.forgotten = true ∧ 0 < position (past ++ [delivery])) := by
  constructor
  · rintro ⟨before, lost, after, split, some, gone⟩
    rcases concat_eq_split split with ⟨rfl, rfl⟩ | ⟨rest, earlier⟩
    · obtain rfl : after = [] := by simpa using split
      rcases gone with uncounted | ⟨later, same, forgotten⟩
      · exact .inr (.inl ⟨some, uncounted⟩)
      · obtain rfl := List.mem_singleton.mp same
        exact .inr (.inr ⟨forgotten, by rw [position_concat]; omega⟩)
    · obtain rfl : after = rest ++ [delivery] := by
        rw [earlier] at split
        simpa using split.symm
      rcases gone with uncounted | ⟨later, member, forgotten⟩
      · exact .inl ⟨before, lost, rest, earlier, some, .inl uncounted⟩
      · rw [← List.cons_append, List.mem_append, List.mem_singleton] at member
        rcases member with old | rfl
        · exact .inl ⟨before, lost, rest, earlier, some, .inr ⟨later, old, forgotten⟩⟩
        · refine .inr (.inr ⟨forgotten, position_pos_iff.mpr ⟨lost, ?_, some⟩⟩)
          simp [earlier]
  · rintro (⟨before, lost, after, rfl, some, gone⟩ | ⟨some, uncounted⟩ | ⟨forgotten, due⟩)
    · refine ⟨before, lost, after ++ [delivery], by simp, some, gone.imp_right ?_⟩
      rintro ⟨later, member, forgotten⟩
      exact ⟨later, by rw [← List.cons_append]; exact List.mem_append_left _ member, forgotten⟩
    · exact ⟨past, delivery, [], rfl, some, .inl uncounted⟩
    · obtain ⟨lost, member, some⟩ := position_pos_iff.mp due
      obtain ⟨before, after, split⟩ := List.append_of_mem member
      refine ⟨before, lost, after, split, some, .inr ⟨delivery, ?_, forgotten⟩⟩
      rcases List.eq_nil_or_concat after with rfl | ⟨rest, final, rfl⟩
      · have same := (List.append_inj' split rfl).2
        simpa using same
      · have regrouped : past ++ [delivery] = (before ++ lost :: rest) ++ [final] := by
          simpa using split
        have same := (List.append_inj' regrouped rfl).2
        rw [List.singleton_inj.mp same]
        simp

/-- **The offset is the true position exactly when nothing is lost.** -/
theorem offset_eq_position_iff (deliveries : List Delivery) :
    offset deliveries = position deliveries ↔ ¬ Lost deliveries := by
  induction deliveries using List.reverseRecOn with
  | nil => exact ⟨fun _ ⟨_, _, _, split, _⟩ => by simp at split, fun _ => rfl⟩
  | append_singleton past delivery ih =>
    have below := offset_le_position past
    rw [lost_concat, offset_concat, position_concat, not_or, ← ih, not_or, Delivery.advance]
    by_cases forgotten : delivery.forgotten = true
    · simp only [forgotten, if_true, true_and]
      omega
    · cases counted : delivery.counted with
      | true => simp [forgotten]
      | false =>
        simp [forgotten]
        omega

/-- The numbers that a batch gets from an offset are its positions exactly when the
offset is the position and no number wraps around. -/
theorem numbers_eq_iff {deliveries : List Delivery} {length : Nat} (nonempty : 0 < length) :
    (∀ idx < length, (UInt32.ofNat (offset deliveries) + UInt32.ofNat idx).toNat =
        position deliveries + idx) ↔
      ¬ Lost deliveries ∧ position deliveries + length ≤ 2 ^ 32 := by
  have below := offset_le_position deliveries
  have number : ∀ idx, (UInt32.ofNat (offset deliveries) + UInt32.ofNat idx).toNat =
      (offset deliveries + idx) % 2 ^ 32 := fun idx => by simp
  rw [← offset_eq_position_iff]
  simp only [number]
  constructor
  · intro numbered
    have first := numbered 0 nonempty
    have last := numbered (length - 1) (by omega)
    have atMost := Nat.mod_le (offset deliveries) (2 ^ 32)
    rw [Nat.add_zero] at first
    have small := Nat.mod_lt (offset deliveries + (length - 1)) (Nat.two_pow_pos 32)
    omega
  · rintro ⟨same, fits⟩ idx inside
    rw [same, Nat.mod_eq_of_lt (by omega)]

/-! ## Components that number items -/

/-- A component that keeps a running offset for every key. -/
structure Numbering (σ ι ω κ : Type) where
  start : σ
  step : σ → ι → σ × List ω
  /-- The offset of a key, zero where none is kept. -/
  base : σ → κ → UInt32
  /-- What a step means for the offset of a key. -/
  delivery : σ → ι → κ → Delivery
  base_start : ∀ key, base start key = 0
  base_step : ∀ state input key, base (step state input).1 key =
    if (delivery state input key).forgotten then 0
    else base state key + UInt32.ofNat (delivery state input key).advance

namespace Numbering

variable {σ ι ω κ : Type} (numbering : Numbering σ ι ω κ)

/-- The state after a run. -/
def after (inputs : List ι) : σ := (runAll numbering.step numbering.start inputs).1

/-- The step, with its meaning for a key in place of its outputs. -/
def note (key : κ) (state : σ) (input : ι) : σ × List Delivery :=
  ((numbering.step state input).1, [numbering.delivery state input key])

/-- What the steps of a run meant for a key. -/
def deliveries (inputs : List ι) (key : κ) : List Delivery :=
  (runAll (numbering.note key) numbering.start inputs).2

theorem after_concat (past : List ι) (input : ι) :
    numbering.after (past ++ [input]) = (numbering.step (numbering.after past) input).1 := by
  rw [after, runAll_concat]
  rfl

theorem deliveries_concat (past : List ι) (input : ι) (key : κ) :
    numbering.deliveries (past ++ [input]) key =
      numbering.deliveries past key ++
        [numbering.delivery (numbering.after past) input key] := by
  have same : (runAll (numbering.note key) numbering.start past).1 = numbering.after past :=
    @runAll_fst_congr σ ι _ _ (numbering.note key) numbering.step (fun _ _ => rfl) _ past
  rw [deliveries, runAll_concat, ← deliveries, same]
  rfl

/-- The offset that is kept is that of the deliveries so far. -/
theorem base_after (inputs : List ι) (key : κ) :
    numbering.base (numbering.after inputs) key =
      UInt32.ofNat (offset (numbering.deliveries inputs key)) := by
  induction inputs using List.reverseRecOn with
  | nil => exact numbering.base_start key
  | append_singleton past input ih =>
    rw [after_concat, numbering.base_step, deliveries_concat, offset_concat, ih]
    split
    · rfl
    · rw [UInt32.ofNat_add]

/-- Where a step numbers items of a key, nothing of the key was lost before, and the
numbers do not wrap around. -/
def Aligned (past : List ι) (input : ι) : Prop :=
  ∀ key, 0 < (numbering.delivery (numbering.after past) input key).advance →
    ¬ Lost (numbering.deliveries past key) ∧
      position (numbering.deliveries past key) +
        (numbering.delivery (numbering.after past) input key).advance ≤ 2 ^ 32

/-- **The items that a step numbers get their positions exactly when nothing of their key
was lost before.** -/
theorem aligned_iff (past : List ι) (input : ι) :
    numbering.Aligned past input ↔
      ∀ key, ∀ idx < (numbering.delivery (numbering.after past) input key).advance,
        (numbering.base (numbering.after past) key + UInt32.ofNat idx).toNat =
          position (numbering.deliveries past key) + idx := by
  constructor
  · intro kept key idx inside
    have some := Nat.zero_lt_of_lt inside
    rw [base_after]
    exact (numbers_eq_iff some).mpr (kept key some) idx inside
  · intro numbered key some
    have here := numbered key
    simp only [base_after] at here
    exact (numbers_eq_iff some).mp here

end Numbering

end SenderAnalysis
