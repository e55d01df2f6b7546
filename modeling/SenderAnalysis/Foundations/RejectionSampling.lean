import Mathlib.Data.List.Nodup

/-!
# Sampling without repetition, by rejection

Values are drawn one after the other. A value that is new is kept, and a value that has
been kept before is rejected, for as long as the number of values kept asks for more.
Whether the loop ends depends on the draws: there is no result when they run out before
it does. What keeping one more new value preserves holds of the sample
(`rejectionSample_invariant`). So the values kept are distinct, each of them was drawn,
and their number is the first one that does not ask for more (`rejectionSample_spec`).
Draws that come later do not matter (`rejectionSample_append`).
-/

set_option autoImplicit false

namespace SenderAnalysis

variable {α : Type*} [DecidableEq α]

/-- Draw for as long as the number of values kept asks for more. The result is what is
kept, in the order of the draws, and the draws that are left. -/
def rejectionSample (more : Nat → Bool) (kept : List α) : List α → Option (List α × List α)
  | [] => if more kept.length then none else some (kept, [])
  | value :: draws =>
      if more kept.length then
        rejectionSample more (if value ∈ kept then kept else kept ++ [value]) draws
      else some (kept, value :: draws)

/-- What holds at the start and is preserved when a new value is drawn and kept holds of
the sample. -/
theorem rejectionSample_invariant {more : Nat → Bool} {draws : List α} (P : List α → Prop)
    (keep : ∀ kept value, value ∈ draws → more kept.length → value ∉ kept → P kept →
      P (kept ++ [value])) :
    ∀ {kept sample rest : List α}, rejectionSample more kept draws = some (sample, rest) →
      P kept → P sample := by
  induction draws with
  | nil =>
    intro kept sample rest ends holds
    rw [rejectionSample] at ends
    split at ends
    · cases ends
    · cases ends
      exact holds
  | cons value draws ih =>
    intro kept sample rest ends holds
    rw [rejectionSample] at ends
    split at ends
    · next asked =>
      refine ih ?_ ends ?_
      · intro kept other drawn
        exact keep kept other (List.mem_cons_of_mem value drawn)
      · split
        · exact holds
        · next new => exact keep kept value List.mem_cons_self asked new holds
    · cases ends
      exact holds

/-- The loop ends when no more is asked for, and leaves the last draws. -/
theorem rejectionSample_ends {more : Nat → Bool} {draws : List α} :
    ∀ {kept sample rest : List α}, rejectionSample more kept draws = some (sample, rest) →
      more sample.length = false ∧ rest <:+ draws := by
  induction draws with
  | nil =>
    intro kept sample rest ends
    rw [rejectionSample] at ends
    split at ends
    · cases ends
    · next enough =>
      cases ends
      exact ⟨Bool.eq_false_iff.mpr enough, List.suffix_refl []⟩
  | cons value draws ih =>
    intro kept sample rest ends
    rw [rejectionSample] at ends
    split at ends
    · obtain ⟨enough, suffix⟩ := ih ends
      exact ⟨enough, suffix.trans (List.suffix_cons value draws)⟩
    · next enough =>
      cases ends
      exact ⟨Bool.eq_false_iff.mpr enough, List.suffix_refl _⟩

/-- **A sample holds distinct values that were drawn, as many as the first number that
does not ask for more.** -/
theorem rejectionSample_spec {more : Nat → Bool} {draws sample rest : List α}
    (ends : rejectionSample more [] draws = some (sample, rest)) :
    sample.Nodup ∧ (∀ value ∈ sample, value ∈ draws) ∧
      more sample.length = false ∧ ∀ count < sample.length, more count = true := by
  refine ⟨?_, ?_, (rejectionSample_ends ends).1, ?_⟩
  · refine rejectionSample_invariant List.Nodup ?_ ends List.nodup_nil
    intro kept value _ _ new nodup
    exact List.nodup_append.mpr ⟨nodup, List.nodup_singleton value, fun other before last now =>
      fun same => new (List.mem_singleton.mp now ▸ same ▸ before)⟩
  · refine rejectionSample_invariant (fun kept => ∀ value ∈ kept, value ∈ draws) ?_ ends
      (fun value mem => absurd mem List.not_mem_nil)
    intro kept value drawn _ _ sources other mem
    rcases List.mem_append.mp mem with before | last
    · exact sources other before
    · rw [List.mem_singleton.mp last]
      exact drawn
  · refine rejectionSample_invariant (fun kept => ∀ count < kept.length, more count = true) ?_ ends
      (fun count less => absurd less (Nat.not_lt_zero count))
    intro kept value _ asked _ before count less
    rw [List.length_append, List.length_singleton] at less
    rcases Nat.lt_succ_iff_lt_or_eq.mp less with less | last
    · exact before count less
    · rw [last]
      exact asked

/-- Once the loop has ended, draws that come later do not matter. -/
theorem rejectionSample_append {more : Nat → Bool} (later : List α) {draws : List α} :
    ∀ {kept sample rest : List α}, rejectionSample more kept draws = some (sample, rest) →
      rejectionSample more kept (draws ++ later) = some (sample, rest ++ later) := by
  induction draws with
  | nil =>
    intro kept sample rest ends
    rw [rejectionSample] at ends
    split at ends
    · cases ends
    · next enough =>
      cases ends
      cases later <;> rw [List.nil_append, rejectionSample, if_neg enough]
  | cons value draws ih =>
    intro kept sample rest ends
    rw [rejectionSample] at ends
    rw [List.cons_append, rejectionSample]
    split at ends
    · next asked =>
      rw [if_pos asked]
      exact ih ends
    · next enough =>
      cases ends
      rw [if_neg enough, List.cons_append]

end SenderAnalysis
