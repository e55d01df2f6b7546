import Mathlib.Data.List.Nodup
import Mathlib.Data.Set.Basic
import Mathlib.Logic.Relation

/-!
# Leases

Values are kept ready and are leased to holders. A lease is exclusive when a value
that is ready has no holder and no two holders have the same value. Values may
become ready and stop being ready, as long as no holder has a value that becomes
ready. Leasing takes a ready value away, and holders may give up at any time.
These steps keep leases exclusive (`Leases.exclusive_of_run`), however they
interleave. A system whose steps amount to such steps leases exclusively.
-/

set_option autoImplicit false

namespace SenderAnalysis

variable {α : Type*}

/-- The values that are ready, and those that are held, one for every holder. -/
structure Leases (α : Type*) where
  ready : Set α
  held : List α

namespace Leases

/-- One step. -/
inductive Step : Leases α → Leases α → Prop where
  /-- Other values are ready, the new ones without a holder. -/
  | restock (leases : Leases α) (ready : Set α)
      (fresh : ∀ value ∈ ready, value ∈ leases.ready ∨ value ∉ leases.held) :
      Step leases ⟨ready, leases.held⟩
  /-- A ready value gets a holder. -/
  | lease (leases : Leases α) (value : α) (isReady : value ∈ leases.ready) :
      Step leases ⟨leases.ready \ {value}, value :: leases.held⟩
  /-- Some holders give up. -/
  | release (leases : Leases α) (held : List α) (fewer : held.Sublist leases.held) :
      Step leases ⟨leases.ready, held⟩

/-- No ready value has a holder, and no value has two. -/
structure Exclusive (leases : Leases α) : Prop where
  free : ∀ value ∈ leases.ready, value ∉ leases.held
  single : leases.held.Nodup

/-- Every step keeps leases exclusive. -/
theorem Step.exclusive {first second : Leases α} (step : Step first second)
    (exclusive : Exclusive first) : Exclusive second := by
  cases step with
  | restock ready fresh =>
    refine ⟨?_, exclusive.single⟩
    intro value isReady
    rcases fresh value isReady with before | free
    · exact exclusive.free value before
    · exact free
  | lease value isReady =>
    refine ⟨?_, List.nodup_cons.mpr ⟨exclusive.free value isReady, exclusive.single⟩⟩
    rintro other ⟨before, different⟩ holding
    rcases List.mem_cons.mp holding with same | held
    · exact different same
    · exact exclusive.free other before held
  | release held fewer =>
    refine ⟨?_, fewer.nodup exclusive.single⟩
    intro value isReady holding
    exact exclusive.free value isReady (fewer.subset holding)

/-- **However the steps interleave, leases stay exclusive.** -/
theorem exclusive_of_run {first last : Leases α} (run : Relation.ReflTransGen Step first last)
    (exclusive : Exclusive first) : Exclusive last := by
  induction run with
  | refl => exact exclusive
  | tail _ step ih => exact step.exclusive ih

end Leases

end SenderAnalysis
