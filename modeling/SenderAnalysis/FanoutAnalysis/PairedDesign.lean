import SenderAnalysis.FanoutAnalysis.Loader

/-!
# The paired design

Dropping incomplete triggers is to keep the triggers with the most frequent set of
senders, and after both cleaning steps the frame is to be paired. Neither follows from the
way the full set is found. Triggers with the modal number of senders may have different
sets, and then the union is the set of none of them. A sender may have two rows in a
trigger, and the number of distinct senders does not show it.

The two steps do what they are for exactly when a set of senders stands out, that is all
triggers with as many senders have this set and no other number of senders is as common, or
is put together from the smaller sets of the most common number, and no trigger with the set
has two rows of one sender (`yieldsPaired_iff`).
-/

set_option autoImplicit false

namespace SenderAnalysis.FanoutAnalysis

namespace Frame

variable {df : Frame} {trigger : TriggerId}

/-! ## Groups -/

theorem mem_group {row : TriggerRecord} :
    row ∈ df.group trigger ↔ row ∈ df ∧ row.triggerId = trigger := by
  rw [group, List.mem_filter, decide_eq_true_eq]

theorem mem_triggers : trigger ∈ df.triggers ↔ ∃ row ∈ df, row.triggerId = trigger := by
  rw [triggers, List.mem_dedup, List.mem_map]

theorem mem_senders {sender : String} :
    sender ∈ df.senders ↔ ∃ row ∈ df, row.senderName = sender := by
  rw [senders, List.mem_toFinset, List.mem_map]

theorem triggers_ne_nil (nonempty : df ≠ []) : df.triggers ≠ [] := by
  obtain ⟨row, mem⟩ := List.exists_mem_of_ne_nil df nonempty
  exact List.ne_nil_of_mem (mem_triggers.mpr ⟨row, mem, rfl⟩)

/-- The group of a trigger that is kept is the group it had. -/
theorem group_filter {keep : TriggerId → Bool} (kept : keep trigger) :
    group (df.filter fun row => keep row.triggerId) trigger = df.group trigger := by
  rw [group, group, List.filter_filter]
  apply List.filter_congr
  intro row _
  by_cases same : row.triggerId = trigger <;> simp [same, kept]

/-- The triggers that are kept are those that pass. -/
theorem mem_triggers_filter {keep : TriggerId → Bool} :
    trigger ∈ triggers (df.filter fun row => keep row.triggerId) ↔
      trigger ∈ df.triggers ∧ keep trigger := by
  rw [mem_triggers, mem_triggers]
  constructor
  · rintro ⟨row, mem, rfl⟩
    obtain ⟨there, kept⟩ := List.mem_filter.mp mem
    exact ⟨⟨row, there, rfl⟩, kept⟩
  · rintro ⟨⟨row, mem, rfl⟩, kept⟩
    exact ⟨row, List.mem_filter.mpr ⟨mem, kept⟩, rfl⟩

/-- A trigger has as many rows as senders exactly when no sender has two. -/
theorem length_group_eq_iff :
    (df.group trigger).length = (df.sendersOf trigger).card ↔
      ((df.group trigger).map TriggerRecord.senderName).Nodup := by
  rw [sendersOf, senders, ← List.length_map TriggerRecord.senderName]
  exact eq_comm.trans Multiset.toFinset_card_eq_card_iff_nodup

/-! ## The assertion -/

/-- Distinct values are one value when each of them is. -/
theorem eq_singleton_iff {values : List Nat} (nodup : values.Nodup) {value : Nat} :
    values = [value] ↔ values ≠ [] ∧ ∀ other ∈ values, other = value := by
  constructor
  · rintro rfl
    exact ⟨List.cons_ne_nil _ _, fun other mem => List.mem_singleton.mp mem⟩
  · rintro ⟨nonempty, all⟩
    cases values with
    | nil => exact absurd rfl nonempty
    | cons first rest =>
      cases rest with
      | nil => rw [all first List.mem_cons_self]
      | cons second rest =>
        have same : first = second :=
          (all first List.mem_cons_self).trans
            (all second (List.mem_cons_of_mem first List.mem_cons_self)).symm
        exact absurd (same ▸ List.mem_cons_self) (List.nodup_cons.mp nodup).1

/-- The sizes are one number when there are rows and every trigger has that many. -/
theorem sizes_eq_iff {size : Nat} :
    df.sizes = [size] ↔
      df ≠ [] ∧ ∀ trigger ∈ df.triggers, (df.group trigger).length = size := by
  have perm : df.sizes.Perm (df.triggers.map fun trigger => (df.group trigger).length).dedup :=
    List.perm_insertionSort (· ≤ ·) _
  have mem : ∀ number, number ∈ df.sizes ↔
      ∃ trigger ∈ df.triggers, (df.group trigger).length = number := by
    intro number
    rw [perm.mem_iff, List.mem_dedup, List.mem_map]
  rw [eq_singleton_iff (perm.nodup_iff.mpr (List.nodup_dedup _))]
  constructor
  · rintro ⟨nonempty, all⟩
    obtain ⟨number, there⟩ := List.exists_mem_of_ne_nil _ nonempty
    obtain ⟨trigger, inFrame, _⟩ := (mem number).mp there
    obtain ⟨row, isRow, _⟩ := mem_triggers.mp inFrame
    exact ⟨List.ne_nil_of_mem isRow, fun other here => all _ ((mem _).mpr ⟨other, here, rfl⟩)⟩
  · rintro ⟨nonempty, all⟩
    obtain ⟨trigger, inFrame⟩ := List.exists_mem_of_ne_nil _ (triggers_ne_nil nonempty)
    refine ⟨List.ne_nil_of_mem ((mem _).mpr ⟨trigger, inFrame, rfl⟩), ?_⟩
    intro number there
    obtain ⟨other, here, rfl⟩ := (mem number).mp there
    exact all other here

/-! ## What the cleaning steps keep -/

/-- The sets of senders, one for every trigger. -/
def senderSets (df : Frame) : List (Finset String) := df.triggers.map df.sendersOf

/-- The triggers whose senders are a most frequent set of senders are kept, and no
others. -/
def KeepsModalSet (df kept : Frame) : Prop :=
  ∃ full, IsMode df.senderSets full ∧
    kept = df.filter fun row => df.sendersOf row.triggerId = full

/-- The triggers with the modal number of senders all have the same senders. -/
def OneReferenceSet (df : Frame) (modal : Nat) : Prop :=
  ∀ first ∈ df.triggers, ∀ second ∈ df.triggers, (df.sendersOf first).card = modal →
    (df.sendersOf second).card = modal → df.sendersOf first = df.sendersOf second

theorem mem_full {modal : Nat} {sender : String} :
    sender ∈ df.full modal ↔
      ∃ trigger ∈ df.triggers, (df.sendersOf trigger).card = modal ∧
        sender ∈ df.sendersOf trigger := by
  rw [full, mem_senders]
  constructor
  · rintro ⟨row, mem, rfl⟩
    obtain ⟨inFrame, refers⟩ := List.mem_filter.mp mem
    obtain ⟨isTrigger, count⟩ := List.mem_filter.mp (of_decide_eq_true refers)
    exact ⟨row.triggerId, isTrigger, of_decide_eq_true count,
      mem_senders.mpr ⟨row, mem_group.mpr ⟨inFrame, rfl⟩, rfl⟩⟩
  · rintro ⟨trigger, isTrigger, count, mem⟩
    obtain ⟨row, inGroup, rfl⟩ := mem_senders.mp mem
    obtain ⟨inFrame, rfl⟩ := mem_group.mp inGroup
    exact ⟨row, List.mem_filter.mpr ⟨inFrame, decide_eq_true
      (List.mem_filter.mpr ⟨isTrigger, decide_eq_true count⟩)⟩, rfl⟩

/-- When the triggers with the modal number of senders agree, the full set is theirs. -/
theorem full_eq {modal : Nat} (oneSet : df.OneReferenceSet modal)
    (isTrigger : trigger ∈ df.triggers) (count : (df.sendersOf trigger).card = modal) :
    df.full modal = df.sendersOf trigger := by
  ext sender
  rw [mem_full]
  constructor
  · rintro ⟨other, there, otherCount, mem⟩
    exact oneSet other there trigger isTrigger otherCount count ▸ mem
  · exact fun mem => ⟨trigger, isTrigger, count, mem⟩

/-- When the triggers with the modal number of senders agree, no set of senders is more
frequent than theirs. -/
theorem full_isMode {modal : Nat} (found : df.modal = some modal)
    (oneSet : df.OneReferenceSet modal) : IsMode df.senderSets (df.full modal) := by
  have isMode := (mode_eq_some_iff.mp found).1
  obtain ⟨trigger, isTrigger, count⟩ := List.mem_map.mp isMode.1
  have full_eq' := full_eq oneSet isTrigger count
  refine @IsMode.of_map _ _ _ _ _ _ Finset.card ?_ ?_ ?_
  · rw [senderSets, List.map_map, full_eq', count]
    exact isMode
  · rw [full_eq']
    exact List.mem_map.mpr ⟨trigger, isTrigger, rfl⟩
  · intro other there same
    obtain ⟨otherTrigger, isTrigger', rfl⟩ := List.mem_map.mp there
    rw [full_eq', count] at same
    exact (full_eq oneSet isTrigger' same).symm

/-- Dropping the incomplete triggers raises for a frame without rows only. -/
theorem dropIncompleteTriggers_eq_none_iff : df.dropIncompleteTriggers = none ↔ df = [] := by
  rw [dropIncompleteTriggers, Option.map_eq_none_iff, modal, mode_eq_none_iff,
    List.map_eq_nil_iff]
  constructor
  · intro none'
    by_contra nonempty
    exact triggers_ne_nil nonempty none'
  · rintro rfl
    rfl

/-- What is kept are the rows of the triggers with the full set. -/
theorem dropIncompleteTriggers_eq {modal : Nat} (found : df.modal = some modal) :
    df.dropIncompleteTriggers.map Prod.fst =
      some (df.filter fun row => df.sendersOf row.triggerId = df.full modal) := by
  rw [dropIncompleteTriggers, found]
  refine congrArg some (List.filter_congr ?_)
  intro row mem
  apply decide_eq_decide.mpr
  rw [List.mem_filter, decide_eq_true_eq]
  exact ⟨And.right, fun same => ⟨mem_triggers.mpr ⟨row, mem, rfl⟩, same⟩⟩

/-- The right triggers are kept exactly when the full set is a most frequent one. -/
theorem keepsModalSet_iff {modal : Nat} :
    df.KeepsModalSet (df.filter fun row => df.sendersOf row.triggerId = df.full modal) ↔
      IsMode df.senderSets (df.full modal) := by
  constructor
  · rintro ⟨full, isMode, same⟩
    obtain ⟨trigger, isTrigger, rfl⟩ := List.mem_map.mp isMode.1
    obtain ⟨row, mem, rfl⟩ := mem_triggers.mp isTrigger
    have kept : row ∈ df.filter fun row => df.sendersOf row.triggerId = df.full modal := by
      rw [same]
      exact List.mem_filter.mpr ⟨mem, decide_eq_true rfl⟩
    exact of_decide_eq_true (List.mem_filter.mp kept).2 ▸ isMode
  · exact fun isMode => ⟨_, isMode, rfl⟩

/-! ## What is left is paired -/

/-- The landed rows of a trigger are its rows among those that landed. -/
theorem group_landed : group df.landed trigger = landed (df.group trigger) :=
  List.filter_comm _ _ df

/-- What is left are the rows of the triggers that landed at most once. -/
theorem dropMultilandTriggers_eq :
    df.dropMultilandTriggers.1 =
      df.filter fun row => (landed (df.group row.triggerId)).length ≤ 1 := by
  apply List.filter_congr
  intro row _
  apply decide_eq_decide.mpr
  rw [List.mem_filter, decide_eq_true_eq, group_landed]
  constructor
  · intro notBad
    by_contra many
    obtain ⟨other, mem⟩ : ∃ other, other ∈ landed (df.group row.triggerId) :=
      List.exists_mem_of_length_pos (by omega)
    obtain ⟨inGroup, isLanded⟩ := List.mem_filter.mp mem
    obtain ⟨inFrame, same⟩ := mem_group.mp inGroup
    exact notBad ⟨mem_triggers.mpr ⟨other, List.mem_filter.mpr ⟨inFrame, isLanded⟩, same⟩,
      by omega⟩
  · rintro few ⟨_, many⟩
    omega

/-- No sender has two rows in a trigger with the full set that landed at most once. -/
def SingleRows (df : Frame) (full : Finset String) : Prop :=
  ∀ trigger ∈ df.triggers, df.sendersOf trigger = full →
    (landed (df.group trigger)).length ≤ 1 →
      ((df.group trigger).map TriggerRecord.senderName).Nodup

/-- A frame whose triggers all have the same senders has these senders. -/
theorem senders_eq {full : Finset String} (nonempty : df ≠ [])
    (same : ∀ trigger ∈ df.triggers, df.sendersOf trigger = full) : df.senders = full := by
  obtain ⟨trigger, isTrigger⟩ := List.exists_mem_of_ne_nil _ (triggers_ne_nil nonempty)
  ext sender
  constructor
  · intro mem
    obtain ⟨row, inFrame, rfl⟩ := mem_senders.mp mem
    rw [← same row.triggerId (mem_triggers.mpr ⟨row, inFrame, rfl⟩)]
    exact mem_senders.mpr ⟨row, mem_group.mpr ⟨inFrame, rfl⟩, rfl⟩
  · intro mem
    rw [← same trigger isTrigger] at mem
    obtain ⟨row, inGroup, rfl⟩ := mem_senders.mp mem
    exact mem_senders.mpr ⟨row, (mem_group.mp inGroup).1, rfl⟩

/-- A frame of triggers with the same senders that landed at most once is paired exactly
when no sender has two rows in a trigger. -/
theorem assertPaired_iff {full : Finset String} (nonempty : df ≠ [])
    (unique : df.UniqueSignatures)
    (same : ∀ trigger ∈ df.triggers, df.sendersOf trigger = full)
    (few : ∀ trigger ∈ df.triggers, (landed (df.group trigger)).length ≤ 1) :
    df.AssertPaired ↔ ∀ trigger ∈ df.triggers,
      ((df.group trigger).map TriggerRecord.senderName).Nodup := by
  rw [AssertPaired, sizes_eq_iff, senders_eq nonempty same]
  have row : ∀ trigger ∈ df.triggers, (df.group trigger).length = full.card ↔
      ((df.group trigger).map TriggerRecord.senderName).Nodup := by
    intro trigger isTrigger
    rw [← same trigger isTrigger]
    exact length_group_eq_iff
  constructor
  · rintro ⟨⟨_, sizes⟩, _, _⟩ trigger isTrigger
    exact (row trigger isTrigger).mp (sizes trigger isTrigger)
  · intro single
    have rows : ∀ trigger ∈ df.triggers, (df.group trigger).length = full.card :=
      fun trigger isTrigger => (row trigger isTrigger).mpr (single trigger isTrigger)
    exact ⟨⟨nonempty, rows⟩, unique, few⟩

/-! ## Both steps together -/

/-- A trigger with the full set that landed at most once. -/
def isKept (df : Frame) (full : Finset String) (trigger : TriggerId) : Bool :=
  df.sendersOf trigger = full ∧ (landed (df.group trigger)).length ≤ 1

/-- The rows of the triggers with the full set that landed at most once. -/
def cleaned (df : Frame) (full : Finset String) : Frame :=
  df.filter fun row => df.isKept full row.triggerId

section Cleaned

variable {full : Finset String}

/-- This is what both steps leave. -/
theorem dropMultilandTriggers_filter :
    (dropMultilandTriggers (df.filter fun row => df.sendersOf row.triggerId = full)).1 =
      df.cleaned full := by
  rw [dropMultilandTriggers_eq, List.filter_filter]
  apply List.filter_congr
  intro row _
  by_cases isFull : df.sendersOf row.triggerId = full
  · have group_eq : group (df.filter fun row => df.sendersOf row.triggerId = full) row.triggerId =
        df.group row.triggerId :=
      @group_filter df row.triggerId (fun trigger => df.sendersOf trigger = full)
        (decide_eq_true isFull)
    simp [isKept, isFull, group_eq]
  · simp [isKept, isFull]

theorem mem_triggers_cleaned :
    trigger ∈ (df.cleaned full).triggers ↔ trigger ∈ df.triggers ∧
      df.sendersOf trigger = full ∧ (landed (df.group trigger)).length ≤ 1 := by
  rw [cleaned, mem_triggers_filter, isKept, decide_eq_true_eq]

theorem group_cleaned (isTrigger : trigger ∈ (df.cleaned full).triggers) :
    (df.cleaned full).group trigger = df.group trigger :=
  group_filter (decide_eq_true (mem_triggers_cleaned.mp isTrigger).2)

/-- What both steps leave is paired exactly when no sender has two rows in a trigger. -/
theorem cleaned_assertPaired_iff (nonempty : df.cleaned full ≠ [])
    (unique : (df.cleaned full).UniqueSignatures) :
    (df.cleaned full).AssertPaired ↔ ∀ trigger ∈ (df.cleaned full).triggers,
      (((df.cleaned full).group trigger).map TriggerRecord.senderName).Nodup := by
  refine @assertPaired_iff _ full nonempty unique ?_ ?_
  · intro trigger isTrigger
    rw [sendersOf, group_cleaned isTrigger]
    exact (mem_triggers_cleaned.mp isTrigger).2.1
  · intro trigger isTrigger
    rw [group_cleaned isTrigger]
    exact (mem_triggers_cleaned.mp isTrigger).2.2

/-- With unique signatures the frame is paired after both steps, or empty, exactly when no
sender has two rows in a trigger that is left. -/
theorem cleaned_paired_iff (unique : df.UniqueSignatures) :
    (df.cleaned full ≠ [] → (df.cleaned full).AssertPaired) ↔ df.SingleRows full := by
  have unique' : (df.cleaned full).UniqueSignatures :=
    unique.sublist (List.filter_sublist.map _)
  constructor
  · intro paired trigger isTrigger isFull few
    have there : trigger ∈ (df.cleaned full).triggers :=
      mem_triggers_cleaned.mpr ⟨isTrigger, isFull, few⟩
    obtain ⟨row, inFrame, _⟩ := mem_triggers.mp there
    have nonempty : df.cleaned full ≠ [] := List.ne_nil_of_mem inFrame
    rw [← group_cleaned there]
    exact (cleaned_assertPaired_iff nonempty unique').mp (paired nonempty) trigger there
  · intro single nonempty
    apply (cleaned_assertPaired_iff nonempty unique').mpr
    intro trigger there
    obtain ⟨isTrigger, isFull, few⟩ := mem_triggers_cleaned.mp there
    rw [group_cleaned there]
    exact single trigger isTrigger isFull few

end Cleaned

/-- Dropping the incomplete triggers keeps those with a most frequent set of senders, and
with unique signatures the frame is paired after both steps, unless it is empty. -/
def YieldsPaired (df : Frame) : Prop :=
  ∃ kept dropped, df.dropIncompleteTriggers = some (kept, dropped) ∧ df.KeepsModalSet kept ∧
    (df.UniqueSignatures → kept.dropMultilandTriggers.1 ≠ [] →
      kept.dropMultilandTriggers.1.AssertPaired)

/-- The least of the numbers of senders that most triggers have, and the senders of the
triggers with that number. -/
def IsReference (df : Frame) (modal : Nat) (full : Finset String) : Prop :=
  (IsMode (df.triggers.map fun trigger => (df.sendersOf trigger).card) modal ∧
    ∀ other, IsMode (df.triggers.map fun trigger => (df.sendersOf trigger).card) other →
      modal ≤ other) ∧
  ∀ sender, sender ∈ full ↔ ∃ trigger ∈ df.triggers, (df.sendersOf trigger).card = modal ∧
    sender ∈ df.sendersOf trigger

theorem isReference_iff {modal : Nat} {full : Finset String} :
    df.IsReference modal full ↔ df.modal = some modal ∧ full = df.full modal := by
  apply and_congr mode_eq_some_iff.symm
  rw [Finset.ext_iff]
  exact forall_congr' fun sender => iff_congr Iff.rfl mem_full.symm

/-- The cleaning steps do what they are for when the triggers with the modal number of
senders agree on their set, or their union is a most frequent set, and no sender has two
rows in a trigger that is kept. -/
theorem yieldsPaired_iff_reference :
    df.YieldsPaired ↔ ∃ modal full, df.IsReference modal full ∧
      (df.OneReferenceSet modal ∨ IsMode df.senderSets full) ∧
      (df.UniqueSignatures → df.SingleRows full) := by
  constructor
  · rintro ⟨kept, dropped, result, keeps, paired⟩
    obtain ⟨modal, found, _⟩ := Option.map_eq_some_iff.mp result
    have kept_eq := dropIncompleteTriggers_eq found
    rw [result] at kept_eq
    cases kept_eq
    exact ⟨modal, df.full modal, isReference_iff.mpr ⟨found, rfl⟩,
      Or.inr (keepsModalSet_iff.mp keeps),
      fun unique => (cleaned_paired_iff unique).mp (dropMultilandTriggers_filter ▸ paired unique)⟩
  · rintro ⟨modal, full, reference, agrees, single⟩
    obtain ⟨found, rfl⟩ := isReference_iff.mp reference
    obtain ⟨⟨kept, dropped⟩, result, kept_eq⟩ :=
      Option.map_eq_some_iff.mp (dropIncompleteTriggers_eq found)
    cases kept_eq
    refine ⟨_, dropped, result, keepsModalSet_iff.mpr ?_, ?_⟩
    · exact agrees.elim (full_isMode found) id
    · intro unique
      rw [dropMultilandTriggers_filter]
      exact (cleaned_paired_iff unique).mpr (single unique)

/-! ## What it takes of the triggers and the rows -/

/-- How many triggers have these senders. -/
def triggersWith (df : Frame) (set : Finset String) : Nat :=
  df.triggers.countP fun trigger => df.sendersOf trigger = set

/-- How many triggers have this number of senders. -/
def triggersOfSize (df : Frame) (number : Nat) : Nat :=
  df.triggers.countP fun trigger => (df.sendersOf trigger).card = number

/-- More triggers have this number of senders than have any smaller number, and not fewer
than have any larger one. -/
def MostCommon (df : Frame) (number : Nat) : Prop :=
  0 < df.triggersOfSize number ∧
    (∀ smaller < number, df.triggersOfSize smaller < df.triggersOfSize number) ∧
      ∀ larger > number, df.triggersOfSize larger ≤ df.triggersOfSize number

/-- The triggers with as many senders as the set all have the set, and they are the most
common. -/
def StandsOut (df : Frame) (set : Finset String) : Prop :=
  df.MostCommon set.card ∧ ∀ trigger ∈ df.triggers,
    (df.sendersOf trigger).card = set.card → df.sendersOf trigger = set

/-- Fewer senders are the most common. The set has the senders of these triggers, and by
chance no set has more triggers. -/
def PutTogether (df : Frame) (set : Finset String) : Prop :=
  ∃ number < set.card, df.MostCommon number ∧
    (∀ sender, sender ∈ set ↔ ∃ trigger ∈ df.triggers,
      (df.sendersOf trigger).card = number ∧ sender ∈ df.sendersOf trigger) ∧
    0 < df.triggersWith set ∧ ∀ other, df.triggersWith other ≤ df.triggersWith set

/-- No two rows of one trigger are of one sender, where the trigger has these senders and
landed at most once. -/
def NoRepeats (df : Frame) (set : Finset String) : Prop :=
  df.Pairwise fun first second => first.triggerId = second.triggerId →
    df.sendersOf first.triggerId = set → (landed (df.group first.triggerId)).length ≤ 1 →
      first.senderName ≠ second.senderName

theorem isMode_senderSets_iff {set : Finset String} :
    IsMode df.senderSets set ↔
      0 < df.triggersWith set ∧ ∀ other, df.triggersWith other ≤ df.triggersWith set := by
  have count : ∀ other, df.senderSets.count other = df.triggersWith other := by
    intro other
    rw [senderSets, List.count, List.countP_map, triggersWith]
    exact List.countP_congr fun trigger _ => by simp
  simp only [isMode_iff_count, count]

theorem mostCommon_iff {number : Nat} :
    (IsMode (df.triggers.map fun trigger => (df.sendersOf trigger).card) number ∧
      ∀ other, IsMode (df.triggers.map fun trigger => (df.sendersOf trigger).card) other →
        number ≤ other) ↔ df.MostCommon number := by
  have count : ∀ other, (df.triggers.map fun trigger => (df.sendersOf trigger).card).count other =
      df.triggersOfSize other := by
    intro other
    rw [List.count, List.countP_map, triggersOfSize]
    exact List.countP_congr fun trigger _ => by simp
  simp only [isLeastMode_iff_count, count, MostCommon]

/-- A number that is common is that of some trigger. -/
theorem MostCommon.exists {number : Nat} (common : df.MostCommon number) :
    ∃ trigger ∈ df.triggers, (df.sendersOf trigger).card = number := by
  obtain ⟨trigger, isTrigger, count⟩ := List.countP_pos_iff.mp common.1
  exact ⟨trigger, isTrigger, of_decide_eq_true count⟩

/-- A reference set of the modal number stands out; a larger one is put together. -/
theorem isReference_agrees_iff {full : Finset String} :
    (∃ modal, df.IsReference modal full ∧
      (df.OneReferenceSet modal ∨ IsMode df.senderSets full)) ↔
      df.StandsOut full ∨ df.PutTogether full := by
  constructor
  · rintro ⟨modal, ⟨least, union⟩, agrees⟩
    have common := mostCommon_iff.mp least
    obtain ⟨trigger, isTrigger, count⟩ := common.exists
    have within : ∀ other ∈ df.triggers, (df.sendersOf other).card = modal →
        df.sendersOf other ⊆ full :=
      fun other there same sender mem => (union sender).mpr ⟨other, there, same, mem⟩
    by_cases large : modal < full.card
    · refine .inr ⟨modal, large, common, union, isMode_senderSets_iff.mp ?_⟩
      refine agrees.resolve_left fun oneSet => ?_
      -- Triggers that agree would have a union of the modal number.
      have same : full = df.sendersOf trigger := by
        refine Finset.Subset.antisymm ?_ (within trigger isTrigger count)
        intro sender mem
        obtain ⟨other, there, otherCount, inOther⟩ := (union sender).mp mem
        exact oneSet other there trigger isTrigger otherCount count ▸ inOther
      rw [same] at large
      omega
    · have each : ∀ other ∈ df.triggers, (df.sendersOf other).card = modal →
          df.sendersOf other = full :=
        fun other there same => Finset.eq_of_subset_of_card_le (within other there same) (by omega)
      have card : full.card = modal := each trigger isTrigger count ▸ count
      exact .inl ⟨card ▸ common, fun other there same => each other there (same.trans card)⟩
  · rintro (⟨common, each⟩ | ⟨modal, _, common, union, frequent⟩)
    · obtain ⟨trigger, isTrigger, count⟩ := common.exists
      refine ⟨full.card, ⟨mostCommon_iff.mpr common, fun sender => ?_⟩, .inl ?_⟩
      · constructor
        · intro mem
          exact ⟨trigger, isTrigger, count, (each trigger isTrigger count).symm ▸ mem⟩
        · rintro ⟨other, there, same, mem⟩
          exact each other there same ▸ mem
      · intro first isFirst second isSecond firstCount secondCount
        exact (each first isFirst firstCount).trans (each second isSecond secondCount).symm
    · exact ⟨modal, ⟨mostCommon_iff.mpr common, union⟩, .inr (isMode_senderSets_iff.mpr frequent)⟩

theorem singleRows_iff {full : Finset String} : df.SingleRows full ↔ df.NoRepeats full := by
  have rows : ∀ trigger, ((df.group trigger).map TriggerRecord.senderName).Nodup ↔
      ∀ (i j : Nat) (hi : i < df.length) (hj : j < df.length), i < j →
        df[i].triggerId = trigger → df[j].triggerId = trigger →
          df[i].senderName ≠ df[j].senderName := by
    intro trigger
    rw [List.Nodup, List.pairwise_map, group, List.pairwise_filter, List.pairwise_iff_getElem]
    simp only [decide_eq_true_eq]
  rw [NoRepeats, List.pairwise_iff_getElem]
  constructor
  · intro single i j hi hj less same isFull few
    have isTrigger : df[i].triggerId ∈ df.triggers :=
      mem_triggers.mpr ⟨df[i], List.getElem_mem hi, rfl⟩
    exact (rows _).mp (single _ isTrigger isFull few) i j hi hj less rfl same.symm
  · intro apart trigger _ isFull few
    refine (rows trigger).mpr fun i j hi hj less first second => ?_
    subst first
    exact apart i j hi hj less second.symm isFull few

/-- **The cleaning steps do what they are for exactly when a set of senders stands out, or
is put together from smaller ones and most frequent by chance, and, where signatures are
unique, no two rows of one trigger with the set that landed at most once are of one
sender.** -/
theorem yieldsPaired_iff (df : Frame) :
    df.YieldsPaired ↔ ∃ set, (df.StandsOut set ∨ df.PutTogether set) ∧
      (df.UniqueSignatures → df.NoRepeats set) := by
  rw [yieldsPaired_iff_reference, exists_comm]
  refine exists_congr fun set => ?_
  rw [← isReference_agrees_iff, ← singleRows_iff, ← exists_and_right]
  exact exists_congr fun modal => and_assoc.symm

/-- Two triggers with the senders A and B, and one with A and C. -/
def sampleRagged : Frame :=
  [sampleRow 1 "A" 1 .landed, sampleRow 1 "B" 2 .unknownPending,
    sampleRow 2 "A" 3 .landed, sampleRow 2 "B" 4 .unknownPending,
    sampleRow 3 "A" 5 .landed, sampleRow 3 "C" 6 .unknownPending]

/-- The union of the senders is the set of no trigger, so no trigger is kept; and a sender
with two rows in its trigger stays. -/
theorem sampleRagged_notPaired :
    (sampleRagged.dropIncompleteTriggers = some ([], 3) ∧
        IsMode sampleRagged.senderSets {"A", "B"} ∧ ¬sampleRagged.YieldsPaired) ∧
      ¬YieldsPaired [sampleRow 1 "A" 1 .landed, sampleRow 1 "A" 2 .unknownPending] := by
  have nothing : sampleRagged.dropIncompleteTriggers = some ([], 3) := by decide +kernel
  refine ⟨⟨nothing, by decide +kernel, ?_⟩, ?_⟩
  · rintro ⟨kept, dropped, result, ⟨full, isMode, same⟩, _⟩
    rw [nothing] at result
    cases result
    obtain ⟨trigger, isTrigger, rfl⟩ := List.mem_map.mp isMode.1
    obtain ⟨row, mem, rfl⟩ := mem_triggers.mp isTrigger
    exact List.filter_eq_nil_iff.mp same.symm row mem (decide_eq_true rfl)
  · rintro ⟨kept, dropped, result, _, paired⟩
    have all : dropIncompleteTriggers
        [sampleRow 1 "A" 1 .landed, sampleRow 1 "A" 2 .unknownPending] =
          some ([sampleRow 1 "A" 1 .landed, sampleRow 1 "A" 2 .unknownPending], 0) := by
      decide +kernel
    rw [all] at result
    cases result
    exact absurd (paired (by decide +kernel) (by decide +kernel)) (by decide +kernel)

end Frame

/-- A frame that was cleaned and loaded has at most one row of a sender in a trigger. -/
theorem loadLong_single {raw : Frame} {long : PairedFrame}
    (loaded : loadLong raw true true = some long) (trigger : TriggerId) :
    ((long.rows.group trigger).map TriggerRecord.senderName).Nodup := by
  obtain ⟨⟨kept, dropped⟩, result, asserted⟩ := Option.bind_eq_some_iff.mp loaded
  obtain ⟨modal, found, _⟩ := Option.map_eq_some_iff.mp result
  have kept_eq := Frame.dropIncompleteTriggers_eq found
  rw [if_pos rfl] at result
  rw [result] at kept_eq
  cases kept_eq
  simp only [if_true] at asserted
  split at asserted
  · next paired =>
    cases asserted
    change ((Frame.group (Frame.dropMultilandTriggers (raw.filter fun row =>
      raw.sendersOf row.triggerId = raw.full modal)).1 trigger).map TriggerRecord.senderName).Nodup
    rw [Frame.dropMultilandTriggers_filter] at paired ⊢
    by_cases isTrigger : trigger ∈ (raw.cleaned (raw.full modal)).triggers
    · exact (Frame.cleaned_assertPaired_iff (Frame.sizes_eq_iff.mp paired.1).1 paired.2.1).mp paired
        trigger isTrigger
    · have none' : (raw.cleaned (raw.full modal)).group trigger = [] := by
        apply List.filter_eq_nil_iff.mpr
        intro row mem same
        exact isTrigger (Frame.mem_triggers.mpr ⟨row, mem, of_decide_eq_true same⟩)
      rw [none']
      exact List.nodup_nil
  · cases asserted

end SenderAnalysis.FanoutAnalysis
