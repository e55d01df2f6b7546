import SenderAnalysis.Foundations.Tallies
import SenderAnalysis.LeaderMap.Agreement
import Std.Data.ExtTreeSet

/-!
# The summary of the leader map

The slots of the map are counted by the country of their leader, the validators and their
stakes by their own country, and the countries that occur are merged into rows. What has
no country is put under "??". The stakes and the validators without a country are added up
under this key together with those whose country code it is. The slots are not: their row
shows the slots without a country only.

The stakes, the validators and the totals are conserved, and no country has two rows. The
slots of the rows sum to those of the map exactly when no validator with the country code
"??" leads a slot (`summarize_conserves_iff`).
-/

set_option autoImplicit false

namespace SenderAnalysis.LeaderMap

open Std

/-- The row of a country. -/
structure CountrySummary where
  countryCode : String
  slotCount : Nat
  slotPercentage : Float
  stakeLamports : Nat
  stakePercentage : Float
  validatorCount : Nat

structure EpochSummary where
  epoch : Nat
  totalSlots : Nat
  mappedSlots : Nat
  unknownSlots : Nat
  countries : List CountrySummary
  totalStakeLamports : Nat

def pct (part total : Nat) : Float :=
  if total = 0 then 0.0 else Float.ofNat part / Float.ofNat total * 100.0

/-- The slots of every country, and those without one. -/
def countSlots (entries : List SlotEntry) : ExtTreeMap String Nat × Nat :=
  entries.foldl (fun (slotsPerCountry, unknownSlots) entry =>
    match entry.countryCode with
    | some cc => (addTo slotsPerCountry cc 1, unknownSlots)
    | none => (slotsPerCountry, unknownSlots + 1)) (∅, 0)

/-- The country of a validator. -/
def countryOf (v : ValidatorInfo) : String := v.countryCode.getD "??"

/-- The countries that appear in either set, and "??" if there are slots without one. -/
def allCountries (slotsPerCountry stakePerCountry : ExtTreeMap String Nat)
    (unknownSlots : Nat) : ExtTreeSet String :=
  let countries := ExtTreeSet.ofList (slotsPerCountry.keys ++ stakePerCountry.keys)
  if unknownSlots > 0 then countries.insert "??" else countries

/-- The slots of the row of a country. -/
def slotCount (slotsPerCountry : ExtTreeMap String Nat) (unknownSlots : Nat) (cc : String) :
    Nat :=
  if cc = "??" then unknownSlots else slotsPerCountry[cc]?.getD 0

def summarize (snap : EpochSnapshot) (slotMap : ExtTreeMap Nat SlotEntry) : EpochSummary :=
  let totalSlots := slotMap.size
  let totalStakeLamports := (snap.validators.map ValidatorInfo.activeStakeLamports).sum
  let (slotsPerCountry, unknownSlots) := countSlots (slotMap.toList.map Prod.snd)
  let stakePerCountry := tally countryOf ValidatorInfo.activeStakeLamports snap.validators
  let validatorsPerCountry := tally countryOf (fun _ => 1) snap.validators
  let rows := (allCountries slotsPerCountry stakePerCountry unknownSlots).toList.map fun cc =>
    { countryCode := cc
      slotCount := slotCount slotsPerCountry unknownSlots cc
      slotPercentage := pct (slotCount slotsPerCountry unknownSlots cc) totalSlots
      stakeLamports := stakePerCountry[cc]?.getD 0
      stakePercentage := pct (stakePerCountry[cc]?.getD 0) totalStakeLamports
      validatorCount := validatorsPerCountry[cc]?.getD 0 : CountrySummary }
  { epoch := snap.epoch.epoch
    totalSlots
    mappedSlots := totalSlots - unknownSlots
    unknownSlots
    countries := rows.mergeSort fun a b => !(decide (a.slotPercentage < b.slotPercentage))
    totalStakeLamports }

/-! ## Counting the slots -/

/-- The slots of the entries with a country, and the number of the others. -/
theorem countSlots_eq (entries : List SlotEntry) :
    countSlots entries =
      (tally id (fun _ => 1) (entries.filterMap SlotEntry.countryCode),
        entries.countP fun entry => entry.countryCode.isNone) := by
  suffices general : ∀ (slots : ExtTreeMap String Nat) (unknown : Nat),
      entries.foldl (fun (slotsPerCountry, unknownSlots) entry =>
        match entry.countryCode with
        | some cc => (addTo slotsPerCountry cc 1, unknownSlots)
        | none => (slotsPerCountry, unknownSlots + 1)) (slots, unknown) =
      ((entries.filterMap SlotEntry.countryCode).foldl (fun map cc => addTo map cc 1) slots,
        unknown + entries.countP fun entry => entry.countryCode.isNone) by
    rw [countSlots, general, Nat.zero_add]
    rfl
  induction entries with
  | nil => exact fun _ _ => rfl
  | cons entry entries ih =>
    intro slots unknown
    rw [List.foldl_cons, List.countP_cons]
    cases country : entry.countryCode with
    | none =>
      rw [List.filterMap_cons_none country]
      simp only [Option.isNone_none, if_true]
      rw [ih, Nat.add_assoc, Nat.add_comm 1]
    | some cc =>
      rw [List.filterMap_cons_some country, List.foldl_cons]
      simp only [Option.isNone_some, Bool.false_eq_true, if_false]
      rw [ih, Nat.add_zero]

/-- The countries of the entries, counted. -/
theorem countP_countryCode (code : String) (entries : List SlotEntry) :
    (entries.filterMap SlotEntry.countryCode).countP (fun cc => id cc = code) =
      entries.countP fun entry => entry.countryCode = some code := by
  rw [List.countP_filterMap]
  apply List.countP_congr
  intro entry _
  cases entry.countryCode <;> simp

/-- Every entry has a country or has none. -/
theorem countries_add_unknown (entries : List SlotEntry) :
    (entries.filterMap SlotEntry.countryCode).length +
      entries.countP (fun entry => entry.countryCode.isNone) = entries.length := by
  induction entries with
  | nil => rfl
  | cons entry entries ih =>
    rw [List.countP_cons, List.length_cons]
    cases country : entry.countryCode with
    | none =>
      rw [List.filterMap_cons_none country]
      simp only [Option.isNone_none, if_true]
      omega
    | some cc =>
      rw [List.filterMap_cons_some country, List.length_cons]
      simp only [Option.isNone_some, Bool.false_eq_true, if_false]
      omega

/-! ## What is conserved -/

/-- The rows sum to the totals, and no country has two rows. -/
structure Conserves (snap : EpochSnapshot) (summary : EpochSummary) : Prop where
  slots : (summary.countries.map CountrySummary.slotCount).sum = summary.totalSlots
  stakes : (summary.countries.map CountrySummary.stakeLamports).sum = summary.totalStakeLamports
  validators : (summary.countries.map CountrySummary.validatorCount).sum = snap.validators.length
  totals : summary.mappedSlots + summary.unknownSlots = summary.totalSlots
  distinct : (summary.countries.map CountrySummary.countryCode).Nodup

section Rows

variable {slotsPerCountry stakePerCountry : ExtTreeMap String Nat} {unknownSlots : Nat}

theorem mem_allCountries {cc : String} :
    cc ∈ (allCountries slotsPerCountry stakePerCountry unknownSlots).toList ↔
      cc ∈ slotsPerCountry ∨ cc ∈ stakePerCountry ∨ cc = "??" ∧ 0 < unknownSlots := by
  rw [ExtTreeSet.mem_toList, allCountries]
  by_cases unknown : unknownSlots > 0
  · rw [if_pos unknown, ExtTreeSet.mem_insert, ExtTreeSet.mem_ofList, List.contains_iff_mem,
      List.mem_append, ExtTreeMap.mem_keys, ExtTreeMap.mem_keys, Std.compare_eq_iff_eq]
    tauto
  · rw [if_neg unknown, ExtTreeSet.mem_ofList, List.contains_iff_mem, List.mem_append,
      ExtTreeMap.mem_keys, ExtTreeMap.mem_keys]
    tauto

theorem nodup_allCountries :
    (allCountries slotsPerCountry stakePerCountry unknownSlots).toList.Nodup := by
  apply ExtTreeSet.distinct_toList.imp
  intro first second apart same
  exact apart (Std.compare_eq_iff_eq.mpr same)

end Rows

/-- A row and what it leaves out are the slots of its country and those without one. -/
theorem slotCount_add_marked (codes : List String) (unknown : Nat) (cc : String) :
    slotCount (tally id (fun _ => 1) codes) unknown cc +
        (if "??" = cc then codes.countP (fun cc => id cc = "??") else 0) =
      amountOf id (fun _ => 1) codes cc + if "??" = cc then unknown else 0 := by
  rw [slotCount, tally_getElem?]
  by_cases here : "??" = cc
  · subst here
    rw [if_pos rfl, if_pos rfl, if_pos rfl, amountOf_one, Nat.add_comm]
  · rw [if_neg (Ne.symm here), if_neg here, if_neg here]

/-- The slots of the rows, and those whose leader has the country code "??", are the slots
there are. -/
theorem sum_slotCount (entries : List SlotEntry) (stakePerCountry : ExtTreeMap String Nat) :
    ((allCountries (countSlots entries).1 stakePerCountry (countSlots entries).2).toList.map
          (slotCount (countSlots entries).1 (countSlots entries).2)).sum +
        entries.countP (fun entry => entry.countryCode = some "??") = entries.length := by
  rw [countSlots_eq]
  set codes := entries.filterMap SlotEntry.countryCode with codes_eq
  set unknown := entries.countP fun entry => entry.countryCode.isNone with unknown_eq
  set keys := (allCountries (tally id (fun _ => 1) codes) stakePerCountry unknown).toList
    with keys_eq
  have nodup : keys.Nodup := nodup_allCountries
  have covered : ∀ cc ∈ codes, id cc ∈ keys := fun cc mem =>
    mem_allCountries.mpr (Or.inl (mem_tally.mpr ⟨cc, mem, rfl⟩))
  have marked : codes.countP (fun cc => id cc = "??") =
      entries.countP fun entry => entry.countryCode = some "??" :=
    countP_countryCode "??" entries
  have total := congrArg List.sum
    (List.map_congr_left fun cc (_ : cc ∈ keys) => slotCount_add_marked codes unknown cc)
  rw [List.sum_map_add, List.sum_map_add, sum_ite_key nodup, sum_ite_key nodup,
    sum_amountOf nodup covered, List.map_const', List.sum_replicate, smul_eq_mul, Nat.mul_one,
    marked] at total
  -- The row "??" is there when it has anything to show or to leave out.
  have shown : ∀ count, (0 < count → "??" ∈ keys) →
      (if "??" ∈ keys then count else 0) = count := by
    intro count present
    split
    · rfl
    · next absent => exact (Nat.eq_zero_of_not_pos fun pos => absent (present pos)).symm
  rw [shown _ fun pos => mem_allCountries.mpr (Or.inr (Or.inr ⟨rfl, pos⟩)), shown _ ?_] at total
  · exact total.trans (countries_add_unknown entries)
  · intro pos
    obtain ⟨entry, mem, code⟩ := List.countP_pos_iff.mp pos
    exact covered "??" (List.mem_filterMap.mpr ⟨entry, mem, of_decide_eq_true code⟩)

/-- The keys of a summary, one for every row. -/
def countriesOf (snap : EpochSnapshot) (entries : List SlotEntry) : List String :=
  (allCountries (countSlots entries).1
    (tally countryOf ValidatorInfo.activeStakeLamports snap.validators)
    (countSlots entries).2).toList

/-- The order of the rows does not change their sums. -/
theorem sum_mergeSort (rows : List CountrySummary) (le : CountrySummary → CountrySummary → Bool)
    (count : CountrySummary → Nat) :
    ((rows.mergeSort le).map count).sum = (rows.map count).sum :=
  ((List.mergeSort_perm rows le).map count).sum_eq

/-- The slots of the rows are those of the map but for those whose leader has the country
code "??". -/
theorem summarize_slots (snap : EpochSnapshot) (slotMap : ExtTreeMap Nat SlotEntry) :
    ((summarize snap slotMap).countries.map CountrySummary.slotCount).sum +
        (slotMap.toList.map Prod.snd).countP (fun entry => entry.countryCode = some "??") =
      (summarize snap slotMap).totalSlots := by
  have total : (slotMap.toList.map Prod.snd).length = (summarize snap slotMap).totalSlots := by
    rw [List.length_map, ExtTreeMap.length_toList]
    rfl
  rw [← total, ← sum_slotCount (slotMap.toList.map Prod.snd)
    (tally countryOf ValidatorInfo.activeStakeLamports snap.validators)]
  refine congrArg (· + _) ((sum_mergeSort _ _ _).trans ?_)
  rw [List.map_map]
  rfl

/-- What the validators amount to, country by country. -/
theorem sum_validators (snap : EpochSnapshot) (entries : List SlotEntry)
    (amount : ValidatorInfo → Nat) :
    ((countriesOf snap entries).map fun cc =>
        ((tally countryOf amount snap.validators)[cc]?).getD 0).sum =
      (snap.validators.map amount).sum := by
  simp only [tally_getElem?]
  apply sum_amountOf nodup_allCountries
  intro v mem
  exact mem_allCountries.mpr (Or.inr (Or.inl (mem_tally.mpr ⟨v, mem, rfl⟩)))

section Parts

variable (snap : EpochSnapshot) (slotMap : ExtTreeMap Nat SlotEntry)

theorem summarize_stakes :
    ((summarize snap slotMap).countries.map CountrySummary.stakeLamports).sum =
      (summarize snap slotMap).totalStakeLamports := by
  apply (sum_mergeSort _ _ _).trans
  rw [List.map_map]
  exact sum_validators snap (slotMap.toList.map Prod.snd) ValidatorInfo.activeStakeLamports

theorem summarize_validators :
    ((summarize snap slotMap).countries.map CountrySummary.validatorCount).sum =
      snap.validators.length := by
  apply (sum_mergeSort _ _ _).trans
  rw [List.map_map]
  apply (sum_validators snap (slotMap.toList.map Prod.snd) fun _ => 1).trans
  rw [List.map_const', List.sum_replicate, smul_eq_mul, Nat.mul_one]

theorem summarize_totals :
    (summarize snap slotMap).mappedSlots + (summarize snap slotMap).unknownSlots =
      (summarize snap slotMap).totalSlots := by
  have unknown : (summarize snap slotMap).unknownSlots =
      (slotMap.toList.map Prod.snd).countP fun entry => entry.countryCode.isNone :=
    congrArg Prod.snd (countSlots_eq _)
  have within : (summarize snap slotMap).unknownSlots ≤ slotMap.size := by
    rw [unknown, ← ExtTreeMap.length_toList, ← List.length_map]
    exact List.countP_le_length
  exact Nat.sub_add_cancel within

theorem summarize_distinct :
    ((summarize snap slotMap).countries.map CountrySummary.countryCode).Nodup := by
  have rows : List.Perm ((summarize snap slotMap).countries.map CountrySummary.countryCode)
      (countriesOf snap (slotMap.toList.map Prod.snd)) := by
    apply ((List.mergeSort_perm _ _).map _).trans
    rw [List.map_map]
    exact List.Perm.of_eq (List.map_id _)
  exact rows.nodup_iff.mpr nodup_allCountries

/-- No slot of the map passes a test. -/
theorem countP_slots_eq_zero_iff (test : SlotEntry → Bool) :
    (slotMap.toList.map Prod.snd).countP test = 0 ↔
      ∀ (slot : Nat) (entry : SlotEntry), slotMap[slot]? = some entry → ¬test entry := by
  rw [List.countP_eq_zero]
  constructor
  · intro none' slot entry present
    exact none' entry (List.mem_map.mpr
      ⟨(slot, entry), ExtTreeMap.mem_toList_iff_getElem?_eq_some.mpr present, rfl⟩)
  · intro none' entry mem
    obtain ⟨⟨slot, _⟩, inMap, rfl⟩ := List.mem_map.mp mem
    exact none' slot _ (ExtTreeMap.mem_toList_iff_getElem?_eq_some.mp inMap)

end Parts

/-- The validator leads a slot of the epoch: the schedule gives an index to its name last, and
it is the last validator of this name. -/
def Leads (snap : EpochSnapshot) (v : ValidatorInfo) : Prop :=
  (∃ idx, leaderOf snap.schedule idx = some v.identity) ∧
    (snap.validators.reverse.find? fun other => v.identity = other.identity) = some v

/-- The entries of the map take their countries from the validators that lead a slot. -/
theorem unmarked_iff (snap : EpochSnapshot) (code : String) :
    (∀ (slot : Nat) (entry : SlotEntry), (buildSlotMap snap)[slot]? = some entry →
        entry.countryCode ≠ some code) ↔
      ∀ v, Leads snap v → v.countryCode ≠ some code := by
  constructor
  · rintro unmarked v ⟨⟨idx, leads⟩, last⟩
    have led : (buildSlotMap snap)[snap.epoch.epochFirstSlot + idx]? =
        some (slotEntry (some v) (snap.epoch.epochFirstSlot + idx) v.identity) := by
      rw [buildSlotMap_getElem?, ledBy, leaderAfter, if_pos (Nat.le_add_right _ _),
        Nat.add_sub_cancel_left, leads, Option.map_some, last]
    exact unmarked _ _ led
  · intro unmarked slot entry present marked
    rw [buildSlotMap_getElem?] at present
    obtain ⟨identity, leads, rfl⟩ := Option.map_eq_some_iff.mp present
    obtain ⟨v, last, country⟩ := Option.bind_eq_some_iff.mp marked
    obtain rfl : identity = v.identity := by simpa using List.find?_some last
    rw [leaderAfter] at leads
    split at leads
    · exact unmarked v ⟨⟨_, leads⟩, last⟩ country
    · cases leads

/-- **The stakes, the validators and the totals are always conserved, and the slots of the
rows sum to those of the map exactly when no validator with the country code "??" leads a
slot.** -/
theorem summarize_conserves_iff (snap : EpochSnapshot) :
    Conserves snap (summarize snap (buildSlotMap snap)) ↔
      ∀ v, Leads snap v → v.countryCode ≠ some "??" := by
  have slots := summarize_slots snap (buildSlotMap snap)
  have marked := countP_slots_eq_zero_iff (buildSlotMap snap) fun entry =>
    entry.countryCode = some "??"
  simp only [decide_eq_true_eq] at marked
  rw [← unmarked_iff, ← marked]
  constructor
  · intro conserves
    have all := conserves.slots
    omega
  · intro unmarked
    rw [unmarked] at slots
    exact ⟨slots, summarize_stakes _ _, summarize_validators _ _, summarize_totals _ _,
      summarize_distinct _ _⟩

/-- A slot whose leader has the country code "??", and one whose leader is not known. -/
def sampleMarked : EpochSnapshot where
  epoch := { epoch := 1, absoluteSlot := 100, slotIndex := 0, slotsInEpoch := 2 }
  validators := [⟨"A", none, none, 5, some "??", none⟩]
  schedule := sampleSchedule

/-- Two slots, one in the row "??", and no other row: a slot is lost. -/
theorem sampleMarked_losesSlot :
    ((summarize sampleMarked (buildSlotMap sampleMarked)).countries.map
        CountrySummary.slotCount).sum = 1 ∧
      (summarize sampleMarked (buildSlotMap sampleMarked)).totalSlots = 2 ∧
      ¬Conserves sampleMarked (summarize sampleMarked (buildSlotMap sampleMarked)) := by
  have slots := summarize_slots sampleMarked (buildSlotMap sampleMarked)
  have marked : ((buildSlotMap sampleMarked).toList.map Prod.snd).countP
      (fun entry => entry.countryCode = some "??") = 1 := by
    decide +kernel
  have total : (summarize sampleMarked (buildSlotMap sampleMarked)).totalSlots = 2 := by
    decide +kernel
  rw [marked, total] at slots
  refine ⟨Nat.succ.inj slots, total, ?_⟩
  intro conserves
  have all := conserves.slots
  omega

end SenderAnalysis.LeaderMap
