import SenderAnalysis.EntrySources.ShredStream.FecSetRuns
import Mathlib.Data.List.Sort
import Mathlib.Order.Interval.Finset.Nat

/-!
# When a FEC set is complete

The tracker counts the data shreds of a set and does not look at their indices. When
the indices of the set run from its first to the index of its only terminator, the
count is right: shreds with one index are kept once, so as many of them as there are
indices are all of them (`complete_iff`). The set is therefore handed on with the shred
that fills its last gap (`noReady_iff`), and what is handed on are its data shreds, one
for every index, in order (`ready_indices`).
-/

set_option autoImplicit false

namespace SenderAnalysis.ShredStream

/-- A packet and the clock when a set is found complete. -/
abbrev IngestInput := RawShredPacket × Instant

namespace FecTracker

variable (parse : List UInt8 → Option Shred)

/-- A new tracker after a list of packets, without an eviction. -/
def ingestAll (past : List IngestInput) : FecTracker :=
  past.foldl (fun tracker input => (tracker.ingest parse input.1 input.2).1) {}

/-- What the tracker answers to the next packet. -/
def answer (past : List IngestInput) (input : IngestInput) : Option FecSetReady :=
  ((ingestAll parse past).ingest parse input.1 input.2).2.1

/-- The answer, when it is the given set. -/
def readyOf (key : FecSetKey) (past : List IngestInput) (input : IngestInput) :
    Option FecSetReady :=
  (answer parse past input).filter fun ready => ready.key = key

/-- The tracker has not answered with the set. -/
def NoReady (key : FecSetKey) (past : List IngestInput) : Prop :=
  EachAfter (fun before earlier => readyOf parse key before earlier = none) past

/-- The packet is the first to which the tracker answers with the set. -/
def FirstReady (key : FecSetKey) (past : List IngestInput) (input : IngestInput) : Prop :=
  (readyOf parse key past input).isSome ∧ NoReady parse key past

/-- The shreds of a set among the packets. -/
def arrivalsOf (key : FecSetKey) (past : List IngestInput) : List Arrival :=
  past.filterMap fun input => (parse input.1.bytes).bind fun shred =>
    if shred.key = key then some (input.1.receivedAt, shred) else none

end FecTracker

/-- No data shred has the greatest index there is: the ledger bounds the number of shreds
of a slot far below it, and the parser rejects what is above the bound. -/
def IndexBounded (parse : List UInt8 → Option Shred) : Prop :=
  ∀ bytes shred, parse bytes = some shred → shred.shredType = .data →
    shred.index.toNat < 2 ^ 32 - 1

/-- The data shreds of the set have indices from the first of the set to that of its only
terminator. -/
structure IsFecSet (key : FecSetKey) (terminator : UInt32) (arrivals : List Arrival) : Prop where
  range : ∀ arrival ∈ arrivals, arrival.2.shredType = .data →
    key.2 ≤ arrival.2.index ∧ arrival.2.index ≤ terminator
  marked : ∀ arrival ∈ arrivals, arrival.2.shredType = .data →
    (arrival.2.isTerminator ↔ arrival.2.index = terminator)

theorem IsFecSet.of_subset {key : FecSetKey} {terminator : UInt32} {fewer more : List Arrival}
    (isSet : IsFecSet key terminator more) (subset : ∀ arrival ∈ fewer, arrival ∈ more) :
    IsFecSet key terminator fewer where
  range arrival member := isSet.range arrival (subset arrival member)
  marked arrival member := isSet.marked arrival (subset arrival member)

/-- A data shred of every index of the set has arrived. -/
def AllArrived (key : FecSetKey) (terminator : UInt32) (arrivals : List Arrival) : Prop :=
  ∀ idx, key.2 ≤ idx → idx ≤ terminator → idx ∈ dataIndices arrivals

/-! ## Counting is enough -/

theorem mem_dataIndices {arrivals : List Arrival} {idx : UInt32} :
    idx ∈ dataIndices arrivals ↔
      ∃ arrival ∈ arrivals, arrival.2.shredType = .data ∧ arrival.2.index = idx := by
  simp only [dataIndices, List.mem_toFinset, List.mem_map, List.mem_filter, decide_eq_true_eq,
    and_assoc]

theorem AllArrived.mono {key : FecSetKey} {terminator : UInt32} {past more : List Arrival}
    (all : AllArrived key terminator past) (kept : ∀ arrival ∈ past, arrival ∈ more) :
    AllArrived key terminator more := by
  intro idx above below
  obtain ⟨arrival, member, rest⟩ := mem_dataIndices.mp (all idx above below)
  exact mem_dataIndices.mpr ⟨arrival, kept _ member, rest⟩

/-- The indices of a set, as numbers. -/
def indexRange (key : FecSetKey) (terminator : UInt32) : Finset Nat :=
  Finset.Icc key.2.toNat terminator.toNat

theorem card_indexRange (key : FecSetKey) (terminator : UInt32) :
    (indexRange key terminator).card = terminator.toNat + 1 - key.2.toNat :=
  Nat.card_Icc _ _

section Set

variable {key : FecSetKey} {terminator : UInt32} {arrivals : List Arrival}

theorem IsFecSet.subset (isSet : IsFecSet key terminator arrivals) :
    (dataIndices arrivals).image UInt32.toNat ⊆ indexRange key terminator := by
  intro idx member
  obtain ⟨index, listed, rfl⟩ := Finset.mem_image.mp member
  obtain ⟨arrival, arrived, data, rfl⟩ := mem_dataIndices.mp listed
  obtain ⟨above, below⟩ := isSet.range arrival arrived data
  exact Finset.mem_Icc.mpr ⟨UInt32.le_iff_toNat_le.mp above, UInt32.le_iff_toNat_le.mp below⟩

theorem card_image_toNat (indices : Finset UInt32) :
    (indices.image UInt32.toNat).card = indices.card :=
  Finset.card_image_of_injective _ fun _ _ same => UInt32.toNat_inj.mp same

theorem IsFecSet.image_eq_iff (isSet : IsFecSet key terminator arrivals) :
    (dataIndices arrivals).image UInt32.toNat = indexRange key terminator ↔
      AllArrived key terminator arrivals := by
  constructor
  · intro same idx above below
    have inRange : idx.toNat ∈ indexRange key terminator :=
      Finset.mem_Icc.mpr ⟨UInt32.le_iff_toNat_le.mp above, UInt32.le_iff_toNat_le.mp below⟩
    rw [← same] at inRange
    obtain ⟨index, listed, equal⟩ := Finset.mem_image.mp inRange
    rwa [← UInt32.toNat_inj.mp equal]
  · intro all
    refine isSet.subset.antisymm fun number inRange => ?_
    obtain ⟨above, below⟩ := Finset.mem_Icc.mp inRange
    have small : number < 2 ^ 32 := Nat.lt_of_le_of_lt below terminator.toNat_lt
    have exact' : (UInt32.ofNat number).toNat = number := UInt32.toNat_ofNat_of_lt' small
    refine Finset.mem_image.mpr ⟨UInt32.ofNat number, all _ ?_ ?_, exact'⟩
    · rwa [UInt32.le_iff_toNat_le, exact']
    · rwa [UInt32.le_iff_toNat_le, exact']

/-- There are as many indices as the set has exactly when all of them are there. -/
theorem IsFecSet.card_iff (isSet : IsFecSet key terminator arrivals) :
    terminator.toNat + 1 - key.2.toNat ≤ (dataIndices arrivals).card ↔
      AllArrived key terminator arrivals := by
  rw [← isSet.image_eq_iff, ← card_indexRange, ← card_image_toNat]
  constructor
  · exact Finset.eq_of_subset_of_card_le isSet.subset
  · exact fun same => (congrArg Finset.card same).ge

/-- What is announced is announced by the terminator. -/
theorem IsFecSet.announced_eq (isSet : IsFecSet key terminator arrivals)
    (own : ∀ arrival ∈ arrivals, arrival.2.key = key) :
    announced arrivals =
      if terminator ∈ dataIndices arrivals then some (terminator - key.2 + 1) else none := by
  cases found : arrivals.reverse.find? fun arrival =>
      arrival.2.shredType = .data ∧ arrival.2.isTerminator with
  | none =>
    rw [announced, found, if_neg]
    · rfl
    · intro listed
      obtain ⟨arrival, arrived, data, last⟩ := mem_dataIndices.mp listed
      have none := List.find?_eq_none.mp found arrival (List.mem_reverse.mpr arrived)
      exact none (decide_eq_true ⟨data, (isSet.marked arrival arrived data).mpr last⟩)
  | some arrival =>
    have arrived := List.mem_reverse.mp (List.mem_of_find?_eq_some found)
    have test := List.find?_some found
    obtain ⟨data, marks⟩ := of_decide_eq_true test
    have last := (isSet.marked arrival arrived data).mp marks
    have first : arrival.2.fecSetIndex = key.2 := congrArg Prod.snd (own arrival arrived)
    rw [announced, found, if_pos (mem_dataIndices.mpr ⟨arrival, arrived, data, last⟩),
      Option.map_some, last, first]

/-- **A set is complete when all its indices are there.** -/
theorem IsFecSet.complete_iff (isSet : IsFecSet key terminator arrivals)
    (own : ∀ arrival ∈ arrivals, arrival.2.key = key)
    (bounded : ∀ arrival ∈ arrivals, arrival.2.shredType = .data →
      arrival.2.index.toNat < 2 ^ 32 - 1) :
    Complete arrivals ↔ key.2 ≤ terminator ∧ AllArrived key terminator arrivals := by
  rw [Complete, isSet.announced_eq own]
  by_cases listed : terminator ∈ dataIndices arrivals
  · obtain ⟨arrival, arrived, data, last⟩ := mem_dataIndices.mp listed
    have ordered : key.2 ≤ terminator := last ▸ (isSet.range arrival arrived data).1
    have small : terminator.toNat < 2 ^ 32 - 1 := last ▸ bounded arrival arrived data
    have lower := UInt32.le_iff_toNat_le.mp ordered
    -- neither the announced count nor the number of indices wraps around
    have count : (terminator - key.2 + 1).toNat = terminator.toNat + 1 - key.2.toNat := by
      rw [UInt32.toNat_add, UInt32.toNat_sub_of_le _ _ ordered, UInt32.toNat_one]
      omega
    have few : (dataIndices arrivals).card ≤ terminator.toNat + 1 - key.2.toNat := by
      rw [← card_indexRange, ← card_image_toNat]
      exact Finset.card_le_card isSet.subset
    have kept : (UInt32.ofNat (dataIndices arrivals).card).toNat = (dataIndices arrivals).card :=
      UInt32.toNat_ofNat_of_lt' (by rw [UInt32.size]; omega)
    have enough : terminator - key.2 + 1 ≤ UInt32.ofNat (dataIndices arrivals).card ↔
        terminator.toNat + 1 - key.2.toNat ≤ (dataIndices arrivals).card := by
      rw [UInt32.le_iff_toNat_le, kept, count]
    rw [if_pos listed, ← isSet.card_iff, ← enough]
    simp [ordered]
  · rw [if_neg listed]
    constructor
    · rintro ⟨_, none, _⟩
      cases none
    · rintro ⟨ordered, all⟩
      exact absurd (all terminator ordered (UInt32.le_refl _)) listed

end Set

/-! ## What is handed on -/

/-- The data shreds are kept under their own indices. -/
theorem collect_data_index (arrivals : List Arrival) :
    ∀ idx shred, (collect arrivals).data.get idx = some shred → shred.index = idx := by
  induction arrivals using List.reverseRecOn with
  | nil => simp [collect]
  | append_singleton past arrival ih =>
    intro idx shred found
    rw [collect_concat, FecSetState.note] at found
    cases kind : arrival.2.shredType with
    | code => exact ih idx shred (by simpa [kind] using found)
    | data =>
      simp only [kind, HashTable.get_insert] at found
      split at found
      · next here =>
        cases found
        exact here.symm
      · exact ih idx shred found

theorem collect_data_keys (arrivals : List Arrival) :
    (collect arrivals).data.entries.map (fun entry => entry.2.index) =
      (collect arrivals).data.entries.map Sigma.fst :=
  List.map_congr_left fun entry member =>
    collect_data_index arrivals entry.1 entry.2 (HashTable.mem_entries.mp member)

/-- **The data shreds of a complete set are handed on in order, one for every index.** -/
theorem IsFecSet.ready_indices {key : FecSetKey} {terminator : UInt32} {arrivals : List Arrival}
    (isSet : IsFecSet key terminator arrivals) (all : AllArrived key terminator arrivals)
    (stamped : (collect arrivals).firstShredAt.isSome) (completedAt : Instant) :
    ((collect arrivals).ready stamped key completedAt).dataShreds.map
        (fun shred => shred.index.toNat) =
      List.range' key.2.toNat (terminator.toNat + 1 - key.2.toNat) := by
  have sorted : (((collect arrivals).ready stamped key completedAt).dataShreds.map
      (fun shred => shred.index.toNat)).Pairwise (· ≤ ·) := by
    rw [List.pairwise_map]
    have ordered := @List.pairwise_mergeSort Shred
      (fun first second => decide (first.index ≤ second.index))
      (fun _ _ _ first second => decide_eq_true
        (UInt32.le_trans (of_decide_eq_true first) (of_decide_eq_true second)))
      (fun _ _ => by simpa using UInt32.le_total _ _)
      ((collect arrivals).data.entries.map fun entry => entry.2)
    exact ordered.imp fun le => UInt32.le_iff_toNat_le.mp (of_decide_eq_true le)
  have kept : (((collect arrivals).ready stamped key completedAt).dataShreds.map
      (fun shred => shred.index.toNat)).Perm
        ((collect arrivals).data.entries.map fun entry => entry.1.toNat) := by
    refine ((List.mergeSort_perm _ _).map _).trans (List.Perm.of_eq ?_)
    have same := congrArg (List.map UInt32.toNat) (collect_data_keys arrivals)
    simpa [List.map_map, Function.comp_def] using same
  have nodup : ((collect arrivals).data.entries.map fun entry => entry.1.toNat).Nodup := by
    have keys : ((collect arrivals).data.entries.map Sigma.fst).Nodup :=
      (collect arrivals).data.nodupKeys
    have injective : Function.Injective UInt32.toNat := fun _ _ same => UInt32.toNat_inj.mp same
    simpa [List.map_map, Function.comp_def] using keys.map injective
  have members : ∀ number, number ∈ ((collect arrivals).data.entries.map fun entry =>
      entry.1.toNat) ↔ number ∈ List.range' key.2.toNat (terminator.toNat + 1 - key.2.toNat) := by
    intro number
    have inRange : number ∈ List.range' key.2.toNat (terminator.toNat + 1 - key.2.toNat) ↔
        number ∈ indexRange key terminator := by
      rw [List.mem_range'_1, indexRange, Finset.mem_Icc]
      omega
    rw [inRange, ← isSet.image_eq_iff.mpr all, Finset.mem_image, List.mem_map]
    constructor
    · rintro ⟨entry, member, rfl⟩
      have held := HashTable.mem_entries.mp member
      exact ⟨entry.1, ((collect_data arrivals).2 _).mpr (Option.isSome_of_eq_some held), rfl⟩
    · rintro ⟨idx, listed, rfl⟩
      obtain ⟨shred, held⟩ :=
        Option.isSome_iff_exists.mp (((collect_data arrivals).2 idx).mp listed)
      exact ⟨⟨idx, shred⟩, HashTable.mem_entries.mpr held, rfl⟩
  have perm := kept.trans ((List.perm_ext_iff_of_nodup nodup (List.nodup_range' 1)).mpr members)
  exact perm.eq_of_pairwise' sorted (List.pairwise_le_range' 1)

/-! ## The first time a set is handed on -/

namespace FecTracker

variable {parse : List UInt8 → Option Shred} {key : FecSetKey} {past : List IngestInput}
  {input : IngestInput}

theorem ingestAll_concat (past : List IngestInput) (input : IngestInput) :
    ingestAll parse (past ++ [input]) =
      ((ingestAll parse past).ingest parse input.1 input.2).1 :=
  List.foldl_concat _ _ _ _

theorem arrivalsOf_append (first second : List IngestInput) :
    arrivalsOf parse key (first ++ second) =
      arrivalsOf parse key first ++ arrivalsOf parse key second :=
  List.filterMap_append

theorem arrivalsOf_own {shred : Shred} (parsed : parse input.1.bytes = some shred)
    (own : shred.key = key) : arrivalsOf parse key [input] = [(input.1.receivedAt, shred)] := by
  simp [arrivalsOf, parsed, own]

/-- A packet that brings no shred of the set does nothing to the set. -/
theorem ingest_other (other : ∀ shred, parse input.1.bytes = some shred → shred.key ≠ key) :
    readyOf parse key past input = none ∧ arrivalsOf parse key [input] = [] ∧
      (ingestAll parse (past ++ [input])).sets.get key = (ingestAll parse past).sets.get key := by
  rw [ingestAll_concat, readyOf, answer, ingest, arrivalsOf]
  cases parsed : parse input.1.bytes with
  | none => simp [parsed]
  | some shred =>
    have apart := other shred parsed
    refine ⟨?_, by simp [parsed, apart], ?_⟩
    · dsimp only
      rw [accept]
      split
      · simpa [FecSetState.ready, FecSetReady.key] using apart
      · rfl
    · exact (get_accept _ _ _ _ _).trans (if_neg (Ne.symm apart))

/-- A shred of a set of which the tracker holds the arrivals. -/
theorem ingest_own (held : (ingestAll parse past).sets.get key =
      heldState (arrivalsOf parse key past))
    {shred : Shred} (parsed : parse input.1.bytes = some shred) (own : shred.key = key) :
    (Complete (arrivalsOf parse key (past ++ [input])) ∧
      ∃ stamped, readyOf parse key past input =
        some ((collect (arrivalsOf parse key (past ++ [input]))).ready stamped key input.2)) ∨
    ¬ Complete (arrivalsOf parse key (past ++ [input])) ∧ readyOf parse key past input = none ∧
      (ingestAll parse (past ++ [input])).sets.get key =
        heldState (arrivalsOf parse key (past ++ [input])) := by
  have entry : (ingestAll parse past).entry key = collect (arrivalsOf parse key past) := by
    rw [FecTracker.entry, held, getD_heldState]
  have noted : ((ingestAll parse past).entry key).note input.1.receivedAt shred =
      collect (arrivalsOf parse key (past ++ [input])) := by
    rw [entry, arrivalsOf_append, arrivalsOf_own parsed own, collect_concat]
  have stamped : (collect (arrivalsOf parse key (past ++ [input]))).firstShredAt.isSome :=
    noted ▸ FecSetState.isSome_note _ _ _
  have answered : answer parse past input =
      if (collect (arrivalsOf parse key (past ++ [input]))).dataComplete then
        some ((collect (arrivalsOf parse key (past ++ [input]))).ready stamped key input.2)
      else none := by
    subst own
    rw [answer, ingest, parsed]
    dsimp only
    rw [accept]
    simp only [noted]
    split <;> rfl
  have next := get_accept (ingestAll parse past) input.1.receivedAt input.2 shred key
  rw [if_pos own.symm, noted] at next
  by_cases complete : Complete (arrivalsOf parse key (past ++ [input]))
  · refine .inl ⟨complete, stamped, ?_⟩
    rw [readyOf, answered, if_pos ((collect_dataComplete _).mpr complete), Option.filter_some]
    simp [FecSetState.ready, FecSetReady.key]
  · have open' := mt (collect_dataComplete _).mp complete
    refine .inr ⟨complete, ?_, ?_⟩
    · rw [readyOf, answered, if_neg open']
      rfl
    · have nonempty : arrivalsOf parse key (past ++ [input]) ≠ [] := by
        simp [arrivalsOf_append, arrivalsOf_own parsed own]
      rw [if_neg open'] at next
      rw [ingestAll_concat, ingest, parsed, heldState, if_neg nonempty]
      exact next

/-- As long as the set was not handed on, the tracker holds its arrivals, and they are not
complete. -/
theorem held_of_noReady (none : NoReady parse key past) :
    (ingestAll parse past).sets.get key = heldState (arrivalsOf parse key past) ∧
      ¬ Complete (arrivalsOf parse key past) := by
  induction past using List.reverseRecOn with
  | nil => exact ⟨HashTable.get_empty _, by simp [arrivalsOf, Complete, announced]⟩
  | append_singleton earlier last ih =>
    obtain ⟨before, here⟩ := eachAfter_concat.mp none
    obtain ⟨held, incomplete⟩ := ih before
    by_cases own : ∃ shred, parse last.1.bytes = some shred ∧ shred.key = key
    · obtain ⟨shred, parsed, own⟩ := own
      rcases ingest_own held parsed own with ⟨_, _, ready⟩ | ⟨open', _, next⟩
      · rw [ready] at here
        cases here
      · exact ⟨next, open'⟩
    · obtain ⟨_, quiet, next⟩ := @ingest_other parse key earlier last
        fun shred parsed same => own ⟨shred, parsed, same⟩
      rw [next, arrivalsOf_append, quiet, List.append_nil]
      exact ⟨held, incomplete⟩

theorem mem_arrivalsOf {arrival : Arrival} :
    arrival ∈ arrivalsOf parse key past ↔
      ∃ input ∈ past, parse input.1.bytes = some arrival.2 ∧ arrival.2.key = key ∧
        input.1.receivedAt = arrival.1 := by
  rw [arrivalsOf, List.mem_filterMap]
  constructor
  · rintro ⟨input, member, found⟩
    obtain ⟨shred, parsed, kept⟩ := Option.bind_eq_some_iff.mp found
    split at kept
    · next own =>
      cases kept
      exact ⟨input, member, parsed, own, rfl⟩
    · cases kept
  · rintro ⟨input, member, parsed, own, stamp⟩
    exact ⟨input, member, by simp [parsed, own, stamp]⟩

/-- The arrivals of a set are complete when all its indices are there. -/
theorem complete_arrivalsOf_iff (bounded : IndexBounded parse) {terminator : UInt32}
    (isSet : IsFecSet key terminator (arrivalsOf parse key past)) :
    Complete (arrivalsOf parse key past) ↔
      key.2 ≤ terminator ∧ AllArrived key terminator (arrivalsOf parse key past) := by
  refine isSet.complete_iff (fun arrival member => ?_) fun arrival member => ?_
  · obtain ⟨_, _, _, own, _⟩ := mem_arrivalsOf.mp member
    exact own
  · obtain ⟨input, _, parsed, _⟩ := mem_arrivalsOf.mp member
    exact bounded _ _ parsed

/-- **The set was handed on as soon as all its indices had arrived.** -/
theorem noReady_iff (bounded : IndexBounded parse) {terminator : UInt32}
    (isSet : IsFecSet key terminator (arrivalsOf parse key past)) :
    NoReady parse key past ↔
      ¬ (key.2 ≤ terminator ∧ AllArrived key terminator (arrivalsOf parse key past)) := by
  constructor
  · intro none
    exact mt (complete_arrivalsOf_iff bounded isSet).mpr (held_of_noReady none).2
  · intro missing
    induction past using List.reverseRecOn with
    | nil => exact eachAfter_nil _
    | append_singleton earlier last ih =>
      have kept : ∀ arrival ∈ arrivalsOf parse key earlier,
          arrival ∈ arrivalsOf parse key (earlier ++ [last]) := by
        intro arrival member
        rw [arrivalsOf_append]
        exact List.mem_append_left _ member
      have none := ih (isSet.of_subset kept) fun all => missing ⟨all.1, all.2.mono kept⟩
      refine eachAfter_concat.mpr ⟨none, ?_⟩
      by_cases own : ∃ shred, parse last.1.bytes = some shred ∧ shred.key = key
      · obtain ⟨shred, parsed, own⟩ := own
        rcases ingest_own (held_of_noReady none).1 parsed own with ⟨complete, _⟩ | ⟨_, quiet, _⟩
        · exact absurd ((complete_arrivalsOf_iff bounded isSet).mp complete) missing
        · exact quiet
      · exact (ingest_other fun shred parsed same => own ⟨shred, parsed, same⟩).1

theorem firstReady_iff :
    FirstReady parse key past input ↔
      NoReady parse key past ∧ ¬ NoReady parse key (past ++ [input]) := by
  have answered : (readyOf parse key past input).isSome ↔ ¬ readyOf parse key past input = none :=
    Option.isSome_iff_ne_none
  rw [FirstReady, NoReady, NoReady, eachAfter_concat, answered]
  tauto

/-- What is handed on the first time is what was collected. -/
theorem readyOf_of_firstReady (first : FirstReady parse key past input) :
    Complete (arrivalsOf parse key (past ++ [input])) ∧
      ∃ stamped, readyOf parse key past input =
        some ((collect (arrivalsOf parse key (past ++ [input]))).ready stamped key input.2) := by
  obtain ⟨answered, none⟩ := first
  by_cases own : ∃ shred, parse input.1.bytes = some shred ∧ shred.key = key
  · obtain ⟨shred, parsed, own⟩ := own
    rcases ingest_own (held_of_noReady none).1 parsed own with ready | ⟨_, quiet, _⟩
    · exact ready
    · simp [quiet] at answered
  · have quiet := (@ingest_other parse key past input
      fun shred parsed same => own ⟨shred, parsed, same⟩).1
    simp [quiet] at answered

/-- **FEC completion is exact.** Without an eviction, the tracker answers with the set for
the first time exactly when the packet brings the last index of the set that was missing,
and the data shreds it hands on are one for every index of the set, in order. -/
theorem completion_exact (parse : List UInt8 → Option Shred) (bounded : IndexBounded parse)
    (key : FecSetKey) (terminator : UInt32) (inputs : List IngestInput)
    (isSet : IsFecSet key terminator (arrivalsOf parse key inputs))
    (past : List IngestInput) (input : IngestInput) (rest : List IngestInput)
    (split : inputs = past ++ input :: rest) :
    (FirstReady parse key past input ↔
      AllArrived key terminator (arrivalsOf parse key (past ++ [input])) ∧
        ¬ AllArrived key terminator (arrivalsOf parse key past)) ∧
    ∀ ready, FirstReady parse key past input → readyOf parse key past input = some ready →
      ready.key = key ∧ ready.dataShreds.map (fun shred => shred.index.toNat) =
        List.range' key.2.toNat (terminator.toNat + 1 - key.2.toNat) := by
  have within : ∀ arrival ∈ arrivalsOf parse key (past ++ [input]),
      arrival ∈ arrivalsOf parse key inputs := by
    intro arrival member
    rw [split, List.append_cons, arrivalsOf_append]
    exact List.mem_append_left _ member
  have earlier : ∀ arrival ∈ arrivalsOf parse key past,
      arrival ∈ arrivalsOf parse key (past ++ [input]) := by
    intro arrival member
    rw [arrivalsOf_append]
    exact List.mem_append_left _ member
  have isSet' := isSet.of_subset within
  constructor
  · rw [firstReady_iff, noReady_iff bounded isSet', noReady_iff bounded (isSet'.of_subset earlier),
      not_not]
    constructor
    · rintro ⟨missing, ordered, all⟩
      exact ⟨all, fun before => missing ⟨ordered, before⟩⟩
    · rintro ⟨all, missing⟩
      refine ⟨fun before => missing before.2, ?_, all⟩
      -- an index that is missing lies in the range of the set
      by_contra empty
      exact missing fun idx above below => absurd (UInt32.le_trans above below) empty
  · intro ready first found
    obtain ⟨complete, stamped, same⟩ := readyOf_of_firstReady first
    rw [found, Option.some.injEq] at same
    have all := ((complete_arrivalsOf_iff bounded isSet').mp complete).2
    subst same
    exact ⟨rfl, isSet'.ready_indices all stamped input.2⟩

theorem sampleCodecs_indexBounded : IndexBounded sampleCodecs.newFromSerializedShred := by
  intro bytes shred parsed _
  obtain ⟨index, _, rfl⟩ := Option.map_eq_some_iff.mp parsed
  have small : index.toUInt32.toNat < 256 := by simpa using index.toNat_lt
  exact Nat.lt_of_lt_of_le small (by decide)

/-- The second shred of a set, the same again, and then the first. -/
def shuffledInputs : List IngestInput :=
  [1, 1, 0].map fun index => ((samplePacket index).packet, 0)

theorem shuffledInputs_isSet :
    IsFecSet (100, 0) 1 (arrivalsOf sampleCodecs.newFromSerializedShred (100, 0) shuffledInputs) :=
  ⟨by decide +kernel, by decide +kernel⟩

/-- The set is handed on with its first shred, which comes last. -/
theorem completion_exact_shuffled :
    FirstReady sampleCodecs.newFromSerializedShred (100, 0) (shuffledInputs.take 2)
      ((samplePacket 0).packet, 0) := by
  refine (completion_exact sampleCodecs.newFromSerializedShred sampleCodecs_indexBounded (100, 0)
    1 shuffledInputs shuffledInputs_isSet (shuffledInputs.take 2) ((samplePacket 0).packet, 0) []
    rfl).1.mpr ⟨?_, fun all => ?_⟩
  · exact shuffledInputs_isSet.image_eq_iff.mp (by decide +kernel)
  · exact absurd (all 0 (by decide) (by decide)) (by decide +kernel)

end FecTracker

end SenderAnalysis.ShredStream
