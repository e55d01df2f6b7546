import SenderAnalysis.FanOut.PohSupervisor.Reordering

/-!
# Runs that replay every slot

What the supervisor emits for a slot is followed along a whole run: nothing while no
entry of the slot has come, a reordered beginning of the replay while the slot is
open, and the whole replay with the slot's end once it is sealed (`Follows`).

The run is undisturbed (`Undisturbed`): an arrival above the cursor finds room in the
buffer, a sweep finds no gap that has waited too long, and it seals a slot only after
all entries of the slot have arrived.
-/

set_option autoImplicit false

namespace SenderAnalysis.PohSupervisor

open Std (ExtTreeMap)
open OrderedMap

/-- The entry an input brings. -/
def Input.merged? : Input → Option MergedEntry
  | .receive merged _ => some merged
  | .sweep _ | .shutdown _ => none

/-- The entries received, in order. -/
def received (inputs : List Input) : List MergedEntry := inputs.filterMap Input.merged?

/-- The indices at which entries of a slot arrived. -/
def arrivedAt (slotKey : Nat) (entries : List MergedEntry) : List UInt32 :=
  (entries.filter fun merged => decide (merged.observation.slot = slotKey)).map
    fun merged => merged.observation.entryIndex

/-- The entries report what the blocks contain, every entry once. -/
structure Delivers (block : Nat → List EntryContent) (entries : List MergedEntry) : Prop where
  reports : ∀ merged ∈ entries, merged.observation.Reports block
  once : (entries.map fun merged =>
    (merged.observation.slot, merged.observation.entryIndex)).Nodup
  all : ∀ slotKey, AllArrived (block slotKey) (arrivedAt slotKey entries)

/-- An input does not disturb the reordering: the buffer has room, no gap times out and
no slot is sealed before all its entries have arrived. -/
def Undisturbed (cfg : Config) (block : Nat → List EntryContent) (past : List Input) :
    Input → Prop
  | .receive merged _ =>
      WithinCapacity cfg (stateFound cfg merged.observation.slot past) merged.observation
  | .sweep now =>
      ∀ slotKey slot, (run cfg past).1.slots[slotKey]? = some slot → slot.isSealed = false →
        NoGapExpires cfg slot now ∧
          (due cfg (run cfg past).1.maxSlot slotKey = true →
            AllArrived (block slotKey) (arrivedAt slotKey (received past)))
  | .shutdown _ => True

theorem received_concat (past : List Input) (input : Input) :
    received (past ++ [input]) = received past ++ input.merged?.toList := by
  rw [received, List.filterMap_append]
  cases found : input.merged? <;> simp [found, received]

theorem arrivedAt_concat (slotKey : Nat) (entries : List MergedEntry) (merged : MergedEntry) :
    arrivedAt slotKey (entries ++ [merged]) =
      arrivedAt slotKey entries ++
        if merged.observation.slot = slotKey then [merged.observation.entryIndex] else [] := by
  unfold arrivedAt
  by_cases here : merged.observation.slot = slotKey <;> simp [here]

theorem mem_arrivedAt {slotKey : Nat} {entries : List MergedEntry} {idx : UInt32} :
    idx ∈ arrivedAt slotKey entries ↔
      ∃ merged ∈ entries, merged.observation.slot = slotKey ∧
        merged.observation.entryIndex = idx := by
  simp [arrivedAt, and_assoc]

/-- What the supervisor holds and has emitted for a slot. -/
inductive Follows (slotKey : Nat) (contents : List EntryContent) (arrived : List UInt32)
    (found : Option PohSlot) (events : List Essence) : Prop where
  | untouched (absent : found = none) (none : arrived = []) (silent : events = [])
  | reordering (slot : PohSlot) (count : Nat) (held : found = some slot)
      (nonempty : contents ≠ []) (reordered : Reordered contents arrived slot events count)
  | ended (nonempty : contents ≠ []) (all : AllArrived contents arrived)
      (closed : ∀ slot, found = some slot → slot.isSealed = true)
      (replayed : events = replayedEvents slotKey contents)

section Steps

variable {cfg : Config} {slotKey : Nat} {contents : List EntryContent} {arrived : List UInt32}
  {found : Option PohSlot} {events : List Essence}

/-- An entry of the slot arrives. -/
theorem Follows.arrive (follows : Follows slotKey contents arrived found events)
    (settled : Settled slotKey (found.getD {})) {merged : MergedEntry}
    (fresh : merged.observation.entryIndex ∉ arrived)
    (content : contents[merged.observation.entryIndex.toNat]? = some merged.observation.content)
    (room : WithinCapacity cfg (found.getD {}) merged.observation) (now : Instant) :
    Follows slotKey contents (arrived ++ [merged.observation.entryIndex])
      (some (processSlot cfg (found.getD {}) merged now).1)
      (events ++ essences (processSlot cfg (found.getD {}) merged now).2) := by
  have nonempty : contents ≠ [] := by
    rintro rfl
    simp at content
  cases follows with
  | untouched absent none silent =>
    subst absent none silent
    obtain ⟨count, reordered⟩ :=
      (initial_reordered contents).arrive settled.quiet fresh content room now
    exact .reordering _ count rfl nonempty reordered
  | reordering slot count held _ reordered =>
    subst held
    obtain ⟨count', next⟩ := reordered.arrive settled.quiet fresh content room now
    exact .reordering _ count' rfl nonempty next
  | ended nonempty all closed replayed =>
    have inside := (List.getElem?_eq_some_iff.mp content).1
    obtain ⟨idx, member, place⟩ := all _ inside
    exact absurd (UInt32.toNat_inj.mp place ▸ member) fresh

/-- The slot is sealed, or was sealed before. -/
theorem Follows.seal {slot : PohSlot}
    (follows : Follows slotKey contents arrived (some slot) events)
    (settled : Settled slotKey slot) (all : AllArrived contents arrived) (now : Instant) :
    (sealState cfg now slotKey slot).1.isSealed = true ∧ contents ≠ [] ∧
      events ++ essences (sealState cfg now slotKey slot).2 = replayedEvents slotKey contents := by
  cases follows with
  | untouched absent none silent => cases absent
  | reordering other count held nonempty reordered =>
    cases held
    obtain ⟨closed, ends⟩ := reordered.seal settled.quiet all slotKey now
    rw [replayedEvents, if_neg nonempty]
    exact ⟨closed, nonempty, ends⟩
  | ended nonempty all' closed replayed =>
    have closed' := closed slot rfl
    rw [sealState_closed closed']
    exact ⟨closed', nonempty, by rw [essences_nil, List.append_nil, replayed]⟩

/-- A sweep that leaves the gaps alone seals a slot that is due. -/
theorem sweepInputs_idle {slot : PohSlot} {now : Instant} {maxSlot : Nat}
    (idle : advanceGaps cfg now slotKey slot = (slot, [])) :
    runAll (slotStep cfg slotKey) slot (sweepInputs cfg now maxSlot slotKey) =
      if due cfg maxSlot slotKey then sealState cfg now slotKey slot else (slot, []) := by
  have first : slotStep cfg slotKey slot (.advance now) = (slot, []) := idle
  unfold sweepInputs
  cases ripe : due cfg maxSlot slotKey with
  | true => simp [runAll_cons, slotStep, idle]
  | false => simp [runAll_cons, first]

/-- A sweep passes over the slot. -/
theorem Follows.sweep {slot : PohSlot} {now : Instant} {maxSlot : Nat}
    (follows : Follows slotKey contents arrived (some slot) events)
    (settled : Settled slotKey slot)
    (patient : slot.isSealed = false → NoGapExpires cfg slot now ∧
      (due cfg maxSlot slotKey = true → AllArrived contents arrived)) :
    Follows slotKey contents arrived
      ((some (runAll (slotStep cfg slotKey) slot (sweepInputs cfg now maxSlot slotKey)).1).filter
        (kept cfg maxSlot slotKey))
      (events ++
        essences (runAll (slotStep cfg slotKey) slot (sweepInputs cfg now maxSlot slotKey)).2) := by
  cases sealing : slot.isSealed with
  | true =>
    rw [sweepInputs_idle (advanceGaps_closed sealing now), sealState_closed sealing, ite_self,
      essences_nil, List.append_nil]
    cases follows with
    | untouched absent none silent => cases absent
    | reordering other count held nonempty reordered =>
      cases held
      exact absurd reordered.opened (by simp [sealing])
    | ended nonempty all closed replayed =>
      refine .ended nonempty all ?_ replayed
      intro other held
      exact closed other (Option.filter_eq_some_iff.mp held).1
  | false =>
    obtain ⟨noGap, ripe⟩ := patient sealing
    rw [sweepInputs_idle (advanceGaps_idle settled.quiet noGap slotKey)]
    cases isDue : due cfg maxSlot slotKey with
    | true =>
      obtain ⟨closed, nonempty, ends⟩ := follows.seal settled (ripe isDue) now
      refine .ended nonempty (ripe isDue) ?_ ends
      intro other held
      cases (Option.filter_eq_some_iff.mp held).1
      exact closed
    | false =>
      have stays : kept cfg maxSlot slotKey slot = true := by simp [kept, sealing]
      have held : (some slot).filter (kept cfg maxSlot slotKey) = some slot := by
        rw [Option.filter_some, if_pos stays]
      simpa [held] using follows

/-- Once all entries have arrived, no gap is left that could expire. -/
theorem Follows.patient {slot : PohSlot}
    (follows : Follows slotKey contents arrived (some slot) events)
    (settled : Settled slotKey slot) (all : AllArrived contents arrived) (now : Instant)
    (opened : slot.isSealed = false) : NoGapExpires cfg slot now := by
  intro first entry found
  cases follows with
  | untouched absent none silent => cases absent
  | reordering other count held nonempty reordered =>
    cases held
    rw [(reordered.complete settled.quiet all).2] at found
    exact absurd (mem_of_firstEntry found) ExtTreeMap.not_mem_empty
  | ended nonempty all' closed replayed => simp [closed slot rfl] at opened

/-- Where no slot is held any more, the replay is over. -/
theorem Follows.over (follows : Follows slotKey contents arrived none events)
    (all : AllArrived contents arrived) : events = replayedEvents slotKey contents := by
  cases follows with
  | untouched absent none silent =>
    have blank : contents = [] := by
      by_contra nonempty
      obtain ⟨idx, member, _⟩ := all 0 (List.length_pos_iff.mpr nonempty)
      simp [none] at member
    rw [silent, replayedEvents, if_pos blank]
  | reordering other count held nonempty reordered => cases held
  | ended nonempty all' closed replayed => exact replayed

end Steps

/-! ## Whole runs -/

section Runs

variable {cfg : Config} {block : Nat → List EntryContent}

/-- The essences of a slot's events. -/
def essencesAt (slotKey : Nat) (effects : List SupervisorEffect) : List Essence :=
  (eventsAt slotKey effects).map OrderedEvent.essence

theorem essencesAt_append (slotKey : Nat) (first second : List SupervisorEffect) :
    essencesAt slotKey (first ++ second) =
      essencesAt slotKey first ++ essencesAt slotKey second := by
  simp [essencesAt]

/-- **An undisturbed run follows the replay of every slot.** -/
theorem follows_run (inputs : List Input) (running : ∀ now, Input.shutdown now ∉ inputs)
    (reports : ∀ merged ∈ received inputs, merged.observation.Reports block)
    (once : ((received inputs).map fun merged =>
      (merged.observation.slot, merged.observation.entryIndex)).Nodup)
    (undisturbed : EachAfter (Undisturbed cfg block) inputs) (slotKey : Nat) :
    Follows slotKey (block slotKey) (arrivedAt slotKey (received inputs))
      (run cfg inputs).1.slots[slotKey]? (essencesAt slotKey (run cfg inputs).2) := by
  induction inputs using List.reverseRecOn with
  | nil => exact .untouched (by simp [run]) rfl rfl
  | append_singleton past input ih =>
    obtain ⟨before, here⟩ := eachAfter_concat.mp undisturbed
    rw [received_concat] at reports once
    rw [List.map_append] at once
    have earlier := ih (fun now member => running now (List.mem_append_left _ member))
      (fun merged member => reports merged (List.mem_append_left _ member))
      once.of_append_left before
    have settled := run_settled cfg past
    have stepped : run cfg (past ++ [input]) = ((step cfg (run cfg past).1 input).1,
        (run cfg past).2 ++ (step cfg (run cfg past).1 input).2) := runAll_concat _ _ _ _
    rw [stepped, essencesAt_append]
    cases input with
    | shutdown now => exact absurd (by simp) (running now)
    | sweep now =>
      have silent : received (past ++ [.sweep now]) = received past := by
        simp [received_concat, Input.merged?]
      change Follows slotKey _ _ (sweep cfg (run cfg past).1 now).1.slots[slotKey]?
        (_ ++ essencesAt slotKey (sweep cfg (run cfg past).1 now).2)
      rw [silent, sweep_getElem?, essencesAt, essencesAt, eventsAt_sweep cfg _ slotKey settled]
      cases found : (run cfg past).1.slots[slotKey]? with
      | none =>
        rw [found] at earlier
        simpa [essencesAt] using earlier
      | some slot =>
        rw [found] at earlier
        exact earlier.sweep (settled slotKey slot found) (here slotKey slot found)
    | receive merged now =>
      have grown : received (past ++ [.receive merged now]) = received past ++ [merged] := by
        simp [received_concat, Input.merged?]
      change Follows slotKey _ _ (receive cfg (run cfg past).1 merged now).1.slots[slotKey]?
        (_ ++ essencesAt slotKey (receive cfg (run cfg past).1 merged now).2)
      rw [grown, arrivedAt_concat, receive_getElem?, essencesAt, essencesAt,
        eventsAt_receive cfg _ slotKey settled]
      by_cases own : merged.observation.slot = slotKey
      · have content := reports merged (by simp [Input.merged?])
        have fresh : merged.observation.entryIndex ∉ arrivedAt slotKey (received past) := by
          intro member
          obtain ⟨other, present, same, equal⟩ := mem_arrivedAt.mp member
          have apart := (List.nodup_append.mp once).2.2
            (other.observation.slot, other.observation.entryIndex)
            (List.mem_map.mpr ⟨other, present, rfl⟩)
            (merged.observation.slot, merged.observation.entryIndex)
            (by simp [Input.merged?])
          exact apart (by rw [same, equal, own])
        rw [EntryObservation.Reports, own] at content
        rw [if_pos own, if_pos own, if_pos own]
        have room : WithinCapacity cfg ((run cfg past).1.slots[slotKey]?.getD {})
            merged.observation := own ▸ here
        exact earlier.arrive (settled_getD slotKey settled) fresh content room now
      · rw [if_neg own, if_neg own, if_neg own, List.append_nil]
        simpa [essencesAt] using earlier

/-- **A supervisor that gets every entry once and is not disturbed emits the replay of
every slot.** -/
theorem run_replays (inputs : List Input) (running : ∀ now, Input.shutdown now ∉ inputs)
    (delivers : Delivers block (received inputs))
    (undisturbed : EachAfter (Undisturbed cfg block) inputs) (stoppedAt : Instant)
    (slotKey : Nat) :
    essencesAt slotKey (run cfg (inputs ++ [.shutdown stoppedAt])).2 =
      replayedEvents slotKey (block slotKey) := by
  have follows := follows_run inputs running delivers.reports delivers.once undisturbed slotKey
  have settled := run_settled cfg inputs
  have all := delivers.all slotKey
  have stepped : run cfg (inputs ++ [.shutdown stoppedAt]) =
      ((shutdown cfg (run cfg inputs).1 stoppedAt).1,
        (run cfg inputs).2 ++ (shutdown cfg (run cfg inputs).1 stoppedAt).2) :=
    runAll_concat _ _ _ _
  -- the shutdown sweeps once more
  have swept : Follows slotKey (block slotKey) (arrivedAt slotKey (received inputs))
      (sweep cfg (run cfg inputs).1 stoppedAt).1.slots[slotKey]?
      (essencesAt slotKey (run cfg inputs).2 ++
        essencesAt slotKey (sweep cfg (run cfg inputs).1 stoppedAt).2) := by
    rw [sweep_getElem?, essencesAt, essencesAt, eventsAt_sweep cfg _ slotKey settled]
    cases found : (run cfg inputs).1.slots[slotKey]? with
    | none =>
      rw [found] at follows
      simpa [essencesAt] using follows
    | some slot =>
      rw [found] at follows
      exact follows.sweep (settled slotKey slot found) fun opened =>
        ⟨follows.patient (settled slotKey slot found) all stoppedAt opened, fun _ => all⟩
  rw [stepped, essencesAt_append, essencesAt, essencesAt, eventsAt_shutdown cfg _ slotKey settled,
    List.map_append, ← List.append_assoc]
  change (essencesAt slotKey (run cfg inputs).2 ++
    essencesAt slotKey (sweep cfg (run cfg inputs).1 stoppedAt).2) ++ _ = _
  cases found : (sweep cfg (run cfg inputs).1 stoppedAt).1.slots[slotKey]? with
  | none =>
    rw [found] at swept
    simpa using swept.over all
  | some slot =>
    rw [found] at swept
    have own := sweep_settled cfg _ settled stoppedAt slotKey slot found
    exact (swept.seal own all stoppedAt).2.2

end Runs

end SenderAnalysis.PohSupervisor
