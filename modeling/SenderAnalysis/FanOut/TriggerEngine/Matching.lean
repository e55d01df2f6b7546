import SenderAnalysis.FanOut.TriggerEngine.Firing

/-!
# When the engine matches a signature

A pending signature stays pending until the engine handles an entry that carries it.
That entry matches it, and no later one does, unless the signature is inserted again.
So a signature that is pending from the start is matched exactly when some entry that
the engine handles carries it.
-/

set_option autoImplicit false

namespace SenderAnalysis.TriggerEngine

/-- The matches among the effects. -/
def matchesOf (effects : List EngineEffect) : List MatchEvent :=
  (sent effects).filterMap Message.matched?

@[simp] theorem matchesOf_append (first second : List EngineEffect) :
    matchesOf (first ++ second) = matchesOf first ++ matchesOf second := by
  simp [matchesOf]

@[simp] theorem matchesOf_nil : matchesOf [] = [] := rfl

/-- A signature was matched. -/
def Matched (signature : Signature) (effects : List EngineEffect) : Prop :=
  ∃ hit ∈ matchesOf effects, hit.signature = signature

theorem matched_append {signature : Signature} {first second : List EngineEffect} :
    Matched signature (first ++ second) ↔ Matched signature first ∨ Matched signature second := by
  simp [Matched, or_and_right, exists_or]

theorem not_matched_nil (signature : Signature) : ¬ Matched signature [] := by
  simp [Matched]

/-- The signatures an event carries. -/
def carried (event : OrderedEvent) : List Signature :=
  (event.ordered?.map fun e => e.observation.signatures).getD []

/-! ## One entry -/

section OneEntry

variable (schedule : Finset (Nat × Nat)) (entry : OrderedEntry) (now : Instant)
  (signature : Signature)

/-- A look-up takes a pending signature out and matches it. -/
theorem matchSignature_pending (engine : State) (other : Signature) :
    (signature ∈ (matchSignature entry now engine other).1.pendingSigs ↔
        signature ∈ engine.pendingSigs ∧ signature ≠ other) ∧
      (Matched signature (matchSignature entry now engine other).2 ↔
        signature ∈ engine.pendingSigs ∧ signature = other) := by
  unfold matchSignature
  by_cases pending : other ∈ engine.pendingSigs
  · rw [if_pos pending]
    constructor
    · rw [Finset.mem_erase, and_comm]
    · have sole : Matched signature [.fetchAdd .sigLookups 1, .fetchAdd .sigHits 1,
          .trySend (.matched ⟨other, now, entry.slot, entry.entryIndex, entry.tickIdxInSlot,
            entry.observation.source⟩)] ↔ other = signature := by
        simp [Matched, matchesOf, Message.matched?]
      rw [sole]
      constructor
      · rintro rfl
        exact ⟨pending, rfl⟩
      · exact fun facts => facts.2.symm
  · rw [if_neg pending]
    constructor
    · constructor
      · intro member
        exact ⟨member, fun same => pending (same ▸ member)⟩
      · exact And.left
    · constructor
      · intro matched
        simp [Matched, matchesOf] at matched
      · rintro ⟨member, rfl⟩
        exact absurd member pending

theorem matching_pending (engine : State) (signatures : List Signature) :
    (signature ∈ (runAll (matchSignature entry now) engine signatures).1.pendingSigs ↔
        signature ∈ engine.pendingSigs ∧ signature ∉ signatures) ∧
      (Matched signature (runAll (matchSignature entry now) engine signatures).2 ↔
        signature ∈ engine.pendingSigs ∧ signature ∈ signatures) := by
  induction signatures generalizing engine with
  | nil => simp [not_matched_nil]
  | cons other rest ih =>
    obtain ⟨stays, hits⟩ := matchSignature_pending entry now signature engine other
    obtain ⟨stays', hits'⟩ := ih (matchSignature entry now engine other).1
    rw [runAll_cons, matched_append, stays', hits', stays, hits, List.mem_cons]
    by_cases same : signature = other <;> simp [same]

/-- The schedule check leaves the pending signatures alone. -/
theorem scheduleCheck_pending (engine : State) :
    (scheduleCheck engine schedule entry now).1.pendingSigs = engine.pendingSigs ∧
      matchesOf (scheduleCheck engine schedule entry now).2 = [] := by
  by_cases scheduled : entry.tickIdxInSlot > 0 ∧ (entry.slot, entry.tickIdxInSlot) ∈ schedule
  · by_cases old : (entry.slot, entry.tickIdxInSlot) ∈ engine.fired
    · simp [scheduleCheck, scheduled, old, matchesOf]
    · cases uncertain : entry.tickUncertain <;>
        simp [scheduleCheck, scheduled, old, matchesOf, Message.matched?, uncertain]
  · simp [scheduleCheck, scheduled]

theorem compact_pending (engine : State) (slot : Nat) :
    (compact engine slot).pendingSigs = engine.pendingSigs := by
  unfold compact
  split <;> rfl

theorem handleEntry_pending (engine : State) :
    (signature ∈ (handleEntry engine schedule entry now).1.pendingSigs ↔
        signature ∈ engine.pendingSigs ∧ signature ∉ entry.observation.signatures) ∧
      (Matched signature (handleEntry engine schedule entry now).2 ↔
        signature ∈ engine.pendingSigs ∧ signature ∈ entry.observation.signatures) := by
  let recorded := recordEntryHash engine entry.slot entry.observation.entryHash
  obtain ⟨same, silent⟩ := scheduleCheck_pending schedule entry now recorded
  obtain ⟨stays, hits⟩ := matching_pending entry now signature
    (scheduleCheck recorded schedule entry now).1 entry.observation.signatures
  have unmatched : ¬ Matched signature (.fetchAdd .entriesSeen 1 ::
      (scheduleCheck recorded schedule entry now).2) := by
    have none : matchesOf (.fetchAdd .entriesSeen 1 ::
        (scheduleCheck recorded schedule entry now).2) = [] := silent
    simp [Matched, none]
  have pending : recorded.pendingSigs = engine.pendingSigs := rfl
  rw [same, pending] at stays hits
  constructor
  · change signature ∈ (compact (runAll (matchSignature entry now)
      (scheduleCheck recorded schedule entry now).1 entry.observation.signatures).1
        entry.slot).pendingSigs ↔ _
    rw [compact_pending, stays]
  · change Matched signature ((.fetchAdd .entriesSeen 1 ::
      (scheduleCheck recorded schedule entry now).2) ++ _) ↔ _
    rw [matched_append, hits, or_iff_right unmatched]

end OneEntry

/-! ## Runs -/

/-- An event matches the pending signatures it carries. -/
theorem handle_pending (engine : State) (event : OrderedEvent) (schedule : Finset (Nat × Nat))
    (now : Instant) (signature : Signature) :
    (signature ∈ (handle engine event schedule now).1.pendingSigs ↔
        signature ∈ engine.pendingSigs ∧ signature ∉ carried event) ∧
      (Matched signature (handle engine event schedule now).2 ↔
        signature ∈ engine.pendingSigs ∧ signature ∈ carried event) := by
  cases event with
  | entry e => exact handleEntry_pending schedule e now signature engine
  | missing | slotComplete | slotIncomplete =>
    simp [handle, recordLifecycle, carried, OrderedEvent.ordered?, not_matched_nil]

/-- **A signature that is pending from the start is matched exactly when an event that
the engine receives carries it.** -/
theorem matched_iff_carried {start : State} {signature : Signature}
    (pending : signature ∈ start.pendingSigs) (inputs : List Input) :
    Matched signature (run start inputs).2 ↔
      ∃ event ∈ inputs.filterMap Input.event?, signature ∈ carried event := by
  have both : (Matched signature (run start inputs).2 ↔
      ∃ event ∈ inputs.filterMap Input.event?, signature ∈ carried event) ∧
      (¬ Matched signature (run start inputs).2 →
        signature ∈ (run start inputs).1.pendingSigs) := by
    induction inputs using List.reverseRecOn with
    | nil => simpa [run, not_matched_nil] using pending
    | append_singleton past input ih =>
      obtain ⟨sofar, waits⟩ := ih
      have stepped : run start (past ++ [input]) = ((step (run start past).1 input).1,
          (run start past).2 ++ (step (run start past).1 input).2) := runAll_concat _ _ _ _
      rw [stepped, matched_append, List.filterMap_append]
      cases input with
      | insertPending other =>
        have silent : ¬ Matched signature (step (run start past).1 (.insertPending other)).2 :=
          not_matched_nil signature
        rw [or_iff_left silent, sofar]
        refine ⟨by simp [Input.event?], fun unmatched => ?_⟩
        exact Finset.mem_insert_of_mem (waits fun matched => unmatched (sofar.mp matched))
      | receive event schedule now =>
        obtain ⟨stays, hits⟩ := handle_pending (run start past).1 event schedule now signature
        change (Matched signature (run start past).2 ∨
            Matched signature (handle (run start past).1 event schedule now).2 ↔ _) ∧
          (¬ (Matched signature (run start past).2 ∨
              Matched signature (handle (run start past).1 event schedule now).2) →
            signature ∈ (handle (run start past).1 event schedule now).1.pendingSigs)
        rw [hits, stays]
        have grown : (∃ other ∈ past.filterMap Input.event? ++
              [Input.receive event schedule now].filterMap Input.event?,
              signature ∈ carried other) ↔
            (∃ other ∈ past.filterMap Input.event?, signature ∈ carried other) ∨
              signature ∈ carried event := by
          simp [Input.event?, or_and_right, exists_or]
        rw [grown, ← sofar]
        by_cases matched : Matched signature (run start past).2
        · simp [matched]
        · simp [matched, waits matched]
  exact both.1

end SenderAnalysis.TriggerEngine
