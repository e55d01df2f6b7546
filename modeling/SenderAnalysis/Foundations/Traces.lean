import Mathlib.Data.List.Basic
import Mathlib.Data.List.Induction

/-!
# Traces

A trace is the list of what a component emitted, the oldest first. A property of
an element and of what was emitted before it is a property of every way to split
the trace at that element. Traces grow at the end, and the lemmas here say what
the new splits are. Where elements repeat under a key, `firstOccurrences` keeps the
first of each; where values are written under keys, `lastWrite` is what was written
last. A property that holds at every moment of a part of the trace holds `Throughout` it.
-/

set_option autoImplicit false

namespace SenderAnalysis

variable {α : Type*}

/-- A trace that grew by one element is split at the new element or at an old
one. -/
theorem concat_eq_split {past before after : List α} {last element : α}
    (split : past ++ [last] = before ++ element :: after) :
    (past = before ∧ last = element) ∨ ∃ rest, past = before ++ element :: rest := by
  rcases List.eq_nil_or_concat after with rfl | ⟨rest, final, rfl⟩
  · have same := List.append_inj' split rfl
    exact .inl ⟨same.1, by simpa using same.2⟩
  · refine .inr ⟨rest, ?_⟩
    have regrouped : past ++ [last] = (before ++ element :: rest) ++ [final] := by
      simpa [List.append_assoc] using split
    exact (List.append_inj' regrouped rfl).1

/-- Every element of a trace stands in a relation to what came before it. -/
def EachAfter (holds : List α → α → Prop) (trace : List α) : Prop :=
  ∀ before element after, trace = before ++ element :: after → holds before element

theorem eachAfter_nil (holds : List α → α → Prop) : EachAfter holds [] := by
  intro before element after split
  simp at split

theorem eachAfter_congr {holds holds' : List α → α → Prop}
    (same : ∀ past element, holds past element ↔ holds' past element) {trace : List α} :
    EachAfter holds trace ↔ EachAfter holds' trace := by
  have equal : holds = holds' :=
    funext fun past => funext fun element => propext (same past element)
  rw [equal]

/-- A relation holds throughout a trace that grew by one element exactly when it
held throughout the trace before and holds at the new element. -/
theorem eachAfter_concat {holds : List α → α → Prop} {past : List α} {last : α} :
    EachAfter holds (past ++ [last]) ↔ EachAfter holds past ∧ holds past last := by
  constructor
  · intro each
    refine ⟨?_, each past last [] rfl⟩
    intro before element after split
    exact each before element (after ++ [last]) (by simp [split])
  · rintro ⟨old, new⟩ before element after split
    rcases concat_eq_split split with ⟨rfl, rfl⟩ | ⟨rest, earlier⟩
    · exact new
    · exact old before element rest earlier

/-- A relation holds throughout a trace exactly when it holds at its first element and
throughout the rest, the first element counted to the past. -/
theorem eachAfter_cons {holds : List α → α → Prop} {first : α} {rest : List α} :
    EachAfter holds (first :: rest) ↔
      holds [] first ∧ EachAfter (fun past element => holds (first :: past) element) rest := by
  constructor
  · intro each
    refine ⟨each [] first rest rfl, ?_⟩
    rintro before element after rfl
    exact each (first :: before) element after rfl
  · rintro ⟨here, later⟩ before element after split
    cases before with
    | nil =>
      obtain ⟨rfl, rfl⟩ := List.cons.inj split
      exact here
    | cons head before =>
      obtain ⟨rfl, rfl⟩ := List.cons.inj split
      exact later before element after rfl

/-- What holds throughout a trace held throughout its beginning. -/
theorem EachAfter.of_append {holds : List α → α → Prop} {past rest : List α}
    (each : EachAfter holds (past ++ rest)) : EachAfter holds past := by
  intro before element after split
  exact each before element (after ++ rest) (by simp [split])

/-- Elements at which the relation holds whatever came before extend a trace. -/
theorem EachAfter.append {holds : List α → α → Prop} {past more : List α}
    (each : EachAfter holds past) (always : ∀ element ∈ more, ∀ before, holds before element) :
    EachAfter holds (past ++ more) := by
  induction more using List.reverseRecOn with
  | nil => simpa using each
  | append_singleton rest last ih =>
    rw [← List.append_assoc, eachAfter_concat]
    refine ⟨ih fun element member => always element (List.mem_append_left _ member), ?_⟩
    exact always last (by simp) _

/-- A relation holds at every element of a trace, between what comes before, the element and
what comes after. -/
def EverySplit (holds : List α → α → List α → Prop) (trace : List α) : Prop :=
  ∀ before element after, trace = before ++ element :: after → holds before element after

theorem everySplit_cons {holds : List α → α → List α → Prop} {first : α} {rest : List α} :
    EverySplit holds (first :: rest) ↔
      holds [] first rest ∧ EverySplit (fun before => holds (first :: before)) rest := by
  constructor
  · intro every
    refine ⟨every [] first rest rfl, ?_⟩
    rintro before element after rfl
    exact every (first :: before) element after rfl
  · rintro ⟨here, later⟩ before element after split
    cases before with
    | nil =>
      obtain ⟨rfl, rfl⟩ := List.cons.inj split
      exact here
    | cons head before =>
      obtain ⟨rfl, rfl⟩ := List.cons.inj split
      exact later before element after rfl

instance decidableEverySplit (holds : List α → α → List α → Prop)
    [decides : ∀ before element after, Decidable (holds before element after)] :
    (trace : List α) → Decidable (EverySplit holds trace)
  | [] => isTrue fun before element after split => by simp at split
  | first :: rest =>
      have := @decidableEverySplit (fun before => holds (first :: before))
        (fun before => decides (first :: before)) rest
      decidable_of_iff _ everySplit_cons.symm

/-! ## Counting -/

section Counting

variable (holds : List α → α → Prop) [∀ past element, Decidable (holds past element)]

/-- At how many elements the relation holds, after a beginning of the trace. -/
def countAfterFrom : List α → List α → Nat
  | _, [] => 0
  | past, element :: rest =>
      (if holds past element then 1 else 0) + countAfterFrom (past ++ [element]) rest

/-- At how many elements of a trace a relation to what came before holds. -/
def countAfter (trace : List α) : Nat := countAfterFrom holds [] trace

theorem countAfterFrom_concat (past trace : List α) (last : α) :
    countAfterFrom holds past (trace ++ [last]) =
      countAfterFrom holds past trace + if holds (past ++ trace) last then 1 else 0 := by
  induction trace generalizing past with
  | nil => simp [countAfterFrom]
  | cons element rest ih =>
    rw [List.cons_append, countAfterFrom, ih, countAfterFrom, Nat.add_assoc]
    simp

theorem countAfter_concat (past : List α) (last : α) :
    countAfter holds (past ++ [last]) =
      countAfter holds past + if holds past last then 1 else 0 :=
  countAfterFrom_concat holds [] past last

/-- Nothing is counted exactly when the relation fails at every element. -/
theorem countAfter_eq_zero {trace : List α} :
    countAfter holds trace = 0 ↔ EachAfter (fun past element => ¬ holds past element) trace := by
  induction trace using List.reverseRecOn with
  | nil => exact ⟨fun _ => eachAfter_nil _, fun _ => rfl⟩
  | append_singleton past last ih =>
    rw [countAfter_concat, eachAfter_concat, ← ih, Nat.add_eq_zero_iff]
    by_cases here : holds past last <;> simp [here]

theorem countAfter_pos {trace : List α} :
    0 < countAfter holds trace ↔
      ∃ before element after, trace = before ++ element :: after ∧ holds before element := by
  rw [Nat.pos_iff_ne_zero, ne_eq, countAfter_eq_zero, EachAfter]
  constructor
  · intro fails
    by_contra none
    exact fails fun before element after split here => none ⟨before, element, after, split, here⟩
  · rintro ⟨before, element, after, split, here⟩ never
    exact never before element after split here

instance decidableEachAfter {trace : List α} : Decidable (EachAfter holds trace) :=
  decidable_of_iff (countAfter (fun past element => ¬ holds past element) trace = 0)
    ((countAfter_eq_zero _).trans (eachAfter_congr fun _ _ => Decidable.not_not))

/-- A relation that implies another counts no more elements. -/
theorem countAfter_mono {holds' : List α → α → Prop}
    [∀ past element, Decidable (holds' past element)]
    (implied : ∀ past element, holds past element → holds' past element) (trace : List α) :
    countAfter holds trace ≤ countAfter holds' trace := by
  induction trace using List.reverseRecOn with
  | nil => exact Nat.le_refl _
  | append_singleton past last ih =>
    rw [countAfter_concat, countAfter_concat]
    by_cases here : holds past last
    · rw [if_pos here, if_pos (implied past last here)]
      omega
    · rw [if_neg here]
      omega

/-- At most one element is counted exactly when the relation fails wherever it held
before. -/
theorem countAfter_le_one {trace : List α} :
    countAfter holds trace ≤ 1 ↔
      EachAfter (fun past element => holds past element → countAfter holds past = 0) trace := by
  induction trace using List.reverseRecOn with
  | nil => exact ⟨fun _ => eachAfter_nil _, fun _ => Nat.zero_le _⟩
  | append_singleton past last ih =>
    rw [countAfter_concat, eachAfter_concat, ← ih]
    by_cases here : holds past last
    · simp only [here, if_true, true_implies]
      omega
    · simp [here]

/-- The elements counted are among those a test accepts. -/
theorem countAfter_le_countP {test : α → Bool}
    (tested : ∀ past element, holds past element → test element = true) (trace : List α) :
    countAfter holds trace ≤ trace.countP test := by
  induction trace using List.reverseRecOn with
  | nil => exact Nat.le_refl _
  | append_singleton past last ih =>
    rw [countAfter_concat, List.countP_append, List.countP_singleton]
    by_cases here : holds past last
    · rw [if_pos here, if_pos (tested past last here)]
      omega
    · rw [if_neg here]
      omega

end Counting

/-! ## First occurrences -/

section FirstOccurrences

variable {κ : Type*} [DecidableEq κ] (key : α → κ)

/-- The elements whose key is not among those seen, each key once. -/
def firstOccurrencesFrom (seen : List κ) : List α → List α
  | [] => []
  | element :: rest =>
      if key element ∈ seen then firstOccurrencesFrom seen rest
      else element :: firstOccurrencesFrom (key element :: seen) rest

/-- The first element of every key, in order. -/
def firstOccurrences (trace : List α) : List α := firstOccurrencesFrom key [] trace

theorem firstOccurrencesFrom_concat (seen : List κ) (past : List α) (last : α) :
    firstOccurrencesFrom key seen (past ++ [last]) =
      firstOccurrencesFrom key seen past ++
        if key last ∈ seen ∨ key last ∈ past.map key then [] else [last] := by
  induction past generalizing seen with
  | nil => by_cases old : key last ∈ seen <;> simp [firstOccurrencesFrom, old]
  | cons element rest ih =>
    rw [List.cons_append, firstOccurrencesFrom, firstOccurrencesFrom]
    by_cases old : key element ∈ seen
    · rw [if_pos old, if_pos old, ih]
      by_cases same : key last = key element
      · simp [same, old]
      · simp [same]
    · rw [if_neg old, if_neg old, ih, List.cons_append]
      simp only [List.mem_cons, List.map_cons, or_assoc, or_left_comm]

/-- A trace that grew by an element has one first occurrence more when the element's
key is new. -/
theorem firstOccurrences_concat (past : List α) (last : α) :
    firstOccurrences key (past ++ [last]) =
      firstOccurrences key past ++ if key last ∈ past.map key then [] else [last] := by
  simpa [firstOccurrences] using firstOccurrencesFrom_concat key [] past last

/-- Of every key that occurs, there is exactly the first element. -/
theorem filter_firstOccurrences (trace : List α) (wanted : κ) :
    (firstOccurrences key trace).filter (fun element => decide (key element = wanted)) =
      (trace.find? fun element => decide (key element = wanted)).toList := by
  induction trace using List.reverseRecOn with
  | nil => rfl
  | append_singleton past last ih =>
    rw [firstOccurrences_concat, List.filter_append, ih, List.find?_append]
    by_cases old : wanted ∈ past.map key
    · obtain ⟨found, present⟩ : ∃ found,
          (past.find? fun element => decide (key element = wanted)) = some found := by
        obtain ⟨element, member, own⟩ := List.mem_map.mp old
        exact Option.isSome_iff_exists.mp (List.find?_isSome.mpr ⟨element, member, by simp [own]⟩)
      rw [present, Option.some_or]
      by_cases here : key last = wanted
      · simp [here, old]
      · split <;> simp [here]
    · have absent : (past.find? fun element => decide (key element = wanted)) = none := by
        rw [List.find?_eq_none]
        intro element member own
        exact old (List.mem_map.mpr ⟨element, member, by simpa using own⟩)
      rw [absent, Option.none_or]
      by_cases here : key last = wanted
      · simp [here, old]
      · split <;> simp [here]

theorem mem_of_mem_firstOccurrences {trace : List α} {element : α}
    (member : element ∈ firstOccurrences key trace) : element ∈ trace := by
  have own : element ∈ (firstOccurrences key trace).filter
      fun other => decide (key other = key element) := List.mem_filter.mpr ⟨member, by simp⟩
  rw [filter_firstOccurrences, Option.mem_toList] at own
  exact List.mem_of_find?_eq_some own

/-- A first occurrence stands behind no element of its key. -/
theorem split_of_mem_firstOccurrences {trace : List α} {element : α}
    (member : element ∈ firstOccurrences key trace) :
    ∃ before after, trace = before ++ element :: after ∧ key element ∉ before.map key := by
  induction trace using List.reverseRecOn with
  | nil => cases member
  | append_singleton past last ih =>
    rw [firstOccurrences_concat] at member
    rcases List.mem_append.mp member with earlier | new
    · obtain ⟨before, after, split, first⟩ := ih earlier
      exact ⟨before, after ++ [last], by simp [split], first⟩
    · split at new
      · cases new
      · next fresh =>
        obtain rfl := List.mem_singleton.mp new
        exact ⟨past, [], rfl, fresh⟩

/-- Every key that occurs has a first element. -/
theorem exists_firstOccurrence {trace : List α} {element : α} (member : element ∈ trace) :
    ∃ first ∈ firstOccurrences key trace, key first = key element := by
  have some? : (trace.find? fun other => decide (key other = key element)).isSome :=
    List.find?_isSome.mpr ⟨element, member, by simp⟩
  obtain ⟨first, found⟩ := Option.isSome_iff_exists.mp some?
  have own : first ∈ (firstOccurrences key trace).filter
      fun other => decide (key other = key element) := by
    rw [filter_firstOccurrences, Option.mem_toList]
    exact found
  obtain ⟨listed, same⟩ := List.mem_filter.mp own
  exact ⟨first, listed, of_decide_eq_true same⟩

theorem nodup_firstOccurrences (trace : List α) : ((firstOccurrences key trace).map key).Nodup := by
  induction trace using List.reverseRecOn with
  | nil => exact List.nodup_nil
  | append_singleton past last ih =>
    rw [firstOccurrences_concat]
    split
    · simpa using ih
    · next fresh =>
      rw [List.map_append, List.map_singleton, List.nodup_append]
      refine ⟨ih, List.pairwise_singleton _ _, ?_⟩
      rintro old member new same rfl
      rw [List.mem_singleton] at same
      subst same
      obtain ⟨earlier, listed, same⟩ := List.mem_map.mp member
      exact fresh (List.mem_map.mpr ⟨earlier, mem_of_mem_firstOccurrences key listed, same⟩)

/-- Where no key repeats, every element is the first of its key. -/
theorem firstOccurrences_of_nodup {trace : List α} (distinct : (trace.map key).Nodup) :
    firstOccurrences key trace = trace := by
  induction trace using List.reverseRecOn with
  | nil => rfl
  | append_singleton past last ih =>
    rw [List.map_append, List.map_singleton, List.nodup_append] at distinct
    have fresh : key last ∉ past.map key := fun old =>
      distinct.2.2 _ old _ (List.mem_singleton_self _) rfl
    rw [firstOccurrences_concat, ih distinct.1, if_neg fresh]

end FirstOccurrences

/-! ## Greatest numbers -/

theorem le_foldl_max (start : Nat) (numbers : List Nat) : start ≤ numbers.foldl max start := by
  induction numbers generalizing start with
  | nil => exact Nat.le_refl _
  | cons first rest ih => exact Nat.le_trans (Nat.le_max_left ..) (ih (max start first))

/-- The running maximum is at least every number. -/
theorem le_foldl_max_of_mem {number : Nat} {numbers : List Nat} (member : number ∈ numbers)
    (start : Nat) : number ≤ numbers.foldl max start := by
  induction numbers generalizing start with
  | nil => cases member
  | cons first rest ih =>
    rcases List.mem_cons.mp member with rfl | later
    · exact Nat.le_trans (Nat.le_max_right start number) (le_foldl_max _ rest)
    · exact ih later _

/-- The running maximum is where it started or one of the numbers. -/
theorem foldl_max_mem (start : Nat) (numbers : List Nat) :
    numbers.foldl max start = start ∨ numbers.foldl max start ∈ numbers := by
  induction numbers generalizing start with
  | nil => exact .inl rfl
  | cons first rest ih =>
    rcases ih (max start first) with same | later
    · rw [List.foldl_cons, same]
      rcases Nat.le_total first start with below | above
      · exact .inl (Nat.max_eq_left below)
      · exact .inr (by rw [Nat.max_eq_right above]; exact List.mem_cons_self ..)
    · exact .inr (List.mem_cons_of_mem _ later)

theorem foldl_max_zero_mem {numbers : List Nat} (nonempty : numbers ≠ []) :
    numbers.foldl max 0 ∈ numbers := by
  rcases foldl_max_mem 0 numbers with zero | member
  · obtain ⟨first, rest, rfl⟩ := List.exists_cons_of_ne_nil nonempty
    have least := le_foldl_max_of_mem (@List.mem_cons_self _ first rest) 0
    rw [zero] at least ⊢
    rw [Nat.le_zero.mp least]
    exact List.mem_cons_self ..
  · exact member

/-! ## Last writes -/

section LastWrites

variable {κ ν : Type*} [DecidableEq κ]

/-- The value that was last written under a key. -/
def lastWrite (writes : List (κ × ν)) (key : κ) : Option ν :=
  (writes.reverse.find? fun write => write.1 = key).map Prod.snd

@[simp] theorem lastWrite_nil (key : κ) : lastWrite ([] : List (κ × ν)) key = none := rfl

theorem lastWrite_concat (past : List (κ × ν)) (written key : κ) (value : ν) :
    lastWrite (past ++ [(written, value)]) key =
      if written = key then some value else lastWrite past key := by
  rw [lastWrite, List.reverse_concat, List.find?_cons]
  by_cases same : written = key <;> simp [same, lastWrite]

theorem lastWrite_eq_none_iff {writes : List (κ × ν)} {key : κ} :
    lastWrite writes key = none ↔ ∀ write ∈ writes, write.1 ≠ key := by
  simp [lastWrite]

end LastWrites

/-! ## Periods -/

/-- A property of what came before holds at every moment from one moment to another. -/
def Throughout (holds : List α → Prop) (since past : List α) : Prop :=
  ∀ moment, since <+: moment → moment <+: past → holds moment

section Periods

variable {holds : List α → Prop} {since past : List α}

theorem throughout_self (now : holds past) : Throughout holds past past := by
  intro moment after before
  rwa [after.eq_of_length (Nat.le_antisymm after.length_le before.length_le)] at now

theorem Throughout.concat (period : Throughout holds since past) {last : α}
    (now : holds (past ++ [last])) : Throughout holds since (past ++ [last]) := by
  intro moment after before
  rcases List.prefix_concat_iff.mp before with rfl | earlier
  · exact now
  · exact period moment after earlier

theorem Throughout.last (period : Throughout holds since past) (earlier : since <+: past) :
    holds past :=
  period past earlier (List.prefix_refl past)

/-- What a period ends with, its moments had if every step of the period leaves it to the
moment before. -/
theorem throughout_of_last {goes : List α → Prop} (earlier : since <+: past)
    (period : Throughout goes since past) (now : holds past)
    (back : ∀ moment last, goes moment → holds (moment ++ [last]) → holds moment) :
    Throughout holds since past := by
  induction past using List.reverseRecOn with
  | nil =>
    intro moment _ before
    rwa [List.prefix_nil.mp before]
  | append_singleton before last ih =>
    rcases List.prefix_concat_iff.mp earlier with rfl | further
    · exact throughout_self now
    · have shorter : Throughout goes since before := fun moment after until_ =>
        period moment after (until_.trans (List.prefix_append before [last]))
      exact (ih further shorter (back before last (shorter.last further) now)).concat now

end Periods

end SenderAnalysis
