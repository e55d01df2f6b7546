import Mathlib.Data.List.Basic

/-!
# Replacing a pattern

A text is scanned from the left. Where the pattern occurs it is replaced by a mask and
the scan goes on after the occurrence; any other item is kept. This is what `replace`
does on strings (`toList_replace`).

When the mask has no item of the pattern, the result has no occurrence of the pattern
(`not_infix_replaceAll`): an occurrence cannot contain an item of the mask, so it would
lie between masks, and there it would begin at an item where the text has no
occurrence.
-/

set_option autoImplicit false

namespace SenderAnalysis

section Lists

variable {α : Type*}

/-- An occurrence without items of the mask does not reach into the mask. -/
theorem infix_of_infix_append {pattern mask : List α} (nonempty : pattern ≠ [])
    (apart : ∀ item ∈ pattern, item ∉ mask) {rest : List α}
    (occurs : pattern <:+: mask ++ rest) : pattern <:+: rest := by
  induction mask with
  | nil => exact occurs
  | cons item mask ih =>
    rw [List.cons_append] at occurs
    rcases List.infix_cons_iff.mp occurs with begins | later
    · obtain ⟨first, others, rfl⟩ := List.exists_cons_of_ne_nil nonempty
      have same := (List.cons_prefix_cons.mp begins).1
      exact absurd (same ▸ List.mem_cons_self) (apart first List.mem_cons_self)
    · exact ih (fun other member inside =>
        apart other member (List.mem_cons_of_mem _ inside)) later

variable [DecidableEq α] (pattern mask : List α)

/-- Replace the pattern in what is left of a text. The first `skip` items belong to an
occurrence that was replaced. -/
def replaceFrom : Nat → List α → List α
  | _, [] => []
  | skip + 1, _ :: rest => replaceFrom skip rest
  | 0, item :: rest =>
      if pattern <+: item :: rest then mask ++ replaceFrom (pattern.length - 1) rest
      else item :: replaceFrom 0 rest

/-- Replace the occurrences of the pattern that a scan from the left meets. -/
def replaceAll (text : List α) : List α := replaceFrom pattern mask 0 text

theorem replaceFrom_eq_drop (skip : Nat) (text : List α) :
    replaceFrom pattern mask skip text = replaceAll pattern mask (text.drop skip) := by
  induction text generalizing skip with
  | nil => simp [replaceAll, replaceFrom]
  | cons item rest ih =>
    cases skip with
    | zero => rfl
    | succ skip => exact ih skip

variable {pattern mask}

/-- At an occurrence the mask takes its place. -/
theorem replaceAll_append (nonempty : pattern ≠ []) (rest : List α) :
    replaceAll pattern mask (pattern ++ rest) = mask ++ replaceAll pattern mask rest := by
  obtain ⟨first, others, rfl⟩ := List.exists_cons_of_ne_nil nonempty
  have occurs : first :: others <+: first :: (others ++ rest) := List.prefix_append _ rest
  rw [List.cons_append, replaceAll, replaceFrom, if_pos occurs, replaceFrom_eq_drop]
  simp

/-- An item where no occurrence begins is kept. -/
theorem replaceAll_cons {item : α} {rest : List α} (none : ¬ pattern <+: item :: rest) :
    replaceAll pattern mask (item :: rest) = item :: replaceAll pattern mask rest := by
  rw [replaceAll, replaceFrom, if_neg none]
  rfl

/-- A stretch in which no occurrence begins is kept. -/
theorem replaceAll_append_of_none {stretch rest : List α}
    (none : ∀ before after, stretch = before ++ after → after ≠ [] → ¬ pattern <+: after ++ rest) :
    replaceAll pattern mask (stretch ++ rest) = stretch ++ replaceAll pattern mask rest := by
  induction stretch with
  | nil => rfl
  | cons item stretch ih =>
    have later : ∀ before after, stretch = before ++ after → after ≠ [] →
        ¬ pattern <+: after ++ rest := fun before after split =>
      none (item :: before) after (by rw [split, List.cons_append])
    have here : ¬ pattern <+: item :: (stretch ++ rest) :=
      none [] (item :: stretch) rfl (List.cons_ne_nil item stretch)
    rw [List.cons_append, replaceAll_cons here, ih later, List.cons_append]

/-! ## What is left -/

/-- What begins a result without items of the mask begins the text. -/
theorem prefix_of_prefix_replaceAll (visible : mask ≠ []) {start : List α}
    (apart : ∀ item ∈ start, item ∉ mask) {text : List α}
    (begins : start <+: replaceAll pattern mask text) : start <+: text := by
  induction text generalizing start with
  | nil => exact begins
  | cons item rest ih =>
    cases start with
    | nil => exact List.nil_prefix
    | cons first others =>
      by_cases occurs : pattern <+: item :: rest
      · obtain ⟨head, tail, rfl⟩ := List.exists_cons_of_ne_nil visible
        rw [replaceAll, replaceFrom, if_pos occurs, List.cons_append] at begins
        have same := (List.cons_prefix_cons.mp begins).1
        exact absurd (same ▸ List.mem_cons_self) (apart first List.mem_cons_self)
      · rw [replaceAll_cons occurs] at begins
        obtain ⟨rfl, more⟩ := List.cons_prefix_cons.mp begins
        refine List.cons_prefix_cons.mpr ⟨rfl, ih ?_ more⟩
        exact fun other member => apart other (List.mem_cons_of_mem _ member)

/-- **When the mask has no item of the pattern, the result has no occurrence of the
pattern.** -/
theorem not_infix_replaceAll (nonempty : pattern ≠ []) (visible : mask ≠ [])
    (apart : ∀ item ∈ pattern, item ∉ mask) (text : List α) :
    ¬ pattern <:+: replaceAll pattern mask text := by
  suffices scan : ∀ skip, ¬ pattern <:+: replaceFrom pattern mask skip text from scan 0
  induction text with
  | nil =>
    intro skip occurs
    rw [replaceFrom] at occurs
    exact nonempty (List.eq_nil_of_infix_nil occurs)
  | cons item rest ih =>
    intro skip occurs
    cases skip with
    | succ skip => exact ih skip occurs
    | zero =>
      rw [replaceFrom] at occurs
      split at occurs
      · exact ih _ (infix_of_infix_append nonempty apart occurs)
      · next none =>
        rcases List.infix_cons_iff.mp occurs with begins | later
        · have kept : replaceAll pattern mask (item :: rest) =
              item :: replaceFrom pattern mask 0 rest := replaceAll_cons none
          rw [← kept] at begins
          exact none (prefix_of_prefix_replaceAll visible apart begins)
        · exact ih 0 later

end Lists

/-! ## Strings -/

section Strings

open String.Slice.Pattern Model

variable {text : String.Slice} {pattern : String}

/-- An item of a text at which no match starts begins no occurrence. -/
theorem not_prefix_of_not_matchesAt {start stop : text.Pos} {before stretch after : String}
    (splits : start.Splits before (stretch ++ after))
    (splits' : stop.Splits (before ++ stretch) after)
    (none : ∀ pos, start ≤ pos → pos < stop → ¬ MatchesAt pattern pos) :
    ∀ first second, stretch.toList = first ++ second → second ≠ [] →
      ¬ pattern.toList <+: second ++ after.toList := by
  intro first second cut nonempty begins
  obtain ⟨rest, found⟩ := begins
  have whole : text.copy = (before ++ String.ofList first) ++ (String.ofList second ++ after) := by
    rw [splits.eq_append, ← String.toList_inj]
    simp [cut]
  have middle := String.Slice.Pos.splits_ofEqAppend whole
  have later : start ≤ String.Slice.Pos.ofEqAppend whole := by
    rw [splits.le_iff_exists_eq_append middle]
    refine ⟨String.ofList first, rfl, ?_⟩
    rw [← String.toList_inj]
    simp [cut]
  have earlier : String.Slice.Pos.ofEqAppend whole < stop := by
    rw [middle.lt_iff_exists_eq_append splits']
    refine ⟨String.ofList second, ?_, ?_, rfl⟩
    · rw [Ne, ← String.toList_inj]
      simpa using nonempty
    · rw [← String.toList_inj]
      simp [cut]
  refine none _ later earlier (ForwardStringSearcher.matchesAt_iff_splits.mpr ?_)
  refine ⟨_, String.ofList rest, middle.of_eq rfl ?_⟩
  rw [← String.toList_inj]
  simp [found]

/-- What a step of the search adds to the result. -/
def replaceStep (mask : String) (sofar : String) : SearchStep text → String
  | .matched _ _ => sofar ++ mask.toSlice
  | .rejected start stop => sofar ++ text.slice! start stop

/-- **The steps of a search replace the pattern in the text that is left.** -/
theorem toList_foldl_replaceStep (mask : String) (nonempty : pattern ≠ "") {start : text.Pos}
    {steps : List (SearchStep text)} (valid : IsValidSearchFrom pattern start steps)
    {before after : String} (splits : start.Splits before after) (sofar : String) :
    (steps.foldl (replaceStep mask) sofar).toList =
      sofar.toList ++ replaceAll pattern.toList mask.toList after.toList := by
  have some : pattern.toList ≠ [] := by
    rwa [Ne, String.toList_eq_nil_iff]
  induction valid generalizing before after sofar with
  | endPos =>
    have empty : after = "" := (String.Slice.splits_endPos_iff.mp splits).2
    rw [empty]
    simp [replaceAll, replaceFrom]
  | matched found valid ih =>
    obtain ⟨before', after', splits', next⟩ :=
      ForwardStringSearcher.isLongestMatchAt_iff_splits.mp found
    obtain ⟨rfl, rfl⟩ := splits.eq splits'
    rw [List.foldl_cons, ih next, String.toList_append, replaceAll_append some]
    simp [replaceStep]
  | @mismatched _ start stop past none valid ih =>
    have splits' := stop.splits
    obtain ⟨stretch, _, beforeStop, rfl⟩ := (splits.lt_iff_exists_eq_append splits').mp past
    rw [beforeStop] at splits'
    have kept : (text.slice! start stop).copy = stretch := by
      obtain ⟨_, slice⟩ := String.Slice.copy_slice_eq_iff_splits.mpr ⟨before, _, splits, splits'⟩
      rw [← String.Slice.slice_eq_slice!]
      exact slice
    have free := not_prefix_of_not_matchesAt splits splits' none
    rw [List.foldl_cons, ih splits', String.toList_append, replaceAll_append_of_none free]
    simp [replaceStep, kept]

/-- **Replacing in a string is replacing in the list of its characters.** -/
theorem toList_replace (nonempty : pattern ≠ "") (mask text : String) :
    (text.replace pattern mask).toList =
      replaceAll pattern.toList mask.toList text.toList := by
  have valid := (ForwardStringSearcher.lawfulToForwardSearcherModel
    nonempty).isValidSearchFrom_toList text.toSlice
  have steps := toList_foldl_replaceStep mask nonempty valid
    (String.Slice.splits_startPos text.toSlice) ""
  rw [Std.Iter.foldl_toList, String.toList_empty, List.nil_append, String.copy_toSlice] at steps
  rw [← steps, String.replace, String.Slice.replace]
  congr 2
  funext sofar step
  cases step <;> rfl

end Strings

end SenderAnalysis
