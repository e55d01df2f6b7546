import SenderAnalysis.LeaderMap.Agreement
import SenderAnalysis.LeaderMap.Cache

/-!
# The slots of a range

A range is written with two dots between its first and its last slot. The command that lists
the slots of a range reads it, looks up the snapshot of the epoch that is asked for, or the
latest one, and goes through the range slot by slot.

After every sequence of fetches the command lists, in the order of the slots, the slots of the
range that have a leader, each once, with this leader and what the snapshot says of it last
(`slots_listed`).
-/

set_option autoImplicit false

namespace SenderAnalysis.LeaderMap

/-! ## The command -/

/-- The parts of a text between the pairs of dots, which are taken from the left. -/
def splitDots : List Char → List (List Char)
  | [] => [[]]
  | '.' :: '.' :: rest => [] :: splitDots rest
  | char :: rest =>
      match splitDots rest with
      | [] => [[char]]
      | part :: parts => (char :: part) :: parts

def parseRange (input : List Char) : Except CacheError (Nat × Nat) :=
  match splitDots input with
  | [first, last] =>
      match fromStrRadix 10 u64Bound first with
      | none => .error (.parseStart input)
      | some start =>
          match fromStrRadix 10 u64Bound last with
          | none => .error (.parseEnd input)
          | some stop => .ok (start, stop)
  | _ => .error (.invalidRange input)

section Commands

variable {ρ : Type} (format : SnapshotFormat ρ) (dir : Directory) (names : List FileName)

/-- The snapshot of the epoch that is asked for, or the latest one. -/
def loadSnapshot : Option Nat → Except CacheError (Snapshot ρ)
  | some epoch => load format dir epoch
  | none =>
      match latestSnapshot format dir names with
      | .error error => .error error
      | .ok none => .error .noCachedSnapshot
      | .ok (some snap) => .ok snap

/-- The entries that the command prints. Without any, it says so. -/
def slotsCmd (range : List Char) (epoch : Option Nat) : Except CacheError (List SlotEntry) :=
  match parseRange range with
  | .error error => .error error
  | .ok (start, stop) =>
      if stop < start then .error .endBeforeStart
      else
        match loadSnapshot format dir names epoch with
        | .error error => .error error
        | .ok snap =>
            let slotMap := buildSlotMap snap.content
            .ok ((List.range' start (stop + 1 - start)).filterMap fun slot => slotMap[slot]?)

end Commands

/-! ## Ranges -/

/-- How a range is written. -/
def rangeText (start stop : Nat) : List Char :=
  Nat.toDigits 10 start ++ '.' :: '.' :: Nat.toDigits 10 stop

/-- A character that is no dot belongs to the first part. -/
theorem splitDots_cons {char : Char} (plain : char ≠ '.') {rest part : List Char}
    {parts : List (List Char)} (split : splitDots rest = part :: parts) :
    splitDots (char :: rest) = (char :: part) :: parts := by
  rw [splitDots, split]
  rintro _ rfl
  exact absurd rfl plain

theorem splitDots_plain {text : List Char} (plain : ∀ char ∈ text, char ≠ '.') :
    splitDots text = [text] := by
  induction text with
  | nil => rfl
  | cons char text ih =>
    exact splitDots_cons (plain char List.mem_cons_self)
      (ih fun other member => plain other (List.mem_cons_of_mem _ member))

theorem splitDots_append {text : List Char} (plain : ∀ char ∈ text, char ≠ '.')
    (rest : List Char) : splitDots (text ++ '.' :: '.' :: rest) = text :: splitDots rest := by
  induction text with
  | nil => rfl
  | cons char text ih =>
    exact splitDots_cons (plain char List.mem_cons_self)
      (ih fun other member => plain other (List.mem_cons_of_mem _ member))

/-- A range is read as it was written. -/
theorem parseRange_rangeText {start stop : Nat} (fits : start < u64Bound)
    (fits' : stop < u64Bound) : parseRange (rangeText start stop) = .ok (start, stop) := by
  have plain : ∀ number, ∀ char ∈ Nat.toDigits 10 number, char ≠ '.' :=
    forall_mem_toDigits (· ≠ '.') (by decide) (by decide)
  rw [parseRange, rangeText, splitDots_append (plain start), splitDots_plain (plain stop)]
  have first : fromStrRadix 10 u64Bound (Nat.toDigits 10 start) = some start :=
    fromStrRadix_toDigits (by decide) (by decide) fits
  have last : fromStrRadix 10 u64Bound (Nat.toDigits 10 stop) = some stop :=
    fromStrRadix_toDigits (by decide) (by decide) fits'
  simp only [first, last]

/-! ## The system -/

section System

variable {ρ : Type}

/-- **After any fetches, a range lists its led slots in order.** The command reads the text of
the range back, and its snapshot is the one on the shelf for the greatest epoch. -/
theorem slots_listed (format : SnapshotFormat ρ) (dir : Directory)
    (blank : ∀ name, (dir.get name).isSome → snapshotEpoch name = none)
    (requests : List (Fetch ρ))
    (readsBack : ∀ request ∈ requests, ∀ snap, request.snapshot? = some snap →
      format.ReadsBack snap)
    (names : List FileName)
    (listed : ∀ name, name ∈ names ↔ ((dirAfter format dir requests).get name).isSome)
    {epoch : Nat} {snap : Snapshot ρ} (whole : shelfAfter format requests epoch = .whole snap)
    (highest : ∀ above, epoch < above → shelfAfter format requests above = .nothing)
    {start stop : Nat} (ordered : start ≤ stop) (fits : stop < u64Bound) :
    slotsCmd format (dirAfter format dir requests) names (rangeText start stop) none =
      .ok ((List.range' start (stop + 1 - start)).filterMap (ledBy snap.content)) := by
  have represents := dirAfter_represents blank readsBack
  have greatest : IsGreatest {epoch | shelfAfter format requests epoch ≠ .nothing} epoch := by
    refine ⟨fun nothing => ?_, fun other something => ?_⟩
    · cases whole.symm.trans nothing
    · exact Nat.le_of_not_lt fun above => something (highest other above)
  have latest := (latestSnapshot_eq_some represents listed snap).mpr ⟨epoch, greatest, whole⟩
  rw [slotsCmd, parseRange_rangeText (Nat.lt_of_le_of_lt ordered fits) fits]
  simp only [if_neg (Nat.not_lt.mpr ordered), loadSnapshot, latest]
  congr 2
  funext slot
  exact buildSlotMap_getElem? snap.content slot

theorem slots_listed_sample :
    slotsCmd savedFormat (dirAfter savedFormat .empty firstFetch)
      (dirAfter savedFormat .empty firstFetch).keys (rangeText 431999 432001) none =
        .ok [slotEntry none 432000 "A", slotEntry none 432001 "B"] := by
  have led : (List.range' 431999 3).filterMap (ledBy (savedSnapshot 1).content) =
      [slotEntry none 432000 "A", slotEntry none 432001 "B"] := by decide +kernel
  rw [← led]
  exact slots_listed savedFormat .empty (by simp) firstFetch firstFetch_readsBack _
    (listed_keys _) firstFetch_whole (fun _ later => firstFetch_above later) (by decide) (by decide)

end System

end SenderAnalysis.LeaderMap
