import SenderAnalysis.Foundations.Numerals
import SenderAnalysis.LeaderMap.Agreement
import Mathlib.Data.List.MinMax
import Mathlib.Order.Bounds.Basic

/-!
# The snapshots that were fetched

A fetch saves the snapshot of the current epoch as JSON, in a file that carries the epoch in
its name, unless the file is there already and the fetch is not forced. The latest snapshot is
looked for among the names of the directory, in whatever order the directory lists them.

A file is created empty and written from its front, so a fetch that is cut short leaves a file
that cannot be read. To the next fetch of the epoch it is a snapshot like any other.

Over the directory stands a shelf that holds, for every epoch, nothing, a torn file or a
snapshot, and knows nothing of names and texts. The directory answers as the shelf does after
every sequence of fetches, however they end (`cache_current`).
-/

set_option autoImplicit false

namespace SenderAnalysis.LeaderMap

/-! ## Files -/

/-- A snapshot as it is saved, with what no other part of the program reads of it: the time of
the fetch and where the validators are hosted. -/
structure Snapshot (ρ : Type) where
  content : EpochSnapshot
  rest : ρ

/-- The JSON of snapshots, as bytes of a file. -/
structure SnapshotFormat (ρ : Type) where
  toStringPretty : Snapshot ρ → List UInt8
  fromStr : List UInt8 → Option (Snapshot ρ)

abbrev FileName := List Char

/-- The files of the cache directory, by their names. -/
abbrev Directory := HashTable FileName (List UInt8)

/-- Why a command fails. -/
inductive CacheError where
  | epochInfo
  | replies
  | write (path : FileName)
  | read (path : FileName)
  | parse (path : FileName)
  | noCachedSnapshot
  | invalidRange (input : List Char)
  | parseStart (input : List Char)
  | parseEnd (input : List Char)
  | endBeforeStart
deriving DecidableEq, Repr

/-- How far the writing of a file gets. -/
inductive Writing where
  | refused
  | stopped (written : Nat)
  | complete
deriving DecidableEq, Repr

/-- The bound of the integers of 64 bits. -/
def u64Bound : Nat := 2 ^ 64

/-- The name of the file of an epoch. -/
def snapshotPath (epoch : Nat) : FileName :=
  "leader-map-epoch-".toList ++ (Nat.toDigits 10 epoch ++ ".json".toList)

/-- The epoch that the name of a file carries. -/
def snapshotEpoch (name : FileName) : Option Nat :=
  ((name.dropPrefix? "leader-map-epoch-".toList).bind fun rest =>
    rest.dropSuffix? ".json".toList).bind (fromStrRadix 10 u64Bound)

section Commands

variable {ρ : Type} (format : SnapshotFormat ρ)

/-- Save a snapshot. The file is created, which empties it, and written from its front. -/
def save (dir : Directory) (snap : Snapshot ρ) (writing : Writing) :
    Except CacheError FileName × Directory :=
  let path := snapshotPath snap.content.epoch.epoch
  let json := format.toStringPretty snap
  match writing with
  | .refused => (.error (.write path), dir)
  | .stopped written => (.error (.write path), dir.insert path (json.take written))
  | .complete => (.ok path, dir.insert path json)

def load (dir : Directory) (epoch : Nat) : Except CacheError (Snapshot ρ) :=
  let path := snapshotPath epoch
  match dir.get path with
  | none => .error (.read path)
  | some raw =>
      match format.fromStr raw with
      | none => .error (.parse path)
      | some snap => .ok snap

/-- The greatest epoch among the names, and the name it was found in. -/
def newest (names : List FileName) : Option (Nat × FileName) :=
  names.foldl (fun newest name =>
    match snapshotEpoch name with
    | none => newest
    | some epoch =>
        if newest.all fun kept => epoch > kept.1 then some (epoch, name) else newest) none

/-- The snapshot of the greatest epoch, with the names in the order the directory lists
them. -/
def latestSnapshot (dir : Directory) (names : List FileName) :
    Except CacheError (Option (Snapshot ρ)) :=
  match newest names with
  | none => .ok none
  | some (epoch, _) => (load format dir epoch).map some

/-- A fetch: what the command line asks for, what the network answers, and how far the file is
written. The epochs of the network are integers of 64 bits. -/
structure Fetch (ρ : Type) where
  force : Bool
  epochInfo : Option EpochInfo
  validators : Option (List ValidatorInfo × ρ)
  schedule : Option LeaderSchedule
  writing : Writing
  fits : ∀ info, epochInfo = some info → info.epoch < u64Bound

/-- Fetch the current epoch, or leave it at the file that is there. -/
def fetch (dir : Directory) (request : Fetch ρ) :
    Except CacheError (Option FileName) × Directory :=
  match request.epochInfo with
  | none => (.error .epochInfo, dir)
  | some epoch =>
      if (dir.get (snapshotPath epoch.epoch)).isSome && !request.force then (.ok none, dir)
      else
        match request.validators, request.schedule with
        | some (validators, rest), some schedule =>
            let snap : Snapshot ρ := ⟨⟨epoch, validators, schedule⟩, rest⟩
            let (saved, dir') := save format dir snap request.writing
            (saved.map some, dir')
        | none, _ | some _, none => (.error .replies, dir)

/-- The directory after some fetches. -/
def dirAfter (dir : Directory) (requests : List (Fetch ρ)) : Directory :=
  requests.foldl (fun dir request => (fetch format dir request).2) dir

end Commands

/-! ## The shelf -/

/-- What is there of an epoch. -/
inductive Held (ρ : Type) where
  | nothing
  | torn
  | whole (snap : Snapshot ρ)

def Held.isNothing {ρ : Type} : Held ρ → Bool
  | nothing => true
  | torn | whole _ => false

abbrev Shelf (ρ : Type) := Nat → Held ρ

/-- The snapshot that a fetch has for the shelf, if the network answers it all. -/
def Fetch.snapshot? {ρ : Type} (request : Fetch ρ) : Option (Snapshot ρ) :=
  match request.epochInfo, request.validators, request.schedule with
  | some epoch, some (validators, rest), some schedule =>
      some ⟨⟨epoch, validators, schedule⟩, rest⟩
  | some _, some _, none | some _, none, _ | none, _, _ => none

section Shelves

variable {ρ : Type} (format : SnapshotFormat ρ)

/-- What the writing of a snapshot leaves in the place of what was held. -/
def leaves (snap : Snapshot ρ) (held : Held ρ) : Writing → Held ρ
  | .refused => held
  | .stopped written =>
      if written < (format.toStringPretty snap).length then .torn else .whole snap
  | .complete => .whole snap

/-- Put the snapshot of a fetch on the shelf, in an empty place or by force. -/
def Shelf.fetch (shelf : Shelf ρ) (request : Fetch ρ) : Shelf ρ :=
  match request.snapshot? with
  | none => shelf
  | some snap =>
      let epoch := snap.content.epoch.epoch
      if (shelf epoch).isNothing || request.force then
        Function.update shelf epoch (leaves format snap (shelf epoch) request.writing)
      else shelf

/-- The shelf after some fetches, the first of which finds it empty. -/
def shelfAfter (requests : List (Fetch ρ)) : Shelf ρ :=
  requests.foldl (Shelf.fetch format) fun _ => .nothing

end Shelves

/-! ## Names -/

section Names

/-- The name of a file gives the epoch back. -/
theorem snapshotEpoch_snapshotPath {epoch : Nat} (fits : epoch < u64Bound) :
    snapshotEpoch (snapshotPath epoch) = some epoch := by
  have rest : (snapshotPath epoch).dropPrefix? "leader-map-epoch-".toList =
      some (Nat.toDigits 10 epoch ++ ".json".toList) :=
    List.dropPrefix?_append_of_beq _ (by simp)
  have digits : (Nat.toDigits 10 epoch ++ ".json".toList).dropSuffix? ".json".toList =
      some (Nat.toDigits 10 epoch) :=
    List.dropSuffix?_eq_some_iff.mpr ⟨_, rfl, by simp⟩
  rw [snapshotEpoch, rest, Option.bind_some, digits, Option.bind_some]
  exact fromStrRadix_toDigits (by decide) (by decide) fits

theorem snapshotPath_inj {epoch other : Nat} (fits : epoch < u64Bound)
    (fits' : other < u64Bound) : snapshotPath epoch = snapshotPath other ↔ epoch = other := by
  refine ⟨fun same => ?_, fun same => same ▸ rfl⟩
  have read := snapshotEpoch_snapshotPath fits
  rw [same, snapshotEpoch_snapshotPath fits'] at read
  exact (Option.some.inj read).symm

/-- The epoch of a name is an integer of 64 bits. -/
theorem snapshotEpoch_lt {name : FileName} {epoch : Nat}
    (named : snapshotEpoch name = some epoch) : epoch < u64Bound := by
  obtain ⟨digits, -, read⟩ := Option.bind_eq_some_iff.mp named
  exact fromStrRadix_lt (by decide) read

/-- The loop over the names looks for the first one with the greatest epoch. -/
theorem newest_eq (names : List FileName) :
    newest names = (names.filterMap fun name =>
      (snapshotEpoch name).map fun epoch => (epoch, name)).argmax Prod.fst := by
  rw [newest, List.argmax, List.foldl_filterMap]
  congr 1
  funext kept name
  cases snapshotEpoch name with
  | none => rfl
  | some epoch =>
    cases kept with
    | none => rfl
    | some kept =>
      simp only [Option.map_some, Option.all_some, List.argAux]
      simp

variable {names : List FileName}

theorem newest_eq_none :
    newest names = none ↔ ∀ name ∈ names, snapshotEpoch name = none := by
  simp [newest_eq, List.argmax_eq_none, List.filterMap_eq_nil_iff]

/-- What is found is the greatest epoch of the names. -/
theorem greatest_of_newest {found : Nat × FileName} (isNewest : newest names = some found) :
    IsGreatest {epoch | ∃ name ∈ names, snapshotEpoch name = some epoch} found.1 := by
  rw [newest_eq] at isNewest
  constructor
  · obtain ⟨name, member, own⟩ := List.mem_filterMap.mp (List.argmax_mem isNewest)
    obtain ⟨epoch, named, rfl⟩ := Option.map_eq_some_iff.mp own
    exact ⟨name, member, named⟩
  · rintro epoch ⟨name, member, named⟩
    exact List.le_of_mem_argmax (a := (epoch, name)) (List.mem_filterMap.mpr
      ⟨name, member, by rw [named, Option.map_some]⟩) isNewest

end Names

/-! ## The directory stands for the shelf -/

section Refinement

variable {ρ : Type} {format : SnapshotFormat ρ}

/-- The snapshot is read back from its file, and nothing is read before the last byte. -/
structure SnapshotFormat.ReadsBack (format : SnapshotFormat ρ) (snap : Snapshot ρ) : Prop where
  whole : format.fromStr (format.toStringPretty snap) = some snap
  torn : ∀ written < (format.toStringPretty snap).length,
    format.fromStr ((format.toStringPretty snap).take written) = none

/-- The file is there and is read as what is held. -/
def Held.StandsIn (format : SnapshotFormat ρ) (file : Option (List UInt8)) : Held ρ → Prop
  | nothing => file = none
  | torn => ∃ raw, file = some raw ∧ format.fromStr raw = none
  | whole snap => ∃ raw, file = some raw ∧ format.fromStr raw = some snap

/-- Every file with the name of a snapshot is one of the cache, and is what the shelf holds. -/
structure Represents (format : SnapshotFormat ρ) (dir : Directory) (shelf : Shelf ρ) : Prop where
  named : ∀ name epoch, (dir.get name).isSome → snapshotEpoch name = some epoch →
    name = snapshotPath epoch
  held : ∀ epoch < u64Bound, (shelf epoch).StandsIn format (dir.get (snapshotPath epoch))
  beyond : ∀ epoch, u64Bound ≤ epoch → shelf epoch = .nothing

variable {dir : Directory} {shelf : Shelf ρ}

theorem Held.StandsIn.isSome_get {file : Option (List UInt8)} {held : Held ρ}
    (stands : held.StandsIn format file) : file.isSome = !held.isNothing := by
  cases held with
  | nothing => rw [show file = none from stands]; rfl
  | torn =>
    obtain ⟨raw, rfl, -⟩ := stands
    rfl
  | whole snap =>
    obtain ⟨raw, rfl, -⟩ := stands
    rfl

/-- What is written under the name of an epoch takes its place on the shelf. -/
theorem Represents.insert (represents : Represents format dir shelf) {epoch : Nat}
    (fits : epoch < u64Bound) {raw : List UInt8} {held : Held ρ}
    (stands : held.StandsIn format (some raw)) :
    Represents format (dir.insert (snapshotPath epoch) raw)
      (Function.update shelf epoch held) where
  named name other present isNamed := by
    rw [HashTable.get_insert] at present
    split at present
    · next here =>
      rw [here, snapshotEpoch_snapshotPath fits] at isNamed
      rw [here, Option.some.inj isNamed]
    · exact represents.named name other present isNamed
  held other fits' := by
    by_cases same : other = epoch
    · rw [same, Function.update_self, HashTable.get_insert_self]
      exact stands
    · rw [Function.update_of_ne same, HashTable.get_insert_of_ne _ _
        fun path => same ((snapshotPath_inj fits' fits).mp path)]
      exact represents.held other fits'
  beyond other above := by
    rw [Function.update_of_ne (by omega)]
    exact represents.beyond other above

theorem save_represents (represents : Represents format dir shelf) {snap : Snapshot ρ}
    (fits : snap.content.epoch.epoch < u64Bound) (readsBack : format.ReadsBack snap)
    (writing : Writing) :
    Represents format (save format dir snap writing).2
      (Function.update shelf snap.content.epoch.epoch
        (leaves format snap (shelf snap.content.epoch.epoch) writing)) := by
  cases writing with
  | refused =>
    rw [leaves, Function.update_eq_self]
    exact represents
  | stopped written =>
    refine represents.insert fits ?_
    rw [leaves]
    split
    · next short => exact ⟨_, rfl, readsBack.torn written short⟩
    · next long =>
      rw [List.take_of_length_le (by omega)]
      exact ⟨_, rfl, readsBack.whole⟩
  | complete => exact represents.insert fits ⟨_, rfl, readsBack.whole⟩

/-- A fetch saves a snapshot, or leaves the directory as it is. -/
theorem fetch_snd (format : SnapshotFormat ρ) (dir : Directory) (request : Fetch ρ) :
    (fetch format dir request).2 =
      match request.snapshot? with
      | none => dir
      | some snap =>
          if (dir.get (snapshotPath snap.content.epoch.epoch)).isSome && !request.force then dir
          else (save format dir snap request.writing).2 := by
  unfold fetch Fetch.snapshot?
  cases request.epochInfo with
  | none => rfl
  | some epoch =>
    cases request.validators with
    | none => simp only [ite_self, apply_ite Prod.snd]
    | some validators =>
      cases request.schedule with
      | none => simp only [ite_self, apply_ite Prod.snd]
      | some schedule => simp only [apply_ite Prod.snd]

theorem Fetch.snapshot?_fits {request : Fetch ρ} {snap : Snapshot ρ}
    (fetched : request.snapshot? = some snap) : snap.content.epoch.epoch < u64Bound := by
  unfold Fetch.snapshot? at fetched
  split at fetched
  · next epoch _ _ _ info _ _ =>
    obtain rfl := Option.some.inj fetched
    exact request.fits epoch info
  all_goals cases fetched

/-- A fetch does to the directory what it does to the shelf. -/
theorem fetch_represents (represents : Represents format dir shelf) (request : Fetch ρ)
    (readsBack : ∀ snap, request.snapshot? = some snap → format.ReadsBack snap) :
    Represents format (fetch format dir request).2 (shelf.fetch format request) := by
  rw [fetch_snd, Shelf.fetch]
  cases fetched : request.snapshot? with
  | none => exact represents
  | some snap =>
    have fits := Fetch.snapshot?_fits fetched
    have there := (represents.held _ fits).isSome_get
    by_cases empty : (shelf snap.content.epoch.epoch).isNothing || request.force
    · have keeps : ¬ ((dir.get (snapshotPath snap.content.epoch.epoch)).isSome &&
          !request.force) = true := by
        rw [there]
        simpa [or_iff_not_imp_left] using empty
      simp only [if_pos empty, if_neg keeps]
      exact save_represents represents fits (readsBack snap fetched) request.writing
    · have keeps : ((dir.get (snapshotPath snap.content.epoch.epoch)).isSome &&
          !request.force) = true := by
        rw [there]
        simpa using empty
      simp only [if_neg empty, if_pos keeps]
      exact represents

/-- After any fetches the directory stands for the shelf. -/
theorem dirAfter_represents {requests : List (Fetch ρ)}
    (blank : ∀ name, (dir.get name).isSome → snapshotEpoch name = none)
    (readsBack : ∀ request ∈ requests, ∀ snap, request.snapshot? = some snap →
      format.ReadsBack snap) :
    Represents format (dirAfter format dir requests) (shelfAfter format requests) := by
  induction requests using List.reverseRecOn with
  | nil =>
    refine ⟨fun name epoch present named => ?_, fun epoch fits => ?_, fun _ _ => rfl⟩
    · rw [blank name present] at named
      cases named
    · by_contra present
      have named := blank _ (Option.isSome_iff_ne_none.mpr present)
      rw [snapshotEpoch_snapshotPath fits] at named
      cases named
  | append_singleton past request ih =>
    rw [dirAfter, shelfAfter, List.foldl_concat, List.foldl_concat]
    exact fetch_represents (ih fun earlier member => readsBack earlier
        (List.mem_append_left _ member)) request
      (readsBack request (List.mem_append_right _ (List.mem_singleton_self request)))

/-! ## What is read -/

theorem load_eq_ok (represents : Represents format dir shelf) {epoch : Nat}
    (fits : epoch < u64Bound) (snap : Snapshot ρ) :
    load format dir epoch = .ok snap ↔ shelf epoch = .whole snap := by
  have stands := represents.held epoch fits
  unfold load
  cases held : shelf epoch with
  | nothing =>
    rw [held] at stands
    simp [show dir.get (snapshotPath epoch) = none from stands]
  | torn =>
    rw [held] at stands
    obtain ⟨raw, there, unread⟩ := stands
    simp [there, unread]
  | whole kept =>
    rw [held] at stands
    obtain ⟨raw, there, read⟩ := stands
    simp [there, read]

variable {names : List FileName}

/-- The epochs of the names are those of which something is held. -/
theorem epochs_of_names (represents : Represents format dir shelf)
    (listed : ∀ name, name ∈ names ↔ (dir.get name).isSome) :
    {epoch | ∃ name ∈ names, snapshotEpoch name = some epoch} =
      {epoch | shelf epoch ≠ .nothing} := by
  have thereIff : ∀ epoch < u64Bound,
      (dir.get (snapshotPath epoch)).isSome ↔ shelf epoch ≠ .nothing := by
    intro epoch fits
    rw [(represents.held epoch fits).isSome_get]
    cases shelf epoch <;> simp [Held.isNothing]
  ext epoch
  constructor
  · rintro ⟨name, member, named⟩
    have present := (listed name).mp member
    rw [represents.named name epoch present named] at present
    exact (thereIff epoch (snapshotEpoch_lt named)).mp present
  · intro something
    have fits : epoch < u64Bound :=
      Nat.lt_of_not_le fun above => something (represents.beyond epoch above)
    exact ⟨snapshotPath epoch, (listed _).mpr ((thereIff epoch fits).mpr something),
      snapshotEpoch_snapshotPath fits⟩

theorem map_some_eq_ok {loaded : Except CacheError (Snapshot ρ)} {answer : Option (Snapshot ρ)} :
    loaded.map some = .ok answer ↔ ∃ snap, loaded = .ok snap ∧ answer = some snap := by
  cases loaded with
  | error _ => exact iff_of_false (by rintro ⟨⟩) (by rintro ⟨_, ⟨⟩, _⟩)
  | ok kept =>
    constructor
    · intro same
      exact ⟨kept, rfl, (Except.ok.inj same).symm⟩
    · rintro ⟨_, ⟨⟩, rfl⟩
      rfl

theorem latestSnapshot_eq_none (represents : Represents format dir shelf)
    (listed : ∀ name, name ∈ names ↔ (dir.get name).isSome) :
    latestSnapshot format dir names = .ok none ↔ ∀ epoch, shelf epoch = .nothing := by
  have epochs := epochs_of_names represents listed
  unfold latestSnapshot
  cases isNewest : newest names with
  | none =>
    refine iff_of_true rfl fun epoch => not_not.mp fun something => ?_
    obtain ⟨name, member, named⟩ := epochs.symm.subset something
    rw [newest_eq_none.mp isNewest name member] at named
    cases named
  | some found =>
    refine iff_of_false (fun none' => ?_) fun nothing => ?_
    · obtain ⟨snap, -, same⟩ := map_some_eq_ok.mp none'
      cases same
    · exact epochs.subset (greatest_of_newest isNewest).1 (nothing found.1)

theorem latestSnapshot_eq_some (represents : Represents format dir shelf)
    (listed : ∀ name, name ∈ names ↔ (dir.get name).isSome) (snap : Snapshot ρ) :
    latestSnapshot format dir names = .ok (some snap) ↔
      ∃ epoch, IsGreatest {epoch | shelf epoch ≠ .nothing} epoch ∧
        shelf epoch = .whole snap := by
  have epochs := epochs_of_names represents listed
  unfold latestSnapshot
  cases isNewest : newest names with
  | none =>
    refine iff_of_false (by simp) ?_
    rintro ⟨epoch, greatest, -⟩
    obtain ⟨name, member, named⟩ := epochs.symm.subset greatest.1
    rw [newest_eq_none.mp isNewest name member] at named
    cases named
  | some found =>
    have greatest := greatest_of_newest isNewest
    rw [epochs] at greatest
    have fits : found.1 < u64Bound :=
      Nat.lt_of_not_le fun above => greatest.1 (represents.beyond found.1 above)
    have loads := load_eq_ok represents fits snap
    constructor
    · intro latest
      obtain ⟨kept, loaded, same⟩ := map_some_eq_ok.mp latest
      obtain rfl := Option.some.inj same
      exact ⟨found.1, greatest, loads.mp loaded⟩
    · rintro ⟨epoch, greatest', whole⟩
      rw [greatest'.unique greatest] at whole
      exact map_some_eq_ok.mpr ⟨snap, loads.mpr whole, rfl⟩

/-! ## Places on the shelf -/

/-- The fetch is of the epoch. -/
def Fetch.IsOf (request : Fetch ρ) (epoch : Nat) : Prop :=
  ∃ info, request.epochInfo = some info ∧ info.epoch = epoch

theorem Fetch.isOf_of_snapshot? {request : Fetch ρ} {snap : Snapshot ρ}
    (fetched : request.snapshot? = some snap) : request.IsOf snap.content.epoch.epoch := by
  unfold Fetch.snapshot? at fetched
  split at fetched
  · next epoch _ _ _ info _ _ =>
    obtain rfl := Option.some.inj fetched
    exact ⟨epoch, info, rfl⟩
  all_goals cases fetched

/-- A fetch touches the place of its epoch only. -/
theorem Shelf.fetch_of_not_isOf (shelf : Shelf ρ) {request : Fetch ρ} {epoch : Nat}
    (other : ¬ request.IsOf epoch) : shelf.fetch format request epoch = shelf epoch := by
  rw [Shelf.fetch]
  cases fetched : request.snapshot? with
  | none => rfl
  | some snap =>
    simp only
    split
    · refine Function.update_of_ne (fun same => other ?_) _ _
      exact same ▸ Fetch.isOf_of_snapshot? fetched
    · rfl

/-- A place that is taken is kept until a fetch is forced. -/
theorem Shelf.fetch_of_unforced (shelf : Shelf ρ) {request : Fetch ρ} {epoch : Nat}
    (unforced : request.IsOf epoch → request.force = false)
    (taken : shelf epoch ≠ .nothing) : shelf.fetch format request epoch = shelf epoch := by
  by_cases own : request.IsOf epoch
  · rw [Shelf.fetch]
    cases fetched : request.snapshot? with
    | none => rfl
    | some snap =>
      obtain ⟨info, replied, rfl⟩ := own
      obtain ⟨info', replied', same⟩ := Fetch.isOf_of_snapshot? fetched
      obtain rfl := Option.some.inj (replied.symm.trans replied')
      have full : (shelf snap.content.epoch.epoch).isNothing = false := by
        rw [← same]
        cases held : shelf info.epoch with
        | nothing => exact absurd held taken
        | torn | whole _ => rfl
      simp [full, unforced ⟨info, replied, rfl⟩]
  · exact shelf.fetch_of_not_isOf own

/-! ### Two snapshots -/

/-- The snapshot of an epoch with two leaders, fetched at its first slot. -/
def savedSnapshot (epoch : Nat) : Snapshot String where
  content := ⟨⟨epoch, 432000 * epoch, 0, 432000⟩, [], sampleSchedule⟩
  rest := "2026-01-02T03:04:05Z"

/-- The JSON of such a snapshot. -/
def savedJson (snap : Snapshot String) : List UInt8 :=
  let info := snap.content.epoch
  ("\x7b\n  \"fetched_at\": \"".toList ++ snap.rest.toList ++
    "\",\n  \"epoch\": \x7b\n    \"epoch\": ".toList ++ Nat.toDigits 10 info.epoch ++
    ",\n    \"absolute_slot\": ".toList ++ Nat.toDigits 10 info.absoluteSlot ++
    ",\n    \"slot_index\": ".toList ++ Nat.toDigits 10 info.slotIndex ++
    ",\n    \"slots_in_epoch\": ".toList ++ Nat.toDigits 10 info.slotsInEpoch ++
    "\n  \x7d,\n  \"validators\": [],\n  \"schedule\": \x7b\n".toList ++
    "    \"A\": [\n      0\n    ],\n    \"B\": [\n      1\n    ]\n  \x7d\n\x7d".toList).map
      Char.toUInt8

/-- JSON as far as the snapshots of two epochs go. -/
def savedFormat : SnapshotFormat String where
  toStringPretty := savedJson
  fromStr raw :=
    if raw = savedJson (savedSnapshot 1) then some (savedSnapshot 1)
    else if raw = savedJson (savedSnapshot 2) then some (savedSnapshot 2)
    else none

theorem savedFormat_readsBack (epoch : Nat) (either : epoch = 1 ∨ epoch = 2) :
    savedFormat.ReadsBack (savedSnapshot epoch) := by
  have lengths : (savedJson (savedSnapshot 1)).length = (savedJson (savedSnapshot epoch)).length ∧
      (savedJson (savedSnapshot 2)).length = (savedJson (savedSnapshot epoch)).length := by
    rcases either with rfl | rfl <;> decide +kernel
  refine ⟨?_, fun written short => ?_⟩
  · have differ : savedJson (savedSnapshot 2) ≠ savedJson (savedSnapshot 1) := by decide +kernel
    rcases either with rfl | rfl
    · simp [savedFormat]
    · simp [savedFormat, differ]
  · have shorter : ∀ text : List UInt8,
        text.length = (savedJson (savedSnapshot epoch)).length →
          (savedJson (savedSnapshot epoch)).take written ≠ text := by
      intro text whole same
      have cut := congrArg List.length same
      rw [List.length_take, whole] at cut
      have below : written < (savedJson (savedSnapshot epoch)).length := short
      omega
    simp [savedFormat, shorter _ lengths.1, shorter _ lengths.2]

/-- A fetch of one of the epochs that gets every reply. -/
def savingFetch (epoch : Nat) (force : Bool) (writing : Writing) (fits : epoch < u64Bound) :
    Fetch String where
  force := force
  epochInfo := some (savedSnapshot epoch).content.epoch
  validators := some ([], "2026-01-02T03:04:05Z")
  schedule := some sampleSchedule
  writing := writing
  fits info replied := by
    obtain rfl := Option.some.inj replied
    exact fits

/-- **After any fetches, however they end, the cache reads what the shelf holds.** The
snapshot of an epoch is read exactly when it is whole, and the latest snapshot is that of the
greatest epoch of which anything is held. -/
theorem cache_current (format : SnapshotFormat ρ) (dir : Directory)
    (blank : ∀ name, (dir.get name).isSome → snapshotEpoch name = none)
    (requests : List (Fetch ρ))
    (readsBack : ∀ request ∈ requests, ∀ snap, request.snapshot? = some snap →
      format.ReadsBack snap)
    (names : List FileName)
    (listed : ∀ name, name ∈ names ↔ ((dirAfter format dir requests).get name).isSome) :
    (∀ epoch < u64Bound, ∀ snap, load format (dirAfter format dir requests) epoch = .ok snap ↔
      shelfAfter format requests epoch = .whole snap) ∧
    (latestSnapshot format (dirAfter format dir requests) names = .ok none ↔
      ∀ epoch, shelfAfter format requests epoch = .nothing) ∧
    ∀ snap, latestSnapshot format (dirAfter format dir requests) names = .ok (some snap) ↔
      ∃ epoch, IsGreatest {epoch | shelfAfter format requests epoch ≠ .nothing} epoch ∧
        shelfAfter format requests epoch = .whole snap := by
  have represents := dirAfter_represents blank readsBack
  exact ⟨fun epoch fits snap => load_eq_ok represents fits snap,
    latestSnapshot_eq_none represents listed, latestSnapshot_eq_some represents listed⟩

theorem savingFetch_isOf {epoch other : Nat} {force : Bool} {writing : Writing}
    {fits : epoch < u64Bound} :
    (savingFetch epoch force writing fits).IsOf other ↔ epoch = other := by
  constructor
  · rintro ⟨info, replied, rfl⟩
    exact congrArg EpochInfo.epoch (Option.some.inj replied)
  · rintro rfl
    exact ⟨_, rfl, rfl⟩

/-- In an empty place, a fetch leaves what its writing leaves. -/
theorem fetch_savingFetch {shelf : Shelf String} {epoch : Nat} {force : Bool} {writing : Writing}
    {fits : epoch < u64Bound} (free : shelf epoch = .nothing) :
    shelf.fetch savedFormat (savingFetch epoch force writing fits) epoch =
      leaves savedFormat (savedSnapshot epoch) .nothing writing := by
  rw [Shelf.fetch]
  simp [savingFetch, Fetch.snapshot?, savedSnapshot, free, Held.isNothing]

theorem listed_keys (dir : Directory) (name : FileName) :
    name ∈ dir.keys ↔ (dir.get name).isSome :=
  AList.mem_keys.symm.trans AList.lookup_isSome.symm

/-- What such a fetch saves is read back. -/
theorem savingFetch_readsBack {epoch : Nat} (either : epoch = 1 ∨ epoch = 2) {force : Bool}
    {writing : Writing} {fits : epoch < u64Bound} :
    ∀ snap, (savingFetch epoch force writing fits).snapshot? = some snap →
      savedFormat.ReadsBack snap := by
  intro snap fetched
  obtain rfl := Option.some.inj fetched
  exact savedFormat_readsBack epoch either

def firstFetch : List (Fetch String) := [savingFetch 1 false .complete (by decide)]

theorem firstFetch_readsBack :
    ∀ request ∈ firstFetch, ∀ snap, request.snapshot? = some snap → savedFormat.ReadsBack snap :=
  List.forall_mem_singleton.mpr (savingFetch_readsBack (.inl rfl))

theorem firstFetch_whole : shelfAfter savedFormat firstFetch 1 = .whole (savedSnapshot 1) := by
  rw [shelfAfter, firstFetch, List.foldl_cons, List.foldl_nil, fetch_savingFetch rfl]
  rfl

theorem firstFetch_above {above : Nat} (later : 1 < above) :
    shelfAfter savedFormat firstFetch above = .nothing := by
  rw [shelfAfter, firstFetch, List.foldl_cons, List.foldl_nil, Shelf.fetch_of_not_isOf]
  intro own
  have same := savingFetch_isOf.mp own
  omega

/-- A second fetch of epoch 1 keeps what is there. Then the chain comes to epoch 2. -/
def epochChange : List (Fetch String) :=
  firstFetch ++
    [savingFetch 1 false .complete (by decide), savingFetch 2 false .complete (by decide)]

theorem epochChange_readsBack :
    ∀ request ∈ epochChange, ∀ snap, request.snapshot? = some snap →
      savedFormat.ReadsBack snap :=
  List.forall_mem_append.mpr ⟨firstFetch_readsBack,
    List.forall_mem_cons.mpr ⟨savingFetch_readsBack (.inl rfl),
      List.forall_mem_singleton.mpr (savingFetch_readsBack (.inr rfl))⟩⟩

theorem epochChange_first : shelfAfter savedFormat epochChange 1 = .whole (savedSnapshot 1) := by
  have first : shelfAfter savedFormat firstFetch 1 = .whole (savedSnapshot 1) := firstFetch_whole
  rw [epochChange, shelfAfter, List.foldl_append, List.foldl_cons, List.foldl_cons,
    List.foldl_nil, Shelf.fetch_of_not_isOf, Shelf.fetch_of_unforced]
  · exact first
  · exact fun _ => rfl
  · exact fun nothing => nomatch first.symm.trans nothing
  · exact fun own => absurd (savingFetch_isOf.mp own) (by decide)

theorem epochChange_second : shelfAfter savedFormat epochChange 2 = .whole (savedSnapshot 2) := by
  have free : shelfAfter savedFormat firstFetch 2 = .nothing := firstFetch_above (by decide)
  rw [epochChange, shelfAfter, List.foldl_append, List.foldl_cons, List.foldl_cons,
    List.foldl_nil, fetch_savingFetch]
  · rfl
  · rw [Shelf.fetch_of_not_isOf]
    · exact free
    · exact fun own => absurd (savingFetch_isOf.mp own) (by decide)

theorem epochChange_above {above : Nat} (later : 2 < above) :
    shelfAfter savedFormat epochChange above = .nothing := by
  have early := firstFetch_above (Nat.lt_trans (by decide) later)
  rw [epochChange, shelfAfter, List.foldl_append, List.foldl_cons, List.foldl_cons,
    List.foldl_nil, Shelf.fetch_of_not_isOf, Shelf.fetch_of_not_isOf]
  · exact early
  all_goals
    intro own
    have same := savingFetch_isOf.mp own
    omega

theorem cache_current_sample :
    load savedFormat (dirAfter savedFormat .empty epochChange) 1 = .ok (savedSnapshot 1) ∧
      latestSnapshot savedFormat (dirAfter savedFormat .empty epochChange)
        (dirAfter savedFormat .empty epochChange).keys = .ok (some (savedSnapshot 2)) := by
  obtain ⟨loads, -, latest⟩ := cache_current savedFormat .empty (by simp) epochChange
    epochChange_readsBack _ (listed_keys _)
  refine ⟨(loads 1 (by decide) _).mpr epochChange_first,
    (latest _).mpr ⟨2, ⟨fun nothing => ?_, fun epoch something => ?_⟩, epochChange_second⟩⟩
  · cases epochChange_second.symm.trans nothing
  · exact Nat.le_of_not_lt fun later => something (epochChange_above later)

/-! ## Torn files -/

/-- **A fetch that is cut short blocks the cache.** As long as no fetch of the epoch is forced
and none is of a later epoch, the latest snapshot cannot be read, whatever is there of earlier
epochs. -/
theorem latest_blocked (format : SnapshotFormat ρ) (dir : Directory)
    (blank : ∀ name, (dir.get name).isSome → snapshotEpoch name = none)
    (past later : List (Fetch ρ))
    (readsBack : ∀ request ∈ past ++ later, ∀ snap, request.snapshot? = some snap →
      format.ReadsBack snap)
    (epoch : Nat) (torn : shelfAfter format past epoch = .torn)
    (highest : ∀ above, epoch < above → shelfAfter format past above = .nothing)
    (unforced : ∀ request ∈ later, request.IsOf epoch → request.force = false)
    (notLater : ∀ request ∈ later, ∀ above, epoch < above → ¬ request.IsOf above)
    (names : List FileName)
    (listed : ∀ name, name ∈ names ↔
      ((dirAfter format dir (past ++ later)).get name).isSome)
    (answer : Option (Snapshot ρ)) :
    latestSnapshot format (dirAfter format dir (past ++ later)) names ≠ .ok answer := by
  have represents := dirAfter_represents blank readsBack
  -- the torn file stays, and stays the latest
  have stays : shelfAfter format (past ++ later) epoch = .torn ∧
      ∀ above, epoch < above → shelfAfter format (past ++ later) above = .nothing := by
    clear represents listed readsBack
    induction later using List.reverseRecOn with
    | nil =>
      rw [List.append_nil]
      exact ⟨torn, highest⟩
    | append_singleton later request ih =>
      obtain ⟨still, none'⟩ := ih
        (fun earlier member => unforced earlier (List.mem_append_left _ member))
        (fun earlier member => notLater earlier (List.mem_append_left _ member))
      have last : request ∈ later ++ [request] :=
        List.mem_append_right _ (List.mem_singleton_self request)
      rw [← List.append_assoc, shelfAfter, List.foldl_concat]
      constructor
      · rw [Shelf.fetch_of_unforced _ (unforced request last)]
        · exact still
        · exact fun nothing => by cases still.symm.trans nothing
      · intro above later'
        rw [Shelf.fetch_of_not_isOf _ (notLater request last above later')]
        exact none' above later'
  cases answer with
  | none =>
    intro none'
    have nothing := (latestSnapshot_eq_none represents listed).mp none' epoch
    cases stays.1.symm.trans nothing
  | some snap =>
    intro latest
    obtain ⟨top, greatest, whole⟩ := (latestSnapshot_eq_some represents listed snap).mp latest
    have reaches : epoch ≤ top := greatest.2 fun nothing => by cases stays.1.symm.trans nothing
    rcases Nat.lt_or_eq_of_le reaches with above | same
    · exact greatest.1 (stays.2 top above)
    · rw [← same, stays.1] at whole
      cases whole

/-- The fetch of epoch 2 is cut short. -/
def cutShort : List (Fetch String) :=
  firstFetch ++ [savingFetch 2 false (.stopped 100) (by decide)]

/-- The next fetch leaves it at that. -/
def leftTorn : List (Fetch String) := [savingFetch 2 false .complete (by decide)]

theorem latest_blocked_sample :
    latestSnapshot savedFormat (dirAfter savedFormat .empty (cutShort ++ leftTorn))
      (dirAfter savedFormat .empty (cutShort ++ leftTorn)).keys ≠ .ok (some (savedSnapshot 1)) := by
  refine latest_blocked savedFormat .empty (by simp) cutShort leftTorn ?_ 2 ?_ ?_ ?_ ?_ _
    (listed_keys _) _
  · exact List.forall_mem_append.mpr ⟨List.forall_mem_append.mpr ⟨firstFetch_readsBack,
        List.forall_mem_singleton.mpr (savingFetch_readsBack (.inr rfl))⟩,
      List.forall_mem_singleton.mpr (savingFetch_readsBack (.inr rfl))⟩
  · have cut : 100 < (savedFormat.toStringPretty (savedSnapshot 2)).length := by decide +kernel
    rw [shelfAfter, cutShort, List.foldl_concat, fetch_savingFetch, leaves, if_pos cut]
    exact firstFetch_above (by decide)
  · intro above later
    rw [shelfAfter, cutShort, List.foldl_concat, Shelf.fetch_of_not_isOf]
    · exact firstFetch_above (by omega)
    · exact fun own => absurd (savingFetch_isOf.mp own) (Nat.ne_of_lt later)
  · intro request member _
    obtain rfl := List.mem_singleton.mp member
    rfl
  · rintro request member above later ⟨info, replied, same⟩
    obtain rfl := List.mem_singleton.mp member
    obtain rfl := Option.some.inj replied
    exact absurd same (Nat.ne_of_lt later)

end Refinement

end SenderAnalysis.LeaderMap
