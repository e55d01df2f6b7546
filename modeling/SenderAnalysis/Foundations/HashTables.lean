import Mathlib.Algebra.Ring.Nat
import Mathlib.Data.List.AList
import Mathlib.Data.List.Induction
import SenderAnalysis.Foundations.Runs

/-!
# Hash tables

A hash table is an association list with distinct keys. The operations have the
names of the operations of a hash map; each is determined by what it does to a
lookup. Where a component iterates over a table, the order of the list stands for
the unspecified order of the iteration.
-/

set_option autoImplicit false

namespace SenderAnalysis

/-- A finite table from keys to values. -/
abbrev HashTable (κ ν : Type) := AList fun _ : κ => ν

namespace HashTable

variable {κ ν : Type} [DecidableEq κ]

/-- The table without entries. -/
def empty : HashTable κ ν := (∅ : AList fun _ : κ => ν)

/-- The value at a key. -/
def get (table : HashTable κ ν) (key : κ) : Option ν := AList.lookup key table

/-- Set the value at a key. -/
def insert (table : HashTable κ ν) (key : κ) (value : ν) : HashTable κ ν :=
  AList.insert key value table

/-- Remove a key. -/
def remove (table : HashTable κ ν) (key : κ) : HashTable κ ν := AList.erase key table

/-- Keep the entries that pass a test. -/
def retain (table : HashTable κ ν) (test : κ → ν → Bool) : HashTable κ ν where
  entries := table.entries.filter fun entry => test entry.1 entry.2
  nodupKeys := table.nodupKeys.sublist List.filter_sublist

@[simp] theorem get_empty (key : κ) : (empty : HashTable κ ν).get key = none :=
  AList.lookup_empty key

@[simp] theorem get_insert_self (table : HashTable κ ν) (key : κ) (value : ν) :
    (table.insert key value).get key = some value :=
  AList.lookup_insert table

theorem get_insert_of_ne (table : HashTable κ ν) {key other : κ} (value : ν)
    (different : other ≠ key) : (table.insert key value).get other = table.get other :=
  AList.lookup_insert_ne different

theorem get_insert (table : HashTable κ ν) (key other : κ) (value : ν) :
    (table.insert key value).get other = if other = key then some value else table.get other := by
  by_cases same : other = key
  · subst same
    simp
  · rw [get_insert_of_ne table value same, if_neg same]

@[simp] theorem get_remove_self (table : HashTable κ ν) (key : κ) :
    (table.remove key).get key = none :=
  AList.lookup_erase key table

theorem get_remove_of_ne (table : HashTable κ ν) {key other : κ} (different : other ≠ key) :
    (table.remove key).get other = table.get other :=
  AList.lookup_erase_ne different

theorem get_remove (table : HashTable κ ν) (key other : κ) :
    (table.remove key).get other = if other = key then none else table.get other := by
  by_cases same : other = key
  · subst same
    simp
  · rw [get_remove_of_ne table same, if_neg same]

/-- What is left in a table was there before. -/
theorem get_of_get_remove {table : HashTable κ ν} {key other : κ} {value : ν}
    (found : (table.remove key).get other = some value) : table.get other = some value := by
  rw [get_remove] at found
  split at found
  · cases found
  · exact found

/-- Removing a list of keys, one after the other. -/
theorem get_foldl_remove (keys : List κ) (table : HashTable κ ν) (key : κ) :
    (keys.foldl remove table).get key = if key ∈ keys then none else table.get key := by
  induction keys generalizing table with
  | nil => simp
  | cons head rest ih =>
    rw [List.foldl_cons, ih, get_remove]
    by_cases later : key ∈ rest
    · simp [later]
    · by_cases here : key = head <;> simp [later, here]

/-- The entries of the list are those a lookup finds. -/
theorem mem_entries {table : HashTable κ ν} {key : κ} {value : ν} :
    ⟨key, value⟩ ∈ table.entries ↔ table.get key = some value :=
  AList.mem_lookup_iff.symm

/-- A retained entry is an entry that passes the test. -/
theorem get_retain (table : HashTable κ ν) (test : κ → ν → Bool) (key : κ) :
    (table.retain test).get key = (table.get key).filter (test key) := by
  obtain ⟨entries, distinct⟩ := table
  change List.dlookup key (entries.filter _) = (List.dlookup key entries).filter (test key)
  induction entries with
  | nil => rfl
  | cons head rest ih =>
    obtain ⟨first, value⟩ := head
    have ⟨fresh, distinct'⟩ := List.nodupKeys_cons.mp distinct
    by_cases same : key = first
    · subst same
      by_cases kept : test key value
      · simp [Option.filter, kept]
      · have absent : List.dlookup key rest = none := List.dlookup_eq_none.mpr fresh
        simp [Option.filter, kept, ih distinct', absent]
    · have past : ∀ tail : List ((_ : κ) × ν),
          List.dlookup key (⟨first, value⟩ :: tail) = List.dlookup key tail :=
        fun tail => List.dlookup_cons_ne tail ⟨first, value⟩ same
      by_cases kept : test first value <;> simp [kept, past, ih distinct']

/-! ## Tables filled in a loop -/

/-- **A loop that writes into an empty table leaves the last write of every key.** The
table is known by its lookups only. -/
theorem lookup_foldl {τ ι : Type} (lookup : τ → κ → Option ν) (keyOf : ι → κ)
    (valueOf : ι → ν) {write : τ → ι → τ}
    (written : ∀ table item key, lookup (write table item) key =
      if key = keyOf item then some (valueOf item) else lookup table key)
    {start : τ} (blank : ∀ key, lookup start key = none) (items : List ι) (key : κ) :
    lookup (items.foldl write start) key =
      (items.reverse.find? fun item => key = keyOf item).map valueOf := by
  induction items using List.reverseRecOn with
  | nil => simp [blank]
  | append_singleton past item ih =>
    rw [List.foldl_concat, written, ih, List.reverse_concat, List.find?_cons]
    by_cases same : key = keyOf item <;> simp [same]

/-! ## The entries -/

/-- Setting a key puts its entry in front of the others. -/
theorem entries_insert (table : HashTable κ ν) (key : κ) (value : ν) :
    (table.insert key value).entries = ⟨key, value⟩ :: (table.remove key).entries := rfl

theorem entries_remove_of_none {table : HashTable κ ν} {key : κ}
    (absent : table.get key = none) : (table.remove key).entries = table.entries :=
  List.kerase_of_notMem_keys (List.dlookup_eq_none.mp absent)

/-- Removing a key takes its entry out. -/
theorem entries_remove_perm {table : HashTable κ ν} {key : κ} {value : ν}
    (present : table.get key = some value) :
    (⟨key, value⟩ :: (table.remove key).entries).Perm table.entries := by
  obtain ⟨entries, distinct⟩ := table
  change List.dlookup key entries = some value at present
  change (⟨key, value⟩ :: List.kerase key entries).Perm entries
  induction entries with
  | nil => simp at present
  | cons head rest ih =>
    obtain ⟨first, held⟩ := head
    have ⟨_, distinct'⟩ := List.nodupKeys_cons.mp distinct
    by_cases same : key = first
    · subst same
      obtain rfl : held = value := by simpa using present
      simp
    · have erased : List.kerase key (⟨first, held⟩ :: rest) =
          ⟨first, held⟩ :: List.kerase key rest := List.kerase_cons_ne same
      have past : List.dlookup key (⟨first, held⟩ :: rest) = List.dlookup key rest :=
        List.dlookup_cons_ne rest ⟨first, held⟩ same
      rw [past] at present
      rw [erased]
      exact (List.Perm.swap _ _ _).trans ((ih distinct' present).cons _)

/-! ## Sums over the entries -/

/-- The number of entries. -/
def size (table : HashTable κ ν) : Nat := table.entries.length

/-- The sum of a weight over the values. -/
def total (weight : ν → Nat) (table : HashTable κ ν) : Nat :=
  (table.entries.map fun entry => weight entry.2).sum

variable {weight : ν → Nat}

omit [DecidableEq κ] in
@[simp] theorem total_empty : (empty : HashTable κ ν).total weight = 0 := rfl

omit [DecidableEq κ] in
theorem size_eq_total (table : HashTable κ ν) : table.size = table.total fun _ => 1 := by
  simp [size, total]

/-- Removing a key takes the weight of its value away. -/
theorem total_remove (table : HashTable κ ν) (key : κ) :
    (table.remove key).total weight + ((table.get key).map weight).getD 0 =
      table.total weight := by
  cases present : table.get key with
  | none => simp [total, entries_remove_of_none present]
  | some value =>
    have sum := ((entries_remove_perm present).map fun entry => weight entry.2).sum_nat
    simpa [total, Nat.add_comm] using sum

/-- Setting a key replaces the weight of its old value by that of the new one. -/
theorem total_insert (table : HashTable κ ν) (key : κ) (value : ν) :
    (table.insert key value).total weight + ((table.get key).map weight).getD 0 =
      table.total weight + weight value := by
  have removed := @total_remove κ ν _ weight table key
  have split : (table.insert key value).total weight =
      weight value + (table.remove key).total weight := by
    simp [total, entries_insert]
  omega

theorem size_remove {table : HashTable κ ν} {key : κ} {value : ν}
    (present : table.get key = some value) : (table.remove key).size + 1 = table.size := by
  have removed := @total_remove κ ν _ (fun _ => 1) table key
  rw [present] at removed
  simpa [size_eq_total] using removed

theorem size_insert_of_none {table : HashTable κ ν} {key : κ} (value : ν)
    (absent : table.get key = none) : (table.insert key value).size = table.size + 1 := by
  have inserted := @total_insert κ ν _ (fun _ => 1) table key value
  rw [absent] at inserted
  simpa [size_eq_total] using inserted

theorem size_insert_of_some {table : HashTable κ ν} {key : κ} {old : ν} (value : ν)
    (present : table.get key = some old) : (table.insert key value).size = table.size := by
  have inserted := @total_insert κ ν _ (fun _ => 1) table key value
  rw [present] at inserted
  simp only [size_eq_total]
  exact Nat.add_right_cancel inserted

/-! ## Taking keys out -/

section TakeOut

variable {ω τ : Type*} (emit : κ → ν → List ω)

/-- Take a key out of the table and hand on what becomes of its value. -/
def takeOut (table : HashTable κ ν) (key : κ) : HashTable κ ν × List ω :=
  match table.get key with
  | none => (table, [])
  | some value => (table.remove key, emit key value)

theorem takeOut_get (table : HashTable κ ν) (key other : κ) :
    (takeOut emit table key).1.get other = if other = key then none else table.get other := by
  unfold takeOut
  split
  · next absent =>
    by_cases same : other = key
    · rw [if_pos same, same, absent]
    · rw [if_neg same]
  · exact get_remove _ _ _

theorem runAll_takeOut_get (keys : List κ) (table : HashTable κ ν) (key : κ) :
    (runAll (takeOut emit) table keys).1.get key = if key ∈ keys then none else table.get key := by
  induction keys generalizing table with
  | nil => simp
  | cons head rest ih =>
    rw [runAll_cons, ih, takeOut_get]
    by_cases later : key ∈ rest
    · simp [later]
    · by_cases here : key = head <;> simp [later, here]

/-- **Of the outputs of a loop that takes out distinct keys, those that belong to one key
are what becomes of its value.** -/
theorem runAll_takeOut_filterMap (select : ω → Option τ) {keys : List κ} (distinct : keys.Nodup)
    (table : HashTable κ ν) (key : κ)
    (foreign : ∀ other value, other ≠ key → table.get other = some value →
      (emit other value).filterMap select = []) :
    (runAll (takeOut emit) table keys).2.filterMap select =
      if key ∈ keys then (((table.get key).map (emit key)).getD []).filterMap select else [] := by
  induction keys generalizing table with
  | nil => simp
  | cons head rest ih =>
    obtain ⟨fresh, distinct'⟩ := List.nodup_cons.mp distinct
    have later := ih distinct' (takeOut emit table head).1 (by
      intro other value apart found
      rw [takeOut_get] at found
      split at found
      · cases found
      · exact foreign other value apart found)
    have first : (takeOut emit table head).2 = ((table.get head).map (emit head)).getD [] := by
      unfold takeOut
      split <;> simp [*]
    rw [runAll_cons, List.filterMap_append, later, first, takeOut_get]
    by_cases here : key = head
    · subst here
      simp [fresh]
    · have silent : (((table.get head).map (emit head)).getD []).filterMap select = [] := by
        cases found : table.get head with
        | none => rfl
        | some value => exact foreign head value (Ne.symm here) found
      simp [silent, here]

end TakeOut

end HashTable

end SenderAnalysis
