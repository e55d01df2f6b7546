import SenderAnalysis.EntrySources.Observation
import Mathlib.Data.List.TakeDrop
import Mathlib.Data.Nat.Notation

/-!
# The data of a nonce account

The bytes of a nonce account hold, after a version, the discriminant of its state, the
authority that may advance it, its value, and the fee of a signature. The parser looks at
the length, at the discriminant, at the authority and at the value, and at nothing else.
So it takes the authority and the value back out of what they were put into
(`parse_nonceAccountData`), and accepts nothing but such data (`parse_eq_ok`).
-/

set_option autoImplicit false

namespace SenderAnalysis

/-- The bytes of an account. -/
abbrev AccountData := List UInt8

structure NonceAccountState where
  authority : Pubkey
  blockhash : Hash
deriving DecidableEq, Repr

inductive NonceParseError where
  | tooShort (length : Nat)
  | uninitialized
  | bincode (message : String)
deriving DecidableEq, Repr

def NonceParseError.toString : NonceParseError → String
  | tooShort length =>
      "account data too short: " ++ ToString.toString length ++ " bytes (expected 80)"
  | uninitialized => "nonce state is Uninitialized"
  | bincode message => "bincode deserialization failed: " ++ message

/-- The number four bytes spell, the lowest first. -/
def u32FromLeBytes (bytes : Vector UInt8 4) : Nat :=
  bytes[0].toNat + 256 * (bytes[1].toNat + 256 * (bytes[2].toNat + 256 * bytes[3].toNat))

/-- The bytes of a number, the lowest first. -/
def u32ToLeBytes (number : Nat) : Vector UInt8 4 :=
  #v[UInt8.ofNat number, UInt8.ofNat (number / 256), UInt8.ofNat (number / 256 / 256),
    UInt8.ofNat (number / 256 / 256 / 256)]

/-- The bytes of the data from a place on. -/
def bytesAt (data : AccountData) (start size : Nat) (long : start + size ≤ data.length) :
    Vector UInt8 size :=
  ⟨((data.drop start).take size).toArray, by
    rw [List.size_toArray, List.length_take, List.length_drop]
    omega⟩

def parseNonceAccountData (data : AccountData) : Except NonceParseError NonceAccountState :=
  if short : data.length < 80 then .error (.tooShort data.length)
  else
    let stateDisc := u32FromLeBytes (bytesAt data 4 4 (by omega))
    if stateDisc = 0 then .error .uninitialized
    else if stateDisc ≠ 1 then
      .error (.bincode ("unexpected state discriminant: " ++ toString stateDisc))
    else .ok ⟨bytesAt data 8 32 (by omega), bytesAt data 40 32 (by omega)⟩

/-- The data of an account: a version, the discriminant of the state, the authority, the
value, and what follows. -/
def nonceAccountData (version : Vector UInt8 4) (stateDisc : Nat) (state : NonceAccountState)
    (rest : List UInt8) : AccountData :=
  version.toList ++ (u32ToLeBytes stateDisc).toList ++ state.authority.toList ++
    state.blockhash.toList ++ rest

theorem u32FromLeBytes_toLeBytes {number : Nat} (small : number < 2 ^ 32) :
    u32FromLeBytes (u32ToLeBytes number) = number := by
  simp only [u32FromLeBytes, u32ToLeBytes, Vector.getElem_mk, List.getElem_toArray,
    List.getElem_cons_zero, List.getElem_cons_succ, UInt8.toNat_ofNat']
  omega

theorem u32ToLeBytes_fromLeBytes (bytes : Vector UInt8 4) :
    u32ToLeBytes (u32FromLeBytes bytes) = bytes := by
  refine Vector.ext fun place within => ?_
  have bound0 := bytes[0].toNat_lt
  have bound1 := bytes[1].toNat_lt
  have bound2 := bytes[2].toNat_lt
  have bound3 := bytes[3].toNat_lt
  match place, within with
  | 0, _ | 1, _ | 2, _ | 3, _ =>
    refine UInt8.toNat_inj.mp ?_
    simp only [u32FromLeBytes, u32ToLeBytes, Vector.getElem_mk, List.getElem_toArray,
      List.getElem_cons_zero, List.getElem_cons_succ, UInt8.toNat_ofNat']
    omega

/-! ## Taking the data apart -/

/-- Bytes are found where they were put. -/
theorem bytesAt_eq {data before after : AccountData} {size start : Nat}
    {bytes : Vector UInt8 size} (parts : data = before ++ bytes.toList ++ after)
    (place : before.length = start) (long : start + size ≤ data.length) :
    bytesAt data start size long = bytes := by
  subst parts place
  refine Vector.toList_inj.mp ?_
  simp [bytesAt, List.append_assoc, Vector.toList]

/-- Data that is long enough is a version, a discriminant, a state and the rest. -/
theorem exists_nonceAccountData {data : AccountData} (long : 80 ≤ data.length) :
    ∃ version stateDisc state rest, stateDisc < 2 ^ 32 ∧ 8 ≤ rest.length ∧
      data = nonceAccountData version stateDisc state rest := by
  refine ⟨bytesAt data 0 4 (by omega), u32FromLeBytes (bytesAt data 4 4 (by omega)),
    ⟨bytesAt data 8 32 (by omega), bytesAt data 40 32 (by omega)⟩, data.drop 72, ?_, ?_, ?_⟩
  · have bound0 := (bytesAt data 4 4 (by omega))[0].toNat_lt
    have bound1 := (bytesAt data 4 4 (by omega))[1].toNat_lt
    have bound2 := (bytesAt data 4 4 (by omega))[2].toNat_lt
    have bound3 := (bytesAt data 4 4 (by omega))[3].toNat_lt
    unfold u32FromLeBytes
    omega
  · rw [List.length_drop]
    omega
  · have cut : ∀ start size, (data.drop start).take size ++ data.drop (start + size) =
        data.drop start := fun start size => by
      rw [← List.drop_drop, List.take_append_drop]
    rw [nonceAccountData, u32ToLeBytes_fromLeBytes]
    simp only [bytesAt, Vector.toList, List.append_assoc]
    rw [cut 40 32, cut 8 32, cut 4 4, cut 0 4, List.drop_zero]

/-- **What the parser finds in the data of an account.** -/
theorem parse_nonceAccountData (version : Vector UInt8 4) {stateDisc : Nat}
    (small : stateDisc < 2 ^ 32) (state : NonceAccountState) {rest : List UInt8}
    (long : 8 ≤ rest.length) :
    parseNonceAccountData (nonceAccountData version stateDisc state rest) =
      if stateDisc = 0 then .error .uninitialized
      else if stateDisc ≠ 1 then
        .error (.bincode ("unexpected state discriminant: " ++ toString stateDisc))
      else .ok state := by
  have length : (nonceAccountData version stateDisc state rest).length = 72 + rest.length := by
    simp [nonceAccountData]
    omega
  have disc : ∀ inside, bytesAt (nonceAccountData version stateDisc state rest) 4 4 inside =
      u32ToLeBytes stateDisc :=
    @bytesAt_eq _ version.toList (state.authority.toList ++ state.blockhash.toList ++ rest) _ _ _
      (by simp [nonceAccountData]) (by simp)
  have authority : ∀ inside, bytesAt (nonceAccountData version stateDisc state rest) 8 32 inside =
      state.authority :=
    @bytesAt_eq _ (version.toList ++ (u32ToLeBytes stateDisc).toList)
      (state.blockhash.toList ++ rest) _ _ _ (by simp [nonceAccountData]) (by simp)
  have blockhash : ∀ inside, bytesAt (nonceAccountData version stateDisc state rest) 40 32 inside =
      state.blockhash :=
    @bytesAt_eq _ (version.toList ++ (u32ToLeBytes stateDisc).toList ++ state.authority.toList)
      rest _ _ _ (by simp [nonceAccountData]) (by simp)
  rw [parseNonceAccountData, dif_neg (by omega), disc, authority, blockhash]
  simp only [u32FromLeBytes_toLeBytes small]

/-- **The parser accepts exactly the data of initialized accounts**, and takes out what was
put in. -/
theorem parse_eq_ok (data : AccountData) (state : NonceAccountState) :
    parseNonceAccountData data = .ok state ↔
      ∃ version rest, 8 ≤ rest.length ∧ data = nonceAccountData version 1 state rest := by
  constructor
  · intro accepted
    by_cases short : data.length < 80
    · rw [parseNonceAccountData, dif_pos short] at accepted
      cases accepted
    · obtain ⟨version, stateDisc, found, rest, small, long, rfl⟩ :=
        exists_nonceAccountData (Nat.not_lt.mp short)
      rw [parse_nonceAccountData version small found long] at accepted
      split at accepted
      · cases accepted
      · split at accepted
        · cases accepted
        · next initialized =>
          obtain rfl := Except.ok.inj accepted
          obtain rfl := not_ne_iff.mp initialized
          exact ⟨version, rest, long, rfl⟩
  · rintro ⟨version, rest, long, rfl⟩
    rw [parse_nonceAccountData version (by decide) state long]
    rfl

end SenderAnalysis
