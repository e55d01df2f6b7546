import Mathlib.Algebra.Ring.Int.Defs
import Mathlib.Data.List.Basic

/-!
# JSON values and how records are read from them

An object keeps its members in the order of the text, with those that share a name. A
generic value keeps the last of them. A record is read member by member: a member that is
an option may be missing or `null`, any other has to be there, and no member may come
twice. Members that are not of the record are skipped. A record is also read from an array
that lists its members.

Reading the text is left to a parser.
-/

set_option autoImplicit false

namespace SenderAnalysis

/-- A number is an integer when it is written as one and fits in 64 bits. -/
inductive Json where
  | null
  | bool (value : Bool)
  | integer (value : Int)
  | float (literal : String)
  | string (value : String)
  | array (items : List Json)
  | object (members : List (String × Json))

namespace Json

variable {α : Type}

/-- The string that a value is. -/
def asStr : Json → Option String
  | string value => some value
  | _ => none

/-- The values that the members of a name have, in order. -/
def valuesOf (json : Json) (name : String) : List Json :=
  match json with
  | object members => members.filterMap fun member =>
      if member.1 = name then some member.2 else none
  | _ => []

/-- The value of a name in an object: the last member of the name counts. -/
def get (json : Json) (name : String) : Option Json := (json.valuesOf name).getLast?

/-- The string of a name in an object. -/
def getStr (json : Json) (name : String) : Option String := (json.get name).bind asStr

/-! ## Reading records -/

/-- An integer of 32 bits. -/
def asI32 : Json → Option Int32
  | integer value => if -2 ^ 31 ≤ value ∧ value < 2 ^ 31 then some (Int32.ofInt value) else none
  | _ => none

/-- An option is `null` or a value. -/
def optional (read : Json → Option α) : Json → Option (Option α)
  | null => some none
  | json => (read json).map some

/-- A member that has to be there, once. -/
def required (read : Json → Option α) : List Json → Option α
  | [value] => read value
  | _ => none

/-- A member that may be missing. -/
def optionalMember (read : Json → Option α) : List Json → Option (Option α)
  | [] => some none
  | [value] => optional read value
  | _ => none

/-- An option reads as nothing from `null` alone. -/
theorem optional_eq_none {read : Json → Option α} {json : Json} :
    optional read json = some none ↔ json = null := by
  cases json <;> simp [optional]

theorem optional_asStr {json : Json} :
    (∃ value, optional asStr json = some value) ↔ json = null ∨ ∃ value, json = string value := by
  cases json <;> simp [optional, asStr]

/-- An optional member reads as nothing when it is missing or `null`. -/
theorem optionalMember_eq_none {read : Json → Option α} {values : List Json} :
    optionalMember read values = some none ↔ values = [] ∨ values = [null] := by
  match values with
  | [] => simp [optionalMember]
  | [value] => simp [optionalMember, optional_eq_none]
  | _ :: _ :: _ => simp [optionalMember]

theorem optionalMember_asStr {values : List Json} :
    (∃ value, optionalMember asStr values = some value) ↔
      values = [] ∨ values = [null] ∨ ∃ value, values = [string value] := by
  match values with
  | [] => simp [optionalMember]
  | [value] => simp [optionalMember, optional_asStr]
  | _ :: _ :: _ => simp [optionalMember]

end Json

end SenderAnalysis
