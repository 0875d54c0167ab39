import Mathlib.Data.Rat.Defs
import Gateway.Lib.Bytes
import Gateway.Lib.Access

/-! # JSON documents -/

namespace Gateway

open Lib

inductive Json where
  | null
  | bool (b : Bool)
  | int (n : Int)
  | double (q : Rat)
  | string (s : Bytes)
  | array (xs : List Json)
  | object (ms : List (Bytes × Json))

inductive Fault where
  | memberOfNonObject
  | missingMember
  | indexOfNonArray
  | stringOfNonString
  deriving DecidableEq, Repr

abbrev Access := Except Fault

structure RapidJson where
  parse : Bytes → Option Json
  write : Json → Bytes

def RapidJson.ofTable (table : List (Bytes × Json)) (text : Bytes) : RapidJson where
  parse b := table.lookup b
  write _ := text

namespace Json

def isObject : Json → Bool
  | .object _ => true
  | _ => false

def isString : Json → Bool
  | .string _ => true
  | _ => false

def isNull : Json → Bool
  | .null => true
  | _ => false

def isNumber : Json → Bool
  | .int _ => true
  | .double _ => true
  | _ => false

def isInt : Json → Bool
  | .int n => -2 ^ 31 ≤ n ∧ n < 2 ^ 31
  | _ => false

def isInt64 : Json → Bool
  | .int n => -2 ^ 63 ≤ n ∧ n < 2 ^ 63
  | _ => false

def isUint : Json → Bool
  | .int n => 0 ≤ n ∧ n < 2 ^ 32
  | _ => false

def isUint64 : Json → Bool
  | .int n => 0 ≤ n ∧ n < 2 ^ 64
  | _ => false

def getInteger : Json → Int
  | .int n => n
  | _ => 0

def doubleOfInt (n : Int) : Rat :=
  let shift := Nat.log2 n.natAbs - 52
  let unit := 2 ^ shift
  let low := n.natAbs / unit
  let left := n.natAbs % unit
  let mantissa := if 2 * left > unit ∨ (2 * left = unit ∧ low % 2 = 1) then low + 1 else low
  (n.sign * (mantissa * unit : Nat) : Int)

def bool? : Json → Option Bool
  | .bool b => some b
  | _ => none

def int? (j : Json) : Option Int := if j.isInt then some j.getInteger else none

def double? : Json → Option Rat
  | .int n => some (doubleOfInt n)
  | .double q => some q
  | _ => none

def string? : Json → Option Bytes
  | .string s => some (cstr s)
  | _ => none

def text? : Json → Option Bytes
  | .string s => some s
  | _ => none

def array? : Json → Option (List Json)
  | .array xs => some xs
  | _ => none

def object? (j : Json) : Option Json := if j.isObject then some j else none

def members : Json → List (Bytes × Json)
  | .object ms => ms
  | _ => []

def lookup (j : Json) (key : Bytes) : Option Json := j.members.lookup key

def hasMember (j : Json) (key : Bytes) : Access Bool :=
  if j.isObject then .ok (j.lookup key).isSome else .error .memberOfNonObject

def member (j : Json) (key : Bytes) : Access Json :=
  if j.isObject then
    match j.lookup key with
    | some v => .ok v
    | none => .error .missingMember
  else .error .memberOfNonObject

def front : Json → Access Json
  | .array (x :: _) => .ok x
  | _ => .error .indexOfNonArray

def getString : Json → Access Bytes
  | .string s => .ok (cstr s)
  | _ => .error .stringOfNonString

def memberAs {α : Type} (j : Json) (key : Bytes) (view : Json → Option α) : Access (Option α) := do
  if ← j.hasMember key then
    return view (← j.member key)
  return none

def getStr (j : Json) (key : Bytes) : Access Bytes := do
  return (← j.memberAs key string?).getD []

def str (s : Bytes) : Json := .string (cstr s)

section

variable {j : Json}

theorem hasMember_of_object (h : j.isObject) (key : Bytes) :
    j.hasMember key = .ok (j.lookup key).isSome := by
  unfold hasMember
  rw [if_pos h]

theorem member_of_lookup (h : j.isObject) {key : Bytes} {v : Json}
    (hv : j.lookup key = some v) : j.member key = .ok v := by
  unfold member
  rw [if_pos h, hv]

theorem memberAs_of_object {α : Type} (h : j.isObject) (key : Bytes)
    (view : Json → Option α) : j.memberAs key view = .ok ((j.lookup key).bind view) := by
  unfold memberAs
  rw [hasMember_of_object h, ok_bind]
  cases hv : j.lookup key with
  | none => rfl
  | some v => rw [member_of_lookup h hv]; rfl

theorem getStr_of_object (h : j.isObject) (key : Bytes) :
    j.getStr key = .ok (((j.lookup key).bind string?).getD []) := by
  unfold getStr
  rw [memberAs_of_object h]
  rfl

theorem object?_eq_some {v : Json} : j.object? = some v ↔ j.isObject ∧ v = j := by
  unfold object?
  split
  · rename_i h
    simp [h, eq_comm]
  · rename_i h
    simp [h]

theorem isObject_of_bind_object? {o : Option Json} (h : o.bind object? = some j) : j.isObject := by
  obtain ⟨v, -, hv⟩ := Option.bind_eq_some_iff.1 h
  obtain ⟨ho, rfl⟩ := object?_eq_some.1 hv
  exact ho

end

theorem hasMember_of_not_object {j : Json} (h : j.isObject = false) (key : Bytes) :
    j.hasMember key = .error .memberOfNonObject := by
  unfold hasMember
  rw [h]
  rfl

theorem memberAs_of_not_object {α : Type} {j : Json} (h : j.isObject = false) (key : Bytes)
    (view : Json → Option α) : j.memberAs key view = .error .memberOfNonObject := by
  unfold memberAs
  rw [hasMember_of_not_object h]
  rfl

theorem safe_getString_iff {j : Json} : Safe j.getString ↔ j.isString := by
  cases j <;> simp [getString, isString]

end Json

end Gateway
