import Mathlib.Algebra.Order.Ring.Rat
import Mathlib.Data.List.DropRight
import RezSdk.L1Records.Basic

/-!
# JSON values

What arrives from a transport or from storage: a JSON value, read by property
access. An object keeps its fields in order; `undefined` is no value.
-/
namespace RezSdk.L1

inductive JsNumber
  | nan
  | posInf
  | negInf
  | fin (q : ℚ)
deriving DecidableEq

namespace JsNumber

/-- `Number.isFinite(x) && x > 0` -/
def positive : JsNumber → Bool
  | .fin q => 0 < q
  | _ => false

/-- `Number.isInteger(x)` -/
def isInteger : JsNumber → Bool
  | .fin q => q.den = 1
  | _ => false

/-- `x < y`, false when one of them is not a number -/
def lt : JsNumber → JsNumber → Bool
  | .nan, _ => false
  | _, .nan => false
  | .fin p, .fin q => p < q
  | .negInf, y => y ≠ .negInf
  | .fin _, y => y = .posInf
  | .posInf, _ => false

/-- `x >= 1` -/
def atLeastOne : JsNumber → Bool
  | .fin q => 1 ≤ q
  | .posInf => true
  | _ => false

/-- A natural number as the double nearest to it, ties to the even
significand. -/
def roundNat (n : Nat) : Nat :=
  if n < 2 ^ 53 then n
  else
    let e := n.log2 - 52
    let half := 2 ^ (e - 1)
    let low := n % 2 ^ e
    let high := n / 2 ^ e
    (if half < low ∨ (low = half ∧ high % 2 = 1) then high + 1 else high) * 2 ^ e

/-- `x + 1` for a natural number `x` -/
def addOne : JsNumber → JsNumber
  | .fin q => .fin (roundNat (q.num.toNat + 1))
  | x => x

end JsNumber

inductive Json
  | null
  | bool (b : Bool)
  | num (n : JsNumber)
  | str (s : String)
  | arr (xs : List Json)
  | obj (fields : List (String × Json))

namespace Json

/-- `value[key]` for a key that is no index and no method; a value without
properties has none. -/
def prop (key : String) : Option Json → Option Json
  | some (.obj fields) => (fields.find? fun f => f.1 = key).map Prod.snd
  | _ => none

/-- `typeof value === "string"` -/
def text : Option Json → Option String
  | some (.str s) => some s
  | _ => none

/-- `typeof value === "string" ? value.trim() : ""` -/
def trimmed (value : Option Json) : String :=
  match text value with
  | some s => trim s
  | none => ""

/-- `if (value)` -/
def truthy : Option Json → Bool
  | none => false
  | some .null => false
  | some (.bool b) => b
  | some (.num n) => n ≠ .nan ∧ n ≠ .fin 0
  | some (.str s) => !s.isEmpty
  | some (.arr _) => true
  | some (.obj _) => true

/-- `value && typeof value === "object" ? value : {}` -/
def orEmpty : Option Json → Json
  | some (.obj fields) => .obj fields
  | some (.arr xs) => .arr xs
  | _ => .obj []

end Json

/-! ## Trimmed texts -/

theorem trim_eq (s : String) : trim s = .ofList ((s.toList.dropWhile isSpace).rdropWhile isSpace) :=
  rfl

/-- An id is its own trim. -/
theorem trim_of_isId {s : String} (h : isId s = true) : trim s = s := by
  unfold isId at h
  split at h
  · cases h
  · rename_i c cs hl
    rw [Bool.and_eq_true, Bool.not_eq_true', Bool.not_eq_true'] at h
    have hdrop : s.toList.dropWhile isSpace = s.toList := by
      rw [hl, List.dropWhile_cons_of_neg]
      rw [h.1]
      nofun
    have hright : s.toList.rdropWhile isSpace = s.toList := by
      rw [List.rdropWhile_eq_self_iff, hl]
      intro _ hspace
      rw [h.2] at hspace
      cases hspace
    rw [trim_eq, hdrop, hright, String.ofList_toList]

theorem isId_ne_empty {s : String} (h : isId s = true) : s.isEmpty = false := by
  rw [← Bool.not_eq_true, String.isEmpty_iff]
  rintro rfl
  cases h

/-- A trim that is not empty is an id. -/
theorem isId_trim {s : String} (h : (trim s).isEmpty = false) : isId (trim s) = true := by
  have hne : (trim s).toList ≠ [] := by
    intro hnil
    have hempty : trim s = "" := String.toList_inj.mp hnil
    rw [hempty] at h
    cases h
  have hl : (trim s).toList = (s.toList.dropWhile isSpace).rdropWhile isSpace := by
    rw [trim_eq, String.toList_ofList]
  unfold isId
  split
  · rename_i hnil
    exact absurd hnil hne
  · rename_i c cs hc
    rw [hl] at hc
    rw [Bool.and_eq_true, Bool.not_eq_true', Bool.not_eq_true']
    constructor
    · -- the head is the head of what is left after the leading blanks
      obtain ⟨tail, htail⟩ := List.rdropWhile_prefix isSpace (s.toList.dropWhile isSpace)
      have hhead := List.head?_dropWhile_not isSpace s.toList
      rw [← htail, hc] at hhead
      exact hhead
    · have hlast := List.rdropWhile_last_not isSpace (s.toList.dropWhile isSpace)
          (by rw [hc]; exact List.cons_ne_nil _ _)
      simpa [hc] using hlast

theorem Json.trimmed_str (s : String) : Json.trimmed (some (.str s)) = trim s := rfl

theorem Json.isId_trimmed {v : Option Json} (h : (Json.trimmed v).isEmpty = false) :
    isId (Json.trimmed v) = true := by
  unfold Json.trimmed at h ⊢
  split at h
  · exact isId_trim h
  · cases h

/-- The first value that is a text and not empty.
mirrors src/pool/UplinkPool.js:643-648 -/
def firstNonEmptyString : List (Option Json) → Option String
  | [] => none
  | v :: vs =>
    match Json.text v with
    | some s => if s.isEmpty then firstNonEmptyString vs else some s
    | none => firstNonEmptyString vs

end RezSdk.L1
