import Mathlib.Algebra.Order.Field.Power
import Mathlib.Algebra.Order.Ring.Rat
import Mathlib.Data.Rat.Floor
import Mathlib.Tactic.Ring

/-!
# Numbers and their decimal text

A number that a JSON text can stand for is a double: a rational number that is
its own nearest double (`IsDouble`), minus zero, or an infinity, for a numeral
that is too large. `Number::toString` writes the fewest digits from which a
finite number is read again, and `readNumber` reads a number of a JSON text.

* `value_numeral`: the layout that is chosen does not change the value.
* `readNumber_toString`: what is written is read again, with zero for minus zero.
-/
namespace RezSdk.L1

inductive Number
  | negZero
  | fin (q : ℚ)
  | inf (negative : Bool)
deriving DecidableEq

namespace Number

/-- Minus zero is zero. -/
def plain : Number → Number
  | .negZero => .fin 0
  | .fin q => .fin q
  | .inf negative => .inf negative

/-- `Number.isFinite(n)` -/
def isFinite : Number → Bool
  | .inf _ => false
  | _ => true

/-! ## Doubles -/

/-- `⌊log₂ v⌋` of a positive number -/
def log2 (v : ℚ) : ℤ :=
  let l : ℤ := (v.num.toNat.log2 : ℤ) - v.den.log2
  if (2 : ℚ) ^ l ≤ v then l else l - 1

/-- The nearest integer, ties to even. -/
def roundHalfEven (v : ℚ) : ℤ :=
  let n := ⌊v⌋
  if v - n < 1 / 2 then n else if 1 / 2 < v - n then n + 1 else if n % 2 = 0 then n else n + 1

/-- The double nearest to a number that is not negative, as long as there is a
finite one. -/
def nearest (v : ℚ) : ℚ :=
  if v = 0 then 0
  else
    let e := max (log2 v - 52) (-1074)
    roundHalfEven (v / 2 ^ e) * 2 ^ e

structure IsDouble (q : ℚ) : Prop where
  den : q.den ∣ 2 ^ 1074
  nearest : nearest |q| = |q|
  finite : |q| < 2 ^ 1024

instance (q : ℚ) : Decidable (IsDouble q) :=
  decidable_of_iff (q.den ∣ 2 ^ 1074 ∧ Number.nearest |q| = |q| ∧ |q| < 2 ^ 1024)
    ⟨fun h => ⟨h.1, h.2.1, h.2.2⟩, fun h => ⟨h.1, h.2, h.3⟩⟩

def WellFormed : Number → Prop
  | .negZero => True
  | .fin q => IsDouble q
  | .inf _ => True

/-! ## `Number::toString` -/

/-- The `n` with `10 ^ (n - 1) ≤ v < 10 ^ n`, for a positive number. -/
def log10 (v : ℚ) : ℤ :=
  let l : ℤ := ((Nat.toDigits 10 v.num.toNat).length : ℤ) - (Nat.toDigits 10 v.den).length
  if v < (10 : ℚ) ^ l then l else l + 1

/-- The decimal numbers `s * 10 ^ e` with `k` digits next to `v`, the closer one
first, the even one where they are equally close. -/
def candidates (v : ℚ) (k : Nat) : List (Nat × ℤ) :=
  let e := log10 v - k
  let t := v / 10 ^ e
  let s := ⌊t⌋.toNat
  if t - s < 1 / 2 ∨ (t - s = 1 / 2 ∧ s % 2 = 0) then [(s, e), (s + 1, e)] else [(s + 1, e), (s, e)]

/-- The shortest decimal number whose nearest double is `v`. Seventeen digits
are always enough. -/
def shortest (v : ℚ) : Nat × ℤ :=
  ((List.range 17).findSome? fun k => (candidates v (k + 1)).find? fun c =>
  nearest (c.1 * 10 ^ c.2) = v).getD
    ((v * 10 ^ 1074).num.toNat, -1074)

/-- Without zeros at the end. -/
def strip : Nat → Nat → ℤ → Nat × ℤ
  | 0, s, e => (s, e)
  | fuel + 1, s, e => if s % 10 = 0 then strip fuel (s / 10) (e + 1) else (s, e)

structure Numeral where
  whole : List Char
  fraction : List Char
  exponent : Option ℤ

/-- The layout of `s * 10 ^ e`. -/
def numeral (s : Nat) (e : ℤ) : Numeral :=
  let ds := Nat.toDigits 10 s
  let k : ℤ := ds.length
  let n := e + k
  if k ≤ n ∧ n ≤ 21 then ⟨ds ++ List.replicate (n - k).toNat '0', [], none⟩
  else if 0 < n ∧ n ≤ 21 then ⟨ds.take n.toNat, ds.drop n.toNat, none⟩
  else if -6 < n ∧ n ≤ 0 then ⟨['0'], List.replicate (-n).toNat '0' ++ ds, none⟩
  else ⟨ds.take 1, ds.drop 1, some (n - 1)⟩

def exponentText : Option ℤ → List Char
  | none => []
  | some e => 'e' :: (if e < 0 then '-' else '+') :: Nat.toDigits 10 e.natAbs

def fractionText : List Char → List Char
  | [] => []
  | ds => '.' :: ds

def Numeral.text (m : Numeral) : List Char :=
  m.whole ++ (fractionText m.fraction ++ exponentText m.exponent)

def positiveNumeral (v : ℚ) : Numeral :=
  let c := shortest v
  let c := strip c.1 c.1 c.2
  numeral c.1 c.2

def toString : Number → List Char
  | .negZero => ['0']
  | .fin q =>
    if q = 0 then ['0'] else if q < 0 then '-' :: (positiveNumeral (-q)).text
      else (positiveNumeral q).text
  | .inf negative => if negative then "-Infinity".toList else "Infinity".toList

/-! ## Reading -/

def Numeral.value (m : Numeral) : ℚ :=
  Nat.ofDigitChars 10 (m.whole ++ m.fraction) 0 * 10 ^ (m.exponent.getD 0 - m.fraction.length)

/-- At least one digit. -/
def readDigits (cs : List Char) : Option (List Char × List Char) :=
  match cs.takeWhile Char.isDigit with
  | [] => none
  | ds => some (ds, cs.dropWhile Char.isDigit)

/-- Nothing follows a zero. -/
def readWhole : List Char → Option (List Char × List Char)
  | '0' :: cs => some (['0'], cs)
  | cs => readDigits cs

def readFraction : List Char → Option (List Char × List Char)
  | '.' :: cs => readDigits cs
  | cs => some ([], cs)

def readSign : List Char → Bool × List Char
  | '-' :: cs => (true, cs)
  | '+' :: cs => (false, cs)
  | cs => (false, cs)

def readExponent : List Char → Option (Option ℤ × List Char)
  | 'e' :: cs | 'E' :: cs => (readDigits (readSign cs).2).map fun r =>
    let n : ℤ := Nat.ofDigitChars 10 r.1 0
    (some (if (readSign cs).1 then -n else n), r.2)
  | cs => some (none, cs)

def readNumeral (cs : List Char) : Option (Numeral × List Char) :=
  (readWhole cs).bind fun w => (readFraction w.2).bind fun f => (readExponent f.2).map fun e =>
  (⟨w.1, f.1, e.1⟩, e.2)

/-- The number that a numeral with this value is read as. -/
def ofDecimal (negative : Bool) (v : ℚ) : Number :=
  if 2 ^ 1024 ≤ nearest v then .inf negative
  else if negative then if nearest v = 0 then .negZero else .fin (-nearest v)
  else .fin (nearest v)

def readNumber : List Char → Option (Number × List Char)
  | '-' :: cs => (readNumeral cs).map fun m => (ofDecimal true m.1.value, m.2)
  | cs => (readNumeral cs).map fun m => (ofDecimal false m.1.value, m.2)

example :
    (toString (.fin (1 / 10)), toString (.fin 1700000000000), toString (.fin (-25 / 10 ^ 8))) =
      ("0.1".toList, "1700000000000".toList, "-2.5e-7".toList) := by
  decide +kernel

example : readNumber "-1e400".toList = some (.inf true, []) := by decide +kernel

/-! ## The layout keeps the value -/

section

variable {s : Nat} {e : ℤ}

theorem value_numeral : (numeral s e).value = s * 10 ^ e := by
  have hs : Nat.ofDigitChars 10 (Nat.toDigits 10 s) 0 = s :=
    Nat.ofDigitChars_toDigits (by decide) (by decide)
  have hlen : 0 < (Nat.toDigits 10 s).length := Nat.length_toDigits_pos
  unfold numeral
  dsimp only
  split
  · -- zeros behind the digits
    obtain ⟨m, rfl⟩ : ∃ m : Nat, e = m := ⟨e.toNat, by omega⟩
    rw [Numeral.value, List.append_nil, Nat.ofDigitChars_append, hs,
      Nat.ofDigitChars_replicate_zero, add_sub_cancel_right,
      Int.toNat_natCast, Option.getD_none, List.length_nil, Nat.cast_zero, sub_zero,
        zpow_zero, mul_one, zpow_natCast]
    push_cast
    ring
  split
  · -- a point between them
    rw [Numeral.value, List.take_append_drop, hs, Option.getD_none, List.length_drop]
    congr 2
    omega
  split
  · -- zeros in front of them
    rw [Numeral.value, List.singleton_append, Nat.ofDigitChars_cons, Nat.ofDigitChars_append,
      Nat.ofDigitChars_replicate_zero,
      Option.getD_none, List.length_append, List.length_replicate]
    have hzero : 10 ^ (-(e + (Nat.toDigits 10 s).length)).toNat *
        (10 * 0 + ('0'.toNat - '0'.toNat)) = 0 := by
      simp
    rw [hzero, hs]
    congr 2
    omega
  · -- an exponent
    rw [Numeral.value, List.take_append_drop, hs, Option.getD_some, List.length_drop]
    congr 2
    omega

end

/-! ## What is written is read again -/

/-- The text of a number ends here. -/
def Ends (r : List Char) : Prop := ∀ c ∈ r.head?, c.isDigit = false ∧ c ≠ '.' ∧ c ≠ 'e' ∧ c ≠ 'E'

structure Numeral.Canonical (m : Numeral) : Prop where
  whole : ∀ c ∈ m.whole, c.isDigit = true
  leading : m.whole = ['0'] ∨ ∃ c cs, m.whole = c :: cs ∧ c ≠ '0'
  fraction : ∀ c ∈ m.fraction, c.isDigit = true

theorem isDigit_toDigits {n : Nat} : ∀ c ∈ Nat.toDigits 10 n, c.isDigit = true :=
  fun _ hc => Nat.isDigit_of_mem_toDigits (by decide) (by decide) hc

theorem toDigits_leading {n : Nat} (h : 0 < n) : ∃ c cs, Nat.toDigits 10 n = c :: cs ∧ c ≠ '0' := by
  induction n using Nat.strongRecOn with
  | ind n ih =>
    by_cases hlt : n < 10
    · refine ⟨n.digitChar, [], Nat.toDigits_of_lt_base hlt, fun hzero => ?_⟩
      rw [Nat.digitChar_eq_zero] at hzero
      omega
    · obtain ⟨c, cs, hcs, hc⟩ := ih (n / 10) (by omega) (by omega)
      rw [Nat.toDigits_of_base_le (by decide) (by omega), hcs]
      exact ⟨c, _, rfl, hc⟩

theorem takeWhile_digits {ds r : List Char} (hds : ∀ c ∈ ds, c.isDigit = true)
    (hr : ∀ c ∈ r.head?, c.isDigit = false) :
    (ds ++ r).takeWhile Char.isDigit = ds ∧ (ds ++ r).dropWhile Char.isDigit = r := by
  induction ds with
  | nil =>
    cases r with
    | nil => exact ⟨rfl, rfl⟩
    | cons c r =>
      have hc := hr c rfl
      exact ⟨List.takeWhile_cons_of_neg (by rw [hc]; exact Bool.false_ne_true),
        List.dropWhile_cons_of_neg (by rw [hc]; exact Bool.false_ne_true)⟩
  | cons d ds ih =>
    obtain ⟨hd, hds⟩ := List.forall_mem_cons.mp hds
    rw [List.cons_append, List.takeWhile_cons_of_pos hd, List.dropWhile_cons_of_pos hd,
      (ih hds).1, (ih hds).2]
    exact ⟨rfl, rfl⟩

theorem readDigits_append {ds r : List Char} (hne : ds ≠ []) (hds : ∀ c ∈ ds, c.isDigit = true)
    (hr : ∀ c ∈ r.head?, c.isDigit = false) : readDigits (ds ++ r) = some (ds, r) := by
  rw [readDigits, (takeWhile_digits hds hr).1, (takeWhile_digits hds hr).2]
  cases ds with
  | nil => exact absurd rfl hne
  | cons d ds => rfl

theorem readExponent_text {r : List Char} (hr : Ends r) (e : Option ℤ) :
    readExponent (exponentText e ++ r) = some (e, r) := by
  cases e with
  | none =>
    cases r with
    | nil => rfl
    | cons c r =>
      obtain ⟨-, -, hc, hC⟩ := hr c rfl
      rw [exponentText, List.nil_append]
      unfold readExponent
      split
      · cases ‹c :: r = _›
        exact absurd rfl hc
      · cases ‹c :: r = _›
        exact absurd rfl hC
      · rfl
  | some e =>
    have hdigits : readDigits (Nat.toDigits 10 e.natAbs ++ r) = some (Nat.toDigits 10 e.natAbs,
        r) :=
      readDigits_append Nat.toDigits_ne_nil isDigit_toDigits fun c hc => (hr c hc).1
    have hvalue : (Nat.ofDigitChars 10 (Nat.toDigits 10 e.natAbs) 0 : ℤ) = e.natAbs := by
      rw [Nat.ofDigitChars_toDigits (by decide) (by decide)]
    rw [exponentText, List.cons_append, List.cons_append]
    by_cases hneg : e < 0
    · rw [if_pos hneg]
      simp only [readExponent, readSign, hdigits, Option.map_some, hvalue, if_true]
      congr 3
      omega
    · rw [if_neg hneg]
      simp only [readExponent, readSign, hdigits, Option.map_some, hvalue, Bool.false_eq_true,
        if_false]
      congr 3
      omega

/-- No digit and no point in front of the exponent. -/
theorem exponentText_head {r : List Char} (hr : Ends r) (e : Option ℤ) :
    ∀ c ∈ (exponentText e ++ r).head?, c.isDigit = false ∧ c ≠ '.' := by
  cases e with
  | none => exact fun c hc => ⟨(hr c hc).1, (hr c hc).2.1⟩
  | some e =>
    rintro _ ⟨⟩
    decide

theorem readFraction_text {r : List Char} {ds : List Char} (hds : ∀ c ∈ ds, c.isDigit = true)
    (hr : ∀ c ∈ r.head?, c.isDigit = false ∧ c ≠ '.') :
    readFraction (fractionText ds ++ r) = some (ds, r) := by
  cases ds with
  | nil =>
    rw [fractionText, List.nil_append]
    unfold readFraction
    split
    · exact absurd rfl (hr '.' rfl).2
    · rfl
  | cons d ds => exact readDigits_append (List.cons_ne_nil d ds) hds fun c hc => (hr c hc).1

theorem fractionText_head {r : List Char} (hr : ∀ c ∈ r.head?, c.isDigit = false ∧ c ≠ '.')
    (ds : List Char) : ∀ c ∈ (fractionText ds ++ r).head?, c.isDigit = false := by
  cases ds with
  | nil => exact fun c hc => (hr c hc).1
  | cons d ds =>
    rintro _ ⟨⟩
    decide

theorem readNumeral_text {m : Numeral} {r : List Char} (hm : m.Canonical) (hr : Ends r) :
    readNumeral (m.text ++ r) = some (m, r) := by
  have hexp := exponentText_head hr m.exponent
  have hfrac := readFraction_text hm.fraction hexp
  have hwhole : readWhole (m.text ++ r) = some (m.whole,
      fractionText m.fraction ++ (exponentText m.exponent ++ r)) := by
    rw [Numeral.text, List.append_assoc, List.append_assoc]
    obtain hzero | ⟨c, cs, hcs, hc⟩ := hm.leading
    · rw [hzero]
      rfl
    · have hdigits := readDigits_append (by rw [hcs]; exact List.cons_ne_nil c cs) hm.whole
          (fractionText_head hexp m.fraction)
      rw [hcs, List.cons_append] at hdigits ⊢
      unfold readWhole
      split
      · cases ‹c :: _ = _›
        exact absurd rfl hc
      · exact hdigits
  rw [readNumeral, hwhole, Option.bind_some, hfrac, Option.bind_some, readExponent_text hr,
    Option.map_some]

theorem numeral_canonical {s : Nat} (e : ℤ) (h : 0 < s) : (numeral s e).Canonical := by
  obtain ⟨c, cs, hcs, hc⟩ := toDigits_leading h
  have hzeros : ∀ n : Nat, ∀ c ∈ List.replicate n '0', c.isDigit = true := fun n c hmem => by
    rw [List.eq_of_mem_replicate hmem]
    rfl
  unfold numeral
  dsimp only
  split
  · exact ⟨List.forall_mem_append.mpr ⟨isDigit_toDigits, hzeros _⟩,
      .inr ⟨c, _, by rw [hcs]; rfl, hc⟩, List.forall_mem_nil _⟩
  split
  · refine ⟨fun c hmem => isDigit_toDigits c (List.mem_of_mem_take hmem), .inr ?_,
      fun c hmem => isDigit_toDigits c (List.mem_of_mem_drop hmem)⟩
    obtain ⟨n, hn⟩ : ∃ n, (e + (Nat.toDigits 10 s).length).toNat = n + 1 :=
      ⟨(e + (Nat.toDigits 10 s).length).toNat - 1, by omega⟩
    rw [hn, hcs]
    exact ⟨c, _, rfl, hc⟩
  split
  · exact ⟨List.forall_mem_singleton.mpr rfl, .inl rfl,
      List.forall_mem_append.mpr ⟨hzeros _, isDigit_toDigits⟩⟩
  · refine ⟨fun c hmem => isDigit_toDigits c (List.mem_of_mem_take hmem), .inr ?_,
      fun c hmem => isDigit_toDigits c (List.mem_of_mem_drop hmem)⟩
    rw [hcs]
    exact ⟨c, _, rfl, hc⟩

theorem strip_value {fuel s : Nat} {e : ℤ} :
    ((strip fuel s e).1 : ℚ) * 10 ^ (strip fuel s e).2 = s * 10 ^ e ∧
    (0 < s → 0 < (strip fuel s e).1) := by
  induction fuel generalizing s e with
  | zero => exact ⟨rfl, id⟩
  | succ fuel ih =>
    rw [strip]
    split
    · obtain ⟨n, rfl⟩ : ∃ n, s = n * 10 := ⟨s / 10, by omega⟩
      rw [Nat.mul_div_cancel n (by decide)]
      refine ⟨ih.1.trans ?_, fun h => ih.2 (by omega)⟩
      rw [zpow_add_one₀ (by norm_num)]
      push_cast
      ring
    · exact ⟨rfl, id⟩

theorem num_of_den_dvd {v : ℚ} {n : Nat} (hv : 0 < v) (h : v.den ∣ n) :
    ((v * n).num.toNat : ℚ) = v * n := by
  obtain ⟨c, rfl⟩ := h
  have hint : v * ((v.den * c : Nat) : ℚ) = ((v.num * c : ℤ) : ℚ) := by
    push_cast
    rw [← mul_assoc, Rat.mul_den_eq_num]
  have hnonneg : 0 ≤ v.num * (c : ℤ) := mul_nonneg (Rat.num_nonneg.mpr hv.le) (Int.natCast_nonneg c)
  rw [hint, Rat.num_intCast]
  exact_mod_cast Int.toNat_of_nonneg hnonneg

theorem num_exact {v : ℚ} (hv : 0 < v) (hden : v.den ∣ 2 ^ 1074) :
    ((v * 10 ^ 1074).num.toNat : ℚ) * 10 ^ (-1074 : ℤ) = v := by
  have hdvd : v.den ∣ 10 ^ 1074 := hden.trans (pow_dvd_pow_of_dvd (by decide) 1074)
  have hnum := num_of_den_dvd hv hdvd
  rw [Nat.cast_pow, Nat.cast_ofNat] at hnum
  rw [hnum, zpow_neg, mul_assoc]
  have hcancel : (10 : ℚ) ^ 1074 * ((10 : ℚ) ^ (1074 : ℤ))⁻¹ = 1 := by
    rw [← zpow_natCast]
    exact mul_inv_cancel₀ (zpow_ne_zero _ (by norm_num))
  rw [hcancel, mul_one]

theorem shortest_value {v : ℚ} (hv : 0 < v) (h : IsDouble v) :
    nearest ((shortest v).1 * 10 ^ (shortest v).2) = v ∧ 0 < (shortest v).1 := by
  have hvalue : nearest ((shortest v).1 * 10 ^ (shortest v).2) = v := by
    rw [shortest]
    cases hsearch : (List.range 17).findSome? fun k =>
        (candidates v (k + 1)).find? fun c => nearest (c.1 * 10 ^ c.2) = v with
    | none =>
      rw [Option.getD_none, num_exact hv h.den]
      exact abs_of_pos hv ▸ h.nearest
    | some c =>
      obtain ⟨k, -, hk⟩ := List.exists_of_findSome?_eq_some hsearch
      exact of_decide_eq_true
        (List.find?_some (p := fun c : Nat × ℤ => decide (nearest (c.1 * 10 ^ c.2) = v)) hk)
  refine ⟨hvalue, Nat.pos_of_ne_zero fun hzero => ?_⟩
  rw [hzero, Nat.cast_zero, zero_mul, nearest, if_pos rfl] at hvalue
  exact absurd hvalue hv.ne

theorem readNumeral_positive {v : ℚ} (hv : 0 < v) (h : IsDouble v) {r : List Char} (hr : Ends r) :
    readNumeral ((positiveNumeral v).text ++ r) = some (positiveNumeral v, r) ∧
    nearest (positiveNumeral v).value = v := by
  obtain ⟨hvalue, hpos⟩ := shortest_value hv h
  refine ⟨readNumeral_text (numeral_canonical _ (strip_value.2 hpos)) hr, ?_⟩
  rw [positiveNumeral, value_numeral, strip_value.1]
  exact hvalue

theorem text_head {v : ℚ} (hv : 0 < v) (h : IsDouble v) :
    ∃ c cs, (positiveNumeral v).text = c :: cs ∧ c.isDigit = true := by
  obtain ⟨-, hpos⟩ := shortest_value hv h
  have hc : (positiveNumeral v).Canonical := numeral_canonical _ (strip_value.2 hpos)
  obtain hzero | ⟨c, cs, hcs, -⟩ := hc.leading
  · exact ⟨'0', _, by rw [Numeral.text, hzero]; rfl, rfl⟩
  · exact ⟨c, _, by rw [Numeral.text, hcs]; rfl, hc.whole c (by rw [hcs]; exact .head _)⟩

theorem toString_head {n : Number} (h : n.WellFormed) (hfinite : n.isFinite = true) :
    ∃ c cs, toString n = c :: cs ∧ (c = '-' ∨ c.isDigit = true) := by
  cases n with
  | inf negative => exact absurd hfinite Bool.false_ne_true
  | negZero => exact ⟨'0', [], rfl, .inr rfl⟩
  | fin q =>
    rw [toString]
    split
    · exact ⟨'0', [], rfl, .inr rfl⟩
    split
    · exact ⟨'-', _, rfl, .inl rfl⟩
    · have hpos : 0 < q := lt_of_le_of_ne (not_lt.mp ‹¬q < 0›) (Ne.symm ‹¬q = 0›)
      obtain ⟨c, cs, hcs, hc⟩ := text_head hpos h
      exact ⟨c, cs, hcs, .inr hc⟩

theorem readNumber_eq {c : Char} {cs : List Char} (h : c ≠ '-') :
    readNumber (c :: cs) =
      (readNumeral (c :: cs)).map fun m => (ofDecimal false m.1.value, m.2) := by
  unfold readNumber
  split
  · cases ‹c :: cs = _›
    exact absurd rfl h
  · rfl

theorem isDouble_zero : IsDouble 0 :=
  ⟨one_dvd _, by rw [abs_zero, Number.nearest, if_pos rfl], by norm_num⟩

theorem isDouble_neg {v : ℚ} (h : IsDouble v) : IsDouble (-v) := by
  refine ⟨?_, ?_, ?_⟩
  · rw [Rat.den_neg_eq_den]
    exact h.den
  · rw [abs_neg]
    exact h.nearest
  · rw [abs_neg]
    exact h.finite

/-- A finite number that is written is read again, and minus zero is read as
zero. -/
theorem readNumber_toString {n : Number} (hn : n.WellFormed) (hfinite : n.isFinite = true)
    {r : List Char} (hr : Ends r) : readNumber (toString n ++ r) = some (n.plain, r) := by
  have hzero : readNumber (['0'] ++ r) = some (.fin 0, r) := by
    have hm := readNumeral_text (m := ⟨['0'], [], none⟩)
      ⟨List.forall_mem_singleton.mpr rfl, .inl rfl, List.forall_mem_nil _⟩ hr
    have hv : Numeral.value ⟨['0'], [], none⟩ = 0 := by simp [Numeral.value, Nat.ofDigitChars]
    rw [List.singleton_append, readNumber_eq (by decide)]
    refine (congrArg (Option.map _) hm).trans ?_
    rw [Option.map_some, hv, ofDecimal, nearest, if_pos rfl, if_neg (by norm_num)]
    rfl
  cases n with
  | inf negative => exact absurd hfinite Bool.false_ne_true
  | negZero => exact hzero
  | fin q =>
    have hq : IsDouble q := hn
    rw [toString, plain]
    split
    · rw [‹q = 0›]
      exact hzero
    split
    · have hpos : 0 < -q := neg_pos.mpr ‹q < 0›
      obtain ⟨hread, hvalue⟩ := readNumeral_positive hpos (isDouble_neg hq) hr
      have hlt : ¬2 ^ 1024 ≤ -q := not_le.mpr ((neg_le_abs q).trans_lt hq.finite)
      rw [List.cons_append, readNumber, hread, Option.map_some, ofDecimal, hvalue,
        if_neg hlt, if_pos rfl,
        if_neg hpos.ne', neg_neg]
    · have hpos : 0 < q := lt_of_le_of_ne (not_lt.mp ‹¬q < 0›) (Ne.symm ‹¬q = 0›)
      obtain ⟨hread, hvalue⟩ := readNumeral_positive hpos hq hr
      obtain ⟨c, cs, hcs, hc⟩ := text_head hpos hq
      have heq : readNumber ((positiveNumeral q).text ++ r) =
          (readNumeral ((positiveNumeral q).text ++ r)).map fun m =>
          (ofDecimal false m.1.value, m.2) := by
        rw [hcs, List.cons_append]
        refine readNumber_eq fun h => ?_
        rw [h] at hc
        cases hc
      rw [heq, hread, Option.map_some, ofDecimal, hvalue,
        if_neg (not_le.mpr ((le_abs_self q).trans_lt hq.finite))]
      rfl

end Number
end RezSdk.L1
