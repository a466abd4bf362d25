import Mathlib.Data.List.Lex
import Mathlib.Data.List.Sort
import RezSdk.Core.OrderedMap
import RezSdk.L1Records.Decimals

/-!
# JSON texts

`JSON.stringify` and `JSON.parse` on JSON values. A string is a sequence of
UTF-16 code units, of which surrogates may stand alone; a number is a double.
An object has its properties in the order of their creation, and lists array
indices first. A numeral that is too large for a double is read as an infinity,
and an infinity is written as `null`.

* `parse_stringify`: what is written is read again, with its properties in the
  order in which they were listed, zero for minus zero and `null` for an
  infinity.
-/
namespace RezSdk.L1.JsonText

/-- Code units. -/
abbrev Str := List UInt16

inductive Value
  | null
  | bool (b : Bool)
  | num (n : Number)
  | str (s : Str)
  | arr (xs : List Value)
  | obj (fields : List (Str × Value))

inductive WellFormed : Value → Prop
  | null : WellFormed .null
  | bool (b : Bool) : WellFormed (.bool b)
  | num {n : Number} : n.WellFormed → WellFormed (.num n)
  | str (s : Str) : WellFormed (.str s)
  | arr {xs : List Value} : (∀ x ∈ xs, WellFormed x) → WellFormed (.arr xs)
  | obj {fields : List (Str × Value)} :
    (fields.map Prod.fst).Nodup → (∀ f ∈ fields, WellFormed f.2) → WellFormed (.obj fields)

/-! ## The order of properties -/

def isDigit (u : UInt16) : Bool := 48 ≤ u.toNat && u.toNat ≤ 57

def indexOf (key : Str) : Nat := key.foldl (fun n u => 10 * n + (u.toNat - 48)) 0

/-- An array index: the canonical decimal text of a number below `2 ^ 32 - 1`. -/
def isIndex (key : Str) : Bool :=
  key.all isDigit && (key = [48] || key.head?.any fun u => u ≠ 48) && indexOf key < 2 ^ 32 - 1

section

variable {β : Type}

/-- The order in which the properties of an object are listed. -/
def propertyOrder (fields : List (Str × β)) : List (Str × β) :=
  (fields.filter fun f => isIndex f.1).mergeSort (fun f g => indexOf f.1 ≤ indexOf g.1) ++
  fields.filter fun f => !isIndex f.1

end

/-! ## Strings -/

/-- A character, or a surrogate that stands alone. -/
inductive CodePoint
  | char (c : Char)
  | lone (u : UInt16)

def isLead (u : UInt16) : Bool := 0xD800 ≤ u.toNat && u.toNat < 0xDC00

def isTrail (u : UInt16) : Bool := 0xDC00 ≤ u.toNat && u.toNat < 0xE000

/-- The character of a pair of surrogates. -/
def pairChar (lead trail : UInt16) : Char :=
  Char.ofNat (0x10000 + (lead.toNat - 0xD800) * 0x400 + (trail.toNat - 0xDC00))

def codePoint (u : UInt16) : CodePoint :=
  if isLead u || isTrail u then .lone u else .char (Char.ofNat u.toNat)

def codePoints : Str → List CodePoint
  | [] => []
  | [u] => [codePoint u]
  | u :: v :: s =>
    if isLead u && isTrail v then .char (pairChar u v) :: codePoints s
      else codePoint u :: codePoints (v :: s)

def utf16 (c : Char) : Str :=
  if c.toNat < 0x10000 then [.ofNat c.toNat]
  else [.ofNat (0xD800 + (c.toNat - 0x10000) / 0x400),
    .ofNat (0xDC00 + (c.toNat - 0x10000) % 0x400)]

def CodePoint.units : CodePoint → Str
  | .char c => utf16 c
  | .lone u => [u]

def quoteMark : Char := Char.ofNat 34

def backslash : Char := Char.ofNat 92

def unicodeEscape (n : Nat) : List Char :=
  [backslash, 'u', Nat.digitChar (n / 0x1000), Nat.digitChar (n / 0x100 % 16),
  Nat.digitChar (n / 16 % 16), Nat.digitChar (n % 16)]

/-- The characters after a backslash, and what they stand for. -/
def escapes : List (Char × Char) :=
  [('b', Char.ofNat 8), ('t', Char.ofNat 9), ('n', Char.ofNat 10), ('f', Char.ofNat 12),
  ('r', Char.ofNat 13),
    (quoteMark, quoteMark), (backslash, backslash)]

def quoteCodePoint : CodePoint → List Char
  | .lone u => unicodeEscape u.toNat
  | .char c => match escapes.find? fun e => e.2 = c with
    | some e => [backslash, e.1]
    | none => if c.toNat < 32 then unicodeEscape c.toNat else [c]

def quote (s : Str) : List Char :=
  quoteMark :: ((codePoints s).flatMap quoteCodePoint ++ [quoteMark])

/-! ## Writing -/

mutual

/-- `JSON.stringify(value)` -/
def stringify : Value → List Char
  | .null => ['n', 'u', 'l', 'l']
  | .bool true => ['t', 'r', 'u', 'e']
  | .bool false => ['f', 'a', 'l', 's', 'e']
  | .num n => if n.isFinite then n.toString else ['n', 'u', 'l', 'l']
  | .str s => quote s
  | .arr xs => '[' :: ([','].intercalate (stringifyItems xs) ++ [']'])
  | .obj fields =>
    '{' :: ([','].intercalate ((propertyOrder (stringifyFields fields)).map fun f =>
      quote f.1 ++ ':' :: f.2) ++ ['}'])

def stringifyItems : List Value → List (List Char)
  | [] => []
  | x :: xs => stringify x :: stringifyItems xs

def stringifyFields : List (Str × Value) → List (Str × List Char)
  | [] => []
  | (k, v) :: fields => (k, stringify v) :: stringifyFields fields

end

/-! ## Reading -/

def isSpace (c : Char) : Bool := c = ' ' || c.toNat = 9 || c.toNat = 10 || c.toNat = 13

def skipSpace (cs : List Char) : List Char := cs.dropWhile isSpace

def readHex (c : Char) : Option Nat :=
  if c.isDigit then some (c.toNat - 48)
  else if 97 ≤ c.toNat && c.toNat ≤ 102 then some (c.toNat - 87)
  else if 65 ≤ c.toNat && c.toNat ≤ 70 then some (c.toNat - 55)
  else none

def readUnit (a b c d : Char) : Option UInt16 :=
  (readHex a).bind fun a => (readHex b).bind fun b => (readHex c).bind fun c =>
  (readHex d).map fun d =>
    .ofNat (((a * 16 + b) * 16 + c) * 16 + d)

/-- What a backslash and this character stand for. -/
def unescape (c : Char) : Option Char :=
  if c = '/' then some c else (escapes.find? fun e => e.1 = c).map Prod.snd

/-- The rest of a string. -/
def readString : List Char → Option (Str × List Char)
  | [] => none
  | c :: cs =>
    if c = quoteMark then some ([], cs)
    else if c = backslash then
      match cs with
      | [] => none
      | x :: cs =>
        if x = 'u' then
          match cs with
          | a :: b :: c :: d :: cs =>
            (readUnit a b c d).bind fun u => (readString cs).map fun r => (u :: r.1, r.2)
          | _ => none
        else (unescape x).bind fun c => (readString cs).map fun r => (utf16 c ++ r.1, r.2)
    else if c.toNat < 32 then none
    else (readString cs).map fun r => (utf16 c ++ r.1, r.2)

def readWord (word : List Char) (v : Value) (cs : List Char) : Option (Value × List Char) :=
  if word.isPrefixOf cs then some (v, cs.drop word.length) else none

/-- A property that exists keeps its place. -/
def object (fields : List (Str × Value)) : Value :=
  .obj (fields.foldl (fun o f => OMap.set f.1 f.2 o) [])

mutual

def readValue : Nat → List Char → Option (Value × List Char)
  | 0, _ => none
  | fuel + 1, cs =>
    match skipSpace cs with
    | [] => none
    | c :: cs =>
      if c = quoteMark then (readString cs).map fun r => (.str r.1, r.2)
      else if c = '[' then
        if (skipSpace cs).head? = some ']' then some (.arr [], (skipSpace cs).tail)
        else (readItems fuel cs).map fun r => (.arr r.1, r.2)
      else if c = '{' then
        if (skipSpace cs).head? = some '}' then some (.obj [], (skipSpace cs).tail)
        else (readFields fuel cs).map fun r => (object r.1, r.2)
      else if c = 'n' then readWord ['u', 'l', 'l'] .null cs
      else if c = 't' then readWord ['r', 'u', 'e'] (.bool true) cs
      else if c = 'f' then readWord ['a', 'l', 's', 'e'] (.bool false) cs
      else (Number.readNumber (c :: cs)).map fun r => (.num r.1, r.2)

def readItems : Nat → List Char → Option (List Value × List Char)
  | 0, _ => none
  | fuel + 1, cs =>
    (readValue fuel cs).bind fun v =>
      match skipSpace v.2 with
      | [] => none
      | c :: cs =>
        if c = ',' then (readItems fuel cs).map fun r => (v.1 :: r.1, r.2)
        else if c = ']' then some ([v.1], cs) else none

def readFields : Nat → List Char → Option (List (Str × Value) × List Char)
  | 0, _ => none
  | fuel + 1, cs =>
    match skipSpace cs with
    | [] => none
    | c :: cs =>
      if c ≠ quoteMark then none
      else (readString cs).bind fun k =>
        match skipSpace k.2 with
        | [] => none
        | c :: cs =>
          if c ≠ ':' then none
          else (readValue fuel cs).bind fun v =>
            match skipSpace v.2 with
            | [] => none
            | c :: cs =>
              if c = ',' then (readFields fuel cs).map fun r => ((k.1, v.1) :: r.1, r.2)
              else if c = '}' then some ([(k.1, v.1)], cs) else none

end

/-- `JSON.parse(text)`; it throws on what is not a JSON text. -/
def parse (cs : List Char) : Option Value :=
  match readValue (cs.length + 1) cs with
  | some (v, rest) => if skipSpace rest = [] then some v else none
  | none => none

/-! ## Listing the properties -/

section

variable {β γ : Type} {fields : List (Str × β)}

theorem perm_propertyOrder : (propertyOrder fields).Perm fields :=
  ((List.mergeSort_perm _ _).append_right _).trans
  (List.filter_append_perm (fun f => isIndex f.1) fields)

theorem propertyOrder_map (g : β → γ) (fields : List (Str × β)) :
    propertyOrder (fields.map fun f => (f.1, g f.2)) =
      (propertyOrder fields).map fun f => (f.1, g f.2) := by
  unfold propertyOrder
  rw [List.map_append, List.filter_map, List.filter_map]
  congr 1
  exact (List.map_mergeSort (f := fun f : Str × β => (f.1, g f.2)) fun a _ b _ => rfl).symm

theorem index_le_trans (a b c : Str × β) (hab : decide (indexOf a.1 ≤ indexOf b.1) = true)
    (hbc : decide (indexOf b.1 ≤ indexOf c.1) = true) : decide (indexOf a.1 ≤ indexOf c.1) = true :=
  decide_eq_true ((of_decide_eq_true hab).trans (of_decide_eq_true hbc))

theorem index_le_total (a b : Str × β) :
    (decide (indexOf a.1 ≤ indexOf b.1) || decide (indexOf b.1 ≤ indexOf a.1)) = true := by
  rw [Bool.or_eq_true, decide_eq_true_iff, decide_eq_true_iff]
  exact le_total _ _

/-- The order in which properties are listed is kept by an object made from
them. -/
theorem propertyOrder_self : propertyOrder (propertyOrder fields) = propertyOrder fields := by
  unfold propertyOrder
  generalize hsorted :
    (fields.filter fun f => isIndex f.1).mergeSort (fun f g => indexOf f.1 ≤ indexOf g.1) = sorted
  have hindex : ∀ f ∈ sorted, isIndex f.1 = true := fun f hf => by
    rw [← hsorted, List.mem_mergeSort] at hf
    exact (List.mem_filter.mp hf).2
  have hself : sorted.mergeSort (fun f g => indexOf f.1 ≤ indexOf g.1) = sorted := by
    rw [← hsorted]
    exact List.mergeSort_of_pairwise (List.pairwise_mergeSort index_le_trans index_le_total _)
  have hnone : sorted.filter (fun f => !isIndex f.1) = [] :=
    List.filter_eq_nil_iff.mpr fun f hf => by simp [hindex f hf]
  have hnames : (fields.filter fun f => !isIndex f.1).filter (fun f => isIndex f.1) = [] :=
    List.filter_eq_nil_iff.mpr fun f hf => by simpa using (List.mem_filter.mp hf).2
  rw [List.filter_append, List.filter_append, List.filter_eq_self.mpr hindex,
    hnone, hnames, List.append_nil, hself,
    List.nil_append, List.filter_filter]
  simp only [Bool.and_self]

end

/-! ## Strings are read again -/

theorem toNat_ofNat {n : Nat} (h : n.isValidChar) : (Char.ofNat n).toNat = n := by
  rw [Char.ofNat, dif_pos h]
  rfl

theorem utf16_codePoint {u : UInt16} (h : ¬(isLead u || isTrail u) = true) :
    utf16 (Char.ofNat u.toNat) = [u] := by
  have hlt := u.toNat_lt
  have hvalid : u.toNat.isValidChar := by
    simp only [isLead, isTrail, Bool.or_eq_true, Bool.and_eq_true, decide_eq_true_eq] at h
    unfold Nat.isValidChar
    omega
  have hnat : (Char.ofNat u.toNat).toNat = u.toNat := toNat_ofNat hvalid
  rw [utf16, hnat, if_pos hlt, UInt16.ofNat_toNat]

theorem utf16_pairChar {u v : UInt16} (h : (isLead u && isTrail v) = true) :
    utf16 (pairChar u v) = [u, v] := by
  simp only [isLead, isTrail, Bool.and_eq_true, decide_eq_true_eq] at h
  have hnat : (pairChar u v).toNat = 0x10000 + (u.toNat - 0xD800) * 0x400 + (v.toNat - 0xDC00) := by
    refine toNat_ofNat ?_
    unfold Nat.isValidChar
    omega
  rw [utf16, hnat, if_neg (by omega)]
  have hu : 0xD800 + (0x10000 + (u.toNat - 0xD800) * 0x400 + (v.toNat - 0xDC00) - 0x10000) /
      0x400 = u.toNat := by
    omega
  have hv : 0xDC00 + (0x10000 + (u.toNat - 0xD800) * 0x400 + (v.toNat - 0xDC00) - 0x10000) % 0x400 =
      v.toNat := by
    omega
  rw [hu, hv, UInt16.ofNat_toNat, UInt16.ofNat_toNat]

theorem units_codePoint (u : UInt16) : (codePoint u).units = [u] := by
  unfold codePoint
  split
  · rfl
  · exact utf16_codePoint ‹_›

theorem flatMap_codePoints (s : Str) : (codePoints s).flatMap CodePoint.units = s := by
  induction s using codePoints.induct with
  | case1 => rfl
  | case2 u =>
    rw [codePoints, List.flatMap_cons, units_codePoint]
    rfl
  | case3 u v s h ih =>
    rw [codePoints, if_pos h, List.flatMap_cons, CodePoint.units, utf16_pairChar h, ih]
    rfl
  | case4 u v s h ih =>
    rw [codePoints, if_neg h, List.flatMap_cons, units_codePoint, ih]
    rfl

theorem readHex_digitChar {n : Nat} (h : n < 16) : readHex n.digitChar = some n := by
  have hall : ∀ n : Fin 16, readHex n.val.digitChar = some n.val := by decide
  exact hall ⟨n, h⟩

theorem readString_unicodeEscape {n : Nat} (h : n < 65536) (cs : List Char) :
    readString (unicodeEscape n ++ cs) = (readString cs).map fun r => (.ofNat n :: r.1, r.2) := by
  have hunit : readUnit (n / 0x1000).digitChar (n / 0x100 % 16).digitChar (n / 16 % 16).digitChar
      (n % 16).digitChar =
      some (.ofNat n) := by
    have hn : ((n / 0x1000 * 16 + n / 0x100 % 16) * 16 + n / 16 % 16) * 16 + n % 16 = n := by omega
    rw [readUnit, readHex_digitChar (by omega), readHex_digitChar (by omega),
      readHex_digitChar (by omega),
      readHex_digitChar (by omega), Option.bind_some, Option.bind_some, Option.bind_some,
        Option.map_some, hn]
  simp only [unicodeEscape, List.cons_append, List.nil_append]
  rw [readString, if_neg (by decide), if_pos rfl]
  simp only [if_true, hunit, Option.bind_some]

theorem unescape_escapes : ∀ e ∈ escapes, e.1 ≠ 'u' ∧ unescape e.1 = some e.2 := by decide

theorem readString_codePoint (p : CodePoint) (cs : List Char) :
    readString (quoteCodePoint p ++ cs) = (readString cs).map fun r => (p.units ++ r.1, r.2) := by
  cases p with
  | lone u =>
    rw [quoteCodePoint, readString_unicodeEscape u.toNat_lt, UInt16.ofNat_toNat]
    rfl
  | char c =>
    rw [quoteCodePoint]
    cases hfind : escapes.find? fun e => e.2 = c with
    | some e =>
      obtain ⟨hu, hunescape⟩ := unescape_escapes e (List.mem_of_find?_eq_some hfind)
      have hc : e.2 = c := by simpa using List.find?_some hfind
      dsimp only
      rw [List.cons_append, List.cons_append, readString.eq_def]
      dsimp only
      rw [if_neg (by decide), if_pos rfl, if_neg hu, hunescape, Option.bind_some, hc]
      rfl
    | none =>
      have hne : ∀ e ∈ escapes, e.2 ≠ c :=
        fun e he => of_decide_eq_false (by simpa using List.find?_eq_none.mp hfind e he)
      dsimp only
      split
      · rename_i hlt
        rw [readString_unicodeEscape (by omega)]
        have hunits : CodePoint.units (.char c) = [.ofNat c.toNat] := by
          rw [CodePoint.units, utf16, if_pos (by omega)]
        rw [hunits]
        rfl
      · rename_i hlt
        rw [List.singleton_append, readString.eq_def]
        dsimp only
        rw [if_neg fun h => hne (quoteMark, quoteMark) (by decide) h.symm,
          if_neg fun h => hne (backslash, backslash) (by decide) h.symm, if_neg hlt]
        rfl

theorem readString_codePoints (ps : List CodePoint) (r : List Char) :
    readString (ps.flatMap quoteCodePoint ++ quoteMark :: r) =
      some (ps.flatMap CodePoint.units, r) := by
  induction ps with
  | nil =>
    rw [List.flatMap_nil, List.nil_append, readString.eq_def]
    rfl
  | cons p ps ih =>
    rw [List.flatMap_cons, List.append_assoc, readString_codePoint, ih, List.flatMap_cons,
      Option.map_some]

/-- The rest of a quoted string is read as the string. -/
theorem readString_quote (s : Str) (r : List Char) :
    readString ((codePoints s).flatMap quoteCodePoint ++ quoteMark :: r) = some (s, r) := by
  rw [readString_codePoints, flatMap_codePoints]

/-! ## Values are read again -/

mutual

/-- Properties in the order in which they are listed, zero for minus zero, and
`null` for an infinity. -/
def arranged : Value → Value
  | .num n => if n.isFinite then .num n.plain else .null
  | .arr xs => .arr (arrangedItems xs)
  | .obj fields => .obj (propertyOrder (arrangedFields fields))
  | v => v

def arrangedItems : List Value → List Value
  | [] => []
  | x :: xs => arranged x :: arrangedItems xs

def arrangedFields : List (Str × Value) → List (Str × Value)
  | [] => []
  | (k, v) :: fields => (k, arranged v) :: arrangedFields fields

end

theorem arrangedItems_eq (xs : List Value) : arrangedItems xs = xs.map arranged := by
  induction xs with
  | nil => rfl
  | cons x xs ih => rw [arrangedItems, ih, List.map_cons]

theorem arrangedFields_eq (fields : List (Str × Value)) :
    arrangedFields fields = fields.map fun f => (f.1, arranged f.2) := by
  induction fields with
  | nil => rfl
  | cons f fields ih => rw [arrangedFields, ih, List.map_cons]

theorem stringifyItems_eq (xs : List Value) : stringifyItems xs = xs.map stringify := by
  induction xs with
  | nil => rfl
  | cons x xs ih => rw [stringifyItems, ih, List.map_cons]

theorem stringifyFields_eq (fields : List (Str × Value)) :
    stringifyFields fields = fields.map fun f => (f.1, stringify f.2) := by
  induction fields with
  | nil => rfl
  | cons f fields ih => rw [stringifyFields, ih, List.map_cons]

def fieldText (f : Str × Value) : List Char := quote f.1 ++ ':' :: stringify f.2

theorem stringify_arr (xs : List Value) :
    stringify (.arr xs) = '[' :: ([','].intercalate (xs.map stringify) ++ [']']) := by
  rw [stringify, stringifyItems_eq]

theorem stringify_obj (fields : List (Str × Value)) :
    stringify (.obj fields) =
      '{' :: ([','].intercalate ((propertyOrder fields).map fieldText) ++ ['}']) := by
  rw [stringify, stringifyFields_eq, propertyOrder_map, List.map_map]
  rfl

theorem arranged_arr (xs : List Value) : arranged (.arr xs) = .arr (xs.map arranged) := by
  rw [arranged, arrangedItems_eq]

theorem arranged_obj (fields : List (Str × Value)) :
    arranged (.obj fields) = .obj ((propertyOrder fields).map fun f => (f.1, arranged f.2)) := by
  rw [arranged, arrangedFields_eq, propertyOrder_map]

theorem intercalate_cons (x y : List Char) (ys : List (List Char)) :
    [','].intercalate (x :: y :: ys) = x ++ ',' :: [','].intercalate (y :: ys) := by
  simp [List.intercalate]

/-- A value ends here. -/
def Stops (r : List Char) : Prop := ∀ c ∈ r.head?, c = ',' ∨ c = ']' ∨ c = '}'

theorem Stops.ends {r : List Char} (h : Stops r) : Number.Ends r := by
  intro c hc
  obtain rfl | rfl | rfl := h c hc <;> decide

theorem skipSpace_cons {c : Char} {cs : List Char} (h : isSpace c = false) :
    skipSpace (c :: cs) = c :: cs :=
  List.dropWhile_cons_of_neg (by rw [h]; exact Bool.false_ne_true)

/-- A number begins as nothing else does. -/
theorem number_head {c : Char} (h : c = '-' ∨ c.isDigit = true) :
    isSpace c = false ∧ ∀ d ∈ [quoteMark, '[', ']', '{', 'n', 't', 'f'], c ≠ d := by
  have hall : ∀ d ∈ [quoteMark, '[', ']', '{', 'n', 't', 'f'], d ≠ '-' ∧ d.isDigit = false := by
    intro d hd
    simp only [List.mem_cons, List.not_mem_nil, or_false] at hd
    obtain rfl | rfl | rfl | rfl | rfl | rfl | rfl := hd <;> decide
  rcases h with rfl | h
  · exact ⟨rfl, fun d hd => (hall d hd).1.symm⟩
  · have hnat : 48 ≤ c.toNat := by
      simp only [Char.isDigit, Bool.and_eq_true, decide_eq_true_eq] at h
      exact h.1
    refine ⟨?_, fun d hd heq => ?_⟩
    · have hblank : c ≠ ' ' := by
        rintro rfl
        cases h
      simp only [isSpace, Bool.or_eq_false_iff, decide_eq_false_iff_not]
      exact ⟨⟨⟨hblank, by omega⟩, by omega⟩, by omega⟩
    · rw [heq, (hall d hd).2] at h
      cases h

/-- How the text of a value begins. -/
theorem stringify_head {z : Value} (h : WellFormed z) :
    ∃ c cs, stringify z = c :: cs ∧ isSpace c = false ∧ c ≠ ']' := by
  cases h with
  | null => exact ⟨'n', _, rfl, by decide⟩
  | bool b =>
    cases b
    · exact ⟨'f', _, rfl, by decide⟩
    · exact ⟨'t', _, rfl, by decide⟩
  | @num n hn =>
    rw [stringify]
    by_cases hfinite : n.isFinite = true
    · obtain ⟨c, cs, hcs, hc⟩ := Number.toString_head hn hfinite
      obtain ⟨hspace, hne⟩ := number_head hc
      rw [if_pos hfinite]
      exact ⟨c, cs, hcs, hspace, hne ']' (by decide)⟩
    · rw [if_neg hfinite]
      exact ⟨'n', _, rfl, by decide⟩
  | str s => exact ⟨quoteMark, _, rfl, by decide⟩
  | arr hxs => exact ⟨'[', _, rfl, by decide⟩
  | obj hkeys hfields => exact ⟨'{', _, rfl, by decide⟩

/-- The text of `x` is read as `x`. -/
def Reads (x : Value) : Prop := ∀ fuel r, (stringify x).length < fuel → Stops r →
  readValue fuel (stringify x ++ r) = some (arranged x, r)

theorem readItems_text {x : Value} {xs : List Value} (h : ∀ y ∈ x :: xs, Reads y) (r : List Char) :
    ∀ fuel, ([','].intercalate ((x :: xs).map stringify)).length + 1 < fuel →
      readItems fuel ([','].intercalate ((x :: xs).map stringify) ++ ']' :: r) =
        some ((x :: xs).map arranged, r) := by
  induction xs generalizing x with
  | nil =>
    intro fuel hfuel
    obtain ⟨fuel, rfl⟩ := Nat.exists_eq_add_one_of_ne_zero (Nat.ne_zero_of_lt hfuel)
    have htext : [','].intercalate ([x].map stringify) = stringify x := by simp [List.intercalate]
    rw [htext] at hfuel ⊢
    rw [readItems, h x (.head _) fuel _ (by omega) (by intro c hc; cases hc; exact .inr (.inl rfl)),
      Option.bind_some,
      skipSpace_cons (by decide)]
    rfl
  | cons y ys ih =>
    intro fuel hfuel
    obtain ⟨fuel, rfl⟩ := Nat.exists_eq_add_one_of_ne_zero (Nat.ne_zero_of_lt hfuel)
    rw [List.map_cons, List.map_cons, intercalate_cons] at hfuel ⊢
    rw [List.length_append, List.length_cons] at hfuel
    rw [List.append_assoc, List.cons_append, readItems,
      h x (.head _) fuel _ (by omega) (by intro c hc; cases hc; exact .inl rfl),
        Option.bind_some, skipSpace_cons (by decide)]
    dsimp only
    rw [if_pos rfl, ← List.map_cons,
      ih (fun z hz => h z (.tail _ hz)) fuel (by rw [List.map_cons]; omega)]
    rfl

theorem readFields_text {f : Str × Value} {fields : List (Str × Value)}
    (h : ∀ g ∈ f :: fields, Reads g.2) (r : List Char) :
    ∀ fuel, ([','].intercalate ((f :: fields).map fieldText)).length + 1 < fuel →
    readFields fuel ([','].intercalate ((f :: fields).map fieldText) ++ '}' :: r) =
    some ((f :: fields).map fun g => (g.1, arranged g.2), r) := by
  -- one property: its key, a colon, and a value that a comma or the brace ends
  have hone : ∀ (g : Str × Value) (c : Char) (rest : List Char), Reads g.2 → c = ',' ∨ c = '}' →
      ∀ fuel, (fieldText g).length < fuel + 1 → readFields (fuel + 1) (fieldText g ++ c :: rest) =
        if c = ',' then (readFields fuel rest).map fun r => ((g.1, arranged g.2) :: r.1, r.2)
        else if c = '}' then some ([(g.1, arranged g.2)], rest) else none := by
    intro g c rest hg hc fuel hfuel
    have hstops : Stops (c :: rest) := by
      intro d hd
      cases hd
      rcases hc with rfl | rfl
      · exact .inl rfl
      · exact .inr (.inr rfl)
    have hspace : isSpace c = false := by rcases hc with rfl | rfl <;> decide
    have hlen : (stringify g.2).length < fuel := by
      simp only [fieldText, quote, List.cons_append, List.length_cons, List.length_append] at hfuel
      omega
    have htext : fieldText g ++ c :: rest =
        quoteMark :: ((codePoints g.1).flatMap quoteCodePoint ++ quoteMark ::
          ':' :: (stringify g.2 ++ c :: rest)) := by
      simp [fieldText, quote]
    rw [htext, readFields, skipSpace_cons (by decide)]
    dsimp only
    rw [if_neg (not_not.mpr rfl), readString_quote, Option.bind_some, skipSpace_cons (by decide)]
    dsimp only
    rw [if_neg (not_not.mpr rfl), hg fuel _ hlen hstops, Option.bind_some, skipSpace_cons hspace]
  induction fields generalizing f with
  | nil =>
    intro fuel hfuel
    obtain ⟨fuel, rfl⟩ := Nat.exists_eq_add_one_of_ne_zero (Nat.ne_zero_of_lt hfuel)
    have htext : [','].intercalate ([f].map fieldText) = fieldText f := by simp [List.intercalate]
    rw [htext] at hfuel ⊢
    rw [hone f '}' r (h f (.head _)) (.inr rfl) fuel (by omega), if_neg (by decide), if_pos rfl]
    rfl
  | cons g fields ih =>
    intro fuel hfuel
    obtain ⟨fuel, rfl⟩ := Nat.exists_eq_add_one_of_ne_zero (Nat.ne_zero_of_lt hfuel)
    rw [List.map_cons, List.map_cons, intercalate_cons] at hfuel ⊢
    rw [List.length_append, List.length_cons] at hfuel
    rw [List.append_assoc, List.cons_append,
      hone f ',' _ (h f (.head _)) (.inl rfl) fuel (by omega), if_pos rfl,
      ← List.map_cons, ih (fun z hz => h z (.tail _ hz)) fuel (by rw [List.map_cons]; omega)]
    rfl

/-- The properties of an object are kept as they are read. -/
theorem object_eq {fields : List (Str × Value)} (h : (fields.map Prod.fst).Nodup) :
    object fields = .obj fields := by
  have hgo : ∀ (done : List (Str × Value)) (rest : List (Str × Value)),
      ((done ++ rest).map Prod.fst).Nodup →
      rest.foldl (fun o f => OMap.set f.1 f.2 o) done = done ++ rest := by
    intro done rest hnodup
    induction rest generalizing done with
    | nil => exact (List.append_nil done).symm
    | cons f rest ih =>
      have hnew : OMap.get f.1 done = none := by
        rw [OMap.get_eq_none]
        rw [List.map_append, List.map_cons, List.nodup_append] at hnodup
        exact fun hmem => hnodup.2.2 _ hmem _ (.head _) rfl
      rw [List.foldl_cons, OMap.set_new hnew, ih _ (by rwa [List.append_assoc]), List.append_assoc]
      rfl
  rw [object, hgo [] fields h, List.nil_append]

theorem nodup_propertyOrder {β : Type} {fields : List (Str × β)} (h : (fields.map Prod.fst).Nodup) :
    ((propertyOrder fields).map Prod.fst).Nodup :=
  (perm_propertyOrder.map Prod.fst).nodup_iff.mpr h

theorem reads {z : Value} (h : WellFormed z) : Reads z := by
  induction h with
  | null =>
    intro fuel r hfuel hr
    obtain ⟨fuel, rfl⟩ := Nat.exists_eq_add_one_of_ne_zero (Nat.ne_zero_of_lt hfuel)
    rw [readValue]
    rfl
  | bool b =>
    intro fuel r hfuel hr
    obtain ⟨fuel, rfl⟩ := Nat.exists_eq_add_one_of_ne_zero (Nat.ne_zero_of_lt hfuel)
    rw [readValue]
    cases b <;> rfl
  | @num n hn =>
    intro fuel r hfuel hr
    obtain ⟨fuel, rfl⟩ := Nat.exists_eq_add_one_of_ne_zero (Nat.ne_zero_of_lt hfuel)
    rw [stringify, arranged, readValue]
    by_cases hfinite : n.isFinite = true
    swap
    · rw [if_neg hfinite, if_neg hfinite]
      rfl
    rw [if_pos hfinite, if_pos hfinite]
    obtain ⟨c, cs, hcs, hc⟩ := Number.toString_head hn hfinite
    obtain ⟨hspace, hne⟩ := number_head hc
    have hread := Number.readNumber_toString hn hfinite hr.ends
    rw [hcs, List.cons_append] at hread ⊢
    rw [skipSpace_cons hspace]
    dsimp only
    rw [if_neg (hne quoteMark (by decide)), if_neg (hne '[' (by decide)),
      if_neg (hne '{' (by decide)),
      if_neg (hne 'n' (by decide)), if_neg (hne 't' (by decide)), if_neg (hne 'f' (by decide)),
        hread]
    rfl
  | str s =>
    intro fuel r hfuel hr
    obtain ⟨fuel, rfl⟩ := Nat.exists_eq_add_one_of_ne_zero (Nat.ne_zero_of_lt hfuel)
    have htext : stringify (.str s) ++ r = quoteMark ::
        ((codePoints s).flatMap quoteCodePoint ++ quoteMark :: r) := by
      simp [stringify, quote]
    rw [htext, readValue, skipSpace_cons (by decide)]
    dsimp only
    rw [if_pos rfl, readString_quote]
    rfl
  | @arr xs hxs ih =>
    intro fuel r hfuel hr
    obtain ⟨fuel, rfl⟩ := Nat.exists_eq_add_one_of_ne_zero (Nat.ne_zero_of_lt hfuel)
    rw [stringify_arr] at hfuel ⊢
    rw [arranged_arr, List.cons_append, readValue, skipSpace_cons (by decide)]
    dsimp only
    rw [if_neg (by decide), if_pos rfl, List.append_assoc, List.singleton_append]
    cases xs with
    | nil => rfl
    | cons x xs =>
      obtain ⟨c, cs, hcs, hspace, hne⟩ := stringify_head (hxs x (.head _))
      have hhead : (skipSpace ([','].intercalate ((x :: xs).map stringify) ++ ']' :: r)).head? ≠
          some ']' := by
        have hcons : ∃ rest, [','].intercalate ((x :: xs).map stringify) = c :: rest := by
          cases xs with
          | nil => exact ⟨cs, by simp [List.intercalate, hcs]⟩
          | cons y ys => exact ⟨_, by rw [List.map_cons, List.map_cons, intercalate_cons, hcs]; rfl⟩
        obtain ⟨rest, hrest⟩ := hcons
        rw [hrest, List.cons_append, skipSpace_cons hspace]
        exact fun heq => hne (Option.some.inj heq)
      rw [if_neg hhead, readItems_text ih r fuel (by
        simp only [List.length_cons, List.length_append, List.length_nil] at hfuel
        omega)]
      rfl
  | @obj fields hkeys hfields ih =>
    intro fuel r hfuel hr
    obtain ⟨fuel, rfl⟩ := Nat.exists_eq_add_one_of_ne_zero (Nat.ne_zero_of_lt hfuel)
    have hread : ∀ f ∈ propertyOrder fields, Reads f.2 :=
      fun f hf => ih f (perm_propertyOrder.mem_iff.mp hf)
    have hnodup :
        (((propertyOrder fields).map fun f => (f.1, arranged f.2)).map Prod.fst).Nodup := by
      rw [List.map_map]
      exact nodup_propertyOrder hkeys
    rw [stringify_obj] at hfuel ⊢
    rw [arranged_obj, List.cons_append, readValue, skipSpace_cons (by decide)]
    dsimp only
    rw [if_neg (by decide), if_neg (by decide), if_pos rfl, List.append_assoc,
      List.singleton_append]
    generalize propertyOrder fields = ordered at hread hnodup hfuel ⊢
    cases ordered with
    | nil => rfl
    | cons f rest =>
      have hhead : (skipSpace ([','].intercalate ((f :: rest).map fieldText) ++ '}' :: r)).head? ≠
          some '}' := by
        have hcons :
            ∃ rest', [','].intercalate ((f :: rest).map fieldText) = quoteMark :: rest' := by
          cases rest with
          | nil => exact ⟨_, by simp [List.intercalate, fieldText, quote]; rfl⟩
          | cons g gs => exact ⟨_, by rw [List.map_cons, List.map_cons, intercalate_cons]; rfl⟩
        obtain ⟨rest', hrest⟩ := hcons
        rw [hrest, List.cons_append, skipSpace_cons (by decide)]
        exact fun heq => absurd (Option.some.inj heq) (by decide)
      rw [if_neg hhead, readFields_text hread r fuel (by
        simp only [List.length_cons, List.length_append, List.length_nil] at hfuel
        omega), Option.map_some, object_eq hnodup]

/-- A value that is written is read again. -/
theorem parse_stringify {z : Value} (h : WellFormed z) :
    parse (stringify z) = some (arranged z) := by
  have hread := reads h ((stringify z).length + 1) [] (Nat.lt_succ_self _) (fun c hc => by cases hc)
  rw [List.append_nil] at hread
  rw [parse, hread]
  rfl

theorem stringify_num (n : Number) : stringify (arranged (.num n)) = stringify (.num n) := by
  cases n with
  | negZero => rfl
  | fin q => rfl
  | inf negative => rfl

mutual

/-- The text does not tell a value from the one that is read. -/
theorem stringify_arranged (z : Value) : stringify (arranged z) = stringify z := by
  cases z with
  | null => rfl
  | bool b => rfl
  | num n => exact stringify_num n
  | str s => rfl
  | arr xs => rw [arranged, stringify, stringify, stringifyItems_arranged]
  | obj fields =>
    rw [arranged, stringify, stringify, stringifyFields_eq, propertyOrder_map,
      propertyOrder_self, ← propertyOrder_map,
      ← stringifyFields_eq, stringifyFields_arranged]

theorem stringifyItems_arranged (xs : List Value) :
    stringifyItems (arrangedItems xs) = stringifyItems xs := by
  cases xs with
  | nil => rfl
  | cons x xs =>
    rw [arrangedItems, stringifyItems, stringifyItems, stringify_arranged, stringifyItems_arranged]

theorem stringifyFields_arranged (fields : List (Str × Value)) :
    stringifyFields (arrangedFields fields) = stringifyFields fields := by
  cases fields with
  | nil => rfl
  | cons f fields =>
    obtain ⟨k, v⟩ := f
    rw [arrangedFields, stringifyFields, stringifyFields, stringify_arranged,
      stringifyFields_arranged]

end

/-- Two values have one text if and only if they are read as one value. -/
theorem stringify_inj {x y : Value} (hx : WellFormed x) (hy : WellFormed y) :
    stringify x = stringify y ↔ arranged x = arranged y := by
  refine ⟨fun h => ?_, fun h => ?_⟩
  · have hread := parse_stringify hx
    rw [h, parse_stringify hy, Option.some.injEq] at hread
    exact hread.symm
  · rw [← stringify_arranged x, h, stringify_arranged]

end RezSdk.L1.JsonText
