import Mathlib.Data.List.TakeWhile
import Mathlib.Data.Nat.Digits.Lemmas
import RbiProxy.JsonParse
import RbiProxy.JsonText

/-!
# Decoding into Go values

What `json.Unmarshal` needs to put a value into a Go one: the members of an
object are matched with the fields of a struct by name, or by name up to case;
`null` leaves a field alone, and a value of another type is an error that is
reported at the end, with the other members still decoded. Numbers become
`int64` if they are integers within its range; into an `interface{}` they become
`float64`, and the decoder reports those that overflow.
-/

namespace RbiProxy

namespace Json

/-! ## Numbers -/

def decimal (s : GoString) : Nat := s.foldl (fun n b => 10 * n + (b.toNat - 48)) 0

def unsigned (text : GoString) : GoString := if text.head? = some 45 then text.drop 1 else text

/-- `strconv.ParseInt(text, 10, 64)` on a number of JSON. -/
def parseInt64 (text : GoString) : Option Int :=
  let s := unsigned text
  if s = [] ∨ s.all isDigit = false then none
  else
    let n : Int := if text.head? = some 45 then -(decimal s) else decimal s
    if -2 ^ 63 ≤ n ∧ n < 2 ^ 63 then some n else none

/-- `strconv.Atoi`, which takes a plus sign too. -/
def atoi (s : GoString) : Option Int :=
  if s.head? = some 43 then
    if (s.drop 1).head? = some 45 then none else parseInt64 (s.drop 1)
  else parseInt64 s

def exponent (s : GoString) : Int :=
  if s.head? = some 45 then -(decimal (s.drop 1))
  else if s.head? = some 43 then decimal (s.drop 1)
  else decimal s

/-- The least number that `float64` has no value for: half way between the
greatest one and the power of two behind it. -/
def float64Limit : Nat := 2 ^ 1024 - 2 ^ 970

/-- `strconv.ParseFloat(text, 64)` is not out of range. -/
def inFloat64 (text : GoString) : Bool :=
  let s := unsigned text
  let int := s.takeWhile isDigit
  let s := s.drop int.length
  let frac := if s.head? = some 46 then (s.drop 1).takeWhile isDigit else []
  let s := if s.head? = some 46 then s.drop (1 + frac.length) else s
  let exp := if s = [] then 0 else exponent (s.drop 1)
  let m := decimal (int ++ frac)
  let e := exp - frac.length
  if 0 ≤ e then decide (m * 10 ^ e.toNat < float64Limit)
  else decide (m < float64Limit * 10 ^ (-e).toNat)

theorem digitChar_toNat_sub {d : Nat} (h : d < 10) : (digitChar d).toNat - 48 = d := by
  rw [toNat_digitChar h]
  omega

theorem isDigit_digitChar {d : Nat} (h : d < 10) : isDigit (digitChar d) = true := by
  have hall : ∀ d : Fin 10, isDigit (digitChar d) = true := by decide
  exact hall ⟨d, h⟩

theorem decimal_itoa (n : Nat) : decimal (itoa n) = n := by
  unfold itoa
  split
  · rename_i h
    rw [h]
    rfl
  · have hdigits : ∀ l : List Nat, (∀ d ∈ l, d < 10) →
        decimal ((l.map digitChar).reverse) = Nat.ofDigits 10 l := by
      intro l hl
      rw [decimal, List.foldl_reverse]
      induction l with
      | nil => rfl
      | cons d l ih =>
          obtain ⟨hd, hrest⟩ := List.forall_mem_cons.mp hl
          rw [List.map_cons, List.foldr_cons, ih hrest, digitChar_toNat_sub hd, Nat.ofDigits_cons]
          exact Nat.add_comm _ _
    rw [hdigits _ fun d hd => Nat.digits_lt_base (by omega) hd, Nat.ofDigits_digits]

theorem isDigit_of_mem_itoa {n : Nat} {b : UInt8} (h : b ∈ itoa n) : isDigit b = true := by
  obtain ⟨d, hd, rfl⟩ := exists_digit_of_mem_itoa h
  exact isDigit_digitChar hd

theorem itoa_ne_nil (n : Nat) : itoa n ≠ [] := by
  unfold itoa
  split
  · exact List.cons_ne_nil _ _
  · rename_i h
    simpa using Nat.digits_ne_nil_iff_ne_zero.mpr h

theorem unsigned_formatInt (n : Int) :
    unsigned (formatInt n) = itoa n.natAbs
      ∧ ((formatInt n).head? = some 45 ↔ n < 0) := by
  have hhead : (itoa n.natAbs).head? ≠ some 45 := fun h =>
    hyphen_notMem_itoa n.natAbs (List.mem_of_mem_head? h)
  unfold unsigned formatInt
  split
  · rename_i hneg
    simp [hneg]
  · rename_i hneg
    simp [hneg, hhead]

theorem parseInt64_formatInt {n : Int} (hlow : -2 ^ 63 ≤ n) (hhigh : n < 2 ^ 63) :
    parseInt64 (formatInt n) = some n := by
  obtain ⟨hdigits, hsign⟩ := unsigned_formatInt n
  have hall : (itoa n.natAbs).all isDigit = true :=
    List.all_eq_true.mpr fun b hb => isDigit_of_mem_itoa hb
  have hval : (if (formatInt n).head? = some 45 then -((decimal (itoa n.natAbs) : Nat) : Int)
      else (decimal (itoa n.natAbs) : Nat)) = n := by
    rw [decimal_itoa]
    by_cases hneg : n < 0
    · rw [if_pos (hsign.mpr hneg)]
      omega
    · rw [if_neg (mt hsign.mp hneg)]
      omega
  unfold parseInt64
  dsimp only
  rw [hdigits, if_neg (by simp [itoa_ne_nil, hall]), hval, if_pos ⟨hlow, hhigh⟩]

theorem atoi_formatInt {n : Int} (hlow : -2 ^ 63 ≤ n) (hhigh : n < 2 ^ 63) :
    atoi (formatInt n) = some n := by
  have hplus : (formatInt n).head? ≠ some 43 := by
    intro h
    have hmem := List.mem_of_mem_head? h
    unfold formatInt at hmem
    have hdigit : isDigit 43 = false := by decide
    split at hmem
    · obtain hminus | hmem := List.mem_cons.mp hmem
      · cases hminus
      · rw [isDigit_of_mem_itoa hmem] at hdigit
        cases hdigit
    · rw [isDigit_of_mem_itoa hmem] at hdigit
      cases hdigit
  rw [atoi, if_neg hplus, parseInt64_formatInt hlow hhigh]

theorem inFloat64_formatInt {n : Int} (h : n.natAbs < 2 ^ 64) : inFloat64 (formatInt n) = true := by
  obtain ⟨hdigits, -⟩ := unsigned_formatInt n
  have hall : (itoa n.natAbs).takeWhile isDigit = itoa n.natAbs :=
    List.takeWhile_eq_self_iff.mpr fun b hb => isDigit_of_mem_itoa hb
  have hlimit : 2 ^ 64 ≤ float64Limit := by
    unfold float64Limit
    decide +kernel
  unfold inFloat64
  dsimp only
  rw [hdigits, hall, List.drop_length]
  simp only [List.head?_nil, reduceCtorEq, if_false, if_true, List.append_nil, decimal_itoa,
    List.length_nil, Nat.cast_zero, sub_zero, le_refl, Int.toNat_zero, pow_zero, mul_one,
    decide_eq_true_eq]
  omega

theorem feeds_digits {ds : GoString} (h : ∀ b ∈ ds, isDigit b = true) (text : GoString) :
    Feeds (.number .int text) ds [] (.number .int (text ++ ds)) := by
  induction ds generalizing text with
  | nil =>
      rw [List.append_nil]
      exact feeds_nil _
  | cons d ds ih =>
      obtain ⟨hd, hrest⟩ := List.forall_mem_cons.mp h
      have hnext := ih hrest (text ++ [d])
      rw [List.append_assoc] at hnext
      refine feeds_cons_iff.mpr ⟨[], _, [], ?_, hnext, rfl⟩
      rw [LexState.next, NumState.next, if_pos hd]

theorem itoa_cons {n : Nat} (hn : n ≠ 0) :
    ∃ d ds, itoa n = digitChar d :: ds ∧ d ≠ 0 ∧ d < 10 ∧ ∀ b ∈ ds, isDigit b = true := by
  have hne : Nat.digits 10 n ≠ [] := Nat.digits_ne_nil_iff_ne_zero.mpr hn
  have hlast := Nat.getLast_digit_ne_zero 10 hn
  have hsplit := List.dropLast_append_getLast hne
  refine ⟨(Nat.digits 10 n).getLast hne, ((Nat.digits 10 n).dropLast.map digitChar).reverse, ?_,
    hlast, Nat.digits_lt_base (by omega) (List.getLast_mem hne), fun b hb => ?_⟩
  · rw [itoa, if_neg hn]
    conv => lhs; rw [← hsplit]
    simp
  · obtain ⟨d, hd, rfl⟩ := List.mem_map.mp (List.mem_reverse.mp hb)
    exact isDigit_digitChar (Nat.digits_lt_base (by omega) (List.mem_of_mem_dropLast hd))

/-- The states a number without point and exponent ends in. -/
def NumState.Integral (st : NumState) : Prop := st = .zero ∨ st = .int

theorem feeds_itoa (n : Nat) :
    (∃ st, NumState.Integral st ∧ Feeds .start (itoa n) [] (.number st (itoa n)))
      ∧ ∃ st, NumState.Integral st
        ∧ Feeds (.number .neg [45]) (itoa n) [] (.number st (45 :: itoa n)) := by
  by_cases hn : n = 0
  · subst hn
    exact ⟨⟨.zero, .inl rfl, rfl⟩, .zero, .inl rfl, rfl⟩
  · obtain ⟨d, ds, hitoa, hd, hlt, hds⟩ := itoa_cons hn
    have hall : ∀ d : Fin 10, d.1 ≠ 0 →
        startNext (digitChar d) = some ([], .number .int [digitChar d])
        ∧ NumState.neg.next (digitChar d) = some .int := by decide
    obtain ⟨hstart, hneg⟩ := hall ⟨d, hlt⟩ hd
    rw [hitoa]
    refine ⟨⟨.int, .inr rfl, ?_⟩, .int, .inr rfl, ?_⟩
    · exact feeds_cons_iff.mpr ⟨[], _, [], hstart, feeds_digits hds [digitChar d], rfl⟩
    · refine feeds_cons_iff.mpr ⟨[], _, [], ?_, feeds_digits hds ([45] ++ [digitChar d]), rfl⟩
      rw [LexState.next, hneg]

theorem feeds_formatInt (n : Int) :
    ∃ st, NumState.Integral st ∧ Feeds .start (formatInt n) [] (.number st (formatInt n)) := by
  unfold formatInt
  split
  · obtain ⟨-, st, hst, hfeed⟩ := feeds_itoa n.natAbs
    exact ⟨st, hst, feeds_cons_iff.mpr ⟨[], _, [], rfl, hfeed, rfl⟩⟩
  · exact (feeds_itoa n.natAbs).1

/-! ## Names -/

/-- The least rune that is equal to a rune up to case, as far as the names of
fields, which are ASCII, can tell: the long s and the Kelvin sign are letters
too. -/
def foldRune (r : Rune) : Rune :=
  if 97 ≤ r ∧ r ≤ 122 then r - 32 else if r = 0x17F then 83 else if r = 0x212A then 75 else r

def foldName (s : GoString) : List Rune := (runes s).map foldRune

/-- The field of a struct that a key stands for: the one of that name, or else
one of that name up to case. -/
def fieldOf (names : List GoString) (key : GoString) : Option GoString :=
  if names.contains key then some key
  else names.find? fun name => foldName name == foldName key

/-! ## Fields -/

/-- A member for a field of type `string`: the new text, and whether the type is
right. -/
def decodeString (old : GoString) : Value → GoString × Bool
  | .string raw => (unquote raw, true)
  | .null => (old, true)
  | _ => (old, false)

def decodeInt64 (old : Int) : Value → Int × Bool
  | .number text =>
    match parseInt64 text with
    | some n => (n, true)
    | none => (old, false)
  | .null => (old, true)
  | _ => (old, false)

def decodeBool (old : Bool) : Value → Bool × Bool
  | .bool b => (b, true)
  | .null => (old, true)
  | _ => (old, false)

/-- `strconv.ParseUint(text, 10, 64)` on a number of JSON. -/
def parseUint64 (text : GoString) : Option Nat :=
  if text = [] ∨ text.all isDigit = false then none
  else if decimal text < 2 ^ 64 then some (decimal text) else none

/-- Whether a member fits a field of type `uint64`. -/
def fitsUint64 : Value → Bool
  | .number text => (parseUint64 text).isSome
  | .null => true
  | _ => false

/-! ## Structs and slices -/

section Composite

variable {T : Type}

/-- The members of an object one after the other. `set` puts a member into its
field and says whether its type is right; a key that stands for no field is an
error only after `DisallowUnknownFields`. -/
def decodeFields (names : List GoString) (disallowUnknown : Bool)
    (set : T → GoString → Value → T × Bool) (p : T × Bool) (members : List (GoString × Value)) :
    T × Bool :=
  members.foldl (fun p m =>
    match fieldOf names (unquote m.1) with
    | some name => ((set p.1 name m.2).1, p.2 && (set p.1 name m.2).2)
    | none => (p.1, p.2 && !disallowUnknown)) p

/-- A property of a struct that every one of the members keeps. -/
theorem decodeFields_keeps {names : List GoString} {disallowUnknown : Bool}
    {set : T → GoString → Value → T × Bool} {P : T → Prop} {members : List (GoString × Value)}
    (hset : ∀ m ∈ members, ∀ t name, P t → P (set t name m.2).1) {p : T × Bool} (h : P p.1) :
    P (decodeFields names disallowUnknown set p members).1 := by
  induction members generalizing p with
  | nil => exact h
  | cons m members ih =>
      obtain ⟨hfirst, hrest⟩ := List.forall_mem_cons.mp hset
      rw [decodeFields, List.foldl_cons]
      refine ih hrest ?_
      split
      · exact hfirst _ _ h
      · exact h

/-- A value into a struct: what it holds then, and whether there was no error. -/
def decodeStruct (names : List GoString) (disallowUnknown : Bool)
    (set : T → GoString → Value → T × Bool) (old : T) : Value → T × Bool
  | .object members => decodeFields names disallowUnknown set (old, true) members
  | .null => (old, true)
  | _ => (old, false)

/-- A value into a slice, `none` for `nil`. An error in one element does not keep
the others out. -/
def decodeSlice (elem : Value → T × Bool) (old : Option (List T)) :
    Value → Option (List T) × Bool
  | .array values => (some (values.map fun v => (elem v).1), values.all fun v => (elem v).2)
  | .null => (none, true)
  | _ => (old, false)

/-- `json.Unmarshal`: a text that is no JSON leaves the target alone. -/
def unmarshal (decode : Value → T × Bool) (old : T) (text : GoString) : T × Bool :=
  match (lex text).bind parse with
  | some v => decode v
  | none => (old, false)

end Composite

end Json

end RbiProxy
