import Mathlib.Data.List.Basic
import Mathlib.Data.Nat.Digits.Defs
import Mathlib.Data.UInt

/-!
# Go strings

A Go `string` is a sequence of bytes, not necessarily valid UTF-8, and the
`strings` package works on those bytes. This file gives the operations
that the modelled code calls, under the package's names, over `List UInt8`:
prefixes and suffixes, searching, the cut at the last occurrence of a byte,
decimal numbers, `strings.TrimSpace` and `strings.ToLower`.

`toLower` follows `strings.Map(unicode.ToLower, s)`: the string is decoded
rune by rune, every byte that starts no well-formed sequence becomes
U+FFFD, and the mapped runes are encoded again. The ASCII part of
`unicode.ToLower` is written out; the table of the other code points is a
parameter, so that a result about `toLower` holds for every version of it.

Splitting at a byte is `List.splitOn`; `splitOn_suffix_iff` relates it to
the suffix tests that domain comparisons are usually written with.
-/

namespace RbiProxy

/-- The bytes of a Go string (or of a Go byte slice). -/
abbrev GoString := List UInt8

/-- The bytes of a string literal of the source. -/
def lit (s : String) : GoString := s.toByteArray.data.toList

/-- A property of bytes is one of 256 numbers. -/
theorem forall_byte {P : UInt8 → Prop} (h : ∀ n : Fin 256, P (UInt8.ofNat n)) (b : UInt8) : P b := by
  have hb := h ⟨b.toNat, b.toNat_lt⟩
  rwa [UInt8.ofNat_toNat] at hb

/-- A property of the bytes of a given string, as a check. -/
theorem forall_mem_of_all {P : UInt8 → Prop} [DecidablePred P] {s : GoString}
    (h : s.all (fun b => decide (P b)) = true) : ∀ b ∈ s, P b :=
  fun b hb => of_decide_eq_true (List.all_eq_true.mp h b hb)

theorem ascii_of_all {s : GoString} (h : s.all (· < 0x80) = true) : ∀ b ∈ s, b < 0x80 :=
  forall_mem_of_all h

/-! ## Prefixes, suffixes and cuts -/

def hasPrefix (s p : GoString) : Bool := p.isPrefixOf s

def hasSuffix (s p : GoString) : Bool := p.isSuffixOf s

theorem hasPrefix_iff {s p : GoString} : hasPrefix s p = true ↔ p <+: s :=
  List.isPrefixOf_iff_prefix

theorem hasSuffix_iff {s p : GoString} : hasSuffix s p = true ↔ p <:+ s :=
  List.isSuffixOf_iff_suffix

def trimPrefix (s p : GoString) : GoString :=
  if hasPrefix s p then s.drop p.length else s

def trimSuffix (s p : GoString) : GoString :=
  if hasSuffix s p then s.take (s.length - p.length) else s

@[simp] theorem trimPrefix_append (p s : GoString) : trimPrefix (p ++ s) p = s := by
  simp [trimPrefix, hasPrefix]

def lastIndexByte (s : GoString) (c : UInt8) : Option Nat :=
  match s.reverse.idxOf? c with
  | some j => some (s.length - 1 - j)
  | none => none

/-- `if i := strings.LastIndex(s, c); i >= 0 { s = s[:i] }`. -/
def cutLast (s : GoString) (c : UInt8) : GoString :=
  match lastIndexByte s c with
  | some i => s.take i
  | none => s

theorem cutLast_append {x y : GoString} {c : UInt8} (hy : c ∉ y) :
    cutLast (x ++ c :: y) c = x := by
  have hidx : (x ++ c :: y).reverse.idxOf? c = some y.length := by
    have hnone : y.reverse.findIdx? (· == c) = none := by
      rw [List.findIdx?_eq_none_iff]
      intro b hb
      exact beq_false_of_ne fun hbc => hy (hbc ▸ List.mem_reverse.mp hb)
    rw [List.reverse_append, List.reverse_cons, List.append_assoc, List.idxOf?,
      List.findIdx?_append, hnone]
    simp [List.findIdx?_cons]
  rw [cutLast, lastIndexByte, hidx]
  have hlen : (x ++ c :: y).length - 1 - y.length = x.length := by
    simp only [List.length_append, List.length_cons]
    omega
  simp only [hlen, List.take_left]

theorem cutLast_of_notMem {s : GoString} {c : UInt8} (h : c ∉ s) : cutLast s c = s := by
  have hidx : s.reverse.idxOf? c = none := by
    rw [List.idxOf?_eq_none_iff]
    simpa using h
  rw [cutLast, lastIndexByte, hidx]

theorem exists_last_of_mem {s : GoString} {c : UInt8} (h : c ∈ s) :
    ∃ x y, s = x ++ c :: y ∧ c ∉ y := by
  obtain ⟨y, x, hrev, hy⟩ := List.eq_append_cons_of_mem (List.mem_reverse.mpr h)
  refine ⟨x.reverse, y.reverse, ?_, by simpa using hy⟩
  rw [← List.reverse_reverse s, hrev]
  simp

theorem cutLast_subset {s : GoString} {c b : UInt8} (h : b ∈ cutLast s c) : b ∈ s := by
  unfold cutLast at h
  split at h
  · exact List.mem_of_mem_take h
  · exact h

/-- The cut goes through a map that moves nothing onto or off the byte. -/
theorem cutLast_map {f : UInt8 → UInt8} {c : UInt8} (hf : ∀ b, f b = c ↔ b = c) (s : GoString) :
    cutLast (s.map f) c = (cutLast s c).map f := by
  have hmem : ∀ t : GoString, c ∈ t.map f ↔ c ∈ t := fun t => by
    simp only [List.mem_map, hf, exists_eq_right]
  by_cases hc : c ∈ s
  · obtain ⟨x, y, rfl, hy⟩ := exists_last_of_mem hc
    rw [cutLast_append hy, List.map_append, List.map_cons, (hf c).mpr rfl,
      cutLast_append (mt (hmem y).mp hy)]
  · rw [cutLast_of_notMem hc, cutLast_of_notMem (mt (hmem s).mp hc)]

/-- `strings.Index`, `none` for `-1`. -/
def index (s sub : GoString) : Option Nat := s.tails.findIdx? sub.isPrefixOf

def contains (s sub : GoString) : Bool := (index s sub).isSome

theorem contains_iff {s sub : GoString} : contains s sub = true ↔ sub <:+: s := by
  rw [contains, index, List.findIdx?_isSome, List.any_eq_true, List.infix_iff_prefix_suffix]
  simp only [List.mem_tails, List.isPrefixOf_iff_prefix]
  constructor
  · rintro ⟨t, hs, hp⟩
    exact ⟨t, hp, hs⟩
  · rintro ⟨t, hp, hs⟩
    exact ⟨t, hs, hp⟩

/-- A substring is found behind a part in which its first byte does not
occur. -/
theorem index_append {c : UInt8} {s : GoString} (h : c ∉ s) (sub t : GoString) :
    index (s ++ (c :: sub) ++ t) (c :: sub) = some s.length := by
  induction s with
  | nil => simp [index, List.tails, List.findIdx?_cons]
  | cons b s ih =>
      simp only [List.mem_cons, not_or] at h
      have hrest := ih h.2
      have hno : (c :: sub).isPrefixOf (b :: (s ++ (c :: sub) ++ t)) = false := by
        rw [List.isPrefixOf, beq_false_of_ne h.1, Bool.false_and]
      rw [index] at hrest ⊢
      rw [List.cons_append, List.cons_append, List.tails_cons, List.findIdx?_cons, hno, hrest]
      rfl

theorem index_of_notMem {c : UInt8} {s : GoString} (h : c ∉ s) (t : GoString) :
    index (s ++ c :: t) [c] = some s.length := by
  simpa using index_append h [] t

/-- The loop of `removeAll`, with the number of bytes of a substring that are
still to be skipped. -/
def removeLoop (old : GoString) : Nat → GoString → GoString
  | _, [] => []
  | k + 1, _ :: s => removeLoop old k s
  | 0, b :: s =>
    if old.isPrefixOf (b :: s) then removeLoop old (old.length - 1) s
    else b :: removeLoop old 0 s

/-- `strings.Replace(s, old, "", -1)`, for a substring that is not empty. -/
def removeAll (s old : GoString) : GoString := removeLoop old 0 s

theorem removeAll_byte (s : GoString) (c : UInt8) : removeAll s [c] = s.filter (· != c) := by
  unfold removeAll
  induction s with
  | nil => rfl
  | cons b s ih =>
      by_cases h : b = c
      · simp [removeLoop, h, ih]
      · simp [removeLoop, h, Ne.symm h, ih]

/-- `strings.IndexAny` for a set of ASCII characters, `none` for `-1`. -/
def indexAny (s chars : GoString) : Option Nat := s.findIdx? fun b => chars.contains b

/-- `if i := strings.IndexAny(s, chars); i >= 0 { s = s[:i] }`. -/
def cutAny (s chars : GoString) : GoString :=
  match indexAny s chars with
  | some i => s.take i
  | none => s

/-- The cut falls right behind a part without any of the characters. -/
theorem cutAny_append {s t chars : GoString} (hs : ∀ b ∈ s, b ∉ chars)
    (ht : ∀ b, t.head? = some b → b ∈ chars) : cutAny (s ++ t) chars = s := by
  have hnone : s.findIdx? (fun b => chars.contains b) = none := by
    rw [List.findIdx?_eq_none_iff]
    intro b hb
    simpa using hs b hb
  rw [cutAny, indexAny, List.findIdx?_append, hnone]
  cases t with
  | nil => simp
  | cons b t =>
      have hb : chars.contains b = true := by simpa using ht b rfl
      simp only [List.findIdx?_cons, hb, if_true, Option.map_some, Option.none_or, Nat.zero_add,
        List.take_left]

/-! ## Decimal numbers -/

def digitChar (d : Nat) : UInt8 := UInt8.ofNat (48 + d)

/-- `strconv.Itoa` of a number that is not negative. -/
def itoa (n : Nat) : GoString :=
  if n = 0 then [digitChar 0] else ((Nat.digits 10 n).map digitChar).reverse

/-- `strconv.FormatInt(n, 10)`. -/
def formatInt (n : Int) : GoString :=
  if n < 0 then 45 :: itoa n.natAbs else itoa n.natAbs

theorem toNat_digitChar {d : Nat} (h : d < 10) : (digitChar d).toNat = 48 + d := by
  rw [digitChar, UInt8.toNat_ofNat']
  omega

/-- Every byte of a decimal number is a digit. -/
theorem exists_digit_of_mem_itoa {n : Nat} {c : UInt8} (h : c ∈ itoa n) :
    ∃ d < 10, c = digitChar d := by
  unfold itoa at h
  split at h
  · exact ⟨0, by omega, List.mem_singleton.mp h⟩
  · obtain ⟨d, hd, rfl⟩ := List.mem_map.mp (List.mem_reverse.mp h)
    exact ⟨d, Nat.digits_lt_base (by omega) hd, rfl⟩

theorem hyphen_notMem_itoa (n : Nat) : (45 : UInt8) ∉ itoa n := by
  intro h
  obtain ⟨d, hd, hc⟩ := exists_digit_of_mem_itoa h
  have := congrArg UInt8.toNat hc
  rw [toNat_digitChar hd, show (45 : UInt8).toNat = 45 from rfl] at this
  omega

theorem map_digitChar_inj : ∀ {l m : List Nat}, (∀ d ∈ l, d < 10) → (∀ d ∈ m, d < 10) →
    l.map digitChar = m.map digitChar → l = m
  | [], [], _, _, _ => rfl
  | [], _ :: _, _, _, h => by cases h
  | _ :: _, [], _, _, h => by cases h
  | a :: l, b :: m, hl, hm, h => by
      obtain ⟨hab, hrest⟩ := List.cons.inj h
      have hnat := congrArg UInt8.toNat hab
      rw [toNat_digitChar (hl a (by simp)), toNat_digitChar (hm b (by simp))] at hnat
      rw [show a = b by omega, map_digitChar_inj (fun d hd => hl d (by simp [hd]))
        (fun d hd => hm d (by simp [hd])) hrest]

/-- Distinct positive numbers are written differently. -/
theorem itoa_inj {n m : Nat} (hn : n ≠ 0) (hm : m ≠ 0) (h : itoa n = itoa m) : n = m := by
  rw [itoa, itoa, if_neg hn, if_neg hm, List.reverse_inj] at h
  exact Nat.digits_inj_iff.mp (map_digitChar_inj
    (fun d hd => Nat.digits_lt_base (by omega) hd)
    (fun d hd => Nat.digits_lt_base (by omega) hd) h)

/-! ## Splitting at a byte -/

theorem intercalate_append {α : Type} (sep : List α) {l m : List (List α)}
    (hl : l ≠ []) (hm : m ≠ []) :
    sep.intercalate (l ++ m) = sep.intercalate l ++ sep ++ sep.intercalate m := by
  induction l with
  | nil => exact absurd rfl hl
  | cons a rest ih =>
      cases rest with
      | nil => rw [List.singleton_append, List.intercalate_cons_of_ne_nil hm]; simp
      | cons b rest' =>
          have hrest : b :: rest' ≠ [] := List.cons_ne_nil b rest'
          rw [List.cons_append, List.intercalate_cons_of_ne_nil (by simp), ih hrest,
            List.intercalate_cons_of_ne_nil hrest]
          simp

theorem splitOn_inj {α : Type} [BEq α] [LawfulBEq α] {x : α} {a b : List α}
    (h : a.splitOn x = b.splitOn x) : a = b := by
  have hjoin := congrArg (List.intercalate [x]) h
  rwa [List.intercalate_splitOn, List.intercalate_splitOn] at hjoin

/-- One list of fields is a suffix of another exactly when the strings are
equal or the shorter one follows a separator at the end of the longer. -/
theorem splitOn_suffix_iff {α : Type} [BEq α] [LawfulBEq α] {x : α} {a h : List α} :
    a.splitOn x <:+ h.splitOn x ↔ h = a ∨ x :: a <:+ h := by
  constructor
  · rintro ⟨pre, hpre⟩
    cases hne : pre with
    | nil =>
        rw [hne, List.nil_append] at hpre
        exact Or.inl (splitOn_inj hpre.symm)
    | cons p ps =>
        have hcat := intercalate_append [x] (l := pre) (by simp [hne])
          (List.splitOn_ne_nil x a)
        rw [hpre, List.intercalate_splitOn, List.intercalate_splitOn] at hcat
        exact Or.inr ⟨[x].intercalate pre, by rw [hcat]; simp⟩
  · rintro (rfl | ⟨p, rfl⟩)
    · exact List.suffix_refl _
    · rw [List.splitOn_append_cons_self]
      exact List.suffix_append _ _

/-- The field after the first separator, when the fields before it are
separator-free. -/
theorem splitOn_second {α : Type} [BEq α] [LawfulBEq α] {x : α} {p s : List α}
    (hp : x ∉ p) : ((p ++ x :: s).splitOn x)[1]? = (s.splitOn x).head? := by
  rw [List.splitOn_append_cons_self_of_not_mem hp]
  cases s.splitOn x <;> rfl

/-- The first field is what stands before the first separator. -/
theorem splitOn_head? {α : Type} [BEq α] [LawfulBEq α] {x : α} {s t : List α}
    (h : (s.splitOn x).head? = some t) : x ∉ t ∧ (s = t ∨ ∃ r, s = t ++ x :: r) := by
  induction s generalizing t with
  | nil =>
      simp only [List.splitOn_nil, List.head?_cons, Option.some.injEq] at h
      subst h
      exact ⟨by simp, Or.inl rfl⟩
  | cons c rest ih =>
      rw [List.splitOn_cons_eq_if_modifyHead] at h
      by_cases hc : c = x
      · simp only [hc, beq_self_eq_true, if_true, List.head?_cons, Option.some.injEq] at h
        subst h
        exact ⟨by simp, Or.inr ⟨rest, by rw [hc]; rfl⟩⟩
      · cases hsp : rest.splitOn x with
        | nil => exact absurd hsp (List.splitOn_ne_nil x rest)
        | cons u us =>
            rw [if_neg (by simpa using hc), hsp] at h
            simp only [List.modifyHead_cons, List.head?_cons, Option.some.injEq] at h
            subst h
            obtain ⟨hx, hrest⟩ := ih (t := u) (by rw [hsp]; rfl)
            refine ⟨by simp [hx, Ne.symm hc], ?_⟩
            rcases hrest with rfl | ⟨r, rfl⟩
            · exact Or.inl rfl
            · exact Or.inr ⟨r, rfl⟩

/-! ## White space -/

/-- The UTF-8 encodings of the code points for which `unicode.IsSpace` holds. -/
def spaceRunes : List GoString :=
  [[0x20], [0x09], [0x0A], [0x0B], [0x0C], [0x0D], [0xC2, 0x85], [0xC2, 0xA0],
   [0xE1, 0x9A, 0x80], [0xE2, 0x80, 0x80], [0xE2, 0x80, 0x81], [0xE2, 0x80, 0x82],
   [0xE2, 0x80, 0x83], [0xE2, 0x80, 0x84], [0xE2, 0x80, 0x85], [0xE2, 0x80, 0x86],
   [0xE2, 0x80, 0x87], [0xE2, 0x80, 0x88], [0xE2, 0x80, 0x89], [0xE2, 0x80, 0x8A],
   [0xE2, 0x80, 0xA8], [0xE2, 0x80, 0xA9], [0xE2, 0x80, 0xAF], [0xE2, 0x81, 0x9F],
   [0xE3, 0x80, 0x80]]

def stripSpaceLeft (s : GoString) : Option GoString :=
  (spaceRunes.find? fun w => w.isPrefixOf s).map fun w => s.drop w.length

def stripSpaceRight (s : GoString) : Option GoString :=
  (spaceRunes.find? fun w => w.isSuffixOf s).map fun w => s.take (s.length - w.length)

/-- Apply a partial function up to `n` times, until it is undefined. -/
def stripAll (strip : GoString → Option GoString) : Nat → GoString → GoString
  | 0, s => s
  | n + 1, s => match strip s with
    | some t => stripAll strip n t
    | none => s

/-- `strings.TrimSpace`. A white-space rune has at least one byte, so the
length of the string bounds how many there are on either side. -/
def trimSpace (s : GoString) : GoString :=
  let l := stripAll stripSpaceLeft s.length s
  stripAll stripSpaceRight l.length l

/-- The loop of `strings.Fields`; `field` is the part of the current field that
has been read. -/
def fieldsLoop : Nat → GoString → GoString → List GoString
  | n + 1, b :: s, field =>
    match stripSpaceLeft (b :: s) with
    | some t => if field = [] then fieldsLoop n t [] else field :: fieldsLoop n t []
    | none => fieldsLoop n s (field ++ [b])
  | _, _, field => if field = [] then [] else [field]

def fields (s : GoString) : List GoString := fieldsLoop s.length s []

def White (s : GoString) : Prop := ∃ ws : List GoString, (∀ w ∈ ws, w ∈ spaceRunes) ∧ s = ws.flatten

theorem white_nil : White [] := ⟨[], List.forall_mem_nil _, rfl⟩

/-- No encoding of white space is the beginning of another. -/
theorem eq_of_prefix_space {v w : GoString} (hv : v ∈ spaceRunes) (hw : w ∈ spaceRunes)
    (h : v <+: w) : v = w := by
  have hall : (spaceRunes.all fun v => spaceRunes.all fun w => !v.isPrefixOf w || v == w)
      = true := by
    decide
  have hpair := List.all_eq_true.mp (List.all_eq_true.mp hall v hv) w hw
  rw [List.isPrefixOf_iff_prefix.mpr h] at hpair
  simpa using hpair

theorem stripSpaceLeft_append {w : GoString} (hw : w ∈ spaceRunes) (s : GoString) :
    stripSpaceLeft (w ++ s) = some s := by
  have hpre : w.isPrefixOf (w ++ s) = true := List.isPrefixOf_iff_prefix.mpr (List.prefix_append w s)
  unfold stripSpaceLeft
  cases hfind : spaceRunes.find? fun v => v.isPrefixOf (w ++ s) with
  | none => exact absurd hpre (List.find?_eq_none.mp hfind w hw)
  | some v =>
      have hv := List.mem_of_find?_eq_some hfind
      have hvpre : v.isPrefixOf (w ++ s) = true := by simpa using List.find?_some hfind
      have hboth := List.prefix_or_prefix_of_prefix (List.isPrefixOf_iff_prefix.mp hvpre)
        (List.prefix_append w s)
      have hvw : v = w := by
        rcases hboth with h | h
        · exact eq_of_prefix_space hv hw h
        · exact (eq_of_prefix_space hw hv h).symm
      rw [hvw, Option.map_some, List.drop_left]

theorem of_stripSpaceLeft {s t : GoString} (h : stripSpaceLeft s = some t) :
    ∃ w ∈ spaceRunes, s = w ++ t := by
  obtain ⟨w, hw, rfl⟩ := Option.map_eq_some_iff.mp h
  have hpre : w.isPrefixOf s = true := by simpa using List.find?_some hw
  obtain ⟨t, rfl⟩ := List.isPrefixOf_iff_prefix.mp hpre
  exact ⟨w, List.mem_of_find?_eq_some hw, by rw [List.drop_left]⟩

/-- White space starts with a white-space rune, and white space is behind it. -/
theorem white_cons_iff (b : UInt8) (s : GoString) :
    White (b :: s) ↔ ∃ t, stripSpaceLeft (b :: s) = some t ∧ White t := by
  constructor
  · rintro ⟨ws, hws, heq⟩
    cases ws with
    | nil => cases heq
    | cons w ws =>
        obtain ⟨hw, hrest⟩ := List.forall_mem_cons.mp hws
        rw [heq]
        exact ⟨_, stripSpaceLeft_append hw ws.flatten, ws, hrest, rfl⟩
  · rintro ⟨t, hstrip, ws, hws, rfl⟩
    obtain ⟨w, hw, heq⟩ := of_stripSpaceLeft hstrip
    exact ⟨w :: ws, List.forall_mem_cons.mpr ⟨hw, hws⟩, heq⟩

theorem fieldsLoop_eq_nil_iff (n : Nat) {s : GoString} (field : GoString) (hlen : s.length ≤ n) :
    fieldsLoop n s field = [] ↔ field = [] ∧ White s := by
  induction n generalizing s field with
  | zero =>
      obtain rfl := List.length_eq_zero_iff.mp (Nat.le_zero.mp hlen)
      simp [fieldsLoop, white_nil]
  | succ n ih =>
      cases s with
      | nil => simp [fieldsLoop, white_nil]
      | cons b s =>
          rw [fieldsLoop, white_cons_iff]
          cases hstrip : stripSpaceLeft (b :: s) with
          | some t =>
              have hshort : t.length ≤ n := by
                obtain ⟨w, hw, heq⟩ := of_stripSpaceLeft hstrip
                have hpos : w.length ≠ 0 := by
                  intro h0
                  obtain rfl := List.length_eq_zero_iff.mp h0
                  exact absurd hw (by decide)
                have hlength := congrArg List.length heq
                rw [List.length_append] at hlength
                omega
              dsimp only
              split
              · rename_i hnil
                rw [ih [] hshort]
                simp [hnil]
              · rename_i hne
                simp [hne]
          | none =>
              have hshort : s.length ≤ n := by
                rw [List.length_cons] at hlen
                omega
              dsimp only
              rw [ih _ hshort]
              simp

theorem fields_eq_nil_iff (s : GoString) : fields s = [] ↔ White s := by
  rw [fields, fieldsLoop_eq_nil_iff s.length [] (Nat.le_refl _)]
  exact and_iff_right rfl

/-- A byte that occurs in no encoding of a white-space rune. -/
def Solid (c : UInt8) : Prop := ∀ w ∈ spaceRunes, c ∉ w

instance (c : UInt8) : Decidable (Solid c) := by unfold Solid; infer_instance

/-- ASCII behind the space is no part of a white-space rune. -/
theorem solid_of_visible {c : UInt8} (hlow : 0x20 < c) (hhigh : c < 0x80) : Solid c := by
  intro w hw hc
  have hall : spaceRunes.all (fun w => w.all fun d => decide (d ≤ 0x20 ∨ 0x80 ≤ d)) = true := by
    decide
  have hd := of_decide_eq_true (List.all_eq_true.mp (List.all_eq_true.mp hall w hw) c hc)
  rw [UInt8.lt_iff_toNat_lt] at hlow hhigh
  rw [UInt8.le_iff_toNat_le, UInt8.le_iff_toNat_le] at hd
  omega

theorem stripSpaceLeft_of_solid {c : UInt8} (hc : Solid c) (s : GoString) :
    stripSpaceLeft (c :: s) = none := by
  unfold stripSpaceLeft
  rw [Option.map_eq_none_iff, List.find?_eq_none]
  intro w hw hpre
  obtain ⟨t, ht⟩ := List.isPrefixOf_iff_prefix.mp hpre
  cases w with
  | nil => exact absurd hw (by decide)
  | cons d ds =>
      obtain rfl : d = c := by simpa using (List.cons.inj ht).1
      exact hc _ hw (by simp)

/-- Stripping at the end stops at a solid byte. -/
theorem stripSpaceRight_keeps {t : GoString} {c : UInt8} (hc : Solid c) {x s : GoString}
    (h : stripSpaceRight (t ++ c :: x) = some s) : ∃ y, s = t ++ c :: y ∧ y <+: x := by
  unfold stripSpaceRight at h
  obtain ⟨w, hw, rfl⟩ := Option.map_eq_some_iff.mp h
  have hmem := List.mem_of_find?_eq_some hw
  have hend : w.isSuffixOf (t ++ c :: x) = true := by simpa using List.find?_some hw
  have hend' : w <:+ t ++ c :: x := List.isSuffixOf_iff_suffix.mp hend
  -- the stripped rune lies inside `x`: it does not contain the solid byte
  have hlen : w.length ≤ x.length := by
    by_contra hlt
    have hsuf : c :: x <:+ w := by
      refine List.suffix_of_suffix_length_le (List.suffix_append t (c :: x)) hend' ?_
      simp only [List.length_cons]
      omega
    exact hc w hmem (hsuf.subset (by simp))
  refine ⟨x.take (x.length - w.length), ?_, List.take_prefix _ _⟩
  rw [show (t ++ c :: x).length - w.length = t.length + (1 + (x.length - w.length)) by
    simp only [List.length_append, List.length_cons]; omega]
  rw [List.take_length_add_append, Nat.add_comm 1, List.take_succ_cons]

theorem stripAll_right_keeps {t : GoString} {c : UInt8} (hc : Solid c) (n : Nat) (x : GoString) :
    ∃ y, stripAll stripSpaceRight n (t ++ c :: x) = t ++ c :: y ∧ y <+: x := by
  induction n generalizing x with
  | zero => exact ⟨x, rfl, List.prefix_refl x⟩
  | succ n ih =>
      unfold stripAll
      cases h : stripSpaceRight (t ++ c :: x) with
      | none => exact ⟨x, rfl, List.prefix_refl x⟩
      | some s =>
          obtain ⟨y, rfl, hy⟩ := stripSpaceRight_keeps hc h
          obtain ⟨z, hz, hzy⟩ := ih y
          exact ⟨z, hz, hzy.trans hy⟩

/-- Stripping in front stops at a solid byte at the end. -/
theorem stripAll_left_keeps {c : UInt8} (hc : Solid c) (n : Nat) (x : GoString) :
    ∃ y, stripAll stripSpaceLeft n (x ++ [c]) = y ++ [c] := by
  induction n generalizing x with
  | zero => exact ⟨x, rfl⟩
  | succ n ih =>
      unfold stripAll
      cases h : stripSpaceLeft (x ++ [c]) with
      | none => exact ⟨x, rfl⟩
      | some s =>
          obtain ⟨w, hw, rfl⟩ := Option.map_eq_some_iff.mp h
          have hmem := List.mem_of_find?_eq_some hw
          have hpre : w.isPrefixOf (x ++ [c]) = true := by simpa using List.find?_some hw
          have hlen : w.length ≤ x.length := by
            by_contra hlt
            have hall := List.isPrefixOf_iff_prefix.mp hpre
            have heq : w = x ++ [c] := hall.eq_of_length_le (by simp; omega)
            exact hc w hmem (by simp [heq])
          rw [List.drop_append_of_le_length hlen]
          exact ih (x.drop w.length)

theorem trimSpace_concat_of_solid {c : UInt8} (hc : Solid c) (x : GoString) :
    ∃ y, trimSpace (x ++ [c]) = y ++ [c] := by
  obtain ⟨y, hy⟩ := stripAll_left_keeps hc (x ++ [c]).length x
  obtain ⟨z, hz, hpre⟩ := stripAll_right_keeps (t := y) hc (y ++ [c]).length []
  obtain rfl := List.prefix_nil.mp hpre
  exact ⟨y, by rw [trimSpace, hy, hz]⟩

/-- A non-empty string of solid bytes survives in front of anything; only
what follows it can lose bytes, at its end. -/
theorem trimSpace_append_of_solid {t : GoString} (hne : t ≠ []) (ht : ∀ c ∈ t, Solid c)
    (x : GoString) : ∃ y, trimSpace (t ++ x) = t ++ y ∧ y <+: x := by
  have hleft : stripAll stripSpaceLeft (t ++ x).length (t ++ x) = t ++ x := by
    cases t with
    | nil => exact absurd rfl hne
    | cons b m =>
        simp only [List.cons_append, List.length_cons, stripAll,
          stripSpaceLeft_of_solid (ht b (by simp))]
  rw [trimSpace, hleft]
  obtain ⟨init, c, rfl⟩ := (List.eq_nil_or_concat t).resolve_left hne
  have hc : Solid c := ht c (by simp)
  simpa [List.concat_eq_append] using stripAll_right_keeps (t := init) hc _ x

/-- Nothing to trim in a string of solid bytes. -/
theorem trimSpace_of_solid {t : GoString} (ht : ∀ c ∈ t, Solid c) : trimSpace t = t := by
  by_cases hne : t = []
  · subst hne
    rfl
  · obtain ⟨y, hy, hpre⟩ := trimSpace_append_of_solid hne ht []
    obtain rfl := List.prefix_nil.mp hpre
    simpa using hy

/-! ## Lower case -/

abbrev Rune := Nat

/-- `utf8.RuneError`, what invalid bytes decode to. -/
def runeError : Rune := 0xFFFD

def inRange (b lo hi : UInt8) : Bool := decide (lo ≤ b) && decide (b ≤ hi)

/-- The second byte that may follow the first byte of a three-byte sequence
(no overlong form, no surrogate). -/
def second3 (b0 b1 : UInt8) : Bool :=
  if b0 = 0xE0 then inRange b1 0xA0 0xBF
  else if b0 = 0xED then inRange b1 0x80 0x9F
  else inRange b0 0xE1 0xEF && inRange b1 0x80 0xBF

/-- The second byte that may follow the first byte of a four-byte sequence. -/
def second4 (b0 b1 : UInt8) : Bool :=
  if b0 = 0xF0 then inRange b1 0x90 0xBF
  else if b0 = 0xF4 then inRange b1 0x80 0x8F
  else inRange b0 0xF1 0xF3 && inRange b1 0x80 0xBF

/-- The payload bits of a continuation byte. -/
def contBits (b : UInt8) : Nat := b.toNat % 0x40

/-- The runes that `for _, c := range s` visits: a byte that starts no
well-formed sequence counts as one `runeError`. -/
def runes : GoString → List Rune
  | [] => []
  | [b0] => [if b0 < 0x80 then b0.toNat else runeError]
  | b0 :: b1 :: t =>
    if b0 < 0x80 then b0.toNat :: runes (b1 :: t)
    else if inRange b0 0xC2 0xDF && inRange b1 0x80 0xBF then
      (b0.toNat % 0x20 * 0x40 + contBits b1) :: runes t
    else match t with
      | b2 :: u =>
        if second3 b0 b1 && inRange b2 0x80 0xBF then
          (b0.toNat % 0x10 * 0x1000 + contBits b1 * 0x40 + contBits b2) :: runes u
        else match u with
          | b3 :: v =>
            if second4 b0 b1 && inRange b2 0x80 0xBF && inRange b3 0x80 0xBF then
              (b0.toNat % 8 * 0x40000 + contBits b1 * 0x1000 + contBits b2 * 0x40
                + contBits b3) :: runes v
            else runeError :: runes (b1 :: b2 :: b3 :: v)
          | [] => runeError :: runes [b1, b2]
      | [] => runeError :: runes [b1]
termination_by s => s.length

/-- `utf8.AppendRune`: surrogates and values past U+10FFFF are written as
`runeError`. -/
def encodeRune (r : Rune) : GoString :=
  if r < 0x80 then [UInt8.ofNat r]
  else if r < 0x800 then [UInt8.ofNat (0xC0 + r / 0x40), UInt8.ofNat (0x80 + r % 0x40)]
  else if (0xD800 ≤ r ∧ r < 0xE000) ∨ 0x10FFFF < r then [0xEF, 0xBF, 0xBD]
  else if r < 0x10000 then
    [UInt8.ofNat (0xE0 + r / 0x1000), UInt8.ofNat (0x80 + r / 0x40 % 0x40),
      UInt8.ofNat (0x80 + r % 0x40)]
  else
    [UInt8.ofNat (0xF0 + r / 0x40000), UInt8.ofNat (0x80 + r / 0x1000 % 0x40),
      UInt8.ofNat (0x80 + r / 0x40 % 0x40), UInt8.ofNat (0x80 + r % 0x40)]

/-- `unicode.ToLower`; `table` is what it does past ASCII. -/
def lowerRune (table : Rune → Rune) (r : Rune) : Rune :=
  if r < 0x80 then (if 0x41 ≤ r ∧ r ≤ 0x5A then r + 0x20 else r) else table r

/-- `strings.ToLower`. The library's shortcut for ASCII strings returns the
same bytes as the general path modelled here. -/
def toLower (table : Rune → Rune) (s : GoString) : GoString :=
  (runes s).flatMap fun r => encodeRune (lowerRune table r)

/-- `strings.ToLower` on one ASCII character. -/
def lowerByte (b : UInt8) : UInt8 := if 0x41 ≤ b ∧ b ≤ 0x5A then b + 0x20 else b

/-- Only letters change, and only into letters. -/
theorem lowerByte_eq_iff {b c : UInt8} (hc : c < 0x41 ∨ (0x5A < c ∧ c < 0x61) ∨ 0x7A < c) :
    lowerByte b = c ↔ b = c := by
  unfold lowerByte
  simp only [UInt8.le_iff_toNat_le, UInt8.lt_iff_toNat_lt, ← UInt8.toNat_inj] at *
  split
  · rw [UInt8.toNat_add]
    have hb := b.toNat_lt
    simp at *
    omega
  · rfl

theorem lowerByte_lowerByte (b : UInt8) : lowerByte (lowerByte b) = lowerByte b := by
  unfold lowerByte
  simp only [UInt8.le_iff_toNat_le]
  split
  · rw [if_neg]
    rw [UInt8.toNat_add]
    simp at *
    omega
  · rfl

theorem runes_ascii {b : UInt8} (h : b < 0x80) (s : GoString) :
    runes (b :: s) = b.toNat :: runes s := by
  cases s with
  | nil => simp [runes, h]
  | cons c t =>
      rw [runes.eq_def]
      simp only [h, if_true]

theorem encodeRune_lowerRune {b : UInt8} (hb : b < 0x80) (table : Rune → Rune) :
    encodeRune (lowerRune table b.toNat) = [lowerByte b] := by
  have hlt : b.toNat < 0x80 := UInt8.lt_iff_toNat_lt.mp hb
  rw [lowerRune, if_pos hlt]
  have hle : ∀ c d : UInt8, c ≤ d ↔ c.toNat ≤ d.toNat := fun c d => UInt8.le_iff_toNat_le
  by_cases hup : 0x41 ≤ b.toNat ∧ b.toNat ≤ 0x5A
  · have hbyte : (0x41 : UInt8) ≤ b ∧ b ≤ 0x5A := ⟨(hle _ _).mpr hup.1, (hle _ _).mpr hup.2⟩
    have hsum : b.toNat + 0x20 < 0x80 := by omega
    rw [if_pos hup, lowerByte, if_pos hbyte, encodeRune, if_pos hsum]
    congr 1
  · have hbyte : ¬ ((0x41 : UInt8) ≤ b ∧ b ≤ 0x5A) := fun h =>
      hup ⟨(hle _ _).mp h.1, (hle _ _).mp h.2⟩
    rw [if_neg hup, lowerByte, if_neg hbyte, encodeRune, if_pos hlt, UInt8.ofNat_toNat]

/-- On ASCII strings, `strings.ToLower` goes byte by byte. -/
theorem toLower_ascii {s : GoString} (hs : ∀ b ∈ s, b < 0x80) (table : Rune → Rune) :
    toLower table s = s.map lowerByte := by
  induction s with
  | nil => simp [toLower, runes]
  | cons b s ih =>
      have hb : b < 0x80 := hs b (by simp)
      have hrest := ih fun c hc => hs c (by simp [hc])
      rw [toLower] at hrest ⊢
      rw [runes_ascii hb, List.flatMap_cons, encodeRune_lowerRune hb, hrest]
      rfl

end RbiProxy
