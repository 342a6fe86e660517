import RbiProxy.GoLower

/-!
# Quoted strings

`strconv.Quote`, rune by rune, and the string literals of JavaScript. What `Quote`
writes for a rune is plain text or one escape to JavaScript (`Skipped`), for all
strings, valid UTF-8 or not.

`Quoted` is the relation between a string and its quoted form that the other results
go by (`quoted_quoteBody`): a byte of printable ASCII is left as it is, and anything
else becomes a piece of text that begins with `\` or with a byte beyond ASCII.
-/

namespace RbiProxy

namespace Strconv

/-! ## `strconv.Quote` -/

def lowerhex (n : Nat) : UInt8 := if n < 10 then UInt8.ofNat (48 + n) else UInt8.ofNat (87 + n)

/-- The last digits of a number, the highest first. -/
def hexes (width : Nat) (r : Rune) : GoString :=
  (List.range width).reverse.map fun i => lowerhex (r / 16 ^ i % 16)

/-- `utf8.DecodeRuneInString`: the rune and its width; there is no rune where the
result is `RuneError` for an invalid byte. -/
def decodeRune : GoString → Option Rune × Nat
  | [] => (none, 0)
  | b0 :: s =>
    if b0 < 0x80 then (some b0.toNat, 1)
    else match s with
      | [] => (none, 1)
      | b1 :: t =>
        if inRange b0 0xC2 0xDF && inRange b1 0x80 0xBF then
          (some (b0.toNat % 0x20 * 0x40 + contBits b1), 2)
        else match t with
          | [] => (none, 1)
          | b2 :: u =>
            if second3 b0 b1 && inRange b2 0x80 0xBF then
              (some (b0.toNat % 0x10 * 0x1000 + contBits b1 * 0x40 + contBits b2), 3)
            else match u with
              | [] => (none, 1)
              | b3 :: _ =>
                if second4 b0 b1 && inRange b2 0x80 0xBF && inRange b3 0x80 0xBF then
                  (some (b0.toNat % 8 * 0x40000 + contBits b1 * 0x1000 + contBits b2 * 0x40
                    + contBits b3), 4)
                else (none, 1)

/-- `strconv.IsPrint`; `table` is what it does past ASCII. -/
def isPrint (table : Rune → Bool) (r : Rune) : Bool :=
  if r < 0x80 then 0x20 ≤ r && r < 0x7F else table r

def escapeLetter (r : Rune) : Option UInt8 :=
  if r = 7 then some 97
  else if r = 8 then some 98
  else if r = 12 then some 102
  else if r = 10 then some 110
  else if r = 13 then some 114
  else if r = 9 then some 116
  else if r = 11 then some 118
  else none

/-- `appendEscapedRune`, for the double quote. -/
def appendEscapedRune (table : Rune → Bool) (r : Rune) : GoString :=
  if r = 34 ∨ r = 92 then [92, UInt8.ofNat r]
  else if isPrint table r then encodeRune r
  else match escapeLetter r with
    | some c => [92, c]
    | none =>
      if r < 0x20 ∨ r = 0x7F then [92, 120] ++ hexes 2 r
      else if canonRune r ≠ r then [92, 117] ++ hexes 4 runeError
      else if r < 0x10000 then [92, 117] ++ hexes 4 r
      else [92, 85] ++ hexes 8 r

/-- The loop of `appendQuotedWith`. -/
def quoteBody (table : Rune → Bool) : GoString → GoString
  | [] => []
  | b :: s =>
    (match (decodeRune (b :: s)).1 with
      | some r => appendEscapedRune table r
      | none => [92, 120] ++ hexes 2 b.toNat)
    ++ quoteBody table (s.drop ((decodeRune (b :: s)).2 - 1))
termination_by s => s.length
decreasing_by
  rw [List.length_drop, List.length_cons]
  omega

def quote (table : Rune → Bool) (s : GoString) : GoString := 34 :: quoteBody table s ++ [34]

/-! ## String literals of JavaScript -/

def isLineTerminator (r : Rune) : Bool := r == 10 || r == 13 || r == 0x2028 || r == 0x2029

def isHexDigit (r : Rune) : Bool :=
  (48 ≤ r && r ≤ 57) || (65 ≤ r && r ≤ 70) || (97 ≤ r && r ≤ 102)

/-- Where the reader of a literal is: in its text, behind a `\`, or with digits of an
escape to come. -/
inductive JsState where
  | text
  | escape
  | hex (more : Nat)

/-- What follows the closing quote of a literal; `none` where there is none, or where a
line terminator or an invalid escape comes first. -/
def jsString : JsState → List Rune → Option (List Rune)
  | _, [] => none
  | .text, c :: t =>
    if c = 34 then some t
    else if isLineTerminator c then none
    else if c = 92 then jsString .escape t
    else jsString .text t
  | .escape, c :: t =>
    if isLineTerminator c then none
    else if c = 120 then jsString (.hex 1) t
    else if c = 117 then jsString (.hex 3) t
    else jsString .text t
  | .hex more, c :: t =>
    if isHexDigit c then
      (match more with
        | 0 => jsString .text t
        | more + 1 => jsString (.hex more) t)
    else none

/-- A literal from its opening quote on. -/
def jsLiteral : List Rune → Option (List Rune)
  | [] => none
  | c :: t => if c = 34 then jsString .text t else none

/-! ## Escapes as JavaScript reads them -/

/-- Printable ASCII without the quote and the backslash. -/
def isPlain (b : UInt8) : Bool := 0x20 ≤ b && b < 0x7F && b != 34 && b != 92

theorem plain_spec {b : UInt8} : isPlain b = true →
    b < 0x80 ∧ b.toNat ≠ 34 ∧ b.toNat ≠ 92 ∧ isLineTerminator b.toNat = false :=
  forall_byte (P := fun b => isPlain b = true →
    b < 0x80 ∧ b.toNat ≠ 34 ∧ b.toNat ≠ 92 ∧ isLineTerminator b.toNat = false)
    (by decide +kernel) b

theorem plain_printable {b : UInt8} (h : isPlain b = true) : 0x20 ≤ b ∧ b < 0x7F := by
  simp only [isPlain, Bool.and_eq_true, decide_eq_true_eq] at h
  exact h.1.1

theorem lowerhex_spec {n : Nat} (h : n < 16) :
    isPlain (lowerhex n) = true ∧ isHexDigit (lowerhex n).toNat = true ∧ lowerhex n ≠ 60
      ∧ lowerhex n ≠ 45 ∧ lowerhex n ≠ 47 ∧ lowerhex n ≠ 62 := by
  have hall : ∀ n : Fin 16, isPlain (lowerhex n) = true ∧ isHexDigit (lowerhex n).toNat = true
      ∧ lowerhex n ≠ 60 ∧ lowerhex n ≠ 45 ∧ lowerhex n ≠ 47 ∧ lowerhex n ≠ 62 := by
    decide
  exact hall ⟨n, h⟩

theorem exists_of_mem_hexes {width r : Nat} {b : UInt8} (h : b ∈ hexes width r) :
    ∃ n < 16, b = lowerhex n := by
  obtain ⟨i, -, rfl⟩ := List.mem_map.mp h
  exact ⟨_, Nat.mod_lt _ (by decide), rfl⟩

/-- JavaScript reads on behind the text as if it were not there. -/
def Skipped (e : GoString) : Prop :=
  ∀ rest, jsString .text (runes (e ++ rest)) = jsString .text (runes rest)

theorem skipped_plain {b : UInt8} (hb : isPlain b = true) : Skipped [b] := by
  intro rest
  obtain ⟨hascii, hquote, hslash, hline⟩ := plain_spec hb
  rw [List.singleton_append, runes_ascii hascii, jsString, if_neg hquote, hline,
    if_neg Bool.false_ne_true, if_neg hslash]

theorem Skipped.append {e f : GoString} (he : Skipped e) (hf : Skipped f) : Skipped (e ++ f) := by
  intro rest
  rw [List.append_assoc, he, hf]

theorem skipped_nil : Skipped [] := fun _ => rfl

theorem skipped_of_plain {e : GoString} (he : ∀ b ∈ e, isPlain b = true) : Skipped e := by
  induction e with
  | nil => exact skipped_nil
  | cons b e ih =>
    exact (skipped_plain (he b List.mem_cons_self)).append
      (ih fun c hc => he c (List.mem_cons_of_mem b hc))

theorem jsString_hexes {ds : GoString} {more : Nat} (hds : ∀ b ∈ ds, ∃ n < 16, b = lowerhex n)
    (hlen : ds.length = more + 1) (rest : GoString) :
    jsString (.hex more) (runes (ds ++ rest)) = jsString .text (runes rest) := by
  induction ds generalizing more with
  | nil => cases hlen
  | cons d ds ih =>
    obtain ⟨n, hn, rfl⟩ := hds d List.mem_cons_self
    obtain ⟨hplain, hhex, -⟩ := lowerhex_spec hn
    rw [List.cons_append, runes_ascii (plain_spec hplain).1]
    cases more with
    | zero =>
      obtain rfl := List.length_eq_zero_iff.mp (Nat.succ.inj hlen)
      rw [jsString, if_pos hhex, List.nil_append]
    | succ more =>
      rw [jsString, if_pos hhex]
      exact ih (fun b hb => hds b (List.mem_cons_of_mem _ hb)) (Nat.succ.inj hlen)

theorem length_hexes (width r : Nat) : (hexes width r).length = width := by
  simp [hexes]

/-- `\` and a character that is neither `x` nor `u`. -/
theorem skipped_escape {c : UInt8} (hascii : c < 0x80) (hline : isLineTerminator c.toNat = false)
    (hx : c.toNat ≠ 120) (hu : c.toNat ≠ 117) : Skipped [92, c] := by
  intro rest
  have hcut : [92, c] ++ rest = 92 :: c :: rest := rfl
  rw [hcut, runes_ascii (by decide), runes_ascii hascii, jsString, if_neg (by decide),
    if_neg (by decide), if_pos (by decide), jsString, hline, if_neg Bool.false_ne_true, if_neg hx,
    if_neg hu]

theorem skipped_x {ds : GoString} (hds : ∀ b ∈ ds, ∃ n < 16, b = lowerhex n)
    (hlen : ds.length = 2) : Skipped ([92, 120] ++ ds) := by
  intro rest
  have hcut : [92, 120] ++ ds ++ rest = 92 :: 120 :: (ds ++ rest) := rfl
  rw [hcut, runes_ascii (by decide), runes_ascii (by decide), jsString, if_neg (by decide),
    if_neg (by decide), if_pos (by decide), jsString, if_neg (by decide), if_pos (by decide)]
  exact jsString_hexes hds hlen rest

theorem skipped_u {ds : GoString} (hds : ∀ b ∈ ds, ∃ n < 16, b = lowerhex n)
    (hlen : ds.length = 4) : Skipped ([92, 117] ++ ds) := by
  intro rest
  have hcut : [92, 117] ++ ds ++ rest = 92 :: 117 :: (ds ++ rest) := rfl
  rw [hcut, runes_ascii (by decide), runes_ascii (by decide), jsString, if_neg (by decide),
    if_neg (by decide), if_pos (by decide), jsString, if_neg (by decide), if_neg (by decide),
    if_pos (by decide)]
  exact jsString_hexes hds hlen rest

/-- A rune beyond ASCII that is no line terminator. -/
theorem skipped_encodeRune {r : Nat} (hlow : 0x80 ≤ r) (hline : isLineTerminator r = false) :
    Skipped (encodeRune r) := by
  intro rest
  have hcanon : canonRune r = r ∨ canonRune r = runeError := by
    unfold canonRune
    split
    · exact .inr rfl
    · exact .inl rfl
  have hchar : canonRune r ≠ 34 ∧ canonRune r ≠ 92 ∧ isLineTerminator (canonRune r) = false := by
    obtain h | h := hcanon
    · rw [h]
      refine ⟨?_, ?_, hline⟩ <;> dsimp only [Rune] <;> omega
    · rw [h]
      decide
  rw [runes_encodeRune, jsString, if_neg hchar.1, hchar.2.2, if_neg Bool.false_ne_true,
    if_neg hchar.2.1]

/-! ## A string and its quoted form -/

/-- What `Quote` writes for something that is not plain. -/
structure Escape (e : GoString) : Prop where
  head : ∃ b t, e = b :: t ∧ isPlain b = false
  signs : ∀ b ∈ e, 0x20 ≤ b ∧ b ≠ 60 ∧ b ≠ 45 ∧ b ≠ 47 ∧ b ≠ 62
  skipped : Skipped e

/-- The body of a quoted string. -/
inductive Quoted : GoString → GoString → Prop where
  | nil : Quoted [] []
  | plain {b : UInt8} {s q : GoString} : isPlain b = true → Quoted s q → Quoted (b :: s) (b :: q)
  | escape {w e s q : GoString} : w ≠ [] → (∀ b ∈ w, isPlain b = false) → Escape e → Quoted s q →
      Quoted (w ++ s) (e ++ q)

theorem escape_hexes {c : UInt8} {width r : Nat} (hc : isPlain c = true)
    (hsigns : c ≠ 60 ∧ c ≠ 45 ∧ c ≠ 47 ∧ c ≠ 62) (hskip : Skipped ([92, c] ++ hexes width r)) :
    Escape ([92, c] ++ hexes width r) where
  head := ⟨92, c :: hexes width r, rfl, by decide⟩
  signs := by
    intro b hb
    obtain hb | hb := List.mem_append.mp hb
    · obtain rfl | hb := List.mem_cons.mp hb
      · decide
      · rw [List.mem_singleton.mp hb]
        exact ⟨(plain_printable hc).1, hsigns⟩
    · obtain ⟨n, hn, rfl⟩ := exists_of_mem_hexes hb
      obtain ⟨hplain, -, hrest⟩ := lowerhex_spec hn
      exact ⟨(plain_printable hplain).1, hrest⟩
  skipped := hskip

theorem escape_x (r : Nat) : Escape ([92, 120] ++ hexes 2 r) :=
  escape_hexes (by decide) (by decide)
    (skipped_x (fun _ hb => exists_of_mem_hexes hb) (length_hexes 2 r))

theorem escape_u (r : Nat) : Escape ([92, 117] ++ hexes 4 r) :=
  escape_hexes (by decide) (by decide)
    (skipped_u (fun _ hb => exists_of_mem_hexes hb) (length_hexes 4 r))

theorem escape_upper (r : Nat) : Escape ([92, 85] ++ hexes 8 r) := by
  refine escape_hexes (by decide) (by decide) ?_
  refine (skipped_escape (by decide) (by decide) (by decide) (by decide)).append ?_
  refine skipped_of_plain fun b hb => ?_
  obtain ⟨n, hn, rfl⟩ := exists_of_mem_hexes hb
  exact (lowerhex_spec hn).1

theorem escape_letter {c : UInt8} (hc : c ∈ [34, 92, 97, 98, 102, 110, 114, 116, 118]) :
    Escape [92, c] := by
  have hall : ∀ c ∈ ([34, 92, 97, 98, 102, 110, 114, 116, 118] : GoString),
      (c < 0x80 ∧ isLineTerminator c.toNat = false ∧ c.toNat ≠ 120 ∧ c.toNat ≠ 117)
        ∧ 0x20 ≤ c ∧ c ≠ 60 ∧ c ≠ 45 ∧ c ≠ 47 ∧ c ≠ 62 :=
    forall_mem_of_all (by decide +kernel)
  obtain ⟨⟨hascii, hline, hx, hu⟩, hsigns⟩ := hall c hc
  refine ⟨⟨92, [c], rfl, by decide⟩, fun b hb => ?_, skipped_escape hascii hline hx hu⟩
  obtain rfl | hb := List.mem_cons.mp hb
  · decide
  · rw [List.mem_singleton.mp hb]
    exact hsigns

/-- The table of `IsPrint` holds no line terminator. -/
def PrintTable (table : Rune → Bool) : Prop := table 0x2028 = false ∧ table 0x2029 = false

theorem escape_encodeRune {table : Rune → Bool} (htable : PrintTable table) {r : Nat}
    (hlow : 0x80 ≤ r) (hprint : table r = true) : Escape (encodeRune r) := by
  have hhigh : ∀ b ∈ encodeRune r, 0x80 ≤ b := by
    intro b hb
    rw [UInt8.le_iff_toNat_le]
    refine Nat.not_lt.mp fun hlt => ?_
    have heq := eq_of_mem_encodeRune hlt hb
    rw [heq] at hlow
    exact absurd hlt (Nat.not_lt.mpr hlow)
  have hbyte : ∀ b : UInt8, 0x80 ≤ b →
      isPlain b = false ∧ 0x20 ≤ b ∧ b ≠ 60 ∧ b ≠ 45 ∧ b ≠ 47 ∧ b ≠ 62 :=
    forall_byte (by decide +kernel)
  have hline : isLineTerminator r = false := by
    have h8 : r ≠ 0x2028 := fun h => by rw [h, htable.1] at hprint; cases hprint
    have h9 : r ≠ 0x2029 := fun h => by rw [h, htable.2] at hprint; cases hprint
    have hsmall : r ≠ 10 ∧ r ≠ 13 := by omega
    simp [isLineTerminator, h8, h9, hsmall]
  refine ⟨?_, fun b hb => (hbyte b (hhigh b hb)).2, skipped_encodeRune hlow hline⟩
  cases hform : encodeRune r with
  | nil => exact absurd hform (encodeRune_ne_nil r)
  | cons b t => exact ⟨b, t, rfl, (hbyte b (hhigh b (hform ▸ List.mem_cons_self))).1⟩

/-- What is written for a rune that is not plain ASCII. -/
theorem escape_appendEscapedRune {table : Rune → Bool} (htable : PrintTable table) {r : Nat}
    (hplain : ∀ b : UInt8, b.toNat = r → isPlain b = false) :
    Escape (appendEscapedRune table r) := by
  unfold appendEscapedRune
  dsimp only [Rune]
  split
  · rename_i hr
    obtain rfl | rfl := hr
    · exact escape_letter (by decide)
    · exact escape_letter (by decide)
  rename_i hsign
  split
  · rename_i hprint
    unfold isPrint at hprint
    split at hprint
    · -- printable ASCII is plain
      rename_i hascii
      dsimp only [Rune] at hprint hascii
      have hbyte : (UInt8.ofNat r).toNat = r := toNat_ofNat_of_lt (by omega)
      have hno := hplain (UInt8.ofNat r) hbyte
      simp [isPlain, UInt8.le_iff_toNat_le, UInt8.lt_iff_toNat_lt, ← UInt8.toNat_inj, hbyte] at hno
      simp at hprint
      omega
    · rename_i hascii
      exact escape_encodeRune htable (Nat.not_lt.mp hascii) hprint
  split
  · rename_i c hletter
    have hmem : c ∈ ([34, 92, 97, 98, 102, 110, 114, 116, 118] : GoString) := by
      unfold escapeLetter at hletter
      repeat' split at hletter
      all_goals first | (cases hletter; decide) | cases hletter
    exact escape_letter hmem
  split
  · exact escape_x r
  split
  · exact escape_u runeError
  split
  · exact escape_u r
  · exact escape_upper r

/-- A rune beyond ASCII: its bytes and its value are. -/
theorem decodeRune_high {b : UInt8} (hb : ¬ b < 0x80) (s : GoString) :
    (∀ c ∈ s.take ((decodeRune (b :: s)).2 - 1), 0x80 ≤ c)
      ∧ ∀ r, (decodeRune (b :: s)).1 = some r → 0x80 ≤ r := by
  have hcont : ∀ {c : UInt8}, inRange c 0x80 0xBF = true → 0x80 ≤ c := fun hc =>
    UInt8.le_iff_toNat_le.mpr (inRange_iff.mp hc).1
  have h3 : ∀ {c d : UInt8}, second3 c d = true → 0x80 ≤ d := fun hc =>
    UInt8.le_iff_toNat_le.mpr (second3_bounds hc).2.2.1
  have h4 : ∀ {c d : UInt8}, second4 c d = true → 0x80 ≤ d := fun hc =>
    UInt8.le_iff_toNat_le.mpr (second4_bounds hc).2.2.1
  unfold decodeRune
  simp only [hb, if_false]
  split
  · exact ⟨by simp, fun r hr => by cases hr⟩
  split
  · rename_i b1 t htwo
    rw [Bool.and_eq_true] at htwo
    refine ⟨by simpa using hcont htwo.2, fun r hr => ?_⟩
    have hlead := (inRange_iff.mp htwo.1)
    cases hr
    simp only [UInt8.reduceToNat] at hlead
    dsimp only [Rune]
    omega
  split
  · exact ⟨by simp, fun r hr => by cases hr⟩
  split
  · rename_i b2 u hthree
    rw [Bool.and_eq_true] at hthree
    refine ⟨?_, fun r hr => ?_⟩
    · simpa using ⟨h3 hthree.1, hcont hthree.2⟩
    · have hlead := second3_bounds hthree.1
      cases hr
      unfold contBits
      dsimp only [Rune]
      omega
  split
  · exact ⟨by simp, fun r hr => by cases hr⟩
  split
  · rename_i b3 v hfour
    rw [Bool.and_eq_true, Bool.and_eq_true] at hfour
    refine ⟨?_, fun r hr => ?_⟩
    · simpa using ⟨h4 hfour.1.1, hcont hfour.1.2, hcont hfour.2⟩
    · have hlead := second4_bounds hfour.1.1
      cases hr
      unfold contBits
      dsimp only [Rune]
      omega
  · exact ⟨by simp, fun r hr => by cases hr⟩

theorem quoted_quoteBody {table : Rune → Bool} (htable : PrintTable table) (s : GoString) :
    Quoted s (quoteBody table s) := by
  have hhigh : ∀ c : UInt8, 0x80 ≤ c → isPlain c = false :=
    forall_byte (by decide +kernel)
  fun_induction quoteBody table s with
  | case1 => exact .nil
  | case2 b s ih =>
    by_cases hb : b < 0x80
    · have hdecode : decodeRune (b :: s) = (some b.toNat, 1) := by
        rw [decodeRune.eq_def]
        exact if_pos hb
      rw [hdecode] at ih ⊢
      dsimp only at ih ⊢
      by_cases hplain : isPlain b = true
      · have hwrite : appendEscapedRune table b.toNat = [b] := by
          obtain ⟨hascii, h34, h92, -⟩ := plain_spec hplain
          have hlt : b.toNat < 0x80 := UInt8.lt_iff_toNat_lt.mp hascii
          have hprint : (0x20 ≤ b.toNat && b.toNat < 0x7F) = true := by
            obtain ⟨hlow, hhigh⟩ := plain_printable hplain
            rw [UInt8.le_iff_toNat_le] at hlow
            rw [UInt8.lt_iff_toNat_lt] at hhigh
            simpa using ⟨hlow, hhigh⟩
          rw [appendEscapedRune, if_neg (by simp [h34, h92]), isPrint, if_pos hlt, if_pos hprint,
            encodeRune, if_pos hlt, UInt8.ofNat_toNat]
        rw [hwrite]
        exact .plain hplain ih
      · refine @Quoted.escape [b] _ _ _ (by simp) (by simpa using hplain) ?_ ih
        refine escape_appendEscapedRune htable fun c hc => ?_
        rw [UInt8.toNat_inj.mp hc]
        exact Bool.eq_false_iff.mpr hplain
    · obtain ⟨hbytes, hrune⟩ := decodeRune_high hb s
      generalize decodeRune (b :: s) = d at *
      have hw : ∀ c ∈ b :: s.take (d.2 - 1), isPlain c = false := by
        intro c hc
        obtain rfl | hc := List.mem_cons.mp hc
        · exact hhigh c (UInt8.not_lt.mp hb)
        · exact hhigh c (hbytes c hc)
      have hsplit : b :: s = (b :: s.take (d.2 - 1)) ++ s.drop (d.2 - 1) := by
        rw [List.cons_append, List.take_append_drop]
      rw [hsplit]
      refine Quoted.escape (List.cons_ne_nil _ _) hw ?_ ih
      cases hd : d.1 with
      | none => exact escape_x b.toNat
      | some r =>
        refine escape_appendEscapedRune htable fun c hc => hhigh c ?_
        rw [UInt8.le_iff_toNat_le, hc]
        exact hrune r hd

theorem Quoted.printable {s q : GoString} (h : Quoted s q) : ∀ b ∈ q, 0x20 ≤ b := by
  induction h with
  | nil => exact fun b hb => absurd hb List.not_mem_nil
  | plain hb _ ih =>
    refine List.forall_mem_cons.mpr ⟨?_, ih⟩
    exact (plain_printable hb).1
  | escape _ _ he _ ih => exact List.forall_mem_append.mpr ⟨fun b hb => (he.signs b hb).1, ih⟩

/-- A sign that is not in a string is not in its quoted form. -/
theorem Quoted.notMem {s q : GoString} (h : Quoted s q) {c : UInt8} (hc : c = 60 ∨ c = 62)
    (hs : c ∉ s) : c ∉ q := by
  induction h with
  | nil => exact List.not_mem_nil
  | plain _ _ ih =>
    rw [List.mem_cons, not_or] at hs ⊢
    exact ⟨hs.1, ih hs.2⟩
  | escape _ _ he _ ih =>
    rw [List.mem_append, not_or] at hs ⊢
    refine ⟨fun hmem => ?_, ih hs.2⟩
    obtain rfl | rfl := hc
    · exact (he.signs 60 hmem).2.1 rfl
    · exact (he.signs 62 hmem).2.2.2.2 rfl

end Strconv

end RbiProxy
