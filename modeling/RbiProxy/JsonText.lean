import RbiProxy.GoUtf8
import RbiProxy.JsonLex

/-!
# The strings of a JSON text

`unquote` gives the text that the body of a string stands for, `quoteBody` is
the body that `encoding/json` writes for a text (with the escapes for HTML, which
are on by default). What is written is one string of the text, and reads back as
what it was, up to bytes that are no UTF-8 (`feeds_quoteBody`,
`unquote_quoteBody`).

An escape weighs more than what it stands for, so a body with an escape is
heavier than its text (`weight_unquote`).
-/

namespace RbiProxy

namespace Json

/-! ## Reading -/

/-- A code point, or a code unit of UTF-16 from `\u`. -/
inductive Chunk where
  | rune (r : Rune)
  | unit (u : Nat)

def hexValue (r : Rune) : Nat :=
  if 97 ≤ r then r - 87 else if 65 ≤ r then r - 55 else r - 48

/-- What stands for itself behind a backslash, and what does not. -/
def escapedRune (r : Rune) : Rune :=
  if r = 98 then 8 else if r = 102 then 12 else if r = 110 then 10
  else if r = 114 then 13 else if r = 116 then 9 else r

/-- The escapes of a body. Its last rune is no backslash, and `\u` is followed by
four digits: the scanner has seen to it. -/
def chunks : List Rune → List Chunk
  | 92 :: 117 :: a :: b :: c :: d :: rs =>
    .unit (hexValue a * 4096 + hexValue b * 256 + hexValue c * 16 + hexValue d) :: chunks rs
  | 92 :: e :: rs => .rune (escapedRune e) :: chunks rs
  | [92] => []
  | r :: rs => .rune r :: chunks rs
  | [] => []

def isSurrogate (u : Nat) : Bool := 0xD800 ≤ u && u < 0xE000

/-- `utf16.DecodeRune`, if the two are a pair. -/
def surrogatePair (u v : Nat) : Option Rune :=
  if 0xD800 ≤ u ∧ u < 0xDC00 ∧ 0xDC00 ≤ v ∧ v < 0xE000 then
    some ((u - 0xD800) * 1024 + (v - 0xDC00) + 0x10000)
  else none

def unitRune (u : Nat) : Rune := if isSurrogate u then runeError else u

/-- Pairs of surrogates are put together; the first argument is a code unit that
may be the first of a pair. -/
def joinChunks : Option Nat → List Chunk → List Rune
  | none, [] => []
  | none, .rune r :: cs => r :: joinChunks none cs
  | none, .unit u :: cs => joinChunks (some u) cs
  | some u, [] => [unitRune u]
  | some u, .rune r :: cs => unitRune u :: r :: joinChunks none cs
  | some u, .unit v :: cs =>
    match surrogatePair u v with
    | some r => r :: joinChunks none cs
    | none => unitRune u :: joinChunks (some v) cs

def unquote (raw : GoString) : GoString := (joinChunks none (chunks (runes raw))).flatMap encodeRune

/-! ## Measures of runes -/

/-- A measure of bytes that counts ASCII only, as one of runes. -/
def onRune (f : UInt8 → Nat) (r : Rune) : Nat := if r < 0x80 then f (UInt8.ofNat r) else 0

def runeTotal (f : UInt8 → Nat) (rs : List Rune) : Nat := (rs.map (onRune f)).sum

/-- The measure counts no byte of a longer sequence. -/
def AsciiOnly (f : UInt8 → Nat) : Prop := ∀ b, 0x80 ≤ b → f b = 0

variable {f : UInt8 → Nat}

theorem total_high {s : GoString} (hf : AsciiOnly f) (h : ∀ b ∈ s, 0x80 ≤ b) : total f s = 0 :=
  total_eq_zero_iff.mpr fun b hb => hf b (h b hb)

theorem le_ofNat {n : Nat} (hlow : 0x80 ≤ n) (hhigh : n < 256) : 0x80 ≤ UInt8.ofNat n := by
  rw [UInt8.le_iff_toNat_le, toNat_ofNat_of_lt hhigh]
  exact hlow

theorem total_encodeRune (hf : AsciiOnly f) (r : Rune) : total f (encodeRune r) = onRune f r := by
  unfold encodeRune onRune
  dsimp only [Rune] at r ⊢
  by_cases h1 : r < 0x80
  · rw [if_pos h1, if_pos h1]
    rfl
  rw [if_neg h1, if_neg h1]
  refine total_high hf fun b hb => ?_
  split at hb
  · simp only [List.mem_cons, List.not_mem_nil, or_false] at hb
    rcases hb with rfl | rfl
    · exact le_ofNat (by omega) (by omega)
    · exact le_ofNat (by omega) (by omega)
  · split at hb
    · have hall : ([0xEF, 0xBF, 0xBD] : GoString).all (0x80 ≤ ·) = true := by decide
      simpa using List.all_eq_true.mp hall b hb
    · rename_i h2 h3
      split at hb
      · simp only [List.mem_cons, List.not_mem_nil, or_false] at hb
        rcases hb with rfl | rfl | rfl
        · exact le_ofNat (by omega) (by omega)
        · exact le_ofNat (by omega) (by omega)
        · exact le_ofNat (by omega) (by omega)
      · simp only [List.mem_cons, List.not_mem_nil, or_false] at hb
        rcases hb with rfl | rfl | rfl | rfl
        · exact le_ofNat (by omega) (by omega)
        · exact le_ofNat (by omega) (by omega)
        · exact le_ofNat (by omega) (by omega)
        · exact le_ofNat (by omega) (by omega)

/-- The second byte of a three-byte sequence, and what the first two say of the
rune. -/
theorem second3_high {b0 b1 : UInt8} (h : second3 b0 b1 = true) :
    0x80 ≤ b1.toNat ∧ 0x800 ≤ b0.toNat % 0x10 * 0x1000 + contBits b1 * 0x40 := by
  have hb := second3_bounds h
  unfold contBits
  omega

theorem second4_high {b0 b1 : UInt8} (h : second4 b0 b1 = true) :
    0x80 ≤ b1.toNat ∧ 0x10000 ≤ b0.toNat % 8 * 0x40000 + contBits b1 * 0x1000 := by
  have hb := second4_bounds h
  unfold contBits
  omega

theorem onRune_high {r : Nat} (h : 0x80 ≤ r) : onRune f r = 0 := if_neg (Nat.not_lt.mpr h)

theorem runeTotal_cons (f : UInt8 → Nat) (r : Rune) (rs : List Rune) :
    runeTotal f (r :: rs) = onRune f r + runeTotal f rs := rfl

theorem AsciiOnly.of_toNat (hf : AsciiOnly f) {b : UInt8} (h : 0x80 ≤ b.toNat) : f b = 0 :=
  hf b (UInt8.le_iff_toNat_le.mpr h)

theorem AsciiOnly.of_not_lt (hf : AsciiOnly f) {b : UInt8} (h : ¬ b < 0x80) : f b = 0 :=
  hf b (UInt8.not_lt.mp h)

theorem AsciiOnly.cont (hf : AsciiOnly f) {b : UInt8} (h : inRange b 0x80 0xBF = true) :
    f b = 0 :=
  hf.of_toNat (inRange_iff.mp h).1

theorem onRune_toNat {b : UInt8} (h : b < 0x80) : onRune f b.toNat = f b := by
  have hlt : b.toNat < 0x80 := UInt8.lt_iff_toNat_lt.mp h
  rw [onRune, if_pos hlt, UInt8.ofNat_toNat]

/-- A byte that starts no sequence counts for nothing, and so does what it is
read as. -/
theorem onRune_runeError : onRune f runeError = 0 := onRune_high (by decide)

/-- The measure of a text is that of its runes. -/
theorem runeTotal_runes (hf : AsciiOnly f) (s : GoString) : runeTotal f (runes s) = total f s := by
  fun_induction runes s with
  | case1 => rfl
  | case2 b =>
      rw [runeTotal_cons, total_cons]
      split
      · rename_i hlow
        rw [onRune_toNat hlow]
        rfl
      · rename_i hlow
        rw [onRune_runeError, hf.of_not_lt hlow]
        rfl
  | case3 b0 b1 t hlow ih => rw [runeTotal_cons, total_cons, onRune_toNat hlow, ih]
  | case4 b0 b1 t hhigh hseq ih =>
      rw [Bool.and_eq_true] at hseq
      have hb0 := inRange_iff.mp hseq.1
      simp only [UInt8.reduceToNat] at hb0
      rw [runeTotal_cons, total_cons, total_cons, onRune_high (by unfold contBits; omega), ih,
        hf.of_not_lt hhigh, hf.cont hseq.2]
      omega
  | case5 b0 b1 hhigh hno b2 v hseq ih =>
      rw [Bool.and_eq_true] at hseq
      obtain ⟨hb1, hval⟩ := second3_high hseq.1
      rw [runeTotal_cons, total_cons, total_cons, total_cons, onRune_high (by omega), ih,
        hf.of_not_lt hhigh, hf.of_toNat hb1, hf.cont hseq.2]
      omega
  | case6 b0 b1 hhigh hno b2 hno3 b3 v hseq ih =>
      rw [Bool.and_eq_true, Bool.and_eq_true] at hseq
      obtain ⟨hb1, hval⟩ := second4_high hseq.1.1
      rw [runeTotal_cons, total_cons, total_cons, total_cons, total_cons, onRune_high (by omega), ih,
        hf.of_not_lt hhigh, hf.of_toNat hb1, hf.cont hseq.1.2, hf.cont hseq.2]
      omega
  | case7 b0 b1 hhigh hno b2 hno3 b3 v hno4 ih =>
      rw [runeTotal_cons, total_cons, onRune_runeError, hf.of_not_lt hhigh, ih]
  | case8 b0 b1 hhigh hno b2 hno3 ih =>
      rw [runeTotal_cons, total_cons, onRune_runeError, hf.of_not_lt hhigh, ih]
  | case9 b0 b1 hhigh hno ih =>
      rw [runeTotal_cons, total_cons, onRune_runeError, hf.of_not_lt hhigh, ih]

theorem total_flatMap_encodeRune (hf : AsciiOnly f) (rs : List Rune) :
    total f (rs.flatMap encodeRune) = runeTotal f rs := by
  induction rs with
  | nil => rfl
  | cons r rs ih =>
      rw [List.flatMap_cons, total_append, total_encodeRune hf, ih, runeTotal_cons]

theorem total_jsonText (hf : AsciiOnly f) (s : GoString) : total f (jsonText s) = total f s := by
  rw [jsonText, total_flatMap_encodeRune hf, runeTotal_runes hf]

/-! ## Texts without escapes -/

theorem asciiOnly_of_all {f : UInt8 → Nat}
    (h : (List.range 128).all (fun n => f (UInt8.ofNat (128 + n)) == 0) = true) : AsciiOnly f := by
  intro b hb
  have hlow : 128 ≤ b.toNat := UInt8.le_iff_toNat_le.mp hb
  have hhigh := b.toNat_lt
  have hn := List.all_eq_true.mp h (b.toNat - 128) (List.mem_range.mpr (by omega))
  rw [show 128 + (b.toNat - 128) = b.toNat by omega, UInt8.ofNat_toNat] at hn
  exact of_decide_eq_true hn

theorem asciiOnly_byteWeight : AsciiOnly byteWeight := asciiOnly_of_all (by decide +kernel)

theorem asciiOnly_badByte : AsciiOnly badByte := asciiOnly_of_all (by decide +kernel)

def backslash (b : UInt8) : Nat := if b = 92 then 1 else 0

theorem asciiOnly_backslash : AsciiOnly backslash := asciiOnly_of_all (by decide +kernel)

theorem onRune_backslash (r : Nat) : onRune backslash r = 0 ↔ r ≠ 92 := by
  unfold onRune backslash
  by_cases hlow : r < 0x80
  · have hbyte : UInt8.ofNat r = 92 ↔ r = 92 := by
      rw [← UInt8.toNat_inj, toNat_ofNat_of_lt (by omega)]
      rfl
    rw [if_pos hlow]
    by_cases h92 : r = 92
    · simp [h92]
    · rw [if_neg (mt hbyte.mp h92)]
      simp [h92]
  · rw [if_neg hlow]
    simp only [true_iff]
    omega

theorem runeTotal_backslash (rs : List Rune) : runeTotal backslash rs = 0 ↔ 92 ∉ rs := by
  induction rs with
  | nil => simp [runeTotal]
  | cons r rs ih =>
      rw [runeTotal_cons, Nat.add_eq_zero_iff, onRune_backslash, List.mem_cons, not_or]
      exact and_congr ⟨Ne.symm, Ne.symm⟩ ih

theorem total_backslash (s : GoString) : total backslash s = 0 ↔ 92 ∉ s := by
  rw [total_eq_zero_iff]
  constructor
  · intro h hmem
    exact absurd (h 92 hmem) (by decide)
  · intro h b hb
    refine if_neg ?_
    rintro rfl
    exact h hb

theorem backslash_notMem_iff (s : GoString) : (92 : UInt8) ∉ s ↔ (92 : Rune) ∉ runes s := by
  rw [← total_backslash, ← runeTotal_backslash, runeTotal_runes asciiOnly_backslash]

theorem chunks_cons {r : Rune} (hr : r ≠ 92) (rs : List Rune) :
    chunks (r :: rs) = .rune r :: chunks rs := by
  rw [chunks]
  · exact fun _ _ _ _ _ h _ => hr h
  · exact fun _ _ h _ => hr h
  · exact fun h _ => hr h

theorem chunks_of_notMem {rs : List Rune} (h : 92 ∉ rs) : chunks rs = rs.map .rune := by
  induction rs with
  | nil => rfl
  | cons r rs ih =>
      rw [List.mem_cons, not_or] at h
      rw [chunks_cons (Ne.symm h.1), ih h.2]
      rfl

theorem joinChunks_runes (rs : List Rune) (cs : List Chunk) :
    joinChunks none (rs.map .rune ++ cs) = rs ++ joinChunks none cs := by
  induction rs with
  | nil => rfl
  | cons r rs ih =>
      rw [List.map_cons, List.cons_append, joinChunks, ih]
      rfl

/-- A body without escapes stands for itself, up to bytes that are no UTF-8. -/
theorem unquote_of_notMem {raw : GoString} (h : 92 ∉ raw) : unquote raw = jsonText raw := by
  have hjoin := joinChunks_runes (runes raw) []
  rw [List.append_nil] at hjoin
  rw [unquote, chunks_of_notMem ((backslash_notMem_iff raw).mp h), hjoin, joinChunks, List.append_nil,
    jsonText]

theorem Plain.notMem {s : GoString} (h : Plain s) : 92 ∉ s := fun hmem =>
  absurd (h 92 hmem) (by decide)

theorem unquote_plain {s : GoString} (h : Plain s) (hs : Utf8 s) : unquote s = s :=
  (unquote_of_notMem h.notMem).trans hs

theorem plain_jsonText_iff {s : GoString} : Plain (jsonText s) ↔ Plain s := by
  rw [plain_iff, plain_iff, total_jsonText asciiOnly_badByte]

/-! ## Escapes weigh -/

/-- At most what a chunk may become. -/
def Chunk.weight : Chunk → Nat
  | .rune r => onRune byteWeight r
  | .unit _ => 2

def chunksWeight (cs : List Chunk) : Nat := (cs.map Chunk.weight).sum

theorem byteWeight_le (b : UInt8) : byteWeight b ≤ 2 := by
  unfold byteWeight
  split
  · exact Nat.le_refl 2
  · split
    · exact Nat.le_succ 1
    · exact Nat.zero_le 2

theorem onRune_weight_le (r : Rune) : onRune byteWeight r ≤ 2 := by
  unfold onRune
  split
  · exact byteWeight_le _
  · exact Nat.zero_le 2

theorem runeTotal_joinChunks (cs : List Chunk) :
    runeTotal byteWeight (joinChunks none cs) ≤ chunksWeight cs
      ∧ ∀ u, runeTotal byteWeight (joinChunks (some u) cs) ≤ 2 + chunksWeight cs := by
  induction cs with
  | nil =>
      refine ⟨Nat.le_refl _, fun u => ?_⟩
      rw [joinChunks, runeTotal_cons]
      exact Nat.add_le_add_right (onRune_weight_le _) _
  | cons c cs ih =>
      obtain ⟨hnone, hsome⟩ := ih
      cases c with
      | rune r =>
          have hcons : chunksWeight (.rune r :: cs) = onRune byteWeight r + chunksWeight cs := rfl
          refine ⟨?_, fun u => ?_⟩
          · rw [joinChunks, runeTotal_cons, hcons]
            omega
          · have hu := onRune_weight_le (unitRune u)
            rw [joinChunks, runeTotal_cons, runeTotal_cons, hcons]
            omega
      | unit v =>
          have hcons : chunksWeight (.unit v :: cs) = 2 + chunksWeight cs := rfl
          refine ⟨?_, fun u => ?_⟩
          · rw [joinChunks, hcons]
            exact hsome v
          · rw [joinChunks, hcons]
            split
            · rename_i r _
              have hr := onRune_weight_le r
              rw [runeTotal_cons]
              omega
            · have hu := onRune_weight_le (unitRune u)
              have hv := hsome v
              rw [runeTotal_cons]
              omega

theorem onRune_escapedRune (e : Nat) :
    onRune byteWeight (escapedRune e) ≤ 1 + onRune byteWeight e := by
  unfold escapedRune
  split_ifs
  all_goals first
    | exact Nat.le_add_left _ _
    | exact (show _ ≤ 1 by decide +kernel).trans (Nat.le_add_right _ _)

/-- An escape weighs more than the chunk it is read as. -/
theorem chunksWeight_chunks (rs : List Rune) :
    chunksWeight (chunks rs) ≤ runeTotal byteWeight rs
      ∧ (92 ∈ rs → chunksWeight (chunks rs) < runeTotal byteWeight rs) := by
  have hback : onRune byteWeight 92 = 2 := by decide
  have hu : onRune byteWeight 117 = 1 := by decide
  fun_induction chunks rs with
  | case1 a b c d rs ih =>
      have hlt : chunksWeight
            (.unit (hexValue a * 4096 + hexValue b * 256 + hexValue c * 16 + hexValue d)
              :: chunks rs)
          < runeTotal byteWeight (92 :: 117 :: a :: b :: c :: d :: rs) := by
        simp only [runeTotal_cons, hback, hu, chunksWeight, List.map_cons, List.sum_cons,
          Chunk.weight]
        have := ih.1
        simp only [chunksWeight] at this
        omega
      exact ⟨hlt.le, fun _ => hlt⟩
  | case2 e rs hno ih =>
      have hlt : chunksWeight (.rune (escapedRune e) :: chunks rs)
          < runeTotal byteWeight (92 :: e :: rs) := by
        have he := onRune_escapedRune e
        have := ih.1
        simp only [chunksWeight] at this
        simp only [runeTotal_cons, hback, chunksWeight, List.map_cons, List.sum_cons,
          Chunk.weight]
        omega
      exact ⟨hlt.le, fun _ => hlt⟩
  | case3 => exact ⟨by decide, fun _ => by decide⟩
  | case4 r rs h1 h2 h3 ih =>
      have hr : r ≠ 92 := by
        rintro rfl
        cases rs with
        | nil => exact h3 rfl rfl
        | cons e es => exact h2 e es rfl rfl
      have hcons : chunksWeight (.rune r :: chunks rs)
          = onRune byteWeight r + chunksWeight (chunks rs) := rfl
      rw [hcons, runeTotal_cons, List.mem_cons]
      refine ⟨Nat.add_le_add_left ih.1 _, ?_⟩
      rintro (heq | hmem)
      · exact absurd heq.symm hr
      · exact Nat.add_lt_add_left (ih.2 hmem) _
  | case5 => exact ⟨Nat.le_refl _, fun h => absurd h List.not_mem_nil⟩

theorem weight_unquote {raw : GoString} (h : 92 ∈ raw) : weight (unquote raw) < weight raw := by
  have hrunes : 92 ∈ runes raw := by
    by_contra hno
    exact (backslash_notMem_iff raw).mpr hno h
  have hlt := (chunksWeight_chunks (runes raw)).2 hrunes
  have hle := (runeTotal_joinChunks (chunks (runes raw))).1
  rw [weight, weight, unquote, total_flatMap_encodeRune asciiOnly_byteWeight,
    ← runeTotal_runes asciiOnly_byteWeight raw]
  omega

/-! ## Writing -/

def hexDigit (n : Nat) : UInt8 := if n < 10 then UInt8.ofNat (48 + n) else UInt8.ofNat (87 + n)

/-- `\u` with four digits. -/
def unicodeEscape (r : Rune) : GoString :=
  [92, 117, hexDigit (r / 4096 % 16), hexDigit (r / 256 % 16), hexDigit (r / 16 % 16),
    hexDigit (r % 16)]

/-- The runes that are written with their number: control characters, what HTML
gives a meaning to, and the line separators of JavaScript. -/
def isNumbered (r : Rune) : Bool :=
  decide (r < 32) || r == 60 || r == 62 || r == 38 || r == 0x2028 || r == 0x2029

def quoteRune (r : Rune) : GoString :=
  if r = 34 then [92, 34]
  else if r = 92 then [92, 92]
  else if r = 10 then [92, 110]
  else if r = 13 then [92, 114]
  else if r = 9 then [92, 116]
  else if isNumbered r then unicodeEscape r
  else encodeRune r

/-- The body of the string that is written for a text of valid UTF-8. -/
def quoteBody (s : GoString) : GoString := (runes s).flatMap quoteRune

def quote (s : GoString) : GoString := 34 :: quoteBody s ++ [34]

/-- A byte of ASCII in front of a text is read first. -/
theorem runes_cons {b : UInt8} (h : b < 0x80) (s : GoString) :
    runes (b :: s) = b.toNat :: runes s := runes_ascii h s

theorem hexDigit_spec {n : Nat} (h : n < 16) :
    isHex (hexDigit n) = true ∧ hexDigit n < 0x80 ∧ hexValue (hexDigit n).toNat = n := by
  have hall : ∀ n : Fin 16, isHex (hexDigit n) = true ∧ hexDigit n < 0x80
      ∧ hexValue (hexDigit n).toNat = n.1 := by decide
  exact hall ⟨n, h⟩

theorem joinChunks_unit {u : Nat} (hu : isSurrogate u = false) (cs : List Chunk) :
    joinChunks (some u) cs = u :: joinChunks none cs := by
  have hrune : unitRune u = u := by rw [unitRune, hu]; rfl
  cases cs with
  | nil => simp only [joinChunks, hrune]
  | cons c cs =>
      cases c with
      | rune r => simp only [joinChunks, hrune]
      | unit v =>
          have hpair : surrogatePair u v = none := by
            refine if_neg fun hp => ?_
            simp [isSurrogate] at hu
            omega
          simp only [joinChunks, hpair, hrune]

theorem isNumbered_lt {r : Nat} (h : isNumbered r = true) : r < 0xD800 := by
  unfold isNumbered at h
  dsimp only [Rune] at h
  simp only [Bool.or_eq_true, decide_eq_true_eq, beq_iff_eq] at h
  omega

/-- What is written for a rune reads back as that rune. -/
theorem chunks_quoteRune (r : Nat) (t : GoString) :
    ∃ r', encodeRune r' = encodeRune r
      ∧ joinChunks none (chunks (runes (quoteRune r ++ t)))
        = r' :: joinChunks none (chunks (runes t)) := by
  unfold quoteRune
  by_cases h34 : r = 34
  · subst h34
    exact ⟨34, rfl, by simp [runes_cons, chunks, escapedRune, joinChunks]⟩
  by_cases h92 : r = 92
  · subst h92
    exact ⟨92, rfl, by simp [runes_cons, chunks, escapedRune, joinChunks]⟩
  by_cases h10 : r = 10
  · subst h10
    exact ⟨10, rfl, by simp [runes_cons, chunks, escapedRune, joinChunks]⟩
  by_cases h13 : r = 13
  · subst h13
    exact ⟨13, rfl, by simp [runes_cons, chunks, escapedRune, joinChunks]⟩
  by_cases h9 : r = 9
  · subst h9
    exact ⟨9, rfl, by simp [runes_cons, chunks, escapedRune, joinChunks]⟩
  rw [if_neg h34, if_neg h92, if_neg h10, if_neg h13, if_neg h9]
  by_cases hnum : isNumbered r = true
  · refine ⟨r, rfl, ?_⟩
    have hr := isNumbered_lt hnum
    obtain ⟨-, ha, hva⟩ := hexDigit_spec (n := r / 4096 % 16) (by omega)
    obtain ⟨-, hb, hvb⟩ := hexDigit_spec (n := r / 256 % 16) (by omega)
    obtain ⟨-, hc, hvc⟩ := hexDigit_spec (n := r / 16 % 16) (by omega)
    obtain ⟨-, hd, hvd⟩ := hexDigit_spec (n := r % 16) (by omega)
    have hval : r / 4096 % 16 * 4096 + r / 256 % 16 * 256 + r / 16 % 16 * 16 + r % 16 = r := by
      omega
    have hsur : isSurrogate r = false := by
      simp [isSurrogate]
      omega
    rw [if_pos hnum, unicodeEscape]
    simp only [List.cons_append, List.nil_append]
    rw [runes_cons (by decide), runes_cons (by decide), runes_cons ha, runes_cons hb,
      runes_cons hc, runes_cons hd]
    change joinChunks none (chunks (92 :: 117 :: _)) = _
    rw [chunks, hva, hvb, hvc, hvd, hval, joinChunks, joinChunks_unit hsur]
  · rw [if_neg hnum, runes_encodeRune]
    have hcanon : canonRune r ≠ 92 := by
      unfold canonRune
      split
      · decide
      · exact h92
    refine ⟨canonRune r, encodeRune_canonRune r, ?_⟩
    rw [chunks_cons hcanon, joinChunks]

/-- What is written for a text reads back as the text. -/
theorem unquote_quoteBody (s : GoString) : unquote (quoteBody s) = jsonText s := by
  have hall : ∀ rs : List Rune, (joinChunks none (chunks (runes (rs.flatMap quoteRune)))).flatMap
      encodeRune = rs.flatMap encodeRune := by
    intro rs
    induction rs with
    | nil => simp [runes, chunks, joinChunks]
    | cons r rs ih =>
        obtain ⟨r', henc, hjoin⟩ := chunks_quoteRune r (rs.flatMap quoteRune)
        rw [List.flatMap_cons, hjoin, List.flatMap_cons, henc, ih, List.flatMap_cons]
  exact hall (runes s)

theorem plain_encodeRune {r : Nat} (h34 : r ≠ 34) (h92 : r ≠ 92) (hlow : ¬ r < 32) :
    Plain (encodeRune r) := by
  rw [plain_iff, total_encodeRune asciiOnly_badByte, onRune]
  split
  · rename_i hascii
    have hbyte := toNat_ofNat_of_lt (n := r) (by have : r < 128 := hascii; omega)
    refine if_pos ?_
    simp only [isPlain, Bool.not_eq_true', Bool.or_eq_false_iff, beq_eq_false_iff_ne,
      decide_eq_false_iff_not, ne_eq, ← UInt8.toNat_inj, UInt8.lt_iff_toNat_lt, hbyte,
      UInt8.reduceToNat]
    exact ⟨⟨h34, h92⟩, hlow⟩
  · rfl

theorem feeds_hex (ds : GoString) {k : Nat} (hds : ∀ d ∈ ds, isHex d = true)
    (hlen : ds.length = k + 1) (raw : GoString) :
    Feeds (.hex k raw) ds [] (.body (raw ++ ds)) := by
  induction ds generalizing k raw with
  | nil => cases hlen
  | cons d ds ih =>
      obtain ⟨hd, hrest⟩ := List.forall_mem_cons.mp hds
      cases k with
      | zero =>
          obtain rfl : ds = [] := List.length_eq_zero_iff.mp (Nat.succ.inj hlen)
          refine feeds_cons_iff.mpr ⟨[], _, [], ?_, feeds_nil _, rfl⟩
          rw [LexState.next, if_pos hd]
      | succ k =>
          have hnext := ih hrest (Nat.succ.inj hlen) (raw ++ [d])
          rw [List.append_assoc] at hnext
          refine feeds_cons_iff.mpr ⟨[], _, [], ?_, hnext, rfl⟩
          rw [LexState.next, if_pos hd]

/-- What is written for a rune stays within the string. -/
theorem feeds_quoteRune (r : Nat) (raw : GoString) :
    Feeds (.body raw) (quoteRune r) [] (.body (raw ++ quoteRune r)) := by
  have htwo : ∀ c : UInt8, escapes.contains c = true →
      Feeds (.body raw) [92, c] [] (.body (raw ++ [92, c])) := by
    intro c hc
    have hesc : (LexState.escape (raw ++ [92])).next c = some ([], .body (raw ++ [92] ++ [c])) := by
      rw [LexState.next, if_pos hc]
    rw [List.append_assoc] at hesc
    exact feeds_cons_iff.mpr ⟨[], _, [], rfl,
      feeds_cons_iff.mpr ⟨[], _, [], hesc, feeds_nil _, rfl⟩, rfl⟩
  unfold quoteRune
  split_ifs with h34 h92 h10 h13 h9 hnum
  · exact htwo 34 (by decide)
  · exact htwo 92 (by decide)
  · exact htwo 110 (by decide)
  · exact htwo 114 (by decide)
  · exact htwo 116 (by decide)
  · have hr := isNumbered_lt hnum
    have hdigits := feeds_hex (k := 3) [hexDigit (r / 4096 % 16), hexDigit (r / 256 % 16),
      hexDigit (r / 16 % 16), hexDigit (r % 16)] ?_ rfl (raw ++ [92] ++ [117])
    · have hraw : raw ++ [92] ++ [117] ++ [hexDigit (r / 4096 % 16), hexDigit (r / 256 % 16),
          hexDigit (r / 16 % 16), hexDigit (r % 16)] = raw ++ unicodeEscape r := by
        simp [unicodeEscape]
      rw [hraw] at hdigits
      exact feeds_cons_iff.mpr ⟨[], _, [], rfl, feeds_cons_iff.mpr ⟨[], _, [], rfl, hdigits, rfl⟩,
        rfl⟩
    · simp only [List.forall_mem_cons]
      refine ⟨(hexDigit_spec ?_).1, (hexDigit_spec ?_).1, (hexDigit_spec ?_).1,
        (hexDigit_spec ?_).1, by simp⟩
      all_goals omega
  · refine feeds_plain (plain_encodeRune h34 h92 fun hlow => hnum ?_) raw
    simp [isNumbered, hlow]

theorem feeds_quoteBody (s raw : GoString) :
    Feeds (.body raw) (quoteBody s) [] (.body (raw ++ quoteBody s)) := by
  unfold quoteBody
  generalize runes s = rs
  induction rs generalizing raw with
  | nil =>
      rw [List.flatMap_nil, List.append_nil]
      exact feeds_nil _
  | cons r rs ih =>
      rw [List.flatMap_cons, ← List.append_assoc]
      exact (feeds_quoteRune r raw).append (ih _)

theorem feeds_quote (s : GoString) : Feeds .start (quote s) [.string (quoteBody s)] .start := by
  have hopen : Feeds .start [34] [] (.body []) := rfl
  have hclose : Feeds (.body (quoteBody s)) [34] [.string (quoteBody s)] .start := rfl
  exact (hopen.append (feeds_quoteBody s [])).append hclose

end Json

end RbiProxy
