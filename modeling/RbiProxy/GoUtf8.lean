import RbiProxy.GoString

/-!
# UTF-8 and JSON text

Reading back what `encodeRune` writes (`runes_encodeRune`), and from it what
`encoding/json` does to a string: the encoder writes U+FFFD for every byte
that starts no well-formed sequence, so a string that is saved and loaded
again is `jsonText` of itself. Once is enough (`jsonText_idem`), and the
result of `strings.ToLower` is left alone (`jsonText_toLower`).
-/

namespace RbiProxy

/-! ## One rune -/

theorem inRange_iff {b lo hi : UInt8} :
    inRange b lo hi = true ↔ lo.toNat ≤ b.toNat ∧ b.toNat ≤ hi.toNat := by
  simp [inRange, UInt8.le_iff_toNat_le]

theorem toNat_ofNat_of_lt {n : Nat} (h : n < 256) : (UInt8.ofNat n).toNat = n := by
  rw [UInt8.toNat_ofNat']
  exact Nat.mod_eq_of_lt h

/-- The first two bytes of a three-byte sequence. -/
theorem second3_bounds {b0 b1 : UInt8} (h : second3 b0 b1 = true) :
    0xE0 ≤ b0.toNat ∧ b0.toNat ≤ 0xEF ∧ 0x80 ≤ b1.toNat ∧ b1.toNat ≤ 0xBF
      ∧ (b0.toNat = 0xE0 → 0xA0 ≤ b1.toNat) ∧ (b0.toNat = 0xED → b1.toNat ≤ 0x9F) := by
  unfold second3 at h
  split at h
  · rename_i hb0
    have hlo := inRange_iff.mp h
    simp only [UInt8.reduceToNat] at hlo
    subst hb0
    simp only [UInt8.reduceToNat]
    omega
  split at h
  · rename_i hb0
    have hlo := inRange_iff.mp h
    simp only [UInt8.reduceToNat] at hlo
    subst hb0
    simp only [UInt8.reduceToNat]
    omega
  · rename_i hE0 hED
    have hne : b0.toNat ≠ 0xE0 ∧ b0.toNat ≠ 0xED :=
      ⟨fun heq => hE0 (UInt8.toNat_inj.mp heq), fun heq => hED (UInt8.toNat_inj.mp heq)⟩
    rw [Bool.and_eq_true, inRange_iff, inRange_iff] at h
    simp only [UInt8.reduceToNat] at h
    omega

/-- The first two bytes of a four-byte sequence. -/
theorem second4_bounds {b0 b1 : UInt8} (h : second4 b0 b1 = true) :
    0xF0 ≤ b0.toNat ∧ b0.toNat ≤ 0xF4 ∧ 0x80 ≤ b1.toNat ∧ b1.toNat ≤ 0xBF
      ∧ (b0.toNat = 0xF0 → 0x90 ≤ b1.toNat) ∧ (b0.toNat = 0xF4 → b1.toNat ≤ 0x8F) := by
  unfold second4 at h
  split at h
  · rename_i hb0
    have hlo := inRange_iff.mp h
    simp only [UInt8.reduceToNat] at hlo
    subst hb0
    simp only [UInt8.reduceToNat]
    omega
  split at h
  · rename_i hb0
    have hlo := inRange_iff.mp h
    simp only [UInt8.reduceToNat] at hlo
    subst hb0
    simp only [UInt8.reduceToNat]
    omega
  · rename_i hF0 hF4
    have hne : b0.toNat ≠ 0xF0 ∧ b0.toNat ≠ 0xF4 :=
      ⟨fun heq => hF0 (UInt8.toNat_inj.mp heq), fun heq => hF4 (UInt8.toNat_inj.mp heq)⟩
    rw [Bool.and_eq_true, inRange_iff, inRange_iff] at h
    simp only [UInt8.reduceToNat] at h
    omega

/-- A rune that can be written, or `runeError` in its place. -/
def canonRune (r : Rune) : Rune :=
  if (0xD800 ≤ r ∧ r < 0xE000) ∨ 0x10FFFF < r then runeError else r

theorem encodeRune_canonRune (r : Rune) : encodeRune (canonRune r) = encodeRune r := by
  unfold canonRune
  split
  · rename_i h
    dsimp only [Rune] at h
    have hr : encodeRune r = [0xEF, 0xBF, 0xBD] := by
      unfold encodeRune
      dsimp only [Rune]
      rw [if_neg (by omega), if_neg (by omega), if_pos h]
    rw [hr]
    decide
  · rfl

theorem runes_two {b0 b1 : UInt8} (h0 : ¬ b0 < 0x80)
    (h : (inRange b0 0xC2 0xDF && inRange b1 0x80 0xBF) = true) (s : GoString) :
    runes (b0 :: b1 :: s) = (b0.toNat % 0x20 * 0x40 + contBits b1) :: runes s := by
  rw [runes.eq_def]
  simp only [h0, h, if_true, if_false]

theorem runes_three {b0 b1 b2 : UInt8} (h0 : ¬ b0 < 0x80)
    (h2 : ¬ (inRange b0 0xC2 0xDF && inRange b1 0x80 0xBF) = true)
    (h : (second3 b0 b1 && inRange b2 0x80 0xBF) = true) (s : GoString) :
    runes (b0 :: b1 :: b2 :: s)
      = (b0.toNat % 0x10 * 0x1000 + contBits b1 * 0x40 + contBits b2) :: runes s := by
  rw [runes.eq_def]
  simp only [h0, h2, h, if_true, if_false]
  rfl

theorem runes_four {b0 b1 b2 b3 : UInt8} (h0 : ¬ b0 < 0x80)
    (h2 : ¬ (inRange b0 0xC2 0xDF && inRange b1 0x80 0xBF) = true)
    (h3 : ¬ (second3 b0 b1 && inRange b2 0x80 0xBF) = true)
    (h : (second4 b0 b1 && inRange b2 0x80 0xBF && inRange b3 0x80 0xBF) = true)
    (s : GoString) :
    runes (b0 :: b1 :: b2 :: b3 :: s)
      = (b0.toNat % 8 * 0x40000 + contBits b1 * 0x1000 + contBits b2 * 0x40 + contBits b3)
        :: runes s := by
  rw [runes.eq_def]
  simp only [h0, h2, h3, h, if_true, if_false]
  rfl

theorem not_lt_of_toNat {b : UInt8} {n : Nat} (hb : b.toNat = n) (h : 0x80 ≤ n) :
    ¬ b < 0x80 := by
  rw [UInt8.lt_iff_toNat_lt, hb]
  exact Nat.not_lt.mpr h

theorem not_inRange_of_toNat {b : UInt8} (lo hi : UInt8) {n : Nat} (hb : b.toNat = n)
    (h : hi.toNat < n) : inRange b lo hi = false := by
  rw [← Bool.not_eq_true, inRange_iff, hb]
  omega

theorem second3_of_toNat {b0 b1 : UInt8} {n m : Nat} (hb0 : b0.toNat = 0xE0 + n)
    (hb1 : b1.toNat = 0x80 + m) (hn : n < 16) (hm : m < 0x40) (hlow : n = 0 → 0x20 ≤ m)
    (hsur : n = 13 → m < 0x20) : second3 b0 b1 = true := by
  unfold second3
  split
  · rename_i h
    have hn0 : 0xE0 + n = 0xE0 := hb0.symm.trans (congrArg UInt8.toNat h)
    rw [inRange_iff, hb1]
    exact ⟨by have := hlow (by omega); simp; omega, by simp; omega⟩
  split
  · rename_i h
    have hn13 : 0xE0 + n = 0xED := hb0.symm.trans (congrArg UInt8.toNat h)
    rw [inRange_iff, hb1]
    exact ⟨by simp, by have := hsur (by omega); simp; omega⟩
  · rename_i h _
    have hn0 : n ≠ 0 := by
      rintro rfl
      exact h (UInt8.toNat_inj.mp hb0)
    rw [Bool.and_eq_true, inRange_iff, inRange_iff, hb0, hb1]
    refine ⟨⟨?_, ?_⟩, ?_, ?_⟩ <;> simp <;> omega

/-- The first byte of a four-byte sequence starts no shorter one. -/
theorem not_second3_of_toNat {b0 b1 : UInt8} {n : Nat} (hb0 : b0.toNat = 0xF0 + n) :
    second3 b0 b1 = false := by
  have hE0 : b0 ≠ 0xE0 := fun heq => by
    have : 0xF0 + n = 0xE0 := hb0.symm.trans (congrArg UInt8.toNat heq)
    omega
  have hED : b0 ≠ 0xED := fun heq => by
    have : 0xF0 + n = 0xED := hb0.symm.trans (congrArg UInt8.toNat heq)
    omega
  have hnot : inRange b0 0xE1 0xEF = false := not_inRange_of_toNat _ _ hb0 (by simp; omega)
  rw [second3, if_neg hE0, if_neg hED, hnot]
  rfl

theorem second4_of_toNat {b0 b1 : UInt8} {n m : Nat} (hb0 : b0.toNat = 0xF0 + n)
    (hb1 : b1.toNat = 0x80 + m) (hn : n < 5) (hm : m < 0x40) (hlow : n = 0 → 0x10 ≤ m)
    (hhigh : n = 4 → m < 0x10) : second4 b0 b1 = true := by
  unfold second4
  split
  · rename_i h
    have hn0 : 0xF0 + n = 0xF0 := hb0.symm.trans (congrArg UInt8.toNat h)
    rw [inRange_iff, hb1]
    exact ⟨by have := hlow (by omega); simp; omega, by simp; omega⟩
  split
  · rename_i h
    have hn4 : 0xF0 + n = 0xF4 := hb0.symm.trans (congrArg UInt8.toNat h)
    rw [inRange_iff, hb1]
    exact ⟨by simp, by have := hhigh (by omega); simp; omega⟩
  · rename_i h h'
    have hn0 : n ≠ 0 := by
      rintro rfl
      exact h (UInt8.toNat_inj.mp hb0)
    have hn4 : n ≠ 4 := by
      rintro rfl
      exact h' (UInt8.toNat_inj.mp hb0)
    rw [Bool.and_eq_true, inRange_iff, inRange_iff, hb0, hb1]
    refine ⟨⟨?_, ?_⟩, ?_, ?_⟩ <;> simp <;> omega

theorem inRange_cont {b : UInt8} {m : Nat} (hb : b.toNat = 0x80 + m) (hm : m < 0x40) :
    inRange b 0x80 0xBF = true := by
  rw [inRange_iff, hb]
  exact ⟨by simp, by simp; omega⟩

theorem contBits_of_toNat {b : UInt8} {m : Nat} (hb : b.toNat = 0x80 + m) (hm : m < 0x40) :
    contBits b = m := by
  rw [contBits, hb]
  omega

/-- What is written for a rune is read back as that rune. -/
theorem runes_encodeRune (r : Rune) (s : GoString) :
    runes (encodeRune r ++ s) = canonRune r :: runes s := by
  rw [← encodeRune_canonRune]
  have hvalid : ¬ ((0xD800 ≤ canonRune r ∧ canonRune r < 0xE000) ∨ 0x10FFFF < canonRune r) := by
    unfold canonRune
    split
    · decide
    · assumption
  generalize canonRune r = n at hvalid
  unfold encodeRune
  dsimp only [Rune] at n hvalid ⊢
  by_cases h1 : n < 0x80
  · have hn : (UInt8.ofNat n).toNat = n := toNat_ofNat_of_lt (by omega)
    rw [if_pos h1, List.singleton_append,
      runes_ascii (UInt8.lt_iff_toNat_lt.mpr (by rw [hn]; exact h1)), hn]
  rw [if_neg h1]
  by_cases h2 : n < 0x800
  · have hb0 := toNat_ofNat_of_lt (n := 0xC0 + n / 0x40) (by omega)
    have hb1 := toNat_ofNat_of_lt (n := 0x80 + n % 0x40) (by omega)
    have hlead : inRange (UInt8.ofNat (0xC0 + n / 0x40)) 0xC2 0xDF = true := by
      rw [inRange_iff, hb0]
      constructor <;> simp <;> omega
    rw [if_pos h2, List.cons_append, List.singleton_append,
      runes_two (not_lt_of_toNat hb0 (by omega))
        (by rw [hlead, inRange_cont hb1 (by omega)]; rfl),
      contBits_of_toNat hb1 (by omega), hb0]
    congr 1
    omega
  rw [if_neg h2, if_neg hvalid]
  by_cases h3 : n < 0x10000
  · have hb0 := toNat_ofNat_of_lt (n := 0xE0 + n / 0x1000) (by omega)
    have hb1 := toNat_ofNat_of_lt (n := 0x80 + n / 0x40 % 0x40) (by omega)
    have hb2 := toNat_ofNat_of_lt (n := 0x80 + n % 0x40) (by omega)
    have hnot2 := not_inRange_of_toNat 0xC2 0xDF hb0 (by simp; omega)
    have hsecond := second3_of_toNat hb0 hb1 (by omega) (by omega) (by omega) (by omega)
    rw [if_pos h3, List.cons_append, List.cons_append, List.singleton_append,
      runes_three (not_lt_of_toNat hb0 (by omega)) (by rw [hnot2]; simp)
        (by rw [hsecond, inRange_cont hb2 (by omega)]; rfl),
      contBits_of_toNat hb1 (by omega), contBits_of_toNat hb2 (by omega), hb0]
    congr 1
    omega
  · have hb0 := toNat_ofNat_of_lt (n := 0xF0 + n / 0x40000) (by omega)
    have hb1 := toNat_ofNat_of_lt (n := 0x80 + n / 0x1000 % 0x40) (by omega)
    have hb2 := toNat_ofNat_of_lt (n := 0x80 + n / 0x40 % 0x40) (by omega)
    have hb3 := toNat_ofNat_of_lt (n := 0x80 + n % 0x40) (by omega)
    have hnot2 := not_inRange_of_toNat 0xC2 0xDF hb0 (by simp; omega)
    have hsecond := second4_of_toNat hb0 hb1 (by omega) (by omega) (by omega) (by omega)
    rw [if_neg h3, List.cons_append, List.cons_append, List.cons_append, List.singleton_append,
      runes_four (not_lt_of_toNat hb0 (by omega)) (by rw [hnot2]; simp)
        (by rw [not_second3_of_toNat hb0]; simp)
        (by rw [hsecond, inRange_cont hb2 (by omega), inRange_cont hb3 (by omega)]; rfl),
      contBits_of_toNat hb1 (by omega), contBits_of_toNat hb2 (by omega),
      contBits_of_toNat hb3 (by omega), hb0]
    congr 1
    omega

/-! ## Whole strings -/

/-- What a string becomes when `encoding/json` writes it and reads it back. -/
def jsonText (s : GoString) : GoString := (runes s).flatMap encodeRune

theorem runes_flatMap_append (rs : List Rune) (s : GoString) :
    runes (rs.flatMap encodeRune ++ s) = rs.map canonRune ++ runes s := by
  induction rs with
  | nil => rfl
  | cons r rs ih =>
      rw [List.flatMap_cons, List.append_assoc, runes_encodeRune, ih, List.map_cons,
        List.cons_append]

theorem runes_flatMap_encodeRune (rs : List Rune) :
    runes (rs.flatMap encodeRune) = rs.map canonRune := by
  have happend := runes_flatMap_append rs []
  rw [List.append_nil] at happend
  rw [happend]
  simp [runes]

theorem jsonText_flatMap_encodeRune (rs : List Rune) :
    jsonText (rs.flatMap encodeRune) = rs.flatMap encodeRune := by
  rw [jsonText, runes_flatMap_encodeRune, List.flatMap_map]
  exact congrArg (fun f => rs.flatMap f) (funext encodeRune_canonRune)

@[simp] theorem jsonText_idem (s : GoString) : jsonText (jsonText s) = jsonText s :=
  jsonText_flatMap_encodeRune (runes s)

@[simp] theorem jsonText_toLower (table : Rune → Rune) (s : GoString) :
    jsonText (toLower table s) = toLower table s := by
  have hlower : toLower table s = ((runes s).map (lowerRune table)).flatMap encodeRune := by
    rw [toLower, List.flatMap_map]
  rw [hlower, jsonText_flatMap_encodeRune]

theorem jsonText_of_ascii {s : GoString} (h : ∀ b ∈ s, b < 0x80) : jsonText s = s := by
  induction s with
  | nil => simp [jsonText, runes]
  | cons b s ih =>
      have hb := h b (by simp)
      have hlt : b.toNat < 0x80 := UInt8.lt_iff_toNat_lt.mp hb
      have hrest := ih fun c hc => h c (by simp [hc])
      have hchar : encodeRune b.toNat = [b] := by
        unfold encodeRune
        rw [if_pos hlt, UInt8.ofNat_toNat]
      rw [jsonText, runes_ascii hb, List.flatMap_cons, hchar]
      exact congrArg (b :: ·) hrest

/-- Valid UTF-8: there is nothing for JSON to replace. -/
def Utf8 (s : GoString) : Prop := jsonText s = s

theorem utf8_of_all {s : GoString} (h : s.all (· < 0x80) = true) : Utf8 s :=
  jsonText_of_ascii (ascii_of_all h)

theorem runes_append {a : GoString} (ha : Utf8 a) (s : GoString) :
    runes (a ++ s) = runes a ++ runes s := by
  have htext : (runes a).flatMap encodeRune = a := ha
  have hall := runes_flatMap_append (runes a) s
  have hself := runes_flatMap_encodeRune (runes a)
  rw [htext] at hall hself
  rw [hall, ← hself]

theorem toLower_append (table : Rune → Rune) {a : GoString} (ha : Utf8 a) (s : GoString) :
    toLower table (a ++ s) = toLower table a ++ toLower table s := by
  rw [toLower, runes_append ha, List.flatMap_append]
  rfl

theorem encodeRune_ne_nil (r : Rune) : encodeRune r ≠ [] := by
  unfold encodeRune
  dsimp only [Rune]
  repeat' split
  all_goals exact List.cons_ne_nil _ _

theorem runes_ne_nil {s : GoString} (h : s ≠ []) : runes s ≠ [] := by
  intro hnil
  rw [runes.eq_def] at hnil
  repeat' split at hnil
  · exact h rfl
  all_goals cases hnil

theorem toLower_ne_nil (table : Rune → Rune) {s : GoString} (h : s ≠ []) :
    toLower table s ≠ [] := by
  rw [toLower]
  cases hr : runes s with
  | nil => exact absurd hr (runes_ne_nil h)
  | cons r rs =>
      rw [List.flatMap_cons]
      exact List.append_ne_nil_of_left_ne_nil (encodeRune_ne_nil _) _

end RbiProxy
