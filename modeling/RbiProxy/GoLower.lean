import RbiProxy.GoUtf8

/-!
# Lower case beyond ASCII

`strings.ToLower` decodes a string, maps its runes and encodes them again. A byte
of ASCII stands for itself in any surroundings (`runes_append_ascii`), so the case
of what is before it and behind it are two things (`toLower_append_ascii`). Of the
table of `unicode`, three facts are used (`LowerTable`): what it maps to can be
encoded, is a letter if it is ASCII, and is in lower case.
-/

namespace RbiProxy

/-! ## Decoding around a byte of ASCII -/

theorem runes_error {b0 : UInt8} (h0 : ¬ b0 < 0x80) {s : GoString}
    (h2 : ∀ b1 t, s = b1 :: t → ¬ (inRange b0 0xC2 0xDF && inRange b1 0x80 0xBF) = true)
    (h3 : ∀ b1 b2 t, s = b1 :: b2 :: t → ¬ (second3 b0 b1 && inRange b2 0x80 0xBF) = true)
    (h4 : ∀ b1 b2 b3 t, s = b1 :: b2 :: b3 :: t →
      ¬ (second4 b0 b1 && inRange b2 0x80 0xBF && inRange b3 0x80 0xBF) = true) :
    runes (b0 :: s) = runeError :: runes s := by
  rw [runes.eq_def]
  cases s with
  | nil => simp [h0, runes]
  | cons b1 s =>
    cases s with
    | nil => simp only [h0, h2 b1 [] rfl, Bool.false_eq_true, if_false]
    | cons b2 s =>
      cases s with
      | nil => simp only [h0, h2 b1 [b2] rfl, h3 b1 b2 [] rfl, Bool.false_eq_true,
          if_false]
      | cons b3 s =>
        simp only [h0, h2 b1 _ rfl, h3 b1 b2 _ rfl, h4 b1 b2 b3 s rfl,
          Bool.false_eq_true, if_false]

section Ascii

variable {c : UInt8} (hc : c < 0x80)

include hc

theorem not_inRange_ascii : inRange c 0x80 0xBF = false := by
  rw [Bool.eq_false_iff]
  intro h
  have hlow := (inRange_iff.mp h).1
  exact absurd hlow (Nat.not_le.mpr (UInt8.lt_iff_toNat_lt.mp hc))

theorem not_second3_ascii (b : UInt8) : second3 b c = false := by
  have hlt : c.toNat < 0x80 := UInt8.lt_iff_toNat_lt.mp hc
  rw [Bool.eq_false_iff]
  unfold second3
  split_ifs <;> simp [inRange_iff] <;> omega

theorem not_second4_ascii (b : UInt8) : second4 b c = false := by
  have hlt : c.toNat < 0x80 := UInt8.lt_iff_toNat_lt.mp hc
  rw [Bool.eq_false_iff]
  unfold second4
  split_ifs <;> simp [inRange_iff] <;> omega

theorem runes_append_ascii (x y : GoString) :
    runes (x ++ c :: y) = runes x ++ c.toNat :: runes y := by
  have hcont := not_inRange_ascii hc
  fun_induction runes x with
  | case1 => exact runes_ascii hc y
  | case2 b0 =>
    by_cases h0 : b0 < 0x80
    · rw [if_pos h0, List.cons_append, List.nil_append, runes_ascii h0, runes_ascii hc]
      rfl
    · rw [if_neg h0, List.cons_append, List.nil_append, runes_error h0, runes_ascii hc]
      · rfl
      · rintro b1 t ⟨⟩
        simp [hcont]
      · rintro b1 b2 t ⟨⟩
        simp [not_second3_ascii hc]
      · rintro b1 b2 b3 t ⟨⟩
        simp [not_second4_ascii hc]
  | case3 b0 b1 t h0 ih => rw [List.cons_append, runes_ascii h0, ih, List.cons_append]
  | case4 b0 b1 t h0 h2 ih =>
    rw [List.cons_append, List.cons_append, runes_two h0 h2, ih, List.cons_append]
  | case5 b0 b1 h0 h2 b2 t h3 ih =>
    rw [List.cons_append, List.cons_append, List.cons_append, runes_three h0 h2 h3, ih,
      List.cons_append]
  | case6 b0 b1 h0 h2 b2 h3 b3 t h4 ih =>
    rw [List.cons_append, List.cons_append, List.cons_append, List.cons_append,
      runes_four h0 h2 h3 h4, ih, List.cons_append]
  | case7 b0 b1 h0 h2 b2 h3 b3 t h4 ih =>
    rw [List.cons_append, runes_error h0, ih, List.cons_append]
    · rintro _ _ ⟨⟩
      exact h2
    · rintro _ _ _ ⟨⟩
      exact h3
    · rintro _ _ _ _ ⟨⟩
      exact h4
  | case8 b0 b1 h0 h2 b2 h3 ih =>
    rw [List.cons_append, runes_error h0, ih, List.cons_append]
    · rintro _ _ ⟨⟩
      exact h2
    · rintro _ _ _ ⟨⟩
      exact h3
    · rintro _ _ _ _ ⟨⟩
      simp [hcont]
  | case9 b0 b1 h0 h2 ih =>
    rw [List.cons_append, runes_error h0, ih, List.cons_append]
    · rintro _ _ ⟨⟩
      exact h2
    · rintro _ _ _ ⟨⟩
      simp [hcont]
    · rintro _ _ _ _ ⟨⟩
      simp [hcont]

theorem toLower_append_ascii (table : Rune → Rune) (x y : GoString) :
    toLower table (x ++ c :: y) = toLower table x ++ lowerByte c :: toLower table y := by
  rw [toLower, runes_append_ascii hc, List.flatMap_append, List.flatMap_cons,
    encodeRune_lowerRune hc]
  rfl

end Ascii

/-! ## What a string decodes to -/

theorem canonRune_of_large {r : Nat} (hlow : 0x80 ≤ r) (hsur : ¬ (0xD800 ≤ r ∧ r < 0xE000))
    (hhigh : r ≤ 0x10FFFF) (s : GoString) :
    canonRune r = r ∧ (r < 0x80 → UInt8.ofNat r ∈ s) := by
  refine ⟨?_, fun hlt => absurd hlow (Nat.not_le.mpr hlt)⟩
  rw [canonRune, if_neg]
  rintro (h | h)
  · exact hsur h
  · exact absurd hhigh (Nat.not_le.mpr h)

/-- A byte of ASCII in what a rune is written as. -/
theorem eq_of_mem_encodeRune {r : Nat} {c : UInt8} (hc : c.toNat < 0x80) (h : c ∈ encodeRune r) :
    r = c.toNat := by
  have hlarge : ∀ n, 0x80 ≤ n → n < 0x100 → c ≠ UInt8.ofNat n := by
    rintro n hlow hhigh rfl
    rw [toNat_ofNat_of_lt hhigh] at hc
    omega
  unfold encodeRune at h
  dsimp only [Rune] at h
  split at h
  · rename_i hr
    rw [List.mem_singleton.mp h, toNat_ofNat_of_lt (by omega)]
  split at h
  · simp only [List.mem_cons, List.not_mem_nil, or_false] at h
    obtain h | h := h <;> exact absurd h (hlarge _ (by omega) (by omega))
  split at h
  · simp only [List.mem_cons, List.not_mem_nil, or_false] at h
    obtain rfl | rfl | rfl := h <;> exact absurd hc (by decide)
  rename_i hmax
  split at h
  · simp only [List.mem_cons, List.not_mem_nil, or_false] at h
    obtain h | h | h := h <;> exact absurd h (hlarge _ (by omega) (by omega))
  · simp only [List.mem_cons, List.not_mem_nil, or_false] at h
    obtain h | h | h | h := h <;> exact absurd h (hlarge _ (by omega) (by omega))

/-- The runes of a string can be encoded, and those of ASCII are its bytes. -/
theorem runes_spec {s : GoString} {r : Rune} (hr : r ∈ runes s) :
    canonRune r = r ∧ (r < 0x80 → UInt8.ofNat r ∈ s) := by
  have herror : ∀ t : GoString, canonRune runeError = runeError
      ∧ (runeError < 0x80 → UInt8.ofNat runeError ∈ t) := fun t =>
    canonRune_of_large (by decide) (by decide) (by decide) t
  have hascii : ∀ {b : UInt8}, b < 0x80 → ∀ t : GoString, canonRune b.toNat = b.toNat
      ∧ (b.toNat < 0x80 → UInt8.ofNat b.toNat ∈ b :: t) := by
    intro b hb t
    have hlt : b.toNat < 0x80 := UInt8.lt_iff_toNat_lt.mp hb
    refine ⟨?_, fun _ => by rw [UInt8.ofNat_toNat]; exact List.mem_cons_self⟩
    rw [canonRune, if_neg]
    dsimp only [Rune]
    omega
  have htail : ∀ {t u : GoString} {r : Rune}, t <:+ u →
      (canonRune r = r ∧ (r < 0x80 → UInt8.ofNat r ∈ t)) →
      canonRune r = r ∧ (r < 0x80 → UInt8.ofNat r ∈ u) := fun hsub h =>
    ⟨h.1, fun hlt => hsub.subset (h.2 hlt)⟩
  fun_induction runes s with
  | case1 => cases hr
  | case2 b0 =>
    obtain rfl := List.mem_singleton.mp hr
    split
    · rename_i h0
      exact hascii h0 []
    · exact herror _
  | case3 b0 b1 t h0 ih =>
    obtain rfl | hr := List.mem_cons.mp hr
    · exact hascii h0 _
    · exact htail (List.suffix_cons ..) (ih hr)
  | case4 b0 b1 t h0 h2 ih =>
    obtain rfl | hr := List.mem_cons.mp hr
    · rw [Bool.and_eq_true, inRange_iff, inRange_iff] at h2
      simp only [UInt8.reduceToNat] at h2
      refine canonRune_of_large ?_ ?_ ?_ _ <;> unfold contBits <;> omega
    · exact htail ((List.suffix_cons ..).trans (List.suffix_cons ..)) (ih hr)
  | case5 b0 b1 h0 h2 b2 t h3 ih =>
    obtain rfl | hr := List.mem_cons.mp hr
    · rw [Bool.and_eq_true, inRange_iff] at h3
      have hb := second3_bounds h3.1
      have hb2 := h3.2
      simp only [UInt8.reduceToNat] at hb2
      refine canonRune_of_large ?_ ?_ ?_ _ <;> unfold contBits <;> omega
    · exact htail (List.suffix_append [b0, b1, b2] t) (ih hr)
  | case6 b0 b1 h0 h2 b2 h3 b3 t h4 ih =>
    obtain rfl | hr := List.mem_cons.mp hr
    · rw [Bool.and_eq_true, Bool.and_eq_true, inRange_iff, inRange_iff] at h4
      have hb := second4_bounds h4.1.1
      have hb2 := h4.1.2
      have hb3 := h4.2
      simp only [UInt8.reduceToNat] at hb2 hb3
      refine canonRune_of_large ?_ ?_ ?_ _ <;> unfold contBits <;> omega
    · exact htail (List.suffix_append [b0, b1, b2, b3] t) (ih hr)
  | case7 b0 b1 h0 h2 b2 h3 b3 t h4 ih =>
    obtain rfl | hr := List.mem_cons.mp hr
    · exact herror _
    · exact htail (List.suffix_cons ..) (ih hr)
  | case8 b0 b1 h0 h2 b2 h3 ih =>
    obtain rfl | hr := List.mem_cons.mp hr
    · exact herror _
    · exact htail (List.suffix_cons ..) (ih hr)
  | case9 b0 b1 h0 h2 ih =>
    obtain rfl | hr := List.mem_cons.mp hr
    · exact herror _
    · exact htail (List.suffix_cons ..) (ih hr)

/-! ## The table -/

/-- What `unicode.ToLower` does past ASCII. -/
structure LowerTable (table : Rune → Rune) : Prop where
  valid : ∀ r, canonRune r = r → canonRune (table r) = table r
  letter : ∀ r, 0x80 ≤ r → canonRune r = r → table r < 0x80 → 0x61 ≤ table r ∧ table r ≤ 0x7A
  idem : ∀ r, 0x80 ≤ r → canonRune r = r → 0x80 ≤ table r → table (table r) = table r

theorem lowerTable_id : LowerTable id where
  valid _ h := h
  letter _ h _ hlt := absurd hlt (Nat.not_lt.mpr h)
  idem _ _ _ _ := rfl

section Table

variable {table : Rune → Rune} (htable : LowerTable table)

include htable

theorem lowerRune_lowerRune {r : Rune} (hr : canonRune r = r) :
    canonRune (lowerRune table r) = lowerRune table r
      ∧ lowerRune table (lowerRune table r) = lowerRune table r := by
  by_cases hascii : r < 0x80
  · have hlower : lowerRune table r = if 0x41 ≤ r ∧ r ≤ 0x5A then r + 0x20 else r := by
      rw [lowerRune, if_pos hascii]
    have hlt : lowerRune table r < 0x80
        ∧ ¬ (0x41 ≤ lowerRune table r ∧ lowerRune table r ≤ 0x5A) := by
      rw [hlower]
      dsimp only [Rune] at *
      split <;> omega
    constructor
    · rw [canonRune, if_neg]
      have := hlt.1
      dsimp only [Rune] at *
      omega
    · rw [lowerRune, if_pos hlt.1, if_neg hlt.2]
  · have hlower : lowerRune table r = table r := by rw [lowerRune, if_neg hascii]
    rw [hlower]
    refine ⟨htable.valid r hr, ?_⟩
    have hlow : 0x80 ≤ r := Nat.not_lt.mp hascii
    by_cases hto : table r < 0x80
    · have hletter := htable.letter r hlow hr hto
      rw [lowerRune, if_pos hto, if_neg]
      dsimp only [Rune] at *
      omega
    · rw [lowerRune, if_neg hto]
      exact htable.idem r hlow hr (Nat.not_lt.mp hto)

theorem toLower_toLower (s : GoString) : toLower table (toLower table s) = toLower table s := by
  have hlower : toLower table s = ((runes s).map (lowerRune table)).flatMap encodeRune := by
    rw [toLower, List.flatMap_map]
  have hrunes : runes (toLower table s) = (runes s).map (lowerRune table) := by
    rw [hlower, runes_flatMap_encodeRune, List.map_map]
    exact List.map_congr_left fun r hr => (lowerRune_lowerRune htable (runes_spec hr).1).1
  rw [toLower, hrunes, List.flatMap_map, toLower]
  exact List.flatMap_congr fun r hr => by
    rw [(lowerRune_lowerRune htable (runes_spec hr).1).2]

/-- Lower case makes no sign of ASCII that is no letter. -/
theorem mem_of_mem_toLower {c : UInt8}
    (hc : c.toNat < 0x41 ∨ (0x5A < c.toNat ∧ c.toNat < 0x61) ∨ (0x7A < c.toNat ∧ c.toNat < 0x80))
    {s : GoString} (h : c ∈ toLower table s) : c ∈ s := by
  have hlt : c.toNat < 0x80 := by omega
  obtain ⟨r, hr, hmem⟩ := List.mem_flatMap.mp h
  obtain ⟨hcanon, hbyte⟩ := runes_spec hr
  have heq : lowerRune table r = c.toNat := eq_of_mem_encodeRune hlt hmem
  unfold lowerRune at heq
  split at heq
  · rename_i hascii
    have hrc : r = c.toNat := by
      dsimp only [Rune] at *
      split at heq <;> omega
    rw [← UInt8.ofNat_toNat (x := c), ← hrc]
    exact hbyte hascii
  · rename_i hascii
    have hletter := htable.letter r (Nat.not_lt.mp hascii) hcanon (by rw [heq]; exact hlt)
    rw [heq] at hletter
    dsimp only [Rune] at hletter
    omega

end Table

end RbiProxy
