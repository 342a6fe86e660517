import RbiProxy.KeywordScore

/-!
# Padding a page

Text around a page does not lower its points. `strings.Count` takes the first
occurrence, then the first one behind it, and so on, and text in front may shift
all of these. But no way to choose occurrences that do not overlap gives more of
them (`le_countFrom`), and those of the page are still there in the padded one.
Lower case goes rune by rune, and with valid UTF-8 the runes of the parts are
those of the whole.

The points are an `int`, though, and more occurrences may take them past the
greatest one (`overflow_unblocks`). As long as they fit, what was blocked stays
blocked (`blocked_of_padding`).
-/

namespace RbiProxy

namespace Policy

/-! ## Occurrences that do not overlap -/

/-- A string has `n` occurrences of another one, each behind the one before. -/
def Packs (sub : GoString) : Nat → GoString → Prop
  | 0, _ => True
  | n + 1, s => ∃ gap rest, s = gap ++ (sub ++ rest) ∧ Packs sub n rest

theorem Packs.prepend {sub : GoString} {n : Nat} {s : GoString} (h : Packs sub n s) (a : GoString) :
    Packs sub n (a ++ s) := by
  cases n with
  | zero => trivial
  | succ n =>
      obtain ⟨gap, rest, rfl, hrest⟩ := h
      exact ⟨a ++ gap, rest, (List.append_assoc a gap (sub ++ rest)).symm, hrest⟩

theorem Packs.append {sub : GoString} {n : Nat} {s : GoString} (h : Packs sub n s) (b : GoString) :
    Packs sub n (s ++ b) := by
  induction n generalizing s with
  | zero => trivial
  | succ n ih =>
      obtain ⟨gap, rest, rfl, hrest⟩ := h
      exact ⟨gap, rest ++ b, by simp only [List.append_assoc], ih hrest⟩

/-- What is found is there, and it is the first one. -/
theorem index_eq_some_iff {s sub : GoString} {i : Nat} :
    index s sub = some i ↔ sub <+: s.drop i ∧ i ≤ s.length ∧ ∀ j < i, ¬ sub <+: s.drop j := by
  rw [index, List.findIdx?_eq_some_iff_getElem]
  simp only [List.getElem_tails, List.length_tails, List.isPrefixOf_iff_prefix]
  constructor
  · rintro ⟨hlt, hpre, hfirst⟩
    exact ⟨hpre, Nat.le_of_lt_succ hlt, hfirst⟩
  · rintro ⟨hpre, hle, hfirst⟩
    exact ⟨Nat.lt_succ_of_le hle, hpre, hfirst⟩

theorem index_occurrence (gap sub rest : GoString) :
    ∃ i ≤ gap.length, index (gap ++ (sub ++ rest)) sub = some i := by
  have hcontains : contains (gap ++ (sub ++ rest)) sub = true :=
    contains_iff.mpr ⟨gap, rest, List.append_assoc gap sub rest⟩
  obtain ⟨i, hi⟩ := Option.isSome_iff_exists.mp hcontains
  refine ⟨i, Nat.not_lt.mp fun hlt => ?_, hi⟩
  have hnot := (index_eq_some_iff.mp hi).2.2 gap.length hlt
  rw [List.drop_left] at hnot
  exact hnot (List.prefix_append sub rest)

section Greedy

variable {sub : GoString} (hne : sub ≠ [])

/-- The occurrences that `strings.Count` takes. -/
theorem packs_countFrom (sub : GoString) (fuel : Nat) (s : GoString) :
    Packs sub (countFrom sub fuel s) s := by
  induction fuel generalizing s with
  | zero => trivial
  | succ fuel ih =>
      rw [countFrom]
      cases hi : index s sub with
      | none => trivial
      | some i =>
          obtain ⟨⟨rest, hrest⟩, -, -⟩ := index_eq_some_iff.mp hi
          have hdrop : s.drop (i + sub.length) = rest := by
            rw [← List.drop_drop, ← hrest, List.drop_left]
          dsimp only
          rw [hdrop, Nat.add_comm]
          refine ⟨s.take i, rest, ?_, hdrop ▸ ih (s.drop (i + sub.length))⟩
          rw [hrest, List.take_append_drop]

include hne

/-- No choice has more of them. The first one ends not behind the first of the
choice, so the rest of the choice is still ahead. -/
theorem le_countFrom {n : Nat} {s : GoString} (h : Packs sub n s) {fuel : Nat}
    (hfuel : s.length ≤ fuel) : n ≤ countFrom sub fuel s := by
  induction n generalizing s fuel with
  | zero => exact Nat.zero_le _
  | succ n ih =>
      obtain ⟨gap, rest, rfl, hrest⟩ := h
      have hpos : 0 < sub.length := List.length_pos_iff.mpr hne
      have hlen : (gap ++ (sub ++ rest)).length = gap.length + (sub.length + rest.length) := by
        rw [List.length_append, List.length_append]
      cases fuel with
      | zero => omega
      | succ fuel =>
          obtain ⟨i, hi, hindex⟩ := index_occurrence gap sub rest
          have hend : i + sub.length ≤ (gap ++ sub).length := by
            rw [List.length_append]
            omega
          have hdrop : (gap ++ (sub ++ rest)).drop (i + sub.length)
              = (gap ++ sub).drop (i + sub.length) ++ rest := by
            rw [← List.append_assoc, List.drop_append_of_le_length hend]
          have hshort : ((gap ++ (sub ++ rest)).drop (i + sub.length)).length ≤ fuel := by
            rw [List.length_drop]
            omega
          rw [hdrop] at hshort
          rw [countFrom, hindex]
          dsimp only
          rw [hdrop, Nat.add_comm n]
          exact Nat.add_le_add_left (ih (hrest.prepend _) hshort) 1

/-- Text around a string does not lower the count. -/
theorem count_le_padded (a s b : GoString) : count s sub ≤ count (a ++ s ++ b) sub := by
  rw [count, count, if_neg hne, if_neg hne]
  exact le_countFrom hne (((packs_countFrom sub s.length s).prepend a).append b) (Nat.le_refl _)

end Greedy

/-! ## Keywords -/

section Padding

variable (table : Rune → Rune) {a s : GoString} (ha : Utf8 a) (hs : Utf8 s) (b : GoString)

include ha hs

theorem toLower_padded :
    toLower table (a ++ s ++ b) = toLower table a ++ toLower table s ++ toLower table b := by
  rw [List.append_assoc, toLower_append table ha, toLower_append table hs, ← List.append_assoc]

/-- A keyword is found at least as often in a padded page; the empty one is found
at every rune, and at the end. -/
theorem found_le_padded (v : GsFilterLine) :
    found table s v ≤ found table (a ++ s ++ b) v := by
  rw [found, found, toLower_padded table ha hs]
  by_cases hempty : toLower table v.content = []
  · have hlower : ∀ t, Utf8 (toLower table t) := jsonText_toLower table
    rw [hempty, count, count, if_pos rfl, if_pos rfl, List.append_assoc, runes_append (hlower a),
      runes_append (hlower s), List.length_append, List.length_append]
    omega
  · exact count_le_padded hempty _ _ _

theorem total_le_padded {lines : List GsFilterLine} (hscore : ∀ v ∈ lines, 0 ≤ v.score) :
    total table s lines ≤ total table (a ++ s ++ b) lines := by
  refine List.sum_le_sum fun v hv => ?_
  refine Int.mul_le_mul_of_nonneg_right ?_ (hscore v hv)
  exact Int.ofNat_le.mpr (found_le_padded table ha hs b v)

/-- **Padding.** For every list of keywords with scores that are not negative and
every strictness, and for text in front of a page and behind it: each keyword
occurs at least as often, and if the points of the padded page fit an `int`, it is
blocked if the page is. -/
theorem blocked_of_padding {lines : List GsFilterLine} (hscore : ∀ v ∈ lines, 0 ≤ v.score)
    (strictness : Int) {responder : GSFilterResponder} (hnew : responder.blocked = false) :
    (∀ v, found table s v ≤ found table (a ++ s ++ b) v)
      ∧ (total table (a ++ s ++ b) lines < 2 ^ 63 →
        (filterWords table lines strictness s responder).blocked = true →
        (filterWords table lines strictness (a ++ s ++ b) responder).blocked = true) := by
  refine ⟨found_le_padded table ha hs b, fun hfits hblocked => ?_⟩
  obtain ⟨seen, hne, hpre, habove⟩ := (words_blocked_iff table s strictness hnew lines).mp hblocked
  refine (words_blocked_iff table _ strictness hnew lines).mpr ⟨seen, hne, hpre, ?_⟩
  have hseen : ∀ v ∈ seen, 0 ≤ v.score := fun v hv => hscore v (hpre.subset hv)
  obtain ⟨rest, rfl⟩ := hpre
  have hsum : total table (a ++ s ++ b) (seen ++ rest)
      = total table (a ++ s ++ b) seen + total table (a ++ s ++ b) rest := by
    simp [total]
  have hrest := total_nonneg table (a ++ s ++ b) fun v hv => hscore v (List.mem_append_right _ hv)
  have hlow := total_nonneg table s hseen
  have hle := total_le_padded table ha hs b hseen
  rw [int64_eq_self ⟨by omega, by omega⟩] at habove
  rw [int64_eq_self ⟨by omega, by omega⟩]
  omega

end Padding

/-- A keyword with a score that fits an `int` once, and not twice. -/
def heavy : List GsFilterLine := [⟨lit "x", 2 ^ 62⟩]

theorem blocked_of_padding_example :
    (filterWords id [⟨lit "drug", 10⟩] 5 (lit "a " ++ lit "drug" ++ lit " b") .new).blocked
      = true := by
  refine (@blocked_of_padding id (lit "a ") (lit "drug") (utf8_of_all (by decide))
    (utf8_of_all (by decide)) (lit " b") [⟨lit "drug", 10⟩] ?_ 5 .new rfl).2 ?_ ?_
  · simp
  · decide +kernel
  · decide +kernel

/-- The second occurrence takes the points to the least `int`. -/
theorem overflow_unblocks :
    ¬ ∀ (lines : List GsFilterLine) (strictness : Int) (a s b : GoString),
      (∀ v ∈ lines, 0 ≤ v.score) → Utf8 a → Utf8 s → Utf8 b →
      (filterWords id lines strictness s .new).blocked = true →
      (filterWords id lines strictness (a ++ s ++ b) .new).blocked = true := by
  intro h
  have hx : Utf8 (lit "x") := utf8_of_all (by decide)
  have hpage : (filterWords id heavy 0 (lit "x") .new).blocked = true := by decide +kernel
  have hpadded := h heavy 0 (lit "x") (lit "x") [] (by simp [heavy]) hx hx
    (utf8_of_all (by decide)) hpage
  revert hpadded
  decide +kernel

end Policy

end RbiProxy
