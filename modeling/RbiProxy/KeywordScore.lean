import Mathlib.Algebra.BigOperators.Group.List.Basic
import Mathlib.Algebra.Order.BigOperators.Group.List
import Mathlib.Algebra.Order.Ring.Int
import Mathlib.Data.List.Perm.Basic
import RbiProxy.FilterPolicy

/-!
# The score of a page

`FilterWords` compares the points with the strictness after every keyword, and
nothing takes a verdict back. Whether that is the verdict of the total depends on
how the points get there, as scores may be negative and the points wrap around:
`verdict_by_total_iff` says for which lists it is, in the order of the file and in
every order.

After a list of keywords the loop has its points and its reasons
(`foldl_filterWord`), so what one more keyword does is a matter of the total alone
(`filterWords_concat`). A verdict therefore stands for a prefix of the list
(`words_blocked_iff`), and in some order any part of the list is a prefix.
-/

namespace RbiProxy

namespace Policy

/-! ## What an `int` holds -/

def FitsInt (x : Int) : Prop := -2 ^ 63 ≤ x ∧ x < 2 ^ 63

theorem fitsInt_int64 (x : Int) : FitsInt (int64 x) := by
  have hlow := @Int.le_bmod x (2 ^ 64) (by decide)
  have hhigh := @Int.bmod_lt x (2 ^ 64) (by decide)
  unfold FitsInt int64
  omega

theorem int64_eq_self {x : Int} (h : FitsInt x) : int64 x = x := by
  unfold FitsInt at h
  exact Int.bmod_eq_of_le (by omega) (by omega)

/-- Wrapping around once at the end is enough. -/
theorem int64_add (x y : Int) : int64 (int64 x + int64 y) = int64 (x + y) := by
  rw [int64, int64, int64, int64, Int.add_bmod_bmod, Int.bmod_add_bmod]

/-! ## The verdict of the total -/

section Words

variable (table : Rune → Rune) (content : GoString)

def found (v : GsFilterLine) : Nat := count (toLower table content) (toLower table v.content)

def total (lines : List GsFilterLine) : Int :=
  (lines.map fun v => found table content v * v.score).sum

def reasons (lines : List GsFilterLine) : List GoString :=
  (lines.filter fun v => 0 < found table content v).map fun v => wordReason v (found table content v)

/-- The page is blocked exactly if the total is above the strictness, and then
the responder has the total and all the reasons. -/
structure VerdictByTotal (strictness : Int) (responder : GSFilterResponder)
    (lines : List GsFilterLine) : Prop where
  blocked : (filterWords table lines strictness content responder).blocked = true
    ↔ strictness < total table content lines
  score : strictness < total table content lines →
    (filterWords table lines strictness content responder).score = total table content lines
  reasons : strictness < total table content lines →
    (filterWords table lines strictness content responder).reasons = reasons table content lines

theorem total_concat (lines : List GsFilterLine) (v : GsFilterLine) :
    total table content (lines ++ [v]) = total table content lines + found table content v * v.score
    := by
  simp [total]

theorem total_perm {lines lines' : List GsFilterLine} (h : lines'.Perm lines) :
    total table content lines' = total table content lines := (h.map _).sum_eq

theorem total_nonneg {lines : List GsFilterLine} (h : ∀ v ∈ lines, 0 ≤ v.score) :
    0 ≤ total table content lines := by
  refine List.sum_nonneg fun x hx => ?_
  obtain ⟨v, hv, rfl⟩ := List.mem_map.mp hx
  exact Int.mul_nonneg (Int.natCast_nonneg _) (h v hv)

variable (strictness : Int) (responder : GSFilterResponder)

/-- The responder once the points were above the strictness. -/
def hit (lines : List GsFilterLine) : GSFilterResponder :=
  ⟨true, int64 (total table content lines), reasons table content lines⟩

theorem filterWord_next (lines : List GsFilterLine) (v : GsFilterLine) :
    filterWord table strictness content
        (responder, reasons table content lines, int64 (total table content lines)) v
      = (if strictness < int64 (total table content (lines ++ [v])) then
            hit table content (lines ++ [v])
          else responder,
          reasons table content (lines ++ [v]), int64 (total table content (lines ++ [v]))) := by
  have hpts : int64 (int64 (total table content lines)
        + int64 (count (toLower table content) (toLower table v.content) * v.score))
      = int64 (total table content (lines ++ [v])) := by
    rw [int64_add, total_concat]
    rfl
  have hreasons : (if 0 < count (toLower table content) (toLower table v.content) then
        reasons table content lines
          ++ [wordReason v (count (toLower table content) (toLower table v.content))]
      else reasons table content lines) = reasons table content (lines ++ [v]) := by
    unfold reasons found
    rw [List.filter_append, List.map_append]
    split
    · rename_i hpos
      simp [hpos]
    · rename_i hzero
      simp [hzero]
  simp only [filterWord, hpts, hreasons]
  split
  · rfl
  · rfl

theorem foldl_filterWord (lines : List GsFilterLine) :
    lines.foldl (filterWord table strictness content) (responder, [], 0)
      = (filterWords table lines strictness content responder, reasons table content lines,
          int64 (total table content lines)) := by
  induction lines using List.reverseRecOn with
  | nil => rfl
  | append_singleton lines v ih =>
      rw [filterWords, List.foldl_append, ih, List.foldl_cons, List.foldl_nil, filterWord_next]

theorem filterWords_concat (lines : List GsFilterLine) (v : GsFilterLine) :
    filterWords table (lines ++ [v]) strictness content responder
      = if strictness < int64 (total table content (lines ++ [v])) then
          hit table content (lines ++ [v])
        else filterWords table lines strictness content responder := by
  rw [filterWords, List.foldl_append, foldl_filterWord, List.foldl_cons, List.foldl_nil,
    filterWord_next]

variable {responder} (hnew : responder.blocked = false)
include hnew

/-- A verdict is that of a prefix of the list. -/
theorem words_blocked_iff (lines : List GsFilterLine) :
    (filterWords table lines strictness content responder).blocked = true
      ↔ ∃ seen, seen ≠ [] ∧ seen <+: lines ∧ strictness < int64 (total table content seen) := by
  induction lines using List.reverseRecOn with
  | nil =>
      have hnone : (filterWords table [] strictness content responder).blocked = false := hnew
      rw [hnone]
      simp
  | append_singleton lines v ih =>
      rw [filterWords_concat]
      split
      · rename_i habove
        exact iff_of_true rfl ⟨lines ++ [v], by simp, List.prefix_rfl, habove⟩
      · rename_i hbelow
        rw [ih]
        refine exists_congr fun seen => and_congr_right fun _ => ?_
        rw [List.prefix_concat_iff]
        constructor
        · rintro ⟨hseen, habove⟩
          exact ⟨.inr hseen, habove⟩
        · rintro ⟨rfl | hseen, habove⟩
          · exact absurd habove hbelow
          · exact ⟨hseen, habove⟩

/-- The score of a verdict is a value of an `int`. -/
theorem fitsInt_score (lines : List GsFilterLine)
    (hblocked : (filterWords table lines strictness content responder).blocked = true) :
    FitsInt (filterWords table lines strictness content responder).score := by
  induction lines using List.reverseRecOn with
  | nil =>
      have hnone : (filterWords table [] strictness content responder).blocked = false := hnew
      rw [hnone] at hblocked
      cases hblocked
  | append_singleton lines v ih =>
      rw [filterWords_concat] at hblocked ⊢
      split at hblocked
      · rename_i habove
        rw [if_pos habove]
        exact fitsInt_int64 _
      · rename_i hbelow
        rw [if_neg hbelow]
        exact ih hblocked

omit hnew in
theorem filterWords_above {lines : List GsFilterLine} (hne : lines ≠ [])
    (habove : strictness < int64 (total table content lines)) :
    filterWords table lines strictness content responder = hit table content lines := by
  induction lines using List.reverseRecOn with
  | nil => exact absurd rfl hne
  | append_singleton lines v _ => rw [filterWords_concat, if_pos habove]

theorem verdictByTotal_iff {lines : List GsFilterLine} (hne : lines ≠ []) :
    VerdictByTotal table content strictness responder lines
      ↔ strictness < total table content lines ∧ FitsInt (total table content lines)
        ∨ total table content lines ≤ strictness
          ∧ ∀ seen, seen ≠ [] → seen <+: lines → int64 (total table content seen) ≤ strictness := by
  constructor
  · intro h
    by_cases habove : strictness < total table content lines
    · have hfits := fitsInt_score table content strictness hnew lines (h.blocked.mpr habove)
      rw [h.score habove] at hfits
      exact .inl ⟨habove, hfits⟩
    · refine .inr ⟨Int.not_lt.mp habove, fun seen hseen hpre => Int.not_lt.mp fun hlt => ?_⟩
      have hblocked :=
        (words_blocked_iff table content strictness hnew lines).mpr ⟨seen, hseen, hpre, hlt⟩
      exact habove (h.blocked.mp hblocked)
  · rintro (⟨habove, hfits⟩ | ⟨hbelow, hseen⟩)
    · have hpts := int64_eq_self hfits
      have hrun := @filterWords_above table content strictness responder lines hne (by rwa [hpts])
      refine ⟨?_, fun _ => ?_, fun _ => ?_⟩
      · rw [hrun]
        exact iff_of_true rfl habove
      · rw [hrun]
        exact hpts
      · rw [hrun]
        rfl
    · have hno : ¬ strictness < total table content lines := Int.not_lt.mpr hbelow
      refine ⟨iff_of_false (fun hblocked => ?_) hno, fun h => absurd h hno, fun h => absurd h hno⟩
      obtain ⟨seen, hne, hpre, hlt⟩ :=
        (words_blocked_iff table content strictness hnew lines).mp hblocked
      exact absurd (hseen seen hne hpre) (Int.not_le.mpr hlt)

omit hnew in
/-- The parts of a list are the prefixes of its orders. -/
theorem forall_prefix_perm_iff (lines : List GsFilterLine) :
    (∀ lines', lines'.Perm lines → ∀ seen, seen ≠ [] → seen <+: lines' →
        int64 (total table content seen) ≤ strictness)
      ↔ ∀ part, part ≠ [] → part.Sublist lines → int64 (total table content part) ≤ strictness := by
  constructor
  · intro h part hne hpart
    obtain ⟨rest, hperm⟩ := hpart.exists_perm_append
    exact h (part ++ rest) hperm.symm part hne (List.prefix_append part rest)
  · intro h lines' hperm seen hne hpre
    obtain ⟨part, hpart, hsub⟩ := List.exists_perm_sublist hpre.sublist hperm
    rw [← total_perm table content hpart]
    refine h part (fun hnil => ?_) hsub
    rw [hnil] at hpart
    exact hne hpart.symm.eq_nil

/-- **The verdict is that of the total exactly for these lists**, in the order of
the list and in all of its orders. -/
theorem verdict_by_total_iff {lines : List GsFilterLine} (hne : lines ≠ []) :
    (VerdictByTotal table content strictness responder lines
      ↔ strictness < total table content lines ∧ FitsInt (total table content lines)
        ∨ total table content lines ≤ strictness
          ∧ ∀ seen, seen ≠ [] → seen <+: lines → int64 (total table content seen) ≤ strictness)
    ∧ ((∀ lines', lines'.Perm lines → VerdictByTotal table content strictness responder lines')
      ↔ strictness < total table content lines ∧ FitsInt (total table content lines)
        ∨ total table content lines ≤ strictness
          ∧ ∀ part, part ≠ [] → part.Sublist lines →
            int64 (total table content part) ≤ strictness) := by
  refine ⟨verdictByTotal_iff table content strictness hnew hne, ?_⟩
  have horder : ∀ lines', lines'.Perm lines →
      (VerdictByTotal table content strictness responder lines'
        ↔ strictness < total table content lines ∧ FitsInt (total table content lines)
          ∨ total table content lines ≤ strictness
            ∧ ∀ seen, seen ≠ [] → seen <+: lines' →
              int64 (total table content seen) ≤ strictness) := by
    intro lines' hperm
    have hne' : lines' ≠ [] := fun hnil => hne (hnil ▸ hperm).symm.eq_nil
    rw [verdictByTotal_iff table content strictness hnew hne', total_perm table content hperm]
  rw [← forall_prefix_perm_iff]
  constructor
  · intro h
    by_cases habove : strictness < total table content lines
    · exact ((horder lines (.refl lines)).mp (h lines (.refl lines))).imp id fun hlow =>
        absurd habove (Int.not_lt.mpr hlow.1)
    · refine .inr ⟨Int.not_lt.mp habove, fun lines' hperm => ?_⟩
      obtain hhigh | hlow := (horder lines' hperm).mp (h lines' hperm)
      · exact absurd hhigh.1 habove
      · exact hlow.2
  · intro h lines' hperm
    refine (horder lines' hperm).mpr (h.imp id fun hlow => ⟨hlow.1, hlow.2 lines' hperm⟩)

/-- Without negative scores, and with a total that fits, the order does not
matter. -/
theorem verdictByTotal_of_nonneg {lines : List GsFilterLine} (hne : lines ≠ [])
    (hscore : ∀ v ∈ lines, 0 ≤ v.score) (hfits : total table content lines < 2 ^ 63) :
    VerdictByTotal table content strictness responder lines := by
  rw [verdictByTotal_iff table content strictness hnew hne]
  by_cases habove : strictness < total table content lines
  · have hlow := total_nonneg table content hscore
    exact .inl ⟨habove, by omega, hfits⟩
  · refine .inr ⟨Int.not_lt.mp habove, fun seen _ hpre => ?_⟩
    obtain ⟨rest, rfl⟩ := hpre
    have hsum : total table content (seen ++ rest)
        = total table content seen + total table content rest := by
      simp [total]
    have hseen := total_nonneg table content fun v hv => hscore v (List.mem_append_left rest hv)
    have hrest := total_nonneg table content fun v hv => hscore v (List.mem_append_right seen hv)
    rw [int64_eq_self ⟨by omega, by omega⟩]
    omega

end Words

/-- A list with a word that makes up for another one. -/
def balanced : List GsFilterLine := [⟨lit "drug", 10⟩, ⟨lit "clinic", -100⟩]

/-- Two words, both with points. -/
theorem verdict_by_total_example :
    VerdictByTotal id (lit "drugs") 5 .new [⟨lit "drug", 10⟩, ⟨lit "clinic", 1⟩] := by
  refine (@verdict_by_total_iff id (lit "drugs") 5 .new rfl
    [⟨lit "drug", 10⟩, ⟨lit "clinic", 1⟩] (by simp)).1.mpr (.inl ⟨?_, ?_⟩)
  · decide +kernel
  · unfold FitsInt
    decide +kernel

/-- The total is -90, and the page is blocked with a score of 10; with the two
words the other way around it is not. -/
theorem early_verdict_stands :
    ¬ VerdictByTotal id (lit "drug clinic") 5 .new balanced
      ∧ (filterWords id balanced.reverse 5 (lit "drug clinic") .new).blocked = false := by
  constructor
  · intro h
    have htotal := h.blocked.mp (by decide +kernel)
    exact absurd htotal (by decide +kernel)
  · decide +kernel

end Policy

end RbiProxy
