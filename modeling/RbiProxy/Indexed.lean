import Mathlib.Data.List.Basic

/-!
# Lists as tables

Objects that a program allocates and never frees (threads, timers, open
connections) are modelled by their position in a list that only grows. The
lemmas read such a table after one entry was changed or appended, and carry
a property of all entries across the change.
-/

namespace RbiProxy

namespace Indexed

variable {α : Type} {l : List α} {i j : Nat} {a b : α}

/-- An entry after `set` is the new one or an old one elsewhere. -/
theorem of_set (h : (l.set i a)[j]? = some b) :
    (j = i ∧ b = a) ∨ (j ≠ i ∧ l[j]? = some b) := by
  rw [List.getElem?_set] at h
  split at h
  · rename_i hij
    split at h
    · exact .inl ⟨hij.symm, (Option.some.inj h).symm⟩
    · cases h
  · rename_i hij
    exact .inr ⟨fun hji => hij hji.symm, h⟩

theorem set_self (h : l[i]? = some b) : (l.set i a)[i]? = some a := by
  rw [List.getElem?_set, if_pos rfl, if_pos (List.getElem?_eq_some_iff.mp h).1]

theorem set_ne (h : j ≠ i) : (l.set i a)[j]? = l[j]? := by
  rw [List.getElem?_set, if_neg (Ne.symm h)]

/-- An entry after appending is an old one or the new one at the end. -/
theorem of_concat (h : (l ++ [a])[j]? = some b) :
    l[j]? = some b ∨ (j = l.length ∧ b = a) := by
  rw [List.getElem?_append] at h
  split at h
  · exact .inl h
  · rename_i hlt
    have h0 : j - l.length = 0 := by
      by_contra hne
      rw [List.getElem?_eq_none (by simp only [List.length_singleton]; omega)] at h
      cases h
    rw [h0] at h
    exact .inr ⟨by omega, (Option.some.inj h).symm⟩

theorem concat_old (h : l[j]? = some b) : (l ++ [a])[j]? = some b := by
  rw [List.getElem?_append_left (List.getElem?_eq_some_iff.mp h).1, h]

/-- An entry that stops having a property is counted no longer. -/
theorem countP_set_lost {p : α → Bool} : ∀ {l : List α} {i : Nat}, l[i]? = some b →
    p b = true → p a = false → l.countP p = (l.set i a).countP p + 1
  | c :: l, 0, h, hb, ha => by
      obtain rfl : c = b := by simpa using h
      simp [hb, ha]
  | c :: l, i + 1, h, hb, ha => by
      have ih := countP_set_lost (l := l) (i := i) (by simpa using h) hb ha
      simp only [List.set_cons_succ, List.countP_cons]
      omega

theorem countP_set_same {p : α → Bool} : ∀ {l : List α} {i : Nat}, l[i]? = some b →
    p a = p b → (l.set i a).countP p = l.countP p
  | c :: l, 0, h, hab => by
      obtain rfl : c = b := by simpa using h
      simp [List.countP_cons, hab]
  | c :: l, i + 1, h, hab => by
      have ih := countP_set_same (l := l) (i := i) (by simpa using h) hab
      simp only [List.set_cons_succ, List.countP_cons, ih]

/-- Two tables side by side, of which one changes. -/
theorem zip_set_right {β : Type} {c : β} : ∀ {l : List α} {l' : List β} {i : Nat},
    l[i]? = some a → l.zip (l'.set i c) = (l.zip l').set i (a, c)
  | [], _, _, h => (by cases h)
  | _ :: _, [], _, _ => rfl
  | _ :: _, _ :: _, 0, h => by
      obtain rfl := Option.some.inj h
      rfl
  | b :: l, c' :: l', i + 1, h => congrArg ((b, c') :: ·) (zip_set_right (l := l) h)

theorem zip_set_left {β : Type} {c : β} : ∀ {l : List α} {l' : List β} {i : Nat},
    l'[i]? = some c → (l.set i a).zip l' = (l.zip l').set i (a, c)
  | [], _, _, _ => rfl
  | _ :: _, [], _, h => (by cases h)
  | _ :: _, _ :: _, 0, h => by
      obtain rfl := Option.some.inj h
      rfl
  | b :: l, c' :: l', i + 1, h => congrArg ((b, c') :: ·) (zip_set_left (l := l) h)

variable {P : Nat → α → Prop}

theorem forall_set (hall : ∀ j b, l[j]? = some b → P j b) (hnew : P i a) :
    ∀ j b, (l.set i a)[j]? = some b → P j b := by
  intro j b h
  rcases of_set h with ⟨rfl, rfl⟩ | ⟨-, h⟩
  · exact hnew
  · exact hall j b h

theorem forall_concat (hall : ∀ j b, l[j]? = some b → P j b) (hnew : P l.length a) :
    ∀ j b, (l ++ [a])[j]? = some b → P j b := by
  intro j b h
  rcases of_concat h with h | ⟨rfl, rfl⟩
  · exact hall j b h
  · exact hnew

end Indexed

end RbiProxy
