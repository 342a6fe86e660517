import Mathlib.Data.List.Basic

/-!
# Slices and the arrays behind them

A slice shares its array with others: `append` writes into the array while there
is room, and only then takes a new one. `read` is what a slice holds, and the two
results are what `append` does to it (`read_appendAll`) and what it leaves alone:
the arrays that were there before a full slice grew (`kept_appendAll`).
-/

namespace RbiProxy

namespace GoHeap

/-- The arrays, each as long as it has room. -/
abbrev Heap (T : Type) := List (List T)

/-- A slice from the start of an array. -/
structure Slice where
  array : Nat
  len : Nat

variable {T : Type}

def cells (h : Heap T) (s : Slice) : List T := h[s.array]?.getD []

def read (h : Heap T) (s : Slice) : List T := (cells h s).take s.len

/-- A slice lies within its array, which is there. -/
structure Slice.Valid (s : Slice) (h : Heap T) : Prop where
  array : s.array < h.length
  len : s.len ≤ (cells h s).length

/-- `append(s, x)`. How much more room a new array has is left to the runtime:
`spare` are the cells behind the element. -/
def append (spare : Nat → List T) (acc : Heap T × Slice) (x : T) : Heap T × Slice :=
  let (h, s) := acc
  if s.len < (cells h s).length then
    (h.set s.array ((cells h s).set s.len x), { s with len := s.len + 1 })
  else (h ++ [read h s ++ x :: spare s.len], ⟨h.length, s.len + 1⟩)

/-- `append`, for one element after the other. -/
def appendAll (spare : Nat → List T) (h : Heap T) (s : Slice) (xs : List T) : Heap T × Slice :=
  xs.foldl (append spare) (h, s)

variable {spare : Nat → List T} {h : Heap T} {s : Slice}

theorem length_read (hs : s.Valid h) : (read h s).length = s.len := by
  rw [read, List.length_take, Nat.min_eq_left hs.len]

theorem append_spec (hs : s.Valid h) (x : T) :
    (append spare (h, s) x).2.Valid (append spare (h, s) x).1
      ∧ read (append spare (h, s) x).1 (append spare (h, s) x).2 = read h s ++ [x] := by
  unfold append
  dsimp only
  split
  · rename_i hroom
    have hcells : cells (h.set s.array ((cells h s).set s.len x)) ⟨s.array, s.len + 1⟩
        = (cells h s).set s.len x := by
      rw [cells, List.getElem?_set_self hs.array]
      rfl
    refine ⟨⟨by simpa using hs.array, ?_⟩, ?_⟩
    · rw [hcells, List.length_set]
      exact hroom
    · have hget : ((cells h s).set s.len x)[s.len]? = some x := List.getElem?_set_self hroom
      dsimp only
      rw [read, hcells, List.take_add_one, hget, List.take_set_of_le (Nat.le_refl _)]
      rfl
  · rename_i hfull
    have hcells : cells (h ++ [read h s ++ x :: spare s.len]) ⟨h.length, s.len + 1⟩
        = read h s ++ x :: spare s.len := by
      rw [cells, List.getElem?_concat_length]
      rfl
    refine ⟨⟨by simp, ?_⟩, ?_⟩
    · dsimp only
      rw [hcells, List.length_append, length_read hs, List.length_cons]
      omega
    · dsimp only
      rw [read, hcells]
      have hlen : s.len + 1 = (read h s).length + 1 := by rw [length_read hs]
      rw [hlen, List.take_length_add_append]
      rfl

theorem appendAll_spec (xs : List T) :
    ∀ {h : Heap T} {s : Slice}, s.Valid h →
      (appendAll spare h s xs).2.Valid (appendAll spare h s xs).1
        ∧ read (appendAll spare h s xs).1 (appendAll spare h s xs).2 = read h s ++ xs := by
  induction xs with
  | nil =>
      intro h s hs
      exact ⟨hs, (List.append_nil _).symm⟩
  | cons x xs ih =>
      intro h s hs
      obtain ⟨hvalid, hread⟩ := @append_spec _ spare _ _ hs x
      obtain ⟨hvalid', hread'⟩ := ih hvalid
      refine ⟨hvalid', hread'.trans ?_⟩
      rw [hread, List.append_assoc]
      rfl

theorem read_appendAll (hs : s.Valid h) (xs : List T) :
    read (appendAll spare h s xs).1 (appendAll spare h s xs).2 = read h s ++ xs :=
  (appendAll_spec xs hs).2

/-- The arrays below `n` are those of `h`. -/
def Kept (n : Nat) (h h' : Heap T) : Prop := ∀ i < n, h'[i]? = h[i]?

/-- A slice in an array above `n`, or a full one in the last array below it. -/
theorem kept_append {n : Nat} (hn : n ≤ h.length)
    (hs : n ≤ s.array ∨ (cells h s).length ≤ s.len) (x : T) :
    Kept n h (append spare (h, s) x).1
      ∧ n ≤ (append spare (h, s) x).2.array ∧ n ≤ (append spare (h, s) x).1.length := by
  unfold append
  dsimp only
  split
  · rename_i hroom
    have harray : n ≤ s.array := hs.resolve_right (Nat.not_le.mpr hroom)
    refine ⟨fun i hi => List.getElem?_set_ne (by omega), harray, ?_⟩
    rw [List.length_set]
    exact hn
  · refine ⟨fun i hi => List.getElem?_append_left (by omega), hn, ?_⟩
    rw [List.length_append]
    omega

theorem kept_appendAll (xs : List T) :
    ∀ {h : Heap T} {s : Slice} {n : Nat}, n ≤ h.length →
      n ≤ s.array ∨ (cells h s).length ≤ s.len → Kept n h (appendAll spare h s xs).1 := by
  induction xs with
  | nil => exact fun _ _ _ _ => rfl
  | cons x xs ih =>
      intro h s n hn hs
      obtain ⟨hkept, harray, hlen⟩ := @kept_append _ spare _ _ _ hn hs x
      intro i hi
      exact (ih hlen (.inl harray) i hi).trans (hkept i hi)

end GoHeap

end RbiProxy
