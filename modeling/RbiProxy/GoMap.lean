import Mathlib.Data.List.AList

/-!
# Go maps

A Go `map[K]V` is an association list with distinct keys, Mathlib's
`AList`. `m.lookup k` is the two-value read `v, ok := m[k]`, `m.insert k v`
is `m[k] = v` and `m.erase k` is `delete(m, k)`. A `range` over a map may
visit the entries in any order; models take the order, or the entry the
loop stops at, as an input.

The two counting lemmas say how the number of entries with a property
changes when one entry is added or removed: what reference counts kept in
a second map are compared with.
-/

namespace RbiProxy

/-- `map[K]V`. -/
abbrev GoMap (K V : Type) := AList fun _ : K => V

namespace GoMap

variable {K V : Type} [DecidableEq K]

/-- The one-value read `m[k]`, with the zero value of a missing key. -/
def get (m : GoMap K V) (k : K) (zero : V) : V := (m.lookup k).getD zero

@[simp] theorem get_empty (k : K) (z : V) : get (∅ : GoMap K V) k z = z := rfl

@[simp] theorem get_insert (m : GoMap K V) (k : K) (v z : V) :
    get (m.insert k v) k z = v := by
  simp [get]

theorem get_insert_ne {m : GoMap K V} {k k' : K} (h : k' ≠ k) (v z : V) :
    get (m.insert k v) k' z = get m k' z := by
  simp [get, AList.lookup_insert_ne h]

@[simp] theorem get_erase (m : GoMap K V) (k : K) (z : V) :
    get (m.erase k) k z = z := by
  simp [get]

theorem get_erase_ne {m : GoMap K V} {k k' : K} (h : k' ≠ k) (z : V) :
    get (m.erase k) k' z = get m k' z := by
  simp [get, AList.lookup_erase_ne h]

/-- A read after a write sees the new value or an old one under another key. -/
theorem of_lookup_insert {m : GoMap K V} {k k' : K} {v v' : V}
    (h : (m.insert k v).lookup k' = some v') :
    (k' = k ∧ v' = v) ∨ (k' ≠ k ∧ m.lookup k' = some v') := by
  by_cases hk : k' = k
  · subst hk
    rw [AList.lookup_insert] at h
    exact .inl ⟨rfl, (Option.some.inj h).symm⟩
  · rw [AList.lookup_insert_ne hk] at h
    exact .inr ⟨hk, h⟩

theorem of_lookup_erase {m : GoMap K V} {k k' : K} {v' : V}
    (h : (m.erase k).lookup k' = some v') : k' ≠ k ∧ m.lookup k' = some v' := by
  by_cases hk : k' = k
  · subst hk
    rw [AList.lookup_erase] at h
    cases h
  · rw [AList.lookup_erase_ne hk] at h
    exact ⟨hk, h⟩

/-- The number of entries whose value has a property. -/
def countVal (m : GoMap K V) (p : V → Bool) : Nat := m.entries.countP fun e => p e.2

omit [DecidableEq K] in
@[simp] theorem countVal_empty (p : V → Bool) : countVal (∅ : GoMap K V) p = 0 := rfl

theorem countVal_insert_of_notMem {m : GoMap K V} {k : K} (h : k ∉ m) (v : V)
    (p : V → Bool) :
    countVal (m.insert k v) p = countVal m p + if p v then 1 else 0 := by
  rw [countVal, AList.entries_insert_of_notMem h, List.countP_cons]
  rfl

theorem countVal_erase {m : GoMap K V} {k : K} {v : V} (h : m.lookup k = some v)
    (p : V → Bool) :
    countVal m p = countVal (m.erase k) p + if p v then 1 else 0 := by
  have hmem : k ∈ m := AList.lookup_isSome.mp (by rw [h]; rfl)
  obtain ⟨b, l₁, l₂, hk, hsplit, herase⟩ := List.exists_of_kerase hmem
  obtain rfl : b = v := by
    have hb : (⟨k, b⟩ : Sigma fun _ : K => V) ∈ m.entries := by rw [hsplit]; simp
    exact Option.some.inj ((AList.mem_lookup_iff.mpr hb).symm.trans h)
  have hE : (m.erase k).entries = l₁ ++ l₂ := herase
  unfold countVal
  rw [hE, hsplit]
  simp only [List.countP_append, List.countP_cons]
  omega

theorem countVal_insert_add {m : GoMap K V} {k : K} {v : V} (v' : V)
    (h : m.lookup k = some v) (p : V → Bool) :
    countVal (m.insert k v') p + (if p v then 1 else 0)
      = countVal m p + if p v' then 1 else 0 := by
  have hentries : (m.insert k v').entries = ⟨k, v'⟩ :: (m.erase k).entries := rfl
  have hold := countVal_erase h p
  have hnew : countVal (m.insert k v') p = countVal (m.erase k) p + if p v' then 1 else 0 := by
    rw [countVal, hentries, List.countP_cons]
    rfl
  omega

/-- Overwriting the value of a key by one with the same property. -/
theorem countVal_insert_of_lookup {m : GoMap K V} {k : K} {v : V} (v' : V)
    (h : m.lookup k = some v) (p : V → Bool) (hp : p v' = p v) :
    countVal (m.insert k v') p = countVal m p := by
  have hadd := countVal_insert_add v' h p
  rw [hp] at hadd
  omega

theorem countVal_pos_iff {m : GoMap K V} {p : V → Bool} :
    0 < countVal m p ↔ ∃ k v, m.lookup k = some v ∧ p v = true := by
  rw [countVal, List.countP_pos_iff]
  constructor
  · rintro ⟨⟨k, v⟩, hmem, hp⟩
    exact ⟨k, v, AList.mem_lookup_iff.mpr hmem, hp⟩
  · rintro ⟨k, v, hl, hp⟩
    exact ⟨⟨k, v⟩, AList.mem_lookup_iff.mp hl, hp⟩

/-- A property that only one key's value can have is counted at most once. -/
theorem countVal_le_one {m : GoMap K V} {p : V → Bool}
    (h : ∀ k₁ k₂ v₁ v₂, m.lookup k₁ = some v₁ → m.lookup k₂ = some v₂ → p v₁ = true →
      p v₂ = true → k₁ = k₂) : countVal m p ≤ 1 := by
  by_contra hlt
  obtain ⟨k, v, hk, hv⟩ := countVal_pos_iff.mp (show 0 < countVal m p by omega)
  have herase := countVal_erase hk p
  rw [if_pos hv] at herase
  obtain ⟨k', v', hk', hv'⟩ := countVal_pos_iff.mp (show 0 < countVal (m.erase k) p by omega)
  obtain ⟨hne, hk'⟩ := of_lookup_erase hk'
  exact hne (h k' k v' v hk' hk hv' hv)

/-! ## Deleting inside a `range` -/

def vals (m : GoMap K V) : List V := m.entries.map fun e => e.2

/-- Delete the entries whose value fails a test. -/
def filterVal (m : GoMap K V) (p : V → Bool) : GoMap K V :=
  ⟨m.entries.filter fun e => p e.2, m.nodupKeys.sublist List.filter_sublist⟩

theorem mem_vals {m : GoMap K V} {v : V} : v ∈ vals m ↔ ∃ k, m.lookup k = some v := by
  rw [vals, List.mem_map]
  constructor
  · rintro ⟨⟨k, v⟩, hmem, rfl⟩
    exact ⟨k, AList.mem_lookup_iff.mpr hmem⟩
  · rintro ⟨k, hl⟩
    exact ⟨⟨k, v⟩, AList.mem_lookup_iff.mp hl, rfl⟩

omit [DecidableEq K] in
theorem countP_vals (m : GoMap K V) (p : V → Bool) : (vals m).countP p = countVal m p := by
  rw [vals, List.countP_map]
  rfl

theorem lookup_filterVal {m : GoMap K V} {p : V → Bool} {k : K} {v : V} :
    (filterVal m p).lookup k = some v ↔ m.lookup k = some v ∧ p v = true := by
  have hmem : ∀ n : GoMap K V, n.lookup k = some v ↔ (⟨k, v⟩ : Sigma fun _ : K => V) ∈ n.entries :=
    fun n => AList.mem_lookup_iff
  rw [hmem, hmem, filterVal, List.mem_filter]

/-! ## Entries one after the other -/

theorem lookup_insertAll_of_notMem {es : List (K × V)} {k : K} (h : k ∉ es.map Prod.fst)
    (m : GoMap K V) : (es.foldl (fun m e => m.insert e.1 e.2) m).lookup k = m.lookup k := by
  induction es generalizing m with
  | nil => rfl
  | cons e es ih =>
      rw [List.map_cons, List.mem_cons, not_or] at h
      rw [List.foldl_cons, ih h.2, AList.lookup_insert_ne h.1]

theorem lookup_insertAll_of_mem {es : List (K × V)} {k : K} {v : V}
    (hnodup : (es.map Prod.fst).Nodup) (h : (k, v) ∈ es) (m : GoMap K V) :
    (es.foldl (fun m e => m.insert e.1 e.2) m).lookup k = some v := by
  induction es generalizing m with
  | nil => cases h
  | cons e es ih =>
      rw [List.map_cons, List.nodup_cons] at hnodup
      rw [List.foldl_cons]
      obtain rfl | hrest := List.mem_cons.mp h
      · rw [lookup_insertAll_of_notMem hnodup.1, AList.lookup_insert]
      · exact ih hnodup.2 hrest _

end GoMap

end RbiProxy
