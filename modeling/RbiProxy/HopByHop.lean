import RbiProxy.GoHeader
import RbiProxy.GoHeap

/-!
# Fields that are meant for the proxy

`removeHopByHopHeaders`, which runs on the header of every request before it goes
on to the server. The list of names to remove starts as the global `HOP_BY_HOP`
and is appended to. The global has no room left, so that the names of a request
stay out of it, over any number of requests (`hopByHop_kept`).

The names in `Connection` are read with `Get`, that is from the first value only:
`hop_by_hop_removed_iff` says for which headers this is enough.
-/

namespace RbiProxy

namespace HopByHop

open GoHeap

/-! ## The function -/

def hopByHop : List GoString :=
  [lit "Connection", lit "Keep-Alive", lit "Proxy-Authenticate", lit "Proxy-Authorization",
    lit "Proxy-Connection", lit "TE", lit "Trailer", lit "Transfer-Encoding", lit "Upgrade"]

/-- The global slice, and the heap with the array of its literal. -/
def hopByHopSlice : Slice := ⟨0, 9⟩

def initialHeap : Heap GoString := [hopByHop]

def connectionTokens (c : GoString) : List GoString := (c.splitOn 44).map trimSpace

/-- The names that are appended. -/
def firstTokens (h : Header) : List GoString :=
  let c := h.get (lit "Connection")
  if c ≠ [] then connectionTokens c else []

section Remove

variable (spare : Nat → List GoString)

/-- The names to remove, as a slice. -/
def toRemove (heap : Heap GoString) (h : Header) : Heap GoString × Slice :=
  appendAll spare heap hopByHopSlice (firstTokens h)

def removeHopByHopHeaders (heap : Heap GoString) (h : Header) : Heap GoString × Header :=
  let (heap, names) := toRemove spare heap h
  (heap, (read heap names).foldl Header.del h)

def afterRequests (headers : List Header) : Heap GoString :=
  headers.foldl (fun heap h => (removeHopByHopHeaders spare heap h).1) initialHeap

/-! ## The global list -/

/-- The global slice lies in the first array and fills it. -/
def GlobalKept (heap : Heap GoString) : Prop := heap[0]? = some hopByHop

variable {spare} {heap : Heap GoString}

theorem GlobalKept.cells (hk : GlobalKept heap) : cells heap hopByHopSlice = hopByHop := by
  have hfirst : heap[hopByHopSlice.array]? = some hopByHop := hk
  rw [GoHeap.cells, hfirst]
  rfl

theorem GlobalKept.read (hk : GlobalKept heap) : read heap hopByHopSlice = hopByHop := by
  rw [GoHeap.read, hk.cells]
  rfl

theorem GlobalKept.valid (hk : GlobalKept heap) : hopByHopSlice.Valid heap where
  array := (List.getElem?_eq_some_iff.mp hk).1
  len := by
    rw [hk.cells]
    decide

theorem GlobalKept.remove (hk : GlobalKept heap) (h : Header) :
    GlobalKept (removeHopByHopHeaders spare heap h).1 := by
  have hlen : 1 ≤ heap.length := (List.getElem?_eq_some_iff.mp hk).1
  have hfull : (GoHeap.cells heap hopByHopSlice).length ≤ hopByHopSlice.len := by
    rw [hk.cells]
    decide
  exact (kept_appendAll _ hlen (.inr hfull) 0 Nat.zero_lt_one).trans hk

/-- The names of earlier requests are not in the list. -/
theorem hopByHop_kept (headers : List Header) : GlobalKept (afterRequests spare headers) := by
  unfold afterRequests
  induction headers using List.reverseRecOn with
  | nil => rfl
  | append_singleton headers h ih =>
      rw [List.foldl_append, List.foldl_cons, List.foldl_nil]
      exact ih.remove h

theorem remove_eq (hk : GlobalKept heap) (h : Header) :
    (removeHopByHopHeaders spare heap h).2
      = (hopByHop ++ firstTokens h).foldl Header.del h := by
  have hread := @read_appendAll _ spare _ _ hk.valid (firstTokens h)
  rw [hk.read] at hread
  exact congrArg (List.foldl Header.del h) hread

end Remove

/-! ## Which fields are gone -/

/-- A name of the list, in any spelling. -/
def Fixed (k : GoString) : Prop := ∃ n ∈ hopByHop, sameField n k

/-- A name in one of these values of `Connection`. -/
def Named (values : List GoString) (k : GoString) : Prop :=
  ∃ v ∈ values, ∃ t ∈ connectionTokens v, sameField t k

def connection (h : Header) : List GoString := h.values (lit "Connection")

/-- `h'` is `h` without the fields that are meant for the proxy. -/
structure Stripped (h h' : Header) : Prop where
  fixed : ∀ k ∈ h', ¬ Fixed k
  named : ∀ k ∈ h', ¬ Named (connection h) k
  kept : ∀ k, ¬ Fixed k → ¬ Named (connection h) k → h'.lookup k = h.lookup k

/-- The first value names all fields that the others do. -/
def FirstNamesAll (h : Header) : Prop :=
  ∀ k ∈ h, Named (connection h).tail k → Fixed k ∨ Named ((connection h).take 1) k

theorem not_named_empty {k : GoString} (hk : FieldName k) : ¬ Named [[]] k := by
  rintro ⟨v, hv, t, ht, hsame⟩
  rw [List.mem_singleton.mp hv] at ht
  obtain rfl := List.mem_singleton.mp (ht : t ∈ [[]])
  exact hk.nonempty (List.map_eq_nil_iff.mp hsame.symm)

/-- The names that the function takes from `Connection`. -/
theorem named_first_iff {k : GoString} (hk : FieldName k) (h : Header) :
    Named ((connection h).take 1) k ↔ ∃ t ∈ firstTokens h, sameField t k := by
  unfold connection firstTokens Header.get
  cases hvalues : h.values (lit "Connection") with
  | nil => simp [Named]
  | cons v vs =>
      by_cases hv : v = []
      · subst hv
        exact iff_of_false (not_named_empty hk) (by simp)
      · simp [Named, hv]

/-- A field of the request after the function. -/
theorem lookup_remove (spare : Nat → List GoString) {heap : Heap GoString} (hk : GlobalKept heap)
    (h : Header) {k : GoString} (hname : FieldName k) :
    (Fixed k ∨ Named ((connection h).take 1) k
        → (removeHopByHopHeaders spare heap h).2.lookup k = none)
      ∧ (¬ (Fixed k ∨ Named ((connection h).take 1) k)
        → (removeHopByHopHeaders spare heap h).2.lookup k = h.lookup k) := by
  have hany : (hopByHop ++ firstTokens h).any (canonicalMIMEHeaderKey · = k) = true
      ↔ Fixed k ∨ Named ((connection h).take 1) k := by
    rw [List.any_append, Bool.or_eq_true, named_first_iff hname, Fixed, List.any_eq_true,
      List.any_eq_true]
    simp only [decide_eq_true_eq, canonical_eq_iff hname]
  rw [remove_eq hk, Header.lookup_delAll]
  exact ⟨fun hgone => if_pos (hany.mpr hgone), fun hstay => if_neg (mt hany.mp hstay)⟩

theorem mem_of_mem_remove {spare : Nat → List GoString} {heap : Heap GoString}
    (hk : GlobalKept heap) {h : Header} {k : GoString}
    (hmem : k ∈ (removeHopByHopHeaders spare heap h).2) : k ∈ h := by
  rw [← AList.lookup_isSome] at hmem ⊢
  rw [remove_eq hk, Header.lookup_delAll] at hmem
  split at hmem
  · cases hmem
  · exact hmem

/-- Connection values: the first one and the others. -/
theorem named_iff (values : List GoString) (k : GoString) :
    Named values k ↔ Named (values.take 1) k ∨ Named values.tail k := by
  cases values with
  | nil => simp [Named]
  | cons v vs => simp [Named]

theorem stripped_iff {spare : Nat → List GoString} {heap : Heap GoString} (hk : GlobalKept heap)
    (r : RequestHeader) :
    Stripped r.fields (removeHopByHopHeaders spare heap r.fields).2 ↔ FirstNamesAll r.fields := by
  constructor
  · intro hs k hmem hnamed
    by_contra hstay
    -- a field that stays is not one that `Connection` names
    have hlookup := (lookup_remove spare hk r.fields (r.names k hmem)).2 hstay
    have hmem' : k ∈ (removeHopByHopHeaders spare heap r.fields).2 := by
      rw [← AList.lookup_isSome, hlookup, AList.lookup_isSome]
      exact hmem
    exact hs.named k hmem' ((named_iff _ k).mpr (.inr hnamed))
  · intro hall
    have hgone : ∀ k ∈ (removeHopByHopHeaders spare heap r.fields).2,
        ¬ (Fixed k ∨ Named ((connection r.fields).take 1) k) := by
      intro k hmem hgone
      have hlookup := (lookup_remove spare hk r.fields (r.names k (mem_of_mem_remove hk hmem))).1 hgone
      rw [← AList.lookup_isSome, hlookup] at hmem
      cases hmem
    refine ⟨fun k hmem hfixed => hgone k hmem (.inl hfixed), fun k hmem hnamed => ?_, ?_⟩
    · obtain hfirst | hrest := (named_iff _ k).mp hnamed
      · exact hgone k hmem (.inr hfirst)
      · exact hgone k hmem (hall k (mem_of_mem_remove hk hmem) hrest)
    · intro k hfixed hnamed
      by_cases hmem : k ∈ r.fields
      · refine (lookup_remove spare hk r.fields (r.names k hmem)).2 ?_
        rintro (hf | hfirst)
        · exact hfixed hf
        · exact hnamed ((named_iff _ k).mpr (.inl hfirst))
      · rw [AList.lookup_eq_none.mpr hmem,
          AList.lookup_eq_none.mpr fun hmem' => hmem (mem_of_mem_remove hk hmem')]

/-- **Exactly the fields that are meant for the proxy are removed, and the list of
names is the same as before, exactly if the first value of `Connection` names all
that the others do.** Any requests may have come before. -/
theorem hop_by_hop_removed_iff (spare : Nat → List GoString) (earlier : List Header)
    (r : RequestHeader) :
    (Stripped r.fields (removeHopByHopHeaders spare (afterRequests spare earlier) r.fields).2
      ∧ read (removeHopByHopHeaders spare (afterRequests spare earlier) r.fields).1 hopByHopSlice
        = hopByHop)
      ↔ FirstNamesAll r.fields := by
  have hk : GlobalKept (afterRequests spare earlier) := hopByHop_kept earlier
  rw [stripped_iff hk]
  exact and_iff_left (hk.remove r.fields).read

/-- Two lines of `Connection`, as a server reads them. -/
def twoLines : RequestHeader where
  fields := AList.insert (lit "X-Token") [lit "1"]
    (AList.insert (lit "Connection") [lit "close", lit "x-token"] ∅)
  names := by
    intro k hk
    rw [AList.mem_insert, AList.mem_insert] at hk
    obtain rfl | rfl | hk := hk
    · exact ⟨by decide, by decide, by decide⟩
    · exact ⟨by decide, by decide, by decide⟩
    · exact absurd hk (AList.notMem_empty k)

/-- The field that the second line names goes on to the server. -/
theorem second_line_ignored :
    Named (connection twoLines.fields) (lit "X-Token")
      ∧ (removeHopByHopHeaders (fun _ => []) initialHeap twoLines.fields).2.lookup (lit "X-Token")
        = some [lit "1"] := by
  refine ⟨⟨lit "x-token", by decide, lit "x-token", by decide, ?_⟩, by decide +kernel⟩
  unfold sameField
  decide

end HopByHop

end RbiProxy
