import RbiProxy.GoString

/-!
# Sequences of length-prefixed entries

Many binary formats are a run of entries, each a header of `k` bytes and a
body whose length `len` reads off the header. `Entries` says that a byte
string is such a run from its first byte to its last, with `ok` holding of
every header and body. `Breaks` says that behind some complete entries
stands a header for which `bad` holds of everything that follows, which is
where a reader that trusts the header goes wrong.

Both are unfolded one entry at a time by `entries_append_iff` and
`breaks_append_iff`.
-/

namespace RbiProxy

namespace Framing

variable {k : Nat} {len : GoString → Nat} {ok bad : GoString → GoString → Prop}

/-- Complete entries from the first byte to the last. -/
inductive Entries (k : Nat) (len : GoString → Nat) (ok : GoString → GoString → Prop) :
    GoString → Prop where
  | nil : Entries k len ok []
  | cons {h body rest : GoString} (hk : h.length = k) (hlen : body.length = len h)
      (hok : ok h body) (hrest : Entries k len ok rest) :
      Entries k len ok (h ++ (body ++ rest))

/-- Behind complete entries a header for which `bad` holds. -/
inductive Breaks (k : Nat) (len : GoString → Nat) (ok bad : GoString → GoString → Prop) :
    GoString → Prop where
  | here {h rest : GoString} (hk : h.length = k) (hbad : bad h rest) :
      Breaks k len ok bad (h ++ rest)
  | there {h body rest : GoString} (hk : h.length = k) (hlen : body.length = len h)
      (hok : ok h body) (hrest : Breaks k len ok bad rest) :
      Breaks k len ok bad (h ++ (body ++ rest))

theorem length_le_of_entries {data : GoString} (h : Entries k len ok data)
    (hne : data ≠ []) : k ≤ data.length := by
  cases h with
  | nil => exact absurd rfl hne
  | cons hk hlen hok hrest => rw [List.length_append]; omega

theorem Entries.mono {ok' : GoString → GoString → Prop} (hok : ∀ h body, ok h body → ok' h body)
    {data : GoString} (h : Entries k len ok data) : Entries k len ok' data := by
  induction h with
  | nil => exact .nil
  | cons hk hlen hhere _ ih => exact .cons hk hlen (hok _ _ hhere) ih

theorem length_le_of_breaks {data : GoString} (h : Breaks k len ok bad data) :
    k ≤ data.length := by
  cases h with
  | here hk hbad => rw [List.length_append]; omega
  | there hk hlen hok hrest => rw [List.length_append]; omega

/-- Two ways to cut a string behind the same number of bytes agree. -/
theorem take_drop_of_append {l body rest : GoString} {n : Nat} (h : l = body ++ rest)
    (hlen : body.length = n) : n ≤ l.length ∧ body = l.take n ∧ rest = l.drop n := by
  subst h hlen
  refine ⟨?_, ?_, ?_⟩
  · rw [List.length_append]; omega
  · rw [List.take_left]
  · rw [List.drop_left]

theorem entries_append_iff {h l : GoString} (hk : h.length = k) (hpos : 0 < k) :
    Entries k len ok (h ++ l) ↔
      len h ≤ l.length ∧ ok h (l.take (len h)) ∧ Entries k len ok (l.drop (len h)) := by
  constructor
  · intro he
    generalize hd : h ++ l = data at he
    cases he with
    | nil =>
        rw [List.append_eq_nil_iff] at hd
        rw [hd.1] at hk
        exact absurd hk (by simp only [List.length_nil]; omega)
    | cons hk' hlen hok hrest =>
        obtain ⟨rfl, hl⟩ := List.append_inj hd (by omega)
        obtain ⟨hle, rfl, rfl⟩ := take_drop_of_append hl hlen
        exact ⟨hle, hok, hrest⟩
  · rintro ⟨hle, hok, hrest⟩
    rw [show l = l.take (len h) ++ l.drop (len h) from (List.take_append_drop _ _).symm]
    exact .cons hk (by rw [List.length_take]; omega) hok hrest

/-- The first header is the bad one, or the first entry is complete and the
run behind it breaks. -/
theorem breaks_append_iff {h l : GoString} (hk : h.length = k) :
    Breaks k len ok bad (h ++ l) ↔
      bad h l ∨ (len h ≤ l.length ∧ ok h (l.take (len h))
        ∧ Breaks k len ok bad (l.drop (len h))) := by
  constructor
  · intro hb
    generalize hd : h ++ l = data at hb
    cases hb with
    | here hk' hbad =>
        obtain ⟨rfl, rfl⟩ := List.append_inj hd (by omega)
        exact .inl hbad
    | there hk' hlen hok hrest =>
        obtain ⟨rfl, hl⟩ := List.append_inj hd (by omega)
        obtain ⟨hle, rfl, rfl⟩ := take_drop_of_append hl hlen
        exact .inr ⟨hle, hok, hrest⟩
  · rintro (hbad | ⟨hle, hok, hrest⟩)
    · exact .here hk hbad
    · rw [show l = l.take (len h) ++ l.drop (len h) from (List.take_append_drop _ _).symm]
      exact .there hk (by rw [List.length_take]; omega) hok hrest

end Framing

end RbiProxy
