import RbiProxy.GoMap
import RbiProxy.GoString

/-!
# The certificate cache

`certificatecache.go`: forged certificates by server name and address, each for the
time `TTL`. What is said of it is in terms of the calls alone (`Spec`): a `Get`
finds the last `Put` of its key, if that is not too long ago.

The map and this history are connected by `Agrees`: an entry of the map is the
last `Put` of its key, and a last `Put` that is not in the map has expired. Both
hold through every call (`agrees_put`), as a clock that does not go back keeps
what has expired that way.
-/

namespace RbiProxy

namespace CertCache

/-! ## Times -/

/-- `time.Now`: the monotonic reading in nanoseconds since the process started. -/
structure Instant where
  ns : Nat
  lt : ns < 2 ^ 63

/-- `Time.Sub`, which stops at the ends of `time.Duration`. -/
def Instant.sub (t u : Instant) : Int := max (-2 ^ 63) (min (t.ns - u.ns) (2 ^ 63 - 1))

theorem Instant.sub_eq (t u : Instant) : t.sub u = t.ns - u.ns := by
  have ht := t.lt
  have hu := u.lt
  unfold Instant.sub
  omega

/-! ## The cache -/

structure CertCacheKey where
  name : GoString
  addr : GoString
deriving DecidableEq

/-- `certCacheEntry`. A transport may be `nil`. -/
structure CertCacheEntry (Cert Transport : Type) where
  certificate : Cert
  transport : Option Transport
  added : Instant

/-- `CertificateCache`. The map is made by the first `Put`. -/
structure CertificateCache (Cert Transport : Type) where
  cache : Option (GoMap CertCacheKey (CertCacheEntry Cert Transport))
  ttl : Int
  lastCleaned : Instant

variable {Cert Transport : Type}

namespace CertificateCache

def new (ttl : Int) : CertificateCache Cert Transport := ⟨none, ttl, ⟨0, by decide⟩⟩

/-- One round of the loop that removes expired entries. -/
def removeExpired (ttl : Int) (now : Instant)
    (m : GoMap CertCacheKey (CertCacheEntry Cert Transport)) (k : CertCacheKey) :
    GoMap CertCacheKey (CertCacheEntry Cert Transport) :=
  match m.lookup k with
  | some v => if ttl < now.sub v.added then m.erase k else m
  | none => m

def put (c : CertificateCache Cert Transport) (now : Instant) (key : CertCacheKey) (cert : Cert)
    (transport : Option Transport) : CertificateCache Cert Transport :=
  let (cache, lastCleaned) := match c.cache with
    | none => (∅, now)
    | some cache => (cache, c.lastCleaned)
  let ttl := if c.ttl ≤ 0 then 10 * 60 * 10 ^ 9 else c.ttl
  let cache := if ttl < now.sub lastCleaned then
      cache.keys.foldl (removeExpired ttl now) cache
    else cache
  ⟨some (cache.insert key ⟨cert, transport, now⟩), ttl, lastCleaned⟩

/-- `CertificateCache.Get`; `zero` is the empty certificate of a miss. -/
def get (zero : Cert) (c : CertificateCache Cert Transport) (now : Instant) (key : CertCacheKey) :
    Cert × Option Transport :=
  match c.cache.bind (AList.lookup key) with
  | none => (zero, none)
  | some v => if c.ttl < now.sub v.added then (zero, none) else (v.certificate, v.transport)

end CertificateCache

inductive Call (Cert Transport : Type) where
  | put (now : Instant) (key : CertCacheKey) (cert : Cert) (transport : Option Transport)
  | get (now : Instant) (key : CertCacheKey)

def Call.now : Call Cert Transport → Instant
  | .put now .. => now
  | .get now _ => now

def CertificateCache.step (c : CertificateCache Cert Transport) :
    Call Cert Transport → CertificateCache Cert Transport
  | .put now key cert transport => c.put now key cert transport
  | .get .. => c

def CertificateCache.run (c : CertificateCache Cert Transport) (calls : List (Call Cert Transport)) :
    CertificateCache Cert Transport := calls.foldl step c

/-! ## What a call should find -/

namespace Spec

/-- The `Put` calls, the last one first. -/
def putCalls (calls : List (Call Cert Transport)) :
    List (CertCacheKey × CertCacheEntry Cert Transport) :=
  calls.reverse.filterMap fun
    | .put now key cert transport => some (key, ⟨cert, transport, now⟩)
    | .get .. => none

def lifetime (ttl : Int) : Int := if ttl ≤ 0 then 10 * 60 * 10 ^ 9 else ttl

def Expired (ttl : Int) (now : Instant) (e : CertCacheEntry Cert Transport) : Prop :=
  lifetime ttl < (now.ns : Int) - e.added.ns

instance (ttl : Int) (now : Instant) (e : CertCacheEntry Cert Transport) :
    Decidable (Expired ttl now e) := inferInstanceAs (Decidable (_ < _))

/-- The last `Put` of the key, if it is not too long ago. -/
def get (zero : Cert) (ttl : Int) (calls : List (Call Cert Transport)) (now : Instant)
    (key : CertCacheKey) : Cert × Option Transport :=
  match (putCalls calls).lookup key with
  | none => (zero, none)
  | some e => if Expired ttl now e then (zero, none) else (e.certificate, e.transport)

end Spec

/-! ## Removing expired entries -/

section Remove

open CertificateCache

variable {ttl : Int} {now : Instant} {k : CertCacheKey} {e : CertCacheEntry Cert Transport}

/-- One round takes away the entry of its key, if that has expired. -/
theorem lookup_removeExpired (m : GoMap CertCacheKey (CertCacheEntry Cert Transport))
    (k' : CertCacheKey) :
    (removeExpired ttl now m k').lookup k = some e
      ↔ m.lookup k = some e ∧ ¬ (k' = k ∧ ttl < now.sub e.added) := by
  unfold removeExpired
  by_cases hk : k' = k
  · subst hk
    cases hv : m.lookup k' with
    | none => simp [hv]
    | some v =>
        dsimp only
        split
        · rename_i hexp
          rw [AList.lookup_erase]
          refine iff_of_false (by simp) ?_
          rintro ⟨hve, hnot⟩
          obtain rfl := Option.some.inj hve
          exact hnot ⟨rfl, hexp⟩
        · rename_i hlive
          rw [hv]
          refine ⟨fun hve => ⟨hve, fun h => ?_⟩, fun h => h.1⟩
          obtain rfl := Option.some.inj hve
          exact hlive h.2
  · have hsame : (match m.lookup k' with
        | some v => if ttl < now.sub v.added then m.erase k' else m
        | none => m).lookup k = m.lookup k := by
      split
      · split
        · exact AList.lookup_erase_ne (Ne.symm hk)
        · rfl
      · rfl
    rw [hsame]
    simp [hk]

theorem lookup_foldl_removeExpired (keys : List CertCacheKey) :
    ∀ m : GoMap CertCacheKey (CertCacheEntry Cert Transport),
      (keys.foldl (removeExpired ttl now) m).lookup k = some e
        ↔ m.lookup k = some e ∧ ¬ (k ∈ keys ∧ ttl < now.sub e.added) := by
  induction keys with
  | nil => simp
  | cons k' keys ih =>
      intro m
      rw [List.foldl_cons, ih, lookup_removeExpired, List.mem_cons]
      grind

/-- The loop leaves the entries that have not expired. -/
theorem lookup_clean (m : GoMap CertCacheKey (CertCacheEntry Cert Transport)) :
    (m.keys.foldl (removeExpired ttl now) m).lookup k = some e
      ↔ m.lookup k = some e ∧ ¬ ttl < now.sub e.added := by
  rw [lookup_foldl_removeExpired]
  refine and_congr_right fun he => not_congr (and_iff_right ?_)
  have hmem : k ∈ m := by
    rw [← AList.lookup_isSome, he]
    rfl
  exact hmem

end Remove

/-! ## The map and the history -/

section Agree

open CertificateCache Spec

variable (ttl : Int)

/-- A cache with a map, after these `Put` calls, the first of them at `first`. -/
structure Agrees (c : CertificateCache Cert Transport) (first : Instant)
    (puts : List (CertCacheKey × CertCacheEntry Cert Transport)) (now : Instant)
    (m : GoMap CertCacheKey (CertCacheEntry Cert Transport)) : Prop where
  cache : c.cache = some m
  ttl_eq : c.ttl = lifetime ttl
  lastCleaned : c.lastCleaned = first
  sound : ∀ k e, m.lookup k = some e → puts.lookup k = some e
  complete : ∀ k e, puts.lookup k = some e → m.lookup k = some e ∨ Expired ttl now e

variable {ttl} {c : CertificateCache Cert Transport} {first now : Instant}
  {puts : List (CertCacheKey × CertCacheEntry Cert Transport)}
  {m : GoMap CertCacheKey (CertCacheEntry Cert Transport)}

theorem Agrees.later (h : Agrees ttl c first puts now m) {now' : Instant}
    (hle : now.ns ≤ now'.ns) : Agrees ttl c first puts now' m where
  cache := h.cache
  ttl_eq := h.ttl_eq
  lastCleaned := h.lastCleaned
  sound := h.sound
  complete k e he := (h.complete k e he).imp id fun hexp => by
    unfold Expired at *
    omega

theorem lifetime_pos : 0 < lifetime ttl := by
  unfold lifetime
  split
  · decide
  · omega

/-- The map that a `Put` inserts into. -/
def cleaned (ttl : Int) (first now : Instant)
    (m : GoMap CertCacheKey (CertCacheEntry Cert Transport)) :
    GoMap CertCacheKey (CertCacheEntry Cert Transport) :=
  if lifetime ttl < now.sub first then m.keys.foldl (removeExpired (lifetime ttl) now) m else m

theorem lookup_cleaned_of {k : CertCacheKey} {e : CertCacheEntry Cert Transport}
    (h : (cleaned ttl first now m).lookup k = some e) : m.lookup k = some e := by
  unfold cleaned at h
  split at h
  · exact ((lookup_clean m).mp h).1
  · exact h

theorem lookup_cleaned {k : CertCacheKey} {e : CertCacheEntry Cert Transport}
    (h : m.lookup k = some e) :
    (cleaned ttl first now m).lookup k = some e ∨ Expired ttl now e := by
  unfold cleaned Expired
  rw [← Instant.sub_eq]
  split
  · rw [lookup_clean]
    by_cases hexp : lifetime ttl < now.sub e.added
    · exact .inr hexp
    · exact .inl ⟨h, hexp⟩
  · exact .inl h

theorem put_eq (h : Agrees ttl c first puts now m) (key : CertCacheKey) (cert : Cert)
    (transport : Option Transport) :
    c.put now key cert transport
      = ⟨some ((cleaned ttl first now m).insert key ⟨cert, transport, now⟩), lifetime ttl, first⟩ := by
  have hpos := @lifetime_pos ttl
  unfold CertificateCache.put
  rw [h.cache, h.ttl_eq, h.lastCleaned, if_neg (by omega)]
  rfl

theorem agrees_put (h : Agrees ttl c first puts now m) (key : CertCacheKey) (cert : Cert)
    (transport : Option Transport) :
    Agrees ttl (c.put now key cert transport) first ((key, ⟨cert, transport, now⟩) :: puts) now
      ((cleaned ttl first now m).insert key ⟨cert, transport, now⟩) where
  cache := by rw [put_eq h]
  ttl_eq := by rw [put_eq h]
  lastCleaned := by rw [put_eq h]
  sound k e he := by
    rw [List.lookup_cons]
    obtain ⟨rfl, rfl⟩ | ⟨hne, he⟩ := GoMap.of_lookup_insert he
    · rw [beq_self_eq_true]
    · rw [beq_false_of_ne hne]
      exact h.sound k e (lookup_cleaned_of he)
  complete k e he := by
    rw [List.lookup_cons] at he
    by_cases hk : k = key
    · subst hk
      rw [beq_self_eq_true] at he
      rw [AList.lookup_insert]
      exact .inl he
    · rw [beq_false_of_ne hk] at he
      rw [AList.lookup_insert_ne hk]
      obtain hm | hexp := h.complete k e he
      · exact lookup_cleaned hm
      · exact .inr hexp

/-- The first `Put`, as one into an empty map. -/
theorem agrees_first (now : Instant) (key : CertCacheKey) (cert : Cert)
    (transport : Option Transport) :
    Agrees ttl ((new ttl).put now key cert transport) now [(key, ⟨cert, transport, now⟩)] now
      ((cleaned ttl now now ∅).insert key ⟨cert, transport, now⟩) := by
  have hempty : @Agrees Cert Transport ttl
      ⟨some ∅, lifetime ttl, now⟩ now [] now ∅ :=
    ⟨rfl, rfl, rfl, fun _ _ he => (by cases he), fun _ _ he => (by cases he)⟩
  have hput : (new ttl).put now key cert transport
      = CertificateCache.put ⟨some ∅, lifetime ttl, now⟩ now key cert transport := by
    rw [put_eq hempty]
    rfl
  rw [hput]
  exact agrees_put hempty key cert transport

/-- The cache after any calls. -/
def Reached (ttl : Int) (c : CertificateCache Cert Transport) (calls : List (Call Cert Transport))
    (now : Instant) : Prop :=
  putCalls calls = [] ∧ c = new ttl
    ∨ ∃ first m, (putCalls calls).getLast?.map (·.2.added) = some first
      ∧ Agrees ttl c first (putCalls calls) now m

theorem putCalls_concat_put (calls : List (Call Cert Transport)) (now : Instant) (key : CertCacheKey)
    (cert : Cert) (transport : Option Transport) :
    putCalls (calls ++ [.put now key cert transport])
      = (key, ⟨cert, transport, now⟩) :: putCalls calls := by
  simp [putCalls]

theorem putCalls_concat_get (calls : List (Call Cert Transport)) (now : Instant) (key : CertCacheKey) :
    putCalls (calls ++ [.get now key]) = putCalls calls := by
  simp [putCalls]

theorem reached_step {calls : List (Call Cert Transport)} (h : Reached ttl c calls now)
    (call : Call Cert Transport) (hle : now.ns ≤ call.now.ns) :
    Reached ttl (c.step call) (calls ++ [call]) call.now := by
  cases call with
  | put now' key cert transport =>
      refine .inr ?_
      rw [putCalls_concat_put]
      obtain ⟨hnone, rfl⟩ | ⟨first, m, hfirst, hagree⟩ := h
      · rw [hnone]
        exact ⟨now', _, rfl, agrees_first now' key cert transport⟩
      · refine ⟨first, _, ?_, agrees_put (hagree.later hle) key cert transport⟩
        cases hputs : putCalls calls with
        | nil =>
            rw [hputs] at hfirst
            cases hfirst
        | cons p ps =>
            rw [hputs] at hfirst
            rw [List.getLast?_cons_cons]
            exact hfirst
  | get now' key =>
      unfold Reached
      rw [putCalls_concat_get]
      obtain hnone | ⟨first, m, hfirst, hagree⟩ := h
      · exact .inl hnone
      · exact .inr ⟨first, m, hfirst, hagree.later hle⟩

/-- All calls, with a clock that does not go back. -/
theorem reached_run (calls : List (Call Cert Transport)) :
    (calls.map fun call => call.now.ns).Pairwise (· ≤ ·) → ∀ now : Instant,
      (∀ call ∈ calls, call.now.ns ≤ now.ns) → Reached ttl ((new ttl).run calls) calls now := by
  induction calls using List.reverseRecOn with
  | nil => exact fun _ _ _ => .inl ⟨rfl, rfl⟩
  | append_singleton calls call ih =>
      intro hclock now hnow
      rw [List.map_append, List.pairwise_append] at hclock
      have hbefore : ∀ call' ∈ calls, call'.now.ns ≤ call.now.ns := fun call' hmem =>
        hclock.2.2 _ (List.mem_map_of_mem hmem) _ (by simp)
      have hstep := reached_step (ih hclock.1 call.now hbefore) call (Nat.le_refl _)
      rw [CertificateCache.run, List.foldl_append]
      refine Or.imp id ?_ hstep
      rintro ⟨first, m, hfirst, hagree⟩
      exact ⟨first, m, hfirst, hagree.later (hnow call (by simp))⟩

theorem get_eq (zero : Cert) {calls : List (Call Cert Transport)} (h : Reached ttl c calls now)
    (key : CertCacheKey) : c.get zero now key = Spec.get zero ttl calls now key := by
  unfold CertificateCache.get Spec.get
  obtain ⟨hnone, rfl⟩ | ⟨first, m, -, hagree⟩ := h
  · rw [hnone]
    rfl
  · rw [hagree.cache, hagree.ttl_eq, Option.bind_some]
    cases hm : m.lookup key with
    | some v =>
        have hexp : lifetime ttl < now.sub v.added ↔ Expired ttl now v := by
          rw [Instant.sub_eq]
          rfl
        rw [hagree.sound key v hm]
        exact if_congr hexp rfl rfl
    | none =>
        cases hp : (putCalls calls).lookup key with
        | none => rfl
        | some e =>
            have hexp := (hagree.complete key e hp).resolve_left (by simp [hm])
            exact (if_pos hexp).symm

theorem not_expired_put (h : Agrees ttl c first puts now m) (hage : lifetime ttl < now.sub first)
    (key : CertCacheKey) (cert : Cert) (transport : Option Transport) :
    ∀ m', (c.put now key cert transport).cache = some m' → ∀ k e, m'.lookup k = some e →
      ¬ Expired ttl now e := by
  intro m' hm' k e he
  rw [put_eq h] at hm'
  obtain rfl := Option.some.inj hm'
  unfold Expired
  obtain ⟨-, rfl⟩ | ⟨-, he⟩ := GoMap.of_lookup_insert he
  · have hpos := @lifetime_pos ttl
    dsimp only
    omega
  · rw [cleaned, if_pos hage, lookup_clean, Instant.sub_eq] at he
    exact he.2

/-- **The cache returns exactly the live entries**, and a `Put` later than the
lifetime after the first one leaves no expired entry. -/
theorem cache_exact (zero : Cert) (ttl : Int) {calls : List (Call Cert Transport)}
    (hclock : (calls.map fun call => call.now.ns).Pairwise (· ≤ ·)) {now : Instant}
    (hnow : ∀ call ∈ calls, call.now.ns ≤ now.ns) :
    (∀ key, ((new ttl).run calls).get zero now key = Spec.get zero ttl calls now key)
      ∧ ∀ first, (putCalls calls).getLast?.map (·.2.added) = some first →
        lifetime ttl < (now.ns : Int) - first.ns → ∀ key cert transport m,
        (((new ttl).run calls).put now key cert transport).cache = some m →
        ∀ k e, m.lookup k = some e → ¬ Expired ttl now e := by
  have hreached : Reached ttl ((new ttl).run calls) calls now := reached_run calls hclock now hnow
  refine ⟨get_eq zero hreached, fun first hfirst hage key cert transport => ?_⟩
  obtain ⟨hnone, -⟩ | ⟨first', m, hfirst', hagree⟩ := hreached
  · rw [hnone] at hfirst
    cases hfirst
  · obtain rfl : first' = first := Option.some.inj (hfirst'.symm.trans hfirst)
    rw [← Instant.sub_eq] at hage
    exact not_expired_put hagree hage key cert transport

end Agree

/-- A minute after the start of the process. -/
def minute : Instant := ⟨60 * 10 ^ 9, by decide⟩

/-- Two certificates, a minute apart. -/
def twoPuts : List (Call Nat Nat) :=
  [.put ⟨0, by decide⟩ ⟨lit "a", lit "b"⟩ 7 (some 1), .put minute ⟨lit "c", lit "d"⟩ 8 none]

/-- A `Get` within the ten minutes that an unset `TTL` stands for, and a `Put` behind them
that takes away the first certificate and leaves the second. -/
theorem cache_exact_default :
    ((CertificateCache.new 0).run twoPuts).get 0 ⟨10 * 60 * 10 ^ 9, by decide⟩ ⟨lit "a", lit "b"⟩
        = (7, some 1)
      ∧ ∃ m, (((CertificateCache.new 0).run twoPuts).put ⟨10 * 60 * 10 ^ 9 + 1, by decide⟩
          ⟨lit "e", lit "f"⟩ 9 none).cache = some m
        ∧ m.keys = [⟨lit "e", lit "f"⟩, ⟨lit "c", lit "d"⟩]
        ∧ ∀ k e, m.lookup k = some e → ¬ Spec.Expired 0 ⟨10 * 60 * 10 ^ 9 + 1, by decide⟩ e := by
  have hclock : (twoPuts.map fun call => call.now.ns).Pairwise (· ≤ ·) := by decide
  obtain ⟨hget, -⟩ := @cache_exact Nat Nat 0 0 _ hclock ⟨10 * 60 * 10 ^ 9, by decide⟩ (by decide)
  obtain ⟨-, hput⟩ :=
    @cache_exact Nat Nat 0 0 _ hclock ⟨10 * 60 * 10 ^ 9 + 1, by decide⟩ (by decide)
  refine ⟨(hget _).trans (by decide), _, rfl, by decide, ?_⟩
  exact hput ⟨0, by decide⟩ rfl (by decide) _ _ _ _ rfl

end CertCache

end RbiProxy
