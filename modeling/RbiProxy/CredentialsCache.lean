import Mathlib.Data.List.Nodup
import RbiProxy.ProxyAuth
import RbiProxy.Reach

/-!
# Requests against the credentials cache

`ProxyCredentials` over any sequence of requests, from the empty cache. A header
that does not decode is put into the cache with two empty strings, and a hit is
`ok`: the second request with it is treated as one with credentials.

After some headers the cache holds those among them that have the scheme, each
with what it decodes to (`lookup_cacheAfter`). `transparent_iff` says for which
sequences the cache makes no difference.
-/

namespace RbiProxy

namespace Proxy

/-! ## Requests -/

def nextCache (cache : UsersCache) (auth : GoString) : UsersCache :=
  (proxyCredentials cache auth).2

def cacheAfter (auths : List GoString) : UsersCache := auths.foldl nextCache ∅

/-- `HandleAuthAndAssignUser` asks the `AuthHandler` about the header. -/
def asksHandler (p : GSProxy) (cache : UsersCache) (auth : GoString) : Prop :=
  p.isAuthEnabled = true ∧ (proxyCredentials cache auth).1.2.2 = true

/-- A request is treated as it is with an empty cache, and a header that the
`AuthHandler` is asked about has the second part that `IsUserValid` indexes. -/
structure Transparent (cache : UsersCache) (auth : GoString) : Prop where
  credentials : (proxyCredentials cache auth).1 = (proxyCredentials ∅ auth).1
  treated : ∀ (p : GSProxy) (h : ProxyHandler) (defaultUser : GoString),
    (handleAuthAndAssignUser p h cache auth defaultUser).1
      = (handleAuthAndAssignUser p h ∅ auth defaultUser).1
  inRange : ∀ p, asksHandler p cache auth → 32 ∈ auth ∧ ((auth.splitOn 32)[1]?).isSome = true

/-- The scheme, and something that does not decode. -/
def garbled (auth : GoString) : Bool := hasPrefix auth basic && (basicCredentials auth).isNone

/-! ## What the cache holds -/

/-- A header that the cache has, and one that it does not have. -/
theorem proxyCredentials_hit {cache : UsersCache} {auth : GoString} {val : GSUserCached}
    (h : cache.lookup auth = some val) :
    proxyCredentials cache auth = ((val.user, val.pass, true), cache) := by
  rw [proxyCredentials, h]

theorem proxyCredentials_miss {cache : UsersCache} {auth : GoString}
    (h : cache.lookup auth = none) :
    (proxyCredentials cache auth).1 = (proxyCredentials ∅ auth).1 := by
  have hempty : (∅ : UsersCache).lookup auth = none := rfl
  unfold proxyCredentials
  rw [h, hempty]
  dsimp only
  split
  · rfl
  · rfl

theorem proxyCredentials_scheme {auth : GoString} (h : hasPrefix auth basic = true) :
    (proxyCredentials ∅ auth).1
      = ((cachedOf auth).user, (cachedOf auth).pass, (basicCredentials auth).isSome) := by
  have hempty : (∅ : UsersCache).lookup auth = none := rfl
  have hscheme : ¬ (auth = [] ∨ hasPrefix auth basic = false) := by
    rintro (rfl | hno)
    · cases h
    · rw [h] at hno
      cases hno
  rw [proxyCredentials, hempty]
  dsimp only
  rw [if_neg hscheme]

theorem lookup_nextCache (cache : UsersCache) (auth a : GoString) :
    (nextCache cache auth).lookup a
      = if a = auth ∧ hasPrefix auth basic = true ∧ cache.lookup auth = none then
          some (cachedOf auth)
        else cache.lookup a := by
  unfold nextCache proxyCredentials
  cases hl : cache.lookup auth with
  | some val => simp
  | none =>
      dsimp only
      by_cases hscheme : auth = [] ∨ hasPrefix auth basic = false
      · have hno : hasPrefix auth basic = false := by
          rcases hscheme with rfl | hno
          · rfl
          · exact hno
        rw [if_pos hscheme, if_neg (by simp [hno])]
      · rw [if_neg hscheme]
        simp only [not_or, Bool.not_eq_false] at hscheme
        by_cases ha : a = auth
        · rw [if_pos ⟨ha, hscheme.2, rfl⟩, ha, AList.lookup_insert]
        · rw [if_neg fun h => ha h.1, AList.lookup_insert_ne ha]

/-- The headers with the scheme are kept, as they decode. -/
theorem lookup_cacheAfter (auths : List GoString) (a : GoString) :
    (cacheAfter auths).lookup a
      = if a ∈ auths ∧ hasPrefix a basic = true then some (cachedOf a) else none := by
  unfold cacheAfter
  induction auths using List.reverseRecOn with
  | nil => simp
  | append_singleton auths auth ih =>
      rw [List.foldl_append, List.foldl_cons, List.foldl_nil, lookup_nextCache]
      by_cases ha : a = auth
      · subst ha
        rw [ih]
        by_cases hmem : a ∈ auths
        · by_cases hscheme : hasPrefix a basic = true
          · simp [hmem, hscheme]
          · simp [hscheme]
        · by_cases hscheme : hasPrefix a basic = true
          · simp [hmem, hscheme]
          · simp [hscheme]
      · rw [if_neg fun h => ha h.1, ih]
        simp [ha]

theorem cacheOk_cacheAfter (auths : List GoString) : CacheOk (cacheAfter auths) := by
  intro a val h
  rw [lookup_cacheAfter] at h
  split at h
  · rename_i hseen
    exact ⟨hseen.2, (Option.some.inj h).symm⟩
  · cases h

/-! ## One request -/

/-- A header with the scheme has a space, and a part behind it. -/
theorem second_of_scheme {auth : GoString} (h : hasPrefix auth basic = true) :
    32 ∈ auth ∧ ((auth.splitOn 32)[1]?).isSome = true := by
  obtain ⟨rest, rfl⟩ := hasPrefix_iff.mp h
  have hsplit : basic ++ rest = lit "Basic" ++ 32 :: rest := rfl
  have hspace : (32 : UInt8) ∉ lit "Basic" := by decide
  constructor
  · rw [hsplit]
    simp
  · rw [hsplit, splitOn_second hspace]
    cases hparts : rest.splitOn 32 with
    | nil => exact absurd hparts (List.splitOn_ne_nil 32 rest)
    | cons part parts => rfl

theorem treated_of_credentials {cache : UsersCache} {auth : GoString}
    (h : (proxyCredentials cache auth).1 = (proxyCredentials ∅ auth).1) (p : GSProxy)
    (ph : ProxyHandler) (defaultUser : GoString) :
    (handleAuthAndAssignUser p ph cache auth defaultUser).1
      = (handleAuthAndAssignUser p ph ∅ auth defaultUser).1 := by
  unfold handleAuthAndAssignUser
  generalize proxyCredentials cache auth = found at h ⊢
  generalize proxyCredentials ∅ auth = fresh at h ⊢
  obtain ⟨⟨user, pass, ok⟩, cache⟩ := found
  obtain ⟨creds, cache'⟩ := fresh
  obtain rfl : (user, pass, ok) = creds := h
  split
  · dsimp only
    split
    · rfl
    · rfl
  · rfl

/-- The cache changes the answer only to a header that it has and that does not
decode. -/
theorem transparent_cacheAfter_iff (before : List GoString) (auth : GoString) :
    Transparent (cacheAfter before) auth ↔ (garbled auth = true → auth ∉ before) := by
  have hlookup := lookup_cacheAfter before auth
  have hrange : ∀ p, asksHandler p (cacheAfter before) auth →
      32 ∈ auth ∧ ((auth.splitOn 32)[1]?).isSome = true := fun _ hasks =>
    second_of_scheme (proxyCredentials_ok (cacheOk_cacheAfter before) hasks.2).1
  have hiff : (proxyCredentials (cacheAfter before) auth).1 = (proxyCredentials ∅ auth).1
      ↔ (garbled auth = true → auth ∉ before) := by
    by_cases hseen : auth ∈ before ∧ hasPrefix auth basic = true
    · rw [if_pos hseen] at hlookup
      rw [proxyCredentials_hit hlookup, proxyCredentials_scheme hseen.2]
      cases hcreds : basicCredentials auth with
      | none => simp [garbled, hseen, hcreds]
      | some creds => simp [garbled, hcreds]
    · rw [if_neg hseen] at hlookup
      refine iff_of_true (proxyCredentials_miss hlookup) fun hgarbled hmem => hseen ⟨hmem, ?_⟩
      rw [garbled, Bool.and_eq_true] at hgarbled
      exact hgarbled.1
  rw [← hiff]
  exact ⟨fun h => h.credentials, fun h => ⟨h, treated_of_credentials h, hrange⟩⟩

/-! ## All of them -/

theorem eachStep_cacheAfter (auths before : List GoString) :
    eachStep nextCache Transparent auths (cacheAfter before)
      ↔ (∀ a ∈ auths, garbled a = true → a ∉ before) ∧ (auths.filter garbled).Nodup := by
  induction auths generalizing before with
  | nil => simp [eachStep]
  | cons auth auths ih =>
      have hnext : nextCache (cacheAfter before) auth = cacheAfter (before ++ [auth]) := by
        rw [cacheAfter, cacheAfter, List.foldl_append]
        rfl
      rw [eachStep, transparent_cacheAfter_iff, hnext, ih, List.forall_mem_cons]
      cases hgarbled : garbled auth with
      | false =>
          rw [List.filter_cons_of_neg (by simp [hgarbled])]
          have hother : (∀ a ∈ auths, garbled a = true → a ∉ before ++ [auth])
              ↔ ∀ a ∈ auths, garbled a = true → a ∉ before := by
            refine forall₂_congr fun a _ => ?_
            refine forall_congr' fun ha => ?_
            have hne : a ≠ auth := by
              rintro rfl
              rw [hgarbled] at ha
              cases ha
            simp [hne]
          rw [hother]
          exact and_assoc.symm
      | true =>
          rw [List.filter_cons_of_pos hgarbled, List.nodup_cons]
          have hsplit : (∀ a ∈ auths, garbled a = true → a ∉ before ++ [auth])
              ↔ (∀ a ∈ auths, garbled a = true → a ∉ before) ∧ auth ∉ auths.filter garbled := by
            simp only [List.mem_append, List.mem_singleton, not_or, List.mem_filter, not_and]
            constructor
            · intro h
              refine ⟨fun a ha hg => (h a ha hg).1, fun ha hg => (h auth ha hg).2 rfl⟩
            · rintro ⟨hold, hnew⟩ a ha hg
              refine ⟨hold a ha hg, ?_⟩
              rintro rfl
              exact hnew ha hg
          rw [hsplit]
          tauto

/-- **For every sequence of requests: the cache makes no difference exactly if no
header with the scheme that does not decode comes twice.** -/
theorem transparent_iff (auths : List GoString) :
    eachStep nextCache Transparent auths ∅ ↔ (auths.filter garbled).Nodup := by
  have hall := eachStep_cacheAfter auths []
  have hfirst : ∀ a ∈ auths, garbled a = true → a ∉ ([] : List GoString) :=
    fun _ _ _ => List.not_mem_nil
  rw [and_iff_right hfirst] at hall
  exact hall

/-- The second request with a header that does not decode has credentials. -/
theorem failed_decode_is_cached :
    ¬ ∀ auths : List GoString, eachStep nextCache Transparent auths ∅ := by
  intro hall
  have hcreds := (hall [lit "Basic !", lit "Basic !"]).2.1.credentials
  have hsecond : (proxyCredentials (nextCache ∅ (lit "Basic !")) (lit "Basic !")).1.2.2 = true := by
    decide +kernel
  rw [hcreds] at hsecond
  exact absurd hsecond (by decide +kernel)

end Proxy

end RbiProxy
