import RbiProxy.Base64
import RbiProxy.GoMap

/-!
# Proxy authentication

`auth.go`: the credentials of a request and the user it is made for. The
user comes from one reading of the `Proxy-Authorization` header
(`proxyCredentials`, with its cache), the verdict from another, the
`AuthHandler`; without credentials the client's address stands in for the
user.

`proxyCredentials_ok` says what a header gives the user's name, whatever
requests have filled the cache (`CacheOk`).
-/

namespace RbiProxy

namespace Proxy

/-! ## The handlers -/

/-- `ProxyAction`, with the empty string a handler leaves untouched. -/
inductive ProxyAction where
  | unset
  | blockedTextContent
  | blockedMediaContent
  | blockedFileType
  | blockedTime
  | blockedInternetForUser
  | userNotFound
  | userActive
  | blockedUrl
  | sslDirect
  | sslBump
  | filterError
  | filterNone
deriving DecidableEq

/-- The handlers of `GSProxy` that a request passes before it is forwarded:
what each of them answers. A filter answers with its `FilterResponseAction`
and its `FilterResponse`. -/
structure GSProxy where
  isAuthEnabled : Bool
  authHandler : GoString → Bool
  userAccessHandler : GoString → ProxyAction × GoString
  timeAccessHandler : (url user : GoString) → ProxyAction × GoString
  urlAccessHandler : (url user : GoString) → ProxyAction × GoString
  contentTypeHandler : (url contentType : GoString) → ProxyAction
  doMitm : GoString → Bool
  isExceptionUrl : GoString → Bool

/-- `ProxyHandler`: whether the connection is TLS, and a user that has
already been authenticated. -/
structure ProxyHandler where
  tls : Bool
  user : GoString

/-! ## Credentials -/

/-- `decodeBase64Credentials`, `none` for `ok == false`. -/
def decodeBase64Credentials (auth : GoString) : Option (GoString × GoString) :=
  match Base64.decode (trimSpace auth) with
  | none => none
  | some auth =>
    match index auth (lit ":") with
    | none => none
    | some colon => some (auth.take colon, auth.drop (colon + 1))

structure GSUserCached where
  user : GoString
  pass : GoString

abbrev UsersCache := GoMap GoString GSUserCached

/-- The scheme a header has to start with. -/
def basic : GoString := lit "Basic "

/-- What a header that starts with `Basic ` decodes to. -/
def basicCredentials (auth : GoString) : Option (GoString × GoString) :=
  decodeBase64Credentials (trimPrefix auth basic)

/-- The value that is put into the cache: empty strings where the header
does not decode. -/
def cachedOf (auth : GoString) : GSUserCached :=
  match basicCredentials auth with
  | some (user, pass) => ⟨user, pass⟩
  | none => ⟨[], []⟩

/-- `ProxyCredentials`: user, password and `ok`, and the cache afterwards. A
hit is `ok`, also when the header did not decode. -/
def proxyCredentials (cache : UsersCache) (auth : GoString) :
    (GoString × GoString × Bool) × UsersCache :=
  match cache.lookup auth with
  | some val => ((val.user, val.pass, true), cache)
  | none =>
    if auth = [] ∨ hasPrefix auth basic = false then (([], [], false), cache)
    else
      (((cachedOf auth).user, (cachedOf auth).pass, (basicCredentials auth).isSome),
        cache.insert auth (cachedOf auth))

/-- `HandleAuthAndAssignUser`: user, password and `authUser`. -/
def handleAuthAndAssignUser (p : GSProxy) (h : ProxyHandler) (cache : UsersCache)
    (auth defaultUser : GoString) : (GoString × GoString × GoString) × UsersCache :=
  if p.isAuthEnabled then
    let ((user, pass, ok), cache) := proxyCredentials cache auth
    if ok ∧ p.authHandler auth = false then (([], pass, user), cache)
    else
      let authUser := if ok then user else defaultUser
      let (user, authUser) := if h.user ≠ [] then (h.user, h.user) else (user, authUser)
      ((if authUser ≠ [] then authUser else user, pass, authUser), cache)
  else ((defaultUser, [], defaultUser), cache)

/-! ## The cache -/

/-- Every entry is what its header decodes to. -/
def CacheOk (cache : UsersCache) : Prop :=
  ∀ auth val, cache.lookup auth = some val →
    hasPrefix auth basic = true ∧ val = cachedOf auth

theorem cacheOk_empty : CacheOk ∅ := by
  intro auth val h
  cases h

theorem cacheOk_proxyCredentials {cache : UsersCache} (h : CacheOk cache) (auth : GoString) :
    CacheOk (proxyCredentials cache auth).2 := by
  unfold proxyCredentials
  split
  · exact h
  split
  · exact h
  · rename_i hscheme
    intro auth' val hl
    rcases GoMap.of_lookup_insert hl with ⟨rfl, rfl⟩ | ⟨-, hl⟩
    · simp only [not_or, Bool.not_eq_false] at hscheme
      exact ⟨hscheme.2, rfl⟩
    · exact h auth' val hl

theorem cacheOk_handleAuthAndAssignUser {cache : UsersCache} (hc : CacheOk cache) (p : GSProxy)
    (h : ProxyHandler) (auth defaultUser : GoString) :
    CacheOk (handleAuthAndAssignUser p h cache auth defaultUser).2 := by
  unfold handleAuthAndAssignUser
  split
  · simp only
    split
    · exact cacheOk_proxyCredentials hc auth
    · exact cacheOk_proxyCredentials hc auth
  · exact hc

/-- Credentials that are `ok` come from a header with the scheme; the name is
the one it decodes to, or empty. -/
theorem proxyCredentials_ok {cache : UsersCache} (hc : CacheOk cache) {auth : GoString}
    (h : (proxyCredentials cache auth).1.2.2 = true) :
    hasPrefix auth basic = true ∧ (proxyCredentials cache auth).1.1 = (cachedOf auth).user := by
  unfold proxyCredentials at h ⊢
  split
  · rename_i val hval
    obtain ⟨hscheme, rfl⟩ := hc auth val hval
    exact ⟨hscheme, rfl⟩
  · rename_i hmiss
    simp only [hmiss] at h
    split at h
    · cases h
    · rename_i hscheme
      rw [if_neg hscheme]
      simp only [not_or, Bool.not_eq_false] at hscheme
      exact ⟨hscheme.2, rfl⟩

/-- A header that has not been seen and that gives no credentials. -/
def Unknown (cache : UsersCache) (auth : GoString) : Prop :=
  cache.lookup auth = none ∧ ¬ (hasPrefix auth basic = true ∧ (basicCredentials auth).isSome = true)

/-- Credentials that are not `ok` name nobody. -/
theorem proxyCredentials_notOk {cache : UsersCache} {auth : GoString}
    (h : (proxyCredentials cache auth).1.2.2 = false) :
    (proxyCredentials cache auth).1.1 = [] ∧ Unknown cache auth := by
  unfold proxyCredentials at h ⊢
  split at h
  · cases h
  · rename_i hmiss
    split at h
    · rename_i hno
      rw [if_pos hno]
      refine ⟨rfl, hmiss, fun ⟨hscheme, _⟩ => ?_⟩
      rcases hno with rfl | hno
      · cases hscheme
      · rw [hscheme] at hno
        cases hno
    · rename_i hno
      rw [if_neg hno]
      have hnone : basicCredentials auth = none := by simpa using h
      refine ⟨by simp only [cachedOf, hnone], hmiss, fun ⟨_, hsome⟩ => ?_⟩
      rw [hnone] at hsome
      cases hsome

theorem handleAuthAndAssignUser_user {p : GSProxy} {h : ProxyHandler} {cache : UsersCache}
    (hc : CacheOk cache) (hauth : p.isAuthEnabled = true) (hnone : h.user = [])
    {auth defaultUser user : GoString}
    (hu : (handleAuthAndAssignUser p h cache auth defaultUser).1.1 = user) (hne : user ≠ []) :
    (p.authHandler auth = true ∧ hasPrefix auth basic = true
      ∧ ∃ pass, basicCredentials auth = some (user, pass)) ∨
    (Unknown cache auth ∧ user = defaultUser) := by
  unfold handleAuthAndAssignUser at hu
  simp only [hauth, hnone, if_true, ne_eq, not_true_eq_false, if_false] at hu
  cases hok : (proxyCredentials cache auth).1.2.2 with
  | true =>
      obtain ⟨hscheme, hname⟩ := proxyCredentials_ok hc hok
      cases hverdict : p.authHandler auth with
      | false =>
          simp only [hok, hverdict, and_self, if_true] at hu
          exact absurd hu.symm hne
      | true =>
          simp only [hok, hverdict, Bool.true_eq_false, and_false, if_false, if_true, hname,
            ite_self] at hu
          refine .inl ⟨rfl, hscheme, ?_⟩
          cases hcreds : basicCredentials auth with
          | none =>
              simp only [cachedOf, hcreds] at hu
              exact absurd hu.symm hne
          | some creds =>
              simp only [cachedOf, hcreds] at hu
              exact ⟨creds.2, by rw [← hu]⟩
  | false =>
      obtain ⟨hnobody, hunknown⟩ := proxyCredentials_notOk hok
      refine .inr ⟨hunknown, ?_⟩
      simp only [hok, Bool.false_eq_true, false_and, if_false, hnobody] at hu
      split at hu
      · exact hu.symm
      · exact absurd hu.symm hne

end Proxy

end RbiProxy
