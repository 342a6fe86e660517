import RbiProxy.GoNet
import RbiProxy.ProxyAuth

/-!
# The way of a request to its action

`ProxyHandler.ServeHTTP` in `proxy.go`, from the arrival of a request to the
choice of what is done with it: a refusal, TLS termination (`ssl-bump`), a
tunnel, or (for anything but `CONNECT`) going on to isolation and
forwarding. The authentication gate, the policy filters and the host tests
are in the order of the source.

`URL.String`, `net.ParseIP`, `mime.TypeByExtension` and the case table of
`unicode` are parameters. Log lines and the response header for
`google.com` are left out.
-/

namespace RbiProxy

namespace Proxy

/-! ## Requests -/

/-- `url.URL`: the fields this path reads or writes, and the rest. -/
structure URL where
  scheme : GoString
  host : GoString
  path : GoString
  rest : GoString
deriving DecidableEq

/-- `http.Request`, with the value of its `Proxy-Authorization` header. -/
structure Request where
  method : GoString
  url : URL
  host : GoString
  remoteAddr : GoString
  proxyAuthorization : GoString

/-- What the process takes from the library and from its environment.
`isolateHosts` is `RBI_ISOLATE_HOSTS` with its default. -/
structure Env where
  urlString : URL → GoString
  parseIP : GoString → Option IP
  typeByExtension : GoString → GoString
  lowerTable : Rune → Rune
  isolateHosts : GoString

/-- How `ServeHTTP` ends, or where it goes on. -/
inductive Served where
  | error (status : Nat) (text : GoString)
  | authRequired
  | block (page : GoString)
  | redirect (location : URL)
  | bump (serverAddr user authUser : GoString)
  | tunnel (serverAddr user : GoString)
  | forward (url : URL) (user authUser : GoString)
deriving DecidableEq

def connect : GoString := lit "CONNECT"

/-! ## Hosts -/

def isLanAddress (env : Env) (addr : GoString) : Bool :=
  match env.parseIP addr with
  | none => false
  | some ip =>
    match ip.to4 with
    | some ip4 =>
      if ip4[0] = 10 ∨ ip4[0] = 127 then true
      else if ip4[0] = 172 then ip4[1] &&& 0xf0 = 16
      else if ip4[0] = 192 then ip4[1] = 168
      else false
    | none =>
      if ip[0] &&& 0xfe = 0xfc then true
      else if ip[0] = 0xfe ∧ ip[1] &&& 0xfc = 0x80 then true
      else ip = IP.loopback6

/-- `strings.Split(r.URL.Host, ":")[0]`. -/
def hostAddress (host : GoString) : GoString := (host.splitOn 58).headD []

/-- One entry of `RBI_ISOLATE_HOSTS` against a host. -/
def isolateEntry (env : Env) (host entry : GoString) : Bool :=
  let h := trimSpace (toLower env.lowerTable entry)
  h ≠ [] && (host = h || hasSuffix host (lit "." ++ h))

def rbiShouldIsolate (env : Env) (hostport : GoString) : Bool :=
  let host := toLower env.lowerTable (trimSpace (cutLast hostport 58))
  (env.isolateHosts.splitOn 44).any (isolateEntry env host)

/-- `client`: the remote address without its port. -/
def clientOf (remoteAddr : GoString) : GoString :=
  match splitHostPort remoteAddr with
  | .ok (host, _) => host
  | .error _ => remoteAddr

/-- The scheme and host a request line may leave out; `none` when there is no
host at all. -/
def fillURL (h : ProxyHandler) (r : Request) : Option URL :=
  let scheme := if r.url.scheme = [] then (if h.tls then lit "https" else lit "http")
    else r.url.scheme
  if r.url.host ≠ [] then some { r.url with scheme := scheme }
  else if r.host ≠ [] then some { r.url with scheme := scheme, host := r.host }
  else none

/-- The host of a `CONNECT` to a bare IPv6 address gets its brackets. -/
def bracketHost (env : Env) (url : URL) : URL :=
  match splitHostPort url.host with
  | .error .tooManyColons =>
    match lastIndexByte url.host 58 with
    | some colon =>
      if (env.parseIP (url.host.take colon)).isSome then
        { url with host := joinHostPort (url.host.take colon) (url.host.drop (colon + 1)) }
      else url
    | none => url
  | _ => url

/-! ## File types -/

def getFileExtensionFromUrl (url : GoString) : GoString :=
  let url := (url.splitOn 63).headD []
  match lastIndexByte url 46 with
  | some dot => url.drop (dot + 1)
  | none => []

def getMimeByExtension (env : Env) (extension : GoString) : GoString :=
  ((env.typeByExtension (lit "." ++ extension)).splitOn 59).headD []

/-- Where a request for a blocked file type is sent. -/
def blockedSvg (url : URL) : URL :=
  { url with scheme := lit "https", host := lit "blocked.gatesentryguard.com",
             path := lit "/file/gatesentryguard/blocked.svg" }

/-! ## The stages -/

/-- The authentication gate: the refusal, or the user and `authUser`. -/
def authGate (p : GSProxy) (h : ProxyHandler) (cache : UsersCache) (auth client : GoString)
    (isHostLanAddress : Bool) : Except Served (GoString × GoString) × UsersCache :=
  let ((user, _, authUser), cache) := handleAuthAndAssignUser p h cache auth client
  if p.isAuthEnabled then
    if user = [] ∨ user = lit "127.0.0.1" then (.error .authRequired, cache)
    else if (p.userAccessHandler user).1 = .userNotFound then (.error .authRequired, cache)
    else if (p.userAccessHandler user).1 ≠ .userActive ∧ isHostLanAddress = false then
      (.error (.block (p.userAccessHandler user).2), cache)
    else (.ok (user, authUser), cache)
  else (.ok (user, authUser), cache)

inductive Action where
  | none
  | sslBump
deriving DecidableEq

def chooseAction (env : Env) (p : GSProxy) (method : GoString) (url : URL)
    (isHostLanAddress : Bool) : Action :=
  let action := if method = connect then Action.sslBump else .none
  let shouldMitm := p.doMitm url.host && rbiShouldIsolate env url.host
  let action := if isHostLanAddress then .none else action
  let action := if shouldMitm = false then .none else action
  if p.isExceptionUrl (env.urlString url) then .none else action

/-- The URL filter, the file types and the action. -/
def applyFilters (env : Env) (p : GSProxy) (method : GoString) (url : URL)
    (isHostLanAddress : Bool) (user authUser : GoString) : Served :=
  if (p.urlAccessHandler (env.urlString url) user).1 = .blockedUrl then
    .block (p.urlAccessHandler (env.urlString url) user).2
  else if p.contentTypeHandler (env.urlString url)
      (getMimeByExtension env (getFileExtensionFromUrl (env.urlString url)))
        = .blockedFileType then
    .redirect (blockedSvg url)
  else if chooseAction env p method url isHostLanAddress = .sslBump then
    .bump url.host user authUser
  else if method = connect then .tunnel url.host user
  else .forward url user authUser

/-- The URL that the filters behind the time filter see. -/
def targetURL (env : Env) (method : GoString) (url : URL) : URL :=
  if method = connect then bracketHost env url else url

/-- From the time filter to the action. -/
def applyPolicy (env : Env) (p : GSProxy) (method : GoString) (url : URL)
    (isHostLanAddress : Bool) (user authUser : GoString) : Served :=
  if (p.timeAccessHandler (env.urlString url) user).1 = .blockedTime then
    .block (p.timeAccessHandler (env.urlString url) user).2
  else applyFilters env p method (targetURL env method url) isHostLanAddress user authUser

/-- `ServeHTTP` up to the authentication gate, and the cache afterwards: the
refusal, or the URL, the user and `authUser` it goes on with. -/
def admitted (env : Env) (p : GSProxy) (h : ProxyHandler) (cache : UsersCache) (r : Request) :
    Except Served (URL × GoString × GoString) × UsersCache :=
  if 10000 < (env.urlString r.url).length then
    (.error (.error 414 (lit "URL too long")), cache)
  else
    match fillURL h r with
    | none => (.error (.error 400 (lit "No host in request URL, and no Host header.")), cache)
    | some url =>
      -- the address is looked at before a missing host is filled in
      match authGate p h cache r.proxyAuthorization (clientOf r.remoteAddr)
          (isLanAddress env (hostAddress r.url.host)) with
      | (.error reply, cache) => (.error reply, cache)
      | (.ok (user, authUser), cache) => (.ok (url, user, authUser), cache)

/-- `ServeHTTP` up to the action, and the cache afterwards. -/
def serveHTTP (env : Env) (p : GSProxy) (h : ProxyHandler) (cache : UsersCache) (r : Request) :
    Served × UsersCache :=
  match admitted env p h cache r with
  | (.error reply, cache) => (reply, cache)
  | (.ok (url, user, authUser), cache) =>
    (applyPolicy env p r.method url (isLanAddress env (hostAddress r.url.host)) user authUser,
      cache)

/-! ## When TLS is terminated -/

/-- A connection to `addr` is bumped only for a `CONNECT` to a host that is
isolated, that may be intercepted, that is not on the local network and whose
URL is no exception. -/
structure Bumped (env : Env) (p : GSProxy) (h : ProxyHandler) (r : Request)
    (addr : GoString) : Prop where
  method : r.method = connect
  isolated : rbiShouldIsolate env addr = true
  mitm : p.doMitm addr = true
  notLan : isLanAddress env (hostAddress r.url.host) = false
  notException : ∃ url, fillURL h r = some url ∧ (bracketHost env url).host = addr
    ∧ p.isExceptionUrl (env.urlString (bracketHost env url)) = false

theorem chooseAction_sslBump {env : Env} {p : GSProxy} {method : GoString} {url : URL}
    {lan : Bool} (h : chooseAction env p method url lan = .sslBump) :
    method = connect ∧ rbiShouldIsolate env url.host = true ∧ p.doMitm url.host = true
      ∧ lan = false ∧ p.isExceptionUrl (env.urlString url) = false := by
  unfold chooseAction at h
  simp only at h
  split at h
  · cases h
  · rename_i hexc
    split at h
    · cases h
    · rename_i hmitm
      split at h
      · cases h
      · rename_i hlan
        split at h
        · rename_i hmethod
          simp only [Bool.not_eq_false, Bool.and_eq_true] at hmitm
          exact ⟨hmethod, hmitm.2, hmitm.1, by simpa using hlan, by simpa using hexc⟩
        · cases h

theorem applyFilters_bump {env : Env} {p : GSProxy} {method addr : GoString} {url : URL}
    {lan : Bool} {user authUser user' authUser' : GoString}
    (h : applyFilters env p method url lan user authUser = .bump addr user' authUser') :
    url.host = addr ∧ chooseAction env p method url lan = .sslBump := by
  unfold applyFilters at h
  split at h
  · cases h
  split at h
  · cases h
  split at h
  · rename_i hact
    exact ⟨(Served.bump.inj h).1, hact⟩
  · split at h <;> cases h

theorem applyPolicy_bump {env : Env} {p : GSProxy} {method addr : GoString} {url : URL}
    {lan : Bool} {user authUser user' authUser' : GoString}
    (h : applyPolicy env p method url lan user authUser = .bump addr user' authUser') :
    (targetURL env method url).host = addr
      ∧ chooseAction env p method (targetURL env method url) lan = .sslBump := by
  unfold applyPolicy at h
  split at h
  · cases h
  · exact applyFilters_bump h

/-- The gate refuses with a request for credentials or with a block page. -/
theorem authGate_error {p : GSProxy} {h : ProxyHandler} {cache cache' : UsersCache}
    {auth client : GoString} {lan : Bool} {reply : Served}
    (hg : authGate p h cache auth client lan = (.error reply, cache')) :
    reply = .authRequired ∨ ∃ page, reply = .block page := by
  unfold authGate at hg
  simp only at hg
  split at hg
  · split at hg
    · obtain ⟨hr, -⟩ := Prod.mk.inj hg
      exact .inl (Except.error.inj hr).symm
    split at hg
    · obtain ⟨hr, -⟩ := Prod.mk.inj hg
      exact .inl (Except.error.inj hr).symm
    split at hg
    · obtain ⟨hr, -⟩ := Prod.mk.inj hg
      exact .inr ⟨_, (Except.error.inj hr).symm⟩
    · cases (Prod.mk.inj hg).1
  · cases (Prod.mk.inj hg).1

/-- With authentication on, the gate lets through only users that exist, and
not the local host. -/
theorem authGate_ok {p : GSProxy} {h : ProxyHandler} {cache cache' : UsersCache}
    {auth client user authUser : GoString} {lan : Bool} (hauth : p.isAuthEnabled = true)
    (hg : authGate p h cache auth client lan = (.ok (user, authUser), cache')) :
    (handleAuthAndAssignUser p h cache auth client).1.1 = user ∧ user ≠ []
      ∧ user ≠ lit "127.0.0.1" ∧ (p.userAccessHandler user).1 ≠ .userNotFound := by
  unfold authGate at hg
  dsimp only at hg
  rw [if_pos hauth] at hg
  split at hg
  · cases (Prod.mk.inj hg).1
  · rename_i hempty
    split at hg
    · cases (Prod.mk.inj hg).1
    · rename_i hfound
      split at hg
      · cases (Prod.mk.inj hg).1
      · obtain ⟨rfl, -⟩ := Prod.mk.inj (Except.ok.inj (Prod.mk.inj hg).1)
        exact ⟨rfl, fun hnil => hempty (.inl hnil), fun hlocal => hempty (.inr hlocal), hfound⟩

theorem cacheOk_authGate {cache : UsersCache} (hc : CacheOk cache) (p : GSProxy)
    (h : ProxyHandler) (auth client : GoString) (lan : Bool) :
    CacheOk (authGate p h cache auth client lan).2 := by
  have hafter := cacheOk_handleAuthAndAssignUser hc p h auth client
  unfold authGate
  dsimp only
  split
  · split
    · exact hafter
    split
    · exact hafter
    split
    · exact hafter
    · exact hafter
  · exact hafter

/-- A request that is refused before the filters is not bumped. -/
theorem admitted_error {env : Env} {p : GSProxy} {h : ProxyHandler} {cache cache' : UsersCache}
    {r : Request} {reply : Served} (ha : admitted env p h cache r = (.error reply, cache'))
    (addr user authUser : GoString) : reply ≠ .bump addr user authUser := by
  unfold admitted at ha
  split at ha
  · rw [← Except.error.inj (Prod.mk.inj ha).1]
    exact nofun
  split at ha
  · rw [← Except.error.inj (Prod.mk.inj ha).1]
    exact nofun
  split at ha
  · rename_i reply' cache₁ hg
    obtain rfl := Except.error.inj (Prod.mk.inj ha).1
    rcases authGate_error hg with rfl | ⟨page, rfl⟩ <;> exact nofun
  · cases (Prod.mk.inj ha).1

theorem admitted_ok {env : Env} {p : GSProxy} {h : ProxyHandler} {cache cache' : UsersCache}
    {r : Request} {url : URL} {user authUser : GoString}
    (ha : admitted env p h cache r = (.ok (url, user, authUser), cache')) :
    fillURL h r = some url ∧ authGate p h cache r.proxyAuthorization (clientOf r.remoteAddr)
      (isLanAddress env (hostAddress r.url.host)) = (.ok (user, authUser), cache') := by
  unfold admitted at ha
  split at ha
  · cases (Prod.mk.inj ha).1
  split at ha
  · cases (Prod.mk.inj ha).1
  · rename_i url' hurl
    split at ha
    · cases (Prod.mk.inj ha).1
    · rename_i user' authUser' cache₁ hg
      obtain ⟨hok, rfl⟩ := Prod.mk.inj ha
      obtain ⟨rfl, hpair⟩ := Prod.mk.inj (Except.ok.inj hok)
      obtain ⟨rfl, rfl⟩ := Prod.mk.inj hpair
      exact ⟨hurl, hg⟩

theorem cacheOk_admitted {env : Env} {p : GSProxy} {h : ProxyHandler} {cache : UsersCache}
    {r : Request} (hc : CacheOk cache) : CacheOk (admitted env p h cache r).2 := by
  have hgate := cacheOk_authGate hc p h r.proxyAuthorization (clientOf r.remoteAddr)
    (isLanAddress env (hostAddress r.url.host))
  unfold admitted
  split
  · exact hc
  split
  · exact hc
  split
  · rename_i reply cache' hg
    rwa [hg] at hgate
  · rename_i user authUser cache' hg
    rwa [hg] at hgate

theorem serveHTTP_bump {env : Env} {p : GSProxy} {h : ProxyHandler} {cache : UsersCache}
    {r : Request} {addr user authUser : GoString}
    (hb : (serveHTTP env p h cache r).1 = .bump addr user authUser) : Bumped env p h r addr := by
  unfold serveHTTP at hb
  split at hb
  · rename_i reply cache' ha
    exact absurd hb (admitted_error ha _ _ _)
  · rename_i url user' authUser' cache' ha
    obtain ⟨hurl, -⟩ := admitted_ok ha
    obtain ⟨rfl, hact⟩ := applyPolicy_bump hb
    obtain ⟨hmethod, hiso, hmitm, hlan, hexc⟩ := chooseAction_sslBump hact
    have htarget : targetURL env r.method url = bracketHost env url := if_pos hmethod
    rw [htarget] at hexc ⊢
    exact ⟨hmethod, htarget ▸ hiso, htarget ▸ hmitm, hlan, url, hurl, rfl, hexc⟩

/-! ## An example -/

def exampleEnv : Env where
  urlString url := url.scheme ++ lit "://" ++ url.host ++ url.path ++ url.rest
  parseIP _ := none
  typeByExtension _ := []
  lowerTable := id
  isolateHosts := lit "youtube.com"

def exampleProxy : GSProxy where
  isAuthEnabled := false
  authHandler _ := false
  userAccessHandler _ := (.unset, [])
  timeAccessHandler _ _ := (.unset, [])
  urlAccessHandler _ _ := (.unset, [])
  contentTypeHandler _ _ := .unset
  doMitm _ := true
  isExceptionUrl _ := false

def exampleConnect : Request where
  method := connect
  url := ⟨[], lit "www.youtube.com:443", [], []⟩
  host := lit "www.youtube.com:443"
  remoteAddr := lit "10.0.0.5:50000"
  proxyAuthorization := []

end Proxy

end RbiProxy
