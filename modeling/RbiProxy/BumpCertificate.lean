import RbiProxy.CertificateCache
import RbiProxy.HelloFault
import RbiProxy.Indexed
import RbiProxy.Reach
import RbiProxy.SslBump
import RbiProxy.ValidCert

/-!
# The certificates that clients are shown

`SSLBump` from the ClientHello to the handshake with the client, many of them at the same
time. They share the certificate cache, and while one of them shakes hands with an origin
the others go on, so that two may sign for the same name and the later `Put` wins. Each
access to the cache is one step; the clock does not go back.

The certificate authority is set once, before the listener is opened. The libraries are
parameters, and `Verifies` says what is used of them.

`served_sound` traces the certificate of a connection back to a handshake with an origin.
`bump_ends` connects the runs with the sequential `sslBump`: a connection ends as that says
for the answers which this connection got.
-/

namespace RbiProxy

namespace BumpCert

open CertCache ValidCert Proxy Hello

/-! ## Certificates -/

/-- `pkix.Name`. -/
structure PkixName where
  commonName : GoString
  /-- The other attributes, as the library keeps them. -/
  others : List (GoString × GoString)

inductive ExtKeyUsage where
  | any
  | serverAuth
  | other (n : Nat)
deriving DecidableEq

/-- `x509.Certificate` of an origin, as far as it is read. -/
structure X509Certificate where
  raw : GoString
  subject : PkixName
  notBefore : Int
  notAfter : Int
  extKeyUsage : List ExtKeyUsage
  unknownExtKeyUsage : List (List Nat)
  dnsNames : List GoString
  ipAddresses : List GoString
  permittedDNSDomainsCritical : Bool
  permittedDNSDomains : List GoString

/-- The `x509.Certificate` that `signCertificate` fills in. The key usages are those for
signatures and key encipherment; `BasicConstraintsValid`, `SubjectKeyId` and
`SignatureAlgorithm` have their zero values. -/
structure Template where
  serialNumber : Nat
  subject : PkixName
  notBefore : Int
  notAfter : Int
  extKeyUsage : List ExtKeyUsage
  unknownExtKeyUsage : List (List Nat)
  dnsNames : List GoString
  ipAddresses : List GoString
  permittedDNSDomainsCritical : Bool
  permittedDNSDomains : List GoString

/-- `tls.Certificate`. -/
structure TlsCertificate where
  certificate : List GoString := []
  privateKey : GoString := []
deriving DecidableEq

/-- The parent of `x509.CreateCertificate`: the template or `ParsedTLSCert`. -/
inductive Parent where
  | template
  | parsedTLSCert
deriving DecidableEq

/-- `tls.ConnectionState` of a handshake that succeeded, which has a peer certificate. -/
structure ConnectionState where
  serverCert : X509Certificate
  intermediates : List X509Certificate
  negotiatedProtocol : GoString
  negotiatedProtocolIsMutual : Bool

/-- The libraries, the variables of the package, and the roots. -/
structure World where
  md5 : GoString → GoString
  /-- `x509.CreateCertificate` with the bytes of `rand.Reader`, the public key and the
  private key. -/
  createCertificate : GoString → Template → Parent → GoString → GoString → Option GoString
  tlsCert : TlsCertificate
  parsedPublicKey : GoString
  library : Library X509Certificate
  /-- `Verify` at a time, for a name unless that is empty, with the roots of the system or
  with `ExtraRootCerts`, and with intermediates. -/
  verify : Instant → GoString → Bool → List X509Certificate → X509Certificate → Verified
  extraRootCerts : Bool
  blockObsoleteSSL : Bool
  env : Env

variable (w : World)

def template (serverCert : X509Certificate) : Template where
  serialNumber :=
    Nat.ofDigits 256 ((w.md5 (serverCert.raw ++ [2])).reverse.map UInt8.toNat)
  subject := serverCert.subject
  notBefore := serverCert.notBefore
  notAfter := serverCert.notAfter
  extKeyUsage := if serverCert.extKeyUsage = [] then [.serverAuth] else serverCert.extKeyUsage
  unknownExtKeyUsage := serverCert.unknownExtKeyUsage
  dnsNames :=
    if serverCert.dnsNames = [] ∧ serverCert.ipAddresses = []
        ∧ serverCert.subject.commonName ≠ [] then [serverCert.subject.commonName]
    else serverCert.dnsNames
  ipAddresses := serverCert.ipAddresses
  permittedDNSDomainsCritical := serverCert.permittedDNSDomainsCritical
  permittedDNSDomains := serverCert.permittedDNSDomains

def signCertificate (rand : GoString) (serverCert : X509Certificate) (selfSigned : Bool) :
    Option TlsCertificate :=
  let parent := if selfSigned then .template else .parsedTLSCert
  match w.createCertificate rand (template w serverCert) parent w.parsedPublicKey
      w.tlsCert.privateKey with
  | none => none
  | some newCertBytes =>
    some { certificate := newCertBytes :: if selfSigned then [] else w.tlsCert.certificate
           privateKey := w.tlsCert.privateKey }

/-! ## Transports -/

/-- The transports that `SSLBump` chooses from. A hard validation transport has the name
and the certificates of the handshake. -/
inductive Transport where
  | http2Transport
  | httpTransport
  | hardHTTP2 (serverName : GoString) (certificates : List X509Certificate)
  | hardHTTP (serverName : GoString) (certificates : List X509Certificate)

/-- The choice of `rt`. -/
def chooseTransport (now : Instant) (serverName : GoString) (state : ConnectionState) :
    Transport :=
  let validWithDefaultRoots :=
    w.verify now serverName false state.intermediates state.serverCert = .ok
  let certificates := state.serverCert :: state.intermediates
  if state.negotiatedProtocol = lit "h2" ∧ state.negotiatedProtocolIsMutual = true then
    if validWithDefaultRoots then .http2Transport else .hardHTTP2 serverName certificates
  else if validWithDefaultRoots then .httpTransport else .hardHTTP serverName certificates

/-! ## The bumps -/

structure Handshake where
  key : CertCacheKey
  state : ConnectionState
  time : Instant

/-- What `Verify` in the handshake has found; `tls.Client` refuses an empty name. -/
def Handshake.Verified (h : Handshake) : Prop :=
  h.key.name ≠ [] ∧
    w.verify h.time h.key.name false h.state.intermediates h.state.serverCert = .ok

instance (h : Handshake) : Decidable (h.Verified w) := inferInstanceAs (Decidable (_ ∧ _))

inductive Phase where
  /-- At the certificate cache. -/
  | start
  | dial
  | handshake
  | validate (h : Handshake)
  | sign (h : Handshake) (valid : Bool)
  | choose (h : Handshake) (cert : TlsCertificate)
  | put (h : Handshake) (cert : TlsCertificate) (rt : Transport)
  | config (cert : TlsCertificate) (rt : Transport)
  | client (cert : TlsCertificate) (rt : Transport)
  /-- A `ProxyHandler` serves the connection. -/
  | serving (cert : TlsCertificate) (rt : Transport)
  /-- In `ConnectDirect`. -/
  | direct
  | ended (res : BumpResult)

/-- A call of `SSLBump`. -/
structure Bump where
  serverAddr : GoString
  authUser : GoString
  conn : Conn
  clientHello : GoString
  /-- What is left of the connection behind the ClientHello. -/
  rest : Conn
  serverName : GoString
  phase : Phase
  /-- When it has asked the cache; before that, when it has begun. -/
  asked : Instant
  /-- The answers that it got. -/
  seen : Outside

def Bump.key (b : Bump) : CertCacheKey := ⟨b.serverName, b.serverAddr⟩

structure State where
  cache : CertificateCache TlsCertificate Transport
  now : Instant
  bumps : List Bump := []
  /-- The process has ended. -/
  exited : Bool := false
  /-- The calls of the cache. -/
  calls : List (Call TlsCertificate Transport) := []
  handshakes : List Handshake := []

def State.start (ttl : Int) (now : Instant) : State := { cache := .new ttl, now }

def unseen (lookupAddr : GoString → List GoString) : Outside where
  blockObsoleteSSL := w.blockObsoleteSSL
  certCached _ _ := false
  lookupAddr
  dial := false
  handshake := false
  sign := false
  loadConfig := false
  clientHandshake := false
  redial := false

/-- `SSLBump` up to the certificate cache: the name of the server, and how it goes on. -/
def entry (seen : Outside) (serverAddr : GoString) :
    GoString × Option ReadHelloErr × Conn → GoString × Phase
  | (_, some (.io .net), _) => ([], .ended .closed)
  | (_, some .obsoleteSSLVersion, _) =>
    if w.blockObsoleteSSL then ([], .ended .closed)
    else (serverName w.env seen serverAddr [], .start)
  | (_, some _, _) => ([], .direct)
  | (clientHello, none, _) =>
    match clientHelloServerName clientHello with
    | .error _ => ([], .ended .closed)
    | .ok sni => (serverName w.env seen serverAddr (sni.getD []), .start)

def begin (serverAddr authUser : GoString) (conn : Conn)
    (lookupAddr : GoString → List GoString) (now : Instant) : Bump :=
  let read := readClientHello conn
  let (serverName, phase) := entry w (unseen w lookupAddr) serverAddr read
  { serverAddr, authUser, conn, clientHello := read.1, rest := read.2.2, serverName, phase
    asked := now, seen := unseen w lookupAddr }

/-! ## Steps -/

inductive Move where
  /-- `CertCache.Get`. -/
  | get
  | dial (ok : Bool)
  /-- The handshake with the origin. -/
  | handshake (state : Option ConnectionState)
  /-- `validCert`, with the answers to its requests. -/
  | validate (responses : Responses) (fuel : Nat)
  | sign (rand : GoString)
  | choose
  /-- `CertCache.Put`. -/
  | put
  | loadConfig (ok : Bool)
  /-- The handshake with the client. -/
  | clientHandshake (ok : Bool)
  /-- The dial of `ConnectDirect`. -/
  | redial (ok : Bool)

inductive Event where
  | tick (now : Instant)
  | begin (serverAddr authUser : GoString) (conn : Conn) (lookupAddr : GoString → List GoString)
  | move (i : Nat) (m : Move)

def State.call (s : State) (c : Call TlsCertificate Transport) : State :=
  { s with cache := s.cache.step c, calls := s.calls ++ [c] }

def State.wait (s : State) (now : Instant) : State := { s with now }

def State.shake (s : State) (h : Handshake) : State :=
  { s with handshakes := s.handshakes ++ [h] }

def State.goOn (s : State) (i : Nat) (b : Bump) : State := { s with bumps := s.bumps.set i b }

def Bump.find (b : Bump) (now : Instant) (found : TlsCertificate × Option Transport) : Bump :=
  { b with
    asked := now
    seen := { b.seen with certCached := fun _ _ => found.2.isSome }
    phase := match found.2 with
      | none => .dial
      | some rt => .config found.1 rt }

/-- A move of the bump `b`, which is at `i`. -/
def State.move (s : State) (i : Nat) (b : Bump) (m : Move) : Option State :=
  match m, b.phase with
  | .get, .start =>
    some ((s.call (.get s.now b.key)).goOn i (b.find s.now (s.cache.get {} s.now b.key)))
  | .dial ok, .dial =>
    some (s.goOn i { b with phase := if ok then .handshake else .direct
                            seen := { b.seen with dial := ok } })
  | .handshake none, .handshake =>
    some (s.goOn i { b with phase := .direct, seen := { b.seen with handshake := false } })
  | .handshake (some state), .handshake =>
    let h : Handshake := ⟨b.key, state, s.now⟩
    if h.Verified w then
      some ((s.shake h).goOn i
        { b with phase := .validate h, seen := { b.seen with handshake := true } })
    else none
  | .validate responses fuel, .validate h =>
    (validCert w.library (fun extra pool => w.verify s.now [] extra pool h.state.serverCert)
        w.extraRootCerts responses h.state.serverCert h.state.intermediates fuel).map
      fun valid => s.goOn i { b with phase := .sign h valid }
  | .sign rand, .sign h valid =>
    match signCertificate w rand h.state.serverCert (!valid) with
    | none => some (s.goOn i { b with phase := .direct, seen := { b.seen with sign := false } })
    | some cert =>
      some (s.goOn i { b with phase := .choose h cert, seen := { b.seen with sign := true } })
  | .choose, .choose h cert =>
    some (s.goOn i { b with phase := .put h cert (chooseTransport w s.now b.serverName h.state) })
  | .put, .put _ cert rt =>
    some ((s.call (.put s.now b.key cert (some rt))).goOn i { b with phase := .config cert rt })
  | .loadConfig ok, .config cert rt =>
    let b := { b with seen := { b.seen with loadConfig := ok } }
    if ok then some (s.goOn i { b with phase := .client cert rt })
    else some ({ s with exited := true }.goOn i { b with phase := .ended .exited })
  | .clientHandshake ok, .client cert rt =>
    some (s.goOn i { b with phase := if ok then .serving cert rt else .ended .closed
                            seen := { b.seen with clientHandshake := ok } })
  | .redial ok, .direct =>
    let b := { b with seen := { b.seen with redial := ok } }
    some (s.goOn i { b with phase := .ended (connectDirect b.seen b.clientHello b.rest) })
  | _, _ => none

def State.step (s : State) (e : Event) : Option State :=
  if s.exited then none
  else match e with
    | .tick now => if s.now.ns ≤ now.ns then some (s.wait now) else none
    | .begin serverAddr authUser conn lookupAddr =>
      some { s with bumps := s.bumps ++ [begin w serverAddr authUser conn lookupAddr s.now] }
    | .move i m => (s.bumps[i]?).bind fun b => s.move w i b m

/-! ## What is used of the libraries -/

def ForServers (extKeyUsage : List ExtKeyUsage) : Prop :=
  .any ∈ extKeyUsage ∨ .serverAuth ∈ extKeyUsage

/-- Verification in the handshake checks the name against the alternative names, which
`hostname` compares, and the usage, which may be left open. A certificate that verified has
a known authority from then on, though it may expire. -/
structure Verifies (hostname : List GoString → List GoString → GoString → Bool) : Prop where
  names : ∀ {t name pool cert}, name ≠ [] → w.verify t name false pool cert = .ok →
    hostname cert.dnsNames cert.ipAddresses name = true
  no_names : ∀ name, hostname [] [] name = false
  usage : ∀ {t name pool cert}, w.verify t name false pool cert = .ok →
    cert.extKeyUsage = [] ∨ ForServers cert.extKeyUsage
  known : ∀ {t t' name pool cert}, w.verify t name false pool cert = .ok → t.ns ≤ t'.ns →
    w.verify t' [] false pool cert ≠ .unknownAuthority

section Template

variable {w} {hostname : List GoString → List GoString → GoString → Bool}

theorem Verifies.template_names (hw : Verifies w hostname) {h : Handshake} (hv : h.Verified w) :
    hostname (template w h.state.serverCert).dnsNames (template w h.state.serverCert).ipAddresses
      h.key.name = true := by
  have hname := hw.names hv.1 hv.2
  have hsome : ¬ (h.state.serverCert.dnsNames = [] ∧ h.state.serverCert.ipAddresses = []
      ∧ h.state.serverCert.subject.commonName ≠ []) := by
    rintro ⟨hdns, hip, -⟩
    rw [hdns, hip, hw.no_names] at hname
    cases hname
  change hostname (if _ then _ else _) h.state.serverCert.ipAddresses h.key.name = true
  rw [if_neg hsome]
  exact hname

theorem Verifies.template_usage (hw : Verifies w hostname) {h : Handshake} (hv : h.Verified w) :
    ForServers (template w h.state.serverCert).extKeyUsage := by
  change ForServers (if _ then _ else _)
  split
  · exact .inr (List.mem_singleton.mpr rfl)
  · rename_i hne
    exact (hw.usage hv.2).resolve_left hne

/-- For what verified in the handshake nothing is fetched. -/
theorem Verifies.validCertRequests_eq (hw : Verifies w hostname) {h : Handshake} (hv : h.Verified w)
    {now : Instant} (hle : h.time.ns ≤ now.ns) (responses : Responses) (fuel : Nat) :
    validCertRequests w.library (fun extra pool => w.verify now [] extra pool h.state.serverCert)
        w.extraRootCerts responses h.state.serverCert h.state.intermediates fuel
      = some (true, []) := by
  unfold validCertRequests
  exact if_pos (hw.known hv.2 hle)

/-- What verified in the handshake is not signed by itself. -/
theorem Verifies.validCert_eq (hw : Verifies w hostname) {h : Handshake} (hv : h.Verified w)
    {now : Instant} (hle : h.time.ns ≤ now.ns) (responses : Responses) (fuel : Nat) :
    validCert w.library (fun extra pool => w.verify now [] extra pool h.state.serverCert)
      w.extraRootCerts responses h.state.serverCert h.state.intermediates fuel = some true := by
  unfold validCert
  rw [hw.validCertRequests_eq hv hle]
  rfl

end Template

/-! ## From the origin to the client -/

/-- A certificate in the name of the authority, from the certificate of a handshake. -/
def SignedFor (h : Handshake) (cert : TlsCertificate) : Prop :=
  ∃ rand leaf, w.createCertificate rand (template w h.state.serverCert) .parsedTLSCert
      w.parsedPublicKey w.tlsCert.privateKey = some leaf
    ∧ cert = ⟨leaf :: w.tlsCert.certificate, w.tlsCert.privateKey⟩

def ChosenFor (h : Handshake) (rt : Transport) : Prop :=
  ∃ t : Instant, h.time.ns ≤ t.ns ∧ rt = chooseTransport w t h.key.name h.state

theorem signCertificate_signedFor {w : World} {rand : GoString} {h : Handshake}
    {cert : TlsCertificate}
    (hsign : signCertificate w rand h.state.serverCert false = some cert) :
    SignedFor w h cert := by
  unfold signCertificate at hsign
  dsimp only at hsign
  split at hsign
  · cases hsign
  · rename_i leaf hleaf
    exact ⟨rand, leaf, hleaf, (Option.some.inj hsign).symm⟩

/-- What a `Put` has put there. -/
def Stored (s : State) (t : Instant) (key : CertCacheKey) (cert : TlsCertificate)
    (rt : Option Transport) : Prop :=
  ∃ h ∈ s.handshakes, h.key = key ∧ h.time.ns ≤ t.ns ∧ SignedFor w h cert
    ∧ ∃ rt', rt = some rt' ∧ ChosenFor w h rt'

/-- A handshake of the bump. -/
def Own (s : State) (b : Bump) (h : Handshake) : Prop := h ∈ s.handshakes ∧ h.key = b.key

/-- The certificate was put into the cache, and was live when the bump asked. -/
def Shown (ttl : Int) (s : State) (b : Bump) (cert : TlsCertificate) (rt : Transport) : Prop :=
  ∃ t : Instant, .put t b.key cert (some rt) ∈ s.calls
    ∧ (b.asked.ns : Int) - t.ns ≤ Spec.lifetime ttl

/-- What the bump `b` has in its hands. -/
def Phase.Holds (ttl : Int) (s : State) (b : Bump) : Phase → Prop
  | .validate h => Own s b h
  | .sign h valid => Own s b h ∧ valid = true
  | .choose h cert => Own s b h ∧ SignedFor w h cert
  | .put h cert rt => Own s b h ∧ SignedFor w h cert ∧ ChosenFor w h rt
  | .config cert rt | .client cert rt | .serving cert rt => Shown ttl s b cert rt
  | .start | .dial | .handshake | .direct | .ended _ => True

structure Inv (ttl : Int) (s : State) : Prop where
  reached : Reached ttl s.cache s.calls s.now
  handshakes : ∀ h ∈ s.handshakes, h.Verified w ∧ h.time.ns ≤ s.now.ns
  puts : ∀ t key cert rt, .put t key cert rt ∈ s.calls → Stored w s t key cert rt
  bumps : ∀ (i : Nat) (b : Bump), s.bumps[i]? = some b →
    b.asked.ns ≤ s.now.ns ∧ b.phase.Holds w ttl s b

section Steps

variable {w} {hostname : List GoString → List GoString → GoString → Bool} {ttl : Int}
  {s t : State}

/-! ### The records only grow -/

structure Grows (s t : State) : Prop where
  handshakes : ∀ h ∈ s.handshakes, h ∈ t.handshakes
  calls : ∀ call ∈ s.calls, call ∈ t.calls

theorem grows_call (s : State) (c : Call TlsCertificate Transport) : Grows s (s.call c) :=
  ⟨fun _ => id, fun _ => List.mem_append_left _⟩

theorem grows_shake (s : State) (h : Handshake) : Grows s (s.shake h) :=
  ⟨fun _ => List.mem_append_left _, fun _ => id⟩

theorem grows_wait (s : State) (now : Instant) : Grows s (s.wait now) :=
  ⟨fun _ => id, fun _ => id⟩

theorem grows_goOn (s : State) (i : Nat) (b : Bump) : Grows s (s.goOn i b) :=
  ⟨fun _ => id, fun _ => id⟩

theorem Stored.grows (hgrows : Grows s t) {time : Instant} {key : CertCacheKey}
    {cert : TlsCertificate} {rt : Option Transport} (h : Stored w s time key cert rt) :
    Stored w t time key cert rt := by
  obtain ⟨hs, hmem, hrest⟩ := h
  exact ⟨hs, hgrows.handshakes hs hmem, hrest⟩

theorem Own.grows (hgrows : Grows s t) {b : Bump} {h : Handshake} (hown : Own s b h) :
    Own t b h :=
  ⟨hgrows.handshakes h hown.1, hown.2⟩

theorem Shown.grows (hgrows : Grows s t) {b : Bump} {cert : TlsCertificate} {rt : Transport}
    (h : Shown ttl s b cert rt) : Shown ttl t b cert rt := by
  obtain ⟨time, hput, hlive⟩ := h
  exact ⟨time, hgrows.calls _ hput, hlive⟩

theorem Phase.Holds.grows (hgrows : Grows s t) {b : Bump} {p : Phase} (h : p.Holds w ttl s b) :
    p.Holds w ttl t b := by
  cases p with
  | validate h' => exact Own.grows hgrows h
  | sign h' valid => exact ⟨h.1.grows hgrows, h.2⟩
  | choose h' cert => exact ⟨h.1.grows hgrows, h.2⟩
  | put h' cert rt => exact ⟨h.1.grows hgrows, h.2⟩
  | config cert rt => exact Shown.grows hgrows h
  | client cert rt => exact Shown.grows hgrows h
  | serving cert rt => exact Shown.grows hgrows h
  | start => trivial
  | dial => trivial
  | handshake => trivial
  | direct => trivial
  | ended res => trivial

/-! ### The cache -/

theorem mem_putCalls {calls : List (Call TlsCertificate Transport)} {key : CertCacheKey}
    {e : CertCacheEntry TlsCertificate Transport} (h : (key, e) ∈ Spec.putCalls calls) :
    .put e.added key e.certificate e.transport ∈ calls := by
  obtain ⟨call, hcall, heq⟩ := List.mem_filterMap.mp h
  cases call with
  | put now key' cert rt =>
    obtain ⟨rfl, rfl⟩ := Prod.mk.inj (Option.some.inj heq)
    exact List.mem_reverse.mp hcall
  | get now key' => cases heq

/-- A hit is the result of a `Put`, and is live. -/
theorem of_get_some {now : Instant} {c : CertificateCache TlsCertificate Transport}
    {calls : List (Call TlsCertificate Transport)} (h : Reached ttl c calls now)
    {key : CertCacheKey} {zero cert : TlsCertificate} {rt : Transport}
    (hget : c.get zero now key = (cert, some rt)) :
    ∃ time : Instant, .put time key cert (some rt) ∈ calls
      ∧ (now.ns : Int) - time.ns ≤ Spec.lifetime ttl := by
  rw [get_eq zero h, Spec.get] at hget
  split at hget
  · cases hget
  · rename_i e he
    split at hget
    · cases hget
    · rename_i hlive
      obtain ⟨rfl, hrt⟩ := Prod.mk.inj hget
      obtain ⟨before, behind, hputs, -⟩ := List.lookup_eq_some_iff.mp he
      have hmem : (key, e) ∈ Spec.putCalls calls := hputs ▸ by simp
      refine ⟨e.added, hrt ▸ mem_putCalls hmem, ?_⟩
      unfold Spec.Expired at hlive
      omega

theorem reached_later {now now' : Instant} {c : CertificateCache TlsCertificate Transport}
    {calls : List (Call TlsCertificate Transport)} (h : Reached ttl c calls now)
    (hle : now.ns ≤ now'.ns) : Reached ttl c calls now' := by
  rcases h with hnone | ⟨first, m, hfirst, hagree⟩
  · exact .inl hnone
  · exact .inr ⟨first, m, hfirst, hagree.later hle⟩

/-! ### One step -/

theorem Inv.others (h : Inv w ttl s) (hgrows : Grows s t) (hle : s.now.ns ≤ t.now.ns)
    {i : Nat} {b : Bump} (hb : s.bumps[i]? = some b) :
    b.asked.ns ≤ t.now.ns ∧ b.phase.Holds w ttl t b := by
  obtain ⟨hasked, hholds⟩ := h.bumps i b hb
  exact ⟨Nat.le_trans hasked hle, hholds.grows hgrows⟩

theorem Inv.goOn (h : Inv w ttl s) (i : Nat) {b : Bump} (hasked : b.asked.ns ≤ s.now.ns)
    (hholds : b.phase.Holds w ttl s b) : Inv w ttl (s.goOn i b) where
  reached := h.reached
  handshakes := h.handshakes
  puts := h.puts
  bumps j b' hb' := by
    rcases Indexed.of_set hb' with ⟨-, rfl⟩ | ⟨-, hold⟩
    · exact ⟨hasked, hholds.grows (grows_goOn ..)⟩
    · exact h.others (grows_goOn ..) (Nat.le_refl _) hold

theorem Inv.wait (h : Inv w ttl s) {now : Instant} (hle : s.now.ns ≤ now.ns) :
    Inv w ttl (s.wait now) where
  reached := reached_later h.reached hle
  handshakes hs hmem := ⟨(h.handshakes hs hmem).1, Nat.le_trans (h.handshakes hs hmem).2 hle⟩
  puts := h.puts
  bumps _ _ hb := h.others (grows_wait ..) hle hb

theorem Inv.get (h : Inv w ttl s) (key : CertCacheKey) :
    Inv w ttl (s.call (.get s.now key)) where
  reached := reached_step h.reached (.get s.now key) (Nat.le_refl _)
  handshakes := h.handshakes
  puts time key' cert rt hput := by
    rcases List.mem_append.mp hput with hold | hnew
    · exact h.puts time key' cert rt hold
    · cases List.mem_singleton.mp hnew
  bumps _ _ hb := h.others (grows_call ..) (Nat.le_refl _) hb

theorem Inv.put (h : Inv w ttl s) {key : CertCacheKey} {cert : TlsCertificate} {rt : Transport}
    (hstored : Stored w s s.now key cert (some rt)) :
    Inv w ttl (s.call (.put s.now key cert (some rt))) where
  reached := reached_step h.reached (.put s.now key cert (some rt)) (Nat.le_refl _)
  handshakes := h.handshakes
  puts time key' cert' rt' hput := by
    rcases List.mem_append.mp hput with hold | hnew
    · exact h.puts time key' cert' rt' hold
    · obtain ⟨rfl, rfl, rfl, rfl⟩ := Call.put.inj (List.mem_singleton.mp hnew)
      exact hstored
  bumps _ _ hb := h.others (grows_call ..) (Nat.le_refl _) hb

theorem Inv.handshake (h : Inv w ttl s) {hs : Handshake} (hv : hs.Verified w)
    (htime : hs.time = s.now) :
    Inv w ttl (s.shake hs) where
  reached := h.reached
  handshakes hs' hmem := by
    rcases List.mem_append.mp hmem with hold | hnew
    · exact h.handshakes hs' hold
    · obtain rfl := List.mem_singleton.mp hnew
      exact ⟨hv, Nat.le_of_eq (congrArg Instant.ns htime)⟩
  puts time key cert rt hput :=
    (h.puts time key cert rt hput).grows (grows_shake ..)
  bumps _ _ hb := h.others (grows_shake ..) (Nat.le_refl _) hb

theorem holds_entry (seen : Outside) (serverAddr : GoString)
    (read : GoString × Option ReadHelloErr × Conn) (b : Bump) :
    (entry w seen serverAddr read).2.Holds w ttl s b := by
  unfold entry
  split
  · trivial
  · split <;> trivial
  · trivial
  · split <;> trivial

theorem Inv.move (hw : Verifies w hostname) (h : Inv w ttl s) {i : Nat} {b : Bump}
    (hb : s.bumps[i]? = some b) {m : Move} (hmove : s.move w i b m = some t) : Inv w ttl t := by
  obtain ⟨hasked, hholds⟩ := h.bumps i b hb
  unfold State.move at hmove
  split at hmove
  · -- the cache is asked
    obtain rfl := Option.some.inj hmove
    refine (h.get b.key).goOn i (Nat.le_refl _) ?_
    generalize hget : s.cache.get {} s.now b.key = found
    obtain ⟨cert, rt⟩ := found
    cases rt with
    | none => trivial
    | some rt =>
      obtain ⟨time, hput, hlive⟩ := of_get_some h.reached hget
      exact ⟨time, List.mem_append_left _ hput, hlive⟩
  · rename_i ok _
    obtain rfl := Option.some.inj hmove
    refine h.goOn i hasked ?_
    cases ok <;> trivial
  · obtain rfl := Option.some.inj hmove
    exact h.goOn i hasked trivial
  · dsimp only at hmove
    split at hmove
    · rename_i hv
      obtain rfl := Option.some.inj hmove
      exact (h.handshake hv rfl).goOn i hasked ⟨by simp [State.shake], rfl⟩
    · cases hmove
  · rename_i responses fuel h' hphase
    rw [hphase] at hholds
    obtain ⟨hv, htime⟩ := h.handshakes h' hholds.1
    rw [hw.validCert_eq hv htime] at hmove
    obtain rfl := Option.some.inj hmove
    exact h.goOn i hasked ⟨hholds, rfl⟩
  · rename_i rand h' valid hphase
    rw [hphase] at hholds
    obtain ⟨hown, rfl⟩ := hholds
    split at hmove
    · obtain rfl := Option.some.inj hmove
      exact h.goOn i hasked trivial
    · rename_i cert hsign
      obtain rfl := Option.some.inj hmove
      exact h.goOn i hasked ⟨hown, signCertificate_signedFor hsign⟩
  · rename_i h' cert hphase
    rw [hphase] at hholds
    obtain ⟨hown, hsigned⟩ := hholds
    obtain rfl := Option.some.inj hmove
    have hname : h'.key.name = b.serverName := congrArg CertCacheKey.name hown.2
    exact h.goOn i hasked
      ⟨hown, hsigned, s.now, (h.handshakes h' hown.1).2, by rw [hname]⟩
  · rename_i h' cert rt hphase
    rw [hphase] at hholds
    obtain ⟨hown, hsigned, hchosen⟩ := hholds
    obtain rfl := Option.some.inj hmove
    have hstored : Stored w s s.now b.key cert (some rt) :=
      ⟨h', hown.1, hown.2, (h.handshakes h' hown.1).2, hsigned, rt, rfl, hchosen⟩
    have hlive : (b.asked.ns : Int) - s.now.ns ≤ Spec.lifetime ttl := by
      have hpos := @lifetime_pos ttl
      omega
    exact (h.put hstored).goOn i hasked
      ⟨s.now, List.mem_append_right _ (List.mem_singleton.mpr rfl), hlive⟩
  · rename_i ok cert rt hphase
    rw [hphase] at hholds
    dsimp only at hmove
    split at hmove
    · obtain rfl := Option.some.inj hmove
      exact h.goOn i hasked hholds
    · obtain rfl := Option.some.inj hmove
      have hexit : Inv w ttl { s with exited := true } :=
        ⟨h.reached, h.handshakes, h.puts, h.bumps⟩
      exact hexit.goOn i hasked trivial
  · rename_i ok cert rt hphase
    rw [hphase] at hholds
    obtain rfl := Option.some.inj hmove
    refine h.goOn i hasked ?_
    cases ok with
    | true => exact hholds
    | false => trivial
  · obtain rfl := Option.some.inj hmove
    exact h.goOn i hasked trivial
  · cases hmove

theorem Inv.step (hw : Verifies w hostname) (h : Inv w ttl s) {e : Event}
    (hstep : s.step w e = some t) : Inv w ttl t := by
  unfold State.step at hstep
  split at hstep
  · cases hstep
  · cases e with
    | tick now =>
      dsimp only at hstep
      split at hstep
      · rename_i hle
        exact Option.some.inj hstep ▸ h.wait hle
      · cases hstep
    | begin serverAddr authUser conn lookupAddr =>
      obtain rfl := Option.some.inj hstep
      refine ⟨h.reached, h.handshakes, h.puts, fun i b hb => ?_⟩
      rcases Indexed.of_concat hb with hold | ⟨-, rfl⟩
      · exact h.bumps i b hold
      · exact ⟨Nat.le_refl _, holds_entry ..⟩
    | move i m =>
      obtain ⟨b, hb, hmove⟩ := Option.bind_eq_some_iff.mp hstep
      exact h.move hw hb hmove

theorem inv_start (ttl : Int) (now : Instant) : Inv w ttl (.start ttl now) where
  reached := .inl ⟨rfl, rfl⟩
  handshakes h hmem := by cases hmem
  puts time key cert rt hput := by cases hput
  bumps i b hb := by cases hb

end Steps

/-- The certificate of a connection comes from the handshake `h` by a `Put` at `put`. -/
structure FromOrigin (hostname : List GoString → List GoString → GoString → Bool) (ttl : Int)
    (s : State) (b : Bump) (cert : TlsCertificate) (rt : Transport) (h : Handshake)
    (put : Instant) : Prop where
  handshake : h ∈ s.handshakes
  key : h.key = b.key
  verified : h.Verified w
  before : h.time.ns ≤ put.ns
  stored : .put put b.key cert (some rt) ∈ s.calls
  live : (b.asked.ns : Int) - put.ns ≤ Spec.lifetime ttl
  signed : SignedFor w h cert
  names : hostname (template w h.state.serverCert).dnsNames
    (template w h.state.serverCert).ipAddresses b.serverName = true
  usage : ForServers (template w h.state.serverCert).extKeyUsage
  chosen : ChosenFor w h rt

theorem noPem (s : GoString) (block : ValidCert.PemBlock) (rest : GoString)
    (h : (none : Option (ValidCert.PemBlock × GoString)) = some (block, rest)) :
    rest.length < s.length := by
  cases h

/-- Verification compares the names and the usage only. -/
def exampleWorld : World where
  md5 s := s.take 16
  createCertificate _ template _ _ _ := some (template.dnsNames.flatten)
  tlsCert := ⟨[lit "authority"], lit "key"⟩
  parsedPublicKey := lit "public"
  library := ⟨fun _ => none, fun _ => [], fun _ => none, noPem⟩
  verify _ name _ _ cert :=
    if (name.isEmpty || cert.dnsNames.any fun d => decide (d = name))
        && (cert.extKeyUsage.isEmpty || cert.extKeyUsage.any fun u => decide (u = .serverAuth))
    then .ok
    else .other
  extraRootCerts := false
  blockObsoleteSSL := true
  env := exampleEnv

def exampleHostname (dnsNames _ipAddresses : List GoString) (name : GoString) : Bool :=
  dnsNames.any fun d => decide (d = name)

theorem exampleWorld_verify {t : Instant} {name : GoString} {pool : List X509Certificate}
    {cert : X509Certificate} (hok : exampleWorld.verify t name false pool cert = .ok) :
    (name = [] ∨ exampleHostname cert.dnsNames cert.ipAddresses name = true)
      ∧ (cert.extKeyUsage = [] ∨ .serverAuth ∈ cert.extKeyUsage) := by
  unfold exampleWorld at hok
  dsimp only at hok
  split at hok
  · rename_i hboth
    obtain ⟨hname, husage⟩ := Bool.and_eq_true_iff.mp hboth
    refine ⟨(Bool.or_eq_true_iff.mp hname).imp_left List.isEmpty_iff.mp, ?_⟩
    refine (Bool.or_eq_true_iff.mp husage).imp List.isEmpty_iff.mp fun hany => ?_
    obtain ⟨u, hu, hserver⟩ := List.any_eq_true.mp hany
    exact of_decide_eq_true hserver ▸ hu
  · cases hok

theorem exampleWorld_verifies : Verifies exampleWorld exampleHostname where
  names hname hok := (exampleWorld_verify hok).1.resolve_left hname
  no_names _ := rfl
  usage hok := (exampleWorld_verify hok).2.imp id .inr
  known _ _ := by
    unfold exampleWorld
    dsimp only
    split <;> decide

/-- The certificate of the origin. -/
def exampleState : ConnectionState where
  serverCert :=
    { raw := lit "raw", subject := ⟨lit "a.b", []⟩, notBefore := 0, notAfter := 1
      extKeyUsage := [.serverAuth], unknownExtKeyUsage := [], dnsNames := [lit "a.b"]
      ipAddresses := [], permittedDNSDomainsCritical := false, permittedDNSDomains := [] }
  intermediates := []
  negotiatedProtocol := lit "h2"
  negotiatedProtocolIsMutual := true

/-- The second client comes while the certificate for the first is signed, and asks a minute
after that. -/
def exampleEvents : List Event :=
  let client : Event := .begin (lit "a.b:443") (lit "u") ⟨[helloSni], .eof⟩ fun _ => []
  [client, .move 0 .get, .move 0 (.dial true), .move 0 (.handshake (some exampleState)), client,
    .move 0 (.validate ∅ 0), .move 0 (.sign []), .move 0 .choose, .move 0 .put,
    .tick minute, .move 1 .get, .move 1 (.loadConfig true),
    .move 1 (.clientHandshake true)]

/-- The first client is behind the handshake. -/
def firstValidating (s : State) : Bool :=
  match s.bumps[0]? with
  | some b =>
    match b.phase with
    | .validate _ => true
    | _ => false
  | none => false

theorem firstValidating_run :
    ((runs (State.step exampleWorld) (fun _ _ => true) (exampleEvents.take 4)
      (.start 0 ⟨0, by decide⟩)).map firstValidating) = some true := by
  decide +kernel

/-- The bump of the second client is served. -/
def secondServed (s : State) : Bool :=
  match s.bumps[1]? with
  | some b =>
    match b.phase with
    | .serving cert _ => cert = ⟨[lit "a.b", lit "authority"], lit "key"⟩
    | _ => false
  | none => false

theorem exampleEvents_run :
    ((runs (State.step exampleWorld) (fun _ _ => true) exampleEvents
      (.start 0 ⟨0, by decide⟩)).map secondServed) = some true := by
  decide +kernel

theorem exampleEvents_reach : ∃ s, Reach (State.step exampleWorld) anyStep
    (.start 0 ⟨0, by decide⟩) s ∧ ∃ b rt, s.bumps[1]? = some b
      ∧ b.phase = .serving ⟨[lit "a.b", lit "authority"], lit "key"⟩ rt := by
  obtain ⟨s, hrun, hserved⟩ := Option.map_eq_some_iff.mp exampleEvents_run
  refine ⟨s, reach_of_runs (fun _ => trivial) .init hrun, ?_⟩
  unfold secondServed at hserved
  split at hserved
  · rename_i b hb
    split at hserved
    · rename_i cert rt hphase
      obtain rfl := of_decide_eq_true hserved
      exact ⟨b, rt, hb, hphase⟩
    · cases hserved
  · cases hserved

/-- How many of its questions a bump has asked. -/
def Phase.level : Phase → Nat
  | .start => 0
  | .dial => 1
  | .handshake => 2
  | .validate _ | .sign _ _ => 3
  | .choose _ _ | .put _ _ _ | .config _ _ | .direct => 4
  | .client _ _ => 5
  | .serving _ _ | .ended _ => 7

/-- `o` gives the answers that were seen. -/
structure Known (level : Nat) (seen o : Outside) : Prop where
  blockObsoleteSSL : o.blockObsoleteSSL = seen.blockObsoleteSSL
  lookupAddr : o.lookupAddr = seen.lookupAddr
  certCached : 1 ≤ level → o.certCached = seen.certCached
  dial : 2 ≤ level → o.dial = seen.dial
  handshake : 3 ≤ level → o.handshake = seen.handshake
  sign : 4 ≤ level → o.sign = seen.sign
  loadConfig : 5 ≤ level → o.loadConfig = seen.loadConfig
  clientHandshake : 6 ≤ level → o.clientHandshake = seen.clientHandshake
  redial : 7 ≤ level → o.redial = seen.redial

/-- What is left of `sslBump`. -/
def Bump.remaining (b : Bump) (o : Outside) : BumpResult :=
  match b.phase with
  | .start => bumpNamed o b.serverAddr b.authUser b.clientHello b.serverName b.rest
  | .dial =>
    if o.dial = false then connectDirect o b.clientHello b.rest
    else if o.handshake = false then connectDirect o b.clientHello b.rest
    else if o.sign = false then connectDirect o b.clientHello b.rest
    else serveTLS o b.authUser
  | .handshake =>
    if o.handshake = false then connectDirect o b.clientHello b.rest
    else if o.sign = false then connectDirect o b.clientHello b.rest
    else serveTLS o b.authUser
  | .validate _ | .sign _ _ =>
    if o.sign = false then connectDirect o b.clientHello b.rest
    else serveTLS o b.authUser
  | .choose _ _ | .put _ _ _ | .config _ _ => serveTLS o b.authUser
  | .client _ _ =>
    if o.clientHandshake = false then .closed
    else .terminated { tls := true, user := b.authUser }
  | .serving _ _ => .terminated { tls := true, user := b.authUser }
  | .direct => connectDirect o b.clientHello b.rest
  | .ended res => res

/-- The bump is where `sslBump` is, with the answers that it got so far. -/
def Bump.Follows (env : Env) (b : Bump) : Prop :=
  ∀ o, Known b.phase.level b.seen o →
    sslBump env o b.serverAddr b.authUser b.conn = b.remaining o

/-- All bumps are. -/
def State.Follows (env : Env) (s : State) : Prop :=
  ∀ (i : Nat) (b : Bump), s.bumps[i]? = some b → b.Follows env

section Follow

variable {w} {s t : State}

theorem serverName_congr (env : Env) {o o' : Outside} (h : o.lookupAddr = o'.lookupAddr)
    (serverAddr sni : GoString) :
    serverName env o serverAddr sni = serverName env o' serverAddr sni := by
  unfold serverName nameOfHost
  rw [h]

theorem follows_begin (serverAddr authUser : GoString) (conn : Conn)
    (lookupAddr : GoString → List GoString) (now : Instant) :
    (begin w serverAddr authUser conn lookupAddr now).Follows w.env := by
  unfold Bump.Follows begin sslBump
  dsimp only
  generalize readClientHello conn = read
  obtain ⟨hello, err, rest⟩ := read
  cases err with
  | none =>
    unfold entry
    dsimp only
    cases clientHelloServerName hello with
    | error _ => exact fun _ _ => rfl
    | ok sni =>
      intro o ho
      exact congrArg (bumpNamed o serverAddr authUser hello · rest)
        (serverName_congr w.env ho.lookupAddr serverAddr (sni.getD []))
  | some e =>
    cases e with
    | io err => cases err <;> exact fun _ _ => rfl
    | obsoleteSSLVersion =>
      unfold entry
      dsimp only
      split
      · rename_i hblock
        exact fun o ho => if_pos (ho.blockObsoleteSSL.trans hblock)
      · rename_i hblock
        intro o ho
        refine (if_neg (fun ho' => hblock (ho.blockObsoleteSSL.symm.trans ho'))).trans ?_
        exact congrArg (bumpNamed o serverAddr authUser hello · rest)
          (serverName_congr w.env ho.lookupAddr serverAddr [])
    | _ => exact fun _ _ => rfl

theorem Known.trans {n n' : Nat} {seen seen' o : Outside} (h : Known n seen seen')
    (h' : Known n' seen' o) (hle : n ≤ n') : Known n seen o where
  blockObsoleteSSL := h'.blockObsoleteSSL.trans h.blockObsoleteSSL
  lookupAddr := h'.lookupAddr.trans h.lookupAddr
  certCached hn := (h'.certCached (Nat.le_trans hn hle)).trans (h.certCached hn)
  dial hn := (h'.dial (Nat.le_trans hn hle)).trans (h.dial hn)
  handshake hn := (h'.handshake (Nat.le_trans hn hle)).trans (h.handshake hn)
  sign hn := (h'.sign (Nat.le_trans hn hle)).trans (h.sign hn)
  loadConfig hn := (h'.loadConfig (Nat.le_trans hn hle)).trans (h.loadConfig hn)
  clientHandshake hn := (h'.clientHandshake (Nat.le_trans hn hle)).trans (h.clientHandshake hn)
  redial hn := (h'.redial (Nat.le_trans hn hle)).trans (h.redial hn)

theorem Bump.Follows.answer {env : Env} {b b' : Bump} (h : b.Follows env)
    (hsame : b'.serverAddr = b.serverAddr ∧ b'.authUser = b.authUser ∧ b'.conn = b.conn)
    {p : Phase} (hphase : b.phase = p) (hseen : Known p.level b.seen b'.seen)
    (hle : p.level ≤ b'.phase.level)
    (hnext : ∀ o, Known b'.phase.level b'.seen o → { b with phase := p }.remaining o
      = b'.remaining o) : b'.Follows env := by
  intro o ho
  subst hphase
  obtain ⟨hserverAddr, hauthUser, hconn⟩ := hsame
  rw [hserverAddr, hauthUser, hconn, h o (hseen.trans ho hle), ← hnext o ho]

theorem Bump.Follows.find {env : Env} {b : Bump} (h : b.Follows env) (hphase : b.phase = .start)
    (now : Instant) (found : TlsCertificate × Option Transport) :
    (b.find now found).Follows env := by
  obtain ⟨cert, rt⟩ := found
  have hseen : Known 0 b.seen (b.find now (cert, rt)).seen := by
    constructor <;> simp [Bump.find]
  refine h.answer ⟨rfl, rfl, rfl⟩ hphase hseen (Nat.zero_le _) fun o ho => ?_
  cases rt with
  | none =>
    have hmiss : o.certCached = fun _ _ => false := ho.certCached (Nat.le_refl 1)
    show bumpNamed o _ _ _ _ _ = _
    rw [bumpNamed, hmiss]
    rfl
  | some rt =>
    have hhit : o.certCached = fun _ _ => true := ho.certCached (Nat.le_add_left 1 3)
    show bumpNamed o _ _ _ _ _ = _
    rw [bumpNamed, hhit]
    rfl

/-- A move asks the next question, and follows the answer. -/
theorem Bump.Follows.move {b : Bump} (h : b.Follows w.env) {i : Nat} {m : Move}
    (hmove : s.move w i b m = some t) :
    ∃ b', t.bumps = s.bumps.set i b' ∧ b'.Follows w.env := by
  unfold State.move at hmove
  split at hmove
  · rename_i hphase
    obtain rfl := Option.some.inj hmove
    exact ⟨_, rfl, h.find hphase _ _⟩
  · rename_i ok hphase
    obtain rfl := Option.some.inj hmove
    refine ⟨_, rfl, h.answer ⟨rfl, rfl, rfl⟩ hphase (by constructor <;> simp [Phase.level]) ?_ ?_⟩
    · cases ok <;> simp [Phase.level]
    · intro o ho
      have hdial : o.dial = ok := ho.dial (by cases ok <;> simp [Phase.level])
      cases ok <;> simp [Bump.remaining, hdial]
  · rename_i hphase
    obtain rfl := Option.some.inj hmove
    refine ⟨_, rfl, h.answer ⟨rfl, rfl, rfl⟩ hphase (by constructor <;> simp [Phase.level])
      (by simp [Phase.level]) fun o ho => ?_⟩
    exact if_pos (ho.handshake (by simp [Phase.level]))
  · rename_i state hphase
    dsimp only at hmove
    split at hmove
    · obtain rfl := Option.some.inj hmove
      refine ⟨_, rfl, h.answer ⟨rfl, rfl, rfl⟩ hphase (by constructor <;> simp [Phase.level])
        (by simp [Phase.level]) fun o ho => ?_⟩
      have hshaken : o.handshake = true := ho.handshake (by simp [Phase.level])
      simp [Bump.remaining, hshaken]
    · cases hmove
  · rename_i hphase
    obtain ⟨valid, -, rfl⟩ := Option.map_eq_some_iff.mp hmove
    exact ⟨_, rfl, h.answer ⟨rfl, rfl, rfl⟩ hphase (by constructor <;> simp) (by simp [Phase.level])
      fun _ _ => rfl⟩
  · rename_i hphase
    split at hmove
    · obtain rfl := Option.some.inj hmove
      refine ⟨_, rfl, h.answer ⟨rfl, rfl, rfl⟩ hphase (by constructor <;> simp [Phase.level])
        (by simp [Phase.level]) fun o ho => ?_⟩
      exact if_pos (ho.sign (by simp [Phase.level]))
    · obtain rfl := Option.some.inj hmove
      refine ⟨_, rfl, h.answer ⟨rfl, rfl, rfl⟩ hphase (by constructor <;> simp [Phase.level])
        (by simp [Phase.level]) fun o ho => ?_⟩
      have hsigned : o.sign = true := ho.sign (by simp [Phase.level])
      simp [Bump.remaining, hsigned]
  · rename_i hphase
    obtain rfl := Option.some.inj hmove
    exact ⟨_, rfl, h.answer ⟨rfl, rfl, rfl⟩ hphase (by constructor <;> simp) (by simp [Phase.level])
      fun _ _ => rfl⟩
  · rename_i hphase
    obtain rfl := Option.some.inj hmove
    exact ⟨_, rfl, h.answer ⟨rfl, rfl, rfl⟩ hphase (by constructor <;> simp) (by simp [Phase.level])
      fun _ _ => rfl⟩
  · rename_i ok cert rt hphase
    dsimp only at hmove
    split at hmove
    · rename_i hok
      obtain rfl := Option.some.inj hmove
      refine ⟨_, rfl, h.answer ⟨rfl, rfl, rfl⟩ hphase (by constructor <;> simp [Phase.level])
        (by simp [Phase.level]) fun o ho => ?_⟩
      have hconfig : o.loadConfig = true := (ho.loadConfig (by simp [Phase.level])).trans hok
      simp [Bump.remaining, serveTLS, hconfig]
    · rename_i hno
      obtain rfl := Option.some.inj hmove
      refine ⟨_, rfl, h.answer ⟨rfl, rfl, rfl⟩ hphase (by constructor <;> simp [Phase.level])
        (by simp [Phase.level]) fun o ho => ?_⟩
      have hconfig : o.loadConfig = false :=
        (ho.loadConfig (by simp [Phase.level])).trans (Bool.eq_false_iff.mpr hno)
      simp [Bump.remaining, serveTLS, hconfig]
  · rename_i ok cert rt hphase
    obtain rfl := Option.some.inj hmove
    refine ⟨_, rfl, h.answer ⟨rfl, rfl, rfl⟩ hphase (by constructor <;> simp [Phase.level]) ?_ ?_⟩
    · cases ok <;> simp [Phase.level]
    · intro o ho
      have hclient : o.clientHandshake = ok :=
        ho.clientHandshake (by cases ok <;> simp [Phase.level])
      cases ok <;> simp [Bump.remaining, hclient]
  · rename_i ok hphase
    obtain rfl := Option.some.inj hmove
    refine ⟨_, rfl, h.answer ⟨rfl, rfl, rfl⟩ hphase (by constructor <;> simp [Phase.level])
      (by simp [Phase.level]) fun o ho => ?_⟩
    have hredial : o.redial = ok := ho.redial (by simp [Phase.level])
    simp [Bump.remaining, connectDirect, hredial]
  · cases hmove

theorem State.Follows.step (h : s.Follows w.env) {e : Event} (hstep : s.step w e = some t) :
    t.Follows w.env := by
  unfold State.step at hstep
  split at hstep
  · cases hstep
  · cases e with
    | tick now =>
      dsimp only at hstep
      split at hstep
      · exact Option.some.inj hstep ▸ h
      · cases hstep
    | begin serverAddr authUser conn lookupAddr =>
      obtain rfl := Option.some.inj hstep
      intro i b hb
      rcases Indexed.of_concat hb with hold | ⟨-, rfl⟩
      · exact h i b hold
      · exact follows_begin serverAddr authUser conn lookupAddr s.now
    | move i m =>
      obtain ⟨b, hb, hmove⟩ := Option.bind_eq_some_iff.mp hstep
      obtain ⟨b', hbumps, hfollows⟩ := (h i b hb).move hmove
      intro j c hc
      rw [hbumps] at hc
      rcases Indexed.of_set hc with ⟨-, rfl⟩ | ⟨-, hold⟩
      · exact hfollows
      · exact h j c hold

theorem follows_reach {ttl : Int} {now : Instant}
    (h : Reach (State.step w) anyStep (.start ttl now) s) : s.Follows w.env := by
  have hstart : (State.start ttl now).Follows w.env := fun i b hb => by cases hb
  exact h.invariant hstart fun hall _ hstep => hall.step hstep

/-- How a bump has ended, or goes on being served. -/
def Phase.result (authUser : GoString) : Phase → Option BumpResult
  | .serving _ _ => some (.terminated { tls := true, user := authUser })
  | .ended res => some res
  | _ => none

/-- **A bump among others ends as it does alone, with the answers that it got.** -/
theorem bump_ends {ttl : Int} {now : Instant}
    (h : Reach (State.step w) anyStep (.start ttl now) s) {i : Nat} {b : Bump}
    (hb : s.bumps[i]? = some b) {res : BumpResult}
    (hres : b.phase.result b.authUser = some res) :
    sslBump w.env b.seen b.serverAddr b.authUser b.conn = res := by
  have hself : Known b.phase.level b.seen b.seen :=
    ⟨rfl, rfl, fun _ => rfl, fun _ => rfl, fun _ => rfl, fun _ => rfl, fun _ => rfl,
      fun _ => rfl, fun _ => rfl⟩
  rw [follows_reach h i b hb b.seen hself]
  unfold Bump.remaining
  cases hphase : b.phase with
  | serving cert rt =>
    rw [hphase] at hres
    exact Option.some.inj hres
  | ended res' =>
    rw [hphase] at hres
    exact Option.some.inj hres
  | _ =>
    rw [hphase] at hres
    cases hres

/-- The second client is served as the sequential model says. -/
theorem bump_ends_second : ∃ s b, Reach (State.step exampleWorld) anyStep
    (.start 0 ⟨0, by decide⟩) s ∧ s.bumps[1]? = some b
      ∧ sslBump exampleEnv b.seen b.serverAddr b.authUser b.conn
        = .terminated { tls := true, user := b.authUser } := by
  obtain ⟨s, hreach, b, rt, hb, hserving⟩ := exampleEvents_reach
  exact ⟨s, b, hreach, hb, bump_ends hreach hb (by rw [hserving]; rfl)⟩

end Follow

end BumpCert

end RbiProxy
