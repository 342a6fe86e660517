import RbiProxy.ClientHello
import RbiProxy.ServeHTTP

/-!
# TLS termination and its fallback

`SSLBump` in `ssl.go`, on what the client sends and on what the outside
answers. The connection ends closed, or TLS is terminated and a
`ProxyHandler` serves it, or `ConnectDirect` relays the client's bytes to
the origin. The last is the fallback of the code for a client that does not
speak TLS as expected and for an origin whose certificate cannot be forged;
`sslBump_relays` says exactly when it is taken.
-/

namespace RbiProxy

namespace Proxy

open Hello

/-! ## The outside -/

/-- `BlockObsoleteSSL`, the certificate cache, reverse DNS, and the outcomes
of what one call of `SSLBump` does once: dial the origin, shake hands with
it, sign the forged certificate, load the configuration, shake hands with
the client, and dial again in `ConnectDirect`. -/
structure Outside where
  blockObsoleteSSL : Bool
  certCached : (serverName serverAddr : GoString) → Bool
  lookupAddr : GoString → List GoString
  dial : Bool
  handshake : Bool
  sign : Bool
  loadConfig : Bool
  clientHandshake : Bool
  redial : Bool

/-- How `SSLBump` ends. `relayed` has the bytes that go to the origin, and
`exited` is the `log.Fatalf` on a configuration that cannot be loaded. -/
inductive BumpResult where
  | closed
  | terminated (handler : ProxyHandler)
  | relayed (toServer : GoString)
  | exited

/-! ## `SSLBump` -/

/-- `ConnectDirect` with the bytes that were read ahead. -/
def connectDirect (o : Outside) (extraData : GoString) (conn : Conn) : BumpResult :=
  if o.redial then .relayed (extraData ++ conn.bytes) else .closed

/-- The end of `SSLBump`: the server side of TLS, with the client. -/
def serveTLS (o : Outside) (authUser : GoString) : BumpResult :=
  if o.loadConfig = false then .exited
  else if o.clientHandshake = false then .closed
  else .terminated { tls := true, user := authUser }

/-- The name of a host that the client did not name: reverse DNS for an
address, if it has an entry. -/
def nameOfHost (env : Env) (o : Outside) (host : GoString) : GoString :=
  if (env.parseIP host).isSome then
    match o.lookupAddr host with
    | name :: _ => trimSuffix name (lit ".")
    | [] => host
  else host

/-- The host of the address; all of it when it has no port. -/
def serverHost (serverAddr : GoString) : GoString :=
  match splitHostPort serverAddr with
  | .ok (host, _) => host
  | .error _ => serverAddr

/-- `serverName`, from the SNI or else from the address. -/
def serverName (env : Env) (o : Outside) (serverAddr sni : GoString) : GoString :=
  if sni = [] then nameOfHost env o (serverHost serverAddr) else sni

/-- From the certificate cache on. -/
def bumpNamed (o : Outside) (serverAddr authUser clientHello name : GoString) (conn : Conn) :
    BumpResult :=
  if o.certCached name serverAddr then serveTLS o authUser
  else if o.dial = false then connectDirect o clientHello conn
  else if o.handshake = false then connectDirect o clientHello conn
  else if o.sign = false then connectDirect o clientHello conn
  else serveTLS o authUser

/-- `SSLBump`. A panic of the ClientHello parser is recovered, and the
connection closed. -/
def sslBump (env : Env) (o : Outside) (serverAddr authUser : GoString) (conn : Conn) :
    BumpResult :=
  match readClientHello conn with
  | (_, some (.io .net), _) => .closed
  | (clientHello, some .obsoleteSSLVersion, conn) =>
    if o.blockObsoleteSSL then .closed
    else bumpNamed o serverAddr authUser clientHello (serverName env o serverAddr []) conn
  | (clientHello, some _, conn) => connectDirect o clientHello conn
  | (clientHello, none, conn) =>
    match clientHelloServerName clientHello with
    | .error _ => .closed
    | .ok sni =>
      bumpNamed o serverAddr authUser clientHello (serverName env o serverAddr (sni.getD []))
        conn

/-! ## The fallback -/

def BumpResult.Relays (res : BumpResult) : Prop := ∃ toServer, res = .relayed toServer

/-- The ClientHello is refused: reading it ends in an error that is neither a
`net.Error` nor `ErrObsoleteSSLVersion`. -/
def HelloRefused (conn : Conn) : Prop :=
  ∃ e, (readClientHello conn).2.1 = some e ∧ e ≠ .io .net ∧ e ≠ .obsoleteSSLVersion

/-- The ClientHello is accepted and gives the server name: it was read without
error, whether or not it parses, or is of an obsolete version that is not
blocked. -/
def HelloNames (env : Env) (o : Outside) (serverAddr : GoString) (conn : Conn)
    (name : GoString) : Prop :=
  ((readClientHello conn).2.1 = none ∧ ∃ sni,
      clientHelloServerName (readClientHello conn).1 = .ok sni
      ∧ name = serverName env o serverAddr (sni.getD [])) ∨
  ((readClientHello conn).2.1 = some .obsoleteSSLVersion ∧ o.blockObsoleteSSL = false
      ∧ name = serverName env o serverAddr [])

/-- No certificate for the name can be had: none is cached, and the origin
cannot be dialled, does not complete a handshake, or its certificate cannot
be signed. -/
def NoCertificate (o : Outside) (serverAddr name : GoString) : Prop :=
  o.certCached name serverAddr = false ∧
    (o.dial = false ∨ o.handshake = false ∨ o.sign = false)

theorem connectDirect_relays {o : Outside} {extraData : GoString} {conn : Conn} :
    (connectDirect o extraData conn).Relays ↔ o.redial = true := by
  unfold connectDirect
  split
  · rename_i h
    exact ⟨fun _ => h, fun _ => ⟨_, rfl⟩⟩
  · rename_i h
    exact ⟨fun ⟨_, hr⟩ => (by cases hr), fun hr => absurd hr h⟩

theorem not_serveTLS_relays {o : Outside} {authUser : GoString} :
    ¬ (serveTLS o authUser).Relays := by
  rintro ⟨toServer, h⟩
  unfold serveTLS at h
  split at h
  · cases h
  · split at h <;> cases h

theorem bumpNamed_relays {o : Outside} {serverAddr authUser clientHello name : GoString}
    {conn : Conn} : (bumpNamed o serverAddr authUser clientHello name conn).Relays ↔
      o.redial = true ∧ NoCertificate o serverAddr name := by
  unfold bumpNamed NoCertificate
  cases hcert : o.certCached name serverAddr with
  | true => simp [not_serveTLS_relays]
  | false =>
      cases hdial : o.dial with
      | false => simp [connectDirect_relays]
      | true =>
          cases hshake : o.handshake with
          | false => simp [connectDirect_relays]
          | true =>
              cases hsign : o.sign with
              | false => simp [connectDirect_relays]
              | true => simp [not_serveTLS_relays]

/-- A refused hello goes straight to `ConnectDirect`. -/
theorem sslBump_refused {env : Env} {o : Outside} {serverAddr authUser hello : GoString}
    {conn rest : Conn} {e : ReadHelloErr} (hread : readClientHello conn = (hello, some e, rest))
    (hnet : e ≠ .io .net) (hobs : e ≠ .obsoleteSSLVersion) :
    sslBump env o serverAddr authUser conn = connectDirect o hello rest := by
  unfold sslBump
  rw [hread]
  cases e with
  | io err =>
      cases err with
      | net => exact absurd rfl hnet
      | _ => rfl
  | obsoleteSSLVersion => exact absurd rfl hobs
  | _ => rfl

/-- A hello that names the server goes on to the certificates. -/
theorem sslBump_named {env : Env} {o : Outside} {serverAddr name : GoString} {conn : Conn}
    (h : HelloNames env o serverAddr conn name) (authUser : GoString) : ∃ hello rest,
      sslBump env o serverAddr authUser conn
        = bumpNamed o serverAddr authUser hello name rest := by
  unfold HelloNames at h
  unfold sslBump
  generalize readClientHello conn = res at h ⊢
  obtain ⟨hello, err, rest⟩ := res
  rcases h with ⟨hnone, sni, hsni, rfl⟩ | ⟨hobs, hblock, rfl⟩
  · obtain rfl : err = none := hnone
    simp only at hsni
    exact ⟨hello, rest, by simp only [hsni]⟩
  · obtain rfl : err = some .obsoleteSSLVersion := hobs
    exact ⟨hello, rest, by simp [hblock]⟩

theorem sslBump_closed {env : Env} {o : Outside} {serverAddr : GoString} {conn : Conn}
    (hrefused : ¬ HelloRefused conn) (hnames : ∀ name, ¬ HelloNames env o serverAddr conn name)
    (authUser : GoString) : sslBump env o serverAddr authUser conn = .closed := by
  unfold sslBump
  unfold HelloRefused at hrefused
  unfold HelloNames at hnames
  split
  · rfl
  · rename_i hello rest hread
    split
    · rfl
    · rename_i hblock
      refine absurd (.inr ⟨?_, by simpa using hblock, rfl⟩) (hnames _)
      rw [hread]
  · rename_i hello e rest hnet hobs hread
    exact absurd ⟨e, by rw [hread], hnet, hobs⟩ hrefused
  · rename_i hello rest hread
    split
    · rfl
    · rename_i sni hsni
      refine absurd (.inl ⟨by rw [hread], sni, ?_, rfl⟩) (hnames _)
      rw [hread]
      exact hsni

theorem sslBump_cases (env : Env) (o : Outside) (serverAddr authUser : GoString) (conn : Conn) :
    (HelloRefused conn ∧ ∃ hello rest,
      sslBump env o serverAddr authUser conn = connectDirect o hello rest) ∨
    (¬ HelloRefused conn ∧ ∃ name hello rest, HelloNames env o serverAddr conn name ∧
      sslBump env o serverAddr authUser conn
        = bumpNamed o serverAddr authUser hello name rest) ∨
    (¬ HelloRefused conn ∧ (∀ name, ¬ HelloNames env o serverAddr conn name) ∧
      sslBump env o serverAddr authUser conn = .closed) := by
  by_cases hrefused : HelloRefused conn
  · obtain ⟨e, he, hnet, hobs⟩ := id hrefused
    exact .inl ⟨hrefused, _, _, sslBump_refused (Prod.ext rfl (Prod.ext he rfl)) hnet hobs⟩
  by_cases hnames : ∃ name, HelloNames env o serverAddr conn name
  · obtain ⟨name, hname⟩ := hnames
    obtain ⟨hello, rest, hbump⟩ := sslBump_named hname authUser
    exact .inr (.inl ⟨hrefused, name, hello, rest, hname, hbump⟩)
  · have hno : ∀ name, ¬ HelloNames env o serverAddr conn name :=
      fun name hname => hnames ⟨name, hname⟩
    exact .inr (.inr ⟨hrefused, hno, sslBump_closed hrefused hno authUser⟩)

theorem HelloNames.unique {env : Env} {o : Outside} {serverAddr name name' : GoString}
    {conn : Conn} (h : HelloNames env o serverAddr conn name)
    (h' : HelloNames env o serverAddr conn name') : name = name' := by
  rcases h with ⟨hnone, sni, hsni, rfl⟩ | ⟨hobs, -, rfl⟩
  · rcases h' with ⟨-, sni', hsni', rfl⟩ | ⟨hobs, -⟩
    · rw [hsni] at hsni'
      rw [Except.ok.inj hsni']
    · rw [hnone] at hobs
      cases hobs
  · rcases h' with ⟨hnone, -⟩ | ⟨-, -, rfl⟩
    · rw [hobs] at hnone
      cases hnone
    · rfl

theorem sslBump_relays {env : Env} {o : Outside} {serverAddr authUser : GoString}
    {conn : Conn} : (sslBump env o serverAddr authUser conn).Relays ↔
      o.redial = true ∧ (HelloRefused conn ∨
        ∃ name, HelloNames env o serverAddr conn name ∧ NoCertificate o serverAddr name) := by
  rcases sslBump_cases env o serverAddr authUser conn with
    ⟨hrefused, hello, rest, hbump⟩ | ⟨hrefused, name, hello, rest, hname, hbump⟩ |
    ⟨hrefused, hno, hbump⟩
  · rw [hbump, connectDirect_relays]
    exact ⟨fun h => ⟨h, .inl hrefused⟩, fun h => h.1⟩
  · rw [hbump, bumpNamed_relays]
    constructor
    · rintro ⟨hdial, hcert⟩
      exact ⟨hdial, .inr ⟨name, hname, hcert⟩⟩
    · rintro ⟨hdial, hrefused' | ⟨name', hname', hcert⟩⟩
      · exact absurd hrefused' hrefused
      · exact ⟨hdial, hname.unique hname' ▸ hcert⟩
  · rw [hbump]
    constructor
    · rintro ⟨toServer, h⟩
      cases h
    · rintro ⟨-, hrefused' | ⟨name, hname, -⟩⟩
      · exact absurd hrefused' hrefused
      · exact absurd hname (hno name)

/-! ## What is not relayed -/

/-- The connection is closed, or TLS is terminated by a handler for the user
of the request, or the process exits. -/
def BumpResult.Isolates (authUser : GoString) (res : BumpResult) : Prop :=
  res = .closed ∨ res = .terminated { tls := true, user := authUser } ∨ res = .exited

theorem connectDirect_isolates {o : Outside} {authUser extraData : GoString} {conn : Conn} :
    (connectDirect o extraData conn).Relays ∨
      (connectDirect o extraData conn).Isolates authUser := by
  unfold connectDirect
  split
  · exact .inl ⟨_, rfl⟩
  · exact .inr (.inl rfl)

theorem serveTLS_isolates {o : Outside} {authUser : GoString} :
    (serveTLS o authUser).Isolates authUser := by
  unfold serveTLS
  split
  · exact .inr (.inr rfl)
  split
  · exact .inl rfl
  · exact .inr (.inl rfl)

theorem bumpNamed_isolates {o : Outside} {serverAddr authUser clientHello name : GoString}
    {conn : Conn} : (bumpNamed o serverAddr authUser clientHello name conn).Relays ∨
      (bumpNamed o serverAddr authUser clientHello name conn).Isolates authUser := by
  unfold bumpNamed
  split
  · exact .inr serveTLS_isolates
  split
  · exact connectDirect_isolates
  split
  · exact connectDirect_isolates
  split
  · exact connectDirect_isolates
  · exact .inr serveTLS_isolates

theorem sslBump_isolates (env : Env) (o : Outside) (serverAddr authUser : GoString)
    (conn : Conn) : (sslBump env o serverAddr authUser conn).Relays ∨
      (sslBump env o serverAddr authUser conn).Isolates authUser := by
  rcases sslBump_cases env o serverAddr authUser conn with
    ⟨-, hello, rest, hbump⟩ | ⟨-, name, hello, rest, -, hbump⟩ | ⟨-, -, hbump⟩
  · rw [hbump]
    exact connectDirect_isolates
  · rw [hbump]
    exact bumpNamed_isolates
  · rw [hbump]
    exact .inr (.inl rfl)

/-! ## The result -/

/-- A connection that `ServeHTTP` has chosen to bump is closed or terminated
(or the process exits), whatever the client sends and the outside answers,
except where `SSLBump` falls back to `ConnectDirect` and its dial succeeds:
on a ClientHello that is refused, and on one that names a server for which
no certificate can be had. -/
theorem bump_isolates_or_fallsBack {env : Env} {p : GSProxy} {h : ProxyHandler}
    {cache : UsersCache} {r : Request} {addr user authUser : GoString}
    (hsel : (serveHTTP env p h cache r).1 = .bump addr user authUser) :
    Bumped env p h r addr ∧ ∀ (o : Outside) (conn : Conn),
      ((sslBump env o addr authUser conn).Relays ∨
        (sslBump env o addr authUser conn).Isolates authUser) ∧
      ((sslBump env o addr authUser conn).Relays ↔
        o.redial = true ∧ (HelloRefused conn ∨
          ∃ name, HelloNames env o addr conn name ∧ NoCertificate o addr name)) :=
  ⟨serveHTTP_bump hsel, fun o conn => ⟨sslBump_isolates env o addr authUser conn, sslBump_relays⟩⟩

/-! ## A plain client -/

def healthyOutside : Outside where
  blockObsoleteSSL := true
  certCached _ _ := false
  lookupAddr _ := []
  dial := true
  handshake := true
  sign := true
  loadConfig := true
  clientHandshake := true
  redial := true

/-- A client that speaks plain HTTP inside the tunnel. -/
def plainClient : Conn := ⟨[lit "GET / HTTP/1.1"], .eof⟩

theorem serveHTTP_exampleConnect :
    (serveHTTP exampleEnv exampleProxy ⟨false, []⟩ ∅ exampleConnect).1
      = .bump (lit "www.youtube.com:443") (lit "10.0.0.5") (lit "10.0.0.5") := by
  decide +kernel

theorem plainClient_refused : HelloRefused plainClient :=
  ⟨.contentType 71, by decide +kernel, by decide, by decide⟩

/-- The request is bumped, and the plain client is relayed by the fallback. -/
theorem bump_isolates_or_fallsBack_example :
    (serveHTTP exampleEnv exampleProxy ⟨false, []⟩ ∅ exampleConnect).1
      = .bump (lit "www.youtube.com:443") (lit "10.0.0.5") (lit "10.0.0.5") ∧
    Bumped exampleEnv exampleProxy ⟨false, []⟩ exampleConnect (lit "www.youtube.com:443") ∧
    (sslBump exampleEnv healthyOutside (lit "www.youtube.com:443") (lit "10.0.0.5")
      plainClient).Relays := by
  obtain ⟨hbumped, hout⟩ := bump_isolates_or_fallsBack serveHTTP_exampleConnect
  exact ⟨serveHTTP_exampleConnect, hbumped,
    (hout healthyOutside plainClient).2.mpr ⟨rfl, .inl plainClient_refused⟩⟩

/-- Isolation is not kept for every client: bytes that are no ClientHello
make the proxy relay the connection to the origin. -/
theorem not_never_relays :
    ¬ ∀ (env : Env) (p : GSProxy) (h : ProxyHandler) (cache : UsersCache) (r : Request)
        (addr user authUser : GoString),
      (serveHTTP env p h cache r).1 = .bump addr user authUser →
        ∀ (o : Outside) (conn : Conn), ¬ (sslBump env o addr authUser conn).Relays := by
  intro h
  exact h _ _ _ _ _ _ _ _ serveHTTP_exampleConnect healthyOutside plainClient
    (sslBump_relays.mpr ⟨rfl, .inl plainClient_refused⟩)

end Proxy

end RbiProxy
