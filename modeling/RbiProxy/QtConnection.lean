import RbiProxy.QtHello

/-!
# A connection of the Qt proxy

`ConnectionHandler` of `tlsproxyQT`: the `CONNECT` request is read, the
ClientHello behind it is peeked at and left to the TLS engine, and once both
handshakes are through, the plaintext is pumped in both directions.

A `Handler` has the fields of the class together with what its two sockets
hold. Each event of a socket is followed by the slot it is connected to;
`waitForReadyRead` inside `HandleClientHello` is the field `waiting`, and the
bytes that come meanwhile let the loop look again. The proxy's certificates are
the parameter `Certs`. Bytes that are there before the slots are connected come
with the first event.
-/

namespace RbiProxy

namespace Qt

/-! ## The request -/

def crlf2 : GoString := lit "\r\n\r\n"

def isSpace (b : UInt8) : Bool := b == 32 || (9 ≤ b && b ≤ 13)

def isDigit (b : UInt8) : Bool := 48 ≤ b && b ≤ 57

/-- `CONNECT\s+([^:\s]+):(\d+)` at the start of a text, with its two groups.
The classes exclude what follows them, so there is nothing to backtrack. -/
def connectAt (s : GoString) : Option (GoString × GoString) :=
  if hasPrefix s (lit "CONNECT") then
    let s := s.drop 7
    let spaces := s.takeWhile isSpace
    let s := s.drop spaces.length
    let host := s.takeWhile fun b => !(b == 58 || isSpace b)
    let s := s.drop host.length
    let port := (s.drop 1).takeWhile isDigit
    if spaces = [] ∨ host = [] ∨ s.head? ≠ some 58 ∨ port = [] then none else some (host, port)
  else none

/-- `re.match`: the first place of the text that matches. -/
def connectMatch (s : GoString) : Option (GoString × GoString) := s.tails.findSome? connectAt

/-- `static_cast<quint16>(s.toUInt())`; `toUInt` is 0 when 32 bits do not hold
the number. -/
def toPort (digits : GoString) : UInt16 :=
  let n := digits.foldl (fun n b => 10 * n + (b.toNat - 48)) 0
  if n < 2 ^ 32 then UInt16.ofNat n else 0

/-! ## The ClientHello -/

/-- Where `HandleClientHello` stands with the bytes at hand. -/
inductive HelloRead where
  | waits
  | throws
  | record (bytes : GoString)
deriving DecidableEq

/-- One look of `HandleClientHello` at what is readable. -/
def peekHello (buf : GoString) : HelloRead :=
  if buf.length < 5 then .waits
  else if u8 buf 0 ≠ 22 then .throws
  else if u8 buf 1 ≠ 3 then .throws
  else
    let recordLen := (u16 buf 3).toNat
    if recordLen < 4 ∨ 0x4000 < recordLen then .throws
    else
      let total := 5 + recordLen
      if buf.length < total then .waits
      else
        let record := buf.take total
        let handshakeLen := (GoSlice.be24 (u8 record 6) (u8 record 7) (u8 record 8)).toNat
        if u8 record 5 ≠ 1 then .throws
        else if handshakeLen ≠ recordLen - 4 then .throws
        else .record record

/-- A check that both make, and that neither returns a record from. -/
theorem some_iff_record_of_check {c : Prop} [Decidable c] {o : Option GoString}
    {read failed : HelloRead} {record : GoString} (hfailed : failed ≠ .record record)
    (h : o = some record ↔ read = .record record) :
    (if c then none else o) = some record ↔ (if c then failed else read) = .record record := by
  by_cases hc : c
  · rw [if_pos hc, if_pos hc]
    exact iff_of_false (Option.some_ne_none record).symm hfailed
  · rw [if_neg hc, if_neg hc]
    exact h

/-- The reader on a whole stream is the look at all of it. -/
theorem handleClientHello_eq_some_iff {stream record : GoString} :
    handleClientHello stream = some record ↔ peekHello stream = .record record := by
  have hwaits : HelloRead.waits ≠ .record record := HelloRead.noConfusion
  have hthrows : HelloRead.throws ≠ .record record := HelloRead.noConfusion
  unfold handleClientHello peekHello
  refine some_iff_record_of_check hwaits ?_
  refine some_iff_record_of_check hthrows ?_
  refine some_iff_record_of_check hthrows ?_
  refine some_iff_record_of_check hthrows ?_
  refine some_iff_record_of_check hwaits ?_
  refine some_iff_record_of_check hthrows ?_
  refine some_iff_record_of_check hthrows ?_
  rw [Option.some.injEq, HelloRead.record.injEq]

/-- The certificate store: the text a name becomes, and whether there is a
certificate with its key for it. -/
structure Certs where
  qString : GoString → GoString
  forged : GoString → Bool

/-- The name a certificate is made for: the one in the ClientHello, or the host
of the request if `Unmarshal` rejects the hello or finds none. -/
def sniOf (certs : Certs) (targetHost hello : GoString) : GoString :=
  let sni : GoString :=
    match unmarshal hello with
    | .ok packet => getSNI certs.qString packet
    | .error _ => []
  if sni = [] then targetHost else sni

/-! ## The handler -/

/-- `ConnectionHandler::State`. -/
inductive State where
  | readConnect
  | bumping
  | relaying
deriving DecidableEq

structure Handler where
  state : State := .readConnect
  connectBuffer : GoString := []
  targetHost : GoString := []
  targetPort : UInt16 := 443
  sni : GoString := []
  bumpStarted : Bool := false
  clientReady : Bool := false
  serverReady : Bool := false
  /-- `m_finishedEmitted`. -/
  finished : Bool := false
  /-- `startBump` is in `waitForReadyRead`. -/
  waiting : Bool := false
  /-- What `readAll` and `peek` see of `clientSocket`. -/
  client : GoString := []
  /-- The bytes the TLS engine of `clientSocket` has been given, from
  `startServerEncryption` on. -/
  engine : Option GoString := none
  /-- What `readAll` sees of `serverSocket`. -/
  server : GoString := []
  /-- `connectToHostEncrypted` has been called. -/
  dialed : Bool := false
  /-- Written to `clientSocket` before TLS. -/
  reply : GoString := []
  /-- Written to `clientSocket` by the pump. -/
  toClient : GoString := []
  /-- Written to `serverSocket`. -/
  toServer : GoString := []

inductive Event where
  /-- Bytes come in from the client's side of the connection. -/
  | clientBytes (bytes : GoString)
  /-- The TLS engine has decrypted bytes of the client. -/
  | clientPlain (bytes : GoString)
  | clientEncrypted
  | clientDisconnected
  /-- `waitForReadyRead` gives up. -/
  | helloTimeout
  | serverEncrypted
  /-- Bytes of the server that `serverSocket` has decrypted. -/
  | serverPlain (bytes : GoString)
  | serverDisconnected
deriving DecidableEq

namespace Handler

def shutdown (st : Handler) : Handler := { st with finished := true }

def pumpClientToServer (st : Handler) : Handler :=
  if ¬ st.clientReady then st
  else { st with client := [], toServer := st.toServer ++ st.client }

def pumpServerToClient (st : Handler) : Handler :=
  if ¬ st.serverReady ∨ ¬ st.clientReady then st
  else { st with server := [], toClient := st.toClient ++ st.server }

def parseConnect (st : Handler) : Handler × Bool :=
  let st := { st with connectBuffer := st.connectBuffer ++ st.client, client := [] }
  if ¬ contains st.connectBuffer crlf2 then (st, false)
  else
    match connectMatch st.connectBuffer with
    | none => (st.shutdown, false)
    | some (host, port) =>
      ({ st with
          targetHost := host
          targetPort := toPort port
          reply := st.reply ++ lit "HTTP/1.1 200 Connection Established\r\n\r\n"
          dialed := true }, true)

/-- `startBump` from where `HandleClientHello` has returned. -/
def bump (certs : Certs) (hello : GoString) (st : Handler) : Handler :=
  let st := { st with sni := sniOf certs st.targetHost hello }
  if ¬ certs.forged st.sni then st.shutdown
  else { st with engine := some st.client, client := [] }

/-- `HandleClientHello` looks at the socket. -/
def lookHello (certs : Certs) (st : Handler) : Handler :=
  match peekHello st.client with
  | .waits => { st with waiting := true }
  | .throws => { st with waiting := false }.shutdown
  | .record hello => { st with waiting := false }.bump certs hello

def startBump (certs : Certs) (st : Handler) : Handler :=
  { st with bumpStarted := true }.lookHello certs

def handleClientReadyRead (certs : Certs) (st : Handler) : Handler :=
  match st.state with
  | .readConnect =>
    match st.parseConnect with
    | (st, true) =>
      let st := { st with state := .bumping }
      if 0 < st.client.length then st.startBump certs else st
    | (st, false) => st
  | .bumping => if ¬ st.bumpStarted then st.startBump certs else st
  | .relaying => st.pumpClientToServer

def handleClientEncrypted (st : Handler) : Handler :=
  { st with clientReady := true, state := .relaying }.pumpClientToServer.pumpServerToClient

def handleServerEncrypted (st : Handler) : Handler :=
  { st with serverReady := true }.pumpServerToClient.pumpClientToServer

/-- Bytes become readable on `clientSocket`. -/
def buffer (bytes : GoString) (st : Handler) : Handler := { st with client := st.client ++ bytes }

/-- Bytes on the client's connection. The TLS engine takes them once it runs;
before that they become readable, and `waitForReadyRead` or the slot sees
them. -/
def clientArrives (certs : Certs) (bytes : GoString) (st : Handler) : Handler :=
  match st.engine with
  | some given => { st with engine := some (given ++ bytes) }
  | none =>
    let st := st.buffer bytes
    if st.waiting then st.lookHello certs else st.handleClientReadyRead certs

def step (certs : Certs) (st : Handler) : Event → Handler
  | .clientBytes bytes => st.clientArrives certs bytes
  | .clientPlain bytes => (st.buffer bytes).handleClientReadyRead certs
  | .clientEncrypted => st.handleClientEncrypted
  | .clientDisconnected => st.shutdown
  | .helloTimeout => if st.waiting then { st with waiting := false }.shutdown else st
  | .serverEncrypted => st.handleServerEncrypted
  | .serverPlain bytes => { st with server := st.server ++ bytes }.pumpServerToClient
  | .serverDisconnected => st.shutdown

/-- The events of a connection, one after the other. -/
def run (certs : Certs) (es : List Event) : Handler := es.foldl (step certs) {}

theorem run_concat (certs : Certs) (es : List Event) (e : Event) :
    run certs (es ++ [e]) = step certs (run certs es) e := by
  rw [run, List.foldl_append]
  rfl

end Handler

end Qt

end RbiProxy
