import Mathlib.Data.List.GetD
import RbiProxy.GoConn
import RbiProxy.GoMap
import RbiProxy.GoSlice

/-!
# Reading and parsing the ClientHello

`clienthello/read.go` reads one TLS record from the client and
`clienthello/clientHello.go` parses it. Both are translated statement by
statement: every index and slice expression of the parser is a checked
access, so that `.fault` stands for the panic Go would raise there, and
the 16-bit length expressions `2+ch.CipherSuiteLen` and `4+length` are
`UInt16` additions.

`Unmarshall` fills a `ClientHello` in place. Its callers only look at the
value after a `nil` error, so the model returns it in that case alone.
-/

namespace RbiProxy

namespace Hello

open GoSlice

/-! ## Constants -/

def extServerName : UInt16 := 0
def extStatusRequest : UInt16 := 5
def extSupportedGroups : UInt16 := 10
def extECPointFormats : UInt16 := 11
def extSignatureAlgs : UInt16 := 13
def extALPN : UInt16 := 16

def sniNameTypeDNS : UInt8 := 0
def ocspStatusRequest : UInt8 := 1
def clientHelloRandomLen : Nat := 32

/-- `ErrHandshakeWrongType`, `ErrHandshakeBadLength`, `ErrHandshakeExtBadLength`. -/
inductive HelloError where
  | wrongType
  | badLength
  | extBadLength
deriving DecidableEq

/-- `ClientHello` with its embedded `TLSMessage`. -/
structure ClientHello where
  raw : GoString := []
  type : UInt8 := 0
  version : UInt16 := 0
  messageLen : UInt16 := 0
  handshakeType : UInt8 := 0
  handshakeLen : UInt32 := 0
  handshakeVersion : UInt16 := 0
  random : GoString := []
  sessionIDLen : UInt32 := 0
  sessionID : GoString := []
  cipherSuiteLen : UInt16 := 0
  cipherSuites : List UInt16 := []
  compressMethods : List UInt8 := []
  extensionLen : UInt16 := 0
  extensions : GoMap UInt16 UInt16 := ∅
  sni : GoString := []
  signatureAlgs : List UInt16 := []
  supportedGroups : List UInt16 := []
  supportedPoints : List UInt8 := []
  oscp : Bool := false
  alpns : List GoString := []

abbrev Parse (α : Type) := Except (Halt HelloError) α

/-! ## The extensions -/

/-- The loop over the `server_name` list. `ch.SNI = string(data)` takes
everything behind the entry's header, not only its `nameLen` bytes. -/
def serverNameLoop (ch : ClientHello) (data : GoString) : Parse ClientHello :=
  if data.length = 0 then return ch
  else do
    let nameType ← idx data 0
    if _h3 : data.length < 3 then throw (.err .extBadLength)
    else do
      let nameLen ← word16 data 1
      let rest := data.drop 3
      let ch := if nameType = sniNameTypeDNS then { ch with sni := rest } else ch
      -- `data = data[nameLen:]`
      if nameLen.toNat ≤ rest.length then serverNameLoop ch (rest.drop nameLen.toNat)
      else throw .fault
termination_by data.length
decreasing_by simp only [List.length_drop]; omega

/-- The loop over the ALPN protocol names. `data[:stringLen]` is bounded by
the slice's capacity, but `data[stringLen:]` right after it by the length,
so the iteration faults exactly when the name is longer than the list. -/
def alpnLoop (ch : ClientHello) : GoString → Parse ClientHello
  | [] => return ch
  | stringLen :: data =>
    if stringLen.toNat ≤ data.length then
      alpnLoop { ch with alpns := ch.alpns ++ [data.take stringLen.toNat] }
        (data.drop stringLen.toNat)
    else throw .fault
termination_by data => data.length
decreasing_by simp only [List.length_drop, List.length_cons]; omega

/-- A length-prefixed list of 16-bit numbers, the shape of
`signature_algorithms` and `supported_groups`. -/
def wordList (data : GoString) : Parse (List UInt16) := do
  if data.length < 2 then throw (.err .extBadLength)
  let len ← word16 data 0
  let data ← sliceFrom data 2
  if data.length < len.toNat then throw (.err .extBadLength)
  words16 data 0 (len.toNat / 2)

/-- The `switch extType` of the extension loop. -/
def extension (ch : ClientHello) (extType length : UInt16) (data : GoString) :
    Parse ClientHello :=
  if extType = extServerName then do
    if data.length < 2 then throw (.err .extBadLength)
    let sniLen ← word16 data 0
    let data ← sliceFrom data 2
    if data.length < sniLen.toNat then throw (.err .extBadLength)
    serverNameLoop ch data
  else if extType = extSignatureAlgs then do
    let algs ← wordList data
    return { ch with signatureAlgs := algs }
  else if extType = extSupportedGroups then do
    let groups ← wordList data
    return { ch with supportedGroups := groups }
  else if extType = extECPointFormats then do
    if data.length < 1 then throw (.err .extBadLength)
    let pointLen ← idx data 0
    let data ← sliceFrom data 1
    if data.length < pointLen.toNat then throw (.err .extBadLength)
    let points ← bytes8 data 0 pointLen.toNat
    return { ch with supportedPoints := points }
  else if extType = extStatusRequest then do
    if data.length < 1 then throw (.err .extBadLength)
    let statusType ← idx data 0
    return if statusType = ocspStatusRequest then { ch with oscp := true } else ch
  else if extType = extALPN then do
    if data.length < 2 then throw (.err .extBadLength)
    let alpnLen ← word16 data 0
    let data ← sliceFrom data 2
    if data.length ≠ alpnLen.toNat then throw (.err .extBadLength)
    alpnLoop ch data
  else return { ch with extensions := ch.extensions.insert extType length }

def extensionLoop (ch : ClientHello) (hs : GoString) : Parse ClientHello :=
  if hs.length = 0 then return ch
  else do
    if hs.length < 4 then throw (.err .extBadLength)
    let extType ← word16 hs 0
    let length ← word16 hs 2
    if hs.length < 4 + length.toNat then throw (.err .extBadLength)
    -- `hs[4 : 4+length]` and `hs[4+length:]`, with the sum in 16 bits
    if h : 4 ≤ (4 + length).toNat ∧ (4 + length).toNat ≤ hs.length then do
      let ch ← extension ch extType length ((hs.take (4 + length).toNat).drop 4)
      extensionLoop ch (hs.drop (4 + length).toNat)
    else throw .fault
termination_by hs.length
decreasing_by simp only [List.length_drop]; omega

/-! ## The fixed part -/

def parseExtensions (ch : ClientHello) (hs : GoString) : Parse ClientHello := do
  if hs.length < 2 then throw (.err .badLength)
  let extensionLen ← word16 hs 0
  if hs.length < extensionLen.toNat then throw (.err .extBadLength)
  let hs ← sliceFrom hs 2
  extensionLoop { ch with extensionLen := extensionLen, extensions := ∅ } hs

def parseCompression (ch : ClientHello) (hs : GoString) : Parse ClientHello := do
  if hs.length < 1 then throw (.err .badLength)
  let numCompressMethods ← idx hs 0
  if hs.length < 1 + numCompressMethods.toNat then throw (.err .badLength)
  let methods ← bytes8 hs 1 numCompressMethods.toNat
  let hs ← sliceFrom hs (1 + numCompressMethods.toNat)
  parseExtensions { ch with compressMethods := methods } hs

/-- From the cipher suites on. The guard compares with the length of the
list without its own two bytes. -/
def parseCipherSuites (ch : ClientHello) (hs : GoString) : Parse ClientHello := do
  if hs.length < 2 then throw (.err .badLength)
  let cipherSuiteLen ← word16 hs 0
  if hs.length < cipherSuiteLen.toNat then throw (.err .badLength)
  let suites ← words16 hs 2 (cipherSuiteLen.toNat / 2)
  let hs ← sliceFrom hs (2 + cipherSuiteLen).toNat
  parseCompression { ch with cipherSuiteLen := cipherSuiteLen, cipherSuites := suites } hs

def parseSessionID (ch : ClientHello) (hs : GoString) : Parse ClientHello := do
  if hs.length < 1 then throw (.err .badLength)
  let sessionIDLen ← idx hs 0
  let hs ← sliceFrom hs 1
  if hs.length < sessionIDLen.toNat then throw (.err .badLength)
  let sessionID ← if sessionIDLen ≠ 0 then sliceTo hs sessionIDLen.toNat else pure []
  let hs ← sliceFrom hs sessionIDLen.toNat
  parseCipherSuites { ch with sessionIDLen := sessionIDLen.toUInt32, sessionID := sessionID } hs

def parseRandom (ch : ClientHello) (hs : GoString) : Parse ClientHello := do
  if hs.length < clientHelloRandomLen then throw (.err .badLength)
  let random ← sliceTo hs clientHelloRandomLen
  let hs ← sliceFrom hs clientHelloRandomLen
  parseSessionID { ch with random := random } hs

def parseHandshake (ch : ClientHello) (hs : GoString) : Parse ClientHello := do
  if hs.length < 6 then throw (.err .badLength)
  let handshakeType ← idx hs 0
  if handshakeType ≠ 1 then throw (.err .wrongType)
  let l1 ← idx hs 1
  let l2 ← idx hs 2
  let l3 ← idx hs 3
  let handshakeVersion ← word16 hs 4
  let hs ← sliceFrom hs 6
  parseRandom { ch with handshakeType := handshakeType, handshakeLen := be24 l1 l2 l3,
                        handshakeVersion := handshakeVersion } hs

/-- `ClientHello.Unmarshall` on a fresh value. -/
def unmarshall (payload : GoString) : Parse ClientHello := do
  let type ← idx payload 0
  let version ← word16 payload 1
  let messageLen ← word16 payload 3
  if type ≠ 22 then throw (.err .wrongType)
  let hs ← sliceFrom payload 5
  parseHandshake { raw := payload, type := type, version := version,
                   messageLen := messageLen } hs

/-! ## Reading the record -/

inductive ReadHelloErr where
  | io (e : ReadErr)
  | obsoleteSSLVersion
  | contentType (got : UInt8)
  | majorVersion (got : UInt8)
  | recordTooLong (recordLen : Nat)
  | recordTooShort (recordLen : Nat)
  | messageType (got : UInt8)
  | lengthMismatch (recordLen protocolLen : Nat)
deriving DecidableEq

/-- What `ReadClientHello` does once the five header bytes are there. -/
def readRecord (header : GoString) (conn : Conn) : GoString × Option ReadHelloErr × Conn :=
  let recordLen := (header.getD 3 0).toNat * 256 + (header.getD 4 0).toNat
  if header.getD 0 0 ≠ 22 then
    if header.getD 0 0 = 128 then (header, some .obsoleteSSLVersion, conn)
    else (header, some (.contentType (header.getD 0 0)), conn)
  else if header.getD 1 0 ≠ 3 then (header, some (.majorVersion (header.getD 1 0)), conn)
  else if 0x3000 < recordLen then (header, some (.recordTooLong recordLen), conn)
  else if recordLen < 4 then (header, some (.recordTooShort recordLen), conn)
  else
    match conn.readFull recordLen with
    | (data, some e, conn) => (header ++ data, some (.io e), conn)
    | (data, none, conn) =>
      let protocolLen := (data.getD 1 0).toNat * 65536 + (data.getD 2 0).toNat * 256
        + (data.getD 3 0).toNat
      if data.getD 0 0 ≠ 1 then (header ++ data, some (.messageType (data.getD 0 0)), conn)
      else if protocolLen ≠ recordLen - 4 then
        (header ++ data, some (.lengthMismatch recordLen protocolLen), conn)
      else (header ++ data, none, conn)

/-- `ReadClientHello`: the bytes read so far, the error, and the connection
after them. -/
def readClientHello (conn : Conn) : GoString × Option ReadHelloErr × Conn :=
  match conn.readFull 5 with
  | (header, some e, conn) => (header, some (.io e), conn)
  | (header, none, conn) => readRecord header conn

/-- `payload` is something `ReadClientHello` returns without an error. -/
def Returned (payload : GoString) : Prop :=
  ∃ conn, (readClientHello conn).1 = payload ∧ (readClientHello conn).2.1 = none

/-- `clientHelloServerName`: the SNI when `Unmarshall` returns `nil`. -/
def clientHelloServerName (data : GoString) : Except (Halt HelloError) (Option GoString) :=
  match unmarshall data with
  | .ok hello => .ok (some hello.sni)
  | .error (.err _) => .ok none
  | .error .fault => .error .fault

/-! ## What a returned record looks like -/

/-- The shape of a record that `ReadClientHello` accepts. -/
structure Accepted (payload : GoString) : Prop where
  type : payload.getD 0 0 = 22
  handshake : payload.getD 5 0 = 1
  minLen : 9 ≤ payload.length
  maxLen : payload.length ≤ 5 + 0x3000

/-- A record that is read without an error has the right type and a length
between the two bounds, and its fragment is a ClientHello message. -/
theorem readRecord_none {header : GoString} {conn : Conn}
    (h : (readRecord header conn).2.1 = none) :
    header.getD 0 0 = 22 ∧ ∃ data, (readRecord header conn).1 = header ++ data
      ∧ data.getD 0 0 = 1 ∧ 4 ≤ data.length ∧ data.length ≤ 0x3000 := by
  unfold readRecord at h ⊢
  simp only at h ⊢
  by_cases h22 : header.getD 0 0 = 22
  case neg =>
    rw [if_pos h22] at h
    split at h <;> cases h
  by_cases h3 : header.getD 1 0 = 3
  case neg => rw [if_neg (not_not.mpr h22), if_pos h3] at h; cases h
  rw [if_neg (not_not.mpr h22), if_neg (not_not.mpr h3)] at h ⊢
  split at h
  · cases h
  · rename_i hmax
    split at h
    · cases h
    · rename_i hmin
      rw [if_neg hmax, if_neg hmin]
      refine ⟨h22, ?_⟩
      split at h
      · cases h
      · rename_i data conn' hread
        have hlen := Conn.length_of_readFull hread
        split at h
        · cases h
        · rename_i h1
          split at h
          · cases h
          · rename_i hproto
            rw [if_neg h1, if_neg hproto]
            exact ⟨data, rfl, not_not.mp h1, by omega, by omega⟩

theorem accepted_of_returned {payload : GoString} (h : Returned payload) :
    Accepted payload := by
  obtain ⟨conn, rfl, he⟩ := h
  unfold readClientHello at he ⊢
  split at he
  · cases he
  · rename_i header conn' hread
    have hhead := Conn.length_of_readFull hread
    obtain ⟨h22, data, hdata, h1, hmin, hmax⟩ := readRecord_none he
    refine ⟨?_, ?_, ?_, ?_⟩ <;> rw [hdata]
    · rw [List.getD_append _ _ _ _ (by omega)]; exact h22
    · rw [List.getD_append_right _ _ _ _ (by omega), hhead]; exact h1
    · rw [List.length_append]; omega
    · rw [List.length_append]; omega

end Hello

end RbiProxy
