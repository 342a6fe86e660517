import Mathlib.Data.List.GetD
import RbiProxy.HelloFault

/-!
# The ClientHello of the Qt proxy

`ClientHelloHandler::HandleClientHello` and `ClientHelloPacket::Unmarshal` of
`tlsproxyQT`, the counterpart of `ReadClientHello` and `Unmarshall`. The reader
peeks at the first record; the parser is written stage by stage as the Go one
is. Every access to the bytes stands behind a check of the length, so there is
no fault here. An allocation is taken to succeed.
-/

namespace RbiProxy

namespace Qt

open GoSlice

/-! ## Values -/

/-- `ClientPacketError`, without `ErrHandshakeSuccess`. -/
inductive ClientPacketError where
  | wrongType
  | badLength
  | extBadLength
deriving DecidableEq

/-- `ClientHelloPacket`. Of a cipher suite the low byte is kept, and the
protocol names stand in one text with commas between them. -/
structure ClientHelloPacket where
  raw : GoString := []
  type : UInt8 := 0
  version : UInt16 := 0
  messageLen : UInt16 := 0
  handshakeType : UInt8 := 0
  handshakeLen : UInt32 := 0
  handshakeVersion : UInt16 := 0
  random : GoString := []
  sessionIdLen : UInt8 := 0
  sessionId : GoString := []
  cipherSuiteLen : UInt16 := 0
  cipherSuites : List UInt8 := []
  compressMethod : List UInt8 := []
  extensionLen : UInt16 := 0
  ecPointFormats : List UInt8 := []
  sni : GoString := []
  signatureAlg : List UInt16 := []
  supportedGroups : List UInt16 := []
  oscp : Bool := false
  alpns : GoString := []
  extensions : GoMap Int Nat := ∅

abbrev Unmarshal (α : Type) := Except ClientPacketError α

/-- `u8(s[i])`. -/
def u8 (s : GoString) (i : Nat) : UInt8 := s.getD i 0

/-- `(u8(s[i]) << 8) | u8(s[i + 1])`. -/
def u16 (s : GoString) (i : Nat) : UInt16 := be16 (u8 s i) (u8 s (i + 1))

def u16s (s : GoString) (n : Nat) : List UInt16 := (List.range n).map fun i => u16 s (2 * i)

/-! ## The extensions -/

/-- The loop over the entries of a `server_name` list. -/
def serverNameLoop (p : ClientHelloPacket) (data : GoString) : Unmarshal ClientHelloPacket :=
  if data.length = 0 then .ok p
  else if _h3 : data.length < 3 then .error .extBadLength
  else
    let nameLen := (u16 data 1).toNat
    let rest := data.drop 3
    if rest.length < nameLen then .error .extBadLength
    else
      let p := if u8 data 0 = 0 then { p with sni := rest.take nameLen } else p
      serverNameLoop p (rest.drop nameLen)
termination_by data.length
decreasing_by simp only [List.length_drop]; omega

def alpnLoop (p : ClientHelloPacket) : GoString → Unmarshal ClientHelloPacket
  | [] => .ok p
  | protoLen :: data =>
    if data.length < protoLen.toNat then .error .extBadLength
    else
      let proto := data.take protoLen.toNat
      let alpns := if p.alpns = [] then proto else p.alpns ++ lit "," ++ proto
      alpnLoop { p with alpns := alpns } (data.drop protoLen.toNat)
termination_by data => data.length
decreasing_by simp only [List.length_drop, List.length_cons]; omega

/-- A list of numbers behind its length, the shape of two of the extensions. -/
def wordList (data : GoString) : Unmarshal (List UInt16) :=
  if data.length < 2 then .error .extBadLength
  else
    let len := (u16 data 0).toNat
    let data := data.drop 2
    if data.length < len then .error .extBadLength else .ok (u16s data (len / 2))

/-- The `switch` over the type of an extension. A `status_request` may be
empty, and an ALPN body longer than its list. A list without elements leaves what
an earlier extension of the type has set. -/
def extension (p : ClientHelloPacket) (extensionType length : UInt16) (data : GoString) :
    Unmarshal ClientHelloPacket :=
  if extensionType = Hello.extServerName then
    if data.length < 2 then .error .extBadLength
    else
      let sniListLen := (u16 data 0).toNat
      let data := data.drop 2
      if data.length < sniListLen then .error .extBadLength else serverNameLoop p data
  else if extensionType = Hello.extSignatureAlgs then
    (wordList data).map fun algs => if algs = [] then p else { p with signatureAlg := algs }
  else if extensionType = Hello.extSupportedGroups then
    (wordList data).map fun groups => if groups = [] then p else { p with supportedGroups := groups }
  else if extensionType = Hello.extECPointFormats then
    if data.length < 1 then .error .extBadLength
    else
      let fmtLen := (u8 data 0).toNat
      let data := data.drop 1
      if data.length < fmtLen then .error .extBadLength
      else if fmtLen = 0 then .ok p
      else .ok { p with ecPointFormats := data.take fmtLen }
  else if extensionType = Hello.extStatusRequest then .ok { p with oscp := true }
  else if extensionType = Hello.extALPN then
    if data.length < 2 then .error .extBadLength
    else
      let alpnLen := (u16 data 0).toNat
      let data := data.drop 2
      if data.length < alpnLen then .error .extBadLength else alpnLoop p data
  else
    .ok { p with extensions := p.extensions.insert extensionType.toInt16.toInt length.toNat }

def extensionLoop (p : ClientHelloPacket) (hs : GoString) : Unmarshal ClientHelloPacket :=
  if hs.length = 0 then .ok p
  else if _h4 : hs.length < 4 then .error .extBadLength
  else
    let length := u16 hs 2
    if hs.length < 4 + length.toNat then .error .extBadLength
    else
      match extension p (u16 hs 0) length ((hs.drop 4).take length.toNat) with
      | .ok p => extensionLoop p (hs.drop (4 + length.toNat))
      | .error e => .error e
termination_by hs.length
decreasing_by simp only [List.length_drop]; omega

/-! ## The fixed part -/

def unmarshalExtensions (p : ClientHelloPacket) (hs : GoString) : Unmarshal ClientHelloPacket :=
  if hs.length < 2 then .error .badLength
  else
    let extensionLen := u16 hs 0
    let hs := hs.drop 2
    if hs.length < extensionLen.toNat then .error .extBadLength
    else extensionLoop { p with extensionLen := extensionLen } hs

def unmarshalCompression (p : ClientHelloPacket) (hs : GoString) : Unmarshal ClientHelloPacket :=
  if hs.length < 1 then .error .badLength
  else
    let numCompressMethods := (u8 hs 0).toNat
    if hs.length < 1 + numCompressMethods then .error .badLength
    else
      unmarshalExtensions { p with compressMethod := (hs.drop 1).take numCompressMethods }
        (hs.drop (1 + numCompressMethods))

def unmarshalCipherSuites (p : ClientHelloPacket) (hs : GoString) : Unmarshal ClientHelloPacket :=
  if hs.length < 2 then .error .badLength
  else
    let cipherSuiteLen := u16 hs 0
    if hs.length < 2 + cipherSuiteLen.toNat then .error .badLength
    else
      let suites := (u16s (hs.drop 2) (cipherSuiteLen.toNat / 2)).map (·.toUInt8)
      unmarshalCompression { p with cipherSuiteLen := cipherSuiteLen, cipherSuites := suites }
        (hs.drop (2 + cipherSuiteLen.toNat))

def unmarshalSessionId (p : ClientHelloPacket) (hs : GoString) : Unmarshal ClientHelloPacket :=
  if hs.length < 1 then .error .badLength
  else
    let sessionIdLen := u8 hs 0
    let hs := hs.drop 1
    if hs.length < sessionIdLen.toNat then .error .badLength
    else
      unmarshalCipherSuites
        { p with sessionIdLen := sessionIdLen, sessionId := hs.take sessionIdLen.toNat }
        (hs.drop sessionIdLen.toNat)

/-- `Unmarshal` on a fresh packet. -/
def unmarshal (packet : GoString) : Unmarshal ClientHelloPacket :=
  if packet.length < 5 then .error .badLength
  else if u8 packet 0 ≠ 22 then .error .wrongType
  else
    let hs := packet.drop 5
    if hs.length < 6 then .error .badLength
    else if u8 hs 0 ≠ 1 then .error .wrongType
    else
      let p : ClientHelloPacket :=
        { raw := packet, type := u8 packet 0, version := u16 packet 1, messageLen := u16 packet 3,
          handshakeType := u8 hs 0, handshakeLen := be24 (u8 hs 1) (u8 hs 2) (u8 hs 3),
          handshakeVersion := u16 hs 4 }
      let hs := hs.drop 6
      if hs.length < 32 then .error .badLength
      else unmarshalSessionId { p with random := hs.take 32 } (hs.drop 32)

/-- `GetSNI`: the UTF-8 of the text that `QString::fromStdString` makes of
the name. -/
def getSNI (qString : GoString → GoString) (p : ClientHelloPacket) : GoString := qString p.sni

/-! ## The reader -/

/-- `HandleClientHello` on the bytes that come before a wait runs out; `none`
stands for its exception. The record stays in the socket. -/
def handleClientHello (stream : GoString) : Option GoString :=
  if stream.length < 5 then none
  else if u8 stream 0 ≠ 22 then none
  else if u8 stream 1 ≠ 3 then none
  else
    let recordLen := (u16 stream 3).toNat
    if recordLen < 4 ∨ 0x4000 < recordLen then none
    else
      let total := 5 + recordLen
      if stream.length < total then none
      else
        let record := stream.take total
        let handshakeLen := (be24 (u8 record 6) (u8 record 7) (u8 record 8)).toNat
        if u8 record 5 ≠ 1 then none
        else if handshakeLen ≠ recordLen - 4 then none
        else some record

/-- `record` is something `HandleClientHello` returns. -/
def Returned (record : GoString) : Prop := ∃ stream, handleClientHello stream = some record

end Qt

end RbiProxy
