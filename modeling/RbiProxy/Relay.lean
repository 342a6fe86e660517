import RbiProxy.GoReader
import RbiProxy.SslBump

/-!
# The client's stream behind the bump

Who reads the client's bytes, and the upstream's, once `ReadClientHello` has
taken the first of them: the `insertingConn` under the TLS server, the relay of
`ConnectDirect`, and the connection that `dialUpstream` returns behind the
reply of a parent proxy. `Handoff` is the choice `SSLBump` makes between them,
with the data it hands over; `sslBump_eq_handoff` ties it to `sslBump`.

The connection of a client is read through the buffer the HTTP server leaves
behind when it is hijacked; the chunks of a `Conn` are what comes through it.
Writes are taken to complete.

`stream_preserved` says that no byte is lost, doubled or moved on any of these
ways.
-/

namespace RbiProxy

namespace Proxy

open Hello

/-! ## `insertingConn` -/

structure InsertingConn (σ : Type) where
  conn : σ
  extraData : GoString

namespace InsertingConn

variable {σ : Type} (R : Reader σ)

def read (c : InsertingConn σ) (n : Nat) : GoString × Option ReadErr × InsertingConn σ :=
  if c.extraData.length = 0 then
    ((R.read c.conn n).1, (R.read c.conn n).2.1, { c with conn := (R.read c.conn n).2.2 })
  else (c.extraData.take n, none, { c with extraData := c.extraData.drop n })

def bytes (c : InsertingConn σ) : GoString := c.extraData ++ R.bytes c.conn

def reader : Reader (InsertingConn σ) where
  read := read R
  bytes := bytes R
  keeps c n := by
    unfold read bytes
    split
    · rename_i hempty
      simpa [List.length_eq_zero_iff.mp hempty] using R.keeps c.conn n
    · simp [← List.append_assoc, List.take_append_drop]
  ends c n h := by
    unfold read at h
    split at h
    · rename_i hempty
      simp [bytes, List.length_eq_zero_iff.mp hempty, R.ends c.conn n h]
    · exact absurd rfl h
  moves c n hn h := by
    unfold read at h ⊢
    split at h
    · rename_i hempty
      rw [if_pos hempty]
      exact R.moves c.conn n hn h
    · rename_i hmore
      rw [if_neg hmore]
      simpa [List.take_eq_nil_iff, hn.ne'] using hmore

end InsertingConn

/-! ## `dialUpstream` -/

/-- The connection `dialUpstream` returns: as it was dialled, or a
`bufferedConn`. -/
inductive UpstreamConn where
  | raw (conn : Conn)
  | bufferedConn (br : BufReader Conn)

namespace UpstreamConn

def read : UpstreamConn → Nat → GoString × Option ReadErr × UpstreamConn
  | .raw c, n => ((c.read n).1, (c.read n).2.1, .raw (c.read n).2.2)
  | .bufferedConn br, n =>
    ((br.read Conn.reader n).1, (br.read Conn.reader n).2.1,
      .bufferedConn (br.read Conn.reader n).2.2)

def bytes : UpstreamConn → GoString
  | .raw c => c.bytes
  | .bufferedConn br => br.bytes Conn.reader

def reader : Reader UpstreamConn where
  read := read
  bytes := bytes
  keeps
    | .raw c, n => Conn.reader.keeps c n
    | .bufferedConn br, n => (BufReader.reader Conn.reader).keeps br n
  ends
    | .raw c, n, h => Conn.reader.ends c n h
    | .bufferedConn br, n, h => (BufReader.reader Conn.reader).ends br n h
  moves
    | .raw c, n, hn, h => Conn.reader.moves c n hn h
    | .bufferedConn br, n, hn, h => (BufReader.reader Conn.reader).moves br n hn h

end UpstreamConn

/-- `dialUpstream` on the connection that was dialled; `upstreamProxy` is
`RBI_UPSTREAM_PROXY`, and `readResponse` gives the status code for the lines
of a reply that `http.ReadResponse` accepts. -/
def dialUpstream (upstreamProxy : GoString) (readResponse : List GoString → Option Nat)
    (c : Conn) : Option UpstreamConn :=
  if trimSpace upstreamProxy = [] then some (.raw c)
  else
    match BufReader.readHead Conn.reader ⟨[], c⟩ with
    | none => none
    | some (lines, br) =>
      match readResponse lines with
      | none => none
      | some statusCode =>
        if statusCode ≠ 200 then none
        else if 0 < br.buffered.length then some (.bufferedConn br)
        else some (.raw br.conn)

/-- The connection gives the stream behind the head of the reply. -/
theorem dialUpstream_bytes {upstreamProxy : GoString} {readResponse : List GoString → Option Nat}
    {c : Conn} {up : UpstreamConn} (hproxy : trimSpace upstreamProxy ≠ [])
    (h : dialUpstream upstreamProxy readResponse c = some up) :
    ∃ lines, BufReader.IsHead lines ∧ c.bytes = lines.flatten ++ up.bytes := by
  unfold dialUpstream at h
  rw [if_neg hproxy] at h
  split at h
  · cases h
  · rename_i lines br hread
    obtain ⟨hhead, hbytes⟩ := BufReader.isHead_of_readHead Conn.reader hread
    refine ⟨lines, hhead, ?_⟩
    split at h
    · cases h
    split at h
    · cases h
    split at h
    · cases h
      exact hbytes
    · rename_i hempty
      cases h
      rw [BufReader.bytes_of_empty Conn.reader hempty] at hbytes
      exact hbytes

/-- A reply with status 200 gives a connection. -/
theorem dialUpstream_ok {upstreamProxy : GoString} {readResponse : List GoString → Option Nat}
    {c : Conn} {lines : List GoString} {rest : GoString} (hhead : BufReader.IsHead lines)
    (hbytes : c.bytes = lines.flatten ++ rest) (hstatus : readResponse lines = some 200)
    (hproxy : trimSpace upstreamProxy ≠ []) :
    ∃ up, dialUpstream upstreamProxy readResponse c = some up ∧ up.bytes = rest := by
  obtain ⟨br, hread, hrest⟩ := BufReader.readHead_of_isHead (b := ⟨[], c⟩) Conn.reader hhead hbytes
  unfold dialUpstream
  rw [if_neg hproxy, hread]
  dsimp only
  rw [hstatus]
  dsimp only
  rw [if_neg (by decide)]
  split
  · exact ⟨_, rfl, hrest⟩
  · rename_i hempty
    rw [BufReader.bytes_of_empty Conn.reader hempty] at hrest
    exact ⟨_, rfl, hrest⟩

/-! ## `ConnectDirect` -/

section Upload

variable {σ : Type} (R : Reader σ)

/-- The read with a deadline of a millisecond: what it picks up, if it is
`ready` in time, and the connection afterwards. -/
def shortRead (ready : Bool) (conn : σ) : GoString × σ :=
  if ready then ((R.read conn 2000).1, (R.read conn 2000).2.2) else ([], conn)

/-- What `ConnectDirect` writes to the server, write by write. Without extra
data nothing is read ahead. -/
def upload (ready : Bool) (extraData : Option GoString) (conn : σ) : List GoString :=
  match extraData with
  | none => R.copy conn
  | some extraData =>
    (extraData ++ (shortRead R ready conn).1) :: R.copy (shortRead R ready conn).2

theorem shortRead_keeps (ready : Bool) (conn : σ) :
    (shortRead R ready conn).1 ++ R.bytes (shortRead R ready conn).2 = R.bytes conn := by
  unfold shortRead
  split
  · exact R.keeps conn 2000
  · rfl

theorem upload_flatten (ready : Bool) (extraData : Option GoString) (conn : σ) :
    (upload R ready extraData conn).flatten = extraData.getD [] ++ R.bytes conn := by
  cases extraData with
  | none => exact R.copy_flatten conn
  | some extraData =>
      rw [upload, List.flatten_cons, R.copy_flatten, List.append_assoc, shortRead_keeps]
      rfl

end Upload

/-- The relay of `sslBump` is what is uploaded, however the short read
ends. -/
theorem connectDirect_eq_upload (o : Outside) (extraData : GoString) (conn : Conn)
    (ready : Bool) :
    connectDirect o extraData conn = if o.redial
      then .relayed (upload Conn.reader ready (some extraData) conn).flatten else .closed := by
  rw [upload_flatten]
  rfl

/-! ## `ReadClientHello` -/

def recordLen (hello : GoString) : Nat := (hello.getD 3 0).toNat * 256 + (hello.getD 4 0).toNat

theorem readRecord_keeps (header : GoString) (conn : Conn) :
    (readRecord header conn).1 ++ (readRecord header conn).2.2.bytes
      = header ++ conn.bytes := by
  have hdata := Conn.readFull_keeps conn ((header.getD 3 0).toNat * 256 + (header.getD 4 0).toNat)
  unfold readRecord
  dsimp only
  split
  · split
    · rfl
    · rfl
  split
  · rfl
  split
  · rfl
  split
  · rfl
  split
  · rename_i data e conn' hread
    rw [hread] at hdata
    rw [List.append_assoc, hdata]
  · rename_i data conn' hread
    rw [hread] at hdata
    have hall : header ++ data ++ conn'.bytes = header ++ conn.bytes := by
      rw [List.append_assoc, hdata]
    split
    · exact hall
    split
    · exact hall
    · exact hall

/-- What `ReadClientHello` returns is what it has taken off the stream. -/
theorem readClientHello_keeps (conn : Conn) :
    (readClientHello conn).1 ++ (readClientHello conn).2.2.bytes = conn.bytes := by
  have hheader := Conn.readFull_keeps conn 5
  unfold readClientHello
  split
  · rename_i header e conn' hread
    rw [hread] at hheader
    exact hheader
  · rename_i header conn' hread
    rw [hread] at hheader
    rw [readRecord_keeps]
    exact hheader

/-- A record that is accepted is read to its end. -/
theorem readRecord_length {header : GoString} {conn : Conn}
    (h : (readRecord header conn).2.1 = none) :
    ∃ data, (readRecord header conn).1 = header ++ data ∧ data.length = recordLen header := by
  unfold readRecord at h ⊢
  dsimp only at h ⊢
  split at h
  · split at h
    · cases h
    · cases h
  rename_i h22
  split at h
  · cases h
  rename_i h3
  split at h
  · cases h
  rename_i hmax
  split at h
  · cases h
  rename_i hmin
  rw [if_neg h22, if_neg h3, if_neg hmax, if_neg hmin]
  split at h
  · cases h
  · rename_i data conn' hread
    refine ⟨data, ?_, Conn.length_of_readFull hread⟩
    split
    · rfl
    split
    · rfl
    · rfl

/-- On success, `ReadClientHello` returns one record. -/
theorem readClientHello_length {conn : Conn} (h : (readClientHello conn).2.1 = none) :
    (readClientHello conn).1.length = 5 + recordLen (readClientHello conn).1 := by
  unfold readClientHello at h ⊢
  split at h
  · cases h
  · rename_i header conn' hread
    have hlen := Conn.length_of_readFull hread
    obtain ⟨data, hhello, hdata⟩ := readRecord_length h
    have hsame : recordLen (header ++ data) = recordLen header := by
      rw [recordLen, List.getD_append _ _ _ _ (by omega), List.getD_append _ _ _ _ (by omega)]
      rfl
    rw [hhello, hsame, List.length_append, hlen, hdata]

/-! ## `SSLBump` -/

/-- Who reads the client's stream next. -/
inductive Handoff where
  | closed
  | exited
  | direct (extraData : GoString) (conn : Conn)
  | terminate (conn : InsertingConn Conn)

/-- The end of `SSLBump`, up to the TLS server. -/
def handoffTLS (o : Outside) (clientHello : GoString) (conn : Conn) : Handoff :=
  if o.loadConfig = false then .exited else .terminate ⟨conn, clientHello⟩

/-- From the certificate cache on. -/
def handoffNamed (o : Outside) (serverAddr clientHello name : GoString) (conn : Conn) : Handoff :=
  if o.certCached name serverAddr then handoffTLS o clientHello conn
  else if o.dial = false then .direct clientHello conn
  else if o.handshake = false then .direct clientHello conn
  else if o.sign = false then .direct clientHello conn
  else handoffTLS o clientHello conn

/-- `SSLBump`, with the connection it hands over. -/
def handoff (env : Env) (o : Outside) (serverAddr : GoString) (conn : Conn) : Handoff :=
  match readClientHello conn with
  | (_, some (.io .net), _) => .closed
  | (clientHello, some .obsoleteSSLVersion, conn) =>
    if o.blockObsoleteSSL then .closed
    else handoffNamed o serverAddr clientHello (serverName env o serverAddr []) conn
  | (clientHello, some _, conn) => .direct clientHello conn
  | (clientHello, none, conn) =>
    match clientHelloServerName clientHello with
    | .error _ => .closed
    | .ok sni =>
      handoffNamed o serverAddr clientHello (serverName env o serverAddr (sni.getD [])) conn

def Handoff.result (o : Outside) (authUser : GoString) : Handoff → BumpResult
  | .closed => .closed
  | .exited => .exited
  | .direct extraData conn => connectDirect o extraData conn
  | .terminate _ =>
    if o.clientHandshake = false then .closed else .terminated { tls := true, user := authUser }

theorem serveTLS_eq_handoff (o : Outside) (authUser clientHello : GoString) (conn : Conn) :
    serveTLS o authUser = (handoffTLS o clientHello conn).result o authUser := by
  unfold serveTLS handoffTLS
  split
  · rfl
  · rfl

theorem bumpNamed_eq_handoff (o : Outside) (serverAddr authUser clientHello name : GoString)
    (conn : Conn) : bumpNamed o serverAddr authUser clientHello name conn
      = (handoffNamed o serverAddr clientHello name conn).result o authUser := by
  unfold bumpNamed handoffNamed
  split
  · exact serveTLS_eq_handoff o authUser clientHello conn
  split
  · rfl
  split
  · rfl
  split
  · rfl
  · exact serveTLS_eq_handoff o authUser clientHello conn

theorem sslBump_eq_handoff (env : Env) (o : Outside) (serverAddr authUser : GoString)
    (conn : Conn) : sslBump env o serverAddr authUser conn
      = (handoff env o serverAddr conn).result o authUser := by
  unfold sslBump handoff
  generalize readClientHello conn = res
  obtain ⟨hello, err, rest⟩ := res
  cases err with
  | none =>
      dsimp only
      cases clientHelloServerName hello with
      | error e => rfl
      | ok sni => exact bumpNamed_eq_handoff ..
  | some e =>
      cases e with
      | io err =>
          cases err with
          | net => rfl
          | _ => rfl
      | obsoleteSSLVersion =>
          dsimp only
          cases o.blockObsoleteSSL with
          | true => rfl
          | false => exact bumpNamed_eq_handoff ..
      | _ => rfl

/-- The bytes that were read ahead go with the connection they were read
from. -/
theorem handoffNamed_cases (o : Outside) (serverAddr clientHello name : GoString) (conn : Conn) :
    handoffNamed o serverAddr clientHello name conn = .exited
      ∨ handoffNamed o serverAddr clientHello name conn = .direct clientHello conn
      ∨ handoffNamed o serverAddr clientHello name conn = .terminate ⟨conn, clientHello⟩ := by
  have htls : handoffTLS o clientHello conn = .exited
      ∨ handoffTLS o clientHello conn = .terminate ⟨conn, clientHello⟩ := by
    unfold handoffTLS
    split
    · exact .inl rfl
    · exact .inr rfl
  unfold handoffNamed
  split
  · exact htls.imp_right .inr
  split
  · exact .inr (.inl rfl)
  split
  · exact .inr (.inl rfl)
  split
  · exact .inr (.inl rfl)
  · exact htls.imp_right .inr

theorem handoff_cases (env : Env) (o : Outside) (serverAddr : GoString) (conn : Conn) :
    handoff env o serverAddr conn = .closed ∨ handoff env o serverAddr conn = .exited
      ∨ handoff env o serverAddr conn
        = .direct (readClientHello conn).1 (readClientHello conn).2.2
      ∨ handoff env o serverAddr conn
        = .terminate ⟨(readClientHello conn).2.2, (readClientHello conn).1⟩ := by
  unfold handoff
  generalize readClientHello conn = res
  obtain ⟨hello, err, rest⟩ := res
  cases err with
  | none =>
      dsimp only
      split
      · exact .inl rfl
      · exact .inr (handoffNamed_cases ..)
  | some e =>
      cases e with
      | io err =>
          cases err with
          | net => exact .inl rfl
          | _ => exact .inr (.inr (.inl rfl))
      | obsoleteSSLVersion =>
          dsimp only
          split
          · exact .inl rfl
          · exact .inr (handoffNamed_cases ..)
      | _ => exact .inr (.inr (.inl rfl))

/-! ## The result -/

/-- The next reader gets the stream: the TLS server through its
`insertingConn`, in reads of any sizes; or the server, the extra data and what
the short read picked up in one write, and then the rest. -/
def Handoff.Passes (stream : GoString) : Handoff → Prop
  | .closed | .exited => True
  | .direct extraData conn => ∀ ready, ∃ picked writes,
      upload Conn.reader ready (some extraData) conn = (extraData ++ picked) :: writes
        ∧ extraData ++ picked ++ writes.flatten = stream
  | .terminate conn => (InsertingConn.reader Conn.reader).Yields conn stream

theorem handoff_passes (env : Env) (o : Outside) (serverAddr : GoString) (conn : Conn) :
    (handoff env o serverAddr conn).Passes conn.bytes := by
  have hkeeps := readClientHello_keeps conn
  rcases handoff_cases env o serverAddr conn with h | h | h | h
  · rw [h]
    trivial
  · rw [h]
    trivial
  · rw [h]
    intro ready
    have hflat := upload_flatten Conn.reader ready (some (readClientHello conn).1)
      (readClientHello conn).2.2
    exact ⟨_, _, rfl, hflat.trans hkeeps⟩
  · rw [h, ← hkeeps]
    exact (InsertingConn.reader Conn.reader).yields _

/-- No byte of the client's stream is lost, doubled or moved, and none of the
upstream's behind the reply of a parent proxy. -/
theorem stream_preserved (conn up : Conn) :
    ((readClientHello conn).1 ++ (readClientHello conn).2.2.bytes = conn.bytes
      ∧ ((readClientHello conn).2.1 = none →
        (readClientHello conn).1.length = 5 + recordLen (readClientHello conn).1))
    ∧ (∀ (env : Env) (o : Outside) (serverAddr : GoString),
      (handoff env o serverAddr conn).Passes conn.bytes)
    ∧ (∀ (extraData : Option GoString) (ready : Bool),
      (upload Conn.reader ready extraData conn).flatten = extraData.getD [] ++ conn.bytes)
    ∧ ∀ (upstreamProxy : GoString) (readResponse : List GoString → Option Nat),
      trimSpace upstreamProxy ≠ [] →
      (∀ lines rest, BufReader.IsHead lines → up.bytes = lines.flatten ++ rest →
        readResponse lines = some 200 →
        ∃ server, dialUpstream upstreamProxy readResponse up = some server
          ∧ UpstreamConn.reader.Yields server rest)
      ∧ ∀ server, dialUpstream upstreamProxy readResponse up = some server →
        ∃ lines rest, BufReader.IsHead lines ∧ up.bytes = lines.flatten ++ rest
          ∧ UpstreamConn.reader.Yields server rest := by
  refine ⟨⟨readClientHello_keeps conn, readClientHello_length⟩,
    fun env o serverAddr => handoff_passes env o serverAddr conn,
    fun extraData ready => upload_flatten Conn.reader ready extraData conn,
    fun upstreamProxy readResponse hproxy => ⟨?_, ?_⟩⟩
  · intro lines rest hhead hbytes hstatus
    obtain ⟨server, hdial, rfl⟩ := dialUpstream_ok hhead hbytes hstatus hproxy
    exact ⟨server, hdial, UpstreamConn.reader.yields server⟩
  · intro server hdial
    obtain ⟨lines, hhead, hbytes⟩ := dialUpstream_bytes hproxy hdial
    exact ⟨lines, _, hhead, hbytes, UpstreamConn.reader.yields server⟩

/-- A reply of a parent proxy that comes in two pieces, with two bytes of the
stream behind it. -/
def splitReply : Conn := ⟨[lit "HTTP/1.1 200 OK\r\n\r", lit "\nab"], .eof⟩

/-- A plain client is relayed, and the two bytes are not lost. -/
theorem stream_preserved_example :
    (handoff exampleEnv healthyOutside (lit "www.youtube.com:443") plainClient).Passes
      plainClient.bytes
    ∧ ∃ server, dialUpstream (lit "192.168.100.9:3128") (fun _ => some 200) splitReply
        = some server ∧ UpstreamConn.reader.Yields server (lit "ab") := by
  obtain ⟨-, hpasses, -, hdial⟩ := stream_preserved plainClient splitReply
  refine ⟨hpasses exampleEnv healthyOutside (lit "www.youtube.com:443"), ?_⟩
  have hstatus : BufReader.IsLine (lit "HTTP/1.1 200 OK\r\n") :=
    ⟨lit "HTTP/1.1 200 OK\r", by decide +kernel, by decide +kernel⟩
  have hempty : BufReader.IsLine (lit "\r\n") := ⟨[13], by decide, by decide +kernel⟩
  have hhead : BufReader.IsHead [lit "HTTP/1.1 200 OK\r\n", lit "\r\n"] := by
    refine ⟨hstatus, ?_⟩
    rw [if_neg (by decide +kernel)]
    exact ⟨hempty, by rw [if_pos (by decide +kernel)]⟩
  exact (hdial (lit "192.168.100.9:3128") (fun _ => some 200) (by decide +kernel)).1 _ _ hhead
    (by decide +kernel) rfl

end Proxy

end RbiProxy
