import RbiProxy.HttpMessage
import RbiProxy.ResponsePath
import RbiProxy.StoredDeflate

/-!
# What the client decodes

The same end of `ServeHTTP` as in the response path, now with its headers: the
answer to `Accept-Encoding`, the four ways in which content is delivered (streamed,
as media, compressed, as it is) and `copyResponseHeader`. `relay_respond` says that
both models write the same bodies.

Two messages represent the same thing when they decode to the same data by their
own headers. `faithful_iff` says for which responses this holds of what the server
sent and what the client gets.
-/

namespace RbiProxy

namespace Representation

open Http Proxy Response

/-! ## Request and response -/

/-- The request, as far as this path looks at it. -/
structure Request where
  method : GoString
  host : GoString
  header : Header
  client : GoString
  url : GoString
  modifyURL : Bool
  inject : GoString
  hijack : Hijack

/-- `http.Response`, as `RoundTrip` gives it to a request of this method. The
fields are those that the transport leaves; it takes out a coding that it asked
for itself. A length that is not negative is that of the body, if one is
allowed and arrives. -/
structure Upstream (method : GoString) where
  statusCode : Nat
  header : Header
  contentLength : Int
  body : GoString
  readError : Option GoString
  canonical : header.Canonical
  bodyless : bodyAllowed method statusCode = false → body = []
  whole : bodyAllowed method statusCode = true → readError = none → 0 ≤ contentLength →
    contentLength = body.length

/-- What the response of the server decodes to. A body that broke off is no
representation. -/
def Upstream.representation {method : GoString} (c : Codings) (resp : Upstream method) :
    Option GoString :=
  match resp.readError with
  | none => c.decodeAll (codingsOf resp.header) resp.body
  | some _ => none

def gzipOK (env : Env) (r : Request) : Bool :=
  contains (r.header.get (lit "Accept-Encoding")) (lit "gzip") && !isLanAddress env r.client

def contentTypeOf (env : Env) (h : Header) : GoString :=
  let contentType := toLower env.lowerTable (h.get (lit "Content-Type"))
  if contains contentType (lit ";") then (contentType.splitOn 59).headD [] else contentType

/-- The writer as `ServeHTTP` leaves it on the way to the response. -/
def newWriter (r : Request) : ResponseWriter where
  method := r.method
  header := if hasSuffix r.host (lit ".google.com") || r.host == lit "google.com" then
      (∅ : Header).set (lit "X-GoogApps-Allowed-Domains") (lit "accops.com")
    else ∅
  sent := none
  written := 0
  body := []
  page := none

/-- The exchange of the model without headers. -/
def exchange (env : Env) (r : Request) (resp : Upstream r.method) : Exchange where
  url := r.url
  contentType := contentTypeOf env resp.header
  body := resp.body
  readError := resp.readError
  modifyURL := r.modifyURL
  inject := r.inject
  gzipOK := gzipOK env r
  hijack := r.hijack

/-! ## The delivery -/

def copyField (newHeader : Header) (field : Sigma fun _ : GoString => List GoString) : Header :=
  if field.1 = lit "Content-Length" then newHeader
  else field.2.foldl (fun newHeader v => newHeader.add field.1 v) newHeader

def copyFields (newHeader header : Header) : Header := header.entries.foldl copyField newHeader

def copyResponseHeader (statusCode : Nat) (header : Header) (w : ResponseWriter) :
    ResponseWriter :=
  { w with header := copyFields w.header header }.writeHeader statusCode

/-- `sendInsecureBlockBytes`, without a content type. -/
def sendInsecureBlockBytes (content : GoString) (w : ResponseWriter) : ResponseWriter :=
  let w := (w.writeHeader 200).setHeader (lit "Content-Type") (lit "text/html; charset=utf-8")
  w.write content

/-- `sendBlockMessageBytes`, without a content type. -/
def sendBlockMessageBytes (r : Request) (content : GoString) (w : ResponseWriter) :
    ResponseWriter :=
  if contains r.url (lit ":443") then
    match r.hijack with
    | .noHijacker => w
    | .error => sendInsecureBlockBytes content w
    | .noConfig => w
    | .noHandshake => w
    | .ready => { w with page := some content }
  else sendInsecureBlockBytes content w

section Deliver

variable (env : Env) (lib : Library) (handlers : Handlers) (codings : Codings) (stream : Stream)

/-- `ScanMedia`. The header is sent before the handler is asked. -/
def scanMedia (r : Request) (resp : Upstream r.method) (data contentType buf : GoString)
    (w : ResponseWriter) : Bool × ResponseWriter :=
  if isMedia lib data contentType then
    let w := copyResponseHeader resp.statusCode resp.header w
    let (action, response) := handlers.contentHandler ⟨r.url, contentType, data⟩
    if action = .blockedMediaContent then (false, w.write (blockImage lib response))
    else (true, w.write buf)
  else (false, w)

def scanText (r : Request) (data contentType : GoString) (w : ResponseWriter) :
    Bool × ResponseWriter :=
  if isText contentType then
    let (action, response) := handlers.contentHandler ⟨r.url, contentType, data⟩
    if action = .blockedTextContent then (true, sendBlockMessageBytes r response w)
    else (false, w)
  else (false, w)

/-- The length of a stream, if it is known. -/
def announce (contentLength : Int) (w : ResponseWriter) : ResponseWriter :=
  if 0 < contentLength then w.setHeader (lit "Content-Length") (formatInt contentLength) else w

/-- A body that is too long to scan: what was read of it, and the rest. -/
def streamThrough (r : Request) (resp : Upstream r.method) (data rest : GoString)
    (w : ResponseWriter) : ResponseWriter :=
  let w := announce resp.contentLength w
  let w := copyResponseHeader resp.statusCode resp.header w
  let w := stream.copy rest (w.write data)
  match resp.readError with
  | some err => sendBlockMessageBytes r (handlers.proxyErrorHandler err) w
  | none => w

/-- The end: compressed, or as it is. -/
def sendContent (r : Request) (resp : Upstream r.method) (data : GoString) (w : ResponseWriter) :
    ResponseWriter :=
  if gzipOK env r && decide (1000 < data.length) then
    let header := resp.header.set (lit "Content-Encoding") (lit "gzip")
    stream.copy (codings.gzip data) (copyResponseHeader resp.statusCode header w)
  else
    let w := w.setHeader (lit "Content-Length") (itoa data.length)
    (copyResponseHeader resp.statusCode resp.header w).write data

/-- From the body of the response to the end. -/
def relay (maxContentScanSize : Nat) (r : Request) (resp : Upstream r.method) : ResponseWriter :=
  let buf := resp.body.take maxContentScanSize
  let data := localCopyData lib (exchange env r resp) buf
  if maxContentScanSize - buf.length = 0 then
    streamThrough handlers stream r resp data (resp.body.drop maxContentScanSize) (newWriter r)
  else
    let contentType := (lib.kind data).getD (contentTypeOf env resp.header)
    match scanMedia lib handlers r resp data contentType buf (newWriter r) with
    | (true, w) => w
    | (false, w) =>
      match scanText handlers r data contentType w with
      | (true, w) => w
      | (false, w) => sendContent env codings stream r resp data w

end Deliver

/-! ## The question -/

section Question

variable (env : Env) (lib : Library) (handlers : Handlers) (codings : Codings) (stream : Stream)
  (maxContentScanSize : Nat) (r : Request) (resp : Upstream r.method)

/-- The type by which the scans go. -/
def scanType : GoString := (lib.kind resp.body).getD (contentTypeOf env resp.header)

/-- The content as the handler sees it. -/
def shownData : GSContentFilterData := ⟨r.url, scanType env lib r resp, resp.body⟩

/-- A response that is neither rewritten nor answered with a block message. The
error page for a stream that breaks off is one. -/
structure Relayed : Prop where
  unrewritten : (r.modifyURL && contains (contentTypeOf env resp.header) (lit "html")) = false
  streamed : maxContentScanSize ≤ resp.body.length → resp.readError = none
  media : resp.body.length < maxContentScanSize →
    isMedia lib resp.body (scanType env lib r resp) = true →
    (handlers.contentHandler (shownData env lib r resp)).1 ≠ .blockedMediaContent
  text : resp.body.length < maxContentScanSize →
    isMedia lib resp.body (scanType env lib r resp) = false →
    isText (scanType env lib r resp) = true →
    (handlers.contentHandler (shownData env lib r resp)).1 ≠ .blockedTextContent

/-- The client decodes what the server sent. -/
def Faithful : Prop :=
  (relay env lib handlers codings stream maxContentScanSize r resp).representation codings
    = resp.representation codings

/-- The proxy compresses the content. -/
def Compressed : Prop :=
  resp.body.length < maxContentScanSize
    ∧ isMedia lib resp.body (scanType env lib r resp) = false
    ∧ gzipOK env r = true ∧ 1000 < resp.body.length

/-- The responses for which this holds. The body has to arrive, unless what there
is of it does not decode; and content that the proxy compresses must be what the
codings of the server, which are lost, decode to. -/
structure FaithfulWhen : Prop where
  whole : resp.readError = none
    ∨ (¬ Compressed env lib maxContentScanSize r resp
      ∧ codings.decodeAll (codingsOf resp.header) resp.body = none)
  uncoded : Compressed env lib maxContentScanSize r resp →
    codings.decodeAll (codingsOf resp.header) resp.body = some resp.body

end Question

/-! ## Headers -/

section Headers

variable {header : Header} {key : GoString}

theorem values_copyField (newHeader : Header)
    {field : Sigma fun _ : GoString => List GoString}
    (hkey : canonicalMIMEHeaderKey key = canonicalMIMEHeaderKey field.1) :
    (copyField newHeader field).values key
      = newHeader.values key ++ if field.1 = lit "Content-Length" then [] else field.2 := by
  have hsame : ∀ h : Header, h.values key = h.values field.1 := fun h => by
    rw [Header.values, Header.values, hkey]
  unfold copyField
  split
  · exact (List.append_nil _).symm
  · rw [hsame, hsame, Header.values_addAll]

theorem values_copyField_ne (newHeader : Header)
    {field : Sigma fun _ : GoString => List GoString}
    (hkey : canonicalMIMEHeaderKey key ≠ canonicalMIMEHeaderKey field.1) :
    (copyField newHeader field).values key = newHeader.values key := by
  unfold copyField
  split
  · rfl
  · exact Header.values_addAll_ne field.1 hkey field.2 newHeader

theorem values_copyFields (newHeader : Header) (hc : header.Canonical) (key : GoString) :
    (copyFields newHeader header).values key
      = newHeader.values key
        ++ if canonicalMIMEHeaderKey key = lit "Content-Length" then [] else header.values key := by
  have hloop : ∀ (fields : List (Sigma fun _ : GoString => List GoString)) (newHeader : Header),
      fields.NodupKeys → (∀ field ∈ fields, canonicalMIMEHeaderKey field.1 = field.1) →
      (fields.foldl copyField newHeader).values key
        = newHeader.values key
          ++ if canonicalMIMEHeaderKey key = lit "Content-Length" then []
            else (fields.dlookup (canonicalMIMEHeaderKey key)).getD [] := by
    intro fields
    induction fields with
    | nil => simp
    | cons field fields ih =>
        intro newHeader hnodup hnames
        obtain ⟨hname, hnames⟩ := List.forall_mem_cons.mp hnames
        rw [List.nodupKeys_cons] at hnodup
        rw [List.foldl_cons, ih _ hnodup.2 hnames]
        by_cases hkey : canonicalMIMEHeaderKey key = field.1
        · -- the field itself: it does not come again
          have hgone : fields.dlookup field.1 = none := List.dlookup_eq_none.mpr hnodup.1
          rw [values_copyField newHeader (hkey.trans hname.symm), hkey, hgone,
            List.dlookup_cons_eq]
          simp
        · rw [values_copyField_ne newHeader fun h => hkey (h.trans hname),
            List.dlookup_cons_ne _ _ hkey]
  exact hloop header.entries newHeader header.nodupKeys fun field hfield =>
    hc field.1 (AList.mem_keys.mpr (List.mem_keys_of_mem hfield))

theorem announced_copyFields (newHeader : Header) (hc : header.Canonical) :
    announced (copyFields newHeader header) = announced newHeader := by
  have hkey : canonicalMIMEHeaderKey (lit "Content-Length") = lit "Content-Length" := by
    decide +kernel
  unfold announced Header.get
  rw [values_copyFields newHeader hc, if_pos hkey, List.append_nil]

theorem codingsOf_copyFields {newHeader : Header} (hc : header.Canonical)
    (hnew : newHeader.values (lit "Content-Encoding") = []) :
    codingsOf (copyFields newHeader header) = codingsOf header := by
  have hkey : canonicalMIMEHeaderKey (lit "Content-Encoding") ≠ lit "Content-Length" := by
    decide +kernel
  unfold codingsOf
  rw [values_copyFields newHeader hc, if_neg hkey, hnew, List.nil_append]

theorem values_newWriter (r : Request) {key : GoString}
    (hkey : canonicalMIMEHeaderKey key
      ≠ canonicalMIMEHeaderKey (lit "X-GoogApps-Allowed-Domains")) :
    (newWriter r).header.values key = [] := by
  have hnone : (∅ : Header).values key = [] := rfl
  unfold newWriter
  dsimp only
  split
  · rw [Header.values_set_ne _ _ _ hkey, hnone]
  · exact hnone

theorem announced_newWriter (r : Request) : announced (newWriter r).header = none := by
  unfold announced Header.get
  rw [values_newWriter r (by decide +kernel)]
  decide

theorem uncoded_newWriter (r : Request) :
    (newWriter r).header.values (lit "Content-Encoding") = [] :=
  values_newWriter r (by decide +kernel)

end Headers

/-! ## The four ways -/

theorem fresh_copyResponseHeader (r : Request) (statusCode : Nat) (header newHeader : Header) :
    Fresh (copyResponseHeader statusCode header { newWriter r with header := newHeader })
      r.method statusCode (copyFields newHeader header) where
  method := rfl
  sent := rfl
  written := rfl
  body := rfl

section Ways

variable {env : Env} {lib : Library} {handlers : Handlers} {codings : Codings} {stream : Stream}
  {maxContentScanSize : Nat} {r : Request} {resp : Upstream r.method}

theorem Relayed.localCopyData (hr : Relayed env lib handlers maxContentScanSize r resp)
    (buf : GoString) : localCopyData lib (exchange env r resp) buf = buf := by
  have hnot : ¬ ((exchange env r resp).modifyURL
      && contains (exchange env r resp).contentType (lit "html")) = true :=
    Bool.eq_false_iff.mp hr.unrewritten
  exact if_neg hnot

theorem uncoded_announce (contentLength : Int) :
    (announce contentLength (newWriter r)).header.values (lit "Content-Encoding") = [] := by
  unfold announce
  split
  · rw [ResponseWriter.setHeader, Header.values_set_ne _ _ _ (by decide +kernel),
      uncoded_newWriter]
  · exact uncoded_newWriter r

/-- The length that is announced for a stream is that of the body. -/
theorem announced_announce {n : Nat} (hread : resp.readError = none)
    (hyes : bodyAllowed r.method resp.statusCode = true)
    (hn : announced (announce resp.contentLength (newWriter r)).header = some n) :
    resp.body.length = n := by
  unfold announce at hn
  split at hn
  · rename_i hpos
    have hformat : formatInt resp.contentLength = itoa resp.contentLength.toNat := by
      rw [formatInt, if_neg hpos.not_gt]
      congr 1
      omega
    have hwhole := resp.whole hyes hread hpos.le
    rw [ResponseWriter.setHeader, hformat, announced_set, Option.some.injEq] at hn
    omega
  · rw [announced_newWriter] at hn
    cases hn

theorem fresh_announce (statusCode : Nat) (header : Header) (contentLength : Int) :
    Fresh (copyResponseHeader statusCode header (announce contentLength (newWriter r)))
      r.method statusCode (copyFields (announce contentLength (newWriter r)).header header) := by
  unfold announce
  split
  · exact fresh_copyResponseHeader r statusCode header _
  · exact fresh_copyResponseHeader r statusCode header _

theorem sends_streamThrough (hread : resp.readError = none) {data rest : GoString}
    (hbody : data ++ rest = resp.body) :
    Sends (streamThrough handlers stream r resp data rest (newWriter r))
      (codingsOf resp.header) resp.body := by
  have hpieces : (data :: stream.pieces rest).flatten = resp.body := by
    rw [List.flatten_cons, stream.flatten_pieces, hbody]
  have hfresh := @fresh_announce r resp.statusCode resp.header resp.contentLength
  have hsends := sends_foldl hfresh hpieces resp.bodyless fun hyes n hn =>
    announced_announce hread hyes ((announced_copyFields _ resp.canonical).symm.trans hn)
  rw [codingsOf_copyFields resp.canonical (uncoded_announce resp.contentLength)] at hsends
  unfold streamThrough
  rw [hread]
  exact hsends

/-- Media have no length of their own; the server finds one. -/
theorem sends_media :
    Sends ((copyResponseHeader resp.statusCode resp.header (newWriter r)).write resp.body)
      (codingsOf resp.header) resp.body := by
  have hfresh := fresh_copyResponseHeader r resp.statusCode resp.header (newWriter r).header
  have hsends := sends_foldl hfresh (List.flatten_singleton : [resp.body].flatten = _)
    resp.bodyless fun _ n hn => by
      rw [announced_copyFields _ resp.canonical, announced_newWriter] at hn
      cases hn
  rw [codingsOf_copyFields resp.canonical (uncoded_newWriter r)] at hsends
  exact hsends

theorem sends_identity (hgzip : (gzipOK env r && decide (1000 < resp.body.length)) = false) :
    Sends (sendContent env codings stream r resp resp.body (newWriter r))
      (codingsOf resp.header) resp.body := by
  have hfresh := fresh_copyResponseHeader r resp.statusCode resp.header
    ((newWriter r).header.set (lit "Content-Length") (itoa resp.body.length))
  have hsends := sends_foldl hfresh (List.flatten_singleton : [resp.body].flatten = _)
    resp.bodyless fun _ n hn => by
      rw [announced_copyFields _ resp.canonical, announced_set] at hn
      exact Option.some.inj hn
  rw [codingsOf_copyFields resp.canonical (by
    rw [Header.values_set_ne _ _ _ (by decide +kernel), uncoded_newWriter])] at hsends
  unfold sendContent
  rw [if_neg (Bool.eq_false_iff.mp hgzip)]
  exact hsends

/-- The codings of the server are gone from the header, and not from the data. -/
theorem sends_gzip (hgzip : (gzipOK env r && decide (1000 < resp.body.length)) = true) :
    Sends (sendContent env codings stream r resp resp.body (newWriter r))
      [lit "gzip"] (codings.gzip resp.body) := by
  have hlen : 1000 < resp.body.length := by
    rw [Bool.and_eq_true, decide_eq_true_eq] at hgzip
    exact hgzip.2
  have hcanonical := Header.Canonical.set resp.header (lit "Content-Encoding") (lit "gzip")
    resp.canonical
  have hfresh := fresh_copyResponseHeader r resp.statusCode
    (resp.header.set (lit "Content-Encoding") (lit "gzip")) (newWriter r).header
  have hsends := sends_foldl hfresh
    (stream.flatten_pieces (codings.gzip resp.body))
    (fun hno => by
      rw [resp.bodyless hno] at hlen
      cases hlen)
    fun _ n hn => by
      rw [announced_copyFields _ hcanonical, announced_newWriter] at hn
      cases hn
  rw [codingsOf_copyFields hcanonical (uncoded_newWriter r), codingsOf_gzip] at hsends
  unfold sendContent
  rw [if_pos hgzip]
  exact hsends

theorem Relayed.shown (hr : Relayed env lib handlers maxContentScanSize r resp) :
    shown lib (exchange env r resp) = shownData env lib r resp := by
  have hdata : Response.localCopyData lib (exchange env r resp) (exchange env r resp).body
      = resp.body := hr.localCopyData resp.body
  unfold Response.shown
  rw [hdata]
  rfl

/-- A long body, here and in the model without headers. -/
theorem Relayed.long (hr : Relayed env lib handlers maxContentScanSize r resp)
    (hlen : maxContentScanSize ≤ resp.body.length) :
    relay env lib handlers codings stream maxContentScanSize r resp
        = streamThrough handlers stream r resp (resp.body.take maxContentScanSize)
          (resp.body.drop maxContentScanSize) (newWriter r)
      ∧ (respond lib handlers maxContentScanSize (exchange env r resp)).bodies
        = [.content resp.body false] := by
  have hzero : maxContentScanSize - (resp.body.take maxContentScanSize).length = 0 := by
    rw [List.length_take]
    omega
  constructor
  · unfold relay
    dsimp only
    rw [if_pos hzero, hr.localCopyData]
  · have hbody : (exchange env r resp).body = resp.body := rfl
    have hread : (exchange env r resp).readError = none := hr.streamed hlen
    unfold respond
    dsimp only
    rw [hbody, if_pos hzero, hread, hr.localCopyData, List.take_append_drop]
    rfl

theorem Relayed.short (hr : Relayed env lib handlers maxContentScanSize r resp)
    (hlen : resp.body.length < maxContentScanSize) :
    relay env lib handlers codings stream maxContentScanSize r resp
      = match scanMedia lib handlers r resp resp.body (scanType env lib r resp) resp.body
          (newWriter r) with
        | (true, w) => w
        | (false, w) =>
          match scanText handlers r resp.body (scanType env lib r resp) w with
          | (true, w) => w
          | (false, w) => sendContent env codings stream r resp resp.body w := by
  have htake : resp.body.take maxContentScanSize = resp.body := List.take_of_length_le hlen.le
  unfold relay
  dsimp only
  rw [htake, if_neg (Nat.sub_ne_zero_of_lt hlen), hr.localCopyData]
  rfl

theorem Relayed.ofMedia (hr : Relayed env lib handlers maxContentScanSize r resp)
    (hlen : resp.body.length < maxContentScanSize)
    (hmedia : isMedia lib resp.body (scanType env lib r resp) = true) :
    relay env lib handlers codings stream maxContentScanSize r resp
        = (copyResponseHeader resp.statusCode resp.header (newWriter r)).write resp.body
      ∧ (respond lib handlers maxContentScanSize (exchange env r resp)).bodies
        = [.content resp.body false] := by
  have haction := hr.media hlen hmedia
  constructor
  · have hscan : scanMedia lib handlers r resp resp.body (scanType env lib r resp) resp.body
        (newWriter r)
        = (true, (copyResponseHeader resp.statusCode resp.header (newWriter r)).write
            resp.body) := by
      unfold scanMedia
      rw [if_pos hmedia]
      exact if_neg haction
    rw [hr.short hlen, hscan]
  · have hrespond := @respond_media_passed lib handlers maxContentScanSize (exchange env r resp)
      hlen (by rw [hr.shown]; exact hmedia) (by rw [hr.shown]; exact haction)
    rw [hrespond]
    rfl

theorem Relayed.ofContent (hr : Relayed env lib handlers maxContentScanSize r resp)
    (hlen : resp.body.length < maxContentScanSize)
    (hmedia : isMedia lib resp.body (scanType env lib r resp) = false) :
    relay env lib handlers codings stream maxContentScanSize r resp
        = sendContent env codings stream r resp resp.body (newWriter r)
      ∧ (respond lib handlers maxContentScanSize (exchange env r resp)).bodies
        = [.content resp.body (gzipOK env r && decide (1000 < resp.body.length))] := by
  have hother : scanMedia lib handlers r resp resp.body (scanType env lib r resp) resp.body
      (newWriter r) = (false, newWriter r) := by
    unfold scanMedia
    rw [if_neg (by simp [hmedia])]
  have hrespond := @respond_scans lib handlers maxContentScanSize (exchange env r resp) hlen
  rw [scanMedia_other (by rw [hr.shown]; exact hmedia)] at hrespond
  rw [hr.short hlen, hother, hrespond]
  cases htext : isText (scanType env lib r resp) with
  | true =>
      have haction := hr.text hlen hmedia htext
      have hpass : scanText handlers r resp.body (scanType env lib r resp) (newWriter r)
          = (false, newWriter r) := by
        unfold scanText
        rw [if_pos htext]
        exact if_neg haction
      dsimp only
      rw [hpass, scanText_passed (by rw [hr.shown]; exact htext)
        (by rw [hr.shown]; exact haction), hr.shown]
      exact ⟨rfl, rfl⟩
  | false =>
      have hpass : scanText handlers r resp.body (scanType env lib r resp) (newWriter r)
          = (false, newWriter r) := by
        unfold scanText
        rw [if_neg (by simp [htext])]
      dsimp only
      rw [hpass, scanText_other (by rw [hr.shown]; exact htext), hr.shown]
      exact ⟨rfl, rfl⟩

/-- What the client receives, and with which codings. -/
theorem sends_relay (hr : Relayed env lib handlers maxContentScanSize r resp) :
    (¬ Compressed env lib maxContentScanSize r resp →
      Sends (relay env lib handlers codings stream maxContentScanSize r resp)
        (codingsOf resp.header) resp.body)
    ∧ (Compressed env lib maxContentScanSize r resp →
      Sends (relay env lib handlers codings stream maxContentScanSize r resp)
        [lit "gzip"] (codings.gzip resp.body)) := by
  rcases Nat.lt_or_ge resp.body.length maxContentScanSize with hlen | hlen
  · cases hmedia : isMedia lib resp.body (scanType env lib r resp) with
    | true =>
        rw [(hr.ofMedia hlen hmedia).1]
        exact ⟨fun _ => sends_media, fun hc => by simp [hc.2.1] at hmedia⟩
    | false =>
        rw [(hr.ofContent hlen hmedia).1]
        have hiff : Compressed env lib maxContentScanSize r resp
            ↔ (gzipOK env r && decide (1000 < resp.body.length)) = true := by
          simp [Compressed, hlen, hmedia]
        rw [hiff]
        exact ⟨fun hno => sends_identity (Bool.eq_false_iff.mpr hno), sends_gzip⟩
  · rw [(hr.long hlen).1]
    exact ⟨fun _ => sends_streamThrough (hr.streamed hlen) (List.take_append_drop _ _),
      fun hc => absurd hc.1 hlen.not_gt⟩

theorem relay_respond (hr : Relayed env lib handlers maxContentScanSize r resp) :
    ∃ gzip, (respond lib handlers maxContentScanSize (exchange env r resp)).bodies
        = [.content resp.body gzip]
      ∧ (relay env lib handlers codings stream maxContentScanSize r resp).received
        = some (if gzip then codings.gzip resp.body else resp.body) := by
  rcases Nat.lt_or_ge resp.body.length maxContentScanSize with hlen | hlen
  · cases hmedia : isMedia lib resp.body (scanType env lib r resp) with
    | true =>
        obtain ⟨hrelay, hbodies⟩ := @Relayed.ofMedia _ _ _ codings stream _ _ _ hr hlen hmedia
        exact ⟨false, hbodies, by rw [hrelay]; exact sends_media.received⟩
    | false =>
        obtain ⟨hrelay, hbodies⟩ := @Relayed.ofContent _ _ _ codings stream _ _ _ hr hlen hmedia
        refine ⟨_, hbodies, ?_⟩
        rw [hrelay]
        cases hgzip : gzipOK env r && decide (1000 < resp.body.length) with
        | true => exact (sends_gzip hgzip).received
        | false => exact (sends_identity hgzip).received
  · obtain ⟨hrelay, hbodies⟩ := @Relayed.long _ _ _ codings stream _ _ _ hr hlen
    refine ⟨false, hbodies, ?_⟩
    rw [hrelay]
    exact (sends_streamThrough (hr.streamed hlen) (List.take_append_drop _ _)).received

end Ways

/-! ## The same representation -/

/-- The codings whose streams of stored blocks are read. -/
def storedCodings : Codings where
  decode name s :=
    if name = lit "gzip" ∨ name = lit "x-gzip" then StoredDeflate.gunzip s
    else if name = lit "deflate" then StoredDeflate.unzlib s
    else if name = lit "identity" then some s
    else none
  gzip := StoredDeflate.gzip
  decode_gzip s := by
    rw [if_pos (.inl rfl)]
    exact StoredDeflate.gunzip_gzip s

/-- A stream that arrives at once. -/
def wholeStream : Stream where
  pieces s := [s]
  flatten_pieces _ := List.flatten_singleton

def publicEnv : Env where
  urlString := exampleEnv.urlString
  parseIP s := if s = lit "203.0.113.7" then
      some #v[0, 0, 0, 0, 0, 0, 0, 0, 0, 0, 0xFF, 0xFF, 203, 0, 113, 7]
    else none
  typeByExtension := exampleEnv.typeByExtension
  lowerTable := id
  isolateHosts := []

def openHandlers : Handlers where
  contentHandler _ := (.unset, [])
  proxyErrorHandler _ := []

/-- A request from a client that takes `gzip` and `deflate`. -/
def gzipRequest : Request where
  method := lit "GET"
  host := lit "example.com"
  header := (∅ : Header).set (lit "Accept-Encoding") (lit "gzip, deflate")
  client := lit "203.0.113.7"
  url := lit "http://example.com/"
  modifyURL := false
  inject := []
  hijack := .ready

def plainText : Header := (∅ : Header).set (lit "Content-Type") (lit "text/plain")

theorem canonical_plainText : plainText.Canonical :=
  Header.Canonical.set _ _ _ fun _ hk => absurd hk (AList.notMem_empty _)

def textResponse (header : Header) (hc : header.Canonical) (body : GoString) :
    Upstream gzipRequest.method where
  statusCode := 200
  header := header
  contentLength := body.length
  body := body
  readError := none
  canonical := hc
  bodyless hno := absurd hno (by decide +kernel)
  whole _ _ _ := rfl

theorem relayed_text (header : Header) (hc : header.Canonical) (body : GoString) :
    Relayed publicEnv plainLibrary openHandlers 100000000 gzipRequest
      (textResponse header hc body) where
  unrewritten := rfl
  streamed _ := rfl
  media _ _ := (by decide : ProxyAction.unset ≠ .blockedMediaContent)
  text _ _ _ := (by decide : ProxyAction.unset ≠ .blockedTextContent)

theorem compressed_text {header : Header} (hc : header.Canonical) {body : GoString}
    (htype : contentTypeOf publicEnv header = lit "text/plain") (hlong : 1000 < body.length)
    (hshort : body.length < 100000000) :
    Compressed publicEnv plainLibrary 100000000 gzipRequest (textResponse header hc body) := by
  have hscan : scanType publicEnv plainLibrary gzipRequest (textResponse header hc body)
      = lit "text/plain" := htype
  have hmedia : isMedia plainLibrary body (lit "text/plain") = false := by
    have hnone : (isImage (lit "text/plain") || isVideo (lit "text/plain")) = false := by
      decide +kernel
    simpa [isMedia, plainLibrary] using hnone
  refine ⟨hshort, ?_, by decide +kernel, hlong⟩
  rw [hscan]
  exact hmedia

def longText : GoString := List.replicate 1001 97

theorem length_longText : longText.length = 1001 := List.length_replicate

def deflatedText : Header := plainText.set (lit "Content-Encoding") (lit "deflate")

theorem canonical_deflatedText : deflatedText.Canonical :=
  Header.Canonical.set _ _ _ canonical_plainText

theorem representation_deflatedText (s : GoString) :
    (textResponse deflatedText canonical_deflatedText (StoredDeflate.zlib s)).representation
      storedCodings = some s := by
  have hnames : codingsOf deflatedText = [lit "deflate"] := by decide +kernel
  have hdecode : storedCodings.decode (lit "deflate") (StoredDeflate.zlib s) = some s := by
    unfold storedCodings
    dsimp only
    rw [if_neg (by decide +kernel), if_pos rfl]
    exact StoredDeflate.unzlib_zlib s
  have hbody : (textResponse deflatedText canonical_deflatedText
      (StoredDeflate.zlib s)).representation storedCodings
      = storedCodings.decodeAll (codingsOf deflatedText) (StoredDeflate.zlib s) := rfl
  rw [hbody, hnames]
  exact hdecode

/-- The client undoes the compression of the proxy, and has the coded data. -/
theorem not_faithful_deflatedText {s : GoString} (hlong : 1000 < s.length)
    (hshort : s.length ≤ 65535) :
    ¬ Faithful publicEnv plainLibrary openHandlers storedCodings wholeStream 100000000
      gzipRequest (textResponse deflatedText canonical_deflatedText (StoredDeflate.zlib s)) := by
  intro hf
  have hne : s ≠ [] := List.ne_nil_of_length_pos (by omega)
  have hlen := StoredDeflate.length_zlib_short hne hshort
  have hc := compressed_text canonical_deflatedText (by decide +kernel)
    (by omega : 1000 < (StoredDeflate.zlib s).length) (by omega)
  have hsends := (@sends_relay _ _ _ storedCodings wholeStream _ _ _
    (relayed_text deflatedText canonical_deflatedText (StoredDeflate.zlib s))).2 hc
  have hclient := (hsends.representation storedCodings).trans
    (storedCodings.decode_gzip (StoredDeflate.zlib s))
  have hsame := Option.some.inj ((hclient.symm.trans hf).trans (representation_deflatedText s))
  rw [hsame] at hlen
  omega

end Representation

end RbiProxy
