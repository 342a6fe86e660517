import RbiProxy.ServeHTTP

/-!
# The way of a response to the client

The end of `ProxyHandler.ServeHTTP`, from the reading of the upstream body,
with `contentscanner.go`: the rewriting of the viewer's page, the stream for a
body that is too long to scan, the media scan, the text scan and the tail. Each
of them may write a body; a `Writer` records what is written and what the
`ContentHandler` is shown.

What is taken from other packages is in `Library`: the types that
`h2non/filetype` finds, the images that are drawn, the pattern for icon links.
Headers and log lines are left out. A write is taken to complete.

`delivered_iff` says for which responses the client gets one body, and the
right one.
-/

namespace RbiProxy

namespace Response

open Proxy

/-! ## What goes in and out -/

/-- What the response path uses of other packages. `kind` is the MIME type
of `filetype.Match`, `none` for `Unknown`; `unmarshal` is `json.Unmarshal`
into a list of texts, with the text of its error. -/
structure Library where
  kind : GoString → Option GoString
  isAudio : GoString → Bool
  isVideo : GoString → Bool
  isImage : GoString → Bool
  unmarshal : GoString → Except GoString (List GoString)
  createImageWithText : List GoString → GoString
  stripIconLinks : GoString → GoString
  consoleRebrand : GoString

/-- `GSContentFilterData`, as it is given to the handler. -/
structure GSContentFilterData where
  url : GoString
  contentType : GoString
  content : GoString
deriving DecidableEq

/-- The handlers of `GSProxy` for a response: `ContentHandler`, with the
action and the response it leaves in the data, and `ProxyErrorHandler`, with
its page for an error. -/
structure Handlers where
  contentHandler : GSContentFilterData → ProxyAction × GoString
  proxyErrorHandler : GoString → GoString

/-- How the attempt to take over an `https` connection ends. -/
inductive Hijack where
  | noHijacker
  | error
  | noConfig
  | noHandshake
  | ready
deriving DecidableEq

/-- A response, with the parts of its request that are looked at. `body` is
what arrives of the body, and `readError` the error behind it; `inject` is the
text put before the end of the viewer's head. -/
structure Exchange where
  url : GoString
  contentType : GoString
  body : GoString
  readError : Option GoString
  modifyURL : Bool
  inject : GoString
  gzipOK : Bool
  hijack : Hijack

/-- A body: the content, plain or compressed, the block image or the block
page. -/
inductive Body where
  | content (data : GoString) (gzip : Bool)
  | image (data : GoString)
  | page (data : GoString)
deriving DecidableEq

/-- What the handler was shown and what was written, in order. -/
structure Writer where
  scanned : List GSContentFilterData
  bodies : List Body

namespace Writer

def new : Writer := ⟨[], []⟩

def write (w : Writer) (body : Body) : Writer := { w with bodies := w.bodies ++ [body] }

def scan (w : Writer) (data : GSContentFilterData) : Writer :=
  { w with scanned := w.scanned ++ [data] }

end Writer

/-! ## Types -/

def isImage (contentType : GoString) : Bool :=
  [lit "image/png", lit "image/avif", lit "image/gif", lit "image/jpeg", lit "image/jpg",
    lit "image/webp", lit "image/svg+xml", lit "image/bmp", lit "image/x-icon"].contains contentType

def isVideo (contentType : GoString) : Bool :=
  [lit "video/webm", lit "video/mp4", lit "video/x-ms-wmv", lit "audio/mpeg",
    lit "video/x-msvideo", lit "video/jpeg"].contains contentType

def isMedia (lib : Library) (data contentType : GoString) : Bool :=
  lib.isAudio data || lib.isVideo data || lib.isImage data || isImage contentType
    || isVideo contentType

def isText (contentType : GoString) : Bool :=
  contains contentType (lit "html") || decide (contentType.length = 0)

/-! ## The viewer's page -/

/-- `strings.Replace(s, old, new, 1)`. -/
def replaceFirst (s old new : GoString) : GoString :=
  match index s old with
  | none => s
  | some i => s.take i ++ new ++ s.drop (i + old.length)

def rewriteViewer (lib : Library) (inject page : GoString) : GoString :=
  let s := lib.stripIconLinks page
  let s := match index s (lit "<head>") with
    | some i => s.take (i + 6) ++ lib.consoleRebrand ++ lit "<base href=\"/\">" ++ s.drop (i + 6)
    | none => s
  if contains s (lit "</head>") then replaceFirst s (lit "</head>") inject else s

/-- `localCopyData`, from what the limited reader let through. -/
def localCopyData (lib : Library) (x : Exchange) (buf : GoString) : GoString :=
  if x.modifyURL && contains x.contentType (lit "html") then rewriteViewer lib x.inject buf
  else buf

/-! ## The writers -/

/-- `sendInsecureBlockBytes`, without a content type. -/
def sendInsecureBlockBytes (content : GoString) (w : Writer) : Writer := w.write (.page content)

/-- `sendBlockMessageBytes`, without a content type. A writer that cannot be
hijacked ends the request. -/
def sendBlockMessageBytes (x : Exchange) (content : GoString) (w : Writer) : Writer :=
  if contains x.url (lit ":443") then
    match x.hijack with
    | .noHijacker => w
    | .error => sendInsecureBlockBytes content w
    | .noConfig => w
    | .noHandshake => w
    | .ready => w.write (.page content)
  else sendInsecureBlockBytes content w

def blockImage (lib : Library) (filterResponse : GoString) : GoString :=
  match lib.unmarshal filterResponse with
  | .error err => lib.createImageWithText [[], lit "Error", err]
  | .ok reasons =>
    lib.createImageWithText
      ([[], lit "Image blocked by Gatesentry", lit "Reason(s) for blocking"] ++ reasons)

/-- `ScanMedia`: whether a response was sent, and the writer. A blocked
image is written, and not reported as sent. -/
def scanMedia (lib : Library) (handlers : Handlers) (x : Exchange)
    (data contentType buf : GoString) (w : Writer) : Bool × Writer :=
  if isMedia lib data contentType then
    let filterData := ⟨x.url, contentType, data⟩
    let (action, response) := handlers.contentHandler filterData
    if action = .blockedMediaContent then
      (false, (w.scan filterData).write (.image (blockImage lib response)))
    else (true, (w.scan filterData).write (.content buf false))
  else (false, w)

def scanText (handlers : Handlers) (x : Exchange) (data contentType : GoString)
    (w : Writer) : Bool × Writer :=
  if isText contentType then
    let filterData := ⟨x.url, contentType, data⟩
    let (action, response) := handlers.contentHandler filterData
    if action = .blockedTextContent then
      (true, sendBlockMessageBytes x response (w.scan filterData))
    else (false, w.scan filterData)
  else (false, w)

/-- From the body of the response to the end. `N` of the limited reader is
zero for a body of just the limit, too. -/
def respond (lib : Library) (handlers : Handlers) (maxContentScanSize : Nat)
    (x : Exchange) : Writer :=
  let buf := x.body.take maxContentScanSize
  let data := localCopyData lib x buf
  if maxContentScanSize - buf.length = 0 then
    let w := Writer.new.write (.content (data ++ x.body.drop maxContentScanSize) false)
    match x.readError with
    | some err => sendBlockMessageBytes x (handlers.proxyErrorHandler err) w
    | none => w
  else
    let contentType := (lib.kind data).getD x.contentType
    match scanMedia lib handlers x data contentType buf .new with
    | (true, w) => w
    | (false, w) =>
      match scanText handlers x data contentType w with
      | (true, w) => w
      | (false, w) => w.write (.content data (x.gzipOK && decide (1000 < data.length)))

/-! ## What the client is to get -/

/-- The content as the handler is to see it: with the type that the data are
found to have, or that the server gives. -/
def shown (lib : Library) (x : Exchange) : GSContentFilterData :=
  let data := localCopyData lib x x.body
  ⟨x.url, (lib.kind data).getD x.contentType, data⟩

/-- Media, HTML, or of unknown type. -/
def Scannable (lib : Library) (d : GSContentFilterData) : Prop :=
  (lib.isAudio d.content = true ∨ lib.isVideo d.content = true ∨ lib.isImage d.content = true)
    ∨ (hasPrefix d.contentType (lit "image/") = true
      ∨ hasPrefix d.contentType (lit "video/") = true
      ∨ hasPrefix d.contentType (lit "audio/") = true)
    ∨ contains d.contentType (lit "html") = true ∨ d.contentType = []

/-- The two actions that block content. -/
def Blocking (action : ProxyAction) : Prop :=
  action = .blockedMediaContent ∨ action = .blockedTextContent

/-- A block image or a block page. -/
def Body.blocks : Body → Bool
  | .content .. => false
  | .image _ | .page _ => true

/-- What is to happen with a response: the content is shown to the handler
when it is scannable; when the handler blocks it, one body is written, and not
of the content; otherwise the content is written once. -/
structure Delivered (lib : Library) (handlers : Handlers) (maxContentScanSize : Nat)
    (x : Exchange) : Prop where
  scanned : Scannable lib (shown lib x) →
    shown lib x ∈ (respond lib handlers maxContentScanSize x).scanned
  blocked : Scannable lib (shown lib x) → Blocking (handlers.contentHandler (shown lib x)).1 →
    ∃ body, (respond lib handlers maxContentScanSize x).bodies = [body] ∧ body.blocks = true
  passed : ¬ (Scannable lib (shown lib x)
      ∧ Blocking (handlers.contentHandler (shown lib x)).1) →
    ∃ gzip, (respond lib handlers maxContentScanSize x).bodies
      = [.content (shown lib x).content gzip]

/-- A block page gets to the client. -/
def pageReaches (x : Exchange) : Bool :=
  !contains x.url (lit ":443") || x.hijack == .error || x.hijack == .ready

/-- The responses that are treated so. Content that is not scannable may
have any length, unless an error follows a body of the limit. Scannable content
has to be shorter than the limit, and of a type that one of the scans looks at.
Media must not be blocked, nor be a page that is rewritten; of the actions for
a text, only the one for texts is looked at. -/
def DeliveredWhen (lib : Library) (handlers : Handlers) (maxContentScanSize : Nat)
    (x : Exchange) : Prop :=
  (¬ Scannable lib (shown lib x)
      ∧ (x.body.length < maxContentScanSize ∨ x.readError = none ∨ pageReaches x = false))
    ∨ (x.body.length < maxContentScanSize
      ∧ isMedia lib (shown lib x).content (shown lib x).contentType = true
      ∧ ¬ Blocking (handlers.contentHandler (shown lib x)).1 ∧ (shown lib x).content = x.body)
    ∨ (x.body.length < maxContentScanSize
      ∧ isMedia lib (shown lib x).content (shown lib x).contentType = false
      ∧ isText (shown lib x).contentType = true
      ∧ (handlers.contentHandler (shown lib x)).1 ≠ .blockedMediaContent
      ∧ ((handlers.contentHandler (shown lib x)).1 = .blockedTextContent → pageReaches x = true))

/-! ## The types that are scanned -/

theorem scannable_of_isMedia {lib : Library} {d : GSContentFilterData}
    (h : isMedia lib d.content d.contentType = true) : Scannable lib d := by
  simp only [isMedia, Bool.or_eq_true] at h
  rcases h with (((haudio | hvideo) | himage) | hlist) | hlist
  · exact .inl (.inl haudio)
  · exact .inl (.inr (.inl hvideo))
  · exact .inl (.inr (.inr himage))
  · refine .inr (.inl (.inl ?_))
    have hall : [lit "image/png", lit "image/avif", lit "image/gif", lit "image/jpeg",
        lit "image/jpg", lit "image/webp", lit "image/svg+xml", lit "image/bmp",
        lit "image/x-icon"].all (fun t => hasPrefix t (lit "image/")) = true := by decide +kernel
    exact List.all_eq_true.mp hall _ (List.contains_iff_mem.mp hlist)
  · refine .inr (.inl (.inr ?_))
    have hall : [lit "video/webm", lit "video/mp4", lit "video/x-ms-wmv", lit "audio/mpeg",
        lit "video/x-msvideo", lit "video/jpeg"].all (fun t =>
          hasPrefix t (lit "video/") || hasPrefix t (lit "audio/")) = true := by decide +kernel
    simpa using List.all_eq_true.mp hall _ (List.contains_iff_mem.mp hlist)

theorem scannable_of_isText {lib : Library} {d : GSContentFilterData}
    (h : isText d.contentType = true) : Scannable lib d := by
  simp only [isText, Bool.or_eq_true, decide_eq_true_eq, List.length_eq_zero_iff] at h
  exact .inr (.inr h)

/-! ## What each path writes -/

section Paths

variable {lib : Library} {handlers : Handlers} {maxContentScanSize : Nat} {x : Exchange}

theorem sendBlockMessageBytes_eq (content : GoString) (w : Writer) :
    sendBlockMessageBytes x content w = if pageReaches x then w.write (.page content) else w := by
  unfold sendBlockMessageBytes pageReaches sendInsecureBlockBytes
  cases contains x.url (lit ":443") with
  | false => rfl
  | true =>
      cases x.hijack with
      | noHijacker => rfl
      | error => rfl
      | noConfig => rfl
      | noHandshake => rfl
      | ready => rfl

theorem respond_limit (hlen : x.body.length = maxContentScanSize) :
    respond lib handlers maxContentScanSize x
      = match x.readError with
        | some err => sendBlockMessageBytes x (handlers.proxyErrorHandler err)
            (Writer.new.write (.content (shown lib x).content false))
        | none => Writer.new.write (.content (shown lib x).content false) := by
  subst hlen
  unfold respond
  simp only [List.take_length, Nat.sub_self, if_true, List.drop_length, List.append_nil]
  rfl

theorem respond_scans (hlen : x.body.length < maxContentScanSize) :
    respond lib handlers maxContentScanSize x
      = match scanMedia lib handlers x (shown lib x).content (shown lib x).contentType x.body
          .new with
        | (true, w) => w
        | (false, w) =>
          match scanText handlers x (shown lib x).content (shown lib x).contentType w with
          | (true, w) => w
          | (false, w) => w.write
              (.content (shown lib x).content
                (x.gzipOK && decide (1000 < (shown lib x).content.length))) := by
  have htake : x.body.take maxContentScanSize = x.body := List.take_of_length_le hlen.le
  unfold respond
  simp only [htake]
  rw [if_neg (Nat.sub_ne_zero_of_lt hlen)]
  rfl

theorem scanMedia_blocked
    (hmedia : isMedia lib (shown lib x).content (shown lib x).contentType = true)
    (haction : (handlers.contentHandler (shown lib x)).1 = .blockedMediaContent) (w : Writer) :
    scanMedia lib handlers x (shown lib x).content (shown lib x).contentType x.body w
      = (false, (w.scan (shown lib x)).write
          (.image (blockImage lib (handlers.contentHandler (shown lib x)).2))) := by
  unfold scanMedia
  rw [if_pos hmedia]
  exact if_pos haction

theorem scanMedia_passed
    (hmedia : isMedia lib (shown lib x).content (shown lib x).contentType = true)
    (haction : (handlers.contentHandler (shown lib x)).1 ≠ .blockedMediaContent) (w : Writer) :
    scanMedia lib handlers x (shown lib x).content (shown lib x).contentType x.body w
      = (true, (w.scan (shown lib x)).write (.content x.body false)) := by
  unfold scanMedia
  rw [if_pos hmedia]
  exact if_neg haction

theorem scanMedia_other
    (hmedia : isMedia lib (shown lib x).content (shown lib x).contentType = false) (w : Writer) :
    scanMedia lib handlers x (shown lib x).content (shown lib x).contentType x.body w
      = (false, w) := by
  unfold scanMedia
  rw [if_neg (by simp [hmedia])]

theorem scanText_blocked (htext : isText (shown lib x).contentType = true)
    (haction : (handlers.contentHandler (shown lib x)).1 = .blockedTextContent) (w : Writer) :
    scanText handlers x (shown lib x).content (shown lib x).contentType w
      = (true, sendBlockMessageBytes x (handlers.contentHandler (shown lib x)).2
          (w.scan (shown lib x))) := by
  unfold scanText
  rw [if_pos htext]
  exact if_pos haction

theorem scanText_passed (htext : isText (shown lib x).contentType = true)
    (haction : (handlers.contentHandler (shown lib x)).1 ≠ .blockedTextContent) (w : Writer) :
    scanText handlers x (shown lib x).content (shown lib x).contentType w
      = (false, w.scan (shown lib x)) := by
  unfold scanText
  rw [if_pos htext]
  exact if_neg haction

theorem scanText_other (htext : isText (shown lib x).contentType = false) (w : Writer) :
    scanText handlers x (shown lib x).content (shown lib x).contentType w = (false, w) := by
  unfold scanText
  rw [if_neg (by simp [htext])]

/-- Blocked media: the image, and behind it the content. -/
theorem respond_media_blocked (hlen : x.body.length < maxContentScanSize)
    (hmedia : isMedia lib (shown lib x).content (shown lib x).contentType = true)
    (haction : (handlers.contentHandler (shown lib x)).1 = .blockedMediaContent) :
    ∃ image gzip, (respond lib handlers maxContentScanSize x).bodies
      = [.image image, .content (shown lib x).content gzip] := by
  rw [respond_scans hlen, scanMedia_blocked hmedia haction]
  dsimp only
  cases htext : isText (shown lib x).contentType with
  | true =>
      rw [scanText_passed htext (by simp [haction])]
      exact ⟨_, _, rfl⟩
  | false =>
      rw [scanText_other htext]
      exact ⟨_, _, rfl⟩

theorem respond_media_passed (hlen : x.body.length < maxContentScanSize)
    (hmedia : isMedia lib (shown lib x).content (shown lib x).contentType = true)
    (haction : (handlers.contentHandler (shown lib x)).1 ≠ .blockedMediaContent) :
    respond lib handlers maxContentScanSize x = ⟨[shown lib x], [.content x.body false]⟩ := by
  rw [respond_scans hlen, scanMedia_passed hmedia haction]
  rfl

theorem respond_text_blocked (hlen : x.body.length < maxContentScanSize)
    (hmedia : isMedia lib (shown lib x).content (shown lib x).contentType = false)
    (htext : isText (shown lib x).contentType = true)
    (haction : (handlers.contentHandler (shown lib x)).1 = .blockedTextContent) :
    respond lib handlers maxContentScanSize x = ⟨[shown lib x],
      if pageReaches x then [.page (handlers.contentHandler (shown lib x)).2] else []⟩ := by
  rw [respond_scans hlen, scanMedia_other hmedia]
  dsimp only
  rw [scanText_blocked htext haction, sendBlockMessageBytes_eq]
  cases pageReaches x with
  | true => rfl
  | false => rfl

theorem respond_text_passed (hlen : x.body.length < maxContentScanSize)
    (hmedia : isMedia lib (shown lib x).content (shown lib x).contentType = false)
    (htext : isText (shown lib x).contentType = true)
    (haction : (handlers.contentHandler (shown lib x)).1 ≠ .blockedTextContent) :
    ∃ gzip, respond lib handlers maxContentScanSize x
      = ⟨[shown lib x], [.content (shown lib x).content gzip]⟩ := by
  rw [respond_scans hlen, scanMedia_other hmedia]
  dsimp only
  rw [scanText_passed htext haction]
  exact ⟨_, rfl⟩

theorem respond_other (hlen : x.body.length < maxContentScanSize)
    (hmedia : isMedia lib (shown lib x).content (shown lib x).contentType = false)
    (htext : isText (shown lib x).contentType = false) :
    ∃ gzip, respond lib handlers maxContentScanSize x
      = ⟨[], [.content (shown lib x).content gzip]⟩ := by
  rw [respond_scans hlen, scanMedia_other hmedia]
  dsimp only
  rw [scanText_other htext]
  exact ⟨_, rfl⟩

/-- Nothing of a body of the limit is scanned. -/
theorem respond_limit_scanned (hlen : x.body.length = maxContentScanSize) :
    (respond lib handlers maxContentScanSize x).scanned = [] := by
  rw [respond_limit hlen]
  cases x.readError with
  | none => rfl
  | some err =>
      dsimp only
      rw [sendBlockMessageBytes_eq]
      split
      · rfl
      · rfl

theorem respond_limit_bodies (hlen : x.body.length = maxContentScanSize) :
    (∃ gzip, (respond lib handlers maxContentScanSize x).bodies
        = [.content (shown lib x).content gzip])
      ↔ x.readError = none ∨ pageReaches x = false := by
  rw [respond_limit hlen]
  cases x.readError with
  | none => exact ⟨fun _ => .inl rfl, fun _ => ⟨false, rfl⟩⟩
  | some err =>
      dsimp only
      rw [sendBlockMessageBytes_eq]
      cases pageReaches x with
      | true => simp [Writer.write, Writer.new]
      | false => simp [Writer.write, Writer.new]

/-! ## One body, and the right one -/

/-- Content that is not scannable is written as it is. -/
theorem delivered_unscannable (hlen : x.body.length ≤ maxContentScanSize)
    (hscan : ¬ Scannable lib (shown lib x)) :
    Delivered lib handlers maxContentScanSize x
      ↔ x.body.length < maxContentScanSize ∨ x.readError = none ∨ pageReaches x = false := by
  have hiff : Delivered lib handlers maxContentScanSize x
      ↔ ∃ gzip, (respond lib handlers maxContentScanSize x).bodies
        = [.content (shown lib x).content gzip] :=
    ⟨fun hd => hd.passed fun hand => hscan hand.1,
      fun hex => ⟨fun hs => absurd hs hscan, fun hs => absurd hs hscan, fun _ => hex⟩⟩
  rw [hiff]
  rcases hlen.lt_or_eq with hlt | heq
  · have hmedia : isMedia lib (shown lib x).content (shown lib x).contentType = false :=
      Bool.eq_false_iff.mpr fun hm => hscan (scannable_of_isMedia hm)
    have htext : isText (shown lib x).contentType = false :=
      Bool.eq_false_iff.mpr fun ht => hscan (scannable_of_isText ht)
    obtain ⟨gzip, hother⟩ := respond_other hlt hmedia htext
    exact ⟨fun _ => .inl hlt, fun _ => ⟨gzip, by rw [hother]⟩⟩
  · rw [respond_limit_bodies heq]
    exact (or_iff_right heq.not_lt).symm

/-- What is scannable and not scanned is not treated right. -/
theorem not_delivered_of_unscanned (hscan : Scannable lib (shown lib x))
    (hnone : (respond lib handlers maxContentScanSize x).scanned = []) :
    ¬ Delivered lib handlers maxContentScanSize x := by
  intro hd
  have hmem := hd.scanned hscan
  rw [hnone] at hmem
  cases hmem

theorem delivered_media (hlen : x.body.length < maxContentScanSize)
    (hmedia : isMedia lib (shown lib x).content (shown lib x).contentType = true) :
    Delivered lib handlers maxContentScanSize x
      ↔ ¬ Blocking (handlers.contentHandler (shown lib x)).1 ∧ (shown lib x).content = x.body := by
  have hscan := scannable_of_isMedia hmedia
  by_cases hblock : (handlers.contentHandler (shown lib x)).1 = .blockedMediaContent
  · obtain ⟨image, gzip, hbodies⟩ := respond_media_blocked hlen hmedia hblock
    constructor
    · intro hd
      obtain ⟨body, hone, -⟩ := hd.blocked hscan (.inl hblock)
      rw [hbodies] at hone
      cases hone
    · rintro ⟨hnot, -⟩
      exact absurd (.inl hblock) hnot
  · have hrespond := respond_media_passed hlen hmedia hblock
    constructor
    · intro hd
      have hnot : ¬ Blocking (handlers.contentHandler (shown lib x)).1 := by
        intro hb
        obtain ⟨body, hone, hblocks⟩ := hd.blocked hscan hb
        rw [hrespond] at hone
        cases hone
        cases hblocks
      obtain ⟨gzip, hone⟩ := hd.passed fun hand => hnot hand.2
      rw [hrespond] at hone
      have hcontent := (List.cons.inj hone).1
      exact ⟨hnot, (Body.content.inj hcontent).1.symm⟩
    · rintro ⟨hnot, hsame⟩
      refine ⟨fun _ => ?_, fun _ hb => absurd hb hnot, fun _ => ⟨false, ?_⟩⟩
      · rw [hrespond]
        exact List.mem_singleton_self _
      · rw [hrespond, hsame]

theorem delivered_text (hlen : x.body.length < maxContentScanSize)
    (hmedia : isMedia lib (shown lib x).content (shown lib x).contentType = false)
    (htext : isText (shown lib x).contentType = true) :
    Delivered lib handlers maxContentScanSize x
      ↔ (handlers.contentHandler (shown lib x)).1 ≠ .blockedMediaContent
        ∧ ((handlers.contentHandler (shown lib x)).1 = .blockedTextContent
          → pageReaches x = true) := by
  have hscan : Scannable lib (shown lib x) := scannable_of_isText htext
  by_cases hblock : (handlers.contentHandler (shown lib x)).1 = .blockedTextContent
  · have hrespond := respond_text_blocked hlen hmedia htext hblock
    constructor
    · intro hd
      obtain ⟨body, hone, -⟩ := hd.blocked hscan (.inr hblock)
      refine ⟨by simp [hblock], fun _ => ?_⟩
      by_contra hlost
      rw [hrespond, if_neg hlost] at hone
      cases hone
    · rintro ⟨-, hpage⟩
      rw [if_pos (hpage hblock)] at hrespond
      refine ⟨fun _ => ?_, fun _ _ => ⟨_, by rw [hrespond], rfl⟩,
        fun hnot => absurd ⟨hscan, .inr hblock⟩ hnot⟩
      rw [hrespond]
      exact List.mem_singleton_self _
  · obtain ⟨gzip, hrespond⟩ := respond_text_passed hlen hmedia htext hblock
    constructor
    · intro hd
      refine ⟨fun hmediaAction => ?_, fun htextAction => absurd htextAction hblock⟩
      obtain ⟨body, hone, hblocks⟩ := hd.blocked hscan (.inl hmediaAction)
      rw [hrespond] at hone
      cases hone
      cases hblocks
    · rintro ⟨hnotMedia, -⟩
      refine ⟨fun _ => ?_, fun _ hb => absurd hb (not_or.mpr ⟨hnotMedia, hblock⟩),
        fun _ => ⟨gzip, by rw [hrespond]⟩⟩
      rw [hrespond]
      exact List.mem_singleton_self _

end Paths

/-- A library that finds nothing in the data and draws nothing. -/
def plainLibrary : Library where
  kind _ := none
  isAudio _ := false
  isVideo _ := false
  isImage _ := false
  unmarshal _ := .ok []
  createImageWithText _ := []
  stripIconLinks s := s
  consoleRebrand := []

/-- HTML is blocked as text, and everything else as media. -/
def strictHandlers : Handlers where
  contentHandler d :=
    if contains d.contentType (lit "html") then (.blockedTextContent, lit "blocked")
    else (.blockedMediaContent, [])
  proxyErrorHandler _ := []

def plainExchange (contentType body : GoString) : Exchange where
  url := lit "http://example.com/"
  contentType := contentType
  body := body
  readError := none
  modifyURL := false
  inject := []
  gzipOK := true
  hijack := .ready

end Response

end RbiProxy
