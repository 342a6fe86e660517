import RbiProxy.Users

/-!
# The policy of the gateway

The filters of `application/filters` and the handlers `RunGateSentry` installs
over them, put into the `ServeHTTP` of the proxy. A filter writes its verdict
into a responder; a handler turns the responder into the action that
`ServeHTTP` looks at.

The tables of time zones, the reading of `blocktimes` and the times at which
`time.Now` is called are parameters (`Clock`). Seconds are unbounded integers
here: hours and minutes for which Go's would wrap are years away from any
clock.

`policy_enforced_iff` says for which requests a verdict of one of the filters
leads to a refusal: the handler of the time filter drops the verdict.
-/

namespace RbiProxy

namespace Policy

open Proxy Users

/-! ## Filters -/

structure GSFilterResponder where
  blocked : Bool
  score : Int
  reasons : List GoString

def GSFilterResponder.new : GSFilterResponder := ⟨false, 0, []⟩

structure GsFilterLine where
  content : GoString
  score : Int

/-- `GSFilter`: what it handles, its handler, and what the handler reads of
it. -/
structure GSFilter where
  handles : GoString
  handler : List GsFilterLine → Int → GoString → GSFilterResponder → GSFilterResponder
  fileContents : List GsFilterLine
  strictness : Int

def GSFilter.handle (f : GSFilter) (content contentType : GoString)
    (responder : GSFilterResponder) : GSFilterResponder :=
  if contentType = f.handles then f.handler f.fileContents f.strictness content responder
  else responder

/-- A filter that blocks what one of its lines matches. -/
def filterLines (hit : (content line : GoString) → Bool) (lines : List GsFilterLine) (_ : Int)
    (content : GoString) (responder : GSFilterResponder) : GSFilterResponder :=
  lines.foldl (fun responder v =>
    if hit content v.content then { responder with blocked := true } else responder) responder

def filterUrlBlockedHosts := filterLines contains

def filterBlockedMimes := filterLines contains

def filterUrlDontBump :=
  filterLines fun content line => content = line ++ lit ":443" || content = line

/-- `FilterUrlExceptionUrls`: a line may also contain what is asked for. -/
def filterUrlExceptionUrls :=
  filterLines fun content line =>
    contains line content || contains content line || contains (content ++ lit ":443") line

/-- `strings.Count` for a substring that is not empty; every match takes a
byte, so the length is fuel enough. -/
def countFrom (sub : GoString) : Nat → GoString → Nat
  | 0, _ => 0
  | fuel + 1, s =>
    match index s sub with
    | none => 0
    | some i => 1 + countFrom sub fuel (s.drop (i + sub.length))

def count (s sub : GoString) : Nat :=
  if sub = [] then (runes s).length + 1 else countFrom sub s.length s

/-- The reason that `FilterWords` gives for a word. -/
def wordReason (v : GsFilterLine) (found : Nat) : GoString :=
  lit "Found <u>" ++ v.content ++ lit "</u> " ++ itoa found
    ++ lit " times, weightage of each time = " ++ formatInt v.score

/-- The value that an `int` keeps of a result. -/
def int64 (x : Int) : Int := x.bmod (2 ^ 64)

/-- One round of `FilterWords`, with the reasons and the points so far. -/
def filterWord (table : Rune → Rune) (strictness : Int) (content : GoString)
    (acc : GSFilterResponder × List GoString × Int) (v : GsFilterLine) :
    GSFilterResponder × List GoString × Int :=
  let (responder, reasons, pts) := acc
  let found := count (toLower table content) (toLower table v.content)
  let pts := int64 (pts + int64 (found * v.score))
  let reasons := if 0 < found then reasons ++ [wordReason v found] else reasons
  if strictness < pts then (⟨true, pts, reasons⟩, reasons, pts) else (responder, reasons, pts)

def filterWords (table : Rune → Rune) (lines : List GsFilterLine) (strictness : Int)
    (content : GoString) (responder : GSFilterResponder) : GSFilterResponder :=
  (lines.foldl (filterWord table strictness content) (responder, [], 0)).1

/-- The settings that the filters and the handlers read: the lines of the
five filter files, and the keys of the settings store. -/
structure Config where
  exceptionSites : List GsFilterLine
  dontBump : List GsFilterLine
  blockedMimes : List GsFilterLine
  blockedSites : List GsFilterLine
  stopWords : List GsFilterLine
  strictness : Int
  blockTimes : GoString
  timezone : GoString
  enableUsers : GoString

def allExceptionUrls : GoString := lit "url/all_exception_urls"
def httpsDontBump : GoString := lit "url/https_dontbump"
def allBlockedMimes : GoString := lit "url/all_blocked_mimes"
def allBlockedUrls : GoString := lit "url/all_blocked_urls"
def textHtml : GoString := lit "text/html"

/-- `LoadFilters`, with the strictness `Init` gives to each of them. -/
def loadFilters (env : Env) (s : Config) : List GSFilter :=
  [⟨allExceptionUrls, filterUrlExceptionUrls, s.exceptionSites, s.strictness⟩,
    ⟨httpsDontBump, filterUrlDontBump, s.dontBump, s.strictness⟩,
    ⟨allBlockedMimes, filterBlockedMimes, s.blockedMimes, s.strictness⟩,
    ⟨allBlockedUrls, filterUrlBlockedHosts, s.blockedSites, s.strictness⟩,
    ⟨textHtml, filterWords env.lowerTable, s.stopWords, s.strictness⟩]

def runFilter (env : Env) (s : Config) (filterType content : GoString)
    (responder : GSFilterResponder) : GSFilterResponder :=
  (loadFilters env s).foldl (fun responder v => v.handle content filterType responder) responder

/-! ## The time filter -/

/-- `time.Location`: for a second of UTC, the offset of the zone in force and
the seconds from which and before which it is. -/
structure Location where
  lookup : Int → Int × Int × Int

/-- `time.Time`: the second of UTC, and the nanosecond in it. -/
structure Time where
  sec : Int
  nsec : Nat

/-- `Time.Before`; `Time.After` is the same with the two exchanged. -/
def Time.before (t u : Time) : Bool :=
  decide (t.sec < u.sec) || (decide (t.sec = u.sec) && decide (t.nsec < u.nsec))

/-- The second of a time on the clock of a location. -/
def Location.clock (loc : Location) (t : Time) : Int := t.sec + (loc.lookup t.sec).1

def Location.day (loc : Location) (t : Time) : Int := loc.clock t / 86400

/-- `time.Date`, for a day given by its number. -/
def Location.date (loc : Location) (day hour min sec : Int) (nsec : Nat) : Time :=
  let unix := day * 86400 + hour * 3600 + min * 60 + sec
  let (offset, first, last) := loc.lookup unix
  if offset = 0 then ⟨unix, nsec⟩
  -- the zone found for the clock's reading need not be the one in force then
  else if unix - offset < first ∨ last ≤ unix - offset then
    ⟨unix - (loc.lookup (unix - offset)).1, nsec⟩
  else ⟨unix - offset, nsec⟩

/-- `AddDate(0, 0, 1)`. -/
def Location.nextDay (loc : Location) (t : Time) : Time :=
  let s := loc.clock t % 86400
  loc.date (loc.day t + 1) (s / 3600) (s % 3600 / 60) (s % 60) t.nsec

structure GSBlockTimes where
  fromHours : Int
  toHours : Int
  fromMinutes : Int
  toMinutes : Int

/-- What the time filter takes from the library: `time.LoadLocation` and
`json.Unmarshal`, `none` for an error, and what `time.Now` returns on its
three calls. -/
structure Clock where
  loadLocation : GoString → Option Location
  unmarshal : GoString → Option GSBlockTimes
  now : Time
  nowFrom : Time
  nowTo : Time

/-- `GetTime`: a time of the present day, with the seconds of the present. -/
def getTime (loc : Location) (now : Time) (hour minute : Int) : Time :=
  loc.date (loc.day now) hour minute (loc.clock now % 60) now.nsec

def runTimeFilter (clock : Clock) (responder : GSFilterResponder)
    (blockedTimes timezone : GoString) : GSFilterResponder :=
  match clock.loadLocation timezone with
  | none => responder
  | some loc =>
    match clock.unmarshal blockedTimes with
    | none => responder
    | some times =>
      let fromTime := getTime loc clock.nowFrom times.fromHours times.fromMinutes
      let toTime := getTime loc clock.nowTo times.toHours times.toMinutes
      let toTime := if toTime.before fromTime then loc.nextDay toTime else toTime
      if fromTime.before clock.now then
        if clock.now.before toTime then { responder with blocked := true } else responder
      else responder

/-! ## The handlers -/

section Handlers

variable (env : Env) (clock : Clock) (s : Config)

def timeResponder : GSFilterResponder :=
  runTimeFilter clock .new s.blockTimes s.timezone

def urlResponder (url : GoString) : GSFilterResponder :=
  runFilter env s allBlockedUrls url .new

/-- The verdict of the filter of blocked content types. -/
def mimeResponder (contentType : GoString) : GSFilterResponder :=
  runFilter env s allBlockedMimes contentType .new

/-- `TimeAccessHandler`, from the filter data it is given to what it leaves
there. The branch for a blocked time is empty. -/
def timeAccessHandler (gafd : ProxyAction × GoString) : ProxyAction × GoString :=
  if (timeResponder clock s).blocked then gafd else gafd

def urlAccessHandler (url : GoString) (gafd : ProxyAction × GoString) : ProxyAction × GoString :=
  if (urlResponder env s url).blocked then (.blockedUrl, gafd.2) else gafd

/-- `ContentTypeHandler`, without the transparent image it has for some
types: a request is answered with a redirect and the image is not read. -/
def contentTypeHandler (contentType : GoString) (action : ProxyAction) : ProxyAction :=
  if (mimeResponder env s contentType).blocked then .blockedFileType else action

def doMitm (host : GoString) : Bool :=
  if (runFilter env s httpsDontBump host .new).blocked then false else true

def isExceptionUrl (url : GoString) : Bool :=
  (runFilter env s allExceptionUrls url .new).blocked

/-- The handlers that `RunGateSentry` installs; `page` is the text for a user
whose access is off. -/
def runGateSentry (rt : GSRuntime) (page : GoString) : GSProxy where
  isAuthEnabled := s.enableUsers = lit "true"
  authHandler := rt.isUserValid
  userAccessHandler := rt.userAccess page
  timeAccessHandler _ _ := timeAccessHandler clock s (.unset, [])
  urlAccessHandler url _ := urlAccessHandler env s url (.unset, [])
  contentTypeHandler _ contentType := contentTypeHandler env s contentType .unset
  doMitm := doMitm env s
  isExceptionUrl := isExceptionUrl env s

end Handlers

/-! ## Verdicts -/

theorem filterLines_blocked (hit : GoString → GoString → Bool) (lines : List GsFilterLine)
    (strictness : Int) (content : GoString) (responder : GSFilterResponder) :
    (filterLines hit lines strictness content responder).blocked
      = (responder.blocked || lines.any fun v => hit content v.content) := by
  unfold filterLines
  induction lines generalizing responder with
  | nil => simp
  | cons v lines ih =>
      rw [List.foldl_cons, ih, List.any_cons]
      cases hit content v.content with
      | true => simp
      | false => simp

/-- One of the five filters handles `all_blocked_urls`. -/
theorem urlResponder_blocked (env : Env) (s : Config) (url : GoString) :
    (urlResponder env s url).blocked = s.blockedSites.any fun v => contains url v.content := by
  have hrun : urlResponder env s url
      = filterUrlBlockedHosts s.blockedSites s.strictness url .new := rfl
  rw [hrun, filterUrlBlockedHosts, filterLines_blocked]
  rfl

/-- One of the five filters handles `all_blocked_mimes`. -/
theorem mimeResponder_blocked (env : Env) (s : Config) (contentType : GoString) :
    (mimeResponder env s contentType).blocked
      = s.blockedMimes.any fun v => contains contentType v.content := by
  have hrun : mimeResponder env s contentType
      = filterBlockedMimes s.blockedMimes s.strictness contentType .new := rfl
  rw [hrun, filterBlockedMimes, filterLines_blocked]
  rfl

/-! ## From the verdicts to the answer -/

/-- A block response, or the redirect for a blocked file. -/
def refuses : Served → Bool
  | .block _ | .redirect _ => true
  | _ => false

/-- TLS is terminated, a tunnel is opened, or the request goes on to
isolation and to the upstream server. -/
def reachesOut : Served → Bool
  | .bump .. | .tunnel .. | .forward .. => true
  | _ => false

/-- The request is refused, and nothing else is done for it. -/
def Refusal (served : Served) : Prop := refuses served = true ∧ reachesOut served = false

section Answer

variable (env : Env) (clock : Clock) (s : Config)

/-- The type that the extension of a URL stands for. -/
def fileMime (url : URL) : GoString :=
  getMimeByExtension env (getFileExtensionFromUrl (env.urlString url))

/-- One of the three filters blocks a request for `url`. -/
def FilterBlocks (method : GoString) (url : URL) : Prop :=
  (timeResponder clock s).blocked = true
    ∨ (urlResponder env s (env.urlString (targetURL env method url))).blocked = true
    ∨ (mimeResponder env s (fileMime env (targetURL env method url))).blocked = true

/-- A line of the blocked sites occurs in the URL, or one of the blocked
types in the type of its extension. -/
def Listed (target : URL) : Prop :=
  (∃ v ∈ s.blockedSites, contains (env.urlString target) v.content = true)
    ∨ ∃ v ∈ s.blockedMimes, contains (fileMime env target) v.content = true

theorem listed_iff (target : URL) :
    Listed env s target ↔ (urlResponder env s (env.urlString target)).blocked = true
      ∨ (mimeResponder env s (fileMime env target)).blocked = true := by
  rw [urlResponder_blocked, mimeResponder_blocked, List.any_eq_true, List.any_eq_true]
  rfl

/-- Behind the time filter, whatever the handlers are. -/
theorem applyFilters_refuses (p : GSProxy) (method : GoString) (url : URL) (lan : Bool)
    (user authUser : GoString) :
    Refusal (applyFilters env p method url lan user authUser)
      ↔ (p.urlAccessHandler (env.urlString url) user).1 = .blockedUrl
        ∨ p.contentTypeHandler (env.urlString url) (fileMime env url) = .blockedFileType := by
  unfold applyFilters
  split
  · rename_i hurl
    exact ⟨fun _ => .inl hurl, fun _ => ⟨rfl, rfl⟩⟩
  · rename_i hurl
    split
    · rename_i hmime
      exact ⟨fun _ => .inr hmime, fun _ => ⟨rfl, rfl⟩⟩
    · rename_i hmime
      -- each of the three actions that are left reaches out
      have hnone : ∀ served, refuses served = false →
          (Refusal served ↔ (p.urlAccessHandler (env.urlString url) user).1 = .blockedUrl
            ∨ p.contentTypeHandler (env.urlString url) (fileMime env url) = .blockedFileType) :=
        fun served hserved => ⟨fun href => absurd href.1 (by simp [hserved]),
          fun hor => absurd hor (not_or.mpr ⟨hurl, hmime⟩)⟩
      split
      · exact hnone _ rfl
      split
      · exact hnone _ rfl
      · exact hnone _ rfl

theorem urlAccessHandler_blockedUrl (url : GoString) :
    (urlAccessHandler env s url (.unset, [])).1 = .blockedUrl
      ↔ (urlResponder env s url).blocked = true := by
  unfold urlAccessHandler
  cases (urlResponder env s url).blocked with
  | true => exact ⟨fun _ => rfl, fun _ => rfl⟩
  | false => exact ⟨nofun, nofun⟩

theorem contentTypeHandler_blockedFileType (contentType : GoString) :
    contentTypeHandler env s contentType .unset = .blockedFileType
      ↔ (mimeResponder env s contentType).blocked = true := by
  unfold contentTypeHandler
  cases (mimeResponder env s contentType).blocked with
  | true => exact ⟨fun _ => rfl, fun _ => rfl⟩
  | false => exact ⟨nofun, nofun⟩

/-- Whatever the verdict of the time filter, its handler leaves the data as it
found them. -/
theorem timeAccessHandler_eq (gafd : ProxyAction × GoString) :
    timeAccessHandler clock s gafd = gafd :=
  ite_self gafd

/-- Behind the gate, a request is refused when the URL or its type is listed,
whatever the time. -/
theorem applyPolicy_refuses (rt : GSRuntime) (page method : GoString) (url : URL) (lan : Bool)
    (user authUser : GoString) :
    Refusal (applyPolicy env (runGateSentry env clock s rt page) method url lan user authUser)
      ↔ Listed env s (targetURL env method url) := by
  have htime : ((runGateSentry env clock s rt page).timeAccessHandler (env.urlString url) user).1
      ≠ .blockedTime := by
    change (timeAccessHandler clock s (.unset, [])).1 ≠ .blockedTime
    rw [timeAccessHandler_eq]
    exact nofun
  rw [applyPolicy, if_neg htime, applyFilters_refuses, listed_iff]
  exact or_congr (urlAccessHandler_blockedUrl env s _) (contentTypeHandler_blockedFileType env s _)

/-- For a request that the filters see, a verdict of one of them leads to a
refusal and to nothing else. -/
def Enforced (rt : GSRuntime) (page : GoString) (h : ProxyHandler) (cache : UsersCache)
    (r : Request) : Prop :=
  ∀ url user authUser,
    (admitted env (runGateSentry env clock s rt page) h cache r).1 = .ok (url, user, authUser) →
    FilterBlocks env clock s r.method url →
    Refusal (serveHTTP env (runGateSentry env clock s rt page) h cache r).1

/-- The policy is enforced exactly on the requests that are made outside the
blocked times or that the lists of sites or of types block as well. -/
theorem policy_enforced_iff (rt : GSRuntime) (page : GoString) (h : ProxyHandler)
    (cache : UsersCache) (r : Request) :
    Enforced env clock s rt page h cache r ↔
      ∀ url user authUser,
        (admitted env (runGateSentry env clock s rt page) h cache r).1
          = .ok (url, user, authUser) →
        (timeResponder clock s).blocked = true → Listed env s (targetURL env r.method url) := by
  unfold Enforced
  refine forall₃_congr fun url user authUser => forall_congr' fun ha => ?_
  have hserved : (serveHTTP env (runGateSentry env clock s rt page) h cache r).1
      = applyPolicy env (runGateSentry env clock s rt page) r.method url
        (isLanAddress env (hostAddress r.url.host)) user authUser := by
    unfold serveHTTP
    split
    · rename_i reply cache' heq
      rw [heq] at ha
      cases ha
    · rename_i url' user' authUser' cache' heq
      rw [heq] at ha
      cases ha
      rfl
  rw [hserved, applyPolicy_refuses, FilterBlocks, ← listed_iff]
  constructor
  · intro himp htime
    exact himp (.inl htime)
  · rintro himp (htime | hlisted)
    · exact himp htime
    · exact hlisted

end Answer

/-! ## A blocked time -/

/-- Ten in the evening of the first day, with access off from half past nine
to a quarter to seven. -/
def eveningClock : Clock where
  loadLocation _ := some ⟨fun _ => (0, -2 ^ 63, 2 ^ 63 - 1)⟩
  unmarshal _ := some ⟨21, 6, 30, 45⟩
  now := ⟨79200, 0⟩
  nowFrom := ⟨79200, 1⟩
  nowTo := ⟨79200, 2⟩

/-- No lines in any filter, and no users. -/
def eveningConfig : Config where
  exceptionSites := []
  dontBump := []
  blockedMimes := []
  blockedSites := []
  stopWords := []
  strictness := 2000
  blockTimes := lit "\x7b\"fromhours\":21,\"tohours\":6,\"fromminutes\":30,\"tominutes\":45\x7d"
  timezone := lit "UTC"
  enableUsers := lit "false"

/-- At a blocked time a `CONNECT` is bumped all the same. -/
theorem blocked_time_is_bumped :
    ¬ ∀ (env : Env) (clock : Clock) (s : Config) (rt : GSRuntime) (page : GoString)
      (h : ProxyHandler) (cache : UsersCache) (r : Request),
      Enforced env clock s rt page h cache r := by
  intro hall
  have hserved := hall exampleEnv eveningClock eveningConfig (.start []) [] ⟨false, []⟩ ∅
    exampleConnect ⟨lit "http", lit "www.youtube.com:443", [], []⟩ (lit "10.0.0.5") (lit "10.0.0.5")
    (by decide +kernel) (.inl (by decide +kernel))
  have hbump : refuses (serveHTTP exampleEnv (runGateSentry exampleEnv eveningClock eveningConfig
      (.start []) []) ⟨false, []⟩ ∅ exampleConnect).1 = false := by
    decide +kernel
  rw [Refusal, hbump] at hserved
  cases hserved.1

end Policy

end RbiProxy
