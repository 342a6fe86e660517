import RbiProxy.LogEntries
import RbiProxy.ResponsePath

/-!
# The statistics

`SliceEntries` of `handler_stats.go`: for each date the entries of the log that a
question is about are counted by URL, and the counts put into a list that is
sorted anew with every URL added to it. The orders in which the map of the counts
is walked, and the sort, are parameters.

What counts as blocked is compared with what `ServeHTTP` logs. `policyLog` and
`responseLog` are its calls of the `LogHandler`, along the way of a request and
that of its response, and `mem_refusals_iff` says which actions are logged where a
request or its content is refused. `SliceEntries` leaves one of them out, and has
two that are not logged (`sliceEntries_exact`).
-/

namespace RbiProxy

namespace Proxy

def ProxyAction.text : ProxyAction → GoString
  | .unset => []
  | .blockedTextContent => lit "blocked_text_content"
  | .blockedMediaContent => lit "blocked_media_content"
  | .blockedFileType => lit "blocked_file_type"
  | .blockedTime => lit "blocked_time"
  | .blockedInternetForUser => lit "blocked_internet_for_user"
  | .userNotFound => lit "user_not_found"
  | .userActive => lit "user_active"
  | .blockedUrl => lit "blocked_url"
  | .sslDirect => lit "ssldirect"
  | .sslBump => lit "ssl-bump"
  | .filterError => lit "filtererror"
  | .filterNone => lit "filternone"

end Proxy

namespace Stats

open Log Proxy Response

/-! ## What is logged -/

/-- The action that `ServeHTTP` logs up to the choice of what is done with a
request. A bumped connection is logged elsewhere. -/
def policyLog (env : Env) (p : GSProxy) (method : GoString) (url : URL)
    (isHostLanAddress : Bool) (user : GoString) : Option ProxyAction :=
  let target := targetURL env method url
  if (p.timeAccessHandler (env.urlString url) user).1 = .blockedTime then some .blockedTime
  else if (p.urlAccessHandler (env.urlString target) user).1 = .blockedUrl then some .blockedUrl
  else if p.contentTypeHandler (env.urlString target)
      (getMimeByExtension env (getFileExtensionFromUrl (env.urlString target)))
        = .blockedFileType then
    some .blockedFileType
  else if chooseAction env p method target isHostLanAddress = .sslBump then none
  else if method = connect then some .sslDirect
  else none

/-- The action that it logs for a response. -/
def responseLog (p : GSProxy) (lib : Library) (handlers : Handlers) (maxContentScanSize : Nat)
    (x : Exchange) : Option ProxyAction :=
  if p.contentTypeHandler x.url x.contentType = .blockedFileType then some .blockedFileType
  else
    let buf := x.body.take maxContentScanSize
    let data := localCopyData lib x buf
    if maxContentScanSize - buf.length = 0 then none
    else
      let contentType := (lib.kind data).getD x.contentType
      match scanMedia lib handlers x data contentType buf .new with
      | (true, _) => some .filterNone
      | (false, w) =>
        match scanText handlers x data contentType w with
        | (true, _) => some .blockedTextContent
        | (false, _) => none

/-- The request is answered by the proxy itself. -/
def refuses : Served → Bool
  | .error .. | .authRequired | .block _ | .redirect _ => true
  | .bump .. | .tunnel .. | .forward .. => false

/-- The type of a response is blocked, or something that blocks is written in its
place. -/
def RefusesResponse (p : GSProxy) (lib : Library) (handlers : Handlers)
    (maxContentScanSize : Nat) (x : Exchange) : Prop :=
  p.contentTypeHandler x.url x.contentType = .blockedFileType
    ∨ ∃ body ∈ (respond lib handlers maxContentScanSize x).bodies, body.blocks = true

/-- `ServeHTTP` logs the action where it refuses a request or its content. -/
def RefusalLogged (a : ProxyAction) : Prop :=
  (∃ env p method url lan user authUser, policyLog env p method url lan user = some a
      ∧ refuses (applyPolicy env p method url lan user authUser) = true)
    ∨ ∃ p lib handlers max x, responseLog p lib handlers max x = some a
      ∧ RefusesResponse p lib handlers max x

/-! ## The counts -/

structure URLGroup where
  url : GoString
  count : Nat
deriving DecidableEq

structure HostGroupWithTotal where
  total : Nat
  hosts : List URLGroup

def counted (responseType : GoString) (entry : LogEntry) : Bool :=
  if (entry.type = lit "dns" ∧ responseType = lit "all")
      ∨ (entry.type = lit "proxy" ∧ responseType = lit "all") then true
  else if entry.type = lit "dns" ∧ entry.dnsResponseType = responseType then true
  else if entry.type = lit "proxy" ∧ responseType = lit "blocked" then
    decide (entry.proxyResponseType = ProxyAction.blockedTextContent.text
      ∨ entry.proxyResponseType = ProxyAction.blockedMediaContent.text
      ∨ entry.proxyResponseType = ProxyAction.blockedFileType.text
      ∨ entry.proxyResponseType = ProxyAction.blockedTime.text
      ∨ entry.proxyResponseType = ProxyAction.blockedInternetForUser.text)
  else false

/-- `urlCounts[entry.URL]++`, for the entries that are counted. -/
def countEntry (responseType : GoString) (urlCounts : GoMap GoString Nat) (entry : LogEntry) :
    GoMap GoString Nat :=
  if counted responseType entry then
    urlCounts.insert entry.url (urlCounts.get entry.url 0 + 1)
  else urlCounts

/-- The entries of a map, as `range` gives them in some order. -/
def pairs (m : GoMap GoString Nat) : List URLGroup := m.entries.map fun e => ⟨e.1, e.2⟩

section Groups

-- `sort.Slice` by falling count
variable (sort : List URLGroup → List URLGroup)

/-- One round of the loop over the counts. -/
def addGroup (g : HostGroupWithTotal) (group : URLGroup) : HostGroupWithTotal :=
  ⟨g.total + group.count, sort (g.hosts ++ [group])⟩

-- the order in which `range` gives the counts of a date
variable (order : GoString → GoMap GoString Nat → List URLGroup)

def groupDate (responseType currentDate : GoString) (entries : List LogEntry) :
    HostGroupWithTotal :=
  let urlCounts := entries.foldl (countEntry responseType) ∅
  (order currentDate urlCounts).foldl (addGroup sort) ⟨0, []⟩

def sliceEntries (logs : GoMap GoString (List LogEntry)) (responseType : GoString) :
    GoMap GoString HostGroupWithTotal :=
  (logs.entries.map fun e => (e.1, groupDate sort order responseType e.1 e.2)).foldl
    (fun outputData e => outputData.insert e.1 e.2) ∅

end Groups

/-! ## What they are to be -/

/-- The actions that say that a request or its content was refused. -/
def refusals : List ProxyAction :=
  [.blockedTime, .blockedUrl, .blockedFileType, .blockedTextContent]

/-- The entries that the question for all is about. -/
def selectedAll (entry : LogEntry) : Bool :=
  decide (entry.type = lit "dns") || decide (entry.type = lit "proxy")

/-- The entries that the question for the blocked ones is about. -/
def selectedBlocked (entry : LogEntry) : Bool :=
  (decide (entry.type = lit "dns") && decide (entry.dnsResponseType = lit "blocked"))
    || (decide (entry.type = lit "proxy")
      && refusals.any fun a => decide (entry.proxyResponseType = a.text))

/-- The group of a date counts the selected entries. -/
structure Exact (responseType : GoString) (selected : LogEntry → Bool) (entries : List LogEntry)
    (g : HostGroupWithTotal) : Prop where
  selection : ∀ e ∈ entries, counted responseType e = selected e
  once : (g.hosts.map URLGroup.url).Nodup
  sorted : g.hosts.Pairwise fun a b => b.count ≤ a.count
  counts : ∀ u n, ⟨u, n⟩ ∈ g.hosts
    ↔ 0 < n ∧ n = entries.countP fun e => selected e && decide (e.url = u)
  total : g.total = (g.hosts.map URLGroup.count).sum

/-- The result has the dates of the log, each with its group. -/
def ExactDates (responseType : GoString) (selected : LogEntry → Bool)
    (logs : GoMap GoString (List LogEntry)) (out : GoMap GoString HostGroupWithTotal) : Prop :=
  ∀ date, match logs.lookup date with
    | none => out.lookup date = none
    | some entries => ∃ g, out.lookup date = some g ∧ Exact responseType selected entries g

/-! ## Which refusals are logged -/

/-- Handlers that answer everything with one action. -/
def alwaysProxy (a : ProxyAction) : GSProxy where
  isAuthEnabled := false
  authHandler _ := false
  userAccessHandler _ := (a, [])
  timeAccessHandler _ _ := (a, [])
  urlAccessHandler _ _ := (a, [])
  contentTypeHandler _ _ := a
  doMitm _ := false
  isExceptionUrl _ := false

def alwaysHandlers (a : ProxyAction) : Handlers where
  contentHandler _ := (a, [])
  proxyErrorHandler _ := []

def plainEnv : Env where
  urlString url := url.path
  parseIP _ := none
  typeByExtension _ := []
  lowerTable r := r
  isolateHosts := []

def plainLibrary : Library where
  kind _ := none
  isAudio _ := false
  isVideo _ := false
  isImage _ := false
  unmarshal _ := .ok []
  createImageWithText _ := []
  stripIconLinks s := s
  consoleRebrand := []

def emptyPage : Exchange := ⟨[], [], [], none, false, [], false, .ready⟩

theorem policyLog_refused {env : Env} {p : GSProxy} {method : GoString} {url : URL} {lan : Bool}
    {user authUser : GoString} {a : ProxyAction}
    (hlog : policyLog env p method url lan user = some a)
    (hrefused : refuses (applyPolicy env p method url lan user authUser) = true) :
    a ∈ refusals := by
  unfold policyLog at hlog
  unfold applyPolicy applyFilters at hrefused
  dsimp only at hlog
  by_cases htime : (p.timeAccessHandler (env.urlString url) user).1 = .blockedTime
  · rw [if_pos htime] at hlog
    obtain rfl := Option.some.inj hlog
    decide
  rw [if_neg htime] at hlog hrefused
  by_cases hurl :
      (p.urlAccessHandler (env.urlString (targetURL env method url)) user).1 = .blockedUrl
  · rw [if_pos hurl] at hlog
    obtain rfl := Option.some.inj hlog
    decide
  rw [if_neg hurl] at hlog hrefused
  by_cases htype : p.contentTypeHandler (env.urlString (targetURL env method url))
      (getMimeByExtension env (getFileExtensionFromUrl (env.urlString (targetURL env method url))))
        = .blockedFileType
  · rw [if_pos htype] at hlog
    obtain rfl := Option.some.inj hlog
    decide
  rw [if_neg htype] at hlog hrefused
  -- what is left are the three ways on, and none of them is a refusal
  by_cases hbump : chooseAction env p method (targetURL env method url) lan = .sslBump
  · rw [if_pos hbump] at hlog
    cases hlog
  rw [if_neg hbump] at hlog hrefused
  by_cases hconnect : method = connect
  · rw [if_pos hconnect] at hrefused
    cases hrefused
  · rw [if_neg hconnect] at hlog
    cases hlog

/-- Content that `ScanMedia` lets through is the only body. -/
theorem bodies_of_scanMedia {lib : Library} {handlers : Handlers} {x : Exchange}
    {data contentType buf : GoString} {w : Writer}
    (h : scanMedia lib handlers x data contentType buf .new = (true, w)) :
    w.bodies = [.content buf false] := by
  unfold scanMedia at h
  split at h
  · dsimp only at h
    split at h
    · cases h
    · obtain ⟨-, rfl⟩ := Prod.mk.inj h
      rfl
  · cases h

theorem responseLog_refused {p : GSProxy} {lib : Library} {handlers : Handlers} {max : Nat}
    {x : Exchange} {a : ProxyAction} (hlog : responseLog p lib handlers max x = some a)
    (hrefused : RefusesResponse p lib handlers max x) : a ∈ refusals := by
  unfold responseLog at hlog
  by_cases htype : p.contentTypeHandler x.url x.contentType = .blockedFileType
  · rw [if_pos htype] at hlog
    obtain rfl := Option.some.inj hlog
    decide
  rw [if_neg htype] at hlog
  obtain ⟨body, hmem, hblocks⟩ := hrefused.resolve_left htype
  unfold respond at hmem
  dsimp only at hlog hmem
  by_cases hlong : max - (x.body.take max).length = 0
  · rw [if_pos hlong] at hlog
    cases hlog
  rw [if_neg hlong] at hlog hmem
  cases hmedia : scanMedia lib handlers x (localCopyData lib x (x.body.take max))
      ((lib.kind (localCopyData lib x (x.body.take max))).getD x.contentType)
      (x.body.take max) .new with
  | mk sent w =>
      rw [hmedia] at hlog hmem
      cases sent with
      | true =>
          dsimp only at hmem
          rw [bodies_of_scanMedia hmedia, List.mem_singleton] at hmem
          rw [hmem] at hblocks
          cases hblocks
      | false =>
          dsimp only at hlog
          split at hlog
          · obtain rfl := Option.some.inj hlog
            decide
          · cases hlog

theorem mem_refusals_iff (a : ProxyAction) : a ∈ refusals ↔ RefusalLogged a := by
  constructor
  · intro h
    have hpolicy : a ∈ [ProxyAction.blockedTime, .blockedUrl, .blockedFileType] →
        policyLog plainEnv (alwaysProxy a) [] ⟨[], [], [], []⟩ false [] = some a
          ∧ refuses (applyPolicy plainEnv (alwaysProxy a) [] ⟨[], [], [], []⟩ false [] []) = true :=
        by
      revert a
      decide +kernel
    by_cases htext : a = .blockedTextContent
    · subst htext
      refine .inr ⟨alwaysProxy .blockedTextContent, plainLibrary,
        alwaysHandlers .blockedTextContent, 1, emptyPage, by decide +kernel,
        .inr ⟨.page [], by decide +kernel, rfl⟩⟩
    · refine .inl ⟨_, _, _, _, _, _, _, hpolicy ?_⟩
      simp only [refusals, List.mem_cons, List.not_mem_nil, or_false] at h ⊢
      tauto
  · rintro (⟨env, p, method, url, lan, user, authUser, hlog, hrefused⟩ |
      ⟨p, lib, handlers, max, x, hlog, hrefused⟩)
    · exact policyLog_refused hlog hrefused
    · exact responseLog_refused hlog hrefused

/-! ## The counts of a date -/

theorem get_countEntries (responseType : GoString) (entries : List LogEntry)
    (m : GoMap GoString Nat) (u : GoString) :
    (entries.foldl (countEntry responseType) m).get u 0
      = m.get u 0 + entries.countP fun e => counted responseType e && decide (e.url = u) := by
  induction entries generalizing m with
  | nil => rfl
  | cons e entries ih =>
      rw [List.foldl_cons, ih, List.countP_cons, countEntry]
      cases counted responseType e with
      | false => simp
      | true =>
          by_cases hu : u = e.url
          · subst hu
            simp [Nat.add_assoc, Nat.add_comm 1]
          · rw [if_pos rfl, GoMap.get_insert_ne hu]
            simp [Ne.symm hu]

def Positive (m : GoMap GoString Nat) : Prop := ∀ u n, m.lookup u = some n → 0 < n

theorem positive_countEntries (responseType : GoString) (entries : List LogEntry)
    {m : GoMap GoString Nat} (h : Positive m) :
    Positive (entries.foldl (countEntry responseType) m) := by
  induction entries generalizing m with
  | nil => exact h
  | cons e entries ih =>
      rw [List.foldl_cons]
      refine ih ?_
      unfold countEntry
      split
      · intro u n hlookup
        obtain ⟨-, rfl⟩ | ⟨-, hold⟩ := GoMap.of_lookup_insert hlookup
        · exact Nat.succ_pos _
        · exact h u n hold
      · exact h

theorem lookup_countEntries (responseType : GoString) (entries : List LogEntry) (u : GoString)
    (n : Nat) :
    (entries.foldl (countEntry responseType) ∅).lookup u = some n
      ↔ 0 < n ∧ n = entries.countP fun e => counted responseType e && decide (e.url = u) := by
  have hget := get_countEntries responseType entries ∅ u
  have hpos : Positive (entries.foldl (countEntry responseType) ∅) :=
    positive_countEntries responseType entries fun u n h => by cases h
  rw [GoMap.get_empty, Nat.zero_add] at hget
  rw [← hget, GoMap.get]
  cases hlookup : (entries.foldl (countEntry responseType) ∅).lookup u with
  | none =>
      refine iff_of_false (fun h => by cases h) ?_
      rintro ⟨hn, hzero⟩
      exact absurd hzero (Nat.ne_of_gt hn)
  | some k =>
      have hk := hpos u k hlookup
      rw [Option.getD_some, Option.some.injEq]
      constructor
      · rintro rfl
        exact ⟨hk, rfl⟩
      · exact fun h => h.2.symm

theorem mem_pairs {m : GoMap GoString Nat} {u : GoString} {n : Nat} :
    (⟨u, n⟩ : URLGroup) ∈ pairs m ↔ m.lookup u = some n := by
  rw [pairs, List.mem_map, ← Option.mem_def, AList.mem_lookup_iff]
  constructor
  · rintro ⟨e, he, heq⟩
    obtain ⟨rfl, rfl⟩ := URLGroup.mk.inj heq
    exact he
  · exact fun h => ⟨⟨u, n⟩, h, rfl⟩

theorem nodup_pairs (m : GoMap GoString Nat) : ((pairs m).map URLGroup.url).Nodup := by
  rw [pairs, List.map_map]
  exact m.nodupKeys

section Exactness

variable {sort : List URLGroup → List URLGroup}
  {order : GoString → GoMap GoString Nat → List URLGroup}

/-- `sort.Slice` rearranges a slice so that it is in order. -/
structure Sorts (sort : List URLGroup → List URLGroup) : Prop where
  perm : ∀ l, (sort l).Perm l
  sorted : ∀ l, (sort l).Pairwise fun a b => b.count ≤ a.count

/-- `range` gives every entry of a map once. -/
def Ranges (order : GoString → GoMap GoString Nat → List URLGroup) : Prop :=
  ∀ date m, (order date m).Perm (pairs m)

/-- The loop over the counts: nothing is lost, and the list is in order. -/
theorem addGroups_spec (hsort : Sorts sort) (groups : List URLGroup) {g : HostGroupWithTotal}
    (hsorted : g.hosts.Pairwise fun a b => b.count ≤ a.count) :
    (groups.foldl (addGroup sort) g).hosts.Perm (g.hosts ++ groups)
      ∧ (groups.foldl (addGroup sort) g).hosts.Pairwise (fun a b => b.count ≤ a.count)
      ∧ (groups.foldl (addGroup sort) g).total = g.total + (groups.map URLGroup.count).sum := by
  induction groups generalizing g with
  | nil => exact ⟨by rw [List.append_nil]; exact List.Perm.refl _, hsorted, rfl⟩
  | cons group groups ih =>
      obtain ⟨hperm, horder, htotal⟩ := ih (g := addGroup sort g group) (hsort.sorted _)
      have hstep : (addGroup sort g group).hosts.Perm (g.hosts ++ [group]) := hsort.perm _
      refine ⟨?_, horder, ?_⟩
      · have hcat := hstep.append_right groups
        rw [List.append_assoc] at hcat
        exact hperm.trans hcat
      · rw [List.foldl_cons, htotal, addGroup, List.map_cons, List.sum_cons, Nat.add_assoc]

/-- **One date.** The group counts the entries that the code selects. -/
theorem groupDate_spec (hsort : Sorts sort) (horder : Ranges order) (responseType date : GoString)
    (entries : List LogEntry) :
    Exact responseType (counted responseType) entries
      (groupDate sort order responseType date entries) := by
  obtain ⟨hperm, hsorted, htotal⟩ := addGroups_spec hsort
    (order date (entries.foldl (countEntry responseType) ∅)) (g := ⟨0, []⟩) List.Pairwise.nil
  rw [List.nil_append] at hperm
  have hpairs := hperm.trans (horder date (entries.foldl (countEntry responseType) ∅))
  refine ⟨fun _ _ => rfl, ?_, hsorted, fun u n => ?_, ?_⟩
  · exact (hpairs.map URLGroup.url).nodup_iff.mpr (nodup_pairs _)
  · rw [groupDate, hpairs.mem_iff, mem_pairs, lookup_countEntries]
  · rw [groupDate, htotal, Nat.zero_add]
    exact ((hperm.map URLGroup.count).sum_eq).symm

/-- Which entries are selected is all that can be wrong. -/
theorem exact_groupDate_iff (hsort : Sorts sort) (horder : Ranges order)
    (responseType date : GoString) (selected : LogEntry → Bool) (entries : List LogEntry) :
    Exact responseType selected entries (groupDate sort order responseType date entries)
      ↔ ∀ e ∈ entries, counted responseType e = selected e := by
  refine ⟨fun h => h.selection, fun hsame => ?_⟩
  have hspec := groupDate_spec hsort horder responseType date entries
  refine ⟨hsame, hspec.once, hspec.sorted, fun u n => ?_, hspec.total⟩
  rw [hspec.counts]
  have hcount : (entries.countP fun e => counted responseType e && decide (e.url = u))
      = entries.countP fun e => selected e && decide (e.url = u) :=
    List.countP_congr fun e he => by rw [hsame e he]
  rw [hcount]

theorem lookup_sliceEntries (logs : GoMap GoString (List LogEntry)) (responseType date : GoString) :
    (sliceEntries sort order logs responseType).lookup date
      = (logs.lookup date).map (groupDate sort order responseType date) := by
  have hkeys : (logs.entries.map fun e => (e.1, groupDate sort order responseType e.1 e.2)).map
      Prod.fst = logs.keys := by
    rw [List.map_map]
    rfl
  rw [sliceEntries]
  cases hlookup : logs.lookup date with
  | none =>
      rw [GoMap.lookup_insertAll_of_notMem]
      · rfl
      · rw [hkeys]
        exact AList.lookup_eq_none.mp hlookup
  | some entries =>
      refine GoMap.lookup_insertAll_of_mem (hkeys ▸ logs.nodupKeys) ?_ ∅
      have hmem := AList.mem_lookup_iff.mp (Option.mem_def.mpr hlookup)
      exact List.mem_map.mpr ⟨⟨date, entries⟩, hmem, rfl⟩

theorem exactDates_iff (hsort : Sorts sort) (horder : Ranges order) (responseType : GoString)
    (selected : LogEntry → Bool) (logs : GoMap GoString (List LogEntry)) :
    ExactDates responseType selected logs (sliceEntries sort order logs responseType)
      ↔ ∀ date entries, logs.lookup date = some entries →
          ∀ e ∈ entries, counted responseType e = selected e := by
  unfold ExactDates
  refine forall_congr' fun date => ?_
  rw [lookup_sliceEntries]
  cases hlookup : logs.lookup date with
  | none => exact iff_of_true rfl fun entries h => by cases h
  | some entries =>
      dsimp only
      rw [Option.map_some]
      simp only [Option.some.injEq, exists_eq_left', forall_eq']
      exact exact_groupDate_iff hsort horder responseType date selected entries

/-! ## The selection -/

theorem counted_all (e : LogEntry) : counted (lit "all") e = selectedAll e := by
  unfold counted selectedAll
  by_cases hdns : e.type = lit "dns"
  · simp [hdns]
  · by_cases hproxy : e.type = lit "proxy"
    · simp [hproxy]
    · simp [hdns, hproxy]

/-- The actions of a proxy entry on which the two differ. -/
def Miscounted (e : LogEntry) : Prop :=
  e.type = lit "proxy"
    ∧ (e.proxyResponseType = ProxyAction.blockedUrl.text
      ∨ e.proxyResponseType = ProxyAction.blockedMediaContent.text
      ∨ e.proxyResponseType = ProxyAction.blockedInternetForUser.text)

theorem actions_agree_iff (t : GoString) :
    (decide (t = ProxyAction.blockedTextContent.text ∨ t = ProxyAction.blockedMediaContent.text
        ∨ t = ProxyAction.blockedFileType.text ∨ t = ProxyAction.blockedTime.text
        ∨ t = ProxyAction.blockedInternetForUser.text)
      = refusals.any fun a => decide (t = a.text))
      ↔ ¬ (t = ProxyAction.blockedUrl.text ∨ t = ProxyAction.blockedMediaContent.text
        ∨ t = ProxyAction.blockedInternetForUser.text) := by
  by_cases ht : t ∈ [ProxyAction.blockedTextContent.text, ProxyAction.blockedMediaContent.text,
      ProxyAction.blockedFileType.text, ProxyAction.blockedTime.text,
      ProxyAction.blockedInternetForUser.text, ProxyAction.blockedUrl.text]
  · revert t
    decide +kernel
  · simp only [List.mem_cons, List.not_mem_nil, or_false, not_or] at ht
    simp [refusals, ht]

theorem counted_blocked_iff (e : LogEntry) :
    counted (lit "blocked") e = selectedBlocked e ↔ ¬ Miscounted e := by
  have hall : lit "blocked" ≠ lit "all" := by decide
  have hother : lit "proxy" ≠ lit "dns" := by decide
  unfold counted selectedBlocked Miscounted
  by_cases hdns : e.type = lit "dns"
  · simp [hdns, hall, hother.symm]
  · by_cases hproxy : e.type = lit "proxy"
    · simp only [hproxy, hall, hother, and_false, or_false, false_and, if_false, true_and, and_true,
        if_true, decide_true, decide_false, Bool.true_and, Bool.false_and, Bool.false_or]
      exact actions_agree_iff e.proxyResponseType
    · simp [hdns, hproxy]

/-- **Statistics.** For every log, whatever the orders of the maps: the counts for
all are exact, and those for the blocked ones are exactly if no entry of a proxy
has an action that `SliceEntries` leaves out, or that is not logged for a refusal. -/
theorem sliceEntries_exact (hsort : Sorts sort) (horder : Ranges order)
    (logs : GoMap GoString (List LogEntry)) :
    (∀ a, a ∈ refusals ↔ RefusalLogged a)
      ∧ ExactDates (lit "all") selectedAll logs (sliceEntries sort order logs (lit "all"))
      ∧ (ExactDates (lit "blocked") selectedBlocked logs
            (sliceEntries sort order logs (lit "blocked"))
          ↔ ∀ date entries, logs.lookup date = some entries → ∀ e ∈ entries, ¬ Miscounted e) := by
  refine ⟨mem_refusals_iff, ?_, ?_⟩
  · exact (exactDates_iff hsort horder _ _ logs).mpr fun _ _ _ e _ => counted_all e
  · rw [exactDates_iff hsort horder]
    simp only [counted_blocked_iff]

end Exactness

/-- A stable sort and the order of the entries. -/
def stableSort (l : List URLGroup) : List URLGroup :=
  l.mergeSort fun a b => decide (b.count ≤ a.count)

theorem sorts_stableSort : Sorts stableSort where
  perm l := List.mergeSort_perm l _
  sorted l := by
    have htrans : ∀ a b c : URLGroup, decide (b.count ≤ a.count) = true →
        decide (c.count ≤ b.count) = true → decide (c.count ≤ a.count) = true := by
      intro a b c hab hbc
      rw [decide_eq_true_eq] at *
      exact Nat.le_trans hbc hab
    have htotal : ∀ a b : URLGroup,
        (decide (b.count ≤ a.count) || decide (a.count ≤ b.count)) = true := by
      intro a b
      rw [Bool.or_eq_true, decide_eq_true_eq, decide_eq_true_eq]
      exact Nat.le_total _ _
    have hsorted := List.pairwise_mergeSort htrans htotal l
    simp only [decide_eq_true_eq] at hsorted
    exact hsorted

theorem ranges_pairs : Ranges fun _ => pairs := fun _ _ => List.Perm.refl _

/-- A log of one day, with an entry for a page whose URL was blocked. -/
def blockedPage : GoMap GoString (List LogEntry) :=
  AList.singleton (lit "2024-01-01") [{ url := lit "bad.example", type := lit "proxy"
                                        proxyResponseType := lit "blocked_url" }]

/-- Two days with pages and names, of which some were blocked. -/
def twoDays : GoMap GoString (List LogEntry) :=
  let text (url : GoString) : LogEntry :=
    { url, type := lit "proxy", proxyResponseType := lit "blocked_text_content" }
  let page (url : GoString) : LogEntry :=
    { url, type := lit "proxy", proxyResponseType := lit "ssldirect" }
  let name (url answer : GoString) : LogEntry :=
    { url, type := lit "dns", dnsResponseType := answer }
  (AList.singleton (lit "2024-01-01")
    [text (lit "a.example"), page (lit "b.example"), name (lit "c.example") (lit "blocked"),
      name (lit "b.example") (lit "forward"), text (lit "a.example")]).insert
    (lit "2024-01-02") [name (lit "a.example") (lit "blocked"), page (lit "a.example")]

theorem sliceEntries_exact_example :
    ExactDates (lit "all") selectedAll twoDays
        (sliceEntries stableSort (fun _ => pairs) twoDays (lit "all"))
      ∧ ExactDates (lit "blocked") selectedBlocked twoDays
        (sliceEntries stableSort (fun _ => pairs) twoDays (lit "blocked"))
      ∧ ∃ g, (sliceEntries stableSort (fun _ => pairs) twoDays (lit "blocked")).lookup
          (lit "2024-01-01") = some g
        ∧ ⟨lit "a.example", 2⟩ ∈ g.hosts ∧ ⟨lit "c.example", 1⟩ ∈ g.hosts
        ∧ ∀ n, ⟨lit "b.example", n⟩ ∉ g.hosts := by
  obtain ⟨-, hall, hblocked⟩ := sliceEntries_exact sorts_stableSort ranges_pairs twoDays
  have hfine : ∀ day ∈ twoDays.entries, ∀ e ∈ day.2, ¬ Miscounted e := by
    unfold Miscounted
    decide +kernel
  have hexact := hblocked.mpr fun date entries hlookup e he =>
    hfine ⟨date, entries⟩ (AList.mem_lookup_iff.mp hlookup) e he
  obtain ⟨g, hlookup, hg⟩ := hexact (lit "2024-01-01")
  refine ⟨hall, hexact, g, hlookup, (hg.counts _ _).mpr (by decide), (hg.counts _ _).mpr (by decide),
    fun n hn => ?_⟩
  obtain ⟨hpos, hcount⟩ := (hg.counts _ _).mp hn
  have hnone : n = 0 := hcount.trans (by decide)
  omega

theorem blocked_url_is_not_counted :
    ¬ ∀ logs : GoMap GoString (List LogEntry),
      ExactDates (lit "blocked") selectedBlocked logs
        (sliceEntries stableSort (fun _ => pairs) logs (lit "blocked")) := by
  intro h
  obtain ⟨g, -, hexact⟩ := h blockedPage (lit "2024-01-01")
  have hsame := hexact.selection _ List.mem_cons_self
  revert hsame
  decide +kernel

end Stats

end RbiProxy
