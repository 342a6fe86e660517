import RbiProxy.GoMap
import RbiProxy.GoString
import RbiProxy.Reach

/-!
# The tables of the DNS server

The three tables `handleDNSRequest` looks names up in, and `InitializeFilters`,
which the scheduler runs to fill them anew: the tables are replaced by empty
ones, the internal records are read from the settings, and every blocklist is
downloaded and merged by a goroutine of its own.

A `Server` is the tables together with where the refresh stands; each action is
one step of it, in the order the code takes them, with the downloads and merges
in any order. What the settings and the network give is part of the action. An
action that is not due changes nothing. `entries` and `merged` say what the
tables were filled from (`run_filled`).
-/

namespace RbiProxy

namespace Dns

/-! ## Blocklists -/

inductive FetchError where
  | download
  | read
  /-- `parts[0]` of a line of white space. This ends the program, so no query
  comes after it. -/
  | panics
deriving DecidableEq

/-- The answer to `http.Get`: `none` for an error, else the body, and whether it
was read to its end. -/
abbrev Download := Option (GoString × Bool)

def maxScanTokenSize : Nat := 64 * 1024

/-- The lines of a text, as `bufio.ScanLines` cuts it. -/
def rawLines (s : GoString) : List GoString :=
  let lines := s.splitOn 10
  if lines.getLast? = some [] then lines.dropLast else lines

def lineDomain (line : GoString) : Except FetchError (Option GoString) :=
  if hasPrefix line (lit "#") ∨ line = [] then .ok none
  else
    match fields line with
    | ip :: domain :: _ => .ok (if ip = lit "0.0.0.0" ∨ ip = lit "::1" then some domain else none)
    | [domain] => .ok (some domain)
    | [] => .error .panics

def scanDomains : List GoString → Except FetchError (List GoString)
  | [] => .ok []
  | line :: lines =>
    if maxScanTokenSize ≤ line.length then .error .read
    else do
      let domain ← lineDomain (trimSuffix line [13])
      let domains ← scanDomains lines
      return domain.toList ++ domains

def fetchDomainsFromBlocklist : Download → Except FetchError (List GoString)
  | none => .error .download
  | some (body, complete) => do
    let domains ← scanDomains (rawLines body)
    if complete then return domains else throw .read

/-! ## Tables -/

structure DNSCustomEntry where
  ip : GoString
  domain : GoString
deriving DecidableEq

structure Tables where
  blockedDomains : GoMap GoString Bool := ∅
  internalRecords : GoMap GoString GoString := ∅
  exceptionDomains : GoMap GoString Bool := ∅

/-- The records of `InitializeInternalRecords`; of two entries for a domain the
later one counts. -/
def initializeInternalRecords (entries : List DNSCustomEntry) : GoMap GoString GoString :=
  entries.foldl (fun records entry => records.insert entry.domain entry.ip) ∅

def addDomainsToBlockedMap (blocked : GoMap GoString Bool) (domains : List GoString) :
    GoMap GoString Bool :=
  domains.foldl (fun blocked domain => blocked.insert domain true) blocked

/-! ## The refresh -/

/-- What the refresh does next. -/
inductive Stage where
  | idle
  | resetLists
  | resetInternal
  | resetExceptions
  | readLists
  | loadInternal
  | downloads
  | loadExceptions
deriving DecidableEq

/-- The tables and the refresh that fills them. -/
structure Server where
  tables : Tables := {}
  blockedLists : List GoString := []
  stage : Stage := .idle
  /-- The lists whose download has not ended. -/
  pending : List GoString := []
  /-- What has been downloaded and not yet merged. -/
  fetched : List (List GoString) := []
  /-- The entries the internal records were made of. -/
  entries : List DNSCustomEntry := []
  /-- The lists merged since the table was made. -/
  merged : List (List GoString) := []

inductive Action where
  | resetBlocked
  | resetLists
  | resetInternal
  | resetExceptions
  /-- The URLs under `dns_custom_entries`; `none` if they do not decode. -/
  | readLists (urls : Option (List GoString))
  /-- The records under `DNS_custom_entries`. -/
  | loadInternal (entries : List DNSCustomEntry)
  | fetch (url : GoString) (download : Download)
  /-- The goroutine of the `i`-th list of `fetched` gets the lock. -/
  | merge (i : Nat)
  /-- `wg.Wait` returns. -/
  | wait
  /-- `InitializeExceptionDomains` adds nothing. -/
  | loadExceptions

/-- `custom_entries_array` without repetitions. -/
def addLists (urls : List GoString) : List GoString :=
  urls.foldl (fun lists url => if lists.contains url then lists else lists ++ [url]) []

namespace Server

def step (s : Server) : Action → Server
  | .resetBlocked =>
    if s.stage = .idle then
      { s with tables.blockedDomains := ∅, merged := [], stage := .resetLists }
    else s
  | .resetLists =>
    if s.stage = .resetLists then { s with blockedLists := [], stage := .resetInternal } else s
  | .resetInternal =>
    if s.stage = .resetInternal then
      { s with tables.internalRecords := ∅, entries := [], stage := .resetExceptions }
    else s
  | .resetExceptions =>
    if s.stage = .resetExceptions then
      { s with tables.exceptionDomains := ∅, stage := .readLists }
    else s
  | .readLists urls =>
    if s.stage = .readLists then
      { s with blockedLists := addLists (urls.getD []), stage := .loadInternal }
    else s
  | .loadInternal entries =>
    if s.stage = .loadInternal then
      { s with
        tables.internalRecords := initializeInternalRecords entries
        entries := entries
        pending := s.blockedLists
        stage := .downloads }
    else s
  | .fetch url download =>
    if s.stage = .downloads ∧ s.pending.contains url = true then
      let s := { s with pending := s.pending.erase url }
      match fetchDomainsFromBlocklist download with
      | .ok domains => { s with fetched := s.fetched ++ [domains] }
      | .error _ => s
    else s
  | .merge i =>
    match s.fetched[i]? with
    | some domains =>
      { s with
        tables.blockedDomains := addDomainsToBlockedMap s.tables.blockedDomains domains
        fetched := s.fetched.eraseIdx i
        merged := s.merged ++ [domains] }
    | none => s
  | .wait =>
    if s.stage = .downloads ∧ s.pending = [] ∧ s.fetched = [] then
      { s with stage := .loadExceptions }
    else s
  | .loadExceptions => if s.stage = .loadExceptions then { s with stage := .idle } else s

/-- A run of the refresh, from the tables the program starts with. -/
def run (as : List Action) : Server := as.foldl step {}

end Server

/-! ## What the tables hold -/

theorem get_addDomains (domains : List GoString) (blocked : GoMap GoString Bool) (d : GoString) :
    (addDomainsToBlockedMap blocked domains).get d false = true
      ↔ blocked.get d false = true ∨ d ∈ domains := by
  induction domains generalizing blocked with
  | nil => simp [addDomainsToBlockedMap]
  | cons domain domains ih =>
      have hcons : addDomainsToBlockedMap blocked (domain :: domains)
          = addDomainsToBlockedMap (blocked.insert domain true) domains := rfl
      rw [hcons, ih, List.mem_cons]
      by_cases hd : d = domain
      · subst hd
        simp
      · rw [GoMap.get_insert_ne hd]
        simp [hd]

theorem initializeInternalRecords_concat (entries : List DNSCustomEntry) (entry : DNSCustomEntry) :
    initializeInternalRecords (entries ++ [entry])
      = (initializeInternalRecords entries).insert entry.domain entry.ip := by
  rw [initializeInternalRecords, List.foldl_append]
  rfl

theorem exists_entry_of_lookup {entries : List DNSCustomEntry} {d ip : GoString}
    (h : (initializeInternalRecords entries).lookup d = some ip) :
    ∃ entry ∈ entries, entry.domain = d ∧ entry.ip = ip := by
  induction entries using List.reverseRecOn with
  | nil => cases h
  | append_singleton entries entry ih =>
      rw [initializeInternalRecords_concat] at h
      obtain ⟨rfl, rfl⟩ | ⟨-, hold⟩ := GoMap.of_lookup_insert h
      · exact ⟨entry, by simp, rfl, rfl⟩
      · obtain ⟨e, he, heq⟩ := ih hold
        exact ⟨e, List.mem_append_left _ he, heq⟩

theorem lookup_isSome_of_mem {entries : List DNSCustomEntry} {entry : DNSCustomEntry}
    (h : entry ∈ entries) :
    ((initializeInternalRecords entries).lookup entry.domain).isSome = true := by
  induction entries using List.reverseRecOn with
  | nil => cases h
  | append_singleton entries last ih =>
      rw [initializeInternalRecords_concat]
      by_cases heq : entry.domain = last.domain
      · rw [heq, AList.lookup_insert]
        rfl
      · rw [AList.lookup_insert_ne heq]
        obtain hmem | hlast := List.mem_append.mp h
        · exact ih hmem
        · rw [List.mem_singleton.mp hlast] at heq
          exact absurd rfl heq

namespace Server

/-- The tables are what the settings and the merged lists give. -/
structure Filled (s : Server) : Prop where
  blocked : ∀ d, s.tables.blockedDomains.get d false = true ↔ ∃ list ∈ s.merged, d ∈ list
  internal : s.tables.internalRecords = initializeInternalRecords s.entries
  exceptions : s.tables.exceptionDomains = ∅

theorem Filled.step {s : Server} (h : s.Filled) (a : Action) : (s.step a).Filled := by
  obtain ⟨hblocked, hinternal, hexceptions⟩ := h
  cases a with
  | resetBlocked =>
      rw [Server.step]
      split
      · exact ⟨by simp, hinternal, hexceptions⟩
      · exact ⟨hblocked, hinternal, hexceptions⟩
  | resetInternal =>
      rw [Server.step]
      split
      · exact ⟨hblocked, rfl, hexceptions⟩
      · exact ⟨hblocked, hinternal, hexceptions⟩
  | resetExceptions =>
      rw [Server.step]
      split
      · exact ⟨hblocked, hinternal, rfl⟩
      · exact ⟨hblocked, hinternal, hexceptions⟩
  | loadInternal entries =>
      rw [Server.step]
      split
      · exact ⟨hblocked, rfl, hexceptions⟩
      · exact ⟨hblocked, hinternal, hexceptions⟩
  | merge i =>
      rw [Server.step]
      split
      · refine ⟨fun d => ?_, hinternal, hexceptions⟩
        rw [get_addDomains, hblocked]
        simp
      · exact ⟨hblocked, hinternal, hexceptions⟩
  | fetch url download =>
      rw [Server.step]
      split
      · dsimp only
        split
        · exact ⟨hblocked, hinternal, hexceptions⟩
        · exact ⟨hblocked, hinternal, hexceptions⟩
      · exact ⟨hblocked, hinternal, hexceptions⟩
  | _ =>
      rw [Server.step]
      split
      · exact ⟨hblocked, hinternal, hexceptions⟩
      · exact ⟨hblocked, hinternal, hexceptions⟩

theorem Filled.foldl {s : Server} (h : s.Filled) (as : List Action) :
    (as.foldl Server.step s).Filled := by
  induction as generalizing s with
  | nil => exact h
  | cons a as ih => exact ih (h.step a)

theorem run_filled (as : List Action) : (run as).Filled :=
  Filled.foldl ⟨by simp, rfl, rfl⟩ as

end Server

end Dns

end RbiProxy
