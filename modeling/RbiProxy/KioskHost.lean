import Mathlib.Data.List.DropRight
import RbiProxy.GoLower
import RbiProxy.HostPolicy
import RbiProxy.RbiSession

/-!
# One name for an isolated host

The host of an isolated request is derived three times: `rbiHostOf` makes the key of
the session of it, `rbiKioskURL` the URL that the container opens, and
`entrypoint.sh` the host that the container is locked to. The first two parse the URL
with `net/url` and have a branch for what it rejects; the third is a `sed` script.

`net/url` is a parameter, of which `SplitsURL` says what the RFC does: the URL is cut
at the slashes, and what is behind the last colon of the host is a port.
`same_host_iff` says for which requests the three agree.
-/

namespace RbiProxy

namespace Rbi

open Policy

/-! ## `net/url` -/

structure ParsedURL where
  scheme : GoString
  host : GoString

def isDigit (b : UInt8) : Bool := 48 ≤ b && b ≤ 57

/-- `validOptionalPort`: nothing, or a colon and digits. -/
def validOptionalPort : GoString → Bool
  | [] => true
  | b :: digits => b == 58 && digits.all isDigit

def hostname (host : GoString) : GoString :=
  let name := cutLast host 58
  let name := if validOptionalPort (host.drop name.length) then name else host
  if hasPrefix name [91] ∧ hasSuffix name [93] then (name.drop 1).dropLast else name

/-- The configuration that `rbiHostOf` reads. -/
def configOf (parse : GoString → Option ParsedURL) (table : Rune → Rune) : Config where
  urlParse raw := (parse raw).map fun u => (u.host, hostname u.host)
  lowerTable := table
  forwardHost := []

/-! ## The URL of the kiosk -/

def teams : GoString := lit "teams.live.com"

/-- `rbiKioskURL`; `force` is `RBI_FORCE_KIOSK_URL`. -/
def rbiKioskURL (parse : GoString → Option ParsedURL) (table : Rune → Rune)
    (force raw : GoString) : GoString :=
  if force ≠ [] then force
  else
    let (scheme, host) : GoString × GoString :=
      match parse raw with
      | some u =>
        if u.host ≠ [] then (if u.scheme ≠ [] then u.scheme else lit "https", u.host)
        else (lit "https", [])
      | none => (lit "https", [])
    let host := if host = [] then rbiHostOf (configOf parse table) raw else host
    let hl := cutLast (toLower table host) 58
    if hl = teams then lit "https://teams.live.com/gather"
    else scheme ++ lit "://" ++ host ++ lit "/"

/-! ## The lock of the container -/

def isAlpha (b : UInt8) : Bool := (65 ≤ b && b ≤ 90) || (97 ≤ b && b ≤ 122)

/-- `s#^[A-Za-z]+://##`. -/
def sedScheme (s : GoString) : GoString :=
  let letters := s.takeWhile isAlpha
  let rest := s.dropWhile isAlpha
  if letters ≠ [] ∧ hasPrefix rest (lit "://") then rest.drop 3 else s

/-- `s#/.*$##`. -/
def sedPath (s : GoString) : GoString := s.takeWhile (· != 47)

/-- `s#:[0-9]+$##`. -/
def sedPort (s : GoString) : GoString :=
  let digits := s.rtakeWhile isDigit
  let front := s.rdropWhile isDigit
  if digits ≠ [] ∧ hasSuffix front [58] then front.dropLast else s

/-- `ALLOWED_HOST` of `entrypoint.sh`: the script on every line, and the command
substitution drops the newlines at the end. -/
def allowedHost (url : GoString) : GoString :=
  let lines := (url.splitOn 10).map fun line => sedPort (sedPath (sedScheme line))
  ([10].intercalate lines).rdropWhile (· == 10)

/-! ## Requests -/

def actualURL (scheme host path : GoString) : GoString := scheme ++ lit "://" ++ host ++ path

/-- What `net/http` lets through as the host of a request. -/
def RequestHost (host : GoString) : Prop := ∀ b ∈ host, 0x20 < b ∧ b ≠ 0x7F ∧ b ∉ lit "/?#@"

/-- The host of `host:port`, as `rbiShouldIsolate` takes it. -/
def hostPart (host : GoString) : GoString := cutLast host 58

/-- The three derivations name one host. -/
structure SameHost (parse : GoString → Option ParsedURL) (table : Rune → Rune)
    (scheme host path : GoString) : Prop where
  key : rbiHostOf (configOf parse table) (actualURL scheme host path)
    = toLower table (hostPart host)
  lock : toLower table (allowedHost (rbiKioskURL parse table [] (actualURL scheme host path)))
    = rbiHostOf (configOf parse table) (actualURL scheme host path)

/-- The host of a URL: a literal in brackets or a name, each with an optional port. -/
inductive ValidHost : GoString → Prop where
  | literal (inner port : GoString) : validOptionalPort port = true →
      ValidHost (91 :: inner ++ 93 :: port)
  | name (host : GoString) : 58 ∉ host → ValidHost host
  | port (host digits : GoString) : digits.all isDigit = true → ValidHost (host ++ 58 :: digits)

/-- What is used of `Parse`: it rejects the URL, or cuts it into its parts. -/
def SplitsURL (parse : GoString → Option ParsedURL) : Prop :=
  ∀ {scheme host path u}, (scheme = lit "http" ∨ scheme = lit "https") →
    (∀ b ∈ host, b ∉ lit "/?#@") → (path = [] ∨ path.head? = some 47) →
    parse (actualURL scheme host path) = some u →
    u.scheme = scheme ∧ u.host = host ∧ ValidHost host

/-! ## The script on a URL -/

section Script

variable {h scheme : GoString}

theorem sedScheme_append (hne : scheme ≠ []) (halpha : ∀ b ∈ scheme, isAlpha b = true)
    (t : GoString) : sedScheme (scheme ++ lit "://" ++ t) = t := by
  have hsplit : scheme ++ lit "://" ++ t = scheme ++ 58 :: 47 :: 47 :: t := by
    rw [List.append_assoc]
    rfl
  have htake : (scheme ++ 58 :: 47 :: 47 :: t).takeWhile isAlpha = scheme := by
    rw [List.takeWhile_append_of_pos halpha, List.takeWhile_cons_of_neg (by decide),
      List.append_nil]
  have hdrop : (scheme ++ 58 :: 47 :: 47 :: t).dropWhile isAlpha = 58 :: 47 :: 47 :: t := by
    rw [List.dropWhile_append_of_pos halpha, List.dropWhile_cons_of_neg (by decide)]
  rw [hsplit, sedScheme, htake, hdrop]
  exact if_pos ⟨hne, rfl⟩

theorem sedPath_append (hslash : 47 ∉ h) (t : GoString) : sedPath (h ++ 47 :: t) = h := by
  have hall : ∀ b ∈ h, (b != 47) = true := by
    intro b hb
    rw [bne_iff_ne]
    rintro rfl
    exact hslash hb
  rw [sedPath, List.takeWhile_append_of_pos hall, List.takeWhile_cons_of_neg (by decide),
    List.append_nil]

theorem sedPort_of_notMem (hcolon : 58 ∉ h) : sedPort h = h := by
  refine if_neg ?_
  rintro ⟨-, hsuffix⟩
  have hsub := (hasSuffix_iff.mp hsuffix).subset List.mem_cons_self
  exact hcolon ((List.rdropWhile_prefix isDigit h).subset hsub)

theorem sedPort_digits {digits : GoString} (hne : digits ≠ [])
    (hdigits : digits.all isDigit = true) :
    sedPort (h ++ 58 :: digits) = h := by
  have hall : ∀ b ∈ digits.reverse, isDigit b = true := fun b hb =>
    List.all_eq_true.mp hdigits b (List.mem_reverse.mp hb)
  have hreverse : (h ++ 58 :: digits).reverse = digits.reverse ++ 58 :: h.reverse := by simp
  have htake : (h ++ 58 :: digits).rtakeWhile isDigit = digits := by
    rw [List.rtakeWhile, hreverse, List.takeWhile_append_of_pos hall,
      List.takeWhile_cons_of_neg (by decide), List.append_nil, List.reverse_reverse]
  have hdrop : (h ++ 58 :: digits).rdropWhile isDigit = h ++ [58] := by
    rw [List.rdropWhile, hreverse, List.dropWhile_append_of_pos hall,
      List.dropWhile_cons_of_neg (by decide), List.reverse_cons, List.reverse_reverse]
  rw [sedPort, htake, hdrop, if_pos ⟨hne, hasSuffix_iff.mpr (List.suffix_append h [58])⟩,
    List.dropLast_concat]

theorem sedPort_colon : sedPort (h ++ [58]) = h ++ [58] := by
  refine if_neg ?_
  rw [List.rtakeWhile_concat_neg _ _ _ (by decide)]
  exact fun hno => hno.1 rfl

theorem allowedHost_url (hne : scheme ≠ []) (halpha : ∀ b ∈ scheme, isAlpha b = true)
    (hslash : 47 ∉ h) (hline : 10 ∉ h) (t : GoString) (ht : 10 ∉ t) :
    allowedHost (scheme ++ lit "://" ++ h ++ 47 :: t) = sedPort h := by
  have hscheme : (10 : UInt8) ∉ scheme := fun hmem => absurd (halpha 10 hmem) (by decide)
  have hone : (10 : UInt8) ∉ scheme ++ lit "://" ++ h ++ 47 :: t := by
    simp only [List.mem_append, List.mem_cons, not_or]
    exact ⟨⟨⟨hscheme, by decide⟩, hline⟩, by decide, ht⟩
  have hport : (10 : UInt8) ∉ sedPort h := by
    unfold sedPort
    dsimp only
    split
    · intro hmem
      exact hline ((List.rdropWhile_prefix isDigit h).subset (List.mem_of_mem_dropLast hmem))
    · exact hline
  have hend : (sedPort h).rdropWhile (· == 10) = sedPort h := by
    rw [List.rdropWhile_eq_self_iff]
    intro hne' hlast
    exact hport (eq_of_beq hlast ▸ List.getLast_mem hne')
  rw [allowedHost, List.splitOn_eq_singleton hone, List.map_singleton]
  rw [List.intercalate_singleton, List.append_assoc, sedScheme_append hne halpha,
    sedPath_append hslash, hend]

end Script

/-! ## The key -/

section Key

variable {parse : GoString → Option ParsedURL} {table : Rune → Rune} {scheme host path : GoString}

theorem colon_notMem_scheme (hscheme : scheme = lit "http" ∨ scheme = lit "https") :
    scheme ≠ [] ∧ (∀ b ∈ scheme, isAlpha b = true) ∧ 58 ∉ scheme := by
  obtain rfl | rfl := hscheme
  · exact ⟨by decide, forall_mem_of_all (by decide +kernel), by decide⟩
  · exact ⟨by decide, forall_mem_of_all (by decide +kernel), by decide⟩

theorem index_actualURL (hscheme : scheme = lit "http" ∨ scheme = lit "https") :
    index (actualURL scheme host path) (lit "://") = some scheme.length := by
  have hfound := index_append (colon_notMem_scheme hscheme).2.2 [47, 47] (host ++ path)
  rw [← List.append_assoc] at hfound
  exact hfound

theorem drop_actualURL : (actualURL scheme host path).drop (scheme.length + 3) = host ++ path := by
  rw [actualURL, List.append_assoc, List.append_assoc, ← List.append_assoc]
  exact List.drop_left' (by rw [List.length_append]; rfl)

/-- The branch of `rbiHostOf` for a URL that is rejected. -/
theorem rbiHostOf_rejected (hscheme : scheme = lit "http" ∨ scheme = lit "https")
    (hnone : parse (actualURL scheme host path) = none) :
    rbiHostOf (configOf parse table) (actualURL scheme host path)
      = toLower table (cutAny (host ++ path) (lit "/:?#")) := by
  have hparse : (configOf parse table).urlParse (actualURL scheme host path) = none := by
    simp only [configOf, hnone, Option.map_none]
  rw [rbiHostOf, hparse]
  dsimp only
  rw [hostFallback, index_actualURL hscheme]
  dsimp only
  rw [drop_actualURL]
  rfl

theorem rbiHostOf_accepted {raw : GoString} {u : ParsedURL} (hsome : parse raw = some u)
    (hne : u.host ≠ []) :
    rbiHostOf (configOf parse table) raw = toLower table (hostname u.host) := by
  have hparse : (configOf parse table).urlParse raw = some (u.host, hostname u.host) := by
    simp only [configOf, hsome, Option.map_some]
  rw [rbiHostOf, hparse]
  exact if_pos hne

theorem hostname_name (hcolon : 58 ∉ host) (hbracket : ¬ [93] <:+ host) : hostname host = host := by
  have hcut : cutLast host 58 = host := cutLast_of_notMem hcolon
  rw [hostname, hcut, List.drop_length]
  exact if_neg fun h => hbracket (hasSuffix_iff.mp h.2)

theorem hostname_port {digits : GoString} (hdigits : digits.all isDigit = true)
    (hbracket : ¬ [93] <:+ host) : hostname (host ++ 58 :: digits) = host := by
  have hcut : cutLast (host ++ 58 :: digits) 58 = host := cutLast_append fun hmem =>
    absurd (List.all_eq_true.mp hdigits 58 hmem) (by decide)
  have hvalid : validOptionalPort (58 :: digits) = true := by
    rw [validOptionalPort, hdigits]
    rfl
  rw [hostname, hcut, List.drop_left, if_pos hvalid]
  exact if_neg fun h => hbracket (hasSuffix_iff.mp h.2)

/-- A literal with a colon in it is taken out of its brackets. -/
theorem hostname_literal {inner t : GoString} (ht : 58 ∉ t) :
    hostname (91 :: (inner ++ 58 :: t) ++ [93]) = inner ++ 58 :: t := by
  have hassoc : 91 :: (inner ++ 58 :: t) ++ [93] = 91 :: inner ++ 58 :: (t ++ [93]) := by simp
  have hcut : cutLast (91 :: (inner ++ 58 :: t) ++ [93]) 58 = 91 :: inner := by
    rw [hassoc]
    exact cutLast_append (by simpa using ht)
  have hvalid : ¬ validOptionalPort (58 :: (t ++ [93])) = true := by
    simp [validOptionalPort, isDigit]
  have hdrop : (91 :: (inner ++ 58 :: t) ++ [93]).drop (91 :: inner).length
      = 58 :: (t ++ [93]) := by
    rw [hassoc]
    exact List.drop_left
  have hbrackets : hasPrefix (91 :: (inner ++ 58 :: t) ++ [93]) [91] = true
      ∧ hasSuffix (91 :: (inner ++ 58 :: t) ++ [93]) [93] = true :=
    ⟨hasPrefix_iff.mpr ⟨inner ++ 58 :: t ++ [93], rfl⟩,
      hasSuffix_iff.mpr (List.suffix_append _ _)⟩
  rw [hostname, hcut, hdrop, if_neg hvalid, if_pos hbrackets, List.cons_append, List.drop_one,
    List.tail_cons, List.dropLast_concat]

end Key

/-! ## The hosts that are isolated -/

/-- The list of hosts holds DNS names, each perhaps with white space around it. -/
def DnsList (env : Proxy.Env) : Prop :=
  ∀ e ∈ env.isolateHosts.splitOn 44, ∀ b ∈ trimSpace (toLower env.lowerTable e),
    isHostByte b = true

/-- The host of an isolated request is not in brackets. -/
theorem not_bracket_of_isolated {env : Proxy.Env} (hdns : DnsList env) {host : GoString}
    (hiso : Proxy.rbiShouldIsolate env host = true) : ¬ [93] <:+ hostPart host := by
  rintro ⟨x, hx⟩
  obtain ⟨e, he, hentry⟩ := List.any_eq_true.mp hiso
  obtain ⟨y, hy⟩ := trimSpace_concat_of_solid (c := 93) (by decide) x
  have hlower : toLower env.lowerTable (trimSpace (cutLast host 58))
      = toLower env.lowerTable y ++ [93] := by
    have hcut : cutLast host 58 = x ++ [93] := hx.symm
    rw [hcut, hy, toLower_append_ascii (by decide)]
    simp [toLower, runes, lowerByte]
  rw [hlower, Proxy.isolateEntry, Bool.and_eq_true, decide_eq_true_eq] at hentry
  obtain ⟨hne, hmatch⟩ := hentry
  -- the entry ends where the host does
  have hsuffix : trimSpace (toLower env.lowerTable e) <:+ toLower env.lowerTable y ++ [93] := by
    rw [Bool.or_eq_true, decide_eq_true_eq, hasSuffix_iff] at hmatch
    obtain heq | hsuf := hmatch
    · exact heq ▸ List.suffix_rfl
    · exact (List.suffix_cons 46 _).trans hsuf
  have hlast : [93] <:+ trimSpace (toLower env.lowerTable e) :=
    List.suffix_of_suffix_length_le (List.suffix_append _ _) hsuffix (List.length_pos_iff.mpr hne)
  exact absurd (hdns e he 93 (hlast.subset List.mem_cons_self)) (by decide)

theorem ne_nil_of_isolated {env : Proxy.Env} {host : GoString}
    (hiso : Proxy.rbiShouldIsolate env host = true) : host ≠ [] := by
  rintro rfl
  obtain ⟨e, he, hentry⟩ := List.any_eq_true.mp hiso
  rw [Proxy.isolateEntry, Bool.and_eq_true, decide_eq_true_eq] at hentry
  obtain ⟨hne, hmatch⟩ := hentry
  have hnil : toLower env.lowerTable (trimSpace (cutLast [] 58)) = [] := by
    simp [cutLast, lastIndexByte, trimSpace, stripAll, toLower, runes]
  rw [hnil, Bool.or_eq_true, decide_eq_true_eq, hasSuffix_iff, List.suffix_nil] at hmatch
  obtain heq | hsuf := hmatch
  · exact hne heq.symm
  · cases hsuf

/-! ## The lock -/

section Lock

variable {parse : GoString → Option ParsedURL} {table : Rune → Rune}
variable {scheme host path : GoString}

theorem toLower_teams (table : Rune → Rune) : toLower table teams = teams := by
  rw [toLower_ascii (ascii_of_all (by decide))]
  decide

theorem allowedHost_teams : allowedHost (lit "https://teams.live.com/gather") = teams := by
  decide +kernel

/-- The URL that the container opens, when `net/url` accepts that of the request. -/
theorem rbiKioskURL_accepted {raw : GoString} {u : ParsedURL} (hsome : parse raw = some u)
    (hhost : u.host ≠ []) (hscheme : u.scheme ≠ []) :
    rbiKioskURL parse table [] raw
      = if cutLast (toLower table u.host) 58 = teams then lit "https://teams.live.com/gather"
        else u.scheme ++ lit "://" ++ u.host ++ lit "/" := by
  rw [rbiKioskURL, hsome]
  simp [hhost, hscheme]

theorem rbiKioskURL_rejected {raw : GoString} (hnone : parse raw = none) :
    rbiKioskURL parse table [] raw
      = if cutLast (toLower table (rbiHostOf (configOf parse table) raw)) 58 = teams
        then lit "https://teams.live.com/gather"
        else lit "https" ++ lit "://" ++ rbiHostOf (configOf parse table) raw ++ lit "/" := by
  rw [rbiKioskURL, hnone]
  simp

theorem RequestHost.notMem (hhost : RequestHost host) {c : UInt8}
    (hc : ¬ (0x20 < c ∧ c ≠ 0x7F ∧ c ∉ lit "/?#@")) : c ∉ host := fun hmem => hc (hhost c hmem)

/-- The colon that `rbiHostOf` cuts at is the first one. -/
theorem cut_request (hhost : RequestHost host) (hpath : path = [] ∨ path.head? = some 47) :
    (58 ∉ host ∧ cutAny (host ++ path) (lit "/:?#") = host)
      ∨ ∃ x y, host = x ++ 58 :: y ∧ 58 ∉ x ∧ cutAny (host ++ path) (lit "/:?#") = x := by
  have hplain : ∀ b ∈ host, b ≠ 58 → b ∉ lit "/:?#" := by
    intro b hb hne hmem
    have hsets : (lit "/:?#").all (fun b => b = 58 || b ∈ lit "/?#@") = true := by decide
    have hin := List.all_eq_true.mp hsets b hmem
    rw [Bool.or_eq_true, decide_eq_true_eq, decide_eq_true_eq] at hin
    exact (hhost b hb).2.2 (hin.resolve_left hne)
  by_cases hcolon : 58 ∈ host
  · obtain ⟨x, y, rfl, hx⟩ := List.eq_append_cons_of_mem hcolon
    refine .inr ⟨x, y, rfl, hx, ?_⟩
    rw [List.append_assoc]
    refine cutAny_append (fun b hb => ?_) fun b hb => ?_
    · exact hplain b (List.mem_append_left _ hb) fun h => hx (h ▸ hb)
    · cases hb
      decide
  · refine .inl ⟨hcolon, cutAny_append (fun b hb => ?_) fun b hb => ?_⟩
    · exact hplain b hb fun h => hcolon (h ▸ hb)
    · obtain rfl | hhead := hpath
      · cases hb
      · rw [hhead] at hb
        cases hb
        decide

/-- When `net/url` rejects the URL, the lock is the key. -/
theorem lock_rejected (htable : LowerTable table)
    (hscheme : scheme = lit "http" ∨ scheme = lit "https") (hhost : RequestHost host)
    (hpath : path = [] ∨ path.head? = some 47)
    (hnone : parse (actualURL scheme host path) = none) :
    toLower table (allowedHost (rbiKioskURL parse table [] (actualURL scheme host path)))
      = rbiHostOf (configOf parse table) (actualURL scheme host path) := by
  obtain ⟨a, hkey, hpre, hcolon⟩ : ∃ a,
      rbiHostOf (configOf parse table) (actualURL scheme host path) = toLower table a
        ∧ a <+: host ∧ 58 ∉ a := by
    rw [rbiHostOf_rejected hscheme hnone]
    obtain ⟨hno, hcut⟩ | ⟨x, y, rfl, hx, hcut⟩ := cut_request hhost hpath
    · exact ⟨host, by rw [hcut], List.prefix_rfl, hno⟩
    · exact ⟨x, by rw [hcut], List.prefix_append .., hx⟩
  have hkeep : ∀ c : UInt8, c.toNat < 0x41 → c ∉ a → c ∉ toLower table a := fun c hc hno hmem =>
    hno (mem_of_mem_toLower htable (.inl hc) hmem)
  have hslash : (47 : UInt8) ∉ a := fun hmem =>
    hhost.notMem (by decide) (hpre.subset hmem)
  have hline : (10 : UInt8) ∉ a := fun hmem => hhost.notMem (by decide) (hpre.subset hmem)
  have hnocolon := hkeep 58 (by decide) hcolon
  rw [rbiKioskURL_rejected hnone, hkey, toLower_toLower htable, cutLast_of_notMem hnocolon]
  split
  · rename_i hteams
    rw [allowedHost_teams, toLower_teams, hteams]
  · rw [show lit "/" = 47 :: [] from rfl, allowedHost_url (by decide)
      (forall_mem_of_all (by decide +kernel)) (hkeep 47 (by decide) hslash)
      (hkeep 10 (by decide) hline) [] (by simp), sedPort_of_notMem hnocolon,
      toLower_toLower htable]

/-- When it accepts the URL, and the host is not one in brackets, the lock is the key
unless there is a colon without a port. -/
theorem lock_accepted_iff (htable : LowerTable table)
    (hscheme : scheme = lit "http" ∨ scheme = lit "https") (hhost : RequestHost host)
    (hvalid : 58 ∉ host ∨ ∃ name digits, host = name ++ 58 :: digits ∧ digits.all isDigit = true)
    {u : ParsedURL} (hsome : parse (actualURL scheme host path) = some u)
    (hu : u.scheme = scheme ∧ u.host = host) (hne : host ≠ []) :
    toLower table (allowedHost (rbiKioskURL parse table [] (actualURL scheme host path)))
        = toLower table (hostPart host)
      ↔ ¬ [58] <:+ host ∨ toLower table (hostPart host) = teams := by
  obtain ⟨hne', halpha, -⟩ := colon_notMem_scheme hscheme
  obtain ⟨husc, huh⟩ := hu
  have hslash : (47 : UInt8) ∉ host := hhost.notMem (by decide)
  have hline : (10 : UInt8) ∉ host := hhost.notMem (by decide)
  have hcut : cutLast (toLower table host) 58 = toLower table (hostPart host) := by
    obtain hcolon | ⟨name, digits, rfl, hdigits⟩ := hvalid
    · rw [hostPart, cutLast_of_notMem hcolon, cutLast_of_notMem fun hmem =>
        hcolon (mem_of_mem_toLower htable (.inl (by decide)) hmem)]
    · have hno : (58 : UInt8) ∉ digits := fun hmem =>
        absurd (List.all_eq_true.mp hdigits 58 hmem) (by decide)
      rw [hostPart, cutLast_append hno, toLower_append_ascii (by decide)]
      exact cutLast_append fun hmem => hno (mem_of_mem_toLower htable (.inl (by decide)) hmem)
  have hurl := @rbiKioskURL_accepted parse table _ u hsome (by rwa [huh]) (by rwa [husc])
  rw [huh, husc, hcut] at hurl
  by_cases hteams : toLower table (hostPart host) = teams
  · rw [hurl, if_pos hteams, allowedHost_teams, toLower_teams, hteams]
    exact iff_of_true rfl (.inr rfl)
  rw [hurl, if_neg hteams, show lit "/" = 47 :: [] from rfl,
    allowedHost_url hne' halpha hslash hline [] (by simp), or_iff_left hteams]
  obtain hcolon | ⟨name, digits, rfl, hdigits⟩ := hvalid
  · rw [hostPart, cutLast_of_notMem hcolon, sedPort_of_notMem hcolon]
    exact iff_of_true rfl fun hsuf => hcolon (hsuf.subset List.mem_cons_self)
  · have hno : (58 : UInt8) ∉ digits := fun hmem =>
      absurd (List.all_eq_true.mp hdigits 58 hmem) (by decide)
    rw [hostPart, cutLast_append hno]
    by_cases hempty : digits = []
    · subst hempty
      rw [sedPort_colon, toLower_append_ascii (by decide)]
      refine iff_of_false (fun heq => ?_) (not_not.mpr (List.suffix_append name [58]))
      have hlen := congrArg List.length heq
      rw [List.length_append, List.length_cons] at hlen
      omega
    · rw [sedPort_digits hempty hdigits]
      refine iff_of_true rfl fun hsuf => ?_
      have hlast : [58] <:+ digits := by
        refine List.suffix_of_suffix_length_le hsuf ?_ (List.length_pos_iff.mpr hempty)
        exact (List.suffix_cons 58 digits).trans (List.suffix_append ..)
      exact hno (hlast.subset List.mem_cons_self)

end Lock

/-! ## Agreement -/

section Agreement

variable {env : Proxy.Env} {parse : GoString → Option ParsedURL} {scheme host path : GoString}

theorem sameHost_rejected_iff (htable : LowerTable env.lowerTable)
    (hscheme : scheme = lit "http" ∨ scheme = lit "https") (hhost : RequestHost host)
    (hpath : path = [] ∨ path.head? = some 47)
    (hnone : parse (actualURL scheme host path) = none) :
    SameHost parse env.lowerTable scheme host path ↔ host.count 58 ≤ 1 := by
  have hlock := lock_rejected htable hscheme hhost hpath hnone
  have hkey := @rbiHostOf_rejected parse env.lowerTable _ _ _ hscheme hnone
  have hiff : SameHost parse env.lowerTable scheme host path ↔
      toLower env.lowerTable (cutAny (host ++ path) (lit "/:?#"))
        = toLower env.lowerTable (hostPart host) := by
    rw [← hkey]
    exact ⟨fun h => h.key, fun h => ⟨h, hlock⟩⟩
  rw [hiff]
  obtain ⟨hno, hcut⟩ | ⟨x, y, rfl, hx, hcut⟩ := cut_request hhost hpath
  · rw [hcut, hostPart, cutLast_of_notMem hno, List.count_eq_zero_of_not_mem hno]
    exact iff_of_true rfl (Nat.zero_le 1)
  · rw [hcut, List.count_append, List.count_cons_self, List.count_eq_zero_of_not_mem hx]
    by_cases hy : 58 ∈ y
    · -- the last colon is another one
      obtain ⟨m, n, rfl, hn⟩ := exists_last_of_mem hy
      have hpart : hostPart (x ++ 58 :: (m ++ 58 :: n)) = x ++ 58 :: m := by
        have hassoc : x ++ 58 :: (m ++ 58 :: n) = x ++ 58 :: m ++ 58 :: n := by simp
        rw [hostPart, hassoc, cutLast_append hn]
      have hpos := List.count_pos_iff.mpr hy
      rw [hpart, toLower_append_ascii (by decide)]
      refine iff_of_false (fun heq => ?_) (by omega)
      have hlen := congrArg List.length heq
      rw [List.length_append, List.length_cons] at hlen
      omega
    · rw [hostPart, cutLast_append hy, List.count_eq_zero_of_not_mem hy]
      exact iff_of_true rfl (Nat.le_refl 1)

/-- A host that ends with a port does not end with a bracket. -/
theorem not_bracket_of_port {name digits : GoString} (hdigits : digits.all isDigit = true) :
    ¬ [93] <:+ name ++ 58 :: digits := by
  intro hsuf
  have hlast : [93] <:+ 58 :: digits :=
    List.suffix_of_suffix_length_le hsuf (List.suffix_append ..) (by simp)
  obtain hbad | hmem := List.mem_cons.mp (hlast.subset List.mem_cons_self)
  · cases hbad
  · exact absurd (List.all_eq_true.mp hdigits 93 hmem) (by decide)

/-- The key of a literal is not the host that was tested. -/
theorem literal_key_ne (table : Rune → Rune) {inner t : GoString} :
    toLower table (inner ++ 58 :: t) ≠ toLower table (91 :: inner) := by
  rw [toLower_append_ascii (by decide), show 91 :: inner = [] ++ 91 :: inner from rfl,
    toLower_append_ascii (by decide)]
  intro heq
  have hcount := congrArg (List.count 58) heq
  simp [toLower, runes, lowerByte] at hcount

theorem sameHost_accepted_iff (htable : LowerTable env.lowerTable) (hdns : DnsList env)
    (hscheme : scheme = lit "http" ∨ scheme = lit "https") (hhost : RequestHost host)
    (hiso : Proxy.rbiShouldIsolate env host = true) {u : ParsedURL}
    (hsome : parse (actualURL scheme host path) = some u)
    (hu : u.scheme = scheme ∧ u.host = host) (hvalid : ValidHost host) :
    SameHost parse env.lowerTable scheme host path ↔
      ¬ [93] <:+ host ∧ (¬ [58] <:+ host ∨ toLower env.lowerTable (hostPart host) = teams) := by
  have hne := ne_nil_of_isolated hiso
  have hbracket := not_bracket_of_isolated hdns hiso
  have hkey := @rbiHostOf_accepted parse env.lowerTable _ u hsome (by rwa [hu.2])
  rw [hu.2] at hkey
  -- a name, with or without a port
  have hnamed : hostname host = hostPart host → ¬ [93] <:+ host →
      (58 ∉ host ∨ ∃ name digits, host = name ++ 58 :: digits ∧ digits.all isDigit = true) →
      (SameHost parse env.lowerTable scheme host path ↔ ¬ [93] <:+ host
        ∧ (¬ [58] <:+ host ∨ toLower env.lowerTable (hostPart host) = teams)) := by
    intro hname hend hform
    rw [hname] at hkey
    have hlock := lock_accepted_iff htable hscheme hhost hform hsome hu hne
    rw [and_iff_right hend, ← hlock]
    constructor
    · intro h
      exact h.lock.trans hkey
    · intro h
      exact ⟨hkey, h.trans hkey.symm⟩
  cases hvalid with
  | name _ hcolon =>
    have hpart : hostPart host = host := cutLast_of_notMem hcolon
    rw [hpart] at hbracket
    exact hnamed ((hostname_name hcolon hbracket).trans hpart.symm) hbracket (.inl hcolon)
  | port name digits hdigits =>
    have hpart : hostPart (name ++ 58 :: digits) = name := cutLast_append fun hmem =>
      absurd (List.all_eq_true.mp hdigits 58 hmem) (by decide)
    rw [hpart] at hbracket
    exact hnamed ((hostname_port hdigits hbracket).trans hpart.symm) (not_bracket_of_port hdigits)
      (.inr ⟨name, digits, rfl, hdigits⟩)
  | literal inner port hport =>
    cases port with
    | cons b digits =>
      rw [validOptionalPort, Bool.and_eq_true, beq_iff_eq] at hport
      obtain ⟨rfl, hdigits⟩ := hport
      have hassoc : 91 :: inner ++ 93 :: 58 :: digits = (91 :: inner ++ [93]) ++ 58 :: digits := by
        simp
      have hpart : hostPart (91 :: inner ++ 93 :: 58 :: digits) = 91 :: inner ++ [93] := by
        rw [hostPart, hassoc]
        exact cutLast_append fun hmem =>
          absurd (List.all_eq_true.mp hdigits 58 hmem) (by decide)
      rw [hpart] at hbracket
      exact absurd (List.suffix_append ..) hbracket
    | nil =>
      refine iff_of_false (fun h => ?_) fun h => h.1 (List.suffix_append ..)
      by_cases hcolon : 58 ∈ inner
      · obtain ⟨x, t, rfl, ht⟩ := exists_last_of_mem hcolon
        have hassoc : 91 :: (x ++ 58 :: t) ++ [93] = 91 :: x ++ 58 :: (t ++ [93]) := by simp
        have hpart : hostPart (91 :: (x ++ 58 :: t) ++ [93]) = 91 :: x := by
          rw [hostPart, hassoc]
          exact cutLast_append (by simpa using ht)
        have hsame := hkey.symm.trans h.key
        rw [hostname_literal ht, hpart] at hsame
        exact literal_key_ne env.lowerTable hsame
      · have hpart : hostPart (91 :: inner ++ [93]) = 91 :: inner ++ [93] :=
          cutLast_of_notMem (by simpa using hcolon)
        rw [hpart] at hbracket
        exact hbracket (List.suffix_append ..)

/-- **One host.** For every request that is isolated, the key of the session is the host
in lower case, whatever the path and the port, and the container is locked to it, exactly
if: where `net/url` accepts the URL, the host does not end with a bracket, and does not
end with a colon unless it is `teams.live.com`; where it rejects the URL, there is not
more than one colon in the host. -/
theorem same_host_iff (hparse : SplitsURL parse) (htable : LowerTable env.lowerTable)
    (hdns : DnsList env) (hscheme : scheme = lit "http" ∨ scheme = lit "https")
    (hhost : RequestHost host) (hpath : path = [] ∨ path.head? = some 47)
    (hiso : Proxy.rbiShouldIsolate env host = true) :
    SameHost parse env.lowerTable scheme host path ↔
      if (parse (actualURL scheme host path)).isSome then
        ¬ [93] <:+ host ∧ (¬ [58] <:+ host ∨ toLower env.lowerTable (hostPart host) = teams)
      else host.count 58 ≤ 1 := by
  cases hcase : parse (actualURL scheme host path) with
  | none => exact sameHost_rejected_iff htable hscheme hhost hpath hcase
  | some u =>
    obtain ⟨hsc, hh, hvalid⟩ := hparse hscheme (fun b hb => (hhost b hb).2.2) hpath hcase
    exact sameHost_accepted_iff htable hdns hscheme hhost hiso hcase ⟨hsc, hh⟩ hvalid

end Agreement

/-- A parser: it rejects control characters and what is no host and port, and cuts the
URL into its parts. -/
def splitURL (raw : GoString) : Option ParsedURL :=
  match index raw (lit "://") with
  | none => none
  | some i =>
    let host := cutAny (raw.drop (i + 3)) (lit "/?#")
    if raw.any (fun b => b < 0x20 || b == 0x7F) then none
    else if validOptionalPort (host.drop (cutLast host 58).length) then some ⟨raw.take i, host⟩
    else none

theorem validHost_of_check {host : GoString}
    (h : validOptionalPort (host.drop (cutLast host 58).length) = true) : ValidHost host := by
  by_cases hcolon : 58 ∈ host
  · obtain ⟨name, digits, rfl, hno⟩ := exists_last_of_mem hcolon
    rw [cutLast_append hno, List.drop_left, validOptionalPort, Bool.and_eq_true] at h
    exact .port name digits h.2
  · exact .name host hcolon

theorem splitURL_splits : SplitsURL splitURL := by
  intro scheme host path u hscheme hhost hpath hsome
  have hindex : index (actualURL scheme host path) (lit "://") = some scheme.length :=
    index_actualURL hscheme
  have hcut : cutAny ((actualURL scheme host path).drop (scheme.length + 3)) (lit "/?#")
      = host := by
    rw [drop_actualURL]
    refine cutAny_append (fun b hb hmem => ?_) fun b hb => ?_
    · have hsets : (lit "/?#").all (fun b => b ∈ lit "/?#@") = true := by decide
      exact hhost b hb (of_decide_eq_true (List.all_eq_true.mp hsets b hmem))
    · obtain rfl | hhead := hpath
      · cases hb
      · rw [hhead] at hb
        cases hb
        decide
  have htake : (actualURL scheme host path).take scheme.length = scheme := by
    rw [actualURL, List.append_assoc, List.append_assoc]
    exact List.take_left
  unfold splitURL at hsome
  rw [hindex] at hsome
  dsimp only at hsome
  rw [hcut, htake] at hsome
  split at hsome
  · cases hsome
  split at hsome
  · rename_i hport
    cases hsome
    exact ⟨rfl, rfl, validHost_of_check hport⟩
  · cases hsome

theorem dnsList_example : DnsList Proxy.exampleEnv := by
  have hall : ((Proxy.exampleEnv.isolateHosts.splitOn 44).all fun e =>
      (trimSpace (toLower Proxy.exampleEnv.lowerTable e)).all isHostByte) = true := by
    decide +kernel
  intro e he b hb
  exact List.all_eq_true.mp (List.all_eq_true.mp hall e he) b hb

theorem requestHost_of_all {host : GoString}
    (hall : host.all (fun b => decide (0x20 < b ∧ b ≠ 0x7F ∧ b ∉ lit "/?#@")) = true) :
    RequestHost host := forall_mem_of_all hall

/-- Capitals, a port, and a path with the signs of a URL in it. -/
theorem same_host_www :
    SameHost splitURL id (lit "https") (lit "www.YouTube.com:443") (lit "/a?b:c#d") := by
  refine (@same_host_iff Proxy.exampleEnv splitURL _ _ _ splitURL_splits lowerTable_id
    dnsList_example (.inr rfl) (requestHost_of_all (by decide +kernel)) (.inr rfl)
    (by decide +kernel)).mpr ?_
  rw [if_pos (by decide +kernel)]
  exact ⟨by decide, .inl (by decide)⟩

/-- A colon without a port: the container is locked to a host with a colon. -/
theorem empty_port_differs :
    (rbiHostOf (configOf splitURL id) (actualURL (lit "http") (lit "youtube.com:") (lit "/"))
        = lit "youtube.com"
      ∧ allowedHost (rbiKioskURL splitURL id []
          (actualURL (lit "http") (lit "youtube.com:") (lit "/"))) = lit "youtube.com:")
      ∧ ¬ ∀ (env : Proxy.Env) (parse : GoString → Option ParsedURL) (scheme host path : GoString),
          SplitsURL parse → LowerTable env.lowerTable → DnsList env →
          (scheme = lit "http" ∨ scheme = lit "https") → RequestHost host →
          (path = [] ∨ path.head? = some 47) → Proxy.rbiShouldIsolate env host = true →
          SameHost parse env.lowerTable scheme host path := by
  refine ⟨⟨by decide +kernel, by decide +kernel⟩, fun hall => ?_⟩
  have hsame := hall Proxy.exampleEnv splitURL (lit "http") (lit "youtube.com:") (lit "/")
    splitURL_splits lowerTable_id dnsList_example (.inl rfl)
    (requestHost_of_all (by decide +kernel)) (.inr rfl) (by decide +kernel)
  exact absurd hsame.lock (by decide +kernel)

end Rbi

end RbiProxy
