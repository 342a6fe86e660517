import RbiProxy.Controller

/-!
# The host of a session's URL

Two pieces of string cutting in `controller/session.go` have to agree:
`hostFromURL` derives the allowed host from the URL that `Launch` is given,
and `IsEgressAllowed` normalizes the host that the isolated browser asks
for. Both cut at the last colon, whatever that colon belongs to.

What they should agree on is written here over the grammar of RFC 3986: a
`Uri` has its user information, host and port as separate fields, a
`Spelling` is a host as a client writes it. `Plain` says for which of them
the cut is at the right place. `egress_right_iff` is the comparison: a URL
is handled right for every plain spelling exactly when it is plain (or its
user information happens to spell its own host), and no other spelling of
an allowed host is let through.
-/

namespace RbiProxy

namespace Controller

/-- The byte that both functions cut at. -/
abbrev colon : UInt8 := UInt8.ofNat 0x3A

def hostFromURL (table : Rune → Rune) (raw : GoString) : GoString :=
  let s := match index raw (lit "://") with
    | some i => raw.drop (i + 3)
    | none => raw
  let s := cutAny s (lit "/?#")
  let s := cutLast s colon
  toLower table (trimSpace s)

/-- `Manager.imageFor`; `image` is `m.cfg.Image`. -/
def imageFor (table : Rune → Rune) (image browser : GoString) : GoString :=
  let b := toLower table browser
  if b == [] || b == lit "chrome" || b == lit "google-chrome" then image else []

/-- The checks at the top of `Manager.Launch`. -/
def launchAccepts (table : Rune → Rune) (image raw browser : GoString) : Bool :=
  hostFromURL table raw ≠ [] && imageFor table image browser ≠ []

/-- The container that `Launch` starts for a session id. -/
def containerName (id : GoString) : GoString := lit "rbi-" ++ id

def launchSession (table : Rune → Rune) (id raw browser : GoString) (now : Int) : Session :=
  { id := id, container := containerName id, url := raw, allowedHost := hostFromURL table raw
    endpoint := containerName id ++ lit ":8080", browser := browser
    created := now, lastActive := now }

/-! ## The grammar -/

/-- Unreserved characters, sub-delimiters and the percent sign. -/
def regNameBytes : List UInt8 :=
  lit "abcdefghijklmnopqrstuvwxyzABCDEFGHIJKLMNOPQRSTUVWXYZ0123456789-._~%!$&'()*+,;="

/-- What user information and IP literals may consist of. -/
def userinfoBytes : List UInt8 := colon :: regNameBytes

def digitBytes : List UInt8 := lit "0123456789"

def schemeBytes : List UInt8 :=
  lit "abcdefghijklmnopqrstuvwxyzABCDEFGHIJKLMNOPQRSTUVWXYZ0123456789+-."

/-- A string over an alphabet. -/
abbrev Over (alphabet : List UInt8) := { s : GoString // ∀ b ∈ s, b ∈ alphabet }

theorem over_of_all {alphabet : List UInt8} {s : GoString}
    (h : s.all (alphabet.contains ·) = true) : ∀ b ∈ s, b ∈ alphabet := fun b hb => by
  simpa using List.all_eq_true.mp h b hb

/-- `host`: a registered name (IPv4 addresses are of this form too) or an IP
literal in brackets. -/
inductive Host where
  | name (s : Over regNameBytes)
  | literal (s : Over userinfoBytes)

def Host.text : Host → GoString
  | .name s => s.1
  | .literal s => lit "[" ++ s.1 ++ lit "]"

def portText : Option (Over digitBytes) → GoString
  | some p => lit ":" ++ p.1
  | none => []

def userinfoText : Option (Over userinfoBytes) → GoString
  | some u => u.1 ++ lit "@"
  | none => []

/-- A URI with an authority; `rest` is the path, query and fragment. -/
structure Uri where
  scheme : Over schemeBytes
  userinfo : Option (Over userinfoBytes)
  host : Host
  port : Option (Over digitBytes)
  rest : GoString
  rest_ok : ∀ b, rest.head? = some b → b ∈ lit "/?#"

def Uri.authority (u : Uri) : GoString :=
  userinfoText u.userinfo ++ u.host.text ++ portText u.port

def Uri.text (u : Uri) : GoString :=
  u.scheme.1 ++ lit "://" ++ (u.authority ++ u.rest)

/-- A host as it is written in a request: a trailing dot belongs to the
name. -/
structure Spelling where
  host : Host
  port : Option (Over digitBytes)

def Spelling.text (q : Spelling) : GoString := q.host.text ++ portText q.port

/-- The host itself: one trailing dot and letter case do not count. -/
def Host.normal (h : Host) : GoString := (trimSuffix h.text (lit ".")).map lowerByte

/-- `q` names the host of `u` or a subdomain of it. -/
def Under (u : Uri) (q : Spelling) : Prop :=
  labels u.host.normal <:+ labels q.host.normal

/-- The manager when the session of `u` is the only one. -/
def onlySession (table : Rune → Rune) (u : Uri) (id browser : GoString) (now : Int) : Manager :=
  init.mgr.register (launchSession table id u.text browser now)

/-- The listener answers right about `q`. -/
def Right (table : Rune → Rune) (u : Uri) (id browser : GoString) (now : Int) (q : Spelling) :
    Prop :=
  (onlySession table u id browser now).isEgressAllowed table q.text = true ↔ Under u q

/-! ## Where the last colon is -/

def Host.HasColon (h : Host) : Prop := colon ∈ h.text

def Host.HasDot (h : Host) : Prop := lit "." <:+ h.text

/-- No trailing dot before a port, and no IP literal with colons without a
port. -/
def Spelling.Plain (q : Spelling) : Prop :=
  (q.port = none → ¬ q.host.HasColon) ∧ (q.port ≠ none → ¬ q.host.HasDot)

/-- No user information, no trailing dot, and no IP literal with colons
without a port. -/
def Uri.Plain (u : Uri) : Prop :=
  u.userinfo = none ∧ ¬ u.host.HasDot ∧ (u.port = none → ¬ u.host.HasColon)

/-- The user information, up to its last colon, spells the host, and the
last colon of the authority is that one. -/
def Uri.SelfNamed (u : Uri) : Prop :=
  u.port = none ∧ ¬ u.host.HasColon ∧ ∃ i y z, u.userinfo = some i
    ∧ i.1 = y ++ colon :: z ∧ colon ∉ z ∧ y.map lowerByte = u.host.normal

/-! ## Both functions on the grammar -/

def authorityBytes : List UInt8 := lit ":@[]" ++ regNameBytes

theorem authorityBytes_ok {b : UInt8} (h : b ∈ authorityBytes) :
    b < 0x80 ∧ Solid b ∧ b ∉ lit "/?#" := by
  have hall : ∀ b ∈ authorityBytes, 0x20 < b ∧ b < 0x80 ∧ b ∉ lit "/?#" :=
    forall_mem_of_all (by decide +kernel)
  obtain ⟨hlow, hhigh, hmem⟩ := hall b h
  exact ⟨hhigh, solid_of_visible hlow hhigh, hmem⟩

theorem userinfoBytes_subset {b : UInt8} (h : b ∈ userinfoBytes) : b ∈ authorityBytes := by
  obtain rfl | h := List.mem_cons.mp h
  · decide
  · exact List.mem_append_right _ h

theorem digitBytes_ok {b : UInt8} (h : b ∈ digitBytes) :
    b ∈ authorityBytes ∧ b ≠ colon ∧ b ∉ lit "." := by
  have hall : ∀ b ∈ digitBytes, b ∈ authorityBytes ∧ b ≠ colon ∧ b ∉ lit "." :=
    forall_mem_of_all (by decide +kernel)
  exact hall b h

theorem colon_notMem_regName : colon ∉ regNameBytes := by decide +kernel

theorem colon_notMem_scheme : colon ∉ schemeBytes := by decide +kernel

theorem colon_notMem_digits (p : Over digitBytes) : colon ∉ p.1 :=
  fun h => (digitBytes_ok (p.2 _ h)).2.1 rfl

theorem not_hasColon_name (s : Over regNameBytes) : ¬ (Host.name s).HasColon :=
  fun h => colon_notMem_regName (s.2 _ h)

theorem host_subset (h : Host) {b : UInt8} (hb : b ∈ h.text) : b ∈ authorityBytes := by
  cases h with
  | name s => exact List.mem_append_right _ (s.2 b hb)
  | literal s =>
      simp only [Host.text, List.mem_append] at hb
      obtain (hb | hb) | hb := hb
      · obtain rfl : b = UInt8.ofNat 0x5B := List.mem_singleton.mp hb
        decide
      · exact userinfoBytes_subset (s.2 b hb)
      · obtain rfl : b = UInt8.ofNat 0x5D := List.mem_singleton.mp hb
        decide

theorem portText_subset (p : Option (Over digitBytes)) {b : UInt8} (hb : b ∈ portText p) :
    b ∈ authorityBytes := by
  cases p with
  | none => cases hb
  | some p =>
      obtain hb | hb := List.mem_append.mp hb
      · obtain rfl : b = colon := List.mem_singleton.mp hb
        decide
      · exact (digitBytes_ok (p.2 b hb)).1

theorem authority_subset (u : Uri) {b : UInt8} (hb : b ∈ u.authority) : b ∈ authorityBytes := by
  simp only [Uri.authority, List.mem_append] at hb
  obtain (hb | hb) | hb := hb
  · cases hi : u.userinfo with
    | none => simp [hi, userinfoText] at hb
    | some i =>
        rw [hi] at hb
        obtain hb | hb := List.mem_append.mp hb
        · exact userinfoBytes_subset (i.2 b hb)
        · obtain rfl : b = UInt8.ofNat 0x40 := List.mem_singleton.mp hb
          decide
  · exact host_subset u.host hb
  · exact portText_subset u.port hb

/-- `hostFromURL` finds the authority and cuts it at its last colon. -/
theorem hostFromURL_text (table : Rune → Rune) (u : Uri) :
    hostFromURL table u.text = (cutLast u.authority colon).map lowerByte := by
  have hidx : index u.text (lit "://") = some u.scheme.1.length :=
    index_append (fun h => colon_notMem_scheme (u.scheme.2 _ h)) (lit "//") (u.authority ++ u.rest)
  have hdrop : u.text.drop (u.scheme.1.length + 3) = u.authority ++ u.rest := by
    have hlen : (u.scheme.1 ++ lit "://").length = u.scheme.1.length + 3 := by
      rw [List.length_append]
      rfl
    exact List.drop_left' hlen
  have hcut : cutAny (u.authority ++ u.rest) (lit "/?#") = u.authority :=
    cutAny_append (fun b hb => (authorityBytes_ok (authority_subset u hb)).2.2) u.rest_ok
  have hpart : ∀ b ∈ cutLast u.authority colon, b < 0x80 ∧ Solid b := fun b hb =>
    have hok := authorityBytes_ok (authority_subset u (cutLast_subset hb))
    ⟨hok.1, hok.2.1⟩
  simp only [hostFromURL, hidx, hdrop, hcut]
  rw [trimSpace_of_solid fun b hb => (hpart b hb).2, toLower_ascii fun b hb => (hpart b hb).1]

theorem lowerByte_eq_colon (b : UInt8) : lowerByte b = colon ↔ b = colon :=
  lowerByte_eq_iff (.inl (by decide))

theorem trimSuffix_subset {s p : GoString} {b : UInt8} (h : b ∈ trimSuffix s p) : b ∈ s := by
  unfold trimSuffix at h
  split at h
  · exact List.mem_of_mem_take h
  · exact h

theorem spelling_subset (q : Spelling) {b : UInt8} (hb : b ∈ q.text) : b ∈ authorityBytes := by
  obtain hb | hb := List.mem_append.mp hb
  · exact host_subset q.host hb
  · exact portText_subset q.port hb

theorem egressHost_text (table : Rune → Rune) (q : Spelling) :
    egressHost table q.text
      = (cutLast (trimSuffix q.text (lit ".")) colon).map lowerByte := by
  rw [egressHost, toLower_ascii fun b hb =>
    (authorityBytes_ok (spelling_subset q (trimSuffix_subset hb))).1]
  exact cutLast_map lowerByte_eq_colon _

/-- With a port, the cut leaves the host as it is written. -/
theorem egressHost_of_port (table : Rune → Rune) {q : Spelling} {p : Over digitBytes}
    (hp : q.port = some p) : egressHost table q.text = q.host.text.map lowerByte := by
  have htext : q.text = q.host.text ++ colon :: p.1 := by
    rw [Spelling.text, hp]
    rfl
  have htrim : trimSuffix q.text (lit ".") = q.text := by
    rw [trimSuffix, if_neg]
    intro hsuf
    obtain ⟨t, ht⟩ := hasSuffix_iff.mp hsuf
    -- the text ends in the colon or in a digit
    have hlast : q.text.getLast? = (colon :: p.1).getLast? := by
      rw [htext, List.getLast?_append_of_ne_nil _ (by simp)]
    have hdot : q.text.getLast? = some (UInt8.ofNat 0x2E) := by
      rw [← ht, List.getLast?_append_of_ne_nil _ (by decide)]
      rfl
    have hmem : UInt8.ofNat 0x2E ∈ colon :: p.1 := List.mem_of_getLast? (hlast ▸ hdot)
    obtain hc | hd := List.mem_cons.mp hmem
    · exact absurd hc (by decide)
    · exact (digitBytes_ok (p.2 _ hd)).2.2 (by decide)
  rw [egressHost_text, htrim, htext, cutLast_append (colon_notMem_digits p)]

/-- Without a port, a host that has no colon keeps everything but its dot. -/
theorem egressHost_of_noPort (table : Rune → Rune) {q : Spelling} (hp : q.port = none)
    (hc : ¬ q.host.HasColon) : egressHost table q.text = q.host.normal := by
  have htext : q.text = q.host.text := by
    rw [Spelling.text, hp, portText, List.append_nil]
  rw [egressHost_text, htext, cutLast_of_notMem fun h => hc (trimSuffix_subset h), Host.normal]

theorem normal_of_not_hasDot {h : Host} (hd : ¬ h.HasDot) : h.normal = h.text.map lowerByte := by
  rw [Host.normal, trimSuffix, if_neg (mt hasSuffix_iff.mp hd)]

/-- On plain spellings the normalization is the right one. -/
theorem egressHost_plain (table : Rune → Rune) {q : Spelling} (hq : q.Plain) :
    egressHost table q.text = q.host.normal := by
  cases hp : q.port with
  | none => exact egressHost_of_noPort table hp (hq.1 hp)
  | some p => rw [egressHost_of_port table hp, normal_of_not_hasDot (hq.2 (by simp [hp]))]

/-- With one session, the listener compares with its allowed host only. -/
theorem onlySession_allowed_iff (table : Rune → Rune) (u : Uri) (id browser : GoString) (now : Int)
    (q : GoString) :
    (onlySession table u id browser now).isEgressAllowed table q = true ↔
      labels (hostFromURL table u.text) <:+ labels (egressHost table q) := by
  rw [← labels_suffix_iff]
  simp [onlySession, Manager.register, launchSession, init, Manager.isEgressAllowed]

theorem suffix_of_labels {a b : GoString} (h : labels a <:+ labels b) : a <:+ b := by
  obtain rfl | hsuf := splitOn_suffix_iff.mp h
  · exact List.suffix_refl _
  · exact (List.suffix_cons _ a).trans hsuf

/-! ### The cut of the authority, by the shape of the URL -/

theorem cut_of_port {u : Uri} {p : Over digitBytes} (hp : u.port = some p) :
    cutLast u.authority colon = userinfoText u.userinfo ++ u.host.text := by
  have hauth : u.authority = (userinfoText u.userinfo ++ u.host.text) ++ colon :: p.1 := by
    rw [Uri.authority, hp]
    rfl
  rw [hauth, cutLast_append (colon_notMem_digits p)]

theorem authority_of_noPort {u : Uri} (hp : u.port = none) :
    u.authority = userinfoText u.userinfo ++ u.host.text := by
  rw [Uri.authority, hp, portText, List.append_nil]

theorem exists_literal_of_hasColon {h : Host} (hc : h.HasColon) :
    ∃ s : Over userinfoBytes, ∃ x y, h = .literal s ∧ s.1 = x ++ colon :: y ∧ colon ∉ y := by
  cases h with
  | name s => exact absurd hc (not_hasColon_name s)
  | literal s =>
      have hcs : colon ∈ s.1 := by
        rw [Host.HasColon, Host.text, List.mem_append, List.mem_append] at hc
        obtain (hc | hc) | hc := hc
        · exact absurd hc (by decide)
        · exact hc
        · exact absurd hc (by decide)
      obtain ⟨x, y, hxy, hy⟩ := exists_last_of_mem hcs
      exact ⟨s, x, y, rfl, hxy, hy⟩

/-- An IP literal is cut before its closing bracket. -/
theorem cutLast_literal {s : Over userinfoBytes} {x y pre : GoString}
    (hxy : s.1 = x ++ colon :: y) (hy : colon ∉ y) :
    cutLast (pre ++ (Host.literal s).text) colon = pre ++ lit "[" ++ x := by
  have htext : pre ++ (Host.literal s).text = (pre ++ lit "[" ++ x) ++ colon :: (y ++ lit "]") := by
    rw [Host.text, hxy]
    simp
  have hend : colon ∉ y ++ lit "]" := by
    rw [List.mem_append, not_or]
    exact ⟨hy, by decide⟩
  rw [htext, cutLast_append hend]

theorem cut_of_noUserinfo {u : Uri} (hp : u.port = none) (hc : ¬ u.host.HasColon)
    (hi : u.userinfo = none) : cutLast u.authority colon = u.host.text := by
  have hauth : u.authority = u.host.text := by
    rw [authority_of_noPort hp, hi]
    rfl
  rw [hauth, cutLast_of_notMem hc]

theorem cut_of_userinfo {u : Uri} {i : Over userinfoBytes} (hp : u.port = none)
    (hc : ¬ u.host.HasColon) (hi : u.userinfo = some i) (hci : colon ∉ i.1) :
    cutLast u.authority colon = i.1 ++ lit "@" ++ u.host.text := by
  have hauth : u.authority = i.1 ++ lit "@" ++ u.host.text := by
    rw [authority_of_noPort hp, hi]
    rfl
  rw [hauth, cutLast_of_notMem]
  rw [List.mem_append, List.mem_append, not_or, not_or]
  exact ⟨⟨hci, by decide⟩, hc⟩

theorem cut_of_userinfoColon {u : Uri} {i : Over userinfoBytes} {y z : GoString}
    (hp : u.port = none) (hc : ¬ u.host.HasColon) (hi : u.userinfo = some i)
    (hyz : i.1 = y ++ colon :: z) (hz : colon ∉ z) : cutLast u.authority colon = y := by
  have hauth : u.authority = y ++ colon :: (z ++ lit "@" ++ u.host.text) := by
    rw [authority_of_noPort hp, hi, userinfoText, hyz]
    simp
  rw [hauth, cutLast_append]
  rw [List.mem_append, List.mem_append, not_or, not_or]
  exact ⟨⟨hz, by decide⟩, hc⟩

theorem hostFromURL_plain (table : Rune → Rune) {u : Uri} (hu : u.Plain) :
    hostFromURL table u.text = u.host.normal := by
  obtain ⟨hi, hd, hc⟩ := hu
  rw [hostFromURL_text, normal_of_not_hasDot hd]
  cases hp : u.port with
  | none => rw [cut_of_noUserinfo hp (hc hp) hi]
  | some p => rw [cut_of_port hp, hi, userinfoText, List.nil_append]

theorem hostFromURL_selfNamed (table : Rune → Rune) {u : Uri} (hu : u.SelfNamed) :
    hostFromURL table u.text = u.host.normal := by
  obtain ⟨hp, hc, i, y, z, hi, hyz, hz, hy⟩ := hu
  rw [hostFromURL_text, cut_of_userinfoColon hp hc hi hyz hz, hy]

/-! ### Brackets, dots and lengths -/

abbrev bracket : UInt8 := UInt8.ofNat 0x5D

theorem concat_of_suffix_concat {a t : GoString} {c : UInt8} (h : a <:+ t ++ [c]) (hne : a ≠ []) :
    ∃ n, a = n ++ [c] := by
  obtain ⟨n, d, rfl⟩ := (List.eq_nil_or_concat a).resolve_left hne
  rw [List.concat_eq_append] at h ⊢
  obtain ⟨p, hp⟩ := h
  rw [← List.append_assoc] at hp
  obtain ⟨-, hdc⟩ := List.append_inj' hp rfl
  exact ⟨n, by rw [hdc]⟩

theorem mem_of_suffix_concat {a t : GoString} {c : UInt8} (h : a <:+ t ++ [c]) (hne : a ≠ []) :
    c ∈ a := by
  obtain ⟨n, rfl⟩ := concat_of_suffix_concat h hne
  simp

theorem bracket_notMem_userinfo : bracket ∉ userinfoBytes := by decide +kernel

theorem bracket_mem_map {s : GoString} : bracket ∈ s.map lowerByte ↔ bracket ∈ s := by
  have hiff : ∀ b, lowerByte b = bracket ↔ b = bracket := fun b =>
    lowerByte_eq_iff (.inr (.inl ⟨by decide, by decide⟩))
  simp only [List.mem_map, hiff, exists_eq_right]

theorem not_hasDot_literal (s : Over userinfoBytes) : ¬ (Host.literal s).HasDot := by
  intro h
  have hmem := mem_of_suffix_concat (a := lit ".") (c := bracket) h (by decide)
  exact absurd hmem (by decide)

/-- A non-empty suffix of an IP literal has its closing bracket. -/
theorem bracket_mem_of_suffix_literal {s : Over userinfoBytes} {a : GoString}
    (h : a <:+ (Host.literal s).normal) (hne : a ≠ []) : bracket ∈ a := by
  rw [normal_of_not_hasDot (not_hasDot_literal s), Host.text, List.map_append] at h
  exact mem_of_suffix_concat h hne

theorem length_normal_le (h : Host) : h.normal.length ≤ h.text.length := by
  rw [Host.normal, List.length_map, trimSuffix]
  split
  · rw [List.length_take]
    omega
  · exact Nat.le_refl _

theorem length_normal_of_hasDot {h : Host} (hd : h.HasDot) : h.normal.length < h.text.length := by
  have hlen : 1 ≤ h.text.length := List.IsSuffix.length_le hd
  have hone : (lit ".").length = 1 := rfl
  rw [Host.normal, List.length_map, trimSuffix, if_pos (hasSuffix_iff.mpr hd), List.length_take]
  omega

/-- A spelling of the URL's own host that is plain. -/
def ownSpelling (u : Uri) : Spelling where
  host := u.host
  port := if colon ∈ u.host.text then some ⟨lit "443", over_of_all (by decide +kernel)⟩ else none

theorem ownSpelling_plain (u : Uri) : (ownSpelling u).Plain := by
  unfold ownSpelling Spelling.Plain
  by_cases hc : colon ∈ u.host.text
  · simp only [hc, if_true]
    refine ⟨fun h => (by cases h), fun _ => ?_⟩
    cases hh : u.host with
    | name s =>
        rw [hh] at hc
        exact absurd hc (not_hasColon_name s)
    | literal s => exact not_hasDot_literal s
  · simp only [hc, if_false]
    exact ⟨fun _ => hc, fun h => absurd rfl h⟩

/-! ### What right answers say about the URL -/

theorem map_lowerByte_idem (s : GoString) : (s.map lowerByte).map lowerByte = s.map lowerByte := by
  rw [List.map_map]
  exact List.map_congr_left fun b _ => lowerByte_lowerByte b

theorem lowerByte_mem_regName {b : UInt8} (h : b ∈ regNameBytes) :
    lowerByte b ∈ regNameBytes := by
  have hall : ∀ b ∈ regNameBytes, lowerByte b ∈ regNameBytes :=
    forall_mem_of_all (by decide +kernel)
  exact hall b h

theorem normal_mem_regName {s : Over regNameBytes} {b : UInt8} (h : b ∈ (Host.name s).normal) :
    b ∈ regNameBytes := by
  obtain ⟨c, hc, rfl⟩ := List.mem_map.mp h
  exact lowerByte_mem_regName (s.2 c (trimSuffix_subset hc))

/-- The spelling of a bare name, with a dot so that nothing else of it is
trimmed. -/
def dotted (a : GoString) (ha : ∀ b ∈ a, b ∈ regNameBytes) : Spelling where
  host := .name ⟨a ++ lit ".", fun b hb => by
    obtain hb | hb := List.mem_append.mp hb
    · exact ha b hb
    · obtain rfl : b = UInt8.ofNat 0x2E := List.mem_singleton.mp hb
      decide +kernel⟩
  port := none

theorem dotted_plain {a : GoString} (ha : ∀ b ∈ a, b ∈ regNameBytes) : (dotted a ha).Plain := by
  exact ⟨fun _ => not_hasColon_name _, fun h => absurd rfl h⟩

theorem dotted_normal {a : GoString} (ha : ∀ b ∈ a, b ∈ regNameBytes) :
    (dotted a ha).host.normal = a.map lowerByte := by
  have hsuf : hasSuffix (a ++ lit ".") (lit ".") = true :=
    hasSuffix_iff.mpr (List.suffix_append _ _)
  have hlen : (a ++ lit ".").length - (lit ".").length = a.length := by simp
  rw [Host.normal]
  simp only [dotted, Host.text, trimSuffix, hsuf, if_true, hlen, List.take_left]

/-- Right answers to plain spellings need an allowed host that is, label by
label, a parent of the URL's host. -/
theorem labels_hostFromURL_of_right {table : Rune → Rune} {u : Uri} {id browser : GoString}
    {now : Int} (h : ∀ q, q.Plain → Right table u id browser now q) :
    labels (hostFromURL table u.text) <:+ labels u.host.normal := by
  have hq := ownSpelling_plain u
  have hyes := (h _ hq).mpr (List.suffix_refl _)
  rwa [onlySession_allowed_iff, egressHost_plain table hq] at hyes

theorem bracket_notMem_userinfoText {i : Option (Over userinfoBytes)} :
    bracket ∉ userinfoText i := by
  cases i with
  | none => simp [userinfoText]
  | some i =>
      rw [userinfoText, List.mem_append, not_or]
      exact ⟨fun h => bracket_notMem_userinfo (i.2 _ h), by decide⟩

/-- An IP literal that is cut inside its brackets leaves no suffix of it. -/
theorem not_suffix_of_hostColon {u : Uri} (hp : u.port = none) (hc : u.host.HasColon)
    (hne : (cutLast u.authority colon).map lowerByte ≠ []) :
    ¬ (cutLast u.authority colon).map lowerByte <:+ u.host.normal := by
  intro hsuf
  obtain ⟨s, x, y, hh, hxy, hy⟩ := exists_literal_of_hasColon hc
  have hcut : cutLast u.authority colon = userinfoText u.userinfo ++ lit "[" ++ x := by
    rw [authority_of_noPort hp, hh, cutLast_literal hxy hy]
  rw [hh] at hsuf
  have hbr := bracket_mem_map.mp (bracket_mem_of_suffix_literal hsuf hne)
  rw [hcut, List.mem_append, List.mem_append] at hbr
  obtain (hbr | hbr) | hbr := hbr
  · exact bracket_notMem_userinfoText hbr
  · exact absurd hbr (by decide)
  · exact bracket_notMem_userinfo (s.2 _ (by rw [hxy]; exact List.mem_append_left _ hbr))

/-- If the cut falls into the user information, what is left of that spells
the host: it is answered yes itself, so it cannot be a mere parent. -/
theorem eq_normal_of_userinfoColon {table : Rune → Rune} {u : Uri} {id browser : GoString}
    {now : Int} {i : Over userinfoBytes} {y z : GoString} (hyz : i.1 = y ++ colon :: z)
    (hcut : cutLast u.authority colon = y) (hne : y.map lowerByte ≠ [])
    (hsuf : y.map lowerByte <:+ u.host.normal)
    (h : ∀ q, q.Plain → Right table u id browser now q) : y.map lowerByte = u.host.normal := by
  have hy : ∀ b ∈ y.map lowerByte, b ∈ regNameBytes := by
    cases hh : u.host with
    | name s =>
        rw [hh] at hsuf
        exact fun b hb => normal_mem_regName (hsuf.subset hb)
    | literal s =>
        rw [hh] at hsuf
        have hbr := bracket_mem_map.mp (bracket_mem_of_suffix_literal hsuf hne)
        have hbi : bracket ∈ i.1 := by rw [hyz]; exact List.mem_append_left _ hbr
        exact absurd (i.2 _ hbi) bracket_notMem_userinfo
  have hq := dotted_plain hy
  have hyes : (onlySession table u id browser now).isEgressAllowed table
      (dotted _ hy).text = true := by
    rw [onlySession_allowed_iff, egressHost_plain table hq, dotted_normal hy,
      hostFromURL_text, hcut, map_lowerByte_idem]
  have hunder := suffix_of_labels ((h _ hq).mp hyes)
  rw [dotted_normal hy, map_lowerByte_idem] at hunder
  exact hsuf.eq_of_length_le hunder.length_le

/-- A URL whose plain spellings are all answered right is cut at the right
place. -/
theorem plain_of_right {table : Rune → Rune} {u : Uri} {id browser : GoString} {now : Int}
    (hne : hostFromURL table u.text ≠ []) (h : ∀ q, q.Plain → Right table u id browser now q) :
    u.Plain ∨ u.SelfNamed := by
  have hsuf := suffix_of_labels (labels_hostFromURL_of_right h)
  have hle := hsuf.length_le
  rw [hostFromURL_text] at hne hsuf hle
  rw [List.length_map] at hle
  -- a cut that keeps a trailing dot, or the whole host and more, is too long
  have hdot : cutLast u.authority colon = u.host.text → ¬ u.host.HasDot := by
    intro hcut hd
    have hlt := length_normal_of_hasDot hd
    rw [hcut] at hle
    omega
  have hlong : ∀ i : Over userinfoBytes,
      cutLast u.authority colon ≠ i.1 ++ lit "@" ++ u.host.text := by
    intro i hcut
    have hmax := length_normal_le u.host
    have hone : (lit "@").length = 1 := rfl
    rw [hcut, List.length_append, List.length_append] at hle
    omega
  cases hp : u.port with
  | some p =>
      have hcut := cut_of_port hp
      cases hi : u.userinfo with
      | none =>
          rw [hi, userinfoText, List.nil_append] at hcut
          exact .inl ⟨hi, hdot hcut, fun hnone => by rw [hp] at hnone; cases hnone⟩
      | some i =>
          rw [hi, userinfoText] at hcut
          exact absurd hcut (hlong i)
  | none =>
      by_cases hc : u.host.HasColon
      · exact absurd hsuf (not_suffix_of_hostColon hp hc hne)
      · cases hi : u.userinfo with
        | none =>
            exact .inl ⟨hi, hdot (cut_of_noUserinfo hp hc hi), fun _ => hc⟩
        | some i =>
            by_cases hci : colon ∈ i.1
            · obtain ⟨y, z, hyz, hz⟩ := exists_last_of_mem hci
              have hcut := cut_of_userinfoColon hp hc hi hyz hz
              rw [hcut] at hsuf hne
              exact .inr ⟨hp, hc, i, y, z, hi, hyz, hz,
                eq_normal_of_userinfoColon hyz hcut hne hsuf h⟩
            · exact absurd (cut_of_userinfo hp hc hi hci) (hlong i)

/-! ## The comparison -/

theorem right_of_hostFromURL {table : Rune → Rune} {u : Uri} (id browser : GoString) (now : Int)
    {q : Spelling} (hu : hostFromURL table u.text = u.host.normal) (hq : q.Plain) :
    Right table u id browser now q := by
  rw [Right, onlySession_allowed_iff, egressHost_plain table hq, hu]
  rfl

theorem normal_ne_concat_dot {h : Host} {n : GoString} (hd : ¬ h.HasDot) :
    h.normal ≠ n ++ [UInt8.ofNat 0x2E] := by
  intro hn
  rw [normal_of_not_hasDot hd] at hn
  obtain ⟨l, r, htext, -, hr⟩ := List.map_eq_append_iff.mp hn
  obtain ⟨b, rfl, hb⟩ := List.map_eq_singleton_iff.mp hr
  have hdot : b = UInt8.ofNat 0x2E := (lowerByte_eq_iff (.inl (by decide))).mp hb
  exact hd ⟨l, by rw [htext, hdot]; rfl⟩

/-- A spelling that is not plain hides an allowed host: its dot or its
bracket is in the way. -/
theorem not_allowed_of_not_plain {table : Rune → Rune} {u : Uri} {id browser : GoString} {now : Int}
    {q : Spelling} (hne : hostFromURL table u.text ≠ []) (hu : u.Plain) (hunder : Under u q)
    (hq : ¬ q.Plain) :
    (onlySession table u id browser now).isEgressAllowed table q.text ≠ true := by
  intro hyes
  rw [onlySession_allowed_iff, hostFromURL_plain table hu] at hyes
  rw [hostFromURL_plain table hu] at hne
  have hsuf := suffix_of_labels hyes
  cases hp : q.port with
  | some p =>
      have hd : q.host.HasDot := by
        by_contra hd
        exact hq ⟨fun hnone => absurd (hp.symm.trans hnone) (by simp), fun _ => hd⟩
      obtain ⟨t, ht⟩ := hd
      rw [egressHost_of_port table hp, ← ht, List.map_append] at hsuf
      obtain ⟨n, hn⟩ := concat_of_suffix_concat (c := UInt8.ofNat 0x2E) hsuf hne
      exact normal_ne_concat_dot hu.2.1 hn
  | none =>
      have hc : q.host.HasColon := by
        by_contra hc
        exact hq ⟨fun _ => hc, fun h => absurd hp h⟩
      obtain ⟨s, x, y, hh, hxy, hy⟩ := exists_literal_of_hasColon hc
      have hbr : bracket ∈ u.host.normal := by
        refine bracket_mem_of_suffix_literal (s := s) ?_ hne
        rw [← hh]
        exact suffix_of_labels hunder
      have hcut : egressHost table q.text = (lit "[" ++ x).map lowerByte := by
        have htrim : trimSuffix q.text (lit ".") = [] ++ (Host.literal s).text := by
          rw [Spelling.text, hp, hh, portText, List.append_nil, trimSuffix,
            if_neg (mt hasSuffix_iff.mp (not_hasDot_literal s)), List.nil_append]
        rw [egressHost_text, htrim, cutLast_literal hxy hy, List.nil_append]
      rw [hcut] at hsuf
      obtain hb | hb := List.mem_append.mp (bracket_mem_map.mp (hsuf.subset hbr))
      · exact absurd hb (by decide)
      · exact bracket_notMem_userinfo (s.2 _ (by rw [hxy]; exact List.mem_append_left _ hb))

/-- **A session's egress is its own host.** For a URL that `Launch`
accepts, the listener is right about every plain spelling of every host
exactly when the URL is plain or names its host in its user information;
and for a plain URL, the plain spellings are the only ones of its host and
its subdomains that it is right about. -/
theorem egress_right_iff (table : Rune → Rune) (image : GoString) (u : Uri) (id browser : GoString)
    (now : Int) (hacc : launchAccepts table image u.text browser = true) :
    ((∀ q : Spelling, q.Plain → Right table u id browser now q) ↔ u.Plain ∨ u.SelfNamed)
      ∧ (u.Plain → ∀ q : Spelling, Under u q → (Right table u id browser now q ↔ q.Plain)) := by
  have hne : hostFromURL table u.text ≠ [] := by
    have hboth := (Bool.and_eq_true _ _).mp hacc
    simpa using hboth.1
  refine ⟨⟨plain_of_right hne, ?_⟩, fun hu q hunder => ⟨fun hright => ?_, ?_⟩⟩
  · rintro (hu | hu) q hq
    · exact right_of_hostFromURL id browser now (hostFromURL_plain table hu) hq
    · exact right_of_hostFromURL id browser now (hostFromURL_selfNamed table hu) hq
  · by_contra hq
    exact not_allowed_of_not_plain hne hu hunder hq (hright.mpr hunder)
  · exact right_of_hostFromURL id browser now (hostFromURL_plain table hu)

/-- `https://example.com/`, with the given user information. -/
def exampleUri (userinfo : Option (Over userinfoBytes)) : Uri where
  scheme := ⟨lit "https", over_of_all (by decide +kernel)⟩
  userinfo := userinfo
  host := .name ⟨lit "example.com", over_of_all (by decide +kernel)⟩
  port := none
  rest := lit "/"
  rest_ok := fun b hb => by
    obtain rfl := Option.some.inj hb
    decide

/-- `WWW.Example.com:443`. -/
def exampleSpelling : Spelling where
  host := .name ⟨lit "WWW.Example.com", over_of_all (by decide +kernel)⟩
  port := some ⟨lit "443", over_of_all (by decide +kernel)⟩

theorem egress_right_iff_example :
    launchAccepts id (lit "neko") (exampleUri none).text [] = true
      ∧ (exampleUri none).Plain ∧ exampleSpelling.Plain
      ∧ Right id (exampleUri none) (lit "a") [] 0 exampleSpelling := by
  have hacc : launchAccepts id (lit "neko") (exampleUri none).text [] = true := by decide +kernel
  have hu : (exampleUri none).Plain :=
    ⟨rfl, mt hasSuffix_iff.mpr (by decide +kernel), fun _ => not_hasColon_name _⟩
  have hq : exampleSpelling.Plain :=
    ⟨(fun h => nomatch h), fun _ => mt hasSuffix_iff.mpr (by decide +kernel)⟩
  exact ⟨hacc, hu, hq,
    (egress_right_iff id (lit "neko") (exampleUri none) (lit "a") [] 0 hacc).1.mpr (.inl hu) _ hq⟩

/-- For `https://user@example.com/` the host is `example.com`, but
`example.com` is refused: the user information is part of the allowed host. -/
theorem egress_refuses_own_host :
    ∃ i : Over userinfoBytes, i.1 = lit "user"
      ∧ launchAccepts id (lit "neko") (exampleUri (some i)).text [] = true
      ∧ ∃ q : Spelling, q.text = lit "example.com" ∧ Under (exampleUri (some i)) q
        ∧ (onlySession id (exampleUri (some i)) (lit "a") [] 0).isEgressAllowed id q.text = false :=
  ⟨⟨lit "user", over_of_all (by decide +kernel)⟩, rfl, by decide +kernel,
    ⟨(exampleUri none).host, none⟩, rfl, List.suffix_refl _, by decide +kernel⟩

end Controller

end RbiProxy
