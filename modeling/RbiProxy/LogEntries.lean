import RbiProxy.JsonDecode

/-!
# The entries of the log

`LogDNS` and `LogProxy` put a JSON text together from its parts, with the
strings they are given as they are; `GetLastXSecondsDNSLogs` decodes it again,
first as a map, for its type, and then as a `LogEntry`.

A string that needs no escaping comes out as it went in (`readEntry_dns`, `readEntry_proxy`).
With any other, one of them does not: of the strings that need escaping take one
that weighs most. All strings of the text with a backslash in them are parts of
these (`strings_light`), and what such a part stands for weighs less than it
does. So `log_exact_iff`: an entry survives exactly if none of its strings needs
escaping.
-/

namespace RbiProxy

namespace Log

open Json

/-! ## Writing and reading -/

structure LogEntry where
  time : Int := 0
  ip : GoString := []
  url : GoString := []
  type : GoString := []
  dnsResponseType : GoString := []
  proxyResponseType : GoString := []
deriving DecidableEq

def logDNS (secs : Int) (domain user responseType : GoString) : GoString :=
  lit "\x7b\"time\": " ++ formatInt secs ++ lit ", \"ip\":\"" ++ user ++ lit "\",\"url\":\""
    ++ domain ++ lit "\",\"type\":\"dns\", \"dnsResponseType\":\"" ++ responseType ++ lit "\"\x7d"

def logProxy (secs : Int) (url user actionType : GoString) : GoString :=
  lit "\x7b\"time\": " ++ formatInt secs ++ lit ", \"ip\":\"" ++ user ++ lit "\",\"url\":\""
    ++ url ++ lit "\", \"type\":\"proxy\", \"proxyResponseType\":\"" ++ actionType ++ lit "\"\x7d"

def fieldNames : List GoString :=
  [lit "time", lit "ip", lit "url", lit "type", lit "dnsResponseType", lit "proxyResponseType"]

/-- A member of the object, and whether its type is right. -/
def LogEntry.set (e : LogEntry) (name : GoString) (v : Value) : LogEntry × Bool :=
  if name = lit "time" then
    let p := decodeInt64 e.time v
    ({ e with time := p.1 }, p.2)
  else if name = lit "ip" then
    let p := decodeString e.ip v
    ({ e with ip := p.1 }, p.2)
  else if name = lit "url" then
    let p := decodeString e.url v
    ({ e with url := p.1 }, p.2)
  else if name = lit "type" then
    let p := decodeString e.type v
    ({ e with type := p.1 }, p.2)
  else if name = lit "dnsResponseType" then
    let p := decodeString e.dnsResponseType v
    ({ e with dnsResponseType := p.1 }, p.2)
  else
    let p := decodeString e.proxyResponseType v
    ({ e with proxyResponseType := p.1 }, p.2)

/-- `json.Unmarshal` into a `LogEntry`; `none` is an error. -/
def decodeLogEntry (v : Value) : Option LogEntry :=
  let p := decodeStruct fieldNames false LogEntry.set {} v
  if p.2 then some p.1 else none

/-- `parsedValue["type"]`, if it is a string: of equal keys the last one. -/
def typeOf : Value → Option GoString
  | .object members =>
    match members.reverse.find? fun m => unquote m.1 == lit "type" with
    | some (_, .string raw) => some (unquote raw)
    | _ => none
  | _ => none

/-- What the log viewer leaves out of the URL of a proxy entry. -/
def strip (url : GoString) : GoString := removeAll (removeAll url (lit "http://")) (lit ":443")

/-- No number of the text is out of range for a `float64`. -/
def numbersFit (tokens : List Token) : Bool :=
  tokens.all fun
    | .number text => inFloat64 text
    | _ => true

/-- The entry `GetLastXSecondsDNSLogs` makes of a stored text; `none` if it skips
the text. -/
def readEntry (value : GoString) : Option LogEntry := do
  let tokens ← lex value
  let v ← parse tokens
  if numbersFit tokens = false then none
  else if typeOf v = some (lit "dns") ∨ typeOf v = some (lit "proxy") then
    let e ← decodeLogEntry v
    if e.type = lit "proxy" then some { e with url := strip e.url } else some e
  else none

/-! ## The pieces of the text -/

/-- Up to the first string. -/
def opening (secs : Int) : GoString :=
  lit "\x7b\"time\": " ++ formatInt secs ++ lit ", \"ip\":\""

def beforeUrl : GoString := lit "\",\"url\":\""

def dnsBefore : GoString := lit "\",\"type\":\"dns\", \"dnsResponseType\":\""

def proxyBefore : GoString := lit "\", \"type\":\"proxy\", \"proxyResponseType\":\""

def closing : GoString := lit "\"\x7d"

/-- The two texts are alike but for what stands before the last string. -/
def entryText (secs : Int) (before ip url responseType : GoString) : GoString :=
  opening secs ++ (ip ++ (beforeUrl ++ (url ++ (before ++ (responseType ++ closing)))))

theorem logDNS_eq (secs : Int) (domain user responseType : GoString) :
    logDNS secs domain user responseType = entryText secs dnsBefore user domain responseType := by
  simp only [logDNS, entryText, opening, beforeUrl, dnsBefore, closing, List.append_assoc]

theorem logProxy_eq (secs : Int) (url user actionType : GoString) :
    logProxy secs url user actionType = entryText secs proxyBefore user url actionType := by
  simp only [logProxy, entryText, opening, beforeUrl, proxyBefore, closing, List.append_assoc]

def openingTokens (secs : Int) : List Token :=
  [.lbrace, .string (lit "time"), .colon, .number (formatInt secs), .comma, .string (lit "ip"),
    .colon]

theorem feeds_opening (secs : Int) :
    Feeds .start (opening secs) (openingTokens secs) (.body []) := by
  obtain ⟨st, hst, hnum⟩ := feeds_formatInt secs
  have hfirst : Feeds .start (lit "\x7b\"time\": ") [.lbrace, .string (lit "time"), .colon] .start := rfl
  have hlast : Feeds (.number st (formatInt secs)) (lit ", \"ip\":\"")
      [.number (formatInt secs), .comma, .string (lit "ip"), .colon] (.body []) := by
    rcases hst with rfl | rfl
    · rfl
    · rfl
  exact (hfirst.append hnum).append hlast

/-- The tokens of what stands before the URL. -/
def urlTokens : List Token := [.comma, .string (lit "url"), .colon]

def dnsTokens : List Token :=
  [.comma, .string (lit "type"), .colon, .string (lit "dns"), .comma,
    .string (lit "dnsResponseType"), .colon]

def proxyTokens : List Token :=
  [.comma, .string (lit "type"), .colon, .string (lit "proxy"), .comma,
    .string (lit "proxyResponseType"), .colon]

/-- A piece between two strings: it ends one and opens the next, and it is not
read where there is none to end. -/
structure Between (piece : GoString) (tokens : List Token) : Prop where
  feeds : ∀ raw, Feeds (.body raw) piece (.string raw :: tokens) (.body [])
  only : ∀ {st ts st'}, Feeds st piece ts st' → ∃ raw, st = .body raw
  plain : ∀ raw, .string raw ∈ tokens → 92 ∉ raw

/-- Where a quote is read outside of a string or behind a backslash, the piece
behind it is read as if it stood at the start, or behind a backslash. -/
theorem feeds_quote {st st' : LexState} {piece : GoString} {ts : List Token}
    (h : Feeds st (34 :: piece) ts st') :
    (∃ raw, st = .body raw) ∨ (∃ raw, st = .escape raw)
      ∨ ∃ us, Feeds .start (34 :: piece) us st' := by
  cases st with
  | start => exact .inr (.inr ⟨ts, h⟩)
  | body raw => exact .inl ⟨raw, rfl⟩
  | escape raw => exact .inr (.inl ⟨raw, rfl⟩)
  | hex more raw =>
      obtain ⟨us, mid, vs, hnext, -⟩ := feeds_cons_iff.mp h
      cases more <;> cases hnext
  | number num text =>
      obtain ⟨us, mid, vs, hnext, hrest, -⟩ := feeds_cons_iff.mp h
      have hquote : num.next 34 = none := by cases num <;> rfl
      rw [LexState.next, hquote] at hnext
      dsimp only at hnext
      split at hnext
      · obtain ⟨⟨ws, mid'⟩, hstart, heq⟩ := Option.map_eq_some_iff.mp hnext
        obtain ⟨-, rfl⟩ := Prod.mk.inj heq
        exact .inr (.inr ⟨ws ++ vs, feeds_cons_iff.mpr ⟨ws, mid', vs, hstart, hrest, rfl⟩⟩)
      · cases hnext
  | literal l n =>
      obtain ⟨us, mid, vs, hnext, -⟩ := feeds_cons_iff.mp h
      have hno : l.text[n]? ≠ some 34 := by
        intro hget
        have hmem := List.mem_of_getElem? hget
        cases l <;> exact absurd hmem (by decide)
      rw [LexState.next, if_neg hno] at hnext
      cases hnext

theorem between_of {piece : GoString} {tokens : List Token}
    (hbody : ∀ raw, Feeds (.body raw) (34 :: piece) (.string raw :: tokens) (.body []))
    (hstart : feed .start (34 :: piece) = none)
    (hescape : ∀ raw, feed (.escape raw) (34 :: piece) = none)
    (hplain : ∀ raw, .string raw ∈ tokens → 92 ∉ raw) : Between (34 :: piece) tokens := by
  refine ⟨hbody, fun {st ts st'} h => ?_, hplain⟩
  obtain hraw | ⟨raw, rfl⟩ | ⟨us, hus⟩ := feeds_quote h
  · exact hraw
  · cases (hescape raw).symm.trans h
  · cases hstart.symm.trans hus

theorem between_beforeUrl : Between beforeUrl urlTokens := by
  refine between_of (fun _ => rfl) rfl (fun _ => rfl) fun raw hraw => ?_
  simp only [urlTokens, List.mem_cons, List.not_mem_nil, Token.string.injEq, reduceCtorEq,
    false_or, or_false] at hraw
  rw [hraw]
  decide

theorem between_dnsBefore : Between dnsBefore dnsTokens := by
  refine between_of (fun _ => rfl) rfl (fun _ => rfl) fun raw hraw => ?_
  simp only [dnsTokens, List.mem_cons, List.not_mem_nil, Token.string.injEq, reduceCtorEq,
    false_or, or_false] at hraw
  rcases hraw with rfl | rfl | rfl <;> decide

theorem between_proxyBefore : Between proxyBefore proxyTokens := by
  refine between_of (fun _ => rfl) rfl (fun _ => rfl) fun raw hraw => ?_
  simp only [proxyTokens, List.mem_cons, List.not_mem_nil, Token.string.injEq, reduceCtorEq,
    false_or, or_false] at hraw
  rcases hraw with rfl | rfl | rfl <;> decide

/-- The end of the text is read only where a string has to be ended. -/
theorem closing_only {st st' : LexState} {ts us : List Token} (h : Feeds st closing ts st')
    (hfin : st'.finish = some us) :
    ∃ raw, st = .body raw ∧ ts = [.string raw, .rbrace] ∧ us = [] := by
  obtain ⟨raw, rfl⟩ | ⟨raw, rfl⟩ | ⟨vs, hvs⟩ := feeds_quote h
  · have hclose : Feeds (.body raw) closing [.string raw, .rbrace] .start := rfl
    obtain ⟨rfl, rfl⟩ := Prod.mk.inj (Option.some.inj (hclose.symm.trans h))
    exact ⟨raw, rfl, rfl, (Option.some.inj hfin).symm⟩
  · have hclose : feed (.escape raw) closing = some ([], .body (raw ++ [34] ++ [125])) := rfl
    obtain ⟨-, rfl⟩ := Prod.mk.inj (Option.some.inj (hclose.symm.trans h))
    cases hfin
  · have hclose : feed .start closing = some ([], .body [125]) := rfl
    obtain ⟨-, rfl⟩ := Prod.mk.inj (Option.some.inj (hclose.symm.trans hvs))
    cases hfin

/-! ## The strings of the text -/

theorem Feeds.unique {st a b : LexState} {s : GoString} {ts us : List Token}
    (ha : Feeds st s ts a) (hb : Feeds st s us b) : ts = us ∧ a = b :=
  Prod.mk.inj (Option.some.inj (ha.symm.trans hb))

/-- A string with a backslash in it weighs no more than `n`. -/
def AtMost (n : Nat) (raw : GoString) : Prop := 92 ∈ raw → weight raw ≤ n

/-- The strings that a slot of the text is cut into. -/
theorem slot_light {n : Nat} {x raw : GoString} {ts : List Token}
    (h : Feeds (.body []) x ts (.body raw)) (hx : ¬ Plain x → weight x ≤ n) :
    (∀ r, .string r ∈ ts → AtMost n r) ∧ AtMost n raw := by
  by_cases hplain : Plain x
  · obtain ⟨rfl, heq⟩ := Feeds.unique h (feeds_plain hplain [])
    obtain rfl := LexState.body.inj heq
    exact ⟨fun r hr => absurd hr List.not_mem_nil, fun hmem => absurd hmem hplain.notMem⟩
  · obtain ⟨hlight, hpend⟩ := h.light
    have hzero : (LexState.body []).pending = 0 := rfl
    rw [hzero, Nat.zero_add] at hlight hpend
    exact ⟨fun r hr _ => (hlight r hr).trans (hx hplain), fun _ => hpend.trans (hx hplain)⟩

/-- Every string of a text that is read is a piece of one of the three, or one
of the names between them. -/
theorem strings_light {secs : Int} {before ip url responseType : GoString}
    {between ts : List Token} {n : Nat} (hbefore : Between before between)
    (hip : ¬ Plain ip → weight ip ≤ n) (hurl : ¬ Plain url → weight url ≤ n)
    (hrt : ¬ Plain responseType → weight responseType ≤ n)
    (h : lex (entryText secs before ip url responseType) = some ts) :
    ∀ raw, .string raw ∈ ts → AtMost n raw := by
  obtain ⟨all, last, fin, g, hfin, rfl⟩ := lex_eq_some_iff.mp h
  obtain ⟨t₀, s₀, r₀, h₀, g₀, rfl⟩ := g.of_append
  obtain ⟨rfl, rfl⟩ := Feeds.unique h₀ (feeds_opening secs)
  obtain ⟨t₁, s₁, r₁, h₁, g₁, rfl⟩ := g₀.of_append
  obtain ⟨t₂, s₂, r₂, h₂, g₂, rfl⟩ := g₁.of_append
  obtain ⟨raw₁, rfl⟩ := between_beforeUrl.only h₂
  obtain ⟨rfl, rfl⟩ := Feeds.unique h₂ (between_beforeUrl.feeds raw₁)
  obtain ⟨t₃, s₃, r₃, h₃, g₃, rfl⟩ := g₂.of_append
  obtain ⟨t₄, s₄, r₄, h₄, g₄, rfl⟩ := g₃.of_append
  obtain ⟨raw₂, rfl⟩ := hbefore.only h₄
  obtain ⟨rfl, rfl⟩ := Feeds.unique h₄ (hbefore.feeds raw₂)
  obtain ⟨t₅, s₅, r₅, h₅, g₅, rfl⟩ := g₄.of_append
  obtain ⟨raw₃, rfl, rfl, rfl⟩ := closing_only g₅ hfin
  obtain ⟨hslot₁, hraw₁⟩ := slot_light h₁ hip
  obtain ⟨hslot₂, hraw₂⟩ := slot_light h₃ hurl
  obtain ⟨hslot₃, hraw₃⟩ := slot_light h₅ hrt
  intro raw hmem
  have hopening : ∀ r, .string r ∈ openingTokens secs → 92 ∉ r := by
    intro r hr
    simp only [openingTokens, List.mem_cons, List.not_mem_nil, Token.string.injEq, reduceCtorEq,
      false_or, or_false] at hr
    rcases hr with rfl | rfl <;> decide
  simp only [List.append_nil, List.mem_append, List.mem_cons, Token.string.injEq, reduceCtorEq,
    List.not_mem_nil, or_false] at hmem
  rcases hmem with hm | hm | (rfl | hm) | hm | (rfl | hm) | hm | rfl
  · exact fun hb => absurd hb (hopening raw hm)
  · exact hslot₁ raw hm
  · exact hraw₁
  · exact fun hb => absurd hb (between_beforeUrl.plain raw hm)
  · exact hslot₂ raw hm
  · exact hraw₂
  · exact fun hb => absurd hb (hbefore.plain raw hm)
  · exact hslot₃ raw hm
  · exact hraw₃

/-! ## Where the fields come from -/

/-- A field is empty, or what a string of the text stands for. -/
def Sourced (n : Nat) (x : GoString) : Prop :=
  x = [] ∨ ∃ raw, (AtMost n raw ∧ Clean raw) ∧ x = unquote raw

structure LogEntry.Sourced (n : Nat) (e : LogEntry) : Prop where
  ip : Log.Sourced n e.ip
  url : Log.Sourced n e.url
  dnsResponseType : Log.Sourced n e.dnsResponseType
  proxyResponseType : Log.Sourced n e.proxyResponseType

theorem sourced_decodeString {n : Nat} {old : GoString} {v : Value} (hold : Sourced n old)
    (hv : v.Own fun raw => AtMost n raw ∧ Clean raw) : Sourced n (decodeString old v).1 := by
  cases v with
  | string raw => exact .inr ⟨raw, hv raw rfl, rfl⟩
  | _ => exact hold

theorem LogEntry.Sourced.set {n : Nat} {e : LogEntry} (he : e.Sourced n) (name : GoString)
    {v : Value} (hv : v.Own fun raw => AtMost n raw ∧ Clean raw) :
    (e.set name v).1.Sourced n := by
  unfold LogEntry.set
  split_ifs
  · exact ⟨he.ip, he.url, he.dnsResponseType, he.proxyResponseType⟩
  · exact ⟨sourced_decodeString he.ip hv, he.url, he.dnsResponseType, he.proxyResponseType⟩
  · exact ⟨he.ip, sourced_decodeString he.url hv, he.dnsResponseType, he.proxyResponseType⟩
  · exact ⟨he.ip, he.url, he.dnsResponseType, he.proxyResponseType⟩
  · exact ⟨he.ip, he.url, sourced_decodeString he.dnsResponseType hv, he.proxyResponseType⟩
  · exact ⟨he.ip, he.url, he.dnsResponseType, sourced_decodeString he.proxyResponseType hv⟩

/-- What is read from a text whose strings weigh at most `n`. -/
theorem readEntry_sourced {n : Nat} {value : GoString} {e : LogEntry}
    (hstrings : ∀ ts, lex value = some ts → ∀ raw, .string raw ∈ ts → AtMost n raw)
    (h : readEntry value = some e) :
    ∃ e₀ : LogEntry, e₀.Sourced n
      ∧ e = if e₀.type = lit "proxy" then { e₀ with url := strip e₀.url } else e₀ := by
  unfold readEntry at h
  obtain ⟨tokens, hlex, h⟩ := Option.bind_eq_some_iff.mp h
  obtain ⟨v, hparse, h⟩ := Option.bind_eq_some_iff.mp h
  split at h
  · cases h
  split at h
  · obtain ⟨e₀, hdecode, h⟩ := Option.bind_eq_some_iff.mp h
    refine ⟨e₀, ?_, ?_⟩
    · have hempty : ({} : LogEntry).Sourced n := ⟨.inl rfl, .inl rfl, .inl rfl, .inl rfl⟩
      unfold decodeLogEntry at hdecode
      dsimp only at hdecode
      split at hdecode
      · obtain rfl := Option.some.inj hdecode
        cases v with
        | object members =>
            have hmembers : Members (fun raw => AtMost n raw ∧ Clean raw) members :=
              parse_members (fun raw hmem =>
                ⟨hstrings tokens hlex raw hmem, lex_clean hlex raw hmem⟩) hparse
            exact decodeFields_keeps (P := LogEntry.Sourced n)
              (fun m hm t name ht => ht.set name (hmembers m hm)) hempty
        | null | bool | number | string | array => exact hempty
      · cases hdecode
    · split at h
      · rename_i htype
        rw [if_pos htype]
        exact (Option.some.inj h).symm
      · rename_i htype
        rw [if_neg htype]
        exact (Option.some.inj h).symm
  · cases h

/-- Of the strings that need escaping, one that weighs most is not read back. -/
theorem not_sourced {n : Nat} {x y : GoString} (hy : ¬ Plain y) (hn : n ≤ weight y)
    (hx : Sourced n x) (hweight : weight x = weight y)
    (hbad : total badByte x = total badByte y) : False := by
  rw [plain_iff, ← hbad, ← plain_iff] at hy
  obtain rfl | ⟨raw, ⟨hmost, hclean⟩, rfl⟩ := hx
  · exact hy fun b hb => absurd hb List.not_mem_nil
  · by_cases hback : 92 ∈ raw
    · have hlt := weight_unquote hback
      have hle := hmost hback
      omega
    · rw [unquote_of_notMem hback, plain_jsonText_iff] at hy
      exact hy (hclean.resolve_left hback)

theorem total_strip {f : UInt8 → Nat}
    (h : (lit "http://" ++ lit ":443").all (fun b => f b == 0) = true) (url : GoString) :
    total f (strip url) = total f url := by
  have hzero : ∀ b ∈ lit "http://" ++ lit ":443", f b = 0 := fun b hb =>
    beq_iff_eq.mp (List.all_eq_true.mp h b hb)
  rw [List.forall_mem_append] at hzero
  rw [strip, total_removeAll (by decide) hzero.2, total_removeAll (by decide) hzero.1]

theorem weight_strip (url : GoString) : weight (strip url) = weight url :=
  total_strip (by decide) url

theorem bad_strip (url : GoString) : total badByte (strip url) = total badByte url :=
  total_strip (by decide) url

/-! ## Plain entries -/

theorem lex_plain {secs : Int} {before ip url responseType : GoString} {between : List Token}
    (hbefore : Between before between) (hip : Plain ip) (hurl : Plain url)
    (hrt : Plain responseType) :
    lex (entryText secs before ip url responseType)
      = some (openingTokens secs ++ (.string ip :: urlTokens
          ++ (.string url :: between ++ [.string responseType, .rbrace]))) := by
  have hclosing : Feeds (.body responseType) closing [.string responseType, .rbrace] .start := rfl
  have htext := (feeds_opening secs).append ((feeds_plain hip []).append
    ((between_beforeUrl.feeds ip).append ((feeds_plain hurl []).append
      ((hbefore.feeds url).append ((feeds_plain hrt []).append hclosing)))))
  exact lex_eq_some_iff.mpr ⟨_, _, [], htext, rfl, (List.append_nil _).symm⟩

/-- The members of an entry whose last string has the given name and type. -/
def entryMembers (secs : Int) (type last ip url responseType : GoString) :
    List (GoString × Value) :=
  [(lit "time", .number (formatInt secs)), (lit "ip", .string ip), (lit "url", .string url),
    (lit "type", .string type), (last, .string responseType)]

theorem unquote_name {s : GoString}
    (h : s.all (fun b => isPlain b && decide (b < 0x80)) = true) : unquote s = s := by
  have hall : ∀ b ∈ s, isPlain b = true ∧ b < 0x80 := by simpa using h
  exact unquote_plain (fun b hb => (hall b hb).1) (jsonText_of_ascii fun b hb => (hall b hb).2)

theorem fieldOf_name {s : GoString}
    (h : s.all (fun b => isPlain b && decide (b < 0x80)) = true)
    (hmem : fieldNames.contains s = true) : fieldOf fieldNames (unquote s) = some s := by
  rw [unquote_name h, fieldOf, if_pos hmem]

def dnsEntry (secs : Int) (ip url responseType : GoString) : LogEntry :=
  { time := secs, ip := ip, url := url, type := lit "dns", dnsResponseType := responseType }

def proxyEntry (secs : Int) (ip url responseType : GoString) : LogEntry :=
  { time := secs, ip := ip, url := url, type := lit "proxy", proxyResponseType := responseType }

section Plain

variable {secs : Int} {ip url responseType : GoString}

theorem decodeFields_common (hlow : -2 ^ 63 ≤ secs) (hhigh : secs < 2 ^ 63)
    (type : GoString) (rest : List (GoString × Value)) :
    decodeFields fieldNames false LogEntry.set ({}, true)
        ((lit "time", .number (formatInt secs)) :: (lit "ip", .string ip)
          :: (lit "url", .string url) :: (lit "type", .string type) :: rest)
      = decodeFields fieldNames false LogEntry.set
          ({ time := secs, ip := unquote ip, url := unquote url, type := unquote type }, true)
          rest := by
  have htime : decodeInt64 0 (.number (formatInt secs)) = (secs, true) := by
    rw [decodeInt64, parseInt64_formatInt hlow hhigh]
  have hset : ({} : LogEntry).set (lit "time") (.number (formatInt secs))
      = ({ time := secs }, true) := by
    have hif : ({} : LogEntry).set (lit "time") (.number (formatInt secs))
        = ({ time := (decodeInt64 0 (.number (formatInt secs))).1 },
            (decodeInt64 0 (.number (formatInt secs))).2) := rfl
    rw [hif, htime]
  simp only [decodeFields, List.foldl_cons]
  rw [fieldOf_name (by decide) (by decide), fieldOf_name (by decide) (by decide),
    fieldOf_name (by decide) (by decide), fieldOf_name (by decide) (by decide)]
  dsimp only
  rw [hset]
  rfl

theorem typeOf_members (secs : Int) (ip url responseType : GoString) {type last : GoString}
    (h : unquote last ≠ lit "type") (htype : unquote type = type) :
    typeOf (.object (entryMembers secs type last ip url responseType)) = some type := by
  have hlast : (unquote last == lit "type") = false := beq_false_of_ne h
  have hname : (unquote (lit "type") == lit "type") = true := by
    rw [unquote_name (by decide)]
    decide
  rw [typeOf, entryMembers]
  simp only [List.reverse_cons, List.reverse_nil, List.nil_append, List.cons_append,
    List.find?_cons, hlast, hname, htype]

theorem numbersFit_tokens {between : List Token} (hlow : -2 ^ 63 ≤ secs) (hhigh : secs < 2 ^ 63)
    (hbetween : numbersFit between = true) :
    numbersFit (openingTokens secs ++ (.string ip :: urlTokens
      ++ (.string url :: between ++ [.string responseType, .rbrace]))) = true := by
  have hsecs : inFloat64 (formatInt secs) = true := inFloat64_formatInt (by omega)
  unfold numbersFit at hbetween ⊢
  simp only [List.all_append, List.all_cons, List.all_nil, openingTokens, urlTokens, hsecs, hbetween,
    Bool.and_self]

theorem readEntry_dns (hlow : -2 ^ 63 ≤ secs) (hhigh : secs < 2 ^ 63) (hip : Plain ip)
    (hurl : Plain url) (hrt : Plain responseType) :
    readEntry (logDNS secs url ip responseType)
      = some (dnsEntry secs (unquote ip) (unquote url) (unquote responseType)) := by
  have hparse : parse (openingTokens secs ++ (.string ip :: urlTokens
      ++ (.string url :: dnsTokens ++ [.string responseType, .rbrace])))
      = some (.object (entryMembers secs (lit "dns") (lit "dnsResponseType") ip url
          responseType)) := rfl
  have hlast : unquote (lit "dnsResponseType") ≠ lit "type" := by
    rw [unquote_name (by decide)]
    decide
  have hkind : unquote (lit "dns") = lit "dns" := unquote_name (by decide)
  have htype := typeOf_members secs ip url responseType hlast hkind
  have hdecode : decodeLogEntry (.object (entryMembers secs (lit "dns") (lit "dnsResponseType") ip
      url responseType)) = some (dnsEntry secs (unquote ip) (unquote url) (unquote responseType)) := by
    have hmembers : decodeFields fieldNames false LogEntry.set ({}, true)
        (entryMembers secs (lit "dns") (lit "dnsResponseType") ip url responseType)
        = (dnsEntry secs (unquote ip) (unquote url) (unquote responseType), true) := by
      rw [entryMembers, decodeFields_common hlow hhigh, hkind,
        decodeFields, List.foldl_cons,
        fieldOf_name (s := lit "dnsResponseType") (by decide) (by decide)]
      rfl
    simp only [decodeLogEntry, decodeStruct, hmembers, if_true]
  rw [logDNS_eq, readEntry, lex_plain between_dnsBefore hip hurl hrt]
  simp only [Option.bind_eq_bind, Option.bind_some, hparse]
  rw [numbersFit_tokens hlow hhigh rfl, htype, hdecode]
  rfl

theorem readEntry_proxy (hlow : -2 ^ 63 ≤ secs) (hhigh : secs < 2 ^ 63) (hip : Plain ip)
    (hurl : Plain url) (hrt : Plain responseType) :
    readEntry (logProxy secs url ip responseType)
      = some (proxyEntry secs (unquote ip) (strip (unquote url)) (unquote responseType)) := by
  have hparse : parse (openingTokens secs ++ (.string ip :: urlTokens
      ++ (.string url :: proxyTokens ++ [.string responseType, .rbrace])))
      = some (.object (entryMembers secs (lit "proxy") (lit "proxyResponseType") ip url
          responseType)) := rfl
  have hlast : unquote (lit "proxyResponseType") ≠ lit "type" := by
    rw [unquote_name (by decide)]
    decide
  have hkind : unquote (lit "proxy") = lit "proxy" := unquote_name (by decide)
  have htype := typeOf_members secs ip url responseType hlast hkind
  have hdecode : decodeLogEntry (.object (entryMembers secs (lit "proxy")
      (lit "proxyResponseType") ip url responseType))
      = some (proxyEntry secs (unquote ip) (unquote url) (unquote responseType)) := by
    have hmembers : decodeFields fieldNames false LogEntry.set ({}, true)
        (entryMembers secs (lit "proxy") (lit "proxyResponseType") ip url responseType)
        = (proxyEntry secs (unquote ip) (unquote url) (unquote responseType), true) := by
      rw [entryMembers, decodeFields_common hlow hhigh, hkind,
        decodeFields, List.foldl_cons,
        fieldOf_name (s := lit "proxyResponseType") (by decide) (by decide)]
      rfl
    simp only [decodeLogEntry, decodeStruct, hmembers, if_true]
  rw [logProxy_eq, readEntry, lex_plain between_proxyBefore hip hurl hrt]
  simp only [Option.bind_eq_bind, Option.bind_some, hparse]
  rw [numbersFit_tokens hlow hhigh rfl, htype, hdecode]
  rfl

end Plain

/-! ## The result -/

/-- The entry that is read has the domain, the address, the type and the
response type that were logged. -/
def DnsExact (secs : Int) (domain user responseType : GoString) : Prop :=
  ∃ e, readEntry (logDNS secs domain user responseType) = some e ∧ e.ip = user ∧ e.url = domain
    ∧ e.type = lit "dns" ∧ e.dnsResponseType = responseType

/-- The same for a proxy entry, with the URL as the viewer shows it. -/
def ProxyExact (secs : Int) (url user actionType : GoString) : Prop :=
  ∃ e, readEntry (logProxy secs url user actionType) = some e ∧ e.ip = user ∧ e.url = strip url
    ∧ e.type = lit "proxy" ∧ e.proxyResponseType = actionType

/-- If three strings are not all plain, there is one that is not and weighs as
much as the others that are not. -/
theorem exists_heaviest {x y z : GoString} (h : ¬ (Plain x ∧ Plain y ∧ Plain z)) :
    ∃ w ∈ [x, y, z], ¬ Plain w ∧ ∀ v ∈ [x, y, z], ¬ Plain v → weight v ≤ weight w := by
  classical
  have hne : ([x, y, z].toFinset.filter fun w => ¬ Plain w).Nonempty := by
    by_contra hempty
    rw [Finset.not_nonempty_iff_eq_empty, Finset.filter_eq_empty_iff] at hempty
    exact h ⟨by simpa using hempty (x := x) (by simp), by simpa using hempty (x := y) (by simp),
      by simpa using hempty (x := z) (by simp)⟩
  obtain ⟨w, hw, hmax⟩ := Finset.exists_max_image _ weight hne
  rw [Finset.mem_filter, List.mem_toFinset] at hw
  refine ⟨w, hw.1, hw.2, fun v hv hplain => hmax v ?_⟩
  rw [Finset.mem_filter, List.mem_toFinset]
  exact ⟨hv, hplain⟩

section Result

variable {secs : Int} {ip url responseType : GoString}

theorem plain_of_dnsExact (h : DnsExact secs url ip responseType) :
    Plain ip ∧ Plain url ∧ Plain responseType := by
  by_contra hno
  obtain ⟨w, hw, hbad, hmax⟩ := exists_heaviest hno
  obtain ⟨e, hread, rfl, rfl, htype, rfl⟩ := h
  rw [logDNS_eq] at hread
  obtain ⟨e₀, hsourced, heq⟩ := readEntry_sourced (n := weight w) (fun ts hts =>
    strings_light between_dnsBefore (hmax _ (by simp)) (hmax _ (by simp)) (hmax _ (by simp)) hts)
    hread
  have hsame : e = e₀ := by
    split at heq
    · rename_i hproxy
      rw [heq] at htype
      exact absurd (hproxy.symm.trans htype) (by decide)
    · exact heq
  rw [← hsame] at hsourced
  simp only [List.mem_cons, List.not_mem_nil, or_false] at hw
  rcases hw with rfl | rfl | rfl
  · exact not_sourced hbad (Nat.le_refl _) hsourced.ip rfl rfl
  · exact not_sourced hbad (Nat.le_refl _) hsourced.url rfl rfl
  · exact not_sourced hbad (Nat.le_refl _) hsourced.dnsResponseType rfl rfl

theorem plain_of_proxyExact (h : ProxyExact secs url ip responseType) :
    Plain ip ∧ Plain url ∧ Plain responseType := by
  by_contra hno
  obtain ⟨w, hw, hbad, hmax⟩ := exists_heaviest hno
  obtain ⟨e, hread, rfl, hurl, htype, rfl⟩ := h
  rw [logProxy_eq] at hread
  obtain ⟨e₀, hsourced, heq⟩ := readEntry_sourced (n := weight w) (fun ts hts =>
    strings_light between_proxyBefore (hmax _ (by simp)) (hmax _ (by simp)) (hmax _ (by simp)) hts)
    hread
  have hsame : e = { e₀ with url := strip e₀.url } := by
    split at heq
    · exact heq
    · rename_i hproxy
      rw [heq] at htype
      exact absurd htype hproxy
  have hstrip : strip e₀.url = strip url := by
    rw [hsame] at hurl
    exact hurl
  simp only [hsame, List.mem_cons, List.not_mem_nil, or_false] at hw
  rcases hw with rfl | rfl | rfl
  · exact not_sourced hbad (Nat.le_refl _) hsourced.ip rfl rfl
  · refine not_sourced hbad (Nat.le_refl _) hsourced.url ?_ ?_
    · rw [← weight_strip e₀.url, hstrip, weight_strip]
    · rw [← bad_strip e₀.url, hstrip, bad_strip]
  · exact not_sourced hbad (Nat.le_refl _) hsourced.proxyResponseType rfl rfl

end Result

/-- **The log.** For all strings of valid UTF-8, at every time: an entry of
either kind is read back as it was logged exactly if none of its strings has a
quote, a backslash or a control character in it. -/
theorem log_exact_iff {secs : Int} (hlow : -2 ^ 63 ≤ secs) (hhigh : secs < 2 ^ 63)
    {user url responseType : GoString} (huser : Utf8 user) (hurl : Utf8 url)
    (hrt : Utf8 responseType) :
    (DnsExact secs url user responseType ↔ Plain user ∧ Plain url ∧ Plain responseType)
      ∧ (ProxyExact secs url user responseType ↔ Plain user ∧ Plain url ∧ Plain responseType) := by
  constructor
  · refine ⟨plain_of_dnsExact, ?_⟩
    rintro ⟨hpu, hpl, hpr⟩
    refine ⟨_, readEntry_dns hlow hhigh hpu hpl hpr, ?_⟩
    rw [unquote_plain hpu huser, unquote_plain hpl hurl, unquote_plain hpr hrt]
    exact ⟨rfl, rfl, rfl, rfl⟩
  · refine ⟨plain_of_proxyExact, ?_⟩
    rintro ⟨hpu, hpl, hpr⟩
    refine ⟨_, readEntry_proxy hlow hhigh hpu hpl hpr, ?_⟩
    rw [unquote_plain hpu huser, unquote_plain hpl hurl, unquote_plain hpr hrt]
    exact ⟨rfl, rfl, rfl, rfl⟩

/-- A request and a query for the same host. -/
theorem log_exact_plain :
    DnsExact 1700000000 (lit "example.com") (lit "dns") (lit "blocked")
      ∧ ProxyExact 1700000000 (lit "example.com") (lit "dns") (lit "blocked") := by
  have hplain : Plain (lit "dns") ∧ Plain (lit "example.com") ∧ Plain (lit "blocked") := by decide
  have hlow : -2 ^ 63 ≤ (1700000000 : Int) := by decide
  have hiff := log_exact_iff hlow (by decide)
    (utf8_of_all (s := lit "dns") (by decide))
    (utf8_of_all (s := lit "example.com") (by decide))
    (utf8_of_all (s := lit "blocked") (by decide))
  exact ⟨hiff.1.mpr hplain, hiff.2.mpr hplain⟩

/-- A quote in the query of a URL hides the entry, or puts another address into
it. -/
theorem quote_hides_entry :
    readEntry (logProxy 1700000000 (lit "http://a.b/?q=\"x") (lit "10.0.0.1") (lit "ssldirect"))
        = none
      ∧ (∃ e, readEntry (logProxy 1700000000 (lit "http://a.b/?\",\"ip\":\"10.0.0.9")
          (lit "10.0.0.1") (lit "ssldirect")) = some e ∧ e.ip = lit "10.0.0.9")
      ∧ ¬ ∀ (secs : Int) (url user responseType : GoString), -2 ^ 63 ≤ secs → secs < 2 ^ 63 →
          Utf8 user → Utf8 url → Utf8 responseType →
          DnsExact secs url user responseType ∧ ProxyExact secs url user responseType := by
  refine ⟨rfl, ?_, ?_⟩
  · exact ⟨proxyEntry 1700000000 (lit "10.0.0.9") (lit "a.b/?") (lit "ssldirect"),
      by decide +kernel, rfl⟩
  · intro hall
    have hexact := hall 1700000000 (lit "http://a.b/?q=\"x") (lit "10.0.0.1") (lit "ssldirect")
      (by decide) (by decide) (utf8_of_all (by decide)) (utf8_of_all (by decide))
      (utf8_of_all (by decide))
    exact absurd (plain_of_proxyExact hexact.2).2.1 (by decide)

end Log

end RbiProxy
