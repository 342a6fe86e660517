import RbiProxy.HelloFault

/-!
# The host name of a record

`block` and `lastHost` read the extensions of a ClientHello and its last host
name off the bytes alone. `unmarshall_reads` and `extensionLoop_walk` say what
`Unmarshall` makes of them: the extensions decide whether it accepts, and the
name it stores has everything behind it in its list (`whole`).

`Reads` and `Walk` are stated for any parser of this shape.
-/

namespace RbiProxy

namespace Hello

open GoSlice Framing

/-! ## The bytes alone -/

/-- What follows a vector with one byte of length. -/
def skip8 : GoString → Option GoString
  | n :: l => if l.length < n.toNat then none else some (l.drop n.toNat)
  | [] => none

/-- What follows a vector with two bytes of length. -/
def skip16 : GoString → Option GoString
  | a :: b :: l => if l.length < (be16 a b).toNat then none else some (l.drop (be16 a b).toNat)
  | _ => none

/-- The declared length of the extensions, and the bytes that are there. -/
def declared : GoString → Option (Nat × GoString)
  | c :: d :: exts => some ((be16 c d).toNat, exts)
  | _ => none

/-- The extensions of a record: behind the session id, the cipher suites and
the compression methods. -/
def block (payload : GoString) : Option (Nat × GoString) :=
  if payload.length < 43 then none
  else (skip8 (payload.drop 43)).bind fun hs =>
    (skip16 hs).bind fun hs => (skip8 hs).bind declared

/-- The last host name of a `server_name` list, and the bytes behind it. -/
def hostEntry : GoString → Option (GoString × GoString)
  | ty :: a :: b :: rest =>
    if rest.length < (be16 a b).toNat then none
    else (hostEntry (rest.drop (be16 a b).toNat)).or
      (if ty = sniNameTypeDNS then
        some (rest.take (be16 a b).toNat, rest.drop (be16 a b).toNat) else none)
  | _ => none
termination_by data => data.length
decreasing_by simp only [List.length_drop, List.length_cons]; omega

/-- The last host name of the extensions, and the bytes behind it in its
list. -/
def lastHost : GoString → Option (GoString × GoString)
  | t₁ :: t₂ :: a :: b :: rest =>
    if rest.length < (be16 a b).toNat then none
    else (lastHost (rest.drop (be16 a b).toNat)).or
      (if be16 t₁ t₂ = extServerName then hostEntry ((rest.take (be16 a b).toNat).drop 2)
        else none)
  | _ => none
termination_by hs => hs.length
decreasing_by simp only [List.length_drop, List.length_cons]; omega

/-- A field that is overwritten with what is picked, if anything is. -/
theorem pick_or {α β : Type} (f : α → β) (x y : Option α) (z : β) :
    ((x.or y).map f).getD z = (x.map f).getD ((y.map f).getD z) := by
  cases x with
  | none => rfl
  | some a => rfl

/-- How the result of a parser hangs on the extensions: there is none without
a complete block, or when the declared length is larger by more than `slack`,
and otherwise the loop over the extensions decides. -/
def Reads {ε α : Type} (loop : α → GoString → Except ε α) (sni : α → GoString) (slack : Nat)
    (r : Except ε α) : Option (Nat × GoString) → Prop
  | none => ∀ x, r ≠ .ok x
  | some (len, exts) =>
    if exts.length + slack < len then ∀ x, r ≠ .ok x
    else ∃ x, sni x = [] ∧ r = loop x exts

theorem error_ne_ok {ε α : Type} {e : ε} (x : α) : Except.error e ≠ .ok x :=
  fun h => by cases h

/-! ## The Go parser -/

theorem parseExtensions_reads {ch : ClientHello} (hsni : ch.sni = []) (hs : GoString) :
    Reads extensionLoop ClientHello.sni 2 (parseExtensions ch hs) (declared hs) := by
  rcases body_cases hs with hshort | ⟨c, d, exts, rfl⟩
  · have hnone : declared hs = none := by
      match hs, hshort with
      | [], _ => rfl
      | [_], _ => rfl
    rw [hnone, parseExtensions_short hshort]
    exact error_ne_ok
  · rw [parseExtensions_cons, declared, Reads]
    split
    · exact error_ne_ok
    · refine ⟨_, ?_, rfl⟩
      exact hsni

theorem parseCompression_reads {ch : ClientHello} (hsni : ch.sni = []) (hs : GoString) :
    Reads extensionLoop ClientHello.sni 2 (parseCompression ch hs)
      ((skip8 hs).bind declared) := by
  cases hs with
  | nil => exact error_ne_ok
  | cons n l =>
      rw [skip8]
      by_cases hlt : l.length < n.toNat
      · rw [if_pos hlt, parseCompression_short hlt]
        exact error_ne_ok
      · rw [if_neg hlt]
        obtain ⟨methods, rest, rfl, hlen⟩ := exists_append_of_le (Nat.le_of_not_lt hlt)
        rw [parseCompression_cons ch hlen, ← hlen, List.drop_left]
        refine parseExtensions_reads ?_ rest
        exact hsni

theorem parseCipherSuites_reads {ch : ClientHello} (hsni : ch.sni = []) {hs : GoString}
    (hlen : hs.length < 65534) :
    Reads extensionLoop ClientHello.sni 2 (parseCipherSuites ch hs)
      ((skip16 hs).bind fun hs => (skip8 hs).bind declared) := by
  rcases body_cases hs with hshort | ⟨a, b, l, rfl⟩
  · have hnone : skip16 hs = none := by
      match hs, hshort with
      | [], _ => rfl
      | [_], _ => rfl
    rw [hnone, parseCipherSuites_short hshort]
    exact error_ne_ok
  rw [List.length_cons, List.length_cons] at hlen
  rw [skip16]
  by_cases hlt : l.length < (be16 a b).toNat
  · rw [if_pos hlt]
    by_cases htrunc : l.length + 2 < (be16 a b).toNat
    · rw [parseCipherSuites_truncated ch htrunc]
      exact error_ne_ok
    · rw [parseCipherSuites_overrun hlt (by omega) (by omega)]
      exact error_ne_ok
  · rw [if_neg hlt]
    obtain ⟨suites, rest, rfl, hsuites⟩ := exists_append_of_le (Nat.le_of_not_lt hlt)
    rw [List.length_append] at hlen
    obtain ⟨ws, hws⟩ := words16_ok (ε := HelloError) (s := a :: b :: (suites ++ rest)) 2
      ((be16 a b).toNat / 2) (by simp only [List.length_cons, List.length_append]; omega)
    rw [parseCipherSuites_cons ch suites hsuites (by omega), hws, ← hsuites, List.drop_left]
    refine parseCompression_reads ?_ rest
    exact hsni

theorem parseSessionID_reads {ch : ClientHello} (hsni : ch.sni = []) {hs : GoString}
    (hlen : hs.length < 65534) :
    Reads extensionLoop ClientHello.sni 2 (parseSessionID ch hs)
      ((skip8 hs).bind fun hs => (skip16 hs).bind fun hs => (skip8 hs).bind declared) := by
  cases hs with
  | nil => exact error_ne_ok
  | cons n l =>
      rw [skip8]
      by_cases hlt : l.length < n.toNat
      · rw [if_pos hlt, parseSessionID_short hlt]
        exact error_ne_ok
      · rw [if_neg hlt]
        obtain ⟨sid, rest, rfl, hsid⟩ := exists_append_of_le (Nat.le_of_not_lt hlt)
        rw [List.length_cons, List.length_append] at hlen
        rw [parseSessionID_cons ch hsid, ← hsid, List.drop_left]
        refine parseCipherSuites_reads ?_ (by omega)
        exact hsni

/-- What `Unmarshall` makes of a record that `ReadClientHello` returns. -/
theorem unmarshall_reads {payload : GoString} (h : Accepted payload) :
    Reads extensionLoop ClientHello.sni 2 (unmarshall payload) (block payload) := by
  have hmax := h.maxLen
  obtain ⟨v₁, v₂, l₁, l₂, m₁, m₂, m₃, rest, rfl⟩ := h.cases
  simp only [List.length_cons] at hmax
  rw [unmarshall_cons]
  match rest with
  | [] | [_] => exact error_ne_ok
  | w₁ :: w₂ :: hs =>
      rw [parseHandshake_cons, block]
      simp only [List.length_cons, List.drop_succ_cons] at hmax ⊢
      by_cases hlt : hs.length < 32
      · rw [if_pos (by omega), parseRandom_short hlt]
        exact error_ne_ok
      · rw [if_neg (by omega)]
        obtain ⟨random, tail, rfl, hrandom⟩ := exists_append_of_le (Nat.le_of_not_lt hlt)
        rw [List.length_append] at hmax
        rw [parseRandom_append _ hrandom, ← hrandom, List.drop_left]
        exact parseSessionID_reads rfl (by omega)

/-- The Go parser takes a host name with everything behind it. -/
def whole (e : GoString × GoString) : GoString := e.1 ++ e.2

theorem hostEntry_short {data : GoString} (h : data.length < 3) : hostEntry data = none := by
  match data, h with
  | [], _ => simp [hostEntry]
  | [_], _ => simp [hostEntry]
  | [_, _], _ => simp [hostEntry]

theorem serverNameLoop_sni : ∀ (data : GoString) {ch ch' : ClientHello},
    serverNameLoop ch data = .ok ch' →
      ch'.sni = ((hostEntry data).map whole).getD ch.sni
  | [], ch, ch', h => by
      rw [serverNameLoop_nil] at h
      cases h
      rw [hostEntry_short (by simp)]
      rfl
  | [_], _, _, h => by
      rw [serverNameLoop_short (by simp) (by simp)] at h
      cases h
  | [_, _], _, _, h => by
      rw [serverNameLoop_short (by simp) (by simp)] at h
      cases h
  | ty :: a :: b :: rest, ch, ch', h => by
      rw [serverNameLoop_cons] at h
      split at h
      · rename_i hle
        have ih := serverNameLoop_sni (rest.drop (be16 a b).toNat) h
        rw [hostEntry, if_neg (Nat.not_lt.mpr hle), pick_or, ih]
        congr 1
        split
        · simp [whole, List.take_append_drop]
        · rfl
      · cases h
termination_by data => data.length
decreasing_by simp only [List.length_drop, List.length_cons]; omega

theorem alpnLoop_sni : ∀ (data : GoString) {ch ch' : ClientHello},
    alpnLoop ch data = .ok ch' → ch'.sni = ch.sni
  | [], ch, ch', h => by
      rw [alpnLoop_nil] at h
      cases h
      rfl
  | n :: data, ch, ch', h => by
      rw [alpnLoop_cons] at h
      split at h
      · have ih := alpnLoop_sni (data.drop n.toNat) h
        exact ih
      · cases h
termination_by data => data.length
decreasing_by simp only [List.length_drop, List.length_cons]; omega

theorem exists_of_map_ok {ε α β : Type} {f : α → β} {r : Except ε α} {y : β}
    (h : r.map f = .ok y) : ∃ x, r = .ok x ∧ f x = y := by
  cases r with
  | ok x => exact ⟨x, rfl, Except.ok.inj h⟩
  | error e => cases h

/-- The name that an extension brings, if it is a `server_name`. -/
def extHost (ty : UInt16) (body : GoString) : Option (GoString × GoString) :=
  if ty = extServerName then hostEntry (body.drop 2) else none

theorem extension_sni {ch ch' : ClientHello} {ty len : UInt16} {body : GoString}
    (h : extension ch ty len body = .ok ch') :
    ch'.sni = ((extHost ty body).map whole).getD ch.sni := by
  unfold extHost
  by_cases h1 : ty = extServerName
  · subst h1
    rw [if_pos rfl]
    rcases body_cases body with hshort | ⟨a, b, l, rfl⟩
    · rw [extension_serverName_short hshort] at h
      cases h
    · rw [extension_serverName] at h
      split at h
      · cases h
      · exact serverNameLoop_sni l h
  rw [if_neg h1]
  change ch'.sni = ch.sni
  by_cases h2 : ty = extSignatureAlgs
  · subst h2
    rw [extension_signatureAlgs] at h
    obtain ⟨algs, -, rfl⟩ := exists_of_map_ok h
    rfl
  by_cases h3 : ty = extSupportedGroups
  · subst h3
    rw [extension_supportedGroups] at h
    obtain ⟨groups, -, rfl⟩ := exists_of_map_ok h
    rfl
  by_cases h4 : ty = extECPointFormats
  · subst h4
    cases body with
    | nil =>
        rw [extension_pointFormats_nil] at h
        cases h
    | cons n l =>
        rw [extension_pointFormats] at h
        split at h
        · cases h
        · cases h
          rfl
  by_cases h5 : ty = extStatusRequest
  · subst h5
    cases body with
    | nil =>
        rw [extension_statusRequest_nil] at h
        cases h
    | cons t l =>
        rw [extension_statusRequest] at h
        cases h
        split
        · rfl
        · rfl
  by_cases h6 : ty = extALPN
  · subst h6
    rcases body_cases body with hshort | ⟨a, b, l, rfl⟩
    · rw [extension_alpn_short hshort] at h
      cases h
    · rw [extension_alpn] at h
      split at h
      · exact alpnLoop_sni l h
      · cases h
  rw [extension_other ch len body (by simp [knownTypes, h1, h2, h3, h4, h5, h6])] at h
  cases h
  rfl

theorem lastHost_short {hs : GoString} (h : hs.length < 4) : lastHost hs = none := by
  match hs, h with
  | [], _ => simp [lastHost]
  | [_], _ => simp [lastHost]
  | [_, _], _ => simp [lastHost]
  | [_, _, _], _ => simp [lastHost]

theorem lastHost_cons {t₁ t₂ a b : UInt8} {rest : GoString}
    (hle : (be16 a b).toNat ≤ rest.length) :
    lastHost (t₁ :: t₂ :: a :: b :: rest) = (lastHost (rest.drop (be16 a b).toNat)).or
      (extHost (be16 t₁ t₂) (rest.take (be16 a b).toNat)) := by
  rw [lastHost, if_neg (Nat.not_lt.mpr hle)]
  rfl

/-! ## The loop over the extensions

Both parsers go through the extensions alike, each with a `switch` of its
own. -/

section Walk

variable {ε α : Type}

/-- A loop over the extensions: `ext` is its `switch`, which accepts the
bodies that `accepted` describes and stores `pick` of the last host name. -/
structure Walk (loop : α → GoString → Except ε α)
    (ext : α → UInt16 → UInt16 → GoString → Except ε α) (sni : α → GoString)
    (pick : GoString × GoString → GoString) (accepted : UInt16 → GoString → Prop) : Prop where
  nil : ∀ x, loop x [] = .ok x
  short : ∀ x hs, hs ≠ [] → hs.length < 4 → ∀ y, loop x hs ≠ .ok y
  truncated : ∀ x t₁ t₂ a b rest, rest.length < (be16 a b).toNat →
    ∀ y, loop x (t₁ :: t₂ :: a :: b :: rest) ≠ .ok y
  cons : ∀ x t₁ t₂ a b rest, (be16 a b).toNat ≤ rest.length → rest.length < 65532 →
    loop x (t₁ :: t₂ :: a :: b :: rest)
      = (ext x (be16 t₁ t₂) (be16 a b) (rest.take (be16 a b).toNat)).bind fun x =>
        loop x (rest.drop (be16 a b).toNat)
  accepts : ∀ x ty len body, (∃ y, ext x ty len body = .ok y) ↔ accepted ty body
  stores : ∀ {x y ty len body}, ext x ty len body = .ok y →
    sni y = ((extHost ty body).map pick).getD (sni x)

/-- A result that is none, where `acc` says when there is one. -/
theorem reads_of_rejected {r : Except ε α} {acc : Prop} {stored : α → Prop}
    (hno : ∀ y, r ≠ .ok y) (hacc : ¬ acc) :
    ((∃ y, r = .ok y) ↔ acc) ∧ ∀ y, r = .ok y → stored y := by
  refine ⟨iff_of_false ?_ hacc, fun y hy => absurd hy (hno y)⟩
  rintro ⟨y, hy⟩
  exact hno y hy

/-- The blocks whose bodies are all accepted. -/
def AcceptedBlock (accepted : UInt16 → GoString → Prop) : GoString → Prop :=
  Entries 4 extLen fun h body => accepted (extType h) body

theorem acceptedBlock_cons (accepted : UInt16 → GoString → Prop) (t₁ t₂ a b : UInt8)
    (rest : GoString) :
    AcceptedBlock accepted (t₁ :: t₂ :: a :: b :: rest) ↔ (be16 a b).toNat ≤ rest.length
      ∧ accepted (be16 t₁ t₂) (rest.take (be16 a b).toNat)
      ∧ AcceptedBlock accepted (rest.drop (be16 a b).toNat) :=
  entries_append_iff (h := [t₁, t₂, a, b]) (l := rest) rfl (by omega)

theorem Walk.reads {loop : α → GoString → Except ε α}
    {ext : α → UInt16 → UInt16 → GoString → Except ε α} {sni : α → GoString}
    {pick : GoString × GoString → GoString} {accepted : UInt16 → GoString → Prop}
    (w : Walk loop ext sni pick accepted) (hs : GoString) (x : α) (hlen : hs.length < 65536) :
    ((∃ y, loop x hs = .ok y) ↔ AcceptedBlock accepted hs)
      ∧ ∀ y, loop x hs = .ok y → sni y = ((lastHost hs).map pick).getD (sni x) := by
  induction hs using lastHost.induct generalizing x with
  | case1 t₁ t₂ a b rest hlt =>
      have hno := w.truncated x t₁ t₂ a b rest hlt
      refine reads_of_rejected hno fun hb => ?_
      exact absurd ((acceptedBlock_cons ..).mp hb).1 (Nat.not_le.mpr hlt)
  | case2 t₁ t₂ a b rest hlt ih =>
      have hle : (be16 a b).toNat ≤ rest.length := Nat.le_of_not_lt hlt
      simp only [List.length_cons] at hlen
      have hacc := w.accepts x (be16 t₁ t₂) (be16 a b) (rest.take (be16 a b).toNat)
      rw [acceptedBlock_cons, lastHost_cons hle, w.cons x t₁ t₂ a b rest hle (by omega)]
      simp only [hle, true_and, ← hacc]
      cases hext : ext x (be16 t₁ t₂) (be16 a b) (rest.take (be16 a b).toNat) with
      | error e =>
          refine reads_of_rejected error_ne_ok ?_
          rintro ⟨⟨y, hy⟩, -⟩
          cases hy
      | ok x' =>
          obtain ⟨hiff, hsni⟩ := ih x' (by rw [List.length_drop]; omega)
          refine ⟨⟨fun hy => ⟨⟨x', rfl⟩, hiff.mp hy⟩, fun hy => hiff.mpr hy.2⟩, fun y hy => ?_⟩
          rw [pick_or, hsni y hy, w.stores hext]
  | case3 hs hshort =>
      cases hs with
      | nil =>
          refine ⟨⟨fun _ => .nil, fun _ => ⟨x, w.nil x⟩⟩, fun y hy => ?_⟩
          rw [w.nil] at hy
          cases hy
          rw [lastHost_short (by simp)]
          rfl
      | cons b₁ hs =>
          have h4 : (b₁ :: hs).length < 4 := by
            rcases hs with _ | ⟨b₂, _ | ⟨b₃, _ | ⟨b₄, rest⟩⟩⟩
            · simp
            · simp
            · simp
            · exact (hshort _ _ _ _ _ rfl).elim
          have hno := w.short x (b₁ :: hs) (by simp) h4
          refine reads_of_rejected hno fun hb => ?_
          exact absurd (length_le_of_entries hb (by simp)) (Nat.not_le.mpr h4)

end Walk

theorem extensionLoop_walk :
    Walk extensionLoop extension ClientHello.sni whole ExtAccepted where
  nil := extensionLoop_nil
  short ch hs hne h4 := by
    rw [extensionLoop_short hne h4]
    exact error_ne_ok
  truncated ch t₁ t₂ a b rest hlt := by
    rw [extensionLoop_truncated ch hlt]
    exact error_ne_ok
  cons ch t₁ t₂ a b rest hle hlen := by
    have hloop := extensionLoop_cons ch t₁ t₂ (rest.drop (be16 a b).toNat)
      (List.length_take_of_le hle) (by omega)
    rwa [List.take_append_drop] at hloop
  accepts ch ty len body := (extension_outcome ch ty len body).ok
  stores := extension_sni

end Hello

end RbiProxy
