import RbiProxy.HelloHost
import RbiProxy.QtHello

/-!
# Two parsers of one record

The Go `Unmarshall` and the C++ `Unmarshal` on a record that both readers
return. A panic of the Go parser, which `SSLBump` recovers, counts as a
rejection.

They part in four places (`AgreeWhen`): the declared length of the extensions
may exceed what is there by two bytes for one of them; an empty
`status_request` and an ALPN body with bytes behind its list are accepted by
the other; and the Go parser takes everything behind a host name for a part
of it. Besides, a `QString` does not keep every name.
-/

namespace RbiProxy

namespace Qt

open GoSlice Framing Hello

/-! ## The C++ parser -/

theorem serverNameLoop_reads (data : GoString) (p : ClientHelloPacket) :
    ((∃ p', serverNameLoop p data = .ok p') ↔ Complete 3 nameLen data)
      ∧ ∀ p', serverNameLoop p data = .ok p' →
        p'.sni = ((hostEntry data).map Prod.fst).getD p.sni := by
  induction data using hostEntry.induct generalizing p with
  | case1 ty a b rest hlt =>
      have hloop : serverNameLoop p (ty :: a :: b :: rest) = .error .extBadLength := by
        rw [serverNameLoop, if_neg (by simp), dif_neg (by simp)]
        exact if_pos hlt
      rw [hloop, complete_names_cons]
      exact reads_of_rejected error_ne_ok fun h => absurd h.1 (Nat.not_le.mpr hlt)
  | case2 ty a b rest hlt ih =>
      have hloop : serverNameLoop p (ty :: a :: b :: rest) = serverNameLoop
          (if ty = sniNameTypeDNS then { p with sni := rest.take (be16 a b).toNat } else p)
          (rest.drop (be16 a b).toNat) := by
        rw [serverNameLoop, if_neg (by simp), dif_neg (by simp)]
        exact if_neg hlt
      obtain ⟨hiff, hsni⟩ := ih
        (if ty = sniNameTypeDNS then { p with sni := rest.take (be16 a b).toNat } else p)
      rw [hloop, complete_names_cons, hostEntry, if_neg hlt]
      refine ⟨hiff.trans ⟨fun h => ⟨Nat.le_of_not_lt hlt, h⟩, fun h => h.2⟩, fun p' hp' => ?_⟩
      rw [pick_or, hsni p' hp']
      congr 1
      split
      · rfl
      · rfl
  | case3 data hshort =>
      cases data with
      | nil =>
          have hloop : serverNameLoop p [] = .ok p := by rw [serverNameLoop]; rfl
          rw [hloop, hostEntry_short (by simp)]
          refine ⟨⟨fun _ => .nil, fun _ => ⟨p, rfl⟩⟩, fun p' hp' => ?_⟩
          cases hp'
          rfl
      | cons b₁ data =>
          have h3 : (b₁ :: data).length < 3 := by
            rcases data with _ | ⟨b₂, _ | ⟨b₃, rest⟩⟩
            · simp
            · simp
            · exact (hshort _ _ _ _ rfl).elim
          have hloop : serverNameLoop p (b₁ :: data) = .error .extBadLength := by
            rw [serverNameLoop, if_neg (by simp), dif_pos h3]
          rw [hloop]
          refine reads_of_rejected error_ne_ok fun h => ?_
          exact absurd (length_le_of_entries h (by simp)) (Nat.not_le.mpr h3)

theorem alpnLoop_reads : ∀ (data : GoString) (p : ClientHelloPacket),
    ((∃ p', alpnLoop p data = .ok p') ↔ Complete 1 protoLen data)
      ∧ ∀ p', alpnLoop p data = .ok p' → p'.sni = p.sni
  | [], p => by
      have hloop : alpnLoop p [] = .ok p := by rw [alpnLoop]
      rw [hloop]
      refine ⟨⟨fun _ => .nil, fun _ => ⟨p, rfl⟩⟩, fun p' hp' => ?_⟩
      cases hp'
      rfl
  | n :: data, p => by
      rw [complete_protos_cons, alpnLoop]
      dsimp only
      by_cases hlt : data.length < n.toNat
      · rw [if_pos hlt]
        exact reads_of_rejected error_ne_ok fun h => absurd h.1 (Nat.not_le.mpr hlt)
      · rw [if_neg hlt]
        simp only [Nat.le_of_not_lt hlt, true_and]
        have ih := alpnLoop_reads (data.drop n.toNat)
          { p with alpns := if p.alpns = [] then data.take n.toNat
                            else p.alpns ++ lit "," ++ data.take n.toNat }
        exact ih
termination_by data => data.length
decreasing_by simp only [List.length_drop, List.length_cons]; omega

/-- A body that starts with the length of a vector: what is done with the
length and with the bytes behind it. -/
def vector {α : Type} (body : GoString) (k : UInt16 → GoString → Unmarshal α) : Unmarshal α :=
  if body.length < 2 then .error .extBadLength
  else if (body.drop 2).length < (u16 body 0).toNat then .error .extBadLength
  else k (u16 body 0) (body.drop 2)

theorem vector_eq_ok {α : Type} {body : GoString} {k : UInt16 → GoString → Unmarshal α} {y : α} :
    vector body k = .ok y ↔
      ∃ a b l, body = a :: b :: l ∧ (be16 a b).toNat ≤ l.length ∧ k (be16 a b) l = .ok y := by
  rcases body_cases body with hshort | ⟨a, b, l, rfl⟩
  · rw [vector, if_pos hshort]
    refine ⟨nofun, ?_⟩
    rintro ⟨a, b, l, rfl, -⟩
    simp only [List.length_cons] at hshort
    omega
  · have hvector : vector (a :: b :: l) k
        = if l.length < (be16 a b).toNat then .error .extBadLength else k (be16 a b) l := by
      rw [vector, if_neg (by simp)]
      rfl
    rw [hvector]
    constructor
    · intro h
      split at h
      · cases h
      · rename_i hlt
        exact ⟨a, b, l, rfl, Nat.le_of_not_lt hlt, h⟩
    · rintro ⟨c, d, l', heq, hle, h⟩
      cases heq
      rwa [if_neg (Nat.not_lt.mpr hle)]

theorem exists_vector_ok {α : Type} {body : GoString} {k : UInt16 → GoString → Unmarshal α}
    {ok : GoString → Prop} (hk : ∀ len l, (∃ y, k len l = .ok y) ↔ ok l) :
    (∃ y, vector body k = .ok y) ↔
      ∃ a b l, body = a :: b :: l ∧ (be16 a b).toNat ≤ l.length ∧ ok l := by
  constructor
  · rintro ⟨y, hy⟩
    obtain ⟨a, b, l, hbody, hle, hok⟩ := vector_eq_ok.mp hy
    exact ⟨a, b, l, hbody, hle, (hk _ l).mp ⟨y, hok⟩⟩
  · rintro ⟨a, b, l, hbody, hle, hok⟩
    obtain ⟨y, hy⟩ := (hk (be16 a b) l).mpr hok
    exact ⟨y, vector_eq_ok.mpr ⟨a, b, l, hbody, hle, hy⟩⟩

theorem exists_map_ok_iff {ε α β : Type} {r : Except ε α} (f : α → β) :
    (∃ y, r.map f = .ok y) ↔ ∃ x, r = .ok x := by
  cases r with
  | ok x => exact ⟨fun _ => ⟨x, rfl⟩, fun _ => ⟨f x, rfl⟩⟩
  | error e => exact ⟨nofun, nofun⟩

theorem wordList_ok (data : GoString) :
    (∃ ws, wordList data = .ok ws)
      ↔ ∃ a b l, data = a :: b :: l ∧ (be16 a b).toNat ≤ l.length := by
  have hlist : wordList data
      = vector data fun len l => .ok (u16s l (len.toNat / 2)) := rfl
  simp [hlist, vector_eq_ok]

/-- The bodies this `switch` accepts: any `status_request`, and ALPN with
bytes behind the list. -/
def ExtAccepted (ty : UInt16) (body : GoString) : Prop :=
  if ty = extStatusRequest then True
  else if ty = extALPN then
    ∃ a b l, body = a :: b :: l ∧ (be16 a b).toNat ≤ l.length ∧ Complete 1 protoLen l
  else Hello.ExtAccepted ty body

section Extension

variable {p p' : ClientHelloPacket} {ty len : UInt16} {body : GoString}

theorem extension_serverName :
    extension p extServerName len body = vector body fun _ l => serverNameLoop p l := rfl

theorem extension_alpn :
    extension p extALPN len body = vector body fun _ l => alpnLoop p l := rfl

theorem extension_pointFormats :
    (∃ p', extension p extECPointFormats len body = .ok p')
      ↔ ∃ n l, body = n :: l ∧ n.toNat ≤ l.length := by
  cases body with
  | nil => exact ⟨nofun, nofun⟩
  | cons n l =>
      have hext : extension p extECPointFormats len (n :: l)
          = if l.length < n.toNat then .error .extBadLength
            else if n.toNat = 0 then .ok p
            else .ok { p with ecPointFormats := l.take n.toNat } := rfl
      rw [hext]
      by_cases hlt : l.length < n.toNat
      · rw [if_pos hlt]
        refine ⟨nofun, ?_⟩
        rintro ⟨m, l', heq, hle⟩
        cases heq
        exact absurd hle (Nat.not_le.mpr hlt)
      · rw [if_neg hlt]
        refine ⟨fun _ => ⟨n, l, rfl, Nat.le_of_not_lt hlt⟩, fun _ => ?_⟩
        split
        · exact ⟨_, rfl⟩
        · exact ⟨_, rfl⟩

theorem extension_other (h : ty ∉ knownTypes) :
    extension p ty len body
      = .ok { p with extensions := p.extensions.insert ty.toInt16.toInt len.toNat } := by
  simp only [knownTypes, List.mem_cons, List.not_mem_nil, or_false, not_or] at h
  obtain ⟨h1, h2, h3, h4, h5, h6⟩ := h
  rw [extension, if_neg h1, if_neg h2, if_neg h3, if_neg h4, if_neg h5, if_neg h6]

theorem extension_accepts (p : ClientHelloPacket) (ty len : UInt16) (body : GoString) :
    (∃ p', extension p ty len body = .ok p') ↔ ExtAccepted ty body := by
  unfold ExtAccepted Hello.ExtAccepted
  by_cases h5 : ty = extStatusRequest
  · subst h5
    rw [if_pos rfl]
    exact ⟨fun _ => trivial, fun _ => ⟨_, rfl⟩⟩
  by_cases h6 : ty = extALPN
  · subst h6
    rw [if_neg h5, if_pos rfl, extension_alpn]
    exact exists_vector_ok fun _ l => (alpnLoop_reads l p).1
  rw [if_neg h5, if_neg h6]
  by_cases h1 : ty = extServerName
  · subst h1
    rw [if_pos rfl, extension_serverName]
    exact exists_vector_ok fun _ l => (serverNameLoop_reads l p).1
  rw [if_neg h1]
  by_cases h2 : ty = extSignatureAlgs
  · subst h2
    rw [if_pos (.inl rfl)]
    exact (exists_map_ok_iff _).trans (wordList_ok body)
  by_cases h3 : ty = extSupportedGroups
  · subst h3
    rw [if_pos (.inr rfl)]
    exact (exists_map_ok_iff _).trans (wordList_ok body)
  rw [if_neg (not_or.mpr ⟨h2, h3⟩)]
  by_cases h4 : ty = extECPointFormats
  · subst h4
    rw [if_pos rfl]
    exact extension_pointFormats
  rw [if_neg h4, if_neg h5, if_neg h6]
  exact ⟨fun _ => trivial,
    fun _ => ⟨_, extension_other (by simp [knownTypes, h1, h2, h3, h4, h5, h6])⟩⟩

theorem extension_stores (h : extension p ty len body = .ok p') :
    p'.sni = ((extHost ty body).map Prod.fst).getD p.sni := by
  unfold extHost
  by_cases h1 : ty = extServerName
  · subst h1
    rw [extension_serverName] at h
    obtain ⟨a, b, l, rfl, -, hloop⟩ := vector_eq_ok.mp h
    rw [if_pos rfl]
    exact (serverNameLoop_reads l p).2 p' hloop
  rw [if_neg h1]
  change p'.sni = p.sni
  by_cases h2 : ty = extSignatureAlgs
  · subst h2
    obtain ⟨algs, -, rfl⟩ := exists_of_map_ok (h : (wordList body).map _ = .ok p')
    split <;> rfl
  by_cases h3 : ty = extSupportedGroups
  · subst h3
    obtain ⟨groups, -, rfl⟩ := exists_of_map_ok (h : (wordList body).map _ = .ok p')
    split <;> rfl
  by_cases h4 : ty = extECPointFormats
  · subst h4
    rw [extension, if_neg h1, if_neg h2, if_neg h3, if_pos rfl] at h
    split at h
    · cases h
    dsimp only at h
    split at h
    · cases h
    split at h
    · cases h
      rfl
    · cases h
      rfl
  by_cases h5 : ty = extStatusRequest
  · subst h5
    cases h
    rfl
  by_cases h6 : ty = extALPN
  · subst h6
    rw [extension_alpn] at h
    obtain ⟨a, b, l, rfl, -, hloop⟩ := vector_eq_ok.mp h
    exact (alpnLoop_reads l p).2 p' hloop
  rw [extension_other (by simp [knownTypes, h1, h2, h3, h4, h5, h6])] at h
  cases h
  rfl

theorem extensionLoop_walk :
    Walk extensionLoop extension ClientHelloPacket.sni Prod.fst ExtAccepted where
  nil p := by rw [extensionLoop]; rfl
  short p hs hne h4 := by
    rw [extensionLoop, if_neg (by simpa using hne), dif_pos h4]
    exact error_ne_ok
  truncated p t₁ t₂ a b rest hlt := by
    rw [extensionLoop, if_neg (by simp), dif_neg (by simp)]
    have hshort : (t₁ :: t₂ :: a :: b :: rest).length
        < 4 + (u16 (t₁ :: t₂ :: a :: b :: rest) 2).toNat := by
      change rest.length + 1 + 1 + 1 + 1 < 4 + (be16 a b).toNat
      omega
    dsimp only
    rw [if_pos hshort]
    exact error_ne_ok
  cons p t₁ t₂ a b rest hle _ := by
    rw [extensionLoop, if_neg (by simp), dif_neg (by simp)]
    have hfits : ¬ (t₁ :: t₂ :: a :: b :: rest).length
        < 4 + (u16 (t₁ :: t₂ :: a :: b :: rest) 2).toNat := by
      change ¬ rest.length + 1 + 1 + 1 + 1 < 4 + (be16 a b).toNat
      omega
    dsimp only
    rw [if_neg hfits]
    have hdrop : (t₁ :: t₂ :: a :: b :: rest).drop
        (4 + (u16 (t₁ :: t₂ :: a :: b :: rest) 2).toNat) = rest.drop (be16 a b).toNat := by
      rw [← List.drop_drop]
      rfl
    rw [hdrop]
    change _ = (extension p (u16 (t₁ :: t₂ :: a :: b :: rest) 0)
      (u16 (t₁ :: t₂ :: a :: b :: rest) 2) (((t₁ :: t₂ :: a :: b :: rest).drop 4).take
        (u16 (t₁ :: t₂ :: a :: b :: rest) 2).toNat)).bind _
    split
    · rename_i p' hext
      rw [hext]
      rfl
    · rename_i e hext
      rw [hext]
      rfl
  accepts := extension_accepts
  stores := extension_stores

end Extension

section Stages

variable {p : ClientHelloPacket}

theorem unmarshalExtensions_reads (hsni : p.sni = []) (hs : GoString) :
    Reads extensionLoop ClientHelloPacket.sni 0 (unmarshalExtensions p hs) (declared hs) := by
  match hs with
  | [] | [_] => exact error_ne_ok
  | c :: d :: exts =>
      have hstage : unmarshalExtensions p (c :: d :: exts)
          = if exts.length < (be16 c d).toNat then .error .extBadLength
            else extensionLoop { p with extensionLen := be16 c d } exts := by
        rw [unmarshalExtensions, if_neg (by simp)]
        rfl
      rw [hstage, declared, Reads, Nat.add_zero]
      split
      · exact error_ne_ok
      · refine ⟨_, ?_, rfl⟩
        exact hsni

theorem unmarshalCompression_reads (hsni : p.sni = []) (hs : GoString) :
    Reads extensionLoop ClientHelloPacket.sni 0 (unmarshalCompression p hs)
      ((skip8 hs).bind declared) := by
  cases hs with
  | nil => exact error_ne_ok
  | cons n l =>
      rw [unmarshalCompression, if_neg (by simp), skip8]
      dsimp only
      change Reads _ _ _ (if l.length + 1 < 1 + n.toNat then _ else _) _
      by_cases hlt : l.length < n.toNat
      · rw [if_pos hlt, if_pos (by omega)]
        exact error_ne_ok
      · rw [if_neg hlt, if_neg (by omega), ← List.drop_drop]
        refine unmarshalExtensions_reads ?_ (l.drop n.toNat)
        exact hsni

theorem unmarshalCipherSuites_reads (hsni : p.sni = []) (hs : GoString) :
    Reads extensionLoop ClientHelloPacket.sni 0 (unmarshalCipherSuites p hs)
      ((skip16 hs).bind fun hs => (skip8 hs).bind declared) := by
  match hs with
  | [] | [_] => exact error_ne_ok
  | a :: b :: l =>
      rw [unmarshalCipherSuites, if_neg (by simp), skip16]
      dsimp only
      change Reads _ _ _ (if l.length + 1 + 1 < 2 + (be16 a b).toNat then _ else _) _
      by_cases hlt : l.length < (be16 a b).toNat
      · rw [if_pos hlt, if_pos (by omega)]
        exact error_ne_ok
      · rw [if_neg hlt, if_neg (by omega), ← List.drop_drop]
        refine unmarshalCompression_reads ?_ (l.drop (be16 a b).toNat)
        exact hsni

theorem unmarshalSessionId_reads (hsni : p.sni = []) (hs : GoString) :
    Reads extensionLoop ClientHelloPacket.sni 0 (unmarshalSessionId p hs)
      ((skip8 hs).bind fun hs => (skip16 hs).bind fun hs => (skip8 hs).bind declared) := by
  cases hs with
  | nil => exact error_ne_ok
  | cons n l =>
      rw [unmarshalSessionId, if_neg (by simp), skip8]
      dsimp only
      change Reads _ _ _ (if l.length < n.toNat then _ else _) _
      by_cases hlt : l.length < n.toNat
      · rw [if_pos hlt, if_pos hlt]
        exact error_ne_ok
      · rw [if_neg hlt, if_neg hlt]
        refine unmarshalCipherSuites_reads ?_ (l.drop n.toNat)
        exact hsni

/-- What `Unmarshal` makes of a record that both readers return. -/
theorem unmarshal_reads {payload : GoString} (h : Accepted payload) :
    Reads extensionLoop ClientHelloPacket.sni 0 (unmarshal payload) (block payload) := by
  obtain ⟨v₁, v₂, l₁, l₂, m₁, m₂, m₃, rest, rfl⟩ := h.cases
  match rest with
  | [] | [_] => exact error_ne_ok
  | w₁ :: w₂ :: hs =>
      rw [unmarshal, if_neg (by simp), if_neg (by simp [u8])]
      dsimp only
      rw [if_neg (by simp), if_neg (by simp [u8]), block]
      change Reads _ _ _ (if hs.length < 32 then _ else _) _
      simp only [List.length_cons, List.drop_succ_cons]
      by_cases hlt : hs.length < 32
      · rw [if_pos hlt, if_pos (by omega)]
        exact error_ne_ok
      · rw [if_neg hlt, if_neg (by omega)]
        exact unmarshalSessionId_reads rfl (hs.drop 32)

end Stages

/-- What the Go `switch` accepts, this one does. -/
theorem extAccepted_of_go {ty : UInt16} {body : GoString} (h : Hello.ExtAccepted ty body) :
    ExtAccepted ty body := by
  unfold ExtAccepted
  split
  · trivial
  split
  · rename_i hne hty
    subst hty
    obtain ⟨a, b, l, hbody, hlen, hprotos⟩ := h
    exact ⟨a, b, l, hbody, hlen.ge, hprotos⟩
  · exact h

end Qt

namespace Hello

open GoSlice Framing

/-! ## Both of them -/

/-- The bytes of the last host name, as many as its length declares. -/
def hostName (payload : GoString) : GoString :=
  match block payload with
  | none => []
  | some (_, exts) => ((lastHost exts).map Prod.fst).getD []

/-- Both parsers accept and report the last host name, or both reject. -/
def Agree (qString : GoString → GoString) (payload : GoString) : Prop :=
  (∃ ch p, unmarshall payload = .ok ch ∧ Qt.unmarshal payload = .ok p
      ∧ ch.sni = hostName payload ∧ Qt.getSNI qString p = hostName payload)
    ∨ ((∀ ch, unmarshall payload ≠ .ok ch) ∧ ∀ p, Qt.unmarshal payload ≠ .ok p)

/-- Where the parsers agree: a declared length that only one of them takes
comes with a block that this one rejects, and a block that the C++ parser
accepts is one that the Go parser accepts, with nothing behind the last host
name in its list and with a name that a `QString` keeps. -/
def AgreeWhen (qString : GoString → GoString) (payload : GoString) : Prop :=
  match block payload with
  | none => True
  | some (len, exts) =>
    if exts.length + 2 < len then True
    else if exts.length < len then ¬ AcceptedBlock ExtAccepted exts
    else AcceptedBlock Qt.ExtAccepted exts →
      AcceptedBlock ExtAccepted exts
        ∧ (∀ name behind, lastHost exts = some (name, behind) → behind = [])
        ∧ qString (hostName payload) = hostName payload

theorem length_of_skip8 {l l' : GoString} (h : skip8 l = some l') : l'.length ≤ l.length := by
  cases l with
  | nil => cases h
  | cons n l =>
      rw [skip8] at h
      split at h
      · cases h
      · cases h
        rw [List.length_drop, List.length_cons]
        omega

theorem length_of_skip16 {l l' : GoString} (h : skip16 l = some l') : l'.length ≤ l.length := by
  match l with
  | [] | [_] => cases h
  | a :: b :: l =>
      rw [skip16] at h
      split at h
      · cases h
      · cases h
        simp only [List.length_drop, List.length_cons]
        omega

theorem length_of_declared {l exts : GoString} {len : Nat} (h : declared l = some (len, exts)) :
    exts.length ≤ l.length := by
  match l with
  | [] | [_] => cases h
  | c :: d :: l =>
      cases h
      simp only [List.length_cons]
      omega

theorem length_of_block {payload exts : GoString} {len : Nat}
    (h : block payload = some (len, exts)) : exts.length ≤ payload.length := by
  rw [block] at h
  split at h
  · cases h
  obtain ⟨l₁, h₁, h⟩ := Option.bind_eq_some_iff.mp h
  obtain ⟨l₂, h₂, h⟩ := Option.bind_eq_some_iff.mp h
  obtain ⟨l₃, h₃, h⟩ := Option.bind_eq_some_iff.mp h
  calc exts.length ≤ l₃.length := length_of_declared h
    _ ≤ l₂.length := length_of_skip8 h₃
    _ ≤ l₁.length := length_of_skip16 h₂
    _ ≤ (payload.drop 43).length := length_of_skip8 h₁
    _ ≤ payload.length := by rw [List.length_drop]; omega

/-- What the Go parser stores is the name when nothing stands behind it. -/
theorem whole_eq_iff (host : Option (GoString × GoString)) :
    (host.map whole).getD [] = (host.map Prod.fst).getD []
      ↔ ∀ name behind, host = some (name, behind) → behind = [] := by
  cases host with
  | none => exact ⟨fun _ => nofun, fun _ => rfl⟩
  | some e =>
      obtain ⟨name, behind⟩ := e
      simp [whole]

/-- The parsers on a block whose declared length both of them take. -/
theorem agree_iff_of_fits (qString : GoString → GoString) {payload exts : GoString} {len : Nat}
    (h : Accepted payload) (hblock : block payload = some (len, exts))
    (hfits : ¬ exts.length < len) :
    Agree qString payload ↔ (AcceptedBlock Qt.ExtAccepted exts →
      AcceptedBlock ExtAccepted exts
        ∧ (∀ name behind, lastHost exts = some (name, behind) → behind = [])
        ∧ qString (hostName payload) = hostName payload) := by
  have hlen : exts.length < 65536 := by
    have hmax := h.maxLen
    have hle := length_of_block hblock
    omega
  have hname : hostName payload = ((lastHost exts).map Prod.fst).getD [] := by
    rw [hostName, hblock]
  have hgo := unmarshall_reads h
  have hqt := Qt.unmarshal_reads h
  rw [hblock, Reads, if_neg (by omega)] at hgo hqt
  obtain ⟨ch₀, hch₀, hgo⟩ := hgo
  obtain ⟨p₀, hp₀, hqt⟩ := hqt
  obtain ⟨hgoiff, hgosni⟩ := extensionLoop_walk.reads exts ch₀ hlen
  obtain ⟨hqtiff, hqtsni⟩ := Qt.extensionLoop_walk.reads exts p₀ hlen
  rw [← hgo] at hgoiff hgosni
  rw [← hqt] at hqtiff hqtsni
  rw [hch₀] at hgosni
  rw [hp₀, ← hname] at hqtsni
  rw [← whole_eq_iff, ← hname]
  constructor
  · rintro (⟨ch, p, hch, hp, hsni, hget⟩ | ⟨-, hno⟩) hacc
    · refine ⟨hgoiff.mp ⟨ch, hch⟩, (hgosni ch hch).symm.trans hsni, ?_⟩
      rwa [Qt.getSNI, hqtsni p hp] at hget
    · obtain ⟨p, hp⟩ := hqtiff.mpr hacc
      exact absurd hp (hno p)
  · intro hwhen
    by_cases hacc : AcceptedBlock Qt.ExtAccepted exts
    · obtain ⟨hgoacc, hwhole, hkeeps⟩ := hwhen hacc
      obtain ⟨ch, hch⟩ := hgoiff.mpr hgoacc
      obtain ⟨p, hp⟩ := hqtiff.mpr hacc
      refine .inl ⟨ch, p, hch, hp, (hgosni ch hch).trans hwhole, ?_⟩
      rw [Qt.getSNI, hqtsni p hp, hkeeps]
    · refine .inr ⟨fun ch hch => hacc ?_, fun p hp => hacc (hqtiff.mp ⟨p, hp⟩)⟩
      exact (hgoiff.mp ⟨ch, hch⟩).mono fun _ _ => Qt.extAccepted_of_go

theorem agree_iff_of_accepted (qString : GoString → GoString) {payload : GoString}
    (h : Accepted payload) : Agree qString payload ↔ AgreeWhen qString payload := by
  unfold AgreeWhen
  have hgo := unmarshall_reads h
  have hqt := Qt.unmarshal_reads h
  cases hblock : block payload with
  | none =>
      rw [hblock] at hgo hqt
      exact iff_of_true (.inr ⟨hgo, hqt⟩) trivial
  | some e =>
      obtain ⟨len, exts⟩ := e
      have hle := length_of_block hblock
      have hmax := h.maxLen
      dsimp only
      by_cases hfits : exts.length < len
      case neg =>
        rw [if_neg (by omega), if_neg hfits]
        exact agree_iff_of_fits qString h hblock hfits
      -- the C++ parser rejects the length, so agreeing is rejecting
      rw [hblock, Reads] at hgo hqt
      rw [if_pos (by omega)] at hqt
      by_cases hlong : exts.length + 2 < len
      · rw [if_pos hlong] at hgo ⊢
        exact iff_of_true (.inr ⟨hgo, hqt⟩) trivial
      · rw [if_neg hlong] at hgo ⊢
        rw [if_pos hfits]
        obtain ⟨ch₀, -, hgo⟩ := hgo
        obtain ⟨hgoiff, -⟩ := extensionLoop_walk.reads exts ch₀ (by omega)
        rw [← hgo] at hgoiff
        rw [← hgoiff]
        constructor
        · rintro (⟨ch, p, -, hp, -⟩ | ⟨hno, -⟩)
          · exact absurd hp (hqt p)
          · rintro ⟨ch, hch⟩
            exact hno ch hch
        · exact fun hno => .inr ⟨fun ch hch => hno ⟨ch, hch⟩, hqt⟩

/-- A record that both readers return is parsed alike exactly when nothing
sets the parsers apart. -/
theorem parsers_agree_iff (qString : GoString → GoString) (payload : GoString)
    (h : Returned payload ∧ Qt.Returned payload) :
    Agree qString payload ↔ AgreeWhen qString payload :=
  agree_iff_of_accepted qString (accepted_of_returned h.1)

theorem parsers_agree_iff_helloSni :
    (Returned helloSni ∧ Qt.Returned helloSni) ∧ Agree id helloSni ∧ AgreeWhen id helloSni := by
  have hread : Returned helloSni ∧ Qt.Returned helloSni :=
    ⟨⟨⟨[helloSni], .eof⟩, by decide +kernel, by decide +kernel⟩, ⟨helloSni, by decide +kernel⟩⟩
  have hname : hostName helloSni = lit "a.b" := by decide +kernel
  have hgo : (unmarshall helloSni).map ClientHello.sni = .ok (lit "a.b") := by decide +kernel
  have hqt : (Qt.unmarshal helloSni).map Qt.ClientHelloPacket.sni = .ok (lit "a.b") := by
    decide +kernel
  obtain ⟨ch, hch, hsni⟩ := exists_of_map_ok hgo
  obtain ⟨p, hp, hget⟩ := exists_of_map_ok hqt
  have hagree : Agree id helloSni :=
    .inl ⟨ch, p, hch, hp, hsni.trans hname.symm, hget.trans hname.symm⟩
  exact ⟨hread, hagree, (parsers_agree_iff id helloSni hread).mp hagree⟩

/-- A `server_name` list with the host name `a` and, behind it, an entry of
another type. -/
def helloTwoNames : GoString :=
  [22, 3, 1, 0, 61, 1, 0, 0, 57, 3, 3] ++ List.replicate 32 7
    ++ [0, 0, 2, 0x13, 0x01, 1, 0, 0, 14, 0, 0, 0, 10, 0, 8, 0, 0, 1, 97, 1, 0, 1, 98]

/-- The Go parser reports the second entry as a part of the name. -/
theorem not_parsers_agree :
    ¬ ∀ payload, Returned payload ∧ Qt.Returned payload → Agree id payload := by
  intro h
  have hread : Returned helloTwoNames ∧ Qt.Returned helloTwoNames :=
    ⟨⟨⟨[helloTwoNames], .eof⟩, by decide +kernel, by decide +kernel⟩,
      ⟨helloTwoNames, by decide +kernel⟩⟩
  have hname : hostName helloTwoNames = lit "a" := by decide +kernel
  have hgo : (unmarshall helloTwoNames).map ClientHello.sni = .ok [97, 1, 0, 1, 98] := by
    decide +kernel
  obtain ⟨ch, hch, hsni⟩ := exists_of_map_ok hgo
  rcases h helloTwoNames hread with ⟨ch', p, hch', -, hsni', -⟩ | ⟨hno, -⟩
  · rw [hch] at hch'
    cases hch'
    rw [hsni, hname] at hsni'
    exact absurd hsni' (by decide)
  · exact hno ch hch

end Hello

end RbiProxy
