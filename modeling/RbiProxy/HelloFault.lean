import RbiProxy.Framing
import RbiProxy.HelloStages

/-!
# Where the parser faults

Three length fields of a ClientHello are used without a sufficient check:
the name length of a `server_name` entry, the name length of an ALPN entry,
and the cipher suite length, whose guard forgets the two bytes of the field
itself. `Overrun` says, of the bytes alone, that one of them reaches past
its container at a place the parser gets to. For a record that
`ReadClientHello` returns, `Unmarshall` faults exactly then.
-/

namespace RbiProxy

namespace Hello

open GoSlice Framing

/-! ## Overrunning lengths -/

/-- The name length in the three header bytes of a `server_name` entry. -/
def nameLen : GoString → Nat
  | [_, a, b] => (be16 a b).toNat
  | _ => 0

/-- The length byte in front of an ALPN protocol name. -/
def protoLen : GoString → Nat
  | [n] => n.toNat
  | _ => 0

/-- The body length in the four header bytes of an extension. -/
def extLen : GoString → Nat
  | [_, _, a, b] => (be16 a b).toNat
  | _ => 0

/-- The type in the four header bytes of an extension. -/
def extType : GoString → UInt16
  | [t₁, t₂, _, _] => be16 t₁ t₂
  | _ => 0

/-- The entries of a `server_name` or ALPN list are all complete. -/
def Complete (k : Nat) (len : GoString → Nat) : GoString → Prop :=
  Entries k len fun _ _ => True

/-- Behind complete entries comes one whose length exceeds what is left. -/
def TooLong (k : Nat) (len : GoString → Nat) : GoString → Prop :=
  Breaks k len (fun _ _ => True) fun h rest => rest.length < len h

/-- The bodies the `switch` accepts. -/
def ExtAccepted (ty : UInt16) (body : GoString) : Prop :=
  if ty = extServerName then
    ∃ a b l, body = a :: b :: l ∧ (be16 a b).toNat ≤ l.length ∧ Complete 3 nameLen l
  else if ty = extSignatureAlgs ∨ ty = extSupportedGroups then
    ∃ a b l, body = a :: b :: l ∧ (be16 a b).toNat ≤ l.length
  else if ty = extECPointFormats then ∃ n l, body = n :: l ∧ n.toNat ≤ l.length
  else if ty = extStatusRequest then body ≠ []
  else if ty = extALPN then
    ∃ a b l, body = a :: b :: l ∧ l.length = (be16 a b).toNat ∧ Complete 1 protoLen l
  else True

/-- The bodies with an entry that is too long for its list. -/
def ExtOverruns (ty : UInt16) (body : GoString) : Prop :=
  (ty = extServerName ∧
    ∃ a b l, body = a :: b :: l ∧ (be16 a b).toNat ≤ l.length ∧ TooLong 3 nameLen l) ∨
  (ty = extALPN ∧
    ∃ a b l, body = a :: b :: l ∧ l.length = (be16 a b).toNat ∧ TooLong 1 protoLen l)

/-- Behind complete, accepted extensions comes one whose body overruns. -/
def BlockOverruns : GoString → Prop :=
  Breaks 4 extLen (fun h body => ExtAccepted (extType h) body) fun h rest =>
    extLen h ≤ rest.length ∧ ExtOverruns (extType h) (rest.take (extLen h))

/-- The cipher suites do not fit, but their length passes the guard; or
everything up to the extensions is complete and the block overruns. -/
def SuitesOverrun (hs : GoString) : Prop :=
  (∃ a b l, hs = a :: b :: l ∧ l.length < (be16 a b).toNat
    ∧ (be16 a b).toNat ≤ l.length + 2) ∨
  (∃ a b suites n methods c d exts,
    hs = a :: b :: (suites ++ n :: (methods ++ c :: d :: exts))
    ∧ suites.length = (be16 a b).toNat ∧ methods.length = n.toNat
    ∧ (be16 c d).toNat ≤ exts.length + 2 ∧ BlockOverruns exts)

/-- A record with a complete random and session id, and an overrunning length
behind them. The 43 bytes are the record header, the handshake header with
the version, and the random. -/
def Overrun (payload : GoString) : Prop :=
  ∃ pre n sid hs, payload = pre ++ n :: (sid ++ hs) ∧ pre.length = 43
    ∧ sid.length = n.toNat ∧ SuitesOverrun hs

/-! ## Three outcomes

A stage returns, faults, or returns an error. `Outcome r acc bad` says
that it returns exactly when `acc` and faults exactly when `bad`. -/

structure Outcome {α : Type} (r : Parse α) (acc bad : Prop) : Prop where
  ok : (∃ x, r = .ok x) ↔ acc
  fault : r = .error .fault ↔ bad

namespace Outcome

variable {α : Type} {r : Parse α} {acc bad acc' bad' : Prop}

theorem of_ok {x : α} (h : r = .ok x) (hacc : acc) (hbad : ¬ bad) : Outcome r acc bad :=
  ⟨⟨fun _ => hacc, fun _ => ⟨x, h⟩⟩,
    ⟨fun hf => (by rw [h] at hf; cases hf), fun ho => absurd ho hbad⟩⟩

theorem of_fault (h : r = .error .fault) (hacc : ¬ acc) (hbad : bad) : Outcome r acc bad :=
  ⟨⟨fun ⟨x, hx⟩ => (by rw [h] at hx; cases hx), fun ha => absurd ha hacc⟩,
    ⟨fun _ => hbad, fun _ => h⟩⟩

theorem of_err {e : HelloError} (h : r = .error (.err e)) (hacc : ¬ acc) (hbad : ¬ bad) :
    Outcome r acc bad :=
  ⟨⟨fun ⟨x, hx⟩ => (by rw [h] at hx; cases hx), fun ha => absurd ha hacc⟩,
    ⟨fun hf => (by rw [h] at hf; cases hf), fun ho => absurd ho hbad⟩⟩

theorem congr (h : Outcome r acc bad) (hacc : acc ↔ acc') (hbad : bad ↔ bad') :
    Outcome r acc' bad' :=
  ⟨h.ok.trans hacc, h.fault.trans hbad⟩

end Outcome

/-! ## The loops -/

theorem complete_names_cons (ty a b : UInt8) (rest : GoString) :
    Complete 3 nameLen (ty :: a :: b :: rest) ↔ (be16 a b).toNat ≤ rest.length
      ∧ Complete 3 nameLen (rest.drop (be16 a b).toNat) := by
  have hc : Complete 3 nameLen (ty :: a :: b :: rest) ↔ _ :=
    entries_append_iff (h := [ty, a, b]) (l := rest) rfl (by omega)
  rw [hc, true_and]
  rfl

theorem complete_protos_cons (n : UInt8) (data : GoString) :
    Complete 1 protoLen (n :: data) ↔ n.toNat ≤ data.length
      ∧ Complete 1 protoLen (data.drop n.toNat) := by
  have hc : Complete 1 protoLen (n :: data) ↔ _ :=
    entries_append_iff (h := [n]) (l := data) rfl (by omega)
  rw [hc, true_and]
  rfl

theorem serverNameLoop_outcome : ∀ (data : GoString) (ch : ClientHello),
    Outcome (serverNameLoop ch data) (Complete 3 nameLen data) (TooLong 3 nameLen data)
  | [], ch => .of_ok (serverNameLoop_nil ch) .nil
      fun h => absurd (length_le_of_breaks h) (by simp)
  | [_], _ => .of_err (serverNameLoop_short (by simp) (by simp))
      (fun h => absurd (length_le_of_entries h (by simp)) (by simp))
      fun h => absurd (length_le_of_breaks h) (by simp)
  | [_, _], _ => .of_err (serverNameLoop_short (by simp) (by simp))
      (fun h => absurd (length_le_of_entries h (by simp)) (by simp))
      fun h => absurd (length_le_of_breaks h) (by simp)
  | ty :: a :: b :: rest, ch => by
      have ht : TooLong 3 nameLen (ty :: a :: b :: rest) ↔ _ :=
        breaks_append_iff (h := [ty, a, b]) (l := rest) rfl
      rw [complete_names_cons, ht, serverNameLoop_cons]
      simp only [nameLen, true_and]
      by_cases hle : (be16 a b).toNat ≤ rest.length
      · rw [if_pos hle]
        simp only [hle, Nat.not_lt.mpr hle, true_and, false_or]
        exact serverNameLoop_outcome _ _
      · rw [if_neg hle]
        exact .of_fault rfl (fun h => hle h.1) (.inl (Nat.lt_of_not_le hle))
termination_by data => data.length
decreasing_by simp only [List.length_drop, List.length_cons]; omega

theorem alpnLoop_outcome : ∀ (data : GoString) (ch : ClientHello),
    Outcome (alpnLoop ch data) (Complete 1 protoLen data) (TooLong 1 protoLen data)
  | [], ch => .of_ok (alpnLoop_nil ch) .nil fun h => absurd (length_le_of_breaks h) (by simp)
  | n :: data, ch => by
      have ht : TooLong 1 protoLen (n :: data) ↔ _ :=
        breaks_append_iff (h := [n]) (l := data) rfl
      rw [complete_protos_cons, ht, alpnLoop_cons]
      simp only [protoLen, true_and]
      by_cases hle : n.toNat ≤ data.length
      · rw [if_pos hle]
        simp only [hle, Nat.not_lt.mpr hle, true_and, false_or]
        exact alpnLoop_outcome _ _
      · rw [if_neg hle]
        exact .of_fault rfl (fun h => hle h.1) (.inl (Nat.lt_of_not_le hle))
termination_by data => data.length
decreasing_by simp only [List.length_drop, List.length_cons]; omega

/-! ## One extension -/

/-- A body is empty, one byte, or starts with two bytes of length. -/
theorem body_cases (body : GoString) :
    body.length < 2 ∨ ∃ a b l, body = a :: b :: l := by
  match body with
  | [] => exact .inl (by simp)
  | [_] => exact .inl (by simp)
  | a :: b :: l => exact .inr ⟨a, b, l, rfl⟩

theorem wordList_outcome (data : GoString) :
    Outcome (wordList data)
      (∃ a b l, data = a :: b :: l ∧ (be16 a b).toNat ≤ l.length) False := by
  rcases body_cases data with hs | ⟨a, b, l, rfl⟩
  · refine .of_err (wordList_short hs) ?_ id
    rintro ⟨a, b, l, rfl, -⟩
    simp only [List.length_cons] at hs
    omega
  · have hcons := wordList_cons a b l
    by_cases hlt : l.length < (be16 a b).toNat
    · rw [if_pos hlt] at hcons
      refine .of_err hcons ?_ id
      rintro ⟨a', b', l', heq, hle⟩
      cases heq
      omega
    · rw [if_neg hlt] at hcons
      obtain ⟨ws, hws⟩ := words16_ok (ε := HelloError) (s := l) 0 ((be16 a b).toNat / 2) (by omega)
      exact .of_ok (hcons.trans hws) ⟨a, b, l, rfl, by omega⟩ id

/-- A stage that goes on with a value it stores. -/
theorem Outcome.map {α β : Type} {r : Parse α} {acc bad : Prop} (h : Outcome r acc bad)
    (f : α → β) : Outcome (r.map f) acc bad := by
  cases r with
  | ok x =>
      refine .of_ok rfl (h.ok.mp ⟨x, rfl⟩) fun ho => ?_
      cases h.fault.mpr ho
  | error halt =>
      have hacc : ¬ acc := fun ha => by
        obtain ⟨x, hx⟩ := h.ok.mpr ha
        cases hx
      cases halt with
      | err e => exact .of_err rfl hacc fun ho => by cases h.fault.mpr ho
      | fault => exact .of_fault rfl hacc (h.fault.mp rfl)

theorem extension_serverName_outcome (ch : ClientHello) (len : UInt16) (body : GoString) :
    Outcome (extension ch extServerName len body)
      (∃ a b l, body = a :: b :: l ∧ (be16 a b).toNat ≤ l.length ∧ Complete 3 nameLen l)
      (∃ a b l, body = a :: b :: l ∧ (be16 a b).toNat ≤ l.length ∧ TooLong 3 nameLen l) := by
  rcases body_cases body with hs | ⟨a, b, l, rfl⟩
  · refine .of_err (extension_serverName_short hs) ?_ ?_ <;>
      (rintro ⟨a, b, l, rfl, -⟩; simp only [List.length_cons] at hs; omega)
  · rw [extension_serverName]
    by_cases hlt : l.length < (be16 a b).toNat
    · rw [if_pos hlt]
      refine .of_err rfl ?_ ?_ <;> (rintro ⟨a', b', l', heq, hle, -⟩; cases heq; omega)
    · rw [if_neg hlt]
      refine (serverNameLoop_outcome l ch).congr ?_ ?_ <;>
        exact ⟨fun h => ⟨a, b, l, rfl, by omega, h⟩, by rintro ⟨_, _, _, ⟨⟩, -, h⟩; exact h⟩

theorem extension_alpn_outcome (ch : ClientHello) (len : UInt16) (body : GoString) :
    Outcome (extension ch extALPN len body)
      (∃ a b l, body = a :: b :: l ∧ l.length = (be16 a b).toNat ∧ Complete 1 protoLen l)
      (∃ a b l, body = a :: b :: l ∧ l.length = (be16 a b).toNat ∧ TooLong 1 protoLen l) := by
  rcases body_cases body with hs | ⟨a, b, l, rfl⟩
  · refine .of_err (extension_alpn_short hs) ?_ ?_ <;>
      (rintro ⟨a, b, l, rfl, -⟩; simp only [List.length_cons] at hs; omega)
  · rw [extension_alpn]
    by_cases heq : l.length = (be16 a b).toNat
    · rw [if_pos heq]
      refine (alpnLoop_outcome l ch).congr ?_ ?_ <;>
        exact ⟨fun h => ⟨a, b, l, rfl, heq, h⟩, by rintro ⟨_, _, _, ⟨⟩, -, h⟩; exact h⟩
    · rw [if_neg heq]
      refine .of_err rfl ?_ ?_ <;> (rintro ⟨a', b', l', heq', hle, -⟩; cases heq'; exact heq hle)

theorem extension_pointFormats_outcome (ch : ClientHello) (len : UInt16) (body : GoString) :
    Outcome (extension ch extECPointFormats len body)
      (∃ n l, body = n :: l ∧ n.toNat ≤ l.length) False := by
  cases body with
  | nil => exact .of_err (extension_pointFormats_nil ch len) (by rintro ⟨n, l, h, -⟩; cases h) id
  | cons n l =>
      rw [extension_pointFormats]
      by_cases hlt : l.length < n.toNat
      · rw [if_pos hlt]
        refine .of_err rfl ?_ id
        rintro ⟨n', l', heq, hle⟩
        cases heq
        omega
      · rw [if_neg hlt]
        exact .of_ok rfl ⟨n, l, rfl, by omega⟩ id

theorem extension_statusRequest_outcome (ch : ClientHello) (len : UInt16) (body : GoString) :
    Outcome (extension ch extStatusRequest len body) (body ≠ []) False := by
  cases body with
  | nil => exact .of_err (extension_statusRequest_nil ch len) (fun h => h rfl) id
  | cons t l => exact .of_ok (extension_statusRequest ch len t l) (by simp) id

/-- The `switch` accepts, faults, or returns an error, as the body says. -/
theorem extension_outcome (ch : ClientHello) (ty len : UInt16) (body : GoString) :
    Outcome (extension ch ty len body) (ExtAccepted ty body) (ExtOverruns ty body) := by
  unfold ExtAccepted ExtOverruns
  by_cases h1 : ty = extServerName
  · subst h1
    refine (extension_serverName_outcome ch len body).congr (by rw [if_pos rfl]) ?_
    simp [extServerName, extALPN]
  by_cases h2 : ty = extSignatureAlgs
  · subst h2
    rw [extension_signatureAlgs, if_neg h1, if_pos (.inl rfl)]
    refine ((wordList_outcome body).map _).congr .rfl ?_
    simp [extServerName, extALPN, extSignatureAlgs]
  by_cases h3 : ty = extSupportedGroups
  · subst h3
    rw [extension_supportedGroups, if_neg h1, if_pos (.inr rfl)]
    refine ((wordList_outcome body).map _).congr .rfl ?_
    simp [extServerName, extALPN, extSupportedGroups]
  rw [if_neg h1, if_neg (not_or.mpr ⟨h2, h3⟩)]
  by_cases h4 : ty = extECPointFormats
  · subst h4
    rw [if_pos rfl]
    refine (extension_pointFormats_outcome ch len body).congr .rfl ?_
    simp [extServerName, extALPN, extECPointFormats]
  by_cases h5 : ty = extStatusRequest
  · subst h5
    rw [if_neg h4, if_pos rfl]
    refine (extension_statusRequest_outcome ch len body).congr .rfl ?_
    simp [extServerName, extALPN, extStatusRequest]
  rw [if_neg h4, if_neg h5]
  by_cases h6 : ty = extALPN
  · subst h6
    rw [if_pos rfl]
    refine (extension_alpn_outcome ch len body).congr .rfl ?_
    simp [extServerName, extALPN]
  rw [if_neg h6]
  refine .of_ok (extension_other ch len body ?_) trivial ?_
  · simp [knownTypes, h1, h2, h3, h4, h5, h6]
  · rintro (⟨h, -⟩ | ⟨h, -⟩)
    · exact h1 h
    · exact h6 h

/-! ## The extension block -/

theorem extensionLoop_short_fault_iff {hs : GoString} {ch : ClientHello} (h0 : hs ≠ [])
    (h4 : hs.length < 4) : extensionLoop ch hs = .error .fault ↔ BlockOverruns hs := by
  rw [extensionLoop_short h0 h4]
  refine ⟨fun h => (by cases h), fun h => ?_⟩
  have := length_le_of_breaks h
  omega

/-- The loop faults exactly at an extension that overruns, whatever it has
stored before. -/
theorem extensionLoop_fault_iff : ∀ (hs : GoString) (ch : ClientHello), hs.length < 65536 →
    (extensionLoop ch hs = .error .fault ↔ BlockOverruns hs)
  | [], ch, _ => by
      rw [extensionLoop_nil]
      exact ⟨fun h => (by cases h), fun h => absurd (length_le_of_breaks h) (by simp)⟩
  | [_], ch, _ => extensionLoop_short_fault_iff (by simp) (by simp)
  | [_, _], ch, _ => extensionLoop_short_fault_iff (by simp) (by simp)
  | [_, _, _], ch, _ => extensionLoop_short_fault_iff (by simp) (by simp)
  | t₁ :: t₂ :: a :: b :: rest, ch, hlen => by
      simp only [List.length_cons] at hlen
      have hb : BlockOverruns (t₁ :: t₂ :: a :: b :: rest) ↔ _ :=
        breaks_append_iff (h := [t₁, t₂, a, b]) (l := rest) rfl
      rw [hb]
      simp only [extLen, extType]
      by_cases hlt : rest.length < (be16 a b).toNat
      · rw [extensionLoop_truncated ch hlt]
        refine ⟨fun h => (by cases h), ?_⟩
        rintro (⟨hle, -⟩ | ⟨hle, -⟩) <;> omega
      · have hle : (be16 a b).toNat ≤ rest.length := by omega
        have hbody : (rest.take (be16 a b).toNat).length = (be16 a b).toNat := by
          rw [List.length_take]; omega
        have hloop := extensionLoop_cons ch t₁ t₂ (rest.drop (be16 a b).toNat)
          hbody (by omega)
        rw [List.take_append_drop] at hloop
        have hout := extension_outcome ch (be16 t₁ t₂) (be16 a b) (rest.take (be16 a b).toNat)
        simp only [hloop, hle, true_and]
        cases hext : extension ch (be16 t₁ t₂) (be16 a b) (rest.take (be16 a b).toNat) with
        | ok ch' =>
            rw [hext] at hout
            have ih := extensionLoop_fault_iff (rest.drop (be16 a b).toNat) ch'
              (by rw [List.length_drop]; omega)
            refine ⟨fun h => .inr ⟨hout.ok.mp ⟨ch', rfl⟩, ih.mp h⟩, ?_⟩
            rintro (hbad | ⟨-, h⟩)
            · cases hout.fault.mpr hbad
            · exact ih.mpr h
        | error halt =>
            rw [hext] at hout
            cases halt with
            | fault => exact ⟨fun _ => .inl (hout.fault.mp rfl), fun _ => rfl⟩
            | err e =>
                refine ⟨fun h => (by cases h), ?_⟩
                rintro (hbad | ⟨hacc, -⟩)
                · cases hout.fault.mpr hbad
                · obtain ⟨x, hx⟩ := hout.ok.mpr hacc
                  cases hx
termination_by hs => hs.length
decreasing_by simp only [List.length_drop, List.length_cons]; omega

/-! ## The stages -/

/-- A list whose length is known to be large enough, cut there. -/
theorem exists_append_of_le {l : GoString} {n : Nat} (h : n ≤ l.length) :
    ∃ pre rest, l = pre ++ rest ∧ pre.length = n :=
  ⟨l.take n, l.drop n, (List.take_append_drop n l).symm, by rw [List.length_take]; omega⟩

theorem parseExtensions_fault_iff {ch : ClientHello} {hs : GoString}
    (hlen : hs.length < 65536) :
    parseExtensions ch hs = .error .fault ↔
      ∃ c d exts, hs = c :: d :: exts ∧ (be16 c d).toNat ≤ exts.length + 2
        ∧ BlockOverruns exts := by
  rcases body_cases hs with hshort | ⟨a, b, l, rfl⟩
  · rw [parseExtensions_short hshort]
    refine ⟨fun h => (by cases h), ?_⟩
    rintro ⟨c, d, exts, rfl, -⟩
    simp only [List.length_cons] at hshort
    omega
  · simp only [List.length_cons] at hlen
    rw [parseExtensions_cons]
    by_cases hlt : l.length + 2 < (be16 a b).toNat
    · rw [if_pos hlt]
      refine ⟨fun h => (by cases h), ?_⟩
      rintro ⟨c, d, exts, heq, hle, -⟩
      cases heq
      omega
    · rw [if_neg hlt, extensionLoop_fault_iff l _ (by omega)]
      refine ⟨fun h => ⟨a, b, l, rfl, by omega, h⟩, ?_⟩
      rintro ⟨c, d, exts, heq, -, h⟩
      cases heq
      exact h

theorem parseCompression_fault_iff {ch : ClientHello} {hs : GoString}
    (hlen : hs.length < 65536) :
    parseCompression ch hs = .error .fault ↔
      ∃ n methods c d exts, hs = n :: (methods ++ c :: d :: exts) ∧ methods.length = n.toNat
        ∧ (be16 c d).toNat ≤ exts.length + 2 ∧ BlockOverruns exts := by
  cases hs with
  | nil =>
      rw [parseCompression_nil]
      exact ⟨fun h => (by cases h), by rintro ⟨n, methods, c, d, exts, h, -⟩; cases h⟩
  | cons n l =>
      simp only [List.length_cons] at hlen
      by_cases hlt : l.length < n.toNat
      · rw [parseCompression_short hlt]
        refine ⟨fun h => (by cases h), ?_⟩
        rintro ⟨n', methods, c, d, exts, heq, hm, -⟩
        cases heq
        rw [List.length_append] at hlt
        omega
      · obtain ⟨methods, rest, rfl, hm⟩ := exists_append_of_le (Nat.le_of_not_lt hlt)
        rw [List.length_append] at hlen
        rw [parseCompression_cons ch hm, parseExtensions_fault_iff (by omega)]
        constructor
        · rintro ⟨c, d, exts, rfl, hle, h⟩
          exact ⟨n, methods, c, d, exts, rfl, hm, hle, h⟩
        · rintro ⟨n', methods', c, d, exts, heq, hm', hle, h⟩
          obtain ⟨rfl, heq'⟩ := List.cons.inj heq
          obtain ⟨rfl, rfl⟩ := List.append_inj heq' (hm.trans hm'.symm)
          exact ⟨c, d, exts, rfl, hle, h⟩

/-- The guard lets through a list that lacks up to two bytes, and the loop
or the slice behind it then leaves the message. -/
theorem parseCipherSuites_overrun {ch : ClientHello} {a b : UInt8} {l : GoString}
    (hlt : l.length < (be16 a b).toNat) (hle : (be16 a b).toNat ≤ l.length + 2)
    (hwrap : (be16 a b).toNat < 65534) :
    parseCipherSuites ch (a :: b :: l) = .error .fault := by
  have hadd : (2 + be16 a b).toNat = (be16 a b).toNat + 2 := by
    rw [UInt16.toNat_add, show (2 : UInt16).toNat = 2 from rfl]
    omega
  have hslice : sliceFrom (a :: b :: l) (2 + be16 a b).toNat
      = (.error .fault : Parse GoString) := by
    rw [hadd]
    exact if_neg (by simp only [List.length_cons]; omega)
  rw [parseCipherSuites, if_neg (by simp)]
  simp only [idx, word16, List.getElem?_cons_zero, List.getElem?_cons_succ, bind,
    Except.bind, pure, Except.pure, List.length_cons]
  rw [if_neg (by omega), hslice]
  rcases words16_ok_or_fault (ε := HelloError) (a :: b :: l) ((be16 a b).toNat / 2) 2 with
    ⟨ws, hws⟩ | hws <;> rw [hws]

theorem parseCipherSuites_fault_iff {ch : ClientHello} {hs : GoString}
    (hlen : hs.length < 65534) :
    parseCipherSuites ch hs = .error .fault ↔ SuitesOverrun hs := by
  unfold SuitesOverrun
  rcases body_cases hs with hshort | ⟨a, b, l, rfl⟩
  · rw [parseCipherSuites_short hshort]
    refine ⟨fun h => (by cases h), ?_⟩
    rintro (⟨c, d, l, rfl, -⟩ | ⟨c, d, suites, n, methods, e, f, exts, rfl, -⟩) <;>
      (simp only [List.length_cons] at hshort; omega)
  simp only [List.length_cons] at hlen
  by_cases htrunc : l.length + 2 < (be16 a b).toNat
  · rw [parseCipherSuites_truncated ch htrunc]
    refine ⟨fun h => (by cases h), ?_⟩
    rintro (⟨c, d, l, heq, -, hle⟩ | ⟨c, d, suites, n, methods, e, f, exts, heq, hs, -⟩)
    · cases heq
      omega
    · cases heq
      rw [List.length_append] at htrunc
      omega
  by_cases hlt : l.length < (be16 a b).toNat
  · rw [parseCipherSuites_overrun hlt (by omega) (by omega)]
    exact ⟨fun _ => .inl ⟨a, b, l, rfl, hlt, by omega⟩, fun _ => rfl⟩
  obtain ⟨suites, rest, rfl, hs⟩ := exists_append_of_le (Nat.le_of_not_lt hlt)
  rw [List.length_append] at hlen hlt
  obtain ⟨ws, hws⟩ := words16_ok (ε := HelloError) (s := a :: b :: (suites ++ rest)) 2
    ((be16 a b).toNat / 2) (by simp only [List.length_cons, List.length_append]; omega)
  rw [parseCipherSuites_cons ch suites hs (by omega), hws]
  refine (parseCompression_fault_iff (by omega)).trans ?_
  constructor
  · rintro ⟨n, methods, c, d, exts, rfl, hm, hle, h⟩
    exact .inr ⟨a, b, suites, n, methods, c, d, exts, rfl, hs, hm, hle, h⟩
  · rintro (⟨c, d, l, heq, hlt', -⟩ | ⟨c, d, suites', n, methods, e, f, exts, heq, hs', hm, hle, h⟩)
    · cases heq
      rw [List.length_append] at hlt'
      omega
    · simp only [List.cons.injEq] at heq
      obtain ⟨rfl, rfl, heq⟩ := heq
      obtain ⟨rfl, rfl⟩ := List.append_inj heq (hs.trans hs'.symm)
      exact ⟨n, methods, e, f, exts, rfl, hm, hle, h⟩

theorem parseSessionID_fault_iff {ch : ClientHello} {hs : GoString}
    (hlen : hs.length < 65534) :
    parseSessionID ch hs = .error .fault ↔
      ∃ n sid rest, hs = n :: (sid ++ rest) ∧ sid.length = n.toNat ∧ SuitesOverrun rest := by
  cases hs with
  | nil =>
      rw [parseSessionID_nil]
      exact ⟨fun h => (by cases h), by rintro ⟨n, sid, rest, h, -⟩; cases h⟩
  | cons n l =>
      simp only [List.length_cons] at hlen
      by_cases hlt : l.length < n.toNat
      · rw [parseSessionID_short hlt]
        refine ⟨fun h => (by cases h), ?_⟩
        rintro ⟨n', sid, rest, heq, hsid, -⟩
        cases heq
        rw [List.length_append] at hlt
        omega
      · obtain ⟨sid, rest, rfl, hsid⟩ := exists_append_of_le (Nat.le_of_not_lt hlt)
        rw [List.length_append] at hlen
        rw [parseSessionID_cons ch hsid, parseCipherSuites_fault_iff (by omega)]
        refine ⟨fun h => ⟨n, sid, rest, rfl, hsid, h⟩, ?_⟩
        rintro ⟨n', sid', rest', heq, hsid', h⟩
        obtain ⟨rfl, heq'⟩ := List.cons.inj heq
        obtain ⟨rfl, rfl⟩ := List.append_inj heq' (hsid.trans hsid'.symm)
        exact h

theorem parseRandom_fault_iff {ch : ClientHello} {hs : GoString} (hlen : hs.length < 65534) :
    parseRandom ch hs = .error .fault ↔
      ∃ random n sid rest, hs = random ++ n :: (sid ++ rest) ∧ random.length = 32
        ∧ sid.length = n.toNat ∧ SuitesOverrun rest := by
  by_cases hlt : hs.length < 32
  · rw [parseRandom_short hlt]
    refine ⟨fun h => (by cases h), ?_⟩
    rintro ⟨random, n, sid, rest, rfl, hr, -⟩
    rw [List.length_append] at hlt
    omega
  · obtain ⟨random, rest, rfl, hr⟩ := exists_append_of_le (Nat.le_of_not_lt hlt)
    rw [List.length_append] at hlen
    rw [parseRandom_append ch hr, parseSessionID_fault_iff (by omega)]
    constructor
    · rintro ⟨n, sid, rest, rfl, h⟩
      exact ⟨random, n, sid, rest, rfl, hr, h⟩
    · rintro ⟨random', n, sid, rest', heq, hr', h⟩
      obtain ⟨rfl, rfl⟩ := List.append_inj heq (hr.trans hr'.symm)
      exact ⟨n, sid, rest', rfl, h⟩

/-! ## The whole record -/

theorem length_of_overrun {payload : GoString} (h : Overrun payload) :
    43 < payload.length := by
  obtain ⟨pre, n, sid, hs, rfl, hpre, -⟩ := h
  rw [List.length_append, List.length_cons]
  omega

/-- `Overrun`, behind the eleven bytes in front of the random. -/
theorem overrun_append_iff (head : GoString) {rest : GoString} (hhead : head.length = 11) :
    Overrun (head ++ rest) ↔
      ∃ random n sid hs, rest = random ++ n :: (sid ++ hs) ∧ random.length = 32
        ∧ sid.length = n.toNat ∧ SuitesOverrun hs := by
  constructor
  · rintro ⟨pre, n, sid, hs, heq, hpre, hsid, h⟩
    obtain ⟨pre₁, random, rfl, hpre₁⟩ := exists_append_of_le (l := pre) (n := 11) (by omega)
    rw [List.append_assoc] at heq
    obtain ⟨rfl, rfl⟩ := List.append_inj heq (hhead.trans hpre₁.symm)
    rw [List.length_append] at hpre
    exact ⟨random, n, sid, hs, rfl, by omega, hsid, h⟩
  · rintro ⟨random, n, sid, hs, rfl, hr, hsid, h⟩
    exact ⟨head ++ random, n, sid, hs, by rw [List.append_assoc],
      by rw [List.length_append]; omega, hsid, h⟩

/-- The nine bytes every accepted record starts with. -/
theorem Accepted.cases {payload : GoString} (h : Accepted payload) :
    ∃ v₁ v₂ l₁ l₂ m₁ m₂ m₃ rest,
      payload = 22 :: v₁ :: v₂ :: l₁ :: l₂ :: 1 :: m₁ :: m₂ :: m₃ :: rest := by
  obtain ⟨htype, hhs, hmin, -⟩ := h
  match payload, htype, hhs, hmin with
  | ty :: v₁ :: v₂ :: l₁ :: l₂ :: hs :: m₁ :: m₂ :: m₃ :: rest, htype, hhs, _ =>
      obtain rfl : ty = 22 := htype
      obtain rfl : hs = 1 := hhs
      exact ⟨v₁, v₂, l₁, l₂, m₁, m₂, m₃, rest, rfl⟩

theorem unmarshall_fault_iff {payload : GoString} (h : Accepted payload) :
    unmarshall payload = .error .fault ↔ Overrun payload := by
  have hmax := h.maxLen
  obtain ⟨v₁, v₂, l₁, l₂, m₁, m₂, m₃, rest, rfl⟩ := h.cases
  simp only [List.length_cons] at hmax
  rw [unmarshall_cons]
  rcases body_cases rest with hshort | ⟨w₁, w₂, rest, rfl⟩
  · rw [parseHandshake_short (by simp only [List.length_cons]; omega)]
    refine ⟨fun h => (by cases h), fun h => ?_⟩
    have := length_of_overrun h
    simp only [List.length_cons] at this
    omega
  · simp only [List.length_cons] at hmax
    rw [parseHandshake_cons, parseRandom_fault_iff (by omega)]
    exact (overrun_append_iff [22, v₁, v₂, l₁, l₂, 1, m₁, m₂, m₃, w₁, w₂] rfl).symm

/-- `Unmarshall` ends normally: with a value or with one of its errors. -/
def Returns (payload : GoString) : Prop :=
  (∃ ch, unmarshall payload = .ok ch) ∨ ∃ e, unmarshall payload = .error (.err e)

theorem returns_iff (payload : GoString) :
    Returns payload ↔ unmarshall payload ≠ .error .fault := by
  unfold Returns
  cases unmarshall payload with
  | ok ch => exact ⟨fun _ h => (by cases h), fun _ => .inl ⟨ch, rfl⟩⟩
  | error halt =>
      cases halt with
      | err e => exact ⟨fun _ h => (by cases h), fun _ => .inr ⟨e, rfl⟩⟩
      | fault =>
          refine ⟨?_, fun h => absurd rfl h⟩
          rintro (⟨ch, h⟩ | ⟨e, h⟩) <;> cases h

/-- A record that was read without an error is parsed without a fault exactly
when no length in it overruns. -/
theorem unmarshall_returns_iff (payload : GoString) (h : Returned payload) :
    Returns payload ↔ ¬ Overrun payload := by
  rw [returns_iff, ne_eq, unmarshall_fault_iff (accepted_of_returned h)]

/-- A hello with one cipher suite and a `server_name` extension for `a.b`. -/
def helloSni : GoString :=
  [22, 3, 1, 0, 59, 1, 0, 0, 55, 3, 3] ++ List.replicate 32 7
    ++ [0, 0, 2, 0x13, 0x01, 1, 0, 0, 12, 0, 0, 0, 8, 0, 6, 0, 0, 3, 97, 46, 98]

theorem unmarshall_returns_iff_helloSni :
    Returned helloSni ∧ Returns helloSni ∧ ¬ Overrun helloSni := by
  have hread : Returned helloSni := ⟨⟨[helloSni], .eof⟩, by decide +kernel, by decide +kernel⟩
  have hiff := unmarshall_returns_iff helloSni hread
  have hret : Returns helloSni := by
    rw [returns_iff]
    intro hfault
    have hsni : clientHelloServerName helloSni = .ok (some [97, 46, 98]) := by decide +kernel
    rw [clientHelloServerName, hfault] at hsni
    cases hsni
  exact ⟨hread, hret, hiff.mp hret⟩

/-- A record that ends right behind a cipher suite length of two. -/
def helloCutSuites : GoString :=
  [22, 3, 1, 0, 41, 1, 0, 0, 37, 3, 3] ++ List.replicate 32 7 ++ [0, 0, 2]

/-- The record is read without an error, and parsing it faults. -/
theorem not_unmarshall_returns : ¬ ∀ payload, Returned payload → Returns payload := by
  intro h
  have hread : Returned helloCutSuites :=
    ⟨⟨[helloCutSuites], .eof⟩, by decide +kernel, by decide +kernel⟩
  have hfault : unmarshall helloCutSuites = .error .fault := rfl
  exact (returns_iff _).mp (h _ hread) hfault

end Hello

end RbiProxy
