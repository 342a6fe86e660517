import RbiProxy.ClientHello

/-!
# The parser, stage by stage

One equation per stage of `Unmarshall` on a message whose next field is
complete, and one for the ways in which it is cut short. Both the analysis
of faults and the round trip go through these and never unfold a stage
again.
-/

namespace RbiProxy

namespace Hello

open GoSlice

/-! ## Loops over an extension body -/

theorem serverNameLoop_nil (ch : ClientHello) : serverNameLoop ch [] = .ok ch := by
  rw [serverNameLoop]; rfl

/-- One entry of the list: name type, length, and everything behind it. -/
theorem serverNameLoop_cons (ch : ClientHello) (ty a b : UInt8) (rest : GoString) :
    serverNameLoop ch (ty :: a :: b :: rest) =
      if (be16 a b).toNat ≤ rest.length then
        serverNameLoop (if ty = sniNameTypeDNS then { ch with sni := rest } else ch)
          (rest.drop (be16 a b).toNat)
      else .error .fault := by
  rw [serverNameLoop]
  simp only [List.length_cons, List.drop_succ_cons, List.drop_zero]
  rw [if_neg (by omega)]
  simp only [idx, word16, List.getElem?_cons_zero, List.getElem?_cons_succ, bind,
    Except.bind, pure, Except.pure]
  rw [dif_neg (by omega)]
  rfl

theorem serverNameLoop_short {ch : ClientHello} {data : GoString} (h0 : data ≠ [])
    (h3 : data.length < 3) : serverNameLoop ch data = .error (.err .extBadLength) := by
  rw [serverNameLoop]
  cases data with
  | nil => exact absurd rfl h0
  | cons ty rest =>
      rw [if_neg (by simp)]
      simp only [idx, List.getElem?_cons_zero, bind, Except.bind]
      rw [dif_pos h3]
      rfl

theorem alpnLoop_nil (ch : ClientHello) : alpnLoop ch [] = .ok ch := by
  rw [alpnLoop]; rfl

theorem alpnLoop_cons (ch : ClientHello) (n : UInt8) (data : GoString) :
    alpnLoop ch (n :: data) =
      if n.toNat ≤ data.length then
        alpnLoop { ch with alpns := ch.alpns ++ [data.take n.toNat] } (data.drop n.toNat)
      else .error .fault := by
  rw [alpnLoop]; rfl

/-! ## Extension bodies -/

theorem wordList_short {data : GoString} (h : data.length < 2) :
    wordList data = .error (.err .extBadLength) := by
  rw [wordList, if_pos h]; rfl

theorem wordList_cons (a b : UInt8) (l : GoString) :
    wordList (a :: b :: l) =
      if l.length < (be16 a b).toNat then .error (.err .extBadLength)
      else words16 l 0 ((be16 a b).toNat / 2) := by
  rw [wordList, if_neg (by simp)]
  simp only [idx, word16, sliceFrom, List.getElem?_cons_zero, List.getElem?_cons_succ, bind,
    Except.bind, pure, Except.pure, List.length_cons, List.drop_succ_cons, List.drop_zero]
  rw [if_pos (by omega)]
  by_cases h : l.length < (be16 a b).toNat
  · rw [if_pos h]
    exact if_pos h
  · rw [if_neg h]
    exact if_neg h

theorem extension_serverName_short {ch : ClientHello} {len : UInt16} {data : GoString}
    (h : data.length < 2) :
    extension ch extServerName len data = .error (.err .extBadLength) := by
  rw [extension, if_pos rfl, if_pos h]; rfl

theorem extension_serverName (ch : ClientHello) (len : UInt16) (a b : UInt8) (l : GoString) :
    extension ch extServerName len (a :: b :: l) =
      if l.length < (be16 a b).toNat then .error (.err .extBadLength)
      else serverNameLoop ch l := by
  rw [extension, if_pos rfl, if_neg (by simp)]
  simp only [idx, word16, sliceFrom, List.getElem?_cons_zero, List.getElem?_cons_succ, bind,
    Except.bind, pure, Except.pure, List.length_cons, List.drop_succ_cons, List.drop_zero]
  rw [if_pos (by omega)]
  by_cases h : l.length < (be16 a b).toNat
  · rw [if_pos h]
    exact if_pos h
  · rw [if_neg h]
    exact if_neg h

theorem extension_signatureAlgs (ch : ClientHello) (len : UInt16) (data : GoString) :
    extension ch extSignatureAlgs len data
      = (wordList data).map fun algs => { ch with signatureAlgs := algs } := by
  rw [extension, if_neg (by decide), if_pos rfl]
  cases wordList data <;> rfl

theorem extension_supportedGroups (ch : ClientHello) (len : UInt16) (data : GoString) :
    extension ch extSupportedGroups len data
      = (wordList data).map fun groups => { ch with supportedGroups := groups } := by
  rw [extension, if_neg (by decide), if_neg (by decide), if_pos rfl]
  cases wordList data <;> rfl

theorem extension_pointFormats_nil (ch : ClientHello) (len : UInt16) :
    extension ch extECPointFormats len [] = .error (.err .extBadLength) := by
  rw [extension, if_neg (by decide), if_neg (by decide), if_neg (by decide), if_pos rfl]
  rfl

theorem extension_pointFormats (ch : ClientHello) (len : UInt16) (n : UInt8) (l : GoString) :
    extension ch extECPointFormats len (n :: l) =
      if l.length < n.toNat then .error (.err .extBadLength)
      else .ok { ch with supportedPoints := l.take n.toNat } := by
  rw [extension, if_neg (by decide), if_neg (by decide), if_neg (by decide), if_pos rfl,
    if_neg (by simp)]
  simp only [idx, sliceFrom, List.getElem?_cons_zero, bind, Except.bind, pure, Except.pure,
    List.length_cons, List.drop_succ_cons, List.drop_zero]
  rw [if_pos (by omega)]
  by_cases h : l.length < n.toNat
  · rw [if_pos h]
    exact if_pos h
  · rw [if_neg h]
    refine (if_neg h).trans ?_
    simp only [bytes8_ok 0 _ (show 0 + n.toNat ≤ l.length by omega)]
    rfl

theorem extension_statusRequest_nil (ch : ClientHello) (len : UInt16) :
    extension ch extStatusRequest len [] = .error (.err .extBadLength) := by
  rw [extension, if_neg (by decide), if_neg (by decide), if_neg (by decide),
    if_neg (by decide), if_pos rfl]
  rfl

theorem extension_statusRequest (ch : ClientHello) (len : UInt16) (t : UInt8) (l : GoString) :
    extension ch extStatusRequest len (t :: l)
      = .ok (if t = ocspStatusRequest then { ch with oscp := true } else ch) := by
  rw [extension, if_neg (by decide), if_neg (by decide), if_neg (by decide),
    if_neg (by decide), if_pos rfl, if_neg (by simp)]
  rfl

theorem extension_alpn_short {ch : ClientHello} {len : UInt16} {data : GoString}
    (h : data.length < 2) :
    extension ch extALPN len data = .error (.err .extBadLength) := by
  rw [extension, if_neg (by decide), if_neg (by decide), if_neg (by decide),
    if_neg (by decide), if_neg (by decide), if_pos rfl, if_pos h]
  rfl

theorem extension_alpn (ch : ClientHello) (len : UInt16) (a b : UInt8) (l : GoString) :
    extension ch extALPN len (a :: b :: l) =
      if l.length = (be16 a b).toNat then alpnLoop ch l
      else .error (.err .extBadLength) := by
  rw [extension, if_neg (by decide), if_neg (by decide), if_neg (by decide),
    if_neg (by decide), if_neg (by decide), if_pos rfl, if_neg (by simp)]
  simp only [idx, word16, sliceFrom, List.getElem?_cons_zero, List.getElem?_cons_succ, bind,
    Except.bind, pure, Except.pure, List.length_cons, List.drop_succ_cons, List.drop_zero]
  rw [if_pos (by omega)]
  by_cases h : l.length = (be16 a b).toNat
  · rw [if_pos h]
    exact if_neg (not_not.mpr h)
  · rw [if_neg h]
    exact if_pos h

/-- The types with a case of their own in the `switch`. -/
def knownTypes : List UInt16 :=
  [extServerName, extSignatureAlgs, extSupportedGroups, extECPointFormats,
   extStatusRequest, extALPN]

theorem extension_other (ch : ClientHello) {ty : UInt16} (len : UInt16) (data : GoString)
    (h : ty ∉ knownTypes) :
    extension ch ty len data = .ok { ch with extensions := ch.extensions.insert ty len } := by
  simp only [knownTypes, List.mem_cons, List.not_mem_nil, or_false, not_or] at h
  obtain ⟨h1, h2, h3, h4, h5, h6⟩ := h
  rw [extension, if_neg h1, if_neg h2, if_neg h3, if_neg h4, if_neg h5, if_neg h6]
  rfl

/-! ## The extension loop -/

theorem extensionLoop_nil (ch : ClientHello) : extensionLoop ch [] = .ok ch := by
  rw [extensionLoop]; rfl

theorem extensionLoop_short {ch : ClientHello} {hs : GoString} (h0 : hs ≠ [])
    (h4 : hs.length < 4) : extensionLoop ch hs = .error (.err .extBadLength) := by
  rw [extensionLoop, if_neg (by simpa using h0), if_pos h4]
  rfl

theorem extensionLoop_truncated (ch : ClientHello) {t₁ t₂ a b : UInt8} {rest : GoString}
    (h : rest.length < (be16 a b).toNat) :
    extensionLoop ch (t₁ :: t₂ :: a :: b :: rest) = .error (.err .extBadLength) := by
  rw [extensionLoop, if_neg (by simp), if_neg (by simp)]
  simp only [idx, word16, List.getElem?_cons_zero, List.getElem?_cons_succ, bind,
    Except.bind, pure, Except.pure, List.length_cons]
  rw [if_pos (by omega)]
  rfl

/-- A complete extension block, as long as `4+length` does not wrap. -/
theorem extensionLoop_cons (ch : ClientHello) (t₁ t₂ : UInt8) {a b : UInt8}
    {body : GoString} (rest : GoString)
    (hbody : body.length = (be16 a b).toNat) (hwrap : (be16 a b).toNat < 65532) :
    extensionLoop ch (t₁ :: t₂ :: a :: b :: (body ++ rest)) =
      (extension ch (be16 t₁ t₂) (be16 a b) body).bind fun ch => extensionLoop ch rest := by
  have hadd : (4 + be16 a b).toNat = (be16 a b).toNat + 4 := by
    rw [UInt16.toNat_add, show (4 : UInt16).toNat = 4 from rfl]
    omega
  rw [extensionLoop, if_neg (by simp), if_neg (by simp)]
  simp only [idx, word16, List.getElem?_cons_zero, List.getElem?_cons_succ, bind,
    Except.bind, pure, Except.pure, List.length_cons, List.length_append]
  rw [if_neg (by omega)]
  rw [dif_pos (by omega), hadd]
  simp only [List.take_succ_cons, List.drop_succ_cons, List.drop_zero]
  rw [← hbody, List.take_left, List.drop_left]

/-! ## The fixed part -/

theorem parseExtensions_short {ch : ClientHello} {hs : GoString} (h : hs.length < 2) :
    parseExtensions ch hs = .error (.err .badLength) := by
  rw [parseExtensions, if_pos h]; rfl

theorem parseExtensions_cons (ch : ClientHello) (a b : UInt8) (l : GoString) :
    parseExtensions ch (a :: b :: l) =
      if l.length + 2 < (be16 a b).toNat then .error (.err .extBadLength)
      else extensionLoop { ch with extensionLen := be16 a b, extensions := ∅ } l := by
  rw [parseExtensions, if_neg (by simp)]
  simp only [idx, word16, sliceFrom, List.getElem?_cons_zero, List.getElem?_cons_succ, bind,
    Except.bind, pure, Except.pure, List.length_cons, List.drop_succ_cons, List.drop_zero]
  by_cases h : l.length + 2 < (be16 a b).toNat
  · rw [if_pos h, if_pos h]; rfl
  · rw [if_neg h, if_neg h]
    rw [if_pos (by omega)]

theorem parseCompression_nil (ch : ClientHello) :
    parseCompression ch [] = .error (.err .badLength) := rfl

theorem parseCompression_short {ch : ClientHello} {n : UInt8} {l : GoString}
    (h : l.length < n.toNat) :
    parseCompression ch (n :: l) = .error (.err .badLength) := by
  rw [parseCompression, if_neg (by simp)]
  simp only [idx, List.getElem?_cons_zero, bind, Except.bind, List.length_cons]
  rw [if_pos (by omega)]
  rfl

theorem parseCompression_cons (ch : ClientHello) {n : UInt8} {methods rest : GoString}
    (h : methods.length = n.toNat) :
    parseCompression ch (n :: (methods ++ rest))
      = parseExtensions { ch with compressMethods := methods } rest := by
  rw [parseCompression, if_neg (by simp)]
  simp only [idx, List.getElem?_cons_zero, bind, Except.bind, List.length_cons,
    List.length_append]
  rw [if_neg (by omega),
    bytes8_ok 1 _ (by simp only [List.length_cons, List.length_append]; omega)]
  simp only [List.drop_succ_cons, List.drop_zero]
  rw [sliceFrom_of_le (by simp only [List.length_cons, List.length_append]; omega),
    Nat.add_comm 1, List.drop_succ_cons, ← h, List.take_left, List.drop_left]

theorem parseCipherSuites_short {ch : ClientHello} {hs : GoString} (h : hs.length < 2) :
    parseCipherSuites ch hs = .error (.err .badLength) := by
  rw [parseCipherSuites, if_pos h]; rfl

theorem parseCipherSuites_truncated (ch : ClientHello) {a b : UInt8} {l : GoString}
    (h : l.length + 2 < (be16 a b).toNat) :
    parseCipherSuites ch (a :: b :: l) = .error (.err .badLength) := by
  rw [parseCipherSuites, if_neg (by simp)]
  simp only [idx, word16, List.getElem?_cons_zero, List.getElem?_cons_succ, bind,
    Except.bind, pure, Except.pure, List.length_cons]
  rw [if_pos h]
  rfl

/-- A complete list of cipher suites, as long as `2+CipherSuiteLen` does not
wrap. -/
theorem parseCipherSuites_cons (ch : ClientHello) (suites : GoString) {a b : UInt8}
    {rest : GoString}
    (h : suites.length = (be16 a b).toNat) (hwrap : (be16 a b).toNat < 65534) :
    parseCipherSuites ch (a :: b :: (suites ++ rest)) =
      (words16 (a :: b :: (suites ++ rest)) 2 ((be16 a b).toNat / 2)).bind fun ws =>
        parseCompression { ch with cipherSuiteLen := be16 a b, cipherSuites := ws } rest := by
  have hadd : (2 + be16 a b).toNat = (be16 a b).toNat + 2 := by
    rw [UInt16.toNat_add, show (2 : UInt16).toNat = 2 from rfl]
    omega
  rw [parseCipherSuites, if_neg (by simp)]
  simp only [idx, word16, List.getElem?_cons_zero, List.getElem?_cons_succ, bind,
    Except.bind, pure, Except.pure, List.length_cons, List.length_append]
  rw [if_neg (by omega), hadd]
  rw [sliceFrom_of_le (by simp only [List.length_cons, List.length_append]; omega)]
  simp only [List.drop_succ_cons]
  rw [← h, List.drop_left]

theorem parseSessionID_nil (ch : ClientHello) :
    parseSessionID ch [] = .error (.err .badLength) := rfl

theorem parseSessionID_short {ch : ClientHello} {n : UInt8} {l : GoString}
    (h : l.length < n.toNat) :
    parseSessionID ch (n :: l) = .error (.err .badLength) := by
  rw [parseSessionID, if_neg (by simp)]
  simp only [idx, sliceFrom, List.getElem?_cons_zero, bind, Except.bind, pure, Except.pure,
    List.length_cons, List.drop_succ_cons, List.drop_zero]
  rw [if_pos (by omega)]
  simp only
  rw [if_pos h]
  rfl

theorem parseSessionID_cons (ch : ClientHello) {n : UInt8} {sid rest : GoString}
    (h : sid.length = n.toNat) :
    parseSessionID ch (n :: (sid ++ rest))
      = parseCipherSuites { ch with sessionIDLen := n.toUInt32, sessionID := sid } rest := by
  rw [parseSessionID, if_neg (by simp)]
  simp only [idx, List.getElem?_cons_zero, bind, Except.bind, pure, Except.pure]
  rw [sliceFrom_of_le (by simp)]
  simp only [List.drop_succ_cons, List.drop_zero, List.length_append]
  rw [if_neg (by omega)]
  rw [sliceFrom_of_le (by simp only [List.length_append]; omega),
    sliceTo_of_le (by simp only [List.length_append]; omega)]
  by_cases hn : n = 0
  · have hsid : sid = [] := List.length_eq_zero_iff.mp (by rw [h, hn]; rfl)
    simp [hn, hsid]
  · rw [if_pos hn, ← h, List.take_left, List.drop_left]

theorem parseRandom_short {ch : ClientHello} {hs : GoString} (h : hs.length < 32) :
    parseRandom ch hs = .error (.err .badLength) := by
  rw [parseRandom, if_pos (by simpa only [clientHelloRandomLen] using h)]; rfl

theorem parseRandom_append (ch : ClientHello) {random rest : GoString}
    (h : random.length = 32) :
    parseRandom ch (random ++ rest) = parseSessionID { ch with random := random } rest := by
  rw [parseRandom, if_neg (by simp [clientHelloRandomLen, h])]
  simp only [clientHelloRandomLen, bind, Except.bind]
  rw [sliceTo_of_le (by simp [h]), sliceFrom_of_le (by simp [h]), ← h, List.take_left,
    List.drop_left]

theorem parseHandshake_short {ch : ClientHello} {hs : GoString} (h : hs.length < 6) :
    parseHandshake ch hs = .error (.err .badLength) := by
  rw [parseHandshake, if_pos h]; rfl

theorem parseHandshake_cons (ch : ClientHello) (l₁ l₂ l₃ v₁ v₂ : UInt8) (rest : GoString) :
    parseHandshake ch (1 :: l₁ :: l₂ :: l₃ :: v₁ :: v₂ :: rest) =
      parseRandom { ch with handshakeType := 1, handshakeLen := be24 l₁ l₂ l₃,
                            handshakeVersion := be16 v₁ v₂ } rest := by
  rw [parseHandshake, if_neg (by simp)]
  rfl

theorem unmarshall_cons (v₁ v₂ l₁ l₂ : UInt8) (hs : GoString) :
    unmarshall (22 :: v₁ :: v₂ :: l₁ :: l₂ :: hs) =
      parseHandshake { raw := 22 :: v₁ :: v₂ :: l₁ :: l₂ :: hs, type := 22,
                       version := be16 v₁ v₂, messageLen := be16 l₁ l₂ } hs := rfl

end Hello

end RbiProxy
