import RbiProxy.HelloStages

/-!
# Decoding undoes encoding

`RfcHello` is a ClientHello as RFC 5246 describes it, `record` its
serialization in one TLS record, and `WellFormedHello` a hello whose parts
fit their length fields and in which every extension the parser knows
occurs at most once. `Unmarshall` returns on every such record and yields
the fields it was made from (`unmarshall_record`).

The extensions are handled by one fold: `applyExt` is what the parser does
to its value at one extension, `extensionLoop_encode` says that the loop is
the fold of it, and `foldl_getLast` reads a field off that fold.
-/

namespace RbiProxy

namespace Hello

open GoSlice

/-! ## Values -/

inductive Ext where
  | serverName (name : GoString)
  | signatureAlgs (algs : List UInt16)
  | supportedGroups (groups : List UInt16)
  | pointFormats (points : List UInt8)
  | statusRequest (statusType : UInt8) (request : GoString)
  | alpn (protocols : List GoString)
  | other (type : UInt16) (body : GoString)

namespace Ext

def type : Ext → UInt16
  | serverName _ => extServerName
  | signatureAlgs _ => extSignatureAlgs
  | supportedGroups _ => extSupportedGroups
  | pointFormats _ => extECPointFormats
  | statusRequest _ _ => extStatusRequest
  | alpn _ => extALPN
  | other type _ => type

/-- A protocol name behind its length byte. -/
def proto (name : GoString) : GoString := UInt8.ofNat name.length :: name

/-- The extension's data, with one `host_name` entry in a `server_name`. -/
def body : Ext → GoString
  | serverName name =>
      put16 (3 + name.length) ++ (sniNameTypeDNS :: (put16 name.length ++ name))
  | signatureAlgs algs => put16 (2 * algs.length) ++ putWords algs
  | supportedGroups groups => put16 (2 * groups.length) ++ putWords groups
  | pointFormats points => UInt8.ofNat points.length :: points
  | statusRequest statusType request => statusType :: request
  | alpn protocols => put16 (protocols.flatMap proto).length ++ protocols.flatMap proto
  | other _ body => body

def encode (e : Ext) : GoString := put16 e.type.toNat ++ (put16 e.body.length ++ e.body)

/-- The parts fit their length bytes, and `other` is none of the known types. -/
def WellFormed : Ext → Prop
  | pointFormats points => points.length < 256
  | alpn protocols => ∀ name ∈ protocols, name.length < 256
  | other type _ => type ∉ knownTypes
  | _ => True

def serverName? : Ext → Option GoString
  | serverName name => some name
  | _ => none

def signatureAlgs? : Ext → Option (List UInt16)
  | signatureAlgs algs => some algs
  | _ => none

def supportedGroups? : Ext → Option (List UInt16)
  | supportedGroups groups => some groups
  | _ => none

def pointFormats? : Ext → Option (List UInt8)
  | pointFormats points => some points
  | _ => none

/-- Whether a `status_request` asks for OCSP. -/
def ocsp? : Ext → Option Bool
  | statusRequest statusType _ => if statusType = ocspStatusRequest then some true else none
  | _ => none

def alpn? : Ext → Option (List GoString)
  | alpn protocols => some protocols
  | _ => none

/-- The length of an extension of type `ty` outside the `switch`. -/
def otherLength? (ty : UInt16) : Ext → Option Nat
  | other type body => if type = ty then some body.length else none
  | _ => none

end Ext

/-- A ClientHello and the version of the record around it. -/
structure RfcHello where
  recordVersion : UInt16
  version : UInt16
  random : GoString
  sessionID : GoString
  cipherSuites : List UInt16
  compressMethods : List UInt8
  extensions : List Ext

namespace RfcHello

variable (h : RfcHello)

def extensionsBytes : GoString := h.extensions.flatMap Ext.encode

/-- From the cipher suites to the end. -/
def tail : GoString :=
  put16 (2 * h.cipherSuites.length) ++ (putWords h.cipherSuites ++
    (UInt8.ofNat h.compressMethods.length :: (h.compressMethods ++
      (put16 h.extensionsBytes.length ++ h.extensionsBytes))))

def body : GoString :=
  put16 h.version.toNat ++ (h.random ++
    (UInt8.ofNat h.sessionID.length :: (h.sessionID ++ h.tail)))

/-- The handshake message, which is the record's fragment. -/
def fragment : GoString := 1 :: (put24 h.body.length ++ h.body)

def record : GoString :=
  22 :: (put16 h.recordVersion.toNat ++ (put16 h.fragment.length ++ h.fragment))

/-! The values the extensions carry, or the defaults of a field nothing sets. -/

def sni : GoString := (h.extensions.filterMap Ext.serverName?).head?.getD []

def signatureAlgs : List UInt16 := (h.extensions.filterMap Ext.signatureAlgs?).head?.getD []

def supportedGroups : List UInt16 :=
  (h.extensions.filterMap Ext.supportedGroups?).head?.getD []

def supportedPoints : List UInt8 := (h.extensions.filterMap Ext.pointFormats?).head?.getD []

def ocsp : Bool := (h.extensions.filterMap Ext.ocsp?).head?.getD false

def alpns : List GoString := (h.extensions.filterMap Ext.alpn?).head?.getD []

/-- The length of the last extension of type `ty` outside the `switch`. -/
def lastLength (ty : UInt16) : Option Nat :=
  (h.extensions.filterMap (Ext.otherLength? ty)).getLast?

end RfcHello

/-- A hello whose parts fit their length fields, in which every known
extension occurs at most once, and which fits in one record. -/
structure WellFormedHello extends RfcHello where
  random_length : random.length = 32
  sessionID_length : sessionID.length < 256
  compressMethods_ne : compressMethods ≠ []
  compressMethods_length : compressMethods.length < 256
  extensions_wf : ∀ e ∈ extensions, e.WellFormed
  extensions_once : ∀ ty ∈ knownTypes, (extensions.filter fun e => e.type = ty).length ≤ 1
  fits : toRfcHello.fragment.length ≤ 65535

/-! ## One extension -/

/-- What the `switch` does to the value at `e`. -/
def applyExt (ch : ClientHello) : Ext → ClientHello
  | .serverName name => { ch with sni := name }
  | .signatureAlgs algs => { ch with signatureAlgs := algs }
  | .supportedGroups groups => { ch with supportedGroups := groups }
  | .pointFormats points => { ch with supportedPoints := points }
  | .statusRequest statusType _ =>
      { ch with oscp := if statusType = ocspStatusRequest then true else ch.oscp }
  | .alpn protocols => { ch with alpns := ch.alpns ++ protocols }
  | .other type body =>
      { ch with extensions := ch.extensions.insert type (UInt16.ofNat body.length) }

theorem serverNameLoop_entry (ch : ClientHello) {name : GoString} (h : name.length < 65536) :
    serverNameLoop ch (sniNameTypeDNS :: (put16 name.length ++ name))
      = .ok { ch with sni := name } := by
  refine (serverNameLoop_cons ch _ _ _ name).trans ?_
  rw [be16_put16 h, if_pos (Nat.le_refl _), if_pos rfl, List.drop_length, serverNameLoop_nil]

theorem alpnLoop_protos (protocols : List GoString) (ch : ClientHello)
    (h : ∀ name ∈ protocols, name.length < 256) :
    alpnLoop ch (protocols.flatMap Ext.proto)
      = .ok { ch with alpns := ch.alpns ++ protocols } := by
  induction protocols generalizing ch with
  | nil => simp only [List.flatMap_nil, alpnLoop_nil, List.append_nil]
  | cons name protocols ih =>
      have hname : (UInt8.ofNat name.length).toNat = name.length := by
        rw [UInt8.toNat_ofNat']
        exact Nat.mod_eq_of_lt (h name (by simp))
      have hrest := ih { ch with alpns := ch.alpns ++ [name] } fun n hn => h n (by simp [hn])
      rw [List.flatMap_cons, Ext.proto, List.cons_append, alpnLoop_cons, hname,
        if_pos (by rw [List.length_append]; omega), List.take_left, List.drop_left, hrest]
      simp only [List.append_assoc, List.singleton_append]

theorem wordList_put {ws : List UInt16} (h : 2 * ws.length < 65536) :
    wordList (put16 (2 * ws.length) ++ putWords ws) = .ok ws := by
  refine (wordList_cons _ _ (putWords ws)).trans ?_
  rw [be16_put16 h, if_neg (by rw [length_putWords]; omega),
    show 2 * ws.length / 2 = ws.length by omega]
  have := words16_append (ε := HelloError) ws [] []
  rwa [List.nil_append, List.append_nil] at this

/-- The `switch` on the data of a well-formed extension. -/
theorem extension_body (ch : ClientHello) {e : Ext} (hwf : e.WellFormed)
    (hlen : e.body.length < 65536) :
    extension ch e.type (UInt16.ofNat e.body.length) e.body = .ok (applyExt ch e) := by
  cases e with
  | serverName name =>
      simp only [Ext.body, List.length_append, length_put16, List.length_cons] at hlen
      refine (extension_serverName ch _ _ _
        (sniNameTypeDNS :: (put16 name.length ++ name))).trans ?_
      rw [be16_put16 (by omega), if_neg (by simp; omega), serverNameLoop_entry ch (by omega)]
      rfl
  | signatureAlgs algs =>
      simp only [Ext.body, List.length_append, length_put16, length_putWords] at hlen
      simp only [Ext.type, Ext.body]
      rw [extension_signatureAlgs, wordList_put (by omega)]
      rfl
  | supportedGroups groups =>
      simp only [Ext.body, List.length_append, length_put16, length_putWords] at hlen
      simp only [Ext.type, Ext.body]
      rw [extension_supportedGroups, wordList_put (by omega)]
      rfl
  | pointFormats points =>
      have hn : (UInt8.ofNat points.length).toNat = points.length := by
        rw [UInt8.toNat_ofNat']
        exact Nat.mod_eq_of_lt hwf
      simp only [Ext.type, Ext.body]
      rw [extension_pointFormats, hn, if_neg (by omega), List.take_length]
      rfl
  | statusRequest statusType request =>
      refine (extension_statusRequest ch _ statusType request).trans ?_
      simp only [applyExt]
      split <;> rfl
  | alpn protocols =>
      simp only [Ext.body, List.length_append, length_put16] at hlen
      refine (extension_alpn ch _ _ _ (protocols.flatMap Ext.proto)).trans ?_
      rw [be16_put16 (by omega), if_pos rfl, alpnLoop_protos protocols ch hwf]
      rfl
  | other type body => exact extension_other ch _ _ hwf

/-! ## The extension loop as a fold -/

theorem be16_length {n : Nat} (h : n < 65536) :
    be16 (UInt8.ofNat (n / 256)) (UInt8.ofNat n) = UInt16.ofNat n := by
  apply UInt16.toNat_inj.mp
  rw [be16_put16 h, UInt16.toNat_ofNat', Nat.mod_eq_of_lt (by omega)]

theorem extensionLoop_encode (es : List Ext) (ch : ClientHello) (hwf : ∀ e ∈ es, e.WellFormed)
    (hlen : ∀ e ∈ es, e.body.length < 65532) :
    extensionLoop ch (es.flatMap Ext.encode) = .ok (es.foldl applyExt ch) := by
  induction es generalizing ch with
  | nil =>
      rw [List.flatMap_nil, extensionLoop_nil]
      rfl
  | cons e es ih =>
      have he := hlen e (by simp)
      have hsplit : (e :: es).flatMap Ext.encode
          = UInt8.ofNat (e.type.toNat / 256) :: UInt8.ofNat e.type.toNat
            :: UInt8.ofNat (e.body.length / 256) :: UInt8.ofNat e.body.length
            :: (e.body ++ es.flatMap Ext.encode) := by
        simp [Ext.encode, put16]
      rw [hsplit, extensionLoop_cons ch _ _ _ (be16_put16 (by omega)).symm
          (by rw [be16_put16 (by omega)]; exact he),
        be16_put16_toNat, be16_length (by omega), extension_body ch (hwf e (by simp)) (by omega)]
      exact ih (applyExt ch e) (fun e' h' => hwf e' (by simp [h']))
        fun e' h' => hlen e' (by simp [h'])

/-! ## Reading a field off the fold -/

/-- A field that some elements of the list overwrite ends up with what the
last of them wrote. -/
theorem foldl_getLast {σ ε α : Type} {step : σ → ε → σ} {get : σ → α} (sel : ε → Option α)
    (h : ∀ s e, get (step s e) = (sel e).getD (get s)) (es : List ε) (s : σ) :
    get (es.foldl step s) = (es.filterMap sel).getLast?.getD (get s) := by
  induction es generalizing s with
  | nil => rfl
  | cons e es ih =>
      rw [List.foldl_cons, ih (step s e), h s e]
      cases hsel : sel e with
      | none => rw [List.filterMap_cons_none hsel]; rfl
      | some a =>
          rw [List.filterMap_cons_some hsel, List.getLast?_cons]
          rfl

/-- The elements a selector picks are among those with its type. -/
theorem length_filterMap_le {α : Type} {sel : Ext → Option α} {ty : UInt16}
    (h : ∀ {e a}, sel e = some a → e.type = ty) (es : List Ext) :
    (es.filterMap sel).length ≤ (es.filter fun e => e.type = ty).length := by
  induction es with
  | nil => exact Nat.le_refl _
  | cons e es ih =>
      cases hsel : sel e with
      | none =>
          rw [List.filterMap_cons_none hsel, List.filter_cons]
          split
          · exact Nat.le_succ_of_le ih
          · exact ih
      | some a =>
          rw [List.filterMap_cons_some hsel,
            List.filter_cons_of_pos (by simpa using h hsel)]
          exact Nat.succ_le_succ ih

theorem getLast?_eq_head? {α : Type} {l : List α} (h : l.length ≤ 1) :
    l.getLast? = l.head? := by
  match l, h with
  | [], _ => rfl
  | [_], _ => rfl

/-! Which type a selector belongs to, and which field its pick overwrites. -/

theorem Ext.type_of_serverName? {e : Ext} {a : GoString} (h : e.serverName? = some a) :
    e.type = extServerName := by
  cases e <;> first | rfl | cases h

theorem Ext.type_of_signatureAlgs? {e : Ext} {a : List UInt16}
    (h : e.signatureAlgs? = some a) : e.type = extSignatureAlgs := by
  cases e <;> first | rfl | cases h

theorem Ext.type_of_supportedGroups? {e : Ext} {a : List UInt16}
    (h : e.supportedGroups? = some a) : e.type = extSupportedGroups := by
  cases e <;> first | rfl | cases h

theorem Ext.type_of_pointFormats? {e : Ext} {a : List UInt8}
    (h : e.pointFormats? = some a) : e.type = extECPointFormats := by
  cases e <;> first | rfl | cases h

theorem Ext.type_of_ocsp? {e : Ext} {a : Bool} (h : e.ocsp? = some a) :
    e.type = extStatusRequest := by
  cases e <;> first | rfl | cases h

theorem Ext.type_of_alpn? {e : Ext} {a : List GoString} (h : e.alpn? = some a) :
    e.type = extALPN := by
  cases e <;> first | rfl | cases h

theorem sni_applyExt (ch : ClientHello) (e : Ext) :
    (applyExt ch e).sni = e.serverName?.getD ch.sni := by
  cases e <;> rfl

theorem signatureAlgs_applyExt (ch : ClientHello) (e : Ext) :
    (applyExt ch e).signatureAlgs = e.signatureAlgs?.getD ch.signatureAlgs := by
  cases e <;> rfl

theorem supportedGroups_applyExt (ch : ClientHello) (e : Ext) :
    (applyExt ch e).supportedGroups = e.supportedGroups?.getD ch.supportedGroups := by
  cases e <;> rfl

theorem supportedPoints_applyExt (ch : ClientHello) (e : Ext) :
    (applyExt ch e).supportedPoints = e.pointFormats?.getD ch.supportedPoints := by
  cases e <;> rfl

theorem oscp_applyExt (ch : ClientHello) (e : Ext) :
    (applyExt ch e).oscp = e.ocsp?.getD ch.oscp := by
  cases e with
  | statusRequest statusType request => simp only [applyExt, Ext.ocsp?]; split <;> rfl
  | _ => rfl

namespace WellFormedHello

variable (h : WellFormedHello)

/-- A selector of one known type picks at most one extension. -/
theorem length_filterMap {α : Type} {sel : Ext → Option α} {ty : UInt16}
    (hty : ty ∈ knownTypes) (hsel : ∀ {e a}, sel e = some a → e.type = ty) :
    (h.extensions.filterMap sel).length ≤ 1 :=
  Nat.le_trans (length_filterMap_le hsel h.extensions) (h.extensions_once ty hty)

/-- So a field written by that selector holds what it picked. -/
theorem field_foldl {α : Type} {get : ClientHello → α} {sel : Ext → Option α} {ty : UInt16}
    (hty : ty ∈ knownTypes) (hsel : ∀ {e a}, sel e = some a → e.type = ty)
    (hget : ∀ ch e, get (applyExt ch e) = (sel e).getD (get ch)) (ch : ClientHello) :
    get (h.extensions.foldl applyExt ch)
      = (h.extensions.filterMap sel).head?.getD (get ch) := by
  rw [foldl_getLast sel hget, getLast?_eq_head? (h.length_filterMap hty hsel)]

end WellFormedHello

/-- Protocol names are appended rather than overwritten. -/
theorem alpns_foldl (es : List Ext) (ch : ClientHello) :
    (es.foldl applyExt ch).alpns = ch.alpns ++ (es.filterMap Ext.alpn?).flatten := by
  induction es generalizing ch with
  | nil => simp
  | cons e es ih =>
      rw [List.foldl_cons, ih]
      cases e with
      | alpn protocols => simp [applyExt, Ext.alpn?]
      | _ => rfl

/-- The map behind the loop has the last length of every other type. -/
theorem extensions_foldl (ty : UInt16) (es : List Ext) (ch : ClientHello)
    (hlen : ∀ e ∈ es, e.body.length < 65536) :
    ((es.foldl applyExt ch).extensions.lookup ty).map UInt16.toNat
      = (es.filterMap (Ext.otherLength? ty)).getLast?.or
          ((ch.extensions.lookup ty).map UInt16.toNat) := by
  induction es generalizing ch with
  | nil => simp
  | cons e es ih =>
      rw [List.foldl_cons, ih (applyExt ch e) fun e' h' => hlen e' (by simp [h'])]
      cases e with
      | other type body =>
          by_cases hty : type = ty
          · subst hty
            have hbody : (UInt16.ofNat body.length).toNat = body.length := by
              rw [UInt16.toNat_ofNat']
              exact Nat.mod_eq_of_lt (hlen (.other type body) (by simp))
            rw [List.filterMap_cons_some (b := body.length) (by simp [Ext.otherLength?]),
              List.getLast?_cons]
            simp only [applyExt, AList.lookup_insert, Option.map_some, hbody, Option.some_or]
            cases (es.filterMap (Ext.otherLength? type)).getLast? <;> rfl
          · rw [List.filterMap_cons_none (by simp [Ext.otherLength?, hty])]
            simp only [applyExt, AList.lookup_insert_ne (Ne.symm hty)]
      | _ => rfl

/-- What the extensions leave alone. -/
def fixedPart (ch : ClientHello) :=
  (ch.version, ch.handshakeVersion, ch.random, ch.sessionID, ch.cipherSuiteLen,
    ch.cipherSuites, ch.compressMethods)

theorem fixedPart_foldl (es : List Ext) (ch : ClientHello) :
    fixedPart (es.foldl applyExt ch) = fixedPart ch := by
  have hstep : ∀ ch e, fixedPart (applyExt ch e) = (none : Option _).getD (fixedPart ch) := by
    intro ch e
    cases e <;> rfl
  rw [foldl_getLast (fun _ => none) hstep, List.filterMap_none]
  rfl

/-! ## The whole record -/

theorem length_body_lt : ∀ {es : List Ext} {e : Ext}, e ∈ es →
    e.body.length + 4 ≤ (es.flatMap Ext.encode).length
  | e' :: es, e, h => by
      rw [List.flatMap_cons, List.length_append]
      rcases List.mem_cons.mp h with rfl | h
      · simp only [Ext.encode, List.length_append, length_put16]
        omega
      · have := length_body_lt h
        omega

namespace WellFormedHello

variable (h : WellFormedHello)

theorem length_tail_le :
    2 * h.cipherSuites.length + h.compressMethods.length + h.extensionsBytes.length + 44
      ≤ 65535 := by
  have hfits := h.fits
  simp only [RfcHello.fragment, RfcHello.body, RfcHello.tail, List.length_cons,
    List.length_append, length_put16, length_put24, length_putWords, h.random_length] at hfits
  omega

theorem length_ext_lt {e : Ext} (he : e ∈ h.extensions) : e.body.length < 65532 := by
  have h1 := length_body_lt he
  have h2 := h.length_tail_le
  rw [RfcHello.extensionsBytes] at h2
  omega

/-- The value in front of the extension loop. -/
def base : ClientHello where
  raw := h.record
  type := 22
  version := h.recordVersion
  messageLen := UInt16.ofNat h.fragment.length
  handshakeType := 1
  handshakeLen := be24 (UInt8.ofNat (h.body.length / 65536))
    (UInt8.ofNat (h.body.length / 256)) (UInt8.ofNat h.body.length)
  handshakeVersion := h.version
  random := h.random
  sessionIDLen := (UInt8.ofNat h.sessionID.length).toUInt32
  sessionID := h.sessionID
  cipherSuiteLen := UInt16.ofNat (2 * h.cipherSuites.length)
  cipherSuites := h.cipherSuites
  compressMethods := h.compressMethods
  extensionLen := UInt16.ofNat h.extensionsBytes.length

theorem parseExtensions_block (ch : ClientHello) :
    parseExtensions ch (put16 h.extensionsBytes.length ++ h.extensionsBytes)
      = .ok (h.extensions.foldl applyExt
          { ch with extensionLen := UInt16.ofNat h.extensionsBytes.length, extensions := ∅ }) := by
  have hlen := h.length_tail_le
  refine (parseExtensions_cons ch _ _ h.extensionsBytes).trans ?_
  rw [be16_put16 (by omega), be16_length (by omega), if_neg (by omega)]
  exact extensionLoop_encode h.extensions _ h.extensions_wf fun e he => h.length_ext_lt he

theorem parseCipherSuites_tail (ch : ClientHello) :
    parseCipherSuites ch h.tail
      = .ok (h.extensions.foldl applyExt
          { ch with cipherSuiteLen := UInt16.ofNat (2 * h.cipherSuites.length)
                    cipherSuites := h.cipherSuites
                    compressMethods := h.compressMethods
                    extensionLen := UInt16.ofNat h.extensionsBytes.length
                    extensions := ∅ }) := by
  have hlen := h.length_tail_le
  have hmethods : (UInt8.ofNat h.compressMethods.length).toNat = h.compressMethods.length := by
    rw [UInt8.toNat_ofNat']
    exact Nat.mod_eq_of_lt h.compressMethods_length
  have hwords := words16_append (ε := HelloError) h.cipherSuites
    (put16 (2 * h.cipherSuites.length))
    (UInt8.ofNat h.compressMethods.length :: (h.compressMethods ++
      (put16 h.extensionsBytes.length ++ h.extensionsBytes)))
  rw [List.append_assoc, length_put16] at hwords
  refine (parseCipherSuites_cons ch (putWords h.cipherSuites)
    (by rw [be16_put16 (by omega), length_putWords])
    (by rw [be16_put16 (by omega)]; omega)).trans ?_
  rw [be16_put16 (by omega), be16_length (by omega),
    show 2 * h.cipherSuites.length / 2 = h.cipherSuites.length by omega]
  refine (congrArg (Except.bind · _) hwords).trans ?_
  refine (parseCompression_cons _ hmethods.symm).trans ?_
  exact h.parseExtensions_block _

theorem unmarshall_record_eq :
    unmarshall h.record = .ok (h.extensions.foldl applyExt h.base) := by
  have hsid : (UInt8.ofNat h.sessionID.length).toNat = h.sessionID.length := by
    rw [UInt8.toNat_ofNat']
    exact Nat.mod_eq_of_lt h.sessionID_length
  have hfits := h.fits
  refine (unmarshall_cons _ _ _ _ h.fragment).trans ?_
  rw [be16_put16_toNat, be16_length (by omega)]
  refine (parseHandshake_cons _ _ _ _ _ _ (h.random ++
    (UInt8.ofNat h.sessionID.length :: (h.sessionID ++ h.tail)))).trans ?_
  rw [be16_put16_toNat, parseRandom_append _ h.random_length, parseSessionID_cons _ hsid.symm,
    parseCipherSuites_tail]
  rfl

/-- `Unmarshall` on the record of a well-formed hello returns its parts. -/
theorem unmarshall_record : ∃ ch, unmarshall h.record = .ok ch
    ∧ ch.version = h.recordVersion ∧ ch.handshakeVersion = h.version
    ∧ ch.random = h.random ∧ ch.sessionID = h.sessionID
    ∧ ch.cipherSuites = h.cipherSuites ∧ ch.compressMethods = h.compressMethods
    ∧ ch.sni = h.sni ∧ ch.signatureAlgs = h.signatureAlgs
    ∧ ch.supportedGroups = h.supportedGroups ∧ ch.supportedPoints = h.supportedPoints
    ∧ ch.oscp = h.ocsp ∧ ch.alpns = h.alpns
    ∧ (∀ ty, (ch.extensions.lookup ty).map UInt16.toNat = h.lastLength ty)
    ∧ (2 + ch.cipherSuiteLen).toNat = 2 + 2 * h.cipherSuites.length
    ∧ ∀ e ∈ h.extensions, (4 + UInt16.ofNat e.body.length).toNat = 4 + e.body.length := by
  have hfixed := fixedPart_foldl h.extensions h.base
  simp only [fixedPart, Prod.mk.injEq] at hfixed
  obtain ⟨hversion, hhsVersion, hrandom, hsid, hsuiteLen, hsuites, hmethods⟩ := hfixed
  refine ⟨_, h.unmarshall_record_eq, hversion, hhsVersion, hrandom, hsid, hsuites, hmethods,
    ?sni, ?algs, ?groups, ?points, ?ocsp, ?alpns, ?extensions, ?suitesWrap, ?extWrap⟩
  case sni =>
    exact h.field_foldl (by decide) Ext.type_of_serverName? sni_applyExt h.base
  case algs =>
    exact h.field_foldl (by decide) Ext.type_of_signatureAlgs? signatureAlgs_applyExt h.base
  case groups =>
    exact h.field_foldl (by decide) Ext.type_of_supportedGroups? supportedGroups_applyExt h.base
  case points =>
    exact h.field_foldl (by decide) Ext.type_of_pointFormats? supportedPoints_applyExt h.base
  case ocsp =>
    exact h.field_foldl (by decide) Ext.type_of_ocsp? oscp_applyExt h.base
  case alpns =>
    have hone := h.length_filterMap (by decide) Ext.type_of_alpn?
    rw [alpns_foldl, RfcHello.alpns]
    match h.extensions.filterMap Ext.alpn?, hone with
    | [], _ => rfl
    | [protocols], _ => simp [base]
  case extensions =>
    intro ty
    rw [extensions_foldl ty h.extensions h.base
      fun e he => Nat.lt_of_lt_of_le (h.length_ext_lt he) (by omega)]
    exact Option.or_none
  case suitesWrap =>
    have hlen := h.length_tail_le
    rw [hsuiteLen, base, UInt16.toNat_add, UInt16.toNat_ofNat',
      show (2 : UInt16).toNat = 2 from rfl]
    omega
  case extWrap =>
    intro e he
    have hlen := h.length_ext_lt he
    rw [UInt16.toNat_add, UInt16.toNat_ofNat', show (4 : UInt16).toNat = 4 from rfl]
    omega

end WellFormedHello

/-- A TLS 1.2 hello for the host `a.b`. -/
def exampleHello : WellFormedHello where
  recordVersion := 0x0301
  version := 0x0303
  random := List.replicate 32 7
  sessionID := []
  cipherSuites := [0x1301]
  compressMethods := [0]
  extensions := [.serverName (lit "a.b"), .other 0xff01 [0]]
  random_length := by decide
  sessionID_length := by decide
  compressMethods_ne := by decide
  compressMethods_length := by decide
  extensions_wf := by
    intro e he
    simp only [List.mem_cons, List.not_mem_nil, or_false] at he
    rcases he with rfl | rfl
    · trivial
    · exact show (0xff01 : UInt16) ∉ knownTypes by decide
  extensions_once := by
    intro ty hty
    simp only [knownTypes, List.mem_cons, List.not_mem_nil, or_false] at hty
    rcases hty with rfl | rfl | rfl | rfl | rfl | rfl <;> decide
  fits := by decide

example : exampleHello.sni = lit "a.b" ∧ exampleHello.lastLength 0xff01 = some 1 := by decide

end Hello

end RbiProxy
