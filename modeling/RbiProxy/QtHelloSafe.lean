import RbiProxy.QtHello

/-!
# Accesses of the Qt parser

`ClientHelloPacket::Unmarshal` once more, with every access to the bytes checked:
an index, a copy, `mid` or `remove` outside the array, and an `int` that does not
hold its value, are a fault. So is a loop that goes on for more rounds than there
are bytes. Allocations may fail; which of them do is left open (`alloc`).

The checked parser is compared with the plain one of `QtHello`, function by
function: it does the same, or it returns the error of a failed allocation
(`Agrees`). So it never faults.
-/

namespace RbiProxy

namespace Qt

open GoSlice

/-! ## Checked operations -/

/-- A result, an error code, or a fault. -/
abbrev Checked (α : Type) := Except (Halt ClientPacketError) α

/-- `u8(s[i])` and `u8(s.at(i))`. -/
def byteAt (s : GoString) (i : Int) : Checked UInt8 :=
  if 0 ≤ i ∧ i < s.length then .ok (s.getD i.toNat 0) else .error .fault

/-- `(u8(s[i]) << 8) | u8(s[i + 1])`. -/
def wordAt (s : GoString) (i : Int) : Checked UInt16 := do
  let hi ← byteAt s i
  let lo ← byteAt s (i + 1)
  return be16 hi lo

/-- The value of an expression of type `int`. -/
def int (x : Int) : Checked Int := if -2 ^ 31 ≤ x ∧ x < 2 ^ 31 then .ok x else .error .fault

/-- `s.remove(0, n)`. -/
def remove (s : GoString) (n : Int) : Checked GoString :=
  if 0 ≤ n ∧ n ≤ s.length then .ok (s.drop n.toNat) else .error .fault

/-- `n` bytes from `off` on: `memcpy`, `std::string` and `mid`. -/
def copy (s : GoString) (off n : Int) : Checked GoString :=
  if 0 ≤ off ∧ 0 ≤ n ∧ off + n ≤ s.length then .ok ((s.drop off.toNat).take n.toNat)
  else .error .fault

/-- An array that is made where it is needed, and filled by `x`. An allocation that
fails gives a null pointer or an exception, and either way the same error. -/
def filled {T : Type} (needed ok : Bool) (x : Checked (List T)) : Checked (List T) :=
  if needed then (if ok then x else .error (.err .extBadLength)) else .ok []

/-- `for (i = 0; i < n; i++)`, reading two bytes at a time. -/
def wordsAt (s : GoString) (off : Int) : Nat → Checked (List UInt16)
  | 0 => return []
  | n + 1 => do
    let i ← int (off + 2 * n)
    let words ← wordsAt s off n
    let w ← wordAt s i
    return words ++ [w]

/-- `for (i = 0; i < n; i++)`, reading one byte at a time. -/
def bytesAt (s : GoString) (off : Int) : Nat → Checked (List UInt8)
  | 0 => return []
  | n + 1 => do
    let i ← int (off + n)
    let bytes ← bytesAt s off n
    let b ← byteAt s i
    return bytes ++ [b]

/-- `while (data.length() > 0)`, with a fault once the rounds are used up. -/
def whileData {α : Type} (body : α → GoString → Checked (α × GoString)) :
    Nat → α → GoString → Checked α
  | rounds, p, data =>
    if data.length = 0 then .ok p
    else match rounds with
      | 0 => .error .fault
      | rounds + 1 => do
        let (p, data) ← body p data
        whileData body rounds p data

/-! ## The parser -/

section Parser

-- which allocations succeed, by the place and what is still to be read there
variable (alloc : List Nat → Bool)

def serverNameBody (rest : Nat) (p : ClientHelloPacket) (data : GoString) :
    Checked (ClientHelloPacket × GoString) := do
  if data.length < 3 then .error (.err .extBadLength)
  else
    let nameType ← byteAt data 0
    let nameLen ← wordAt data 1
    let data ← remove data 3
    if data.length < nameLen.toNat then .error (.err .extBadLength)
    else
      let name ← filled (nameType = 0) (alloc [0, rest, data.length])
        (copy data 0 nameLen.toNat)
      let data ← remove data nameLen.toNat
      return (if nameType = 0 then { p with sni := name } else p, data)

def alpnBody (rest : Nat) (p : ClientHelloPacket) (data : GoString) :
    Checked (ClientHelloPacket × GoString) := do
  let protoLen ← byteAt data 0
  let len ← int (1 + protoLen.toNat)
  if data.length < len then .error (.err .extBadLength)
  else
    let proto ← filled true (alloc [1, rest, data.length]) (copy data 1 protoLen.toNat)
    let data ← remove data len
    let alpns := if p.alpns = [] then proto else p.alpns ++ lit "," ++ proto
    return ({ p with alpns := alpns }, data)

def wordListC (site rest : Nat) (data : GoString) : Checked (List UInt16) := do
  if data.length < 2 then .error (.err .extBadLength)
  else
    let len ← wordAt data 0
    let data ← remove data 2
    if data.length < len.toNat then .error (.err .extBadLength)
    else filled (0 < len.toNat / 2) (alloc [site, rest]) (wordsAt data 0 (len.toNat / 2))

/-- The `switch` over the type of an extension. -/
def extensionC (rest : Nat) (p : ClientHelloPacket) (extensionType length : UInt16)
    (data : GoString) : Checked ClientHelloPacket := do
  if extensionType = Hello.extServerName then
    if data.length < 2 then .error (.err .extBadLength)
    else
      let sniListLen ← wordAt data 0
      let data ← remove data 2
      if data.length < sniListLen.toNat then .error (.err .extBadLength)
      else whileData (serverNameBody alloc rest) data.length p data
  else if extensionType = Hello.extSignatureAlgs then do
    let algs ← wordListC alloc 2 rest data
    return if algs = [] then p else { p with signatureAlg := algs }
  else if extensionType = Hello.extSupportedGroups then do
    let groups ← wordListC alloc 3 rest data
    return if groups = [] then p else { p with supportedGroups := groups }
  else if extensionType = Hello.extECPointFormats then
    if data.length < 1 then .error (.err .extBadLength)
    else
      let fmtLen ← byteAt data 0
      let data ← remove data 1
      if data.length < fmtLen.toNat then .error (.err .extBadLength)
      else
        let formats ← filled (0 < fmtLen.toNat) (alloc [4, rest]) (copy data 0 fmtLen.toNat)
        return if fmtLen.toNat = 0 then p else { p with ecPointFormats := formats }
  else if extensionType = Hello.extStatusRequest then pure { p with oscp := true }
  else if extensionType = Hello.extALPN then
    if data.length < 2 then .error (.err .extBadLength)
    else
      let alpnLen ← wordAt data 0
      let data ← remove data 2
      if data.length < alpnLen.toNat then .error (.err .extBadLength)
      else whileData (alpnBody alloc rest) data.length p data
  else
    pure { p with extensions := p.extensions.insert extensionType.toInt16.toInt length.toNat }

def extensionBody (p : ClientHelloPacket) (hs : GoString) :
    Checked (ClientHelloPacket × GoString) := do
  if hs.length < 4 then .error (.err .extBadLength)
  else
    let extensionType ← wordAt hs 0
    let length ← wordAt hs 2
    let len ← int (4 + length.toNat)
    if hs.length < len then .error (.err .extBadLength)
    else
      let data ← filled true (alloc [5, hs.length]) (copy hs 4 length.toNat)
      let hs ← remove hs len
      let p ← extensionC alloc hs.length p extensionType length data
      return (p, hs)

def unmarshalExtensionsC (p : ClientHelloPacket) (hs : GoString) : Checked ClientHelloPacket := do
  if hs.length < 2 then .error (.err .badLength)
  else
    let extensionLen ← wordAt hs 0
    let hs ← remove hs 2
    if hs.length < extensionLen.toNat then .error (.err .extBadLength)
    else whileData (extensionBody alloc) hs.length { p with extensionLen := extensionLen } hs

def unmarshalCompressionC (p : ClientHelloPacket) (hs : GoString) : Checked ClientHelloPacket := do
  if hs.length < 1 then .error (.err .badLength)
  else
    let numCompressMethods ← byteAt hs 0
    let len ← int (1 + numCompressMethods.toNat)
    if hs.length < len then .error (.err .badLength)
    else
      let methods ← filled (0 < numCompressMethods.toNat) (alloc [6])
        (bytesAt hs 1 numCompressMethods.toNat)
      let hs ← remove hs len
      unmarshalExtensionsC alloc { p with compressMethod := methods } hs

def unmarshalCipherSuitesC (p : ClientHelloPacket) (hs : GoString) :
    Checked ClientHelloPacket := do
  if hs.length < 2 then .error (.err .badLength)
  else
    let cipherSuiteLen ← wordAt hs 0
    let len ← int (2 + cipherSuiteLen.toNat)
    if hs.length < len then .error (.err .badLength)
    else
      let suites ← filled (0 < cipherSuiteLen.toNat / 2) (alloc [7])
        (wordsAt hs 2 (cipherSuiteLen.toNat / 2))
      let hs ← remove hs len
      unmarshalCompressionC alloc
        { p with cipherSuiteLen := cipherSuiteLen, cipherSuites := suites.map (·.toUInt8) } hs

def unmarshalSessionIdC (p : ClientHelloPacket) (hs : GoString) : Checked ClientHelloPacket := do
  if hs.length < 1 then .error (.err .badLength)
  else
    let sessionIdLen ← byteAt hs 0
    let hs ← remove hs 1
    if hs.length < sessionIdLen.toNat then .error (.err .badLength)
    else
      let sessionId ← filled (0 < sessionIdLen.toNat) (alloc [8]) (copy hs 0 sessionIdLen.toNat)
      let hs ← remove hs sessionIdLen.toNat
      unmarshalCipherSuitesC alloc { p with sessionIdLen := sessionIdLen, sessionId := sessionId } hs

def unmarshalC (packet : GoString) : Checked ClientHelloPacket := do
  if packet.length < 5 then .error (.err .badLength)
  else
    let raw ← filled true (alloc [9]) (copy packet 0 packet.length)
    let type ← byteAt packet 0
    let version ← wordAt packet 1
    let messageLen ← wordAt packet 3
    if type ≠ 22 then .error (.err .wrongType)
    else
      let hs ← remove packet 5
      if hs.length < 6 then .error (.err .badLength)
      else
        let handshakeType ← byteAt hs 0
        if handshakeType ≠ 1 then .error (.err .wrongType)
        else
          let b1 ← byteAt hs 1
          let b2 ← byteAt hs 2
          let b3 ← byteAt hs 3
          let handshakeVersion ← wordAt hs 4
          let hs ← remove hs 6
          if hs.length < 32 then .error (.err .badLength)
          else
            let random ← filled true (alloc [10]) (copy hs 0 32)
            let hs ← remove hs 32
            unmarshalSessionIdC alloc
              { raw := raw, type := type, version := version, messageLen := messageLen,
                handshakeType := handshakeType, handshakeLen := be24 b1 b2 b3,
                handshakeVersion := handshakeVersion, random := random } hs

end Parser

/-! ## Operations within their bounds -/

section Bounds

variable {s : GoString} {i n off : Nat}

theorem byteAt_of_lt (h : i < s.length) : byteAt s i = .ok (u8 s i) :=
  if_pos ⟨Int.natCast_nonneg i, by omega⟩

theorem wordAt_of_lt (h : i + 1 < s.length) : wordAt s i = .ok (u16 s i) := by
  have hi := @byteAt_of_lt s i (by omega)
  have hlo : byteAt s ((i : Int) + 1) = .ok (u8 s (i + 1)) := @byteAt_of_lt s (i + 1) h
  rw [wordAt, hi, hlo]
  rfl

theorem int_of_lt (h : n < 2 ^ 31) : int n = .ok (n : Int) := if_pos ⟨by omega, by omega⟩

theorem remove_of_le (h : n ≤ s.length) : remove s n = .ok (s.drop n) :=
  if_pos ⟨Int.natCast_nonneg n, by omega⟩

theorem copy_of_le (h : off + n ≤ s.length) : copy s off n = .ok ((s.drop off).take n) :=
  if_pos ⟨Int.natCast_nonneg off, Int.natCast_nonneg n, by omega⟩

theorem wordsAt_of_le (h : off + 2 * n ≤ s.length) (hint : off + 2 * n < 2 ^ 31) :
    wordsAt s off n = .ok (u16s (s.drop off) n) := by
  induction n with
  | zero => rfl
  | succ n ih =>
      have hcast : (off : Int) + 2 * n = (off + 2 * n : Nat) := by omega
      have hi : int ((off : Int) + 2 * n) = .ok ((off + 2 * n : Nat) : Int) := by
        rw [hcast]
        exact int_of_lt (by omega)
      have hw : wordAt s ((off + 2 * n : Nat) : Int) = .ok (u16 s (off + 2 * n)) :=
        wordAt_of_lt (by omega)
      rw [wordsAt, hi, ih (by omega) (by omega)]
      simp only [bind, Except.bind, hw, pure, Except.pure, u16s, List.range_succ, List.map_append,
        List.map_singleton]
      have hdrop : ∀ j, u8 s (off + j) = u8 (s.drop off) j := by
        intro j
        simp [u8, List.getD_eq_getElem?_getD]
      rw [u16, u16, hdrop, Nat.add_assoc, hdrop]

theorem bytesAt_of_le (h : off + n ≤ s.length) (hint : off + n < 2 ^ 31) :
    bytesAt s off n = .ok ((s.drop off).take n) := by
  induction n with
  | zero => rfl
  | succ n ih =>
      have hi : int ((off : Int) + n) = .ok ((off + n : Nat) : Int) :=
        @int_of_lt (off + n) (by omega)
      have hb : byteAt s ((off + n : Nat) : Int) = .ok (u8 s (off + n)) := byteAt_of_lt (by omega)
      rw [bytesAt, hi, ih (by omega) (by omega)]
      simp only [bind, Except.bind, hb, pure, Except.pure]
      rw [List.take_add_one, List.getElem?_drop, List.getElem?_eq_getElem (by omega), u8,
        List.getD_eq_getElem _ _ (by omega)]
      rfl

end Bounds

/-! ## Agreement with the plain parser -/

/-- An outcome of the plain parser. -/
def lift {α : Type} : Unmarshal α → Checked α
  | .ok a => .ok a
  | .error e => .error (.err e)

section Agreement

variable (alloc : List Nat → Bool)

/-- An allocation fails, and so does the parser. -/
def AllocFails {α : Type} (x : Checked α) : Prop :=
  x = .error (.err .extBadLength) ∧ ∃ k, alloc k = false

/-- The same outcome, or that of an allocation that fails. -/
def Agrees {α : Type} (x : Checked α) (y : Unmarshal α) : Prop := x = lift y ∨ AllocFails alloc x

/-- One round of a loop: it goes on with less, or ends as the loop does. -/
inductive RoundAgrees {α : Type} (x : Checked (α × GoString)) (loop : α → GoString → Unmarshal α)
    (p : α) (data : GoString) : Prop where
  | next {p' : α} {data' : GoString} (hx : x = .ok (p', data')) (hlt : data'.length < data.length)
      (hloop : loop p data = loop p' data')
  | error {e : ClientPacketError} (hx : x = .error (.err e)) (hloop : loop p data = .error e)
  | alloc (hx : AllocFails alloc x)

variable {alloc}

theorem Agrees.not_fault {α : Type} {x : Checked α} {y : Unmarshal α} (h : Agrees alloc x y) :
    x ≠ .error .fault := by
  obtain rfl | ⟨rfl, -⟩ := h
  · cases y <;> exact fun h => by cases h
  · exact fun h => by cases h

/-- The next operation after one that succeeds. -/
theorem ok_bind {α β : Type} (a : α) (f : α → Checked β) : ((.ok a : Checked α) >>= f) = f a := rfl

theorem agrees_ok {α : Type} (a : α) : Agrees alloc (.ok a) (.ok a) := .inl rfl

theorem agrees_error {α : Type} (e : ClientPacketError) :
    Agrees (α := α) alloc (.error (.err e)) (.error e) := .inl rfl

theorem agrees_ite {α : Type} {c c' : Prop} [Decidable c] [Decidable c'] {x x' : Checked α}
    {y y' : Unmarshal α} (hc : c ↔ c') (h : c' → Agrees alloc x y)
    (h' : ¬ c' → Agrees alloc x' y') : Agrees alloc (if c then x else x') (if c' then y else y') := by
  by_cases hc' : c'
  · rw [if_pos (hc.mpr hc'), if_pos hc']
    exact h hc'
  · rw [if_neg (mt hc.mp hc'), if_neg hc']
    exact h' hc'

theorem agrees_check {α : Type} {c c' : Prop} [Decidable c] [Decidable c'] {e : ClientPacketError}
    {x : Checked α} {y : Unmarshal α} (hc : c ↔ c') (h : ¬ c' → Agrees alloc x y) :
    Agrees alloc (if c then .error (.err e) else x) (if c' then .error e else y) :=
  agrees_ite hc (fun _ => agrees_error e) h

/-- An array comes out as it should, or its allocation fails. -/
theorem filled_cases {T : Type} {needed : Bool} {k : List Nat} {x : Checked (List T)} {v : List T}
    (hx : needed = true → x = .ok v) (hv : needed = false → v = []) :
    filled needed (alloc k) x = .ok v ∨ AllocFails alloc (filled needed (alloc k) x) := by
  unfold filled
  cases needed with
  | false =>
      rw [hv rfl]
      exact .inl rfl
  | true =>
      rw [if_pos rfl]
      cases hk : alloc k with
      | true => exact .inl (hx rfl)
      | false => exact .inr ⟨rfl, k, hk⟩

theorem agrees_filled {T α : Type} {z : Checked (List T)} {v : List T}
    {f : List T → Checked α} {y : Unmarshal α} (hz : z = .ok v ∨ AllocFails alloc z)
    (h : Agrees alloc (f v) y) : Agrees alloc (z >>= f) y := by
  obtain rfl | ⟨rfl, hk⟩ := hz
  · exact h
  · exact .inr ⟨rfl, hk⟩

theorem round_filled {T α : Type} {z : Checked (List T)} {v : List T}
    {f : List T → Checked (α × GoString)} {loop : α → GoString → Unmarshal α} {p : α}
    {data : GoString} (hz : z = .ok v ∨ AllocFails alloc z)
    (h : RoundAgrees alloc (f v) loop p data) : RoundAgrees alloc (z >>= f) loop p data := by
  obtain rfl | ⟨rfl, hk⟩ := hz
  · exact h
  · exact .alloc ⟨rfl, hk⟩

theorem agrees_while {α : Type} {body : α → GoString → Checked (α × GoString)}
    {loop : α → GoString → Unmarshal α} (hnil : ∀ p, loop p [] = .ok p)
    (hround : ∀ p data, data.length ≠ 0 → RoundAgrees alloc (body p data) loop p data)
    (rounds : Nat) : ∀ p data, data.length ≤ rounds →
      Agrees alloc (whileData body rounds p data) (loop p data) := by
  induction rounds with
  | zero =>
      intro p data hle
      obtain rfl := List.length_eq_zero_iff.mp (Nat.le_zero.mp hle)
      rw [hnil]
      exact .inl rfl
  | succ rounds ih =>
      intro p data hle
      rw [whileData]
      by_cases hlen : data.length = 0
      · obtain rfl := List.length_eq_zero_iff.mp hlen
        rw [if_pos hlen, hnil]
        exact .inl rfl
      · rw [if_neg hlen]
        cases hround p data hlen with
        | next hx hlt hloop =>
            dsimp only
            rw [hx, hloop]
            exact ih _ _ (Nat.le_of_lt_succ (Nat.lt_of_lt_of_le hlt hle))
        | error hx hloop =>
            dsimp only
            rw [hx, hloop]
            exact .inl rfl
        | alloc hx =>
            dsimp only
            rw [hx.1]
            exact .inr ⟨rfl, hx.2⟩

/-- A round of a loop leaves less than there was. -/
theorem RoundAgrees.lt {α : Type} {x : Checked (α × GoString)} {loop : α → GoString → Unmarshal α}
    {p p' : α} {data data' : GoString} (h : RoundAgrees alloc x loop p data)
    (hx : x = .ok (p', data')) : data'.length < data.length := by
  cases h with
  | next hx' hlt _ =>
      rw [hx'] at hx
      cases hx
      exact hlt
  | error hx' _ =>
      rw [hx'] at hx
      cases hx
  | alloc hx' =>
      rw [hx'.1] at hx
      cases hx

/-! ### Entries and names -/

theorem alpnBody_agrees (rest : Nat) (p : ClientHelloPacket) (data : GoString)
    (hne : data.length ≠ 0) : RoundAgrees alloc (alpnBody alloc rest p data) alpnLoop p data := by
  cases data with
  | nil => exact absurd rfl hne
  | cons protoLen data =>
      have hlen : (protoLen :: data).length = data.length + 1 := rfl
      have hproto := protoLen.toNat_lt
      have hbyte : byteAt (protoLen :: data) 0 = .ok protoLen := @byteAt_of_lt _ 0 (by simp)
      have hcast : (1 : Int) + (protoLen.toNat : Int) = (1 + protoLen.toNat : Nat) := by omega
      have hint : int ((1 : Int) + (protoLen.toNat : Int))
          = .ok ((1 + protoLen.toNat : Nat) : Int) := by
        rw [hcast]
        exact int_of_lt (by omega)
      have hloop : alpnLoop p (protoLen :: data)
          = if data.length < protoLen.toNat then .error .extBadLength
            else alpnLoop { p with alpns := if p.alpns = [] then data.take protoLen.toNat
                else p.alpns ++ lit "," ++ data.take protoLen.toNat }
              (data.drop protoLen.toNat) := by
        rw [alpnLoop]
      rw [alpnBody, hbyte, ok_bind, hint, ok_bind]
      by_cases hshort : data.length < protoLen.toNat
      · rw [if_pos hshort] at hloop
        rw [if_pos (by omega)]
        exact .error rfl hloop
      · rw [if_neg hshort] at hloop
        rw [if_neg (by omega)]
        have hcopy : copy (protoLen :: data) 1 protoLen.toNat = .ok (data.take protoLen.toNat) :=
          @copy_of_le _ protoLen.toNat 1 (by omega)
        have hremove : remove (protoLen :: data) ((1 + protoLen.toNat : Nat) : Int)
            = .ok (data.drop protoLen.toNat) := by
          rw [remove_of_le (by omega), Nat.add_comm]
          rfl
        refine round_filled (filled_cases (fun _ => hcopy) (fun h => by cases h)) ?_
        refine .next ?_ ?_ hloop
        · rw [hremove]
          rfl
        · rw [List.length_drop]
          omega

theorem serverNameBody_agrees (rest : Nat) (p : ClientHelloPacket) (data : GoString)
    (hne : data.length ≠ 0) :
    RoundAgrees alloc (serverNameBody alloc rest p data) serverNameLoop p data := by
  have hloop : serverNameLoop p data
      = if data.length < 3 then .error .extBadLength
        else if (data.drop 3).length < (u16 data 1).toNat then .error .extBadLength
        else serverNameLoop
            (if u8 data 0 = 0 then { p with sni := (data.drop 3).take (u16 data 1).toNat } else p)
            ((data.drop 3).drop (u16 data 1).toNat) := by
    rw [serverNameLoop, if_neg hne]
    rfl
  rw [serverNameBody]
  by_cases h3 : data.length < 3
  · rw [if_pos h3] at hloop
    rw [if_pos h3]
    exact .error rfl hloop
  · have htype : byteAt data 0 = .ok (u8 data 0) := @byteAt_of_lt _ 0 (by omega)
    have hword : wordAt data 1 = .ok (u16 data 1) := @wordAt_of_lt _ 1 (by omega)
    have hremove : remove data 3 = .ok (data.drop 3) := @remove_of_le _ 3 (by omega)
    rw [if_neg h3] at hloop
    rw [if_neg h3, htype, ok_bind, hword, ok_bind, hremove, ok_bind]
    by_cases hshort : (data.drop 3).length < (u16 data 1).toNat
    · rw [if_pos hshort] at hloop
      rw [if_pos hshort]
      exact .error rfl hloop
    · rw [if_neg hshort] at hloop
      rw [if_neg hshort]
      have hcopy : copy (data.drop 3) 0 (u16 data 1).toNat
          = .ok ((data.drop 3).take (u16 data 1).toNat) := @copy_of_le _ _ 0 (by omega)
      have hrest : remove (data.drop 3) (u16 data 1).toNat
          = .ok ((data.drop 3).drop (u16 data 1).toNat) := remove_of_le (by omega)
      refine round_filled (v := if u8 data 0 = 0 then (data.drop 3).take (u16 data 1).toNat else [])
        (filled_cases (fun h => ?_) (fun h => ?_)) (.next ?_ ?_ hloop)
      · rw [if_pos (of_decide_eq_true h)]
        exact hcopy
      · rw [if_neg (of_decide_eq_false h)]
      · rw [hrest, ok_bind]
        split <;> rfl
      · rw [List.length_drop, List.length_drop]
        omega

/-! ### The extensions -/

theorem wordListC_agrees (site rest : Nat) (data : GoString) :
    Agrees alloc (wordListC alloc site rest data) (wordList data) := by
  rw [wordListC, wordList]
  refine agrees_check Iff.rfl fun h2 => ?_
  have hword : wordAt data 0 = .ok (u16 data 0) := @wordAt_of_lt _ 0 (by omega)
  have hremove : remove data 2 = .ok (data.drop 2) := @remove_of_le _ 2 (by omega)
  rw [hword, ok_bind, hremove, ok_bind]
  refine agrees_check Iff.rfl fun hshort => ?_
  have hlen := (u16 data 0).toNat_lt
  have hwords : wordsAt (data.drop 2) 0 ((u16 data 0).toNat / 2)
      = .ok (u16s (data.drop 2) ((u16 data 0).toNat / 2)) :=
    @wordsAt_of_le _ _ 0 (by omega) (by omega)
  refine filled_cases (fun _ => hwords) (fun h => ?_)
  have hzero : (u16 data 0).toNat / 2 = 0 := Nat.eq_zero_of_not_pos (of_decide_eq_false h)
  rw [hzero]
  rfl

theorem agrees_map {α β : Type} {x : Checked α} {y : Unmarshal α} (f : α → β)
    (h : Agrees alloc x y) : Agrees alloc (do let a ← x; return f a) (y.map f) := by
  obtain rfl | ⟨rfl, hk⟩ := h
  · cases y <;> exact .inl rfl
  · exact .inr ⟨rfl, hk⟩

theorem agrees_vector {data : GoString} {x : GoString → Checked ClientHelloPacket}
    {y : GoString → Unmarshal ClientHelloPacket} (h : ∀ l, Agrees alloc (x l) (y l)) :
    Agrees alloc
      (if data.length < 2 then .error (.err .extBadLength)
        else do
          let len ← wordAt data 0
          let data ← remove data 2
          if data.length < len.toNat then .error (.err .extBadLength) else x data)
      (if data.length < 2 then .error .extBadLength
        else if (data.drop 2).length < (u16 data 0).toNat then .error .extBadLength
        else y (data.drop 2)) := by
  refine agrees_check Iff.rfl fun h2 => ?_
  have hword : wordAt data 0 = .ok (u16 data 0) := @wordAt_of_lt _ 0 (by omega)
  have hremove : remove data 2 = .ok (data.drop 2) := @remove_of_le _ 2 (by omega)
  rw [hword, ok_bind, hremove, ok_bind]
  exact agrees_check Iff.rfl fun _ => h _

theorem pointFormats_agrees (rest : Nat) (p : ClientHelloPacket) (data : GoString) :
    Agrees alloc
      (if data.length < 1 then .error (.err .extBadLength)
        else do
          let fmtLen ← byteAt data 0
          let data ← remove data 1
          if data.length < fmtLen.toNat then .error (.err .extBadLength)
          else
            let formats ← filled (0 < fmtLen.toNat) (alloc [4, rest]) (copy data 0 fmtLen.toNat)
            return if fmtLen.toNat = 0 then p else { p with ecPointFormats := formats })
      (if data.length < 1 then .error .extBadLength
        else if (data.drop 1).length < (u8 data 0).toNat then .error .extBadLength
        else if (u8 data 0).toNat = 0 then .ok p
        else .ok { p with ecPointFormats := (data.drop 1).take (u8 data 0).toNat }) := by
  refine agrees_check Iff.rfl fun h1 => ?_
  have hbyte : byteAt data 0 = .ok (u8 data 0) := @byteAt_of_lt _ 0 (by omega)
  have hremove : remove data 1 = .ok (data.drop 1) := @remove_of_le _ 1 (by omega)
  rw [hbyte, ok_bind, hremove, ok_bind]
  refine agrees_check Iff.rfl fun hshort => ?_
  have hcopy : copy (data.drop 1) 0 (u8 data 0).toNat
      = .ok ((data.drop 1).take (u8 data 0).toNat) := @copy_of_le _ _ 0 (by omega)
  refine agrees_filled (v := (data.drop 1).take (u8 data 0).toNat)
    (filled_cases (fun _ => hcopy) (fun h => ?_)) ?_
  · rw [Nat.eq_zero_of_not_pos (of_decide_eq_false h)]
    rfl
  · split
    · exact agrees_ok _
    · exact agrees_ok _

theorem extensionC_agrees (rest : Nat) (p : ClientHelloPacket) (ty length : UInt16)
    (data : GoString) :
    Agrees alloc (extensionC alloc rest p ty length data) (extension p ty length data) := by
  rw [extensionC, extension]
  refine agrees_ite Iff.rfl (fun _ => ?_) fun _ => ?_
  · exact agrees_vector fun l =>
      agrees_while (fun p => by rw [serverNameLoop]; rfl) (serverNameBody_agrees rest) l.length p l
        (Nat.le_refl _)
  refine agrees_ite Iff.rfl (fun _ => agrees_map _ (wordListC_agrees 2 rest data)) fun _ => ?_
  refine agrees_ite Iff.rfl (fun _ => agrees_map _ (wordListC_agrees 3 rest data)) fun _ => ?_
  refine agrees_ite Iff.rfl (fun _ => pointFormats_agrees rest p data) fun _ => ?_
  refine agrees_ite Iff.rfl (fun _ => agrees_ok _) fun _ => ?_
  refine agrees_ite Iff.rfl (fun _ => ?_) fun _ => agrees_ok _
  exact agrees_vector fun l =>
    agrees_while (fun p => by rw [alpnLoop]) (alpnBody_agrees rest) l.length p l (Nat.le_refl _)

theorem extensionBody_agrees (p : ClientHelloPacket) (hs : GoString) (hne : hs.length ≠ 0) :
    RoundAgrees alloc (extensionBody alloc p hs) extensionLoop p hs := by
  have hloop : extensionLoop p hs
      = if hs.length < 4 then .error .extBadLength
        else if hs.length < 4 + (u16 hs 2).toNat then .error .extBadLength
        else (extension p (u16 hs 0) (u16 hs 2) ((hs.drop 4).take (u16 hs 2).toNat)).bind
          fun p => extensionLoop p (hs.drop (4 + (u16 hs 2).toNat)) := by
    rw [extensionLoop, if_neg hne]
    dsimp only
    cases extension p (u16 hs 0) (u16 hs 2) ((hs.drop 4).take (u16 hs 2).toNat) <;> rfl
  rw [extensionBody]
  by_cases h4 : hs.length < 4
  · rw [if_pos h4] at hloop
    rw [if_pos h4]
    exact .error rfl hloop
  · have hlen := (u16 hs 2).toNat_lt
    have htype : wordAt hs 0 = .ok (u16 hs 0) := @wordAt_of_lt _ 0 (by omega)
    have hlength : wordAt hs 2 = .ok (u16 hs 2) := @wordAt_of_lt _ 2 (by omega)
    have hint : int (4 + ((u16 hs 2).toNat : Int)) = .ok ((4 + (u16 hs 2).toNat : Nat) : Int) :=
      @int_of_lt (4 + (u16 hs 2).toNat) (by omega)
    rw [if_neg h4] at hloop
    rw [if_neg h4, htype, ok_bind, hlength, ok_bind, hint, ok_bind]
    by_cases hshort : hs.length < 4 + (u16 hs 2).toNat
    · rw [if_pos hshort] at hloop
      rw [if_pos (by omega)]
      exact .error rfl hloop
    · rw [if_neg hshort] at hloop
      rw [if_neg (by omega)]
      have hcopy : copy hs 4 (u16 hs 2).toNat = .ok ((hs.drop 4).take (u16 hs 2).toNat) :=
        @copy_of_le _ _ 4 (by omega)
      have hremove : remove hs ((4 + (u16 hs 2).toNat : Nat) : Int)
          = .ok (hs.drop (4 + (u16 hs 2).toNat)) := remove_of_le (by omega)
      refine round_filled (filled_cases (fun _ => hcopy) (fun h => by cases h)) ?_
      rw [hremove, ok_bind]
      obtain hext | hfails := @extensionC_agrees alloc (hs.drop (4 + (u16 hs 2).toNat)).length p
        (u16 hs 0) (u16 hs 2) ((hs.drop 4).take (u16 hs 2).toNat)
      · rw [hext]
        cases hplain : extension p (u16 hs 0) (u16 hs 2) ((hs.drop 4).take (u16 hs 2).toNat) with
        | ok p' =>
            rw [hplain] at hloop
            refine .next rfl ?_ hloop
            rw [List.length_drop]
            omega
        | error e =>
            rw [hplain] at hloop
            exact .error rfl hloop
      · rw [hfails.1]
        exact .alloc ⟨rfl, hfails.2⟩

/-! ### The fixed part -/

theorem unmarshalExtensionsC_agrees (p : ClientHelloPacket) (hs : GoString) :
    Agrees alloc (unmarshalExtensionsC alloc p hs) (unmarshalExtensions p hs) := by
  rw [unmarshalExtensionsC, unmarshalExtensions]
  refine agrees_check Iff.rfl fun h2 => ?_
  have hword : wordAt hs 0 = .ok (u16 hs 0) := @wordAt_of_lt _ 0 (by omega)
  have hremove : remove hs 2 = .ok (hs.drop 2) := @remove_of_le _ 2 (by omega)
  rw [hword, ok_bind, hremove, ok_bind]
  refine agrees_check Iff.rfl fun _ => ?_
  exact agrees_while (fun p => by rw [extensionLoop]; rfl) extensionBody_agrees _ _ _
    (Nat.le_refl _)

theorem unmarshalCompressionC_agrees (p : ClientHelloPacket) (hs : GoString) :
    Agrees alloc (unmarshalCompressionC alloc p hs) (unmarshalCompression p hs) := by
  rw [unmarshalCompressionC, unmarshalCompression]
  refine agrees_check Iff.rfl fun h1 => ?_
  have hlen := (u8 hs 0).toNat_lt
  have hbyte : byteAt hs 0 = .ok (u8 hs 0) := @byteAt_of_lt _ 0 (by omega)
  have hint : int (1 + ((u8 hs 0).toNat : Int)) = .ok ((1 + (u8 hs 0).toNat : Nat) : Int) :=
    @int_of_lt (1 + (u8 hs 0).toNat) (by omega)
  rw [hbyte, ok_bind, hint, ok_bind]
  refine agrees_check Nat.cast_lt fun hshort => ?_
  have hbytes : bytesAt hs 1 (u8 hs 0).toNat = .ok ((hs.drop 1).take (u8 hs 0).toNat) :=
    @bytesAt_of_le _ _ 1 (by omega) (by omega)
  have hremove : remove hs ((1 + (u8 hs 0).toNat : Nat) : Int)
      = .ok (hs.drop (1 + (u8 hs 0).toNat)) := remove_of_le (by omega)
  refine agrees_filled (v := (hs.drop 1).take (u8 hs 0).toNat)
    (filled_cases (fun _ => hbytes) (fun h => ?_)) ?_
  · rw [Nat.eq_zero_of_not_pos (of_decide_eq_false h)]
    rfl
  · rw [hremove, ok_bind]
    exact unmarshalExtensionsC_agrees _ _

theorem unmarshalCipherSuitesC_agrees (p : ClientHelloPacket) (hs : GoString) :
    Agrees alloc (unmarshalCipherSuitesC alloc p hs) (unmarshalCipherSuites p hs) := by
  rw [unmarshalCipherSuitesC, unmarshalCipherSuites]
  refine agrees_check Iff.rfl fun h2 => ?_
  have hlen := (u16 hs 0).toNat_lt
  have hword : wordAt hs 0 = .ok (u16 hs 0) := @wordAt_of_lt _ 0 (by omega)
  have hint : int (2 + ((u16 hs 0).toNat : Int)) = .ok ((2 + (u16 hs 0).toNat : Nat) : Int) :=
    @int_of_lt (2 + (u16 hs 0).toNat) (by omega)
  rw [hword, ok_bind, hint, ok_bind]
  refine agrees_check Nat.cast_lt fun hshort => ?_
  have hwords : wordsAt hs 2 ((u16 hs 0).toNat / 2)
      = .ok (u16s (hs.drop 2) ((u16 hs 0).toNat / 2)) :=
    @wordsAt_of_le _ _ 2 (by omega) (by omega)
  have hremove : remove hs ((2 + (u16 hs 0).toNat : Nat) : Int)
      = .ok (hs.drop (2 + (u16 hs 0).toNat)) := remove_of_le (by omega)
  refine agrees_filled (v := u16s (hs.drop 2) ((u16 hs 0).toNat / 2))
    (filled_cases (fun _ => hwords) (fun h => ?_)) ?_
  · rw [Nat.eq_zero_of_not_pos (of_decide_eq_false h)]
    rfl
  · rw [hremove, ok_bind]
    exact unmarshalCompressionC_agrees _ _

theorem unmarshalSessionIdC_agrees (p : ClientHelloPacket) (hs : GoString) :
    Agrees alloc (unmarshalSessionIdC alloc p hs) (unmarshalSessionId p hs) := by
  rw [unmarshalSessionIdC, unmarshalSessionId]
  refine agrees_check Iff.rfl fun h1 => ?_
  have hbyte : byteAt hs 0 = .ok (u8 hs 0) := @byteAt_of_lt _ 0 (by omega)
  have hremove : remove hs 1 = .ok (hs.drop 1) := @remove_of_le _ 1 (by omega)
  rw [hbyte, ok_bind, hremove, ok_bind]
  refine agrees_check Iff.rfl fun hshort => ?_
  have hcopy : copy (hs.drop 1) 0 (u8 hs 0).toNat
      = .ok ((hs.drop 1).take (u8 hs 0).toNat) := @copy_of_le _ _ 0 (by omega)
  have hrest : remove (hs.drop 1) (u8 hs 0).toNat
      = .ok ((hs.drop 1).drop (u8 hs 0).toNat) := remove_of_le (by omega)
  refine agrees_filled (v := (hs.drop 1).take (u8 hs 0).toNat)
    (filled_cases (fun _ => hcopy) (fun h => ?_)) ?_
  · rw [Nat.eq_zero_of_not_pos (of_decide_eq_false h)]
    rfl
  · rw [hrest, ok_bind]
    exact unmarshalCipherSuitesC_agrees _ _

/-- The checked parser does what the plain one does. -/
theorem unmarshalC_agrees (packet : GoString) :
    Agrees alloc (unmarshalC alloc packet) (unmarshal packet) := by
  rw [unmarshalC, unmarshal]
  refine agrees_check Iff.rfl fun h5 => ?_
  have hraw : copy packet 0 packet.length = .ok packet := by
    have hcopy := @copy_of_le packet packet.length 0 (by omega)
    rwa [List.drop_zero, List.take_length] at hcopy
  have htype : byteAt packet 0 = .ok (u8 packet 0) := @byteAt_of_lt _ 0 (by omega)
  have hversion : wordAt packet 1 = .ok (u16 packet 1) := @wordAt_of_lt _ 1 (by omega)
  have hmessage : wordAt packet 3 = .ok (u16 packet 3) := @wordAt_of_lt _ 3 (by omega)
  have hremove : remove packet 5 = .ok (packet.drop 5) := @remove_of_le _ 5 (by omega)
  refine agrees_filled (filled_cases (fun _ => hraw) (fun h => by cases h)) ?_
  rw [htype, ok_bind, hversion, ok_bind, hmessage, ok_bind]
  refine agrees_check Iff.rfl fun _ => ?_
  rw [hremove, ok_bind]
  refine agrees_check Iff.rfl fun h6 => ?_
  have hhs : byteAt (packet.drop 5) 0 = .ok (u8 (packet.drop 5) 0) := @byteAt_of_lt _ 0 (by omega)
  rw [hhs, ok_bind]
  refine agrees_check Iff.rfl fun _ => ?_
  have hb1 : byteAt (packet.drop 5) 1 = .ok (u8 (packet.drop 5) 1) := @byteAt_of_lt _ 1 (by omega)
  have hb2 : byteAt (packet.drop 5) 2 = .ok (u8 (packet.drop 5) 2) := @byteAt_of_lt _ 2 (by omega)
  have hb3 : byteAt (packet.drop 5) 3 = .ok (u8 (packet.drop 5) 3) := @byteAt_of_lt _ 3 (by omega)
  have hb4 : wordAt (packet.drop 5) 4 = .ok (u16 (packet.drop 5) 4) := @wordAt_of_lt _ 4 (by omega)
  have hrest : remove (packet.drop 5) 6 = .ok ((packet.drop 5).drop 6) :=
    @remove_of_le _ 6 (by omega)
  rw [hb1, ok_bind, hb2, ok_bind, hb3, ok_bind, hb4, ok_bind, hrest, ok_bind]
  refine agrees_check Iff.rfl fun h32 => ?_
  have hrandom : copy ((packet.drop 5).drop 6) 0 32 = .ok (((packet.drop 5).drop 6).take 32) :=
    @copy_of_le _ 32 0 (by omega)
  have hlast : remove ((packet.drop 5).drop 6) 32 = .ok (((packet.drop 5).drop 6).drop 32) :=
    @remove_of_le _ 32 (by omega)
  refine agrees_filled (filled_cases (fun _ => hrandom) (fun h => by cases h)) ?_
  rw [hlast, ok_bind]
  exact unmarshalSessionIdC_agrees _ _

end Agreement

/-! ## Safety -/

/-- Every round of a loop over `data` shortens it. -/
def Shortens (body : ClientHelloPacket → GoString → Checked (ClientHelloPacket × GoString)) :
    Prop :=
  ∀ p data p' data', data.length ≠ 0 → body p data = .ok (p', data') → data'.length < data.length

/-- **`Unmarshal` is memory-safe and terminates**: for all bytes and whichever
allocations fail there is no fault, so that one of the four codes is returned, and
every round of its loops shortens what is left. -/
theorem unmarshal_safe (alloc : List Nat → Bool) (packet : GoString) :
    ((∃ p, unmarshalC alloc packet = .ok p) ∨ ∃ e, unmarshalC alloc packet = .error (.err e))
      ∧ Shortens (extensionBody alloc)
      ∧ (∀ rest, Shortens (serverNameBody alloc rest)) ∧ ∀ rest, Shortens (alpnBody alloc rest) := by
  refine ⟨?_, ?_, ?_, ?_⟩
  · have hsafe := (@unmarshalC_agrees alloc packet).not_fault
    cases hx : unmarshalC alloc packet with
    | ok p => exact .inl ⟨p, rfl⟩
    | error e =>
        cases e with
        | err e => exact .inr ⟨e, rfl⟩
        | fault => exact absurd hx hsafe
  · exact fun p data _ _ hne hx => (extensionBody_agrees p data hne).lt hx
  · exact fun rest p data _ _ hne hx => (serverNameBody_agrees rest p data hne).lt hx
  · exact fun rest p data _ _ hne hx => (alpnBody_agrees rest p data hne).lt hx

end Qt

end RbiProxy
