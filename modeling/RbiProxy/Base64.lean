import RbiProxy.GoString

/-!
# Base64

`base64.StdEncoding`: the standard alphabet with mandatory padding. The
decoder skips line breaks wherever they stand, accepts padding in the last
quantum only and ignores the bits a padded quantum has left over, as the
decoder of the library does (it is not in strict mode).

Decoding undoes encoding (`decode_encode`), and a string with a byte that
belongs to no encoding does not decode (`decode_eq_none`). `base64.URLEncoding`
is the same with two other characters (`decodeURL_encodeURL`). The padding can be
told from the length of what stands before it (`encodeURL_padding`).
-/

namespace RbiProxy

namespace Base64

/-! ## The alphabet -/

def encodeChar (v : Nat) : UInt8 :=
  if v < 26 then UInt8.ofNat (65 + v)
  else if v < 52 then UInt8.ofNat (71 + v)
  else if v < 62 then UInt8.ofNat (v - 4)
  else if v = 62 then 43
  else 47

/-- The six-bit value of a character of the alphabet. -/
def decodeChar (c : UInt8) : Option Nat :=
  if 65 ≤ c ∧ c ≤ 90 then some (c.toNat - 65)
  else if 97 ≤ c ∧ c ≤ 122 then some (c.toNat - 71)
  else if 48 ≤ c ∧ c ≤ 57 then some (c.toNat + 4)
  else if c = 43 then some 62
  else if c = 47 then some 63
  else none

/-- `=`. -/
def padChar : UInt8 := 61

def isChar (c : UInt8) : Bool := (decodeChar c).isSome || c = padChar

theorem decodeChar_encodeChar {v : Nat} (h : v < 64) : decodeChar (encodeChar v) = some v := by
  have hall : ∀ v : Fin 64, decodeChar (encodeChar v) = some v.1 := by decide
  exact hall ⟨v, h⟩

theorem isChar_encodeChar {v : Nat} (h : v < 64) : isChar (encodeChar v) = true := by
  rw [isChar, decodeChar_encodeChar h]
  rfl

/-- No white space, and so no space and no line break, is a character of an
encoding. -/
theorem solid_of_isChar {c : UInt8} (h : isChar c = true) : Solid c := by
  have hall : spaceRunes.all (fun w => w.all fun d => !isChar d) = true := by decide
  intro w hw hmem
  have hno := List.all_eq_true.mp (List.all_eq_true.mp hall w hw) c hmem
  simp [h] at hno

theorem lt_of_isChar {c : UInt8} : isChar c = true → c < 0x80 :=
  forall_byte (P := fun c => isChar c = true → c < 0x80) (by decide +kernel) c

/-! ## Encoding -/

def quantum (a b c : UInt8) : Nat := a.toNat * 65536 + b.toNat * 256 + c.toNat

/-- `EncodeToString`. -/
def encode : GoString → GoString
  | [] => []
  | [a] => [encodeChar (quantum a 0 0 / 262144), encodeChar (quantum a 0 0 / 4096 % 64),
      padChar, padChar]
  | [a, b] => [encodeChar (quantum a b 0 / 262144), encodeChar (quantum a b 0 / 4096 % 64),
      encodeChar (quantum a b 0 / 64 % 64), padChar]
  | a :: b :: c :: rest =>
      encodeChar (quantum a b c / 262144) :: encodeChar (quantum a b c / 4096 % 64)
        :: encodeChar (quantum a b c / 64 % 64) :: encodeChar (quantum a b c % 64)
        :: encode rest

theorem quantum_lt (a b c : UInt8) : quantum a b c < 16777216 := by
  have ha := a.toNat_lt
  have hb := b.toNat_lt
  have hc := c.toNat_lt
  rw [quantum]
  omega

theorem isChar_of_mem_encode : ∀ {s : GoString} {d : UInt8}, d ∈ encode s → isChar d = true
  | [], d, h => by cases h
  | [a], d, h => by
      have hq := quantum_lt a 0 0
      simp only [encode, List.mem_cons, List.not_mem_nil, or_false] at h
      rcases h with rfl | rfl | rfl | rfl
      · exact isChar_encodeChar (by omega)
      · exact isChar_encodeChar (by omega)
      · rfl
      · rfl
  | [a, b], d, h => by
      have hq := quantum_lt a b 0
      simp only [encode, List.mem_cons, List.not_mem_nil, or_false] at h
      rcases h with rfl | rfl | rfl | rfl
      · exact isChar_encodeChar (by omega)
      · exact isChar_encodeChar (by omega)
      · exact isChar_encodeChar (by omega)
      · rfl
  | a :: b :: c :: rest, d, h => by
      have hq := quantum_lt a b c
      simp only [encode, List.mem_cons] at h
      rcases h with rfl | rfl | rfl | rfl | h
      · exact isChar_encodeChar (by omega)
      · exact isChar_encodeChar (by omega)
      · exact isChar_encodeChar (by omega)
      · exact isChar_encodeChar (by omega)
      · exact isChar_of_mem_encode h

theorem encode_ne_nil {s : GoString} (h : s ≠ []) : encode s ≠ [] := by
  match s with
  | [] => exact absurd rfl h
  | [a] => simp [encode]
  | [a, b] => simp [encode]
  | a :: b :: c :: rest => simp [encode]

/-! ## Decoding -/

def value (w x y z : Nat) : Nat := w * 262144 + x * 4096 + y * 64 + z

def byte0 (v : Nat) : UInt8 := UInt8.ofNat (v / 65536)

def byte1 (v : Nat) : UInt8 := UInt8.ofNat (v / 256)

def byte2 (v : Nat) : UInt8 := UInt8.ofNat v

def decodeQuanta : GoString → Option GoString
  | [] => some []
  | a :: b :: c :: d :: rest =>
    match decodeChar a, decodeChar b with
    | some w, some x =>
      match decodeChar c, decodeChar d with
      | some y, some z =>
        (decodeQuanta rest).map fun s =>
          byte0 (value w x y z) :: byte1 (value w x y z) :: byte2 (value w x y z) :: s
      | some y, none =>
        if d = padChar ∧ rest = [] then some [byte0 (value w x y 0), byte1 (value w x y 0)]
        else none
      | none, _ =>
        if c = padChar ∧ d = padChar ∧ rest = [] then some [byte0 (value w x 0 0)] else none
    | _, _ => none
  | _ => none

def isBreak (c : UInt8) : Bool := c = 10 || c = 13

/-- `Decode`; `none` is a `CorruptInputError`. -/
def decode (s : GoString) : Option GoString := decodeQuanta (s.filter fun c => !isBreak c)

theorem decodeChar_padChar : decodeChar padChar = none := by decide

theorem byte0_quantum (a b c : UInt8) : byte0 (quantum a b c) = a := by
  have hb := b.toNat_lt
  have hc := c.toNat_lt
  rw [byte0, quantum, show (a.toNat * 65536 + b.toNat * 256 + c.toNat) / 65536 = a.toNat by omega,
    UInt8.ofNat_toNat]

theorem byte1_quantum (a b c : UInt8) : byte1 (quantum a b c) = b := by
  have hb := b.toNat_lt
  have hc := c.toNat_lt
  apply UInt8.toNat_inj.mp
  rw [byte1, quantum, UInt8.toNat_ofNat']
  omega

theorem byte2_quantum (a b c : UInt8) : byte2 (quantum a b c) = c := by
  have hc := c.toNat_lt
  apply UInt8.toNat_inj.mp
  rw [byte2, quantum, UInt8.toNat_ofNat']
  omega

theorem decodeQuanta_encode : ∀ s : GoString, decodeQuanta (encode s) = some s
  | [] => rfl
  | [a] => by
      have hq := quantum_lt a 0 0
      have hval : value (quantum a 0 0 / 262144) (quantum a 0 0 / 4096 % 64) 0 0
          = quantum a 0 0 := by
        simp only [value, quantum, UInt8.toNat_zero]
        omega
      rw [encode, decodeQuanta, decodeChar_encodeChar (by omega), decodeChar_encodeChar (by omega),
        decodeChar_padChar]
      simp only [hval, byte0_quantum, and_self, if_true]
  | [a, b] => by
      have hq := quantum_lt a b 0
      have hval : value (quantum a b 0 / 262144) (quantum a b 0 / 4096 % 64)
          (quantum a b 0 / 64 % 64) 0 = quantum a b 0 := by
        simp only [value, quantum, UInt8.toNat_zero]
        omega
      rw [encode, decodeQuanta, decodeChar_encodeChar (by omega), decodeChar_encodeChar (by omega),
        decodeChar_encodeChar (by omega), decodeChar_padChar]
      simp only [hval, byte0_quantum, byte1_quantum, and_self, if_true]
  | a :: b :: c :: rest => by
      have hq := quantum_lt a b c
      have hval : value (quantum a b c / 262144) (quantum a b c / 4096 % 64)
          (quantum a b c / 64 % 64) (quantum a b c % 64) = quantum a b c := by
        rw [value]
        omega
      rw [encode, decodeQuanta, decodeChar_encodeChar (by omega), decodeChar_encodeChar (by omega),
        decodeChar_encodeChar (by omega), decodeChar_encodeChar (by omega)]
      simp only [hval, byte0_quantum, byte1_quantum, byte2_quantum, decodeQuanta_encode rest,
        Option.map_some]

theorem isChar_of_decodeQuanta {s t : GoString} (h : decodeQuanta s = some t) :
    ∀ c ∈ s, isChar c = true := by
  induction s using decodeQuanta.induct generalizing t with
  | case1 => simp
  | case2 a b c d rest w x hb ha y z hd hc ih =>
      simp only [decodeQuanta, ha, hb, hc, hd] at h
      obtain ⟨u, hu, -⟩ := Option.map_eq_some_iff.mp h
      intro e he
      simp only [List.mem_cons] at he
      rcases he with rfl | rfl | rfl | rfl | he
      · simp [isChar, ha]
      · simp [isChar, hb]
      · simp [isChar, hc]
      · simp [isChar, hd]
      · exact ih hu e he
  | case3 a b c d rest w x hb ha y hd hc hpad =>
      obtain ⟨rfl, rfl⟩ := hpad
      simp [isChar, ha, hb, hc]
  | case4 a b c d rest w x hb ha y hd hc hpad =>
      simp only [decodeQuanta, ha, hb, hc, hd, if_neg hpad] at h
      cases h
  | case5 a b c d rest w x hb ha hc hpad =>
      obtain ⟨rfl, rfl, rfl⟩ := hpad
      simp [isChar, ha, hb]
  | case6 a b c d rest w x hb ha hc hpad =>
      simp only [decodeQuanta, ha, hb, hc, if_neg hpad] at h
      cases h
  | case7 a b c d rest hno =>
      rw [decodeQuanta] at h
      split at h
      · rename_i w x ha hb
        exact absurd hb (hno w x ha)
      · cases h
  | case8 s hnil hno =>
      rw [decodeQuanta] at h
      · cases h
      · exact hnil
      · exact hno

/-- A string with a byte that is neither a character nor a line break does
not decode. -/
theorem decode_eq_none {s : GoString} {c : UInt8} (hmem : c ∈ s) (hc : isChar c = false)
    (hbreak : isBreak c = false) : decode s = none := by
  cases h : decode s with
  | none => rfl
  | some t =>
      have := isChar_of_decodeQuanta h c (List.mem_filter.mpr ⟨hmem, by simp [hbreak]⟩)
      rw [hc] at this
      cases this

theorem isBreak_of_isChar {c : UInt8} (h : isChar c = true) : isBreak c = false := by
  by_contra hne
  simp only [isBreak, Bool.not_eq_false, Bool.or_eq_true, decide_eq_true_eq] at hne
  rcases hne with rfl | rfl <;> exact absurd h (by decide)

theorem decode_encode (s : GoString) : decode (encode s) = some s := by
  rw [decode, List.filter_eq_self.mpr fun c hc => by
    simp [isBreak_of_isChar (isChar_of_mem_encode hc)], decodeQuanta_encode]

/-! ## The alphabet for URLs -/

/-- `base64.URLEncoding` has `-` and `_` in place of `+` and `/`. -/
def toURL (c : UInt8) : UInt8 := if c = 43 then 45 else if c = 47 then 95 else c

def ofURL (c : UInt8) : UInt8 := if c = 45 then 43 else if c = 95 then 47 else c

/-- `URLEncoding.EncodeToString`. -/
def encodeURL (s : GoString) : GoString := (encode s).map toURL

/-- `URLEncoding.DecodeString`; a string with one of the characters that the
other alphabet has does not decode. -/
def decodeURL (s : GoString) : Option GoString :=
  if s.any (fun c => c = 43 || c = 47) then none else decode (s.map ofURL)

theorem toURL_spec {c : UInt8} : isChar c = true →
    ofURL (toURL c) = c ∧ toURL c ≠ 43 ∧ toURL c ≠ 47 ∧ toURL c < 0x80 :=
  forall_byte (P := fun c => isChar c = true →
    ofURL (toURL c) = c ∧ toURL c ≠ 43 ∧ toURL c ≠ 47 ∧ toURL c < 0x80) (by decide +kernel) c

theorem decodeURL_encodeURL (s : GoString) : decodeURL (encodeURL s) = some s := by
  have hany : (encodeURL s).any (fun c => c = 43 || c = 47) = false := by
    rw [List.any_eq_false]
    intro c hc
    obtain ⟨d, hd, rfl⟩ := List.mem_map.mp hc
    obtain ⟨-, h43, h47, -⟩ := toURL_spec (isChar_of_mem_encode hd)
    simp [h43, h47]
  have hback : (encodeURL s).map ofURL = encode s := by
    calc (encodeURL s).map ofURL = (encode s).map (ofURL ∘ toURL) := List.map_map
      _ = (encode s).map id :=
        List.map_congr_left fun c hc => (toURL_spec (isChar_of_mem_encode hc)).1
      _ = encode s := List.map_id _
  rw [decodeURL, hany, hback, decode_encode]
  rfl

theorem lt_of_mem_encodeURL {s : GoString} {c : UInt8} (h : c ∈ encodeURL s) : c < 0x80 := by
  obtain ⟨d, hd, rfl⟩ := List.mem_map.mp h
  exact (toURL_spec (isChar_of_mem_encode hd)).2.2.2

/-! ## Padding -/

/-- How many characters of padding a string of this length needs. -/
def missing (n : Nat) : Nat := if n % 4 = 0 then 0 else 4 - n % 4

theorem encodeChar_ne_padChar {v : Nat} (h : v < 64) : encodeChar v ≠ padChar := by
  intro heq
  have hval := decodeChar_encodeChar h
  rw [heq, decodeChar_padChar] at hval
  cases hval

/-- An encoding is characters of the alphabet, and the padding they need. -/
theorem encode_padding : ∀ s : GoString,
    ∃ t, padChar ∉ t ∧ encode s = t ++ List.replicate (missing t.length) padChar
  | [] => ⟨[], List.not_mem_nil, rfl⟩
  | [a] => by
      have hq := quantum_lt a 0 0
      refine ⟨[encodeChar (quantum a 0 0 / 262144), encodeChar (quantum a 0 0 / 4096 % 64)],
        ?_, rfl⟩
      simp only [List.mem_cons, List.not_mem_nil, or_false, not_or]
      exact ⟨(encodeChar_ne_padChar (by omega)).symm, (encodeChar_ne_padChar (by omega)).symm⟩
  | [a, b] => by
      have hq := quantum_lt a b 0
      refine ⟨[encodeChar (quantum a b 0 / 262144), encodeChar (quantum a b 0 / 4096 % 64),
        encodeChar (quantum a b 0 / 64 % 64)], ?_, rfl⟩
      simp only [List.mem_cons, List.not_mem_nil, or_false, not_or]
      exact ⟨(encodeChar_ne_padChar (by omega)).symm, (encodeChar_ne_padChar (by omega)).symm,
        (encodeChar_ne_padChar (by omega)).symm⟩
  | a :: b :: c :: rest => by
      have hq := quantum_lt a b c
      obtain ⟨t, ht, hrest⟩ := encode_padding rest
      refine ⟨encodeChar (quantum a b c / 262144) :: encodeChar (quantum a b c / 4096 % 64)
        :: encodeChar (quantum a b c / 64 % 64) :: encodeChar (quantum a b c % 64) :: t, ?_, ?_⟩
      · simp only [List.mem_cons, not_or]
        exact ⟨(encodeChar_ne_padChar (by omega)).symm, (encodeChar_ne_padChar (by omega)).symm,
          (encodeChar_ne_padChar (by omega)).symm, (encodeChar_ne_padChar (by omega)).symm, ht⟩
      · have hmod : missing (t.length + 1 + 1 + 1 + 1) = missing t.length := by
          rw [missing, missing, show t.length + 1 + 1 + 1 + 1 = t.length + 4 from rfl,
            Nat.add_mod_right]
        simp only [encode, hrest, List.length_cons, List.cons_append, hmod]

theorem toURL_eq_padChar {c : UInt8} : toURL c = padChar ↔ c = padChar := by
  unfold toURL
  split
  · rename_i h
    rw [h]
    decide
  split
  · rename_i h
    rw [h]
    decide
  · rfl

theorem encodeURL_padding (s : GoString) :
    ∃ t, padChar ∉ t ∧ encodeURL s = t ++ List.replicate (missing t.length) padChar := by
  obtain ⟨t, ht, hs⟩ := encode_padding s
  refine ⟨t.map toURL, fun hmem => ?_, ?_⟩
  · obtain ⟨c, hc, heq⟩ := List.mem_map.mp hmem
    exact ht (toURL_eq_padChar.mp heq ▸ hc)
  · rw [encodeURL, hs, List.map_append, List.map_replicate, toURL_eq_padChar.mpr rfl,
      List.length_map]

end Base64

end RbiProxy
