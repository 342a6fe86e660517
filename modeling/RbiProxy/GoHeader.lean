import RbiProxy.GoMap
import RbiProxy.GoString

/-!
# Header fields

`http.Header` of Go, a map from the names of the fields to their values. Names are
compared in a canonical form: the functions bring the name they are given into it,
and a map that was read from a request has its names in it (`RequestHeader`). On
such a map a name stands for all of its spellings (`canonical_eq_iff`).
-/

namespace RbiProxy

/-- `validHeaderFieldByte`: the bytes of a token. -/
def validHeaderFieldByte (b : UInt8) : Bool :=
  inRange b 0x30 0x39 || inRange b 0x41 0x5A || inRange b 0x61 0x7A
    || (lit "!#$%&'*+-.^_`|~").contains b

def upperByte (b : UInt8) : UInt8 := if 0x61 ≤ b ∧ b ≤ 0x7A then b - 0x20 else b

/-- Upper case at the start and behind a hyphen, lower case elsewhere. -/
def titleCase : Bool → GoString → GoString
  | _, [] => []
  | upper, c :: s =>
    let c := if upper then upperByte c else lowerByte c
    c :: titleCase (c == 0x2D) s

/-- `CanonicalMIMEHeaderKey`. What is no token is left as it is. -/
def canonicalMIMEHeaderKey (s : GoString) : GoString :=
  if s.all validHeaderFieldByte then titleCase true s else s

abbrev Header := GoMap GoString (List GoString)

namespace Header

def values (h : Header) (key : GoString) : List GoString :=
  (h.lookup (canonicalMIMEHeaderKey key)).getD []

def get (h : Header) (key : GoString) : GoString := (h.values key).headD []

def del (h : Header) (key : GoString) : Header := h.erase (canonicalMIMEHeaderKey key)

def set (h : Header) (key value : GoString) : Header :=
  h.insert (canonicalMIMEHeaderKey key) [value]

def add (h : Header) (key value : GoString) : Header :=
  h.insert (canonicalMIMEHeaderKey key) (h.values key ++ [value])

def Canonical (h : Header) : Prop := ∀ k ∈ h, canonicalMIMEHeaderKey k = k

end Header

structure FieldName (k : GoString) : Prop where
  nonempty : k ≠ []
  valid : k.all validHeaderFieldByte = true
  canonical : titleCase true k = k

structure RequestHeader where
  fields : Header
  names : ∀ k ∈ fields, FieldName k

/-- Two spellings of one name. -/
def sameField (a b : GoString) : Prop := a.map lowerByte = b.map lowerByte

/-! ## Spellings -/

section Case

variable (b : UInt8)

theorem upperByte_lowerByte : upperByte (lowerByte b) = upperByte b :=
  forall_byte (P := fun b => upperByte (lowerByte b) = upperByte b) (by decide +kernel) b

theorem lowerByte_upperByte : lowerByte (upperByte b) = lowerByte b :=
  forall_byte (P := fun b => lowerByte (upperByte b) = lowerByte b) (by decide +kernel) b

theorem valid_lowerByte : validHeaderFieldByte (lowerByte b) = validHeaderFieldByte b :=
  forall_byte (P := fun b => validHeaderFieldByte (lowerByte b) = validHeaderFieldByte b)
    (by decide +kernel) b

end Case

theorem titleCase_map_lowerByte (s : GoString) :
    ∀ upper, titleCase upper (s.map lowerByte) = titleCase upper s := by
  induction s with
  | nil => exact fun _ => rfl
  | cons c s ih =>
      intro upper
      have hc : (if upper then upperByte (lowerByte c) else lowerByte (lowerByte c))
          = if upper then upperByte c else lowerByte c := by
        rw [upperByte_lowerByte, lowerByte_lowerByte]
      simp only [List.map_cons, titleCase, hc, ih]

theorem map_lowerByte_titleCase (s : GoString) :
    ∀ upper, (titleCase upper s).map lowerByte = s.map lowerByte := by
  induction s with
  | nil => exact fun _ => rfl
  | cons c s ih =>
      intro upper
      have hc : lowerByte (if upper then upperByte c else lowerByte c) = lowerByte c := by
        split
        · exact lowerByte_upperByte c
        · exact lowerByte_lowerByte c
      simp only [titleCase, List.map_cons, hc, ih]

theorem all_valid_map_lowerByte (s : GoString) :
    (s.map lowerByte).all validHeaderFieldByte = s.all validHeaderFieldByte := by
  rw [List.all_map]
  exact congrArg (List.all s) (funext valid_lowerByte)

/-- **A name stands for all of its spellings.** -/
theorem canonical_eq_iff {k : GoString} (hk : FieldName k) (t : GoString) :
    canonicalMIMEHeaderKey t = k ↔ sameField t k := by
  unfold canonicalMIMEHeaderKey sameField
  split
  · rename_i ht
    constructor
    · rintro rfl
      exact (map_lowerByte_titleCase t true).symm
    · intro h
      rw [← titleCase_map_lowerByte, h, titleCase_map_lowerByte, hk.canonical]
  · rename_i ht
    constructor
    · rintro rfl
      exact absurd hk.valid ht
    · intro h
      rw [← all_valid_map_lowerByte, h, all_valid_map_lowerByte] at ht
      exact absurd hk.valid ht

/-! ## Deleting fields -/

namespace Header

theorem lookup_del (h : Header) (key k : GoString) :
    (h.del key).lookup k = if canonicalMIMEHeaderKey key = k then none else h.lookup k := by
  unfold del
  split
  · rename_i heq
    rw [heq, AList.lookup_erase]
  · rename_i hne
    rw [AList.lookup_erase_ne fun heq => hne heq.symm]

theorem lookup_delAll (keys : List GoString) (k : GoString) :
    ∀ h : Header, (keys.foldl del h).lookup k
      = if keys.any (canonicalMIMEHeaderKey · = k) then none else h.lookup k := by
  induction keys with
  | nil => exact fun _ => rfl
  | cons key keys ih =>
      intro h
      rw [List.foldl_cons, ih, lookup_del, List.any_cons]
      by_cases hkey : canonicalMIMEHeaderKey key = k
      · simp [hkey]
      · simp [hkey]

/-! ## Writing fields -/

section Write

variable (h : Header) (key value : GoString)

@[simp] theorem values_set : (h.set key value).values key = [value] := by
  rw [values, set, AList.lookup_insert]
  rfl

theorem values_set_ne {k : GoString}
    (hne : canonicalMIMEHeaderKey k ≠ canonicalMIMEHeaderKey key) :
    (h.set key value).values k = h.values k := by
  rw [values, set, AList.lookup_insert_ne hne]
  rfl

@[simp] theorem values_add : (h.add key value).values key = h.values key ++ [value] := by
  rw [values, add, AList.lookup_insert]
  rfl

theorem values_add_ne {k : GoString}
    (hne : canonicalMIMEHeaderKey k ≠ canonicalMIMEHeaderKey key) :
    (h.add key value).values k = h.values k := by
  rw [values, add, AList.lookup_insert_ne hne]
  rfl

/-- Values that are added one after the other. -/
theorem values_addAll (vs : List GoString) :
    ∀ h : Header, (vs.foldl (fun h v => h.add key v) h).values key = h.values key ++ vs := by
  induction vs with
  | nil => exact fun h => (List.append_nil _).symm
  | cons v vs ih =>
      intro h
      rw [List.foldl_cons, ih, values_add, List.append_assoc]
      rfl

theorem values_addAll_ne {k : GoString}
    (hne : canonicalMIMEHeaderKey k ≠ canonicalMIMEHeaderKey key) (vs : List GoString) :
    ∀ h : Header, (vs.foldl (fun h v => h.add key v) h).values k = h.values k := by
  induction vs with
  | nil => exact fun h => rfl
  | cons v vs ih =>
      intro h
      rw [List.foldl_cons, ih, values_add_ne h key v hne]

theorem canonicalMIMEHeaderKey_idem (s : GoString) :
    canonicalMIMEHeaderKey (canonicalMIMEHeaderKey s) = canonicalMIMEHeaderKey s := by
  unfold canonicalMIMEHeaderKey
  split
  · rename_i hs
    have hvalid : (titleCase true s).all validHeaderFieldByte = true := by
      rw [← all_valid_map_lowerByte, map_lowerByte_titleCase, all_valid_map_lowerByte, hs]
    rw [if_pos hvalid, ← titleCase_map_lowerByte, map_lowerByte_titleCase,
      titleCase_map_lowerByte]
  · rfl

theorem Canonical.set (hc : h.Canonical) : (h.set key value).Canonical := by
  intro k hk
  rcases (AList.mem_insert h).mp hk with rfl | hmem
  · exact canonicalMIMEHeaderKey_idem key
  · exact hc k hmem

end Write

end Header

end RbiProxy
