import RbiProxy.GoString

/-!
# Byte slices with bounds checks

Indexing and slicing of a Go `[]byte` fault when they leave the slice. A
function that may fault, or return one of its error values, is modelled in
`Except (Halt ε)`: `.err e` is a returned error, `.fault` the run-time
panic of an out-of-range expression.

The second half is big-endian numbers: `be16`/`be24` are the shift-and-or
expressions Go code reads them with, in the widths of the Go types, and
`put16`/`put24` write them. Sequences of 16-bit numbers are read by
`words16`, one checked index at a time.
-/

namespace RbiProxy

/-- How a call ends that does not return normally. -/
inductive Halt (ε : Type) where
  | err (e : ε)
  | fault
deriving DecidableEq

namespace GoSlice

variable {ε : Type}

/-! ## Checked access -/

/-- `s[i]`. -/
def idx (s : GoString) (i : Nat) : Except (Halt ε) UInt8 :=
  match s[i]? with
  | some b => .ok b
  | none => .error .fault

/-- `s[n:]`. -/
def sliceFrom (s : GoString) (n : Nat) : Except (Halt ε) GoString :=
  if n ≤ s.length then .ok (s.drop n) else .error .fault

/-- `s[:n]`, for `n` within the length. -/
def sliceTo (s : GoString) (n : Nat) : Except (Halt ε) GoString :=
  if n ≤ s.length then .ok (s.take n) else .error .fault

theorem idx_of_lt {s : GoString} {i : Nat} (h : i < s.length) :
    idx s i = (.ok s[i] : Except (Halt ε) UInt8) := by
  simp [idx, List.getElem?_eq_getElem h]

theorem idx_of_getElem? {s : GoString} {i : Nat} {b : UInt8} (h : s[i]? = some b) :
    idx s i = (.ok b : Except (Halt ε) UInt8) := by
  simp [idx, h]

theorem sliceFrom_of_le {s : GoString} {n : Nat} (h : n ≤ s.length) :
    sliceFrom s n = (.ok (s.drop n) : Except (Halt ε) GoString) := if_pos h

theorem sliceTo_of_le {s : GoString} {n : Nat} (h : n ≤ s.length) :
    sliceTo s n = (.ok (s.take n) : Except (Halt ε) GoString) := if_pos h

/-! ## Big-endian numbers -/

/-- `uint16(hi)<<8 | uint16(lo)`. -/
def be16 (hi lo : UInt8) : UInt16 := hi.toUInt16 <<< 8 ||| lo.toUInt16

/-- `uint32(a)<<16 | uint32(b)<<8 | uint32(c)`. -/
def be24 (a b c : UInt8) : UInt32 :=
  a.toUInt32 <<< 16 ||| b.toUInt32 <<< 8 ||| c.toUInt32

def put16 (n : Nat) : GoString := [UInt8.ofNat (n / 256), UInt8.ofNat n]

def put24 (n : Nat) : GoString :=
  [UInt8.ofNat (n / 65536), UInt8.ofNat (n / 256), UInt8.ofNat n]

theorem toNat_be16 (hi lo : UInt8) : (be16 hi lo).toNat = hi.toNat * 256 + lo.toNat := by
  have hh := hi.toNat_lt
  have hl := lo.toNat_lt
  simp only [be16, UInt16.toNat_or, UInt16.toNat_shiftLeft, UInt8.toNat_toUInt16]
  have hmod : hi.toNat <<< (UInt16.toNat 8 % 16) % 2 ^ 16 = hi.toNat <<< 8 := by
    rw [show UInt16.toNat 8 % 16 = 8 by decide, Nat.shiftLeft_eq]
    omega
  rw [hmod, ← Nat.shiftLeft_add_eq_or_of_lt (by omega), Nat.shiftLeft_eq]

theorem be16_put16 {n : Nat} (h : n < 65536) :
    (be16 (UInt8.ofNat (n / 256)) (UInt8.ofNat n)).toNat = n := by
  rw [toNat_be16]
  simp only [UInt8.toNat_ofNat']
  omega

theorem be16_put16_toNat (w : UInt16) :
    be16 (UInt8.ofNat (w.toNat / 256)) (UInt8.ofNat w.toNat) = w :=
  UInt16.toNat_inj.mp (be16_put16 w.toNat_lt)

def word16 (s : GoString) (i : Nat) : Except (Halt ε) UInt16 := do
  let hi ← idx s i
  let lo ← idx s (i + 1)
  return be16 hi lo

/-- `n` consecutive 16-bit numbers from offset `off`, read in a loop. -/
def words16 (s : GoString) (off : Nat) : Nat → Except (Halt ε) (List UInt16)
  | 0 => return []
  | n + 1 => do
      let w ← word16 s off
      let ws ← words16 s (off + 2) n
      return w :: ws

/-- `n` consecutive bytes from offset `off`, read in a loop. -/
def bytes8 (s : GoString) (off : Nat) : Nat → Except (Halt ε) (List UInt8)
  | 0 => return []
  | n + 1 => do
      let b ← idx s off
      let bs ← bytes8 s (off + 1) n
      return b :: bs

theorem word16_of_lt {s : GoString} {i : Nat} (h : i + 1 < s.length) :
    word16 s i = (.ok (be16 s[i] s[i + 1]) : Except (Halt ε) UInt16) := by
  rw [word16, idx_of_lt (by omega), idx_of_lt h]
  rfl

/-- A loop whose last read is in range returns. -/
theorem words16_ok {s : GoString} (off n : Nat) (h : off + 2 * n ≤ s.length) :
    ∃ ws, words16 s off n = (.ok ws : Except (Halt ε) (List UInt16)) := by
  induction n generalizing off with
  | zero => exact ⟨[], rfl⟩
  | succ n ih =>
      obtain ⟨ws, hws⟩ := ih (off + 2) (by omega)
      exact ⟨be16 s[off] s[off + 1] :: ws, by
        rw [words16, word16_of_lt (by omega)]
        simp only [bind, Except.bind, hws]
        rfl⟩

/-- Reading 16-bit numbers either succeeds or leaves the slice. -/
theorem word16_ok_or_fault (s : GoString) (i : Nat) :
    (∃ w, word16 s i = (.ok w : Except (Halt ε) UInt16)) ∨ word16 s i
      = (.error .fault : Except (Halt ε) UInt16) := by
  unfold word16 idx
  cases s[i]? with
  | none => exact .inr rfl
  | some hi =>
      cases s[i + 1]? with
      | none => exact .inr rfl
      | some lo => exact .inl ⟨be16 hi lo, rfl⟩

theorem words16_ok_or_fault (s : GoString) (n off : Nat) :
    (∃ ws, words16 s off n = (.ok ws : Except (Halt ε) (List UInt16))) ∨
      words16 s off n = (.error .fault : Except (Halt ε) (List UInt16)) := by
  induction n generalizing off with
  | zero => exact .inl ⟨[], rfl⟩
  | succ n ih =>
      rw [words16]
      rcases word16_ok_or_fault (ε := ε) s off with ⟨w, hw⟩ | hw
      · rcases ih (off + 2) with ⟨ws, hws⟩ | hws
        · exact .inl ⟨w :: ws, by rw [hw, hws]; rfl⟩
        · exact .inr (by rw [hw, hws]; rfl)
      · exact .inr (by rw [hw]; rfl)

theorem bytes8_ok {s : GoString} (off n : Nat) (h : off + n ≤ s.length) :
    bytes8 s off n = (.ok ((s.drop off).take n) : Except (Halt ε) (List UInt8)) := by
  induction n generalizing off with
  | zero => rfl
  | succ n ih =>
      rw [bytes8, idx_of_lt (by omega), List.drop_eq_getElem_cons (by omega),
        List.take_succ_cons]
      simp only [bind, Except.bind, ih (off + 1) (by omega)]
      rfl

def putWords (ws : List UInt16) : GoString := ws.flatMap fun w => put16 w.toNat

@[simp] theorem length_put16 (n : Nat) : (put16 n).length = 2 := rfl

@[simp] theorem length_put24 (n : Nat) : (put24 n).length = 3 := rfl

@[simp] theorem length_putWords (ws : List UInt16) : (putWords ws).length = 2 * ws.length := by
  induction ws with
  | nil => rfl
  | cons w ws ih =>
      rw [putWords] at ih ⊢
      rw [List.flatMap_cons, List.length_append, length_put16, ih, List.length_cons]
      omega

theorem word16_append (pre rest : GoString) {n : Nat} (h : n < 65536) :
    ∃ w : UInt16, w.toNat = n
      ∧ word16 (pre ++ put16 n ++ rest) pre.length
          = (.ok w : Except (Halt ε) UInt16) := by
  refine ⟨be16 (UInt8.ofNat (n / 256)) (UInt8.ofNat n), be16_put16 h, ?_⟩
  have h0 : (pre ++ put16 n ++ rest)[pre.length]? = some (UInt8.ofNat (n / 256)) := by
    simp [put16]
  have h1 : (pre ++ put16 n ++ rest)[pre.length + 1]? = some (UInt8.ofNat n) := by
    rw [List.append_assoc, List.getElem?_append_right (by omega)]
    simp [put16]
  rw [word16, idx_of_getElem? h0, idx_of_getElem? h1]
  rfl

/-- Reading back a sequence of 16-bit numbers. -/
theorem words16_append (ws : List UInt16) (pre rest : GoString) :
    words16 (pre ++ putWords ws ++ rest) pre.length ws.length
      = (.ok ws : Except (Halt ε) (List UInt16)) := by
  induction ws generalizing pre with
  | nil => rfl
  | cons w ws ih =>
      have hsplit : pre ++ putWords (w :: ws) ++ rest
          = pre ++ put16 w.toNat ++ (putWords ws ++ rest) := by
        simp [putWords, List.append_assoc]
      obtain ⟨w', hw', hread⟩ := word16_append (ε := ε) pre (putWords ws ++ rest) w.toNat_lt
      obtain rfl : w' = w := UInt16.toNat_inj.mp hw'
      have hrest := ih (pre ++ put16 w'.toNat)
      rw [List.length_append, length_put16] at hrest
      rw [List.length_cons, words16, hsplit, hread]
      simp only [bind, Except.bind]
      rw [show pre ++ put16 w'.toNat ++ (putWords ws ++ rest)
        = pre ++ put16 w'.toNat ++ putWords ws ++ rest by simp [List.append_assoc], hrest]
      rfl

end GoSlice

end RbiProxy
