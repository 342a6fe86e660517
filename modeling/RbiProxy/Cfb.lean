import RbiProxy.GoString

/-!
# Cipher feedback

`cipher.NewCFBEncrypter` and `NewCFBDecrypter` over any block cipher: a block of
the text is xored with the encryption of the block of ciphertext before it, the
first one with that of the initialization vector. Both directions only encrypt
blocks; they differ in where the next block of ciphertext is, in what they write
or in what they read. The last block may be short.

`decrypt_encrypt`: after the same vector, one undoes the other.
-/

namespace RbiProxy

namespace Cfb

def blockSize : Nat := 16

structure Block where
  bytes : GoString
  length_eq : bytes.length = blockSize

/-- `cipher.Block`, as far as feedback mode uses it. -/
structure BlockCipher where
  encrypt : Block → Block

/-- `subtle.XORBytes`: as many bytes as both have. -/
def xorBytes (x y : GoString) : GoString := List.zipWith (· ^^^ ·) x y

/-- `copy(next, src)`. -/
def Block.copy (next : Block) (src : GoString) : Block where
  bytes := src.take blockSize ++ next.bytes.drop src.length
  length_eq := by
    have h := next.length_eq
    simp only [List.length_append, List.length_take, List.length_drop]
    omega

/-- `XORKeyStream`, with the key stream from its start on. -/
def xorKeyStream (c : BlockCipher) (decrypt : Bool) (next : Block) (src : GoString) : GoString :=
  if src = [] then []
  else
    let out := c.encrypt next
    let dst := xorBytes src out.bytes
    let next := if decrypt then next.copy src else next.copy dst
    dst ++ xorKeyStream c decrypt next (src.drop blockSize)
termination_by src.length
decreasing_by
  have hpos := List.length_pos_iff.mpr ‹src ≠ []›
  simp only [List.length_drop, blockSize]
  omega

theorem length_xorBytes (x y : GoString) : (xorBytes x y).length = min x.length y.length :=
  List.length_zipWith

theorem length_xorBlock (x : GoString) (b : Block) :
    (xorBytes x b.bytes).length = min x.length blockSize := by
  rw [length_xorBytes, b.length_eq]

/-- What follows a full block does not matter. -/
theorem xorBytes_append {x y : GoString} (h : y.length ≤ x.length) (rest : GoString) :
    xorBytes (x ++ rest) y = xorBytes x y := by
  induction x generalizing y with
  | nil =>
      obtain rfl := List.length_eq_zero_iff.mp (Nat.le_zero.mp h)
      simp [xorBytes]
  | cons a x ih =>
      cases y with
      | nil => rfl
      | cons b y => exact congrArg ((a ^^^ b) :: ·) (ih (Nat.le_of_succ_le_succ h))

theorem xorBytes_self (x y : GoString) : xorBytes (xorBytes x y) y = x.take y.length := by
  induction x generalizing y with
  | nil => simp [xorBytes]
  | cons a x ih =>
      cases y with
      | nil => rfl
      | cons b y =>
          have hbyte : a ^^^ b ^^^ b = a := by rw [UInt8.xor_assoc, UInt8.xor_self, UInt8.xor_zero]
          have hrest : xorBytes (xorBytes (a :: x) (b :: y)) (b :: y)
              = (a ^^^ b ^^^ b) :: xorBytes (xorBytes x y) y := rfl
          rw [hrest, hbyte, ih y, List.length_cons, List.take_succ_cons]

theorem Block.ext_bytes {a b : Block} (h : a.bytes = b.bytes) : a = b := by
  cases a
  cases b
  congr

theorem copy_append {x : GoString} (h : blockSize ≤ x.length) (next : Block) (rest : GoString) :
    next.copy (x ++ rest) = next.copy x := by
  have hnext := next.length_eq
  have hdrop : ∀ n, blockSize ≤ n → next.bytes.drop n = [] := fun n hn =>
    List.drop_eq_nil_of_le (hnext.trans_le hn)
  apply Block.ext_bytes
  simp only [Block.copy]
  rw [List.take_append_of_le_length h, hdrop x.length h,
    hdrop _ (h.trans (by rw [List.length_append]; exact Nat.le_add_right _ _))]

theorem xorKeyStream_nil (c : BlockCipher) (decrypt : Bool) (next : Block) :
    xorKeyStream c decrypt next [] = [] := by
  rw [xorKeyStream, if_pos rfl]

theorem xorKeyStream_of_ne (c : BlockCipher) (decrypt : Bool) (next : Block) {src : GoString}
    (h : src ≠ []) :
    xorKeyStream c decrypt next src
      = xorBytes src (c.encrypt next).bytes
        ++ xorKeyStream c decrypt
            (if decrypt then next.copy src
              else next.copy (xorBytes src (c.encrypt next).bytes)) (src.drop blockSize) := by
  rw [xorKeyStream, if_neg h]

theorem length_xorKeyStream (c : BlockCipher) (decrypt : Bool) (next : Block) (src : GoString) :
    (xorKeyStream c decrypt next src).length = src.length := by
  fun_induction xorKeyStream c decrypt next src with
  | case1 next => rfl
  | case2 next src hne out dst next' ih =>
      have hlen := length_xorBlock src out
      rw [List.length_append, ih, hlen, List.length_drop]
      omega

/-- A block of ciphertext with the rest behind it: the decrypter gets back the
block of the text, the next block to encrypt, and the rest. -/
theorem split_ciphertext (next out : Block) {src rest : GoString}
    (hrest : src.drop blockSize = [] → rest = []) :
    xorBytes (xorBytes src out.bytes ++ rest) out.bytes = src.take blockSize
      ∧ next.copy (xorBytes src out.bytes ++ rest) = next.copy (xorBytes src out.bytes)
      ∧ (xorBytes src out.bytes ++ rest).drop blockSize = rest := by
  have hlen := length_xorBlock src out
  have hself := xorBytes_self src out.bytes
  rw [out.length_eq] at hself
  by_cases hfull : blockSize ≤ src.length
  · have hdst : (xorBytes src out.bytes).length = blockSize := by omega
    refine ⟨?_, copy_append hdst.ge next rest, List.drop_left' hdst⟩
    rw [xorBytes_append (by rw [hdst, out.length_eq]), hself]
  · -- the last block: nothing comes behind it
    obtain rfl := hrest (List.drop_eq_nil_of_le (by omega))
    rw [List.append_nil]
    exact ⟨hself, rfl, List.drop_eq_nil_of_le (by omega)⟩

/-- **Feedback mode.** Decryption undoes encryption, for texts of any length. -/
theorem decrypt_encrypt (c : BlockCipher) (next : Block) (src : GoString) :
    xorKeyStream c true next (xorKeyStream c false next src) = src := by
  fun_induction xorKeyStream c false next src with
  | case1 next => exact xorKeyStream_nil c true next
  | case2 next src hne out dst next' ih =>
      have hrest : src.drop blockSize = [] → xorKeyStream c false next' (src.drop blockSize) = [] :=
        fun hnil => by rw [hnil, xorKeyStream_nil]
      obtain ⟨hxor, hcopy, hdrop⟩ := split_ciphertext next out hrest
      have hne' : dst ++ xorKeyStream c false next' (src.drop blockSize) ≠ [] := by
        intro hnil
        have hlen := length_xorBlock src out
        have hpos := List.length_pos_iff.mpr hne
        have hzero := congrArg List.length (List.append_eq_nil_iff.mp hnil).1
        rw [hlen, List.length_nil, blockSize] at hzero
        omega
      rw [xorKeyStream_of_ne c true next hne', hxor, if_pos rfl, hcopy, hdrop]
      exact (congrArg (src.take blockSize ++ ·) ih).trans (List.take_append_drop _ src)

end Cfb

end RbiProxy
