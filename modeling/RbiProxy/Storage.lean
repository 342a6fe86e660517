import RbiProxy.Base64
import RbiProxy.Cfb
import RbiProxy.GoSlice
import RbiProxy.JsonMap

/-!
# The files of the stores

`storage.go` and `encryption.go`. A store is one file: a JSON map with the data
and whether they are encrypted. Encrypted data are padded to whole blocks,
encrypted in feedback mode behind a random vector, and written in Base64 for
URLs without its padding, which the reader puts back from the length.

AES is a parameter, the cipher of each key; `none` in the place of the vector is
a failed read from the random source.

`decrypt_encrypt` composes the inverses of the four codings, and `load_persist`
adds the file.
-/

namespace RbiProxy

namespace Storage

open Base64 Cfb GoSlice Json

/-! ## Encryption -/

inductive Fault where
  /-- `aes.KeySizeError`. -/
  | keySize
  /-- `size calculation overflow or wraparound`. -/
  | overflow
  /-- From the random source. -/
  | rand
  /-- `base64.CorruptInputError`. -/
  | corruptInput
  /-- `blocksize must be multipe of decoded message length`. -/
  | notWhole
  /-- `unpad error. This could happen when incorrect encryption key is used`. -/
  | unpad
deriving DecidableEq

def addBase64Padding (value : GoString) : GoString :=
  let m := value.length % 4
  if m ≠ 0 then value ++ List.replicate (4 - m) padChar else value

def removeBase64Padding (value : GoString) : GoString := removeAll value [padChar]

def pad (src : GoString) : GoString :=
  let padding := blockSize - src.length % blockSize
  src ++ List.replicate padding (UInt8.ofNat padding)

def unpad (src : GoString) : Except (Halt Fault) GoString := do
  let last ← idx src (src.length - 1)
  if src.length < last.toNat then .error (.err .unpad)
  else .ok (src.take (src.length - last.toNat))

def ValidKey (key : GoString) : Prop := key.length = 16 ∨ key.length = 24 ∨ key.length = 32

instance (key : GoString) : Decidable (ValidKey key) :=
  inferInstanceAs (Decidable (_ ∨ _ ∨ _))

section Encryption

variable (aes : GoString → BlockCipher)

def encrypt (rand : Option Block) (key text : GoString) : Except Fault GoString :=
  if ¬ ValidKey key then .error .keySize
  else
    let msg := pad text
    let totalSize := blockSize + msg.length
    if 2 ^ 63 ≤ totalSize then .error .overflow
    else
      match rand with
      | none => .error .rand
      | some iv =>
        let ciphertext := iv.bytes ++ xorKeyStream (aes key) false iv msg
        .ok (removeBase64Padding (encodeURL ciphertext))

/-- The vector of `cipher.NewCFBDecrypter`, which panics for any other length. -/
def toBlock (iv : GoString) : Except (Halt Fault) Block :=
  if h : iv.length = blockSize then .ok ⟨iv, h⟩ else .error .fault

def decrypt (key text : GoString) : Except (Halt Fault) GoString :=
  if ¬ ValidKey key then .error (.err .keySize)
  else
    match decodeURL (addBase64Padding text) with
    | none => .error (.err .corruptInput)
    | some decodedMsg =>
      if decodedMsg.length % blockSize ≠ 0 then .error (.err .notWhole)
      else do
        let iv ← sliceTo decodedMsg blockSize
        let msg ← sliceFrom decodedMsg blockSize
        let iv ← toBlock iv
        unpad (xorKeyStream (aes key) true iv msg)

end Encryption

/-! ## The file -/

structure Store where
  id : GoString
  encrypted : Bool
  encryptionkey : GoString
  data : GoString

abbrev Files := GoMap GoString GoString

section File

variable (aes : GoString → BlockCipher) (baseDir : GoString)

def Store.entries (s : Store) (rand : Option Block) : GoMap GoString GoString :=
  let mm : GoMap GoString GoString := AList.insert (lit "data") s.data ∅
  if s.encrypted then
    let mm := mm.insert (lit "encrypted") (lit "true")
    let encryptedData :=
      match encrypt aes rand s.encryptionkey s.data with
      | .ok encryptedData => encryptedData
      | .error _ => []
    mm.insert (lit "data") encryptedData
  else mm.insert (lit "encrypted") (lit "false")

def Store.persist (s : Store) (rand : Option Block) (files : Files) : Files :=
  files.insert (baseDir ++ s.id) (marshalMap (s.entries aes rand))

/-- `Load`; `none` is a panic. -/
def Store.load (s : Store) (files : Files) : Option Store :=
  match files.lookup (baseDir ++ s.id) with
  | none => some s
  | some data =>
    match if data = [] then some ∅ else unmarshalMap data with
    | none => some s
    | some mm =>
      if mm.get (lit "encrypted") [] = lit "true" then
        match decrypt aes s.encryptionkey (mm.get (lit "data") []) with
        | .ok data => some { s with data := data }
        | .error (.err _) => some { s with data := [] }
        | .error .fault => none
      else some { s with data := mm.get (lit "data") [] }

end File

/-! ## Each coding undone -/

theorem addBase64Padding_eq (value : GoString) :
    addBase64Padding value = value ++ List.replicate (missing value.length) padChar := by
  unfold addBase64Padding missing
  dsimp only
  by_cases h : value.length % 4 = 0
  · rw [if_neg (not_not.mpr h), if_pos h, List.replicate_zero, List.append_nil]
  · rw [if_pos h, if_neg h]

theorem addBase64Padding_removeBase64Padding (s : GoString) :
    addBase64Padding (removeBase64Padding (encodeURL s)) = encodeURL s := by
  obtain ⟨t, ht, hs⟩ := encodeURL_padding s
  have hstripped : removeBase64Padding (encodeURL s) = t := by
    rw [removeBase64Padding, removeAll_byte, hs, List.filter_append, List.filter_replicate,
      List.filter_eq_self.mpr fun c hc => ?_]
    · simp
    · have hne : c ≠ padChar := fun heq => ht (heq ▸ hc)
      simp [hne]
  rw [hstripped, addBase64Padding_eq, hs]

theorem length_pad (src : GoString) : (pad src).length % blockSize = 0 := by
  simp only [pad, List.length_append, List.length_replicate, blockSize]
  omega

theorem unpad_pad (src : GoString) : unpad (pad src) = .ok src := by
  obtain ⟨p, hp, hpos, hle⟩ : ∃ p, p = blockSize - src.length % blockSize ∧ 0 < p ∧ p ≤ 16 :=
    ⟨_, rfl, by rw [blockSize]; omega, by rw [blockSize]; omega⟩
  have hpad : pad src = src ++ List.replicate p (UInt8.ofNat p) := by rw [pad, hp]
  have hlen : (pad src).length = src.length + p := by
    rw [hpad, List.length_append, List.length_replicate]
  have hlast : (pad src)[(pad src).length - 1]? = some (UInt8.ofNat p) := by
    rw [hlen, hpad, List.getElem?_append_right (by omega), List.getElem?_replicate,
      if_pos (by omega)]
  have hbyte : (UInt8.ofNat p).toNat = p := by
    rw [UInt8.toNat_ofNat']
    omega
  have hif : unpad (pad src) = if (pad src).length < (UInt8.ofNat p).toNat
      then .error (.err .unpad)
      else .ok ((pad src).take ((pad src).length - (UInt8.ofNat p).toNat)) := by
    rw [unpad, idx_of_getElem? hlast]
    rfl
  rw [hif, hbyte, if_neg (by omega), hlen, Nat.add_sub_cancel, hpad, List.take_left]

/-- The sizes `encrypt` takes. -/
def Fits (text : GoString) : Prop := blockSize + (pad text).length < 2 ^ 63

section RoundTrip

variable (aes : GoString → BlockCipher)

def sealed (iv : Block) (key text : GoString) : GoString :=
  removeBase64Padding (encodeURL (iv.bytes ++ xorKeyStream (aes key) false iv (pad text)))

theorem encrypt_eq {key text : GoString} (iv : Block) (hkey : ValidKey key) (hsize : Fits text) :
    encrypt aes (some iv) key text = .ok (sealed aes iv key text) := by
  rw [encrypt, if_neg (not_not.mpr hkey)]
  exact if_neg (Nat.not_le.mpr hsize)

theorem decrypt_eq {key text msg : GoString} (iv : Block) (hkey : ValidKey key)
    (hmsg : msg.length % blockSize = 0)
    (hdecode : decodeURL (addBase64Padding text) = some (iv.bytes ++ msg)) :
    decrypt aes key text = unpad (xorKeyStream (aes key) true iv msg) := by
  have hlen : (iv.bytes ++ msg).length = blockSize + msg.length := by
    rw [List.length_append, iv.length_eq]
  have hwhole : (iv.bytes ++ msg).length % blockSize = 0 := by
    rw [hlen, Nat.add_mod_left, hmsg]
  have hle : blockSize ≤ (iv.bytes ++ msg).length := hlen ▸ Nat.le_add_right _ _
  have hblock : toBlock iv.bytes = .ok iv := dif_pos iv.length_eq
  rw [decrypt, if_neg (not_not.mpr hkey), hdecode]
  dsimp only
  rw [if_neg (not_not.mpr hwhole), sliceTo_of_le hle, sliceFrom_of_le hle,
    List.take_left' iv.length_eq, List.drop_left' iv.length_eq]
  simp only [hblock, bind, Except.bind]

/-- **Encryption.** What was encrypted with a valid key is decrypted with it,
whatever its length and whatever the vector. -/
theorem decrypt_sealed {key : GoString} (iv : Block) (hkey : ValidKey key) (text : GoString) :
    decrypt aes key (sealed aes iv key text) = .ok text := by
  have hlen := length_xorKeyStream (aes key) false iv (pad text)
  have hdecode : decodeURL (addBase64Padding (sealed aes iv key text))
      = some (iv.bytes ++ xorKeyStream (aes key) false iv (pad text)) := by
    rw [sealed, addBase64Padding_removeBase64Padding, decodeURL_encodeURL]
  rw [decrypt_eq aes iv hkey (by rw [hlen, length_pad]) hdecode, Cfb.decrypt_encrypt, unpad_pad]

theorem utf8_sealed (iv : Block) (key text : GoString) : Utf8 (sealed aes iv key text) := by
  refine jsonText_of_ascii fun b hb => ?_
  rw [sealed, removeBase64Padding, removeAll_byte] at hb
  exact lt_of_mem_encodeURL (List.mem_of_mem_filter hb)

end RoundTrip

/-! ## The file read back -/

section Reload

variable (aes : GoString → BlockCipher) (baseDir : GoString)

/-- A map of two entries, the one behind the other. -/
def dataMap (data encrypted : GoString) : GoMap GoString GoString :=
  AList.insert (lit "encrypted") encrypted (AList.insert (lit "data") data ∅)

theorem load_marshalMap {s : Store} {files : Files} {mm : GoMap GoString GoString}
    {data encrypted : GoString} (hfile : files.lookup (baseDir ++ s.id) = some (marshalMap mm))
    (hlookup : ∀ k, mm.lookup k = (dataMap data encrypted).lookup k) (hdata : Utf8 data)
    (hencrypted : Utf8 encrypted) :
    s.load aes baseDir files
      = if encrypted = lit "true" then
          match decrypt aes s.encryptionkey data with
          | .ok data => some { s with data := data }
          | .error (.err _) => some { s with data := [] }
          | .error .fault => none
        else some { s with data := data } := by
  have hutf8 : ∀ k v, mm.lookup k = some v → Utf8 k ∧ Utf8 v := by
    intro k v h
    rw [hlookup] at h
    obtain ⟨rfl, rfl⟩ | ⟨-, h⟩ := GoMap.of_lookup_insert h
    · exact ⟨utf8_of_all (by decide), hencrypted⟩
    obtain ⟨rfl, rfl⟩ | ⟨-, h⟩ := GoMap.of_lookup_insert h
    · exact ⟨utf8_of_all (by decide), hdata⟩
    · cases h
  obtain ⟨mm', hread, hsame⟩ := unmarshalMap_marshalMap hutf8
  have hd : mm'.get (lit "data") [] = data := by
    rw [GoMap.get, hsame, hlookup, dataMap, AList.lookup_insert_ne (by decide),
      AList.lookup_insert]
    rfl
  have he : mm'.get (lit "encrypted") [] = encrypted := by
    rw [GoMap.get, hsame, hlookup, dataMap, AList.lookup_insert]
    rfl
  have hne : marshalMap mm ≠ [] := List.cons_ne_nil _ _
  rw [Store.load, hfile]
  dsimp only
  rw [if_neg hne, hread]
  dsimp only
  rw [hd, he]

theorem lookup_entries_plain {s : Store} (rand : Option Block) (h : s.encrypted = false)
    (k : GoString) :
    (s.entries aes rand).lookup k = (dataMap s.data (lit "false")).lookup k := by
  rw [Store.entries, h]
  rfl

/-- The data are written twice, the second time encrypted. -/
theorem lookup_entries_encrypted {s : Store} {iv : Block} (h : s.encrypted = true)
    (hkey : ValidKey s.encryptionkey) (hsize : Fits s.data) (k : GoString) :
    (s.entries aes (some iv)).lookup k
      = (dataMap (sealed aes iv s.encryptionkey s.data) (lit "true")).lookup k := by
  rw [Store.entries, h, if_pos rfl, encrypt_eq aes iv hkey hsize, dataMap]
  dsimp only
  by_cases hd : k = lit "data"
  · rw [hd, AList.lookup_insert, AList.lookup_insert_ne (by decide), AList.lookup_insert]
  · rw [AList.lookup_insert_ne hd]
    by_cases he : k = lit "encrypted"
    · rw [he, AList.lookup_insert, AList.lookup_insert]
    · rw [AList.lookup_insert_ne he, AList.lookup_insert_ne he, AList.lookup_insert_ne hd,
        AList.lookup_insert_ne hd]

/-- **Stores.** For every cipher in the place of AES, every vector and all files:
what a store with a valid key wrote is what a store of its name and key loads,
exactly, if the data are text or they are encrypted; and decryption undoes
encryption for texts of any length. -/
theorem load_persist (iv : Block) (files : Files) {s fresh : Store} (hid : fresh.id = s.id)
    (hsame : fresh.encryptionkey = s.encryptionkey) (hkey : ValidKey s.encryptionkey)
    (hsize : s.encrypted = true → Fits s.data) (hutf8 : s.encrypted = false → Utf8 s.data) :
    fresh.load aes baseDir (s.persist aes baseDir (some iv) files)
        = some { fresh with data := s.data }
      ∧ ∀ text, Fits text → ∃ c, encrypt aes (some iv) s.encryptionkey text = .ok c
          ∧ decrypt aes s.encryptionkey c = .ok text := by
  constructor
  · have hfile : (s.persist aes baseDir (some iv) files).lookup (baseDir ++ fresh.id)
        = some (marshalMap (s.entries aes (some iv))) := by
      rw [Store.persist, hid, AList.lookup_insert]
    cases henc : s.encrypted with
    | false =>
        rw [load_marshalMap aes baseDir hfile (lookup_entries_plain aes (some iv) henc)
          (hutf8 henc) (utf8_of_all (by decide)), if_neg (by decide)]
    | true =>
        rw [load_marshalMap aes baseDir hfile (lookup_entries_encrypted aes henc hkey (hsize henc))
          (utf8_sealed aes iv _ _) (utf8_of_all (by decide)), if_pos rfl, hsame,
          decrypt_sealed aes iv hkey]
  · intro text htext
    exact ⟨sealed aes iv s.encryptionkey text, encrypt_eq aes iv hkey htext,
      decrypt_sealed aes iv hkey text⟩

end Reload

def exampleKey : GoString := (List.range 32).map UInt8.ofNat

def exampleIv : Block := ⟨(List.range 16).map fun n => UInt8.ofNat (17 * n), rfl⟩

/-- AES-256 with that key, on the one block that is encrypted below. -/
def exampleAes (_ : GoString) : BlockCipher where
  encrypt b :=
    if b.bytes = exampleIv.bytes then
      ⟨[0x8e, 0xa2, 0xb7, 0xca, 0x51, 0x67, 0x45, 0xbf, 0xea, 0xfc, 0x49, 0x90, 0x4b, 0x49, 0x60,
        0x89], rfl⟩
    else b

def exampleStore : Store := ⟨lit "GSSettings", true, exampleKey, lit "\x7b\"a\":1\x7d"⟩

def freshStore : Store := ⟨lit "GSSettings", false, exampleKey, []⟩

theorem load_persist_example :
    freshStore.load exampleAes (lit "/srv/")
        (exampleStore.persist exampleAes (lit "/srv/") (some exampleIv) ∅)
      = some { freshStore with data := exampleStore.data } := by
  have hid : freshStore.id = exampleStore.id := rfl
  have hsize : blockSize + (pad exampleStore.data).length < 2 ^ 63 := by decide
  exact (load_persist exampleAes (lit "/srv/") exampleIv ∅ hid rfl (by decide) (fun _ => hsize)
    (fun h => by cases h)).1

end Storage

end RbiProxy
