import RbiProxy.Storage

/-!
# Loading any file

`Load` of a file with any content, with any key. Of the stages of `decrypt` two
assume a length: the vector is cut off what was decoded, and `Unpad` reads the
last byte of the rest. The check for whole blocks passes nothing at all and the
vector alone, and for these one of the two is out of range.

`decrypt_fault_iff` says for which texts, and `load_total_iff` for which files;
among the files that `Persist` writes these are the ones after a failed
encryption, whose data are empty.
-/

namespace RbiProxy

namespace Storage

open Base64 Cfb GoSlice Json

/-! ## The texts that fault -/

/-- The text decodes to less than the vector and one more block, in whole
blocks. -/
def Short (text : GoString) : Prop :=
  ∃ msg, decodeURL (addBase64Padding text) = some msg ∧ msg.length % blockSize = 0
    ∧ msg.length < 2 * blockSize

theorem short_nil : Short [] := ⟨[], by decide, by decide, by decide⟩

theorem unpad_fault_iff (src : GoString) : unpad src = .error .fault ↔ src = [] := by
  cases hsrc : src[src.length - 1]? with
  | none =>
      have hle := List.getElem?_eq_none_iff.mp hsrc
      have hnil : src = [] := List.eq_nil_iff_length_eq_zero.mpr (by omega)
      subst hnil
      exact iff_of_true rfl rfl
  | some last =>
      have hne : src ≠ [] := by
        rintro rfl
        cases hsrc
      have hunpad : unpad src = if src.length < last.toNat then .error (.err .unpad)
          else .ok (src.take (src.length - last.toNat)) := by
        rw [unpad, idx_of_getElem? hsrc]
        rfl
      refine iff_of_false ?_ hne
      rw [hunpad]
      split
      · intro h
        cases h
      · intro h
        cases h

section Decrypt

variable (aes : GoString → BlockCipher)

theorem decrypt_decoded {key text msg : GoString} (hkey : ValidKey key)
    (hdecode : decodeURL (addBase64Padding text) = some msg) (hwhole : msg.length % blockSize = 0) :
    decrypt aes key text = .error .fault ↔ msg.length < 2 * blockSize := by
  by_cases hlen : blockSize ≤ msg.length
  · obtain ⟨iv, hiv⟩ : ∃ iv : Block, iv.bytes = msg.take blockSize :=
      ⟨⟨msg.take blockSize, List.length_take_of_le hlen⟩, rfl⟩
    have hmsg : msg = iv.bytes ++ msg.drop blockSize := by
      rw [hiv, List.take_append_drop]
    have hrest : (msg.drop blockSize).length = msg.length - blockSize := List.length_drop
    rw [hmsg] at hdecode
    rw [decrypt_eq aes iv hkey (by rw [hrest, blockSize] at *; omega) hdecode, unpad_fault_iff,
      ← List.length_eq_zero_iff, length_xorKeyStream, hrest]
    rw [blockSize] at *
    omega
  · refine iff_of_true ?_ (by omega)
    have hslice : sliceTo msg blockSize = (.error .fault : Except (Halt Fault) GoString) :=
      if_neg hlen
    rw [decrypt, if_neg (not_not.mpr hkey), hdecode]
    dsimp only
    rw [if_neg (not_not.mpr hwhole), hslice]
    rfl

/-- **Decryption.** The one fault is for a valid key and a text that decodes to
nothing or to the vector alone. -/
theorem decrypt_fault_iff (key text : GoString) :
    decrypt aes key text = .error .fault ↔ ValidKey key ∧ Short text := by
  by_cases hkey : ValidKey key
  · rw [and_iff_right hkey]
    cases hdecode : decodeURL (addBase64Padding text) with
    | none =>
        have herr : decrypt aes key text = .error (.err .corruptInput) := by
          rw [decrypt, if_neg (not_not.mpr hkey), hdecode]
        rw [herr]
        refine iff_of_false (fun h => by cases h) ?_
        rintro ⟨msg, hsome, -⟩
        rw [hdecode] at hsome
        cases hsome
    | some msg =>
        by_cases hwhole : msg.length % blockSize = 0
        · rw [decrypt_decoded aes hkey hdecode hwhole]
          constructor
          · exact fun hlt => ⟨msg, hdecode, hwhole, hlt⟩
          · rintro ⟨msg', hsome, -, hlt⟩
            rw [hdecode] at hsome
            obtain rfl := Option.some.inj hsome
            exact hlt
        · have herr : decrypt aes key text = .error (.err .notWhole) := by
            rw [decrypt, if_neg (not_not.mpr hkey), hdecode]
            exact if_pos hwhole
          rw [herr]
          refine iff_of_false (fun h => by cases h) ?_
          rintro ⟨msg', hsome, hwhole', -⟩
          rw [hdecode] at hsome
          obtain rfl := Option.some.inj hsome
          exact hwhole hwhole'
  · have herr : decrypt aes key text = .error (.err .keySize) := by
      rw [decrypt, if_pos hkey]
    rw [herr]
    exact iff_of_false (fun h => by cases h) fun h => hkey h.1

/-- What `encrypt` returns has the vector and a block at least. -/
theorem not_short_sealed (iv : Block) (key text : GoString) : ¬ Short (sealed aes iv key text) := by
  rintro ⟨msg, hdecode, -, hlt⟩
  rw [sealed, addBase64Padding_removeBase64Padding, decodeURL_encodeURL] at hdecode
  obtain rfl := Option.some.inj hdecode
  rw [List.length_append, iv.length_eq, length_xorKeyStream, pad, List.length_append,
    List.length_replicate, blockSize] at hlt
  omega

end Decrypt

/-! ## The files that fault -/

section File

variable (aes : GoString → BlockCipher) (baseDir : GoString)

/-- The map that `Load` reads, if there is a file and it can be read. -/
def Store.fileMap (s : Store) (files : Files) : Option (GoMap GoString GoString) :=
  match files.lookup (baseDir ++ s.id) with
  | none => none
  | some data => if data = [] then some ∅ else unmarshalMap data

theorem load_eq (s : Store) (files : Files) :
    s.load aes baseDir files =
      match s.fileMap baseDir files with
      | none => some s
      | some mm =>
        if mm.get (lit "encrypted") [] = lit "true" then
          match decrypt aes s.encryptionkey (mm.get (lit "data") []) with
          | .ok data => some { s with data := data }
          | .error (.err _) => some { s with data := [] }
          | .error .fault => none
        else some { s with data := mm.get (lit "data") [] } := by
  unfold Store.load Store.fileMap
  cases files.lookup (baseDir ++ s.id) with
  | none => rfl
  | some data => rfl

/-- The file says that it is encrypted, and its data are short. -/
def Store.Damaged (s : Store) (files : Files) : Prop :=
  ∃ mm, s.fileMap baseDir files = some mm ∧ mm.get (lit "encrypted") [] = lit "true"
    ∧ Short (mm.get (lit "data") [])

theorem load_isSome_iff (s : Store) (files : Files) :
    (s.load aes baseDir files).isSome = true
      ↔ ¬ (ValidKey s.encryptionkey ∧ s.Damaged baseDir files) := by
  rw [load_eq]
  cases hmap : s.fileMap baseDir files with
  | none =>
      refine iff_of_true rfl ?_
      rintro ⟨-, mm, hsome, -⟩
      rw [hmap] at hsome
      cases hsome
  | some mm =>
      have hdamaged : s.Damaged baseDir files ↔ mm.get (lit "encrypted") [] = lit "true"
          ∧ Short (mm.get (lit "data") []) := by
        rw [Store.Damaged, hmap]
        simp
      rw [hdamaged]
      dsimp only
      by_cases henc : mm.get (lit "encrypted") [] = lit "true"
      · have hfault := decrypt_fault_iff aes s.encryptionkey (mm.get (lit "data") [])
        rw [if_pos henc, and_iff_right henc, ← hfault]
        cases decrypt aes s.encryptionkey (mm.get (lit "data") []) with
        | ok data => simp
        | error e =>
            cases e with
            | err e => simp
            | fault => simp
      · rw [if_neg henc]
        exact iff_of_true rfl fun h => henc h.2.1

/-! ## The files that `Persist` writes -/

def SealFails (rand : Option Block) (key text : GoString) : Prop :=
  ¬ ValidKey key ∨ ¬ Fits text ∨ rand = none

/-- The data in the file of an encrypted store. -/
def written (rand : Option Block) (key text : GoString) : GoString :=
  match encrypt aes rand key text with
  | .ok encryptedData => encryptedData
  | .error _ => []

theorem short_written_iff (rand : Option Block) (key text : GoString) :
    Utf8 (written aes rand key text)
      ∧ (Short (written aes rand key text) ↔ SealFails rand key text) := by
  have hempty : Utf8 [] ∧ Short [] := ⟨utf8_of_all (by decide), short_nil⟩
  by_cases hkey : ValidKey key
  · by_cases hfits : Fits text
    · cases rand with
      | none =>
          have hwritten : written aes none key text = [] := by
            rw [written, encrypt, if_neg (not_not.mpr hkey)]
            dsimp only
            rw [if_neg (Nat.not_le.mpr hfits)]
          rw [hwritten]
          exact ⟨hempty.1, iff_of_true hempty.2 (.inr (.inr rfl))⟩
      | some iv =>
          have hwritten : written aes (some iv) key text = sealed aes iv key text := by
            rw [written, encrypt_eq aes iv hkey hfits]
          rw [hwritten]
          refine ⟨utf8_sealed aes iv key text, iff_of_false (not_short_sealed aes iv key text) ?_⟩
          rintro (h | h | h)
          · exact h hkey
          · exact h hfits
          · cases h
    · have hwritten : written aes rand key text = [] := by
        rw [written, encrypt, if_neg (not_not.mpr hkey)]
        dsimp only
        rw [if_pos (Nat.not_lt.mp hfits)]
      rw [hwritten]
      exact ⟨hempty.1, iff_of_true hempty.2 (.inr (.inl hfits))⟩
  · have hwritten : written aes rand key text = [] := by
      rw [written, encrypt, if_pos hkey]
    rw [hwritten]
    exact ⟨hempty.1, iff_of_true hempty.2 (.inl hkey)⟩

theorem get_entries (s : Store) (rand : Option Block) :
    ∃ mm, unmarshalMap (marshalMap (s.entries aes rand)) = some mm
      ∧ mm.get (lit "encrypted") [] = (if s.encrypted then lit "true" else lit "false")
      ∧ (s.encrypted = true →
          mm.get (lit "data") [] = written aes rand s.encryptionkey s.data) := by
  have hkeys : ∀ k v, (s.entries aes rand).lookup k = some v → Utf8 k := by
    intro k v h
    have hmem : k = lit "data" ∨ k = lit "encrypted" := by
      cases henc : s.encrypted with
      | false =>
          rw [Store.entries, henc] at h
          obtain ⟨rfl, -⟩ | ⟨-, h⟩ := GoMap.of_lookup_insert h
          · exact .inr rfl
          obtain ⟨rfl, -⟩ | ⟨-, h⟩ := GoMap.of_lookup_insert h
          · exact .inl rfl
          · cases h
      | true =>
          rw [Store.entries, henc] at h
          obtain ⟨rfl, -⟩ | ⟨-, h⟩ := GoMap.of_lookup_insert h
          · exact .inl rfl
          obtain ⟨rfl, -⟩ | ⟨-, h⟩ := GoMap.of_lookup_insert h
          · exact .inr rfl
          obtain ⟨rfl, -⟩ | ⟨-, h⟩ := GoMap.of_lookup_insert h
          · exact .inl rfl
          · cases h
    rcases hmem with rfl | rfl
    · exact utf8_of_all (by decide)
    · exact utf8_of_all (by decide)
  obtain ⟨mm, hread, hlookup⟩ := unmarshalMap_of_keys hkeys
  refine ⟨mm, hread, ?_, fun henc => ?_⟩
  · rw [GoMap.get, hlookup]
    cases henc : s.encrypted with
    | false =>
        rw [Store.entries, henc, if_neg (by decide), AList.lookup_insert]
        exact utf8_of_all (by decide)
    | true =>
        rw [Store.entries, henc, if_pos rfl]
        dsimp only
        rw [AList.lookup_insert_ne (by decide), AList.lookup_insert]
        exact utf8_of_all (by decide)
  · rw [GoMap.get, hlookup, Store.entries, henc, if_pos rfl]
    dsimp only
    rw [AList.lookup_insert]
    exact (short_written_iff aes rand s.encryptionkey s.data).1

theorem damaged_persist_iff {s writer : Store} (hid : s.id = writer.id) (rand : Option Block)
    (files : Files) :
    s.Damaged baseDir (writer.persist aes baseDir rand files)
      ↔ writer.encrypted = true ∧ SealFails rand writer.encryptionkey writer.data := by
  obtain ⟨mm, hread, henc, hdata⟩ := get_entries aes writer rand
  have hmap : s.fileMap baseDir (writer.persist aes baseDir rand files) = some mm := by
    have hne : marshalMap (writer.entries aes rand) ≠ [] := List.cons_ne_nil _ _
    rw [Store.fileMap, Store.persist, hid, AList.lookup_insert]
    dsimp only
    rw [if_neg hne, hread]
  have hdamaged : s.Damaged baseDir (writer.persist aes baseDir rand files)
      ↔ mm.get (lit "encrypted") [] = lit "true" ∧ Short (mm.get (lit "data") []) := by
    rw [Store.Damaged, hmap]
    simp
  rw [hdamaged, henc]
  cases hw : writer.encrypted with
  | false => exact iff_of_false (fun h => absurd h.1 (by decide)) fun h => by cases h.1
  | true =>
      rw [hdata hw, (short_written_iff aes rand writer.encryptionkey writer.data).2]
      simp

/-- **Loading.** For every cipher in the place of AES, every key and all files:
`decrypt` returns bytes or an error exactly for the texts that are not short or
with a key that is not valid, and `Load` returns exactly if that holds of the
data of an encrypted file. Of the files that `Persist` writes, those are the ones
of an encrypted store whose encryption failed. -/
theorem load_total_iff (s : Store) (files : Files) :
    (∀ text, (decrypt aes s.encryptionkey text ≠ .error .fault)
        ↔ ¬ (ValidKey s.encryptionkey ∧ Short text))
      ∧ ((s.load aes baseDir files).isSome = true
        ↔ ¬ (ValidKey s.encryptionkey ∧ s.Damaged baseDir files))
      ∧ ∀ (writer : Store) (rand : Option Block), s.id = writer.id →
        ((s.load aes baseDir (writer.persist aes baseDir rand files)).isSome = true
          ↔ ¬ (ValidKey s.encryptionkey ∧ writer.encrypted = true
            ∧ SealFails rand writer.encryptionkey writer.data)) := by
  refine ⟨fun text => ?_, load_isSome_iff aes baseDir s files, fun writer rand hid => ?_⟩
  · rw [ne_eq, decrypt_fault_iff]
  · rw [load_isSome_iff, damaged_persist_iff aes baseDir hid]

end File

/-- The file of a store whose vector could not be read is loaded with a panic. -/
theorem load_total_example :
    ¬ ((freshStore.load exampleAes (lit "/srv/")
      (exampleStore.persist exampleAes (lit "/srv/") none ∅)).isSome = true) := by
  have hid : freshStore.id = exampleStore.id := rfl
  have hload := (load_total_iff exampleAes (lit "/srv/") freshStore ∅).2.2 exampleStore none hid
  rw [hload, not_not]
  exact ⟨by decide, rfl, .inr (.inr rfl)⟩

def emptyFile : GoString := lit "\x7b\"data\":\"\",\"encrypted\":\"true\"\x7d"

theorem empty_data_panics :
    ¬ ∀ (s : Store) (files : Files), (s.load exampleAes (lit "/srv/") files).isSome = true := by
  intro h
  have hload := h freshStore (AList.singleton (lit "/srv/GSSettings") emptyFile)
  revert hload
  decide +kernel

end Storage

end RbiProxy
