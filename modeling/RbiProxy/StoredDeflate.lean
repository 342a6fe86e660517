import RbiProxy.GoString

/-!
# Deflate streams of stored blocks

The part of the formats behind the content codings `gzip` and `deflate` that keeps
the data as they are: a deflate stream of stored blocks, which is what an encoder
writes for data that it cannot make shorter, in a gzip member or in a zlib stream.
The readers take every stream of stored blocks; a block that is compressed is an
error. Each reader gives back what the writer was given (`gunzip_gzip`,
`unzlib_zlib`).
-/

namespace RbiProxy

namespace StoredDeflate

/-! ## Checksums -/

/-- One bit of the division by the polynomial of CRC-32. -/
def crcShift (c : UInt32) : UInt32 :=
  if c &&& 1 = 1 then (c >>> 1) ^^^ 0xEDB88320 else c >>> 1

def crc32 (s : GoString) : UInt32 :=
  ~~~ s.foldl (fun c b => crcShift^[8] (c ^^^ b.toUInt32)) 0xFFFFFFFF

def adler32 (s : GoString) : Nat :=
  let (a, b) := s.foldl (fun (a, b) c =>
    let a := (a + c.toNat) % 65521
    (a, (b + a) % 65521)) (1, 0)
  b * 65536 + a

example : crc32 (lit "123456789") = 0xCBF43926 := by decide +kernel

example : adler32 (lit "Wikipedia") = 0x11E60398 := by decide +kernel

/-! ## Blocks -/

/-- A number in two bytes, the lower one first. -/
def put16 (n : Nat) : GoString := [UInt8.ofNat n, UInt8.ofNat (n / 256)]

def get16 (lo hi : UInt8) : Nat := lo.toNat + 256 * hi.toNat

/-- A number in four bytes, the lowest one first. -/
def put32 (n : Nat) : GoString := put16 n ++ put16 (n / 65536)

/-- A stored block that is not the last one. -/
def storedBlock (data : GoString) : GoString :=
  0 :: (put16 data.length ++ put16 (65535 - data.length) ++ data)

def lastBlock : GoString := [1, 0, 0, 0xFF, 0xFF]

def pieces : Nat → GoString → List GoString
  | 0, _ => []
  | n + 1, s => if s = [] then [] else s.take 65535 :: pieces n (s.drop 65535)

def deflate (s : GoString) : GoString := ((pieces s.length s).map storedBlock).flatten ++ lastBlock

/-- Reads blocks until the last one: the data, and what stands behind them. -/
def inflate : Nat → GoString → Option (GoString × GoString)
  | 0, _ => none
  | n + 1, flags :: l0 :: l1 :: n0 :: n1 :: s =>
    let len := get16 l0 l1
    if flags &&& 6 ≠ 0 ∨ get16 n0 n1 + len ≠ 65535 ∨ s.length < len then none
    else if flags &&& 1 = 1 then some (s.take len, s.drop len)
    else (inflate n (s.drop len)).map fun r => (s.take len ++ r.1, r.2)
  | _ + 1, _ => none

/-! ## Containers -/

/-- The header of a gzip member: no flags, no time, an unknown system. -/
def gzipHeader : GoString := [0x1F, 0x8B, 8, 0, 0, 0, 0, 0, 0, 0xFF]

/-- The checksum and the length at the end of a member. -/
def gzipTrailer (s : GoString) : GoString := put32 (crc32 s).toNat ++ put32 s.length

def gzip (s : GoString) : GoString := gzipHeader ++ (deflate s ++ gzipTrailer s)

def gunzip (s : GoString) : Option GoString :=
  if s.take 4 = gzipHeader.take 4 then
    match inflate s.length (s.drop 10) with
    | some (out, rest) => if rest = gzipTrailer out then some out else none
    | none => none
  else none

/-- The checksum of a zlib stream has its highest byte first. -/
def zlibTrailer (s : GoString) : GoString := (put32 (adler32 s)).reverse

def zlib (s : GoString) : GoString := [0x78, 1] ++ (deflate s ++ zlibTrailer s)

def unzlib (s : GoString) : Option GoString :=
  if s.take 2 = [0x78, 1] then
    match inflate s.length (s.drop 2) with
    | some (out, rest) => if rest = zlibTrailer out then some out else none
    | none => none
  else none

/-! ## Reading what was written -/

theorem get16_put16 {n : Nat} (h : n < 65536) :
    get16 (UInt8.ofNat n) (UInt8.ofNat (n / 256)) = n := by
  simp only [get16, UInt8.toNat_ofNat']
  omega

theorem inflate_lastBlock (n : Nat) (rest : GoString) :
    inflate (n + 1) (lastBlock ++ rest) = some ([], rest) := rfl

theorem inflate_storedBlock (n : Nat) {data : GoString} (h : data.length < 65536)
    (rest : GoString) :
    inflate (n + 1) (storedBlock data ++ rest)
      = (inflate n rest).map fun r => (data ++ r.1, r.2) := by
  have hlen := get16_put16 h
  have hcheck := @get16_put16 (65535 - data.length) (by omega)
  have hfits : ¬ ((0 : UInt8) &&& 6 ≠ 0 ∨ 65535 - data.length + data.length ≠ 65535
      ∨ (data ++ rest).length < data.length) := by
    rw [List.length_append]
    rintro (hflags | hsum | hshort)
    · exact hflags rfl
    · omega
    · omega
  change inflate (n + 1) (0 :: UInt8.ofNat data.length :: UInt8.ofNat (data.length / 256)
    :: UInt8.ofNat (65535 - data.length) :: UInt8.ofNat ((65535 - data.length) / 256)
    :: (data ++ rest)) = _
  rw [inflate.eq_2, hlen, hcheck, if_neg hfits, if_neg (by decide), List.take_left,
    List.drop_left]

theorem inflate_pieces (k : Nat) (rest : GoString) :
    ∀ (n : Nat) (s : GoString), s.length ≤ n → n < k →
      inflate k (((pieces n s).map storedBlock).flatten ++ (lastBlock ++ rest))
        = some (s, rest) := by
  intro n
  induction n generalizing k with
  | zero =>
      intro s hs hk
      obtain rfl := List.length_eq_zero_iff.mp (Nat.le_zero.mp hs)
      obtain ⟨k, rfl⟩ := Nat.exists_eq_succ_of_ne_zero (Nat.ne_of_gt hk)
      exact inflate_lastBlock k rest
  | succ n ih =>
      intro s hs hk
      obtain ⟨k, rfl⟩ := Nat.exists_eq_succ_of_ne_zero (Nat.ne_of_gt (Nat.zero_lt_of_lt hk))
      unfold pieces
      split
      · rename_i hnil
        rw [hnil]
        exact inflate_lastBlock k rest
      · rename_i hne
        have hpos := List.length_pos_of_ne_nil hne
        have hdrop : (s.drop 65535).length ≤ n := by
          rw [List.length_drop]
          omega
        have htake : (s.take 65535).length < 65536 := by
          rw [List.length_take]
          omega
        rw [List.map_cons, List.flatten_cons, List.append_assoc, inflate_storedBlock k htake,
          ih k (s.drop 65535) hdrop (by omega), Option.map_some]
        dsimp only
        rw [List.take_append_drop]

theorem inflate_deflate {k : Nat} (s rest : GoString) (hk : s.length < k) :
    inflate k (deflate s ++ rest) = some (s, rest) := by
  rw [deflate, List.append_assoc]
  exact inflate_pieces k rest s.length s le_rfl hk

/-- A block is longer than its data, and so is the stream. -/
theorem length_lt_deflate (s : GoString) : s.length < (deflate s).length := by
  have hpieces : ∀ (n : Nat) (s : GoString), s.length ≤ n →
      s.length ≤ ((pieces n s).map storedBlock).flatten.length := by
    intro n
    induction n with
    | zero => exact fun s hs => hs
    | succ n ih =>
        intro s hs
        unfold pieces
        split
        · rename_i hnil
          rw [hnil]
          exact Nat.zero_le _
        · rename_i hne
          have hpos := List.length_pos_of_ne_nil hne
          have hrest := ih (s.drop 65535) (by rw [List.length_drop]; omega)
          have hblock : (s.take 65535).length ≤ (storedBlock (s.take 65535)).length := by
            rw [storedBlock, List.length_cons, List.length_append]
            omega
          have hsplit : (s.take 65535).length + (s.drop 65535).length = s.length := by
            rw [← List.length_append, List.take_append_drop]
          rw [List.map_cons, List.flatten_cons, List.length_append]
          omega
  have hlast : lastBlock.length = 5 := rfl
  have hall := hpieces s.length s le_rfl
  rw [deflate, List.length_append]
  omega

theorem length_deflate_short {s : GoString} (hne : s ≠ []) (h : s.length ≤ 65535) :
    (deflate s).length = s.length + 10 := by
  have hone : pieces s.length s = [s] := by
    obtain ⟨n, hn⟩ := Nat.exists_eq_succ_of_ne_zero (List.length_pos_of_ne_nil hne).ne'
    rw [hn, pieces, if_neg hne, List.take_of_length_le h, List.drop_of_length_le h]
    cases n with
    | zero => rfl
    | succ n => rfl
  have hblock : (storedBlock s).length = s.length + 5 := by
    simp [storedBlock, put16]
  have hlast : lastBlock.length = 5 := rfl
  rw [deflate, hone, List.length_append, List.map_singleton, List.flatten_singleton, hblock, hlast]

theorem length_zlib_short {s : GoString} (hne : s ≠ []) (h : s.length ≤ 65535) :
    (zlib s).length = s.length + 16 := by
  have htrailer : (zlibTrailer s).length = 4 := by
    rw [zlibTrailer, List.length_reverse]
    rfl
  have hdeflate := length_deflate_short hne h
  rw [zlib, List.length_append, List.length_append, hdeflate, htrailer, List.length_cons,
    List.length_singleton]
  omega

theorem length_lt_gzip (s : GoString) : s.length < (gzip s).length := by
  have h := length_lt_deflate s
  simp only [gzip, List.length_append]
  omega

theorem length_lt_zlib (s : GoString) : s.length < (zlib s).length := by
  have h := length_lt_deflate s
  simp only [zlib, List.length_append]
  omega

theorem gunzip_gzip (s : GoString) : gunzip (gzip s) = some s := by
  have hdrop : (gzip s).drop 10 = deflate s ++ gzipTrailer s := rfl
  have htake : (gzip s).take 4 = gzipHeader.take 4 := rfl
  unfold gunzip
  rw [if_pos htake, hdrop, inflate_deflate s _ (length_lt_gzip s)]
  exact if_pos rfl

theorem unzlib_zlib (s : GoString) : unzlib (zlib s) = some s := by
  have hdrop : (zlib s).drop 2 = deflate s ++ zlibTrailer s := rfl
  have htake : (zlib s).take 2 = [0x78, 1] := rfl
  unfold unzlib
  rw [if_pos htake, hdrop, inflate_deflate s _ (length_lt_zlib s)]
  exact if_pos rfl

end StoredDeflate

end RbiProxy
