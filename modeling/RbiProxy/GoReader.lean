import RbiProxy.GoConn

/-!
# Readers

An `io.Reader` as a state with a `Read` (`Reader`). Each reader says which
bytes are still to come, and its laws relate the two: a read takes its bytes
from the front, an error means that nothing is left, and a read into a buffer
that is not empty makes progress. Connections are readers, and so is a
`bufio.Reader` over one.

From the laws: however a reader is read, what comes out is what was to come
(`Reader.yields`); `io.Copy` writes all of it (`Reader.copy_flatten`); and the
lines of a head are taken from a `bufio.Reader` without a byte of what follows
(`readHead_of_isHead`).
-/

namespace RbiProxy

/-! ## The laws of `Read` -/

/-- An `io.Reader`, with the bytes it still has to give. -/
structure Reader (σ : Type) where
  read : σ → Nat → GoString × Option ReadErr × σ
  bytes : σ → GoString
  keeps : ∀ s n, (read s n).1 ++ bytes (read s n).2.2 = bytes s
  ends : ∀ s n, (read s n).2.1 ≠ none → bytes s = []
  moves : ∀ s n, 0 < n → (read s n).2.1 = none → (read s n).1 ≠ []

namespace Reader

variable {σ : Type} (R : Reader σ)

/-- A read that ends in an error gives nothing. -/
theorem read_of_error {s : σ} {n : Nat} (h : (R.read s n).2.1 ≠ none) :
    (R.read s n).1 = [] ∧ R.bytes (R.read s n).2.2 = [] := by
  have hkeeps := R.keeps s n
  rw [R.ends s n h] at hkeeps
  exact List.append_eq_nil_iff.mp hkeeps

/-- Calls of `Read` with the given sizes, one after the other, whatever they
return. -/
def reads : List Nat → σ → List GoString × σ
  | [], s => ([], s)
  | n :: ns, s =>
    ((R.read s n).1 :: (reads ns (R.read s n).2.2).1, (reads ns (R.read s n).2.2).2)

theorem reads_keeps (ns : List Nat) (s : σ) :
    (R.reads ns s).1.flatten ++ R.bytes (R.reads ns s).2 = R.bytes s := by
  induction ns generalizing s with
  | nil => rfl
  | cons n ns ih =>
      simp only [reads, List.flatten_cons, List.append_assoc, ih]
      exact R.keeps s n

/-- Every read into a buffer gets a byte while there is one. -/
theorem length_le_of_reads (ns : List Nat) (s : σ) (hpos : ∀ n ∈ ns, 0 < n) :
    (R.bytes (R.reads ns s).2).length ≤ (R.bytes s).length - ns.length := by
  induction ns generalizing s with
  | nil => exact Nat.le_refl _
  | cons n ns ih =>
      have hrest := ih (R.read s n).2.2 fun m hm => hpos m (List.mem_cons_of_mem n hm)
      have hkeeps := congrArg List.length (R.keeps s n)
      rw [List.length_append] at hkeeps
      simp only [reads, List.length_cons]
      by_cases herr : (R.read s n).2.1 = none
      · have hgot := List.length_pos_iff.mpr
          (R.moves s n (hpos n (List.mem_cons_self ..)) herr)
        omega
      · have hend := (R.read_of_error herr).2
        rw [hend, List.length_nil] at hrest
        omega

/-- Reading from `s` gives `stream`: any calls of `Read` give a beginning of
it, enough of them all of it, and an error comes only behind all of it. -/
structure Yields (s : σ) (stream : GoString) : Prop where
  front : ∀ ns, (R.reads ns s).1.flatten <+: stream
  enough : ∀ ns, (∀ n ∈ ns, 0 < n) → stream.length ≤ ns.length →
    (R.reads ns s).1.flatten = stream
  behind : ∀ ns n, (R.read (R.reads ns s).2 n).2.1 ≠ none → (R.reads ns s).1.flatten = stream

theorem yields (s : σ) : R.Yields s (R.bytes s) := by
  refine ⟨fun ns => ⟨_, R.reads_keeps ns s⟩, fun ns hpos hlen => ?_, fun ns n herr => ?_⟩
  · have hle := R.length_le_of_reads ns s hpos
    rw [Nat.sub_eq_zero_of_le hlen, Nat.le_zero, List.length_eq_zero_iff] at hle
    simpa [hle] using R.reads_keeps ns s
  · simpa [R.ends _ n herr] using R.reads_keeps ns s

/-! ## `io.Copy` -/

/-- The loop of `io.Copy` with a buffer of `size` bytes: what it writes. -/
def copyFrom (size : Nat) : Nat → σ → List GoString
  | 0, _ => []
  | fuel + 1, s =>
    (if (R.read s size).1 = [] then [] else [(R.read s size).1])
      ++ (if (R.read s size).2.1 = none then copyFrom size fuel (R.read s size).2.2 else [])

theorem copyFrom_flatten {size : Nat} (hsize : 0 < size) (fuel : Nat) (s : σ)
    (hfuel : (R.bytes s).length < fuel) : (R.copyFrom size fuel s).flatten = R.bytes s := by
  induction fuel generalizing s with
  | zero => exact absurd hfuel (Nat.not_lt_zero _)
  | succ fuel ih =>
      have hkeeps := R.keeps s size
      simp only [copyFrom]
      by_cases herr : (R.read s size).2.1 = none
      · have hgot := R.moves s size hsize herr
        have hlen := congrArg List.length hkeeps
        rw [List.length_append] at hlen
        have hpos := List.length_pos_iff.mpr hgot
        rw [if_neg hgot, if_pos herr, List.flatten_append, ih _ (by omega)]
        simpa using hkeeps
      · obtain ⟨hgot, -⟩ := R.read_of_error herr
        rw [if_pos hgot, if_neg herr, R.ends s size herr]
        rfl

/-- `io.Copy`, with its buffer of 32 KB. -/
def copy (s : σ) : List GoString := R.copyFrom 32768 ((R.bytes s).length + 1) s

theorem copy_flatten (s : σ) : (R.copy s).flatten = R.bytes s :=
  R.copyFrom_flatten (by decide) _ s (Nat.lt_succ_self _)

end Reader

/-! ## Connections -/

namespace Conn

/-- One `Read` of up to `n` bytes on the chunks. A socket does not return
without a byte or an error. -/
def readChunk (n : Nat) : List GoString → GoString × List GoString
  | [] => ([], [])
  | c :: cs =>
    if c = [] then readChunk n cs
    else (c.take n, if c.drop n = [] then cs else c.drop n :: cs)

def read (c : Conn) (n : Nat) : GoString × Option ReadErr × Conn :=
  if c.bytes = [] ∧ n ≠ 0 then ([], some c.fin, c)
  else ((readChunk n c.chunks).1, none, { c with chunks := (readChunk n c.chunks).2 })

theorem readChunk_keeps (n : Nat) (cs : List GoString) :
    (readChunk n cs).1 ++ (readChunk n cs).2.flatten = cs.flatten := by
  induction cs with
  | nil => rfl
  | cons c cs ih =>
      unfold readChunk
      split
      · rename_i hc
        simpa [hc] using ih
      · split
        · rename_i hdrop
          have htake : c.take n = c := by simpa [hdrop] using List.take_append_drop n c
          rw [htake]
          rfl
        · simp [← List.append_assoc, List.take_append_drop]

theorem readChunk_ne_nil {n : Nat} (hn : 0 < n) {cs : List GoString} (h : cs.flatten ≠ []) :
    (readChunk n cs).1 ≠ [] := by
  induction cs with
  | nil => exact absurd rfl h
  | cons c cs ih =>
      unfold readChunk
      split
      · rename_i hc
        exact ih (by simpa [hc] using h)
      · rename_i hc
        simpa [List.take_eq_nil_iff, Nat.pos_iff_ne_zero.mp hn] using hc

/-- A connection is a reader. -/
def reader : Reader Conn where
  read := read
  bytes := bytes
  keeps c n := by
    unfold read
    split
    · rfl
    · exact readChunk_keeps n c.chunks
  ends c n h := by
    unfold read at h
    split at h
    · rename_i hend
      exact hend.1
    · exact absurd rfl h
  moves c n hn h := by
    unfold read at h ⊢
    split at h
    · cases h
    · rename_i hend
      rw [if_neg hend]
      have hbytes : c.bytes ≠ [] := fun hnil => hend ⟨hnil, hn.ne'⟩
      exact readChunk_ne_nil hn hbytes

end Conn

/-! ## `bufio.Reader` -/

/-- `bufio.Reader` over a reader: the part of the buffer that is not read
yet, and what is behind it. -/
structure BufReader (σ : Type) where
  buffered : GoString
  conn : σ

namespace BufReader

variable {σ : Type}

def size : Nat := 4096

section Read

variable (R : Reader σ)

def read (b : BufReader σ) (n : Nat) : GoString × Option ReadErr × BufReader σ :=
  if n = 0 then ([], none, b)
  else if b.buffered ≠ [] then (b.buffered.take n, none, { b with buffered := b.buffered.drop n })
  else if size ≤ n then
    let (got, err, conn) := R.read b.conn n
    (got, err, { b with conn := conn })
  else
    let (got, err, conn) := R.read b.conn size
    if got = [] then ([], err, { b with conn := conn }) else (got.take n, none, ⟨got.drop n, conn⟩)

/-- What is still to be read: the buffer first. -/
def bytes (b : BufReader σ) : GoString := b.buffered ++ R.bytes b.conn

theorem bytes_of_empty {b : BufReader σ} (h : ¬ 0 < b.buffered.length) :
    b.bytes R = R.bytes b.conn := by
  have hnil : b.buffered = [] := by simpa using h
  rw [bytes, hnil, List.nil_append]

/-- A `bufio.Reader` is a reader. -/
def reader : Reader (BufReader σ) where
  read := read R
  bytes := bytes R
  keeps b n := by
    unfold read bytes
    split
    · rfl
    split
    · simp [← List.append_assoc, List.take_append_drop]
    · rename_i hempty
      rw [not_not] at hempty
      split
      · simpa [hempty] using R.keeps b.conn n
      · have hkeeps := R.keeps b.conn size
        simp only
        split
        · rename_i hgot
          simpa [hempty, hgot] using hkeeps
        · simpa [hempty, ← List.append_assoc, List.take_append_drop] using hkeeps
  ends b n h := by
    unfold read at h
    split at h
    · exact absurd rfl h
    split at h
    · exact absurd rfl h
    · rename_i hempty
      rw [not_not] at hempty
      have hend : R.bytes b.conn = [] := by
        split at h
        · exact R.ends b.conn n h
        · simp only at h
          split at h
          · exact R.ends b.conn size h
          · exact absurd rfl h
      rw [bytes, hempty, hend]
      rfl
  moves b n hn h := by
    unfold read at h ⊢
    rw [if_neg hn.ne'] at h ⊢
    have htake : ∀ {l : GoString}, l ≠ [] → l.take n ≠ [] := fun hl => by
      simpa [List.take_eq_nil_iff, hn.ne'] using hl
    split at h
    · rename_i hbuf
      rw [if_pos hbuf]
      exact htake hbuf
    · rename_i hempty
      rw [if_neg hempty]
      split at h
      · rename_i hlarge
        rw [if_pos hlarge]
        exact R.moves b.conn n hn h
      · rename_i hlarge
        rw [if_neg hlarge]
        simp only at h ⊢
        split at h
        · rename_i hgot
          exact absurd hgot (R.moves b.conn size (by decide) h)
        · rename_i hgot
          rw [if_neg hgot]
          exact htake hgot

end Read

/-! ## Lines and heads -/

def IsLine (line : GoString) : Prop := ∃ l, (10 : UInt8) ∉ l ∧ line = l ++ [10]

section Lines

variable (R : Reader σ)

/-- `ReadLine` behind the parts it has already returned. A line longer than
the buffer comes in parts. -/
def readLineFrom : Nat → GoString → BufReader σ → Option (GoString × BufReader σ)
  | 0, _, _ => none
  | fuel + 1, line, b =>
    match b.buffered.dropWhile (· != 10) with
    | _ :: rest =>
      some (line ++ b.buffered.takeWhile (· != 10) ++ [10], { b with buffered := rest })
    | [] =>
      if size ≤ b.buffered.length then
        readLineFrom fuel (line ++ b.buffered) { b with buffered := [] }
      else
        match R.read b.conn (size - b.buffered.length) with
        | (got, none, conn) => readLineFrom fuel line ⟨b.buffered ++ got, conn⟩
        | (_, some _, _) => none

/-- A whole line with its end, unless the stream ends in it. Every round
reads a byte, or comes after one that did. -/
def readLine (b : BufReader σ) : Option (GoString × BufReader σ) :=
  readLineFrom R (2 * (R.bytes b.conn).length + 2) [] b

def blank (line : GoString) : Bool := line == [10] || line == [13, 10]

/-- The lines of a head, with the empty one behind them. -/
def readHeadFrom : Nat → BufReader σ → Option (List GoString × BufReader σ)
  | 0, _ => none
  | fuel + 1, b =>
    match b.readLine R with
    | none => none
    | some (line, b) =>
      if blank line then some ([line], b)
      else (readHeadFrom fuel b).map fun (lines, b) => (line :: lines, b)

def readHead (b : BufReader σ) : Option (List GoString × BufReader σ) :=
  readHeadFrom R ((b.bytes R).length + 1) b

/-- The shape of a head: lines, of which the last and no other is empty. -/
def IsHead : List GoString → Prop
  | [] => False
  | line :: lines => IsLine line ∧ if blank line then lines = [] else IsHead lines

theorem dropWhile_line {l : GoString} (hl : (10 : UInt8) ∉ l) (t : GoString) :
    (l ++ t).takeWhile (· != 10) = l ++ t.takeWhile (· != 10)
      ∧ (l ++ t).dropWhile (· != 10) = t.dropWhile (· != 10) := by
  have hall : ∀ b ∈ l, (b != 10) = true := fun b hb => by
    simpa using fun heq : b = 10 => hl (heq ▸ hb)
  exact ⟨List.takeWhile_append_of_pos hall, List.dropWhile_append_of_pos hall⟩

/-- The first end of a line is in one place only. -/
theorem line_inj {x y l rest : GoString} (hx : (10 : UInt8) ∉ x) (hl : (10 : UInt8) ∉ l)
    (h : x ++ 10 :: y = l ++ 10 :: rest) : x = l ∧ y = rest := by
  have htake := congrArg (List.takeWhile (· != 10)) h
  rw [(dropWhile_line hx _).1, (dropWhile_line hl _).1] at htake
  obtain rfl : x = l := by simpa using htake
  exact ⟨rfl, (List.cons.inj (List.append_cancel_left h)).2⟩

/-! The four ways of a round of `readLineFrom`. -/

theorem readLineFrom_line {b : BufReader σ} {x y : GoString} (hx : (10 : UInt8) ∉ x)
    (hb : b.buffered = x ++ 10 :: y) (fuel : Nat) (line : GoString) :
    readLineFrom R (fuel + 1) line b
      = some (line ++ x ++ [10], { b with buffered := y }) := by
  have htake : b.buffered.takeWhile (· != 10) = x := by
    rw [hb, (dropWhile_line hx _).1]
    simp
  have hdrop : b.buffered.dropWhile (· != 10) = 10 :: y := by
    rw [hb, (dropWhile_line hx _).2]
    simp
  rw [readLineFrom, hdrop, htake]

theorem dropWhile_of_notMem {l : GoString} (hl : (10 : UInt8) ∉ l) :
    l.dropWhile (· != 10) = [] := by
  simpa using (dropWhile_line hl []).2

theorem readLineFrom_part {b : BufReader σ} (hb : (10 : UInt8) ∉ b.buffered)
    (hfull : size ≤ b.buffered.length) (fuel : Nat) (line : GoString) :
    readLineFrom R (fuel + 1) line b
      = readLineFrom R fuel (line ++ b.buffered) { b with buffered := [] } := by
  rw [readLineFrom, dropWhile_of_notMem hb]
  exact if_pos hfull

theorem readLineFrom_fill {b : BufReader σ} (hb : (10 : UInt8) ∉ b.buffered)
    (hfull : ¬ size ≤ b.buffered.length)
    (herr : (R.read b.conn (size - b.buffered.length)).2.1 = none) (fuel : Nat)
    (line : GoString) :
    readLineFrom R (fuel + 1) line b = readLineFrom R fuel line
      ⟨b.buffered ++ (R.read b.conn (size - b.buffered.length)).1,
        (R.read b.conn (size - b.buffered.length)).2.2⟩ := by
  rw [readLineFrom, dropWhile_of_notMem hb]
  dsimp only
  rw [if_neg hfull]
  split
  · rename_i got conn hread
    rw [hread]
  · rename_i got err conn hread
    rw [hread] at herr
    cases herr

theorem readLineFrom_end {b : BufReader σ} (hb : (10 : UInt8) ∉ b.buffered)
    (hfull : ¬ size ≤ b.buffered.length)
    (herr : (R.read b.conn (size - b.buffered.length)).2.1 ≠ none) (fuel : Nat)
    (line : GoString) : readLineFrom R (fuel + 1) line b = none := by
  rw [readLineFrom, dropWhile_of_notMem hb]
  dsimp only
  rw [if_neg hfull]
  split
  · rename_i got conn hread
    rw [hread] at herr
    exact absurd rfl herr
  · rfl

/-- A buffer has an end of a line, and then a first one, or none. -/
theorem line_cases (s : GoString) :
    (∃ x y, (10 : UInt8) ∉ x ∧ s = x ++ 10 :: y) ∨ (10 : UInt8) ∉ s := by
  by_cases h : (10 : UInt8) ∈ s
  · obtain ⟨x, y, hs, hx⟩ := List.eq_append_cons_of_mem h
    exact .inl ⟨x, y, hx, hs⟩
  · exact .inr h

/-- What a line keeps of its stream when the buffer has only its beginning. -/
theorem rest_of_line {buffered conn l rest : GoString} (hb : (10 : UInt8) ∉ buffered)
    (h : buffered ++ conn = l ++ 10 :: rest) :
    ∃ l', l = buffered ++ l' ∧ conn = l' ++ 10 :: rest := by
  rcases List.append_eq_append_iff.mp h with ⟨l', hl, hconn⟩ | ⟨c, hbuf, hrest⟩
  · exact ⟨l', hl, hconn⟩
  · cases c with
    | nil => exact ⟨[], by simpa using hbuf.symm, by simpa using hrest.symm⟩
    | cons d c =>
        obtain ⟨rfl, -⟩ := List.cons.inj hrest
        exact absurd (by simp [hbuf]) hb

/-- A line that is in the stream is read, and nothing behind it. -/
theorem readLineFrom_of_line {l rest : GoString} (hl : (10 : UInt8) ∉ l) (fuel : Nat)
    (line : GoString) (b : BufReader σ) (hbytes : b.bytes R = l ++ 10 :: rest)
    (hfuel : 2 * (R.bytes b.conn).length + (if size ≤ b.buffered.length then 1 else 0) < fuel) :
    ∃ b', readLineFrom R fuel line b = some (line ++ l ++ [10], b') ∧ b'.bytes R = rest := by
  induction fuel generalizing line b l with
  | zero => exact absurd hfuel (Nat.not_lt_zero _)
  | succ fuel ih =>
      rcases line_cases b.buffered with ⟨x, y, hx, hbuf⟩ | hb
      · -- the end of the line is in the buffer
        have hsame : x ++ 10 :: (y ++ R.bytes b.conn) = l ++ 10 :: rest := by
          rw [← hbytes, bytes, hbuf, List.append_assoc, List.cons_append]
        obtain ⟨rfl, rfl⟩ := line_inj hx hl hsame
        exact ⟨_, readLineFrom_line R hx hbuf fuel line, rfl⟩
      by_cases hfull : size ≤ b.buffered.length
      · obtain ⟨l', rfl, hconn⟩ := rest_of_line hb hbytes
        rw [readLineFrom_part R hb hfull]
        rw [if_pos hfull] at hfuel
        have hl' : (10 : UInt8) ∉ l' := fun hmem => hl (List.mem_append_right _ hmem)
        obtain ⟨b', hread, hb'⟩ := ih hl' (line ++ b.buffered) { b with buffered := [] }
          (by simpa [bytes] using hconn) (by simpa [size] using Nat.lt_of_succ_lt_succ hfuel)
        exact ⟨b', by simpa using hread, hb'⟩
      · -- there is an end of a line to come, so the next read gets something
        obtain ⟨l', -, hconn⟩ := rest_of_line hb hbytes
        have hmore : R.bytes b.conn ≠ [] := by simp [hconn]
        have herr : (R.read b.conn (size - b.buffered.length)).2.1 = none := by
          by_contra hne
          exact hmore (R.ends _ _ hne)
        have hgot := List.length_pos_iff.mpr (R.moves _ _ (by omega) herr)
        have hkeeps := R.keeps b.conn (size - b.buffered.length)
        have hlen := congrArg List.length hkeeps
        rw [List.length_append] at hlen
        rw [readLineFrom_fill R hb hfull herr]
        refine ih hl line _ ?_ ?_
        · rw [bytes, List.append_assoc, hkeeps, ← bytes, hbytes]
        · dsimp only
          rw [if_neg hfull] at hfuel
          split <;> omega

theorem readLineFrom_isLine {fuel : Nat} {line line' : GoString} {b b' : BufReader σ}
    (h : readLineFrom R fuel line b = some (line', b')) :
    ∃ l, (10 : UInt8) ∉ l ∧ line' = line ++ l ++ [10] ∧ b.bytes R = l ++ 10 :: b'.bytes R := by
  induction fuel generalizing line b with
  | zero => cases h
  | succ fuel ih =>
      rcases line_cases b.buffered with ⟨x, y, hx, hbuf⟩ | hb
      · rw [readLineFrom_line R hx hbuf] at h
        obtain ⟨rfl, rfl⟩ := Prod.mk.inj (Option.some.inj h)
        exact ⟨x, hx, rfl, by simp [bytes, hbuf]⟩
      by_cases hfull : size ≤ b.buffered.length
      · rw [readLineFrom_part R hb hfull] at h
        obtain ⟨l, hl, rfl, hbytes⟩ := ih h
        refine ⟨b.buffered ++ l, ?_, by simp, ?_⟩
        · rw [List.mem_append]
          exact not_or.mpr ⟨hb, hl⟩
        · simpa [bytes] using hbytes
      · by_cases herr : (R.read b.conn (size - b.buffered.length)).2.1 = none
        · rw [readLineFrom_fill R hb hfull herr] at h
          obtain ⟨l, hl, hline, hbytes⟩ := ih h
          refine ⟨l, hl, hline, ?_⟩
          rw [← hbytes]
          simp only [bytes, List.append_assoc, R.keeps]
        · rw [readLineFrom_end R hb hfull herr] at h
          cases h

theorem readLine_of_isLine {line rest : GoString} (hline : IsLine line) {b : BufReader σ}
    (hbytes : b.bytes R = line ++ rest) :
    ∃ b', b.readLine R = some (line, b') ∧ b'.bytes R = rest := by
  obtain ⟨l, hl, rfl⟩ := hline
  have hfuel : 2 * (R.bytes b.conn).length + (if size ≤ b.buffered.length then 1 else 0)
      < 2 * (R.bytes b.conn).length + 2 := by
    split <;> omega
  exact readLineFrom_of_line R hl _ [] b (by simpa using hbytes) hfuel

theorem isLine_of_readLine {line : GoString} {b b' : BufReader σ}
    (h : b.readLine R = some (line, b')) : IsLine line ∧ b.bytes R = line ++ b'.bytes R := by
  obtain ⟨l, hl, hline, hbytes⟩ := readLineFrom_isLine R h
  rw [List.nil_append] at hline
  exact ⟨⟨l, hl, hline⟩, by rw [hline, hbytes]; simp⟩

/-- A head that is in the stream is read, and nothing behind it. -/
theorem readHeadFrom_of_isHead {lines : List GoString} (hhead : IsHead lines) {rest : GoString}
    (fuel : Nat) (b : BufReader σ) (hbytes : b.bytes R = lines.flatten ++ rest)
    (hfuel : lines.length ≤ fuel) :
    ∃ b', readHeadFrom R fuel b = some (lines, b') ∧ b'.bytes R = rest := by
  induction lines generalizing fuel b with
  | nil => exact hhead.elim
  | cons line lines ih =>
      obtain ⟨hline, hmore⟩ := hhead
      rw [List.length_cons] at hfuel
      obtain ⟨fuel, rfl⟩ := Nat.exists_eq_add_of_le' (Nat.le_trans (Nat.le_add_left 1 _) hfuel)
      rw [List.flatten_cons, List.append_assoc] at hbytes
      obtain ⟨b₁, hread, hb₁⟩ := readLine_of_isLine R hline hbytes
      rw [readHeadFrom, hread]
      dsimp only
      split at hmore
      · rename_i hblank
        subst hmore
        rw [if_pos hblank]
        exact ⟨b₁, rfl, hb₁⟩
      · rename_i hblank
        rw [if_neg hblank]
        obtain ⟨b', hrest, hb'⟩ := ih hmore fuel b₁ hb₁ (Nat.le_of_succ_le_succ hfuel)
        exact ⟨b', by rw [hrest]; rfl, hb'⟩

/-- What is read as a head is one, and is taken off the stream. -/
theorem isHead_of_readHeadFrom {fuel : Nat} {b b' : BufReader σ} {lines : List GoString}
    (h : readHeadFrom R fuel b = some (lines, b')) :
    IsHead lines ∧ b.bytes R = lines.flatten ++ b'.bytes R := by
  induction fuel generalizing b lines with
  | zero => cases h
  | succ fuel ih =>
      rw [readHeadFrom] at h
      split at h
      · cases h
      · rename_i line b₁ hread
        obtain ⟨hline, hbytes⟩ := isLine_of_readLine R hread
        split at h
        · rename_i hblank
          obtain ⟨rfl, rfl⟩ := Prod.mk.inj (Option.some.inj h)
          exact ⟨⟨hline, by rw [if_pos hblank]⟩, by simpa using hbytes⟩
        · rename_i hblank
          obtain ⟨⟨ls, b₂⟩, hrest, heq⟩ := Option.map_eq_some_iff.mp h
          obtain ⟨rfl, rfl⟩ := Prod.mk.inj heq
          obtain ⟨hhead, hbytes₁⟩ := ih hrest
          exact ⟨⟨hline, by rwa [if_neg hblank]⟩, by
            rw [hbytes, hbytes₁, List.flatten_cons, List.append_assoc]⟩

theorem IsHead.length_le {lines : List GoString} (h : IsHead lines) :
    lines.length ≤ lines.flatten.length := by
  induction lines with
  | nil => exact Nat.zero_le _
  | cons line lines ih =>
      obtain ⟨⟨l, -, rfl⟩, hmore⟩ := h
      split at hmore
      · subst hmore
        simp
      · have := ih hmore
        simp only [List.length_cons, List.flatten_cons, List.length_append, List.length_nil]
        omega

theorem readHead_of_isHead {lines : List GoString} (hhead : IsHead lines) {rest : GoString}
    {b : BufReader σ} (hbytes : b.bytes R = lines.flatten ++ rest) :
    ∃ b', b.readHead R = some (lines, b') ∧ b'.bytes R = rest := by
  refine readHeadFrom_of_isHead R hhead _ b hbytes ?_
  have hlen := congrArg List.length hbytes
  rw [List.length_append] at hlen
  have := hhead.length_le
  omega

theorem isHead_of_readHead {b b' : BufReader σ} {lines : List GoString}
    (h : b.readHead R = some (lines, b')) :
    IsHead lines ∧ b.bytes R = lines.flatten ++ b'.bytes R :=
  isHead_of_readHeadFrom R h

end Lines

end BufReader

end RbiProxy
