import RbiProxy.GoString

/-!
# Connections as scripts of reads

What a peer sends is modelled by how the socket delivers it: a list of
chunks, one per successful `Read`, and the error that ends the stream
(end of file, a timeout or reset, which are `net.Error`s, or anything
else). A read into a smaller buffer leaves the rest of the chunk for the
next one. `readFull` is `io.ReadFull`, which keeps reading until its
buffer is full.
-/

namespace RbiProxy

inductive ReadErr where
  | eof
  | unexpectedEOF
  | net
  | other
deriving DecidableEq

/-- The readable side of a connection. -/
structure Conn where
  chunks : List GoString
  fin : ReadErr

namespace Conn

def bytes (c : Conn) : GoString := c.chunks.flatten

/-- Read until `n` bytes are there or the chunks end: the bytes read and
the chunks left. -/
def fill (n : Nat) : List GoString → GoString × List GoString
  | [] => ([], [])
  | c :: cs =>
    if n = 0 then ([], c :: cs)
    else if n ≤ c.length then (c.take n, c.drop n :: cs)
    else (c ++ (fill (n - c.length) cs).1, (fill (n - c.length) cs).2)

/-- `io.ReadFull` into a buffer of `n` bytes: the bytes that were read, the
error unless the buffer is full, and the connection afterwards. A stream
that ends inside the buffer gives `ErrUnexpectedEOF`. -/
def readFull (c : Conn) (n : Nat) : GoString × Option ReadErr × Conn :=
  let got := (fill n c.chunks).1
  let rest : Conn := { c with chunks := (fill n c.chunks).2 }
  if got.length = n then (got, none, rest)
  else if got = [] then (got, some c.fin, rest)
  else (got, some (if c.fin = .eof then .unexpectedEOF else c.fin), rest)

theorem fill_append (n : Nat) (cs : List GoString) :
    (fill n cs).1 ++ (fill n cs).2.flatten = cs.flatten := by
  induction cs generalizing n with
  | nil => rfl
  | cons c cs ih =>
      unfold fill
      split
      · rfl
      · split
        · simp [← List.append_assoc, List.take_append_drop]
        · simp only [List.append_assoc, List.flatten_cons]
          rw [ih (n - c.length)]

theorem readFull_keeps (c : Conn) (n : Nat) :
    (c.readFull n).1 ++ (c.readFull n).2.2.bytes = c.bytes := by
  have hfill := fill_append n c.chunks
  unfold readFull
  dsimp only
  split
  · exact hfill
  split
  · exact hfill
  · exact hfill

theorem length_of_readFull {c c' : Conn} {n : Nat} {got : GoString}
    (h : c.readFull n = (got, none, c')) : got.length = n := by
  unfold readFull at h
  simp only at h
  split at h
  · rename_i hn
    obtain ⟨rfl, -⟩ := Prod.mk.inj h
    exact hn
  · split at h <;> cases h

end Conn

end RbiProxy
