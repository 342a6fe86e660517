import RbiProxy.GoHeader
import RbiProxy.JsonDecode

/-!
# Messages of HTTP

A response as a handler writes it and as the client reads it. A `ResponseWriter` is
the one of `net/http`: the header is fixed when it is sent, and a write beyond the
announced length is refused. The client reads the body up to its length and undoes
the codings that the header names. `sends_foldl` is what the handlers rely on: what
is written in pieces, with a length that is right or none at all, is received.
-/

namespace RbiProxy

namespace Http

/-! ## Codings -/

/-- Content codings: `decode` undoes the coding with a name, `none` for data that
are not of it and for an unknown name; `gzip` is what `gzip.Writer` writes. -/
structure Codings where
  decode : GoString → GoString → Option GoString
  gzip : GoString → GoString
  decode_gzip : ∀ s, decode (lit "gzip") (gzip s) = some s

/-- The codings that a header names, in the order they were applied. -/
def codingsOf (h : Header) : List GoString :=
  (((h.values (lit "Content-Encoding")).flatMap (·.splitOn 44)).map fun name =>
    (trimSpace name).map lowerByte).filter (· ≠ [])

/-- The last coding is undone first. -/
def Codings.decodeAll (c : Codings) (names : List GoString) (s : GoString) : Option GoString :=
  names.foldr (fun name data => data.bind (c.decode name)) (some s)

/-! ## The writer -/

/-- A message of this status, in answer to this method, has a body. -/
def bodyAllowed (method : GoString) (status : Nat) : Bool :=
  decide (method ≠ lit "HEAD") && !(status / 100 == 1 || status == 204 || status == 304)

def parseLength (s : GoString) : Option Nat :=
  if s ≠ [] ∧ s.all Json.isDigit = true then some (Json.decimal s) else none

def announced (h : Header) : Option Nat := parseLength (h.get (lit "Content-Length"))

/-- `http.ResponseWriter`: the fields of the handler, the status and the fields
that were sent, the number of bytes given to it and those that went out. `page`
is what was sent over the connection after it was taken over. -/
structure ResponseWriter where
  method : GoString
  header : Header
  sent : Option (Nat × Header)
  written : Nat
  body : GoString
  page : Option GoString

namespace ResponseWriter

/-- `w.Header().Set`. -/
def setHeader (w : ResponseWriter) (key value : GoString) : ResponseWriter :=
  { w with header := w.header.set key value }

/-- `WriteHeader`. Only the first call counts. -/
def writeHeader (w : ResponseWriter) (status : Nat) : ResponseWriter :=
  match w.sent with
  | some _ => w
  | none => { w with sent := some (status, w.header) }

def head (w : ResponseWriter) : Nat × Header := w.sent.getD (200, w.header)

/-- `Write`. Data that would exceed the announced length are refused, and counted. -/
def write (w : ResponseWriter) (data : GoString) : ResponseWriter :=
  let w := w.writeHeader 200
  if data = [] ∨ bodyAllowed w.method w.head.1 = false then w
  else
    let written := w.written + data.length
    match announced w.head.2 with
    | some n => if n < written then { w with written := written }
        else { w with written := written, body := w.body ++ data }
    | none => { w with written := written, body := w.body ++ data }

/-- The body as the client reads it, `none` when it ends before its length. -/
def received (w : ResponseWriter) : Option GoString :=
  if bodyAllowed w.method w.head.1 then
    match announced w.head.2 with
    | some n => if w.body.length = n then some w.body else none
    | none => some w.body
  else some []

def representation (c : Codings) (w : ResponseWriter) : Option GoString :=
  w.received.bind (c.decodeAll (codingsOf w.head.2))

end ResponseWriter

/-- How a stream is cut when it is copied. -/
structure Stream where
  pieces : GoString → List GoString
  flatten_pieces : ∀ s, (pieces s).flatten = s

def Stream.copy (stream : Stream) (s : GoString) (w : ResponseWriter) : ResponseWriter :=
  (stream.pieces s).foldl ResponseWriter.write w

/-! ## Fields -/

section Fields

theorem codingsOf_gzip (header : Header) :
    codingsOf (header.set (lit "Content-Encoding") (lit "gzip")) = [lit "gzip"] := by
  unfold codingsOf
  rw [Header.values_set]
  decide +kernel

theorem parseLength_itoa (n : Nat) : parseLength (itoa n) = some n := by
  have hdigits : (itoa n).all Json.isDigit = true :=
    List.all_eq_true.mpr fun b hb => Json.isDigit_of_mem_itoa hb
  rw [parseLength, if_pos ⟨Json.itoa_ne_nil n, hdigits⟩, Json.decimal_itoa]

theorem announced_set (header : Header) (n : Nat) :
    announced (header.set (lit "Content-Length") (itoa n)) = some n := by
  unfold announced Header.get
  rw [Header.values_set]
  exact parseLength_itoa n

end Fields

/-! ## Writing -/

section Write

variable {w : ResponseWriter} {status : Nat} {h : Header}

theorem write_fits (hsent : w.sent = some (status, h)) {data : GoString}
    (hallowed : bodyAllowed w.method status = false → data = [])
    (hfits : bodyAllowed w.method status = true → ∀ n, announced h = some n →
      w.written + data.length ≤ n) :
    w.write data = { w with written := w.written + data.length, body := w.body ++ data } := by
  have hsame : w.writeHeader 200 = w := by
    rw [ResponseWriter.writeHeader, hsent]
  have hhead : w.head = (status, h) := by
    rw [ResponseWriter.head, hsent]
    rfl
  unfold ResponseWriter.write
  dsimp only
  rw [hsame, hhead]
  by_cases hnil : data = []
  · rw [if_pos (.inl hnil), hnil, List.append_nil]
    rfl
  · have hbody : bodyAllowed w.method status = true := by
      by_contra hnot
      exact hnil (hallowed (Bool.eq_false_iff.mpr hnot))
    rw [if_neg (by simp [hnil, hbody])]
    dsimp only
    cases hlen : announced h with
    | none => rfl
    | some n => exact if_neg (Nat.not_lt.mpr (hfits hbody n hlen))

theorem foldl_write (pieces : List GoString) :
    ∀ w : ResponseWriter, w.sent = some (status, h) →
      (bodyAllowed w.method status = false → pieces.flatten = []) →
      (bodyAllowed w.method status = true → ∀ n, announced h = some n →
        w.written + pieces.flatten.length ≤ n) →
      pieces.foldl ResponseWriter.write w
        = { w with written := w.written + pieces.flatten.length
                   body := w.body ++ pieces.flatten } := by
  induction pieces with
  | nil =>
      intro w _ _ _
      simp
  | cons data pieces ih =>
      intro w hsent hallowed hfits
      simp only [List.flatten_cons, List.append_eq_nil_iff, List.length_append] at hallowed hfits
      have hfirst := @write_fits w status h hsent data (fun hno => (hallowed hno).1)
        fun hyes n hn => by
          have := hfits hyes n hn
          omega
      have hrest := ih { w with written := w.written + data.length, body := w.body ++ data } hsent
        (fun hno => (hallowed hno).2) fun hyes n hn => by
          have := hfits hyes n hn
          dsimp only
          omega
      rw [List.foldl_cons, hfirst, hrest]
      simp [Nat.add_assoc]

/-- A writer that has sent its header and nothing else. -/
structure Fresh (w : ResponseWriter) (method : GoString) (status : Nat) (h : Header) : Prop where
  method : w.method = method
  sent : w.sent = some (status, h)
  written : w.written = 0
  body : w.body = []

/-- The client receives these data, with these codings. -/
structure Sends (w : ResponseWriter) (names : List GoString) (data : GoString) : Prop where
  received : w.received = some data
  codings : codingsOf w.head.2 = names

theorem Sends.representation {names : List GoString} {data : GoString} (hs : Sends w names data)
    (c : Codings) : w.representation c = c.decodeAll names data := by
  rw [ResponseWriter.representation, hs.received, hs.codings]
  rfl

/-- What is written in pieces, with a length that is right or none, is received. -/
theorem sends_foldl {method : GoString} (hw : Fresh w method status h)
    {pieces : List GoString} {data : GoString} (hdata : pieces.flatten = data)
    (hallowed : bodyAllowed method status = false → data = [])
    (hlen : bodyAllowed method status = true → ∀ n, announced h = some n → data.length = n) :
    Sends (pieces.foldl ResponseWriter.write w) (codingsOf h) data := by
  obtain ⟨rfl, hsent, hwritten, hbody⟩ := hw
  rw [foldl_write pieces w hsent (fun hno => hdata.trans (hallowed hno)) (fun hyes n hn => by
    rw [hwritten, Nat.zero_add, hdata]
    exact (hlen hyes n hn).le), hdata, hbody, List.nil_append]
  have hhead : w.sent.getD (200, w.header) = (status, h) := by
    rw [hsent]
    rfl
  constructor
  · unfold ResponseWriter.received ResponseWriter.head
    dsimp only
    rw [hhead]
    cases hyes : bodyAllowed w.method status with
    | false => rw [hallowed hyes, if_neg (by decide)]
    | true =>
        rw [if_pos rfl]
        cases hn : announced h with
        | none => rfl
        | some n => exact if_pos (hlen hyes n hn)
  · exact congrArg (fun head => codingsOf head.2) hhead

end Write

end Http

end RbiProxy
