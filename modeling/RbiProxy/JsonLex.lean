import RbiProxy.GoString

/-!
# The tokens of a JSON text

The scanner of `encoding/json`, cut in two: this module turns bytes into tokens,
with the body of a string as it stands in the text; `JsonParse` builds the value.
A text the scanner rejects has no tokens, or tokens that are no value.

The automaton takes one byte at a time, so a text put together from pieces is
read piece by piece (`Feeds.append`, `Feeds.of_append`). `weight` says how much
of a text would need escaping; a body weighs at most what the bytes it is made
of weigh (`Feeds.light`).
-/

namespace RbiProxy

namespace Json

inductive Literal where
  | true
  | false
  | null
deriving DecidableEq

def Literal.text : Literal → GoString
  | .true => lit "true"
  | .false => lit "false"
  | .null => lit "null"

inductive Token where
  | lbrace
  | rbrace
  | lbracket
  | rbracket
  | colon
  | comma
  /-- A string, between its quotes. -/
  | string (raw : GoString)
  | number (text : GoString)
  | literal (l : Literal)
deriving DecidableEq

/-! ## Numbers -/

/-- Where a number stands: behind the sign, the leading zero, in the digits,
behind the point, and so on. -/
inductive NumState where
  | neg
  | zero
  | int
  | dot
  | frac
  | exp
  | expSign
  | expDigits
deriving DecidableEq

def isDigit (b : UInt8) : Bool := 48 ≤ b && b ≤ 57

def isExp (b : UInt8) : Bool := b == 101 || b == 69

/-- The next byte of the number; `none` if the byte does not belong to it. -/
def NumState.next : NumState → UInt8 → Option NumState
  | .neg, b => if b = 48 then some .zero else if isDigit b then some .int else none
  | .zero, b => if b = 46 then some .dot else if isExp b then some .exp else none
  | .int, b =>
    if isDigit b then some .int
    else if b = 46 then some .dot else if isExp b then some .exp else none
  | .dot, b => if isDigit b then some .frac else none
  | .frac, b => if isDigit b then some .frac else if isExp b then some .exp else none
  | .exp, b =>
    if b = 43 ∨ b = 45 then some .expSign else if isDigit b then some .expDigits else none
  | .expSign, b => if isDigit b then some .expDigits else none
  | .expDigits, b => if isDigit b then some .expDigits else none

def NumState.accepts : NumState → Bool
  | .zero | .int | .frac | .expDigits => true
  | _ => false

/-! ## The automaton -/

/-- Where the scanner stands, with the bytes of the token so far. -/
inductive LexState where
  | start
  | body (raw : GoString)
  | escape (raw : GoString)
  /-- In the digits of `\u`, with the number of those to come. -/
  | hex (more : Nat) (raw : GoString)
  | number (st : NumState) (text : GoString)
  /-- In a literal, behind its first `n` bytes. -/
  | literal (l : Literal) (n : Nat)
deriving DecidableEq

def isSpace (b : UInt8) : Bool := b == 32 || b == 9 || b == 13 || b == 10

def isHex (b : UInt8) : Bool := isDigit b || (97 ≤ b && b ≤ 102) || (65 ≤ b && b ≤ 70)

/-- The bytes that may stand behind a backslash, other than `u`. -/
def escapes : GoString := lit "bfnrt\\/\""

def startNext (b : UInt8) : Option (List Token × LexState) :=
  if isSpace b then some ([], .start)
  else if b = 123 then some ([.lbrace], .start)
  else if b = 125 then some ([.rbrace], .start)
  else if b = 91 then some ([.lbracket], .start)
  else if b = 93 then some ([.rbracket], .start)
  else if b = 58 then some ([.colon], .start)
  else if b = 44 then some ([.comma], .start)
  else if b = 34 then some ([], .body [])
  else if b = 45 then some ([], .number .neg [b])
  else if b = 48 then some ([], .number .zero [b])
  else if isDigit b then some ([], .number .int [b])
  else if b = 116 then some ([], .literal .true 1)
  else if b = 102 then some ([], .literal .false 1)
  else if b = 110 then some ([], .literal .null 1)
  else none

/-- One byte: the tokens it ends, and the state behind it. -/
def LexState.next : LexState → UInt8 → Option (List Token × LexState)
  | .start, b => startNext b
  | .body raw, b =>
    if b = 34 then some ([.string raw], .start)
    else if b = 92 then some ([], .escape (raw ++ [b]))
    else if b < 32 then none
    else some ([], .body (raw ++ [b]))
  | .escape raw, b =>
    if escapes.contains b then some ([], .body (raw ++ [b]))
    else if b = 117 then some ([], .hex 3 (raw ++ [b]))
    else none
  | .hex 0 raw, b => if isHex b then some ([], .body (raw ++ [b])) else none
  | .hex (n + 1) raw, b => if isHex b then some ([], .hex n (raw ++ [b])) else none
  | .number st text, b =>
    match st.next b with
    | some st' => some ([], .number st' (text ++ [b]))
    | none =>
      if st.accepts then (startNext b).map fun p => (.number text :: p.1, p.2) else none
  | .literal l n, b =>
    if l.text[n]? = some b then
      if n + 1 = l.text.length then some ([.literal l], .start) else some ([], .literal l (n + 1))
    else none

def feed : LexState → GoString → Option (List Token × LexState)
  | st, [] => some ([], st)
  | st, b :: s =>
    (st.next b).bind fun p => (feed p.2 s).map fun q => (p.1 ++ q.1, q.2)

/-- The tokens that the end of the text ends. -/
def LexState.finish : LexState → Option (List Token)
  | .start => some []
  | .number st text => if st.accepts then some [.number text] else none
  | _ => none

/-- The tokens of a text; `none` for a syntax error. -/
def lex (s : GoString) : Option (List Token) :=
  (feed .start s).bind fun p => p.2.finish.map (p.1 ++ ·)

/-! ## Pieces of text -/

/-- From `st` the bytes give the tokens and lead to `st'`. -/
def Feeds (st : LexState) (s : GoString) (ts : List Token) (st' : LexState) : Prop :=
  feed st s = some (ts, st')

theorem feeds_nil (st : LexState) : Feeds st [] [] st := rfl

theorem feeds_cons_iff {st st' : LexState} {b : UInt8} {s : GoString} {ts : List Token} :
    Feeds st (b :: s) ts st'
      ↔ ∃ us mid vs, st.next b = some (us, mid) ∧ Feeds mid s vs st' ∧ ts = us ++ vs := by
  unfold Feeds
  rw [feed]
  constructor
  · intro h
    obtain ⟨⟨us, mid⟩, hnext, hrest⟩ := Option.bind_eq_some_iff.mp h
    obtain ⟨⟨vs, st''⟩, hfeed, heq⟩ := Option.map_eq_some_iff.mp hrest
    obtain ⟨rfl, rfl⟩ := Prod.mk.inj heq
    exact ⟨us, mid, vs, hnext, hfeed, rfl⟩
  · rintro ⟨us, mid, vs, hnext, hfeed, rfl⟩
    rw [hnext, Option.bind_some, hfeed]
    rfl

theorem Feeds.append {a b c : LexState} {x y : GoString} {ts us : List Token}
    (hx : Feeds a x ts b) (hy : Feeds b y us c) : Feeds a (x ++ y) (ts ++ us) c := by
  induction x generalizing a ts with
  | nil =>
      obtain ⟨rfl, rfl⟩ := Prod.mk.inj (Option.some.inj hx)
      exact hy
  | cons d x ih =>
      obtain ⟨vs, mid, ws, hnext, hrest, rfl⟩ := feeds_cons_iff.mp hx
      rw [List.cons_append, feeds_cons_iff]
      exact ⟨vs, mid, ws ++ us, hnext, ih hrest, List.append_assoc _ _ _⟩

theorem Feeds.of_append {a c : LexState} {x y : GoString} {ts : List Token}
    (h : Feeds a (x ++ y) ts c) :
    ∃ us b vs, Feeds a x us b ∧ Feeds b y vs c ∧ ts = us ++ vs := by
  induction x generalizing a ts with
  | nil => exact ⟨[], a, ts, rfl, h, rfl⟩
  | cons d x ih =>
      rw [List.cons_append, feeds_cons_iff] at h
      obtain ⟨us, mid, vs, hnext, hrest, rfl⟩ := h
      obtain ⟨us', b, vs', hx, hy, rfl⟩ := ih hrest
      exact ⟨us ++ us', b, vs', feeds_cons_iff.mpr ⟨us, mid, us', hnext, hx, rfl⟩, hy,
        (List.append_assoc _ _ _).symm⟩

theorem lex_eq_some_iff {s : GoString} {ts : List Token} :
    lex s = some ts ↔ ∃ us st vs, Feeds .start s us st ∧ st.finish = some vs ∧ ts = us ++ vs := by
  unfold lex Feeds
  constructor
  · intro h
    obtain ⟨⟨us, st⟩, hfeed, hrest⟩ := Option.bind_eq_some_iff.mp h
    obtain ⟨vs, hfin, rfl⟩ := Option.map_eq_some_iff.mp hrest
    exact ⟨us, st, vs, hfeed, hfin, rfl⟩
  · rintro ⟨us, st, vs, hfeed, hfin, rfl⟩
    rw [hfeed, Option.bind_some, hfin]
    rfl

/-! ## Plain bytes -/

/-- A byte that stands for itself in a string. -/
def isPlain (b : UInt8) : Bool := !(b == 34 || b == 92 || b < 32)

/-- A text that needs no escaping. -/
def Plain (s : GoString) : Prop := ∀ b ∈ s, isPlain b = true

instance (s : GoString) : Decidable (Plain s) :=
  decidable_of_iff (s.all isPlain = true) List.all_eq_true

theorem feeds_plain {s : GoString} (h : Plain s) (raw : GoString) :
    Feeds (.body raw) s [] (.body (raw ++ s)) := by
  induction s generalizing raw with
  | nil =>
      rw [List.append_nil]
      exact feeds_nil _
  | cons b s ih =>
      have hb := h b List.mem_cons_self
      have hnext : (LexState.body raw).next b = some ([], .body (raw ++ [b])) := by
        simp only [isPlain, Bool.not_eq_true', Bool.or_eq_false_iff, beq_eq_false_iff_ne,
          decide_eq_false_iff_not] at hb
        rw [LexState.next, if_neg hb.1.1, if_neg hb.1.2, if_neg hb.2]
      have hrest := ih (fun c hc => h c (List.mem_cons_of_mem _ hc)) (raw ++ [b])
      rw [List.append_assoc] at hrest
      exact feeds_cons_iff.mpr ⟨[], _, [], hnext, hrest, rfl⟩

/-! ## Weights -/

/-- The sum of a measure over the bytes of a text. -/
def total (f : UInt8 → Nat) (s : GoString) : Nat := (s.map f).sum

theorem total_append (f : UInt8 → Nat) (s t : GoString) :
    total f (s ++ t) = total f s + total f t := by
  rw [total, total, total, List.map_append, List.sum_append]

theorem total_cons (f : UInt8 → Nat) (b : UInt8) (s : GoString) :
    total f (b :: s) = f b + total f s := rfl

theorem total_eq_zero_iff {f : UInt8 → Nat} {s : GoString} :
    total f s = 0 ↔ ∀ b ∈ s, f b = 0 := by
  induction s with
  | nil => simp [total]
  | cons b s ih => rw [total_cons, Nat.add_eq_zero_iff, ih, List.forall_mem_cons]

theorem total_removeLoop {f : UInt8 → Nat} {old : GoString} (hne : old ≠ [])
    (hold : ∀ b ∈ old, f b = 0) (s : GoString) {k : Nat} (hk : ∀ b ∈ s.take k, f b = 0) :
    total f (removeLoop old k s) = total f s := by
  induction s generalizing k with
  | nil => cases k <;> rfl
  | cons b s ih =>
      cases k with
      | succ k =>
          rw [List.take_succ_cons, List.forall_mem_cons] at hk
          rw [removeLoop, ih hk.2, total_cons, hk.1, Nat.zero_add]
      | zero =>
          rw [removeLoop]
          split
          · rename_i hmatch
            cases old with
            | nil => exact absurd rfl hne
            | cons c old =>
                obtain ⟨t, ht⟩ := List.isPrefixOf_iff_prefix.mp hmatch
                obtain ⟨rfl, rfl⟩ := List.cons.inj ht
                rw [List.forall_mem_cons] at hold
                rw [ih, total_cons, hold.1, Nat.zero_add]
                simpa using hold.2
          · rw [total_cons, total_cons, ih (by simp)]

theorem total_removeAll {f : UInt8 → Nat} {old : GoString} (hne : old ≠ [])
    (hold : ∀ b ∈ old, f b = 0) (s : GoString) : total f (removeAll s old) = total f s :=
  total_removeLoop hne hold s (by simp)

/-- A byte that has to be escaped counts, a backslash twice, and so does the
letter that a backslash makes the start of a code point. With these weights every
escape weighs more than what it stands for. -/
def byteWeight (b : UInt8) : Nat :=
  if b = 92 then 2 else if b = 117 ∨ isPlain b = false then 1 else 0

def weight (s : GoString) : Nat := total byteWeight s

theorem weight_cons (b : UInt8) (s : GoString) : weight (b :: s) = byteWeight b + weight s := rfl

/-- The bytes that have to be escaped, each counted once. -/
def badByte (b : UInt8) : Nat := if isPlain b then 0 else 1

theorem plain_iff {s : GoString} : Plain s ↔ total badByte s = 0 := by
  rw [total_eq_zero_iff, Plain]
  simp [badByte]

/-- What the bytes of an unfinished string weigh. -/
def LexState.pending : LexState → Nat
  | .body raw | .escape raw | .hex _ raw => weight raw
  | _ => 0

/-- No string among the tokens weighs more than `n`. -/
def Light (n : Nat) (ts : List Token) : Prop := ∀ raw, .string raw ∈ ts → weight raw ≤ n

theorem Light.append {n : Nat} {ts us : List Token} (ht : Light n ts) (hu : Light n us) :
    Light n (ts ++ us) := by
  intro raw hmem
  obtain h | h := List.mem_append.mp hmem
  · exact ht raw h
  · exact hu raw h

theorem Light.mono {n m : Nat} {ts : List Token} (h : Light n ts) (hle : n ≤ m) : Light m ts :=
  fun raw hmem => (h raw hmem).trans hle

theorem light_nil (n : Nat) : Light n [] := fun _ hmem => absurd hmem List.not_mem_nil

theorem weight_concat (raw : GoString) (b : UInt8) :
    weight (raw ++ [b]) = weight raw + byteWeight b := by
  exact total_append byteWeight raw [b]

/-- Outside of strings, or at the start of one. -/
def LexState.Outside : LexState → Prop
  | .start | .number _ _ | .literal _ _ => True
  | .body raw => raw = []
  | .escape _ | .hex _ _ => False

/-- The byte ends no string and is not within one. -/
def Fresh (o : Option (List Token × LexState)) : Prop :=
  ∀ p, o = some p → (∀ raw, .string raw ∉ p.1) ∧ p.2.Outside

theorem Fresh.ite {c : Prop} [Decidable c] {p : List Token × LexState}
    {o : Option (List Token × LexState)} (hp : (∀ raw, .string raw ∉ p.1) ∧ p.2.Outside)
    (ho : Fresh o) : Fresh (if c then some p else o) := by
  intro q hq
  split at hq
  · obtain rfl := Option.some.inj hq
    exact hp
  · exact ho q hq

theorem fresh_startNext (b : UInt8) : Fresh (startNext b) := by
  unfold startNext
  repeat refine Fresh.ite ⟨by simp, by simp [LexState.Outside]⟩ ?_
  intro p hp
  cases hp

theorem LexState.Outside.pending {st : LexState} (h : st.Outside) : st.pending = 0 := by
  cases st with
  | body raw =>
      rw [LexState.pending, show raw = [] from h]
      rfl
  | escape raw => exact absurd h id
  | hex more raw => exact absurd h id
  | _ => rfl

theorem next_light {st st' : LexState} {b : UInt8} {ts : List Token}
    (h : st.next b = some (ts, st')) :
    Light (st.pending + byteWeight b) ts ∧ st'.pending ≤ st.pending + byteWeight b := by
  have hstart : ∀ {us : List Token} {mid : LexState} (n : Nat), startNext b = some (us, mid) →
      Light n us ∧ mid.pending ≤ n := by
    intro us mid n hnext
    obtain ⟨hno, hout⟩ := fresh_startNext b _ hnext
    exact ⟨fun raw hmem => absurd hmem (hno raw), hout.pending.trans_le (Nat.zero_le n)⟩
  -- the cases in which the byte is put behind the others and the string goes on
  have hgrow : ∀ {raw : GoString}, ts = [] → st'.pending = weight (raw ++ [b]) →
      st.pending = weight raw →
      Light (st.pending + byteWeight b) ts ∧ st'.pending ≤ st.pending + byteWeight b := by
    intro raw hts hafter hbefore
    rw [hts, hafter, hbefore, weight_concat]
    exact ⟨light_nil _, Nat.le_refl _⟩
  cases st with
  | start => exact hstart _ h
  | body raw =>
      rw [LexState.next] at h
      split at h
      · obtain ⟨rfl, rfl⟩ := Prod.mk.inj (Option.some.inj h)
        refine ⟨fun raw' hmem => ?_, Nat.zero_le _⟩
        obtain rfl := Token.string.inj (List.mem_singleton.mp hmem)
        exact Nat.le_add_right _ _
      · split at h
        · obtain ⟨rfl, rfl⟩ := Prod.mk.inj (Option.some.inj h)
          exact hgrow rfl rfl rfl
        · split at h
          · cases h
          · obtain ⟨rfl, rfl⟩ := Prod.mk.inj (Option.some.inj h)
            exact hgrow rfl rfl rfl
  | escape raw =>
      rw [LexState.next] at h
      split at h
      · obtain ⟨rfl, rfl⟩ := Prod.mk.inj (Option.some.inj h)
        exact hgrow rfl rfl rfl
      · split at h
        · obtain ⟨rfl, rfl⟩ := Prod.mk.inj (Option.some.inj h)
          exact hgrow rfl rfl rfl
        · cases h
  | hex more raw =>
      cases more with
      | zero =>
          rw [LexState.next] at h
          split at h
          · obtain ⟨rfl, rfl⟩ := Prod.mk.inj (Option.some.inj h)
            exact hgrow rfl rfl rfl
          · cases h
      | succ n =>
          rw [LexState.next] at h
          split at h
          · obtain ⟨rfl, rfl⟩ := Prod.mk.inj (Option.some.inj h)
            exact hgrow rfl rfl rfl
          · cases h
  | number num text =>
      rw [LexState.next] at h
      split at h
      · obtain ⟨rfl, rfl⟩ := Prod.mk.inj (Option.some.inj h)
        exact ⟨light_nil _, Nat.zero_le _⟩
      · split at h
        · obtain ⟨⟨us, mid⟩, hnext, heq⟩ := Option.map_eq_some_iff.mp h
          obtain ⟨rfl, rfl⟩ := Prod.mk.inj heq
          obtain ⟨hlight, hpend⟩ := hstart (0 + byteWeight b) hnext
          refine ⟨fun raw hmem => hlight raw ?_, hpend⟩
          simpa using hmem
        · cases h
  | literal l n =>
      rw [LexState.next] at h
      split at h
      · split at h
        · obtain ⟨rfl, rfl⟩ := Prod.mk.inj (Option.some.inj h)
          exact ⟨fun raw hmem => by simp at hmem, Nat.zero_le _⟩
        · obtain ⟨rfl, rfl⟩ := Prod.mk.inj (Option.some.inj h)
          exact ⟨light_nil _, Nat.zero_le _⟩
      · cases h

/-- The strings that end in a piece of text, and the one that is unfinished
behind it, weigh at most what was unfinished before it and the piece itself. -/
theorem Feeds.light {st st' : LexState} {s : GoString} {ts : List Token}
    (h : Feeds st s ts st') :
    Light (st.pending + weight s) ts ∧ st'.pending ≤ st.pending + weight s := by
  induction s generalizing st ts with
  | nil =>
      obtain ⟨rfl, rfl⟩ := Prod.mk.inj (Option.some.inj h)
      exact ⟨light_nil _, Nat.le_add_right _ _⟩
  | cons b s ih =>
      obtain ⟨us, mid, vs, hnext, hrest, rfl⟩ := feeds_cons_iff.mp h
      obtain ⟨hus, hmid⟩ := next_light hnext
      obtain ⟨hvs, hlast⟩ := ih hrest
      rw [weight_cons]
      refine ⟨Light.append (hus.mono ?_) (hvs.mono ?_), ?_⟩
      · omega
      · omega
      · omega

/-! ## The bodies of strings -/

/-- What has to be escaped in the body of a string is. -/
def Clean (raw : GoString) : Prop := 92 ∈ raw ∨ Plain raw

def LexState.Clean : LexState → Prop
  | .body raw => Json.Clean raw
  | .escape raw | .hex _ raw => 92 ∈ raw
  | _ => True

theorem LexState.Outside.clean {st : LexState} (h : st.Outside) : st.Clean := by
  cases st with
  | body raw =>
      rw [LexState.Clean, show raw = [] from h]
      exact .inr fun b hb => absurd hb List.not_mem_nil
  | escape raw => exact absurd h id
  | hex more raw => exact absurd h id
  | _ => trivial

theorem mem_concat_of_mem {raw : GoString} {b : UInt8} (h : 92 ∈ raw) : 92 ∈ raw ++ [b] :=
  List.mem_append_left _ h

theorem next_clean {st st' : LexState} {b : UInt8} {ts : List Token} (hst : st.Clean)
    (h : st.next b = some (ts, st')) : (∀ raw, .string raw ∈ ts → Clean raw) ∧ st'.Clean := by
  cases st with
  | start =>
      obtain ⟨hno, hout⟩ := fresh_startNext b _ h
      exact ⟨fun raw hmem => absurd hmem (hno raw), hout.clean⟩
  | body raw =>
      rw [LexState.next] at h
      split at h
      · obtain ⟨rfl, rfl⟩ := Prod.mk.inj (Option.some.inj h)
        refine ⟨fun raw' hmem => ?_, trivial⟩
        obtain rfl := Token.string.inj (List.mem_singleton.mp hmem)
        exact hst
      · rename_i hquote
        split at h
        · rename_i hback
          obtain ⟨rfl, rfl⟩ := Prod.mk.inj (Option.some.inj h)
          refine ⟨by simp, ?_⟩
          rw [LexState.Clean, hback]
          exact List.mem_append_right _ (List.mem_singleton_self _)
        · rename_i hback
          split at h
          · cases h
          · rename_i hctl
            obtain ⟨rfl, rfl⟩ := Prod.mk.inj (Option.some.inj h)
            refine ⟨by simp, ?_⟩
            obtain hmem | hplain := hst
            · exact .inl (mem_concat_of_mem hmem)
            · refine .inr fun c hc => ?_
              obtain hc | hc := List.mem_append.mp hc
              · exact hplain c hc
              · rw [List.mem_singleton.mp hc]
                simp [isPlain, hquote, hback, hctl]
  | escape raw =>
      rw [LexState.next] at h
      split at h
      · obtain ⟨rfl, rfl⟩ := Prod.mk.inj (Option.some.inj h)
        exact ⟨by simp, .inl (mem_concat_of_mem hst)⟩
      · split at h
        · obtain ⟨rfl, rfl⟩ := Prod.mk.inj (Option.some.inj h)
          exact ⟨by simp, mem_concat_of_mem hst⟩
        · cases h
  | hex more raw =>
      cases more with
      | zero =>
          rw [LexState.next] at h
          split at h
          · obtain ⟨rfl, rfl⟩ := Prod.mk.inj (Option.some.inj h)
            exact ⟨by simp, .inl (mem_concat_of_mem hst)⟩
          · cases h
      | succ n =>
          rw [LexState.next] at h
          split at h
          · obtain ⟨rfl, rfl⟩ := Prod.mk.inj (Option.some.inj h)
            exact ⟨by simp, mem_concat_of_mem hst⟩
          · cases h
  | number num text =>
      rw [LexState.next] at h
      split at h
      · obtain ⟨rfl, rfl⟩ := Prod.mk.inj (Option.some.inj h)
        exact ⟨by simp, trivial⟩
      · split at h
        · obtain ⟨⟨us, mid⟩, hnext, heq⟩ := Option.map_eq_some_iff.mp h
          obtain ⟨rfl, rfl⟩ := Prod.mk.inj heq
          obtain ⟨hno, hout⟩ := fresh_startNext b _ hnext
          refine ⟨fun raw hmem => absurd ?_ (hno raw), hout.clean⟩
          simpa using hmem
        · cases h
  | literal l n =>
      rw [LexState.next] at h
      split at h
      · split at h
        · obtain ⟨rfl, rfl⟩ := Prod.mk.inj (Option.some.inj h)
          exact ⟨by simp, trivial⟩
        · obtain ⟨rfl, rfl⟩ := Prod.mk.inj (Option.some.inj h)
          exact ⟨by simp, trivial⟩
      · cases h

theorem Feeds.clean {st st' : LexState} {s : GoString} {ts : List Token}
    (h : Feeds st s ts st') (hst : st.Clean) :
    (∀ raw, .string raw ∈ ts → Clean raw) ∧ st'.Clean := by
  induction s generalizing st ts with
  | nil =>
      obtain ⟨rfl, rfl⟩ := Prod.mk.inj (Option.some.inj h)
      exact ⟨by simp, hst⟩
  | cons b s ih =>
      obtain ⟨us, mid, vs, hnext, hrest, rfl⟩ := feeds_cons_iff.mp h
      obtain ⟨hus, hmid⟩ := next_clean hst hnext
      obtain ⟨hvs, hlast⟩ := ih hrest hmid
      refine ⟨fun raw hmem => ?_, hlast⟩
      obtain hmem | hmem := List.mem_append.mp hmem
      · exact hus raw hmem
      · exact hvs raw hmem

theorem lex_clean {s : GoString} {ts : List Token} (h : lex s = some ts) :
    ∀ raw, .string raw ∈ ts → Clean raw := by
  obtain ⟨us, st, vs, hfeed, hfin, rfl⟩ := lex_eq_some_iff.mp h
  have hclean := (hfeed.clean trivial).1
  intro raw hmem
  obtain hmem | hmem := List.mem_append.mp hmem
  · exact hclean raw hmem
  · unfold LexState.finish at hfin
    split at hfin
    · obtain rfl := Option.some.inj hfin
      cases hmem
    · split at hfin
      · obtain rfl := Option.some.inj hfin
        simp at hmem
      · cases hfin
    · cases hfin

end Json

end RbiProxy
