import Mathlib.Data.List.TakeWhile
import Mathlib.Data.Nat.Digits.Defs
import RbiProxy.QtConnection

/-!
# The request a connection of the Qt proxy begins with

`parseConnect` looks for `CONNECT\s+([^:\s]+):(\d+)` in all of what it has read,
and makes a port of the digits through `toUInt` and `quint16`. A request is meant
to be accepted for its first line: the method, a host and a port, and the version
of HTTP.

The expression is not anchored, so a header that spells such a line is as good as
the first line, and nothing behind the port is looked at. `connectAt_eq_some_iff`
says what the expression finds at a place. The head is then read as meant exactly
if its first line is a request whose host has no colon, or if it is none and no
place of the head has the expression (`parseConnect_exact_iff`).
-/

namespace RbiProxy

namespace Qt

/-! ## The meaning of a request -/

def decimal (digits : GoString) : Nat :=
  Nat.ofDigits 10 (digits.reverse.map fun b => b.toNat - 48)

/-- A host in a request line: colons stand in brackets only. -/
structure HostText (host : GoString) : Prop where
  ne : host ≠ []
  solid : ∀ b ∈ host, isSpace b = false
  colon : 58 ∈ host → ∃ address, host = 91 :: address ++ [93]

structure Blanks (s : GoString) : Prop where
  ne : s ≠ []
  blank : ∀ b ∈ s, b = 32

/-- `HTTP/1.1`, with any two digits. -/
def IsVersion (version : GoString) : Prop :=
  ∃ major minor, isDigit major = true ∧ isDigit minor = true
    ∧ version = lit "HTTP/" ++ [major, 46, minor]

/-- The first line of `head` asks for a connection to `host` and `port`. -/
def Requests (head host : GoString) (port : Nat) : Prop :=
  ∃ spaces digits gap version rest,
    head = lit "CONNECT" ++ (spaces ++ (host ++ 58 :: (digits
      ++ (gap ++ (version ++ (lit "\r\n" ++ rest))))))
    ∧ Blanks spaces ∧ HostText host
    ∧ digits ≠ [] ∧ (∀ b ∈ digits, isDigit b = true) ∧ decimal digits = port
    ∧ 1 ≤ port ∧ port ≤ 65535
    ∧ Blanks gap ∧ IsVersion version

/-- What the handler has read once the socket is empty. -/
def Handler.head (st : Handler) : GoString := st.connectBuffer ++ st.client

/-- `parseConnect` accepts requests and nothing else: the target is the one asked
for, and anything else ends the connection with no host contacted. -/
structure ReadsRequest (st : Handler) : Prop where
  accepts : st.parseConnect.2 = true ↔ ∃ host port, Requests st.head host port
  target : ∀ host port, Requests st.head host port → st.parseConnect.2 = true →
    st.parseConnect.1.targetHost = host ∧ st.parseConnect.1.targetPort.toNat = port
  refuses : (¬ ∃ host port, Requests st.head host port) →
    st.parseConnect.1.finished = true ∧ st.parseConnect.1.dialed = st.dialed

/-! ## The expression -/

/-- `s` begins with `CONNECT\s+([^:\s]+):(\d+)`, the groups being `host` and
`port`. -/
def Spells (s host port : GoString) : Prop :=
  ∃ spaces rest, s = lit "CONNECT" ++ (spaces ++ (host ++ 58 :: (port ++ rest)))
    ∧ spaces ≠ [] ∧ (∀ b ∈ spaces, isSpace b = true)
    ∧ host ≠ [] ∧ (∀ b ∈ host, b ≠ 58 ∧ isSpace b = false)
    ∧ port ≠ [] ∧ (∀ b ∈ port, isDigit b = true)
    ∧ (∀ b, rest.head? = some b → isDigit b = false)

/-- Some place of the text has the expression. -/
def SpellsSomewhere (s : GoString) : Prop := ∃ t host port, t <:+ s ∧ Spells t host port

/-- A class takes of a text the part that is of the class and stands before
something else. -/
theorem span_append {p : UInt8 → Bool} {t rest : GoString} (ht : ∀ b ∈ t, p b = true)
    (hrest : ∀ b, rest.head? = some b → p b = false) :
    (t ++ rest).takeWhile p = t ∧ (t ++ rest).dropWhile p = rest := by
  rw [List.takeWhile_append_of_pos ht, List.dropWhile_append_of_pos ht]
  cases rest with
  | nil => exact ⟨List.append_nil t, rfl⟩
  | cons b rest =>
    rw [List.takeWhile_cons, List.dropWhile_cons, hrest b rfl, if_neg Bool.false_ne_true,
      if_neg Bool.false_ne_true]
    exact ⟨List.append_nil t, rfl⟩

theorem head_dropWhile (p : UInt8 → Bool) (s : GoString) :
    ∀ b, (s.dropWhile p).head? = some b → p b = false := by
  intro b hb
  have hnot := List.head?_dropWhile_not p s
  rw [hb] at hnot
  exact hnot

theorem drop_takeWhile (p : UInt8 → Bool) (s : GoString) :
    s.drop (s.takeWhile p).length = s.dropWhile p := by
  conv_lhs => arg 2; rw [← List.takeWhile_append_dropWhile (p := p) (l := s)]
  exact List.drop_left

def isHost (b : UInt8) : Bool := !(b == 58 || isSpace b)

theorem isHost_iff {b : UInt8} : isHost b = true ↔ b ≠ 58 ∧ isSpace b = false := by
  simp [isHost]

/-- The expression behind the method, one class after the other. -/
theorem connectAt_append (s : GoString) :
    connectAt (lit "CONNECT" ++ s) =
      let host := (s.dropWhile isSpace).takeWhile isHost
      let s' := (s.dropWhile isSpace).dropWhile isHost
      let port := (s'.drop 1).takeWhile isDigit
      if s.takeWhile isSpace = [] ∨ host = [] ∨ s'.head? ≠ some 58 ∨ port = [] then none
      else some (host, port) := by
  have hdrop : (lit "CONNECT" ++ s).drop 7 = s := rfl
  rw [connectAt, if_pos (hasPrefix_iff.mpr ⟨s, rfl⟩), hdrop]
  simp only [drop_takeWhile]
  rfl

/-- A text that has the expression at its start is cut as it is put together. -/
theorem connectAt_of_spells {s host port : GoString} (h : Spells s host port) :
    connectAt s = some (host, port) := by
  obtain ⟨spaces, rest, rfl, hspaces, hspace, hhost, hbytes, hport, hdigits, hrest⟩ := h
  have hafter : ∀ b, (host ++ 58 :: (port ++ rest)).head? = some b → isSpace b = false := by
    intro b hb
    rw [List.head?_append_of_ne_nil _ hhost] at hb
    exact (hbytes b (List.mem_of_mem_head? hb)).2
  have hcolon : ∀ b, (58 :: (port ++ rest)).head? = some b → isHost b = false := by
    intro b hb
    obtain rfl := Option.some.inj hb
    decide
  have hclass : ∀ b ∈ host, isHost b = true := fun b hb => isHost_iff.mpr (hbytes b hb)
  obtain ⟨htake₁, hdrop₁⟩ := span_append hspace hafter
  obtain ⟨htake₂, hdrop₂⟩ := span_append hclass hcolon
  obtain ⟨htake₃, -⟩ := span_append hdigits hrest
  rw [connectAt_append]
  dsimp only
  rw [htake₁, hdrop₁, htake₂, hdrop₂, List.drop_one, List.tail_cons, htake₃, if_neg]
  rintro (h | h | h | h)
  · exact hspaces h
  · exact hhost h
  · exact h rfl
  · exact hport h

theorem connectAt_eq_some_iff {s host port : GoString} :
    connectAt s = some (host, port) ↔ Spells s host port := by
  refine ⟨fun h => ?_, connectAt_of_spells⟩
  have hprefix : hasPrefix s (lit "CONNECT") = true := by
    by_contra hnot
    rw [connectAt, if_neg hnot] at h
    cases h
  obtain ⟨s, rfl⟩ := hasPrefix_iff.mp hprefix
  rw [connectAt_append] at h
  dsimp only at h
  split at h
  · cases h
  · rename_i hparts
    rw [not_or, not_or, not_or] at hparts
    obtain ⟨hspaces, hhost, hcolon, hport⟩ := hparts
    obtain ⟨rfl, rfl⟩ := Prod.mk.inj (Option.some.inj h)
    obtain ⟨rest, hrest⟩ := List.head?_eq_some_iff.mp (not_not.mp hcolon)
    refine ⟨s.takeWhile isSpace, rest.dropWhile isDigit, ?_, hspaces, ?_, hhost, ?_, hport, ?_,
      head_dropWhile isDigit rest⟩
    · rw [hrest]
      change _ = _ ++ (_ ++ (_ ++ 58 :: (rest.takeWhile isDigit ++ _)))
      rw [List.takeWhile_append_dropWhile, ← hrest, List.takeWhile_append_dropWhile,
        List.takeWhile_append_dropWhile]
    · exact fun b hb => List.mem_takeWhile_imp hb
    · exact fun b hb => isHost_iff.mp (List.mem_takeWhile_imp hb)
    · exact fun b hb => List.mem_takeWhile_imp hb

theorem connectMatch_of_spells {s host port : GoString} (h : Spells s host port) :
    connectMatch s = some (host, port) := by
  have hat := connectAt_of_spells h
  cases s with
  | nil => cases hat
  | cons b s => rw [connectMatch, List.tails_cons, List.findSome?_cons, hat]

theorem spells_of_connectMatch {s host port : GoString} (h : connectMatch s = some (host, port)) :
    ∃ t, t <:+ s ∧ Spells t host port := by
  obtain ⟨t, ht, hat⟩ := List.exists_of_findSome?_eq_some h
  exact ⟨t, (List.mem_tails t s).mp ht, connectAt_eq_some_iff.mp hat⟩

/-- The search fails where no place has the expression. -/
theorem connectMatch_eq_none_iff {s : GoString} : connectMatch s = none ↔ ¬ SpellsSomewhere s := by
  rw [connectMatch, List.findSome?_eq_none_iff]
  constructor
  · rintro h ⟨t, host, port, ht, hspells⟩
    have hat := h t ((List.mem_tails t s).mpr ht)
    rw [connectAt_of_spells hspells] at hat
    cases hat
  · intro h t ht
    cases hat : connectAt t with
    | none => rfl
    | some found =>
      exact absurd ⟨t, found.1, found.2, (List.mem_tails t s).mp ht,
        connectAt_eq_some_iff.mp hat⟩ h

/-! ## The port -/

theorem foldl_digits (digits : GoString) :
    digits.foldl (fun n b => 10 * n + (b.toNat - 48)) 0 = decimal digits := by
  rw [decimal, Nat.ofDigits_eq_foldr, List.foldr_map, List.foldr_reverse]
  simp only [Nat.cast_id, Nat.add_comm]

/-- A number that `quint16` holds comes through. -/
theorem toNat_toPort {digits : GoString} (h : decimal digits ≤ 65535) :
    (toPort digits).toNat = decimal digits := by
  rw [toPort, foldl_digits, if_pos (by omega), UInt16.toNat_ofNat']
  exact Nat.mod_eq_of_lt (by omega)

example : toPort (lit "65979") = 443 := by decide +kernel

/-! ## Requests -/

theorem head?_of_blanks {s : GoString} (h : Blanks s) (t : GoString) :
    (s ++ t).head? = some 32 := by
  obtain ⟨b, s, rfl⟩ := List.exists_cons_of_ne_nil h.ne
  rw [h.blank b List.mem_cons_self]
  rfl

/-- The expression is at the start of a request whose host has no colon. -/
theorem spells_of_requests {head host : GoString} {port : Nat} (h : Requests head host port)
    (hcolon : 58 ∉ host) : ∃ digits, Spells head host digits ∧ decimal digits = port := by
  obtain ⟨spaces, digits, gap, version, rest, rfl, hspaces, hhost, hne, hdigits, hport, -, -, hgap,
    -⟩ := h
  refine ⟨digits, ⟨spaces, _, rfl, hspaces.ne, ?_, hhost.ne, ?_, hne, hdigits, ?_⟩, hport⟩
  · intro b hb
    rw [hspaces.blank b hb]
    decide
  · intro b hb
    refine ⟨?_, hhost.solid b hb⟩
    rintro rfl
    exact hcolon hb
  · intro b hb
    rw [head?_of_blanks hgap] at hb
    obtain rfl := Option.some.inj hb
    decide

/-- The host and the port of a request are one word of it. -/
theorem authority_of_requests {head host : GoString} {port : Nat} (h : Requests head host port) :
    ∃ digits, ((head.drop 7).dropWhile (· == 32)).takeWhile (· != 32) = host ++ 58 :: digits
      ∧ 58 ∉ digits ∧ decimal digits = port := by
  obtain ⟨spaces, digits, gap, version, rest, rfl, hspaces, hhost, -, hdigits, hport, -, -, hgap,
    -⟩ := h
  have hword : ∀ b ∈ host ++ 58 :: digits, (b != 32) = true := by
    intro b hb
    rw [bne_iff_ne]
    rintro rfl
    rcases List.mem_append.mp hb with hb | hb
    · exact absurd (hhost.solid 32 hb) (by decide)
    · rcases List.mem_cons.mp hb with hb | hb
      · exact absurd hb (by decide)
      · exact absurd (hdigits 32 hb) (by decide)
  refine ⟨digits, ?_, fun hmem => absurd (hdigits 58 hmem) (by decide), hport⟩
  have hdrop : ∀ s, (lit "CONNECT" ++ s).drop 7 = s := fun s => rfl
  rw [hdrop, (span_append ?blank ?word).2, ← List.cons_append, ← List.append_assoc,
    (span_append hword ?behind).1]
  case blank => exact fun b hb => beq_iff_eq.mpr (hspaces.blank b hb)
  case word =>
    intro b hb
    rw [List.head?_append_of_ne_nil _ hhost.ne] at hb
    refine beq_false_of_ne fun hblank => ?_
    have hsolid := hhost.solid b (List.mem_of_mem_head? hb)
    rw [hblank] at hsolid
    exact absurd hsolid (by decide)
  case behind =>
    intro b hb
    rw [head?_of_blanks hgap] at hb
    obtain rfl := Option.some.inj hb
    rfl

theorem requests_unique {head host host' : GoString} {port port' : Nat}
    (h : Requests head host port) (h' : Requests head host' port') :
    host = host' ∧ port = port' := by
  obtain ⟨digits, hword, hcolon, rfl⟩ := authority_of_requests h
  obtain ⟨digits', hword', hcolon', rfl⟩ := authority_of_requests h'
  rw [hword] at hword'
  have hhost : host = host' := by
    rw [← cutLast_append (x := host) hcolon, hword', cutLast_append hcolon']
  subst hhost
  rw [(List.cons.inj (List.append_cancel_left hword')).2]
  exact ⟨rfl, rfl⟩

/-! ## The handler -/

/-- A whole head that has the expression nowhere. -/
theorem parseConnect_of_none {st : Handler} (hend : crlf2 <:+ st.head)
    (hmatch : connectMatch st.head = none) :
    st.parseConnect.2 = false ∧ st.parseConnect.1.finished = true
      ∧ st.parseConnect.1.dialed = st.dialed := by
  have hwhole : contains st.head crlf2 = true := contains_iff.mpr hend.isInfix
  rw [Handler.head] at hwhole hmatch
  rw [Handler.parseConnect]
  dsimp only
  rw [if_neg (not_not.mpr hwhole), hmatch]
  exact ⟨rfl, rfl, rfl⟩

theorem parseConnect_of_some {st : Handler} {host digits : GoString} (hend : crlf2 <:+ st.head)
    (hmatch : connectMatch st.head = some (host, digits)) :
    st.parseConnect.2 = true ∧ st.parseConnect.1.targetHost = host
      ∧ st.parseConnect.1.targetPort = toPort digits := by
  have hwhole : contains st.head crlf2 = true := contains_iff.mpr hend.isInfix
  rw [Handler.head] at hwhole hmatch
  rw [Handler.parseConnect]
  dsimp only
  rw [if_neg (not_not.mpr hwhole), hmatch]
  exact ⟨rfl, rfl, rfl⟩

/-- **What the proxy takes for a `CONNECT` request.** For every connection that
has read a head up to its empty line: the head is read as meant exactly if its first
line is a request whose host has no colon, or if it is no request and no place of
the head has the expression. -/
theorem parseConnect_exact_iff (st : Handler) (hend : crlf2 <:+ st.head) :
    ReadsRequest st ↔
      (∃ host port, Requests st.head host port ∧ 58 ∉ host)
        ∨ ((¬ ∃ host port, Requests st.head host port) ∧ ¬ SpellsSomewhere st.head) := by
  constructor
  · intro h
    cases hmatch : connectMatch st.head with
    | none =>
      obtain ⟨hrefused, -, -⟩ := parseConnect_of_none hend hmatch
      refine .inr ⟨fun hrequest => ?_, connectMatch_eq_none_iff.mp hmatch⟩
      rw [h.accepts.mpr hrequest] at hrefused
      cases hrefused
    | some found =>
      obtain ⟨haccepted, hhost, -⟩ := parseConnect_of_some hend hmatch
      obtain ⟨host, port, hrequest⟩ := h.accepts.mp haccepted
      refine .inl ⟨host, port, hrequest, ?_⟩
      -- the host is the first group, and its class has no colon
      rw [← (h.target host port hrequest haccepted).1, hhost]
      obtain ⟨t, -, spaces, rest, -, -, -, -, hbytes, -⟩ := spells_of_connectMatch hmatch
      exact fun hmem => (hbytes 58 hmem).1 rfl
  · rintro (⟨host, port, hrequest, hcolon⟩ | ⟨hnone, hnowhere⟩)
    · obtain ⟨digits, hspells, hdecimal⟩ := spells_of_requests hrequest hcolon
      obtain ⟨haccepted, hhost, hport⟩ :=
        parseConnect_of_some hend (connectMatch_of_spells hspells)
      refine ⟨⟨fun _ => ⟨host, port, hrequest⟩, fun _ => haccepted⟩, ?_, ?_⟩
      · intro host' port' hrequest' _
        obtain ⟨rfl, rfl⟩ := requests_unique hrequest hrequest'
        refine ⟨hhost, ?_⟩
        obtain ⟨-, -, -, -, -, -, -, -, -, -, -, -, hle, -⟩ := hrequest
        rw [hport, toNat_toPort (hdecimal ▸ hle), hdecimal]
      · exact fun hnot => absurd ⟨host, port, hrequest⟩ hnot
    · obtain ⟨hrefused, hclosed⟩ :=
        parseConnect_of_none hend (connectMatch_eq_none_iff.mpr hnowhere)
      refine ⟨⟨fun haccepted => ?_, fun hrequest => absurd hrequest hnone⟩, ?_, fun _ => hclosed⟩
      · rw [hrefused] at haccepted
        cases haccepted
      · exact fun host port hrequest => absurd ⟨host, port, hrequest⟩ hnone

/-- The request of a browser. -/
theorem parseConnect_exact_example :
    ReadsRequest { client := lit "CONNECT example.com:443 HTTP/1.1\r\n\r\n" } := by
  refine (parseConnect_exact_iff _ ⟨lit "CONNECT example.com:443 HTTP/1.1", rfl⟩).mpr
    (.inl ⟨lit "example.com", 443, ⟨[32], lit "443", [32], lit "HTTP/1.1", lit "\r\n", ?_⟩, ?_⟩)
  · refine ⟨rfl, ⟨by decide, by simp⟩, ⟨by decide +kernel, ?_, ?_⟩, by decide +kernel, ?_,
      by decide +kernel, by decide, by decide, ⟨by decide, by simp⟩, 49, 49, rfl, rfl, rfl⟩
    · exact forall_mem_of_all (by decide +kernel)
    · intro hcolon
      exact absurd hcolon (by decide +kernel)
    · exact forall_mem_of_all (by decide +kernel)
  · decide +kernel

/-- A header of another request is accepted. -/
theorem header_is_accepted :
    ¬ ∀ st : Handler, crlf2 <:+ st.head → ReadsRequest st := by
  intro h
  have hreads := h { client := lit "GET / HTTP/1.1\r\nX: CONNECT evil.com:443\r\n\r\n" }
    ⟨lit "GET / HTTP/1.1\r\nX: CONNECT evil.com:443", rfl⟩
  obtain ⟨host, port, spaces, digits, gap, version, rest, heq, -⟩ :=
    hreads.accepts.mp (by decide +kernel)
  -- the first bytes are `G` and `C`
  have hfirst : some (71 : UInt8) = some 67 := congrArg List.head? heq
  exact absurd hfirst (by decide)

end Qt

end RbiProxy
