import RbiProxy.DnsFilter
import RbiProxy.GoNet

/-!
# The DNS server

`handleDNSRequest` on a message of any number of questions, with the tables of
any state of a refresh. It goes through the questions one by one: the first that
is an internal record or a blocked domain is answered and ends the message; for
any other the whole message is sent upstream.

A table is asked with the name in lower case and without the root dot, and holds
names as the lists and the settings spell them. An internal record is answered in an A
record, which has room for an IPv4 address only. `contained_iff` says for which messages
and tables nothing blocked goes upstream and every internal record is answered.
-/

namespace RbiProxy

namespace Dns

/-! ## Messages -/

/-- A question. The text of its name, as the DNS library gives it, is ASCII and
ends in the root dot. -/
structure Question where
  host : GoString
  ascii : ∀ b ∈ host, b < 0x80

def Question.name (q : Question) : GoString := q.host ++ [46]

/-- The name a question is looked up under; `table` is the part of
`unicode.ToLower` that is not ASCII. -/
def Question.domain (table : Rune → Rune) (q : Question) : GoString :=
  (toLower table q.name).dropLast

abbrev Msg := List Question

inductive Response where
  /-- The server is not running; the writer is closed. -/
  | closed
  /-- One A record, and what `net.ParseIP` makes of the text for it. -/
  | internal (name : GoString) (a : Option IP)
  /-- `NXDOMAIN`, with a CNAME record of the name to `blocked.local.`. -/
  | blocked (name : GoString)
  /-- The answers from upstream. -/
  | answers (records : List GoString)
  /-- Nothing, as upstream did not answer. -/
  | dropped
deriving DecidableEq

/-- What a request leads to: the response, the messages sent upstream, and the
domains with their types in the log. -/
structure Outcome where
  response : Response
  forwarded : List Msg := []
  logged : List (GoString × GoString) := []

inductive Verdict where
  | exception
  | internal (ip : GoString)
  | blocked
  | forward
deriving DecidableEq

def verdict (t : Tables) (domain : GoString) : Verdict :=
  if (t.exceptionDomains.lookup domain).isSome then .exception
  else
    match t.internalRecords.lookup domain with
    | some ip => .internal ip
    | none => if t.blockedDomains.get domain false then .blocked else .forward

/-- The response type in the log. -/
def Verdict.label : Verdict → GoString
  | .exception => lit "exception"
  | .internal _ => lit "internal"
  | .blocked => lit "blocked"
  | .forward => lit "forward"

section Serve

variable (table : Rune → Rune) (upstream : Nat → Option (List GoString)) (t : Tables)

/-- The loop over the questions; `upstream i` is what the `i`-th call of
`forwardDNSRequest` returns. -/
def questionLoop (r : Msg) : List Question → List GoString → Outcome → Outcome
  | [], answers, o => { o with response := .answers answers }
  | q :: qs, answers, o =>
    let domain := q.domain table
    let v := verdict t domain
    let o := { o with logged := o.logged ++ [(domain, v.label)] }
    match v with
    | .internal ip => { o with response := .internal q.name (parseIP ip) }
    | .blocked => { o with response := .blocked (domain ++ lit ".") }
    | .exception | .forward =>
      let i := o.forwarded.length
      let o := { o with forwarded := o.forwarded ++ [r] }
      match upstream i with
      | some records => questionLoop r qs (answers ++ records) o
      | none => { o with response := .dropped }

def handleDNSRequest (serverRunning : Bool) (r : Msg) : Outcome :=
  if serverRunning = false then { response := .closed }
  else questionLoop table upstream t r r [] { response := .dropped }

end Serve

/-! ## Names -/

/-- A name in lower case, as DNS compares them. -/
def lowered (s : GoString) : GoString := s.map lowerByte

/-- A name of a list or of the settings is the one of the question, case and
root dot aside. -/
def Spells (entry : GoString) (q : Question) : Prop :=
  lowered entry = lowered q.host ∨ lowered entry = lowered q.name

def SameName (q q' : Question) : Prop := lowered q.host = lowered q'.host

theorem domain_eq (table : Rune → Rune) (q : Question) : q.domain table = lowered q.host := by
  have hname : ∀ b ∈ q.name, b < 0x80 := by
    intro b hb
    obtain hhost | hdot := List.mem_append.mp hb
    · exact q.ascii b hhost
    · rw [List.mem_singleton.mp hdot]
      decide
  rw [Question.domain, toLower_ascii hname, Question.name, List.map_append, List.map_singleton,
    List.dropLast_concat]
  rfl

theorem lowered_lowered (s : GoString) : lowered (lowered s) = lowered s := by
  rw [lowered, lowered, List.map_map]
  exact List.map_congr_left fun b _ => lowerByte_lowerByte b

theorem spells_lowered {q q' : Question} (h : SameName q q') : Spells (lowered q.host) q' :=
  .inl ((lowered_lowered _).trans h)

/-! ## What an outcome is to be -/

namespace Server

def Listed (s : Server) (q : Question) : Prop := ∃ list ∈ s.merged, ∃ entry ∈ list, Spells entry q

/-- The settings have a record for the name. -/
def Internal (s : Server) (q : Question) : Prop := ∃ entry ∈ s.entries, Spells entry.domain q

def Excepted (s : Server) (q : Question) : Prop :=
  ∃ key, (s.tables.exceptionDomains.lookup key).isSome = true ∧ Spells key q

/-- No message that goes upstream has a question for a blocked name. -/
def NoLeak (s : Server) (o : Outcome) : Prop :=
  ∀ m ∈ o.forwarded, ∀ q ∈ m, s.Listed q → s.Excepted q ∨ s.Internal q

/-- The response is an A record with an IPv4 address that the settings have for the name. -/
def Answers (s : Server) (o : Outcome) (q : Question) : Prop :=
  ∃ q' ip, o.response = .internal q'.name (some ip) ∧ SameName q' q ∧ ip.to4.isSome
    ∧ ∃ entry ∈ s.entries, Spells entry.domain q ∧ parseIP entry.ip = some ip

/-- A question that the tables have in the spelling they are asked with: as an
internal record, or as a blocked domain. -/
def Stops (s : Server) (q : Question) : Prop :=
  (∃ entry ∈ s.entries, entry.domain = lowered q.host)
    ∨ ∃ list ∈ s.merged, lowered q.host ∈ list

variable {s : Server} {table : Rune → Rune} {upstream : Nat → Option (List GoString)}

/-- What the tables say of a question, in terms of what they were filled from. -/
theorem verdict_cases (hs : s.Filled) (table : Rune → Rune) (q : Question) :
    (∃ entry ∈ s.entries, entry.domain = lowered q.host
        ∧ verdict s.tables (q.domain table) = .internal entry.ip)
      ∨ ((∀ entry ∈ s.entries, entry.domain ≠ lowered q.host)
          ∧ (∃ list ∈ s.merged, lowered q.host ∈ list)
          ∧ verdict s.tables (q.domain table) = .blocked)
      ∨ (¬ s.Stops q ∧ verdict s.tables (q.domain table) = .forward) := by
  rw [domain_eq, verdict, hs.exceptions, if_neg (by simp), hs.internal]
  cases hl : (initializeInternalRecords s.entries).lookup (lowered q.host) with
  | some ip =>
      obtain ⟨entry, he, hd, rfl⟩ := exists_entry_of_lookup hl
      exact .inl ⟨entry, he, hd, rfl⟩
  | none =>
      have hno : ∀ entry ∈ s.entries, entry.domain ≠ lowered q.host := by
        intro entry he hd
        have hsome := lookup_isSome_of_mem he
        rw [hd, hl] at hsome
        cases hsome
      by_cases hblocked : s.tables.blockedDomains.get (lowered q.host) false = true
      · exact .inr (.inl ⟨hno, (hs.blocked _).mp hblocked, if_pos hblocked⟩)
      · refine .inr (.inr ⟨?_, if_neg hblocked⟩)
        rintro (⟨entry, he, hd⟩ | hlist)
        · exact hno entry he hd
        · exact hblocked ((hs.blocked _).mpr hlist)

/-- Without exceptions, the table of internal records is asked first. -/
theorem lookup_of_verdict (hs : s.Filled) {q : Question} {text : GoString}
    (h : verdict s.tables (q.domain table) = .internal text) :
    s.tables.internalRecords.lookup (lowered q.host) = some text := by
  rw [domain_eq, verdict, hs.exceptions, if_neg (by simp)] at h
  cases hl : s.tables.internalRecords.lookup (lowered q.host) with
  | some text' =>
      rw [hl] at h
      exact congrArg some (Verdict.internal.inj h)
  | none =>
      rw [hl] at h
      dsimp only at h
      split at h <;> cases h

theorem verdict_of_lookup (hs : s.Filled) {q : Question} {text : GoString}
    (h : s.tables.internalRecords.lookup (lowered q.host) = some text) :
    verdict s.tables (q.domain table) = .internal text := by
  rw [domain_eq, verdict, hs.exceptions, if_neg (by simp), h]

/-- The loop at a question that is not answered here. -/
theorem questionLoop_forward {q : Question} (h : verdict s.tables (q.domain table) = .forward)
    (r : Msg) (qs : List Question) (answers : List GoString) (o : Outcome) :
    questionLoop table upstream s.tables r (q :: qs) answers o
      = match upstream o.forwarded.length with
        | some records => questionLoop table upstream s.tables r qs (answers ++ records)
            { o with
              logged := o.logged ++ [(q.domain table, lit "forward")]
              forwarded := o.forwarded ++ [r] }
        | none =>
            { o with
              logged := o.logged ++ [(q.domain table, lit "forward")]
              forwarded := o.forwarded ++ [r]
              response := .dropped } := by
  rw [questionLoop, h]
  rfl

theorem questionLoop_internal {q : Question} {ip : GoString}
    (h : verdict s.tables (q.domain table) = .internal ip)
    (r : Msg) (qs : List Question) (answers : List GoString) (o : Outcome) :
    questionLoop table upstream s.tables r (q :: qs) answers o
      = { o with
          logged := o.logged ++ [(q.domain table, lit "internal")]
          response := .internal q.name (parseIP ip) } := by
  rw [questionLoop, h]
  rfl

theorem questionLoop_blocked {q : Question}
    (h : verdict s.tables (q.domain table) = .blocked)
    (r : Msg) (qs : List Question) (answers : List GoString) (o : Outcome) :
    questionLoop table upstream s.tables r (q :: qs) answers o
      = { o with
          logged := o.logged ++ [(q.domain table, lit "blocked")]
          response := .blocked (q.domain table ++ lit ".") } := by
  rw [questionLoop, h]
  rfl

/-! ## Upstream -/

/-- Only the message itself goes upstream, and nothing is taken back. -/
theorem forwarded_loop (table : Rune → Rune) (upstream : Nat → Option (List GoString))
    (hs : s.Filled) (r : Msg) (qs : List Question) (answers : List GoString) (o : Outcome) :
    o.forwarded <+: (questionLoop table upstream s.tables r qs answers o).forwarded
      ∧ ∀ m ∈ (questionLoop table upstream s.tables r qs answers o).forwarded,
          m ∈ o.forwarded ∨ m = r := by
  induction qs generalizing answers o with
  | nil => exact ⟨List.prefix_refl _, fun m hm => .inl hm⟩
  | cons q qs ih =>
      obtain ⟨entry, -, -, hv⟩ | ⟨-, -, hv⟩ | ⟨-, hv⟩ := verdict_cases hs table q
      · rw [questionLoop_internal hv]
        exact ⟨List.prefix_refl _, fun m hm => .inl hm⟩
      · rw [questionLoop_blocked hv]
        exact ⟨List.prefix_refl _, fun m hm => .inl hm⟩
      · rw [questionLoop_forward hv]
        have hmem : ∀ m ∈ o.forwarded ++ [r], m ∈ o.forwarded ∨ m = r := by
          intro m hm
          simpa using hm
        split
        · rename_i records _
          obtain ⟨hpre, hall⟩ := ih (answers ++ records)
            { o with
              logged := o.logged ++ [(q.domain table, lit "forward")]
              forwarded := o.forwarded ++ [r] }
          refine ⟨(List.prefix_append _ _).trans hpre, fun m hm => ?_⟩
          obtain hold | rfl := hall m hm
          · exact hmem m hold
          · exact .inr rfl
        · exact ⟨List.prefix_append _ _, hmem⟩

/-- The message goes upstream exactly when its first question is not answered
here. -/
theorem mem_forwarded_iff (hs : s.Filled) (r m : Msg) :
    m ∈ (handleDNSRequest table upstream s.tables true r).forwarded
      ↔ m = r ∧ ∃ q qs, r = q :: qs ∧ ¬ s.Stops q := by
  have hloop : handleDNSRequest table upstream s.tables true r
      = questionLoop table upstream s.tables r r [] { response := .dropped } := rfl
  rw [hloop]
  cases r with
  | nil => simp [questionLoop]
  | cons q qs =>
      obtain ⟨entry, he, hd, hv⟩ | ⟨-, hlist, hv⟩ | ⟨hno, hv⟩ := verdict_cases hs table q
      · have hstop : s.Stops q := .inl ⟨entry, he, hd⟩
        rw [questionLoop_internal hv]
        simp [hstop]
      · have hstop : s.Stops q := .inr hlist
        rw [questionLoop_blocked hv]
        simp [hstop]
      · have hall := (forwarded_loop table upstream hs (q :: qs) (q :: qs) []
          { response := .dropped }).2 m
        have hself : (q :: qs) ∈ (questionLoop table upstream s.tables (q :: qs) (q :: qs) []
            { response := .dropped }).forwarded := by
          rw [questionLoop_forward hv]
          split
          · exact (forwarded_loop table upstream hs _ _ _ _).1.subset (by simp)
          · simp
        constructor
        · intro hm
          obtain hold | rfl := hall hm
          · cases hold
          · exact ⟨rfl, q, qs, rfl, hno⟩
        · rintro ⟨rfl, -⟩
          exact hself

/-- A message is answered as blocked for a name that is in the tables. -/
theorem exists_list_of_blocked (hs : s.Filled) {r : Msg} {qs : List Question}
    {answers : List GoString} {o : Outcome} {d : GoString}
    (h : (questionLoop table upstream s.tables r qs answers o).response
      = .blocked (d ++ lit ".")) :
    ∃ list ∈ s.merged, d ∈ list := by
  induction qs generalizing answers o with
  | nil => cases h
  | cons q qs ih =>
      obtain ⟨entry, -, -, hv⟩ | ⟨-, hlist, hv⟩ | ⟨-, hv⟩ := verdict_cases hs table q
      · rw [questionLoop_internal hv] at h
        cases h
      · rw [questionLoop_blocked hv, domain_eq] at h
        rw [← List.append_cancel_right (Response.blocked.inj h)]
        exact hlist
      · rw [questionLoop_forward hv] at h
        split at h
        · exact ih h
        · cases h

/-! ## Internal records -/

/-- A split of a list at an element: at its head, or behind it. -/
theorem exists_split_cons {α : Type} {P : List α → α → Prop} (a : α) (as : List α) :
    (∃ pre b post, a :: as = pre ++ b :: post ∧ P pre b)
      ↔ P [] a ∨ ∃ pre b post, as = pre ++ b :: post ∧ P (a :: pre) b := by
  constructor
  · rintro ⟨pre, b, post, heq, hP⟩
    cases pre with
    | nil =>
        obtain ⟨rfl, -⟩ := List.cons.inj heq
        exact .inl hP
    | cons c pre =>
        obtain ⟨rfl, hrest⟩ := List.cons.inj heq
        exact .inr ⟨pre, b, post, hrest, hP⟩
  · rintro (hP | ⟨pre, b, post, rfl, hP⟩)
    · exact ⟨[], a, as, rfl, hP⟩
    · exact ⟨a :: pre, b, post, rfl, hP⟩

/-- The questions before `q` all went upstream and came back. -/
def Passed (s : Server) (upstream : Nat → Option (List GoString)) (i : Nat)
    (pre : List Question) : Prop :=
  (∀ p ∈ pre, ¬ s.Stops p) ∧ ∀ k < pre.length, (upstream (i + k)).isSome = true

theorem passed_cons {i : Nat} {q : Question} {pre : List Question} :
    s.Passed upstream i (q :: pre)
      ↔ ¬ s.Stops q ∧ (upstream i).isSome = true ∧ s.Passed upstream (i + 1) pre := by
  rw [Passed, Passed, List.forall_mem_cons, List.length_cons]
  constructor
  · rintro ⟨⟨hq, hpre⟩, hup⟩
    refine ⟨hq, hup 0 (Nat.succ_pos _), hpre, fun k hk => ?_⟩
    have hnext := hup (k + 1) (Nat.succ_lt_succ hk)
    rwa [← Nat.add_assoc, Nat.add_right_comm] at hnext
  · rintro ⟨hq, hfirst, hpre, hup⟩
    refine ⟨⟨hq, hpre⟩, fun k hk => ?_⟩
    cases k with
    | zero => exact hfirst
    | succ k =>
        have hnext := hup k (Nat.lt_of_succ_lt_succ hk)
        rwa [Nat.add_right_comm] at hnext

/-- A question is answered from the settings when those before it have
passed. -/
theorem response_loop (table : Rune → Rune) (upstream : Nat → Option (List GoString))
    (hs : s.Filled) (r : Msg) (qs : List Question) (answers : List GoString) (o : Outcome)
    (name : GoString) (a : Option IP) :
    (questionLoop table upstream s.tables r qs answers o).response = .internal name a
      ↔ ∃ pre q post, qs = pre ++ q :: post ∧ s.Passed upstream o.forwarded.length pre
        ∧ ∃ ip, verdict s.tables (q.domain table) = .internal ip ∧ name = q.name
          ∧ a = parseIP ip := by
  induction qs generalizing answers o with
  | nil => simp [questionLoop]
  | cons q qs ih =>
      rw [exists_split_cons (P := fun pre q => s.Passed upstream o.forwarded.length pre
        ∧ ∃ ip, verdict s.tables (q.domain table) = .internal ip ∧ name = q.name
          ∧ a = parseIP ip)]
      simp only [passed_cons]
      obtain ⟨entry, he, hd, hv⟩ | ⟨-, hlist, hv⟩ | ⟨hno, hv⟩ := verdict_cases hs table q
      · have hstop : s.Stops q := .inl ⟨entry, he, hd⟩
        have hnil : s.Passed upstream o.forwarded.length [] := by simp [Passed]
        rw [questionLoop_internal hv, hv]
        simp only [hstop, hnil, not_true_eq_false, false_and, and_false, exists_false, or_false,
          true_and, Response.internal.injEq, Verdict.internal.injEq]
        constructor
        · rintro ⟨rfl, rfl⟩
          exact ⟨entry.ip, rfl, rfl, rfl⟩
        · rintro ⟨ip, rfl, rfl, rfl⟩
          exact ⟨rfl, rfl⟩
      · have hstop : s.Stops q := .inr hlist
        rw [questionLoop_blocked hv, hv]
        simp [hstop]
      · rw [questionLoop_forward hv, hv]
        cases hup : upstream o.forwarded.length with
        | none => simp
        | some records =>
            dsimp only
            rw [ih, List.length_append]
            simp [hno]

/-! ## The result -/

/-- Nothing blocked goes upstream: the server is stopped, the first question is
answered here, or no question has a blocked name. -/
def NoLeakWhen (s : Server) (serverRunning : Bool) (r : Msg) : Prop :=
  serverRunning = false ∨ (∀ q qs, r = q :: qs → s.Stops q)
    ∨ ∀ q ∈ r, s.Listed q → s.Internal q

/-- Internal records are answered: there is no question for one, or the first
question the tables stop at is one in lower case and without root dot in the
settings, with the text of an IPv4 address, upstream has answered those before it, and
there is no question for another internal record. -/
def AnswersWhen (s : Server) (upstream : Nat → Option (List GoString)) (serverRunning : Bool)
    (r : Msg) : Prop :=
  (∀ q ∈ r, ¬ s.Internal q)
    ∨ (serverRunning = true ∧ ∃ pre q post, r = pre ++ q :: post ∧ s.Passed upstream 0 pre
        ∧ (∃ text ip, s.tables.internalRecords.lookup (lowered q.host) = some text
          ∧ parseIP text = some ip ∧ ip.to4.isSome)
        ∧ ∀ q' ∈ r, s.Internal q' → SameName q q')

theorem noLeak_iff (hs : s.Filled) (serverRunning : Bool) (r : Msg) :
    s.NoLeak (handleDNSRequest table upstream s.tables serverRunning r)
      ↔ s.NoLeakWhen serverRunning r := by
  have hexc : ∀ q, ¬ s.Excepted q := by
    rintro q ⟨key, hkey, -⟩
    rw [hs.exceptions] at hkey
    cases hkey
  cases serverRunning with
  | false => simp [NoLeak, NoLeakWhen, handleDNSRequest]
  | true =>
      simp only [NoLeak, NoLeakWhen, mem_forwarded_iff hs, Bool.true_eq_false, false_or, hexc]
      constructor
      · intro h
        by_cases hfirst : ∃ q qs, r = q :: qs ∧ ¬ s.Stops q
        · exact .inr (h r ⟨rfl, hfirst⟩)
        · refine .inl fun q qs heq => ?_
          by_contra hno
          exact hfirst ⟨q, qs, heq, hno⟩
      · rintro (hstop | hall) m ⟨rfl, q, qs, hm, hno⟩
        · exact absurd (hstop q qs hm) hno
        · exact hall

theorem answers_iff (hs : s.Filled) (serverRunning : Bool) (r : Msg) :
    (∀ q ∈ r, s.Internal q → s.Answers (handleDNSRequest table upstream s.tables serverRunning r) q)
      ↔ s.AnswersWhen upstream serverRunning r := by
  by_cases hany : ∀ q ∈ r, ¬ s.Internal q
  · exact iff_of_true (fun q hq hi => absurd hi (hany q hq)) (.inl hany)
  simp only [AnswersWhen, hany, false_or]
  cases serverRunning with
  | false =>
      simp only [not_forall, not_not] at hany
      obtain ⟨q, hq, hi⟩ := hany
      refine iff_of_false (fun h => ?_) (by simp)
      obtain ⟨q', ip, hresp, -⟩ := h q hq hi
      cases hresp
  | true =>
      have hloop : handleDNSRequest table upstream s.tables true r
          = questionLoop table upstream s.tables r r [] { response := .dropped } := rfl
      have hresp := fun name a => response_loop table upstream hs r r []
        { response := .dropped } name a
      rw [hloop]
      simp only [not_forall, not_not] at hany
      obtain ⟨q₀, hq₀, hi₀⟩ := hany
      constructor
      · intro h
        obtain ⟨q', ip, hr, -, hfour, -⟩ := h q₀ hq₀ hi₀
        obtain ⟨pre, q, post, heq, hpass, text, hv, hname, htext⟩ := (hresp _ _).mp hr
        refine ⟨rfl, pre, q, post, heq, hpass,
          ⟨text, ip, lookup_of_verdict hs hv, htext.symm, hfour⟩, fun q₁ hq₁ hi₁ => ?_⟩
        -- there is one response, so all these questions have its name
        obtain ⟨q₂, ip₂, hr₂, hsame, -⟩ := h q₁ hq₁ hi₁
        rw [hr] at hr₂
        have hhost : q.host = q₂.host := by
          have hnames := hname.symm.trans (Response.internal.inj hr₂).1
          exact List.append_cancel_right hnames
        rw [SameName, hhost]
        exact hsame
      · rintro ⟨-, pre, q, post, heq, hpass, ⟨text, ip, hlookup, htext, hfour⟩, hall⟩ q' hq' hi'
        obtain ⟨entry, he, hd, rfl⟩ := exists_entry_of_lookup (hs.internal ▸ hlookup)
        refine ⟨q, ip, (hresp _ _).mpr ⟨pre, q, post, heq, hpass, entry.ip,
            verdict_of_lookup hs hlookup, rfl, htext.symm⟩,
          hall q' hq' hi', hfour, entry, he, ?_, htext⟩
        rw [hd]
        exact spells_lowered (hall q' hq' hi')

/-- **Containment.** For the tables of every state of a refresh and every
message: nothing blocked goes upstream and every question for an internal record
is answered with its address, exactly under the two conditions. -/
theorem contained_iff (table : Rune → Rune) (upstream : Nat → Option (List GoString))
    (as : List Action) (serverRunning : Bool) (r : Msg) :
    ((run as).NoLeak (handleDNSRequest table upstream (run as).tables serverRunning r)
        ∧ ∀ q ∈ r, (run as).Internal q →
          (run as).Answers (handleDNSRequest table upstream (run as).tables serverRunning r) q)
      ↔ (run as).NoLeakWhen serverRunning r ∧ (run as).AnswersWhen upstream serverRunning r := by
  have hs := run_filled as
  rw [noLeak_iff hs, answers_iff hs]

def oneList (body : GoString) : List Action :=
  [.resetBlocked, .resetLists, .resetInternal, .resetExceptions,
    .readLists (some [lit "http://lists/ads"]), .loadInternal [],
    .fetch (lit "http://lists/ads") (some (body, true)), .merge 0, .wait, .loadExceptions]

def adsQuestion : Question := ⟨lit "ads.example", ascii_of_all (by decide)⟩

/-- A list in capitals blocks nothing: the question goes upstream. -/
theorem capital_entry_leaks :
    ¬ ∀ (table : Rune → Rune) (upstream : Nat → Option (List GoString)) (as : List Action)
        (serverRunning : Bool) (r : Msg),
        (run as).NoLeak (handleDNSRequest table upstream (run as).tables serverRunning r)
          ∧ ∀ q ∈ r, (run as).Internal q →
            (run as).Answers (handleDNSRequest table upstream (run as).tables serverRunning r) q := by
  intro h
  have hmerged : (run (oneList (lit "0.0.0.0 Ads.Example\n"))).merged = [[lit "Ads.Example"]] := by
    decide +kernel
  have hentries : (run (oneList (lit "0.0.0.0 Ads.Example\n"))).entries = [] := by decide +kernel
  have hleak := (h id (fun _ => none) (oneList (lit "0.0.0.0 Ads.Example\n")) true [adsQuestion]).1
  rw [noLeak_iff (run_filled _)] at hleak
  obtain hrun | hstop | hall := hleak
  · cases hrun
  · obtain ⟨entry, he, -⟩ | ⟨list, hlist, hmem⟩ := hstop adsQuestion [] rfl
    · rw [hentries] at he
      cases he
    · rw [hmerged, List.mem_singleton] at hlist
      rw [hlist] at hmem
      exact absurd hmem (by decide)
  · have hlisted : (run (oneList (lit "0.0.0.0 Ads.Example\n"))).Listed adsQuestion := by
      rw [Listed, hmerged]
      exact ⟨_, List.mem_singleton_self _, _, List.mem_singleton_self _, .inl (by decide)⟩
    obtain ⟨entry, he, -⟩ := hall adsQuestion (List.mem_singleton_self _) hlisted
    rw [hentries] at he
    cases he

end Server

end Dns

end RbiProxy
