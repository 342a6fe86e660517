import Mathlib.Data.List.Basic
import Mathlib.Data.List.TakeWhile
import RbiProxy.GoString

/-!
# Lists in the configuration of an extension

`X509V3_parse_list` of OpenSSL: a text is cut at its commas, each piece at its
first colon, and what is left is freed of white space at both ends (but not behind a
single byte); nothing may be left empty. The text is a C string, so it ends at a
zero. The loop also ends at the end of a line, but the last piece is then the rest of
the text, with the end of the line in it.

For any text, the commas of its first line say how many entries there are
(`length_parseLoop`). All values but the last are plain (`values_parseLoop`), and
where the last one is taken from is said by `last_parseLoop`.
-/

namespace RbiProxy

namespace ConfList

/-! ## White space -/

/-- `ossl_isspace`. -/
def isSpace (b : UInt8) : Bool := b = 32 || (9 ≤ b && b ≤ 13)

def isLineEnd (b : UInt8) : Bool := b = 13 || b = 10

/-- `strip_spaces`; `none` if nothing is left. The end is cut off behind a byte other than
the first, so that what stands behind a value of one byte stays. -/
def stripSpaces (s : GoString) : Option GoString :=
  let p := s.dropWhile isSpace
  let q := (p.reverse.dropWhile isSpace).reverse
  if p = [] then none else if q.length = 1 then some p else some q

example : stripSpaces (lit " ab ") = some (lit "ab") ∧ stripSpaces (lit " b ") = some (lit "b ") := by
  decide

/-- A text that `strip_spaces` leaves as it is: it begins with no white space, and ends
with none unless it is one byte and white space. -/
structure Tight (s : GoString) : Prop where
  ne : s ≠ []
  head : ∀ c, s.head? = some c → isSpace c = false
  last : (∀ c, s.getLast? = some c → isSpace c = false) ∨ ∀ c ∈ s.tail, isSpace c = true

theorem dropWhile_of_head {s : GoString} (h : ∀ c, s.head? = some c → isSpace c = false) :
    s.dropWhile isSpace = s := by
  cases s with
  | nil => rfl
  | cons c s => rw [List.dropWhile_cons, h c rfl, if_neg (by decide)]

theorem head_dropWhile (s : GoString) :
    ∀ c, (s.dropWhile isSpace).head? = some c → isSpace c = false := by
  intro c hc
  have hnot := List.head?_dropWhile_not isSpace s
  rw [hc] at hnot
  exact hnot

theorem strip_end (s : GoString) :
    (∃ after, s = (s.reverse.dropWhile isSpace).reverse ++ after)
      ∧ ∀ c, (s.reverse.dropWhile isSpace).reverse.getLast? = some c → isSpace c = false := by
  constructor
  · have hsplit := congrArg List.reverse
      (List.takeWhile_append_dropWhile (p := isSpace) (l := s.reverse))
    rw [List.reverse_append, List.reverse_reverse] at hsplit
    exact ⟨_, hsplit.symm⟩
  · intro c hc
    rw [List.getLast?_reverse] at hc
    exact head_dropWhile s.reverse c hc

theorem space_of_strip_end {s after : GoString}
    (h : s = (s.reverse.dropWhile isSpace).reverse ++ after) : ∀ c ∈ after, isSpace c = true := by
  have hsplit := congrArg List.reverse
    (List.takeWhile_append_dropWhile (p := isSpace) (l := s.reverse))
  rw [List.reverse_append, List.reverse_reverse] at hsplit
  have hafter := List.append_cancel_left (hsplit.trans h)
  intro c hc
  rw [← hafter, List.mem_reverse] at hc
  exact List.mem_takeWhile_imp hc

theorem strip_end_of_tail {c : UInt8} {s : GoString} (hc : isSpace c = false)
    (h : ∀ d ∈ s, isSpace d = true) : ((c :: s).reverse.dropWhile isSpace).reverse = [c] := by
  have hrest : ∀ d ∈ s.reverse, isSpace d = true := fun d hd => h d (List.mem_reverse.mp hd)
  rw [List.reverse_cons, List.dropWhile_append_of_pos hrest, List.dropWhile_cons, hc,
    if_neg (by decide), List.reverse_singleton]

theorem stripSpaces_of_tight {s : GoString} (h : Tight s) : stripSpaces s = some s := by
  unfold stripSpaces
  rw [dropWhile_of_head h.head]
  dsimp only
  rw [if_neg h.ne]
  rcases h.last with hlast | htail
  · have hback : ∀ c, s.reverse.head? = some c → isSpace c = false := by
      intro c hc
      rw [List.head?_reverse] at hc
      exact hlast c hc
    rw [dropWhile_of_head hback, List.reverse_reverse, ite_self]
  · obtain ⟨c, s, rfl⟩ := List.exists_cons_of_ne_nil h.ne
    rw [List.tail_cons] at htail
    rw [strip_end_of_tail (h.head c rfl) htail]
    rfl

theorem of_stripSpaces {s v : GoString} (h : stripSpaces s = some v) :
    Tight v ∧ ∃ before after, s = before ++ (v ++ after) := by
  unfold stripSpaces at h
  dsimp only at h
  have hfront := List.takeWhile_append_dropWhile (p := isSpace) (l := s)
  have hhead := head_dropWhile s
  obtain ⟨⟨after, hafter⟩, hlast⟩ := strip_end (s.dropWhile isSpace)
  have hspace := space_of_strip_end hafter
  generalize s.dropWhile isSpace = p at h hfront hhead hafter hlast hspace
  generalize (p.reverse.dropWhile isSpace).reverse = q at h hafter hlast
  subst hafter
  split at h
  · cases h
  rename_i hne
  split at h
  · -- one byte is left, and what stands behind it with it
    rename_i hone
    obtain rfl := Option.some.inj h
    obtain ⟨c, rfl⟩ := List.length_eq_one_iff.mp hone
    refine ⟨⟨hne, hhead, .inr hspace⟩, s.takeWhile isSpace, [], ?_⟩
    rw [List.append_nil, hfront]
  · obtain rfl := Option.some.inj h
    have hq : q ≠ [] := by
      rintro rfl
      rw [List.nil_append] at hne hhead
      obtain ⟨c, rest, rfl⟩ := List.exists_cons_of_ne_nil hne
      have hc := hspace c List.mem_cons_self
      rw [hhead c rfl] at hc
      cases hc
    refine ⟨⟨hq, fun c hc => hhead c ?_, .inl hlast⟩, s.takeWhile isSpace, after, hfront.symm⟩
    rw [List.head?_append, hc]
    rfl

theorem tight_of_stripSpaces {s v : GoString} (h : stripSpaces s = some v) :
    Tight v ∧ ∀ c ∈ v, c ∈ s := by
  obtain ⟨htight, before, after, rfl⟩ := of_stripSpaces h
  refine ⟨htight, fun c hc => ?_⟩
  exact List.mem_append_right _ (List.mem_append_left _ hc)

/-! ## The loop -/

/-- `CONF_VALUE`: a name, and its value if there is a colon. -/
abbrev Entry := GoString × Option GoString

/-- The entry behind the last comma. -/
def finish (name : Option GoString) (q : GoString) : Option (List Entry) :=
  match name with
  | none => (stripSpaces q).map fun n => [(n, none)]
  | some n => (stripSpaces q).map fun v => [(n, some v)]

/-- The loop: the name of the entry, if it has been read, what has been read since
then, and the rest. -/
def parseLoop : Option GoString → GoString → GoString → Option (List Entry)
  | name, q, [] => finish name q
  | name, q, c :: s =>
    if isLineEnd c then finish name (q ++ c :: s)
    else
      match name with
      | none =>
        if c = 58 then (stripSpaces q).bind fun n => parseLoop (some n) [] s
        else if c = 44 then
          (stripSpaces q).bind fun n => (parseLoop none [] s).map ((n, none) :: ·)
        else parseLoop none (q ++ [c]) s
      | some n =>
        if c = 44 then
          (stripSpaces q).bind fun v => (parseLoop none [] s).map ((n, some v) :: ·)
        else parseLoop (some n) (q ++ [c]) s

/-- `X509V3_parse_list`. -/
def parseList (line : GoString) : Option (List Entry) :=
  parseLoop none [] (line.takeWhile fun c => c != 0)

/-! ## What it does on parts of a text -/

def firstLine (s : GoString) : GoString := s.takeWhile fun c => !isLineEnd c

def Plain (s : GoString) : Prop := ∀ c ∈ s, c ≠ 44 ∧ isLineEnd c = false

theorem plain_nil : Plain [] := List.forall_mem_nil _

theorem Plain.concat {q : GoString} (hq : Plain q) {c : UInt8} (hc : c ≠ 44)
    (hline : isLineEnd c = false) : Plain (q ++ [c]) := by
  intro d hd
  obtain hd | hd := List.mem_append.mp hd
  · exact hq d hd
  · rw [List.mem_singleton.mp hd]
    exact ⟨hc, hline⟩

theorem Plain.past {q u : GoString} (hq : Plain q) {c : UInt8} (hc : isLineEnd c = false)
    (hu : ∀ d ∈ u, isLineEnd d = false) : ∀ d ∈ q ++ c :: u, isLineEnd d = false := by
  intro d hd
  obtain hd | hd := List.mem_append.mp hd
  · exact (hq d hd).2
  · obtain rfl | hd := List.mem_cons.mp hd
    · exact hc
    · exact hu d hd

theorem firstLine_cons_of_not {c : UInt8} (hc : isLineEnd c = false) (s : GoString) :
    firstLine (c :: s) = c :: firstLine s := by
  rw [firstLine, List.takeWhile_cons, hc]
  rfl

theorem firstLine_cons_of_end {c : UInt8} (hc : isLineEnd c = true) (s : GoString) :
    firstLine (c :: s) = [] := by
  rw [firstLine, List.takeWhile_cons, hc]
  rfl

theorem firstLine_append_of_not {u : GoString} (h : ∀ c ∈ u, isLineEnd c = false) (s : GoString) :
    firstLine (u ++ s) = u ++ firstLine s :=
  List.takeWhile_append_of_pos fun c hc => by rw [h c hc]; rfl

/-- What is behind a text with an end of a line in it is not on the first line. -/
theorem firstLine_append_of_end {d : GoString} (h : ∃ c ∈ d, isLineEnd c = true) (s : GoString) :
    firstLine (d ++ s) = firstLine d := by
  induction d with
  | nil =>
      obtain ⟨c, hc, -⟩ := h
      cases hc
  | cons b d ih =>
      rw [List.cons_append]
      cases hb : isLineEnd b with
      | true => rw [firstLine_cons_of_end hb, firstLine_cons_of_end hb]
      | false =>
          have hrest : ∃ c ∈ d, isLineEnd c = true := by
            obtain ⟨c, hc, hend⟩ := h
            obtain rfl | hc := List.mem_cons.mp hc
            · rw [hb] at hend
              cases hend
            · exact ⟨c, hc, hend⟩
          rw [firstLine_cons_of_not hb, firstLine_cons_of_not hb, ih hrest]

section Value

variable (n : GoString) {v : GoString}

theorem parseLoop_plain (hv : Plain v) (q s : GoString) :
    parseLoop (some n) q (v ++ s) = parseLoop (some n) (q ++ v) s := by
  induction v generalizing q with
  | nil => rw [List.nil_append, List.append_nil]
  | cons c v ih =>
      obtain ⟨⟨hcomma, hline⟩, hrest⟩ := List.forall_mem_cons.mp hv
      rw [List.cons_append, parseLoop, if_neg (by rw [hline]; decide), if_neg hcomma, ih hrest,
        List.append_assoc]
      rfl

theorem parseLoop_comma (q s : GoString) :
    parseLoop (some n) q (44 :: s)
      = (stripSpaces q).bind fun v => (parseLoop none [] s).map ((n, some v) :: ·) := rfl

/-- The last value: there is no comma before the end of the line. -/
theorem parseLoop_last (hv : 44 ∉ firstLine v) (q : GoString) :
    parseLoop (some n) q v = (stripSpaces (q ++ v)).map fun v => [(n, some v)] := by
  induction v generalizing q with
  | nil =>
      rw [List.append_nil]
      rfl
  | cons c v ih =>
      rw [parseLoop]
      cases hline : isLineEnd c with
      | true =>
          rw [if_pos rfl]
          rfl
      | false =>
          rw [firstLine_cons_of_not hline, List.mem_cons, not_or] at hv
          rw [if_neg (by decide), if_neg (Ne.symm hv.1), ih hv.2, List.append_assoc]
          rfl

end Value

/-! ## Every text -/

theorem finish_eq_some {name : Option GoString} {q : GoString} {es : List Entry}
    (h : finish name q = some es) :
    ∃ e, es = [e] ∧ ∀ v, e.2 = some v → stripSpaces q = some v := by
  cases name with
  | none =>
      obtain ⟨n, -, rfl⟩ := Option.map_eq_some_iff.mp h
      exact ⟨(n, none), rfl, fun v hv => by cases hv⟩
  | some n =>
      obtain ⟨v, hv, rfl⟩ := Option.map_eq_some_iff.mp h
      refine ⟨(n, some v), rfl, fun w hw => ?_⟩
      rw [← Option.some.inj hw]
      exact hv

theorem values_finish {name : Option GoString} {q : GoString} {es : List Entry}
    (h : finish name q = some es) :
    (∀ e ∈ es, ∀ v, e.2 = some v → Tight v ∧ ∀ c ∈ v, c ∈ q) ∧ es.dropLast = [] := by
  obtain ⟨e, rfl, hv⟩ := finish_eq_some h
  refine ⟨fun e' he v hval => ?_, rfl⟩
  rw [List.mem_singleton.mp he] at hval
  exact tight_of_stripSpaces (hv v hval)

/-- One round: the loop ends, or an entry or a name is complete, or a byte is
added to what was read. -/
theorem parseLoop_cons {name : Option GoString} {q s : GoString} {c : UInt8} {es : List Entry}
    (h : parseLoop name q (c :: s) = some es) :
    (isLineEnd c = true ∧ finish name (q ++ c :: s) = some es)
      ∨ (isLineEnd c = false ∧ c = 44 ∧ ∃ e es', parseLoop none [] s = some es' ∧ es = e :: es'
          ∧ ∀ v, e.2 = some v → stripSpaces q = some v)
      ∨ (isLineEnd c = false ∧ c ≠ 44 ∧ ∃ n, parseLoop (some n) [] s = some es)
      ∨ (isLineEnd c = false ∧ c ≠ 44 ∧ parseLoop name (q ++ [c]) s = some es) := by
  cases name with
  | none =>
      rw [parseLoop] at h
      by_cases hline : isLineEnd c = true
      · rw [if_pos hline] at h
        exact .inl ⟨hline, h⟩
      rw [if_neg hline] at h
      rw [Bool.not_eq_true] at hline
      by_cases hcolon : c = 58
      · rw [if_pos hcolon] at h
        obtain ⟨n, -, hrest⟩ := Option.bind_eq_some_iff.mp h
        have hne : c ≠ 44 := by
          rw [hcolon]
          decide
        exact .inr (.inr (.inl ⟨hline, hne, n, hrest⟩))
      rw [if_neg hcolon] at h
      by_cases hcomma : c = 44
      · rw [if_pos hcomma] at h
        obtain ⟨n, -, hrest⟩ := Option.bind_eq_some_iff.mp h
        obtain ⟨es', hes, rfl⟩ := Option.map_eq_some_iff.mp hrest
        exact .inr (.inl ⟨hline, hcomma, (n, none), es', hes, rfl, fun v hv => by cases hv⟩)
      · rw [if_neg hcomma] at h
        exact .inr (.inr (.inr ⟨hline, hcomma, h⟩))
  | some n =>
      rw [parseLoop] at h
      by_cases hline : isLineEnd c = true
      · rw [if_pos hline] at h
        exact .inl ⟨hline, h⟩
      rw [if_neg hline] at h
      rw [Bool.not_eq_true] at hline
      by_cases hcomma : c = 44
      · rw [if_pos hcomma] at h
        obtain ⟨v, hv, hrest⟩ := Option.bind_eq_some_iff.mp h
        obtain ⟨es', hes, rfl⟩ := Option.map_eq_some_iff.mp hrest
        refine .inr (.inl ⟨hline, hcomma, (n, some v), es', hes, rfl, fun w hw => ?_⟩)
        rw [← Option.some.inj hw]
        exact hv
      · rw [if_neg hcomma] at h
        exact .inr (.inr (.inr ⟨hline, hcomma, h⟩))

theorem length_parseLoop {name : Option GoString} {q s : GoString} {es : List Entry}
    (h : parseLoop name q s = some es) : es.length = (firstLine s).count 44 + 1 := by
  induction s generalizing name q es with
  | nil =>
      obtain ⟨e, rfl, -⟩ := finish_eq_some h
      rfl
  | cons c s ih =>
      obtain ⟨hline, hfin⟩ | ⟨hline, rfl, e, es', hrest, rfl, -⟩ | ⟨hline, hne, n, hrest⟩ |
        ⟨hline, hne, hrest⟩ := parseLoop_cons h
      · obtain ⟨e, rfl, -⟩ := finish_eq_some hfin
        rw [firstLine_cons_of_end hline]
        rfl
      · rw [firstLine_cons_of_not hline, List.count_cons_self, List.length_cons, ih hrest]
      · rw [firstLine_cons_of_not hline, List.count_cons_of_ne hne, ih hrest]
      · rw [firstLine_cons_of_not hline, List.count_cons_of_ne hne, ih hrest]

theorem ne_nil_of_parseLoop {name : Option GoString} {q s : GoString} {es : List Entry}
    (h : parseLoop name q s = some es) : es ≠ [] := by
  rintro rfl
  exact absurd (length_parseLoop h) (by simp)

/-- All values have their ends stripped, and their bytes from the text; all but
the last are plain. -/
theorem values_parseLoop {name : Option GoString} {q s : GoString} {es : List Entry}
    (h : parseLoop name q s = some es) (hq : Plain q) :
    (∀ e ∈ es, ∀ v, e.2 = some v → Tight v ∧ ∀ c ∈ v, c ∈ q ++ s)
      ∧ ∀ e ∈ es.dropLast, ∀ v, e.2 = some v → Plain v := by
  induction s generalizing name q es with
  | nil =>
      obtain ⟨hall, hinit⟩ := values_finish h
      rw [hinit, List.append_nil]
      exact ⟨hall, List.forall_mem_nil _⟩
  | cons c s ih =>
      obtain ⟨hline, hfin⟩ | ⟨hline, rfl, e, es', hrest, rfl, hv⟩ | ⟨hline, hne, n, hrest⟩ |
        ⟨hline, hne, hrest⟩ := parseLoop_cons h
      · obtain ⟨hall, hinit⟩ := values_finish hfin
        rw [hinit]
        exact ⟨hall, List.forall_mem_nil _⟩
      · obtain ⟨hall, hinit⟩ := ih hrest plain_nil
        have hfirst : ∀ v, e.2 = some v → (Tight v ∧ ∀ d ∈ v, d ∈ q) :=
          fun v hval => tight_of_stripSpaces (hv v hval)
        rw [List.dropLast_cons_of_ne_nil (ne_nil_of_parseLoop hrest)]
        constructor
        · intro e' he v hval
          obtain rfl | he := List.mem_cons.mp he
          · obtain ⟨htight, hmem⟩ := hfirst v hval
            exact ⟨htight, fun d hd => List.mem_append_left _ (hmem d hd)⟩
          · obtain ⟨htight, hmem⟩ := hall e' he v hval
            exact ⟨htight, fun d hd =>
              List.mem_append_right _ (List.mem_cons_of_mem _ (hmem d hd))⟩
        · intro e' he v hval
          obtain rfl | he := List.mem_cons.mp he
          · exact fun d hd => hq d ((hfirst v hval).2 d hd)
          · exact hinit e' he v hval
      · obtain ⟨hall, hinit⟩ := ih hrest plain_nil
        refine ⟨fun e he v hval => ?_, hinit⟩
        obtain ⟨htight, hmem⟩ := hall e he v hval
        exact ⟨htight, fun d hd => List.mem_append_right _ (List.mem_cons_of_mem _ (hmem d hd))⟩
      · obtain ⟨hall, hinit⟩ := ih hrest (hq.concat hne hline)
        refine ⟨fun e he v hval => ?_, hinit⟩
        obtain ⟨htight, hmem⟩ := hall e he v hval
        refine ⟨htight, fun d hd => ?_⟩
        have hd' := hmem d hd
        rw [List.append_assoc] at hd'
        exact hd'

/-- Where the text has a second line, the last value is made of all that stands
behind the last comma, or the colon, of the first. -/
theorem last_parseLoop {name : Option GoString} {q s : GoString} {es : List Entry}
    (h : parseLoop name q s = some es) (hq : Plain q) (hlines : firstLine s ≠ s) {e : Entry}
    (he : es.getLast? = some e) {v : GoString} (hv : e.2 = some v) :
    ∃ u w, q ++ s = u ++ w ∧ (∀ c ∈ u, isLineEnd c = false) ∧ stripSpaces w = some v
      ∧ (44 ∈ firstLine s → u ≠ []) := by
  induction s generalizing name q es with
  | nil => exact absurd rfl hlines
  | cons c s ih =>
      obtain ⟨hline, hfin⟩ | ⟨hline, rfl, e', es', hrest, rfl, -⟩ | ⟨hline, hne, n, hrest⟩ |
        ⟨hline, hne, hrest⟩ := parseLoop_cons h
      · obtain ⟨e', rfl, hstrip⟩ := finish_eq_some hfin
        obtain rfl : e' = e := Option.some.inj he
        refine ⟨[], q ++ c :: s, rfl, List.forall_mem_nil _, hstrip v hv, fun hmem => ?_⟩
        rw [firstLine_cons_of_end hline] at hmem
        cases hmem
      all_goals
        have hlines' : firstLine s ≠ s := by
          intro heq
          rw [firstLine_cons_of_not hline, heq] at hlines
          exact hlines rfl
      · obtain ⟨last, rest, rfl⟩ := List.exists_cons_of_ne_nil (ne_nil_of_parseLoop hrest)
        rw [List.getLast?_cons_cons] at he
        obtain ⟨u, w, heq, hu, hw, -⟩ := ih hrest plain_nil hlines' he
        refine ⟨q ++ 44 :: u, w, ?_, hq.past hline hu, hw, fun _ => by simp⟩
        rw [List.append_assoc, List.cons_append, ← heq]
        rfl
      · obtain ⟨u, w, heq, hu, hw, -⟩ := ih hrest plain_nil hlines' he
        refine ⟨q ++ c :: u, w, ?_, hq.past hline hu, hw, fun _ => by simp⟩
        rw [List.append_assoc, List.cons_append, ← heq]
        rfl
      · obtain ⟨u, w, heq, hu, hw, hne'⟩ := ih hrest (hq.concat hne hline) hlines' he
        rw [List.append_assoc] at heq
        refine ⟨u, w, heq, hu, hw, fun hmem => hne' ?_⟩
        rw [firstLine_cons_of_not hline, List.mem_cons] at hmem
        exact hmem.resolve_left (Ne.symm hne)

end ConfList

end RbiProxy
