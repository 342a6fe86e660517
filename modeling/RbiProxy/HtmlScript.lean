import RbiProxy.GoString

/-!
# Where a script element ends

The states of the HTML tokenizer from the start tag of a script on. An end tag closes
the element in most of them, but not behind `<!--` and `<script`: there it takes the
tokenizer back one level (`ScriptState`).

For a text without `</` the state can be read off the text: `Nesting` goes through it
with the comments and the start tags in view, and `run_follows` says that the tokenizer
is at its level. What it has read of a sign that is not complete yet is `pending`.
-/

namespace RbiProxy

namespace Html

/-! ## The tokenizer -/

def isAlpha (b : UInt8) : Bool := (65 ≤ b && b ≤ 90) || (97 ≤ b && b ≤ 122)

/-- What ends the name of a tag: white space, `/` or `>`. -/
def endsName (b : UInt8) : Bool :=
  b == 9 || b == 10 || b == 12 || b == 32 || b == 47 || b == 62

def isScript (name : GoString) : Bool :=
  name.map lowerByte == [115, 99, 114, 105, 112, 116]

/-- The states of "script data". The names that are being read are kept as they are
written, and compared in lower case. -/
inductive ScriptState where
  | data
  | lessThan
  | endTagOpen
  | endTagName (name : GoString)
  | escapeStart
  | escapeStartDash
  | escaped
  | escapedDash
  | escapedDashDash
  | escapedLessThan
  | escapedEndTagOpen
  | escapedEndTagName (name : GoString)
  | doubleEscapeStart (buffer : GoString)
  | doubleEscaped
  | doubleEscapedDash
  | doubleEscapedDashDash
  | doubleEscapedLessThan
  | doubleEscapeEnd (buffer : GoString)
  /-- The end tag of the element has been read. -/
  | ended
deriving DecidableEq

namespace ScriptState

/-- From "script data", also where another state hands its input back to it. -/
def fromData (b : UInt8) : ScriptState := if b = 60 then .lessThan else .data

def fromEscaped (b : UInt8) : ScriptState :=
  if b = 45 then .escapedDash else if b = 60 then .escapedLessThan else .escaped

def fromDoubleEscaped (b : UInt8) : ScriptState :=
  if b = 45 then .doubleEscapedDash else if b = 60 then .doubleEscapedLessThan else .doubleEscaped

def next : ScriptState → UInt8 → ScriptState
  | .data, b => fromData b
  | .lessThan, b =>
    if b = 47 then .endTagOpen else if b = 33 then .escapeStart else fromData b
  | .endTagOpen, b => if isAlpha b then .endTagName [b] else fromData b
  | .endTagName name, b =>
    if endsName b && isScript name then .ended
    else if isAlpha b then .endTagName (name ++ [b])
    else fromData b
  | .escapeStart, b => if b = 45 then .escapeStartDash else fromData b
  | .escapeStartDash, b => if b = 45 then .escapedDashDash else fromData b
  | .escaped, b => fromEscaped b
  | .escapedDash, b =>
    if b = 45 then .escapedDashDash else if b = 60 then .escapedLessThan else .escaped
  | .escapedDashDash, b =>
    if b = 45 then .escapedDashDash else if b = 60 then .escapedLessThan
    else if b = 62 then .data else .escaped
  | .escapedLessThan, b =>
    if b = 47 then .escapedEndTagOpen else if isAlpha b then .doubleEscapeStart [b]
    else fromEscaped b
  | .escapedEndTagOpen, b => if isAlpha b then .escapedEndTagName [b] else fromEscaped b
  | .escapedEndTagName name, b =>
    if endsName b && isScript name then .ended
    else if isAlpha b then .escapedEndTagName (name ++ [b])
    else fromEscaped b
  | .doubleEscapeStart buffer, b =>
    if endsName b then (if isScript buffer then .doubleEscaped else .escaped)
    else if isAlpha b then .doubleEscapeStart (buffer ++ [b])
    else fromEscaped b
  | .doubleEscaped, b => fromDoubleEscaped b
  | .doubleEscapedDash, b =>
    if b = 45 then .doubleEscapedDashDash else if b = 60 then .doubleEscapedLessThan
    else .doubleEscaped
  | .doubleEscapedDashDash, b =>
    if b = 45 then .doubleEscapedDashDash else if b = 60 then .doubleEscapedLessThan
    else if b = 62 then .data else .doubleEscaped
  | .doubleEscapedLessThan, b => if b = 47 then .doubleEscapeEnd [] else fromDoubleEscaped b
  | .doubleEscapeEnd buffer, b =>
    if endsName b then (if isScript buffer then .escaped else .doubleEscaped)
    else if isAlpha b then .doubleEscapeEnd (buffer ++ [b])
    else fromDoubleEscaped b
  | .ended, _ => .ended

/-- The characters of a text, one after the other. -/
def run (st : ScriptState) (s : GoString) : ScriptState := s.foldl next st

theorem run_append (st : ScriptState) (s t : GoString) : st.run (s ++ t) = (st.run s).run t :=
  List.foldl_append

end ScriptState

/-- The element ends right behind these many characters of what follows its start tag. -/
def EndsAt (text : GoString) (n : Nat) : Prop :=
  ScriptState.data.run (text.take n) = .ended
    ∧ ∀ k < n, ScriptState.data.run (text.take k) ≠ .ended

/-! ## Comments and start tags -/

/-- Outside of a comment, in one, or in one and behind the start tag of a script. -/
inductive Nesting where
  | outside
  | comment
  | script
deriving DecidableEq

/-- `<!--`. -/
def commentStart : GoString := [60, 33, 45, 45]

/-- `-->`. -/
def commentEnd : GoString := [45, 45, 62]

/-- `<script` in any case, with a space, `/` or `>` behind it. -/
def opensScript : GoString → Bool
  | [] => false
  | b :: t =>
    b == 60 && isScript (t.takeWhile isAlpha)
      && (t.dropWhile isAlpha).head?.any fun c => c == 32 || c == 47 || c == 62

/-- The level behind the next character, with all that is to come in view. -/
def Nesting.next : Nesting → GoString → Nesting
  | .outside, s => if hasPrefix s commentStart then .comment else .outside
  | .comment, s =>
    if hasPrefix s commentEnd then .outside else if opensScript s then .script else .comment
  | .script, s => if hasPrefix s commentEnd then .outside else .script

/-- The level at the end of a text. The dashes of `<!--` can be those of `-->`. -/
def Nesting.after : Nesting → GoString → Nesting
  | m, [] => m
  | m, b :: t => (m.next (b :: t)).after t

/-- A comment is left open in the text, and there is the start tag of a script in it. -/
def LeavesScript (text : GoString) : Prop := Nesting.outside.after text = .script

instance (text : GoString) : Decidable (LeavesScript text) := by
  unfold LeavesScript
  infer_instance

section Nesting

variable {m : Nesting} {b c : UInt8} {s w : GoString}

theorem Nesting.after_cons : m.after (b :: s) = (m.next (b :: s)).after s := rfl

theorem Nesting.next_other (hlt : b ≠ 60) (hdash : b ≠ 45) : m.next (b :: s) = m := by
  have hstart : hasPrefix (b :: s) commentStart = false := by
    simp [hasPrefix, commentStart, List.isPrefixOf, hlt.symm]
  have hend : hasPrefix (b :: s) commentEnd = false := by
    simp [hasPrefix, commentEnd, List.isPrefixOf, hdash.symm]
  have hopen : opensScript (b :: s) = false := by simp [opensScript, hlt]
  cases m <;> simp [Nesting.next, hstart, hend, hopen]

theorem Nesting.after_other (hlt : b ≠ 60) (hdash : b ≠ 45) : m.after (b :: s) = m.after s := by
  rw [after_cons, next_other hlt hdash]

theorem Nesting.after_append (hw : ∀ b ∈ w, b ≠ 60 ∧ b ≠ 45) : m.after (w ++ s) = m.after s := by
  induction w with
  | nil => rfl
  | cons b w ih =>
    obtain ⟨hlt, hdash⟩ := hw b List.mem_cons_self
    rw [List.cons_append, after_other hlt hdash]
    exact ih fun c hc => hw c (List.mem_cons_of_mem b hc)

/-- A dash that does not begin the end of a comment. -/
theorem Nesting.next_dash (h : hasPrefix (45 :: s) commentEnd = false) : m.next (45 :: s) = m := by
  have hstart : hasPrefix (45 :: s) commentStart = false := by
    simp [hasPrefix, commentStart, List.isPrefixOf]
  have hopen : opensScript (45 :: s) = false := by simp [opensScript]
  cases m <;> simp [Nesting.next, hstart, h, hopen]

theorem Nesting.outside_next (hlt : b ≠ 60) : Nesting.outside.next (b :: s) = .outside := by
  have hstart : hasPrefix (b :: s) commentStart = false := by
    simp [hasPrefix, commentStart, List.isPrefixOf, hlt.symm]
  simp [Nesting.next, hstart]

theorem Nesting.comment_next (hopen : opensScript (60 :: s) = false) :
    Nesting.comment.next (60 :: s) = .comment := by
  have hend : hasPrefix (60 :: s) commentEnd = false := by
    simp [hasPrefix, commentEnd, List.isPrefixOf]
  simp [Nesting.next, hend, hopen]

theorem Nesting.script_next : Nesting.script.next (60 :: s) = .script := by
  have hend : hasPrefix (60 :: s) commentEnd = false := by
    simp [hasPrefix, commentEnd, List.isPrefixOf]
  simp [Nesting.next, hend]

theorem opensScript_eq (hw : ∀ b ∈ w, isAlpha b = true) (hb : isAlpha b = false) :
    opensScript (60 :: (w ++ b :: s)) = (isScript w && (b == 32 || b == 47 || b == 62)) := by
  have htake : (w ++ b :: s).takeWhile isAlpha = w := by
    rw [List.takeWhile_append_of_pos hw, List.takeWhile_cons_of_neg (by simp [hb]),
      List.append_nil]
  have hdrop : (w ++ b :: s).dropWhile isAlpha = b :: s := by
    rw [List.dropWhile_append_of_pos hw, List.dropWhile_cons_of_neg (by simp [hb])]
  rw [opensScript, htake, hdrop]
  simp

end Nesting

theorem alpha_spec {b : UInt8} : isAlpha b = true → b ≠ 60 ∧ b ≠ 45 ∧ b ≠ 47 :=
  forall_byte (P := fun b => isAlpha b = true → b ≠ 60 ∧ b ≠ 45 ∧ b ≠ 47) (by decide +kernel) b

/-! ## The tokenizer and the levels -/

/-- There is no end tag in the text; `lt` says that there is a `<` right before it. -/
def noEndTag : Bool → GoString → Bool
  | _, [] => true
  | lt, b :: t => !(lt && b == 47) && noEndTag (b == 60) t

namespace ScriptState

/-- The level of a state that is not about an end tag. -/
def level : ScriptState → Nesting
  | .escaped | .escapedDash | .escapedDashDash | .escapedLessThan | .doubleEscapeStart _ => .comment
  | .doubleEscaped | .doubleEscapedDash | .doubleEscapedDashDash | .doubleEscapedLessThan => .script
  | _ => .outside

/-- What the state has read of `<!--`, `-->` or a start tag. -/
def pending : ScriptState → GoString
  | .lessThan | .escapedLessThan | .doubleEscapedLessThan => [60]
  | .escapeStart => [60, 33]
  | .escapeStartDash => [60, 33, 45]
  | .escapedDash | .doubleEscapedDash => [45]
  | .escapedDashDash | .doubleEscapedDashDash => [45, 45]
  | .doubleEscapeStart buffer => 60 :: buffer
  | _ => []

/-- The character right before was `<`. -/
def afterLessThan : ScriptState → Bool
  | .lessThan | .escapedLessThan | .doubleEscapedLessThan => true
  | _ => false

/-- A state that is not about an end tag. -/
def Quiet : ScriptState → Prop
  | .endTagOpen | .endTagName _ | .escapedEndTagOpen | .escapedEndTagName _ | .doubleEscapeEnd _
  | .ended => False
  | .doubleEscapeStart buffer => ∀ b ∈ buffer, isAlpha b = true
  | _ => True

/-- What a state is with a text to come. -/
def levelAfter (st : ScriptState) (s : GoString) : Nesting := st.level.after (st.pending ++ s)

/-- A step to another state that keeps the level of what is to come. -/
structure Follows (st : ScriptState) (b : UInt8) (m : Nesting) (s : GoString) : Prop where
  quiet : st.Quiet
  lessThan : st.afterLessThan = (b == 60)
  level : m = st.levelAfter s

section Step

variable {st : ScriptState} {b : UInt8} {s : GoString}

theorem follows_fromData : Follows (fromData b) b (Nesting.outside.after (b :: s)) s := by
  unfold fromData
  split
  · rename_i hlt
    subst hlt
    exact ⟨trivial, rfl, rfl⟩
  · rename_i hlt
    refine ⟨trivial, (beq_false_of_ne hlt).symm, ?_⟩
    rw [Nesting.after_cons, Nesting.outside_next hlt]
    rfl

theorem follows_fromEscaped : Follows (fromEscaped b) b (Nesting.comment.after (b :: s)) s := by
  unfold fromEscaped
  split
  · rename_i hdash
    subst hdash
    exact ⟨trivial, rfl, rfl⟩
  rename_i hdash
  split
  · rename_i hlt
    subst hlt
    exact ⟨trivial, rfl, rfl⟩
  · rename_i hlt
    refine ⟨trivial, (beq_false_of_ne hlt).symm, ?_⟩
    rw [Nesting.after_other hlt hdash]
    rfl

theorem follows_fromDoubleEscaped :
    Follows (fromDoubleEscaped b) b (Nesting.script.after (b :: s)) s := by
  unfold fromDoubleEscaped
  split
  · rename_i hdash
    subst hdash
    exact ⟨trivial, rfl, rfl⟩
  rename_i hdash
  split
  · rename_i hlt
    subst hlt
    exact ⟨trivial, rfl, rfl⟩
  · rename_i hlt
    refine ⟨trivial, (beq_false_of_ne hlt).symm, ?_⟩
    rw [Nesting.after_other hlt hdash]
    rfl

theorem Follows.of_eq {m m' : Nesting} (h : Follows st b m s) (heq : m' = m) : Follows st b m' s :=
  heq ▸ h

/-- A character that completes nothing, with the pending ones before it. -/
theorem follows_plain {m : Nesting} (hq : st.Quiet) (hlt : b ≠ 60) (hdash : b ≠ 45)
    (hst : st.afterLessThan = false) (hlevel : st.levelAfter s = m.after s) :
    Follows st b (m.after (b :: s)) s := by
  refine ⟨hq, hst.trans (beq_false_of_ne hlt).symm, ?_⟩
  rw [hlevel, Nesting.after_other hlt hdash]

theorem after_dash {m : Nesting} (h : b ≠ 45) : m.after (45 :: b :: s) = m.after (b :: s) := by
  have hend : hasPrefix (45 :: b :: s) commentEnd = false := by
    simp [hasPrefix, commentEnd, List.isPrefixOf, h.symm]
  rw [Nesting.after_cons, Nesting.next_dash hend]

theorem after_dashDash {m : Nesting} (h : b ≠ 45) (hgt : b ≠ 62) :
    m.after (45 :: 45 :: b :: s) = m.after (b :: s) := by
  have hend : hasPrefix (45 :: 45 :: b :: s) commentEnd = false := by
    simp [hasPrefix, commentEnd, List.isPrefixOf, hgt.symm]
  rw [Nesting.after_cons, Nesting.next_dash hend, after_dash h]

theorem after_dashDashDash {m : Nesting} :
    m.after (45 :: 45 :: 45 :: s) = m.after (45 :: 45 :: s) := by
  have hend : hasPrefix (45 :: 45 :: 45 :: s) commentEnd = false := by
    simp [hasPrefix, commentEnd, List.isPrefixOf]
  rw [Nesting.after_cons, Nesting.next_dash hend]

theorem after_commentEnd {m : Nesting} :
    m.after (45 :: 45 :: 62 :: s) = Nesting.outside.after s := by
  have hnext : m.next (45 :: 45 :: 62 :: s) = .outside := by
    have hend : hasPrefix (45 :: 45 :: 62 :: s) commentEnd = true := by
      simp [hasPrefix, commentEnd, List.isPrefixOf]
    have hstart : hasPrefix (45 :: 45 :: 62 :: s) commentStart = false := by
      simp [hasPrefix, commentStart, List.isPrefixOf]
    cases m <;> simp [Nesting.next, hend, hstart]
  rw [Nesting.after_cons, hnext, after_dash (by decide),
    Nesting.after_other (by decide) (by decide)]

/-- A `<` outside of a comment that begins none. -/
theorem outside_after_lt (h : hasPrefix (60 :: s) commentStart = false) :
    Nesting.outside.after (60 :: s) = Nesting.outside.after s := by
  rw [Nesting.after_cons, Nesting.next, h]
  rfl

theorem comment_after_lt (h : opensScript (60 :: s) = false) :
    Nesting.comment.after (60 :: s) = Nesting.comment.after s := by
  rw [Nesting.after_cons, Nesting.comment_next h]

theorem script_after_lt : Nesting.script.after (60 :: s) = Nesting.script.after s := by
  rw [Nesting.after_cons, Nesting.script_next]

/-- The name of a start tag in a comment, with the character behind it. -/
theorem follows_doubleEscapeStart {buffer : GoString} (hbuffer : ∀ b ∈ buffer, isAlpha b = true)
    (hb : b ≠ 9 ∧ b ≠ 10 ∧ b ≠ 12) :
    Follows ((doubleEscapeStart buffer).next b) b
      ((doubleEscapeStart buffer).levelAfter (b :: s)) s := by
  have hskip : ∀ {m : Nesting} {t : GoString}, m.after (buffer ++ t) = m.after t := fun {m t} =>
    Nesting.after_append fun c hc =>
      ⟨(alpha_spec (hbuffer c hc)).1, (alpha_spec (hbuffer c hc)).2.1⟩
  have hlevel : (doubleEscapeStart buffer).levelAfter (b :: s)
      = Nesting.comment.after (60 :: (buffer ++ b :: s)) := rfl
  by_cases halpha : isAlpha b = true
  · have hname : endsName b = false :=
      forall_byte (P := fun b => isAlpha b = true → endsName b = false) (by decide +kernel) b halpha
    have hnext : (doubleEscapeStart buffer).next b = .doubleEscapeStart (buffer ++ [b]) := by
      simp [next, hname, halpha]
    rw [hnext, hlevel]
    refine ⟨?_, (beq_false_of_ne (alpha_spec halpha).1).symm, ?_⟩
    · exact List.forall_mem_append.mpr ⟨hbuffer, by simpa using halpha⟩
    · simp [levelAfter, level, pending]
  have halpha' := Bool.eq_false_iff.mpr halpha
  have hopen := opensScript_eq (s := s) hbuffer halpha'
  by_cases hname : endsName b = true
  · have hend : (b == 32 || b == 47 || b == 62) = true := by
      simp only [endsName, Bool.or_eq_true, beq_iff_eq] at hname ⊢
      tauto
    have hplain : b ≠ 60 ∧ b ≠ 45 :=
      forall_byte (P := fun b => endsName b = true → b ≠ 60 ∧ b ≠ 45) (by decide +kernel) b hname
    rw [hend, Bool.and_true] at hopen
    by_cases hscript : isScript buffer = true
    · have hnext : (doubleEscapeStart buffer).next b = .doubleEscaped := by
        simp [next, hname, hscript]
      have hto : Nesting.comment.after (60 :: (buffer ++ b :: s))
          = Nesting.script.after (b :: s) := by
        have hend' : hasPrefix (60 :: (buffer ++ b :: s)) commentEnd = false := by
          simp [hasPrefix, commentEnd, List.isPrefixOf]
        rw [Nesting.after_cons, Nesting.next, hend', hopen, hscript]
        exact hskip
      rw [hnext, hlevel, hto]
      exact follows_plain trivial hplain.1 hplain.2 rfl rfl
    · rw [Bool.eq_false_iff.mpr hscript] at hopen
      have hnext : (doubleEscapeStart buffer).next b = .escaped := by
        simp [next, hname, hscript]
      rw [hnext, hlevel, comment_after_lt hopen, hskip]
      exact follows_plain trivial hplain.1 hplain.2 rfl rfl
  · have hend : (b == 32 || b == 47 || b == 62) = false := by
      rw [Bool.eq_false_iff]
      intro h
      refine hname ?_
      simp only [endsName, Bool.or_eq_true, beq_iff_eq] at h ⊢
      tauto
    have hnext : (doubleEscapeStart buffer).next b = fromEscaped b := by
      simp [next, hname, halpha]
    rw [hend, Bool.and_false] at hopen
    rw [hnext, hlevel, comment_after_lt hopen, hskip]
    exact follows_fromEscaped

/-- The dash states, which are the same on both levels of a comment. -/
theorem follows_dash {m : Nesting} {dashDash lt plain : ScriptState}
    (hdashDash : dashDash.Quiet ∧ dashDash.afterLessThan = false
      ∧ dashDash.levelAfter s = m.after (45 :: 45 :: s))
    (hlt : lt.Quiet ∧ lt.afterLessThan = true ∧ lt.levelAfter s = m.after (60 :: s))
    (hplain : plain.Quiet ∧ plain.afterLessThan = false ∧ plain.levelAfter s = m.after s) :
    Follows (if b = 45 then dashDash else if b = 60 then lt else plain) b
      (m.after (45 :: b :: s)) s := by
  split
  · rename_i hb
    subst hb
    exact ⟨hdashDash.1, hdashDash.2.1, hdashDash.2.2.symm⟩
  rename_i hdash
  rw [after_dash hdash]
  split
  · rename_i hb
    subst hb
    exact ⟨hlt.1, hlt.2.1, hlt.2.2.symm⟩
  · rename_i hb
    exact follows_plain hplain.1 hb hdash hplain.2.1 hplain.2.2

theorem follows_dashDash {m : Nesting} {dashDash lt plain : ScriptState}
    (hdashDash : dashDash.Quiet ∧ dashDash.afterLessThan = false
      ∧ dashDash.levelAfter s = m.after (45 :: 45 :: s))
    (hlt : lt.Quiet ∧ lt.afterLessThan = true ∧ lt.levelAfter s = m.after (60 :: s))
    (hplain : plain.Quiet ∧ plain.afterLessThan = false ∧ plain.levelAfter s = m.after s) :
    Follows (if b = 45 then dashDash else if b = 60 then lt else if b = 62 then .data else plain) b
      (m.after (45 :: 45 :: b :: s)) s := by
  split
  · rename_i hb
    subst hb
    rw [after_dashDashDash]
    exact ⟨hdashDash.1, hdashDash.2.1, hdashDash.2.2.symm⟩
  rename_i hdash
  split
  · rename_i hb
    subst hb
    rw [after_dashDash (by decide) (by decide)]
    exact ⟨hlt.1, hlt.2.1, hlt.2.2.symm⟩
  rename_i hlt'
  split
  · rename_i hb
    subst hb
    rw [after_commentEnd]
    exact ⟨trivial, rfl, rfl⟩
  · rename_i hgt
    rw [after_dashDash hdash hgt]
    exact follows_plain hplain.1 hlt' hdash hplain.2.1 hplain.2.2

/-- The step lemma: without `</`, the next state is on the level of what is to come. -/
theorem next_follows (hq : st.Quiet) (hslash : st.afterLessThan = true → b ≠ 47)
    (hb : b ≠ 9 ∧ b ≠ 10 ∧ b ≠ 12) : Follows (st.next b) b (st.levelAfter (b :: s)) s := by
  cases st with
  | data => exact follows_fromData
  | lessThan =>
    unfold next
    dsimp only
    rw [if_neg (hslash rfl)]
    split
    · rename_i hbang
      subst hbang
      exact ⟨trivial, rfl, rfl⟩
    · rename_i hbang
      refine follows_fromData.of_eq (outside_after_lt ?_)
      simp [hasPrefix, commentStart, List.isPrefixOf, Ne.symm hbang]
  | escapeStart =>
    unfold next
    dsimp only
    split
    · rename_i hdash
      subst hdash
      exact ⟨trivial, rfl, rfl⟩
    · rename_i hdash
      have hno : hasPrefix (60 :: 33 :: b :: s) commentStart = false := by
        simp [hasPrefix, commentStart, List.isPrefixOf, Ne.symm hdash]
      refine follows_fromData.of_eq ((outside_after_lt hno).trans ?_)
      exact Nesting.after_other (by decide) (by decide)
  | escapeStartDash =>
    unfold next
    dsimp only
    split
    · rename_i hdash
      subst hdash
      have hstart : hasPrefix (60 :: 33 :: 45 :: 45 :: s) commentStart = true := by
        simp [hasPrefix, commentStart, List.isPrefixOf]
      refine ⟨trivial, rfl, ?_⟩
      change Nesting.outside.after (60 :: 33 :: 45 :: 45 :: s) = _
      rw [Nesting.after_cons, Nesting.next, hstart]
      exact Nesting.after_other (by decide) (by decide)
    · rename_i hdash
      have hno : hasPrefix (60 :: 33 :: 45 :: b :: s) commentStart = false := by
        simp [hasPrefix, commentStart, List.isPrefixOf, Ne.symm hdash]
      refine follows_fromData.of_eq ((outside_after_lt hno).trans ?_)
      exact (Nesting.after_other (by decide) (by decide)).trans (after_dash hdash)
  | escaped => exact follows_fromEscaped
  | escapedDash => exact follows_dash ⟨trivial, rfl, rfl⟩ ⟨trivial, rfl, rfl⟩ ⟨trivial, rfl, rfl⟩
  | escapedDashDash =>
    exact follows_dashDash ⟨trivial, rfl, rfl⟩ ⟨trivial, rfl, rfl⟩ ⟨trivial, rfl, rfl⟩
  | escapedLessThan =>
    unfold next
    dsimp only
    rw [if_neg (hslash rfl)]
    split
    · rename_i halpha
      exact ⟨by simpa [Quiet] using halpha, (beq_false_of_ne (alpha_spec halpha).1).symm, rfl⟩
    · rename_i halpha
      have hopen := opensScript_eq (s := s) (w := []) (by simp) (Bool.eq_false_iff.mpr halpha)
      exact follows_fromEscaped.of_eq (comment_after_lt hopen)
  | doubleEscapeStart buffer => exact follows_doubleEscapeStart hq hb
  | doubleEscaped => exact follows_fromDoubleEscaped
  | doubleEscapedDash =>
    exact follows_dash ⟨trivial, rfl, rfl⟩ ⟨trivial, rfl, rfl⟩ ⟨trivial, rfl, rfl⟩
  | doubleEscapedDashDash =>
    exact follows_dashDash ⟨trivial, rfl, rfl⟩ ⟨trivial, rfl, rfl⟩ ⟨trivial, rfl, rfl⟩
  | doubleEscapedLessThan =>
    unfold next
    dsimp only
    rw [if_neg (hslash rfl)]
    exact follows_fromDoubleEscaped.of_eq script_after_lt
  | endTagOpen => exact hq.elim
  | endTagName name => exact hq.elim
  | escapedEndTagOpen => exact hq.elim
  | escapedEndTagName name => exact hq.elim
  | doubleEscapeEnd buffer => exact hq.elim
  | ended => exact hq.elim

end Step

theorem run_follows {st : ScriptState} (hq : st.Quiet) {s : GoString}
    (hend : noEndTag st.afterLessThan s = true) (hs : ∀ b ∈ s, b ≠ 9 ∧ b ≠ 10 ∧ b ≠ 12) :
    (st.run s).Quiet ∧ st.levelAfter s = (st.run s).levelAfter [] := by
  induction s generalizing st with
  | nil => exact ⟨hq, rfl⟩
  | cons b s ih =>
    rw [noEndTag, Bool.and_eq_true, Bool.not_eq_true', Bool.and_eq_false_iff] at hend
    have hslash : st.afterLessThan = true → b ≠ 47 := by
      rintro hlt rfl
      rw [hlt] at hend
      exact absurd hend.1 (by decide)
    obtain ⟨hq', hlt, hlevel⟩ := next_follows (s := s) hq hslash (hs b List.mem_cons_self)
    rw [hlevel]
    exact ih hq' (by rw [hlt]; exact hend.2) fun c hc => hs c (List.mem_cons_of_mem b hc)

/-- A character that is no sign ends what was pending. -/
theorem next_semicolon {st : ScriptState} (hq : st.Quiet) :
    st.next 59 = .data ∨ st.next 59 = .escaped ∨ st.next 59 = .doubleEscaped := by
  cases st with
  | endTagOpen => exact hq.elim
  | endTagName name => exact hq.elim
  | escapedEndTagOpen => exact hq.elim
  | escapedEndTagName name => exact hq.elim
  | doubleEscapeEnd buffer => exact hq.elim
  | ended => exact hq.elim
  | _ => simp [next, fromData, fromEscaped, fromDoubleEscaped, isAlpha, endsName]

end ScriptState

/-! ## The end tag -/

/-- `</script>`. -/
def endTag : GoString := [60, 47, 115, 99, 114, 105, 112, 116, 62]

theorem noEndTag_take {lt : Bool} {s : GoString} (h : noEndTag lt s = true) (k : Nat) :
    noEndTag lt (s.take k) = true := by
  induction s generalizing lt k with
  | nil => rw [List.take_nil]; exact h
  | cons b s ih =>
    cases k with
    | zero => rfl
    | succ k =>
      rw [noEndTag, Bool.and_eq_true] at h
      rw [List.take_succ_cons, noEndTag, h.1, ih h.2 k]
      rfl

/-- From a state between two statements of the script, an end tag closes the element,
unless the level is that of a start tag in a comment. -/
theorem run_endTag {st : ScriptState} (hst : st = .data ∨ st = .escaped ∨ st = .doubleEscaped) :
    (st.run endTag = .ended ∧ ∀ k < 9, st.run (endTag.take k) ≠ .ended) ↔ st.level ≠ .script := by
  obtain rfl | rfl | rfl := hst
  · exact iff_of_true (by decide) (by decide)
  · exact iff_of_true (by decide) (by decide)
  · exact iff_of_false (by decide) (by decide)

/-- **Where the element ends.** A script without `</` and without tabs and line breaks
ends at the end tag behind it, unless it leaves a comment open with the start tag of a
script in it. -/
theorem endsAt_iff {text : GoString} (hend : noEndTag false (text ++ [59]) = true)
    (hs : ∀ b ∈ text, b ≠ 9 ∧ b ≠ 10 ∧ b ≠ 12) (rest : GoString) :
    EndsAt (text ++ [59] ++ endTag ++ rest) ((text ++ [59]).length + 9)
      ↔ ¬ LeavesScript (text ++ [59]) := by
  have hall : ∀ b ∈ text ++ [59], b ≠ 9 ∧ b ≠ 10 ∧ b ≠ 12 :=
    List.forall_mem_append.mpr ⟨hs, by simp⟩
  obtain ⟨hquiet, hlevel⟩ := @ScriptState.run_follows .data trivial _ hend hall
  have hstate : ScriptState.data.run (text ++ [59]) = .data
      ∨ ScriptState.data.run (text ++ [59]) = .escaped
      ∨ ScriptState.data.run (text ++ [59]) = .doubleEscaped := by
    have hfirst := noEndTag_take hend text.length
    rw [List.take_left] at hfirst
    have htext := (@ScriptState.run_follows .data trivial text hfirst hs).1
    rw [ScriptState.run_append]
    exact ScriptState.next_semicolon htext
  have hleaves : LeavesScript (text ++ [59])
      ↔ (ScriptState.data.run (text ++ [59])).level = .script := by
    have hnone : (ScriptState.data.run (text ++ [59])).levelAfter []
        = (ScriptState.data.run (text ++ [59])).level := by
      obtain h | h | h := hstate <;> rw [h] <;> rfl
    rw [LeavesScript, ← hnone, ← hlevel]
    rfl
  have hearly : ∀ k ≤ (text ++ [59]).length,
      ScriptState.data.run ((text ++ [59] ++ endTag ++ rest).take k) ≠ .ended := by
    intro k hk heq
    rw [List.append_assoc, List.take_append_of_le_length hk] at heq
    have hq := (@ScriptState.run_follows .data trivial _ (noEndTag_take hend k)
      fun b hb => hall b (List.mem_of_mem_take hb)).1
    rw [heq] at hq
    exact hq
  have hlate : ∀ k ≤ 9, ScriptState.data.run
      ((text ++ [59] ++ endTag ++ rest).take ((text ++ [59]).length + k))
      = (ScriptState.data.run (text ++ [59])).run (endTag.take k) := by
    intro k hk
    rw [List.append_assoc, List.take_length_add_append, ScriptState.run_append,
      List.take_append_of_le_length hk]
  rw [hleaves, ← Ne, ← run_endTag hstate, EndsAt, hlate 9 (Nat.le_refl 9)]
  refine and_congr_right fun _ => ⟨fun h k hk => ?_, fun h k hk => ?_⟩
  · rw [← hlate k (Nat.le_of_lt hk)]
    exact h _ (by omega)
  · by_cases hle : k ≤ (text ++ [59]).length
    · exact hearly k hle
    · obtain ⟨j, rfl⟩ := Nat.exists_eq_add_of_le (Nat.le_of_not_le hle)
      rw [hlate j (by omega)]
      exact h j (by omega)

end Html

end RbiProxy
