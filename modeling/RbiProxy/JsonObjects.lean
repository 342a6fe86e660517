import RbiProxy.JsonDecode
import RbiProxy.JsonMap

/-!
# Objects of strings

What `json.Marshal` makes of a struct whose fields are strings, and of a slice of such
structs: the members stand in the order of the fields, and a slice that is `nil` is `null`.

`value_object` and `value_array` say what value such a text has. With the lemmas about the
fields, a struct is decoded from what it was encoded to. `utf8_object` and `utf8_array` say
that the text is valid UTF-8, whatever the strings are, and so can be a string of another
text.
-/

namespace RbiProxy

namespace Json

/-! ## Writing -/

/-- A struct; the members are its fields. -/
def objectText (members : List (GoString × GoString)) : GoString :=
  123 :: membersText members ++ [125]

def arrayText : Option (List (List (GoString × GoString))) → GoString
  | none => lit "null"
  | some [] => lit "[]"
  | some (o :: os) => 91 :: objectText o ++ (os.flatMap fun o => 44 :: objectText o) ++ [93]

/-! ## Reading -/

/-- The value of a text; `none` for a syntax error. -/
def valueOf (text : GoString) : Option Value := (lex text).bind parse

def objectValue (members : List (GoString × GoString)) : Value := .object (members.map rawMember)

def arrayValue : Option (List (List (GoString × GoString))) → Value
  | none => .null
  | some os => .array (os.map objectValue)

def objectTokens (members : List (GoString × GoString)) : List Token :=
  .lbrace :: membersTokens members ++ [.rbrace]

def moreObjects (os : List (List (GoString × GoString))) : List Token :=
  os.flatMap fun o => .comma :: objectTokens o

section Tokens

variable (ms : List (GoString × GoString)) (os : List (List (GoString × GoString)))

theorem feeds_object : Feeds .start (objectText ms) (objectTokens ms) .start := by
  have hopen : Feeds .start [123] [.lbrace] .start := rfl
  have hclose : Feeds .start [125] [.rbrace] .start := rfl
  have hbody : Feeds .start (membersText ms) (membersTokens ms) .start := by
    cases ms with
    | nil => exact feeds_nil _
    | cons m ms => exact (feeds_memberText m).append (feeds_more ms)
  exact (hopen.append hbody).append hclose

theorem feeds_moreObjects :
    Feeds .start (os.flatMap fun o => 44 :: objectText o) (moreObjects os) .start := by
  induction os with
  | nil => exact feeds_nil _
  | cons o os ih =>
    have hcomma : Feeds .start [44] [.comma] .start := rfl
    exact (hcomma.append (feeds_object o)).append ih

/-- A text that ends between two tokens is lexed. -/
theorem lex_of_feeds {s : GoString} {ts : List Token} (h : Feeds .start s ts .start) :
    lex s = some ts :=
  lex_eq_some_iff.mpr ⟨ts, .start, [], h, rfl, (List.append_nil ts).symm⟩

theorem lex_array (o : List (GoString × GoString)) :
    lex (arrayText (some (o :: os)))
      = some (.lbracket :: objectTokens o ++ moreObjects os ++ [.rbracket]) := by
  have hopen : Feeds .start [91] [.lbracket] .start := rfl
  have hclose : Feeds .start [93] [.rbracket] .start := rfl
  have hbody := (feeds_object o).append (feeds_moreObjects os)
  have hall := (hopen.append hbody).append hclose
  refine (congrArg lex ?_).trans ((lex_of_feeds hall).trans ?_)
  · simp [arrayText]
  · simp

end Tokens

section Values

variable (ms : List (GoString × GoString)) (os : List (List (GoString × GoString)))

/-- Behind the first member of an object, wherever the object stands. -/
theorem parseRun_moreMembers (stack : List Frame) (rest : List Token)
    (done : List (GoString × Value)) (key : GoString) (v : Value) :
    parseRun (.after v (.member done key :: stack)) (moreTokens ms ++ .rbrace :: rest)
      = parseRun (.after (.object (done ++ (key, v) :: ms.map rawMember)) stack) rest := by
  induction ms generalizing done key v with
  | nil => rfl
  | cons m ms ih =>
    have hnext := ih (done ++ [(key, v)]) (quoteBody m.1) (.string (quoteBody m.2))
    rw [List.append_assoc] at hnext
    exact hnext

theorem parseRun_object {stack : List Frame} (hdepth : stack.length < maxNestingDepth)
    (rest : List Token) :
    parseRun (.value stack) (objectTokens ms ++ rest)
      = parseRun (.after (objectValue ms) stack) rest := by
  have hopen : ParseState.next (.value stack) .lbrace = some (.objectStart stack) := if_pos hdepth
  rw [objectTokens, List.cons_append, List.cons_append, parseRun, hopen, Option.bind_some]
  cases ms with
  | nil => rfl
  | cons m ms =>
    have hmore := parseRun_moreMembers ms stack rest [] (quoteBody m.1) (.string (quoteBody m.2))
    simpa [membersTokens, memberTokens, parseRun, ParseState.next, valueNext, objectValue,
      rawMember] using hmore

theorem parseRun_moreObjects (values : List Value) (v : Value) :
    parseRun (.after v [.array values]) (moreObjects os ++ [.rbracket])
      = some (.after (.array (values ++ v :: os.map objectValue)) []) := by
  induction os generalizing values v with
  | nil => rfl
  | cons o os ih =>
    have hdepth : [Frame.array (values ++ [v])].length < maxNestingDepth :=
      show 1 < maxNestingDepth by decide
    have hobject := parseRun_object o hdepth (moreObjects os ++ [.rbracket])
    have hnext := ih (values ++ [v]) (objectValue o)
    rw [List.append_assoc] at hnext
    rw [moreObjects, List.flatMap_cons, List.cons_append, List.cons_append, parseRun,
      List.append_assoc]
    exact hobject.trans hnext

theorem value_object : valueOf (objectText ms) = some (objectValue ms) := by
  have hdepth : ([] : List Frame).length < maxNestingDepth := by decide
  have hrun := parseRun_object ms hdepth []
  rw [List.append_nil] at hrun
  rw [valueOf, lex_of_feeds (feeds_object ms), Option.bind_some, parse, hrun]
  rfl

theorem value_array (l : Option (List (List (GoString × GoString)))) :
    valueOf (arrayText l) = some (arrayValue l) := by
  cases l with
  | none => rfl
  | some os =>
    cases os with
    | nil => rfl
    | cons o os =>
      have hdepth : [Frame.array []].length < maxNestingDepth := by decide
      have hobject := parseRun_object o hdepth (moreObjects os ++ [.rbracket])
      have hrest := parseRun_moreObjects os [] (objectValue o)
      have hrun : parseRun (.value []) (.lbracket :: objectTokens o ++ moreObjects os
          ++ [.rbracket]) = some (.after (arrayValue (some (o :: os))) []) := by
        rw [List.cons_append, List.cons_append, List.append_assoc]
        exact hobject.trans hrest
      rw [valueOf, lex_array, Option.bind_some, parse, hrun]
      rfl

end Values

/-! ## Fields -/

section Fields

variable {T : Type} {names : List GoString} {disallowUnknown : Bool}
  {set : T → GoString → Value → T × Bool}

/-- One member of an encoded struct, whose key is the name of a field. -/
theorem decodeFields_cons {name : GoString} (hname : name ∈ names) (htext : jsonText name = name)
    (text : GoString) (ms : List (GoString × GoString)) (p : T × Bool) :
    decodeFields names disallowUnknown set p (((name, text) :: ms).map rawMember)
      = decodeFields names disallowUnknown set
          ((set p.1 name (.string (quoteBody text))).1,
            p.2 && (set p.1 name (.string (quoteBody text))).2) (ms.map rawMember) := by
  have hfield : fieldOf names (unquote (quoteBody name)) = some name := by
    rw [unquote_quoteBody, htext]
    exact if_pos (List.contains_iff_mem.mpr hname)
  rw [List.map_cons, rawMember, decodeFields, List.foldl_cons]
  simp only [hfield]
  rfl

/-- A field that is a string is read as the text that was written. -/
theorem decodeString_quoteBody (old text : GoString) :
    decodeString old (.string (quoteBody text)) = (jsonText text, true) := by
  rw [decodeString, unquote_quoteBody]

theorem utf8_unquote (raw : GoString) : Utf8 (unquote raw) :=
  jsonText_flatMap_encodeRune _

/-- What is decoded is valid UTF-8 if it was before. -/
theorem utf8_decodeString {old : GoString} (h : Utf8 old) (v : Value) :
    Utf8 (decodeString old v).1 := by
  cases v with
  | string raw => exact utf8_unquote raw
  | null | bool | number | array | object => exact h

/-- A property of a struct that every field keeps. -/
theorem decodeStruct_keeps {P : T → Prop} (hset : ∀ t name v, P t → P (set t name v).1) {old : T}
    (h : P old) (v : Value) : P (decodeStruct names disallowUnknown set old v).1 := by
  cases v with
  | object members => exact decodeFields_keeps (fun m _ t name => hset t name m.2) h
  | null | bool | number | string | array => exact h

end Fields

/-! ## Valid UTF-8 -/

section Text

theorem utf8_append {a b : GoString} (ha : Utf8 a) (hb : Utf8 b) : Utf8 (a ++ b) := by
  have hsplit : jsonText (a ++ b) = jsonText a ++ jsonText b := by
    rw [jsonText, runes_append ha, List.flatMap_append]
    rfl
  exact hsplit.trans (congrArg₂ (· ++ ·) ha hb)

theorem utf8_flatMap {α : Type} {f : α → GoString} (as : List α) (h : ∀ a ∈ as, Utf8 (f a)) :
    Utf8 (as.flatMap f) := by
  induction as with
  | nil => exact utf8_of_all rfl
  | cons a as ih =>
    obtain ⟨ha, has⟩ := List.forall_mem_cons.mp h
    rw [List.flatMap_cons]
    exact utf8_append ha (ih has)

theorem utf8_unicodeEscape (r : Rune) : Utf8 (unicodeEscape r) := by
  have hdigit : ∀ n < 16, hexDigit n < 0x80 := by decide
  have hmod : ∀ n : Nat, hexDigit (n % 16) < 0x80 := fun n =>
    hdigit _ (Nat.mod_lt n (by decide))
  refine utf8_of_all ?_
  simp [unicodeEscape, hmod]

theorem utf8_quoteRune (r : Rune) : Utf8 (quoteRune r) := by
  have htext : Utf8 (encodeRune r) := by
    have hone := jsonText_flatMap_encodeRune [r]
    rwa [List.flatMap_cons, List.flatMap_nil, List.append_nil] at hone
  unfold quoteRune
  split
  · exact utf8_of_all rfl
  split
  · exact utf8_of_all rfl
  split
  · exact utf8_of_all rfl
  split
  · exact utf8_of_all rfl
  split
  · exact utf8_of_all rfl
  split
  · exact utf8_unicodeEscape r
  · exact htext

theorem utf8_quote (s : GoString) : Utf8 (quote s) :=
  utf8_append (a := 34 :: quoteBody s)
    (utf8_append (a := [34]) (utf8_of_all rfl) (utf8_flatMap _ fun r _ => utf8_quoteRune r))
    (utf8_of_all rfl)

theorem utf8_member (m : GoString × GoString) : Utf8 (memberText m) :=
  utf8_append (utf8_quote m.1) (utf8_append (a := [58]) (utf8_of_all rfl) (utf8_quote m.2))

theorem utf8_object (ms : List (GoString × GoString)) : Utf8 (objectText ms) := by
  have hmembers : Utf8 (membersText ms) := by
    cases ms with
    | nil => exact utf8_of_all rfl
    | cons m ms =>
      refine utf8_append (utf8_member m) (utf8_flatMap ms fun m _ => ?_)
      exact utf8_append (a := [44]) (utf8_of_all rfl) (utf8_member m)
  exact utf8_append (utf8_append (a := [123]) (utf8_of_all rfl) hmembers) (utf8_of_all rfl)

theorem utf8_array (l : Option (List (List (GoString × GoString)))) : Utf8 (arrayText l) := by
  cases l with
  | none => exact utf8_of_all rfl
  | some os =>
    cases os with
    | nil => exact utf8_of_all rfl
    | cons o os =>
      have hmore : Utf8 (os.flatMap fun o => 44 :: objectText o) :=
        utf8_flatMap os fun o _ => utf8_append (a := [44]) (utf8_of_all rfl) (utf8_object o)
      have hall : Utf8 (([91] ++ objectText o) ++ (os.flatMap fun o => 44 :: objectText o)
          ++ [93]) :=
        utf8_append (utf8_append (utf8_append (utf8_of_all rfl) (utf8_object o)) hmore)
          (utf8_of_all rfl)
      exact hall

end Text

end Json

end RbiProxy
