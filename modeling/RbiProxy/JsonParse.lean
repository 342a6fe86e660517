import RbiProxy.JsonLex

/-!
# The value of a JSON text

A pushdown automaton over the tokens: the containers around the current place
are a stack, and no more than `maxNestingDepth` of them may be open. Strings and
the keys of objects stay as they stand in the text, and an object keeps all its
members in their order; what a repeated key means is up to the reader of the
value.

`parse_members` says where the strings of an object come from.
-/

namespace RbiProxy

namespace Json

/-- A value, with its strings and numbers as they are written. -/
inductive Value where
  | null
  | bool (b : Bool)
  | number (text : GoString)
  | string (raw : GoString)
  | array (values : List Value)
  | object (members : List (GoString × Value))

/-- A container around the current place, with what it has so far. -/
inductive Frame where
  | array (values : List Value)
  | member (members : List (GoString × Value)) (key : GoString)

/-- What comes next. -/
inductive ParseState where
  | value (stack : List Frame)
  /-- Behind `[`. -/
  | arrayStart (stack : List Frame)
  /-- Behind `{`. -/
  | objectStart (stack : List Frame)
  /-- Behind a comma in an object. -/
  | key (members : List (GoString × Value)) (stack : List Frame)
  /-- Behind a key. -/
  | colon (members : List (GoString × Value)) (key : GoString) (stack : List Frame)
  /-- Behind a value. -/
  | after (v : Value) (stack : List Frame)

def maxNestingDepth : Nat := 10000

def Literal.value : Literal → Value
  | .true => .bool Bool.true
  | .false => .bool Bool.false
  | .null => .null

/-- A token where a value is due. -/
def valueNext (stack : List Frame) : Token → Option ParseState
  | .lbrace => if stack.length < maxNestingDepth then some (.objectStart stack) else none
  | .lbracket => if stack.length < maxNestingDepth then some (.arrayStart stack) else none
  | .string raw => some (.after (.string raw) stack)
  | .number text => some (.after (.number text) stack)
  | .literal l => some (.after l.value stack)
  | _ => none

def ParseState.next : ParseState → Token → Option ParseState
  | .value stack, t => valueNext stack t
  | .arrayStart stack, .rbracket => some (.after (.array []) stack)
  | .arrayStart stack, t => valueNext (.array [] :: stack) t
  | .objectStart stack, .rbrace => some (.after (.object []) stack)
  | .objectStart stack, .string k => some (.colon [] k stack)
  | .key members stack, .string k => some (.colon members k stack)
  | .colon members k stack, .colon => some (.value (.member members k :: stack))
  | .after v (.array values :: stack), .comma => some (.value (.array (values ++ [v]) :: stack))
  | .after v (.array values :: stack), .rbracket =>
    some (.after (.array (values ++ [v])) stack)
  | .after v (.member members k :: stack), .comma => some (.key (members ++ [(k, v)]) stack)
  | .after v (.member members k :: stack), .rbrace =>
    some (.after (.object (members ++ [(k, v)])) stack)
  | _, _ => none

def parseRun : ParseState → List Token → Option ParseState
  | st, [] => some st
  | st, t :: ts => (st.next t).bind fun st' => parseRun st' ts

def ParseState.result : ParseState → Option Value
  | .after v [] => some v
  | _ => none

/-- The value of the tokens; `none` for a syntax error. -/
def parse (ts : List Token) : Option Value := (parseRun (.value []) ts).bind ParseState.result

/-! ## Where strings come from -/

section Sound

variable {P : GoString → Prop}

/-- If the value is a string, it is one of those. -/
def Value.Own (P : GoString → Prop) (v : Value) : Prop := ∀ raw, v = .string raw → P raw

def Members (P : GoString → Prop) (members : List (GoString × Value)) : Prop :=
  ∀ m ∈ members, m.2.Own P

/-- A value as such, and the members it has if it is an object. -/
def Value.Good (P : GoString → Prop) (v : Value) : Prop :=
  v.Own P ∧ ∀ members, v = .object members → Members P members

def Frame.Good (P : GoString → Prop) : Frame → Prop
  | .array _ => True
  | .member members _ => Members P members

def ParseState.Good (P : GoString → Prop) : ParseState → Prop
  | .value stack | .arrayStart stack | .objectStart stack => ∀ f ∈ stack, f.Good P
  | .key members stack | .colon members _ stack => Members P members ∧ ∀ f ∈ stack, f.Good P
  | .after v stack => v.Good P ∧ ∀ f ∈ stack, f.Good P

theorem members_concat {members : List (GoString × Value)} {key : GoString} {v : Value}
    (hm : Members P members) (hv : v.Own P) : Members P (members ++ [(key, v)]) := by
  intro m hmem
  obtain h | h := List.mem_append.mp hmem
  · exact hm m h
  · rw [List.mem_singleton.mp h]
    exact hv

theorem good_of_ne {v : Value} (hs : ∀ raw, v ≠ .string raw) (ho : ∀ members, v ≠ .object members) :
    v.Good P :=
  ⟨fun raw h => absurd h (hs raw), fun members h => absurd h (ho members)⟩

theorem good_valueNext {stack : List Frame} {t : Token} {st : ParseState}
    (hstack : ∀ f ∈ stack, f.Good P) (ht : ∀ raw, t = .string raw → P raw)
    (h : valueNext stack t = some st) : st.Good P := by
  cases t with
  | lbrace =>
      rw [valueNext] at h
      split at h
      · obtain rfl := Option.some.inj h
        exact hstack
      · cases h
  | lbracket =>
      rw [valueNext] at h
      split at h
      · obtain rfl := Option.some.inj h
        exact hstack
      · cases h
  | string raw =>
      obtain rfl := Option.some.inj h
      refine ⟨⟨fun raw' hraw => ?_, fun members hne => by cases hne⟩, hstack⟩
      rw [← Value.string.inj hraw]
      exact ht raw rfl
  | number text =>
      obtain rfl := Option.some.inj h
      exact ⟨good_of_ne (fun _ hne => by cases hne) (fun _ hne => by cases hne), hstack⟩
  | literal l =>
      obtain rfl := Option.some.inj h
      cases l <;>
        exact ⟨good_of_ne (fun _ hne => by cases hne) (fun _ hne => by cases hne), hstack⟩
  | _ => cases h

theorem good_next {st st' : ParseState} {t : Token} (hst : st.Good P)
    (ht : ∀ raw, t = .string raw → P raw) (h : st.next t = some st') : st'.Good P := by
  unfold ParseState.next at h
  split at h
  · exact good_valueNext hst ht h
  · obtain rfl := Option.some.inj h
    exact ⟨good_of_ne (fun _ hne => by cases hne) (fun _ hne => by cases hne), hst⟩
  · refine good_valueNext ?_ ht h
    exact List.forall_mem_cons.mpr ⟨trivial, hst⟩
  · obtain rfl := Option.some.inj h
    refine ⟨⟨(fun raw hne => by cases hne), fun members heq => ?_⟩, hst⟩
    rw [← Value.object.inj heq]
    exact fun m hm => absurd hm List.not_mem_nil
  · obtain rfl := Option.some.inj h
    exact ⟨fun m hm => absurd hm List.not_mem_nil, hst⟩
  · obtain rfl := Option.some.inj h
    exact hst
  · obtain rfl := Option.some.inj h
    exact List.forall_mem_cons.mpr hst
  · obtain rfl := Option.some.inj h
    obtain ⟨-, hstack⟩ := List.forall_mem_cons.mp hst.2
    exact List.forall_mem_cons.mpr ⟨trivial, hstack⟩
  · obtain rfl := Option.some.inj h
    obtain ⟨-, hstack⟩ := List.forall_mem_cons.mp hst.2
    exact ⟨good_of_ne (fun _ hne => by cases hne) (fun _ hne => by cases hne), hstack⟩
  · obtain rfl := Option.some.inj h
    obtain ⟨hframe, hstack⟩ := List.forall_mem_cons.mp hst.2
    exact ⟨members_concat hframe hst.1.1, hstack⟩
  · obtain rfl := Option.some.inj h
    obtain ⟨hframe, hstack⟩ := List.forall_mem_cons.mp hst.2
    refine ⟨⟨(fun raw hne => by cases hne), fun members heq => ?_⟩, hstack⟩
    rw [← Value.object.inj heq]
    exact members_concat hframe hst.1.1
  · cases h

theorem good_parseRun {ts : List Token} {st st' : ParseState} (hst : st.Good P)
    (hts : ∀ raw, .string raw ∈ ts → P raw) (h : parseRun st ts = some st') : st'.Good P := by
  induction ts generalizing st with
  | nil =>
      obtain rfl := Option.some.inj h
      exact hst
  | cons t ts ih =>
      obtain ⟨mid, hnext, hrest⟩ := Option.bind_eq_some_iff.mp h
      refine ih (good_next hst (fun raw hraw => hts raw ?_) hnext) (fun raw hmem => hts raw ?_) hrest
      · rw [hraw]
        exact List.mem_cons_self
      · exact List.mem_cons_of_mem _ hmem

/-- The strings among the members of an object stand in the text as strings. -/
theorem parse_members {ts : List Token} {members : List (GoString × Value)}
    (hts : ∀ raw, .string raw ∈ ts → P raw) (h : parse ts = some (.object members)) :
    Members P members := by
  obtain ⟨st, hrun, hres⟩ := Option.bind_eq_some_iff.mp h
  have hstart : (ParseState.value []).Good P := fun f hf => absurd hf List.not_mem_nil
  have hgood := good_parseRun hstart hts hrun
  unfold ParseState.result at hres
  split at hres
  · rw [Option.some.inj hres] at hgood
    exact hgood.1.2 members rfl
  · cases hres

end Sound

end Json

end RbiProxy
