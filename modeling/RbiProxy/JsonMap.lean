import RbiProxy.GoMap
import RbiProxy.JsonParse
import RbiProxy.JsonText

/-!
# Maps of strings

`json.Marshal` and `json.Unmarshal` of a `map[string]string`: the members are
written in the order of their keys, and read one after the other, so that of
equal keys the last one stays; `null` is read as the empty string.

A map of valid UTF-8 is read back as it was written (`unmarshalMap_marshalMap`).
-/

namespace RbiProxy

namespace Json

/-! ## Writing -/

def memberText (m : GoString × GoString) : GoString := quote m.1 ++ 58 :: quote m.2

def membersText : List (GoString × GoString) → GoString
  | [] => []
  | m :: ms => memberText m ++ ms.flatMap fun m => 44 :: memberText m

def lessEq : GoString → GoString → Bool
  | [], _ => true
  | _ :: _, [] => false
  | a :: x, b :: y => a < b || (a == b && lessEq x y)

/-- The entries of a map in the order of their keys. -/
def sortedEntries (m : GoMap GoString GoString) : List (GoString × GoString) :=
  (m.entries.map fun e => (e.1, e.2)).mergeSort fun a b => lessEq a.1 b.1

/-- `json.Marshal`. -/
def marshalMap (m : GoMap GoString GoString) : GoString :=
  123 :: membersText (sortedEntries m) ++ [125]

/-! ## Reading -/

/-- The string a value of the map is read as; `none` for one of another type. -/
def stringOf : Value → Option GoString
  | .string raw => some (unquote raw)
  | .null => some []
  | _ => none

def decodeEntries (m : GoMap GoString GoString) :
    List (GoString × Value) → Option (GoMap GoString GoString)
  | [] => some m
  | (key, v) :: members => (stringOf v).bind fun s => decodeEntries (m.insert (unquote key) s) members

/-- A value read into an empty map. -/
def decodeMap : Value → Option (GoMap GoString GoString)
  | .object members => decodeEntries ∅ members
  | .null => some ∅
  | _ => none

/-- `json.Unmarshal`; `none` is an error. -/
def unmarshalMap (text : GoString) : Option (GoMap GoString GoString) := do
  let tokens ← lex text
  let v ← parse tokens
  decodeMap v

/-! ## The round trip -/

def memberTokens (m : GoString × GoString) : List Token :=
  [.string (quoteBody m.1), .colon, .string (quoteBody m.2)]

theorem feeds_memberText (m : GoString × GoString) :
    Feeds .start (memberText m) (memberTokens m) .start := by
  have hcolon : Feeds .start [58] [.colon] .start := rfl
  have hmember := (feeds_quote m.1).append (hcolon.append (feeds_quote m.2))
  exact hmember

def moreTokens (ms : List (GoString × GoString)) : List Token :=
  ms.flatMap fun m => .comma :: memberTokens m

theorem feeds_more (ms : List (GoString × GoString)) :
    Feeds .start (ms.flatMap fun m => 44 :: memberText m) (moreTokens ms) .start := by
  induction ms with
  | nil => exact feeds_nil _
  | cons m ms ih =>
      have hcomma : Feeds .start [44] [.comma] .start := rfl
      exact (hcomma.append (feeds_memberText m)).append ih

def membersTokens : List (GoString × GoString) → List Token
  | [] => []
  | m :: ms => memberTokens m ++ moreTokens ms

theorem lex_members (ms : List (GoString × GoString)) :
    lex (123 :: membersText ms ++ [125]) = some (.lbrace :: membersTokens ms ++ [.rbrace]) := by
  have hopen : Feeds .start [123] [.lbrace] .start := rfl
  have hclose : Feeds .start [125] [.rbrace] .start := rfl
  have hbody : Feeds .start (membersText ms) (membersTokens ms) .start := by
    cases ms with
    | nil => exact feeds_nil _
    | cons m ms => exact (feeds_memberText m).append (feeds_more ms)
  exact lex_eq_some_iff.mpr
    ⟨_, _, [], (hopen.append hbody).append hclose, rfl, (List.append_nil _).symm⟩

def rawMember (m : GoString × GoString) : GoString × Value :=
  (quoteBody m.1, .string (quoteBody m.2))

/-- The object is complete behind its last member. -/
theorem parseRun_more (ms : List (GoString × GoString)) (done : List (GoString × Value))
    (key : GoString) (v : Value) :
    parseRun (.after v [.member done key]) (moreTokens ms ++ [.rbrace])
      = some (.after (.object (done ++ (key, v) :: ms.map rawMember)) []) := by
  induction ms generalizing done key v with
  | nil => rfl
  | cons m ms ih =>
      have hnext := ih (done ++ [(key, v)]) (quoteBody m.1) (.string (quoteBody m.2))
      rw [List.append_assoc] at hnext
      exact hnext

theorem parse_members_text (ms : List (GoString × GoString)) :
    parse (.lbrace :: membersTokens ms ++ [.rbrace]) = some (.object (ms.map rawMember)) := by
  cases ms with
  | nil => rfl
  | cons m ms =>
      have hrun : parseRun (.value []) (.lbrace :: membersTokens (m :: ms) ++ [.rbrace])
          = parseRun (.after (.string (quoteBody m.2)) [.member [] (quoteBody m.1)])
              (moreTokens ms ++ [.rbrace]) := rfl
      rw [parse, hrun, parseRun_more]
      rfl

def textEntry (e : GoString × GoString) : GoString × GoString := (jsonText e.1, jsonText e.2)

theorem decodeEntries_raw (ms : List (GoString × GoString)) (m : GoMap GoString GoString) :
    decodeEntries m (ms.map rawMember)
      = some ((ms.map textEntry).foldl (fun m e => m.insert e.1 e.2) m) := by
  induction ms generalizing m with
  | nil => rfl
  | cons e ms ih =>
      rw [List.map_cons, rawMember, decodeEntries, stringOf, unquote_quoteBody, unquote_quoteBody,
        Option.bind_some, ih]
      rfl

theorem mem_sortedEntries {m : GoMap GoString GoString} {k v : GoString} :
    (k, v) ∈ sortedEntries m ↔ m.lookup k = some v := by
  rw [sortedEntries, (List.mergeSort_perm _ _).mem_iff, List.mem_map, ← Option.mem_def,
    AList.mem_lookup_iff]
  constructor
  · rintro ⟨e, he, heq⟩
    obtain ⟨rfl, rfl⟩ := Prod.mk.inj heq
    exact he
  · exact fun h => ⟨⟨k, v⟩, h, rfl⟩

theorem nodup_sortedEntries (m : GoMap GoString GoString) :
    ((sortedEntries m).map Prod.fst).Nodup := by
  have hperm := (List.mergeSort_perm (m.entries.map fun e => (e.1, e.2))
    fun a b => lessEq a.1 b.1).map Prod.fst
  rw [sortedEntries, hperm.nodup_iff, List.map_map]
  exact m.nodupKeys

/-- What is written can be read, whatever the strings are. -/
theorem unmarshalMap_entries (m : GoMap GoString GoString) :
    unmarshalMap (marshalMap m)
      = some (((sortedEntries m).map textEntry).foldl (fun m e => m.insert e.1 e.2) ∅) := by
  rw [unmarshalMap, marshalMap, lex_members, Option.bind_eq_bind, Option.bind_some,
    parse_members_text, Option.bind_eq_bind, Option.bind_some, decodeMap, decodeEntries_raw]

/-- The entries of a map whose keys are valid UTF-8. -/
theorem unmarshalMap_of_keys {m : GoMap GoString GoString}
    (h : ∀ k v, m.lookup k = some v → Utf8 k) :
    ∃ m', unmarshalMap (marshalMap m) = some m'
      ∧ ∀ k, m'.lookup k = (m.lookup k).map jsonText := by
  have hkeys : ((sortedEntries m).map textEntry).map Prod.fst
      = (sortedEntries m).map Prod.fst := by
    rw [List.map_map]
    exact List.map_congr_left fun e he => h e.1 e.2 (mem_sortedEntries.mp he)
  refine ⟨_, unmarshalMap_entries m, fun k => ?_⟩
  cases hk : m.lookup k with
  | some v =>
      have hmem : (k, jsonText v) ∈ (sortedEntries m).map textEntry := by
        refine List.mem_map.mpr ⟨(k, v), mem_sortedEntries.mpr hk, ?_⟩
        rw [textEntry, h k v hk]
      exact GoMap.lookup_insertAll_of_mem (hkeys ▸ nodup_sortedEntries m) hmem ∅
  | none =>
      rw [GoMap.lookup_insertAll_of_notMem]
      · rfl
      · rw [hkeys]
        intro hmem
        obtain ⟨e, he, rfl⟩ := List.mem_map.mp hmem
        rw [mem_sortedEntries.mp he] at hk
        cases hk

/-- **Maps of strings.** A map of valid UTF-8 is read back as it was written. -/
theorem unmarshalMap_marshalMap {m : GoMap GoString GoString}
    (h : ∀ k v, m.lookup k = some v → Utf8 k ∧ Utf8 v) :
    ∃ m', unmarshalMap (marshalMap m) = some m' ∧ ∀ k, m'.lookup k = m.lookup k := by
  obtain ⟨m', hread, hlookup⟩ := unmarshalMap_of_keys fun k v hk => (h k v hk).1
  refine ⟨m', hread, fun k => ?_⟩
  rw [hlookup]
  cases hk : m.lookup k with
  | none => rfl
  | some v => exact congrArg some (h k v hk).2

end Json

end RbiProxy
