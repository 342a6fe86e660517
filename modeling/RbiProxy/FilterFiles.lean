import RbiProxy.JsonDecode
import RbiProxy.KeywordScore

/-!
# The files of the filters

`PostSingleFilter` writes the lines of a filter with `json.MarshalIndent` into a
text that is put together by hand, and `LoadFilterFile` reads it with another
library, line by line: a line without a text is skipped, a score that is no number
is zero, and the error of `strconv.Atoi` is dropped.

That library is the parameter `newObjectFromBytes`; `ReadsJson` is what is used of
it: the members of a text that is an object, with strings as `encoding/json`
decodes them and numbers as they are written.

`loadFilterFile_postSingleFilter` is the round trip: none of that happens to what
was written.
-/

namespace RbiProxy

namespace Policy

open Json

/-! ## Saving -/

/-- What is used of a `GSFilter` here. -/
structure FilterFile where
  id : GoString
  fileName : GoString
deriving DecidableEq

abbrev FilterFiles := GoMap GoString GoString

/-- The filters of `LoadFilters`, by their identifiers, with the names of their
files. -/
def filterNames : List (GoString × GoString) :=
  [(lit "JHGJiwjkGOeglsd", lit "exceptionsitelist.json"),
    (lit "CeBqssmRbqXzbHR", lit "dontbump.json"),
    (lit "JHGJiwjkGOeglsk", lit "blockedmimes.json"),
    (lit "bTXmTXgTuXpJuOZ", lit "blockedsites.json"),
    (lit "bVxTPTOXiqGRbhF", lit "stopwords.json")]

/-- The filters of `LoadFilters`, with their files below `basepath`. -/
def filterFiles (basepath : GoString) : List FilterFile :=
  filterNames.map fun p => ⟨p.1, basepath ++ p.2⟩

/-- A line, as `json.MarshalIndent` writes it into a list. -/
def lineText (v : GsFilterLine) : GoString :=
  lit "\x7b\n    \"Content\": " ++ quote v.content ++ lit ",\n    \"Score\": " ++ formatInt v.score
    ++ lit "\n  \x7d"

/-- `json.MarshalIndent(dataReceived, "", "  ")`; `none` is a nil slice. -/
def marshalIndent : Option (List GsFilterLine) → GoString
  | none => lit "null"
  | some [] => lit "[]"
  | some (v :: vs) =>
    lit "[\n  " ++ lineText v ++ vs.flatMap (fun v => lit ",\n  " ++ lineText v) ++ lit "\n]"

def gsSaveFilterFile (file content : GoString) (files : FilterFiles) : FilterFiles :=
  files.insert file (lit "\x7b\"keywords\":" ++ content ++ lit "\x7d")

/-- `PostSingleFilter`: its response, and the files. -/
def postSingleFilter (requestedId : GoString) (dataReceived : Option (List GsFilterLine))
    (filters : List FilterFile) (files : FilterFiles) : GoString × FilterFiles :=
  (lit "Ok!", filters.foldl (fun files v =>
    if v.id = requestedId then gsSaveFilterFile v.fileName (marshalIndent dataReceived) files
    else files) files)

/-! ## Loading -/

/-- The value under a key, of equal keys the last one. -/
def member (members : List (GoString × Value)) (key : GoString) : Option Value :=
  (members.reverse.find? fun m => unquote m.1 == key).map Prod.snd

/-- `Value.Object`. -/
def asObject : Value → Option (List (GoString × Value))
  | .object members => some members
  | _ => none

/-- `GetObjectArray`, with no objects for an error. -/
def getObjectArray (members : List (GoString × Value)) (key : GoString) :
    List (List (GoString × Value)) :=
  match member members key with
  | some (.array values) => (values.mapM asObject).getD []
  | _ => []

def getString (members : List (GoString × Value)) (key : GoString) : Option GoString :=
  match member members key with
  | some (.string raw) => some (unquote raw)
  | _ => none

def getNumber (members : List (GoString × Value)) (key : GoString) : Option GoString :=
  match member members key with
  | some (.number text) => some text
  | _ => none

/-- The value that `strconv.Atoi` returns next to its error: the bound that was
passed, or zero. -/
def atoiValue (s : GoString) : Int :=
  match atoi s with
  | some n => n
  | none =>
    if unsigned s = [] ∨ (unsigned s).all isDigit = false then 0
    else if s.head? = some 45 then -2 ^ 63 else 2 ^ 63 - 1

/-- One round of the loop over the keywords. -/
def keywordLine (keyword : List (GoString × Value)) : Option GsFilterLine :=
  match getString keyword (lit "Content") with
  | none => none
  | some stopword =>
    let points := (getNumber keyword (lit "Score")).getD (lit "0")
    some ⟨stopword, atoiValue points⟩

section Load

variable (newObjectFromBytes : GoString → Option (List (GoString × Value)))
  (asset : GoString → Option GoString) (baseDir : GoString)

/-- The bytes of a file, which `MakeFile` makes from the assets if there is none. -/
def readOrMake (filepath : GoString) (files : FilterFiles) : GoString × FilterFiles :=
  match files.lookup filepath with
  | some b => (b, files)
  | none =>
    match asset (removeAll filepath baseDir) with
    | some data => (data, files.insert filepath data)
    | none => ([], files)

/-- `LoadFilterFile`: the lines, and the files. -/
def loadFilterFile (filepath : GoString) (files : FilterFiles) :
    List GsFilterLine × FilterFiles :=
  let (b, files) := readOrMake asset baseDir filepath files
  match newObjectFromBytes b with
  | none => ([], files)
  | some v => ((getObjectArray v (lit "keywords")).filterMap keywordLine, files)

/-- The library reads a text that is an object. -/
def ReadsJson : Prop :=
  ∀ text members, (lex text).bind parse = some (.object members) →
    newObjectFromBytes text = some members

end Load

/-! ## The text -/

def lineTokens (v : GsFilterLine) : List Token :=
  [.lbrace, .string (lit "Content"), .colon, .string (quoteBody v.content), .comma,
    .string (lit "Score"), .colon, .number (formatInt v.score), .rbrace]

theorem feeds_lineText (v : GsFilterLine) :
    Feeds .start (lineText v) (lineTokens v) .start := by
  obtain ⟨st, hst, hnum⟩ := feeds_formatInt v.score
  have hopen : Feeds .start (lit "\x7b\n    \"Content\": ")
      [.lbrace, .string (lit "Content"), .colon] .start := rfl
  have hmiddle : Feeds .start (lit ",\n    \"Score\": ")
      [.comma, .string (lit "Score"), .colon] .start := rfl
  have hclose : Feeds (.number st (formatInt v.score)) (lit "\n  \x7d")
      [.number (formatInt v.score), .rbrace] .start := by
    rcases hst with rfl | rfl
    · rfl
    · rfl
  exact (((hopen.append (feeds_quote v.content)).append hmiddle).append hnum).append hclose

def moreLines (vs : List GsFilterLine) : List Token := vs.flatMap fun v => .comma :: lineTokens v

theorem feeds_moreLines (vs : List GsFilterLine) :
    Feeds .start (vs.flatMap fun v => lit ",\n  " ++ lineText v) (moreLines vs) .start := by
  induction vs with
  | nil => exact feeds_nil _
  | cons v vs ih =>
      have hcomma : Feeds .start (lit ",\n  ") [.comma] .start := rfl
      exact (hcomma.append (feeds_lineText v)).append ih

def dataTokens : Option (List GsFilterLine) → List Token
  | none => [.literal .null]
  | some [] => [.lbracket, .rbracket]
  | some (v :: vs) => .lbracket :: (lineTokens v ++ moreLines vs ++ [.rbracket])

theorem feeds_marshalIndent (data : Option (List GsFilterLine)) :
    Feeds .start (marshalIndent data) (dataTokens data) .start := by
  cases data with
  | none => rfl
  | some lines =>
      cases lines with
      | nil => rfl
      | cons v vs =>
          have hopen : Feeds .start (lit "[\n  ") [.lbracket] .start := rfl
          have hclose : Feeds .start (lit "\n]") [.rbracket] .start := rfl
          exact ((hopen.append (feeds_lineText v)).append (feeds_moreLines vs)).append hclose

def fileText (data : Option (List GsFilterLine)) : GoString :=
  lit "\x7b\"keywords\":" ++ marshalIndent data ++ lit "\x7d"

theorem lex_fileText (data : Option (List GsFilterLine)) :
    lex (fileText data)
      = some ([.lbrace, .string (lit "keywords"), .colon] ++ dataTokens data ++ [.rbrace]) := by
  have hopen : Feeds .start (lit "\x7b\"keywords\":")
      [.lbrace, .string (lit "keywords"), .colon] .start := rfl
  have hclose : Feeds .start (lit "\x7d") [.rbrace] .start := rfl
  exact lex_eq_some_iff.mpr ⟨_, _, [], (hopen.append (feeds_marshalIndent data)).append hclose, rfl,
    (List.append_nil _).symm⟩

/-! ## Its value -/

def lineMembers (v : GsFilterLine) : List (GoString × Value) :=
  [(lit "Content", .string (quoteBody v.content)), (lit "Score", .number (formatInt v.score))]

def lineValue (v : GsFilterLine) : Value := .object (lineMembers v)

def dataValue : Option (List GsFilterLine) → Value
  | none => .null
  | some lines => .array (lines.map lineValue)

def inKeywords : List Frame := [.member [] (lit "keywords")]

theorem parseRun_line (v : GsFilterLine) (done : List Value) (ts : List Token) :
    parseRun (.value (.array done :: inKeywords)) (lineTokens v ++ ts)
      = parseRun (.after (lineValue v) (.array done :: inKeywords)) ts := rfl

/-- The list is complete behind its last line. -/
theorem parseRun_moreLines (vs : List GsFilterLine) (done : List Value) (last : Value)
    (ts : List Token) :
    parseRun (.after last (.array done :: inKeywords)) (moreLines vs ++ .rbracket :: ts)
      = parseRun (.after (.array (done ++ last :: vs.map lineValue)) inKeywords) ts := by
  induction vs generalizing done last with
  | nil => rfl
  | cons v vs ih =>
      have hmore : moreLines (v :: vs) ++ .rbracket :: ts
          = .comma :: (lineTokens v ++ (moreLines vs ++ .rbracket :: ts)) := by
        rw [moreLines, List.flatMap_cons, List.append_assoc, List.cons_append]
        rfl
      have hcomma : parseRun (.after last (.array done :: inKeywords))
            (.comma :: (lineTokens v ++ (moreLines vs ++ .rbracket :: ts)))
          = parseRun (.value (.array (done ++ [last]) :: inKeywords))
            (lineTokens v ++ (moreLines vs ++ .rbracket :: ts)) := rfl
      rw [hmore, hcomma, parseRun_line, ih, List.append_assoc]
      rfl

theorem parseRun_data (data : Option (List GsFilterLine)) (ts : List Token) :
    parseRun (.value inKeywords) (dataTokens data ++ ts)
      = parseRun (.after (dataValue data) inKeywords) ts := by
  cases data with
  | none => rfl
  | some lines =>
      cases lines with
      | nil => rfl
      | cons v vs =>
          have hopen : parseRun (.value inKeywords) (dataTokens (some (v :: vs)) ++ ts)
              = parseRun (.value (.array [] :: inKeywords))
                (lineTokens v ++ (moreLines vs ++ .rbracket :: ts)) := by
            rw [dataTokens, List.cons_append, List.append_assoc, List.append_assoc]
            rfl
          rw [hopen, parseRun_line, parseRun_moreLines]
          rfl

theorem parse_fileText (data : Option (List GsFilterLine)) :
    (lex (fileText data)).bind parse = some (.object [(lit "keywords", dataValue data)]) := by
  have hrun : parseRun (.value []) ([.lbrace, .string (lit "keywords"), .colon] ++ dataTokens data
      ++ [.rbrace]) = parseRun (.value inKeywords) (dataTokens data ++ [.rbrace]) := by
    rw [List.append_assoc]
    rfl
  rw [lex_fileText, Option.bind_some, parse, hrun, parseRun_data]
  rfl

/-! ## The lines read back -/

/-- A line that the Go types hold, with a text that JSON keeps. -/
def Kept (v : GsFilterLine) : Prop := Utf8 v.content ∧ FitsInt v.score

theorem keywordLine_lineMembers {v : GsFilterLine} (h : Kept v) :
    keywordLine (lineMembers v) = some v := by
  have hcontent : member (lineMembers v) (lit "Content")
      = some (.string (quoteBody v.content)) := by
    have hno : (unquote (lit "Score") == lit "Content") = false := by decide +kernel
    have hyes : (unquote (lit "Content") == lit "Content") = true := by decide +kernel
    rw [member, lineMembers, List.reverse_cons, List.reverse_singleton, List.singleton_append,
      List.find?_cons, hno, List.find?_cons, hyes]
    rfl
  have hscore : member (lineMembers v) (lit "Score") = some (.number (formatInt v.score)) := by
    have hyes : (unquote (lit "Score") == lit "Score") = true := by decide +kernel
    rw [member, lineMembers, List.reverse_cons, List.reverse_singleton, List.singleton_append,
      List.find?_cons, hyes]
    rfl
  have hatoi : atoiValue (formatInt v.score) = v.score := by
    rw [atoiValue, atoi_formatInt h.2.1 h.2.2]
  have htext : unquote (quoteBody v.content) = v.content := by
    rw [unquote_quoteBody]
    exact h.1
  rw [keywordLine, getString, hcontent]
  dsimp only
  rw [getNumber, hscore]
  dsimp only
  rw [Option.getD_some, hatoi, htext]

theorem mapM_asObject (lines : List GsFilterLine) :
    (lines.map lineValue).mapM asObject = some (lines.map lineMembers) := by
  induction lines with
  | nil => rfl
  | cons v vs ih =>
      rw [List.map_cons, List.mapM_cons, ih]
      rfl

theorem getObjectArray_dataValue (data : Option (List GsFilterLine)) :
    getObjectArray [(lit "keywords", dataValue data)] (lit "keywords")
      = (data.getD []).map lineMembers := by
  have hyes : (unquote (lit "keywords") == lit "keywords") = true := by decide +kernel
  have hmember : member [(lit "keywords", dataValue data)] (lit "keywords")
      = some (dataValue data) := by
    rw [member, List.reverse_singleton, List.find?_cons, hyes]
    rfl
  rw [getObjectArray, hmember]
  cases data with
  | none => rfl
  | some lines =>
      rw [dataValue]
      dsimp only
      rw [mapM_asObject]
      rfl

theorem filterMap_keywordLine {lines : List GsFilterLine} (h : ∀ v ∈ lines, Kept v) :
    (lines.map lineMembers).filterMap keywordLine = lines := by
  rw [List.filterMap_map]
  induction lines with
  | nil => rfl
  | cons v vs ih =>
      obtain ⟨hv, hvs⟩ := List.forall_mem_cons.mp h
      rw [List.filterMap_cons, Function.comp_apply, keywordLine_lineMembers hv, ih hvs]

/-! ## The files -/

/-- Two filters have the same identifier or the same file only if they are the
same. -/
theorem filterFiles_inj {basepath : GoString} {f g : FilterFile} (hf : f ∈ filterFiles basepath)
    (hg : g ∈ filterFiles basepath) (h : f.id = g.id ∨ f.fileName = g.fileName) : f = g := by
  have hnames : (filterNames.all fun p => filterNames.all fun q =>
      decide (p.1 = q.1 ∨ p.2 = q.2 → p = q)) = true := by decide +kernel
  obtain ⟨p, hp, rfl⟩ := List.mem_map.mp hf
  obtain ⟨q, hq, rfl⟩ := List.mem_map.mp hg
  have hpq := of_decide_eq_true (List.all_eq_true.mp (List.all_eq_true.mp hnames p hp) q hq)
  rw [hpq (h.imp id List.append_cancel_left)]

/-- The files of the filters with the identifier are written, and no others. -/
theorem lookup_postSingleFilter (requestedId : GoString) (data : Option (List GsFilterLine))
    (filters : List FilterFile) (files : FilterFiles) (name : GoString) :
    (postSingleFilter requestedId data filters files).2.lookup name
      = if ∃ v ∈ filters, v.id = requestedId ∧ v.fileName = name then some (fileText data)
        else files.lookup name := by
  unfold postSingleFilter
  dsimp only
  induction filters generalizing files with
  | nil => simp
  | cons v filters ih =>
      rw [List.foldl_cons, ih]
      by_cases hrest : ∃ w ∈ filters, w.id = requestedId ∧ w.fileName = name
      · have hany : ∃ w ∈ v :: filters, w.id = requestedId ∧ w.fileName = name := by
          obtain ⟨w, hw, hsame⟩ := hrest
          exact ⟨w, List.mem_cons_of_mem v hw, hsame⟩
        rw [if_pos hrest, if_pos hany]
      · rw [if_neg hrest]
        by_cases hfirst : v.id = requestedId ∧ v.fileName = name
        · have hany : ∃ w ∈ v :: filters, w.id = requestedId ∧ w.fileName = name :=
            ⟨v, List.mem_cons_self, hfirst⟩
          rw [if_pos hany, if_pos hfirst.1, gsSaveFilterFile, hfirst.2, AList.lookup_insert]
          rfl
        · have hnone : ¬ ∃ w ∈ v :: filters, w.id = requestedId ∧ w.fileName = name := by
            rintro ⟨w, hw, hsame⟩
            obtain rfl | hw := List.mem_cons.mp hw
            · exact hfirst hsame
            · exact hrest ⟨w, hw, hsame⟩
          rw [if_neg hnone]
          split
          · rename_i hid
            have hname : name ≠ v.fileName := fun heq => hfirst ⟨hid, heq.symm⟩
            rw [gsSaveFilterFile, AList.lookup_insert_ne hname]
          · rfl

section RoundTrip

variable {newObjectFromBytes : GoString → Option (List (GoString × Value))}
  (asset : GoString → Option GoString) (baseDir : GoString)

theorem loadFilterFile_fileText (hread : ReadsJson newObjectFromBytes)
    {data : Option (List GsFilterLine)} (hkept : ∀ v ∈ data.getD [], Kept v)
    {name : GoString} {files : FilterFiles} (hfile : files.lookup name = some (fileText data)) :
    loadFilterFile newObjectFromBytes asset baseDir name files = (data.getD [], files) := by
  have hmembers := hread (fileText data) _ (parse_fileText data)
  rw [loadFilterFile, readOrMake, hfile]
  dsimp only
  rw [hmembers]
  dsimp only
  rw [getObjectArray_dataValue, filterMap_keywordLine hkept]

/-- **Filter lists.** For every filter and all lines whose texts are valid UTF-8:
what is saved is what is loaded, in the same order and with the same scores, and
no other filter's file is changed. -/
theorem loadFilterFile_postSingleFilter (hread : ReadsJson newObjectFromBytes) (basepath : GoString)
    {f : FilterFile} (hf : f ∈ filterFiles basepath) {data : Option (List GsFilterLine)}
    (hkept : ∀ v ∈ data.getD [], Utf8 v.content ∧ FitsInt v.score) (files : FilterFiles) :
    (loadFilterFile newObjectFromBytes asset baseDir f.fileName
        (postSingleFilter f.id data (filterFiles basepath) files).2).1 = data.getD []
      ∧ ∀ g ∈ filterFiles basepath, g ≠ f →
        (postSingleFilter f.id data (filterFiles basepath) files).2.lookup g.fileName
          = files.lookup g.fileName := by
  constructor
  · have hfile : (postSingleFilter f.id data (filterFiles basepath) files).2.lookup f.fileName
        = some (fileText data) := by
      rw [lookup_postSingleFilter, if_pos ⟨f, hf, rfl, rfl⟩]
    rw [loadFilterFile_fileText asset baseDir hread hkept hfile]
  · intro g hg hne
    rw [lookup_postSingleFilter, if_neg]
    rintro ⟨w, hw, hid, hname⟩
    obtain rfl := filterFiles_inj hw hf (.inl hid)
    exact hne (filterFiles_inj hg hw (.inr hname.symm))

end RoundTrip

/-- A reader as it is documented. -/
def readObject (text : GoString) : Option (List (GoString × Value)) :=
  ((lex text).bind parse).bind asObject

theorem readsJson_readObject : ReadsJson readObject := by
  intro text members h
  rw [readObject, h]
  rfl

def stopwords : FilterFile := ⟨lit "bVxTPTOXiqGRbhF", lit "filterfiles/stopwords.json"⟩

/-- Two keywords, one with a sign that JSON escapes. -/
theorem loadFilterFile_example :
    (loadFilterFile readObject (fun _ => none) (lit "./") stopwords.fileName
      (postSingleFilter stopwords.id (some [⟨lit "<bet>", -7⟩, ⟨[], 2 ^ 63 - 1⟩])
        (filterFiles (lit "filterfiles/")) ∅).2).1 = [⟨lit "<bet>", -7⟩, ⟨[], 2 ^ 63 - 1⟩] := by
  have hmem : stopwords ∈ filterFiles (lit "filterfiles/") := by decide +kernel
  have hfirst : FitsInt (-7) := by
    unfold FitsInt
    decide +kernel
  have hlast : FitsInt (2 ^ 63 - 1) := by
    unfold FitsInt
    decide +kernel
  have hkept : ∀ v ∈ (some [⟨lit "<bet>", -7⟩, ⟨[], 2 ^ 63 - 1⟩]
      : Option (List GsFilterLine)).getD [], Utf8 v.content ∧ FitsInt v.score := by
    intro v hv
    rw [Option.getD_some, List.mem_cons, List.mem_singleton] at hv
    rcases hv with rfl | rfl
    · exact ⟨utf8_of_all (by decide), hfirst⟩
    · exact ⟨utf8_of_all (by decide), hlast⟩
  exact (loadFilterFile_postSingleFilter (fun _ => none) (lit "./") readsJson_readObject
    (lit "filterfiles/") hmem hkept ∅).1

end Policy

end RbiProxy
