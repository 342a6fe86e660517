import RbiProxy.JsonDecode
import RbiProxy.Reach
import RbiProxy.Storage

/-!
# Calls of a map store

`MapStore` of `storage.go` over any data, whatever `Load` left there. Each call
decodes all of them. `Update` alone takes the mutex, and the exit after an error
of `json.Unmarshal` does not give it back: the call returns, and the next
`Update` waits for ever. Data that are `null` are decoded without an error, but
into a nil map, and writing to that is a panic.

The data are of three kinds, and only the good one changes: `call_entries`,
`call_error` and `call_nilMap` say what a call does on each, and `usable_iff`
which sequences of calls all return.
-/

namespace RbiProxy

namespace Storage

open Cfb Json

/-! ## The calls -/

/-- What `json.Unmarshal` leaves in the map: `null` makes it nil. -/
inductive Decoded where
  | error
  | nilMap
  | entries (mm : GoMap GoString GoString)

def decodeData (data : GoString) : Decoded :=
  match (lex data).bind parse with
  | none => .error
  | some .null => .nilMap
  | some v =>
    match decodeMap v with
    | none => .error
    | some mm => .entries mm

/-- `MapStore`, with whether its mutex is locked, and the files. -/
structure MapStore where
  baseStore : Store
  locked : Bool
  files : Files

inductive Call where
  | update (key value : GoString) (rand : Option Block)
  | setDefault (key value : GoString) (rand : Option Block)
  | get (key : GoString)
  | getInt (key : GoString)

inductive Answer where
  | done
  | text (s : GoString)
  | int (n : Int)

/-- How a call ends, if it ends. -/
inductive Outcome where
  | returned (a : Answer) (m : MapStore)
  | panicked (m : MapStore)
  | blocked

section Calls

variable (aes : GoString → BlockCipher) (baseDir : GoString)

/-- `Store.Set` of what `json.Marshal` returns. -/
def MapStore.set (m : MapStore) (rand : Option Block) (mm : GoMap GoString GoString) : MapStore :=
  let s := { m.baseStore with data := marshalMap mm }
  { m with baseStore := s, files := s.persist aes baseDir rand m.files }

def MapStore.update (m : MapStore) (key value : GoString) (rand : Option Block) : Outcome :=
  if m.locked then .blocked
  else
    let m := { m with locked := true }
    let data := m.baseStore.data
    match if data = [] then .entries ∅ else decodeData data with
    | .error => .returned .done m
    | .nilMap => .panicked m
    | .entries mm =>
      .returned .done { m.set aes baseDir rand (mm.insert key value) with locked := false }

def MapStore.setDefault (m : MapStore) (key value : GoString) (rand : Option Block) : Outcome :=
  let data := m.baseStore.data
  if data = [] then .returned .done (m.set aes baseDir rand (AList.insert key value ∅))
  else
    match decodeData data with
    | .error => .returned .done m
    | .nilMap => .panicked m
    | .entries mm =>
      if (mm.lookup key).isSome then .returned .done m
      else .returned .done (m.set aes baseDir rand (mm.insert key value))

def MapStore.get (m : MapStore) (key : GoString) : GoString :=
  let data := m.baseStore.data
  if data = [] then []
  else
    match decodeData data with
    | .error => []
    | .nilMap => []
    | .entries mm => mm.get key []

def MapStore.getInt (m : MapStore) (key : GoString) : Int :=
  let data := m.baseStore.data
  if data = [] then 0
  else
    match decodeData data with
    | .error => 0
    | .nilMap => (atoi []).getD 0
    | .entries mm => (atoi (mm.get key [])).getD 0

def MapStore.call (m : MapStore) : Call → Outcome
  | .update key value rand => m.update aes baseDir key value rand
  | .setDefault key value rand => m.setDefault aes baseDir key value rand
  | .get key => .returned (.text (m.get key)) m
  | .getInt key => .returned (.int (m.getInt key)) m

/-- The store after a call; one that is blocked leaves it as it is. -/
def MapStore.next (m : MapStore) (c : Call) : MapStore :=
  match m.call aes baseDir c with
  | .returned _ m' => m'
  | .panicked m' => m'
  | .blocked => m

/-- The data cannot be decoded. -/
def Undecodable (data : GoString) : Prop := data ≠ [] ∧ decodeData data = .error

/-- A call returns, and if it cannot decode the data it changes neither them nor
a file. -/
structure Usable (m : MapStore) (c : Call) : Prop where
  returns : ∃ a m', m.call aes baseDir c = .returned a m'
  unchanged : Undecodable m.baseStore.data →
    (m.next aes baseDir c).baseStore.data = m.baseStore.data
      ∧ (m.next aes baseDir c).files = m.files

def Call.isUpdate : Call → Bool
  | .update .. => true
  | _ => false

def Call.isWrite : Call → Bool
  | .update .. => true
  | .setDefault .. => true
  | _ => false

/-! ## What a call does on each kind of data -/

/-- Data that calls work with: none yet, or an object of strings. -/
def Good (data : GoString) : Prop := data = [] ∨ ∃ mm, decodeData data = .entries mm

theorem good_marshalMap (mm : GoMap GoString GoString) : Good (marshalMap mm) := by
  have hlex := lex_members (sortedEntries mm)
  have hparse := parse_members_text (sortedEntries mm)
  have hentries := decodeEntries_raw (sortedEntries mm) ∅
  have hdecode : decodeData (marshalMap mm)
      = .entries (((sortedEntries mm).map textEntry).foldl (fun m e => m.insert e.1 e.2) ∅) := by
    rw [decodeData, marshalMap, hlex, Option.bind_some, hparse]
    dsimp only
    rw [decodeMap, hentries]
  exact .inr ⟨_, hdecode⟩

theorem call_entries {m : MapStore} (hlocked : m.locked = false) (hgood : Good m.baseStore.data)
    (c : Call) :
    ∃ a m', m.call aes baseDir c = .returned a m' ∧ m'.locked = false
      ∧ Good m'.baseStore.data := by
  cases c with
  | update key value rand =>
      obtain ⟨mm, hmm⟩ : ∃ mm, (if m.baseStore.data = [] then Decoded.entries ∅
          else decodeData m.baseStore.data) = .entries mm := by
        by_cases hnil : m.baseStore.data = []
        · exact ⟨∅, if_pos hnil⟩
        · obtain ⟨mm, hmm⟩ := hgood.resolve_left hnil
          exact ⟨mm, by rw [if_neg hnil, hmm]⟩
      rw [MapStore.call, MapStore.update, hlocked, if_neg (by decide)]
      dsimp only
      rw [hmm]
      exact ⟨_, _, rfl, rfl, good_marshalMap (mm.insert key value)⟩
  | setDefault key value rand =>
      rw [MapStore.call, MapStore.setDefault]
      by_cases hnil : m.baseStore.data = []
      · rw [if_pos hnil]
        exact ⟨_, _, rfl, hlocked, good_marshalMap _⟩
      · obtain ⟨mm, hmm⟩ := hgood.resolve_left hnil
        rw [if_neg hnil, hmm]
        dsimp only
        split
        · exact ⟨_, _, rfl, hlocked, hgood⟩
        · exact ⟨_, _, rfl, hlocked, good_marshalMap _⟩
  | get key => exact ⟨_, _, rfl, hlocked, hgood⟩
  | getInt key => exact ⟨_, _, rfl, hlocked, hgood⟩

theorem call_error {m : MapStore} (h : Undecodable m.baseStore.data) (c : Call) :
    (c.isUpdate = true → m.call aes baseDir c
        = if m.locked then .blocked else .returned .done { m with locked := true })
      ∧ (c.isUpdate = false → ∃ a, m.call aes baseDir c = .returned a m) := by
  cases c with
  | update key value rand =>
      refine ⟨fun _ => ?_, fun hno => by cases hno⟩
      rw [MapStore.call, MapStore.update]
      dsimp only
      rw [if_neg h.1, h.2]
  | setDefault key value rand =>
      refine ⟨fun hno => (by cases hno), fun _ => ⟨.done, ?_⟩⟩
      rw [MapStore.call, MapStore.setDefault, if_neg h.1, h.2]
  | get key => exact ⟨fun hno => (by cases hno), fun _ => ⟨_, rfl⟩⟩
  | getInt key => exact ⟨fun hno => (by cases hno), fun _ => ⟨_, rfl⟩⟩

theorem call_nilMap {m : MapStore} (hne : m.baseStore.data ≠ [])
    (h : decodeData m.baseStore.data = .nilMap) (c : Call) :
    (c.isWrite = true → ¬ ∃ a m', m.call aes baseDir c = .returned a m')
      ∧ (c.isWrite = false → ∃ a, m.call aes baseDir c = .returned a m) := by
  cases c with
  | update key value rand =>
      refine ⟨fun _ => ?_, fun hno => by cases hno⟩
      rw [MapStore.call, MapStore.update]
      dsimp only
      rw [if_neg hne, h]
      rintro ⟨a, m', hcall⟩
      split at hcall
      · cases hcall
      · cases hcall
  | setDefault key value rand =>
      refine ⟨fun _ => ?_, fun hno => by cases hno⟩
      rw [MapStore.call, MapStore.setDefault, if_neg hne, h]
      rintro ⟨a, m', hcall⟩
      cases hcall
  | get key => exact ⟨fun hno => (by cases hno), fun _ => ⟨_, rfl⟩⟩
  | getInt key => exact ⟨fun hno => (by cases hno), fun _ => ⟨_, rfl⟩⟩

theorem next_returned {m m' : MapStore} {c : Call} {a : Answer}
    (h : m.call aes baseDir c = .returned a m') : m.next aes baseDir c = m' := by
  rw [MapStore.next, h]

/-- A call that returns with the store as it was, but for the mutex. -/
theorem usable_of_returned {m m' : MapStore} {c : Call} {a : Answer}
    (h : m.call aes baseDir c = .returned a m')
    (hsame : Undecodable m.baseStore.data →
      m'.baseStore.data = m.baseStore.data ∧ m'.files = m.files) :
    Usable aes baseDir m c := by
  refine ⟨⟨a, m', h⟩, fun hbad => ?_⟩
  rw [next_returned aes baseDir h]
  exact hsame hbad

/-! ## Sequences of calls -/

theorem usable_entries (calls : List Call) {m : MapStore} (hlocked : m.locked = false)
    (hgood : Good m.baseStore.data) :
    eachStep (MapStore.next aes baseDir) (Usable aes baseDir) calls m := by
  induction calls generalizing m with
  | nil => trivial
  | cons c calls ih =>
      obtain ⟨a, m', hcall, hlocked', hgood'⟩ := call_entries aes baseDir hlocked hgood c
      have hdecodable : ¬ Undecodable m.baseStore.data := by
        rintro ⟨hne, herr⟩
        obtain ⟨mm, hmm⟩ := hgood.resolve_left hne
        rw [herr] at hmm
        cases hmm
      refine ⟨usable_of_returned aes baseDir hcall fun hbad => absurd hbad hdecodable, ?_⟩
      rw [next_returned aes baseDir hcall]
      exact ih hlocked' hgood'

/-- The `Update`s that return on data that cannot be decoded. -/
def room (locked : Bool) : Nat := if locked then 0 else 1

theorem usable_error (calls : List Call) {m : MapStore} (h : Undecodable m.baseStore.data) :
    eachStep (MapStore.next aes baseDir) (Usable aes baseDir) calls m
      ↔ calls.countP Call.isUpdate ≤ room m.locked := by
  induction calls generalizing m with
  | nil => exact iff_of_true trivial (Nat.zero_le _)
  | cons c calls ih =>
      have hcall := call_error aes baseDir h c
      rw [eachStep]
      cases hc : c.isUpdate with
      | false =>
          obtain ⟨a, hcall⟩ := hcall.2 hc
          rw [next_returned aes baseDir hcall, ih h, List.countP_cons_of_neg (by simp [hc])]
          exact and_iff_right (usable_of_returned aes baseDir hcall fun _ => ⟨rfl, rfl⟩)
      | true =>
          replace hcall := hcall.1 hc
          rw [List.countP_cons_of_pos hc]
          cases hlocked : m.locked with
          | true =>
              rw [hlocked, if_pos rfl] at hcall
              refine iff_of_false ?_ (by simp [room])
              rintro ⟨⟨⟨a, m', hret⟩, -⟩, -⟩
              rw [hcall] at hret
              cases hret
          | false =>
              rw [hlocked, if_neg (by decide)] at hcall
              have hbad : Undecodable ({ m with locked := true } : MapStore).baseStore.data := h
              rw [next_returned aes baseDir hcall, ih hbad,
                and_iff_right (usable_of_returned aes baseDir hcall fun _ => ⟨rfl, rfl⟩)]
              simp [room]

theorem usable_nilMap (calls : List Call) {m : MapStore} (hne : m.baseStore.data ≠ [])
    (h : decodeData m.baseStore.data = .nilMap) :
    eachStep (MapStore.next aes baseDir) (Usable aes baseDir) calls m
      ↔ ∀ c ∈ calls, c.isWrite = false := by
  induction calls with
  | nil => exact iff_of_true trivial fun c hc => by cases hc
  | cons c calls ih =>
      have hcall := call_nilMap aes baseDir hne h c
      rw [eachStep, List.forall_mem_cons]
      cases hc : c.isWrite with
      | false =>
          obtain ⟨a, hcall⟩ := hcall.2 hc
          have husable := usable_of_returned aes baseDir hcall fun _ => ⟨rfl, rfl⟩
          rw [next_returned aes baseDir hcall, ih, and_iff_right husable, and_iff_right rfl]
      | true =>
          exact iff_of_false (fun hall => hcall.1 hc hall.1.returns) fun hall => by cases hall.1

/-- The data are good, or they are not and the calls do not meet the exit that
keeps the mutex twice, or the nil map. -/
def Harmless (data : GoString) (calls : List Call) : Prop :=
  Good data
    ∨ Undecodable data ∧ calls.countP Call.isUpdate ≤ 1
    ∨ decodeData data = .nilMap ∧ ∀ c ∈ calls, c.isWrite = false

/-- **Map stores.** For any data, any files and any sequence of calls on a store
whose mutex is free: every call returns, and one that cannot decode the data
leaves them and the files alone, exactly if the data are empty or an object of
strings, or they cannot be decoded and there is at most one `Update`, or they are
`null` and nothing writes. -/
theorem usable_iff (s : Store) (files : Files) (calls : List Call) :
    eachStep (MapStore.next aes baseDir) (Usable aes baseDir) calls ⟨s, false, files⟩
      ↔ Harmless s.data calls := by
  by_cases hgood : Good s.data
  · exact iff_of_true (usable_entries aes baseDir calls rfl hgood) (.inl hgood)
  have hne : s.data ≠ [] := fun hnil => hgood (.inl hnil)
  rw [Harmless, or_iff_right hgood]
  cases hdata : decodeData s.data with
  | entries mm => exact absurd (.inr ⟨mm, hdata⟩) hgood
  | error =>
      have hbad : Undecodable s.data := ⟨hne, hdata⟩
      rw [usable_error aes baseDir calls (m := ⟨s, false, files⟩) hbad]
      simp [hbad, room]
  | nilMap =>
      rw [usable_nilMap aes baseDir calls (m := ⟨s, false, files⟩) hne hdata]
      simp [Undecodable, hdata]

end Calls

/-- Two updates of a store whose file was damaged. -/
def twoUpdates : List Call :=
  [.update (lit "strictness") (lit "2000") none, .update (lit "timezone") (lit "UTC") none]

theorem failed_update_keeps_mutex :
    ¬ ∀ (s : Store) (calls : List Call),
      eachStep (MapStore.next exampleAes (lit "/srv/")) (Usable exampleAes (lit "/srv/")) calls
        ⟨s, false, ∅⟩ := by
  intro h
  obtain ⟨a, m', hret⟩ := (h { exampleStore with data := lit "?" } twoUpdates).2.1.returns
  have hblocked : (MapStore.next exampleAes (lit "/srv/")
      ⟨{ exampleStore with data := lit "?" }, false, ∅⟩
      (.update (lit "strictness") (lit "2000") none)).locked = true := by
    decide +kernel
  rw [MapStore.call, MapStore.update, if_pos hblocked] at hret
  cases hret

end Storage

end RbiProxy
