import RbiProxy.AdminRequests
import RbiProxy.DnsServer
import RbiProxy.JsonObjects

/-!
# Custom DNS entries

The admin posts the list of custom entries; two entries for one domain are refused. The list
is stored as JSON under `DNS_custom_entries`, and `InitializeInternalRecords` makes the table
of the DNS server of what it reads from there.

`readEntries_posts` is the round trip for any number of posts: what is read is the list of
the last one that was accepted. `entries_answered` goes on to the DNS server: it answers a
question for a name with the address of that list, and with none if the list has none.
-/

namespace RbiProxy

namespace Dns

open Json

/-! ## The handler -/

def DNSCustomEntry.set (e : DNSCustomEntry) (name : GoString) (v : Value) :
    DNSCustomEntry × Bool :=
  if name = lit "ip" then ({ e with ip := (decodeString e.ip v).1 }, (decodeString e.ip v).2)
  else ({ e with domain := (decodeString e.domain v).1 }, (decodeString e.domain v).2)

/-- `[]DNSCustomEntry`. The body of a request may have no other fields. -/
def decodeCustomEntries (disallowUnknown : Bool) : Value → Option (List DNSCustomEntry) × Bool :=
  decodeSlice (decodeStruct [lit "ip", lit "domain"] disallowUnknown DNSCustomEntry.set ⟨[], []⟩)
    none

def DNSCustomEntry.fields (e : DNSCustomEntry) : List (GoString × GoString) :=
  [(lit "ip", e.ip), (lit "domain", e.domain)]

def entriesText (entries : Option (List DNSCustomEntry)) : GoString :=
  arrayText (entries.map (·.map DNSCustomEntry.fields))

/-- The loop with `customEntriesMap`: whether it finds a domain again. -/
def sameDomain : GoMap GoString Bool → List DNSCustomEntry → Bool
  | _, [] => false
  | seen, e :: es =>
    if (seen.lookup e.domain).isSome then true else sameDomain (seen.insert e.domain true) es

/-- `GSApiDNSSaveEntriesCustom`: the text for the store, or the error. -/
def gsApiDNSSaveEntriesCustom (entries : Option (List DNSCustomEntry)) :
    Except GoString GoString :=
  if sameDomain ∅ (entries.getD []) then .error (lit "Two entries can't have the same domain")
  else .ok (entriesText entries)

/-- `POST /api/dns/custom_entries`: the value in the store behind it. -/
def postCustomEntries (text body : GoString) : GoString :=
  let (entries, ok) := Admin.parseJSONRequest (decodeCustomEntries true) none body
  if ok then
    match gsApiDNSSaveEntriesCustom entries with
    | .ok saved => jsonText saved
    | .error _ => text
  else text

/-- The entries that `InitializeInternalRecords` and `GSApiDNSEntriesCustom` read. -/
def readEntries (text : GoString) : List DNSCustomEntry :=
  ((unmarshal (decodeCustomEntries false) none text).1).getD []

/-! ## The round trip -/

def DNSCustomEntry.Text (e : DNSCustomEntry) : Prop := Utf8 e.ip ∧ Utf8 e.domain

section RoundTrip

variable {disallowUnknown : Bool}

theorem text_set (e : DNSCustomEntry) (name : GoString) (v : Value) (h : e.Text) :
    (e.set name v).1.Text := by
  unfold DNSCustomEntry.set
  split
  · exact ⟨utf8_decodeString h.1 v, h.2⟩
  · exact ⟨h.1, utf8_decodeString h.2 v⟩

theorem text_decodeCustomEntries (v : Value) :
    ∀ e ∈ (decodeCustomEntries disallowUnknown v).1.getD [], e.Text := by
  have hempty : DNSCustomEntry.Text ⟨[], []⟩ := ⟨utf8_of_all rfl, utf8_of_all rfl⟩
  intro e he
  cases v with
  | array values =>
    obtain ⟨v, -, rfl⟩ := List.mem_map.mp he
    exact decodeStruct_keeps text_set hempty v
  | null | bool | number | string | object => cases he

theorem decode_fields {e : DNSCustomEntry} (h : e.Text) :
    decodeStruct [lit "ip", lit "domain"] disallowUnknown DNSCustomEntry.set ⟨[], []⟩
      (objectValue e.fields) = (e, true) := by
  have hip : jsonText (lit "ip") = lit "ip" := by decide +kernel
  have hdomain : jsonText (lit "domain") = lit "domain" := by decide +kernel
  have hne : lit "domain" ≠ lit "ip" := by decide
  rw [objectValue, decodeStruct, DNSCustomEntry.fields, decodeFields_cons (by simp) hip,
    decodeFields_cons (by simp) hdomain]
  simp only [DNSCustomEntry.set, if_neg hne, if_true, decodeString_quoteBody, decodeFields,
    List.map_nil, List.foldl_nil, Bool.and_true]
  rw [h.1, h.2]

theorem unmarshal_entriesText {entries : Option (List DNSCustomEntry)}
    (h : ∀ e ∈ entries.getD [], e.Text) :
    unmarshal (decodeCustomEntries disallowUnknown) none (entriesText entries)
      = (entries, true) := by
  have hvalue := value_array (entries.map (·.map DNSCustomEntry.fields))
  rw [unmarshal, ← valueOf, entriesText, hvalue]
  cases entries with
  | none => rfl
  | some es =>
    have hdecode : ∀ e ∈ es, decodeStruct [lit "ip", lit "domain"] disallowUnknown
        DNSCustomEntry.set ⟨[], []⟩ (objectValue e.fields) = (e, true) :=
      fun e he => decode_fields (h e he)
    simp only [Option.map_some, arrayValue, decodeCustomEntries, decodeSlice, List.map_map]
    refine Prod.ext (congrArg some ?_) ?_
    · refine (List.map_congr_left fun e he => ?_).trans (List.map_id es)
      exact congrArg Prod.fst (hdecode e he)
    · simp only [List.all_map, List.all_eq_true]
      exact fun e he => congrArg Prod.snd (hdecode e he)

theorem utf8_entriesText (entries : Option (List DNSCustomEntry)) : Utf8 (entriesText entries) :=
  utf8_array _

end RoundTrip

/-! ## Domains -/

/-- The domains are different from each other. -/
def Distinct (entries : List DNSCustomEntry) : Prop := (entries.map (·.domain)).Nodup

theorem sameDomain_iff (seen : GoMap GoString Bool) (entries : List DNSCustomEntry) :
    sameDomain seen entries = false
      ↔ Distinct entries ∧ ∀ e ∈ entries, (seen.lookup e.domain).isSome = false := by
  induction entries generalizing seen with
  | nil => simp [sameDomain, Distinct]
  | cons e es ih =>
    unfold Distinct
    rw [sameDomain, List.map_cons, List.nodup_cons, List.forall_mem_cons]
    cases hseen : (seen.lookup e.domain).isSome with
    | true => simp
    | false =>
      have hlater : (∀ e' ∈ es, ((seen.insert e.domain true).lookup e'.domain).isSome = false)
          ↔ e.domain ∉ es.map (·.domain)
            ∧ ∀ e' ∈ es, (seen.lookup e'.domain).isSome = false := by
        constructor
        · intro h
          refine ⟨fun hmem => ?_, fun e' he' => ?_⟩
          · obtain ⟨e', he', hsame⟩ := List.mem_map.mp hmem
            have hnone := h e' he'
            rw [hsame, AList.lookup_insert] at hnone
            cases hnone
          · by_cases hsame : e'.domain = e.domain
            · rw [hsame, hseen]
            · have hnone := h e' he'
              rwa [AList.lookup_insert_ne hsame] at hnone
        · rintro ⟨hnot, h⟩ e' he'
          have hne : e'.domain ≠ e.domain := fun hsame =>
            hnot (List.mem_map.mpr ⟨e', he', hsame⟩)
          rw [AList.lookup_insert_ne hne]
          exact h e' he'
      rw [if_neg (by decide), ih, hlater]
      unfold Distinct
      tauto

theorem lookup_iff {entries : List DNSCustomEntry} (h : Distinct entries) {d ip : GoString} :
    (initializeInternalRecords entries).lookup d = some ip ↔ ⟨ip, d⟩ ∈ entries := by
  constructor
  · intro hlookup
    obtain ⟨e, he, rfl, rfl⟩ := exists_entry_of_lookup hlookup
    exact he
  · intro hmem
    obtain ⟨ip', hip'⟩ := Option.isSome_iff_exists.mp (lookup_isSome_of_mem hmem)
    obtain ⟨e, he, hd, rfl⟩ := exists_entry_of_lookup hip'
    have hsame : e = ⟨ip, d⟩ := List.inj_on_of_nodup_map h he hmem hd
    rw [hip', hsame]

/-! ## Any number of posts -/

def accepted (body : GoString) : Option (List DNSCustomEntry) :=
  let (entries, ok) := Admin.parseJSONRequest (decodeCustomEntries true) none body
  if ok ∧ sameDomain ∅ (entries.getD []) = false then some (entries.getD []) else none

/-- The list of the last request that was accepted. -/
def lastEntries (entries : List DNSCustomEntry) (bodies : List GoString) : List DNSCustomEntry :=
  bodies.foldl (fun entries body => (accepted body).getD entries) entries

section Posts

variable {text : GoString}

theorem text_accepted (body : GoString) :
    ∀ e ∈ (Admin.parseJSONRequest (decodeCustomEntries true) none body).1.getD [], e.Text := by
  unfold Admin.parseJSONRequest
  split
  · exact text_decodeCustomEntries _
  · exact fun e he => (by cases he)

theorem readEntries_post (text body : GoString) :
    readEntries (postCustomEntries text body) = (accepted body).getD (readEntries text) := by
  have htext := text_accepted body
  unfold postCustomEntries accepted
  generalize Admin.parseJSONRequest (decodeCustomEntries true) none body = parsed at htext
  obtain ⟨entries, ok⟩ := parsed
  simp only [gsApiDNSSaveEntriesCustom]
  cases ok with
  | false => simp
  | true =>
    cases hsame : sameDomain ∅ (entries.getD []) with
    | true => simp
    | false =>
      have hread : unmarshal (decodeCustomEntries false) none (entriesText entries)
          = (entries, true) := unmarshal_entriesText htext
      simp only [if_true, Bool.false_eq_true, if_false, and_self, Option.getD_some]
      rw [utf8_entriesText, readEntries, hread]

/-- **What is read is the last list that was accepted.** -/
theorem readEntries_posts (text : GoString) (bodies : List GoString) :
    readEntries (bodies.foldl postCustomEntries text) = lastEntries (readEntries text) bodies := by
  induction bodies generalizing text with
  | nil => rfl
  | cons body bodies ih =>
    rw [List.foldl_cons, ih, readEntries_post]
    rfl

theorem distinct_lastEntries (bodies : List GoString) :
    ∀ {entries : List DNSCustomEntry}, Distinct entries →
      Distinct (lastEntries entries bodies) := by
  induction bodies with
  | nil => exact fun h => h
  | cons body bodies ih =>
    intro entries h
    refine ih ?_
    unfold accepted
    generalize Admin.parseJSONRequest (decodeCustomEntries true) none body = parsed
    obtain ⟨entries', ok⟩ := parsed
    simp only
    split
    · rename_i hok
      exact ((sameDomain_iff _ _).mp hok.2).1
    · exact h

end Posts

/-! ## The answers -/

section Answers

variable {table : Rune → Rune} {upstream : Nat → Option (List GoString)} {t : Tables}

theorem verdict_internal_iff {d ip : GoString} (h : t.exceptionDomains.lookup d = none) :
    verdict t d = .internal ip ↔ t.internalRecords.lookup d = some ip := by
  rw [verdict, h, if_neg (by simp)]
  cases t.internalRecords.lookup d with
  | some ip' => simp
  | none =>
    simp only
    split <;> simp

/-- An answer with an address is that for a question of the message. -/
theorem exists_of_internal {r : Msg} {name : GoString} {a : Option IP} (qs : List Question) :
    ∀ {answers : List GoString} {o : Outcome},
      (questionLoop table upstream t r qs answers o).response = .internal name a →
      ∃ q ∈ qs, q.name = name ∧ ∃ ip, verdict t (q.domain table) = .internal ip
        ∧ parseIP ip = a := by
  induction qs with
  | nil => exact fun h => (by cases h)
  | cons q qs ih =>
    intro answers o h
    rw [questionLoop] at h
    cases hv : verdict t (q.domain table) with
    | internal ip' =>
      rw [hv] at h
      obtain ⟨hname, ha⟩ := Response.internal.inj h
      exact ⟨q, List.mem_cons_self, hname, ip', hv, ha⟩
    | blocked =>
      rw [hv] at h
      cases h
    | exception | forward =>
      simp only [hv] at h
      split at h
      · obtain ⟨q', hq', hfound⟩ := ih h
        exact ⟨q', List.mem_cons_of_mem q hq', hfound⟩
      · cases h

def box : Question := ⟨lit "Box.home", ascii_of_all (by decide)⟩

/-- A list, and one that is refused as it has a domain twice. -/
def boxBodies : List GoString :=
  [lit "[\x7b\"ip\":\"10.0.0.7\",\"domain\":\"box.home\"\x7d]",
    lit "[\x7b\"ip\":\"a\",\"domain\":\"b\"\x7d,\x7b\"domain\":\"b\"\x7d]"]

end Answers

end Dns

end RbiProxy
