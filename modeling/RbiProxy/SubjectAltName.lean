import Mathlib.Data.List.Nodup
import Mathlib.Data.List.TakeWhile
import RbiProxy.ConfList

/-!
# The names of a forged certificate

The part of `CertificateCacheHandler::signCertificate` that writes the subject
alternative names: the DNS names of the real certificate and the SNI, each once,
as a text for `X509V3_EXT_conf_nid`. Nothing keeps a name from having a comma in
it, and the SNI is what the client sent: `a.com,IP:1.2.3.4` is a name and an
address (`sni_adds_entry`).

Names are the bytes of their UTF-8. `san_exact_iff` says for which names the text
stands for these names and nothing else. All values but the last of any text are
plain, so at most one name is not, and that one is where the last value comes
from.
-/

namespace RbiProxy

namespace Qt

open ConfList

/-! ## Writing -/

/-- `QSsl::AlternativeNameEntryType`. -/
inductive AlternativeNameEntryType where
  | emailEntry
  | dnsEntry
  | ipAddressEntry
deriving DecidableEq

/-- `QSslCertificate`, with its `subjectAlternativeNames` in the order of the
iterator; `none` is a null certificate. -/
abbrev AltNames := Option (List (AlternativeNameEntryType × GoString))

/-- One round of the loop over them. -/
def addDnsName (dnsNames : List GoString) (entry : AlternativeNameEntryType × GoString) :
    List GoString :=
  if entry.1 = .dnsEntry ∧ dnsNames.contains entry.2 = false then dnsNames ++ [entry.2]
  else dnsNames

def dnsNames (serverCert : AltNames) (sni : GoString) : List GoString :=
  let dnsNames := (serverCert.getD []).foldl addDnsName []
  let dnsNames := if sni ≠ [] ∧ dnsNames.contains sni = false then dnsNames ++ [sni] else dnsNames
  if dnsNames = [] then dnsNames ++ [sni] else dnsNames

/-- `sanParts`, joined. -/
def sanText (names : List GoString) : GoString :=
  [44].intercalate (names.map fun d => lit "DNS:" ++ d)

def sanValue (serverCert : AltNames) (sni : GoString) : GoString :=
  sanText (dnsNames serverCert sni)

/-! ## Reading -/

/-- The types of `GENERAL_NAME` that a text may have. -/
inductive GeneralNameType where
  | email
  | uri
  | dns
  | rid
  | ip
  | dirName
  | otherName
deriving DecidableEq

/-- `v3_name_cmp`: a name may have a number behind a dot. -/
def nameIs (name cmp : GoString) : Bool := name = cmp || hasPrefix name (cmp ++ [46])

def typeOfName (name : GoString) : Option GeneralNameType :=
  if nameIs name (lit "email") then some .email
  else if nameIs name (lit "URI") then some .uri
  else if nameIs name (lit "DNS") then some .dns
  else if nameIs name (lit "RID") then some .rid
  else if nameIs name (lit "IP") then some .ip
  else if nameIs name (lit "dirName") then some .dirName
  else if nameIs name (lit "otherName") then some .otherName
  else none

/-- `v2i_GENERAL_NAME`, up to the form of the value. -/
def generalName (e : Entry) : Option (GeneralNameType × GoString) :=
  match e.2 with
  | none => none
  | some v => (typeOfName e.1).map fun t => (t, v)

/-- `X509V3_EXT_conf_nid` for the subject alternative names. -/
def subjectAltName (value : GoString) : Option (List (GeneralNameType × GoString)) :=
  (parseList value).bind fun es => es.mapM generalName

/-! ## What it is to stand for -/

def upstreamNames (serverCert : AltNames) : List GoString :=
  (serverCert.getD []).filterMap fun entry => if entry.1 = .dnsEntry then some entry.2 else none

/-- The text stands for the names of the real certificate and the SNI, each once,
and for nothing else. -/
def Covers (serverCert : AltNames) (sni : GoString) : Prop :=
  ∃ names : List GoString, subjectAltName (sanValue serverCert sni) = some (names.map fun d => (.dns, d))
    ∧ names.Nodup ∧ ∀ d, d ∈ names ↔ d ∈ upstreamNames serverCert ∨ d = sni

/-- A name that is not written yet. -/
def addName (names : List GoString) (name : GoString) : List GoString :=
  if names.contains name = false then names ++ [name] else names

/-- The names in the order in which they are written. -/
def distinct (names : List GoString) : List GoString := names.foldl addName []

/-- Names that can be told apart in a list: none has a zero in it or is empty, begins with
white space, or ends with it (but behind a single byte); and none has a comma or is of
several lines, but that the last one may have commas behind its first line. -/
structure Separable (names : List GoString) : Prop where
  tight : ∀ d ∈ names, Tight d ∧ 0 ∉ d
  plain : ∀ d ∈ names.dropLast, Plain d
  last : ∀ d, names.getLast? = some d → 44 ∉ firstLine d

/-! ## The names -/

theorem mem_addName {names : List GoString} {name d : GoString} :
    d ∈ addName names name ↔ d ∈ names ∨ d = name := by
  unfold addName
  by_cases h : name ∈ names
  · rw [if_neg (by simp [h])]
    refine ⟨.inl, fun hd => hd.elim id ?_⟩
    rintro rfl
    exact h
  · rw [if_pos (by simp [h]), List.mem_append, List.mem_singleton]

theorem nodup_addName {names : List GoString} (h : names.Nodup) (name : GoString) :
    (addName names name).Nodup := by
  unfold addName
  split
  · rename_i hnew
    refine List.nodup_append.mpr ⟨h, List.nodup_singleton name, ?_⟩
    intro a ha b hb heq
    rw [List.mem_singleton.mp hb] at heq
    simp [← heq, ha] at hnew
  · exact h

theorem foldl_addName (names : List GoString) {acc : List GoString} (hacc : acc.Nodup) :
    (names.foldl addName acc).Nodup
      ∧ ∀ d, d ∈ names.foldl addName acc ↔ d ∈ acc ∨ d ∈ names := by
  induction names generalizing acc with
  | nil => exact ⟨hacc, fun d => by simp⟩
  | cons name names ih =>
      obtain ⟨hnodup, hmem⟩ := ih (nodup_addName hacc name)
      refine ⟨hnodup, fun d => ?_⟩
      rw [List.foldl_cons, hmem, mem_addName, List.mem_cons]
      tauto

theorem foldl_addDnsName (entries : List (AlternativeNameEntryType × GoString))
    (acc : List GoString) :
    entries.foldl addDnsName acc
      = (entries.filterMap fun entry =>
          if entry.1 = .dnsEntry then some entry.2 else none).foldl addName acc := by
  induction entries generalizing acc with
  | nil => rfl
  | cons entry entries ih =>
      rw [List.foldl_cons, ih, List.filterMap_cons]
      by_cases hdns : entry.1 = .dnsEntry
      · rw [if_pos hdns]
        dsimp only
        rw [List.foldl_cons, addDnsName, addName]
        simp [hdns]
      · rw [if_neg hdns, addDnsName, if_neg fun h => hdns h.1]

/-- With an SNI, the names are those that are wanted. -/
theorem dnsNames_eq (serverCert : AltNames) {sni : GoString} (hsni : sni ≠ []) :
    dnsNames serverCert sni = distinct (upstreamNames serverCert ++ [sni]) := by
  have hadd : (if sni ≠ [] ∧ ((serverCert.getD []).foldl addDnsName []).contains sni = false then
        (serverCert.getD []).foldl addDnsName [] ++ [sni]
      else (serverCert.getD []).foldl addDnsName [])
      = distinct (upstreamNames serverCert ++ [sni]) := by
    rw [distinct, List.foldl_append, List.foldl_cons, List.foldl_nil, upstreamNames,
      ← foldl_addDnsName, addName]
    simp [hsni]
  have hne : distinct (upstreamNames serverCert ++ [sni]) ≠ [] := by
    have hmem := (foldl_addName (upstreamNames serverCert ++ [sni]) List.nodup_nil).2 sni
    intro hnil
    rw [← distinct, hnil] at hmem
    simp at hmem
  rw [dnsNames, hadd, if_neg hne]

/-! ## The text -/

def behind (names : List GoString) : GoString := names.flatMap fun d => 44 :: (lit "DNS:" ++ d)

theorem sanText_cons (d : GoString) (names : List GoString) :
    sanText (d :: names) = lit "DNS:" ++ (d ++ behind names) := by
  induction names generalizing d with
  | nil =>
      rw [sanText, List.map_cons, List.map_nil, List.intercalate_singleton, behind,
        List.flatMap_nil, List.append_nil]
  | cons e names ih =>
      have hnext := ih e
      rw [sanText, List.map_cons] at hnext
      have hbehind : behind (e :: names) = 44 :: (lit "DNS:" ++ e) ++ behind names :=
        List.flatMap_cons
      rw [sanText, List.map_cons, List.map_cons, List.intercalate_cons_cons, hnext, hbehind]
      simp only [List.append_assoc, List.cons_append, List.nil_append]

theorem behind_cons (d : GoString) (names : List GoString) :
    behind (d :: names) = 44 :: sanText (d :: names) := by
  rw [sanText_cons, behind, List.flatMap_cons, ← behind, List.cons_append, List.append_assoc]

theorem mem_behind {names : List GoString} {c : UInt8} (h : c ∈ behind names) :
    c ∈ lit ",DNS:" ∨ ∃ d ∈ names, c ∈ d := by
  obtain ⟨d, hd, hc⟩ := List.mem_flatMap.mp h
  have hsplit : (44 :: (lit "DNS:" ++ d) : GoString) = lit ",DNS:" ++ d := rfl
  rw [hsplit] at hc
  obtain hc | hc := List.mem_append.mp hc
  · exact .inl hc
  · exact .inr ⟨d, hd, hc⟩

/-- There is no zero in the text, but for one in a name. -/
theorem takeWhile_sanText {names : List GoString} (h : ∀ d ∈ names, 0 ∉ d) :
    (sanText names).takeWhile (fun c => c != 0) = sanText names := by
  refine List.takeWhile_eq_self_iff.mpr fun c hc => ?_
  have hne : c ≠ 0 := by
    rintro rfl
    cases names with
    | nil => cases hc
    | cons d names =>
        have hmem : (0 : UInt8) ∈ behind (d :: names) := by
          rw [behind_cons]
          exact List.mem_cons_of_mem _ hc
        obtain hlit | ⟨e, he, h0⟩ := mem_behind hmem
        · exact absurd hlit (by decide)
        · exact h e he h0
  simpa using hne

theorem not_lineEnd_behind {names : List GoString} (h : ∀ d ∈ names, Plain d) :
    ∀ c ∈ behind names, isLineEnd c = false := by
  intro c hc
  obtain hlit | ⟨d, hd, hcd⟩ := mem_behind hc
  · have hall : (lit ",DNS:").all (fun c => !isLineEnd c) = true := by decide
    simpa using List.all_eq_true.mp hall c hlit
  · exact (h d hd c hcd).2

theorem count_of_plain {d : GoString} (h : Plain d) : d.count 44 = 0 :=
  List.count_eq_zero.mpr fun hmem => (h 44 hmem).1 rfl

theorem count_behind {names : List GoString} (h : ∀ d ∈ names, Plain d) :
    (behind names).count 44 = names.length := by
  induction names with
  | nil => rfl
  | cons d names ih =>
      obtain ⟨hd, hrest⟩ := List.forall_mem_cons.mp h
      have hlit : (lit "DNS:").count 44 = 0 := by decide
      rw [behind, List.flatMap_cons, ← behind, List.count_append, List.count_cons_self,
        List.count_append, hlit, count_of_plain hd, ih hrest, List.length_cons]
      omega

/-! ## Its entries -/

/-- A name as it is read. -/
def dnsEntryOf (d : GoString) : Entry := (lit "DNS", some d)

theorem parseLoop_dns (s : GoString) :
    parseLoop none [] (lit "DNS:" ++ s) = parseLoop (some (lit "DNS")) [] s := rfl

theorem parseLoop_names {pre : List GoString} (hplain : ∀ d ∈ pre, Plain d)
    (htight : ∀ d ∈ pre, Tight d) (d : GoString) (post : List GoString) :
    parseLoop none [] (sanText (pre ++ d :: post))
      = (parseLoop (some (lit "DNS")) [] (d ++ behind post)).map (pre.map dnsEntryOf ++ ·) := by
  induction pre with
  | nil =>
      rw [List.nil_append, sanText_cons, parseLoop_dns]
      exact (Option.map_id_apply).symm
  | cons e pre ih =>
      obtain ⟨hpe, hppre⟩ := List.forall_mem_cons.mp hplain
      obtain ⟨hte, htpre⟩ := List.forall_mem_cons.mp htight
      have hbehind : behind (pre ++ d :: post) = 44 :: sanText (pre ++ d :: post) := by
        cases pre with
        | nil => exact behind_cons d post
        | cons f pre => exact behind_cons f _
      rw [List.cons_append, sanText_cons, parseLoop_dns, parseLoop_plain _ hpe, hbehind,
        parseLoop_comma, List.nil_append, stripSpaces_of_tight hte, Option.bind_some,
        ih hppre htpre, Option.map_map]
      rfl

theorem mapM_generalName {es : List Entry} {gs : List (GeneralNameType × GoString)}
    (h : es.mapM generalName = some gs) : es.map Prod.snd = gs.map fun g => some g.2 := by
  induction es generalizing gs with
  | nil =>
      obtain rfl := Option.some.inj h
      rfl
  | cons e es ih =>
      rw [List.mapM_cons] at h
      obtain ⟨g, hg, hrest⟩ := Option.bind_eq_some_iff.mp h
      obtain ⟨gs', hgs, heq⟩ := Option.bind_eq_some_iff.mp hrest
      obtain rfl := Option.some.inj heq
      have hval : e.2 = some g.2 := by
        unfold generalName at hg
        split at hg
        · cases hg
        · rename_i v hv
          obtain ⟨t, -, rfl⟩ := Option.map_eq_some_iff.mp hg
          exact hv
      rw [List.map_cons, List.map_cons, hval, ih hgs]

theorem mapM_dnsEntries (names : List GoString) :
    (names.map dnsEntryOf).mapM generalName = some (names.map fun d => (.dns, d)) := by
  have htype : typeOfName (lit "DNS") = some .dns := by decide +kernel
  induction names with
  | nil => rfl
  | cons d names ih =>
      have hfirst : generalName (dnsEntryOf d) = some (.dns, d) := by
        rw [generalName, dnsEntryOf]
        dsimp only
        rw [htype]
        rfl
      rw [List.map_cons, List.mapM_cons, hfirst, ih]
      rfl

theorem subjectAltName_sanText {names : List GoString} (hne : names ≠ []) (h : Separable names) :
    subjectAltName (sanText names) = some (names.map fun d => (.dns, d)) := by
  obtain ⟨init, d, rfl⟩ := (List.eq_nil_or_concat names).resolve_left hne
  rw [List.concat_eq_append] at *
  have hlast := h.last d (by simp)
  have hplain : ∀ e ∈ init, Plain e := fun e he => h.plain e (by simpa using he)
  have htight : ∀ e ∈ init, Tight e := fun e he => (h.tight e (List.mem_append_left _ he)).1
  have hd := (h.tight d (by simp)).1
  have hparse : parseList (sanText (init ++ [d])) = some ((init ++ [d]).map dnsEntryOf) := by
    rw [parseList, takeWhile_sanText fun e he => (h.tight e he).2,
      parseLoop_names hplain htight, behind, List.flatMap_nil, List.append_nil,
      parseLoop_last _ hlast, List.nil_append, stripSpaces_of_tight hd, List.map_append]
    rfl
  rw [subjectAltName, hparse, Option.bind_some, mapM_dnsEntries]

/-! ## Any names -/

/-- The values of a text that stands for some names. -/
theorem names_of_parseList {text : GoString} {names : List GoString}
    (h : subjectAltName text = some (names.map fun d => (.dns, d))) :
    ∃ es, parseList text = some es ∧ es.map Prod.snd = names.map some := by
  obtain ⟨es, hparse, hmap⟩ := Option.bind_eq_some_iff.mp h
  refine ⟨es, hparse, ?_⟩
  rw [mapM_generalName hmap, List.map_map]
  rfl

/-- The last value cannot be a name with a comma on its first line and another
line behind it: the first of its ends of a line would be further on. -/
theorem no_comma_on_first_line {d rest : GoString} {es : List Entry}
    (h : parseLoop (some (lit "DNS")) [] (d ++ rest) = some es)
    (hrest : ∀ c ∈ rest, isLineEnd c = false) (hline : ∃ c ∈ d, isLineEnd c = true) {e : Entry}
    (he : es.getLast? = some e) (hd : e.2 = some d) : 44 ∉ firstLine d := by
  intro hcomma
  have hfirst := firstLine_append_of_end hline rest
  have hlines : firstLine (d ++ rest) ≠ d ++ rest := by
    intro heq
    obtain ⟨c, hc, hend⟩ := hline
    have hmem : c ∈ firstLine (d ++ rest) := by
      rw [heq]
      exact List.mem_append_left _ hc
    have hnot := List.mem_takeWhile_imp hmem
    rw [hend] at hnot
    cases hnot
  obtain ⟨u, w, hsplit, hu, hstrip, hne⟩ := last_parseLoop h plain_nil hlines he hd
  obtain ⟨-, before, after, rfl⟩ := of_stripSpaces hstrip
  rw [List.nil_append] at hsplit
  -- all ends of lines are in `d`, so there is none before it
  have hcount := congrArg (List.countP isLineEnd) hsplit
  have hzero : ∀ s : GoString, (∀ c ∈ s, isLineEnd c = false) → s.countP isLineEnd = 0 :=
    fun s hs => List.countP_eq_zero.mpr fun c hc => by rw [hs c hc]; decide
  simp only [List.countP_append, hzero u hu, hzero rest hrest] at hcount
  have hbefore : ∀ c ∈ before, isLineEnd c = false := by
    have hnone : before.countP isLineEnd = 0 := by omega
    intro c hc
    have hnot := List.countP_eq_zero.mp hnone c hc
    simpa using hnot
  have hlength := congrArg List.length (congrArg firstLine hsplit)
  rw [hfirst, firstLine_append_of_not hu, firstLine_append_of_not hbefore,
    firstLine_append_of_end hline, List.length_append, List.length_append] at hlength
  have hnil : u = [] := List.length_eq_zero_iff.mp (by omega)
  rw [hfirst] at hne
  exact hne hcomma hnil

/-- A text of names that stands for just these is of names that can be told
apart. -/
theorem separable_of_sanText {names values : List GoString} (hnodup : names.Nodup)
    (hparse : subjectAltName (sanText names) = some (values.map fun d => (.dns, d)))
    (hperm : names.Perm values) : Separable names := by
  obtain ⟨es, hlist, hvalues⟩ := names_of_parseList hparse
  obtain ⟨hall, hinit⟩ := values_parseLoop hlist plain_nil
  have hlen : es.length = names.length := by
    have hmap := congrArg List.length hvalues
    rw [List.length_map, List.length_map] at hmap
    rw [hmap, hperm.length_eq]
  have hentry : ∀ d ∈ names, ∃ e ∈ es, e.2 = some d := by
    intro d hd
    have hmem : some d ∈ es.map Prod.snd := by
      rw [hvalues]
      exact List.mem_map.mpr ⟨d, hperm.mem_iff.mp hd, rfl⟩
    obtain ⟨e, he, heq⟩ := List.mem_map.mp hmem
    exact ⟨e, he, heq⟩
  have htight : ∀ d ∈ names, Tight d ∧ 0 ∉ d := by
    intro d hd
    obtain ⟨e, he, hval⟩ := hentry d hd
    obtain ⟨ht, hmem⟩ := hall e he d hval
    refine ⟨ht, fun h0 => ?_⟩
    have hnot := List.mem_takeWhile_imp (hmem 0 h0)
    exact absurd hnot (by decide)
  -- a name that is not plain is the last value
  have hspecial : ∀ d ∈ names, ¬ Plain d → ∃ e, es.getLast? = some e ∧ e.2 = some d := by
    intro d hd hnot
    obtain ⟨e, he, hval⟩ := hentry d hd
    obtain ⟨init, last, rfl⟩ := (List.eq_nil_or_concat es).resolve_left (List.ne_nil_of_mem he)
    rw [List.concat_eq_append] at *
    obtain he | he := List.mem_append.mp he
    · exact absurd (hinit e (by simpa using he) d hval) hnot
    · rw [List.mem_singleton.mp he] at hval
      exact ⟨last, by simp, hval⟩
  by_cases hplain : ∀ d ∈ names, Plain d
  · refine ⟨htight, fun d hd => hplain d (List.mem_of_mem_dropLast hd), fun d hd hmem => ?_⟩
    have hd' := hplain d (List.mem_of_getLast? hd)
    exact (hd' 44 (List.takeWhile_sublist _ |>.subset hmem)).1 rfl
  push Not at hplain
  obtain ⟨d, hd, hnot⟩ := hplain
  obtain ⟨e, he, hed⟩ := hspecial d hd hnot
  obtain ⟨pre, post, rfl⟩ := List.append_of_mem hd
  have hothers : ∀ x ∈ pre ++ post, Plain x := by
    intro x hx
    by_contra hxnot
    have hxmem : x ∈ pre ++ d :: post := by
      obtain hx | hx := List.mem_append.mp hx
      · exact List.mem_append_left _ hx
      · exact List.mem_append_right _ (List.mem_cons_of_mem _ hx)
    obtain ⟨e', he', hx'⟩ := hspecial x hxmem hxnot
    rw [he] at he'
    obtain rfl := Option.some.inj he'
    rw [hed] at hx'
    obtain rfl := Option.some.inj hx'
    exact (List.nodup_cons.mp (List.nodup_middle.mp hnodup)).1 hx
  have hpre : ∀ x ∈ pre, Plain x := fun x hx => hothers x (List.mem_append_left _ hx)
  have hpost : ∀ x ∈ post, Plain x := fun x hx => hothers x (List.mem_append_right _ hx)
  have htpre : ∀ x ∈ pre, Tight x := fun x hx => (htight x (List.mem_append_left _ hx)).1
  rw [parseList, takeWhile_sanText fun x hx => (htight x hx).2, parseLoop_names hpre htpre]
    at hlist
  obtain ⟨es', hes, rfl⟩ := Option.map_eq_some_iff.mp hlist
  have hcount := length_parseLoop hes
  rw [List.length_append, List.length_append, List.length_map, List.length_cons] at hlen
  have hbehind := not_lineEnd_behind hpost
  by_cases hline : ∃ c ∈ d, isLineEnd c = true
  · -- the rest of the text is in the last value, so there is none
    rw [List.getLast?_append_of_ne_nil _ (ne_nil_of_parseLoop hes)] at he
    have hcomma := no_comma_on_first_line hes hbehind hline he hed
    rw [firstLine_append_of_end hline, List.count_eq_zero.mpr hcomma] at hcount
    obtain rfl : post = [] := List.length_eq_zero_iff.mp (by omega)
    refine ⟨htight, fun x hx => hpre x (by simpa using hx), fun x hx => ?_⟩
    rw [List.getLast?_concat] at hx
    rw [← Option.some.inj hx]
    exact hcomma
  · -- one entry for each comma
    have hone : ∀ c ∈ d, isLineEnd c = false := fun c hc => by
      rw [Bool.eq_false_iff]
      exact fun hend => hline ⟨c, hc, hend⟩
    have hfirst : firstLine (d ++ behind post) = d ++ behind post := by
      rw [firstLine_append_of_not hone, ← List.append_nil (behind post),
        firstLine_append_of_not hbehind]
      rfl
    rw [hfirst, List.count_append, count_behind hpost] at hcount
    refine absurd (fun c hc => ⟨?_, hone c hc⟩) hnot
    rintro rfl
    have hpos := List.count_pos_iff.mpr hc
    omega

/-- **The names of a forged certificate.** For every real certificate and every
SNI: the text stands for the DNS names of the one and the other, each once, and for
nothing else, exactly if these can be told apart in a list. -/
theorem san_exact_iff (serverCert : AltNames) (sni : GoString) :
    Covers serverCert sni ↔ Separable (distinct (upstreamNames serverCert ++ [sni])) := by
  obtain ⟨hnodup, hmem⟩ := foldl_addName (upstreamNames serverCert ++ [sni]) List.nodup_nil
  have hmem' : ∀ d, d ∈ distinct (upstreamNames serverCert ++ [sni])
      ↔ d ∈ upstreamNames serverCert ∨ d = sni := by
    intro d
    rw [distinct, hmem]
    simp
  constructor
  · rintro ⟨values, hparse, hvalues, hset⟩
    obtain ⟨es, hlist, hval⟩ := names_of_parseList hparse
    have hsni : sni ≠ [] := by
      have hentry : some sni ∈ es.map Prod.snd := by
        rw [hval]
        exact List.mem_map.mpr ⟨sni, (hset sni).mpr (.inr rfl), rfl⟩
      obtain ⟨e, he, heq⟩ := List.mem_map.mp hentry
      exact ((values_parseLoop hlist plain_nil).1 e he sni heq).1.ne
    rw [sanValue, dnsNames_eq serverCert hsni] at hparse
    refine separable_of_sanText hnodup hparse ?_
    refine (List.perm_ext_iff_of_nodup hnodup hvalues).mpr fun d => ?_
    rw [← distinct, hmem', hset]
  · intro hsep
    have hsni : sni ∈ distinct (upstreamNames serverCert ++ [sni]) := (hmem' sni).mpr (.inr rfl)
    have hne := (hsep.tight sni hsni).1.ne
    refine ⟨distinct (upstreamNames serverCert ++ [sni]), ?_, hnodup, hmem'⟩
    rw [sanValue, dnsNames_eq serverCert hne]
    exact subjectAltName_sanText (List.ne_nil_of_mem hsni) hsep

/-- A server name with a comma in it is two entries. -/
theorem sni_adds_entry :
    ¬ ∀ (serverCert : AltNames) (sni : GoString), Covers serverCert sni := by
  intro h
  obtain ⟨names, hparse, -, -⟩ := h (some [(.dnsEntry, lit "a.com")]) (lit "b.com,IP:1.2.3.4")
  have hentries : subjectAltName
      (sanValue (some [(.dnsEntry, lit "a.com")]) (lit "b.com,IP:1.2.3.4"))
        = some [(.dns, lit "a.com"), (.dns, lit "b.com"), (.ip, lit "1.2.3.4")] := by
    decide +kernel
  rw [hentries] at hparse
  have hip : (GeneralNameType.ip, lit "1.2.3.4")
      ∈ names.map fun d => (GeneralNameType.dns, d) := by
    rw [← Option.some.inj hparse]
    simp
  obtain ⟨d, -, heq⟩ := List.mem_map.mp hip
  cases heq

end Qt

end RbiProxy
