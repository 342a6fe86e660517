import RbiProxy.Base64
import RbiProxy.GoQuote
import RbiProxy.HtmlScript
import RbiProxy.KioskHost

/-!
# The script in the viewer's page

For an isolated site, `ServeHTTP` fetches the title and the favicon of the site and
writes them into the page of the viewer: the title and the URL of the favicon as string
literals in a script, and a favicon that came as data as a link. Both are chosen by the
site.

The literals are quoted by `strconv.Quote`, and `</` in them is written `<\/`. For
JavaScript the literals end where they should, whatever the site sends. For HTML there
is no end tag in them; but a title can open a comment and a script in it, and then the
end tag of the element does not end it. `unbroken_iff` says when.
-/

namespace RbiProxy

namespace Viewer

open Strconv Html

/-! ## What the site sends -/

/-- An answer, and whether all of it could be read. -/
structure Answer where
  status : Nat
  body : GoString
  complete : Bool

/-- `rbiFetchClient.Get` and `http.DetectContentType`. -/
structure Web where
  get : GoString → Option Answer
  detectContentType : GoString → GoString

def extractTitle (body : GoString) : GoString :=
  match index body (lit "<title>"), index body (lit "</title>") with
  | some titleStart, some titleEnd =>
    if titleEnd < titleStart then [] else (body.take titleEnd).drop (titleStart + 7)
  | _, _ => []

def extractFavicon (body : GoString) : GoString :=
  match index body (lit "<link rel=\"icon\"") with
  | none => []
  | some iconStart =>
    match index (body.drop iconStart) (lit "href=\"") with
    | none => []
    | some hrefStart =>
      let href := body.drop (hrefStart + iconStart + 6)
      match index href (lit "\"") with
      | none => []
      | some hrefEnd => href.take hrefEnd

/-- `fetchPageMetadata`: the title and the favicon. -/
def fetchPageMetadata (w : Web) (targetURL : GoString) : GoString × GoString :=
  match w.get targetURL with
  | none => ([], [])
  | some answer =>
    let favicon := extractFavicon answer.body
    (extractTitle answer.body, if favicon = [] then lit "/favicon.ico" else favicon)

def fetchFaviconBase64 (w : Web) (faviconURL : GoString) : Option GoString :=
  match w.get faviconURL with
  | none => none
  | some answer =>
    if answer.status ≠ 200 then none
    else if ¬ answer.complete then none
    else some (lit "data:" ++ w.detectContentType answer.body ++ lit ";base64,"
      ++ Base64.encode answer.body)

/-- `favAbs`: the URL of the favicon on its origin. -/
def favAbs (scheme host favRel : GoString) : GoString :=
  if favRel = [] then scheme ++ lit "://" ++ host ++ lit "/favicon.ico"
  else if hasPrefix favRel (lit "http://") ∨ hasPrefix favRel (lit "https://") then favRel
  else if hasPrefix favRel (lit "//") then scheme ++ lit ":" ++ favRel
  else if hasPrefix favRel (lit "/") then scheme ++ lit "://" ++ host ++ favRel
  else scheme ++ lit "://" ++ host ++ lit "/" ++ favRel

def rbiFavURL (w : Web) (scheme host favRel : GoString) : GoString :=
  match fetchFaviconBase64 w (favAbs scheme host favRel) with
  | some dataURI => if dataURI ≠ [] then dataURI else favAbs scheme host favRel
  | none => favAbs scheme host favRel

/-! ## The fragment -/

/-- The loop of `strings.ReplaceAll`, with the number of bytes of a match that are still
to be passed. -/
def replaceLoop (old new : GoString) : Nat → GoString → GoString
  | _, [] => []
  | skip + 1, _ :: t => replaceLoop old new skip t
  | 0, b :: t =>
    if hasPrefix (b :: t) old then new ++ replaceLoop old new (old.length - 1) t
    else b :: replaceLoop old new 0 t

/-- `strings.ReplaceAll`, for a text to replace that is not empty. -/
def replaceAll (s old new : GoString) : GoString := replaceLoop old new 0 s

/-- What does not come from the site: the table of `IsPrint`, `RBI_NAT1TO1` and the two
constants that follow the script. -/
structure Settings where
  printTable : Rune → Bool
  nat1to1 : GoString
  rbiWarmMic : GoString
  rbiWarmCameraMSTP : GoString

variable (set : Settings)

/-- `qt` and `qf`. -/
def literal (s : GoString) : GoString :=
  replaceAll (quote set.printTable s) (lit "</") (lit "<\\/")

def favLink (rbiFavURL : GoString) : GoString :=
  if hasPrefix rbiFavURL (lit "data:") then
    lit "<link rel=\"icon\" href=\"" ++ rbiFavURL ++ lit "\">"
  else []

def camURL : GoString :=
  if set.nat1to1 ≠ [] ∧ set.nat1to1 ≠ lit "127.0.0.1" then
    lit "wss://" ++ set.nat1to1 ++ lit ":8443/ws"
  else []

def script (originalTitle rbiFavURL : GoString) : GoString :=
  lit "window.__rbi_title=" ++ literal set originalTitle ++ lit ";window.__rbi_fav="
    ++ literal set rbiFavURL ++ lit ";window.__rbi_cam=\"\";window.__rbi_cam_url="
    ++ quote set.printTable (camURL set) ++ lit ";"

def behindScript : GoString := set.rbiWarmMic ++ set.rbiWarmCameraMSTP ++ lit "</head>"

def inject (originalTitle rbiFavURL : GoString) : GoString :=
  favLink rbiFavURL ++ lit "<script>" ++ script set originalTitle rbiFavURL ++ lit "</script>"
    ++ behindScript set

/-- What follows the start tag of the script in the fragment. -/
def behindStartTag (originalTitle rbiFavURL : GoString) : GoString :=
  (inject set originalTitle rbiFavURL).drop (favLink rbiFavURL ++ lit "<script>").length

/-- The fragment reads as it was meant: the two literals end at their own quotes and
have no line terminator in them, the value of `href` has no quote in it, and the script
ends at its end tag. -/
structure Unbroken (originalTitle rbiFavURL : GoString) : Prop where
  title : ∀ rest, jsLiteral (runes (literal set originalTitle ++ rest)) = some (runes rest)
  fav : ∀ rest, jsLiteral (runes (literal set rbiFavURL ++ rest)) = some (runes rest)
  href : hasPrefix rbiFavURL (lit "data:") = true → 34 ∉ rbiFavURL
  script : EndsAt (behindStartTag set originalTitle rbiFavURL)
    ((script set originalTitle rbiFavURL).length + 9)

/-! ## The rewriting of `</` -/

/-- `</` becomes `<\/`; `lt` says that there is a `<` right before the text. -/
def escapeSlash : Bool → GoString → GoString
  | _, [] => []
  | lt, b :: t => (if lt && b == 47 then [92, 47] else [b]) ++ escapeSlash (b == 60) t

section Slash

variable {lt : Bool} {b : UInt8} {q w rest : GoString}

theorem escapeSlash_cons (h : ¬ (lt = true ∧ b = 47)) :
    escapeSlash lt (b :: q) = b :: escapeSlash (b == 60) q := by
  have hno : ¬ (lt && b == 47) = true := by simpa using h
  rw [escapeSlash, if_neg hno]
  rfl

theorem escapeSlash_slash : escapeSlash true (47 :: q) = 92 :: 47 :: escapeSlash false q := rfl

theorem replaceAll_slash (s : GoString) :
    replaceAll s (lit "</") (lit "<\\/") = escapeSlash false s := by
  have hnew : lit "<\\/" = [60, 92, 47] := by decide
  have hold : lit "</" = [60, 47] := by decide
  rw [replaceAll, hnew, hold]
  induction s using List.twoStepInduction with
  | nil => rfl
  | singleton b =>
    rw [replaceLoop, if_neg (by simp [hasPrefix, List.isPrefixOf])]
    rfl
  | cons_cons b c t ih iht =>
    by_cases hfound : b = 60 ∧ c = 47
    · obtain ⟨rfl, rfl⟩ := hfound
      have hyes : hasPrefix (60 :: 47 :: t) [60, 47] = true := rfl
      have hout : escapeSlash false (60 :: 47 :: t) = 60 :: 92 :: 47 :: escapeSlash false t := rfl
      rw [replaceLoop, if_pos hyes, hout, ← ih]
      rfl
    · have hno : ¬ hasPrefix (b :: c :: t) [60, 47] = true := by
        rw [hasPrefix_iff]
        rintro ⟨u, hu⟩
        cases hu
        exact hfound ⟨rfl, rfl⟩
      have hflag : escapeSlash (b == 60) (c :: t) = escapeSlash false (c :: t) := by
        rw [escapeSlash_cons (by simpa using hfound), escapeSlash_cons (by simp)]
      have hout : escapeSlash false (b :: c :: t) = b :: escapeSlash (b == 60) (c :: t) :=
        escapeSlash_cons (by simp)
      rw [replaceLoop, if_neg hno, iht, hout, hflag]

theorem escapeSlash_append (hne : w ≠ []) (hw : ∀ b ∈ w, b ≠ 60 ∧ b ≠ 47) :
    escapeSlash lt (w ++ q) = w ++ escapeSlash false q := by
  induction w generalizing lt with
  | nil => exact absurd rfl hne
  | cons b w ih =>
    obtain ⟨hlt, hslash⟩ := hw b List.mem_cons_self
    have hrest : ∀ c ∈ w, c ≠ 60 ∧ c ≠ 47 := fun c hc => hw c (List.mem_cons_of_mem b hc)
    rw [List.cons_append, escapeSlash_cons fun h => hslash h.2, beq_false_of_ne hlt]
    cases w with
    | nil => rfl
    | cons c w =>
      rw [ih (List.cons_ne_nil c w) hrest]
      rfl

theorem escapeSlash_escape {e : GoString} (he : Escape e) :
    escapeSlash lt (e ++ q) = e ++ escapeSlash false q := by
  obtain ⟨b, t, rfl, -⟩ := he.head
  exact escapeSlash_append (List.cons_ne_nil b t) fun c hc =>
    ⟨(he.signs c hc).2.1, (he.signs c hc).2.2.2.1⟩

theorem escapeSlash_concat (hb : b ≠ 47) :
    escapeSlash lt (q ++ [b]) = escapeSlash lt q ++ [b] := by
  induction q generalizing lt with
  | nil => exact escapeSlash_cons fun h => hb h.2
  | cons c q ih => rw [List.cons_append, escapeSlash, escapeSlash, ih, List.append_assoc]

theorem literal_eq (set : Settings) (s : GoString) :
    literal set s = 34 :: escapeSlash false (quoteBody set.printTable s) ++ [34] := by
  rw [literal, replaceAll_slash, quote, List.cons_append, escapeSlash_cons (by simp),
    escapeSlash_concat (by decide)]
  rfl

/-- **For JavaScript** the literal ends at its own quote. -/
theorem jsString_escapeSlash {s : GoString} (h : Quoted s q) (rest : GoString) :
    jsString .text (runes (escapeSlash lt q ++ 34 :: rest)) = some (runes rest) := by
  induction h generalizing lt with
  | nil => rw [escapeSlash, List.nil_append, runes_ascii (by decide), jsString, if_pos (by decide)]
  | @plain b s q hb _ ih =>
    by_cases hslash : lt = true ∧ b = 47
    · obtain ⟨rfl, rfl⟩ := hslash
      have hskip := skipped_escape (c := 47) (by decide) (by decide) (by decide) (by decide)
      rw [escapeSlash_slash]
      exact (hskip _).trans ih
    · rw [escapeSlash_cons hslash]
      exact (skipped_plain hb _).trans ih
  | escape _ _ he _ ih =>
    rw [escapeSlash_escape he, List.append_assoc, he.skipped]
    exact ih

/-- **For HTML** there is no end tag in it. -/
theorem noEndTag_escapeSlash (lt : Bool) (q rest : GoString) :
    noEndTag lt (escapeSlash lt q ++ 34 :: rest) = noEndTag false rest := by
  induction q generalizing lt with
  | nil => simp [escapeSlash, noEndTag]
  | cons b q ih =>
    by_cases hslash : lt = true ∧ b = 47
    · obtain ⟨rfl, rfl⟩ := hslash
      rw [escapeSlash_slash, ← ih false]
      simp [noEndTag]
    · have hno : (lt && b == 47) = false := by
        simpa using hslash
      rw [escapeSlash_cons hslash, List.cons_append, noEndTag, hno, ih]
      rfl

theorem printable_escapeSlash (lt : Bool) (h : ∀ b ∈ q, 0x20 ≤ b) :
    ∀ b ∈ escapeSlash lt q, 0x20 ≤ b := by
  induction q generalizing lt with
  | nil => exact fun b hb => absurd hb List.not_mem_nil
  | cons c q ih =>
    obtain ⟨hc, hq⟩ := List.forall_mem_cons.mp h
    refine List.forall_mem_append.mpr ⟨?_, ih (c == 60) hq⟩
    split
    · exact forall_mem_of_all (by decide +kernel)
    · simpa using hc

end Slash

/-! ## Comments and tags in a literal -/

/-- What follows a string and what follows its literal: both begin with a quote, if
with anything. -/
structure Ends (K K' : GoString) : Prop where
  quoted : ∃ t, K = 34 :: t
  raw : K' = [] ∨ ∃ t, K' = 34 :: t
  level : ∀ m : Nesting, m.after K = m.after K'

section Level

variable {s q K K' : GoString} {lt : Bool}

theorem hasPrefix_cons_ne {b c : UInt8} (h : c ≠ b) (t p : GoString) :
    hasPrefix (b :: t) (c :: p) = false := by
  rw [hasPrefix, List.isPrefixOf, beq_false_of_ne h, Bool.false_and]

/-- A sequence of plain bytes without `/` begins a literal if it begins the string. -/
theorem hasPrefix_literal (hK : Ends K K') (h : Quoted s q) {p : GoString}
    (hp : ∀ c ∈ p, isPlain c = true ∧ c ≠ 47) :
    hasPrefix (escapeSlash lt q ++ K) p = hasPrefix (s ++ K') p := by
  induction h generalizing lt p with
  | nil =>
    cases p with
    | nil => rfl
    | cons c p =>
      have hc : c ≠ 34 := by
        rintro rfl
        exact absurd (hp 34 List.mem_cons_self).1 (by decide)
      obtain ⟨t, rfl⟩ := hK.quoted
      rw [escapeSlash, List.nil_append, List.nil_append, hasPrefix_cons_ne hc]
      obtain rfl | ⟨t', rfl⟩ := hK.raw
      · rfl
      · rw [hasPrefix_cons_ne hc]
  | @plain b s q hb _ ih =>
    cases p with
    | nil => rfl
    | cons c p =>
      have hrest := @ih (b == 60) p fun d hd => hp d (List.mem_cons_of_mem c hd)
      by_cases hslash : lt = true ∧ b = 47
      · obtain ⟨rfl, rfl⟩ := hslash
        obtain ⟨hplain, hno⟩ := hp c List.mem_cons_self
        have hback : c ≠ 92 := by
          rintro rfl
          exact absurd hplain (by decide)
        rw [escapeSlash_slash, List.cons_append, List.cons_append, hasPrefix_cons_ne hback,
          List.cons_append, hasPrefix_cons_ne hno]
      · rw [escapeSlash_cons hslash, List.cons_append, List.cons_append]
        rw [hasPrefix, hasPrefix] at hrest ⊢
        rw [List.isPrefixOf, List.isPrefixOf, hrest]
  | @escape w e s q hne hw he _ ih =>
    cases p with
    | nil => rfl
    | cons c p =>
      have hplain := (hp c List.mem_cons_self).1
      obtain ⟨b, t, rfl, hb⟩ := he.head
      have hbc : c ≠ b := by
        rintro rfl
        rw [hplain] at hb
        cases hb
      obtain ⟨d, u, rfl⟩ := List.exists_cons_of_ne_nil hne
      have hdc : c ≠ d := by
        rintro rfl
        exact absurd (hw c List.mem_cons_self) (by simp [hplain])
      rw [escapeSlash_escape he, List.cons_append, List.cons_append,
        hasPrefix_cons_ne hbc, List.cons_append, List.cons_append, hasPrefix_cons_ne hdc]

/-- What may follow the name of a tag. -/
def tagEnd (s : GoString) : Bool := s.head?.any fun c => c == 32 || c == 47 || c == 62

theorem opensScript_cons (s : GoString) :
    opensScript (60 :: s) = (isScript (s.takeWhile isAlpha) && tagEnd (s.dropWhile isAlpha)) := by
  simp [opensScript, tagEnd]

theorem name_spec {b : UInt8} : isPlain b = false →
    isAlpha b = false ∧ (b == 32 || b == 47 || b == 62) = false :=
  forall_byte (P := fun b => isPlain b = false →
    isAlpha b = false ∧ (b == 32 || b == 47 || b == 62) = false) (by decide +kernel) b

theorem name_cons {b : UInt8} (hb : isAlpha b = false) (t : GoString) :
    (b :: t).takeWhile isAlpha = [] ∧ (b :: t).dropWhile isAlpha = b :: t := by
  constructor
  · exact List.takeWhile_cons_of_neg (by simp [hb])
  · exact List.dropWhile_cons_of_neg (by simp [hb])

/-- The name of a tag in a literal is that in the string. -/
theorem name_literal (hK : Ends K K') (h : Quoted s q) :
    (escapeSlash lt q ++ K).takeWhile isAlpha = (s ++ K').takeWhile isAlpha
      ∧ ((s ++ K').takeWhile isAlpha ≠ [] ∨ lt = false →
        tagEnd ((escapeSlash lt q ++ K).dropWhile isAlpha)
          = tagEnd ((s ++ K').dropWhile isAlpha)) := by
  induction h generalizing lt with
  | nil =>
    obtain ⟨t, rfl⟩ := hK.quoted
    obtain ⟨htake, hdrop⟩ := @name_cons 34 (by decide) t
    rw [escapeSlash, List.nil_append, List.nil_append, htake, hdrop]
    obtain rfl | ⟨t', rfl⟩ := hK.raw
    · exact ⟨rfl, fun _ => rfl⟩
    · obtain ⟨htake', hdrop'⟩ := @name_cons 34 (by decide) t'
      rw [htake', hdrop']
      exact ⟨rfl, fun _ => rfl⟩
  | @plain b s q hb _ ih =>
    by_cases halpha : isAlpha b = true
    · have hsign := alpha_spec halpha
      obtain ⟨htake, hdrop⟩ := @ih (b == 60)
      have hflag : (b == 60) = false := beq_false_of_ne hsign.1
      rw [escapeSlash_cons fun h => hsign.2.2 h.2, List.cons_append, List.cons_append,
        List.takeWhile_cons_of_pos halpha, List.takeWhile_cons_of_pos halpha,
        List.dropWhile_cons_of_pos halpha, List.dropWhile_cons_of_pos halpha, htake]
      exact ⟨rfl, fun _ => hdrop (.inr hflag)⟩
    · have hno := Bool.eq_false_iff.mpr halpha
      obtain ⟨htake', hdrop'⟩ := name_cons hno (s ++ K')
      by_cases hslash : lt = true ∧ b = 47
      · obtain ⟨rfl, rfl⟩ := hslash
        obtain ⟨htake, -⟩ := @name_cons 92 (by decide) (47 :: escapeSlash false q ++ K)
        rw [escapeSlash_slash, List.cons_append, htake, List.cons_append, htake']
        exact ⟨rfl, fun h => by simp at h⟩
      · obtain ⟨htake, hdrop⟩ := name_cons hno (escapeSlash (b == 60) q ++ K)
        rw [escapeSlash_cons hslash, List.cons_append, List.cons_append, htake, hdrop, htake',
          hdrop']
        exact ⟨rfl, fun _ => rfl⟩
  | @escape w e s q hne hw he _ ih =>
    obtain ⟨b, t, rfl, hb⟩ := he.head
    obtain ⟨d, u, rfl⟩ := List.exists_cons_of_ne_nil hne
    obtain ⟨hbalpha, hbend⟩ := name_spec hb
    obtain ⟨hdalpha, hdend⟩ := name_spec (hw d List.mem_cons_self)
    obtain ⟨htake, hdrop⟩ := name_cons hbalpha (t ++ (escapeSlash false q ++ K))
    obtain ⟨htake', hdrop'⟩ := name_cons hdalpha (u ++ (s ++ K'))
    rw [escapeSlash_escape he, List.append_assoc, List.append_assoc,
      List.cons_append, List.cons_append, htake, hdrop, htake', hdrop']
    refine ⟨rfl, fun _ => ?_⟩
    rw [tagEnd, tagEnd, List.head?_cons, List.head?_cons, Option.any_some, Option.any_some, hbend,
      hdend]

/-- The level of what follows `<` in a literal is that in the string. -/
theorem next_literal_lt (hK : Ends K K') (h : Quoted s q) (m : Nesting) :
    m.next (60 :: (escapeSlash true q ++ K)) = m.next (60 :: (s ++ K')) := by
  have hstart : hasPrefix (60 :: (escapeSlash true q ++ K)) commentStart
      = hasPrefix (60 :: (s ++ K')) commentStart :=
    hasPrefix_literal hK h (p := [33, 45, 45]) (forall_mem_of_all (by decide +kernel))
  have hopen : opensScript (60 :: (escapeSlash true q ++ K)) = opensScript (60 :: (s ++ K')) := by
    obtain ⟨htake, hend⟩ := @name_literal _ _ _ _ true hK h
    rw [opensScript_cons, opensScript_cons, htake]
    by_cases hname : (s ++ K').takeWhile isAlpha = []
    · rw [hname]
      rfl
    · rw [hend (.inl hname)]
  have hclose : hasPrefix (60 :: (escapeSlash true q ++ K)) commentEnd
      = hasPrefix (60 :: (s ++ K')) commentEnd := rfl
  cases m <;> simp only [Nesting.next, hstart, hopen, hclose]

theorem next_literal_dash (hK : Ends K K') (h : Quoted s q) (m : Nesting) :
    m.next (45 :: (escapeSlash false q ++ K)) = m.next (45 :: (s ++ K')) := by
  have hclose : hasPrefix (45 :: (escapeSlash false q ++ K)) commentEnd
      = hasPrefix (45 :: (s ++ K')) commentEnd :=
    hasPrefix_literal hK h (p := [45, 62]) (forall_mem_of_all (by decide +kernel))
  have hstart : hasPrefix (45 :: (escapeSlash false q ++ K)) commentStart
      = hasPrefix (45 :: (s ++ K')) commentStart := rfl
  have hopen : opensScript (45 :: (escapeSlash false q ++ K)) = opensScript (45 :: (s ++ K')) := rfl
  cases m <;> simp only [Nesting.next, hstart, hopen, hclose]

/-- **The level behind a literal is that behind the string.** -/
theorem after_literal (hK : Ends K K') (h : Quoted s q) (m : Nesting) :
    m.after (escapeSlash lt q ++ K) = m.after (s ++ K') := by
  induction h generalizing lt m with
  | nil => exact hK.level m
  | @plain b s q hb hq ih =>
    by_cases hslash : lt = true ∧ b = 47
    · obtain ⟨rfl, rfl⟩ := hslash
      rw [escapeSlash_slash, List.cons_append, Nesting.after_other (by decide) (by decide),
        List.cons_append, Nesting.after_other (by decide) (by decide), List.cons_append,
        Nesting.after_other (by decide) (by decide)]
      exact ih m
    rw [escapeSlash_cons hslash, List.cons_append, List.cons_append]
    by_cases hlt : b = 60
    · subst hlt
      rw [Nesting.after_cons, Nesting.after_cons, beq_self_eq_true, next_literal_lt hK hq]
      exact ih _
    by_cases hdash : b = 45
    · subst hdash
      rw [Nesting.after_cons, Nesting.after_cons, beq_false_of_ne (by decide),
        next_literal_dash hK hq]
      exact ih _
    · rw [Nesting.after_other hlt hdash, Nesting.after_other hlt hdash]
      exact ih m
  | @escape w e s q hne hw he _ ih =>
    obtain ⟨b, t, rfl, -⟩ := he.head
    have hplain : isPlain 60 = true ∧ isPlain 45 = true := by decide
    have hraw : ∀ c ∈ w, c ≠ 60 ∧ c ≠ 45 := by
      intro c hc
      have hno := hw c hc
      constructor
      · rintro rfl
        rw [hplain.1] at hno
        cases hno
      · rintro rfl
        rw [hplain.2] at hno
        cases hno
    rw [escapeSlash_escape he, List.append_assoc, List.append_assoc,
      Nesting.after_append fun c hc => ⟨(he.signs c hc).2.1, (he.signs c hc).2.2.1⟩,
      Nesting.after_append hraw]
    exact ih m

end Level

theorem after_of_noSigns {s : GoString} (hs : 60 ∉ s ∧ 62 ∉ s) (m : Nesting) : m.after s = m := by
  induction s generalizing m with
  | nil => rfl
  | cons b s ih =>
    simp only [List.mem_cons, not_or] at hs
    have hclose : hasPrefix (b :: s) commentEnd = false := by
      rw [Bool.eq_false_iff, Ne, hasPrefix_iff]
      intro hpre
      have hgt : (62 : UInt8) ∈ commentEnd := by decide
      obtain hb | hmem := List.mem_cons.mp (hpre.subset hgt)
      · exact hs.2.1 hb
      · exact hs.2.2 hmem
    have hnext : m.next (b :: s) = m := by
      by_cases hdash : b = 45
      · subst hdash
        exact Nesting.next_dash hclose
      · exact Nesting.next_other (Ne.symm hs.1.1) hdash
    rw [Nesting.after_cons, hnext]
    exact ih ⟨hs.1.2, hs.2.2⟩ m

theorem noEndTag_append {w : GoString} (hw : 60 ∉ w) (rest : GoString) :
    noEndTag false (w ++ rest) = noEndTag false rest := by
  induction w with
  | nil => rfl
  | cons b w ih =>
    simp only [List.mem_cons, not_or] at hw
    rw [List.cons_append, noEndTag, Bool.false_and, beq_false_of_ne (Ne.symm hw.1), ih hw.2]
    rfl

/-! ## The whole script -/

section Script

variable {set : Settings} (htable : PrintTable set.printTable)
variable (hnat : 60 ∉ set.nat1to1 ∧ 62 ∉ set.nat1to1)

/-- The statements behind the two literals. -/
def camStatements (set : Settings) : GoString :=
  lit ";window.__rbi_cam=\"\";window.__rbi_cam_url=" ++ quote set.printTable (camURL set)

/-- The statements, up to the last semicolon. -/
def statements (set : Settings) (originalTitle rbiFavURL : GoString) : GoString :=
  lit "window.__rbi_title=" ++ 34 :: (escapeSlash false (quoteBody set.printTable originalTitle)
    ++ 34 :: (lit ";window.__rbi_fav=" ++ 34 :: (escapeSlash false
      (quoteBody set.printTable rbiFavURL) ++ 34 :: camStatements set)))

theorem script_eq (set : Settings) (originalTitle rbiFavURL : GoString) :
    script set originalTitle rbiFavURL = statements set originalTitle rbiFavURL ++ [59] := by
  have hend : lit ";" = [59] := by decide
  rw [script, literal_eq, literal_eq, statements, camStatements, hend]
  simp only [List.append_assoc, List.cons_append, List.nil_append]

include htable in
theorem quote_spec {s : GoString} (hs : 60 ∉ s ∧ 62 ∉ s) :
    60 ∉ quote set.printTable s ∧ 62 ∉ quote set.printTable s := by
  have hq := quoted_quoteBody htable s
  rw [quote]
  simp only [List.cons_append, List.mem_cons, List.mem_append, List.not_mem_nil, or_false, not_or]
  exact ⟨⟨by decide, hq.notMem (.inl rfl) hs.1, by decide⟩,
    by decide, hq.notMem (.inr rfl) hs.2, by decide⟩

include hnat in
theorem camURL_spec : 60 ∉ camURL set ∧ 62 ∉ camURL set := by
  unfold camURL
  split
  · simp only [List.mem_append, not_or]
    exact ⟨⟨⟨by decide, hnat.1⟩, by decide⟩, ⟨by decide, hnat.2⟩, by decide⟩
  · exact ⟨List.not_mem_nil, List.not_mem_nil⟩

include htable hnat in
theorem camStatements_spec : 60 ∉ camStatements set ∧ 62 ∉ camStatements set := by
  have hquote := quote_spec htable (camURL_spec hnat)
  unfold camStatements
  simp only [List.mem_append, not_or]
  exact ⟨⟨by decide, hquote.1⟩, by decide, hquote.2⟩

include htable hnat in
theorem noEndTag_statements (originalTitle rbiFavURL : GoString) :
    noEndTag false (statements set originalTitle rbiFavURL ++ [59]) = true := by
  have hcam := camStatements_spec htable hnat
  unfold statements
  simp only [List.append_assoc, List.cons_append]
  rw [noEndTag_append (by decide), noEndTag, Bool.false_and, beq_false_of_ne (by decide),
    noEndTag_escapeSlash, noEndTag_append (by decide), noEndTag, Bool.false_and,
    beq_false_of_ne (by decide), noEndTag_escapeSlash, noEndTag_append hcam.1]
  rfl

include htable in
theorem statements_printable (originalTitle rbiFavURL : GoString) :
    ∀ b ∈ statements set originalTitle rbiFavURL, 0x20 ≤ b := by
  have hlit : ∀ s, Quoted s (quoteBody set.printTable s) := quoted_quoteBody htable
  have hquote : ∀ b ∈ quote set.printTable (camURL set), 0x20 ≤ b := by
    rw [quote, List.cons_append]
    refine List.forall_mem_cons.mpr ⟨by decide, List.forall_mem_append.mpr ⟨?_, ?_⟩⟩
    · exact (hlit _).printable
    · exact forall_mem_of_all (by decide +kernel)
  have hfixed : ∀ x : GoString, x.all (fun b => decide (0x20 ≤ b)) = true → ∀ b ∈ x, 0x20 ≤ b :=
    fun _ => forall_mem_of_all
  unfold statements camStatements
  refine List.forall_mem_append.mpr ⟨hfixed _ (by decide +kernel), ?_⟩
  refine List.forall_mem_cons.mpr ⟨by decide, ?_⟩
  refine List.forall_mem_append.mpr ⟨printable_escapeSlash _ (hlit _).printable, ?_⟩
  refine List.forall_mem_cons.mpr ⟨by decide, ?_⟩
  refine List.forall_mem_append.mpr ⟨hfixed _ (by decide +kernel), ?_⟩
  refine List.forall_mem_cons.mpr ⟨by decide, List.forall_mem_append.mpr ⟨?_, ?_⟩⟩
  · exact printable_escapeSlash _ (hlit _).printable
  · refine List.forall_mem_cons.mpr ⟨by decide, List.forall_mem_append.mpr ⟨?_, hquote⟩⟩
    exact hfixed _ (by decide +kernel)

include htable hnat in
/-- The level behind the statements is that behind the title and the URL, with a quote
between them. -/
theorem leavesScript_statements (originalTitle rbiFavURL : GoString) :
    LeavesScript (statements set originalTitle rbiFavURL ++ [59])
      ↔ LeavesScript (originalTitle ++ 34 :: rbiFavURL) := by
  have hcam := camStatements_spec htable hnat
  have hlast : Ends (34 :: (camStatements set ++ [59])) [] := by
    refine ⟨⟨_, rfl⟩, .inl rfl, fun m => after_of_noSigns ?_ m⟩
    simp only [List.mem_cons, List.mem_append, List.not_mem_nil, or_false, not_or]
    exact ⟨⟨by decide, hcam.1, by decide⟩, by decide, hcam.2, by decide⟩
  have hnext : Ends (34 :: (lit ";window.__rbi_fav=" ++ 34 :: (escapeSlash false
      (quoteBody set.printTable rbiFavURL) ++ 34 :: (camStatements set ++ [59]))))
      (34 :: rbiFavURL) := by
    refine ⟨⟨_, rfl⟩, .inr ⟨_, rfl⟩, fun m => ?_⟩
    rw [Nesting.after_other (by decide) (by decide),
      Nesting.after_append (forall_mem_of_all (by decide +kernel)),
      Nesting.after_other (by decide) (by decide), after_literal hlast (quoted_quoteBody htable _),
      List.append_nil, Nesting.after_other (by decide) (by decide)]
  have hlevel : Nesting.outside.after (statements set originalTitle rbiFavURL ++ [59])
      = Nesting.outside.after (originalTitle ++ 34 :: rbiFavURL) := by
    unfold statements
    simp only [List.append_assoc, List.cons_append]
    rw [Nesting.after_append (forall_mem_of_all (by decide +kernel)),
      Nesting.after_other (by decide) (by decide), after_literal hnext (quoted_quoteBody htable _)]
  rw [LeavesScript, LeavesScript, hlevel]

theorem behindStartTag_eq (originalTitle rbiFavURL : GoString) :
    behindStartTag set originalTitle rbiFavURL
      = script set originalTitle rbiFavURL ++ lit "</script>" ++ behindScript set := by
  have hsplit : inject set originalTitle rbiFavURL = (favLink rbiFavURL ++ lit "<script>")
      ++ (script set originalTitle rbiFavURL ++ lit "</script>" ++ behindScript set) := by
    simp only [inject, List.append_assoc]
  rw [behindStartTag, hsplit, List.drop_left]

include htable hnat in
/-- The script ends at its end tag, unless the title and the URL leave a script open. -/
theorem script_ends_iff (originalTitle rbiFavURL : GoString) :
    EndsAt (behindStartTag set originalTitle rbiFavURL)
        ((script set originalTitle rbiFavURL).length + 9)
      ↔ ¬ LeavesScript (originalTitle ++ 34 :: rbiFavURL) := by
  have htag : lit "</script>" = endTag := by decide
  rw [← leavesScript_statements htable hnat, behindStartTag_eq, script_eq, htag]
  refine endsAt_iff (noEndTag_statements htable hnat originalTitle rbiFavURL) (fun b hb => ?_) _
  have hlow := statements_printable htable originalTitle rbiFavURL b hb
  refine ⟨?_, ?_, ?_⟩ <;> rintro rfl <;> exact absurd hlow (by decide)

include htable in
theorem jsLiteral_literal (s rest : GoString) :
    jsLiteral (runes (literal set s ++ rest)) = some (runes rest) := by
  rw [literal_eq, List.append_assoc, List.cons_append, runes_ascii (by decide), jsLiteral,
    if_pos (by decide)]
  exact jsString_escapeSlash (quoted_quoteBody htable s) rest

end Script

/-! ## The favicon -/

section Favicon

variable {w : Web} {scheme host path favRel : GoString}

/-- A favicon that came as data has no quote in its URL. -/
theorem quote_notMem_fetchFavicon (hmime : ∀ body, 34 ∉ w.detectContentType body)
    {faviconURL uri : GoString} (h : fetchFaviconBase64 w faviconURL = some uri) :
    34 ∉ uri ∧ uri ≠ [] := by
  unfold fetchFaviconBase64 at h
  split at h
  · cases h
  rename_i answer hanswer
  split at h
  · cases h
  split at h
  · cases h
  · cases h
    have hchars : (34 : UInt8) ∉ Base64.encode answer.body := fun hmem =>
      absurd (Base64.isChar_of_mem_encode hmem) (by decide)
    simp only [List.mem_append, not_or]
    refine ⟨⟨⟨⟨by decide, hmime _⟩, by decide⟩, hchars⟩, ?_⟩
    rw [List.append_assoc, List.append_assoc]
    exact List.cons_ne_nil _ _

/-- The URL on the origin begins with the scheme, if the site does not give one. -/
theorem favAbs_cases (scheme host favRel : GoString) :
    (∃ rest, favAbs scheme host favRel = scheme ++ 58 :: rest)
      ∨ ((hasPrefix favRel (lit "http://") = true ∨ hasPrefix favRel (lit "https://") = true)
        ∧ favAbs scheme host favRel = favRel) := by
  have hcolon : lit "://" = 58 :: lit "//" := by decide
  have hone : lit ":" = [58] := by decide
  unfold favAbs
  split
  · exact .inl ⟨lit "//" ++ host ++ lit "/favicon.ico", by rw [hcolon]; simp⟩
  split
  · rename_i habs
    exact .inr ⟨habs, rfl⟩
  split
  · exact .inl ⟨favRel, by rw [hone]; simp⟩
  split
  · exact .inl ⟨lit "//" ++ host ++ favRel, by rw [hcolon]; simp⟩
  · exact .inl ⟨lit "//" ++ host ++ lit "/" ++ favRel, by rw [hcolon]; simp⟩

theorem favAbs_not_data (hscheme : 58 ∉ scheme) (hdata : scheme ≠ lit "data") :
    hasPrefix (favAbs scheme host favRel) (lit "data:") = false := by
  rw [Bool.eq_false_iff, Ne, hasPrefix_iff]
  rintro ⟨t, ht⟩
  have hform : lit "data:" ++ t = lit "data" ++ 58 :: t := rfl
  obtain ⟨rest, hrest⟩ | ⟨habs, heq⟩ := favAbs_cases scheme host favRel
  · have hcut : ∀ {x : GoString}, 58 ∉ x → ∀ y, cutAny (x ++ 58 :: y) [58] = x := by
      intro x hx y
      refine cutAny_append (fun b hb hmem => hx (List.mem_singleton.mp hmem ▸ hb)) fun b hb => ?_
      rw [← Option.some.inj hb]
      exact List.mem_cons_self
    have hsame := congrArg (cutAny · [58]) (hform.symm.trans (ht.trans hrest))
    rw [hcut (by decide), hcut hscheme] at hsame
    exact hdata hsame.symm
  · rw [heq] at ht
    rw [← ht] at habs
    obtain h | h := habs
    · obtain ⟨u, hu⟩ := hasPrefix_iff.mp h
      exact absurd (List.cons.inj hu).1 (by decide)
    · obtain ⟨u, hu⟩ := hasPrefix_iff.mp h
      exact absurd (List.cons.inj hu).1 (by decide)

/-- The URL in the link has no quote, unless the scheme of the request is `data`. -/
theorem href_of_scheme (hmime : ∀ body, 34 ∉ w.detectContentType body) (hscheme : 58 ∉ scheme)
    (hdata : scheme ≠ lit "data")
    (hlink : hasPrefix (rbiFavURL w scheme host favRel) (lit "data:") = true) :
    34 ∉ rbiFavURL w scheme host favRel := by
  unfold rbiFavURL at hlink ⊢
  split at hlink
  · rename_i uri huri
    obtain ⟨hno, hne⟩ := quote_notMem_fetchFavicon hmime huri
    rw [if_pos hne]
    exact hno
  · rw [favAbs_not_data hscheme hdata] at hlink
    cases hlink

/-- `http.Client` gets nothing but URLs of its two schemes. -/
def HttpOnly (w : Web) : Prop := ∀ url answer, w.get url = some answer →
  hasPrefix url (lit "http://") = true ∨ hasPrefix url (lit "https://") = true

/-- Nothing is fetched for a request with the scheme `data`. -/
theorem get_data (hget : HttpOnly w) (rest : GoString) : w.get (lit "data" ++ rest) = none := by
  cases hcase : w.get (lit "data" ++ rest) with
  | none => rfl
  | some answer =>
    obtain h | h := hget _ _ hcase
    · obtain ⟨u, hu⟩ := hasPrefix_iff.mp h
      exact absurd (List.cons.inj hu).1 (by decide)
    · obtain ⟨u, hu⟩ := hasPrefix_iff.mp h
      exact absurd (List.cons.inj hu).1 (by decide)

end Favicon

/-! ## The texts of the site -/

def siteTitle (w : Web) (scheme host path : GoString) : GoString :=
  (fetchPageMetadata w (Rbi.actualURL scheme host path)).1

def siteFavicon (w : Web) (scheme host path : GoString) : GoString :=
  rbiFavURL w scheme host (fetchPageMetadata w (Rbi.actualURL scheme host path)).2

theorem siteFavicon_data {w : Web} (hget : HttpOnly w) (host path : GoString) :
    siteFavicon w (lit "data") host path = lit "data://" ++ host ++ lit "/favicon.ico" := by
  have hpage : w.get (Rbi.actualURL (lit "data") host path) = none := by
    rw [Rbi.actualURL, List.append_assoc, List.append_assoc]
    exact get_data hget _
  have habs : favAbs (lit "data") host [] = lit "data://" ++ host ++ lit "/favicon.ico" := by
    rw [favAbs, if_pos rfl]
    rfl
  have hicon : fetchFaviconBase64 w (favAbs (lit "data") host []) = none := by
    have hnone : w.get (favAbs (lit "data") host []) = none := by
      rw [favAbs, if_pos rfl, List.append_assoc, List.append_assoc]
      exact get_data hget _
    rw [fetchFaviconBase64, hnone]
  rw [siteFavicon, fetchPageMetadata, hpage, rbiFavURL, hicon, habs]

/-- **The fragment is as it was meant** exactly if the title and the URL of the favicon,
read one after the other, do not leave a comment open with the start tag of a script in
it, and the request does not have the scheme `data` and a quote in its host. -/
theorem unbroken_iff {set : Settings} {w : Web} (htable : PrintTable set.printTable)
    (hnat : 60 ∉ set.nat1to1 ∧ 62 ∉ set.nat1to1) (hmime : ∀ body, 34 ∉ w.detectContentType body)
    (hget : HttpOnly w) {scheme : GoString} (hscheme : 58 ∉ scheme) (host path : GoString) :
    Unbroken set (siteTitle w scheme host path) (siteFavicon w scheme host path)
      ↔ ¬ LeavesScript (siteTitle w scheme host path ++ 34 :: siteFavicon w scheme host path)
        ∧ ¬ (scheme = lit "data" ∧ 34 ∈ host) := by
  have hhref : (hasPrefix (siteFavicon w scheme host path) (lit "data:") = true →
      34 ∉ siteFavicon w scheme host path) ↔ ¬ (scheme = lit "data" ∧ 34 ∈ host) := by
    by_cases hdata : scheme = lit "data"
    · subst hdata
      have hlink : hasPrefix (lit "data://" ++ host ++ lit "/favicon.ico") (lit "data:")
          = true := by
        rw [hasPrefix_iff, List.append_assoc]
        exact ⟨lit "//" ++ (host ++ lit "/favicon.ico"), rfl⟩
      rw [siteFavicon_data hget]
      simp only [hlink, forall_const, true_and, List.mem_append, not_or]
      exact ⟨fun h => h.1.2, fun h => ⟨⟨by decide, h⟩, by decide⟩⟩
    · refine iff_of_true (fun hlink => ?_) fun h => hdata h.1
      exact href_of_scheme hmime hscheme hdata hlink
  rw [← script_ends_iff htable hnat, ← hhref]
  constructor
  · intro h
    exact ⟨h.script, h.href⟩
  · intro h
    exact ⟨jsLiteral_literal htable _, jsLiteral_literal htable _, h.2, h.1⟩

/-- ASCII is printed, and nothing else. -/
def plainSettings : Settings where
  printTable _ := false
  nat1to1 := lit "10.0.0.7"
  rbiWarmMic := lit "<script></script>"
  rbiWarmCameraMSTP := lit "<script></script>"

/-- A site with one page, and no answer for anything else. -/
def siteWith (page : GoString) : Web where
  get url := if url = lit "https://a.org/" then some ⟨200, page, true⟩ else none
  detectContentType _ := lit "text/plain; charset=utf-8"

theorem siteWith_http (page : GoString) : HttpOnly (siteWith page) := by
  intro url answer h
  unfold siteWith at h
  dsimp only at h
  split at h
  · rename_i hurl
    exact .inr (by rw [hurl]; decide)
  · cases h

theorem siteWith_mime (page : GoString) : ∀ body, 34 ∉ (siteWith page).detectContentType body := by
  have hmime : 34 ∉ lit "text/plain; charset=utf-8" := by decide
  exact fun _ => hmime

/-- A page that tries to end the literal, the line and the script. -/
def quotePage : GoString :=
  lit "<title>\"\n</script><!--</title><link rel=\"icon\" href=\"/i.png\">"

theorem unbroken_quotePage :
    siteTitle (siteWith quotePage) (lit "https") (lit "a.org") (lit "/")
        = lit "\"\n</script><!--"
      ∧ Unbroken plainSettings
        (siteTitle (siteWith quotePage) (lit "https") (lit "a.org") (lit "/"))
        (siteFavicon (siteWith quotePage) (lit "https") (lit "a.org") (lit "/")) := by
  refine ⟨by decide +kernel, ?_⟩
  refine (unbroken_iff ⟨rfl, rfl⟩ (by decide) (siteWith_mime quotePage) (siteWith_http quotePage)
    (by decide) (lit "a.org") (lit "/")).mpr ⟨by decide +kernel, fun h => ?_⟩
  exact absurd h.1 (by decide)

/-- A page whose title opens a comment and a script in it. -/
def scriptPage : GoString := lit "<title><!--<script></title>"

/-- The end tag of the script does not end it. -/
theorem title_opens_script :
    siteTitle (siteWith scriptPage) (lit "https") (lit "a.org") (lit "/") = lit "<!--<script>"
      ∧ ScriptState.data.run (script plainSettings
          (siteTitle (siteWith scriptPage) (lit "https") (lit "a.org") (lit "/"))
          (siteFavicon (siteWith scriptPage) (lit "https") (lit "a.org") (lit "/"))
          ++ lit "</script>") = .escaped
      ∧ ¬ ∀ (set : Settings) (w : Web) (scheme host path : GoString), PrintTable set.printTable →
          60 ∉ set.nat1to1 ∧ 62 ∉ set.nat1to1 → (∀ body, 34 ∉ w.detectContentType body) →
          HttpOnly w → 58 ∉ scheme →
          Unbroken set (siteTitle w scheme host path) (siteFavicon w scheme host path) := by
  have hstate : ScriptState.data.run (script plainSettings
      (siteTitle (siteWith scriptPage) (lit "https") (lit "a.org") (lit "/"))
      (siteFavicon (siteWith scriptPage) (lit "https") (lit "a.org") (lit "/"))
      ++ lit "</script>") = .escaped := by
    decide +kernel
  refine ⟨by decide +kernel, hstate, fun hall => ?_⟩
  have hends := (hall plainSettings (siteWith scriptPage) (lit "https") (lit "a.org") (lit "/")
    ⟨rfl, rfl⟩ (by decide) (siteWith_mime scriptPage) (siteWith_http scriptPage)
    (by decide)).script.1
  rw [behindStartTag_eq,
    List.take_append_of_le_length (by rw [List.length_append]; exact Nat.le_refl _),
    List.take_of_length_le (by rw [List.length_append]; exact Nat.le_refl _), hstate] at hends
  cases hends

end Viewer

end RbiProxy
