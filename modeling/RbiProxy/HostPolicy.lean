import RbiProxy.FilterPolicy

/-!
# One host, many spellings

A DNS name is the same in upper and lower case, and with the dot of the root
behind it. Three rules decide on hosts, each in its own way: `rbiShouldIsolate`
compares lower case after the last colon is cut, the filter of blocked URLs
looks for its lines as they are, and the filter of hosts not to bump compares
them as they are.

Each rule comes first by itself, for all spellings of a name: the dot gets a
host past `rbiShouldIsolate` and both past the third rule, capitals past the
other two. `same_verdicts_iff` says for which names and lists nothing does.
-/

namespace RbiProxy

namespace Policy

open Proxy

/-! ## Names and spellings -/

def isHostByte (b : UInt8) : Bool :=
  (48 ≤ b && b ≤ 57) || (65 ≤ b && b ≤ 90) || (97 ≤ b && b ≤ 122) || b == 45 || b == 46 || b == 95

/-- A host name, without the dot of the root. -/
structure HostName (h : GoString) : Prop where
  ne_nil : h ≠ []
  bytes : ∀ b ∈ h, isHostByte b = true
  notRooted : ¬ [46] <:+ h

def lower (s : GoString) : GoString := s.map lowerByte

/-- The same host: letters in either case, and perhaps the dot of the root. -/
def Spelling (h x : GoString) : Prop := ∃ g, lower g = lower h ∧ (x = g ∨ x = g ++ [46])

theorem hostByte_spec {b : UInt8} : isHostByte b = true →
    0x20 < b ∧ b < 0x80 ∧ b ≠ 58 ∧ b ≠ 44 :=
  forall_byte (P := fun b => isHostByte b = true → 0x20 < b ∧ b < 0x80 ∧ b ≠ 58 ∧ b ≠ 44)
    (by decide +kernel) b

theorem isHostByte_lowerByte (b : UInt8) : isHostByte (lowerByte b) = isHostByte b :=
  forall_byte (P := fun b => isHostByte (lowerByte b) = isHostByte b) (by decide +kernel) b

section Names

variable {g h : GoString}

theorem lower_append (x y : GoString) : lower (x ++ y) = lower x ++ lower y := List.map_append

theorem bytes_of_lower (heq : lower g = lower h) (hh : ∀ b ∈ h, isHostByte b = true) :
    ∀ b ∈ g, isHostByte b = true := by
  intro b hb
  have hmem : lowerByte b ∈ lower h := heq ▸ List.mem_map_of_mem hb
  obtain ⟨c, hc, hbc⟩ := List.mem_map.mp hmem
  rw [← isHostByte_lowerByte, ← hbc, isHostByte_lowerByte]
  exact hh c hc

theorem rooted_lower_iff : [46] <:+ lower g ↔ [46] <:+ g := by
  constructor
  · rintro ⟨u, hu⟩
    obtain ⟨x, y, rfl, -, hy⟩ := List.map_eq_append_iff.mp hu.symm
    obtain ⟨b, rest, rfl, hb, hrest⟩ := List.map_eq_cons_iff.mp hy
    obtain rfl := List.map_eq_nil_iff.mp hrest
    rw [lowerByte_eq_iff (by decide)] at hb
    exact ⟨x, by rw [hb]⟩
  · rintro ⟨x, rfl⟩
    exact ⟨lower x, (lower_append x [46]).symm⟩

/-- The bytes of a spelling are those of a name. -/
theorem bytes_rooted (hg : ∀ b ∈ g, isHostByte b = true) : ∀ b ∈ g ++ [46], isHostByte b = true :=
  List.forall_mem_append.mpr ⟨hg, by simp [isHostByte]⟩

theorem trimSpace_host (hg : ∀ b ∈ g, isHostByte b = true) : trimSpace g = g :=
  trimSpace_of_solid fun b hb =>
    have hspec := hostByte_spec (hg b hb)
    solid_of_visible hspec.1 hspec.2.1

theorem toLower_host (hg : ∀ b ∈ g, isHostByte b = true) (table : Rune → Rune) :
    toLower table g = lower g := toLower_ascii (fun b hb => (hostByte_spec (hg b hb)).2.1) table

theorem colon_notMem (hg : ∀ b ∈ g, isHostByte b = true) : (58 : UInt8) ∉ g := fun hmem =>
  (hostByte_spec (hg 58 hmem)).2.2.1 rfl

end Names

/-- No port, or the one of HTTPS. -/
def Port (port : GoString) : Prop := port = [] ∨ port = lit ":443"

/-! ## Isolation -/

section Isolation

variable {env : Env} {x h port : GoString}

/-- Some entry is the host or a domain above it, up to case. -/
def Isolates (env : Env) (x : GoString) : Prop :=
  ∃ e ∈ env.isolateHosts.splitOn 44, e ≠ [] ∧ (lower x = lower e ∨ 46 :: lower e <:+ lower x)

theorem cutLast_port (hx : ∀ b ∈ x, isHostByte b = true) (hport : Port port) :
    cutLast (x ++ port) 58 = x := by
  obtain rfl | rfl := hport
  · rw [List.append_nil, cutLast_of_notMem (colon_notMem hx)]
  · exact cutLast_append (by decide)

theorem isolateEntry_iff (env : Env) (host : GoString) {e : GoString}
    (he : ∀ b ∈ e, isHostByte b = true) :
    isolateEntry env host e = true ↔ e ≠ [] ∧ (host = lower e ∨ 46 :: lower e <:+ host) := by
  have htrim : trimSpace (toLower env.lowerTable e) = lower e := by
    have hlower : ∀ b ∈ lower e, isHostByte b = true := by
      intro b hb
      obtain ⟨c, hc, rfl⟩ := List.mem_map.mp hb
      rw [isHostByte_lowerByte]
      exact he c hc
    rw [toLower_host he, trimSpace_host hlower]
  have hnil : lower e ≠ [] ↔ e ≠ [] := not_congr List.map_eq_nil_iff
  have hdot : lit "." ++ lower e = 46 :: lower e := rfl
  simp only [isolateEntry, htrim, hdot, Bool.and_eq_true, Bool.or_eq_true, decide_eq_true_eq,
    hasSuffix_iff, hnil]

theorem rbiShouldIsolate_iff (hlist : ∀ e ∈ env.isolateHosts.splitOn 44, e = [] ∨ HostName e)
    (hx : ∀ b ∈ x, isHostByte b = true) (hport : Port port) :
    rbiShouldIsolate env (x ++ port) = true ↔ Isolates env x := by
  have hbytes : ∀ e ∈ env.isolateHosts.splitOn 44, ∀ b ∈ e, isHostByte b = true := by
    intro e he
    obtain rfl | hname := hlist e he
    · exact fun b hb => absurd hb List.not_mem_nil
    · exact hname.bytes
  simp only [rbiShouldIsolate, cutLast_port hx hport, trimSpace_host hx, toLower_host hx,
    List.any_eq_true]
  exact exists_congr fun e => and_congr_right fun he => isolateEntry_iff env _ (hbytes e he)

/-- Nothing is isolated under a name with the dot of the root. -/
theorem not_isolates_rooted (hlist : ∀ e ∈ env.isolateHosts.splitOn 44, e = [] ∨ HostName e)
    (x : GoString) : ¬ Isolates env (x ++ [46]) := by
  rintro ⟨e, he, hne, hmatch⟩
  have hname := (hlist e he).resolve_left hne
  have hdot : [46] <:+ lower e := by
    have hroot : [46] <:+ lower (x ++ [46]) := ⟨lower x, (lower_append x [46]).symm⟩
    obtain heq | hsuffix := hmatch
    · rwa [heq] at hroot
    · refine List.suffix_of_suffix_length_le hroot ((List.suffix_cons 46 _).trans hsuffix) ?_
      rw [lower, List.length_map]
      exact List.length_pos_iff.mpr hname.ne_nil
  exact hname.notRooted (rooted_lower_iff.mp hdot)

/-- `rbiShouldIsolate` agrees on all spellings of the hosts it does not isolate,
and of no others. -/
theorem isolation_iff (hlist : ∀ e ∈ env.isolateHosts.splitOn 44, e = [] ∨ HostName e)
    (hh : HostName h) (hport : Port port) :
    (∀ x, Spelling h x → rbiShouldIsolate env (x ++ port) = rbiShouldIsolate env (h ++ port))
      ↔ ¬ Isolates env h := by
  have hself := rbiShouldIsolate_iff hlist hh.bytes hport
  constructor
  · intro hall hiso
    have hrooted := rbiShouldIsolate_iff hlist (bytes_rooted hh.bytes) hport
    have hsame := hall (h ++ [46]) ⟨h, rfl, .inr rfl⟩
    rw [hself.mpr hiso] at hsame
    exact not_isolates_rooted hlist h (hrooted.mp hsame)
  · rintro hno x ⟨g, heq, rfl | rfl⟩
    · have hg := rbiShouldIsolate_iff hlist (bytes_of_lower heq hh.bytes) hport
      have hiso : Isolates env x ↔ Isolates env h := by rw [Isolates, Isolates, heq]
      rw [Bool.eq_iff_iff, hg, hself, hiso]
    · have hg := rbiShouldIsolate_iff hlist (bytes_rooted (bytes_of_lower heq hh.bytes)) hport
      rw [Bool.eq_iff_iff, hg, hself]
      exact iff_of_false (not_isolates_rooted hlist g) hno

end Isolation

/-! ## Hosts not to bump -/

section DontBump

variable {env : Env} {s : Config} {x h port : GoString}

theorem doMitm_iff (env : Env) (hlist : ∀ v ∈ s.dontBump, HostName v.content)
    (hx : ∀ b ∈ x, isHostByte b = true) (hport : Port port) :
    doMitm env s (x ++ port) = true ↔ ∀ v ∈ s.dontBump, v.content ≠ x := by
  have hrun : runFilter env s httpsDontBump (x ++ port) .new
      = filterUrlDontBump s.dontBump s.strictness (x ++ port) .new := rfl
  have hline : ∀ v ∈ s.dontBump,
      (decide (x ++ port = v.content ++ lit ":443") || decide (x ++ port = v.content)) = true
        ↔ v.content = x := by
    intro v hv
    rw [Bool.or_eq_true, decide_eq_true_eq, decide_eq_true_eq]
    have hcolon : ∀ {a b : GoString}, (∀ c ∈ b, isHostByte c = true) → a ++ lit ":443" ≠ b := by
      rintro a b hb rfl
      exact colon_notMem hb (List.mem_append_right _ (by decide))
    obtain rfl | rfl := hport
    · rw [List.append_nil]
      refine ⟨?_, fun heq => .inr heq.symm⟩
      rintro (heq | heq)
      · exact absurd heq.symm (hcolon hx)
      · exact heq.symm
    · refine ⟨?_, fun heq => .inl (by rw [heq])⟩
      rintro (heq | heq)
      · exact (List.append_cancel_right heq).symm
      · exact absurd heq (hcolon (hlist v hv).bytes)
  have hblocked : (runFilter env s httpsDontBump (x ++ port) .new).blocked = true
      ↔ ∃ v ∈ s.dontBump, v.content = x := by
    rw [hrun, filterUrlDontBump, filterLines_blocked, GSFilterResponder.new, Bool.false_or,
      List.any_eq_true]
    exact exists_congr fun v => and_congr_right (hline v)
  have hmitm : doMitm env s (x ++ port) = true
      ↔ ¬ (runFilter env s httpsDontBump (x ++ port) .new).blocked = true := by
    rw [doMitm]
    cases (runFilter env s httpsDontBump (x ++ port) .new).blocked <;> simp
  rw [hmitm, hblocked, not_exists]
  exact forall_congr' fun v => not_and

/-- The filter agrees on all spellings of the hosts it does not list in any
case, and of no others. -/
theorem dontBump_iff (env : Env) (hlist : ∀ v ∈ s.dontBump, HostName v.content)
    (hh : HostName h) (hport : Port port) :
    (∀ x, Spelling h x → doMitm env s (x ++ port) = doMitm env s (h ++ port))
      ↔ ∀ v ∈ s.dontBump, lower v.content ≠ lower h := by
  have hrooted : ∀ g, (∀ b ∈ g, isHostByte b = true) →
      doMitm env s (g ++ [46] ++ port) = true := by
    intro g hg
    rw [doMitm_iff env hlist (bytes_rooted hg) hport]
    intro v hv heq
    exact (hlist v hv).notRooted ⟨g, heq.symm⟩
  constructor
  · intro hall v hv heq
    have hbump := doMitm_iff env hlist (hlist v hv).bytes hport
    have htrue : doMitm env s (v.content ++ port) = true := by
      rw [hall v.content ⟨v.content, heq, .inl rfl⟩, ← hall (h ++ [46]) ⟨h, rfl, .inr rfl⟩]
      exact hrooted h hh.bytes
    exact hbump.mp htrue v hv rfl
  · intro hno
    have hall : ∀ x, Spelling h x → doMitm env s (x ++ port) = true := by
      rintro x ⟨g, heq, rfl | rfl⟩
      · rw [doMitm_iff env hlist (bytes_of_lower heq hh.bytes) hport]
        intro v hv hcontent
        exact hno v hv (by rw [hcontent, heq])
      · exact hrooted g (bytes_of_lower heq hh.bytes)
    intro x hx
    rw [hall x hx, hall h ⟨h, rfl, .inl rfl⟩]

end DontBump

/-! ## Blocked URLs -/

section Blocked

variable {env : Env} {s : Config} {h pre post : GoString}

/-- The text ends where a host name cannot go on. -/
def EndsOutside (pre : GoString) : Prop := ∀ b, pre.getLast? = some b → isHostByte b = false

/-- The text begins where a host name cannot go on. -/
def StartsOutside (post : GoString) : Prop := ∀ b, post.head? = some b → isHostByte b = false

theorem infix_append_outside {name u v : GoString} (hname : HostName name)
    (hsep : EndsOutside u ∨ StartsOutside v) : name <:+: u ++ v ↔ name <:+: u ∨ name <:+: v := by
  rw [List.infix_append_iff_ne_nil]
  refine ⟨?_, fun h => h.elim .inl (.inr ∘ .inl)⟩
  rintro (h | h | ⟨l₁, l₂, hne₁, hne₂, rfl, ⟨a, rfl⟩, ⟨c, rfl⟩⟩)
  · exact .inl h
  · exact .inr h
  · -- a name across the place would have the byte next to it
    obtain hu | hv := hsep
    · have hout := hu (l₁.getLast hne₁) (by rw [List.getLast?_append_of_ne_nil _ hne₁,
        List.getLast?_eq_some_getLast hne₁])
      have hin := hname.bytes _ (List.mem_append_left l₂ (List.getLast_mem hne₁))
      rw [hout] at hin
      cases hin
    · have hout := hv (l₂.head hne₂) (by rw [List.head?_append_of_ne_nil _ hne₂,
        List.head?_eq_some_head hne₂])
      have hin := hname.bytes _ (List.mem_append_right l₁ (List.head_mem hne₂))
      rw [hout] at hin
      cases hin

theorem contains_url {name : GoString} (hname : HostName name) (hpre : EndsOutside pre)
    (hpost : StartsOutside post) (x : GoString) :
    contains (pre ++ x ++ post) name = true
      ↔ (contains pre name = true ∨ contains post name = true) ∨ contains x name = true := by
  simp only [contains_iff]
  rw [List.append_assoc, infix_append_outside hname (.inl hpre),
    infix_append_outside hname (.inr hpost), or_assoc, or_comm (a := name <:+: x)]

theorem contains_rooted {name : GoString} (hname : HostName name) (x : GoString) :
    contains (x ++ [46]) name = true ↔ contains x name = true := by
  rw [contains_iff, contains_iff, List.infix_concat_iff]
  refine ⟨?_, .inr⟩
  rintro (hsuffix | h)
  · have hdot : [46] <:+ name :=
      List.suffix_of_suffix_length_le (List.suffix_append x [46]) hsuffix
        (List.length_pos_iff.mpr hname.ne_nil)
    exact absurd hdot hname.notRooted
  · exact h

def Hits (s : Config) (x : GoString) : Prop := ∃ v ∈ s.blockedSites, contains x v.content = true

def HitsAnyCase (s : Config) (x : GoString) : Prop :=
  ∃ v ∈ s.blockedSites, contains (lower x) (lower v.content) = true

/-- A text in which a line occurs up to case can be written so that it occurs. -/
theorem exists_hit (hhit : HitsAnyCase s h) : ∃ g, lower g = lower h ∧ Hits s g := by
  obtain ⟨v, hv, hc⟩ := hhit
  obtain ⟨a, c, heq⟩ := contains_iff.mp hc
  obtain ⟨ab, c', rfl, hab, -⟩ := List.map_eq_append_iff.mp heq.symm
  obtain ⟨a', b', rfl, -, hb⟩ := List.map_eq_append_iff.mp hab
  refine ⟨a' ++ v.content ++ c', ?_, v, hv, contains_iff.mpr ⟨a', c', rfl⟩⟩
  have hmid : lower v.content = lower b' := hb.symm
  rw [lower_append, lower_append, lower_append, lower_append, hmid]

theorem Hits.anyCase {g : GoString} (h : Hits s g) : HitsAnyCase s g := by
  obtain ⟨v, hv, hc⟩ := h
  obtain ⟨a, c, rfl⟩ := contains_iff.mp hc
  refine ⟨v, hv, contains_iff.mpr ⟨lower a, lower c, ?_⟩⟩
  rw [lower_append, lower_append]

theorem HitsAnyCase.of_lower {g : GoString} (h' : HitsAnyCase s g) (heq : lower g = lower h) :
    HitsAnyCase s h := by
  obtain ⟨v, hv, hc⟩ := h'
  exact ⟨v, hv, heq ▸ hc⟩

theorem hits_rooted_iff (hlist : ∀ v ∈ s.blockedSites, HostName v.content) (x : GoString) :
    Hits s (x ++ [46]) ↔ Hits s x :=
  exists_congr fun v => and_congr_right fun hv => contains_rooted (hlist v hv) x

/-- The filter looks at the parts of a URL one by one. -/
theorem urlResponder_url (hlist : ∀ v ∈ s.blockedSites, HostName v.content)
    (hpre : EndsOutside pre) (hpost : StartsOutside post) (x : GoString) :
    (urlResponder env s (pre ++ x ++ post)).blocked = true
      ↔ (Hits s pre ∨ Hits s post) ∨ Hits s x := by
  have hline := fun v hv => contains_url (hlist v hv) hpre hpost x
  rw [urlResponder_blocked, List.any_eq_true]
  constructor
  · rintro ⟨v, hv, hc⟩
    obtain (hin | hin) | hin := (hline v hv).mp hc
    · exact .inl (.inl ⟨v, hv, hin⟩)
    · exact .inl (.inr ⟨v, hv, hin⟩)
    · exact .inr ⟨v, hv, hin⟩
  · rintro ((⟨v, hv, hin⟩ | ⟨v, hv, hin⟩) | ⟨v, hv, hin⟩)
    · exact ⟨v, hv, (hline v hv).mpr (.inl (.inl hin))⟩
    · exact ⟨v, hv, (hline v hv).mpr (.inl (.inr hin))⟩
    · exact ⟨v, hv, (hline v hv).mpr (.inr hin)⟩

/-- The filter agrees on all spellings if a line occurs beside the host, if none
occurs in the host in any case, or if some line occurs however it is written. -/
theorem blocked_iff (env : Env) (hlist : ∀ v ∈ s.blockedSites, HostName v.content)
    (hpre : EndsOutside pre) (hpost : StartsOutside post) :
    (∀ x, Spelling h x → (urlResponder env s (pre ++ x ++ post)).blocked
        = (urlResponder env s (pre ++ h ++ post)).blocked)
      ↔ (Hits s pre ∨ Hits s post) ∨ ¬ HitsAnyCase s h ∨ ∀ g, lower g = lower h → Hits s g := by
  simp only [Bool.eq_iff_iff, urlResponder_url hlist hpre hpost]
  constructor
  · intro hall
    by_cases hbeside : Hits s pre ∨ Hits s post
    · exact .inl hbeside
    have hsame : ∀ g, lower g = lower h → (Hits s g ↔ Hits s h) := fun g heq => by
      simpa only [hbeside, false_or] using hall g ⟨g, heq, .inl rfl⟩
    by_cases hself : Hits s h
    · exact .inr (.inr fun g heq => (hsame g heq).mpr hself)
    · refine .inr (.inl fun hany => ?_)
      obtain ⟨g, heq, hhit⟩ := exists_hit hany
      exact hself ((hsame g heq).mp hhit)
  · intro hcases x hx
    obtain ⟨g, heq, hspell⟩ := hx
    have hg : Hits s x ↔ Hits s g := by
      obtain rfl | rfl := hspell
      · exact Iff.rfl
      · exact hits_rooted_iff hlist g
    rw [hg]
    obtain hbeside | hnone | hall := hcases
    · exact iff_of_true (.inl hbeside) (.inl hbeside)
    · exact or_congr_right (iff_of_false (fun hhit => hnone (hhit.anyCase.of_lower heq))
        (fun hhit => hnone hhit.anyCase))
    · exact iff_of_true (.inr (hall g heq)) (.inr (hall h rfl))

end Blocked

/-! ## The three rules together -/

structure HostLists (env : Env) (s : Config) : Prop where
  isolate : ∀ e ∈ env.isolateHosts.splitOn 44, e = [] ∨ HostName e
  blocked : ∀ v ∈ s.blockedSites, HostName v.content
  dontBump : ∀ v ∈ s.dontBump, HostName v.content

/-- The three verdicts on a host, in a URL with these parts around it. -/
def verdicts (env : Env) (s : Config) (pre x port post : GoString) : Bool × Bool × Bool :=
  (rbiShouldIsolate env (x ++ port), (urlResponder env s (pre ++ x ++ (port ++ post))).blocked,
    doMitm env s (x ++ port))

/-- **Spellings.** For every host name, all lists of host names, and every URL
or target of a `CONNECT`: no spelling of the name changes a verdict exactly if
the name is not isolated, it is not among the hosts not to bump in any case, and
the blocked names in the URL are beside the host, are not in the host in any
case, or are there in whichever case its letters are written. -/
theorem same_verdicts_iff {env : Env} {s : Config} (hlists : HostLists env s)
    {h pre port post : GoString} (hh : HostName h) (hport : Port port) (hpre : EndsOutside pre)
    (hpost : StartsOutside post) :
    (∀ x, Spelling h x → verdicts env s pre x port post = verdicts env s pre h port post)
      ↔ ¬ Isolates env h ∧ (∀ v ∈ s.dontBump, lower v.content ≠ lower h)
        ∧ ((Hits s pre ∨ Hits s (port ++ post)) ∨ ¬ HitsAnyCase s h
          ∨ ∀ g, lower g = lower h → Hits s g) := by
  have hafter : StartsOutside (port ++ post) := by
    obtain rfl | rfl := hport
    · exact hpost
    · intro b hb
      obtain rfl := Option.some.inj hb
      decide
  rw [← isolation_iff hlists.isolate hh hport, ← dontBump_iff env hlists.dontBump hh hport,
    ← blocked_iff env hlists.blocked hpre hafter]
  simp only [verdicts, Prod.mk.injEq]
  exact ⟨fun hall => ⟨fun x hx => (hall x hx).1, fun x hx => (hall x hx).2.2,
    fun x hx => (hall x hx).2.1⟩, fun hall x hx => ⟨hall.1 x hx, hall.2.2 x hx, hall.2.1 x hx⟩⟩

theorem hostName_of_check {h : GoString}
    (hcheck : (!h.isEmpty && h.all isHostByte && !(List.isSuffixOf [46] h)) = true) : HostName h := by
  simp only [Bool.and_eq_true, Bool.not_eq_true', List.isEmpty_eq_false_iff, List.all_eq_true]
    at hcheck
  obtain ⟨⟨hne, hbytes⟩, hdot⟩ := hcheck
  refine ⟨hne, hbytes, fun hroot => ?_⟩
  rw [List.isSuffixOf_iff_suffix.mpr hroot] at hdot
  cases hdot

def hostLine (name : GoString) : GsFilterLine := ⟨name, 0⟩

def hostConfig : Config where
  exceptionSites := []
  dontBump := [hostLine (lit "slack.com")]
  blockedMimes := []
  blockedSites := [hostLine (lit "facebook.com")]
  stopWords := []
  strictness := 2000
  blockTimes := []
  timezone := []
  enableUsers := lit "false"

theorem hostLists_example : HostLists exampleEnv hostConfig where
  isolate := by
    have hsplit : exampleEnv.isolateHosts.splitOn 44 = [lit "youtube.com"] := by decide +kernel
    rw [hsplit]
    intro e he
    rw [List.mem_singleton.mp he]
    exact .inr (hostName_of_check (by decide))
  blocked := by
    intro v hv
    rw [List.mem_singleton.mp hv]
    exact hostName_of_check (by decide)
  dontBump := by
    intro v hv
    rw [List.mem_singleton.mp hv]
    exact hostName_of_check (by decide)

/-- A host on none of the lists, with capitals and the dot of the root. -/
theorem same_verdicts_unlisted :
    verdicts exampleEnv hostConfig (lit "http://") (lit "Example.ORG.") (lit ":443") []
      = verdicts exampleEnv hostConfig (lit "http://") (lit "example.org") (lit ":443") [] := by
  have hname : HostName (lit "example.org") := hostName_of_check (by decide)
  have hpre : EndsOutside (lit "http://") := by
    intro b hb
    obtain rfl := Option.some.inj hb
    decide
  have hsplit : exampleEnv.isolateHosts.splitOn 44 = [lit "youtube.com"] := by decide +kernel
  refine (same_verdicts_iff hostLists_example hname (.inr rfl) hpre fun b hb => ?_).mpr
    ⟨?_, ?_, .inr (.inl ?_)⟩ (lit "Example.ORG.") ⟨lit "Example.ORG", rfl, .inr rfl⟩
  · cases hb
  · rintro ⟨e, he, -, hmatch⟩
    rw [hsplit, List.mem_singleton] at he
    rw [he] at hmatch
    exact absurd hmatch (by decide)
  · intro v hv
    rw [List.mem_singleton.mp hv]
    decide
  · rintro ⟨v, hv, hc⟩
    rw [List.mem_singleton.mp hv] at hc
    exact absurd hc (by decide)

/-- With the dot of the root a host is not isolated, with a capital it is not
blocked. -/
theorem spelling_escapes :
    (rbiShouldIsolate exampleEnv (lit "youtube.com:443") = true
        ∧ rbiShouldIsolate exampleEnv (lit "youtube.com.:443") = false)
      ∧ ((urlResponder exampleEnv hostConfig (lit "http://facebook.com:443")).blocked = true
        ∧ (urlResponder exampleEnv hostConfig (lit "http://Facebook.com:443")).blocked = false)
      ∧ ¬ ∀ (env : Env) (s : Config) (h pre port post : GoString), HostLists env s → HostName h →
          Port port → EndsOutside pre → StartsOutside post →
          ∀ x, Spelling h x → verdicts env s pre x port post = verdicts env s pre h port post := by
  refine ⟨⟨by decide +kernel, by decide +kernel⟩, ⟨by decide +kernel, by decide +kernel⟩, ?_⟩
  intro hall
  have hsame := hall exampleEnv hostConfig (lit "youtube.com") [] (lit ":443") []
    hostLists_example (hostName_of_check (by decide)) (.inr rfl) (fun b hb => by cases hb)
    (fun b hb => by cases hb) (lit "youtube.com.") ⟨lit "youtube.com", rfl, .inr rfl⟩
  exact absurd hsame (by decide +kernel)

end Policy

end RbiProxy
