import RbiProxy.DnsServer

/-!
# Queries during a refresh

Queries that come between the steps of `InitializeFilters`. The refresh starts
by making the table of blocked domains anew, and a domain gets back into it when
a list that has it is merged. In between there is a *gap*, and so there is when
no such list could be downloaded (`gap_opens`, `gap_closes`).

`blocked_throughout_iff`: along every interleaving, every query for a domain is
answered as blocked exactly when none falls into a gap.
-/

namespace RbiProxy

namespace Dns

/-- A step of the refresh, or a query; queries leave the tables alone. -/
inductive Event where
  | refresh (a : Action)
  | query (r : Msg)

namespace Server

variable {s : Server} {d : GoString}

def next (s : Server) : Event → Server
  | .refresh a => s.step a
  | .query _ => s

/-- No list merged since the table was made has the domain, or it has become an
internal record. -/
def Gap (s : Server) (d : GoString) : Prop :=
  (∀ list ∈ s.merged, d ∉ list) ∨ ∃ entry ∈ s.entries, entry.domain = d

/-- A message whose first question is for the domain, in any spelling. -/
def Asks (d : GoString) (r : Msg) : Prop := ∃ q qs, r = q :: qs ∧ lowered q.host = d

/-- If the event is a query for the domain, it is answered as blocked. -/
def Blocks (table : Rune → Rune) (upstream : Nat → Option (List GoString)) (d : GoString)
    (s : Server) (e : Event) : Prop :=
  ∀ r, e = .query r → Asks d r →
    (handleDNSRequest table upstream s.tables true r).response = .blocked (d ++ lit ".")

/-- If the event is a query for the domain, there is no gap. -/
def NoGap (d : GoString) (s : Server) (e : Event) : Prop :=
  ∀ r, e = .query r → Asks d r → ¬ s.Gap d

/-! ## Gaps -/

/-- A gap opens when the table is made anew, or with an internal record. -/
theorem gap_opens {a : Action} (hbefore : ¬ s.Gap d) (hafter : (s.step a).Gap d) :
    (a = .resetBlocked ∧ s.stage = .idle)
      ∨ ∃ entries, a = .loadInternal entries ∧ ∃ entry ∈ entries, entry.domain = d := by
  cases a with
  | resetBlocked =>
      rw [step] at hafter
      split at hafter
      · rename_i hidle
        exact .inl ⟨rfl, hidle⟩
      · exact absurd hafter hbefore
  | resetInternal =>
      rw [step] at hafter
      split at hafter
      · obtain hlists | ⟨entry, he, -⟩ := hafter
        · exact absurd (.inl hlists) hbefore
        · cases he
      · exact absurd hafter hbefore
  | loadInternal entries =>
      rw [step] at hafter
      split at hafter
      · obtain hlists | hentry := hafter
        · exact absurd (.inl hlists) hbefore
        · exact .inr ⟨entries, rfl, hentry⟩
      · exact absurd hafter hbefore
  | merge i =>
      rw [step] at hafter
      split at hafter
      · obtain hlists | hentry := hafter
        · refine absurd (.inl fun list hlist => ?_) hbefore
          exact hlists list (List.mem_append_left _ hlist)
        · exact absurd (.inr hentry) hbefore
      · exact absurd hafter hbefore
  | fetch url download =>
      rw [step] at hafter
      split at hafter
      · dsimp only at hafter
        split at hafter
        · exact absurd hafter hbefore
        · exact absurd hafter hbefore
      · exact absurd hafter hbefore
  | _ =>
      rw [step] at hafter
      split at hafter
      · exact absurd hafter hbefore
      · exact absurd hafter hbefore

theorem gap_closes {i : Nat} {domains : List GoString} (hlist : s.fetched[i]? = some domains)
    (hd : d ∈ domains) (hentries : ∀ entry ∈ s.entries, entry.domain ≠ d) :
    ¬ (s.step (.merge i)).Gap d := by
  rw [step, hlist]
  rintro (hlists | ⟨entry, he, heq⟩)
  · exact hlists domains (List.mem_append_right _ (List.mem_singleton_self _)) hd
  · exact hentries entry he heq

/-! ## Queries -/

theorem response_blocked_iff (hs : s.Filled) (table : Rune → Rune)
    (upstream : Nat → Option (List GoString)) {r : Msg} (hr : Asks d r) :
    (handleDNSRequest table upstream s.tables true r).response = .blocked (d ++ lit ".")
      ↔ ¬ s.Gap d := by
  obtain ⟨q, qs, rfl, rfl⟩ := hr
  have hloop : handleDNSRequest table upstream s.tables true (q :: qs)
      = questionLoop table upstream s.tables (q :: qs) (q :: qs) [] { response := .dropped } := rfl
  rw [hloop]
  obtain ⟨entry, he, hd, hv⟩ | ⟨hno, ⟨list, hlist, hmem⟩, hv⟩ | ⟨hno, hv⟩ :=
    verdict_cases hs table q
  · rw [questionLoop_internal hv]
    refine iff_of_false (fun h => by cases h) (not_not_intro (.inr ⟨entry, he, hd⟩))
  · rw [questionLoop_blocked hv, domain_eq]
    refine iff_of_true rfl ?_
    rintro (hlists | ⟨entry, he, hd⟩)
    · exact hlists list hlist hmem
    · exact hno entry he hd
  · have hgap : ∀ list ∈ s.merged, lowered q.host ∉ list :=
      fun list hlist hmem => hno (.inr ⟨list, hlist, hmem⟩)
    refine iff_of_false (fun h => ?_) (not_not_intro (.inl hgap))
    obtain ⟨list, hlist, hmem⟩ := exists_list_of_blocked hs h
    exact hgap list hlist hmem

/-- **No hole.** For every run before, and every interleaving of queries with
the steps of any number of refreshes: all queries for a domain are answered as
blocked exactly when none of them falls into a gap. -/
theorem blocked_throughout_iff (table : Rune → Rune) (upstream : Nat → Option (List GoString))
    (before : List Action) (es : List Event) (d : GoString) :
    eachStep next (Blocks table upstream d) es (run before)
      ↔ eachStep next (NoGap d) es (run before) := by
  refine eachStep_congr Filled (fun s e hs _ => ?_) (fun s e hs => ?_) es (run_filled before)
  · cases e with
    | refresh a => exact hs.step a
    | query r => exact hs
  · constructor
    · intro h r hr hask
      exact (response_blocked_iff hs table upstream hask).mp (h r hr hask)
    · intro h r hr hask
      exact (response_blocked_iff hs table upstream hask).mpr (h r hr hask)

/-- The new contents of some list have the domain. -/
def Kept (es : List Event) (d : GoString) : Prop :=
  ∃ url download domains, .refresh (.fetch url download) ∈ es
    ∧ fetchDomainsFromBlocklist download = .ok domains ∧ d ∈ domains

/-- The download of some list failed. -/
def Failed (es : List Event) : Prop :=
  ∃ url download error, .refresh (.fetch url download) ∈ es
    ∧ fetchDomainsFromBlocklist download = .error error

/-- A query right after the start of a refresh, which then brings the same list
again. -/
def queryAfterReset : List Event :=
  .refresh .resetBlocked :: .query [adsQuestion]
    :: (oneList (lit "ads.example\n")).tail.map .refresh

/-- The query is not answered as blocked. -/
theorem refresh_opens_hole :
    ¬ ∀ (table : Rune → Rune) (upstream : Nat → Option (List GoString)) (before : List Action)
        (es : List Event) (d : GoString),
        (run before).stage = .idle → ¬ (run before).Gap d → Kept es d ∨ Failed es →
        eachStep next (Blocks table upstream d) es (run before) := by
  intro h
  have hmerged : (run (oneList (lit "ads.example\n"))).merged = [[lit "ads.example"]] := by
    decide +kernel
  have hentries : (run (oneList (lit "ads.example\n"))).entries = [] := by decide +kernel
  have hcovered : ¬ (run (oneList (lit "ads.example\n"))).Gap (lit "ads.example") := by
    rintro (hlists | ⟨entry, he, -⟩)
    · rw [hmerged] at hlists
      exact hlists _ (List.mem_singleton_self _) (by decide)
    · rw [hentries] at he
      cases he
  have hkept : Kept queryAfterReset (lit "ads.example") := by
    refine ⟨lit "http://lists/ads", some (lit "ads.example\n", true), [lit "ads.example"], ?_,
      by decide +kernel, by decide⟩
    simp [queryAfterReset, oneList]
  have hrun := h id (fun _ => none) (oneList (lit "ads.example\n")) queryAfterReset
    (lit "ads.example") (by decide +kernel) hcovered (.inl hkept)
  have hquery := hrun.2.1 [adsQuestion] rfl ⟨adsQuestion, [], rfl, by decide⟩
  exact absurd hquery (by decide +kernel)

end Server

end Dns

end RbiProxy
