import RbiProxy.DnsFilter

/-!
# What is read from a blocklist

The loop of `fetchDomainsFromBlocklist` over any body. A line that is empty is
skipped, but one of white space only is not: it has no fields, and `parts[0]` is
out of range, in a goroutine that nothing recovers. The scanner gives up at a line
of `maxScanTokenSize` bytes, and then the whole list is dropped.

`listed` is what a line is meant to contribute. `fetch_exact_iff` says for which
bodies the result is that of all lines.
-/

namespace RbiProxy

namespace Dns

/-- The domain a line stands for: its only token, or the second one behind an
address that blocks. -/
def listed (line : GoString) : Option GoString :=
  if hasPrefix line (lit "#") then none
  else
    match fields line with
    | [] => none
    | [domain] => some domain
    | ip :: domain :: _ => if ip = lit "0.0.0.0" ∨ ip = lit "::1" then some domain else none

/-- The text of a line, as `scanner.Text` returns it. -/
def lineText (line : GoString) : GoString := trimSuffix line [13]

def domainsOf (body : GoString) : List GoString :=
  (rawLines body).filterMap fun line => listed (lineText line)

/-- White space and nothing else, but not an empty line. -/
def Blank (line : GoString) : Prop := line ≠ [] ∧ White line

/-- A line the loop gets over. -/
def Readable (line : GoString) : Prop := line.length < maxScanTokenSize ∧ ¬ Blank (lineText line)

/-- A comment has a field: its sign is no white space. -/
theorem not_white_of_comment {line : GoString} (h : hasPrefix line (lit "#") = true) :
    ¬ White line := by
  obtain ⟨rest, rfl⟩ := hasPrefix_iff.mp h
  have hsolid : Solid 35 := by decide
  intro hwhite
  obtain ⟨t, hstrip, -⟩ := (white_cons_iff 35 rest).mp hwhite
  rw [stripSpaceLeft_of_solid hsolid] at hstrip
  cases hstrip

theorem lineDomain_eq (line : GoString) :
    (¬ Blank line → lineDomain line = .ok (listed line))
      ∧ (Blank line → lineDomain line = .error .panics) := by
  unfold lineDomain
  by_cases hcomment : hasPrefix line (lit "#") = true
  · have hlisted : listed line = none := by rw [listed, if_pos hcomment]
    rw [if_pos (.inl hcomment), hlisted]
    exact ⟨fun _ => rfl, fun hblank => absurd hblank.2 (not_white_of_comment hcomment)⟩
  · by_cases hempty : line = []
    · subst hempty
      exact ⟨fun _ => rfl, fun hblank => absurd rfl hblank.1⟩
    · have hguard : ¬ (hasPrefix line (lit "#") = true ∨ line = []) := not_or.mpr ⟨hcomment, hempty⟩
      rw [if_neg hguard, listed, if_neg hcomment]
      have hblank : Blank line ↔ fields line = [] := by
        rw [Blank, and_iff_right hempty, fields_eq_nil_iff]
      rw [hblank]
      cases fields line with
      | nil => exact ⟨fun hne => absurd rfl hne, fun _ => rfl⟩
      | cons token tokens =>
          refine ⟨fun _ => ?_, fun h => by cases h⟩
          cases tokens with
          | nil => rfl
          | cons domain tokens => rfl

/-- The loop stops at the first line it cannot get over. -/
theorem scanDomains_eq (lines : List GoString) :
    ((∀ line ∈ lines, Readable line) →
        scanDomains lines = .ok (lines.filterMap fun line => listed (lineText line)))
      ∧ (¬ (∀ line ∈ lines, Readable line) → ∃ e, scanDomains lines = .error e) := by
  induction lines with
  | nil => exact ⟨fun _ => rfl, fun h => absurd (List.forall_mem_nil _) h⟩
  | cons line lines ih =>
      rw [List.forall_mem_cons, scanDomains]
      by_cases hlong : maxScanTokenSize ≤ line.length
      · rw [if_pos hlong]
        exact ⟨fun h => absurd h.1.1 (Nat.not_lt.mpr hlong), fun _ => ⟨_, rfl⟩⟩
      · rw [if_neg hlong]
        obtain ⟨hok, hpanics⟩ := lineDomain_eq (lineText line)
        rw [lineText] at hok hpanics
        by_cases hblank : Blank (lineText line)
        · rw [hpanics hblank]
          exact ⟨fun h => absurd hblank h.1.2, fun _ => ⟨_, rfl⟩⟩
        · have hline : Readable line := ⟨Nat.lt_of_not_le hlong, hblank⟩
          rw [hok hblank]
          constructor
          · intro hall
            rw [ih.1 hall.2, List.filterMap_cons, lineText]
            cases listed (trimSuffix line [13]) with
            | none => rfl
            | some domain => rfl
          · intro hnot
            obtain ⟨e, he⟩ := ih.2 fun hrest => hnot ⟨hline, hrest⟩
            rw [he]
            exact ⟨e, rfl⟩

/-- **Blocklists.** For every body that was downloaded: the loop gets to its end
and returns, in order, the domains of all lines, exactly if no line is white space
only and none is too long for the scanner. -/
theorem fetch_exact_iff (body : GoString) :
    fetchDomainsFromBlocklist (some (body, true)) = .ok (domainsOf body)
      ↔ ∀ line ∈ rawLines body, line.length < maxScanTokenSize ∧ ¬ Blank (lineText line) := by
  obtain ⟨hok, herror⟩ := scanDomains_eq (rawLines body)
  by_cases hall : ∀ line ∈ rawLines body, Readable line
  · refine iff_of_true ?_ hall
    rw [fetchDomainsFromBlocklist, hok hall]
    rfl
  · refine iff_of_false ?_ hall
    obtain ⟨e, he⟩ := herror hall
    rw [fetchDomainsFromBlocklist, he]
    intro h
    cases h

/-- A space between two entries ends the program. -/
theorem blank_line_panics :
    ¬ ∀ body : GoString,
      fetchDomainsFromBlocklist (some (body, true)) = .ok (domainsOf body) := by
  intro h
  have hbody := h (lit "0.0.0.0 ads.example\n \n0.0.0.0 bad.example\n")
  have hpanics : fetchDomainsFromBlocklist
      (some (lit "0.0.0.0 ads.example\n \n0.0.0.0 bad.example\n", true)) = .error .panics := by
    decide +kernel
  rw [hpanics] at hbody
  cases hbody

end Dns

end RbiProxy
