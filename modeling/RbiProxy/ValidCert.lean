import RbiProxy.GoMap
import RbiProxy.GoString
import RbiProxy.WorkList

/-!
# Fetching missing intermediates

`validCert`: a certificate that does not verify for want of an intermediate is
tried again with what can be fetched from the URLs that it names, that these
certificates name, and so on. The map `fetched` is asked before every request, and
nothing is ever put into it: the loop is a work list that grows (`round_eq`), and taken by
itself it ends with no URL requested twice only if none is named twice (`fetch_once_iff`).
The one caller gets to it with certificates that have verified only.

What the loop takes from elsewhere are the answers to the requests, the reading of
PEM and of certificates, and the verification.
-/

namespace RbiProxy

namespace ValidCert

/-! ## What is given -/

/-- `pem.Block`. -/
structure PemBlock where
  type : GoString
  bytes : GoString

/-- The libraries. `pem.Decode` returns the block it finds and what comes behind
it, or `none` where there is no block. -/
structure Library (Cert : Type) where
  parseCertificate : GoString → Option Cert
  issuingCertificateURL : Cert → List GoString
  pemDecode : GoString → Option (PemBlock × GoString)
  shorter : ∀ s block rest, pemDecode s = some (block, rest) → rest.length < s.length

inductive Verified where
  | ok
  | unknownAuthority
  | other
deriving DecidableEq

/-- The outcome of `http.Get`, with `none` for a body that cannot be read. -/
inductive Response where
  | error
  | ok (statusCode : Nat) (body : Option GoString)

variable {Cert : Type} (lib : Library Cert)

/-! ## One answer -/

/-- The loop over the blocks of a PEM file. -/
def pemCerts (body : GoString) : List Cert :=
  match _h : lib.pemDecode body with
  | none => []
  | some (block, rest) =>
    if block.type = lit "CERTIFICATE" then
      (lib.parseCertificate block.bytes).toList ++ pemCerts rest
    else pemCerts rest
termination_by body.length
decreasing_by
  · exact lib.shorter _ _ _ _h
  · exact lib.shorter _ _ _ _h

def fetchedCerts : Response → List Cert
  | .error => []
  | .ok statusCode body =>
    if statusCode ≠ 200 then []
    else match body with
      | none => []
      | some fetchedCert =>
        if contains fetchedCert (lit "-----BEGIN CERTIFICATE-----") then pemCerts lib fetchedCert
        else (lib.parseCertificate fetchedCert).toList

/-! ## The loop -/

/-- The variables of the loop, and the requests that were made. -/
structure Fetch (Cert : Type) where
  i : Nat
  toFetch : List GoString
  fetched : GoMap GoString Bool
  pool : List Cert
  requests : List GoString

/-- The answers: a URL that is not in the map gives an error. -/
abbrev Responses := GoMap GoString Response

def certsAt (responses : Responses) (certURL : GoString) : List Cert :=
  fetchedCerts lib (responses.get certURL .error)

def namedAt (responses : Responses) (certURL : GoString) : List GoString :=
  (certsAt lib responses certURL).flatMap lib.issuingCertificateURL

/-- One round; `none` when the loop is over. -/
def Fetch.round (responses : Responses) (f : Fetch Cert) : Option (Fetch Cert) :=
  match f.toFetch[f.i]? with
  | none => none
  | some certURL =>
    if f.fetched.get certURL false then some { f with i := f.i + 1 }
    else
      some { f with i := f.i + 1
                    toFetch := f.toFetch ++ namedAt lib responses certURL
                    pool := f.pool ++ certsAt lib responses certURL
                    requests := f.requests ++ [certURL] }

/-- The loop, for at most `fuel` rounds. -/
def Fetch.loop (responses : Responses) : Nat → Fetch Cert → Option (Fetch Cert)
  | 0, _ => none
  | fuel + 1, f =>
    match f.round lib responses with
    | none => some f
    | some f => loop responses fuel f

def Fetch.start (cert : Cert) (pool : List Cert) : Fetch Cert :=
  ⟨0, lib.issuingCertificateURL cert, ∅, pool, []⟩

/-- `validCert` with the requests it makes, for at most `fuel` rounds of the loop. `verify`
gets the pool and says whether the roots are `ExtraRootCerts`. -/
def validCertRequests (verify : Bool → List Cert → Verified) (extraRootCerts : Bool)
    (responses : Responses) (cert : Cert) (intermediates : List Cert) (fuel : Nat) :
    Option (Bool × List GoString) :=
  if verify false intermediates ≠ .unknownAuthority then some (true, [])
  else if extraRootCerts ∧ verify true intermediates ≠ .unknownAuthority then some (true, [])
  else if lib.issuingCertificateURL cert = [] then some (false, [])
  else
    ((Fetch.start lib cert intermediates).loop lib responses fuel).map fun f =>
      (decide (verify extraRootCerts f.pool ≠ .unknownAuthority), f.requests)

def validCert (verify : Bool → List Cert → Verified) (extraRootCerts : Bool) (responses : Responses)
    (cert : Cert) (intermediates : List Cert) (fuel : Nat) : Option Bool :=
  (validCertRequests lib verify extraRootCerts responses cert intermediates fuel).map (·.1)

/-! ## The loop as a work list -/

section Run

open WorkList

variable {lib} {responses : Responses}

/-- The loop has done the first part of the list, and the second is to do. -/
structure Fetch.Matches (f : Fetch Cert) (r : List GoString × List GoString) : Prop where
  i : f.i = r.1.length
  toFetch : f.toFetch = r.1 ++ r.2
  fetched : f.fetched = ∅
  requests : f.requests = r.1

theorem start_matches (cert : Cert) (pool : List Cert) :
    (Fetch.start lib cert pool).Matches ([], lib.issuingCertificateURL cert) :=
  ⟨rfl, rfl, rfl, rfl⟩

theorem round_eq {f : Fetch Cert} {r : List GoString × List GoString} (h : f.Matches r) :
    (r.2 = [] ∧ f.round lib responses = none)
      ∨ (r.2 ≠ [] ∧ ∃ f', f.round lib responses = some f'
        ∧ f'.Matches (step (namedAt lib responses) r)) := by
  obtain ⟨done, todo⟩ := r
  have hget : f.toFetch[f.i]? = todo[0]? := by
    rw [h.toFetch, h.i, List.getElem?_append_right (Nat.le_refl _), Nat.sub_self]
  unfold Fetch.round
  rw [hget, h.fetched]
  cases todo with
  | nil => exact .inl ⟨rfl, rfl⟩
  | cons certURL rest =>
      refine .inr ⟨by simp, _, rfl, ?_, ?_, rfl, ?_⟩
      · simp [step, h.i]
      · simp [step, h.toFetch]
      · simp [step, h.requests]

theorem loop_some (fuel : Nat) :
    ∀ {f final : Fetch Cert} {r : List GoString × List GoString}, f.Matches r →
      f.loop lib responses fuel = some final →
      ∃ n, ((step (namedAt lib responses))^[n] r).2 = []
        ∧ final.requests = ((step (namedAt lib responses))^[n] r).1 := by
  induction fuel with
  | zero =>
      intro f final r _ hloop
      cases hloop
  | succ fuel ih =>
      intro f final r hf hloop
      rw [Fetch.loop] at hloop
      obtain ⟨hend, hround⟩ | ⟨-, f', hround, hf'⟩ := @round_eq _ lib responses _ _ hf
      · rw [hround] at hloop
        obtain rfl := Option.some.inj hloop
        exact ⟨0, hend, hf.requests⟩
      · rw [hround] at hloop
        obtain ⟨n, hn⟩ := ih hf' hloop
        exact ⟨n + 1, hn⟩

theorem loop_of_end (n : Nat) :
    ∀ {f : Fetch Cert} {r : List GoString × List GoString}, f.Matches r →
      ((step (namedAt lib responses))^[n] r).2 = [] →
      ∃ final, f.loop lib responses (n + 1) = some final
        ∧ final.requests = ((step (namedAt lib responses))^[n] r).1 := by
  induction n with
  | zero =>
      intro f r hf hend
      obtain ⟨-, hround⟩ | ⟨hne, -⟩ := @round_eq _ lib responses _ _ hf
      · refine ⟨f, ?_, hf.requests⟩
        rw [Fetch.loop, hround]
      · exact absurd hend hne
  | succ n ih =>
      intro f r hf hend
      obtain ⟨hnil, hround⟩ | ⟨-, f', hround, hf'⟩ := @round_eq _ lib responses _ _ hf
      · -- the list was worked off before
        have hstay : step (namedAt lib responses) r = r := by
          rw [step, hnil]
        refine ⟨f, ?_, ?_⟩
        · rw [Fetch.loop, hround]
        · rw [Function.iterate_fixed hstay, hf.requests]
      · obtain ⟨final, hloop, hrequests⟩ := ih hf' hend
        refine ⟨final, ?_, hrequests⟩
        rw [Fetch.loop, hround]
        exact hloop

theorem mem_of_named_url {start : List GoString} {u : GoString}
    (h : Named (namedAt lib responses) start u) :
    u ∈ start ++ responses.keys.flatMap (namedAt lib responses) := by
  cases h with
  | start h => exact List.mem_append_left _ h
  | @next w _ _ hv =>
      have hw : w ∈ responses := by
        by_contra hno
        have hnone : certsAt lib responses w = [] := by
          rw [certsAt, GoMap.get, AList.lookup_eq_none.mpr hno]
          rfl
        rw [namedAt, hnone] at hv
        cases hv
      exact List.mem_append_right _ (List.mem_flatMap.mpr ⟨w, hw, hv⟩)

/-- **The loop ends, with no URL requested twice, exactly if no URL is named
twice.** -/
theorem fetch_once_iff (cert : Cert) (pool : List Cert) :
    (∃ fuel final, (Fetch.start lib cert pool).loop lib responses fuel = some final
        ∧ final.requests.Nodup)
      ↔ NamedOnce (namedAt lib responses) (lib.issuingCertificateURL cert) := by
  rw [← once_iff fun u hu => mem_of_named_url hu]
  constructor
  · rintro ⟨fuel, final, hloop, hnodup⟩
    obtain ⟨n, hend, hrequests⟩ := loop_some fuel (start_matches cert pool) hloop
    rw [hrequests] at hnodup
    exact ⟨n, hend, hnodup⟩
  · rintro ⟨n, hend, hnodup⟩
    obtain ⟨final, hloop, hrequests⟩ := loop_of_end n (start_matches cert pool) hend
    refine ⟨n + 1, final, hloop, ?_⟩
    rw [hrequests]
    exact hnodup

end Run

/-- A library for certificates that are nothing but one URL. -/
def urlOnly : Library GoString where
  parseCertificate := some
  issuingCertificateURL cert := [cert]
  pemDecode _ := none
  shorter _ _ _ h := by cases h

/-- A certificate at the URL that it names. -/
def selfIssued : Responses := AList.singleton (lit "u") (.ok 200 (some (lit "u")))

/-- The loop does not end, and asks for the same URL again and again. -/
theorem self_reference_loops :
    (∀ fuel, (Fetch.start urlOnly (lit "u") []).loop urlOnly selfIssued fuel = none)
      ∧ (((Fetch.start urlOnly (lit "u") []).round urlOnly selfIssued).bind
          (Fetch.round urlOnly selfIssued)).map Fetch.requests = some [lit "u", lit "u"] := by
  refine ⟨fun fuel => ?_, by decide +kernel⟩
  cases hloop : (Fetch.start urlOnly (lit "u") []).loop urlOnly selfIssued fuel with
  | none => rfl
  | some final =>
      obtain ⟨n, hend, -⟩ := loop_some fuel (start_matches (lit "u") []) hloop
      have hself : namedAt urlOnly selfIssued (lit "u") = [lit "u"] := by decide +kernel
      have hall : ∀ u, WorkList.Named (namedAt urlOnly selfIssued) [lit "u"] u → u = lit "u" := by
        intro u hu
        induction hu with
        | start hu => exact List.mem_singleton.mp hu
        | next _ hv ih =>
            rw [ih, hself] at hv
            exact List.mem_singleton.mp hv
      -- each request names one more
      have heq := @WorkList.run_eq _ (namedAt urlOnly selfIssued) [lit "u"] n
      have hlen : (((WorkList.run (namedAt urlOnly selfIssued) [lit "u"] n).1).flatMap
          (namedAt urlOnly selfIssued)).length
          = (WorkList.run (namedAt urlOnly selfIssued) [lit "u"] n).1.length := by
        have hone : ∀ u ∈ (WorkList.run (namedAt urlOnly selfIssued) [lit "u"] n).1,
            (namedAt urlOnly selfIssued u).length = 1 := by
          intro u hu
          rw [hall u (WorkList.named_of_mem_run n u (List.mem_append_left _ hu)), hself]
          rfl
        rw [List.length_flatMap, List.map_congr_left hone]
        simp
      have hcount := congrArg List.length heq
      rw [List.length_append, List.length_append, hlen] at hcount
      have hzero : (WorkList.run (namedAt urlOnly selfIssued) [lit "u"] n).2.length = 0 :=
        List.length_eq_zero_iff.mpr hend
      simp only [List.length_singleton] at hcount
      omega

end ValidCert

end RbiProxy
