import RbiProxy.RbiBase

/-!
# Launches are serialized per host

Two levels of locking: a call holds the lock of its host from its first
check to its return, and `rbiMu` only inside its two critical sections.
`LockInv` says that the lazily created lock of a host is one lock and that
it excludes. With it, a call that has found no live session stays the only
one that can register a session for its host, so the session registered
there, if any, is not running when the call issues `docker run`, and is the
one the call returns when it returns.

All of it rests on the answer of `docker inspect` in the first critical
section: `CheckTrue` says that it does not report a running container as
not running.
-/

namespace RbiProxy

namespace Rbi

variable {cfg : Config} {st st' : State}

/-! ## The per-host lock -/

structure LockInv (st : State) : Prop where
  mutex : ∀ (i : Nat) (c : Call), st.calls[i]? = some c → c.pc ≠ .enter →
    st.launchMu.lookup c.host = some c.lm
  excl : ∀ (i j : Nat) (c d : Call), st.calls[i]? = some c → st.calls[j]? = some d →
    c.pc.holds = true → d.pc.holds = true → c.lm = d.lm → i = j

theorem rbiHostLaunchLock_lookup (mus : GoMap GoString Nat) (host : GoString) :
    (rbiHostLaunchLock mus host).2.lookup host = some (rbiHostLaunchLock mus host).1 := by
  unfold rbiHostLaunchLock
  split
  · assumption
  · simp

theorem rbiHostLaunchLock_old {mus : GoMap GoString Nat} {host host' : GoString} {lm : Nat}
    (h : mus.lookup host' = some lm) :
    (rbiHostLaunchLock mus host).2.lookup host' = some lm := by
  unfold rbiHostLaunchLock
  split
  · exact h
  · rename_i hnone
    by_cases heq : host' = host
    · subst heq
      rw [h] at hnone
      cases hnone
    · simp only [AList.lookup_insert_ne heq]
      exact h

/-- A call after a step: new, at its lock, just locked, or as before as far
as its lock is concerned. -/
theorem Step.lock_spec {a : Act} (h : Step cfg st a st') {i : Nat} {c' : Call}
    (hc' : st'.calls[i]? = some c') :
    c'.pc = .enter ∨
    (c'.pc = .lock ∧ c'.lm = (rbiHostLaunchLock st.launchMu c'.host).1
      ∧ st'.launchMu = (rbiHostLaunchLock st.launchMu c'.host).2) ∨
    (∃ c, a = .lock i ∧ st.calls[i]? = some c ∧ c'.lm = c.lm ∧ c'.host = c.host
      ∧ c.pc ≠ .enter ∧ ∀ d ∈ st.calls, ¬ (d.pc.holds = true ∧ d.lm = c.lm)) ∨
    (∃ c, st.calls[i]? = some c ∧ c'.lm = c.lm ∧ c'.host = c.host
      ∧ (c'.pc ≠ .enter → c.pc ≠ .enter) ∧ (c'.pc.holds = true → c.pc.holds = true)) := by
  rcases h.call_spec hc' with ⟨rawURL, rfl⟩ | ⟨hc, -⟩ | ⟨c, hc, hm⟩
  · exact .inl rfl
  · exact .inr (.inr (.inr ⟨c', hc, rfl, rfl, id, id⟩))
  · cases hm with
    | launchLock hpc =>
        refine .inr (.inl ⟨rfl, rfl, ?_⟩)
        cases h with
        | launchLock hc₂ _ =>
            obtain rfl := Option.some.inj (hc.symm.trans hc₂)
            rfl
    | lock hpc hfree => exact .inr (.inr (.inl ⟨c, rfl, hc, rfl, rfl, by rw [hpc]; decide, hfree⟩))
    | allocErr hpc =>
        refine .inr (.inr (.inr ⟨c, hc, rfl, rfl, ?_, ?_⟩)) <;>
          rcases hpc with hpc | hpc | hpc <;> simp [hpc, Pc.holds]
    | reuse hpc _ =>
        exact .inr (.inr (.inr ⟨c, hc, rfl, rfl, by simp [hpc], by simp [hpc, Pc.holds]⟩))
    | fresh hpc _ =>
        exact .inr (.inr (.inr ⟨c, hc, rfl, rfl, by simp [hpc], by simp [hpc, Pc.holds]⟩))
    | register hpc _ =>
        exact .inr (.inr (.inr ⟨c, hc, rfl, rfl, by simp [hpc], by simp [hpc, Pc.holds]⟩))
    | _ hpc => exact .inr (.inr (.inr ⟨c, hc, rfl, rfl, by simp [hpc], by simp [hpc, Pc.holds]⟩))

theorem Step.launchMu_mono {a : Act} (h : Step cfg st a st') {host : GoString} {lm : Nat}
    (hl : st.launchMu.lookup host = some lm) : st'.launchMu.lookup host = some lm := by
  cases h with
  | launchLock _ _ => exact rbiHostLaunchLock_old hl
  | wsDetach _ _ _ _ _ =>
      rw [rbiViewerDetach_launchMu]
      exact hl
  | _ => exact hl

namespace LockInv

theorem init : LockInv init where
  mutex := by intro i c h; simp [Rbi.init] at h
  excl := by intro i j c d h; simp [Rbi.init] at h

/-- The lock of a host is one lock, so it excludes by host. -/
theorem host_excl (h : LockInv st) {i j : Nat} {c d : Call} (hc : st.calls[i]? = some c)
    (hd : st.calls[j]? = some d) (hch : c.pc.holds = true) (hdh : d.pc.holds = true)
    (hhost : c.host = d.host) : i = j := by
  have hne : ∀ {x : Call}, x.pc.holds = true → x.pc ≠ .enter := by
    intro x hx he
    rw [he] at hx
    cases hx
  refine h.excl i j c d hc hd hch hdh (Option.some.inj ?_)
  rw [← h.mutex i c hc (hne hch), ← h.mutex j d hd (hne hdh), hhost]

/-- Where the holder of a lock comes from: it held it before, or it has just
locked it and nobody else held it. -/
theorem holder {a : Act} (hs : Step cfg st a st') {i : Nat} {c' : Call}
    (hc' : st'.calls[i]? = some c') (hh : c'.pc.holds = true) :
    ∃ c, st.calls[i]? = some c ∧ c'.lm = c.lm ∧ (c.pc.holds = true ∨
      (a = .lock i ∧ ∀ d ∈ st.calls, ¬ (d.pc.holds = true ∧ d.lm = c.lm))) := by
  rcases hs.lock_spec hc' with he | ⟨he, -⟩ | ⟨c, ha, hc, hlm, -, -, hfree⟩ |
    ⟨c, hc, hlm, -, -, hhold⟩
  · rw [he] at hh
    cases hh
  · rw [he] at hh
    cases hh
  · exact ⟨c, hc, hlm, .inr ⟨ha, hfree⟩⟩
  · exact ⟨c, hc, hlm, .inl (hhold hh)⟩

theorem step (h : LockInv st) {a : Act} (hs : Step cfg st a st') : LockInv st' where
  mutex i c' hc' hne := by
    rcases hs.lock_spec hc' with he | ⟨-, hlm, hmu⟩ | ⟨c, -, hc, hlm, hhost, hce, -⟩ |
      ⟨c, hc, hlm, hhost, hce, -⟩
    · exact absurd he hne
    · rw [hlm, hmu]
      exact rbiHostLaunchLock_lookup _ _
    · rw [hlm, hhost]
      exact hs.launchMu_mono (h.mutex i c hc hce)
    · rw [hlm, hhost]
      exact hs.launchMu_mono (h.mutex i c hc (hce hne))
  excl i j c' d' hc' hd' hch hdh heq := by
    obtain ⟨c, hc, hclm, hcold⟩ := holder hs hc' hch
    obtain ⟨d, hd, hdlm, hdold⟩ := holder hs hd' hdh
    have hlm : c.lm = d.lm := hclm.symm.trans (heq.trans hdlm)
    rcases hcold with hcold | ⟨rfl, hfree⟩
    · rcases hdold with hdold | ⟨rfl, hfree⟩
      · exact h.excl i j c d hc hd hcold hdold hlm
      · exact absurd ⟨hcold, hlm⟩ (hfree c (List.mem_of_getElem? hc))
    · rcases hdold with hdold | ⟨hij, -⟩
      · exact absurd ⟨hdold, hlm.symm⟩ (hfree d (List.mem_of_getElem? hd))
      · exact Act.lock.inj hij

end LockInv

/-! ## The registered session of a host with a launch -/

/-- A running container is not reported as not running to a call that looks
for a session. -/
def CheckTrue (st : State) : Act → Prop
  | .check i running _ => running = false → ∀ (c : Call) s, st.calls[i]? = some c →
      st.byHost.lookup c.host = some s → ¬ Running st s.name
  | _ => True

/-- From its check on, a call returns the session of its host if that session
is running; it returns nothing else while it launches. -/
structure LaunchInv (st : State) : Prop where
  base : Base st
  lock : LockInv st
  serial : ∀ (i : Nat) (c : Call) s, st.calls[i]? = some c → c.pc.holds = true →
    c.pc ≠ .check → st.byHost.lookup c.host = some s → Running st s.name →
    c.result = some s.addr

/-- A registered session that runs after a step ran before: what the step
starts belongs to a call that has registered nothing. -/
theorem Base.running_old (h : Base st) {a : Act} (hs : Step cfg st a st') {host : GoString}
    {s : RbiSession} (hl : st.byHost.lookup host = some s) (hrun : Running st' s.name) :
    Running st s.name := by
  obtain ⟨k, hk, hname⟩ := hrun
  rcases hs.containers_spec hk with hk | ⟨i, c, rfl, hc, hpc, rfl⟩
  · exact ⟨k, hk, hname⟩
  · obtain ⟨d, hd, hres, -, hdname, -⟩ := h.reg host s hl
    have hne := (h.wf i c hc).named (by rw [hpc]; decide) (by rw [hpc]; decide)
    obtain rfl := h.name_inj hc hd hne (hname.trans hdname.symm)
    obtain rfl := Option.some.inj (hc.symm.trans hd)
    rw [(h.wf _ c hc).result_none (by rw [hpc]; decide)] at hres
    cases hres

/-- A call behind its check after a step: it was there before with the same
result, or it is the call that checks or registers. -/
theorem Step.result_spec {a : Act} (h : Step cfg st a st') {i : Nat} {c' : Call}
    (hc' : st'.calls[i]? = some c') (hh : c'.pc.holds = true) (hne : c'.pc ≠ .check) :
    (∃ c, st.calls[i]? = some c ∧ c.pc.holds = true ∧ c.pc ≠ .check ∧ c'.result = c.result
      ∧ c'.host = c.host ∧ a ≠ .register i) ∨
    (∃ running now, a = .check i running now) ∨ a = .register i := by
  rcases h.call_spec hc' with ⟨rawURL, rfl⟩ | ⟨hc, ha⟩ | ⟨c, hc, hm⟩
  · cases hh
  · refine .inl ⟨c', hc, hh, hne, rfl, rfl, ?_⟩
    rintro rfl
    exact ha rfl
  · cases hm with
    | launchLock _ => cases hh
    | lock _ _ => exact absurd rfl hne
    | reuse _ _ => exact .inr (.inl ⟨_, _, rfl⟩)
    | fresh _ _ => exact .inr (.inl ⟨_, _, rfl⟩)
    | register _ _ => exact .inr (.inr rfl)
    | allocErr hpc =>
        refine .inl ⟨c, hc, ?_, ?_, rfl, rfl, by simp⟩ <;>
          rcases hpc with hpc | hpc | hpc <;> simp [hpc, Pc.holds]
    | _ hpc => exact .inl ⟨c, hc, by simp [hpc, Pc.holds], by simp [hpc], rfl, rfl, by simp⟩

namespace LaunchInv

theorem init : LaunchInv init where
  base := .init
  lock := .init
  serial := by intro i c s h; simp [Rbi.init] at h

/-- The session registered for the host of a launching call is not running. -/
theorem not_running (h : LaunchInv st) {i : Nat} {c : Call} (hc : st.calls[i]? = some c)
    (hl : c.pc.launching = true) {s : RbiSession} (hs : st.byHost.lookup c.host = some s) :
    ¬ Running st s.name := by
  intro hrun
  obtain ⟨hlo, hhi⟩ := (Pc.launching_iff _).mp hl
  have hres := h.serial i c s hc ((Pc.holds_iff _).mpr ⟨by omega, by omega⟩)
    (fun hpc => by rw [hpc] at hlo; simp [Pc.rank] at hlo) hs hrun
  rw [(h.base.wf i c hc).result_none hhi] at hres
  cases hres

theorem serial_old (h : LaunchInv st) {a : Act} (hs : Step cfg st a st') {i : Nat} {c : Call}
    (hc : st.calls[i]? = some c) (hh : c.pc.holds = true) (hne : c.pc ≠ .check)
    (ha : a ≠ .register i) {s' : RbiSession} (hl : st'.byHost.lookup c.host = some s')
    (hrun : Running st' s'.name) : c.result = some s'.addr := by
  rcases hs.lookup_spec hl with ⟨s, hls, haddr, hname, -⟩ | ⟨j, d, rfl, hd, hpc, -, hhost⟩
  · rw [hname] at hrun
    rw [haddr]
    exact h.serial i c s hc hh hne hls (h.base.running_old hs hls hrun)
  · -- only the call itself can register a session for its host
    have hdh : d.pc.holds = true := by rw [hpc]; rfl
    obtain rfl := h.lock.host_excl hc hd hh hdh hhost.symm
    exact absurd rfl ha

/-- The call that checks reuses the session, or the session is not running. -/
theorem serial_check {i : Nat} {running : Bool} {now : Int}
    (hok : CheckTrue st (.check i running now)) (hs : Step cfg st (.check i running now) st')
    {c' : Call} (hc' : st'.calls[i]? = some c') {s' : RbiSession}
    (hl : st'.byHost.lookup c'.host = some s') (hrun : Running st' s'.name) :
    c'.result = some s'.addr := by
  cases hs with
  | reuse hc hpc hs =>
      rw [Indexed.set_self hc] at hc'
      obtain rfl := Option.some.inj hc'
      rw [AList.lookup_insert] at hl
      obtain rfl := Option.some.inj hl
      rfl
  | fresh hc hpc hfalse =>
      rw [Indexed.set_self hc] at hc'
      obtain rfl := Option.some.inj hc'
      exact absurd hrun (hok (hfalse s' hl) _ s' hc hl)

theorem serial_register (h : LaunchInv st) {i : Nat} (hs : Step cfg st (.register i) st')
    {c' : Call} (hc' : st'.calls[i]? = some c') {s' : RbiSession}
    (hl : st'.byHost.lookup c'.host = some s') : c'.result = some s'.addr := by
  cases hs with
  | register hc hpc hs =>
      rw [Indexed.set_self hc] at hc'
      obtain rfl := Option.some.inj hc'
      rw [AList.lookup_insert] at hl
      obtain rfl := Option.some.inj hl
      rw [((h.base.wf i _ hc).session _ hs).1]

theorem step (h : LaunchInv st) {a : Act} (hok : CheckTrue st a) (hs : Step cfg st a st') :
    LaunchInv st' where
  base := h.base.step hs
  lock := h.lock.step hs
  serial i c' s' hc' hh hne hl hrun := by
    rcases hs.result_spec hc' hh hne with ⟨c, hc, hch, hcne, hres, hhost, ha⟩ |
      ⟨running, now, rfl⟩ | rfl
    · rw [hres]
      rw [hhost] at hl
      exact h.serial_old hs hc hch hcne ha hl hrun
    · exact serial_check hok hs hc' hl hrun
    · exact h.serial_register hs hc' hl

theorem of_reach {ok : State → Act → Prop} (hok : ∀ {s a}, ok s a → CheckTrue s a)
    (h : Reach (Rbi.step cfg) ok Rbi.init st) : LaunchInv st :=
  h.invariant init fun hi ha hs => hi.step (hok ha) (step_cases hs)

end LaunchInv

/-! ## The result -/

/-- `docker inspect` answers truthfully. -/
def Truthful (st : State) : Act → Prop
  | .check i running _ => ∀ (c : Call) s, st.calls[i]? = some c →
      st.byHost.lookup c.host = some s → (running = true ↔ Running st s.name)
  | .gc _ _ running => ∀ host s, st.byHost.lookup host = some s →
      (running s.name = true ↔ Running st s.name)
  | _ => True

theorem checkTrue_of_truthful {a : Act} (h : Truthful st a) : CheckTrue st a := by
  cases a with
  | check i running now =>
      intro hfalse c s hc hs hrun
      rw [(h c s hc hs).mpr hrun] at hfalse
      cases hfalse
  | _ => exact True.intro

/-- With truthful inspections, in every reachable state: at most one
`docker run` is in flight per host, none is issued while the session
registered for the host is running, the container names of distinct
launches are distinct, and a call that completes while the session of its
host is registered and running returns that session. -/
theorem launch_serialized (h : Reach (Rbi.step cfg) Truthful init st) :
    (∀ (i j : Nat) (c d : Call), st.calls[i]? = some c → st.calls[j]? = some d →
      c.pc = .running → d.pc = .running → c.host = d.host → i = j) ∧
    (∀ (i : Nat) nano st' (c : Call) s, Rbi.step cfg st (.run i nano) = some st' →
      st.calls[i]? = some c → st.byHost.lookup c.host = some s → ¬ Running st s.name) ∧
    (∀ (i j : Nat) (c d : Call), st.calls[i]? = some c → st.calls[j]? = some d → i ≠ j →
      c.name ≠ [] → c.name ≠ d.name) ∧
    (∀ (i : Nat) st' (c : Call) s, Rbi.step cfg st (.unlock i) = some st' →
      st.calls[i]? = some c → st.byHost.lookup c.host = some s → Running st s.name →
      c.result = some s.addr) := by
  have hinv := LaunchInv.of_reach checkTrue_of_truthful h
  refine ⟨?_, ?_, ?_, ?_⟩
  · intro i j c d hc hd hpc hpd hhost
    exact hinv.lock.host_excl hc hd (by rw [hpc]; rfl) (by rw [hpd]; rfl) hhost
  · intro i nano st' c s hs hc hl
    cases step_cases hs with
    | run hc₂ hpc =>
        obtain rfl := Option.some.inj (hc.symm.trans hc₂)
        exact hinv.not_running hc (by rw [hpc]; rfl) hl
  · intro i j c d hc hd hij hne heq
    exact hij (hinv.base.name_inj hc hd hne heq)
  · intro i st' c s hs hc hl hrun
    cases step_cases hs with
    | unlock hc₂ hpc =>
        obtain rfl := Option.some.inj (hc.symm.trans hc₂)
        exact hinv.serial i c s hc (by rw [hpc]; rfl) (by rw [hpc]; decide) hl hrun

/-- Enough for `Truthful` in a run without GC passes. -/
def truthfulb (st : State) : Act → Bool
  | .check i running _ =>
    match (st.calls[i]?).bind fun c => st.byHost.lookup c.host with
    | some s => running == decide (Running st s.name)
    | none => true
  | .gc _ _ _ => false
  | _ => true

theorem truthful_of_truthfulb {a : Act} (h : truthfulb st a = true) : Truthful st a := by
  cases a with
  | check i running now =>
      intro c s hc hs
      simp only [truthfulb, hc, Option.bind_some, hs, beq_iff_eq] at h
      rw [h, decide_eq_true_eq]
  | gc now ttl running => cases h
  | _ => exact True.intro

/-- A second call for the host, made while the first one launches, waits for
the lock and then returns the first one's session. -/
theorem launch_serialized_reuse : ∃ (st : State) (c : Call) (s : RbiSession),
    Reach (Rbi.step exampleConfig) Truthful init st ∧ st.calls[1]? = some c
    ∧ st.byHost.lookup c.host = some s ∧ Running st s.name ∧ c.result = some s.addr := by
  have hrun : (runs (Rbi.step exampleConfig) truthfulb
      (launchActs 0 1 2 3 ++ ([.call exampleURL, .launchLock 1] : List Act) ++ readyActs 0 ++
        ([.lock 1, .check 1 true 9] : List Act)) init).map (fun st =>
          ((st.calls[1]?).map (·.host), (st.byHost.lookup exampleHost).map (·.name),
            decide (Running st (lit "rbi-sess-1-7")),
            (Rbi.step exampleConfig st (.unlock 1)).isSome))
      = some (some exampleHost, some (lit "rbi-sess-1-7"), true, true) := by decide +kernel
  obtain ⟨st, hst, hview⟩ := Option.map_eq_some_iff.mp hrun
  simp only [Prod.mk.injEq, decide_eq_true_eq] at hview
  obtain ⟨hcall, hentry, hrunning, hsome⟩ := hview
  obtain ⟨c, hc, hhost⟩ := Option.map_eq_some_iff.mp hcall
  obtain ⟨s, hs, hname⟩ := Option.map_eq_some_iff.mp hentry
  obtain ⟨st', hstep⟩ := Option.isSome_iff_exists.mp hsome
  have hreach := reach_of_runs truthful_of_truthfulb .init hst
  rw [← hhost] at hs
  rw [← hname] at hrunning
  obtain ⟨-, -, -, hret⟩ := launch_serialized hreach
  exact ⟨st, c, s, hreach, hc, hs, hrunning, hret 1 st' c s hstep hc hs hrunning⟩

end Rbi

end RbiProxy
