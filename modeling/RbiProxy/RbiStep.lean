import RbiProxy.Indexed
import RbiProxy.RbiSession

/-!
# The steps of the session system, branch by branch

`Step` lists every branch of `step` with its guard and the state behind it,
and `step_cases` says that nothing else can happen. `Moves` is the same for
the one call a step is about, and `Step.call_spec` reads the table of calls
after a step. The invariants of the later files are proved by cases on
these and never unfold `step`.
-/

namespace RbiProxy

namespace Rbi

/-- One constructor for each branch of `step`. -/
inductive Step (cfg : Config) (st : State) : Act → State → Prop where
  | call {rawURL : GoString} : Step cfg st (.call rawURL)
      { st with calls := st.calls ++ [{ rawURL := rawURL, host := rbiHostOf cfg rawURL }] }
  | launchLock {i : Nat} {c : Call} (hc : st.calls[i]? = some c) (hpc : c.pc = .enter) :
      Step cfg st (.launchLock i)
        { st with launchMu := (rbiHostLaunchLock st.launchMu c.host).2
                  calls := st.calls.set i
                    { c with pc := .lock, lm := (rbiHostLaunchLock st.launchMu c.host).1 } }
  | lock {i : Nat} {c : Call} (hc : st.calls[i]? = some c) (hpc : c.pc = .lock)
      (hfree : ∀ d ∈ st.calls, ¬ (d.pc.holds = true ∧ d.lm = c.lm)) :
      Step cfg st (.lock i) (setCall st i { c with pc := .check })
  | reuse {i : Nat} {c : Call} {s : RbiSession} {now : Int} (hc : st.calls[i]? = some c)
      (hpc : c.pc = .check) (hs : st.byHost.lookup c.host = some s) :
      Step cfg st (.check i true now)
        { st with
          byHost := st.byHost.insert c.host { s with teardownTimer := none, lastActive := now }
          timers := stopTimer st.timers s.teardownTimer
          calls := st.calls.set i { c with pc := .unlock, result := some s.addr }
          log := .reuse s.addr :: st.log }
  | fresh {i : Nat} {c : Call} {running : Bool} {now : Int} (hc : st.calls[i]? = some c)
      (hpc : c.pc = .check) (hs : ∀ s, st.byHost.lookup c.host = some s → running = false) :
      Step cfg st (.check i running now)
        { st with rbiSeq := st.rbiSeq + 1
                  calls := st.calls.set i { c with pc := .tcp, seq := st.rbiSeq + 1 } }
  | alloc {i : Nat} {c c' : Call} {port : Option Nat} (hc : st.calls[i]? = some c)
      (ha : alloc st c port = some c') : Step cfg st (.alloc i port) (setCall st i c')
  | run {i : Nat} {c : Call} {nano : Int} (hc : st.calls[i]? = some c) (hpc : c.pc = .run) :
      Step cfg st (.run i nano)
        (setCall st i { c with pc := .running, id := sessionId c.seq nano,
                               name := sessionName c.seq nano })
  | start {i : Nat} {c : Call} (hc : st.calls[i]? = some c) (hpc : c.pc = .running)
      (hnew : c.started = false) :
      Step cfg st (.start i)
        { st with containers := containerOf i c :: st.containers
                  calls := st.calls.set i { c with started := true } }
  | runOk {i : Nat} {c : Call} {now : Int} (hc : st.calls[i]? = some c) (hpc : c.pc = .running)
      (hstarted : c.started = true) :
      Step cfg st (.runReturns i true now)
        (setCall st i { c with pc := .wait, s := some (newSession i c now) })
  | runErr {i : Nat} {c : Call} {now : Int} (hc : st.calls[i]? = some c)
      (hpc : c.pc = .running) :
      Step cfg st (.runReturns i false now) (setCall st i { c with pc := .unlock })
  | ready {i : Nat} {c : Call} {ok : Bool} (hc : st.calls[i]? = some c) (hpc : c.pc = .wait) :
      Step cfg st (.ready i ok) (setCall st i { c with pc := if ok then .tune else .abort })
  | abort {i : Nat} {c : Call} {ok : Bool} (hc : st.calls[i]? = some c) (hpc : c.pc = .abort) :
      Step cfg st (.abort i ok)
        { setCall st i { c with pc := .unlock } with
          containers := if ok then rmContainer st.containers c.name else st.containers
          log := .teardown c.name :: st.log }
  | tuned {i : Nat} {c : Call} (hc : st.calls[i]? = some c) (hpc : c.pc = .tune) :
      Step cfg st (.tuned i) (setCall st i { c with pc := .register })
  | register {i : Nat} {c : Call} {s : RbiSession} (hc : st.calls[i]? = some c)
      (hpc : c.pc = .register) (hs : c.s = some s) :
      Step cfg st (.register i)
        { st with byHost := st.byHost.insert c.host s
                  calls := st.calls.set i { c with pc := .startGC, result := some i } }
  | startGC {i : Nat} {c : Call} (hc : st.calls[i]? = some c) (hpc : c.pc = .startGC) :
      Step cfg st (.startGC i)
        { setCall st i { c with pc := .unlock } with gcStarted := true }
  | unlock {i : Nat} {c : Call} (hc : st.calls[i]? = some c) (hpc : c.pc = .unlock) :
      Step cfg st (.unlock i) (setCall st i { c with pc := .done })
  | crash {name : GoString} : Step cfg st (.crash name)
      { st with containers := rmContainer st.containers name }
  | wsMiss {dest : Dest} {pick : Option GoString} {now : Int} (hdest : destOk st dest = true)
      (hmiss : ∀ port, destPort st dest = some port →
        ∀ host s, st.byHost.lookup host = some s → s.tcpPort ≠ port) :
      Step cfg st (.wsOpen dest pick now)
        { st with handlers := st.handlers ++
                    [⟨destPort st dest, destRouted cfg st dest, false, true⟩] }
  | wsAttach {dest : Dest} {host : GoString} {now : Int} {s : RbiSession}
      (hdest : destOk st dest = true) (hs : st.byHost.lookup host = some s)
      (hport : destPort st dest = some s.tcpPort) :
      Step cfg st (.wsOpen dest (some host) now)
        { rbiViewerAttach st host s now with
          handlers := st.handlers ++
            [⟨some s.tcpPort, destRouted cfg st dest, true, true⟩] }
  | wsReturn {i : Nat} {h : Handler} {pick : Option GoString} {grace : Nat}
      (hh : st.handlers[i]? = some h) (hlive : h.live = true)
      (hmiss : h.attached = true → ∀ port, h.port = some port →
        ∀ host s, st.byHost.lookup host = some s → s.tcpPort ≠ port) :
      Step cfg st (.wsClose i pick grace)
        { st with handlers := st.handlers.set i { h with live := false } }
  | wsDetach {i : Nat} {h : Handler} {host : GoString} {grace : Nat} {s : RbiSession}
      (hh : st.handlers[i]? = some h) (hlive : h.live = true) (hatt : h.attached = true)
      (hport : h.port = some s.tcpPort) (hs : st.byHost.lookup host = some s) :
      Step cfg st (.wsClose i (some host) grace)
        { rbiViewerDetach st host s grace with
          handlers := st.handlers.set i { h with live := false } }
  | fire {i : Nat} {t : Timer} (ht : st.timers[i]? = some t) (hp : t.phase = .armed) :
      Step cfg st (.fire i) { st with timers := st.timers.set i { t with phase := .fired } }
  | stale {i : Nat} {t : Timer} (ht : st.timers[i]? = some t) (hp : t.phase = .fired) :
      Step cfg st (.expire i) { st with timers := st.timers.set i { t with phase := .ran } }
  | expire {i : Nat} {t : Timer} {cur : RbiSession} (ht : st.timers[i]? = some t)
      (hp : t.phase = .fired) (hcur : st.byHost.lookup t.host = some cur)
      (haddr : cur.addr = t.sess) (hview : cur.viewers = 0) :
      Step cfg st (.expire i)
        { st with byHost := st.byHost.erase t.host
                  timers := st.timers.set i { t with phase := .ran }
                  pending := st.pending ++ [⟨.timer i, t.name⟩]
                  log := .remove (.timer i) t.sess t.name cur.viewers true :: st.log }
  | gc {now ttl : Int} {running : GoString → Bool} :
      Step cfg st (.gc now ttl running) (gcPass st now ttl running)
  | teardown {p : Teardown} {ok : Bool} (hp : p ∈ st.pending) :
      Step cfg st (.teardown p ok)
        { st with pending := st.pending.erase p
                  containers := if ok then rmContainer st.containers p.name else st.containers
                  log := .teardown p.name :: st.log }

variable {cfg : Config} {st st' : State}

section Detach

variable (st : State) (host : GoString) (s : RbiSession) (grace : Nat)

@[simp] theorem rbiViewerDetach_calls : (rbiViewerDetach st host s grace).calls = st.calls := by
  simp only [rbiViewerDetach]
  split
  · rfl
  · split <;> rfl

@[simp] theorem rbiViewerDetach_rbiSeq :
    (rbiViewerDetach st host s grace).rbiSeq = st.rbiSeq := by
  simp only [rbiViewerDetach]
  split
  · rfl
  · split <;> rfl

@[simp] theorem rbiViewerDetach_launchMu :
    (rbiViewerDetach st host s grace).launchMu = st.launchMu := by
  simp only [rbiViewerDetach]
  split
  · rfl
  · split <;> rfl

@[simp] theorem rbiViewerDetach_containers :
    (rbiViewerDetach st host s grace).containers = st.containers := by
  simp only [rbiViewerDetach]
  split
  · rfl
  · split <;> rfl

end Detach

theorem atPc_eq_some {i : Nat} {pc : Pc} {k : Call → Option State}
    (h : atPc st i pc k = some st') :
    ∃ c, st.calls[i]? = some c ∧ c.pc = pc ∧ k c = some st' := by
  unfold atPc at h
  split at h
  · rename_i c hc
    split at h
    · rename_i hpc
      exact ⟨c, hc, hpc, h⟩
    · cases h
  · cases h

/-- No registered session has a port at which the loop stops nowhere. -/
theorem pickOk_none {port : Nat} (h : pickOk st port none = true) {host : GoString}
    {s : RbiSession} (hs : st.byHost.lookup host = some s) : s.tcpPort ≠ port := by
  simp only [pickOk, List.all_eq_true, decide_eq_true_eq] at h
  exact h s (GoMap.mem_vals.mpr ⟨host, hs⟩)

/-- The entry at which the loop stops, or none. -/
theorem pickOk_cases {port : Nat} {pick : Option GoString} (h : pickOk st port pick = true) :
    (pick = none ∧ ∀ host s, st.byHost.lookup host = some s → s.tcpPort ≠ port) ∨
    ∃ host s, pick = some host ∧ st.byHost.lookup host = some s ∧ s.tcpPort = port := by
  cases pick with
  | none => exact .inl ⟨rfl, fun _ _ hs => pickOk_none h hs⟩
  | some host =>
      simp only [pickOk] at h
      split at h
      · rename_i s hs
        exact .inr ⟨host, s, rfl, hs, by simpa using h⟩
      · cases h

theorem wsOpen_cases {dest : Dest} {pick : Option GoString} {now : Int}
    (hdest : destOk st dest = true) (h : wsOpen cfg st dest pick now = some st') :
    Step cfg st (.wsOpen dest pick now) st' := by
  unfold wsOpen at h
  simp only at h
  split at h
  · rename_i hport
    obtain rfl := Option.some.inj h
    have hmiss : Step cfg st (.wsOpen dest pick now) _ := .wsMiss hdest (by simp [hport])
    rwa [hport] at hmiss
  · rename_i port hport
    split at h
    · rename_i hpick
      rcases pickOk_cases hpick with ⟨rfl, hnone⟩ | ⟨host, s, rfl, hs, rfl⟩
      · obtain rfl := Option.some.inj h
        have hmiss : Step cfg st (.wsOpen dest none now) _ := .wsMiss hdest
          (fun p hp => by rw [hport] at hp; obtain rfl := Option.some.inj hp; exact hnone)
        rwa [hport] at hmiss
      · simp only [Option.bind_some, hs, Option.map_some] at h
        obtain rfl := Option.some.inj h
        exact .wsAttach hdest hs hport
    · cases h

theorem wsClose_cases {i : Nat} {hd : Handler} {pick : Option GoString} {grace : Nat}
    (hh : st.handlers[i]? = some hd) (hlive : hd.live = true)
    (h : wsClose st i hd pick grace = some st') :
    Step cfg st (.wsClose i pick grace) st' := by
  unfold wsClose at h
  simp only at h
  split at h
  · rename_i port hatt hport
    split at h
    · rename_i hpick
      rcases pickOk_cases hpick with ⟨rfl, hnone⟩ | ⟨host, s, rfl, hs, rfl⟩
      · obtain rfl := Option.some.inj h
        exact .wsReturn hh hlive fun _ p hp => by
          rw [hport] at hp
          obtain rfl := Option.some.inj hp
          exact hnone
      · simp only [Option.bind_some, hs, Option.map_some] at h
        obtain rfl := Option.some.inj h
        exact .wsDetach hh hlive hatt hport hs
    · cases h
  · rename_i hno
    obtain rfl := Option.some.inj h
    exact .wsReturn hh hlive fun hatt p hp => absurd hp (hno p hatt)

theorem expire_cases {i : Nat} {t : Timer} (ht : st.timers[i]? = some t)
    (hp : t.phase = .fired) : Step cfg st (.expire i) (graceExpired st i t) := by
  unfold graceExpired
  simp only
  split
  · rename_i cur hcur
    split
    · exact .stale ht hp
    · rename_i hno
      simp only [not_or, not_not] at hno
      exact .expire ht hp hcur hno.1 (by omega)
  · exact .stale ht hp

theorem step_cases {a : Act} (h : step cfg st a = some st') : Step cfg st a st' := by
  cases a with
  | call rawURL =>
      obtain rfl := Option.some.inj h
      exact .call
  | launchLock i =>
      obtain ⟨c, hc, hpc, h⟩ := atPc_eq_some h
      obtain rfl := Option.some.inj h
      exact .launchLock hc hpc
  | lock i =>
      obtain ⟨c, hc, hpc, h⟩ := atPc_eq_some h
      split at h
      · rename_i hfree
        obtain rfl := Option.some.inj h
        refine .lock hc hpc fun d hd hhold => ?_
        have := List.all_eq_true.mp hfree d hd
        simp [hhold.1, hhold.2] at this
      · cases h
  | check i running now =>
      obtain ⟨c, hc, hpc, h⟩ := atPc_eq_some h
      obtain rfl := Option.some.inj h
      unfold check
      split
      · rename_i s hs
        cases running with
        | true => exact .reuse hc hpc hs
        | false => exact .fresh hc hpc fun _ _ => rfl
      · rename_i hs
        exact .fresh hc hpc fun s hs' => by rw [hs] at hs'; cases hs'
  | alloc i port =>
      simp only [step] at h
      split at h
      · rename_i c hc
        obtain ⟨c', ha, rfl⟩ := Option.map_eq_some_iff.mp h
        exact .alloc hc ha
      · cases h
  | run i nano =>
      obtain ⟨c, hc, hpc, h⟩ := atPc_eq_some h
      obtain rfl := Option.some.inj h
      exact .run hc hpc
  | start i =>
      obtain ⟨c, hc, hpc, h⟩ := atPc_eq_some h
      split at h
      · rename_i hg
        obtain rfl := Option.some.inj h
        simp only [Bool.and_eq_true, Bool.not_eq_true'] at hg
        exact .start hc hpc hg.1.1.1
      · cases h
  | runReturns i ok now =>
      obtain ⟨c, hc, hpc, h⟩ := atPc_eq_some h
      cases ok with
      | true =>
          simp only [if_true] at h
          split at h
          · rename_i hstarted
            obtain rfl := Option.some.inj h
            exact .runOk hc hpc hstarted
          · cases h
      | false =>
          obtain rfl := Option.some.inj h
          exact .runErr hc hpc
  | ready i ok =>
      obtain ⟨c, hc, hpc, h⟩ := atPc_eq_some h
      obtain rfl := Option.some.inj h
      exact .ready hc hpc
  | abort i ok =>
      obtain ⟨c, hc, hpc, h⟩ := atPc_eq_some h
      obtain rfl := Option.some.inj h
      exact .abort hc hpc
  | tuned i =>
      obtain ⟨c, hc, hpc, h⟩ := atPc_eq_some h
      obtain rfl := Option.some.inj h
      exact .tuned hc hpc
  | register i =>
      obtain ⟨c, hc, hpc, h⟩ := atPc_eq_some h
      split at h
      · rename_i s hs
        obtain rfl := Option.some.inj h
        exact .register hc hpc hs
      · cases h
  | startGC i =>
      obtain ⟨c, hc, hpc, h⟩ := atPc_eq_some h
      obtain rfl := Option.some.inj h
      exact .startGC hc hpc
  | unlock i =>
      obtain ⟨c, hc, hpc, h⟩ := atPc_eq_some h
      obtain rfl := Option.some.inj h
      exact .unlock hc hpc
  | crash name =>
      obtain rfl := Option.some.inj h
      exact .crash
  | wsOpen dest pick now =>
      simp only [step] at h
      split at h
      · rename_i hdest
        exact wsOpen_cases hdest h
      · cases h
  | wsClose i pick grace =>
      simp only [step] at h
      split at h
      · rename_i hd hh
        split at h
        · rename_i hlive
          exact wsClose_cases hh hlive h
        · cases h
      · cases h
  | fire i =>
      simp only [step] at h
      split at h
      · rename_i t ht
        split at h
        · rename_i hp
          obtain rfl := Option.some.inj h
          exact .fire ht hp
        · cases h
      · cases h
  | expire i =>
      simp only [step] at h
      split at h
      · rename_i t ht
        split at h
        · rename_i hp
          obtain rfl := Option.some.inj h
          exact expire_cases ht hp
        · cases h
      · cases h
  | gc now ttl running =>
      simp only [step] at h
      split at h
      · obtain rfl := Option.some.inj h
        exact .gc
      · cases h
  | teardown p ok =>
      simp only [step] at h
      split at h
      · rename_i hp
        obtain rfl := Option.some.inj h
        exact .teardown hp
      · cases h

/-! ## The call a step is about -/

def Act.callOf : Act → Option Nat
  | launchLock i | lock i | check i _ _ | alloc i _ | run i _ | start i | runReturns i _ _
  | ready i _ | abort i _ | tuned i | register i | startGC i | unlock i => some i
  | _ => none

inductive Moves (st : State) (i : Nat) (c : Call) : Act → Call → Prop where
  | launchLock (hpc : c.pc = .enter) : Moves st i c (.launchLock i)
      { c with pc := .lock, lm := (rbiHostLaunchLock st.launchMu c.host).1 }
  | lock (hpc : c.pc = .lock)
      (hfree : ∀ d ∈ st.calls, ¬ (d.pc.holds = true ∧ d.lm = c.lm)) :
      Moves st i c (.lock i) { c with pc := .check }
  | reuse {s : RbiSession} {now : Int} (hpc : c.pc = .check)
      (hs : st.byHost.lookup c.host = some s) :
      Moves st i c (.check i true now) { c with pc := .unlock, result := some s.addr }
  | fresh {running : Bool} {now : Int} (hpc : c.pc = .check)
      (hs : ∀ s, st.byHost.lookup c.host = some s → running = false) :
      Moves st i c (.check i running now) { c with pc := .tcp, seq := st.rbiSeq + 1 }
  | tcp {p : Nat} (hpc : c.pc = .tcp) :
      Moves st i c (.alloc i (some p)) { c with pc := .udp, tcpPort := p }
  | udp {p : Nat} (hpc : c.pc = .udp) :
      Moves st i c (.alloc i (some p)) { c with pc := .mux, udpPort := p }
  | mux {p : Nat} (hpc : c.pc = .mux) :
      Moves st i c (.alloc i (some p)) { c with pc := .run, tcpMuxPort := p }
  | allocErr (hpc : c.pc = .tcp ∨ c.pc = .udp ∨ c.pc = .mux) :
      Moves st i c (.alloc i none) { c with pc := .unlock }
  | run {nano : Int} (hpc : c.pc = .run) : Moves st i c (.run i nano)
      { c with pc := .running, id := sessionId c.seq nano, name := sessionName c.seq nano }
  | start (hpc : c.pc = .running) : Moves st i c (.start i) { c with started := true }
  | runOk {now : Int} (hpc : c.pc = .running) : Moves st i c (.runReturns i true now)
      { c with pc := .wait, s := some (newSession i c now) }
  | runErr {now : Int} (hpc : c.pc = .running) :
      Moves st i c (.runReturns i false now) { c with pc := .unlock }
  | ready (hpc : c.pc = .wait) : Moves st i c (.ready i true) { c with pc := .tune }
  | notReady (hpc : c.pc = .wait) : Moves st i c (.ready i false) { c with pc := .abort }
  | abort {ok : Bool} (hpc : c.pc = .abort) :
      Moves st i c (.abort i ok) { c with pc := .unlock }
  | tuned (hpc : c.pc = .tune) : Moves st i c (.tuned i) { c with pc := .register }
  | register {s : RbiSession} (hpc : c.pc = .register) (hs : c.s = some s) :
      Moves st i c (.register i) { c with pc := .startGC, result := some i }
  | startGC (hpc : c.pc = .startGC) : Moves st i c (.startGC i) { c with pc := .unlock }
  | unlock (hpc : c.pc = .unlock) : Moves st i c (.unlock i) { c with pc := .done }

theorem alloc_moves {i : Nat} {c c' : Call} {port : Option Nat} (h : alloc st c port = some c') :
    Moves st i c (.alloc i port) c' := by
  unfold alloc at h
  split at h
  · rename_i hpc
    split at h
    · obtain rfl := Option.some.inj h
      exact .tcp hpc
    · cases h
  · rename_i hpc
    split at h
    · obtain rfl := Option.some.inj h
      exact .udp hpc
    · cases h
  · rename_i hpc
    split at h
    · obtain rfl := Option.some.inj h
      exact .mux hpc
    · cases h
  · rename_i hpc
    obtain rfl := Option.some.inj h
    exact .allocErr (.inl hpc)
  · rename_i hpc
    obtain rfl := Option.some.inj h
    exact .allocErr (.inr (.inl hpc))
  · rename_i hpc
    obtain rfl := Option.some.inj h
    exact .allocErr (.inr (.inr hpc))
  · cases h

/-- A step adds a call, moves the call it is about, or changes no call. -/
theorem Step.calls_cases {a : Act} (h : Step cfg st a st') :
    (∃ rawURL, a = .call rawURL ∧
      st'.calls = st.calls ++ [{ rawURL := rawURL, host := rbiHostOf cfg rawURL }]) ∨
    (a.callOf = none ∧ st'.calls = st.calls) ∨
    (∃ i c c', a.callOf = some i ∧ st.calls[i]? = some c ∧ Moves st i c a c'
      ∧ st'.calls = st.calls.set i c') := by
  cases h with
  | call => exact .inl ⟨_, rfl, rfl⟩
  | launchLock hc hpc => exact .inr (.inr ⟨_, _, _, rfl, hc, .launchLock hpc, rfl⟩)
  | lock hc hpc hfree => exact .inr (.inr ⟨_, _, _, rfl, hc, .lock hpc hfree, rfl⟩)
  | reuse hc hpc hs => exact .inr (.inr ⟨_, _, _, rfl, hc, .reuse hpc hs, rfl⟩)
  | fresh hc hpc hs => exact .inr (.inr ⟨_, _, _, rfl, hc, .fresh hpc hs, rfl⟩)
  | alloc hc ha => exact .inr (.inr ⟨_, _, _, rfl, hc, alloc_moves ha, rfl⟩)
  | run hc hpc => exact .inr (.inr ⟨_, _, _, rfl, hc, .run hpc, rfl⟩)
  | start hc hpc _ => exact .inr (.inr ⟨_, _, _, rfl, hc, .start hpc, rfl⟩)
  | runOk hc hpc _ => exact .inr (.inr ⟨_, _, _, rfl, hc, .runOk hpc, rfl⟩)
  | runErr hc hpc => exact .inr (.inr ⟨_, _, _, rfl, hc, .runErr hpc, rfl⟩)
  | ready hc hpc =>
      rename_i ok
      cases ok with
      | true => exact .inr (.inr ⟨_, _, _, rfl, hc, .ready hpc, rfl⟩)
      | false => exact .inr (.inr ⟨_, _, _, rfl, hc, .notReady hpc, rfl⟩)
  | abort hc hpc => exact .inr (.inr ⟨_, _, _, rfl, hc, .abort hpc, rfl⟩)
  | tuned hc hpc => exact .inr (.inr ⟨_, _, _, rfl, hc, .tuned hpc, rfl⟩)
  | register hc hpc hs => exact .inr (.inr ⟨_, _, _, rfl, hc, .register hpc hs, rfl⟩)
  | startGC hc hpc => exact .inr (.inr ⟨_, _, _, rfl, hc, .startGC hpc, rfl⟩)
  | unlock hc hpc => exact .inr (.inr ⟨_, _, _, rfl, hc, .unlock hpc, rfl⟩)
  | wsDetach _ _ _ _ _ => exact .inr (.inl ⟨rfl, rbiViewerDetach_calls ..⟩)
  | _ => exact .inr (.inl ⟨rfl, rfl⟩)

/-- A call after a step is new, has moved, or is as it was. -/
theorem Step.call_spec {a : Act} (h : Step cfg st a st') {i : Nat} {c' : Call}
    (hc' : st'.calls[i]? = some c') :
    (∃ rawURL, c' = { rawURL := rawURL, host := rbiHostOf cfg rawURL }) ∨
    (st.calls[i]? = some c' ∧ a.callOf ≠ some i) ∨
    (∃ c, st.calls[i]? = some c ∧ Moves st i c a c') := by
  rcases h.calls_cases with ⟨rawURL, rfl, hcalls⟩ | ⟨ha, hcalls⟩ | ⟨j, c, d, ha, hc, hm, hcalls⟩
  · rw [hcalls] at hc'
    rcases Indexed.of_concat hc' with hc' | ⟨-, rfl⟩
    · exact .inr (.inl ⟨hc', by simp [Act.callOf]⟩)
    · exact .inl ⟨rawURL, rfl⟩
  · rw [hcalls] at hc'
    exact .inr (.inl ⟨hc', by simp [ha]⟩)
  · rw [hcalls] at hc'
    rcases Indexed.of_set hc' with ⟨rfl, rfl⟩ | ⟨hij, hc'⟩
    · exact .inr (.inr ⟨c, hc, hm⟩)
    · refine .inr (.inl ⟨hc', fun hai => hij ?_⟩)
      rw [ha] at hai
      exact (Option.some.inj hai).symm

end Rbi

end RbiProxy
