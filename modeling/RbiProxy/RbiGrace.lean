import RbiProxy.RbiBase

/-!
# Grace timers

A grace timer may only take a session down if nothing has happened to the
session since the timer was armed: no viewer attached, no later viewer
detached, and no request reused it. `Stop` does not stop a callback that
has fired and waits for `rbiMu`, and the callback only looks at the viewer
counter. A reuse, or an attach followed by a detach, that slips in there
goes unnoticed (`not_graceSafe`).

In a run without such a slip (`GraceOk`) the property holds in every state
(`grace_safe`). The invariant behind it: the armed timer of a registered
session is the one in its `teardownTimer` field, its counter is then zero,
and a session without viewers has not been touched since any of its armed
or waiting timers was armed.
-/

namespace RbiProxy

namespace Rbi

/-! ## The property -/

/-- An attach, a detach or a reuse of session `a`. -/
def Event.touches (a : Nat) : Event → Bool
  | attach s | detach s | reuse s => s = a
  | _ => false

def Event.arms (t : Nat) : Event → Bool
  | arm t' _ => t' = t
  | _ => false

def sinceArmed (t : Nat) (log : List Event) : List Event := log.takeWhile fun e => !e.arms t

/-- Nothing happened to session `a` since timer `t` was armed. -/
def Untouched (log : List Event) (t a : Nat) : Prop :=
  ∀ e ∈ sinceArmed t log, e.touches a = false

/-- Whenever a grace timer removed a session, nothing had happened to it
since the timer was armed. -/
def GraceSafe (log : List Event) : Prop :=
  ∀ newer older t a name viewers running,
    log = newer ++ .remove (.timer t) a name viewers running :: older → Untouched older t a

/-- The callback of a timer of session `a` has fired and waits for `rbiMu`. -/
def Waiting (st : State) (a : Nat) : Prop :=
  ∃ (i : Nat) (t : Timer), st.timers[i]? = some t ∧ t.sess = a ∧ t.phase = .fired

/-- No reuse, and no detach of the last viewer, while a callback of the
session waits. -/
def GraceOk (st : State) : Act → Prop
  | .check i running _ => running = true → ∀ c s, st.calls[i]? = some c →
      st.byHost.lookup c.host = some s → ¬ Waiting st s.addr
  | .wsClose _ pick grace => 0 < grace → ∀ host s, pick = some host →
      st.byHost.lookup host = some s → s.viewers ≤ 1 → ¬ Waiting st s.addr
  | _ => True

/-! ## The log -/

theorem untouched_append {es log : List Event} {t a : Nat} (h : Untouched log t a)
    (hes : ∀ e ∈ es, e.touches a = false) : Untouched (es ++ log) t a := by
  intro e he
  unfold sinceArmed at he
  rw [List.takeWhile_append] at he
  split at he
  · rcases List.mem_append.mp he with he | he
    · exact hes e he
    · exact h e he
  · exact hes e (List.takeWhile_prefix _ |>.subset he)

theorem untouched_armed {log : List Event} {t a s : Nat} : Untouched (.arm t s :: log) t a := by
  intro e he
  simp [sinceArmed, Event.arms] at he

/-- Neither a removal by a timer nor anything else makes an old removal
unsafe. -/
theorem graceSafe_cons {e : Event} {log : List Event} (h : GraceSafe log)
    (he : ∀ t a name viewers running, e = .remove (.timer t) a name viewers running →
      Untouched log t a) : GraceSafe (e :: log) := by
  intro newer older t a name viewers running heq
  cases newer with
  | nil =>
      obtain ⟨rfl, rfl⟩ := List.cons.inj heq
      exact he t a name viewers running rfl
  | cons e' newer =>
      obtain ⟨-, hrest⟩ := List.cons.inj heq
      exact h newer older t a name viewers running hrest

theorem graceSafe_append (es : List Event) {log : List Event} (h : GraceSafe log)
    (hes : ∀ e ∈ es, ∀ t a name viewers running,
      e ≠ .remove (.timer t) a name viewers running) : GraceSafe (es ++ log) := by
  induction es with
  | nil => exact h
  | cons e es ih =>
      refine graceSafe_cons (ih fun e' he' => hes e' (by simp [he'])) ?_
      intro t a name viewers running heq
      exact absurd heq (hes e (by simp) t a name viewers running)

/-! ## The invariant -/

/-- Timer `i` and a registered session. -/
def TimerOk (log : List Event) (i : Nat) (t : Timer) (x : RbiSession) : Prop :=
  x.addr = t.sess →
    (t.phase = .armed → x.teardownTimer = some i ∧ x.viewers = 0) ∧
    (t.phase = .armed ∨ t.phase = .fired → x.viewers = 0 → Untouched log i x.addr)

structure GraceInv (st : State) : Prop where
  base : Base st
  safe : GraceSafe st.log
  ok : ∀ (i : Nat) (t : Timer) host x, st.timers[i]? = some t →
    st.byHost.lookup host = some x → TimerOk st.log i t x

variable {cfg : Config} {st st' : State}

theorem TimerOk.mono {log es : List Event} {i : Nat} {t t' : Timer} {x : RbiSession}
    (h : TimerOk log i t x) (hl : Timer.Later t t')
    (hes : ∀ e ∈ es, e.touches x.addr = false) : TimerOk (es ++ log) i t' x := by
  intro haddr
  obtain ⟨harmed, hquiet⟩ := h (haddr.trans hl.sess)
  exact ⟨fun hp => harmed (hl.armed hp),
    fun hp hv => untouched_append (hquiet (hl.due hp) hv) hes⟩

namespace GraceInv

/-- No timer of a session is armed once its `teardownTimer` is stopped, and
the only ones left to run are those that wait. -/
theorem stopped (h : GraceInv st) {host : GoString} {s : RbiSession}
    (hs : st.byHost.lookup host = some s) {i : Nat} {t' : Timer}
    (ht' : (stopTimer st.timers s.teardownTimer)[i]? = some t') (haddr : s.addr = t'.sess) :
    t'.phase ≠ .armed ∧ (t'.phase = .fired → Waiting st s.addr) := by
  obtain ⟨t, ht, ⟨hne, rfl⟩ | ⟨-, rfl⟩⟩ := stopTimer_getElem? ht'
  · refine ⟨fun hp => hne ((h.ok i t' host s ht hs haddr).1 hp).1, fun hp => ?_⟩
    exact ⟨i, t', ht, haddr.symm, hp⟩
  · refine ⟨t.stop_phase, fun hp => ⟨i, t, ht, ?_, Timer.stop_fired hp⟩⟩
    exact t.later_stop.sess.symm.trans haddr.symm

/-- An entry the step leaves alone, with a timer it at most advances. -/
theorem keep (h : GraceInv st) (es : List Event) {i : Nat} {t' : Timer} {host : GoString}
    {x : RbiSession} (ht : ∃ t, st.timers[i]? = some t ∧ Timer.Later t t')
    (hx : st.byHost.lookup host = some x) (hes : ∀ e ∈ es, e.touches x.addr = false) :
    TimerOk (es ++ st.log) i t' x := by
  obtain ⟨t, ht, hl⟩ := ht
  exact (h.ok i t host x ht hx).mono hl hes

/-- A step that changes neither the map nor the timers. -/
theorem frame (h : GraceInv st) (hb : Base st') (es : List Event)
    (hmap : st'.byHost = st.byHost) (htimers : st'.timers = st.timers)
    (hlog : st'.log = es ++ st.log) (hes : ∀ e ∈ es, ∃ name, e = .teardown name) :
    GraceInv st' where
  base := hb
  safe := by
    rw [hlog]
    refine graceSafe_append _ h.safe fun e he => ?_
    obtain ⟨name, rfl⟩ := hes e he
    exact fun _ _ _ _ _ heq => by cases heq
  ok i t host x ht hx := by
    rw [hlog]
    rw [htimers] at ht
    rw [hmap] at hx
    refine h.keep es ⟨t, ht, .refl t⟩ hx fun e he => ?_
    obtain ⟨name, rfl⟩ := hes e he
    rfl

theorem step_reuse (h : GraceInv st) {i : Nat} {c : Call} {s : RbiSession} {now : Int}
    (hb : Base st') (hs : st.byHost.lookup c.host = some s) (hok : ¬ Waiting st s.addr)
    (hst' : st' = { st with
      byHost := st.byHost.insert c.host { s with teardownTimer := none, lastActive := now }
      timers := stopTimer st.timers s.teardownTimer
      calls := st.calls.set i { c with pc := .unlock, result := some s.addr }
      log := .reuse s.addr :: st.log }) : GraceInv st' := by
  refine ⟨hb, ?_, ?_⟩
  · rw [hst']
    exact graceSafe_append [.reuse s.addr] h.safe (by simp)
  · subst hst'
    intro j t' host x ht' hx
    rcases GoMap.of_lookup_insert hx with ⟨rfl, rfl⟩ | ⟨hne, hx⟩
    · intro haddr
      obtain ⟨harmed, hfired⟩ := h.stopped hs ht' haddr
      refine ⟨fun hp => absurd hp harmed, ?_⟩
      rintro (hp | hp) _
      · exact absurd hp harmed
      · exact absurd (hfired hp) hok
    · refine h.keep [.reuse s.addr] (stopTimer_later ht') hx ?_
      have : s.addr ≠ x.addr := fun heq => hne (h.base.host_inj hx hs heq.symm)
      simpa [Event.touches] using this

theorem step_attach (h : GraceInv st) {host : GoString} {s : RbiSession} {now : Int}
    {handlers : List Handler} (hb : Base st') (hs : st.byHost.lookup host = some s)
    (hst' : st' = { rbiViewerAttach st host s now with handlers := handlers }) :
    GraceInv st' := by
  refine ⟨hb, ?_, ?_⟩
  · rw [hst']
    exact graceSafe_append [.attach s.addr] h.safe (by simp)
  · subst hst'
    intro j t' host' x ht' hx
    rcases GoMap.of_lookup_insert hx with ⟨rfl, rfl⟩ | ⟨hne, hx⟩
    · intro haddr
      obtain ⟨harmed, -⟩ := h.stopped hs ht' haddr
      exact ⟨fun hp => absurd hp harmed, fun _ hv => absurd hv (Nat.succ_ne_zero _)⟩
    · refine h.keep [.attach s.addr] (stopTimer_later ht') hx ?_
      have : s.addr ≠ x.addr := fun heq => hne (h.base.host_inj hx hs heq.symm)
      simpa [Event.touches] using this

theorem step_detach (h : GraceInv st) {host : GoString} {s : RbiSession} {grace : Nat}
    {handlers : List Handler} (hb : Base st') (hs : st.byHost.lookup host = some s)
    (hok : 0 < grace → s.viewers ≤ 1 → ¬ Waiting st s.addr)
    (hst' : st' = { rbiViewerDetach st host s grace with handlers := handlers }) :
    GraceInv st' := by
  subst hst'
  have hother : ∀ {host' x}, host' ≠ host → st.byHost.lookup host' = some x →
      s.addr ≠ x.addr := fun hne hx heq => hne (h.base.host_inj hx hs heq.symm)
  revert hb
  simp only [rbiViewerDetach]
  split
  · -- other viewers are left
    rename_i hview
    intro hb
    refine ⟨hb, graceSafe_append [.detach s.addr] h.safe (by simp), ?_⟩
    intro j t' host' x ht' hx
    rcases GoMap.of_lookup_insert hx with ⟨rfl, rfl⟩ | ⟨hne, hx⟩
    · intro haddr
      refine ⟨fun hp => ?_, fun _ hv => ?_⟩
      · have := ((h.ok j t' host' s ht' hs haddr).1 hp).2
        omega
      · simp only at hv
        omega
    · refine h.keep [.detach s.addr] ⟨t', ht', .refl t'⟩ hx ?_
      simpa [Event.touches] using hother hne hx
  · rename_i hview
    split
    · -- removed at once
      intro hb
      refine ⟨hb, graceSafe_append
        [.remove .detach s.addr s.name (s.viewers - 1) true, .detach s.addr]
        h.safe (by simp), ?_⟩
      intro j t' host' x ht' hx
      obtain ⟨hne, hx⟩ := GoMap.of_lookup_erase hx
      refine h.keep
        [.remove .detach s.addr s.name (s.viewers - 1) true, .detach s.addr]
        ⟨t', ht', .refl t'⟩ hx ?_
      simpa [Event.touches] using hother hne hx
    · -- a new timer is armed
      rename_i hgrace
      intro hb
      refine ⟨hb, graceSafe_append [.arm st.timers.length s.addr, .detach s.addr]
        h.safe (by simp), ?_⟩
      intro j t' host' x ht' hx
      rcases Indexed.of_concat ht' with hold | ⟨rfl, rfl⟩
      · rcases GoMap.of_lookup_insert hx with ⟨rfl, rfl⟩ | ⟨hne, hx⟩
        · intro haddr
          obtain ⟨harmed, hfired⟩ := h.stopped hs hold haddr
          refine ⟨fun hp => absurd hp harmed, ?_⟩
          rintro (hp | hp) _
          · exact absurd hp harmed
          · exact absurd (hfired hp) (hok (by omega) (by omega))
        · refine h.keep [.arm st.timers.length s.addr, .detach s.addr]
            (stopTimer_later hold) hx ?_
          simpa [Event.touches] using hother hne hx
      · intro haddr
        rcases GoMap.of_lookup_insert hx with ⟨rfl, rfl⟩ | ⟨hne, hx⟩
        · rw [length_stopTimer]
          refine ⟨fun _ => ⟨rfl, ?_⟩, fun _ _ => untouched_armed⟩
          simp only
          omega
        · exact absurd haddr.symm (hother hne hx)

theorem step_register (h : GraceInv st) {i : Nat} {c : Call} {s : RbiSession}
    (hb : Base st') (hc : st.calls[i]? = some c) (hpc : c.pc = .register)
    (hs : c.s = some s)
    (hst' : st' = { st with
      byHost := st.byHost.insert c.host s
      calls := st.calls.set i { c with pc := .startGC, result := some i } }) :
    GraceInv st' := by
  subst hst'
  refine ⟨hb, h.safe, ?_⟩
  intro j t host x ht hx
  rcases GoMap.of_lookup_insert hx with ⟨rfl, rfl⟩ | ⟨hne, hx⟩
  · intro haddr
    obtain ⟨haddr', -⟩ := (h.base.wf i c hc).session x hs
    obtain ⟨port, d, hd, hres, -⟩ := h.base.timers j t ht
    rw [← haddr, haddr'] at hd hres
    obtain rfl := Option.some.inj (hc.symm.trans hd)
    rw [(h.base.wf i c hc).result_none (by rw [hpc]; decide)] at hres
    cases hres
  · exact h.ok j t host x ht hx

/-- The callback removes a session nothing has happened to. -/
theorem step_expire (h : GraceInv st) {i : Nat} {t : Timer} {cur : RbiSession} (hb : Base st')
    (ht : st.timers[i]? = some t) (hp : t.phase = .fired)
    (hcur : st.byHost.lookup t.host = some cur) (haddr : cur.addr = t.sess)
    (hview : cur.viewers = 0)
    (hst' : st' = { st with
      byHost := st.byHost.erase t.host
      timers := st.timers.set i { t with phase := .ran }
      pending := st.pending ++ [⟨.timer i, t.name⟩]
      log := .remove (.timer i) t.sess t.name cur.viewers true :: st.log }) :
    GraceInv st' := by
  subst hst'
  refine ⟨hb, graceSafe_cons h.safe ?_, ?_⟩
  · intro t₂ a name viewers running heq
    obtain ⟨⟨rfl⟩, rfl, -⟩ := Event.remove.inj heq
    rw [← haddr]
    exact (h.ok i t t.host cur ht hcur haddr).2 (.inr hp) hview
  · intro j t' host x ht' hx
    obtain ⟨hne, hx⟩ := GoMap.of_lookup_erase hx
    refine h.keep [.remove (.timer i) t.sess t.name cur.viewers true] ?_ hx
      (by simp [Event.touches])
    rcases Indexed.of_set ht' with ⟨rfl, rfl⟩ | ⟨-, ht'⟩
    · exact ⟨t, ht, Timer.later_ran hp⟩
    · exact ⟨t', ht', .refl t'⟩

theorem step_gc (h : GraceInv st) {now ttl : Int} {running : GoString → Bool}
    (hb : Base (gcPass st now ttl running)) : GraceInv (gcPass st now ttl running) := by
  refine ⟨hb, ?_, ?_⟩
  · refine graceSafe_append _ h.safe ?_
    intro e he t a name viewers run heq
    obtain ⟨s, -, rfl⟩ := List.mem_map.mp he
    cases heq
  · intro j t' host x ht' hx
    refine h.keep _ (foldl_stopTimer_later ht') (GoMap.lookup_filterVal.mp hx).1 ?_
    intro e he
    obtain ⟨s, -, rfl⟩ := List.mem_map.mp he
    rfl

theorem step_timer (h : GraceInv st) {i : Nat} {t t' : Timer} (hb : Base st')
    (ht : st.timers[i]? = some t) (hl : Timer.Later t t')
    (hst' : st' = { st with timers := st.timers.set i t' }) : GraceInv st' := by
  subst hst'
  refine ⟨hb, h.safe, ?_⟩
  intro j t₂ host x ht₂ hx
  refine h.keep [] ?_ hx (by simp)
  rcases Indexed.of_set ht₂ with ⟨rfl, rfl⟩ | ⟨-, ht₂⟩
  · exact ⟨t, ht, hl⟩
  · exact ⟨t₂, ht₂, .refl t₂⟩

theorem step (h : GraceInv st) {a : Act} (hok : GraceOk st a) (hs : Step cfg st a st') :
    GraceInv st' := by
  have hb := h.base.step hs
  cases hs with
  | reuse hc hpc hs => exact h.step_reuse hb hs (hok rfl _ _ hc hs) rfl
  | abort hc hpc => exact h.frame hb [_] rfl rfl rfl (by simp)
  | register hc hpc hs => exact h.step_register hb hc hpc hs rfl
  | wsAttach hdest hs hport => exact h.step_attach hb hs rfl
  | wsDetach hh hlive hatt hport hs =>
      exact h.step_detach hb hs (fun hg hv => hok hg _ _ rfl hs hv) rfl
  | fire ht hp => exact h.step_timer hb ht (Timer.later_fire hp) rfl
  | stale ht hp => exact h.step_timer hb ht (Timer.later_ran hp) rfl
  | expire ht hp hcur haddr hview => exact h.step_expire hb ht hp hcur haddr hview rfl
  | gc => exact h.step_gc hb
  | teardown hp => exact h.frame hb [_] rfl rfl rfl (by simp)
  | _ => exact h.frame hb [] rfl rfl rfl (by simp)

theorem init : GraceInv init where
  base := .init
  safe := by intro newer older t a name viewers running h; simp [Rbi.init] at h
  ok := by intro i t host x h; simp [Rbi.init] at h

end GraceInv

/-- In every run without a reuse or a last detach while a callback waits, no
grace timer removes a session that was touched after it was armed. -/
theorem grace_safe (h : Reach (step cfg) GraceOk init st) : GraceSafe st.log :=
  (h.invariant .init fun hi hok hs => GraceInv.step hi hok (step_cases hs)).safe

/-- A viewer comes and goes, and the grace timer fires. -/
def graceActs : List Act :=
  launchActs 0 1 2 3 ++ readyActs 0 ++
    ([.wsOpen (.session 0) (some exampleHost) 0, .wsClose 0 (some exampleHost) 2000,
      .fire 0] : List Act)

/-- Enough for `GraceOk`: no callback waits when a call or a handler moves. -/
def noWaiting (st : State) : Act → Bool
  | .check _ _ _ | .wsClose _ _ _ => st.timers.all fun t => t.phase ≠ .fired
  | _ => true

theorem graceOk_of_noWaiting {a : Act} (h : noWaiting st a = true) : GraceOk st a := by
  have hno : (st.timers.all fun t => t.phase ≠ .fired) = true → ∀ b, ¬ Waiting st b := by
    rintro hall b ⟨i, t, ht, -, hp⟩
    have := List.all_eq_true.mp hall t (List.mem_of_getElem? ht)
    simp [hp] at this
  cases a with
  | check i running now => exact fun _ c s _ _ => hno h s.addr
  | wsClose i pick grace => exact fun _ host s _ _ _ => hno h s.addr
  | _ => exact True.intro

/-- The timer of a session nobody came back to removes it. -/
theorem grace_safe_idle : ∃ st, Reach (step exampleConfig) GraceOk init st
    ∧ st.log.head? = some (.remove (.timer 0) 0 (lit "rbi-sess-1-7") 0 true)
    ∧ GraceSafe st.log := by
  have hrun : (runs (step exampleConfig) noWaiting (graceActs ++ ([.expire 0] : List Act)) init).map
      (fun st => st.log.head?)
      = some (some (.remove (.timer 0) 0 (lit "rbi-sess-1-7") 0 true)) := by decide +kernel
  obtain ⟨st, hst, hlog⟩ := Option.map_eq_some_iff.mp hrun
  have hreach := reach_of_runs graceOk_of_noWaiting .init hst
  exact ⟨st, hreach, hlog, grace_safe hreach⟩

def positiveGrace (_ : State) : Act → Bool
  | .wsClose _ _ grace => 0 < grace
  | _ => true

/-- The timer fires, a request reuses the session before the callback gets
`rbiMu`, and the callback removes the session all the same. -/
theorem not_graceSafe : ¬ ∀ st,
    Reach (step exampleConfig) (fun st a => positiveGrace st a = true) init st →
      GraceSafe st.log := by
  intro h
  have hrun : (runs (step exampleConfig) positiveGrace
      (graceActs ++
        ([.call exampleURL, .launchLock 1, .lock 1, .check 1 true 1, .expire 0] : List Act))
      init).map (fun st => st.log)
      = some [.remove (.timer 0) 0 (lit "rbi-sess-1-7") 0 true, .reuse 0, .arm 0 0, .detach 0,
          .attach 0] := by decide +kernel
  obtain ⟨st, hst, hlog⟩ := Option.map_eq_some_iff.mp hrun
  have hsafe := h st (reach_of_runs id .init hst)
  have htouched := hsafe [] _ 0 0 _ 0 true hlog (.reuse 0) (by decide)
  cases htouched

end Rbi

end RbiProxy
