import RbiProxy.Reach

/-!
# The feeder of the camera relay

`camrelay.py` keeps one `ffmpeg` whose standard input it feeds with frames.
`write_frame` runs in threads of an executor: it reads the process out of `_FEED`,
waits for the lock and writes, and a write that fails sets `_FEED["broken"]`. The
thread of the event loop runs everything else, one coroutine at a time:
`feeder_watchdog` calls `start_feeder` when `feed_alive` denies, and that kills what
there is and stores a new process.

The flag does not say which process it is about. A thread that read the old process
before a restart fails on it afterwards, and the watchdog then kills the new one
(`stale_write_kills`). `restart_justified` says which assignments of the flag are
harmless: those for the process still stored, those while the stored one is dead or
has failed a write itself, and those that `start_feeder` is about to undo. From any
other, a tick of the watchdog leads to the restart of a healthy feeder.

Processes are numbered as they are started. Whether a write fails, a command can be
run and when a process exits are up to the environment; frames come at any time, as
there may be any number of connections.
-/

namespace RbiProxy

namespace CamRelay

/-! ## The threads -/

inductive Writer where
  /-- `p = _FEED["proc"]`. -/
  | readProc
  /-- `with _WLOCK`. -/
  | acquire (p : Nat)
  /-- `p.stdin.write(data); p.stdin.flush()`. -/
  | write (p : Nat)
  /-- `_FEED["broken"] = True`, as the write to `p` has failed. -/
  | flag (p : Nat)
  /-- The lock is given back. -/
  | release
  | done
deriving DecidableEq

/-- Who calls `feed_alive`. -/
inductive Caller where
  | idleBlackWriter
  | feederWatchdog
deriving DecidableEq

/-- Where the thread of the event loop stands. In `start_feeder`, `restart` tells the
watchdog from the start of the application. -/
inductive Loop where
  /-- All coroutines wait. -/
  | awaits
  /-- `p = _FEED["proc"]` of `feed_alive`. -/
  | readProc (caller : Caller)
  /-- `p.poll() is None`. -/
  | poll (caller : Caller) (p : Nat)
  /-- `not _FEED["broken"]`. -/
  | readBroken (caller : Caller)
  /-- `pkill` of `start_feeder`, which has been called. -/
  | pkill (restart : Bool)
  /-- `subprocess.Popen`. -/
  | popen (restart : Bool)
  /-- `_FEED["proc"] = p`. -/
  | setProc (p : Nat)
  /-- `_FEED["broken"] = False`. -/
  | clearBroken
  /-- The application could not start its feeder. -/
  | ended
deriving DecidableEq

structure State where
  /-- `_FEED["proc"]`. -/
  proc : Option Nat := none
  /-- `_FEED["broken"]`. -/
  broken : Bool := false
  /-- `_LIVE["n"]`. -/
  live : Nat := 0
  /-- The thread that has `_WLOCK`. -/
  lock : Option Nat := none
  loop : Loop := .pkill false
  /-- The calls of `write_frame`. -/
  writers : List Writer := []
  /-- Processes started so far. -/
  started : Nat := 0
  exited : List Nat := []
  /-- Processes that a write has failed on. -/
  failed : List Nat := []
  /-- Processes that were alive and stored in `_FEED` when `pkill` ran. -/
  killed : List Nat := []

inductive Event where
  /-- A live camera connects. -/
  | connect
  | disconnect
  /-- A frame of a live camera. -/
  | frame
  /-- `idle_black_writer` wakes up; `silent` says that the last frame is more than
  five seconds old. -/
  | idleWakes (silent : Bool)
  | watchdogWakes
  /-- The next statement of the event loop's thread; `ok` says whether the command
  it runs can be run. -/
  | run (ok : Bool)
  /-- The next statement of a call of `write_frame`; `ok` says whether the write
  succeeds. -/
  | write (i : Nat) (ok : Bool)
  /-- A process exits. -/
  | exit (p : Nat)

namespace State

variable (blackJpeg : Bool)

/-- `run_in_executor(None, write_frame, ...)`. -/
def submit (s : State) : State := { s with writers := s.writers ++ [.readProc] }

/-- What follows `feed_alive`. There is a black frame to write if `BLACK_JPEG` is not
empty. -/
def decided (s : State) (alive : Bool) : Caller → State
  | .idleBlackWriter =>
    let s := { s with loop := .awaits }
    if alive && blackJpeg then s.submit else s
  | .feederWatchdog => { s with loop := if alive then .awaits else .pkill true }

/-- The processes `pkill` takes from under `_FEED`. -/
def victims (s : State) : List Nat :=
  match s.proc with
  | some p => if p ∈ s.exited then [] else [p]
  | none => []

/-- The next statement of the event loop's thread. -/
def runLoop (s : State) (ok : Bool) : Loop → Option State
  | .readProc caller =>
    match s.proc with
    | some p => some { s with loop := .poll caller p }
    | none => some (s.decided blackJpeg false caller)
  | .poll caller p =>
    if p ∈ s.exited then some (s.decided blackJpeg false caller)
    else some { s with loop := .readBroken caller }
  | .readBroken caller => some (s.decided blackJpeg (!s.broken) caller)
  | .pkill restart =>
    some { s with
      killed := if ok then s.victims ++ s.killed else s.killed
      loop := .popen restart }
  | .popen restart =>
    if ok then some { s with started := s.started + 1, loop := .setProc s.started }
    else some { s with loop := if restart then .awaits else .ended }
  | .setProc p => some { s with proc := some p, loop := .clearBroken }
  | .clearBroken => some { s with broken := false, loop := .awaits }
  | .awaits | .ended => none

def moves (s : State) (i : Nat) (w : Writer) : State := { s with writers := s.writers.set i w }

def runWriter (s : State) (i : Nat) (ok : Bool) : Writer → Option State
  | .readProc =>
    match s.proc with
    | some p => some (s.moves i (.acquire p))
    | none => some (s.moves i .done)
  | .acquire p =>
    if s.lock = none then some ({ s with lock := some i }.moves i (.write p)) else none
  | .write p =>
    if ok then some (s.moves i .release)
    else some ({ s with failed := p :: s.failed }.moves i (.flag p))
  | .flag _ => some ({ s with broken := true }.moves i .release)
  | .release => some ({ s with lock := none }.moves i .done)
  | .done => none

/-- One step. The coroutines wake up when the thread of the event loop is free. -/
def step (s : State) : Event → Option State
  | .connect => if s.loop = .awaits then some { s with live := s.live + 1 } else none
  | .disconnect => if s.loop = .awaits then some { s with live := s.live - 1 } else none
  | .frame => if s.loop = .awaits ∧ 0 < s.live then some s.submit else none
  | .idleWakes silent =>
    if s.loop = .awaits then
      if s.live = 0 ∨ silent then some { s with loop := .readProc .idleBlackWriter } else some s
    else none
  | .watchdogWakes =>
    if s.loop = .awaits then some { s with loop := .readProc .feederWatchdog } else none
  | .run ok => s.runLoop blackJpeg ok s.loop
  | .write i ok =>
    match s.writers[i]? with
    | some w => s.runWriter i ok w
    | none => none
  | .exit p => if p < s.started then some { s with exited := p :: s.exited } else none

/-! ## Restarts -/

/-- The process stored in `_FEED`, if there is one, has exited or failed a write. -/
def spent (s : State) : Bool := s.proc.all fun p => p ∈ s.exited || p ∈ s.failed

/-- No healthy feeder is restarted: `start_feeder` is called when the stored process
is spent, and one that is killed has failed a write of its own. -/
structure Justified (s : State) : Prop where
  called : ∀ {restart}, s.loop = .pkill restart → s.spent = true
  killed : ∀ p ∈ s.killed, p ∈ s.failed

end State

/-- The flag is set for the process that is stored, or while that one is spent, or
when `start_feeder` is about to clear it. -/
def flagsStored (s : State) : Event → Bool
  | .write i _ =>
    match s.writers[i]? with
    | some (.flag p) => s.proc == some p || s.spent || s.loop == .clearBroken
    | _ => true
  | _ => true

/-! ## The invariant -/

/-- What is known of the stored process where the event loop's thread stands. -/
def State.Known (s : State) : Loop → Prop
  | .poll _ p => s.proc = some p
  | .pkill _ | .popen _ | .setProc _ | .ended => s.spent = true
  | _ => True

structure Inv (s : State) : Prop where
  /-- The flag is about the stored process, or about to be cleared. -/
  broken : s.broken = true → s.loop = .clearBroken ∨ s.spent = true
  flag : ∀ p, .flag p ∈ s.writers → p ∈ s.failed
  known : s.Known s.loop
  killed : ∀ p ∈ s.killed, p ∈ s.failed

section Moves

variable {blackJpeg : Bool} {s t : State}

theorem spent_iff :
    s.spent = true ↔ ∀ p, s.proc = some p → p ∈ s.exited ∨ p ∈ s.failed := by
  unfold State.spent
  cases s.proc with
  | none => simp
  | some p => simp

theorem spent_of_proc {p : Nat} (hproc : s.proc = some p) (h : p ∈ s.exited ∨ p ∈ s.failed) :
    s.spent = true := by
  refine spent_iff.mpr fun q hq => ?_
  obtain rfl : p = q := Option.some.inj (hproc.symm.trans hq)
  exact h

theorem Inv.justified (h : Inv s) : s.Justified where
  called := by
    intro restart hloop
    have hknown := h.known
    rw [hloop] at hknown
    exact hknown
  killed := h.killed

theorem Inv.counts (h : Inv s) (lock : Option Nat) (live started : Nat) :
    Inv { s with lock, live, started } :=
  ⟨h.broken, h.flag, h.known, h.killed⟩

theorem Inv.grows (h : Inv s) {exited failed : List Nat} (hexited : s.exited ⊆ exited)
    (hfailed : s.failed ⊆ failed) : Inv { s with exited, failed } := by
  have hspent : s.spent = true → { s with exited, failed : State }.spent = true := by
    intro hold
    refine spent_iff.mpr fun p hp => ?_
    rcases spent_iff.mp hold p hp with hmem | hmem
    · exact .inl (hexited hmem)
    · exact .inr (hfailed hmem)
  refine ⟨?_, fun p hp => hfailed (h.flag p hp), ?_, fun p hp => hfailed (h.killed p hp)⟩
  · exact fun hbroken => (h.broken hbroken).imp_right hspent
  · have hknown := h.known
    change State.Known _ s.loop
    cases hloop : s.loop with
    | awaits | readProc _ | readBroken _ | clearBroken => trivial
    | poll _ p =>
      rw [hloop] at hknown
      exact hknown
    | pkill _ | popen _ | setProc _ | ended =>
      rw [hloop] at hknown
      exact hspent hknown

/-- A thread moves, and sets the flag next only if its write has failed. -/
theorem Inv.moves (h : Inv s) (i : Nat) {w : Writer} (hw : ∀ p, w = .flag p → p ∈ s.failed) :
    Inv (s.moves i w) := by
  refine ⟨h.broken, fun p hp => ?_, h.known, h.killed⟩
  rcases List.mem_or_eq_of_mem_set hp with hold | heq
  · exact h.flag p hold
  · exact hw p heq.symm

theorem Inv.submit (h : Inv s) : Inv s.submit := by
  refine ⟨h.broken, fun p hp => ?_, h.known, h.killed⟩
  rcases List.mem_append.mp hp with hold | hnew
  · exact h.flag p hold
  · cases List.mem_singleton.mp hnew

/-- The event loop's thread goes on with neither assignment of `start_feeder` done. -/
theorem Inv.goesOn (h : Inv s) {loop : Loop} (hold : s.loop ≠ .clearBroken)
    (hknown : s.Known loop) : Inv { s with loop } := by
  refine ⟨fun hbroken => ?_, h.flag, ?_, h.killed⟩
  · exact .inr ((h.broken hbroken).resolve_left hold)
  · cases loop <;> exact hknown

/-- Only the watchdog draws a conclusion from a feeder that is not alive. -/
theorem Inv.decided (h : Inv s) {alive : Bool} {caller : Caller} (hold : s.loop ≠ .clearBroken)
    (hspent : alive = false → s.spent = true) : Inv (s.decided blackJpeg alive caller) := by
  cases caller with
  | idleBlackWriter =>
    have hawaits : Inv { s with loop := .awaits } := h.goesOn hold trivial
    rw [State.decided]
    split
    · exact hawaits.submit
    · exact hawaits
  | feederWatchdog =>
    cases alive with
    | true => exact h.goesOn hold trivial
    | false => exact h.goesOn hold (hspent rfl)

/-- The stored process that `pkill` finds alive is spent, so a write to it has failed. -/
theorem failed_of_victim (hspent : s.spent = true) {p : Nat} (hp : p ∈ s.victims) :
    p ∈ s.failed := by
  unfold State.victims at hp
  cases hproc : s.proc with
  | none =>
    rw [hproc] at hp
    cases hp
  | some q =>
    rw [hproc] at hp
    simp only at hp
    split at hp
    · cases hp
    · obtain rfl := List.mem_singleton.mp hp
      exact (spent_iff.mp hspent p hproc).resolve_left ‹_›

theorem inv_runLoop (h : Inv s) {ok : Bool} (hstep : s.runLoop blackJpeg ok s.loop = some t) :
    Inv t := by
  have hknown := h.known
  by_cases hold : s.loop = .clearBroken
  · -- whatever the flag said until now is forgotten
    rw [hold] at hstep
    obtain rfl := Option.some.inj hstep
    exact ⟨fun hbroken => (by cases hbroken), h.flag, trivial, h.killed⟩
  cases hloop : s.loop with
  | awaits | ended =>
    rw [hloop] at hstep
    cases hstep
  | readProc caller =>
    rw [hloop, State.runLoop] at hstep
    split at hstep
    case h_1 p hproc =>
      obtain rfl := Option.some.inj hstep
      have hstored : s.Known (.poll caller p) := hproc
      exact h.goesOn hold hstored
    case h_2 hproc =>
      obtain rfl := Option.some.inj hstep
      refine h.decided hold fun _ => spent_iff.mpr fun p hp => ?_
      rw [hproc] at hp
      cases hp
  | poll caller p =>
    -- only this thread assigns `proc`, so the process that is polled is still stored
    rw [hloop] at hknown
    rw [hloop, State.runLoop] at hstep
    split at hstep
    case isTrue hexited =>
      obtain rfl := Option.some.inj hstep
      exact h.decided hold fun _ => spent_of_proc hknown (.inl hexited)
    case isFalse =>
      obtain rfl := Option.some.inj hstep
      exact h.goesOn hold trivial
  | readBroken caller =>
    rw [hloop] at hstep
    obtain rfl := Option.some.inj hstep
    refine h.decided hold fun hdead => (h.broken ?_).resolve_left hold
    simpa using hdead
  | pkill restart =>
    rw [hloop] at hknown hstep
    obtain rfl := Option.some.inj hstep
    have hon : Inv { s with loop := .popen restart } := h.goesOn hold hknown
    refine ⟨hon.broken, hon.flag, hon.known, fun p hp => ?_⟩
    simp only at hp
    split at hp
    · rcases List.mem_append.mp hp with hvictim | hearlier
      · exact failed_of_victim hknown hvictim
      · exact h.killed p hearlier
    · exact h.killed p hp
  | popen restart =>
    rw [hloop] at hknown
    rw [hloop, State.runLoop] at hstep
    split at hstep
    · obtain rfl := Option.some.inj hstep
      have hon : Inv { s with loop := .setProc s.started } := h.goesOn hold hknown
      exact hon.counts s.lock s.live (s.started + 1)
    · obtain rfl := Option.some.inj hstep
      cases restart with
      | true => exact h.goesOn hold trivial
      | false => exact h.goesOn hold hknown
  | setProc p =>
    -- a flag that is still set is about the process before, but is cleared next
    rw [hloop] at hstep
    obtain rfl := Option.some.inj hstep
    exact ⟨fun _ => .inl rfl, h.flag, trivial, h.killed⟩
  | clearBroken => exact absurd hloop hold

theorem inv_runWriter (h : Inv s) {i : Nat} {ok : Bool} {w : Writer}
    (hi : s.writers[i]? = some w)
    (hflag : ∀ p, w = .flag p → s.proc = some p ∨ s.spent = true ∨ s.loop = .clearBroken)
    (hstep : s.runWriter i ok w = some t) : Inv t := by
  cases w with
  | readProc =>
    rw [State.runWriter] at hstep
    cases hproc : s.proc with
    | some p =>
      rw [hproc] at hstep
      obtain rfl := Option.some.inj hstep
      exact h.moves i fun q heq => (by cases heq)
    | none =>
      rw [hproc] at hstep
      obtain rfl := Option.some.inj hstep
      exact h.moves i fun q heq => (by cases heq)
  | acquire p =>
    rw [State.runWriter] at hstep
    split at hstep
    · obtain rfl := Option.some.inj hstep
      exact (h.counts (some i) s.live s.started).moves i fun q heq => (by cases heq)
    · cases hstep
  | write p =>
    rw [State.runWriter] at hstep
    split at hstep
    · obtain rfl := Option.some.inj hstep
      exact h.moves i fun q heq => (by cases heq)
    · obtain rfl := Option.some.inj hstep
      have hfails : Inv { s with failed := p :: s.failed } :=
        h.grows (List.Subset.refl _) (List.subset_cons_self _ _)
      refine hfails.moves i fun q heq => ?_
      obtain rfl := Writer.flag.inj heq
      exact List.mem_cons_self
  | flag p =>
    obtain rfl := Option.some.inj hstep
    have hbroken : s.loop = .clearBroken ∨ s.spent = true := by
      rcases hflag p rfl with hproc | hspent | hclear
      · have hfailed := h.flag p (List.mem_of_getElem? hi)
        exact .inr (spent_of_proc hproc (.inr hfailed))
      · exact .inr hspent
      · exact .inl hclear
    have hset : Inv { s with broken := true } := ⟨fun _ => hbroken, h.flag, h.known, h.killed⟩
    exact hset.moves i fun q heq => (by cases heq)
  | release =>
    obtain rfl := Option.some.inj hstep
    exact (h.counts none s.live s.started).moves i fun q heq => (by cases heq)
  | done => cases hstep

theorem flagsStored_write {i : Nat} {ok : Bool} {p : Nat} (hi : s.writers[i]? = some (.flag p)) :
    flagsStored s (.write i ok) = true
      ↔ s.proc = some p ∨ s.spent = true ∨ s.loop = .clearBroken := by
  simp [flagsStored, hi, or_assoc]

theorem inv_step {e : Event} (h : Inv s) (hok : flagsStored s e = true)
    (hstep : s.step blackJpeg e = some t) : Inv t := by
  cases e with
  | connect | disconnect =>
    rw [State.step] at hstep
    split at hstep
    · obtain rfl := Option.some.inj hstep
      exact h.counts s.lock _ s.started
    · cases hstep
  | frame =>
    rw [State.step] at hstep
    split at hstep
    · obtain rfl := Option.some.inj hstep
      exact h.submit
    · cases hstep
  | idleWakes silent =>
    rw [State.step] at hstep
    split at hstep
    case isTrue hawaits =>
      split at hstep
      · obtain rfl := Option.some.inj hstep
        exact h.goesOn (by simp [hawaits]) trivial
      · obtain rfl := Option.some.inj hstep
        exact h
    case isFalse => cases hstep
  | watchdogWakes =>
    rw [State.step] at hstep
    split at hstep
    case isTrue hawaits =>
      obtain rfl := Option.some.inj hstep
      exact h.goesOn (by simp [hawaits]) trivial
    case isFalse => cases hstep
  | run ok => exact inv_runLoop h hstep
  | write i ok =>
    rw [State.step] at hstep
    split at hstep
    case h_1 w hi =>
      refine inv_runWriter h hi (fun p heq => ?_) hstep
      subst heq
      exact (flagsStored_write hi).mp hok
    case h_2 => cases hstep
  | exit p =>
    rw [State.step] at hstep
    split at hstep
    · obtain rfl := Option.some.inj hstep
      exact h.grows (List.subset_cons_self _ _) (List.Subset.refl _)
    · cases hstep

theorem inv_init : Inv {} where
  broken := fun h => (by cases h)
  flag := fun p hp => (by cases hp)
  known := rfl
  killed := fun p hp => (by cases hp)

end Moves

/-! ## What follows a flag that is about another process -/

/-- A run from here restarts a healthy feeder. -/
def Fatal (blackJpeg : Bool) (s : State) : Prop :=
  ∃ t, Reach (State.step blackJpeg) anyStep s t ∧ ¬ t.Justified

/-- The stored process is healthy, and the flag is set. -/
structure Marked (p : Nat) (s : State) : Prop where
  proc : s.proc = some p
  broken : s.broken = true
  alive : p ∉ s.exited
  unfailed : p ∉ s.failed

/-- Where `caller` goes on when `feed_alive` denies. -/
def Caller.afterDead : Caller → Loop
  | .idleBlackWriter => .awaits
  | .feederWatchdog => .pkill true

/-- A marked feeder that `caller` takes for dead is restarted in the end. -/
def Dead (blackJpeg : Bool) (p : Nat) (caller : Caller) : Prop :=
  ∀ s, Marked p s → s.loop = caller.afterDead → Fatal blackJpeg s

section Stages

variable {blackJpeg : Bool} {p : Nat} {caller : Caller} {s t : State}

theorem Marked.goesOn (h : Marked p s) (loop : Loop) : Marked p { s with loop } :=
  ⟨h.proc, h.broken, h.alive, h.unfailed⟩

theorem Marked.not_spent (h : Marked p s) : ¬ s.spent = true := by
  intro hspent
  rcases spent_iff.mp hspent p h.proc with hexited | hfailed
  · exact h.alive hexited
  · exact h.unfailed hfailed

theorem fatal_of_step (e : Event) (hstep : s.step blackJpeg e = some t) (h : Fatal blackJpeg t) :
    Fatal blackJpeg s := by
  obtain ⟨u, hreach, hu⟩ := h
  exact ⟨u, (Reach.next .init trivial hstep).trans hreach, hu⟩

/-- The restart of the watchdog itself is the unjustified one. -/
theorem dead_feederWatchdog : Dead blackJpeg p .feederWatchdog :=
  fun t h hloop => ⟨t, .init, fun hjustified => h.not_spent (hjustified.called hloop)⟩

/-! The statements of `feed_alive`, from the last one back. -/

theorem fatal_readBroken (hdead : Dead blackJpeg p caller) (h : Marked p s)
    (hloop : s.loop = .readBroken caller) : Fatal blackJpeg s := by
  refine fatal_of_step (.run true) ?_ (hdead _ (h.goesOn caller.afterDead) rfl)
  cases caller <;>
    simp [State.step, State.runLoop, State.decided, Caller.afterDead, hloop, h.broken]

theorem fatal_poll (hdead : Dead blackJpeg p caller) (h : Marked p s)
    (hloop : s.loop = .poll caller p) : Fatal blackJpeg s := by
  refine fatal_of_step (.run true) ?_ (fatal_readBroken hdead (h.goesOn (.readBroken caller)) rfl)
  simp [State.step, State.runLoop, hloop, h.alive]

theorem fatal_readProc (hdead : Dead blackJpeg p caller) (h : Marked p s)
    (hloop : s.loop = .readProc caller) : Fatal blackJpeg s := by
  refine fatal_of_step (.run true) ?_ (fatal_poll hdead (h.goesOn (.poll caller p)) rfl)
  simp [State.step, State.runLoop, hloop, h.proc]

theorem fatal_awaits (h : Marked p s) (hloop : s.loop = .awaits) : Fatal blackJpeg s := by
  refine fatal_of_step .watchdogWakes ?_
    (fatal_readProc dead_feederWatchdog (h.goesOn (.readProc .feederWatchdog)) rfl)
  simp [State.step, hloop]

theorem dead (caller : Caller) : Dead blackJpeg p caller := by
  cases caller with
  | idleBlackWriter => exact fun t h hloop => fatal_awaits h hloop
  | feederWatchdog => exact dead_feederWatchdog

/-- With the invariant, a marked state is never inside `start_feeder`. -/
theorem Marked.fatal (h : Marked p s) (hknown : s.Known s.loop)
    (hloop : s.loop ≠ .clearBroken) : Fatal blackJpeg s := by
  cases hpc : s.loop with
  | awaits => exact fatal_awaits h hpc
  | readProc caller => exact fatal_readProc (dead caller) h hpc
  | poll caller q =>
    rw [hpc] at hknown
    obtain rfl : p = q := Option.some.inj (h.proc.symm.trans hknown)
    exact fatal_poll (dead caller) h hpc
  | readBroken caller => exact fatal_readBroken (dead caller) h hpc
  | pkill _ | popen _ | setProc _ | ended =>
    rw [hpc] at hknown
    exact absurd hknown h.not_spent
  | clearBroken => exact absurd hpc hloop

theorem fatal_of_flag (h : Inv s) {e : Event} (hflag : ¬ flagsStored s e = true)
    (hstep : s.step blackJpeg e = some t) : Fatal blackJpeg t := by
  cases e with
  | write i ok =>
    rw [State.step] at hstep
    split at hstep
    case h_2 => cases hstep
    case h_1 w hi =>
      cases w with
      | flag q =>
        rw [flagsStored_write hi] at hflag
        obtain ⟨-, hspent, hloop⟩ : s.proc ≠ some q ∧ ¬ s.spent = true ∧ s.loop ≠ .clearBroken := by
          simpa [not_or] using hflag
        obtain ⟨p, hproc, halive, hunfailed⟩ :
            ∃ p, s.proc = some p ∧ p ∉ s.exited ∧ p ∉ s.failed := by
          simpa [spent_iff] using hspent
        obtain rfl := Option.some.inj hstep
        exact Marked.fatal ⟨hproc, rfl, halive, hunfailed⟩ h.known hloop
      | _ => exact absurd (by simp [flagsStored, hi]) hflag
  | _ => exact absurd rfl hflag

end Stages

/-! ## Every run -/

/-- As long as the flag is only set for the stored process, every restart is justified.
The first time it is set for another while the stored one is healthy, a run goes on
from there to a restart that is not. -/
theorem restart_justified (blackJpeg : Bool) :
    (∀ s, Reach (State.step blackJpeg) (fun s e => flagsStored s e = true) {} s → s.Justified)
      ∧ ∀ s e t, Reach (State.step blackJpeg) (fun s e => flagsStored s e = true) {} s →
        ¬ flagsStored s e = true → s.step blackJpeg e = some t →
        ∃ u, Reach (State.step blackJpeg) anyStep t u ∧ ¬ u.Justified := by
  have hinv : ∀ s, Reach (State.step blackJpeg) (fun s e => flagsStored s e = true) {} s → Inv s :=
    fun s hreach => hreach.invariant inv_init inv_step
  constructor
  · exact fun s hreach => (hinv s hreach).justified
  · exact fun s e t hreach hflag hstep => fatal_of_flag (hinv s hreach) hflag hstep

def startFeeder : List Event := [.run true, .run true, .run true, .run true]

/-- The application starts its feeder, a camera connects, and the thread that writes
its first frame has read the process and has the lock. -/
def firstFrame : List Event :=
  startFeeder ++ [.connect, .frame, .write 0 true, .write 0 true]

/-- The feeder exits before the frame is written, and the watchdog replaces it. The
write fails. -/
def staleWrite : List Event :=
  firstFrame ++ [.exit 0, .watchdogWakes, .run true, .run true] ++ startFeeder
    ++ [.write 0 false]

/-- A write to the stored feeder fails and the watchdog replaces it. A frame that still
goes to the one before is the first step of the other kind. -/
theorem restart_justified_example :
    (∃ s, Reach (State.step true) (fun s e => flagsStored s e = true) {} s ∧ s.killed = [0]
        ∧ s.proc = some 1 ∧ s.Justified)
      ∧ ∃ s t, Reach (State.step true) (fun s e => flagsStored s e = true) {} s
        ∧ ¬ flagsStored s (.write 0 true) = true ∧ s.step true (.write 0 true) = some t
        ∧ ∃ u, Reach (State.step true) anyStep t u ∧ ¬ u.Justified := by
  constructor
  · have hrun : (runs (State.step true) flagsStored (firstFrame ++ ([.write 0 false, .write 0 true,
        .watchdogWakes, .run true, .run true, .run true] : List Event) ++ startFeeder) {}).map
        (fun s => (s.killed, s.proc)) = some ([0], some 1) := by decide +kernel
    obtain ⟨s, hs, hview⟩ := Option.map_eq_some_iff.mp hrun
    obtain ⟨hkilled, hproc⟩ := Prod.mk.inj hview
    have hreach : Reach (State.step true) (fun s e => flagsStored s e = true) {} s :=
      reach_of_runs id .init hs
    exact ⟨s, hreach, hkilled, hproc, (restart_justified true).1 s hreach⟩
  · have hrun : (runs (State.step true) flagsStored staleWrite {}).map
        (fun s => (flagsStored s (.write 0 true), (s.step true (.write 0 true)).isSome))
        = some (false, true) := by decide +kernel
    obtain ⟨s, hs, hview⟩ := Option.map_eq_some_iff.mp hrun
    obtain ⟨hflag, hsome⟩ := Prod.mk.inj hview
    obtain ⟨t, hstep⟩ := Option.isSome_iff_exists.mp hsome
    have hreach : Reach (State.step true) (fun s e => flagsStored s e = true) {} s :=
      reach_of_runs id .init hs
    have hnot : ¬ flagsStored s (.write 0 true) = true := by simp [hflag]
    exact ⟨s, t, hreach, hnot, hstep, (restart_justified true).2 s _ t hreach hnot hstep⟩

/-- The failed write to the first feeder has the second one killed, on which no write
has failed. -/
theorem stale_write_kills : ¬ ∀ s, Reach (State.step true) anyStep {} s → s.Justified := by
  intro h
  have hrun : (runs (State.step true) (fun _ _ => true) (staleWrite ++ ([.write 0 true,
      .watchdogWakes, .run true, .run true, .run true, .run true] : List Event)) {}).map
      (fun s => (s.killed, s.failed)) = some ([1], [0]) := by decide +kernel
  obtain ⟨s, hs, hview⟩ := Option.map_eq_some_iff.mp hrun
  obtain ⟨hkilled, hfailed⟩ := Prod.mk.inj hview
  have hmem := (h s (reach_of_runs (fun _ => trivial) .init hs)).killed 1 (by simp [hkilled])
  simp [hfailed] at hmem

end CamRelay

end RbiProxy
