import RbiProxy.Reach

/-!
# Starting and stopping the DNS server

`DNSServerThread` runs `StartDNSServer` for every 1 it receives and `StopDNSServer`
for every 2, each in a goroutine of its own. They share the variables `server`,
`serverRunning` and `restartDnsSchedulerChan`, with no lock. A goroutine is where
it stands in its function (`StartPc`, `StopPc`), and each read or write of a shared
variable is a step of its own. Schedulers loop for ever, the listener of port 53
lasts until its socket fails, and `handleDNSRequest` looks at `serverRunning` once,
at its head. The port is bound at most once; a use of `server` while it is `nil`
ends the process.

A stop clears two variables and leaves the scheduler where it is, so the next start
makes a second one; and a stop that is overtaken by a start on its way finds nothing
to stop. If the messages come one at a time and no start comes after a stop that took
effect, neither happens (`single_of_serial`). The HTTP servers that are started
alongside have their own variables and are left out.
-/

namespace RbiProxy

namespace DnsThread

/-! ## The goroutines -/

inductive StartPc where
  /-- `server != nil`. -/
  | readServer
  /-- `serverRunning == true`. -/
  | readRunning
  /-- `restartDnsSchedulerChan <- true` of a server that is running. -/
  | restart
  | restarting (chan : Option Nat)
  /-- `restartDnsSchedulerChan = make(chan bool)`. -/
  | makeChan
  /-- `go RunScheduler(...)`. -/
  | goScheduler
  /-- `restartDnsSchedulerChan <- true` of a new scheduler. -/
  | announce
  | announcing (chan : Option Nat)
  /-- `serverRunning = true`. -/
  | setRunning
  /-- `server = &dns.Server{...}`. -/
  | newServer
  /-- `server.Handler = ...`. -/
  | setHandler
  /-- `server.ListenAndServe()`. -/
  | listenAndServe
  /-- Inside of it, before the port is bound. -/
  | binding (srv : Nat)
  | listening
  | done
deriving DecidableEq

inductive StopPc where
  /-- `server == nil`. -/
  | readServer
  /-- `serverRunning == false`. -/
  | readRunning
  /-- `serverRunning = false`. -/
  | clearRunning
  /-- `server = nil`. -/
  | clearServer
  | done
deriving DecidableEq

inductive Goroutine where
  | start (pc : StartPc)
  | stop (pc : StopPc)
deriving DecidableEq

/-- `RunScheduler`: the channel it was given, and whether it is in
`doInitialize`. -/
structure Scheduler where
  chan : Option Nat
  busy : Bool

structure State where
  /-- `server`, `none` for `nil`. -/
  server : Option Nat := none
  serverRunning : Bool := false
  restartChan : Option Nat := none
  /-- Channels and servers made so far. -/
  chans : Nat := 0
  servers : Nat := 0
  /-- The servers whose `ListenAndServe` has bound the port. -/
  started : List Nat := []
  /-- One for each message, in the order of the messages. -/
  goroutines : List Goroutine := []
  schedulers : List Scheduler := []
  /-- Questions whose handler waits for the mutex. -/
  waiting : Nat := 0
  /-- A handler has found the server running and is to answer. -/
  inHand : Bool := false
  crashed : Bool := false

inductive Event where
  /-- `DNSServerThread` receives a message. -/
  | receive (msg : Int)
  /-- The next statement of a goroutine; at `binding`, the port is not to be
  had. -/
  | run (i : Nat)
  /-- `ListenAndServe` binds the port. -/
  | bind (i : Nat)
  /-- The listener's socket fails. -/
  | fail (i : Nat)
  /-- The scheduler `k` receives what a goroutine sends. -/
  | handOver (k i : Nat)
  | tick (k : Nat)
  /-- `doInitialize` returns. -/
  | initialized (k : Nat)
  /-- The listener reads a question. -/
  | question
  /-- A handler has the mutex and looks at `serverRunning`. -/
  | check
  /-- The handler answers, and gives the mutex back. -/
  | reply

namespace State

def moves (s : State) (i : Nat) (g : Goroutine) : State :=
  { s with goroutines := s.goroutines.set i g }

/-- A panic nobody recovers. -/
def crash : State := { crashed := true }

def runStart (s : State) (i : Nat) : StartPc → Option State
  | .readServer => some (s.moves i (.start (if s.server.isSome then .restart else .readRunning)))
  | .readRunning => some (s.moves i (.start (if s.serverRunning then .restart else .makeChan)))
  | .restart => some (s.moves i (.start (.restarting s.restartChan)))
  | .makeChan =>
    some ({ s with restartChan := some s.chans, chans := s.chans + 1 }.moves i
      (.start .goScheduler))
  | .goScheduler =>
    some ({ s with schedulers := s.schedulers ++ [Scheduler.mk s.restartChan false] }.moves i
      (.start .announce))
  | .announce => some (s.moves i (.start (.announcing s.restartChan)))
  | .setRunning => some ({ s with serverRunning := true }.moves i (.start .newServer))
  | .newServer =>
    some ({ s with server := some s.servers, servers := s.servers + 1 }.moves i
      (.start .setHandler))
  | .setHandler =>
    match s.server with
    | some _ => some (s.moves i (.start .listenAndServe))
    | none => some crash
  | .listenAndServe =>
    match s.server with
    | some srv => some (s.moves i (.start (.binding srv)))
    | none => some crash
  | .binding _ => some (s.moves i (.start .done))
  | .restarting _ | .announcing _ | .listening | .done => none

def runStop (s : State) (i : Nat) : StopPc → Option State
  | .readServer => some (s.moves i (.stop (if s.server.isSome then .readRunning else .done)))
  | .readRunning => some (s.moves i (.stop (if s.serverRunning then .clearRunning else .done)))
  | .clearRunning => some ({ s with serverRunning := false }.moves i (.stop .clearServer))
  | .clearServer => some ({ s with server := none }.moves i (.stop .done))
  | .done => none

/-- A scheduler in its `select` receives from its channel. -/
def receives (s : State) (k : Nat) (chan : Option Nat) : Option State :=
  match s.schedulers[k]?, chan with
  | some sch, some c =>
    if sch.chan = some c ∧ sch.busy = false then
      some { s with schedulers := s.schedulers.set k { sch with busy := true } }
    else none
  | _, _ => none

/-- One step of a process that is alive. -/
def next (s : State) : Event → Option State
  | .receive msg =>
    if msg = 1 then some { s with goroutines := s.goroutines ++ [.start .readServer] }
    else if msg = 2 then some { s with goroutines := s.goroutines ++ [.stop .readServer] }
    else some s
  | .run i =>
    match s.goroutines[i]? with
    | some (.start pc) => s.runStart i pc
    | some (.stop pc) => s.runStop i pc
    | none => none
  | .bind i =>
    match s.goroutines[i]? with
    | some (.start (.binding srv)) =>
      if .start .listening ∈ s.goroutines ∨ srv ∈ s.started then none
      else some ({ s with started := srv :: s.started }.moves i (.start .listening))
    | _ => none
  | .fail i =>
    if s.goroutines[i]? = some (.start .listening) then some (s.moves i (.start .done)) else none
  | .handOver k i =>
    match s.goroutines[i]? with
    | some (.start (.restarting chan)) =>
      (s.receives k chan).map fun s => s.moves i (.start .done)
    | some (.start (.announcing chan)) =>
      (s.receives k chan).map fun s => s.moves i (.start .setRunning)
    | _ => none
  | .tick k =>
    match s.schedulers[k]? with
    | some sch =>
      if sch.busy then none
      else some { s with schedulers := s.schedulers.set k { sch with busy := true } }
    | none => none
  | .initialized k =>
    match s.schedulers[k]? with
    | some sch =>
      if sch.busy then
        some { s with schedulers := s.schedulers.set k { sch with busy := false } }
      else none
    | none => none
  | .question =>
    if .start .listening ∈ s.goroutines then some { s with waiting := s.waiting + 1 } else none
  | .check =>
    if 0 < s.waiting ∧ s.inHand = false then
      some { s with waiting := s.waiting - 1, inHand := s.serverRunning }
    else none
  | .reply => if s.inHand then some { s with inHand := false } else none

def step (s : State) (e : Event) : Option State := if s.crashed then none else s.next e

/-! ## One of each -/

/-- A stop is through, and no start came after it. -/
def Stopped (s : State) : Prop :=
  ∃ n : Nat, s.goroutines[n]? = some (.stop .done)
    ∧ ∀ (m : Nat) (pc : StartPc), n < m → s.goroutines[m]? ≠ some (.start pc)

/-- At most one scheduler and one listener are alive, and a server that was stopped
answers nothing. -/
structure Single (s : State) : Prop where
  schedulers : s.schedulers.length ≤ 1
  listeners : s.goroutines.count (.start .listening) ≤ 1
  silent : s.Stopped → s.inHand = false

end State

/-- A start that has neither found the server running nor set `server`. -/
def StartPc.underWay : StartPc → Bool
  | .readServer | .readRunning | .makeChan | .goScheduler | .announce | .announcing _
  | .setRunning | .newServer => true
  | .restart | .restarting _ | .setHandler | .listenAndServe | .binding _ | .listening
  | .done => false

namespace Goroutine

def starting : Goroutine → Bool
  | .start pc => pc.underWay
  | .stop _ => false

def active : Goroutine → Bool
  | .start pc => pc.underWay
  | .stop pc => pc != .done

end Goroutine

/-- The messages come one at a time. A start comes when nothing is under way, and
either nothing was started yet or the server has not been stopped; a stop comes when
no start is under way, and takes effect when no question is in hand. -/
def serial (s : State) : Event → Bool
  | .receive msg =>
    (msg != 1 || s.goroutines.all (fun g => !g.active)
      && (s.restartChan.isNone || s.server.isSome))
      && (msg != 2 || s.goroutines.all fun g => !g.starting)
  | .run i => s.goroutines[i]? != some (.stop .clearRunning) || !s.inHand
  | _ => true

/-! ## The invariant -/

/-- What a goroutine relies on where it stands. -/
def State.Relies (s : State) : Goroutine → Prop
  | .start .readServer => s.restartChan = none ∨ s.server.isSome = true
  | .start .readRunning => s.restartChan = none
  | .start .makeChan => s.schedulers = []
  | .start .goScheduler => s.schedulers = [] ∧ s.restartChan.isSome = true
  | .start .announce | .start (.announcing _) | .start .setRunning | .start .newServer =>
    s.restartChan.isSome = true
  | .stop .clearServer => s.serverRunning = false
  | _ => True

structure Inv (s : State) : Prop where
  schedulers : s.schedulers.length ≤ 1
  listeners : s.goroutines.count (.start .listening) ≤ 1
  inHand : s.inHand = true → s.serverRunning = true
  /-- Before the first channel is made there is nothing. -/
  fresh : s.restartChan = none → s.schedulers = [] ∧ s.server = none ∧ s.serverRunning = false
  /-- A start under way is the only goroutine under way. -/
  alone : ∀ {i j : Nat} {g g' : Goroutine}, s.goroutines[i]? = some g → g.starting = true →
    s.goroutines[j]? = some g' → g'.active = true → j = i
  relies : ∀ {i : Nat} {g : Goroutine}, s.goroutines[i]? = some g → s.Relies g
  /-- With no start under way, `server` is the last variable to be cleared. -/
  cleared : (∀ g ∈ s.goroutines, g.starting = false) → s.server = none → s.serverRunning = false
  stopped : s.Stopped → (∀ g ∈ s.goroutines, g.starting = false) ∧ s.serverRunning = false

theorem Inv.single {s : State} (h : Inv s) : s.Single := by
  refine ⟨h.schedulers, h.listeners, fun hstopped => ?_⟩
  obtain ⟨-, hrunning⟩ := h.stopped hstopped
  cases hhand : s.inHand with
  | false => rfl
  | true =>
    rw [h.inHand hhand] at hrunning
    cases hrunning

/-! ## A goroutine moves -/

/-- The goroutine stays in its function, and one that is through does not come back
under way. -/
structure Leads (g g' : Goroutine) : Prop where
  starts : ∀ {pc}, g = .start pc → ∃ pc', g' = .start pc'
  active : g'.active = true → g.active = true
  starting : g'.starting = true → g.starting = true

theorem active_of_starting {g : Goroutine} (h : g.starting = true) : g.active = true := by
  cases g with
  | start pc => exact h
  | stop pc => cases h

theorem relies_of_inactive {s : State} {g : Goroutine} (h : g.active = false) : s.Relies g := by
  cases g with
  | start pc => cases pc <;> trivial
  | stop pc => cases pc <;> trivial

section Move

variable {s t : State} {i : Nat} {g g' : Goroutine}

theorem goroutine_cases (ht : t.goroutines = s.goroutines.set i g') {j : Nat} {u : Goroutine}
    (hj : t.goroutines[j]? = some u) : (j = i ∧ u = g') ∨ (j ≠ i ∧ s.goroutines[j]? = some u) := by
  rw [ht, List.getElem?_set] at hj
  split at hj
  case isTrue hij =>
    split at hj
    · exact .inl ⟨hij.symm, (Option.some.inj hj).symm⟩
    · cases hj
  case isFalse hij => exact .inr ⟨Ne.symm hij, hj⟩

theorem goroutine_of_ne (ht : t.goroutines = s.goroutines.set i g') {j : Nat} (hji : j ≠ i) :
    t.goroutines[j]? = s.goroutines[j]? := by
  rw [ht, List.getElem?_set, if_neg (Ne.symm hji)]

theorem goroutine_self (hi : s.goroutines[i]? = some g)
    (ht : t.goroutines = s.goroutines.set i g') : t.goroutines[i]? = some g' := by
  obtain ⟨hlt, -⟩ := List.getElem?_eq_some_iff.mp hi
  rw [ht, List.getElem?_set, if_pos rfl, if_pos hlt]

/-- If no start is under way after a move of a goroutine that is none, none was
before. -/
theorem noneStarting_before (hi : s.goroutines[i]? = some g)
    (ht : t.goroutines = s.goroutines.set i g') (hg : g.starting = false)
    (h : ∀ u ∈ t.goroutines, u.starting = false) : ∀ u ∈ s.goroutines, u.starting = false := by
  intro u hu
  obtain ⟨j, hj⟩ := List.mem_iff_getElem?.mp hu
  by_cases hji : j = i
  · subst hji
    rw [hi] at hj
    exact Option.some.inj hj ▸ hg
  · exact h u (List.mem_iff_getElem?.mpr ⟨j, (goroutine_of_ne ht hji).trans hj⟩)

theorem noneStarting_after (ht : t.goroutines = s.goroutines.set i g') (hg : g'.starting = false)
    (h : ∀ u ∈ s.goroutines, u.starting = false) : ∀ u ∈ t.goroutines, u.starting = false := by
  intro u hu
  obtain ⟨j, hj⟩ := List.mem_iff_getElem?.mp hu
  rcases goroutine_cases ht hj with ⟨-, rfl⟩ | ⟨-, hold⟩
  · exact hg
  · exact h u (List.mem_iff_getElem?.mpr ⟨j, hold⟩)

/-- Where a goroutine of `StopDNSServer` is under way, no start is. -/
theorem Inv.noneStarting (h : Inv s) (hi : s.goroutines[i]? = some g) (hactive : g.active = true)
    (hg : g.starting = false) : ∀ u ∈ s.goroutines, u.starting = false := by
  intro u hu
  obtain ⟨j, hj⟩ := List.mem_iff_getElem?.mp hu
  refine Bool.eq_false_iff.mpr fun hstarting => ?_
  obtain rfl := h.alone hj hstarting hi hactive
  rw [hi] at hj
  obtain rfl := Option.some.inj hj
  rw [hg] at hstarting
  cases hstarting

theorem alone_move (h : Inv s) (hi : s.goroutines[i]? = some g)
    (ht : t.goroutines = s.goroutines.set i g') (hleads : Leads g g') {j k : Nat}
    {u u' : Goroutine} (hj : t.goroutines[j]? = some u) (hu : u.starting = true)
    (hk : t.goroutines[k]? = some u') (hu' : u'.active = true) : k = j := by
  rcases goroutine_cases ht hj with ⟨rfl, rfl⟩ | ⟨-, hjs⟩
  · rcases goroutine_cases ht hk with ⟨rfl, -⟩ | ⟨-, hks⟩
    · rfl
    · exact h.alone hi (hleads.starting hu) hks hu'
  · rcases goroutine_cases ht hk with ⟨rfl, rfl⟩ | ⟨-, hks⟩
    · exact h.alone hjs hu hi (hleads.active hu')
    · exact h.alone hjs hu hks hu'

/-- A move keeps what the others rely on, if it does for those that can be under way
beside it. -/
theorem relies_move (h : Inv s) (hi : s.goroutines[i]? = some g)
    (ht : t.goroutines = s.goroutines.set i g') (hself : t.Relies g')
    (hothers : ∀ u, (u.active = true → g.starting = false) →
      (u.starting = true → g.active = false) → s.Relies u → t.Relies u)
    {j : Nat} {u : Goroutine} (hj : t.goroutines[j]? = some u) : t.Relies u := by
  rcases goroutine_cases ht hj with ⟨-, rfl⟩ | ⟨hji, hjs⟩
  · exact hself
  · refine hothers u (fun hactive => ?_) (fun hstarting => ?_) (h.relies hjs)
    · exact Bool.eq_false_iff.mpr fun hg => hji (h.alone hi hg hjs hactive)
    · exact Bool.eq_false_iff.mpr fun hg => hji (h.alone hjs hstarting hi hg).symm

/-- A move that ends no stop leaves none stopped that was not. -/
theorem stopped_before (hi : s.goroutines[i]? = some g)
    (ht : t.goroutines = s.goroutines.set i g') (hleads : Leads g g') (hg' : g' ≠ .stop .done)
    (h : t.Stopped) : s.Stopped := by
  obtain ⟨n, hn, hlater⟩ := h
  rcases goroutine_cases ht hn with ⟨-, heq⟩ | ⟨-, hns⟩
  · exact absurd heq.symm hg'
  · refine ⟨n, hns, fun m pc hm hstart => ?_⟩
    by_cases hmi : m = i
    · subst hmi
      rw [hi] at hstart
      obtain ⟨pc', hpc'⟩ := hleads.starts (Option.some.inj hstart)
      exact hlater m pc' hm (hpc' ▸ goroutine_self hi ht)
    · exact hlater m pc hm ((goroutine_of_ne ht hmi).trans hstart)

theorem listeners_move (h : Inv s) (hi : s.goroutines[i]? = some g)
    (ht : t.goroutines = s.goroutines.set i g')
    (hg' : g' = .start .listening → .start .listening ∉ s.goroutines) :
    t.goroutines.count (.start .listening) ≤ 1 := by
  obtain ⟨hlt, -⟩ := List.getElem?_eq_some_iff.mp hi
  have hcount := h.listeners
  rw [ht, List.count_set hlt]
  by_cases hlistening : g' = .start .listening
  · have hnone := List.count_eq_zero.mpr (hg' hlistening)
    rw [if_pos (beq_iff_eq.mpr hlistening)]
    omega
  · rw [if_neg (mt beq_iff_eq.mp hlistening)]
    omega

/-- A goroutine moves, and some variables with it. -/
theorem Inv.move (h : Inv s) (hi : s.goroutines[i]? = some g)
    (ht : t.goroutines = s.goroutines.set i g') (hleads : Leads g g')
    (hlistening : g' = .start .listening → .start .listening ∉ s.goroutines)
    (hschedulers : t.schedulers.length ≤ 1)
    (hinHand : t.inHand = true → t.serverRunning = true)
    (hfresh : t.restartChan = none →
      t.schedulers = [] ∧ t.server = none ∧ t.serverRunning = false)
    (hself : t.Relies g')
    (hothers : ∀ u, (u.active = true → g.starting = false) →
      (u.starting = true → g.active = false) → s.Relies u → t.Relies u)
    (hcleared : g.starting = true ∨ (∀ u ∈ s.goroutines, u.starting = false) →
      g'.starting = false → t.server = none → t.serverRunning = false)
    (hrunning : s.serverRunning = false → g.starting = false → t.serverRunning = false)
    (hdone : g' = .stop .done → g.starting = false ∧ g.active = true
      ∧ ((∀ u ∈ s.goroutines, u.starting = false) → t.serverRunning = false)) : Inv t where
  schedulers := hschedulers
  listeners := listeners_move h hi ht hlistening
  inHand := hinHand
  fresh := hfresh
  alone := alone_move h hi ht hleads
  relies := relies_move h hi ht hself hothers
  cleared := by
    intro hnone
    have hg' := hnone g' (List.mem_iff_getElem?.mpr ⟨i, goroutine_self hi ht⟩)
    cases hg : g.starting with
    | true => exact hcleared (.inl hg) hg'
    | false => exact hcleared (.inr (noneStarting_before hi ht hg hnone)) hg'
  stopped := by
    intro hstopped
    by_cases hg' : g' = .stop .done
    · obtain ⟨hg, hactive, hstop⟩ := hdone hg'
      have hnone := h.noneStarting hi hactive hg
      exact ⟨noneStarting_after ht (by rw [hg']; rfl) hnone, hstop hnone⟩
    · obtain ⟨hnone, hoff⟩ := h.stopped (stopped_before hi ht hleads hg' hstopped)
      have hg := hnone g (List.mem_iff_getElem?.mpr ⟨i, hi⟩)
      refine ⟨noneStarting_after ht ?_ hnone, hrunning hoff hg⟩
      refine Bool.eq_false_iff.mpr fun hstarting => ?_
      rw [hleads.starting hstarting] at hg
      cases hg

theorem Inv.moves (h : Inv s) (hi : s.goroutines[i]? = some g) (hleads : Leads g g')
    (hlistening : g' = .start .listening → .start .listening ∉ s.goroutines)
    (hself : s.Relies g')
    (hcleared : g.starting = true → g'.starting = false → s.server = none →
      s.serverRunning = false)
    (hdone : g' = .stop .done → g.starting = false ∧ g.active = true
      ∧ ((∀ u ∈ s.goroutines, u.starting = false) → s.serverRunning = false)) :
    Inv (s.moves i g') := by
  refine h.move hi rfl hleads hlistening h.schedulers h.inHand h.fresh hself
    (fun _ _ _ hu => hu) ?_ (fun hoff _ => hoff) hdone
  rintro (hg | hnone) hg' hserver
  · exact hcleared hg hg' hserver
  · exact h.cleared hnone hserver

end Move

/-! ## Every step keeps it -/

section Step

variable {s t : State} {i : Nat}

/-- A start that is under way moves on, some variables with it. The others are not
under way and rely on nothing. -/
theorem Inv.starts (h : Inv s) {pc pc' : StartPc} (hi : s.goroutines[i]? = some (.start pc))
    (hpc : pc.underWay = true) (ht : t.goroutines = s.goroutines.set i (.start pc'))
    (hpc' : pc' ≠ .listening)
    (hschedulers : t.schedulers.length ≤ 1)
    (hinHand : t.inHand = true → t.serverRunning = true)
    (hfresh : t.restartChan = none →
      t.schedulers = [] ∧ t.server = none ∧ t.serverRunning = false)
    (hself : t.Relies (.start pc'))
    (hcleared : pc'.underWay = false → t.server = none → t.serverRunning = false) : Inv t := by
  refine h.move hi ht ⟨fun _ => ⟨pc', rfl⟩, fun _ => hpc, fun _ => hpc⟩ ?_ hschedulers hinHand
    hfresh hself ?_ (fun _ => hcleared) ?_ ?_
  · intro hlistening
    exact absurd (Goroutine.start.inj hlistening) hpc'
  · intro u hactive _ _
    refine relies_of_inactive (Bool.eq_false_iff.mpr fun hu => ?_)
    exact absurd hpc (Bool.eq_false_iff.mp (hactive hu))
  · intro _ hnot
    exact absurd hpc (Bool.eq_false_iff.mp hnot)
  · rintro ⟨⟩

/-- A start is through its guard or past `server`, and no variable changes with it. -/
theorem Inv.goesOn (h : Inv s) {pc pc' : StartPc} (hi : s.goroutines[i]? = some (.start pc))
    (hpc' : pc'.underWay = false)
    (hlistening : pc' = .listening → .start .listening ∉ s.goroutines)
    (hcleared : pc.underWay = true → s.server = none → s.serverRunning = false) :
    Inv (s.moves i (.start pc')) := by
  refine h.moves hi ⟨fun _ => ⟨pc', rfl⟩, fun hnot => ?_, fun hnot => ?_⟩ ?_
    (relies_of_inactive hpc') (fun hpc _ => hcleared hpc) ?_
  · exact absurd hnot (Bool.eq_false_iff.mp hpc')
  · exact absurd hnot (Bool.eq_false_iff.mp hpc')
  · exact fun heq => hlistening (Goroutine.start.inj heq)
  · rintro ⟨⟩

/-- A process that has not begun, or has ended. -/
theorem inv_empty (crashed : Bool) : Inv { crashed := crashed } where
  schedulers := Nat.zero_le _
  listeners := Nat.zero_le _
  inHand := fun h => (by cases h)
  fresh := fun _ => ⟨rfl, rfl, rfl⟩
  alone := fun h => (by cases h)
  relies := fun h => (by cases h)
  cleared := fun _ _ => rfl
  stopped := fun _ => ⟨fun g hg => (by cases hg), rfl⟩

theorem inv_runStart (h : Inv s) {pc : StartPc} (hi : s.goroutines[i]? = some (.start pc))
    (hstep : s.runStart i pc = some t) : Inv t := by
  have hrelies := h.relies hi
  cases pc with
  | readServer =>
    obtain rfl := Option.some.inj hstep
    cases hserver : s.server with
    | some srv =>
      refine h.goesOn hi rfl (fun heq => (by cases heq)) fun _ hnone => ?_
      rw [hserver] at hnone
      cases hnone
    | none =>
      refine h.starts hi rfl rfl (fun heq => (by cases heq)) h.schedulers h.inHand h.fresh ?_ ?_
      · -- a server that is gone was stopped, unless there never was one
        rcases hrelies with hchan | hsome
        · exact hchan
        · rw [hserver] at hsome
          cases hsome
      · rintro ⟨⟩
  | readRunning =>
    -- nothing was started before, so the guard lets the start through
    obtain rfl := Option.some.inj hstep
    obtain ⟨hschedulers, -, hoff⟩ := h.fresh hrelies
    rw [hoff]
    refine h.starts hi rfl rfl (fun heq => (by cases heq)) h.schedulers h.inHand h.fresh
      hschedulers ?_
    rintro ⟨⟩
  | restart =>
    obtain rfl := Option.some.inj hstep
    refine h.goesOn hi rfl (fun heq => (by cases heq)) ?_
    rintro ⟨⟩
  | makeChan =>
    obtain rfl := Option.some.inj hstep
    refine h.starts hi rfl rfl (fun heq => (by cases heq)) h.schedulers h.inHand ?_
      ⟨hrelies, rfl⟩ ?_
    · rintro ⟨⟩
    · rintro ⟨⟩
  | goScheduler =>
    obtain rfl := Option.some.inj hstep
    obtain ⟨hnone, hsome⟩ := hrelies
    refine h.starts hi rfl rfl (fun heq => (by cases heq)) ?_ h.inHand ?_ hsome ?_
    · change (s.schedulers ++ [_]).length ≤ 1
      rw [hnone]
      exact Nat.le_refl 1
    · intro hchan
      exact absurd hsome (by rw [show s.restartChan = none from hchan]; decide)
    · rintro ⟨⟩
  | announce =>
    obtain rfl := Option.some.inj hstep
    refine h.starts hi rfl rfl (fun heq => (by cases heq)) h.schedulers h.inHand h.fresh hrelies ?_
    rintro ⟨⟩
  | setRunning =>
    obtain rfl := Option.some.inj hstep
    refine h.starts hi rfl rfl (fun heq => (by cases heq)) h.schedulers (fun _ => rfl) ?_ hrelies ?_
    · intro hchan
      exact absurd hrelies (by rw [State.Relies, show s.restartChan = none from hchan]; decide)
    · rintro ⟨⟩
  | newServer =>
    obtain rfl := Option.some.inj hstep
    refine h.starts hi rfl rfl (fun heq => (by cases heq)) h.schedulers h.inHand ?_ trivial ?_
    · intro hchan
      exact absurd hrelies (by rw [State.Relies, show s.restartChan = none from hchan]; decide)
    · rintro - ⟨⟩
  | setHandler =>
    rw [State.runStart] at hstep
    cases hserver : s.server with
    | some srv =>
      rw [hserver] at hstep
      obtain rfl := Option.some.inj hstep
      refine h.goesOn hi rfl (fun heq => (by cases heq)) ?_
      rintro ⟨⟩
    | none =>
      rw [hserver] at hstep
      obtain rfl := Option.some.inj hstep
      exact inv_empty true
  | listenAndServe =>
    rw [State.runStart] at hstep
    cases hserver : s.server with
    | some srv =>
      rw [hserver] at hstep
      obtain rfl := Option.some.inj hstep
      refine h.goesOn hi rfl (fun heq => (by cases heq)) ?_
      rintro ⟨⟩
    | none =>
      rw [hserver] at hstep
      obtain rfl := Option.some.inj hstep
      exact inv_empty true
  | binding srv =>
    obtain rfl := Option.some.inj hstep
    refine h.goesOn hi rfl (fun heq => (by cases heq)) ?_
    rintro ⟨⟩
  | restarting chan => cases hstep
  | announcing chan => cases hstep
  | listening => cases hstep
  | done => cases hstep

theorem leads_stop {pc : StopPc} (hpc : pc ≠ .done) (pc' : StopPc) :
    Leads (.stop pc) (.stop pc') where
  starts := by rintro _ ⟨⟩
  active := fun _ => bne_iff_ne.mpr hpc
  starting := by rintro ⟨⟩

/-- A goroutine of `StopDNSServer` moves on, and no variable with it. -/
theorem Inv.stops (h : Inv s) {pc pc' : StopPc} (hi : s.goroutines[i]? = some (.stop pc))
    (hpc : pc ≠ .done) (hself : s.Relies (.stop pc'))
    (hdone : pc' = .done → (∀ u ∈ s.goroutines, u.starting = false) → s.serverRunning = false) :
    Inv (s.moves i (.stop pc')) := by
  refine h.moves hi (leads_stop hpc pc') ?_ hself ?_ ?_
  · rintro ⟨⟩
  · rintro ⟨⟩
  · exact fun heq => ⟨rfl, bne_iff_ne.mpr hpc, hdone (Goroutine.stop.inj heq)⟩

/-- A goroutine of `StopDNSServer` moves on. It takes effect with no question in
hand. -/
theorem inv_runStop (h : Inv s) {pc : StopPc} (hi : s.goroutines[i]? = some (.stop pc))
    (hhand : pc = .clearRunning → s.inHand = false) (hstep : s.runStop i pc = some t) : Inv t := by
  have hrelies := h.relies hi
  cases pc with
  | readServer =>
    obtain rfl := Option.some.inj hstep
    cases hserver : s.server with
    | some srv =>
      refine h.stops hi (by decide) trivial ?_
      rintro ⟨⟩
    | none => exact h.stops hi (by decide) trivial fun _ hnone => h.cleared hnone hserver
  | readRunning =>
    obtain rfl := Option.some.inj hstep
    cases hrunning : s.serverRunning with
    | true =>
      refine h.stops hi (by decide) trivial ?_
      rintro ⟨⟩
    | false => exact h.stops hi (by decide) trivial fun _ _ => hrunning
  | clearRunning =>
    obtain rfl := Option.some.inj hstep
    refine h.move hi rfl (leads_stop (by decide) _) ?_ h.schedulers ?_ ?_ rfl ?_ (fun _ _ _ => rfl)
      (fun _ _ => rfl) ?_
    · rintro ⟨⟩
    · intro hheld
      rw [show s.inHand = true from hheld] at hhand
      cases hhand rfl
    · intro hchan
      obtain ⟨hschedulers, hserver, -⟩ := h.fresh hchan
      exact ⟨hschedulers, hserver, rfl⟩
    · intro u _ _ hu
      cases u with
      | start pc => cases pc <;> exact hu
      | stop pc => cases pc <;> trivial
    · rintro ⟨⟩
  | clearServer =>
    obtain rfl := Option.some.inj hstep
    refine h.move hi rfl (leads_stop (by decide) _) ?_ h.schedulers h.inHand ?_ trivial ?_
      (fun _ _ _ => hrelies) (fun hoff _ => hoff) (fun _ => ⟨rfl, rfl, fun _ => hrelies⟩)
    · rintro ⟨⟩
    · intro hchan
      obtain ⟨hschedulers, -, hoff⟩ := h.fresh hchan
      exact ⟨hschedulers, rfl, hoff⟩
    · -- no start is under way that could rely on the server
      intro u _ hstarting hu
      cases u with
      | start pc =>
        cases pc with
        | readServer => cases hstarting rfl
        | _ => exact hu
      | stop pc => cases pc <;> exact hu
  | done => cases hstep

theorem Inv.stays (h : Inv s) (hgoroutines : t.goroutines = s.goroutines)
    (hserver : t.server = s.server) (hrunning : t.serverRunning = s.serverRunning)
    (hchan : t.restartChan = s.restartChan)
    (hschedulers : t.schedulers.length = s.schedulers.length)
    (hinHand : t.inHand = true → t.serverRunning = true) : Inv t := by
  have hnil : t.schedulers = [] ↔ s.schedulers = [] := by
    rw [← List.length_eq_zero_iff, hschedulers, List.length_eq_zero_iff]
  have hrelies : ∀ u, t.Relies u ↔ s.Relies u := by
    intro u
    unfold State.Relies
    rw [hserver, hrunning, hchan, hnil]
  refine ⟨?_, ?_, hinHand, ?_, ?_, ?_, ?_, ?_⟩
  · rw [hschedulers]
    exact h.schedulers
  · rw [hgoroutines]
    exact h.listeners
  · rw [hchan, hserver, hrunning, hnil]
    exact h.fresh
  · rw [hgoroutines]
    exact h.alone
  · intro j u hj
    rw [hgoroutines] at hj
    exact (hrelies u).mpr (h.relies hj)
  · rw [hgoroutines, hserver, hrunning]
    exact h.cleared
  · unfold State.Stopped
    rw [hgoroutines, hrunning]
    exact h.stopped

theorem getElem?_concat_cases {gs : List Goroutine} {g : Goroutine} {j : Nat} {u : Goroutine}
    (hj : (gs ++ [g])[j]? = some u) : (j = gs.length ∧ u = g) ∨ gs[j]? = some u := by
  rw [List.getElem?_append] at hj
  split at hj
  case isTrue hlt => exact .inr hj
  case isFalse hge =>
    obtain ⟨hzero, heq⟩ := List.getElem?_eq_some_iff.mp hj
    rw [List.length_singleton] at hzero
    refine .inl ⟨by omega, ?_⟩
    rw [← heq, List.getElem_singleton]

theorem getElem?_concat_of {gs : List Goroutine} {j : Nat} {u : Goroutine} (g : Goroutine)
    (hj : gs[j]? = some u) : (gs ++ [g])[j]? = some u := by
  obtain ⟨hlt, -⟩ := List.getElem?_eq_some_iff.mp hj
  rw [List.getElem?_append_left hlt, hj]

theorem Inv.receives (h : Inv s) {g : Goroutine} (hlistening : g ≠ .start .listening)
    (hnew : g ≠ .stop .done) (hrelies : s.Relies g)
    (hactive : g.starting = true → ∀ u ∈ s.goroutines, u.active = false)
    (hstarting : ∀ u ∈ s.goroutines, u.starting = false) :
    Inv { s with goroutines := s.goroutines ++ [g] } where
  schedulers := h.schedulers
  listeners := by
    rw [List.count_append, List.count_singleton, if_neg (mt beq_iff_eq.mp hlistening)]
    exact h.listeners
  inHand := h.inHand
  fresh := h.fresh
  alone := by
    intro i j u u' hi hu hj hu'
    rcases getElem?_concat_cases hi with ⟨rfl, rfl⟩ | hi
    · rcases getElem?_concat_cases hj with ⟨rfl, -⟩ | hj
      · rfl
      · rw [hactive hu u' (List.mem_iff_getElem?.mpr ⟨j, hj⟩)] at hu'
        cases hu'
    · rw [hstarting u (List.mem_iff_getElem?.mpr ⟨i, hi⟩)] at hu
      cases hu
  relies := by
    intro i u hi
    rcases getElem?_concat_cases hi with ⟨-, rfl⟩ | hi
    · exact hrelies
    · exact h.relies hi
  cleared := fun hnone => h.cleared fun u hu => hnone u (List.mem_append_left _ hu)
  stopped := by
    rintro ⟨n, hn, hlater⟩
    rcases getElem?_concat_cases hn with ⟨-, heq⟩ | hold
    · exact absurd heq.symm hnew
    · obtain ⟨hnone, hoff⟩ := h.stopped ⟨n, hold, fun m pc hm hstart =>
        hlater m pc hm (getElem?_concat_of g hstart)⟩
      refine ⟨fun u hu => ?_, hoff⟩
      rcases List.mem_append.mp hu with hu | hu
      · exact hnone u hu
      · obtain rfl := List.mem_singleton.mp hu
        cases u with
        | start pc =>
          -- the start that comes now is later than the stop
          obtain ⟨hlt, -⟩ := List.getElem?_eq_some_iff.mp hold
          exact absurd List.getElem?_concat_length (hlater _ pc hlt)
        | stop pc => rfl

theorem inv_receive (h : Inv s) {msg : Int} (hserial : serial s (.receive msg) = true)
    (hnext : s.next (.receive msg) = some t) : Inv t := by
  rw [serial, Bool.and_eq_true, Bool.or_eq_true, Bool.or_eq_true, Bool.and_eq_true] at hserial
  obtain ⟨hstart, hstop⟩ := hserial
  rw [State.next] at hnext
  split at hnext
  case isTrue hmsg =>
    obtain rfl := Option.some.inj hnext
    rcases hstart with hne | ⟨hall, hserver⟩
    · exact absurd hmsg (bne_iff_ne.mp hne)
    have hinactive : ∀ u ∈ s.goroutines, u.active = false := by
      intro u hu
      simpa using List.all_eq_true.mp hall u hu
    refine h.receives (by decide) (by decide) ?_ (fun _ => hinactive) fun u hu => ?_
    · rw [Bool.or_eq_true, Option.isNone_iff_eq_none] at hserver
      exact hserver
    · refine Bool.eq_false_iff.mpr fun hstarting => ?_
      exact Bool.eq_false_iff.mp (hinactive u hu) (active_of_starting hstarting)
  case isFalse =>
    split at hnext
    case isTrue hmsg =>
      obtain rfl := Option.some.inj hnext
      rcases hstop with hne | hall
      · exact absurd hmsg (bne_iff_ne.mp hne)
      refine h.receives (by decide) (by decide) trivial ?_ fun u hu => ?_
      · rintro ⟨⟩
      · simpa using List.all_eq_true.mp hall u hu
    case isFalse =>
      obtain rfl := Option.some.inj hnext
      exact h

theorem Inv.schedules (h : Inv s) (k : Nat) (sch : Scheduler) :
    Inv { s with schedulers := s.schedulers.set k sch } :=
  h.stays rfl rfl rfl rfl List.length_set h.inHand

theorem of_receives {k : Nat} {chan : Option Nat} (hstep : s.receives k chan = some t) :
    ∃ sch, t = { s with schedulers := s.schedulers.set k sch } := by
  unfold State.receives at hstep
  split at hstep
  · split at hstep
    · exact ⟨_, (Option.some.inj hstep).symm⟩
    · cases hstep
  · cases hstep

theorem inv_handOver (h : Inv s) {k : Nat} (hnext : s.next (.handOver k i) = some t) : Inv t := by
  rw [State.next] at hnext
  split at hnext
  · rename_i chan hi
    obtain ⟨s', hs', rfl⟩ := Option.map_eq_some_iff.mp hnext
    obtain ⟨sch, rfl⟩ := of_receives hs'
    refine (h.schedules k sch).goesOn hi rfl (fun heq => (by cases heq)) ?_
    rintro ⟨⟩
  · rename_i chan hi
    obtain ⟨s', hs', rfl⟩ := Option.map_eq_some_iff.mp hnext
    obtain ⟨sch, rfl⟩ := of_receives hs'
    have h' := h.schedules k sch
    refine h'.starts hi rfl rfl (fun heq => (by cases heq)) h'.schedulers h'.inHand h'.fresh
      (h.relies hi) ?_
    rintro ⟨⟩
  · cases hnext

/-- Every step of a process that is alive keeps the invariant. -/
theorem inv_next {e : Event} (h : Inv s) (hserial : serial s e = true)
    (hnext : s.next e = some t) : Inv t := by
  cases e with
  | receive msg => exact inv_receive h hserial hnext
  | handOver k i => exact inv_handOver h hnext
  | run i =>
    rw [State.next] at hnext
    split at hnext
    · rename_i pc hi
      exact inv_runStart h hi hnext
    · rename_i pc hi
      refine inv_runStop h hi (fun hpc => ?_) hnext
      rw [serial, hi, hpc, bne_self_eq_false, Bool.false_or, Bool.not_eq_true'] at hserial
      exact hserial
    · cases hnext
  | bind i =>
    rw [State.next] at hnext
    split at hnext
    · rename_i srv hi
      split at hnext
      · cases hnext
      · rename_i hfree
        obtain rfl := Option.some.inj hnext
        rw [not_or] at hfree
        have h' : Inv { s with started := srv :: s.started } :=
          h.stays rfl rfl rfl rfl rfl h.inHand
        refine h'.goesOn hi rfl (fun _ => hfree.1) ?_
        rintro ⟨⟩
    · cases hnext
  | fail i =>
    rw [State.next] at hnext
    split at hnext
    · rename_i hi
      obtain rfl := Option.some.inj hnext
      refine h.goesOn hi rfl (fun heq => (by cases heq)) ?_
      rintro ⟨⟩
    · cases hnext
  | tick k =>
    rw [State.next] at hnext
    split at hnext
    · split at hnext
      · cases hnext
      · obtain rfl := Option.some.inj hnext
        exact h.schedules k _
    · cases hnext
  | initialized k =>
    rw [State.next] at hnext
    split at hnext
    · split at hnext
      · obtain rfl := Option.some.inj hnext
        exact h.schedules k _
      · cases hnext
    · cases hnext
  | question =>
    rw [State.next] at hnext
    split at hnext
    · obtain rfl := Option.some.inj hnext
      exact h.stays rfl rfl rfl rfl rfl h.inHand
    · cases hnext
  | check =>
    rw [State.next] at hnext
    split at hnext
    · obtain rfl := Option.some.inj hnext
      exact h.stays rfl rfl rfl rfl rfl id
    · cases hnext
  | reply =>
    rw [State.next] at hnext
    split at hnext
    · obtain rfl := Option.some.inj hnext
      exact h.stays rfl rfl rfl rfl rfl (fun hheld => (by cases hheld))
    · cases hnext

theorem inv_step {e : Event} (h : Inv s) (hserial : serial s e = true)
    (hstep : s.step e = some t) : Inv t := by
  rw [State.step] at hstep
  split at hstep
  · cases hstep
  · exact inv_next h hserial hstep

end Step

/-! ## Runs -/

/-- **One scheduler, one listener, and silence after a stop.** In every run whose
messages come one at a time, with no start after a stop that took effect and no stop
taking effect on a question in hand. -/
theorem single_of_serial {s : State}
    (h : Reach State.step (fun s e => serial s e = true) {} s) : s.Single :=
  Inv.single (h.invariant (inv_empty false) inv_step)

/-- The first start, up to its listener. -/
def firstStart : List Event :=
  [.receive 1, .run 0, .run 0, .run 0, .run 0, .run 0, .handOver 0 0, .run 0, .run 0, .run 0,
    .run 0, .bind 0]

/-- The server is started, asked, started again and stopped. -/
theorem single_of_serial_example :
    ∃ s, Reach State.step (fun s e => serial s e = true) {} s ∧ s.Stopped ∧ s.waiting = 0
      ∧ s.schedulers.length = 1 ∧ s.Single := by
  have hrun : (runs State.step serial (firstStart ++ ([.question, .check, .reply, .initialized 0,
      .receive 1, .run 1, .run 1, .handOver 0 1, .receive 2, .run 2, .run 2, .run 2, .run 2,
      .question, .check] : List Event)) {}).map
      (fun s => (s.goroutines, s.waiting, s.schedulers.length))
      = some ([.start .listening, .start .done, .stop .done], 0, 1) := by
    decide +kernel
  obtain ⟨s, hs, hview⟩ := Option.map_eq_some_iff.mp hrun
  obtain ⟨hgoroutines, hview⟩ := Prod.mk.inj hview
  obtain ⟨hwaiting, hschedulers⟩ := Prod.mk.inj hview
  have hreach : Reach State.step (fun s e => serial s e = true) {} s :=
    reach_of_runs id .init hs
  refine ⟨s, hreach, ⟨2, by rw [hgoroutines]; rfl, fun m pc hm hstart => ?_⟩, hwaiting,
    hschedulers, single_of_serial hreach⟩
  rw [hgoroutines, List.getElem?_eq_none (Nat.succ_le_of_lt hm)] at hstart
  cases hstart

/-- Start, stop, and start again: two schedulers. -/
theorem restart_adds_scheduler : ¬ ∀ s, Reach State.step anyStep {} s → s.Single := by
  intro h
  have hrun : (runs State.step (fun _ _ => true) (firstStart ++ ([.initialized 0,
      .receive 2, .run 1, .run 1, .run 1, .run 1,
      .receive 1, .run 2, .run 2, .run 2, .run 2] : List Event)) {}).map
      (fun s => s.schedulers.length) = some 2 := by
    decide +kernel
  obtain ⟨s, hs, hlen⟩ := Option.map_eq_some_iff.mp hrun
  have hone := (h s (reach_of_runs (fun _ => trivial) .init hs)).schedulers
  omega

end DnsThread

end RbiProxy
