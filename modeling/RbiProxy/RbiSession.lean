import RbiProxy.GoMap
import RbiProxy.GoString
import RbiProxy.Reach

/-!
# Per-session containers

`rbi_session.go` as a step system. The parties are the calls of
`rbiLaunchSession`, the websocket handlers, the grace timers, the GC
goroutine, the goroutines that run `rbiTeardown`, and docker. A step is one
critical section of `rbiMu` (or of the per-host lock), or one interaction
with docker; everything the outside decides is part of the action: the
answers of `docker inspect`, `docker run` and `docker rm`, the ports the
allocator hands out, the clock, and the entry at which a `range` over the
session map stops.

A `*rbiSession` is identified by the call that created it (`addr`). Its
mutable fields are only read and written through the map, under `rbiMu`, so
the map holds the sessions by value. `log` records what happened, newest
event first; no step reads it.
-/

namespace RbiProxy

namespace Rbi

/-! ## Host keys -/

/-- What is fixed while the process runs: the parser of `net/url` (the `Host`
and `Hostname()` of a URL it accepts), the case table of `unicode`, and
`RBI_FORWARD_HOST`. -/
structure Config where
  urlParse : GoString → Option (GoString × GoString)
  lowerTable : Rune → Rune
  forwardHost : GoString

/-- The part of `rbiHostOf` for what `net/url` does not give a host for. -/
def hostFallback (cfg : Config) (raw : GoString) : GoString :=
  let h := match index raw (lit "://") with
    | some i => raw.drop (i + 3)
    | none => raw
  let h := match indexAny h (lit "/:?#") with
    | some i => h.take i
    | none => h
  toLower cfg.lowerTable h

def rbiHostOf (cfg : Config) (raw : GoString) : GoString :=
  match cfg.urlParse raw with
  | some (host, hostname) =>
    if host ≠ [] then toLower cfg.lowerTable hostname else hostFallback cfg raw
  | none => hostFallback cfg raw

/-! ## Sessions, calls and the rest of the state -/

structure RbiSession where
  addr : Nat
  id : GoString
  name : GoString
  url : GoString
  tcpPort : Nat
  udpPort : Nat
  created : Int
  lastActive : Int
  viewers : Nat := 0
  teardownTimer : Option Nat := none

/-- Where a call of `rbiLaunchSession` stands: what it does next. -/
inductive Pc where
  | enter     -- `rbiHostLaunchLock`
  | lock      -- `lm.Lock()`
  | check     -- the first critical section
  | tcp       -- `rbiFreeTCPPort`
  | udp       -- `rbiFreeUDPPort`
  | mux       -- `rbiFreeTCPPort` for the TCP mux
  | run       -- issue `docker run`
  | running   -- `docker run` is in flight
  | wait      -- `rbiWaitReady`
  | abort     -- `rbiTeardown(name)` of a container that did not get ready
  | tune      -- `rbiTuneContainer`
  | register  -- the second critical section
  | startGC   -- `rbiStartGC`
  | unlock    -- return, with the deferred `lm.Unlock()`
  | done
deriving DecidableEq

def Pc.holds : Pc → Bool
  | enter | lock | done => false
  | _ => true

/-- The call has decided to launch and has not registered a session yet. -/
def Pc.launching : Pc → Bool
  | tcp | udp | mux | run | running | wait | abort | tune | register => true
  | _ => false

/-- A call of `rbiLaunchSession` with its local variables. `started` is set
when docker has started the call's container; `result` is the returned
session, `none` when an error is returned. -/
structure Call where
  rawURL : GoString
  host : GoString
  pc : Pc := .enter
  lm : Nat := 0
  seq : Nat := 0
  tcpPort : Nat := 0
  udpPort : Nat := 0
  tcpMuxPort : Nat := 0
  id : GoString := []
  name : GoString := []
  started : Bool := false
  s : Option RbiSession := none
  result : Option Nat := none

/-- A running container and the call that started it. -/
structure Container where
  name : GoString
  owner : Nat
  tcpPort : Nat
  udpPort : Nat
  tcpMuxPort : Nat

/-- A grace timer: armed, stopped in time, fired with its callback waiting
for `rbiMu`, or run. -/
inductive TimerPhase where
  | armed
  | stopped
  | fired
  | ran
deriving DecidableEq

/-- A timer of `rbiViewerDetach` with what its callback captured. -/
structure Timer where
  host : GoString
  sess : Nat
  name : GoString
  phase : TimerPhase := .armed

/-- A websocket handler. `port` is the port of its backend if there is one to
parse, `attached` says that `rbiViewerAttach` found a session, and `routed`
is the session whose container it was routed to. -/
structure Handler where
  port : Option Nat
  routed : Option Nat
  attached : Bool
  live : Bool := true

/-- Who took a session out of the map. -/
inductive Remover where
  | detach
  | timer (t : Nat)
  | gc
deriving DecidableEq

/-- A `rbiTeardown` that is due or running. -/
structure Teardown where
  src : Remover
  name : GoString
deriving DecidableEq

/-- What happened. `remove` has the session's counter at the moment it left
the map and whether its container was reported running. -/
inductive Event where
  | attach (s : Nat)
  | detach (s : Nat)
  | reuse (s : Nat)
  | arm (t s : Nat)
  | remove (src : Remover) (s : Nat) (name : GoString) (viewers : Nat) (running : Bool)
  | teardown (name : GoString)
deriving DecidableEq

structure State where
  byHost : GoMap GoString RbiSession := ∅
  rbiSeq : Nat := 0
  launchMu : GoMap GoString Nat := ∅
  calls : List Call := []
  containers : List Container := []
  timers : List Timer := []
  handlers : List Handler := []
  pending : List Teardown := []
  gcStarted : Bool := false
  log : List Event := []

def init : State := {}

def Running (st : State) (name : GoString) : Prop := ∃ k ∈ st.containers, k.name = name

instance (st : State) (name : GoString) : Decidable (Running st name) := by
  unfold Running; infer_instance

/-! ## Timers -/

def Timer.stop (t : Timer) : Timer :=
  if t.phase = .armed then { t with phase := .stopped } else t

/-- `if s.teardownTimer != nil { s.teardownTimer.Stop() }`. -/
def stopTimer (timers : List Timer) : Option Nat → List Timer
  | none => timers
  | some t => timers.modify t Timer.stop

/-! ## `rbiLaunchSession` -/

/-- `rbiHostLaunchLock`: the lock of the host, created on first use. -/
def rbiHostLaunchLock (mus : GoMap GoString Nat) (host : GoString) : Nat × GoMap GoString Nat :=
  match mus.lookup host with
  | some lm => (lm, mus)
  | none => (mus.entries.length, mus.insert host mus.entries.length)

/-- The first critical section: reuse the registered session if its container
is reported running, or take a sequence number. -/
def check (st : State) (i : Nat) (c : Call) (running : Bool) (now : Int) : State :=
  match st.byHost.lookup c.host with
  | some s =>
    if running then
      { st with
        byHost := st.byHost.insert c.host { s with teardownTimer := none, lastActive := now }
        timers := stopTimer st.timers s.teardownTimer
        calls := st.calls.set i { c with pc := .unlock, result := some s.addr }
        log := .reuse s.addr :: st.log }
    else
      { st with rbiSeq := st.rbiSeq + 1
                calls := st.calls.set i { c with pc := .tcp, seq := st.rbiSeq + 1 } }
  | none =>
      { st with rbiSeq := st.rbiSeq + 1
                calls := st.calls.set i { c with pc := .tcp, seq := st.rbiSeq + 1 } }

def freeTCP (st : State) (port : Nat) : Bool :=
  st.containers.all fun k => k.tcpPort ≠ port ∧ k.tcpMuxPort ≠ port

def freeUDP (st : State) (port : Nat) : Bool := st.containers.all fun k => k.udpPort ≠ port

/-- The three port allocations; `none` is an error, which ends the call. -/
def alloc (st : State) (c : Call) (port : Option Nat) : Option Call :=
  match c.pc, port with
  | .tcp, some p => if freeTCP st p then some { c with pc := .udp, tcpPort := p } else none
  | .udp, some p => if freeUDP st p then some { c with pc := .mux, udpPort := p } else none
  | .mux, some p => if freeTCP st p then some { c with pc := .run, tcpMuxPort := p } else none
  | .tcp, none | .udp, none | .mux, none => some { c with pc := .unlock }
  | _, _ => none

/-- `id` of the session with sequence number `seq`. -/
def sessionId (seq : Nat) (nano : Int) : GoString :=
  itoa seq ++ lit "-" ++ formatInt (nano.tmod 100000)

def sessionName (seq : Nat) (nano : Int) : GoString := lit "rbi-sess-" ++ sessionId seq nano

/-- The container `docker run` starts for a call. -/
def containerOf (i : Nat) (c : Call) : Container :=
  { name := c.name, owner := i, tcpPort := c.tcpPort, udpPort := c.udpPort,
    tcpMuxPort := c.tcpMuxPort }

/-- The session value made when `docker run` has returned. -/
def newSession (i : Nat) (c : Call) (now : Int) : RbiSession :=
  { addr := i, id := c.id, name := c.name, url := c.rawURL, tcpPort := c.tcpPort,
    udpPort := c.udpPort, created := now, lastActive := now }

/-! ## Viewers -/

/-- A websocket's backend: the container of the session that the request's
own `rbiLaunchSession` call returned, or any `host:port` a request for a
host that is not isolated names (`none` where the port does not parse). -/
inductive Dest where
  | session (call : Nat)
  | direct (host : GoString) (port : Option Nat)
deriving DecidableEq

/-- The session that call `i` has returned. -/
def returned (st : State) (i : Nat) : Option Nat :=
  match st.calls[i]? with
  | some c => if c.pc = .done then c.result else none
  | none => none

/-- A request is only forwarded after its call has returned a session. -/
def destOk (st : State) : Dest → Bool
  | .session i => (returned st i).isSome
  | .direct _ _ => true

/-- The port a handler hands to `rbiViewerAttach`. -/
def destPort (st : State) : Dest → Option Nat
  | .session i => (returned st i).bind fun a => (st.calls[a]?).map (·.tcpPort)
  | .direct _ port => port

/-- The session whose container the backend is. -/
def destRouted (cfg : Config) (st : State) : Dest → Option Nat
  | .session i => returned st i
  | .direct host port =>
    if host = cfg.forwardHost then
      (st.containers.find? fun k => some k.tcpPort = port).map (·.owner)
    else none

/-- `pick` is an entry at which the loop over the map can stop: one with that
port, or none when there is no such entry. -/
def pickOk (st : State) (port : Nat) : Option GoString → Bool
  | some host =>
    match st.byHost.lookup host with
    | some s => s.tcpPort = port
    | none => false
  | none => (GoMap.vals st.byHost).all fun s => s.tcpPort ≠ port

/-- `rbiViewerAttach` for the session under `host`. -/
def rbiViewerAttach (st : State) (host : GoString) (s : RbiSession) (now : Int) : State :=
  { st with
    byHost := st.byHost.insert host
      { s with teardownTimer := none, viewers := s.viewers + 1, lastActive := now }
    timers := stopTimer st.timers s.teardownTimer
    log := .attach s.addr :: st.log }

/-- `rbiViewerDetach` for the session under `host`, with the current
`rbiCloseGrace()` in milliseconds. -/
def rbiViewerDetach (st : State) (host : GoString) (s : RbiSession) (grace : Nat) : State :=
  let s := { s with viewers := s.viewers - 1 }
  if 0 < s.viewers then
    { st with byHost := st.byHost.insert host s, log := .detach s.addr :: st.log }
  else if grace = 0 then
    { st with
      byHost := st.byHost.erase host
      pending := st.pending ++ [⟨.detach, s.name⟩]
      log := .remove .detach s.addr s.name s.viewers true :: .detach s.addr :: st.log }
  else
    { st with
      byHost := st.byHost.insert host { s with teardownTimer := some st.timers.length }
      timers := stopTimer st.timers s.teardownTimer
        ++ [{ host := host, sess := s.addr, name := s.name }]
      log := .arm st.timers.length s.addr :: .detach s.addr :: st.log }

def graceExpired (st : State) (i : Nat) (t : Timer) : State :=
  let timers := st.timers.set i { t with phase := .ran }
  match st.byHost.lookup t.host with
  | some cur =>
    if cur.addr ≠ t.sess ∨ 0 < cur.viewers then { st with timers := timers }
    else
      { st with
        byHost := st.byHost.erase t.host
        timers := timers
        pending := st.pending ++ [⟨.timer i, t.name⟩]
        log := .remove (.timer i) t.sess t.name cur.viewers true :: st.log }
  | none => { st with timers := timers }

/-! ## The GC goroutine -/

def reap (now ttl : Int) (running : GoString → Bool) (s : RbiSession) : Bool :=
  !running s.name || (s.viewers = 0 && ttl < now - s.lastActive)

/-- One pass of the loop over the map, with the answers of `docker inspect`. -/
def gcPass (st : State) (now ttl : Int) (running : GoString → Bool) : State :=
  let dead := (GoMap.vals st.byHost).filter (reap now ttl running)
  { st with
    byHost := GoMap.filterVal st.byHost fun s => !reap now ttl running s
    timers := dead.foldl (fun ts s => stopTimer ts s.teardownTimer) st.timers
    pending := st.pending ++ dead.map fun s => ⟨.gc, s.name⟩
    log := dead.map (fun s => .remove .gc s.addr s.name s.viewers (running s.name)) ++ st.log }

/-! ## Steps -/

inductive Act where
  | call (rawURL : GoString)
  | launchLock (i : Nat)
  | lock (i : Nat)
  | check (i : Nat) (running : Bool) (now : Int)
  | alloc (i : Nat) (port : Option Nat)
  | run (i : Nat) (nano : Int)
  | start (i : Nat)
  | runReturns (i : Nat) (ok : Bool) (now : Int)
  | ready (i : Nat) (ok : Bool)
  | abort (i : Nat) (ok : Bool)
  | tuned (i : Nat)
  | register (i : Nat)
  | startGC (i : Nat)
  | unlock (i : Nat)
  | crash (name : GoString)
  | wsOpen (dest : Dest) (pick : Option GoString) (now : Int)
  | wsClose (h : Nat) (pick : Option GoString) (grace : Nat)
  | fire (t : Nat)
  | expire (t : Nat)
  | gc (now ttl : Int) (running : GoString → Bool)
  | teardown (p : Teardown) (ok : Bool)

/-- Continue with call `i` if it stands at `pc`. -/
def atPc (st : State) (i : Nat) (pc : Pc) (k : Call → Option State) : Option State :=
  match st.calls[i]? with
  | some c => if c.pc = pc then k c else none
  | none => none

/-- Move call `i` on and change nothing else. -/
def setCall (st : State) (i : Nat) (c : Call) : State := { st with calls := st.calls.set i c }

def rmContainer (ks : List Container) (name : GoString) : List Container :=
  ks.filter fun k => k.name ≠ name

/-- A websocket handler enters: `rbiViewerAttach` on its port, if any. -/
def wsOpen (cfg : Config) (st : State) (dest : Dest) (pick : Option GoString) (now : Int) :
    Option State :=
  let routed := destRouted cfg st dest
  match destPort st dest with
  | none => some { st with handlers := st.handlers ++ [⟨none, routed, false, true⟩] }
  | some port =>
    if pickOk st port pick then
      match pick.bind fun host => (st.byHost.lookup host).map fun s => (host, s) with
      | some (host, s) =>
        some { rbiViewerAttach st host s now with
               handlers := st.handlers ++ [⟨some port, routed, true, true⟩] }
      | none => some { st with handlers := st.handlers ++ [⟨some port, routed, false, true⟩] }
    else none

/-- A websocket handler returns: the deferred `rbiViewerDetach` if it attached. -/
def wsClose (st : State) (i : Nat) (h : Handler) (pick : Option GoString) (grace : Nat) :
    Option State :=
  let handlers := st.handlers.set i { h with live := false }
  match h.attached, h.port with
  | true, some port =>
    if pickOk st port pick then
      match pick.bind fun host => (st.byHost.lookup host).map fun s => (host, s) with
      | some (host, s) => some { rbiViewerDetach st host s grace with handlers := handlers }
      | none => some { st with handlers := handlers }
    else none
  | _, _ => some { st with handlers := handlers }

def step (cfg : Config) (st : State) : Act → Option State
  | .call rawURL =>
      some { st with calls := st.calls ++ [{ rawURL := rawURL, host := rbiHostOf cfg rawURL }] }
  | .launchLock i => atPc st i .enter fun c =>
      let r := rbiHostLaunchLock st.launchMu c.host
      some { st with launchMu := r.2, calls := st.calls.set i { c with pc := .lock, lm := r.1 } }
  | .lock i => atPc st i .lock fun c =>
      if st.calls.all fun d => !(d.pc.holds && d.lm = c.lm) then
        some (setCall st i { c with pc := .check })
      else none
  | .check i running now => atPc st i .check fun c => some (check st i c running now)
  | .alloc i port =>
      match st.calls[i]? with
      | some c => (alloc st c port).map (setCall st i)
      | none => none
  | .run i nano => atPc st i .run fun c =>
      some (setCall st i { c with pc := .running, id := sessionId c.seq nano,
                                  name := sessionName c.seq nano })
  | .start i => atPc st i .running fun c =>
      if !c.started && freeTCP st c.tcpPort && freeTCP st c.tcpMuxPort && freeUDP st c.udpPort then
        some { st with containers := containerOf i c :: st.containers
                       calls := st.calls.set i { c with started := true } }
      else none
  | .runReturns i ok now => atPc st i .running fun c =>
      if ok then
        if c.started then
          some (setCall st i { c with pc := .wait, s := some (newSession i c now) })
        else none
      else some (setCall st i { c with pc := .unlock })
  | .ready i ok => atPc st i .wait fun c =>
      some (setCall st i { c with pc := if ok then .tune else .abort })
  | .abort i ok => atPc st i .abort fun c =>
      some { setCall st i { c with pc := .unlock } with
             containers := if ok then rmContainer st.containers c.name else st.containers
             log := .teardown c.name :: st.log }
  | .tuned i => atPc st i .tune fun c => some (setCall st i { c with pc := .register })
  | .register i => atPc st i .register fun c =>
      match c.s with
      | some s =>
        some { st with byHost := st.byHost.insert c.host s
                       calls := st.calls.set i { c with pc := .startGC, result := some i } }
      | none => none
  | .startGC i => atPc st i .startGC fun c =>
      some { setCall st i { c with pc := .unlock } with gcStarted := true }
  | .unlock i => atPc st i .unlock fun c => some (setCall st i { c with pc := .done })
  | .crash name => some { st with containers := rmContainer st.containers name }
  | .wsOpen dest pick now => if destOk st dest then wsOpen cfg st dest pick now else none
  | .wsClose i pick grace =>
      match st.handlers[i]? with
      | some h => if h.live then wsClose st i h pick grace else none
      | none => none
  | .fire i =>
      match st.timers[i]? with
      | some t =>
        if t.phase = .armed then
          some { st with timers := st.timers.set i { t with phase := .fired } }
        else none
      | none => none
  | .expire i =>
      match st.timers[i]? with
      | some t => if t.phase = .fired then some (graceExpired st i t) else none
      | none => none
  | .gc now ttl running =>
      if st.gcStarted && st.pending.all (fun p => p.src ≠ .gc) then
        some (gcPass st now ttl running)
      else none
  | .teardown p ok =>
      if p ∈ st.pending then
        some { st with pending := st.pending.erase p
                       containers := if ok then rmContainer st.containers p.name else st.containers
                       log := .teardown p.name :: st.log }
      else none

/-! ## A launch

The steps of one undisturbed call, used by the concrete runs below. -/

def exampleURL : GoString := lit "https://www.youtube.com/"

def exampleHost : GoString := lit "www.youtube.com"

def exampleConfig : Config where
  urlParse raw := if raw = exampleURL then some (exampleHost, exampleHost) else none
  lowerTable := id
  forwardHost := lit "127.0.0.1"

/-- Call `i` up to the moment `docker run` is in flight. -/
def launchActs (i tcp udp mux : Nat) : List Act :=
  [.call exampleURL, .launchLock i, .lock i, .check i false 0, .alloc i (some tcp),
   .alloc i (some udp), .alloc i (some mux), .run i 7]

/-- The rest of the call, when everything goes well. -/
def readyActs (i : Nat) : List Act :=
  [.start i, .runReturns i true 0, .ready i true, .tuned i, .register i, .startGC i, .unlock i]

example : (runs (step exampleConfig) (fun _ _ => true) (launchActs 0 1 2 3 ++ readyActs 0)
    init).map (fun st => ((GoMap.vals st.byHost).map (·.name), st.containers.map (·.name)))
    = some ([lit "rbi-sess-1-7"], [lit "rbi-sess-1-7"]) := by decide +kernel

end Rbi

end RbiProxy
