import RbiProxy.CamRelay
import RbiProxy.Indexed

/-!
# The frames that reach the feeder

`CamRelay` follows the feeder of `camrelay.py` without its data. Here every call of
`write_frame` has its frame, every camera has what it has sent, and every `ffmpeg` what was
put into its standard input. A write puts the bytes of a frame piece by piece, and the other
threads run in between. `ws_handler` and `idle_black_writer` wait for the call they have made
before they make the next one.

The relay runs as it does without data (`step_relay`). `frames_sound` says what comes out.
An `ffmpeg` that no write has failed on has been given whole frames, one after another, and
then a part of one at most. The frames of a camera are written in the order in which they
came, each of them once at most. The count `_LIVE["n"]` is that of the connections, so the
`max` in `ws_handler` never has to cut anything off.
-/

namespace RbiProxy

namespace CamFrames

open CamRelay (Writer Loop)

variable {β : Type}

/-! ## Frames, cameras and pipes -/

/-- A call of `write_frame`. -/
structure Job (β : Type) where
  /-- The connection the frame is from; the black frame is from none. -/
  source : Option Nat
  data : List β
  /-- How many of the bytes have been put into the pipe. -/
  put : Nat := 0
deriving DecidableEq

/-- A call of `ws_handler`. -/
structure Camera (β : Type) where
  opened : Bool := true
  /-- The frames received. -/
  taken : List (List β) := []
  /-- The call of `write_frame` it waits for. -/
  awaits : Option Nat := none
deriving DecidableEq

/-- A frame that was written, with the process and the connection. -/
structure Frame (β : Type) where
  process : Nat
  source : Option Nat
  data : List β
deriving DecidableEq

deriving instance DecidableEq for CamRelay.State

structure State (β : Type) where
  relay : CamRelay.State := {}
  cameras : List (Camera β) := []
  /-- The call that `idle_black_writer` waits for. -/
  idle : Option Nat := none
  jobs : List (Job β) := []
  /-- The bytes in the standard input of each process. -/
  stdin : List (List β) := []
  written : List (Frame β) := []
deriving DecidableEq

inductive Event (β : Type) where
  | connect
  | frame (c : Nat) (data : List β)
  /-- The write that `ws_handler` waits for has returned. -/
  | resume (c : Nat)
  /-- `ws_handler` ends, by itself or because it is cancelled. -/
  | disconnect (c : Nat)
  | idleWakes (silent : Bool)
  | idleResume
  | watchdogWakes
  | run (ok : Bool)
  /-- `n` more bytes of a frame go into the pipe. -/
  | put (i : Nat) (n : Nat)
  | write (i : Nat) (ok : Bool)
  | exit (p : Nat)

/-- The frame of a call is not written yet. -/
def pending : Writer → Bool
  | .readProc | .acquire _ | .write _ => true
  | .flag _ | .release | .done => false

def blackJob (black : List β) : Job β := { source := none, data := black }

namespace State

variable (black : List β)

/-- A step of the relay. The call it makes, if it makes one, is `call`. -/
def follow (s : State β) (e : CamRelay.Event) (call : Job β) : Option (State β) :=
  (s.relay.step (!black.isEmpty) e).map fun relay =>
    { s with
      relay
      jobs := s.jobs ++ List.replicate (relay.writers.length - s.relay.writers.length) call
      stdin := s.stdin ++ List.replicate (relay.started - s.relay.started) [] }

def setCamera (s : State β) (c : Nat) (cam : Camera β) : State β :=
  { s with cameras := s.cameras.set c cam }

def returned (s : State β) (i : Nat) : Bool := s.relay.writers[i]? == some .done

/-- Some bytes of the frame of call `i` go into the pipe. -/
def putBytes (s : State β) (i n p : Nat) (job : Job β) (bytes : List β) : State β :=
  { s with
    jobs := s.jobs.set i { job with put := job.put + n }
    stdin := s.stdin.set p (bytes ++ (job.data.drop job.put).take n) }

/-- `p.stdin.write(data)` has returned. -/
def wrote (s : State β) (p : Nat) (job : Job β) : State β :=
  { s with written := s.written ++ [{ process := p, source := job.source, data := job.data }] }

/-- The next statement of a call, which is that of the relay. -/
def runCall (s : State β) (i : Nat) (ok : Bool) (job : Job β) : Writer → Option (State β)
  | .write p =>
    if ok then
      if job.data.length ≤ job.put then
        (s.wrote p job).follow black (.write i true) (blackJob black)
      else none
    else s.follow black (.write i false) (blackJob black)
  | _ => s.follow black (.write i ok) (blackJob black)

def step (s : State β) : Event β → Option (State β)
  | .connect =>
    ({ s with cameras := s.cameras ++ [({} : Camera β)] } : State β).follow black .connect
      (blackJob black)
  | .frame c data =>
    match s.cameras[c]? with
    | some cam =>
      if cam.opened ∧ cam.awaits = none then
        let cam := { cam with taken := cam.taken ++ [data], awaits := some s.jobs.length }
        (s.setCamera c cam).follow black .frame { source := some c, data }
      else none
    | none => none
  | .resume c =>
    match s.cameras[c]? with
    | some cam =>
      if s.relay.loop = .awaits ∧ cam.awaits.any s.returned then
        some (s.setCamera c { cam with awaits := none })
      else none
    | none => none
  | .disconnect c =>
    match s.cameras[c]? with
    | some cam =>
      if cam.opened then
        (s.setCamera c { cam with opened := false }).follow black .disconnect (blackJob black)
      else none
    | none => none
  | .idleWakes silent =>
    if s.idle = none then s.follow black (.idleWakes silent) (blackJob black) else none
  | .idleResume =>
    if s.relay.loop = .awaits ∧ s.idle.any s.returned then some { s with idle := none } else none
  | .watchdogWakes => s.follow black .watchdogWakes (blackJob black)
  | .run ok => (s.follow black (.run ok) (blackJob black)).map fun t =>
    if s.jobs.length < t.jobs.length then { t with idle := some s.jobs.length } else t
  | .put i n =>
    match s.relay.writers[i]?, s.jobs[i]? with
    | some (.write p), some job => (s.stdin[p]?).map fun bytes => s.putBytes i n p job bytes
    | _, _ => none
  | .write i ok =>
    match s.relay.writers[i]?, s.jobs[i]? with
    | some w, some job => s.runCall black i ok job w
    | _, _ => none
  | .exit p => s.follow black (.exit p) (blackJob black)

/-! ## What is written -/

def calls (s : State β) : List (Writer × Job β) := s.relay.writers.zip s.jobs

def framesTo (s : State β) (p : Nat) : List (List β) :=
  (s.written.filter fun f => f.process == p).map (·.data)

def framesOf (s : State β) (c : Nat) : List (List β) :=
  (s.written.filter fun f => f.source == some c).map (·.data)

end State

/-- What a call has put into the pipe of a process and has not finished. -/
def unfinished (p : Nat) : Writer × Job β → List β
  | (.write q, job) => if q = p then job.data.take job.put else []
  | _ => []

/-- The frame of a call, as long as it is not written. -/
def unwritten : Writer × Job β → List (List β)
  | (w, job) => if pending w then [job.data] else []

namespace State

/-- The part of a frame at the end of a pipe. -/
def part (s : State β) (p : Nat) : List β :=
  match s.relay.lock.bind (s.calls[·]?) with
  | some call => unfinished p call
  | none => []

/-- The frame of a camera that is still to be written. -/
def due (s : State β) (cam : Camera β) : List (List β) :=
  match cam.awaits.bind (s.calls[·]?) with
  | some call => unwritten call
  | none => []

end State

/-! ## What the relay does -/

section Relay

variable {r r' : CamRelay.State} {b : Bool}

/-- The process that a call is about to write to. -/
def target : Writer → Option Nat
  | .acquire p | .write p => some p
  | _ => none

/-- Only processes that were started are stored, and written to. -/
structure Numbered (r : CamRelay.State) : Prop where
  proc : ∀ {p}, r.proc = some p → p < r.started
  setProc : ∀ {p}, r.loop = .setProc p → p < r.started
  target : ∀ w ∈ r.writers, ∀ p, target w = some p → p < r.started

theorem Numbered.goesOn (h : Numbered r) {loop : Loop} (hloop : ∀ p, loop ≠ .setProc p) :
    Numbered { r with loop } :=
  ⟨h.proc, fun heq => absurd heq (hloop _), h.target⟩

theorem Numbered.submit (h : Numbered r) : Numbered r.submit := by
  refine ⟨h.proc, h.setProc, fun w hw p hp => ?_⟩
  rcases List.mem_append.mp hw with hold | hnew
  · exact h.target w hold p hp
  · rw [List.mem_singleton.mp hnew] at hp
    cases hp

theorem Numbered.moves (h : Numbered r) (i : Nat) {w : Writer}
    (hw : ∀ p, CamFrames.target w = some p → p < r.started) : Numbered (r.moves i w) := by
  refine ⟨h.proc, h.setProc, fun w' hw' p hp => ?_⟩
  rcases List.mem_or_eq_of_mem_set hw' with hold | rfl
  · exact h.target w' hold p hp
  · exact hw p hp

/-- The thread of the event loop makes `n` calls and starts `m` processes. -/
structure Looped (r r' : CamRelay.State) (live n m : Nat) : Prop where
  writers : r'.writers = r.writers ++ List.replicate n .readProc
  started : r'.started = r.started + m
  live : r'.live = live
  lock : r'.lock = r.lock
  failed : r'.failed = r.failed
  numbered : Numbered r → Numbered r'

/-- A step of that thread that leaves `live` connections. -/
def LoopStep (r r' : CamRelay.State) (live : Nat) : Prop := ∃ n m, Looped r r' live n m

theorem LoopStep.goesOn {loop : Loop} (hloop : ∀ p, loop ≠ .setProc p) :
    LoopStep r { r with loop } r.live :=
  ⟨0, 0, (List.append_nil _).symm, rfl, rfl, rfl, rfl, fun h => h.goesOn hloop⟩

theorem LoopStep.submit : LoopStep r r.submit r.live :=
  ⟨1, 0, rfl, rfl, rfl, rfl, rfl, fun h => h.submit⟩

theorem LoopStep.decided (alive : Bool) (caller : CamRelay.Caller) :
    LoopStep r (r.decided b alive caller) r.live := by
  cases caller with
  | idleBlackWriter =>
    unfold CamRelay.State.decided
    simp only
    split
    · refine ⟨1, 0, rfl, rfl, rfl, rfl, rfl, fun h => ?_⟩
      have hon : Numbered { r with loop := .awaits } := h.goesOn nofun
      exact hon.submit
    · exact .goesOn nofun
  | feederWatchdog =>
    cases alive with
    | true =>
      have hon : LoopStep r { r with loop := .awaits } r.live := .goesOn nofun
      exact hon
    | false =>
      have hon : LoopStep r { r with loop := .pkill true } r.live := .goesOn nofun
      exact hon

theorem LoopStep.runLoop {ok : Bool} (hstep : r.runLoop b ok r.loop = some r') :
    LoopStep r r' r.live := by
  cases hloop : r.loop with
  | awaits | ended =>
    rw [hloop] at hstep
    cases hstep
  | readProc caller =>
    rw [hloop, CamRelay.State.runLoop] at hstep
    split at hstep
    · exact Option.some.inj hstep ▸ .goesOn fun _ h => (by cases h)
    · exact Option.some.inj hstep ▸ .decided false caller
  | poll caller p =>
    rw [hloop, CamRelay.State.runLoop] at hstep
    split at hstep
    · exact Option.some.inj hstep ▸ .decided false caller
    · exact Option.some.inj hstep ▸ .goesOn fun _ h => (by cases h)
  | readBroken caller =>
    rw [hloop] at hstep
    exact Option.some.inj hstep ▸ .decided _ caller
  | pkill restart =>
    rw [hloop] at hstep
    obtain rfl := Option.some.inj hstep
    exact ⟨0, 0, (List.append_nil _).symm, rfl, rfl, rfl, rfl, fun h =>
      ⟨h.proc, fun heq => (by cases heq), h.target⟩⟩
  | popen restart =>
    rw [hloop, CamRelay.State.runLoop] at hstep
    split at hstep
    · obtain rfl := Option.some.inj hstep
      refine ⟨0, 1, (List.append_nil _).symm, rfl, rfl, rfl, rfl, fun h =>
        ⟨fun hp => ?_, fun hp => ?_, fun w hw p hp => ?_⟩⟩
      · exact Nat.lt_succ_of_lt (h.proc hp)
      · obtain rfl := Loop.setProc.inj hp
        exact Nat.lt_succ_self _
      · exact Nat.lt_succ_of_lt (h.target w hw p hp)
    · exact Option.some.inj hstep ▸ .goesOn fun _ h => (by cases restart <;> cases h)
  | setProc p =>
    rw [hloop] at hstep
    obtain rfl := Option.some.inj hstep
    refine ⟨0, 0, (List.append_nil _).symm, rfl, rfl, rfl, rfl, fun h =>
      ⟨fun hp => ?_, fun h => (by cases h), h.target⟩⟩
    exact Option.some.inj hp ▸ h.setProc hloop
  | clearBroken =>
    rw [hloop] at hstep
    obtain rfl := Option.some.inj hstep
    exact ⟨0, 0, (List.append_nil _).symm, rfl, rfl, rfl, rfl, fun h =>
      ⟨h.proc, fun heq => (by cases heq), h.target⟩⟩

def isWrite : CamRelay.Event → Bool
  | .write _ _ => true
  | _ => false

def liveAfter (live : Nat) : CamRelay.Event → Nat
  | .connect => live + 1
  | .disconnect => live - 1
  | _ => live

theorem loopStep {e : CamRelay.Event} (he : isWrite e = false) (hstep : r.step b e = some r') :
    LoopStep r r' (liveAfter r.live e) := by
  have hsame : ∀ live exited, LoopStep r { r with live, exited } live := fun live exited =>
    ⟨0, 0, (List.append_nil _).symm, rfl, rfl, rfl, rfl, fun h => ⟨h.proc, h.setProc, h.target⟩⟩
  cases e with
  | write i ok => cases he
  | run ok => exact .runLoop hstep
  | connect | disconnect =>
    rw [CamRelay.State.step] at hstep
    split at hstep
    · exact Option.some.inj hstep ▸ hsame _ r.exited
    · cases hstep
  | frame =>
    rw [CamRelay.State.step] at hstep
    split at hstep
    · exact Option.some.inj hstep ▸ .submit
    · cases hstep
  | idleWakes silent =>
    rw [CamRelay.State.step] at hstep
    split at hstep
    · split at hstep
      · exact Option.some.inj hstep ▸ .goesOn fun _ h => (by cases h)
      · exact Option.some.inj hstep ▸ hsame r.live r.exited
    · cases hstep
  | watchdogWakes =>
    rw [CamRelay.State.step] at hstep
    split at hstep
    · exact Option.some.inj hstep ▸ .goesOn fun _ h => (by cases h)
    · cases hstep
  | exit p =>
    rw [CamRelay.State.step] at hstep
    split at hstep
    · exact Option.some.inj hstep ▸ hsame r.live _
    · cases hstep

/-- What a statement of `write_frame` does with the lock and to the process. -/
inductive Pass (r r' : CamRelay.State) (i : Nat) : Bool → Writer → Writer → Prop where
  | reads {ok} (p : Nat) : r'.lock = r.lock → r'.failed = r.failed →
      Pass r r' i ok .readProc (.acquire p)
  | skips {ok} : r'.lock = r.lock → r'.failed = r.failed → Pass r r' i ok .readProc .done
  | locks {ok} (p : Nat) : r.lock = none → r'.lock = some i → r'.failed = r.failed →
      Pass r r' i ok (.acquire p) (.write p)
  | returns (p : Nat) : r'.lock = r.lock → r'.failed = r.failed →
      Pass r r' i true (.write p) .release
  | fails (p : Nat) : r'.lock = r.lock → r'.failed = p :: r.failed →
      Pass r r' i false (.write p) (.flag p)
  | flags {ok} (p : Nat) : r'.lock = r.lock → r'.failed = r.failed →
      Pass r r' i ok (.flag p) .release
  | unlocks {ok} : r'.lock = none → r'.failed = r.failed → Pass r r' i ok .release .done

/-- A step of a thread that is in `write_frame`. -/
structure WriterStep (r r' : CamRelay.State) (i : Nat) (ok : Bool) (w w' : Writer) : Prop where
  writers : r'.writers = r.writers.set i w'
  started : r'.started = r.started
  live : r'.live = r.live
  numbered : Numbered r → Numbered r'
  pass : Pass r r' i ok w w'

theorem writerStep {i : Nat} {ok : Bool} {w : Writer} (hw : r.writers[i]? = some w)
    (hstep : r.runWriter i ok w = some r') : ∃ w', WriterStep r r' i ok w w' := by
  have hmem : w ∈ r.writers := List.mem_of_getElem? hw
  have hmoves : ∀ {lock broken failed} w', (∀ p, target w' = some p → target w = some p) →
      Pass r ({ r with lock, broken, failed : CamRelay.State }.moves i w') i ok w w' →
      WriterStep r ({ r with lock, broken, failed : CamRelay.State }.moves i w') i ok w w' := by
    intro lock broken failed w' htarget hpass
    refine ⟨rfl, rfl, rfl, fun h => ?_, hpass⟩
    have hsame : Numbered { r with lock, broken, failed : CamRelay.State } :=
      ⟨h.proc, h.setProc, h.target⟩
    exact hsame.moves i fun p hp => h.target w hmem p (htarget p hp)
  have hends : ∀ {w'}, target w' = none → ∀ p, target w' = some p → target w = some p :=
    fun hnone p hp => (by rw [hnone] at hp; cases hp)
  cases w with
  | readProc =>
    rw [CamRelay.State.runWriter] at hstep
    split at hstep
    case h_1 p hproc =>
      obtain rfl := Option.some.inj hstep
      refine ⟨_, rfl, rfl, rfl, fun h => h.moves i fun q hq => ?_, .reads p rfl rfl⟩
      exact Option.some.inj hq ▸ h.proc hproc
    case h_2 => exact Option.some.inj hstep ▸ ⟨_, hmoves .done (hends rfl) (.skips rfl rfl)⟩
  | acquire p =>
    rw [CamRelay.State.runWriter] at hstep
    split at hstep
    case isTrue hfree =>
      exact Option.some.inj hstep ▸ ⟨_, hmoves (.write p) (fun _ => id) (.locks p hfree rfl rfl)⟩
    case isFalse => cases hstep
  | write p =>
    rw [CamRelay.State.runWriter] at hstep
    cases ok with
    | true => exact Option.some.inj hstep ▸ ⟨_, hmoves .release (hends rfl) (.returns p rfl rfl)⟩
    | false => exact Option.some.inj hstep ▸ ⟨_, hmoves (.flag p) (hends rfl) (.fails p rfl rfl)⟩
  | flag p => exact Option.some.inj hstep ▸ ⟨_, hmoves .release (hends rfl) (.flags p rfl rfl)⟩
  | release => exact Option.some.inj hstep ▸ ⟨_, hmoves .done (hends rfl) (.unlocks rfl rfl)⟩
  | done => cases hstep

end Relay

/-! ## One writer at a time -/

/-- The call has the lock. -/
def inside : Writer → Bool
  | .write _ | .flag _ | .release => true
  | _ => false

structure Pipes (s : State β) : Prop where
  numbered : Numbered s.relay
  jobs : s.jobs.length = s.relay.writers.length
  stdin : s.stdin.length = s.relay.started
  lock : ∀ (i : Nat) (call : Writer × Job β), s.calls[i]? = some call → inside call.1 = true →
    s.relay.lock = some i
  /-- Nothing of a frame is put into a pipe before the call has the lock. -/
  fresh : ∀ call ∈ s.calls, inside call.1 = false → pending call.1 = true → call.2.put = 0
  known : ∀ f ∈ s.written, f.process < s.relay.started
  stream : ∀ (p : Nat) (bytes : List β), s.stdin[p]? = some bytes → p ∉ s.relay.failed →
    bytes = (s.framesTo p).flatten ++ s.part p

section Steps

variable {black : List β} {s t : State β} {p i : Nat} {call : Writer × Job β} {job : Job β}

theorem part_unlocked (h : s.relay.lock = none) : s.part p = [] := by
  rw [State.part, h]
  rfl

theorem part_locked (hlock : s.relay.lock = some i) (hi : s.calls[i]? = some call) :
    s.part p = unfinished p call := by
  rw [State.part, hlock, Option.bind_some, hi]

/-- The call that has the lock writes to a process that was started. -/
theorem Pipes.part_nil (h : Pipes s) (hp : s.relay.started ≤ p) : s.part p = [] := by
  unfold State.part
  cases hlock : s.relay.lock.bind (s.calls[·]?) with
  | none => rfl
  | some call =>
    obtain ⟨i, -, hi⟩ := Option.bind_eq_some_iff.mp hlock
    obtain ⟨w, job⟩ := call
    have hw : w ∈ s.relay.writers :=
      List.mem_of_getElem? (List.getElem?_zip_eq_some.mp hi).1
    cases w with
    | write q =>
      have hq := h.numbered.target _ hw q rfl
      exact if_neg (by omega)
    | _ => rfl

/-- The thread of the event loop has gone on. -/
structure Grown (s t : State β) (job : Job β) (live n m : Nat) : Prop where
  looped : Looped s.relay t.relay live n m
  jobs : t.jobs = s.jobs ++ List.replicate n job
  stdin : t.stdin = s.stdin ++ List.replicate m []
  written : t.written = s.written
  cameras : t.cameras = s.cameras

theorem follow_grown {e : CamRelay.Event} (he : isWrite e = false)
    (hstep : s.follow black e job = some t) :
    ∃ n m, Grown s t job (liveAfter s.relay.live e) n m := by
  obtain ⟨relay, hrelay, rfl⟩ := Option.map_eq_some_iff.mp hstep
  obtain ⟨n, m, hlooped⟩ := loopStep he hrelay
  refine ⟨n, m, hlooped, ?_, ?_, rfl, rfl⟩
  · simp only [hlooped.writers, List.length_append, List.length_replicate, Nat.add_sub_cancel_left]
  · simp only [hlooped.started, Nat.add_sub_cancel_left]

theorem Grown.calls {live n m : Nat} (h : Grown s t job live n m)
    (hjobs : s.jobs.length = s.relay.writers.length) :
    t.calls = s.calls ++ List.replicate n (.readProc, job) := by
  rw [State.calls, h.looped.writers, h.jobs, List.zip_append hjobs.symm, List.zip_replicate']
  rfl

theorem Pipes.grown (h : Pipes s) {live n m : Nat} (hgrown : Grown s t job live n m)
    (hput : job.put = 0) : Pipes t := by
  have hcalls := hgrown.calls h.jobs
  have hold : ∀ {i : Nat} {call : Writer × Job β}, t.calls[i]? = some call →
      s.calls[i]? = some call ∨ call = (Writer.readProc, job) := by
    intro i call hi
    rw [hcalls, List.getElem?_append] at hi
    split at hi
    · exact .inl hi
    · exact .inr (List.eq_of_mem_replicate (List.mem_of_getElem? hi))
  have hpart : ∀ p, t.part p = s.part p := by
    intro p
    cases hlock : s.relay.lock with
    | none =>
      rw [part_unlocked hlock, part_unlocked (hgrown.looped.lock.trans hlock)]
    | some i =>
      have hlock' := hgrown.looped.lock.trans hlock
      cases hs : s.calls[i]? with
      | some call =>
        have ht : t.calls[i]? = some call := by
          rw [hcalls, List.getElem?_append_left (List.getElem?_eq_some_iff.mp hs).1, hs]
        rw [part_locked hlock hs, part_locked hlock' ht]
      | none =>
        have hnone : s.part p = [] := by rw [State.part, hlock, Option.bind_some, hs]
        rw [hnone]
        cases ht : t.calls[i]? with
        | some call =>
          rw [part_locked hlock' ht]
          rcases hold ht with hsome | rfl
          · rw [hs] at hsome
            cases hsome
          · rfl
        | none => rw [State.part, hlock', Option.bind_some, ht]
  refine ⟨hgrown.looped.numbered h.numbered, ?_, ?_, ?_, ?_, ?_, ?_⟩
  · simp [hgrown.jobs, hgrown.looped.writers, h.jobs]
  · simp [hgrown.stdin, hgrown.looped.started, h.stdin]
  · intro i call hi hinside
    rw [hgrown.looped.lock]
    rcases hold hi with hs | rfl
    · exact h.lock i call hs hinside
    · cases hinside
  · intro call hmem hinside hpending
    obtain ⟨i, hi⟩ := List.getElem?_of_mem hmem
    rcases hold hi with hs | rfl
    · exact h.fresh call (List.mem_of_getElem? hs) hinside hpending
    · exact hput
  · intro f hf
    rw [hgrown.looped.started]
    exact Nat.lt_add_right _ (h.known f (hgrown.written ▸ hf))
  · intro p bytes hp hfailed
    rw [hgrown.looped.failed] at hfailed
    rw [hpart, State.framesTo, hgrown.written]
    rw [hgrown.stdin, List.getElem?_append] at hp
    split at hp
    · exact h.stream p bytes hp hfailed
    · -- a process that has just been started
      rename_i hlt
      have hnew : s.relay.started ≤ p := h.stdin ▸ Nat.le_of_not_lt hlt
      obtain rfl := List.eq_of_mem_replicate (List.mem_of_getElem? hp)
      have hframes : (s.written.filter fun f => f.process == p) = [] := by
        refine List.filter_eq_nil_iff.mpr fun f hf => ?_
        have hbelow := h.known f hf
        simp only [beq_iff_eq]
        omega
      rw [hframes, h.part_nil hnew]
      rfl

theorem calls_at {w : Writer} (hw : s.relay.writers[i]? = some w) (hj : s.jobs[i]? = some job) :
    s.calls[i]? = some (w, job) := List.getElem?_zip_eq_some.mpr ⟨hw, hj⟩

theorem Pipes.putBytes (h : Pipes s) (hw : s.relay.writers[i]? = some (.write p))
    (hj : s.jobs[i]? = some job) {bytes : List β} (hp : s.stdin[p]? = some bytes) (n : Nat) :
    Pipes (s.putBytes i n p job bytes) := by
  have hi := calls_at hw hj
  have hlock := h.lock i _ hi rfl
  have hcalls : (s.putBytes i n p job bytes).calls
      = s.calls.set i (.write p, { job with put := job.put + n }) := Indexed.zip_set_right hw
  have hpart : ∀ q, (s.putBytes i n p job bytes).part q
      = unfinished q (.write p, { job with put := job.put + n }) := fun q =>
    part_locked hlock (by rw [hcalls]; exact Indexed.set_self hi)
  refine ⟨h.numbered, ?_, ?_, ?_, ?_, h.known, ?_⟩
  · exact (List.length_set).trans h.jobs
  · exact (List.length_set).trans h.stdin
  · rw [hcalls]
    exact Indexed.forall_set h.lock fun _ => hlock
  · rw [hcalls]
    intro call hmem hinside
    rcases List.mem_or_eq_of_mem_set hmem with hold | rfl
    · exact h.fresh call hold hinside
    · cases hinside
  · intro q bytes' hq hfailed
    rw [hpart]
    rcases Indexed.of_set hq with ⟨rfl, rfl⟩ | ⟨hqp, hold⟩
    · have hstream := h.stream q bytes hp hfailed
      rw [part_locked hlock hi, unfinished, if_pos rfl] at hstream
      rw [unfinished, if_pos rfl, List.take_add, ← List.append_assoc, hstream]
      rfl
    · have hstream := h.stream q bytes' hold hfailed
      rw [part_locked hlock hi, unfinished, if_neg (Ne.symm hqp)] at hstream
      rw [unfinished, if_neg (Ne.symm hqp)]
      exact hstream

theorem runWriter_length {r r' : CamRelay.State} {w : Writer} {ok : Bool}
    (hw : r.writers[i]? = some w) (hstep : r.runWriter i ok w = some r') :
    r'.writers.length = r.writers.length ∧ r'.started = r.started := by
  obtain ⟨w', hwriter⟩ := writerStep hw hstep
  exact ⟨by rw [hwriter.writers, List.length_set], hwriter.started⟩

theorem follow_write {w : Writer} {ok : Bool} (hw : s.relay.writers[i]? = some w)
    (hstep : s.follow black (.write i ok) job = some t) :
    ∃ relay, s.relay.runWriter i ok w = some relay ∧ t = { s with relay } := by
  obtain ⟨relay, hrelay, rfl⟩ := Option.map_eq_some_iff.mp hstep
  rw [CamRelay.State.step, hw] at hrelay
  obtain ⟨hlength, hstarted⟩ := runWriter_length hw hrelay
  refine ⟨relay, hrelay, ?_⟩
  simp only [hlength, hstarted, Nat.sub_self, List.replicate_zero, List.append_nil]

/-- A call goes from one place to another, with its frame. -/
theorem Pipes.moves (h : Pipes s) {w w' : Writer} (hw : s.relay.writers[i]? = some w)
    (hj : s.jobs[i]? = some job) {relay : CamRelay.State}
    {ok : Bool} (hwriter : WriterStep s.relay relay i ok w w')
    (hlock : inside w' = true → relay.lock = some i)
    (hothers : ∀ j, j ≠ i → s.relay.lock = some j → relay.lock = some j)
    (hfresh : inside w' = false → pending w' = true → job.put = 0)
    (hstream : ∀ q, q ∉ relay.failed → q ∉ s.relay.failed
      ∧ { s with relay : State β }.part q = s.part q) : Pipes { s with relay } := by
  have hcalls : { s with relay : State β }.calls = s.calls.set i (w', job) := by
    rw [State.calls, hwriter.writers]
    exact Indexed.zip_set_left hj
  refine ⟨hwriter.numbered h.numbered, ?_, ?_, ?_, ?_, ?_, fun q bytes hq hfailed => ?_⟩
  · rw [hwriter.writers, List.length_set]
    exact h.jobs
  · rw [hwriter.started]
    exact h.stdin
  · rw [hcalls]
    intro j call hj' hinside
    rcases Indexed.of_set hj' with ⟨rfl, rfl⟩ | ⟨hji, hold⟩
    · exact hlock hinside
    · exact hothers j hji (h.lock j call hold hinside)
  · rw [hcalls]
    intro call hmem hinside hpending
    rcases List.mem_or_eq_of_mem_set hmem with hold | rfl
    · exact h.fresh call hold hinside hpending
    · exact hfresh hinside hpending
  · rw [hwriter.started]
    exact h.known
  · obtain ⟨hold, hpart⟩ := hstream q hfailed
    rw [hpart]
    exact h.stream q bytes hq hold

/-- The lock is where it was, or the call has taken it or given it back. -/
def LockMoves (i : Nat) (lock lock' : Option Nat) : Prop :=
  lock' = lock ∨ (lock = none ∧ lock' = some i) ∨ (lock = some i ∧ lock' = none)

/-- A call that is at no write, or at one to another process, is no part of a pipe. -/
theorem part_moves {w w' : Writer} (hi : s.calls[i]? = some (w, job))
    (hcalls : t.calls = s.calls.set i (w', job))
    (hlock : LockMoves i s.relay.lock t.relay.lock)
    (hold : unfinished p (w, job) = []) (hnew : unfinished p (w', job) = []) :
    t.part p = s.part p := by
  have hself : t.calls[i]? = some (w', job) := hcalls ▸ Indexed.set_self hi
  rcases hlock with hsame | ⟨hnone, hsome⟩ | ⟨hsome, hnone⟩
  · cases hlock : s.relay.lock with
    | none => rw [part_unlocked hlock, part_unlocked (hsame.trans hlock)]
    | some j =>
      by_cases hji : j = i
      · subst hji
        rw [part_locked hlock hi, part_locked (hsame.trans hlock) hself, hold, hnew]
      · unfold State.part
        rw [hsame, hlock, Option.bind_some, Option.bind_some, hcalls, Indexed.set_ne hji]
  · rw [part_unlocked hnone, part_locked hsome hself, hnew]
  · rw [part_unlocked hnone, part_locked hsome hi, hold]

theorem Pipes.moves_silent (h : Pipes s) {w w' : Writer} (hw : s.relay.writers[i]? = some w)
    (hj : s.jobs[i]? = some job) {relay : CamRelay.State}
    {ok : Bool} (hwriter : WriterStep s.relay relay i ok w w')
    (hlock : LockMoves i s.relay.lock relay.lock)
    (hinside : inside w' = true → relay.lock = some i)
    (hfresh : inside w' = false → pending w' = true → job.put = 0)
    (hstream : ∀ q, q ∉ relay.failed → q ∉ s.relay.failed
      ∧ unfinished q (w, job) = [] ∧ unfinished q (w', job) = []) : Pipes { s with relay } := by
  refine h.moves hw hj hwriter hinside (fun j hji hj => ?_) hfresh fun q hq => ?_
  · rcases hlock with hsame | ⟨hnone, -⟩ | ⟨hsome, -⟩
    · exact hsame.trans hj
    · rw [hnone] at hj
      cases hj
    · exact absurd (Option.some.inj (hj.symm.trans hsome)) hji
  · obtain ⟨hfailed, hold, hnew⟩ := hstream q hq
    refine ⟨hfailed, part_moves (calls_at hw hj) ?_ hlock hold hnew⟩
    rw [State.calls, hwriter.writers]
    exact Indexed.zip_set_left hj

theorem Pipes.follow_write (h : Pipes s) {w : Writer} {ok : Bool}
    (hw : s.relay.writers[i]? = some w) (hj : s.jobs[i]? = some job)
    (hsilent : ok = true → ∀ p, w ≠ .write p)
    (hstep : s.follow black (.write i ok) (blackJob black) = some t) : Pipes t := by
  obtain ⟨relay, hrelay, rfl⟩ := CamFrames.follow_write hw hstep
  obtain ⟨w', hwriter⟩ := writerStep hw hrelay
  have hlocked := h.lock i _ (calls_at hw hj)
  have hput := h.fresh _ (List.mem_of_getElem? (calls_at hw hj))
  have hquiet : relay.failed = s.relay.failed →
      (∀ q, unfinished q (w, job) = [] ∧ unfinished q (w', job) = []) →
      ∀ q, q ∉ relay.failed → q ∉ s.relay.failed
        ∧ unfinished q (w, job) = [] ∧ unfinished q (w', job) = [] := by
    intro hfailed hnil q hq
    rw [hfailed] at hq
    exact ⟨hq, hnil q⟩
  cases hwriter.pass with
  | reads p hlock hfailed =>
    exact h.moves_silent hw hj hwriter (.inl hlock) nofun (fun _ _ => hput rfl rfl)
      (hquiet hfailed fun _ => ⟨rfl, rfl⟩)
  | skips hlock hfailed =>
    exact h.moves_silent hw hj hwriter (.inl hlock) nofun nofun
      (hquiet hfailed fun _ => ⟨rfl, rfl⟩)
  | locks p hfree hlock hfailed =>
    refine h.moves_silent hw hj hwriter (.inr (.inl ⟨hfree, hlock⟩)) (fun _ => hlock) nofun
      (hquiet hfailed fun q => ⟨rfl, ?_⟩)
    have hnothing : job.put = 0 := hput rfl rfl
    simp [unfinished, hnothing]
  | returns p => exact absurd rfl (hsilent rfl p)
  | fails p hlock hfailed =>
    refine h.moves_silent hw hj hwriter (.inl hlock) (fun _ => hlock.trans (hlocked rfl)) nofun
      fun q hq => ?_
    rw [hfailed, List.mem_cons, not_or] at hq
    exact ⟨hq.2, if_neg (Ne.symm hq.1), rfl⟩
  | flags p hlock hfailed =>
    exact h.moves_silent hw hj hwriter (.inl hlock) (fun _ => hlock.trans (hlocked rfl)) nofun
      (hquiet hfailed fun _ => ⟨rfl, rfl⟩)
  | unlocks hlock hfailed =>
    exact h.moves_silent hw hj hwriter (.inr (.inr ⟨hlocked rfl, hlock⟩)) nofun nofun
      (hquiet hfailed fun _ => ⟨rfl, rfl⟩)

/-- A frame has been written. What was a part of it at the end of the pipe is all of it. -/
theorem Pipes.wrote (h : Pipes s) (hw : s.relay.writers[i]? = some (.write p))
    (hj : s.jobs[i]? = some job) (hall : job.data.length ≤ job.put)
    (hstep : (s.wrote p job).follow black (.write i true) (blackJob black) = some t) :
    Pipes t := by
  obtain ⟨relay, hrelay, rfl⟩ := CamFrames.follow_write (s := s.wrote p job) hw hstep
  obtain ⟨w', hwriter⟩ := writerStep hw hrelay
  have hi := calls_at hw hj
  have hlocked := h.lock i _ hi rfl
  cases hwriter.pass with
  | returns _ hlock hfailed =>
    have hlock' : relay.lock = some i := hlock.trans hlocked
    have hcalls : { s.wrote p job with relay : State β }.calls = s.calls.set i (.release, job) := by
      rw [State.calls, hwriter.writers]
      exact Indexed.zip_set_left hj
    have hpart : ∀ q, { s.wrote p job with relay : State β }.part q = [] := fun q => by
      rw [part_locked hlock' (by rw [hcalls]; exact Indexed.set_self hi)]
      rfl
    refine ⟨hwriter.numbered h.numbered, ?_, ?_, ?_, ?_, ?_, fun q bytes hq hnot => ?_⟩
    · rw [hwriter.writers, List.length_set]
      exact h.jobs
    · rw [hwriter.started]
      exact h.stdin
    · rw [hcalls]
      refine Indexed.forall_set (fun j call hj' hinside => ?_) fun _ => hlock'
      exact hlock.trans (h.lock j call hj' hinside)
    · rw [hcalls]
      intro call hmem hinside
      rcases List.mem_or_eq_of_mem_set hmem with hold | rfl
      · exact h.fresh call hold hinside
      · cases hinside
    · rw [hwriter.started]
      intro f hf
      rcases List.mem_append.mp hf with hold | hnew
      · exact h.known f hold
      · rw [List.mem_singleton.mp hnew]
        exact h.numbered.target _ (List.mem_of_getElem? hw) p rfl
    · rw [hfailed] at hnot
      have hstream := h.stream q bytes hq hnot
      rw [part_locked hlocked hi, unfinished, List.take_of_length_le hall] at hstream
      rw [hpart, List.append_nil, hstream]
      by_cases hqp : p = q
      · subst hqp
        simp [State.framesTo, State.wrote]
      · simp [State.framesTo, State.wrote, hqp]

end Steps

/-! ## The cameras -/

structure Cameras (s : State β) : Prop where
  own : ∀ (c : Nat) (cam : Camera β), s.cameras[c]? = some cam → ∀ i, cam.awaits = some i →
    ∃ call, s.calls[i]? = some call ∧ call.2.source = some c
  /-- A frame that is not written yet is waited for. -/
  awaited : ∀ (i : Nat) (call : Writer × Job β), s.calls[i]? = some call →
    pending call.1 = true → ∀ c, call.2.source = some c →
    ∃ cam, s.cameras[c]? = some cam ∧ cam.awaits = some i
  known : ∀ f ∈ s.written, ∀ c, f.source = some c → c < s.cameras.length
  order : ∀ (c : Nat) (cam : Camera β), s.cameras[c]? = some cam →
    (s.framesOf c ++ s.due cam).Sublist cam.taken

section Cameras

variable {black : List β} {s t : State β} {i c : Nat} {call : Writer × Job β} {job : Job β}
  {cam : Camera β}

theorem due_none (h : cam.awaits = none) : s.due cam = [] := by
  rw [State.due, h]
  rfl

theorem due_some (h : cam.awaits = some i) (hi : s.calls[i]? = some call) :
    s.due cam = unwritten call := by
  rw [State.due, h, Option.bind_some, hi]

/-- Calls that are not from a camera, and processes. -/
theorem Cameras.grown (h : Cameras s) (hjobs : s.jobs.length = s.relay.writers.length)
    {live n m : Nat} (hgrown : Grown s t job live n m) (hsource : job.source = none) :
    Cameras t := by
  have hcalls := hgrown.calls hjobs
  have hkept : ∀ {i : Nat} {call : Writer × Job β}, s.calls[i]? = some call →
      t.calls[i]? = some call := by
    intro i call hi
    rw [hcalls, List.getElem?_append_left (List.getElem?_eq_some_iff.mp hi).1, hi]
  refine ⟨fun c cam hc i hi => ?_, fun i call hi hpending c hc => ?_, ?_, fun c cam hc => ?_⟩
  · obtain ⟨call, hcall, hown⟩ := h.own c cam (hgrown.cameras ▸ hc) i hi
    exact ⟨call, hkept hcall, hown⟩
  · rw [hgrown.cameras]
    rw [hcalls, List.getElem?_append] at hi
    split at hi
    · exact h.awaited i call hi hpending c hc
    · obtain rfl := List.eq_of_mem_replicate (List.mem_of_getElem? hi)
      rw [hsource] at hc
      cases hc
  · rw [hgrown.written, hgrown.cameras]
    exact h.known
  · rw [hgrown.cameras] at hc
    have hdue : t.due cam = s.due cam := by
      cases hawaits : cam.awaits with
      | none => rw [due_none hawaits, due_none hawaits]
      | some i =>
        obtain ⟨call, hcall, -⟩ := h.own c cam hc i hawaits
        rw [due_some hawaits hcall, due_some hawaits (hkept hcall)]
    rw [hdue, State.framesOf, hgrown.written]
    exact h.order c cam hc

/-- A call goes on and is from the same camera. -/
theorem Cameras.sets (h : Cameras s) {w w' : Writer} {job' : Job β}
    (hi : s.calls[i]? = some (w, job)) (hcalls : t.calls = s.calls.set i (w', job'))
    (hsource : job'.source = job.source) (hpending : pending w' = true → pending w = true)
    (hcameras : t.cameras = s.cameras)
    (hknown : ∀ f ∈ t.written, ∀ c, f.source = some c → c < s.cameras.length)
    (horder : ∀ (c : Nat) (cam : Camera β), s.cameras[c]? = some cam →
      (t.framesOf c ++ t.due cam).Sublist (s.framesOf c ++ s.due cam)) : Cameras t := by
  refine ⟨fun c cam hc j hj => ?_, ?_, ?_, fun c cam hc => ?_⟩
  · obtain ⟨call, hcall, hown⟩ := h.own c cam (hcameras ▸ hc) j hj
    rw [hcalls]
    by_cases hji : j = i
    · subst hji
      obtain rfl := Option.some.inj (hi.symm.trans hcall)
      exact ⟨_, Indexed.set_self hi, hsource.trans hown⟩
    · exact ⟨call, (Indexed.set_ne hji).trans hcall, hown⟩
  · rw [hcalls, hcameras]
    refine Indexed.forall_set h.awaited fun hp c hc => ?_
    exact h.awaited i _ hi (hpending hp) c (hsource ▸ hc)
  · rw [hcameras]
    exact hknown
  · exact (horder c cam (hcameras ▸ hc)).trans (h.order c cam (hcameras ▸ hc))

/-- What a camera still has to have written, after its call or another has gone on. -/
theorem due_sets {w w' : Writer} {job' : Job β} (hi : s.calls[i]? = some (w, job))
    (hcalls : t.calls = s.calls.set i (w', job')) (hdata : job'.data = job.data)
    (hpending : pending w' = true → pending w = true) (cam : Camera β) :
    (t.due cam).Sublist (s.due cam) := by
  unfold State.due
  rw [hcalls]
  cases cam.awaits with
  | none => exact List.Sublist.refl _
  | some j =>
    simp only [Option.bind_some]
    by_cases hji : j = i
    · subst hji
      rw [Indexed.set_self hi, hi]
      unfold unwritten
      cases hp : pending w' with
      | true => simp [hp, hpending hp, hdata]
      | false => simp [hp]
    · rw [Indexed.set_ne hji]

theorem Cameras.follow_write (h : Cameras s) {w : Writer} {ok : Bool}
    (hw : s.relay.writers[i]? = some w) (hj : s.jobs[i]? = some job)
    (hstep : s.follow black (.write i ok) (blackJob black) = some t) : Cameras t := by
  obtain ⟨relay, hrelay, rfl⟩ := CamFrames.follow_write hw hstep
  obtain ⟨w', hwriter⟩ := writerStep hw hrelay
  have hi := calls_at hw hj
  have hcalls : { s with relay : State β }.calls = s.calls.set i (w', job) := by
    rw [State.calls, hwriter.writers]
    exact Indexed.zip_set_left hj
  have hpending : pending w' = true → pending w = true := by
    cases hwriter.pass with
    | reads | skips | locks | returns | fails => exact fun _ => rfl
    | flags | unlocks => exact id
  exact h.sets hi hcalls rfl hpending rfl h.known fun c cam _ =>
    (List.Sublist.refl _).append (due_sets hi hcalls rfl hpending cam)

theorem Cameras.putBytes (h : Cameras s) {p : Nat} (hw : s.relay.writers[i]? = some (.write p))
    (hj : s.jobs[i]? = some job) (bytes : List β) (n : Nat) :
    Cameras (s.putBytes i n p job bytes) := by
  have hi := calls_at hw hj
  have hcalls : (s.putBytes i n p job bytes).calls
      = s.calls.set i (.write p, { job with put := job.put + n }) := Indexed.zip_set_right hw
  exact h.sets hi hcalls rfl id rfl h.known fun c cam _ =>
    (List.Sublist.refl _).append (due_sets hi hcalls rfl id cam)

/-- A frame has been written, and its camera has it written no more than once. -/
theorem Cameras.wrote (h : Cameras s) {p : Nat} (hw : s.relay.writers[i]? = some (.write p))
    (hj : s.jobs[i]? = some job)
    (hstep : (s.wrote p job).follow black (.write i true) (blackJob black) = some t) :
    Cameras t := by
  obtain ⟨relay, hrelay, rfl⟩ := CamFrames.follow_write (s := s.wrote p job) hw hstep
  obtain ⟨w', hwriter⟩ := writerStep hw hrelay
  have hi := calls_at hw hj
  have hcalls : { s.wrote p job with relay : State β }.calls = s.calls.set i (w', job) := by
    rw [State.calls, hwriter.writers]
    exact Indexed.zip_set_left hj
  obtain rfl : w' = .release := by
    cases hwriter.pass
    rfl
  refine h.sets hi hcalls rfl nofun rfl (fun f hf c hc => ?_) fun c cam hc => ?_
  · rcases List.mem_append.mp hf with hold | hnew
    · exact h.known f hold c hc
    · obtain rfl := List.mem_singleton.mp hnew
      obtain ⟨cam, hcam, -⟩ := h.awaited i _ hi rfl c hc
      exact (List.getElem?_eq_some_iff.mp hcam).1
  · by_cases hsource : job.source = some c
    · obtain ⟨cam', hcam', hawaits⟩ := h.awaited i _ hi rfl c hsource
      obtain rfl : cam = cam' := Option.some.inj (hc.symm.trans hcam')
      rw [due_some hawaits hi, due_some hawaits (by rw [hcalls]; exact Indexed.set_self hi)]
      simp [State.framesOf, State.wrote, hsource, unwritten, pending]
    · have hframes : { s.wrote p job with relay : State β }.framesOf c = s.framesOf c := by
        simp [State.framesOf, State.wrote, hsource]
      rw [hframes]
      exact (List.Sublist.refl _).append (due_sets hi hcalls rfl nofun cam)

/-- A camera changes, and neither its frames nor the call it waits for. -/
theorem Cameras.setCamera (h : Cameras s) (hc : s.cameras[c]? = some cam) {cam' : Camera β}
    (hawaits : cam'.awaits = cam.awaits) (htaken : cam'.taken = cam.taken) :
    Cameras (s.setCamera c cam') := by
  refine ⟨Indexed.forall_set h.own fun i hi => h.own c cam hc i (hawaits ▸ hi),
    fun i call hi hpending d hd => ?_, fun f hf d hd => ?_, Indexed.forall_set h.order ?_⟩
  · obtain ⟨cam₁, hcam₁, hwaits⟩ := h.awaited i call hi hpending d hd
    by_cases hdc : d = c
    · subst hdc
      obtain rfl := Option.some.inj (hc.symm.trans hcam₁)
      exact ⟨cam', Indexed.set_self hc, hawaits.trans hwaits⟩
    · exact ⟨cam₁, (Indexed.set_ne hdc).trans hcam₁, hwaits⟩
  · change d < (s.cameras.set c cam').length
    rw [List.length_set]
    exact h.known f hf d hd
  · rw [htaken, State.due, hawaits]
    exact h.order c cam hc

theorem Cameras.connects (h : Cameras s) :
    Cameras ({ s with cameras := s.cameras ++ [({} : Camera β)] } : State β) := by
  refine ⟨Indexed.forall_concat h.own nofun, fun i call hi hpending d hd => ?_, fun f hf d hd => ?_,
    Indexed.forall_concat h.order ?_⟩
  · obtain ⟨cam, hcam, hwaits⟩ := h.awaited i call hi hpending d hd
    exact ⟨cam, Indexed.concat_old hcam, hwaits⟩
  · change d < (s.cameras ++ [({} : Camera β)]).length
    rw [List.length_append]
    exact Nat.lt_add_right _ (h.known f hf d hd)
  · have hframes : s.framesOf s.cameras.length = [] := by
      simp only [State.framesOf, List.map_eq_nil_iff, List.filter_eq_nil_iff, beq_iff_eq]
      exact fun f hf hsource => Nat.lt_irrefl _ (h.known f hf _ hsource)
    change (s.framesOf s.cameras.length ++ []).Sublist []
    rw [hframes]
    exact List.Sublist.refl _

theorem Cameras.resumes (h : Cameras s) (hc : s.cameras[c]? = some cam)
    (hreturned : cam.awaits.any s.returned = true) :
    Cameras (s.setCamera c { cam with awaits := none }) := by
  obtain ⟨i, hawaits, hdone⟩ := (Option.any_eq_true _ _).mp hreturned
  have hdone : s.relay.writers[i]? = some .done := beq_iff_eq.mp hdone
  refine ⟨Indexed.forall_set h.own nofun, fun j call hj hpending d hd => ?_, fun f hf d hd => ?_,
    Indexed.forall_set h.order ?_⟩
  · obtain ⟨cam₁, hcam₁, hwaits⟩ := h.awaited j call hj hpending d hd
    refine ⟨cam₁, (Indexed.set_ne fun hdc => ?_).trans hcam₁, hwaits⟩
    -- the call it waited for has returned, and is not one that is pending
    subst hdc
    obtain rfl := Option.some.inj (hc.symm.trans hcam₁)
    obtain rfl := Option.some.inj (hawaits.symm.trans hwaits)
    have hw : s.relay.writers[i]? = some call.1 := (List.getElem?_zip_eq_some.mp hj).1
    rw [hdone] at hw
    rw [← Option.some.inj hw] at hpending
    cases hpending
  · change d < (s.cameras.set c { cam with awaits := none }).length
    rw [List.length_set]
    exact h.known f hf d hd
  · exact ((List.Sublist.refl _).append (List.nil_sublist _)).trans (h.order c cam hc)

theorem follow_frame (hjobs : s.jobs.length = s.relay.writers.length)
    (hstep : s.follow black .frame job = some t) :
    Grown s t job s.relay.live 1 0 ∧ t.calls = s.calls ++ [(Writer.readProc, job)] := by
  obtain ⟨relay, hrelay, rfl⟩ := Option.map_eq_some_iff.mp hstep
  rw [CamRelay.State.step] at hrelay
  split at hrelay
  case isTrue =>
    obtain rfl := Option.some.inj hrelay
    have hone : s.relay.submit.writers.length - s.relay.writers.length = 1 := by
      simp [CamRelay.State.submit]
    have hnone : s.relay.submit.started - s.relay.started = 0 := Nat.sub_self _
    rw [hone, hnone]
    have hgrown : Grown s { s with
        relay := s.relay.submit
        jobs := s.jobs ++ List.replicate 1 job
        stdin := s.stdin ++ List.replicate 0 [] } job s.relay.live 1 0 :=
      ⟨⟨rfl, rfl, rfl, rfl, rfl, fun h => h.submit⟩, rfl, rfl, rfl, rfl⟩
    exact ⟨hgrown, hgrown.calls hjobs⟩
  case isFalse => cases hrelay

/-- A frame is received, and a call is made with it. -/
theorem Cameras.frame (h : Cameras s) (hjobs : s.jobs.length = s.relay.writers.length)
    (hc : s.cameras[c]? = some cam) (hawaits : cam.awaits = none) {data : List β}
    (hstep : (s.setCamera c { cam with
      taken := cam.taken ++ [data], awaits := some s.jobs.length }).follow black .frame
        { source := some c, data } = some t) : Cameras t := by
  obtain ⟨hgrown, hcalls⟩ := follow_frame (s := s.setCamera c { cam with
    taken := cam.taken ++ [data], awaits := some s.jobs.length }) hjobs hstep
  replace hcalls : t.calls = s.calls ++ [(Writer.readProc, { source := some c, data })] := hcalls
  have hcameras : t.cameras = s.cameras.set c { cam with
    taken := cam.taken ++ [data], awaits := some s.jobs.length } := hgrown.cameras
  have hwritten : t.written = s.written := hgrown.written
  have hlength : s.calls.length = s.jobs.length := by
    rw [State.calls, List.length_zip, hjobs, Nat.min_self]
  have hnew : t.calls[s.jobs.length]? = some (.readProc, { source := some c, data }) := by
    rw [hcalls, ← hlength, List.getElem?_concat_length]
  have hkept : ∀ {i : Nat} {call : Writer × Job β}, s.calls[i]? = some call →
      t.calls[i]? = some call := fun hi => hcalls ▸ Indexed.concat_old hi
  refine ⟨?_, fun i call hi hpending d hd => ?_, fun f hf d hd => ?_, ?_⟩
  · rw [hcameras]
    refine Indexed.forall_set (fun d cam' hd i hi => ?_) fun i hi => ?_
    · obtain ⟨call, hcall, hown⟩ := h.own d cam' hd i hi
      exact ⟨call, hkept hcall, hown⟩
    · obtain rfl := Option.some.inj hi
      exact ⟨_, hnew, rfl⟩
  · rw [hcameras]
    rw [hcalls] at hi
    rcases Indexed.of_concat hi with hold | ⟨rfl, rfl⟩
    · obtain ⟨cam₁, hcam₁, hwaits⟩ := h.awaited i call hold hpending d hd
      refine ⟨cam₁, (Indexed.set_ne fun hdc => ?_).trans hcam₁, hwaits⟩
      subst hdc
      obtain rfl := Option.some.inj (hc.symm.trans hcam₁)
      rw [hawaits] at hwaits
      cases hwaits
    · obtain rfl := Option.some.inj hd
      exact ⟨_, Indexed.set_self hc, congrArg some hlength.symm⟩
  · rw [hcameras, List.length_set]
    exact h.known f (hwritten ▸ hf) d hd
  · rw [hcameras]
    refine Indexed.forall_set (fun d cam' hd => ?_) ?_
    · have hdue : t.due cam' = s.due cam' := by
        cases hwaits : cam'.awaits with
        | none => rw [due_none hwaits, due_none hwaits]
        | some i =>
          obtain ⟨call, hcall, -⟩ := h.own d cam' hd i hwaits
          rw [due_some hwaits hcall, due_some hwaits (hkept hcall)]
      rw [hdue, State.framesOf, hwritten]
      exact h.order d cam' hd
    · rw [due_some rfl hnew, State.framesOf, hwritten]
      have horder := h.order c cam hc
      rw [due_none hawaits, List.append_nil] at horder
      exact horder.append (List.Sublist.refl _)

/-- `_LIVE["n"]` is the number of the connections. -/
def Counted (s : State β) : Prop := s.relay.live = s.cameras.countP (·.opened)

structure Inv (s : State β) : Prop where
  pipes : Pipes s
  cameras : Cameras s
  counted : Counted s

theorem Inv.follow {e : CamRelay.Event} (h : Inv s) (he : isWrite e = false)
    (hlive : liveAfter s.relay.live e = s.relay.live)
    (hstep : s.follow black e (blackJob black) = some t) : Inv t := by
  obtain ⟨n, m, hgrown⟩ := follow_grown he hstep
  refine ⟨h.pipes.grown hgrown rfl, h.cameras.grown h.pipes.jobs hgrown rfl, ?_⟩
  rw [Counted, hgrown.looped.live, hgrown.cameras, hlive]
  exact h.counted

/-- The calls and the pipes know nothing of the handlers. -/
theorem Pipes.handlers (h : Pipes s) (cameras : List (Camera β)) (idle : Option Nat) :
    Pipes { s with cameras, idle } :=
  ⟨h.numbered, h.jobs, h.stdin, h.lock, h.fresh, h.known, h.stream⟩

theorem Inv.idle (h : Inv s) (idle : Option Nat) : Inv { s with idle } :=
  ⟨h.pipes.handlers s.cameras idle, ⟨h.cameras.own, h.cameras.awaited, h.cameras.known,
    h.cameras.order⟩, h.counted⟩

theorem opened_setCamera (hc : s.cameras[c]? = some cam) {cam' : Camera β}
    (hopened : cam'.opened = cam.opened) :
    (s.setCamera c cam').cameras.countP (·.opened) = s.cameras.countP (·.opened) :=
  Indexed.countP_set_same hc hopened

theorem Inv.runCall (h : Inv s) {w : Writer} {ok : Bool} (hw : s.relay.writers[i]? = some w)
    (hj : s.jobs[i]? = some job) (hstep : s.runCall black i ok job w = some t) : Inv t := by
  have hcounted : ∀ {u v : State β} {ok : Bool}, u.relay = s.relay → u.cameras = s.cameras →
      u.follow black (.write i ok) (blackJob black) = some v → Counted v := by
    intro u v ok hrelay hcameras hfollow
    obtain ⟨relay, hrun, rfl⟩ := CamFrames.follow_write (hrelay ▸ hw) hfollow
    obtain ⟨w', hwriter⟩ := writerStep (hrelay ▸ hw) hrun
    exact (hwriter.live.trans (congrArg _ hrelay)).trans (hcameras ▸ h.counted)
  by_cases hwrite : ∃ p, w = .write p
  · obtain ⟨p, rfl⟩ := hwrite
    rw [State.runCall] at hstep
    cases ok with
    | true =>
      split at hstep
      · split at hstep
        case isTrue hall =>
          exact ⟨h.pipes.wrote hw hj hall hstep, h.cameras.wrote hw hj hstep,
            hcounted (u := s.wrote p job) rfl rfl hstep⟩
        case isFalse => cases hstep
      case isFalse hfalse => exact absurd rfl hfalse
    | false =>
      have hfollow : s.follow black (.write i false) (blackJob black) = some t := hstep
      exact ⟨h.pipes.follow_write hw hj (fun hok => (by cases hok)) hfollow,
        h.cameras.follow_write hw hj hfollow, hcounted rfl rfl hfollow⟩
  · have hfollow : s.follow black (.write i ok) (blackJob black) = some t := by
      cases w with
      | write p => exact absurd ⟨p, rfl⟩ hwrite
      | _ => exact hstep
    exact ⟨h.pipes.follow_write hw hj (fun _ p hp => hwrite ⟨p, hp⟩) hfollow,
      h.cameras.follow_write hw hj hfollow, hcounted rfl rfl hfollow⟩

theorem inv_step {e : Event β} (h : Inv s) (hstep : s.step black e = some t) : Inv t := by
  cases e with
  | connect =>
    obtain ⟨n, m, hgrown⟩ := follow_grown rfl hstep
    have hpipes := h.pipes.handlers (s.cameras ++ [({} : Camera β)]) s.idle
    refine ⟨hpipes.grown hgrown rfl, h.cameras.connects.grown hpipes.jobs hgrown rfl, ?_⟩
    rw [Counted, hgrown.looped.live, hgrown.cameras, List.countP_append, ← h.counted]
    rfl
  | frame c data =>
    rw [State.step] at hstep
    split at hstep
    case h_1 cam hc =>
      split at hstep
      case isTrue hready =>
        have hpipes := h.pipes.handlers (s.cameras.set c { cam with
          taken := cam.taken ++ [data], awaits := some s.jobs.length }) s.idle
        obtain ⟨n, m, hgrown⟩ := follow_grown rfl hstep
        refine ⟨hpipes.grown hgrown rfl, h.cameras.frame h.pipes.jobs hc hready.2 hstep, ?_⟩
        have hopened : ({ cam with taken := cam.taken ++ [data], awaits := some s.jobs.length } :
          Camera β).opened = cam.opened := rfl
        rw [Counted, hgrown.looped.live, hgrown.cameras]
        exact h.counted.trans (opened_setCamera hc hopened).symm
      case isFalse => cases hstep
    case h_2 => cases hstep
  | resume c =>
    rw [State.step] at hstep
    split at hstep
    case h_1 cam hc =>
      split at hstep
      case isTrue hready =>
        obtain rfl := Option.some.inj hstep
        refine ⟨h.pipes.handlers _ _, h.cameras.resumes hc hready.2, ?_⟩
        have hopened : ({ cam with awaits := none } : Camera β).opened = cam.opened := rfl
        exact h.counted.trans (opened_setCamera hc hopened).symm
      case isFalse => cases hstep
    case h_2 => cases hstep
  | disconnect c =>
    rw [State.step] at hstep
    split at hstep
    case h_1 cam hc =>
      split at hstep
      case isTrue hopened =>
        have hpipes := h.pipes.handlers (s.cameras.set c { cam with opened := false }) s.idle
        have hcameras : Cameras (s.setCamera c { cam with opened := false }) :=
          h.cameras.setCamera hc rfl rfl
        obtain ⟨n, m, hgrown⟩ := follow_grown rfl hstep
        refine ⟨hpipes.grown hgrown rfl, hcameras.grown hpipes.jobs hgrown rfl, ?_⟩
        have hlost := Indexed.countP_set_lost (a := { cam with opened := false })
          (p := fun cam => cam.opened) hc hopened rfl
        rw [Counted, hgrown.looped.live, hgrown.cameras]
        change s.relay.live - 1 = _
        rw [h.counted, hlost]
        rfl
      case isFalse => cases hstep
    case h_2 => cases hstep
  | idleWakes silent =>
    rw [State.step] at hstep
    split at hstep
    · exact h.follow rfl rfl hstep
    · cases hstep
  | idleResume =>
    rw [State.step] at hstep
    split at hstep
    · exact Option.some.inj hstep ▸ h.idle none
    · cases hstep
  | watchdogWakes => exact h.follow rfl rfl hstep
  | run ok =>
    obtain ⟨u, hfollow, rfl⟩ := Option.map_eq_some_iff.mp hstep
    have hu := h.follow rfl rfl hfollow
    split
    · exact hu.idle _
    · exact hu
  | put i n =>
    rw [State.step] at hstep
    split at hstep
    case h_1 p job hw hj =>
      obtain ⟨bytes, hp, rfl⟩ := Option.map_eq_some_iff.mp hstep
      exact ⟨h.pipes.putBytes hw hj hp n, h.cameras.putBytes hw hj bytes n, h.counted⟩
    case h_2 => cases hstep
  | write i ok =>
    rw [State.step] at hstep
    split at hstep
    case h_1 w job hw hj => exact h.runCall hw hj hstep
    case h_2 => cases hstep
  | exit p => exact h.follow rfl rfl hstep

theorem step_relay {e : Event β} (hstep : s.step black e = some t) :
    t.relay = s.relay ∨ ∃ e', s.relay.step (!black.isEmpty) e' = some t.relay := by
  have hfollow : ∀ {u v : State β} {e'} {job : Job β}, u.relay = s.relay →
      u.follow black e' job = some v → ∃ e', s.relay.step (!black.isEmpty) e' = some v.relay := by
    intro u v e' job hu hv
    obtain ⟨relay, hrelay, rfl⟩ := Option.map_eq_some_iff.mp hv
    exact ⟨e', hu ▸ hrelay⟩
  cases e with
  | connect =>
    have hsame : ({ s with cameras := s.cameras ++ [({} : Camera β)] } : State β).relay = s.relay :=
      rfl
    exact .inr (hfollow hsame hstep)
  | watchdogWakes | exit p => exact .inr (hfollow rfl hstep)
  | frame c data | disconnect c =>
    rw [State.step] at hstep
    split at hstep
    · split at hstep
      · exact .inr (hfollow (u := s.setCamera c _) rfl hstep)
      · cases hstep
    · cases hstep
  | resume c =>
    rw [State.step] at hstep
    split at hstep
    · split at hstep
      · exact .inl (Option.some.inj hstep ▸ rfl)
      · cases hstep
    · cases hstep
  | idleWakes silent =>
    rw [State.step] at hstep
    split at hstep
    · exact .inr (hfollow rfl hstep)
    · cases hstep
  | idleResume =>
    rw [State.step] at hstep
    split at hstep
    · exact .inl (Option.some.inj hstep ▸ rfl)
    · cases hstep
  | run ok =>
    obtain ⟨u, hu, rfl⟩ := Option.map_eq_some_iff.mp hstep
    refine .inr ?_
    split
    · exact hfollow (v := u) rfl hu
    · exact hfollow rfl hu
  | put i n =>
    rw [State.step] at hstep
    split at hstep
    · obtain ⟨bytes, -, rfl⟩ := Option.map_eq_some_iff.mp hstep
      exact .inl rfl
    · cases hstep
  | write i ok =>
    rw [State.step] at hstep
    split at hstep
    case h_1 w job _ _ =>
      unfold State.runCall at hstep
      split at hstep
      · split at hstep
        · split at hstep
          · exact .inr (hfollow (u := s.wrote _ job) rfl hstep)
          · cases hstep
        · exact .inr (hfollow rfl hstep)
      · exact .inr (hfollow rfl hstep)
    case h_2 => cases hstep

/-! ## Every run -/

/-- What comes out of the relay. -/
structure State.Sound (black : List β) (s : State β) : Prop where
  /-- The relay runs as it does without data. -/
  relay : Reach (CamRelay.State.step (!black.isEmpty)) anyStep {} s.relay
  /-- Whole frames, and then a part of one at most. -/
  stream : ∀ {p : Nat} {bytes : List β}, s.stdin[p]? = some bytes → p ∉ s.relay.failed →
    ∃ part, bytes = (s.framesTo p).flatten ++ part
      ∧ (part = [] ∨ ∃ job ∈ s.jobs, part <+: job.data)
  order : ∀ {c : Nat} {cam : Camera β}, s.cameras[c]? = some cam →
    (s.framesOf c).Sublist cam.taken
  /-- A camera has one frame under way at most. -/
  one : ∀ {i j : Nat} {call call' : Writer × Job β} {c : Nat}, s.calls[i]? = some call →
    s.calls[j]? = some call' → pending call.1 = true → pending call'.1 = true →
    call.2.source = some c → call'.2.source = some c → i = j
  live : s.relay.live = s.cameras.countP (·.opened)

theorem part_cases (p : Nat) : s.part p = [] ∨ ∃ job ∈ s.jobs, s.part p <+: job.data := by
  unfold State.part
  cases hlock : s.relay.lock.bind (s.calls[·]?) with
  | none => exact .inl rfl
  | some call =>
    obtain ⟨i, -, hi⟩ := Option.bind_eq_some_iff.mp hlock
    obtain ⟨w, job⟩ := call
    have hjob : job ∈ s.jobs := List.mem_of_getElem? (List.getElem?_zip_eq_some.mp hi).2
    cases w with
    | write q =>
      by_cases hqp : q = p
      · refine .inr ⟨job, hjob, ?_⟩
        have hpart : unfinished p (.write q, job) = job.data.take job.put := if_pos hqp
        change unfinished p (.write q, job) <+: job.data
        rw [hpart]
        exact List.take_prefix _ _
      · exact .inl (if_neg hqp)
    | _ => exact .inl rfl

theorem Inv.sound (h : Inv s)
    (hrelay : Reach (CamRelay.State.step (!black.isEmpty)) anyStep {} s.relay) :
    s.Sound black where
  relay := hrelay
  stream hp hfailed := ⟨_, h.pipes.stream _ _ hp hfailed, part_cases _⟩
  order hc := (List.sublist_append_left _ _).trans (h.cameras.order _ _ hc)
  one hi hj hpi hpj hci hcj := by
    obtain ⟨cam, hcam, hwaits⟩ := h.cameras.awaited _ _ hi hpi _ hci
    obtain ⟨cam', hcam', hwaits'⟩ := h.cameras.awaited _ _ hj hpj _ hcj
    obtain rfl := Option.some.inj (hcam.symm.trans hcam')
    exact Option.some.inj (hwaits.symm.trans hwaits')
  live := h.counted

theorem inv_empty : Inv ({} : State β) where
  pipes := ⟨⟨nofun, nofun, nofun⟩, rfl, rfl, nofun, nofun, nofun, nofun⟩
  cameras := ⟨nofun, nofun, nofun, nofun⟩
  counted := rfl

/-- **Frames come whole and in order.** However the threads take turns, and whatever breaks
down and is started again, a feeder that no write has failed on is given whole frames, and
those of a camera in the order in which it sent them. -/
theorem frames_sound (h : Reach (State.step black) anyStep {} s) : s.Sound black := by
  have hinv : Inv s := h.invariant inv_empty fun hinv _ hstep => inv_step hinv hstep
  have hrelay : Reach (CamRelay.State.step (!black.isEmpty)) anyStep {} s.relay := by
    induction h with
    | init => exact .init
    | next hreach _ hstep ih =>
      have hold := ih (hreach.invariant inv_empty fun hinv _ hstep => inv_step hinv hstep)
      rcases step_relay hstep with hsame | ⟨e', he⟩
      · exact hsame ▸ hold
      · exact .next hold trivial he
  exact hinv.sound hrelay

/-- Two frames of one camera, the second of which is being written. -/
def streams : List (Event Nat) :=
  [.run true, .run true, .run true, .run true, .connect, .frame 0 [7, 8], .write 0 true,
    .write 0 true, .put 0 1, .put 0 1, .write 0 true, .write 0 true, .resume 0,
    .frame 0 [9, 9], .write 1 true, .idleWakes true, .write 1 true, .put 1 1]

def streamed : State Nat where
  relay := {
    proc := some 0
    live := 1
    lock := some 1
    loop := .readProc .idleBlackWriter
    writers := [.done, .write 0]
    started := 1 }
  cameras := [{ taken := [[7, 8], [9, 9]], awaits := some 1 }]
  jobs := [{ source := some 0, data := [7, 8], put := 2 },
    { source := some 0, data := [9, 9], put := 1 }]
  stdin := [[7, 8, 9]]
  written := [{ process := 0, source := some 0, data := [7, 8] }]

theorem frames_sound_streamed : streamed.Sound [0] := by
  have hrun : runs (State.step [0]) (fun _ _ => true) streams {} = some streamed := by
    decide +kernel
  exact frames_sound (reach_of_runs (fun _ => trivial) .init hrun)

end Cameras

end CamFrames

end RbiProxy
