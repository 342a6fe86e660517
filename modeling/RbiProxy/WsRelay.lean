import RbiProxy.Duplex

/-!
# The relay of a websocket

`HandleWebsocketConnection` stands between the client and the backend of a websocket. It
attaches a viewer if the backend is that of an isolated session, and starts a goroutine
`forward` for each direction. The first error that either of them sends on `errChan` makes it
close both connections; it waits for the other goroutine and returns, which detaches the
viewer.

The messages are those of `Duplex`, with the client on the left. The goroutines and the
function take turns in any order, and the parties send and break off when they like.

`ws_sound` says what holds at any time: a direction loses one message at most, and that when
it is broken off, the function leaves its wait for a reason, and nothing of it is left when it
returns. `ws_returns` says that it does return once a direction is broken off. Some statement
can always run, and there are few of them.
-/

namespace RbiProxy

namespace WsRelay

open Duplex (Side Copier Carries)

variable {μ : Type}

/-- What a goroutine `forward` does when its loop is left. -/
inductive Post where
  | looping
  /-- `errChan <- err` is done. -/
  | sent
  /-- `wg.Done()`. -/
  | done
deriving DecidableEq

inductive Main where
  /-- `upgrader.Upgrade`. -/
  | upgrade
  /-- `rbiViewerAttach`. -/
  | attach
  /-- `websocket.DefaultDialer.Dial`. -/
  | dial
  /-- `<-errChan`. -/
  | waiting
  /-- `clientConn.Close()`. -/
  | closeClient
  /-- `backendConn.Close()`. -/
  | closeBackend
  /-- `wg.Wait()`. -/
  | waitGroup
  /-- The deferred `rbiViewerDetach`. -/
  | detach
  /-- The deferred `clientConn.Close()`. -/
  | closing
  | returned
deriving DecidableEq

structure State (μ : Type) where
  net : Duplex.State μ := {}
  fromClient : Post := .looping
  fromBackend : Post := .looping
  /-- The errors in `errChan`. -/
  errs : Nat := 0
  /-- The viewer is attached. -/
  attached : Bool := false
  /-- The goroutines are started. -/
  started : Bool := false
  /-- `upgrader.Upgrade` has given the client's connection. -/
  upgraded : Bool := false
  main : Main := .upgrade
deriving DecidableEq

inductive Event (μ : Type) where
  /-- A party sends or breaks off, or a goroutine reads or writes. -/
  | net (e : Duplex.Event μ)
  /-- `errChan <- err`. -/
  | send (i : Side)
  | done (i : Side)
  /-- The next statement of the function; `ok` says that what it calls succeeds, and of
  `rbiViewerAttach` that there is a session. -/
  | main (ok : Bool)

/-- An event of a goroutine. -/
def ofLoop : Duplex.Event μ → Bool
  | .read _ _ | .write _ _ => true
  | _ => false

namespace State

def post (s : State μ) : Side → Post
  | .left => s.fromClient
  | .right => s.fromBackend

def setPost (s : State μ) (p : Post) : Side → State μ
  | .left => { s with fromClient := p }
  | .right => { s with fromBackend := p }

def runMain (s : State μ) (ok : Bool) : Main → Option (State μ)
  | .upgrade => some { s with upgraded := ok, main := if ok then .attach else .returned }
  | .attach => some { s with attached := ok, main := .dial }
  | .dial =>
    if ok then some { s with started := true, main := .waiting }
    else some { s with main := .detach }
  | .waiting =>
    if 0 < s.errs then some { s with errs := s.errs - 1, main := .closeClient } else none
  | .closeClient => some { s with net := s.net.close .left, main := .closeBackend }
  | .closeBackend => some { s with net := s.net.close .right, main := .waitGroup }
  | .waitGroup =>
    if s.fromClient = .done ∧ s.fromBackend = .done then some { s with main := .detach } else none
  | .detach => some { s with attached := false, main := .closing }
  | .closing => some { s with net := s.net.close .left, main := .returned }
  | .returned => none

def step (s : State μ) : Event μ → Option (State μ)
  | .net e =>
    if e.closes ∨ (ofLoop e ∧ s.started = false) then none
    else (s.net.step e).map fun net => { s with net }
  | .send i =>
    -- `errChan` has room for two
    if s.net.stopped i ∧ s.post i = .looping ∧ s.errs < 2 then
      some { s.setPost .sent i with errs := s.errs + 1 }
    else none
  | .done i => if s.post i = .sent then some (s.setPost .done i) else none
  | .main ok => s.runMain ok s.main

end State

/-! ## The invariant -/

def Main.rank : Main → Nat
  | .upgrade => 0
  | .attach => 1
  | .dial => 2
  | .waiting => 3
  | .closeClient => 4
  | .closeBackend => 5
  | .waitGroup => 6
  | .detach => 7
  | .closing => 8
  | .returned => 9

def Post.sends : Post → Nat
  | .looping => 0
  | .sent | .done => 1

/-- The error that the function has taken out of `errChan`. -/
def State.taken (s : State μ) : Nat := if s.started ∧ 4 ≤ s.main.rank then 1 else 0

structure Inv (s : State μ) : Prop where
  net : Reach Duplex.State.step anyStep {} s.net
  idle : s.started = false → ∀ i, s.net.copier i ≠ .stopped
  early : s.main.rank ≤ 2 → s.started = false
  late : 3 ≤ s.main.rank → s.main.rank ≤ 6 → s.started = true
  posted : ∀ i, s.post i ≠ .looping → s.net.copier i = .stopped
  /-- Every error that was sent is in `errChan` or was taken out. -/
  count : s.errs + s.taken = (s.post .left).sends + (s.post .right).sends
  client : s.started = true → 5 ≤ s.main.rank → (s.net.wire .left).closed = true
  backend : s.started = true → 6 ≤ s.main.rank → (s.net.wire .right).closed = true
  done : s.started = true → 7 ≤ s.main.rank → ∀ i, s.post i = .done
  unattached : s.main.rank ≤ 1 → s.attached = false
  detached : 8 ≤ s.main.rank → s.attached = false
  closed : 9 ≤ s.main.rank → s.upgraded = true → (s.net.wire .left).closed = true

section Steps

variable {s t : State μ} {i : Side}

theorem sends_eq_zero {p : Post} : p.sends = 0 ↔ p = .looping := by
  cases p <;> decide

@[simp] theorem post_setPost {p : Post} : (s.setPost p i).post i = p := by
  cases i <;> rfl

theorem post_setPost_ne {p : Post} {j : Side} (h : j ≠ i) : (s.setPost p i).post j = s.post j := by
  cases i <;> cases j <;> first | rfl | exact absurd rfl h

@[simp] theorem setPost_rest {p : Post} : (s.setPost p i).net = s.net
    ∧ (s.setPost p i).errs = s.errs ∧ (s.setPost p i).attached = s.attached
    ∧ (s.setPost p i).started = s.started ∧ (s.setPost p i).upgraded = s.upgraded
    ∧ (s.setPost p i).main = s.main := by
  cases i <;> exact ⟨rfl, rfl, rfl, rfl, rfl, rfl⟩

theorem Inv.stops (h : Inv s) {e : Duplex.Event μ} (hclose : e.closes = false)
    (hloop : ofLoop e = true → s.started = true) {net : Duplex.State μ}
    (hnet : s.net.step e = some net) : Inv { s with net } := by
  have hstopped : ∀ i, s.net.copier i = .stopped → net.copier i = .stopped := by
    intro i hi
    cases hstops : e.stops with
    | none => exact (Duplex.runs_on hstops hnet i).mpr hi
    | some j =>
      obtain ⟨hrun, rfl⟩ := Duplex.stops_eq hstops hnet
      have hij : i ≠ j := fun hij => hrun (by rw [← hij, hi])
      rw [Duplex.copier_setCopier_ne hij, hi]
  have hclosed := Duplex.closed_step hclose hnet
  refine ⟨.next h.net trivial hnet, fun hidle i hi => ?_, h.early, h.late,
    fun i hi => hstopped i (h.posted i hi), h.count, ?_, ?_, h.done, h.unattached, h.detached, ?_⟩
  · have hstops : e.stops = none := by
      cases hloopEvent : ofLoop e with
      | true => exact absurd (hloop hloopEvent) (by simp [show s.started = false from hidle])
      | false =>
        cases e with
        | read | write => cases hloopEvent
        | _ => rfl
    exact h.idle hidle i ((Duplex.runs_on hstops hnet i).mp hi)
  · rw [hclosed]
    exact h.client
  · rw [hclosed]
    exact h.backend
  · rw [hclosed]
    exact h.closed

theorem Inv.posts (h : Inv s) {p : Post} {errs : Nat} (hstopped : s.net.copier i = .stopped)
    (hpost : s.post i ≠ .done) (herrs : errs + (s.post i).sends = s.errs + p.sends) :
    Inv { s.setPost p i with errs } := by
  obtain ⟨hnet, -, hattached, hstarted, hupgraded, hmain⟩ := setPost_rest (s := s) (p := p) (i := i)
  have hpostOf : ∀ j, ({ s.setPost p i with errs } : State μ).post j = (s.setPost p i).post j :=
    fun j => (by cases j <;> rfl)
  have htaken : ({ s.setPost p i with errs } : State μ).taken = s.taken := by
    unfold State.taken
    simp only [hstarted, hmain]
  refine ⟨?_, ?_, ?_, ?_, fun j hj => ?_, ?_, ?_, ?_, fun hs hr j => ?_, ?_, ?_, ?_⟩
  · simp only [hnet]
    exact h.net
  · simp only [hstarted, hnet]
    exact h.idle
  · simp only [hstarted, hmain]
    exact h.early
  · simp only [hstarted, hmain]
    exact h.late
  · simp only [hnet]
    rw [hpostOf] at hj
    by_cases hji : j = i
    · rw [hji, hstopped]
    · rw [post_setPost_ne hji] at hj
      exact h.posted j hj
  · have hcount := h.count
    rw [htaken, hpostOf, hpostOf]
    cases i with
    | left =>
      rw [post_setPost, post_setPost_ne (by decide)]
      change errs + s.taken = _
      omega
    | right =>
      rw [post_setPost, post_setPost_ne (by decide)]
      change errs + s.taken = _
      omega
  · simp only [hstarted, hmain, hnet]
    exact h.client
  · simp only [hstarted, hmain, hnet]
    exact h.backend
  · simp only [hstarted, hmain] at hs hr
    exact absurd (h.done hs hr i) hpost
  · simp only [hattached, hmain]
    exact h.unattached
  · simp only [hattached, hmain]
    exact h.detached
  · simp only [hupgraded, hmain, hnet]
    exact h.closed

/-- The function goes on to its place `r`, and leaves the goroutines as they are. -/
theorem Inv.advance (h : Inv s) {r : Nat} (hrank : t.main.rank = r)
    (hnet : t.net = s.net ∨ ∃ i, t.net = s.net.close i) (hpost : ∀ i, t.post i = s.post i)
    (hstarted : t.started = false → s.started = false) (hearly : r ≤ 2 → t.started = false)
    (hlate : 3 ≤ r → r ≤ 6 → t.started = true) (hcount : t.errs + t.taken = s.errs + s.taken)
    (hclient : t.started = true → 5 ≤ r → (t.net.wire .left).closed = true)
    (hbackend : t.started = true → 6 ≤ r → (t.net.wire .right).closed = true)
    (hdone : t.started = true → 7 ≤ r → ∀ i, s.post i = .done)
    (hun : r ≤ 1 → t.attached = false) (hde : 8 ≤ r → t.attached = false)
    (hclosed : 9 ≤ r → t.upgraded = true → (t.net.wire .left).closed = true) : Inv t := by
  subst hrank
  have hcopier : ∀ i, t.net.copier i = s.net.copier i := by
    intro i
    rcases hnet with hsame | ⟨j, hclose⟩
    · rw [hsame]
    · rw [hclose, Duplex.copier_close]
  refine ⟨?_, fun hidle i => ?_, hearly, hlate, fun i hi => ?_, ?_, hclient, hbackend,
    fun hs hr i => ?_, hun, hde, hclosed⟩
  · rcases hnet with hsame | ⟨j, hclose⟩
    · rw [hsame]
      exact h.net
    · have hstep : s.net.step (.close j) = some t.net := congrArg some hclose.symm
      exact .next h.net trivial hstep
  · rw [hcopier]
    exact h.idle (hstarted hidle) i
  · rw [hcopier]
    rw [hpost] at hi
    exact h.posted i hi
  · rw [hpost, hpost, hcount, h.count]
  · rw [hpost]
    exact hdone hs hr i

/-- The function has not started the goroutines. -/
theorem Inv.before (h : Inv s) {r : Nat} {main : Main} {attached upgraded : Bool}
    (hidle : s.started = false) (hrank : main.rank = r) (hr : ¬ (3 ≤ r ∧ r ≤ 6))
    (hun : r ≤ 1 → attached = false) (hde : 8 ≤ r → attached = false)
    (hclosed : 9 ≤ r → upgraded = false) : Inv { s with main, attached, upgraded } := by
  have hnot : ∀ {p : Prop}, s.started = true → p := fun hs => absurd hs (by simp [hidle])
  refine h.advance hrank (.inl rfl) (fun i => (by cases i <;> rfl)) id (fun _ => hidle)
    (fun h3 h6 => absurd ⟨h3, h6⟩ hr) ?_ hnot hnot hnot hun hde
    fun hlast hup => absurd hup (by simp [hclosed hlast])
  simp [State.taken, hidle]

theorem Inv.runMain (h : Inv s) {ok : Bool} (hstep : s.runMain ok s.main = some t) : Inv t := by
  have hpost : ∀ {net attached started errs main} i,
      ({ s with net, attached, started, errs, main } : State μ).post i = s.post i :=
    fun i => (by cases i <;> rfl)
  have hcount : ∀ {net attached main}, (4 ≤ main.rank ↔ 4 ≤ s.main.rank) →
      ({ s with net, attached, main } : State μ).errs
        + ({ s with net, attached, main } : State μ).taken = s.errs + s.taken := by
    intro net attached main hiff
    simp only [State.taken, hiff]
  obtain ⟨-, -, hearly, hlate, -, -, hclient, hbackend, hdone, hun, hde⟩ := id h
  cases hmain : s.main with
  | upgrade =>
    rw [hmain] at hstep hearly hun
    obtain rfl := Option.some.inj hstep
    have hattached := hun (by decide)
    cases ok with
    | true =>
      exact h.before (r := 1) (hearly (by decide)) rfl (by decide) (fun _ => hattached)
        (fun _ => hattached) nofun
    | false =>
      exact h.before (r := 9) (hearly (by decide)) rfl (by decide) (fun _ => hattached)
        (fun _ => hattached) fun _ => rfl
  | attach =>
    rw [hmain] at hstep hearly
    obtain rfl := Option.some.inj hstep
    exact h.before (r := 2) (hearly (by decide)) rfl (by decide) nofun nofun nofun
  | dial =>
    rw [hmain] at hstep hearly
    have hidle := hearly (by decide)
    cases ok with
    | true =>
      obtain rfl := Option.some.inj hstep
      refine h.advance (r := 3) rfl (.inl rfl) hpost nofun nofun (fun _ _ => rfl) ?_ nofun nofun
        nofun nofun nofun nofun
      simp [State.taken, hidle, Main.rank]
    | false =>
      obtain rfl := Option.some.inj hstep
      exact h.before (r := 7) hidle rfl (by decide) nofun nofun nofun
  | waiting =>
    rw [hmain] at hstep hlate
    rw [State.runMain] at hstep
    have hrun := hlate (by decide) (by decide)
    split at hstep
    case isTrue herrs =>
      obtain rfl := Option.some.inj hstep
      refine h.advance (r := 4) rfl (.inl rfl) hpost id nofun (fun _ _ => hrun) ?_ nofun nofun
        nofun nofun nofun nofun
      simp only [State.taken, hrun, hmain, Main.rank]
      simp
      omega
    case isFalse => cases hstep
  | closeClient =>
    rw [hmain] at hstep hlate
    obtain rfl := Option.some.inj hstep
    exact h.advance (r := 5) rfl (.inr ⟨.left, rfl⟩) hpost id nofun
      (fun _ _ => hlate (by decide) (by decide)) (hcount (by rw [hmain]; decide))
      (fun _ _ => Duplex.closed_close (s := s.net) (i := .left)) nofun nofun nofun nofun nofun
  | closeBackend =>
    rw [hmain] at hstep hlate hclient
    obtain rfl := Option.some.inj hstep
    exact h.advance (r := 6) rfl (.inr ⟨.right, rfl⟩) hpost id nofun
      (fun _ _ => hlate (by decide) (by decide)) (hcount (by rw [hmain]; decide))
      (fun hs _ => Duplex.closed_close_of (hclient hs (by decide)))
      (fun _ _ => Duplex.closed_close (s := s.net) (i := .right)) nofun nofun nofun nofun
  | waitGroup =>
    rw [hmain] at hstep hclient hbackend
    rw [State.runMain] at hstep
    split at hstep
    case isTrue hall =>
      obtain rfl := Option.some.inj hstep
      refine h.advance (r := 7) rfl (.inl rfl) hpost id nofun nofun (hcount (by rw [hmain]; decide))
        (fun hs _ => hclient hs (by decide)) (fun hs _ => hbackend hs (by decide)) (fun _ _ i => ?_)
        nofun nofun nofun
      cases i with
      | left => exact hall.1
      | right => exact hall.2
    case isFalse => cases hstep
  | detach =>
    rw [hmain] at hstep hclient hbackend hdone
    obtain rfl := Option.some.inj hstep
    exact h.advance (r := 8) rfl (.inl rfl) hpost id nofun nofun (hcount (by rw [hmain]; decide))
      (fun hs _ => hclient hs (by decide)) (fun hs _ => hbackend hs (by decide))
      (fun hs _ => hdone hs (by decide)) (fun _ => rfl) (fun _ => rfl) nofun
  | closing =>
    rw [hmain] at hstep hclient hbackend hdone hde
    obtain rfl := Option.some.inj hstep
    exact h.advance (r := 9) rfl (.inr ⟨.left, rfl⟩) hpost id nofun nofun
      (hcount (by rw [hmain]; decide)) (fun _ _ => Duplex.closed_close (s := s.net) (i := .left))
      (fun hs _ => Duplex.closed_close_of (hbackend hs (by decide)))
      (fun hs _ => hdone hs (by decide)) (fun _ => hde (by decide)) (fun _ => hde (by decide))
      fun _ _ => Duplex.closed_close (s := s.net) (i := .left)
  | returned =>
    rw [hmain] at hstep
    cases hstep

theorem inv_step {e : Event μ} (h : Inv s) (hstep : s.step e = some t) : Inv t := by
  cases e with
  | net e =>
    rw [State.step] at hstep
    split at hstep
    case isTrue => cases hstep
    case isFalse hallowed =>
      obtain ⟨hclose, hloop⟩ := not_or.mp hallowed
      obtain ⟨net, hnet, rfl⟩ := Option.map_eq_some_iff.mp hstep
      refine h.stops (Bool.eq_false_iff.mpr hclose) (fun hofLoop => ?_) hnet
      exact Bool.not_eq_false _ ▸ fun hs => hloop ⟨hofLoop, hs⟩
  | send i =>
    rw [State.step] at hstep
    split at hstep
    case isTrue hready =>
      obtain ⟨hstopped, hlooping, -⟩ := hready
      obtain rfl := Option.some.inj hstep
      refine h.posts (Duplex.stopped_iff.mp hstopped) (by simp [hlooping]) ?_
      simp [hlooping, Post.sends]
    case isFalse => cases hstep
  | done i =>
    rw [State.step] at hstep
    split at hstep
    case isTrue hsent =>
      obtain rfl := Option.some.inj hstep
      have hstopped := h.posted i (by simp [hsent])
      have hcount : s.errs + (s.post i).sends = s.errs + Post.done.sends := by
        simp [hsent, Post.sends]
      have hdone := h.posts hstopped (by simp [hsent]) hcount
      cases i <;> exact hdone
    case isFalse => cases hstep
  | main ok => exact h.runMain hstep

theorem inv_empty : Inv ({} : State μ) where
  net := .init
  idle _ i := by cases i <;> exact fun h => (by cases h)
  early _ := rfl
  late h3 := absurd (show 3 ≤ 0 from h3) (by decide)
  posted i hi := by cases i <;> exact absurd rfl hi
  count := rfl
  client hs := by cases hs
  backend hs := by cases hs
  done hs := by cases hs
  unattached _ := rfl
  detached _ := rfl
  closed _ hup := by cases hup

theorem inv_reach (h : Reach State.step anyStep {} s) : Inv s :=
  h.invariant inv_empty fun hinv _ hstep => inv_step hinv hstep

end Steps

/-! ## Every run -/

/-- What holds at any time. -/
structure State.Sound (s : State μ) : Prop where
  /-- Nothing is doubled or moved, and one message is lost at most in a direction. -/
  carries : ∀ i, Carries s.net i
  /-- The send on `errChan` never waits. -/
  room : ∀ i, s.net.copier i = .stopped → s.post i = .looping → s.errs < 2
  /-- The function leaves its wait because a direction is broken off. -/
  cause : s.started = true → 4 ≤ s.main.rank → ∃ i, s.net.copier i = .stopped
  /-- Nothing is left when it returns, be it because the backend could not be dialled. -/
  returned : s.main = .returned → s.attached = false
    ∧ (s.upgraded = true → (s.net.wire .left).closed = true)
    ∧ (s.started = true → ∀ i,
      s.net.copier i = .stopped ∧ s.post i = .done ∧ (s.net.wire i).closed = true)

section Runs

variable {s t : State μ} {i : Side}

theorem Inv.room (h : Inv s) (hpost : s.post i = .looping) : s.errs < 2 := by
  have hcount := h.count
  have hsends : ∀ p : Post, p.sends ≤ 1 := fun p => (by cases p <;> decide)
  have hleft := hsends (s.post .left)
  have hright := hsends (s.post .right)
  have hzero := sends_eq_zero.mpr hpost
  cases i with
  | left | right => omega

theorem Inv.cause (h : Inv s) (hs : s.started = true) (hr : 4 ≤ s.main.rank) :
    ∃ i, s.post i ≠ .looping := by
  have hcount := h.count
  rw [State.taken, if_pos ⟨hs, hr⟩] at hcount
  by_cases hleft : s.post .left = .looping
  · refine ⟨.right, fun hright => ?_⟩
    rw [hleft, hright] at hcount
    simp [Post.sends] at hcount
  · exact ⟨.left, hleft⟩

/-- **The relay of a websocket gives everything back.** -/
theorem ws_sound (h : Reach State.step anyStep {} s) : s.Sound := by
  have hinv := inv_reach h
  refine ⟨Duplex.carries_reach hinv.net, fun i _ => hinv.room, fun hs hr => ?_, fun hmain => ?_⟩
  · obtain ⟨i, hi⟩ := hinv.cause hs hr
    exact ⟨i, hinv.posted i hi⟩
  · have hrank : s.main.rank = 9 := congrArg Main.rank hmain
    refine ⟨hinv.detached (by omega), hinv.closed (by omega), fun hs i => ?_⟩
    have hdone := hinv.done hs (by omega) i
    refine ⟨hinv.posted i (by rw [hdone]; exact fun h => (by cases h)), hdone, ?_⟩
    cases i with
    | left => exact hinv.client hs (by omega)
    | right => exact hinv.backend hs (by omega)

/-! ### It returns -/

/-- The statements by which the function and its goroutines come to their ends. -/
def finishes : Event μ → Bool
  | .net e => e.stops.isSome
  | _ => true

def Post.work : Post → Nat
  | .looping => 2
  | .sent => 1
  | .done => 0

def loopWork (s : State μ) (i : Side) : Nat :=
  (if s.net.stopped i then 0 else 1) + (s.post i).work

/-- How many such statements are left. -/
def State.work (s : State μ) : Nat :=
  (9 - s.main.rank) + loopWork s .left + loopWork s .right

theorem Inv.progress (h : Inv s) (hstopped : s.net.copier i = .stopped)
    (hmain : s.main ≠ .returned) : ∃ e, finishes e = true ∧ (s.step e).isSome = true := by
  have hsend : ∀ j, s.net.copier j = .stopped → s.post j = .looping →
      (s.step (.send j)).isSome = true := by
    intro j hj hpost
    rw [State.step, if_pos ⟨Duplex.stopped_iff.mpr hj, hpost, h.room hpost⟩]
    rfl
  have hrun : ∀ {main}, s.main = main → (s.runMain true main).isSome = true →
      ∃ e, finishes e = true ∧ (s.step e).isSome = true := fun heq hsome =>
    ⟨.main true, rfl, by rw [State.step, heq]; exact hsome⟩
  cases hplace : s.main with
  | upgrade | attach | dial | closeClient | closeBackend | detach | closing =>
    exact hrun hplace rfl
  | returned => exact absurd hplace hmain
  | waiting =>
    by_cases herrs : 0 < s.errs
    · exact hrun hplace (by rw [State.runMain, if_pos herrs]; rfl)
    · -- nothing was sent, so the goroutine whose loop has stopped is about to send
      refine ⟨.send i, rfl, hsend i hstopped (sends_eq_zero.mp ?_)⟩
      have hcount := h.count
      have htaken : s.taken = 0 := by simp [State.taken, hplace, Main.rank]
      cases i with
      | left | right => omega
  | waitGroup =>
    have hstarted := h.late (by rw [hplace]; decide) (by rw [hplace]; decide)
    by_cases hall : s.fromClient = .done ∧ s.fromBackend = .done
    · exact hrun hplace (by rw [State.runMain, if_pos hall]; rfl)
    · obtain ⟨j, hj⟩ : ∃ j, s.post j ≠ .done := by
        by_cases hleft : s.fromClient = .done
        · exact ⟨.right, fun hright => hall ⟨hleft, hright⟩⟩
        · exact ⟨.left, hleft⟩
      cases hpost : s.post j with
      | done => exact absurd hpost hj
      | sent => exact ⟨.done j, rfl, by rw [State.step, if_pos hpost]; rfl⟩
      | looping =>
        by_cases hcopier : s.net.copier j = .stopped
        · exact ⟨.send j, rfl, hsend j hcopier hpost⟩
        · -- both connections are closed, so the loop stops
          have hclosed : ∀ k, (s.net.wire k).closed = true := by
            intro k
            cases k with
            | left => exact h.client hstarted (by rw [hplace]; decide)
            | right => exact h.backend hstarted (by rw [hplace]; decide)
          obtain ⟨e, hstops, hstep⟩ := Duplex.settle hclosed hcopier
          have hcloses : ¬ (e.closes = true ∨ (ofLoop e = true ∧ s.started = false)) := by
            rw [hstarted]
            cases e with
            | close => cases hstops
            | _ => simp [Duplex.Event.closes]
          refine ⟨.net e, by rw [finishes, hstops]; rfl, ?_⟩
          rw [State.step, if_neg hcloses, hstep]
          rfl

theorem loopWork_eq {t : State μ} (hstopped : s.net.stopped i = t.net.stopped i)
    (hpost : s.post i = t.post i) : loopWork s i = loopWork t i := by
  rw [loopWork, loopWork, hstopped, hpost]

theorem stopped_congr {a b : Duplex.State μ}
    (h : a.copier i = .stopped ↔ b.copier i = .stopped) : a.stopped i = b.stopped i :=
  Bool.eq_iff_iff.mpr (Duplex.stopped_iff.trans (h.trans Duplex.stopped_iff.symm))

theorem work_runMain {ok : Bool} (hstep : s.runMain ok s.main = some t) : t.work < s.work := by
  have hwork : ∀ {net attached started upgraded errs main},
      (∀ i, net.copier i = s.net.copier i) → s.main.rank < main.rank → main.rank ≤ 9 →
      ({ s with net, attached, started, upgraded, errs, main } : State μ).work < s.work := by
    intro net attached started upgraded errs main hcopier hlt hle
    have hloop : ∀ i, loopWork ({ s with net, attached, started, upgraded, errs, main } : State μ) i
        = loopWork s i := fun i =>
      loopWork_eq (stopped_congr (by rw [hcopier])) (by cases i <;> rfl)
    simp only [State.work, hloop]
    omega
  have hnet : ∀ i, s.net.copier i = s.net.copier i := fun _ => rfl
  have hclose : ∀ j i, (s.net.close j).copier i = s.net.copier i := fun _ _ => Duplex.copier_close
  cases hmain : s.main with
  | upgrade | dial =>
    rw [hmain] at hstep
    cases ok <;> exact Option.some.inj hstep ▸ hwork hnet (by rw [hmain]; decide) (by decide)
  | attach | detach =>
    rw [hmain] at hstep
    exact Option.some.inj hstep ▸ hwork hnet (by rw [hmain]; decide) (by decide)
  | waiting | waitGroup =>
    rw [hmain, State.runMain] at hstep
    split at hstep
    · exact Option.some.inj hstep ▸ hwork hnet (by rw [hmain]; decide) (by decide)
    · cases hstep
  | closeClient | closeBackend | closing =>
    rw [hmain] at hstep
    exact Option.some.inj hstep ▸ hwork (hclose _) (by rw [hmain]; decide) (by decide)
  | returned =>
    rw [hmain] at hstep
    cases hstep

theorem work_net {e : Duplex.Event μ} {net : Duplex.State μ} (hnet : s.net.step e = some net) :
    ({ s with net } : State μ).work + (if e.stops.isSome then 1 else 0) = s.work := by
  have hpost : ∀ i, ({ s with net } : State μ).post i = s.post i := fun i => (by cases i <;> rfl)
  cases hstops : e.stops with
  | none =>
    have hloop : ∀ i, loopWork ({ s with net } : State μ) i = loopWork s i := fun i =>
      loopWork_eq (stopped_congr (Duplex.runs_on hstops hnet i)) (hpost i)
    simp [State.work, hloop]
  | some j =>
    obtain ⟨hrun, rfl⟩ := Duplex.stops_eq hstops hnet
    have hother : ∀ {i}, i ≠ j →
        loopWork ({ s with net := s.net.setCopier .stopped j } : State μ) i = loopWork s i := by
      intro i hij
      refine loopWork_eq (stopped_congr ?_) (hpost i)
      rw [Duplex.copier_setCopier_ne hij]
    have hself : loopWork ({ s with net := s.net.setCopier .stopped j } : State μ) j + 1
        = loopWork s j := by
      have hnow : (s.net.setCopier .stopped j).stopped j = true :=
        Duplex.stopped_iff.mpr (Duplex.copier_setCopier j)
      have hbefore : s.net.stopped j = false :=
        Bool.eq_false_iff.mpr fun h => hrun (Duplex.stopped_iff.mp h)
      simp only [loopWork, hpost, hnow, hbefore]
      simp
      omega
    simp only [State.work, Option.isSome_some, if_true]
    cases j with
    | left =>
      have hright := hother (i := .right) (by decide)
      omega
    | right =>
      have hleft := hother (i := .left) (by decide)
      omega

theorem work_post {p : Post} {errs : Nat} (hp : p.work + 1 = (s.post i).work) :
    ({ s.setPost p i with errs } : State μ).work + 1 = s.work := by
  cases i with
  | left =>
    change (9 - s.main.rank) + ((if s.net.stopped .left then 0 else 1) + p.work)
      + loopWork s .right + 1 = s.work
    simp only [State.work, loopWork]
    omega
  | right =>
    change (9 - s.main.rank) + loopWork s .left
      + ((if s.net.stopped .right then 0 else 1) + p.work) + 1 = s.work
    simp only [State.work, loopWork]
    omega

theorem work_step {e : Event μ} (hstep : s.step e = some t) :
    t.work + (if finishes e then 1 else 0) ≤ s.work := by
  cases e with
  | net e =>
    rw [State.step] at hstep
    split at hstep
    case isTrue => cases hstep
    case isFalse =>
      obtain ⟨net, hnet, rfl⟩ := Option.map_eq_some_iff.mp hstep
      exact Nat.le_of_eq (work_net hnet)
  | send i =>
    rw [State.step] at hstep
    split at hstep
    case isTrue hready =>
      obtain rfl := Option.some.inj hstep
      exact Nat.le_of_eq (work_post (by rw [hready.2.1]; rfl))
    case isFalse => cases hstep
  | done i =>
    rw [State.step] at hstep
    split at hstep
    case isTrue hsent =>
      obtain rfl := Option.some.inj hstep
      have hone : Post.done.work + 1 = (s.post i).work := by
        rw [hsent]
        rfl
      cases i with
      | left => exact Nat.le_of_eq (work_post (i := .left) hone)
      | right => exact Nat.le_of_eq (work_post (i := .right) hone)
    case isFalse => cases hstep
  | main ok => exact work_runMain hstep

theorem work_le : s.work ≤ 15 := by
  have hloop : ∀ i, loopWork s i ≤ 3 := by
    intro i
    have hpost : (s.post i).work ≤ 2 := by cases s.post i <;> decide
    unfold loopWork
    split <;> omega
  have hleft := hloop .left
  have hright := hloop .right
  unfold State.work
  omega

/-- **It returns.** Once a direction is broken off, some statement that brings the function
nearer to its end can always run until it has returned, and in no run from there are there
more than fifteen of them. -/
theorem ws_returns (h : Reach State.step anyStep {} s) (hstopped : s.net.copier i = .stopped) :
    (s.main ≠ .returned → ∃ e, finishes e = true ∧ (s.step e).isSome = true)
      ∧ ∀ es t, runs State.step (fun _ _ => true) es s = some t → es.countP finishes ≤ 15 := by
  refine ⟨(inv_reach h).progress hstopped, fun es t hrun => ?_⟩
  have hwork := runs_measure State.work finishes work_step hrun
  have hle := work_le (s := s)
  omega

/-- The backend breaks off while a message for it is in the hand of the relay. -/
def breaksOff : List (Event Nat) :=
  [.main true, .main true, .main true, .net (.arrives .right 1), .net (.read .right true),
    .net (.write .right true), .net (.arrives .left 2), .net (.read .left true),
    .net (.refuses .right), .net (.write .left false), .send .left, .main true]

def brokenOff : State Nat where
  net := {
    left := { fed := [2], outbox := [1] }
    right := { fed := [1], refuses := true }
    fromLeft := .stopped }
  fromClient := .sent
  attached := true
  started := true
  upgraded := true
  main := .closeClient

theorem reach_brokenOff : Reach State.step anyStep {} brokenOff := by
  have hrun : runs State.step (fun _ _ => true) breaksOff {} = some brokenOff := by decide +kernel
  exact reach_of_runs (fun _ => trivial) .init hrun

theorem ws_sound_brokenOff : brokenOff.Sound := ws_sound reach_brokenOff

theorem ws_returns_brokenOff :
    (Main.closeClient ≠ .returned →
      ∃ e : Event Nat, finishes e = true ∧ (brokenOff.step e).isSome = true)
    ∧ ∀ es t, runs State.step (fun _ _ => true) es brokenOff = some t → es.countP finishes ≤ 15 :=
  ws_returns (i := .left) reach_brokenOff rfl

end Runs

end WsRelay

end RbiProxy
