import RbiProxy.Duplex

/-!
# The two copies of `ConnectDirect`

`ConnectDirect` relays a connection that is not looked into. It dials the server, writes what
was read ahead together with what a read with a deadline of a millisecond picks up, and then
copies from the client to the server. A goroutine copies from the server to the client; when
that ends it waits a second, closes the client's connection and hands its count over
`ulChan`, on which the function waits in the end.

The copies are those of `Duplex`, with the client on the left. What is read in one go may be
cut at will, so a write that breaks off half way is one that succeeds and one that fails.

`direct_sound` is the account of the bytes and of the two counts. The one that is returned as
`uploaded` is that of the goroutine, so it counts what the client was given and what was read
ahead. `direct_returns` says that the function returns once a copy has ended, unless it has
to wait for a party to take what is being written to it.
-/

namespace RbiProxy

namespace Direct

open Duplex (Side Copier Carries)

variable {β : Type}

inductive Main where
  /-- `dialUpstream`. -/
  | dial
  /-- `conn.Read(buf)` with its deadline. -/
  | shortRead
  /-- `serverConn.Write(extraData)`. -/
  | writeExtra
  /-- `io.Copy(serverConn, conn)`. -/
  | copying
  /-- `serverConn.Close()`. -/
  | closeServer
  /-- `<-ulChan`. -/
  | receive
  | returned (uploaded downloaded : Nat)
deriving DecidableEq

inductive Down where
  /-- `io.Copy(destwithcounter, serverConn)`. -/
  | copying
  /-- `time.Sleep(time.Second)`. -/
  | sleeping
  /-- `conn.Close()`. -/
  | closeClient
  /-- `ulChan <- n + int64(len(extraData))`. -/
  | send
  | done
deriving DecidableEq

structure State (β : Type) where
  net : Duplex.State (List β) := {}
  /-- What the short read has picked up. -/
  short : List β := []
  /-- What was written to the server before the copies began. -/
  first : List β := []
  /-- The goroutine is started. -/
  started : Bool := false
  main : Main := .dial
  down : Down := .copying
deriving DecidableEq

inductive Event (β : Type) where
  /-- A party sends or breaks off, or a copy reads or writes. -/
  | net (e : Duplex.Event (List β))
  /-- The next statement of the function; `ok` says that it succeeds. -/
  | main (ok : Bool)
  /-- `n` bytes of what was read ahead are written, and any error is ignored. -/
  | writeExtra (n : Nat)
  /-- The next statement of the goroutine. -/
  | down

def ofLoop : Duplex.Event (List β) → Bool
  | .read _ _ | .write _ _ => true
  | _ => false

namespace State

variable (extraData : Option (List β))

/-- `extraData` behind the short read. -/
def extra (s : State β) : List β := extraData.getD [] ++ s.short

/-- The bytes written to a party by its copy. -/
def copied (s : State β) (i : Side) : List β := (s.net.wire i).outbox.flatten

/-- The short read picks up what the client sent first. -/
def pickUp (s : State β) : Option (State β) :=
  match s.net.left.inbox with
  | m :: inbox =>
    if m.length ≤ 2000 then
      some { s with
        net := s.net.setWire { s.net.left with fed := s.net.left.fed.drop 1, inbox } .left
        short := m
        main := .writeExtra }
    else none
  | [] => none

def runMain (s : State β) (ok : Bool) : Main → Option (State β)
  | .dial =>
    if ok then
      if extraData.isSome then some { s with main := .shortRead }
      else some { s with started := true, main := .copying }
    else some { s with net := s.net.close .left, main := .returned 0 0 }
  | .shortRead => if ok then s.pickUp else some { s with main := .writeExtra }
  | .writeExtra => none
  | .copying => if s.net.stopped .left then some { s with main := .closeServer } else none
  | .closeServer => some { s with net := s.net.close .right, main := .receive }
  | .receive =>
    -- `ulChan` has no room, so the goroutine sends while the function receives
    if s.down = .send then
      some { s with
        main := .returned ((s.copied .left).length + (s.extra extraData).length)
          (s.copied .right).length
        down := .done }
    else none
  | .returned _ _ => none

def runDown (s : State β) : Down → Option (State β)
  | .copying => if s.net.stopped .right then some { s with down := .sleeping } else none
  | .sleeping => some { s with down := .closeClient }
  | .closeClient => some { s with net := s.net.close .left, down := .send }
  | .send | .done => none

def step (s : State β) : Event β → Option (State β)
  | .net e =>
    if e.closes ∨ (ofLoop e ∧ s.started = false) then none
    else (s.net.step e).map fun net => { s with net }
  | .main ok => s.runMain extraData ok s.main
  | .writeExtra n =>
    if s.main = .writeExtra ∧ ((s.extra extraData).length ≤ n ∨ s.net.right.refuses) then
      some { s with
        first := (s.extra extraData).take n
        started := true
        main := .copying }
    else none
  | .down => if s.started then s.runDown s.down else none

end State

/-! ## The invariant -/

def Main.rank : Main → Nat
  | .dial => 0
  | .shortRead => 1
  | .writeExtra => 2
  | .copying => 3
  | .closeServer => 4
  | .receive => 5
  | .returned _ _ => 6

def Down.rank : Down → Nat
  | .copying => 0
  | .sleeping => 1
  | .closeClient => 2
  | .send => 3
  | .done => 4

variable (extraData : Option (List β))

/-- The copies have not begun. -/
structure Idle (s : State β) : Prop where
  copier : ∀ i, s.net.copier i = .reading
  outbox : ∀ i, (s.net.wire i).outbox = []
  down : s.down = .copying
  first : s.first = []
  short : s.main.rank ≤ 1 → s.short = []
  place : s.main.rank ≤ 2 ∨ s.main = .returned 0 0
  client : 6 ≤ s.main.rank → (s.net.wire .left).closed = true

/-- They have. -/
structure Running (s : State β) : Prop where
  place : 3 ≤ s.main.rank
  /-- What was read ahead is written first. -/
  extra : s.first = s.extra extraData ∨ (s.net.wire .right).refuses = true
  up : 4 ≤ s.main.rank → s.net.copier .left = .stopped
  down : 1 ≤ s.down.rank → s.net.copier .right = .stopped
  server : 5 ≤ s.main.rank → (s.net.wire .right).closed = true
  client : 3 ≤ s.down.rank → (s.net.wire .left).closed = true
  /-- The function returns with what the goroutine sends. -/
  done : s.down = .done ↔ 6 ≤ s.main.rank
  counts : ∀ {u d}, s.main = .returned u d →
    u = (s.copied .left).length + (s.extra extraData).length ∧ d = (s.copied .right).length

structure Inv (s : State β) : Prop where
  carries : ∀ i, Carries s.net i
  first : ∃ n, s.first = (s.extra extraData).take n
  idle : s.started = false → Idle s
  running : s.started = true → Running extraData s

section Steps

variable {extraData} {s t : State β} {i : Side}

theorem Idle.net (h : Idle s) {e : Duplex.Event (List β)} (hloop : ofLoop e = false)
    (hclose : e.closes = false) {net : Duplex.State (List β)} (hnet : s.net.step e = some net) :
    Idle { s with net } := by
  have hset : ∀ (w : Duplex.Wire (List β)) (k : Side), w.outbox = (s.net.wire k).outbox →
      ∀ i, ((s.net.setWire w k).wire i).outbox = [] := by
    intro w k hw i
    by_cases hi : i = k
    · rw [hi, Duplex.wire_setWire, hw, h.outbox]
    · rw [Duplex.wire_setWire_ne hi, h.outbox]
  cases Duplex.move hnet with
  | closes i => cases hclose
  | reads | writes => cases hloop
  | stops i hstops =>
    cases e with
    | read | write => cases hloop
    | arrives | ends | refuses | close => cases hstops
  | arrives i m | ends i | refuses i =>
    refine ⟨fun j => ?_, hset _ i rfl, h.down, h.first, h.short, h.place, ?_⟩
    · change (s.net.setWire _ i).copier j = .reading
      rw [Duplex.copier_setWire, h.copier]
    · rw [Duplex.closed_step hclose hnet]
      exact h.client

theorem Running.net (h : Running extraData s) {e : Duplex.Event (List β)}
    (hclose : e.closes = false) {net : Duplex.State (List β)} (hnet : s.net.step e = some net) :
    Running extraData { s with net } := by
  have hstopped : ∀ i, s.net.copier i = .stopped → net.copier i = .stopped := by
    intro i hi
    cases hstops : e.stops with
    | none => exact (Duplex.runs_on hstops hnet i).mpr hi
    | some j =>
      obtain ⟨hrun, rfl⟩ := Duplex.stops_eq hstops hnet
      have hij : i ≠ j := fun hij => hrun (by rw [← hij, hi])
      rw [Duplex.copier_setCopier_ne hij, hi]
  have hclosed := Duplex.closed_step hclose hnet
  refine ⟨h.place, h.extra.imp_right fun hr => Duplex.refuses_step hr hnet,
    fun hr => hstopped _ (h.up hr), fun hr => hstopped _ (h.down hr), ?_, ?_, h.done,
    fun hmain => ?_⟩
  · rw [hclosed]
    exact h.server
  · rw [hclosed]
    exact h.client
  · -- both copies have stopped, and write nothing more
    have hrank : s.main.rank = 6 := congrArg Main.rank hmain
    have hdown : s.down = .done := h.done.mpr (by omega)
    have hright := Duplex.outbox_of_stopped (h.up (by omega)) hnet
    have hleft := Duplex.outbox_of_stopped (h.down (by rw [hdown]; decide)) hnet
    obtain ⟨hu, hd⟩ := h.counts hmain
    refine ⟨?_, ?_⟩
    · rw [hu]
      exact congrArg (fun l => l.flatten.length + _) hleft.symm
    · rw [hd]
      exact congrArg (fun l => l.flatten.length) hright.symm

/-- The function closes a connection, or the goroutine does. -/
theorem carries_close (h : ∀ j, Carries s.net j) (i j : Side) : Carries (s.net.close i) j :=
  Duplex.carries_step (e := .close i) h rfl j

theorem Running.close (h : Running extraData s) (i : Side) :
    Running extraData { s with net := s.net.close i } := by
  have hcopied : ∀ j, ({ s with net := s.net.close i } : State β).copied j = s.copied j := by
    intro j
    unfold State.copied Duplex.State.close
    by_cases hj : j = i
    · rw [hj, Duplex.wire_setWire]
    · rw [Duplex.wire_setWire_ne hj]
  refine ⟨h.place, h.extra.imp_right fun hr => ?_, fun hr => ?_, fun hr => ?_,
    fun hr => Duplex.closed_close_of (h.server hr), fun hr => Duplex.closed_close_of (h.client hr),
    h.done, fun hmain => ?_⟩
  · exact Duplex.refuses_step (e := .close i) hr rfl
  · exact Duplex.copier_close.trans (h.up hr)
  · exact Duplex.copier_close.trans (h.down hr)
  · rw [hcopied, hcopied]
    exact h.counts hmain

theorem Running.goes (h : Running extraData s) {main : Main} {down : Down}
    (hplace : 3 ≤ main.rank) (hlast : ¬ 6 ≤ main.rank) (hdone : down ≠ .done)
    (hup : 4 ≤ main.rank → s.net.copier .left = .stopped)
    (hdown : 1 ≤ down.rank → s.net.copier .right = .stopped)
    (hserver : 5 ≤ main.rank → (s.net.wire .right).closed = true)
    (hclient : 3 ≤ down.rank → (s.net.wire .left).closed = true) :
    Running extraData { s with main, down } :=
  ⟨hplace, h.extra, hup, hdown, hserver, hclient, iff_of_false hdone hlast, fun hmain =>
    absurd (congrArg Main.rank hmain ▸ Nat.le_refl 6) hlast⟩

theorem Idle.place_eq (h : Idle s) {main : Main} (hmain : s.main = main)
    (hlow : 3 ≤ main.rank → main.rank ≤ 5) : main.rank ≤ 2 := by
  rcases h.place with hlt | hreturned
  · exact hmain ▸ hlt
  · rw [hmain] at hreturned
    subst hreturned
    exact absurd (hlow (by decide)) (by decide)

theorem Inv.started (h : Inv extraData s) (hlow : 3 ≤ s.main.rank) (hhigh : s.main.rank ≤ 5) :
    s.started = true := by
  cases hstarted : s.started with
  | true => rfl
  | false =>
    have hplace := (h.idle hstarted).place_eq rfl fun _ => hhigh
    omega

theorem Inv.unstarted (h : Inv extraData s) (hlow : s.main.rank ≤ 2) : s.started = false := by
  cases hstarted : s.started with
  | false => rfl
  | true =>
    have hplace := (h.running hstarted).place
    omega

theorem Idle.starts (h : Idle s) {first : List β}
    (hextra : first = s.extra extraData ∨ (s.net.wire .right).refuses = true) :
    Running extraData { s with first, started := true, main := .copying } := by
  refine ⟨Nat.le_refl 3, hextra, fun hr => absurd (show 4 ≤ 3 from hr) (by decide), fun hr => ?_,
    fun hr => absurd (show 5 ≤ 3 from hr) (by decide), fun hr => ?_,
    iff_of_false ?_ (show ¬ 6 ≤ 3 by decide), fun hmain => (by cases hmain)⟩
  · simp only [h.down] at hr
    exact absurd hr (by decide)
  · simp only [h.down] at hr
    exact absurd hr (by decide)
  · rw [h.down]
    exact fun heq => (by cases heq)

theorem Inv.before (h : Inv extraData s) {net : Duplex.State (List β)} {short : List β}
    {main : Main} (hidle : s.started = false) (hcarries : ∀ j, Carries net j)
    (hnext : Idle { s with net, short, main }) : Inv extraData { s with net, short, main } :=
  ⟨hcarries, ⟨0, (h.idle hidle).first⟩, fun _ => hnext, fun hs => absurd hs (by simp [hidle])⟩

/-- What the short read takes is neither copied nor lost. -/
theorem Inv.pickUp (h : Inv extraData s) (hmain : s.main = .shortRead)
    (hstep : s.pickUp = some t) : Inv extraData t := by
  have hunstarted := h.unstarted (by rw [hmain]; decide)
  have hidle := h.idle hunstarted
  unfold State.pickUp at hstep
  split at hstep
  case h_1 m inbox hinbox =>
    split at hstep
    case isTrue =>
      obtain rfl := Option.some.inj hstep
      refine h.before hunstarted (fun j => ?_) ⟨hidle.copier, fun j => ?_, hidle.down, hidle.first,
        fun hr => absurd (show 2 ≤ 1 from hr) (by decide), .inl (Nat.le_refl 2), nofun⟩
      · cases j with
        | left =>
          obtain ⟨lost, hfed, -, hnone⟩ := h.carries .left
          obtain rfl := hnone (by rw [hidle.copier]; exact nofun)
          rw [hidle.outbox, hidle.copier] at hfed
          have hall : s.net.left.fed = m :: inbox := hfed.trans hinbox
          refine ⟨[], ?_, Nat.zero_le 1, fun _ => rfl⟩
          change s.net.left.fed.drop 1 = (s.net.wire .right).outbox ++ (s.net.copier .left).held
            ++ [] ++ inbox
          rw [hidle.outbox .right, hidle.copier, hall]
          rfl
        | right => exact h.carries .right
      · cases j with
        | left => exact hidle.outbox .left
        | right => exact hidle.outbox .right
    case isFalse => cases hstep
  case h_2 => cases hstep

theorem Inv.runMain (h : Inv extraData s) {ok : Bool}
    (hstep : s.runMain extraData ok s.main = some t) : Inv extraData t := by
  have hrunning : ∀ {net main down}, s.started = true → (∀ j, Carries net j) →
      Running extraData { s with net, main, down } → Inv extraData { s with net, main, down } :=
    fun hstarted hcarries hrun =>
      ⟨hcarries, h.first, fun hidle => absurd hidle (by simp [hstarted]), fun _ => hrun⟩
  have hnot : ∀ {main : Main} {n : Nat}, ¬ n ≤ main.rank → s.main = main → ¬ n ≤ s.main.rank :=
    fun hle heq => by rw [heq]; exact hle
  cases hmain : s.main with
  | dial =>
    rw [hmain, State.runMain] at hstep
    have hunstarted := h.unstarted (by rw [hmain]; decide)
    have hidle := h.idle hunstarted
    have hshort := hidle.short (by rw [hmain]; decide)
    split at hstep
    · split at hstep
      · obtain rfl := Option.some.inj hstep
        exact h.before hunstarted h.carries ⟨hidle.copier, hidle.outbox, hidle.down, hidle.first,
          fun _ => hshort, .inl (show 1 ≤ 2 by decide), nofun⟩
      · rename_i hnone
        obtain rfl := Option.some.inj hstep
        have hextra : s.first = s.extra extraData := by
          rw [hidle.first, State.extra, hshort, Option.not_isSome_iff_eq_none.mp hnone]
          rfl
        exact ⟨h.carries, h.first, fun hs => (by cases hs), fun _ => hidle.starts (.inl hextra)⟩
    · obtain rfl := Option.some.inj hstep
      refine h.before hunstarted (carries_close h.carries .left) ⟨fun j => ?_, fun j => ?_,
        hidle.down, hidle.first, fun _ => hshort, .inr rfl,
        fun _ => Duplex.closed_close (s := s.net) (i := .left)⟩
      · exact Duplex.copier_close.trans (hidle.copier j)
      · cases j with
        | left => exact hidle.outbox .left
        | right => exact hidle.outbox .right
  | shortRead =>
    rw [hmain, State.runMain] at hstep
    have hunstarted := h.unstarted (by rw [hmain]; decide)
    have hidle := h.idle hunstarted
    split at hstep
    · exact h.pickUp hmain hstep
    · obtain rfl := Option.some.inj hstep
      exact h.before hunstarted h.carries ⟨hidle.copier, hidle.outbox, hidle.down, hidle.first,
        fun hr => absurd (show 2 ≤ 1 from hr) (by decide), .inl (Nat.le_refl 2), nofun⟩
  | writeExtra | returned =>
    rw [hmain] at hstep
    cases hstep
  | copying =>
    rw [hmain, State.runMain] at hstep
    have hstarted := h.started (by rw [hmain]; decide) (by rw [hmain]; decide)
    have hrun := h.running hstarted
    have hdown : s.down ≠ .done := fun hdone => hnot (by decide) hmain (hrun.done.mp hdone)
    split at hstep
    case isTrue hstopped =>
      obtain rfl := Option.some.inj hstep
      exact hrunning hstarted h.carries (hrun.goes (by decide) (by decide) hdown
        (fun _ => Duplex.stopped_iff.mp hstopped) hrun.down (fun hr => absurd hr (by decide))
        hrun.client)
    case isFalse => cases hstep
  | closeServer =>
    rw [hmain] at hstep
    obtain rfl := Option.some.inj hstep
    have hstarted := h.started (by rw [hmain]; decide) (by rw [hmain]; decide)
    have hrun := h.running hstarted
    have hdown : s.down ≠ .done := fun hdone => hnot (by decide) hmain (hrun.done.mp hdone)
    have hclosed := hrun.close .right
    exact hrunning hstarted (carries_close h.carries .right) (hclosed.goes (by decide) (by decide)
      hdown (fun _ => hclosed.up (by change 4 ≤ s.main.rank; rw [hmain]; decide)) hclosed.down
      (fun _ => Duplex.closed_close (s := s.net) (i := .right)) hclosed.client)
  | receive =>
    rw [hmain, State.runMain] at hstep
    have hstarted := h.started (by rw [hmain]; decide) (by rw [hmain]; decide)
    have hrun := h.running hstarted
    split at hstep
    case isTrue hsend =>
      obtain rfl := Option.some.inj hstep
      refine hrunning hstarted h.carries ⟨show 3 ≤ 6 by decide, hrun.extra,
        fun _ => hrun.up (by rw [hmain]; decide), fun _ => hrun.down (by rw [hsend]; decide),
        fun _ => hrun.server (by rw [hmain]; decide), fun _ => hrun.client (by rw [hsend]; decide),
        iff_of_true rfl (Nat.le_refl 6), fun heq => ?_⟩
      obtain ⟨rfl, rfl⟩ := Main.returned.inj heq
      exact ⟨rfl, rfl⟩
    case isFalse => cases hstep

theorem Inv.runDown (h : Inv extraData s) (hstarted : s.started = true)
    (hstep : s.runDown s.down = some t) : Inv extraData t := by
  have hrun := h.running hstarted
  have hnot : s.down ≠ .done → ¬ 6 ≤ s.main.rank := fun hne hr => hne (hrun.done.mpr hr)
  have hinv : ∀ {net down}, (∀ j, Carries net j) → Running extraData { s with net, down } →
      Inv extraData { s with net, down } := fun hcarries hrunning =>
    ⟨hcarries, h.first, fun hidle => absurd hidle (by simp [hstarted]), fun _ => hrunning⟩
  cases hdown : s.down with
  | copying =>
    rw [hdown, State.runDown] at hstep
    split at hstep
    case isTrue hstopped =>
      obtain rfl := Option.some.inj hstep
      have hright := Duplex.stopped_iff.mp hstopped
      exact hinv h.carries (hrun.goes hrun.place (hnot (by rw [hdown]; exact nofun)) nofun hrun.up
        (fun _ => hright) hrun.server nofun)
    case isFalse => cases hstep
  | sleeping =>
    rw [hdown] at hstep
    obtain rfl := Option.some.inj hstep
    exact hinv h.carries (hrun.goes hrun.place (hnot (by rw [hdown]; exact nofun)) nofun hrun.up
      (fun _ => hrun.down (by rw [hdown]; decide)) hrun.server nofun)
  | closeClient =>
    rw [hdown] at hstep
    obtain rfl := Option.some.inj hstep
    have hclosed := hrun.close .left
    exact hinv (carries_close h.carries .left) (hclosed.goes hrun.place
      (hnot (by rw [hdown]; exact nofun)) nofun hclosed.up
      (fun _ => hclosed.down (by change 1 ≤ s.down.rank; rw [hdown]; decide)) hclosed.server
      fun _ => Duplex.closed_close (s := s.net) (i := .left))
  | send | done =>
    rw [hdown] at hstep
    cases hstep

theorem inv_step {e : Event β} (h : Inv extraData s) (hstep : s.step extraData e = some t) :
    Inv extraData t := by
  cases e with
  | net e =>
    rw [State.step] at hstep
    split at hstep
    case isTrue => cases hstep
    case isFalse hallowed =>
      obtain ⟨hclose, hloop⟩ := not_or.mp hallowed
      have hclose := Bool.eq_false_iff.mpr hclose
      obtain ⟨net, hnet, rfl⟩ := Option.map_eq_some_iff.mp hstep
      refine ⟨Duplex.carries_step h.carries hnet, h.first, fun hidle => ?_,
        fun hstarted => (h.running hstarted).net hclose hnet⟩
      exact (h.idle hidle).net (Bool.eq_false_iff.mpr fun hof => hloop ⟨hof, hidle⟩) hclose hnet
  | main ok => exact h.runMain hstep
  | writeExtra n =>
    rw [State.step] at hstep
    split at hstep
    case isTrue hready =>
      obtain ⟨hmain, hall⟩ := hready
      obtain rfl := Option.some.inj hstep
      have hidle := h.idle (h.unstarted (by rw [hmain]; decide))
      refine ⟨h.carries, ⟨n, rfl⟩, fun hs => (by cases hs), fun _ => hidle.starts ?_⟩
      exact hall.imp_left fun hlen => List.take_of_length_le hlen
    case isFalse => cases hstep
  | down =>
    rw [State.step] at hstep
    split at hstep
    case isTrue hstarted => exact h.runDown hstarted hstep
    case isFalse => cases hstep

theorem inv_empty : Inv extraData ({} : State β) where
  carries := Duplex.carries_empty
  first := ⟨0, rfl⟩
  idle _ := ⟨fun i => (by cases i <;> rfl), fun i => (by cases i <;> rfl), rfl, rfl, fun _ => rfl,
    .inl (Nat.zero_le 2), nofun⟩
  running hs := by cases hs

theorem inv_reach (h : Reach (State.step extraData) anyStep {} s) : Inv extraData s :=
  h.invariant inv_empty fun hinv _ hstep => inv_step hinv hstep

end Steps

/-! ## Every run -/

/-- What holds at any time. -/
structure State.Sound (extraData : Option (List β)) (s : State β) : Prop where
  /-- What the client has sent behind the short read, and what the server has sent. -/
  carries : ∀ i, Carries s.net i
  /-- What was read ahead comes first, and is cut off only when the server refuses it. -/
  first : ∃ n, s.first = (s.extra extraData).take n
  whole : s.started = true → s.first = s.extra extraData ∨ (s.net.wire .right).refuses = true
  /-- The copies were not started, as the server could not be dialled. -/
  undialled : ∀ {u d}, s.main = .returned u d → s.started = false →
    u = 0 ∧ d = 0 ∧ (s.net.wire .left).closed = true ∧ ∀ i, (s.net.wire i).outbox = []
  /-- What is returned, and that nothing is left. -/
  returned : ∀ {u d}, s.main = .returned u d → s.started = true →
    u = (s.copied .left).length + (s.extra extraData).length ∧ d = (s.copied .right).length
      ∧ s.down = .done ∧ ∀ i, s.net.copier i = .stopped ∧ (s.net.wire i).closed = true

section Runs

variable {extraData} {s t : State β} {i : Side}

/-- **The relay keeps the bytes of both directions, and counts them.** -/
theorem direct_sound (h : Reach (State.step extraData) anyStep {} s) : s.Sound extraData := by
  have hinv := inv_reach h
  refine ⟨hinv.carries, hinv.first, fun hs => (hinv.running hs).extra, fun hmain hs => ?_,
    fun hmain hs => ?_⟩
  · have hidle := hinv.idle hs
    have hrank : s.main.rank = 6 := congrArg Main.rank hmain
    obtain ⟨rfl, rfl⟩ := Main.returned.inj
      (hmain.symm.trans (hidle.place.resolve_left (by omega)))
    exact ⟨rfl, rfl, hidle.client (by omega), hidle.outbox⟩
  · have hrun := hinv.running hs
    have hrank : s.main.rank = 6 := congrArg Main.rank hmain
    have hdone : s.down = .done := hrun.done.mpr (by omega)
    obtain ⟨hu, hd⟩ := hrun.counts hmain
    refine ⟨hu, hd, hdone, fun i => ?_⟩
    cases i with
    | left => exact ⟨hrun.up (by omega), hrun.client (by rw [hdone]; decide)⟩
    | right => exact ⟨hrun.down (by rw [hdone]; decide), hrun.server (by omega)⟩

/-! ### It returns -/

/-- The statements by which the function and the goroutine come to their ends. -/
def finishes : Event β → Bool
  | .net e => e.stops.isSome
  | _ => true

/-- How many such statements are left. -/
def State.work (s : State β) : Nat :=
  (6 - s.main.rank) + (4 - s.down.rank) + (if s.net.stopped .left then 0 else 1)
    + (if s.net.stopped .right then 0 else 1)

/-- A copy has its last piece in its hand, and the party it is for neither takes it nor
breaks off. -/
def State.Waits (s : State β) (i : Side) : Prop :=
  (∃ m, s.net.copier i = .writing m) ∧ (s.net.wire i).closed = true
    ∧ (s.net.wire i.other).refuses = false

/-- A copy from a closed connection ends, unless it waits for the other party. -/
theorem ends (hstarted : s.started = true) (hrun : s.net.copier i ≠ .stopped)
    (hclosed : (s.net.wire i).closed = true) :
    (∃ e, finishes e = true ∧ (s.step extraData e).isSome = true) ∨ s.Waits i := by
  have hnet : ∀ e : Duplex.Event (List β), e.stops = some i → (s.net.step e).isSome = true →
      ∃ e, finishes e = true ∧ (s.step extraData e).isSome = true := by
    intro e hstops hsome
    have hallowed : ¬ (e.closes = true ∨ (ofLoop e = true ∧ s.started = false)) := by
      rw [hstarted]
      cases e with
      | close => cases hstops
      | _ => simp [Duplex.Event.closes]
    refine ⟨.net e, by rw [finishes, hstops]; rfl, ?_⟩
    rw [State.step, if_neg hallowed, Option.isSome_map]
    exact hsome
  cases hcopier : s.net.copier i with
  | reading =>
    refine .inl (hnet (.read i false) rfl ?_)
    simp [Duplex.State.step, Duplex.State.read, hcopier, hclosed]
  | writing m =>
    cases hrefuses : (s.net.wire i.other).refuses with
    | true =>
      refine .inl (hnet (.write i false) rfl ?_)
      simp [Duplex.State.step, Duplex.State.write, hcopier, hrefuses]
    | false => exact .inr ⟨⟨m, hcopier⟩, hclosed, hrefuses⟩
  | stopped => exact absurd hcopier hrun

theorem Inv.started_of_stopped (h : Inv extraData s) (hstopped : s.net.copier i = .stopped) :
    s.started = true := by
  cases hstarted : s.started with
  | true => rfl
  | false =>
    have hreading := (h.idle hstarted).copier i
    rw [hstopped] at hreading
    cases hreading

theorem Inv.progress (h : Inv extraData s) (hstopped : s.net.copier i = .stopped)
    (hmain : ∀ u d, s.main ≠ .returned u d) :
    (∃ e, finishes e = true ∧ (s.step extraData e).isSome = true) ∨ ∃ j, s.Waits j := by
  have hstarted := h.started_of_stopped hstopped
  have hrun := h.running hstarted
  have hgoes : ∀ {main}, s.main = main → (s.runMain extraData true main).isSome = true →
      (∃ e, finishes e = true ∧ (s.step extraData e).isSome = true) ∨ ∃ j, s.Waits j :=
    fun heq hsome => .inl ⟨.main true, rfl, by rw [State.step, heq]; exact hsome⟩
  have hdowns : (s.runDown s.down).isSome = true →
      (∃ e, finishes e = true ∧ (s.step extraData e).isSome = true) ∨ ∃ j, s.Waits j :=
    fun hsome => .inl ⟨.down, rfl, by rw [State.step, if_pos hstarted]; exact hsome⟩
  have hends : ∀ j, s.net.copier j ≠ .stopped → (s.net.wire j).closed = true →
      (∃ e, finishes e = true ∧ (s.step extraData e).isSome = true) ∨ ∃ j, s.Waits j :=
    fun j hne hclosed => (ends hstarted hne hclosed).imp_right fun hw => ⟨j, hw⟩
  have hplace := hrun.place
  cases hat : s.main with
  | dial | shortRead | writeExtra =>
    rw [hat] at hplace
    exact absurd hplace (by decide)
  | copying =>
    by_cases hleft : s.net.copier .left = .stopped
    · exact hgoes hat (by rw [State.runMain, if_pos (Duplex.stopped_iff.mpr hleft)]; rfl)
    · -- it is the goroutine's copy that has ended, and it will close the client's connection
      have hright : s.net.copier .right = .stopped := by
        cases i with
        | left => exact absurd hstopped hleft
        | right => exact hstopped
      cases hdown : s.down with
      | copying =>
        refine hdowns ?_
        rw [hdown, State.runDown, if_pos (Duplex.stopped_iff.mpr hright)]
        rfl
      | sleeping | closeClient => exact hdowns (by rw [hdown]; rfl)
      | send => exact hends .left hleft (hrun.client (by rw [hdown]; decide))
      | done =>
        have hlast := hrun.done.mp hdown
        rw [hat] at hlast
        exact absurd hlast (by decide)
  | closeServer => exact hgoes hat rfl
  | receive =>
    cases hdown : s.down with
    | copying =>
      by_cases hright : s.net.copier .right = .stopped
      · refine hdowns ?_
        rw [hdown, State.runDown, if_pos (Duplex.stopped_iff.mpr hright)]
        rfl
      · exact hends .right hright (hrun.server (by rw [hat]; decide))
    | sleeping | closeClient => exact hdowns (by rw [hdown]; rfl)
    | send => exact hgoes hat (by rw [State.runMain, if_pos hdown]; rfl)
    | done =>
      have hlast := hrun.done.mp hdown
      rw [hat] at hlast
      exact absurd hlast (by decide)
  | returned u d => exact absurd hat (hmain u d)

theorem main_rank_le (main : Main) : main.rank ≤ 6 := by
  cases main with
  | returned => exact Nat.le_refl 6
  | _ => decide

theorem down_rank_le (down : Down) : down.rank ≤ 4 := by
  cases down <;> decide

theorem stopped_congr {a b : Duplex.State (List β)}
    (h : a.copier i = .stopped ↔ b.copier i = .stopped) : a.stopped i = b.stopped i :=
  Bool.eq_iff_iff.mpr (Duplex.stopped_iff.trans (h.trans Duplex.stopped_iff.symm))

/-- The function or the goroutine goes on, and the copies stay as they are. -/
theorem work_goes (hcopier : ∀ i, t.net.copier i = s.net.copier i)
    (hrank : s.main.rank + s.down.rank < t.main.rank + t.down.rank)
    (hmain : s.main.rank ≤ t.main.rank) (hdown : s.down.rank ≤ t.down.rank) :
    t.work + 1 ≤ s.work := by
  have hstopped : ∀ i, t.net.stopped i = s.net.stopped i := fun i =>
    stopped_congr (by rw [hcopier])
  have hmainLe := main_rank_le t.main
  have hdownLe := down_rank_le t.down
  simp only [State.work, hstopped]
  omega

theorem work_main {ok : Bool} (hstep : s.runMain extraData ok s.main = some t) :
    t.work + 1 ≤ s.work := by
  have hwork : ∀ {net short started main}, (∀ i, net.copier i = s.net.copier i) →
      s.main.rank < main.rank →
      ({ s with net, short, started, main } : State β).work + 1 ≤ s.work :=
    fun hcopier hlt =>
      work_goes hcopier (Nat.add_lt_add_right hlt _) (Nat.le_of_lt hlt) (Nat.le_refl _)
  have hnet : ∀ i, s.net.copier i = s.net.copier i := fun _ => rfl
  have hclose : ∀ j i, (s.net.close j).copier i = s.net.copier i := fun _ _ => Duplex.copier_close
  cases hmain : s.main with
  | dial =>
    rw [hmain, State.runMain] at hstep
    split at hstep
    · split at hstep
      · exact Option.some.inj hstep ▸ hwork hnet (by rw [hmain]; decide)
      · exact Option.some.inj hstep ▸ hwork hnet (by rw [hmain]; decide)
    · exact Option.some.inj hstep ▸ hwork (hclose _) (by rw [hmain]; exact show 0 < 6 by decide)
  | shortRead =>
    rw [hmain, State.runMain] at hstep
    split at hstep
    · unfold State.pickUp at hstep
      split at hstep
      case h_1 =>
        split at hstep
        · exact Option.some.inj hstep ▸ hwork (fun i => Duplex.copier_setWire .left i)
            (by rw [hmain]; decide)
        · cases hstep
      case h_2 => cases hstep
    · exact Option.some.inj hstep ▸ hwork hnet (by rw [hmain]; decide)
  | writeExtra | returned =>
    rw [hmain] at hstep
    cases hstep
  | copying =>
    rw [hmain, State.runMain] at hstep
    split at hstep
    · exact Option.some.inj hstep ▸ hwork hnet (by rw [hmain]; decide)
    · cases hstep
  | closeServer =>
    rw [hmain] at hstep
    exact Option.some.inj hstep ▸ hwork (hclose _) (by rw [hmain]; decide)
  | receive =>
    rw [hmain, State.runMain] at hstep
    split at hstep
    case isTrue hsend =>
      obtain rfl := Option.some.inj hstep
      refine work_goes hnet ?_ ?_ ?_
      · rw [hmain, hsend]
        exact show 5 + 3 < 6 + 4 by decide
      · rw [hmain]
        exact show 5 ≤ 6 by decide
      · rw [hsend]
        exact show 3 ≤ 4 by decide
    case isFalse => cases hstep

theorem work_down (hstep : s.runDown s.down = some t) : t.work + 1 ≤ s.work := by
  have hwork : ∀ {net down}, (∀ i, net.copier i = s.net.copier i) → s.down.rank < down.rank →
      ({ s with net, down } : State β).work + 1 ≤ s.work := fun hcopier hlt =>
    work_goes hcopier (Nat.add_lt_add_left hlt _) (Nat.le_refl _) (Nat.le_of_lt hlt)
  have hnet : ∀ i, s.net.copier i = s.net.copier i := fun _ => rfl
  cases hdown : s.down with
  | copying =>
    rw [hdown, State.runDown] at hstep
    split at hstep
    · exact Option.some.inj hstep ▸ hwork hnet (by rw [hdown]; decide)
    · cases hstep
  | sleeping =>
    rw [hdown] at hstep
    exact Option.some.inj hstep ▸ hwork hnet (by rw [hdown]; decide)
  | closeClient =>
    rw [hdown] at hstep
    exact Option.some.inj hstep ▸ hwork (fun i => Duplex.copier_close) (by rw [hdown]; decide)
  | send | done =>
    rw [hdown] at hstep
    cases hstep

theorem work_net {e : Duplex.Event (List β)} {net : Duplex.State (List β)}
    (hnet : s.net.step e = some net) :
    ({ s with net } : State β).work + (if e.stops.isSome then 1 else 0) = s.work := by
  cases hstops : e.stops with
  | none =>
    have hloop : ∀ i, net.stopped i = s.net.stopped i := fun i =>
      stopped_congr (Duplex.runs_on hstops hnet i)
    simp [State.work, hloop]
  | some j =>
    obtain ⟨hrun, rfl⟩ := Duplex.stops_eq hstops hnet
    have hother : ∀ {i}, i ≠ j → (s.net.setCopier .stopped j).stopped i = s.net.stopped i :=
      fun hij => stopped_congr (by rw [Duplex.copier_setCopier_ne hij])
    have hnow : (s.net.setCopier .stopped j).stopped j = true :=
      Duplex.stopped_iff.mpr (Duplex.copier_setCopier j)
    have hbefore : s.net.stopped j = false :=
      Bool.eq_false_iff.mpr fun h => hrun (Duplex.stopped_iff.mp h)
    cases j with
    | left => simp [State.work, hnow, hbefore, hother (i := .right) (by decide)]; omega
    | right => simp [State.work, hnow, hbefore, hother (i := .left) (by decide)]

theorem work_step {e : Event β} (hstep : s.step extraData e = some t) :
    t.work + (if finishes e then 1 else 0) ≤ s.work := by
  cases e with
  | net e =>
    rw [State.step] at hstep
    split at hstep
    case isTrue => cases hstep
    case isFalse =>
      obtain ⟨net, hnet, rfl⟩ := Option.map_eq_some_iff.mp hstep
      exact Nat.le_of_eq (work_net hnet)
  | main ok => exact work_main hstep
  | writeExtra n =>
    rw [State.step] at hstep
    split at hstep
    case isTrue hready =>
      obtain rfl := Option.some.inj hstep
      have hrank : s.main.rank = 2 := congrArg Main.rank hready.1
      refine work_goes (fun _ => rfl) ?_ ?_ (Nat.le_refl _)
      · exact Nat.add_lt_add_right (show s.main.rank < 3 by omega) _
      · exact show s.main.rank ≤ 3 by omega
    case isFalse => cases hstep
  | down =>
    rw [State.step] at hstep
    split at hstep
    · exact work_down hstep
    · cases hstep

theorem Inv.work_le (h : Inv extraData s) (hstopped : s.net.copier i = .stopped) :
    s.work ≤ 8 := by
  have hplace := (h.running (h.started_of_stopped hstopped)).place
  have hone := Duplex.stopped_iff.mpr hstopped
  unfold State.work
  cases i with
  | left =>
    rw [hone]
    simp
    split <;> omega
  | right =>
    rw [hone]
    simp
    split <;> omega

/-- **It returns.** Once a copy has ended, some statement that brings the function or the
goroutine nearer to its end can run until the function has returned, unless a copy waits for a
party to take its last piece; and in no run from there are there more than eight of them. -/
theorem direct_returns (h : Reach (State.step extraData) anyStep {} s)
    (hstopped : s.net.copier i = .stopped) :
    ((∀ u d, s.main ≠ .returned u d) →
      (∃ e, finishes e = true ∧ (s.step extraData e).isSome = true) ∨ ∃ j, s.Waits j)
    ∧ ∀ es t, runs (State.step extraData) (fun _ _ => true) es s = some t →
        es.countP finishes ≤ 8 := by
  have hinv := inv_reach h
  refine ⟨hinv.progress hstopped, fun es t hrun => ?_⟩
  have hwork := runs_measure State.work finishes work_step hrun
  have hle := hinv.work_le hstopped
  omega

/-- The server ends after an answer, while a second request is in the hand of the relay. -/
def answered : List (Event Nat) :=
  [.net (.arrives .left [3, 4]), .main true, .main true, .writeExtra 4,
    .net (.arrives .right [5]), .net (.read .right true), .net (.write .right true),
    .net (.ends .right), .net (.read .right false), .net (.arrives .left [6]),
    .net (.read .left true), .down, .down, .down, .net (.refuses .right),
    .net (.write .left false), .main true]

def halfClosed : State Nat where
  net := {
    left := { fed := [[6]], outbox := [[5]], closed := true }
    right := { fed := [[5]], ended := true, refuses := true }
    fromLeft := .stopped
    fromRight := .stopped }
  short := [3, 4]
  first := [1, 2, 3, 4]
  started := true
  main := .closeServer
  down := .send

theorem reach_halfClosed : Reach (State.step (some [1, 2])) anyStep {} halfClosed := by
  have hrun : runs (State.step (some [1, 2])) (fun _ _ => true) answered {} = some halfClosed := by
    decide +kernel
  exact reach_of_runs (fun _ => trivial) .init hrun

theorem direct_sound_halfClosed : halfClosed.Sound (some [1, 2]) := direct_sound reach_halfClosed

theorem direct_returns_halfClosed :
    ((∀ u d, Main.closeServer ≠ .returned u d) →
      (∃ e : Event Nat, finishes e = true ∧ (halfClosed.step (some [1, 2]) e).isSome = true)
        ∨ ∃ j, halfClosed.Waits j)
    ∧ ∀ es t, runs (State.step (some [1, 2])) (fun _ _ => true) es halfClosed = some t →
        es.countP finishes ≤ 8 :=
  direct_returns (i := .right) reach_halfClosed rfl

end Runs

end Direct

end RbiProxy
