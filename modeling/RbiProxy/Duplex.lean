import RbiProxy.Reach

/-!
# Copying between two connections

A program that stands between two parties has a connection to each, and a loop for each
direction that reads from one connection and writes to the other. Everything here is about
such a pair, whatever is copied and whatever the program does around it.

A read fails when the connection was closed, or the party has ended it. A write fails when
the connection was closed, or the party refuses it. Either stops the loop.

`carries_reach` is the account of one direction in every run: what one party has sent is
what the other was given, what the loop holds, at most one item that could not be written,
and what has not been read. `settle` says that closing both connections stops both loops.
-/

namespace RbiProxy

namespace Duplex

variable {α : Type}

inductive Side where
  | left
  | right
deriving DecidableEq

def Side.other : Side → Side
  | .left => .right
  | .right => .left

structure Wire (α : Type) where
  /-- All that the party has sent. -/
  fed : List α := []
  /-- What of it has not been read. -/
  inbox : List α := []
  /-- All that was written to the party. -/
  outbox : List α := []
  /-- The party sends nothing more. -/
  ended : Bool := false
  /-- The party takes nothing more. -/
  refuses : Bool := false
  /-- The program has closed the connection. -/
  closed : Bool := false
deriving DecidableEq

/-- Where a loop stands. -/
inductive Copier (α : Type) where
  | reading
  | writing (m : α)
  | stopped
deriving DecidableEq

/-- The connections, and the loops that read from them. -/
structure State (α : Type) where
  left : Wire α := {}
  right : Wire α := {}
  fromLeft : Copier α := .reading
  fromRight : Copier α := .reading
deriving DecidableEq

inductive Event (α : Type) where
  | arrives (i : Side) (m : α)
  | ends (i : Side)
  | refuses (i : Side)
  /-- The loop that reads from `i` reads; `ok` says that the read does not fail. -/
  | read (i : Side) (ok : Bool)
  /-- It writes to the other connection. -/
  | write (i : Side) (ok : Bool)
  | close (i : Side)

namespace State

def wire (s : State α) : Side → Wire α
  | .left => s.left
  | .right => s.right

def setWire (s : State α) (w : Wire α) : Side → State α
  | .left => { s with left := w }
  | .right => { s with right := w }

def copier (s : State α) : Side → Copier α
  | .left => s.fromLeft
  | .right => s.fromRight

def setCopier (s : State α) (c : Copier α) : Side → State α
  | .left => { s with fromLeft := c }
  | .right => { s with fromRight := c }

def stopped (s : State α) (i : Side) : Bool :=
  match s.copier i with
  | .stopped => true
  | _ => false

def close (s : State α) (i : Side) : State α := s.setWire { s.wire i with closed := true } i

def read (s : State α) (i : Side) (ok : Bool) : Option (State α) :=
  if ok then
    match (s.wire i).inbox with
    | m :: inbox =>
      if (s.wire i).closed then none
      else some ((s.setWire { s.wire i with inbox } i).setCopier (.writing m) i)
    | [] => none
  else if (s.wire i).closed || (s.wire i).ended then some (s.setCopier .stopped i)
  else none

def write (s : State α) (i : Side) (ok : Bool) (m : α) : Option (State α) :=
  let w := s.wire i.other
  if ok then
    if w.closed then none
    else some ((s.setWire { w with outbox := w.outbox ++ [m] } i.other).setCopier .reading i)
  else if w.closed || w.refuses then some (s.setCopier .stopped i)
  else none

def step (s : State α) : Event α → Option (State α)
  | .arrives i m =>
    let w := s.wire i
    if w.ended then none
    else some (s.setWire { w with fed := w.fed ++ [m], inbox := w.inbox ++ [m] } i)
  | .ends i => some (s.setWire { s.wire i with ended := true } i)
  | .refuses i => some (s.setWire { s.wire i with refuses := true } i)
  | .read i ok =>
    match s.copier i with
    | .reading => s.read i ok
    | _ => none
  | .write i ok =>
    match s.copier i with
    | .writing m => s.write i ok m
    | _ => none
  | .close i => some (s.close i)

end State

/-! ## The parts of a state -/

section Parts

variable {s t : State α} {w : Wire α} {c : Copier α} (i j : Side)

@[simp] theorem other_other : i.other.other = i := by
  cases i <;> rfl

@[simp] theorem other_ne : i.other ≠ i := by
  cases i <;> decide

theorem eq_or_eq_other : j = i ∨ j = i.other := by
  cases i <;> cases j <;> decide

@[simp] theorem wire_setWire : (s.setWire w i).wire i = w := by
  cases i <;> rfl

variable {i j}

theorem wire_setWire_ne (h : j ≠ i) : (s.setWire w i).wire j = s.wire j := by
  cases i <;> cases j <;> first | rfl | exact absurd rfl h

theorem stopped_iff : s.stopped i = true ↔ s.copier i = .stopped := by
  unfold State.stopped
  cases s.copier i <;> simp

variable (i j)

@[simp] theorem copier_setWire : (s.setWire w i).copier j = s.copier j := by
  cases i <;> cases j <;> rfl

@[simp] theorem wire_setCopier : (s.setCopier c i).wire j = s.wire j := by
  cases i <;> cases j <;> rfl

@[simp] theorem copier_setCopier : (s.setCopier c i).copier i = c := by
  cases i <;> rfl

variable {i j}

theorem copier_setCopier_ne (h : j ≠ i) : (s.setCopier c i).copier j = s.copier j := by
  cases i <;> cases j <;> first | rfl | exact absurd rfl h

end Parts

/-! ## What a step does -/

def Event.stops : Event α → Option Side
  | .read i false | .write i false => some i
  | _ => none

def Event.closes : Event α → Bool
  | .close _ => true
  | _ => false

/-- What an event does where it is possible. -/
inductive Move (s : State α) : Event α → State α → Prop where
  | arrives (i : Side) (m : α) : Move s (.arrives i m) (s.setWire { s.wire i with
      fed := (s.wire i).fed ++ [m], inbox := (s.wire i).inbox ++ [m] } i)
  | ends (i : Side) : Move s (.ends i) (s.setWire { s.wire i with ended := true } i)
  | refuses (i : Side) : Move s (.refuses i) (s.setWire { s.wire i with refuses := true } i)
  | closes (i : Side) : Move s (.close i) (s.close i)
  | reads (i : Side) (m : α) (inbox : List α) : s.copier i = .reading →
      (s.wire i).inbox = m :: inbox → (s.wire i).closed = false → Move s (.read i true)
        ((s.setWire { s.wire i with inbox } i).setCopier (.writing m) i)
  | writes (i : Side) (m : α) : s.copier i = .writing m → (s.wire i.other).closed = false →
      Move s (.write i true) ((s.setWire { s.wire i.other with
        outbox := (s.wire i.other).outbox ++ [m] } i.other).setCopier .reading i)
  | stops {e : Event α} (i : Side) : e.stops = some i → s.copier i ≠ .stopped →
      Move s e (s.setCopier .stopped i)

theorem move {s t : State α} {e : Event α} (hstep : s.step e = some t) : Move s e t := by
  cases e with
  | arrives i m =>
    rw [State.step] at hstep
    split at hstep
    · cases hstep
    · exact Option.some.inj hstep ▸ .arrives i m
  | ends i => exact Option.some.inj hstep ▸ .ends i
  | refuses i => exact Option.some.inj hstep ▸ .refuses i
  | close i => exact Option.some.inj hstep ▸ .closes i
  | read i ok =>
    rw [State.step] at hstep
    split at hstep
    case h_1 hrun =>
      cases ok with
      | true =>
        rw [State.read, if_pos rfl] at hstep
        split at hstep
        case h_1 m inbox hinbox =>
          split at hstep
          · cases hstep
          · exact Option.some.inj hstep ▸ .reads i m inbox hrun hinbox (Bool.eq_false_iff.mpr ‹_›)
        case h_2 => cases hstep
      | false =>
        rw [State.read, if_neg (by decide)] at hstep
        split at hstep
        · exact Option.some.inj hstep ▸ .stops i rfl (by rw [hrun]; exact nofun)
        · cases hstep
    case h_2 => cases hstep
  | write i ok =>
    rw [State.step] at hstep
    split at hstep
    case h_1 m hrun =>
      unfold State.write at hstep
      simp only at hstep
      cases ok with
      | true =>
        rw [if_pos rfl] at hstep
        split at hstep
        · cases hstep
        · exact Option.some.inj hstep ▸ .writes i m hrun (Bool.eq_false_iff.mpr ‹_›)
      | false =>
        rw [if_neg (by decide)] at hstep
        split at hstep
        · exact Option.some.inj hstep ▸ .stops i rfl (by rw [hrun]; exact nofun)
        · cases hstep
    case h_2 => cases hstep

/-! ## One direction -/

/-- What a loop has read and not written. -/
def Copier.held : Copier α → List α
  | .writing m => [m]
  | _ => []

/-- What the party on side `i` has sent. -/
def Carries (s : State α) (i : Side) : Prop :=
  ∃ lost, (s.wire i).fed
      = (s.wire i.other).outbox ++ (s.copier i).held ++ lost ++ (s.wire i).inbox
    ∧ lost.length ≤ 1 ∧ (s.copier i ≠ .stopped → lost = [])

section Steps

variable {s t : State α} {i j : Side}

/-- What neither party has sent or been given leaves the account as it is. -/
theorem Carries.same (h : Carries s j) (hfed : (t.wire j).fed = (s.wire j).fed)
    (hinbox : (t.wire j).inbox = (s.wire j).inbox)
    (houtbox : (t.wire j.other).outbox = (s.wire j.other).outbox)
    (hcopier : t.copier j = s.copier j) : Carries t j := by
  unfold Carries
  rw [hfed, hinbox, houtbox, hcopier]
  exact h

theorem Carries.flag (h : ∀ j, Carries s j) {w : Wire α} (hfed : w.fed = (s.wire i).fed)
    (hinbox : w.inbox = (s.wire i).inbox) (houtbox : w.outbox = (s.wire i).outbox) (j : Side) :
    Carries (s.setWire w i) j := by
  have hwire : ∀ k, ((s.setWire w i).wire k).fed = (s.wire k).fed
      ∧ ((s.setWire w i).wire k).inbox = (s.wire k).inbox
      ∧ ((s.setWire w i).wire k).outbox = (s.wire k).outbox := by
    intro k
    by_cases hk : k = i
    · subst hk
      rw [wire_setWire]
      exact ⟨hfed, hinbox, houtbox⟩
    · rw [wire_setWire_ne hk]
      exact ⟨rfl, rfl, rfl⟩
  exact (h j).same (hwire j).1 (hwire j).2.1 (hwire j.other).2.2 (copier_setWire i j)

theorem Carries.stops (h : ∀ j, Carries s j) (hrun : s.copier i ≠ .stopped) (j : Side) :
    Carries (s.setCopier .stopped i) j := by
  by_cases hj : j = i
  · subst hj
    obtain ⟨lost, hfed, -, hnone⟩ := h j
    obtain rfl := hnone hrun
    refine ⟨(s.copier j).held, ?_, ?_, fun hnot => absurd (copier_setCopier j) hnot⟩
    · simp only [wire_setCopier, copier_setCopier, hfed, Copier.held, List.append_nil]
    · cases s.copier j with
      | writing m => exact Nat.le_refl 1
      | reading | stopped => exact Nat.zero_le 1
  · exact (h j).same (by simp) (by simp) (by simp) (copier_setCopier_ne hj)

theorem Carries.arrives (h : ∀ j, Carries s j) (m : α) (j : Side) :
    Carries (s.setWire { s.wire i with
      fed := (s.wire i).fed ++ [m], inbox := (s.wire i).inbox ++ [m] } i) j := by
  by_cases hj : j = i
  · subst hj
    obtain ⟨lost, hfed, hlost⟩ := h j
    refine ⟨lost, ?_, ?_⟩
    · rw [wire_setWire, wire_setWire_ne (other_ne j), copier_setWire]
      simp only [hfed, List.append_assoc]
    · rw [copier_setWire]
      exact hlost
  · obtain rfl := (eq_or_eq_other i j).resolve_left hj
    refine (h i.other).same ?_ ?_ ?_ (copier_setWire i _)
    · rw [wire_setWire_ne hj]
    · rw [wire_setWire_ne hj]
    · rw [other_other, wire_setWire]

theorem Carries.reads (h : ∀ j, Carries s j) (hrun : s.copier i = .reading) {m : α}
    {inbox : List α} (hinbox : (s.wire i).inbox = m :: inbox) (j : Side) :
    Carries ((s.setWire { s.wire i with inbox } i).setCopier (.writing m) i) j := by
  by_cases hj : j = i
  · subst hj
    obtain ⟨lost, hfed, -, hnone⟩ := h j
    obtain rfl := hnone (by rw [hrun]; exact nofun)
    refine ⟨[], ?_, Nat.zero_le 1, fun _ => rfl⟩
    rw [hrun, hinbox] at hfed
    rw [wire_setCopier, wire_setCopier, wire_setWire, wire_setWire_ne (other_ne j),
      copier_setCopier]
    simpa [Copier.held] using hfed
  · obtain rfl := (eq_or_eq_other i j).resolve_left hj
    refine (h i.other).same ?_ ?_ ?_ ?_
    · rw [wire_setCopier, wire_setWire_ne hj]
    · rw [wire_setCopier, wire_setWire_ne hj]
    · rw [other_other, wire_setCopier, wire_setWire]
    · rw [copier_setCopier_ne hj, copier_setWire]

theorem Carries.writes (h : ∀ j, Carries s j) {m : α} (hrun : s.copier i = .writing m)
    (j : Side) : Carries ((s.setWire { s.wire i.other with
      outbox := (s.wire i.other).outbox ++ [m] } i.other).setCopier .reading i) j := by
  by_cases hj : j = i
  · subst hj
    obtain ⟨lost, hfed, -, hnone⟩ := h j
    obtain rfl := hnone (by rw [hrun]; exact nofun)
    refine ⟨[], ?_, Nat.zero_le 1, fun _ => rfl⟩
    rw [hrun] at hfed
    rw [wire_setCopier, wire_setCopier, wire_setWire, wire_setWire_ne (other_ne j).symm,
      copier_setCopier]
    simpa [Copier.held] using hfed
  · obtain rfl := (eq_or_eq_other i j).resolve_left hj
    refine (h i.other).same ?_ ?_ ?_ ?_
    · rw [wire_setCopier, wire_setWire]
    · rw [wire_setCopier, wire_setWire]
    · rw [other_other, wire_setCopier, wire_setWire_ne (other_ne i).symm]
    · rw [copier_setCopier_ne hj, copier_setWire]

theorem carries_step {e : Event α} (h : ∀ j, Carries s j) (hstep : s.step e = some t) (j : Side) :
    Carries t j := by
  cases move hstep with
  | arrives i m => exact Carries.arrives h m j
  | ends i | refuses i | closes i =>
    refine Carries.flag h ?_ ?_ ?_ j
    all_goals rfl
  | reads i m inbox hrun hinbox => exact Carries.reads h hrun hinbox j
  | writes i m hrun => exact Carries.writes h hrun j
  | stops i _ hrun => exact Carries.stops h hrun j

theorem carries_empty (j : Side) : Carries ({} : State α) j :=
  ⟨[], by cases j <;> rfl, Nat.zero_le 1, fun _ => rfl⟩

/-- **Copying keeps the order and loses no more than what is in the hand** when a loop
stops. -/
theorem carries_reach {ok : State α → Event α → Prop} (h : Reach State.step ok {} s) :
    ∀ j, Carries s j :=
  h.invariant carries_empty fun hinv _ hstep => carries_step hinv hstep

/-! ## Stopping -/

@[simp] theorem closed_close : ((s.close i).wire i).closed = true := by
  rw [State.close, wire_setWire]

theorem closed_close_ne (h : j ≠ i) : ((s.close i).wire j).closed = (s.wire j).closed := by
  rw [State.close, wire_setWire_ne h]

/-- Closing a connection leaves one that is closed. -/
theorem closed_close_of (h : (s.wire j).closed = true) : ((s.close i).wire j).closed = true := by
  by_cases hj : j = i
  · rw [hj, closed_close]
  · rw [closed_close_ne hj, h]

@[simp] theorem copier_close : (s.close i).copier j = s.copier j := copier_setWire i j

/-- An event that stops a loop does nothing else. -/
theorem stops_eq {e : Event α} (hstops : e.stops = some i) (hstep : s.step e = some t) :
    s.copier i ≠ .stopped ∧ t = s.setCopier .stopped i := by
  cases move hstep with
  | stops j hj hrun =>
    obtain rfl := Option.some.inj (hstops.symm.trans hj)
    exact ⟨hrun, rfl⟩
  | arrives | ends | refuses | closes | reads | writes => cases hstops

/-- A loop goes on, whatever it has read or written. -/
theorem runs_setCopier {w : Wire α} {k : Side} {c : Copier α} (hrun : s.copier i ≠ .stopped)
    (hc : c ≠ .stopped) (j : Side) :
    ((s.setWire w k).setCopier c i).copier j = .stopped ↔ s.copier j = .stopped := by
  by_cases hj : j = i
  · subst hj
    rw [copier_setCopier]
    exact iff_of_false hc hrun
  · rw [copier_setCopier_ne hj, copier_setWire]

/-- Another event stops no loop and starts none. -/
theorem runs_on {e : Event α} (hstops : e.stops = none) (hstep : s.step e = some t) (j : Side) :
    t.copier j = .stopped ↔ s.copier j = .stopped := by
  cases move hstep with
  | arrives i m | ends i | refuses i => rw [copier_setWire]
  | closes i => rw [copier_close]
  | reads i m inbox hrun =>
    exact runs_setCopier (by rw [hrun]; exact nofun) (fun heq => (by cases heq)) j
  | writes i m hrun =>
    exact runs_setCopier (by rw [hrun]; exact nofun) (fun heq => (by cases heq)) j
  | stops i hsome =>
    rw [hstops] at hsome
    cases hsome

theorem closed_step {e : Event α} (he : e.closes = false) (hstep : s.step e = some t) (j : Side) :
    (t.wire j).closed = (s.wire j).closed := by
  have hset : ∀ {w : Wire α} {i : Side}, w.closed = (s.wire i).closed →
      ((s.setWire w i).wire j).closed = (s.wire j).closed := by
    intro w i hw
    by_cases hj : j = i
    · rw [hj, wire_setWire, hw]
    · rw [wire_setWire_ne hj]
  cases move hstep with
  | closes i => cases he
  | arrives i m | ends i | refuses i =>
    rw [hset]
    rfl
  | reads i m inbox | writes i m =>
    rw [wire_setCopier, hset]
    rfl
  | stops i => rw [wire_setCopier]

/-- A party that takes nothing more goes on so. -/
theorem refuses_step {e : Event α} {j : Side} (h : (s.wire j).refuses = true)
    (hstep : s.step e = some t) : (t.wire j).refuses = true := by
  have hset : ∀ {w : Wire α} {i : Side}, ((s.wire i).refuses = true → w.refuses = true) →
      ((s.setWire w i).wire j).refuses = true := by
    intro w i hw
    by_cases hj : j = i
    · rw [hj, wire_setWire, hw]
      exact hj ▸ h
    · rw [wire_setWire_ne hj, h]
  cases move hstep with
  | arrives i m | ends i => exact hset id
  | closes i => exact hset id
  | refuses i => exact hset fun _ => rfl
  | reads i m inbox | writes i m =>
    rw [wire_setCopier]
    exact hset id
  | stops i => rw [wire_setCopier, h]

/-- A loop that has stopped writes nothing more. -/
theorem outbox_of_stopped {e : Event α} (hstopped : s.copier i = .stopped)
    (hstep : s.step e = some t) : (t.wire i.other).outbox = (s.wire i.other).outbox := by
  have hset : ∀ {w : Wire α} {k : Side}, w.outbox = (s.wire k).outbox →
      ((s.setWire w k).wire i.other).outbox = (s.wire i.other).outbox := by
    intro w k hw
    by_cases hk : i.other = k
    · rw [hk, wire_setWire, hw]
    · rw [wire_setWire_ne hk]
  cases move hstep with
  | arrives k m | ends k | refuses k =>
    rw [hset]
    rfl
  | closes k =>
    rw [State.close, hset]
    rfl
  | reads k m inbox =>
    rw [wire_setCopier, hset]
    rfl
  | writes k m hrun =>
    -- it is the other loop that writes
    have hne : i.other ≠ k.other := by
      intro heq
      have hik : i = k := by rw [← other_other i, heq, other_other]
      rw [← hik, hstopped] at hrun
      cases hrun
    rw [wire_setCopier, wire_setWire_ne hne]
  | stops k => rw [wire_setCopier]

/-- A loop that has to do with a closed connection on either side can stop. -/
theorem settle (hleft : ∀ j, (s.wire j).closed = true) (hrun : s.copier i ≠ .stopped) :
    ∃ e : Event α, e.stops = some i ∧ s.step e = some (s.setCopier .stopped i) := by
  cases hcopier : s.copier i with
  | reading =>
    refine ⟨.read i false, rfl, ?_⟩
    simp [State.step, State.read, hcopier, hleft i]
  | writing m =>
    refine ⟨.write i false, rfl, ?_⟩
    simp [State.step, State.write, hcopier, hleft i.other]
  | stopped => exact absurd hcopier hrun

end Steps

end Duplex

end RbiProxy
