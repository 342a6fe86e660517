import RbiProxy.Controller

/-!
# The controller's idle GC against a running clock

A tick of `gcLoop` decides which sessions are idle under `m.mu`, releases
it, and tears the copied ids down one by one, each teardown after a
`docker rm` that may take seconds. `Controller.step` has the two critical
sections as separate actions; here every action also happens at an instant,
so that the decision and the removal can be compared.

`Timely` is what a clock gives: instants do not go back, `Touch` reads the
clock inside its critical section, a tick reads it before. That alone does
not keep an active session: a `Touch` between the copy and the teardown is
ignored (`gcReap_takes_touched`). With `Undisturbed`, no such `Touch`, the
decision of the tick still stands when the session goes (`gcReap_idle`).
-/

namespace RbiProxy

namespace Controller

/-- The manager at an instant. -/
structure Clocked where
  st : State
  clock : Int

/-- A critical section at an instant. -/
structure Event where
  act : Act
  time : Int

def Clocked.init : Clocked := { st := Controller.init, clock := 0 }

def clockedStep (idleTimeout : Int) (c : Clocked) (e : Event) : Option Clocked :=
  (step idleTimeout c.st e.act).map fun st => { st := st, clock := e.time }

/-- The clock readings of an action, at the instant it happens. -/
def readingOk (time : Int) : Act → Bool
  | .touch _ now => now == time
  | .gcTick now _ => decide (now ≤ time)
  | .register s => decide (s.lastActive ≤ time)
  | _ => true

/-- Instants do not go back, and readings are taken no later than they are
used. -/
def Timely (c : Clocked) (e : Event) : Prop :=
  c.clock ≤ e.time ∧ readingOk e.time e.act = true

/-- No `Touch` of a registered session that the GC loop has already copied. -/
def Undisturbed (c : Clocked) (e : Event) : Prop :=
  ∀ id now, e.act = .touch id now → id ∈ c.st.gcDead → id ∉ c.st.mgr.sessions

/-- How long a session has been idle exceeds the limit. -/
def IdleAt (idleTimeout : Int) (s : Session) (t : Int) : Prop :=
  idleTimeout < t - s.lastActive

/-! ## What a critical section does to one session -/

theorem lookup_teardown {m : Manager} {id id' : GoString} {s : Session}
    (h : (m.teardown id).1.sessions.lookup id' = some s) : m.sessions.lookup id' = some s := by
  unfold Manager.teardown at h
  split at h
  · exact (GoMap.of_lookup_erase h).2
  · exact h

theorem lookup_touch {m : Manager} {id id' : GoString} {now : Int} {s : Session}
    (h : (m.touch id now).sessions.lookup id' = some s) :
    (id' = id ∧ id ∈ m.sessions) ∨ m.sessions.lookup id' = some s := by
  unfold Manager.touch at h
  split at h
  case h_1 sess hl =>
    obtain ⟨rfl, -⟩ | ⟨-, hold⟩ := GoMap.of_lookup_insert h
    · exact .inl ⟨rfl, AList.lookup_isSome.mp (by rw [hl]; rfl)⟩
    · exact .inr hold
  case h_2 => exact .inr h

theorem lookup_register {m : Manager} {s s' : Session} {id : GoString} (hne : id ≠ s.id)
    (h : (m.register s).sessions.lookup id = some s') : m.sessions.lookup id = some s' := by
  rwa [Manager.register, AList.lookup_insert_ne hne] at h

/-- A tick copies ids of sessions that are idle at its reading. -/
theorem idleAt_of_mem_idleIds {m : Manager} {idleTimeout now : Int} {id : GoString} {s : Session}
    (hmem : id ∈ m.idleIds idleTimeout now) (hs : m.sessions.lookup id = some s) :
    IdleAt idleTimeout s now := by
  unfold Manager.idleIds at hmem
  obtain ⟨⟨id', s'⟩, hfilter, rfl⟩ := List.mem_map.mp hmem
  obtain ⟨hentry, hidle⟩ := List.mem_filter.mp hfilter
  obtain rfl : s' = s := Option.some.inj ((AList.mem_lookup_iff.mpr hentry).symm.trans hs)
  simpa [IdleAt] using hidle

theorem mem_of_mem_idleIds {m : Manager} {idleTimeout now : Int} {id : GoString}
    (hmem : id ∈ m.idleIds idleTimeout now) : id ∈ m.sessions := by
  unfold Manager.idleIds at hmem
  obtain ⟨⟨id', s'⟩, hfilter, rfl⟩ := List.mem_map.mp hmem
  have hentry := (List.mem_filter.mp hfilter).1
  exact AList.lookup_isSome.mp (by rw [AList.mem_lookup_iff.mpr hentry]; rfl)

/-! ## The decision of a tick stays true -/

/-- Every id that the GC loop still has to tear down was registered, and if
its session is still there, it is idle. -/
structure GcInv (idleTimeout : Int) (c : Clocked) : Prop where
  base : Inv c.st
  known : ∀ id ∈ c.st.gcDead, id ∈ c.st.ids
  idle : ∀ id ∈ c.st.gcDead, ∀ s, c.st.mgr.sessions.lookup id = some s →
    IdleAt idleTimeout s c.clock

theorem IdleAt.mono {idleTimeout t t' : Int} {s : Session} (h : IdleAt idleTimeout s t)
    (ht : t ≤ t') : IdleAt idleTimeout s t' := by
  unfold IdleAt at *
  omega

/-- A step that neither extends the copied ids nor changes a copied session
keeps the invariant. -/
theorem GcInv.keep {idleTimeout : Int} {c c' : Clocked} (hI : GcInv idleTimeout c)
    (hbase : Inv c'.st) (hclock : c.clock ≤ c'.clock)
    (hdead : ∀ id ∈ c'.st.gcDead, id ∈ c.st.gcDead) (hids : ∀ id ∈ c.st.ids, id ∈ c'.st.ids)
    (hsess : ∀ id ∈ c'.st.gcDead, ∀ s, c'.st.mgr.sessions.lookup id = some s →
      c.st.mgr.sessions.lookup id = some s) : GcInv idleTimeout c' where
  base := hbase
  known id hid := hids id (hI.known id (hdead id hid))
  idle id hid s hs := (hI.idle id (hdead id hid) s (hsess id hid s hs)).mono hclock

theorem clockedStep_inv {idleTimeout : Int} {c c' : Clocked} {e : Event}
    (hI : GcInv idleTimeout c) (hok : Timely c e ∧ Undisturbed c e)
    (h : clockedStep idleTimeout c e = some c') : GcInv idleTimeout c' := by
  obtain ⟨⟨hclock, hread⟩, hquiet⟩ := hok
  obtain ⟨st', hs, rfl⟩ := Option.map_eq_some_iff.mp h
  have hbase : Inv st' := step_inv hI.base hs
  obtain ⟨act, t⟩ := e
  cases act with
  | register s =>
      simp only [step] at hs
      split at hs
      · cases hs
      · rename_i hcond
        obtain rfl := Option.some.inj hs
        refine hI.keep hbase hclock (fun id hid => hid)
          (fun id hid => List.mem_cons_of_mem _ hid) fun id hid s' hs' => ?_
        have hne : id ≠ s.id := by
          rintro rfl
          exact hcond (.inl (hI.known _ hid))
        exact lookup_register hne hs'
  | teardown id =>
      obtain rfl := Option.some.inj hs
      exact hI.keep hbase hclock (fun id hid => hid) (fun id hid => hid)
        fun _ _ _ hs' => lookup_teardown hs'
  | touch id now =>
      obtain rfl := Option.some.inj hs
      refine hI.keep hbase hclock (fun id hid => hid) (fun id hid => hid) fun id' hid' s hs' => ?_
      obtain ⟨rfl, hmem⟩ | hold := lookup_touch hs'
      · -- the copied session itself is touched: excluded
        exact absurd hmem (hquiet id' now rfl hid')
      · exact hold
  | gcTick now dead =>
      simp only [step] at hs
      split at hs
      · rename_i hcond
        obtain rfl := Option.some.inj hs
        have hperm : dead.Perm (c.st.mgr.idleIds idleTimeout now) :=
          List.isPerm_iff.mp hcond.2
        refine ⟨hbase, fun id hid => ?_, fun id hid s hs' => ?_⟩
        · exact hI.base.ids id (mem_of_mem_idleIds (hperm.mem_iff.mp hid))
        · have hnow : now ≤ t := of_decide_eq_true hread
          exact (idleAt_of_mem_idleIds (hperm.mem_iff.mp hid) hs').mono hnow
      · cases hs
  | gcReap =>
      simp only [step] at hs
      split at hs
      · rename_i id rest hdead
        obtain rfl := Option.some.inj hs
        refine hI.keep hbase hclock (fun id' hid' => ?_) (fun id hid => hid)
          fun _ _ _ hs' => lookup_teardown hs'
        rw [hdead]
        exact List.mem_cons_of_mem _ hid'
      · cases hs
  | shutdown all =>
      simp only [step] at hs
      split at hs
      · obtain rfl := Option.some.inj hs
        exact hI.keep hbase hclock (fun id hid => hid) (fun id hid => hid) fun _ _ _ hs' => hs'
      · cases hs
  | shutdownReap =>
      simp only [step] at hs
      split at hs
      · obtain rfl := Option.some.inj hs
        exact hI.keep hbase hclock (fun id hid => hid) (fun id hid => hid)
          fun _ _ _ hs' => lookup_teardown hs'
      · cases hs

/-- A run in which the clock goes forward and no `Touch` comes between a
tick's copy and its teardowns. -/
def UndisturbedRun (idleTimeout : Int) : Clocked → Prop :=
  Reach (clockedStep idleTimeout) (fun c e => Timely c e ∧ Undisturbed c e) Clocked.init

theorem reach_gcInv {idleTimeout : Int} {c : Clocked} (h : UndisturbedRun idleTimeout c) :
    GcInv idleTimeout c := by
  refine Reach.invariant ⟨⟨consistent_init, ?_⟩, ?_, ?_⟩
    (fun hI hok hs => clockedStep_inv hI hok hs) h
  · intro id hid
    simp [Clocked.init, init] at hid
  · intro id hid
    cases hid
  · intro id hid
    cases hid

/-- Only the session at the head of the copied ids can go in a reap. -/
theorem gcReap_removes {idleTimeout : Int} {c c' : Clocked} {t : Int} {id : GoString} {s : Session}
    (h : clockedStep idleTimeout c ⟨.gcReap, t⟩ = some c')
    (hs : c.st.mgr.sessions.lookup id = some s) (hgone : id ∉ c'.st.mgr.sessions) :
    id ∈ c.st.gcDead := by
  obtain ⟨st', hstep, rfl⟩ := Option.map_eq_some_iff.mp h
  simp only [step] at hstep
  split at hstep
  · rename_i id' rest hdead
    obtain rfl := Option.some.inj hstep
    rw [hdead]
    by_cases hid : id = id'
    · exact hid ▸ List.mem_cons_self
    · have hmem : id ∈ c.st.mgr.sessions := AList.lookup_isSome.mp (by rw [hs]; rfl)
      have hstays : id ∈ (c.st.mgr.teardown id').1.sessions := by
        unfold Manager.teardown
        split
        · exact AList.mem_erase.mpr ⟨hid, hmem⟩
        · exact hmem
      exact absurd hstays hgone
  · cases hstep

/-- **The GC only takes idle sessions.** In every state that such a run
reaches, whatever session a step of the GC loop removes has been idle for
more than the limit at the instant of the removal. -/
theorem gcReap_idle {idleTimeout : Int} {c c' : Clocked} {t : Int}
    (hr : UndisturbedRun idleTimeout c) (ht : c.clock ≤ t)
    (h : clockedStep idleTimeout c ⟨.gcReap, t⟩ = some c') :
    ∀ id s, c.st.mgr.sessions.lookup id = some s → id ∉ c'.st.mgr.sessions →
      IdleAt idleTimeout s t := by
  intro id s hs hgone
  have hI := reach_gcInv hr
  exact (hI.idle id (gcReap_removes h hs hgone) s hs).mono ht

/-- The GC loop is about to tear the example session down. -/
def copied : Clocked :=
  { st := { oneSession with gcDead := [exampleSession.id] }, clock := 200 }

/-- The same after a `Touch` at 201. -/
def copiedTouched : Clocked :=
  { st := copied.st.withMgr (copied.st.mgr.touch exampleSession.id 201), clock := 201 }

def reaped (c : Clocked) (t : Int) : Clocked :=
  { st := { c.st.withMgr (c.st.mgr.teardown exampleSession.id).1 with gcDead := [] }, clock := t }

theorem copied_undisturbed : UndisturbedRun 120 copied := by
  have hreg : UndisturbedRun 120 { st := oneSession, clock := 0 } :=
    .next (a := ⟨.register exampleSession, 0⟩) .init
      ⟨⟨by decide, by decide⟩, fun _ _ h => by cases h⟩ rfl
  exact .next (a := ⟨.gcTick 200 [exampleSession.id], 200⟩) hreg
    ⟨⟨by decide, by decide⟩, fun _ _ h => by cases h⟩ rfl

theorem gcReap_idle_copied :
    UndisturbedRun 120 copied
      ∧ clockedStep 120 copied ⟨.gcReap, 202⟩ = some (reaped copied 202)
      ∧ exampleSession.id ∉ (reaped copied 202).st.mgr.sessions
      ∧ IdleAt 120 exampleSession 202 := by
  have hstep : clockedStep 120 copied ⟨.gcReap, 202⟩ = some (reaped copied 202) := rfl
  have hgone : exampleSession.id ∉ (reaped copied 202).st.mgr.sessions := by decide +kernel
  exact ⟨copied_undisturbed, hstep, hgone,
    gcReap_idle copied_undisturbed (by decide) hstep exampleSession.id exampleSession
      (by decide +kernel) hgone⟩

/-- A `Touch` one second after the tick does not save the session: it goes
one second later, with the clock going forward all the time. -/
theorem gcReap_takes_touched :
    ∃ c c' : Clocked, ∃ s : Session,
      Reach (clockedStep 120) Timely Clocked.init c
        ∧ Timely c ⟨.gcReap, 202⟩
        ∧ clockedStep 120 c ⟨.gcReap, 202⟩ = some c'
        ∧ c.st.mgr.sessions.lookup exampleSession.id = some s
        ∧ exampleSession.id ∉ c'.st.mgr.sessions
        ∧ ¬ IdleAt 120 s 202 := by
  have hreg : Reach (clockedStep 120) Timely Clocked.init { st := oneSession, clock := 0 } :=
    .next (a := ⟨.register exampleSession, 0⟩) .init ⟨by decide, by decide⟩ rfl
  have htick : Reach (clockedStep 120) Timely Clocked.init copied :=
    .next (a := ⟨.gcTick 200 [exampleSession.id], 200⟩) hreg ⟨by decide, by decide⟩ rfl
  have htouch : Reach (clockedStep 120) Timely Clocked.init copiedTouched :=
    .next (a := ⟨.touch exampleSession.id 201, 201⟩) htick ⟨by decide, by decide⟩ rfl
  refine ⟨copiedTouched, reaped copiedTouched 202, { exampleSession with lastActive := 201 },
    htouch, ⟨by decide, by decide⟩, rfl, by decide +kernel, by decide +kernel, ?_⟩
  simp [IdleAt]

end Controller

end RbiProxy
