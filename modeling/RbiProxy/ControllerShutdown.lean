import RbiProxy.ControllerHost

/-!
# Launches against `Shutdown`

`Manager.Launch` runs `docker run`, registers the session, waits until the
container answers and, when it does not, calls `Teardown`. `Shutdown` and
the GC loop copy ids under `m.mu` and tear them down afterwards. Here a
launch is followed from its call to its return, `docker run` and `docker
rm` are steps of their own, and any number of launches run against one
`Shutdown` and the GC loop.

The law that carries the result is about containers: every container that
`docker run` has started is in one place, `held`. It belongs to a launch
that has not registered it or that is removing it, to a registered session,
to a `docker rm` that a reaper still has to issue, or to the removed ones.
Two things break it or leave a session behind, and `Tidy` excludes both:
`docker run` fails with the container started, and a launch is reported
ready whose session `Shutdown` has not copied (`shutdown_misses_launch`).
-/

namespace RbiProxy

namespace Controller

namespace Shutdown

inductive Phase where
  /-- `docker run` is under way, without a container so far -/
  | docker
  /-- `docker run` is under way and has started the container -/
  | up
  /-- `docker run` has succeeded, `register` is next -/
  | ran
  /-- in `waitReady` -/
  | waiting
  /-- not ready, `Teardown` is next -/
  | failing
  /-- `Teardown` has unregistered the session, `docker rm` is next -/
  | removing (container : GoString)
  | returned
deriving DecidableEq

/-- One call of `Launch` that passed its checks. -/
structure Launch where
  id : GoString
  url : GoString
  browser : GoString
  phase : Phase

/-- The manager, the calls of `Launch`, the GC loop, `Shutdown` and what
`docker` was told. -/
structure State where
  mgr : Manager
  launches : GoMap GoString Launch
  /-- ids that the GC loop still has to tear down in this tick -/
  gcDead : List GoString
  /-- the `docker rm` that the GC loop has to issue next -/
  gcRm : Option GoString
  gcExited : Bool
  /-- `m.stop` is closed -/
  stop : Bool
  /-- ids that `Shutdown` still has to tear down, once it has copied them -/
  copied : Option (List GoString)
  /-- the `docker rm` that `Shutdown` has to issue next -/
  shutdownRm : Option GoString
  started : List GoString
  removed : List GoString

inductive Act where
  | launch (id url browser : GoString)
  | dockerStart (id : GoString)
  | runReturns (id : GoString) (ok : Bool)
  | register (id : GoString) (now : Int)
  | ready (id : GoString) (ok : Bool)
  /-- the critical section of a launch's own `Teardown` -/
  | fail (id : GoString)
  | rm (id : GoString)
  | gcTick (now : Int) (dead : List GoString)
  | gcReap
  | gcRm
  | gcExit
  /-- `close(m.stop)` -/
  | closeStop
  | copy (all : List GoString)
  | shutdownReap
  | shutdownRm

def init : State :=
  { mgr := ⟨∅, ∅⟩, launches := ∅, gcDead := [], gcRm := none, gcExited := false, stop := false
    copied := none, shutdownRm := none, started := [], removed := [] }

/-- The call of `Launch` for `id`, when it stands at `ph`. -/
def State.at (st : State) (id : GoString) (ph : Phase) : Option Launch :=
  match st.launches.lookup id with
  | some l => if l.phase = ph then some l else none
  | none => none

def State.goto (st : State) (id : GoString) (l : Launch) (ph : Phase) : State :=
  { st with launches := st.launches.insert id { l with phase := ph } }

def State.shutdownReturned (st : State) : Prop := st.copied = some [] ∧ st.shutdownRm = none

instance (st : State) : Decidable st.shutdownReturned := by
  unfold State.shutdownReturned; infer_instance

section

variable (table : Rune → Rune) (image : GoString) (idleTimeout : Int)

/-- The effect of an enabled step. -/
def step (st : State) : Act → Option State
  | .launch id url browser =>
      -- ids are random and pairwise distinct; no call starts after `Shutdown` has returned
      if id ∈ st.launches ∨ st.shutdownReturned then none
      else if launchAccepts table image url browser then
        some { st with launches := st.launches.insert id ⟨id, url, browser, .docker⟩ }
      else some st
  | .dockerStart id => (st.at id .docker).map fun l =>
      { st.goto id l .up with started := containerName l.id :: st.started }
  | .runReturns id true => (st.at id .up).map fun l => st.goto id l .ran
  | .runReturns id false =>
      -- an error, or the 25 seconds are over: the command may have started the container
      ((st.at id .docker).or (st.at id .up)).map fun l => st.goto id l .returned
  | .register id now => (st.at id .ran).map fun l =>
      { st.goto id l .waiting with
        mgr := st.mgr.register (launchSession table l.id l.url l.browser now) }
  | .ready id ok => (st.at id .waiting).map fun l =>
      st.goto id l (if ok then .returned else .failing)
  | .fail id => (st.at id .failing).map fun l =>
      match (st.mgr.teardown id).2 with
      | some c => { st.goto id l (.removing c) with mgr := (st.mgr.teardown id).1 }
      | none => st.goto id l .returned
  | .rm id => match st.launches.lookup id with
      | some ⟨i, url, browser, .removing c⟩ =>
          some { st.goto id ⟨i, url, browser, .removing c⟩ .returned with
            removed := c :: st.removed }
      | _ => none
  | .gcTick now dead =>
      if st.gcExited = false ∧ st.gcDead = [] ∧ st.gcRm = none
          ∧ dead.isPerm (st.mgr.idleIds idleTimeout now) then
        some { st with gcDead := dead }
      else none
  | .gcReap => match st.gcRm, st.gcDead with
      | none, id :: rest => some { st with
          mgr := (st.mgr.teardown id).1, gcDead := rest, gcRm := (st.mgr.teardown id).2 }
      | _, _ => none
  | .gcRm => match st.gcRm with
      | some c => some { st with gcRm := none, removed := c :: st.removed }
      | none => none
  | .gcExit =>
      if st.stop = true ∧ st.gcDead = [] ∧ st.gcRm = none then some { st with gcExited := true }
      else none
  | .closeStop => if st.stop = true then none else some { st with stop := true }
  | .copy all =>
      if st.stop = true ∧ st.copied = none ∧ all.isPerm st.mgr.sessions.keys then
        some { st with copied := some all }
      else none
  | .shutdownReap => match st.shutdownRm, st.copied with
      | none, some (id :: rest) => some { st with
          mgr := (st.mgr.teardown id).1, copied := some rest, shutdownRm := (st.mgr.teardown id).2 }
      | _, _ => none
  | .shutdownRm => match st.shutdownRm with
      | some c => some { st with shutdownRm := none, removed := c :: st.removed }
      | none => none

end

/-- `Shutdown` has not copied yet, or has the id among those to tear down. -/
def State.Pending (st : State) (id : GoString) : Prop := ∀ ids, st.copied = some ids → id ∈ ids

/-- No `docker run` fails with its container started, and no launch becomes
ready whose registered session `Shutdown` has passed over. -/
def Tidy (st : State) : Act → Prop
  | .runReturns id false => st.at id .up = none
  | .ready id true => id ∈ st.mgr.sessions → st.Pending id
  | _ => True

def tidyTest (st : State) : Act → Bool
  | .runReturns id false => (st.at id .up).isNone
  | .ready id true => match st.copied with
      | some ids => ids.contains id
      | none => true
  | _ => true

theorem tidy_of_tidyTest {st : State} {a : Act} (h : tidyTest st a = true) : Tidy st a := by
  unfold tidyTest at h
  split at h
  · exact Option.isNone_iff_eq_none.mp h
  · intro _ ids hids
    rw [hids] at h
    simpa using h
  · rename_i hrun hready
    unfold Tidy
    split
    · exact absurd rfl (hrun _)
    · exact absurd rfl (hready _)
    · trivial

/-- `Shutdown` and every call of `Launch` have returned. -/
def State.Quiet (st : State) : Prop :=
  st.shutdownReturned ∧ ∀ id l, st.launches.lookup id = some l → l.phase = .returned

/-- No session, no allowed host, and a `docker rm` for every container. -/
def State.Clean (st : State) : Prop :=
  st.mgr.sessions = ∅ ∧ st.mgr.allowed = ∅ ∧ ∀ c ∈ st.started, c ∈ st.removed

/-! ## Where the containers are -/

/-- The launch has the container to itself. -/
def Launch.holds (l : Launch) (c : GoString) : Bool :=
  match l.phase with
  | .up | .ran => containerName l.id == c
  | .removing c' => c' == c
  | _ => false

/-- In how many places a container is. -/
def State.held (st : State) (c : GoString) : Nat :=
  GoMap.countVal st.mgr.sessions (·.container == c) + GoMap.countVal st.launches (·.holds c)
    + st.gcRm.toList.count c + st.shutdownRm.toList.count c + st.removed.count c

/-- A session is registered while its launch is under way, or until
`Shutdown` gets to it. -/
def State.Watched (st : State) (id : GoString) : Prop :=
  ∃ l, st.launches.lookup id = some l
    ∧ (l.phase = .waiting ∨ l.phase = .failing ∨ (l.phase = .returned ∧ st.Pending id))

structure Inv (table : Rune → Rune) (st : State) : Prop where
  consistent : Consistent st.mgr
  ids : ∀ id l, st.launches.lookup id = some l → l.id = id ∧ hostFromURL table l.url ≠ []
  watched : ∀ id ∈ st.mgr.sessions, st.Watched id
  held : ∀ c, st.held c = st.started.count c
  fresh : ∀ id, (∀ l, st.launches.lookup id = some l → l.phase = .docker) →
    containerName id ∉ st.started
  once : st.started.Nodup

theorem inv_init (table : Rune → Rune) : Inv table init where
  consistent := consistent_init
  ids id l hl := by simp [init] at hl
  watched id hid := by simp [init] at hid
  held c := by simp [State.held, init]
  fresh id _ := by simp [init]
  once := List.nodup_nil

theorem of_at {st : State} {id : GoString} {ph : Phase} {l : Launch} (h : st.at id ph = some l) :
    st.launches.lookup id = some l ∧ l.phase = ph := by
  unfold State.at at h
  split at h
  · rename_i l' hl
    split at h
    · obtain rfl := Option.some.inj h
      exact ⟨hl, ‹_›⟩
    · cases h
  · cases h

theorem containerName_inj {id id' : GoString} (h : containerName id = containerName id') :
    id = id' :=
  List.append_cancel_left h

/-- A teardown moves the session's container to the caller. -/
theorem count_teardown (m : Manager) (id c : GoString) :
    GoMap.countVal m.sessions (·.container == c)
      = GoMap.countVal (m.teardown id).1.sessions (·.container == c)
        + (m.teardown id).2.toList.count c := by
  unfold Manager.teardown
  cases hl : m.sessions.lookup id with
  | none => simp
  | some sess => simpa [List.count_singleton] using GoMap.countVal_erase hl (·.container == c)

theorem notMem_teardown (m : Manager) (id : GoString) : id ∉ (m.teardown id).1.sessions := by
  unfold Manager.teardown
  split
  · simp
  · rename_i hl
    exact AList.lookup_eq_none.mp hl

/-! ## A launch moves on -/

section

variable {table : Rune → Rune} {st : State} {id : GoString} {l : Launch} {ph : Phase}

theorem lookup_goto {id' : GoString} {l' : Launch}
    (h : (st.goto id l ph).launches.lookup id' = some l') :
    (id' = id ∧ l' = { l with phase := ph }) ∨ (id' ≠ id ∧ st.launches.lookup id' = some l') :=
  GoMap.of_lookup_insert h

/-- A launch that has not registered its session, or has removed it, has
none. -/
theorem Inv.notMem_sessions (hI : Inv table st) (hl : st.launches.lookup id = some l)
    (hw : l.phase ≠ .waiting) (hf : l.phase ≠ .failing) (hr : l.phase ≠ .returned) :
    id ∉ st.mgr.sessions := by
  intro hmem
  obtain ⟨l', hl', hphase⟩ := hI.watched _ hmem
  obtain rfl := Option.some.inj (hl.symm.trans hl')
  obtain h | h | ⟨h, -⟩ := hphase
  · exact hw h
  · exact hf h
  · exact hr h

/-- Ids and hosts do not change with the phase. -/
theorem Inv.ids_goto (hI : Inv table st) (hl : st.launches.lookup id = some l) :
    ∀ id' l', (st.goto id l ph).launches.lookup id' = some l' →
      l'.id = id' ∧ hostFromURL table l'.url ≠ [] := by
  intro id' l' hl'
  obtain ⟨rfl, rfl⟩ | ⟨-, hold⟩ := lookup_goto hl'
  · exact hI.ids _ l hl
  · exact hI.ids _ _ hold

/-- The other sessions are watched as before, this one by its new phase. -/
theorem watched_goto (hne : ∀ id' ∈ st.mgr.sessions, id' ≠ id → st.Watched id')
    (hid : id ∈ st.mgr.sessions →
      ph = .waiting ∨ ph = .failing ∨ (ph = .returned ∧ st.Pending id)) :
    ∀ id' ∈ st.mgr.sessions, (st.goto id l ph).Watched id' := by
  intro id' hmem
  by_cases heq : id' = id
  · subst heq
    exact ⟨{ l with phase := ph }, AList.lookup_insert _, hid hmem⟩
  · obtain ⟨l', hl', hphase⟩ := hne id' hmem heq
    exact ⟨l', by rw [State.goto, AList.lookup_insert_ne heq, hl'], hphase⟩

theorem Inv.fresh_goto (hI : Inv table st) (hph : ph ≠ .docker) :
    ∀ id', (∀ l', (st.goto id l ph).launches.lookup id' = some l' → l'.phase = .docker) →
      containerName id' ∉ st.started := by
  intro id' hdocker
  have hne : id' ≠ id := by
    rintro rfl
    exact hph (hdocker _ (AList.lookup_insert _))
  refine hI.fresh id' fun l' hl' => hdocker l' ?_
  rw [State.goto, AList.lookup_insert_ne hne, hl']

/-- The places of a container, when the launch goes to another phase. -/
theorem held_goto (ph : Phase) (hl : st.launches.lookup id = some l) (c : GoString) :
    (st.goto id l ph).held c + (if l.holds c then 1 else 0)
      = st.held c + if ({ l with phase := ph } : Launch).holds c then 1 else 0 := by
  have hadd := GoMap.countVal_insert_add { l with phase := ph } hl (·.holds c)
  simp only [State.held, State.goto]
  omega

theorem Inv.goto (hI : Inv table st) (hl : st.launches.lookup id = some l) (hph : ph ≠ .docker)
    (hholds : ∀ c, ({ l with phase := ph } : Launch).holds c = l.holds c)
    (hid : id ∈ st.mgr.sessions →
      ph = .waiting ∨ ph = .failing ∨ (ph = .returned ∧ st.Pending id)) :
    Inv table (st.goto id l ph) where
  consistent := hI.consistent
  ids := hI.ids_goto hl
  watched := watched_goto (fun id' hmem _ => hI.watched id' hmem) hid
  held c := by
    have hmove := held_goto ph hl c
    rw [hholds c] at hmove
    have hsame := hI.held c
    have hstarted : (st.goto id l ph).started = st.started := rfl
    rw [hstarted]
    omega
  fresh := hI.fresh_goto hph
  once := hI.once

theorem Inv.launch (hI : Inv table st) {url browser : GoString} (hid : id ∉ st.launches)
    (hhost : hostFromURL table url ≠ []) :
    Inv table { st with launches := st.launches.insert id ⟨id, url, browser, .docker⟩ } where
  consistent := hI.consistent
  ids id' l' hl' := by
    obtain ⟨rfl, rfl⟩ | ⟨-, hold⟩ := GoMap.of_lookup_insert hl'
    · exact ⟨rfl, hhost⟩
    · exact hI.ids _ _ hold
  watched id' hmem := by
    obtain ⟨l', hl', hphase⟩ := hI.watched id' hmem
    have hne : id' ≠ id := by
      rintro rfl
      exact hid (AList.lookup_isSome.mp (by rw [hl']; rfl))
    exact ⟨l', by rw [AList.lookup_insert_ne hne, hl'], hphase⟩
  held c := by
    have hcount := GoMap.countVal_insert_of_notMem hid (⟨id, url, browser, .docker⟩ : Launch)
      (·.holds c)
    have hsame := hI.held c
    simp only [State.held, Launch.holds] at hcount hsame ⊢
    simp only [Bool.false_eq_true, if_false] at hcount
    omega
  fresh id' hdocker := by
    refine hI.fresh id' fun l' hl' => hdocker l' ?_
    have hne : id' ≠ id := by
      rintro rfl
      exact hid (AList.lookup_isSome.mp (by rw [hl']; rfl))
    rw [AList.lookup_insert_ne hne, hl']
  once := hI.once

/-- `docker run` starts the container, which is the launch's from then on. -/
theorem Inv.dockerStart (hI : Inv table st) (hat : st.at id .docker = some l) :
    Inv table { st.goto id l .up with started := containerName l.id :: st.started } := by
  obtain ⟨hl, hphase⟩ := of_at hat
  obtain ⟨rfl, -⟩ := hI.ids id l hl
  have hnew : containerName l.id ∉ st.started := by
    refine hI.fresh l.id fun l' hl' => ?_
    obtain rfl := Option.some.inj (hl.symm.trans hl')
    exact hphase
  refine ⟨hI.consistent, hI.ids_goto hl, ?_, fun c => ?_, fun id' hdocker => ?_, ?_⟩
  · exact watched_goto (fun id' hmem _ => hI.watched id' hmem) fun hmem =>
      absurd hmem (hI.notMem_sessions hl (by simp [hphase]) (by simp [hphase]) (by simp [hphase]))
  · have hmove := held_goto .up hl c
    have hsame := hI.held c
    have hnone : l.holds c = false := by simp [Launch.holds, hphase]
    rw [hnone] at hmove
    simp only [Bool.false_eq_true, if_false, Launch.holds, Nat.add_zero] at hmove
    rw [List.count_cons, ← hsame]
    exact hmove
  · have hold := hI.fresh_goto (by simp) id' hdocker
    have hne : id' ≠ l.id := by
      rintro rfl
      exact absurd (hdocker _ (AList.lookup_insert _)) (by simp)
    exact List.not_mem_cons_of_ne_of_not_mem (fun h => hne (containerName_inj h)) hold
  · exact List.nodup_cons.mpr ⟨hnew, hI.once⟩

/-- `register`: the container goes from the launch to the session. -/
theorem Inv.register (hI : Inv table st) (hat : st.at id .ran = some l) (now : Int) :
    Inv table { st.goto id l .waiting with
      mgr := st.mgr.register (launchSession table l.id l.url l.browser now) } := by
  obtain ⟨hl, hphase⟩ := of_at hat
  obtain ⟨rfl, hhost⟩ := hI.ids id l hl
  have hnew : l.id ∉ st.mgr.sessions :=
    hI.notMem_sessions hl (by simp [hphase]) (by simp [hphase]) (by simp [hphase])
  refine ⟨hI.consistent.register hnew hhost, hI.ids_goto hl, fun id' hmem => ?_, fun c => ?_,
    hI.fresh_goto (by simp), hI.once⟩
  · by_cases heq : id' = l.id
    · subst heq
      exact ⟨{ l with phase := .waiting }, AList.lookup_insert _, .inl rfl⟩
    · have hmem' : id' ∈ st.mgr.sessions :=
        ((AList.mem_insert _).mp hmem).resolve_left heq
      exact watched_goto (fun i h _ => hI.watched i h) (fun _ => .inl rfl) id' hmem'
  · have hmove := held_goto .waiting hl c
    have hsess : GoMap.countVal
        (st.mgr.register (launchSession table l.id l.url l.browser now)).sessions
        (·.container == c) = GoMap.countVal st.mgr.sessions (·.container == c)
          + if containerName l.id == c then 1 else 0 :=
      GoMap.countVal_insert_of_notMem hnew _ _
    have hsame := hI.held c
    have hhad : l.holds c = (containerName l.id == c) := by simp [Launch.holds, hphase]
    have hhas : ({ l with phase := .waiting } : Launch).holds c = false := rfl
    rw [hhad, hhas] at hmove
    simp only [State.held, State.goto, Bool.false_eq_true, if_false] at hmove hsame ⊢
    omega

/-- A failed launch unregisters its session and has the container again. -/
theorem Inv.fail (hI : Inv table st) (hat : st.at id .failing = some l) {c : GoString}
    (hc : (st.mgr.teardown id).2 = some c) :
    Inv table { st.goto id l (.removing c) with mgr := (st.mgr.teardown id).1 } := by
  obtain ⟨hl, hphase⟩ := of_at hat
  refine ⟨hI.consistent.teardown id, hI.ids_goto hl, fun id' hmem => ?_, fun c' => ?_,
    hI.fresh_goto (by simp), hI.once⟩
  · have hne : id' ≠ id := fun h => notMem_teardown st.mgr id (h ▸ hmem)
    obtain ⟨l', hl', hwatch⟩ := hI.watched id' (mem_teardown hmem)
    exact ⟨l', (AList.lookup_insert_ne hne).trans hl', hwatch⟩
  · have hmove := held_goto (.removing c) hl c'
    have hsess := count_teardown st.mgr id c'
    have hsame := hI.held c'
    have hhad : l.holds c' = false := by simp [Launch.holds, hphase]
    have hhas : ({ l with phase := .removing c } : Launch).holds c' = (c == c') := rfl
    rw [hhad, hhas] at hmove
    rw [hc, Option.toList_some, List.count_singleton] at hsess
    simp only [State.held, State.goto, Bool.false_eq_true, if_false] at hmove hsame ⊢
    omega

theorem Inv.rm (hI : Inv table st) (hl : st.launches.lookup id = some l) {c : GoString}
    (hphase : l.phase = .removing c) :
    Inv table { st.goto id l .returned with removed := c :: st.removed } := by
  refine ⟨hI.consistent, hI.ids_goto hl, ?_, fun c' => ?_, hI.fresh_goto (by simp), hI.once⟩
  · exact watched_goto (fun id' hmem _ => hI.watched id' hmem) fun hmem =>
      absurd hmem (hI.notMem_sessions hl (by simp [hphase]) (by simp [hphase]) (by simp [hphase]))
  · have hmove := held_goto .returned hl c'
    have hsame := hI.held c'
    have hhad : l.holds c' = (c == c') := by simp [Launch.holds, hphase]
    have hhas : ({ l with phase := .returned } : Launch).holds c' = false := rfl
    rw [hhad, hhas] at hmove
    simp only [State.held, State.goto, List.count_cons, Bool.false_eq_true,
      if_false] at hmove hsame ⊢
    omega

/-- What a reaper does to the sessions: one goes, the others are watched as
before, as long as they are still pending. -/
theorem Inv.watched_reap (hI : Inv table st) {st' : State}
    (hlaunches : st'.launches = st.launches) (hmgr : st'.mgr = (st.mgr.teardown id).1)
    (hpending : ∀ id', id' ≠ id → st.Pending id' → st'.Pending id') :
    ∀ id' ∈ st'.mgr.sessions, st'.Watched id' := by
  intro id' hmem
  rw [hmgr] at hmem
  have hne : id' ≠ id := fun h => notMem_teardown st.mgr id (h ▸ hmem)
  obtain ⟨l', hl', hphase⟩ := hI.watched id' (mem_teardown hmem)
  refine ⟨l', by rw [hlaunches, hl'], ?_⟩
  obtain hw | hw | ⟨hw, hp⟩ := hphase
  · exact .inl hw
  · exact .inr (.inl hw)
  · exact .inr (.inr ⟨hw, hpending id' hne hp⟩)

theorem Inv.gcReap (hI : Inv table st) (hrm : st.gcRm = none) (rest : List GoString) :
    Inv table { st with
      mgr := (st.mgr.teardown id).1, gcDead := rest, gcRm := (st.mgr.teardown id).2 } where
  consistent := hI.consistent.teardown id
  ids := hI.ids
  watched := hI.watched_reap rfl rfl fun _ _ hp => hp
  held c := by
    have hsess := count_teardown st.mgr id c
    have hsame := hI.held c
    simp only [State.held, hrm, Option.toList_none, List.count_nil] at hsame ⊢
    omega
  fresh := hI.fresh
  once := hI.once

theorem Inv.shutdownReap (hI : Inv table st) (hrm : st.shutdownRm = none) {rest : List GoString}
    (hcopied : st.copied = some (id :: rest)) :
    Inv table { st with
      mgr := (st.mgr.teardown id).1, copied := some rest,
      shutdownRm := (st.mgr.teardown id).2 } where
  consistent := hI.consistent.teardown id
  ids := hI.ids
  watched := by
    refine hI.watched_reap rfl rfl fun id' hne hp ids hids => ?_
    obtain rfl := Option.some.inj hids
    exact (List.mem_cons.mp (hp _ hcopied)).resolve_left hne
  held c := by
    have hsess := count_teardown st.mgr id c
    have hsame := hI.held c
    simp only [State.held, hrm, Option.toList_none, List.count_nil] at hsame ⊢
    omega
  fresh := hI.fresh
  once := hI.once

theorem Inv.copy (hI : Inv table st) {all : List GoString} (hall : all.Perm st.mgr.sessions.keys) :
    Inv table { st with copied := some all } where
  consistent := hI.consistent
  ids := hI.ids
  watched id' hmem := by
    obtain ⟨l', hl', hphase⟩ := hI.watched id' hmem
    refine ⟨l', hl', ?_⟩
    obtain hw | hw | ⟨hw, -⟩ := hphase
    · exact .inl hw
    · exact .inr (.inl hw)
    · refine .inr (.inr ⟨hw, fun ids hids => ?_⟩)
      obtain rfl := Option.some.inj hids
      exact hall.mem_iff.mpr hmem
  held := hI.held
  fresh := hI.fresh
  once := hI.once

end

theorem step_inv {table : Rune → Rune} {image : GoString} {idleTimeout : Int} {st st' : State}
    {a : Act} (hI : Inv table st) (hok : Tidy st a)
    (h : step table image idleTimeout st a = some st') : Inv table st' := by
  cases a with
  | launch id url browser =>
      simp only [step] at h
      split at h
      · cases h
      · rename_i hnew
        split at h
        · rename_i hacc
          obtain rfl := Option.some.inj h
          have hhost := ((Bool.and_eq_true _ _).mp hacc).1
          exact hI.launch (fun hmem => hnew (.inl hmem)) (by simpa using hhost)
        · obtain rfl := Option.some.inj h
          exact hI
  | dockerStart id =>
      obtain ⟨l, hat, rfl⟩ := Option.map_eq_some_iff.mp h
      exact hI.dockerStart hat
  | runReturns id ok =>
      cases ok with
      | true =>
          obtain ⟨l, hat, rfl⟩ := Option.map_eq_some_iff.mp h
          obtain ⟨hl, hphase⟩ := of_at hat
          exact hI.goto hl (by simp) (fun c => by simp [Launch.holds, hphase]) fun hmem =>
            absurd hmem
              (hI.notMem_sessions hl (by simp [hphase]) (by simp [hphase]) (by simp [hphase]))
      | false =>
          obtain ⟨l, hat, rfl⟩ := Option.map_eq_some_iff.mp h
          have hup : st.at id .up = none := hok
          rw [hup, Option.or_none] at hat
          obtain ⟨hl, hphase⟩ := of_at hat
          exact hI.goto hl (by simp) (fun c => by simp [Launch.holds, hphase]) fun hmem =>
            absurd hmem
              (hI.notMem_sessions hl (by simp [hphase]) (by simp [hphase]) (by simp [hphase]))
  | register id now =>
      obtain ⟨l, hat, rfl⟩ := Option.map_eq_some_iff.mp h
      exact hI.register hat now
  | ready id ok =>
      obtain ⟨l, hat, rfl⟩ := Option.map_eq_some_iff.mp h
      obtain ⟨hl, hphase⟩ := of_at hat
      cases ok with
      | true =>
          exact hI.goto hl (by simp) (fun c => by simp [Launch.holds, hphase])
            fun hmem => .inr (.inr ⟨rfl, hok hmem⟩)
      | false =>
          exact hI.goto hl (by simp) (fun c => by simp [Launch.holds, hphase])
            fun _ => .inr (.inl rfl)
  | fail id =>
      obtain ⟨l, hat, rfl⟩ := Option.map_eq_some_iff.mp h
      split
      · rename_i c hc
        exact hI.fail hat hc
      · rename_i hnone
        obtain ⟨hl, hphase⟩ := of_at hat
        refine hI.goto hl (by simp) (fun c => by simp [Launch.holds, hphase]) fun hmem => ?_
        -- `Teardown` would have found a registered session
        obtain ⟨s, hs⟩ := Option.isSome_iff_exists.mp (AList.lookup_isSome.mpr hmem)
        simp [Manager.teardown, hs] at hnone
  | rm id =>
      simp only [step] at h
      split at h
      · rename_i hl
        obtain rfl := Option.some.inj h
        exact hI.rm hl rfl
      · cases h
  | gcTick now dead =>
      simp only [step] at h
      split at h
      · obtain rfl := Option.some.inj h
        exact ⟨hI.consistent, hI.ids, hI.watched, hI.held, hI.fresh, hI.once⟩
      · cases h
  | gcReap =>
      simp only [step] at h
      split at h
      · rename_i hrm hdead
        obtain rfl := Option.some.inj h
        exact hI.gcReap hrm _
      · cases h
  | gcRm =>
      simp only [step] at h
      split at h
      · rename_i c hrm
        obtain rfl := Option.some.inj h
        refine ⟨hI.consistent, hI.ids, hI.watched, fun c' => ?_, hI.fresh, hI.once⟩
        have hsame := hI.held c'
        simp only [State.held, hrm, Option.toList_some, Option.toList_none, List.count_nil,
          List.count_cons] at hsame ⊢
        omega
      · cases h
  | gcExit =>
      simp only [step] at h
      split at h
      · obtain rfl := Option.some.inj h
        exact ⟨hI.consistent, hI.ids, hI.watched, hI.held, hI.fresh, hI.once⟩
      · cases h
  | closeStop =>
      simp only [step] at h
      split at h
      · cases h
      · obtain rfl := Option.some.inj h
        exact ⟨hI.consistent, hI.ids, hI.watched, hI.held, hI.fresh, hI.once⟩
  | copy all =>
      simp only [step] at h
      split at h
      · rename_i hcond
        obtain rfl := Option.some.inj h
        exact hI.copy (List.isPerm_iff.mp hcond.2.2)
      · cases h
  | shutdownReap =>
      simp only [step] at h
      split at h
      · rename_i hrm hcopied
        obtain rfl := Option.some.inj h
        exact hI.shutdownReap hrm hcopied
      · cases h
  | shutdownRm =>
      simp only [step] at h
      split at h
      · rename_i c hrm
        obtain rfl := Option.some.inj h
        refine ⟨hI.consistent, hI.ids, hI.watched, fun c' => ?_, hI.fresh, hI.once⟩
        have hsame := hI.held c'
        simp only [State.held, hrm, Option.toList_some, Option.toList_none, List.count_nil,
          List.count_cons] at hsame ⊢
        omega
      · cases h

/-! ## Once everything has returned -/

/-- A run in which no container and no session escapes. -/
def TidyRun (table : Rune → Rune) (image : GoString) (idleTimeout : Int) : State → Prop :=
  Reach (step table image idleTimeout) Tidy init

theorem tidyRun_inv {table : Rune → Rune} {image : GoString} {idleTimeout : Int} {st : State}
    (h : TidyRun table image idleTimeout st) : Inv table st :=
  Reach.invariant (inv_init table) (fun hI hok hs => step_inv hI hok hs) h

theorem Inv.sessions_empty {table : Rune → Rune} {st : State} (hI : Inv table st)
    (hq : st.Quiet) : st.mgr.sessions = ∅ := by
  have hnone : ∀ id, id ∉ st.mgr.sessions := by
    intro id hmem
    obtain ⟨l, hl, hphase⟩ := hI.watched id hmem
    have hret := hq.2 id l hl
    obtain hw | hw | ⟨-, hp⟩ := hphase
    · simp [hret] at hw
    · simp [hret] at hw
    · exact absurd (hp [] hq.1.1) (by simp)
  apply AList.ext
  rw [AList.empty_entries]
  refine List.eq_nil_iff_forall_not_mem.mpr fun e he => hnone e.1 ?_
  exact AList.lookup_isSome.mp (by rw [AList.mem_lookup_iff.mpr he]; rfl)

theorem Inv.allowed_empty {table : Rune → Rune} {st : State} (hI : Inv table st)
    (hs : st.mgr.sessions = ∅) : st.mgr.allowed = ∅ := by
  apply AList.ext
  rw [AList.empty_entries]
  refine List.eq_nil_iff_forall_not_mem.mpr fun e he => ?_
  have hkey : e.1 ∈ st.mgr.allowed.keys := List.mem_map_of_mem he
  obtain ⟨id, s, hlookup, -⟩ := hI.consistent.mem_allowed.mp hkey
  rw [hs] at hlookup
  cases hlookup

/-- Then every started container has been removed, but for the one that the
GC loop has in hand. -/
theorem Inv.count_removed {table : Rune → Rune} {st : State} (hI : Inv table st) (hq : st.Quiet)
    (c : GoString) :
    st.gcRm.toList.count c + st.removed.count c = st.started.count c := by
  have hlaunches : GoMap.countVal st.launches (·.holds c) = 0 := by
    by_contra hpos
    obtain ⟨id, l, hl, hholds⟩ := GoMap.countVal_pos_iff.mp (Nat.pos_of_ne_zero hpos)
    simp [Launch.holds, hq.2 id l hl] at hholds
  have hheld := hI.held c
  rw [State.held, hI.sessions_empty hq, GoMap.countVal_empty, hlaunches, hq.1.2] at hheld
  simpa using hheld

/-- **Shutdown leaves nothing behind.** In every tidy run, in every state in
which `Shutdown` and all launches have returned: there is no session, no
allowed host, and `docker rm` has been issued for every container, exactly
when the GC loop is not in the middle of a teardown. -/
theorem shutdown_clean_iff {table : Rune → Rune} {image : GoString} {idleTimeout : Int} {st : State}
    (hr : TidyRun table image idleTimeout st) (hq : st.Quiet) :
    st.Clean ↔ st.gcRm = none := by
  have hI := tidyRun_inv hr
  constructor
  · intro hclean
    cases hrm : st.gcRm with
    | none => rfl
    | some c =>
        -- started once, held by the GC loop, so not removed
        have hcount := hI.count_removed hq c
        have hle := List.nodup_iff_count_le_one.mp hI.once c
        rw [hrm, Option.toList_some, List.count_singleton, beq_self_eq_true, if_pos rfl] at hcount
        have hstarted : c ∈ st.started := List.count_pos_iff.mp (by omega)
        have hremoved := List.count_pos_iff.mpr (hclean.2.2 c hstarted)
        omega
  · intro hrm
    have hempty := hI.sessions_empty hq
    refine ⟨hempty, hI.allowed_empty hempty, fun c hc => ?_⟩
    have hcount := hI.count_removed hq c
    have hpos := List.count_pos_iff.mpr hc
    rw [hrm, Option.toList_none, List.count_nil, Nat.zero_add] at hcount
    exact List.count_pos_iff.mp (by omega)

/-- One launch of `https://example.com/` from call to readiness. -/
def exampleLaunch : List Act :=
  [.launch (lit "a") (lit "https://example.com/") [], .dockerStart (lit "a"),
    .runReturns (lit "a") true]

def quietTest (st : State) : Bool :=
  st.copied == some [] && st.shutdownRm == none && st.gcRm == none
    && st.launches.entries.all fun e => e.2.phase == .returned

theorem quiet_of_quietTest {st : State} (h : quietTest st = true) :
    st.Quiet ∧ st.gcRm = none := by
  simp only [quietTest, Bool.and_eq_true, beq_iff_eq, List.all_eq_true] at h
  obtain ⟨⟨⟨hcopied, hrm⟩, hgc⟩, hall⟩ := h
  exact ⟨⟨⟨hcopied, hrm⟩, fun id l hl => hall ⟨id, l⟩ (AList.mem_lookup_iff.mp hl)⟩, hgc⟩

/-- The launch becomes ready before `Shutdown` copies its id. -/
theorem shutdown_clean_iff_ready :
    ∃ st, TidyRun id (lit "neko") 120 st ∧ st.Quiet ∧ st.started = [containerName (lit "a")]
      ∧ st.Clean := by
  have hrun : (runs (step id (lit "neko") 120) tidyTest (exampleLaunch
      ++ ([.register (lit "a") 0, .ready (lit "a") true, .closeStop, .copy [lit "a"],
        .shutdownReap, .shutdownRm] : List Act)) init).map
      (fun st => (quietTest st, st.started)) = some (true, [containerName (lit "a")]) := by
    decide +kernel
  obtain ⟨st, hst, hview⟩ := Option.map_eq_some_iff.mp hrun
  obtain ⟨htest, hstarted⟩ := Prod.mk.inj hview
  obtain ⟨hquiet, hrm⟩ := quiet_of_quietTest htest
  have hreach : TidyRun id (lit "neko") 120 st := reach_of_runs tidy_of_tidyTest .init hst
  exact ⟨st, hreach, hquiet, hstarted, (shutdown_clean_iff hreach hquiet).mpr hrm⟩

/-- The launch is between `docker run` and `register` when `Shutdown` copies
the ids. It becomes ready, everything returns, and session, allowed host
and container are still there. -/
theorem shutdown_misses_launch :
    ∃ st, Reach (step id (lit "neko") 120) anyStep init st ∧ st.Quiet ∧ st.gcRm = none
      ∧ lit "a" ∈ st.mgr.sessions ∧ lit "example.com" ∈ st.mgr.allowed
      ∧ containerName (lit "a") ∈ st.started ∧ containerName (lit "a") ∉ st.removed := by
  have hrun : (runs (step id (lit "neko") 120) (fun _ _ => true) (exampleLaunch
      ++ ([.closeStop, .copy [], .register (lit "a") 0, .ready (lit "a") true] : List Act))
      init).map (fun st => (quietTest st, decide (lit "a" ∈ st.mgr.sessions),
        decide (lit "example.com" ∈ st.mgr.allowed), st.started == [containerName (lit "a")],
        st.removed == []))
      = some (true, true, true, true, true) := by decide +kernel
  obtain ⟨st, hst, hview⟩ := Option.map_eq_some_iff.mp hrun
  simp only [Prod.mk.injEq, decide_eq_true_eq, beq_iff_eq] at hview
  obtain ⟨htest, hsess, hallowed, hstarted, hremoved⟩ := hview
  obtain ⟨hquiet, hrm⟩ := quiet_of_quietTest htest
  have hreach : Reach (step id (lit "neko") 120) anyStep init st :=
    reach_of_runs (fun _ => trivial) .init hst
  exact ⟨st, hreach, hquiet, hrm, hsess, hallowed, by simp [hstarted], by simp [hremoved]⟩

end Shutdown

end Controller

end RbiProxy
