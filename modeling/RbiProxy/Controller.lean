import RbiProxy.GoMap
import RbiProxy.GoString
import RbiProxy.Reach

/-!
# The session controller and its egress allowlist

`controller/session.go`: the `Manager` keeps the registered sessions by id
and, in a second map, how many of them allow each host. The `:3129`
listener asks `IsEgressAllowed`, which only looks at the second map, so
the two have to stay in step while `Launch`, `Teardown`, the GC loop and
`Shutdown` change them from different goroutines.

Every critical section of `m.mu` is one action of the step system `step`.
The GC loop and `Shutdown` first copy ids under the lock and then call
`Teardown` once per id; the ids still to be torn down are part of the
state, so that between the copy and the call anything may happen. A
`range` over `sessions` visits the ids in any order, which is why both
copies are inputs of their actions, constrained up to permutation.

`Consistent` is the invariant: the counts are exact and positive.
`egressAllowed_iff` reads the listener's answer off it, in terms of domain
labels instead of string suffixes.
-/

namespace RbiProxy

namespace Controller

structure Session where
  id : GoString
  container : GoString
  url : GoString
  allowedHost : GoString
  endpoint : GoString
  browser : GoString
  created : Int
  lastActive : Int
deriving DecidableEq

/-- The two maps that `Manager.mu` guards. -/
structure Manager where
  sessions : GoMap GoString Session
  allowed : GoMap GoString Int

def Manager.register (m : Manager) (s : Session) : Manager :=
  { sessions := m.sessions.insert s.id s
    allowed := m.allowed.insert s.allowedHost (GoMap.get m.allowed s.allowedHost 0 + 1) }

/-- The decrement inside `Teardown`: guarded by a positive count, and the
key goes when the count reaches zero. -/
def dropHost (allowed : GoMap GoString Int) (h : GoString) : GoMap GoString Int :=
  if h ≠ [] ∧ 0 < GoMap.get allowed h 0 then
    if GoMap.get allowed h 0 - 1 ≤ 0 then allowed.erase h
    else allowed.insert h (GoMap.get allowed h 0 - 1)
  else allowed

/-- The critical section of `Manager.Teardown`, with the container that the
call goes on to `docker rm`, if it found the session. -/
def Manager.teardown (m : Manager) (id : GoString) : Manager × Option GoString :=
  match m.sessions.lookup id with
  | some sess =>
      ({ sessions := m.sessions.erase id
         allowed := dropHost m.allowed sess.allowedHost }, some sess.container)
  | none => (m, none)

def Manager.touch (m : Manager) (id : GoString) (now : Int) : Manager :=
  match m.sessions.lookup id with
  | some sess => { m with sessions := m.sessions.insert id { sess with lastActive := now } }
  | none => m

/-- The ids that a GC tick at `now` finds idle. -/
def Manager.idleIds (m : Manager) (idleTimeout now : Int) : List GoString :=
  (m.sessions.entries.filter fun e => decide (idleTimeout < now - e.2.lastActive)).map (·.1)

/-- How `IsEgressAllowed` normalizes its argument: one trailing dot off,
lower case, cut at the last colon. -/
def egressHost (table : Rune → Rune) (host : GoString) : GoString :=
  cutLast (toLower table (trimSuffix host (lit "."))) (UInt8.ofNat 0x3A)

def Manager.isEgressAllowed (table : Rune → Rune) (m : Manager) (host : GoString) : Bool :=
  m.allowed.keys.any fun a =>
    egressHost table host == a || hasSuffix (egressHost table host) (lit "." ++ a)

/-! ## The step system -/

/-- The manager with its goroutines: the ids that the GC loop and
`Shutdown` have copied and not torn down yet. `ids` is ghost: every id that
was ever registered. -/
structure State where
  mgr : Manager
  gcDead : List GoString
  closing : List GoString
  stopped : Bool
  ids : List GoString

/-- One critical section. -/
inductive Act where
  /-- `Launch` registers the session it has started. -/
  | register (s : Session)
  /-- Any caller of `Teardown`. -/
  | teardown (id : GoString)
  | touch (id : GoString) (now : Int)
  /-- A GC tick copies the idle ids. -/
  | gcTick (now : Int) (dead : List GoString)
  /-- The GC loop tears the next copied id down. -/
  | gcReap
  /-- `Shutdown` closes `stop` and copies all ids. -/
  | shutdown (all : List GoString)
  /-- `Shutdown` tears the next copied id down. -/
  | shutdownReap

def State.withMgr (st : State) (m : Manager) : State := { st with mgr := m }

def init : State :=
  { mgr := ⟨∅, ∅⟩, gcDead := [], closing := [], stopped := false, ids := [] }

/-- The effect of an enabled action. -/
def step (idleTimeout : Int) (st : State) : Act → Option State
  | .register s =>
      -- session ids are random and pairwise distinct; `Launch` rejects an empty host
      if s.id ∈ st.ids ∨ s.allowedHost = [] then none
      else some { st with mgr := st.mgr.register s, ids := s.id :: st.ids }
  | .teardown id => some (st.withMgr (st.mgr.teardown id).1)
  | .touch id now => some (st.withMgr (st.mgr.touch id now))
  | .gcTick now dead =>
      if st.gcDead = [] ∧ dead.isPerm (st.mgr.idleIds idleTimeout now) then
        some { st with gcDead := dead }
      else none
  | .gcReap => match st.gcDead with
      | id :: rest => some { st.withMgr (st.mgr.teardown id).1 with gcDead := rest }
      | [] => none
  | .shutdown all =>
      if st.stopped = false ∧ all.isPerm st.mgr.sessions.keys then
        some { st with stopped := true, closing := all }
      else none
  | .shutdownReap => match st.closing with
      | id :: rest => some { st.withMgr (st.mgr.teardown id).1 with closing := rest }
      | [] => none

/-! ## The counts are exact -/

/-- `sessions` only holds registered ids, each under its own; `allowed`
counts the sessions of each host, and has no other keys. -/
structure Consistent (m : Manager) : Prop where
  count : ∀ h, GoMap.get m.allowed h 0 = (GoMap.countVal m.sessions fun s => s.allowedHost == h)
  pos : ∀ h n, m.allowed.lookup h = some n → 0 < n
  host : ∀ id s, m.sessions.lookup id = some s → s.allowedHost ≠ []

theorem consistent_init : Consistent init.mgr where
  count h := by simp [init]
  pos h n hn := by simp [init] at hn
  host id s hs := by simp [init] at hs

theorem Consistent.register {m : Manager} (hm : Consistent m) {s : Session}
    (hid : s.id ∉ m.sessions) (hhost : s.allowedHost ≠ []) : Consistent (m.register s) where
  count h := by
    have hc := GoMap.countVal_insert_of_notMem hid s fun s' => s'.allowedHost == h
    simp only [Manager.register]
    rw [hc]
    by_cases hh : h = s.allowedHost
    · subst hh
      rw [GoMap.get_insert, hm.count]
      simp
    · rw [GoMap.get_insert_ne hh, hm.count]
      simp [Ne.symm hh]
  pos h n hn := by
    simp only [Manager.register] at hn
    by_cases hh : h = s.allowedHost
    · subst hh
      rw [AList.lookup_insert, Option.some.injEq, hm.count] at hn
      omega
    · rw [AList.lookup_insert_ne hh] at hn
      exact hm.pos h n hn
  host id s' hs' := by
    simp only [Manager.register] at hs'
    by_cases hh : id = s.id
    · subst hh
      rw [AList.lookup_insert, Option.some.injEq] at hs'
      exact hs' ▸ hhost
    · rw [AList.lookup_insert_ne hh] at hs'
      exact hm.host id s' hs'

theorem get_dropHost {allowed : GoMap GoString Int} {a : GoString} (ha : a ≠ [])
    (hpos : 0 < GoMap.get allowed a 0) (h : GoString) :
    GoMap.get (dropHost allowed a) h 0
      = GoMap.get allowed h 0 - if a == h then 1 else 0 := by
  unfold dropHost
  rw [if_pos ⟨ha, hpos⟩]
  by_cases hh : a = h
  · subst hh
    split
    · rw [GoMap.get_erase, beq_self_eq_true, if_pos rfl]
      omega
    · rw [GoMap.get_insert, beq_self_eq_true, if_pos rfl]
  · have hne : h ≠ a := Ne.symm hh
    simp only [beq_iff_eq, hh, if_false, Int.sub_zero]
    split
    · exact GoMap.get_erase_ne hne 0
    · exact GoMap.get_insert_ne hne _ 0

theorem pos_dropHost {allowed : GoMap GoString Int} {a : GoString}
    (hpos : ∀ h n, allowed.lookup h = some n → 0 < n) :
    ∀ h n, (dropHost allowed a).lookup h = some n → 0 < n := by
  intro h n hn
  unfold dropHost at hn
  split at hn
  · split at hn
    · by_cases hh : h = a
      · subst hh; rw [AList.lookup_erase] at hn; cases hn
      · rw [AList.lookup_erase_ne hh] at hn; exact hpos h n hn
    · by_cases hh : h = a
      · subst hh
        rw [AList.lookup_insert, Option.some.injEq] at hn
        omega
      · rw [AList.lookup_insert_ne hh] at hn; exact hpos h n hn
  · exact hpos h n hn

theorem Consistent.teardown {m : Manager} (hm : Consistent m) (id : GoString) :
    Consistent (m.teardown id).1 := by
  unfold Manager.teardown
  cases hl : m.sessions.lookup id with
  | none => exact hm
  | some sess =>
      have hcount := GoMap.countVal_erase hl
      have hhost := hm.host id sess hl
      have hpos : 0 < GoMap.get m.allowed sess.allowedHost 0 := by
        rw [hm.count, hcount]
        simp only [beq_self_eq_true, if_true]
        omega
      refine ⟨fun h => ?_, pos_dropHost hm.pos, fun id' s' hs' => ?_⟩
      · rw [get_dropHost hhost hpos h, hm.count, hcount]
        push_cast
        split <;> simp
      · by_cases hid : id' = id
        · subst hid; rw [AList.lookup_erase] at hs'; cases hs'
        · rw [AList.lookup_erase_ne hid] at hs'; exact hm.host id' s' hs'

theorem Consistent.touch {m : Manager} (hm : Consistent m) (id : GoString) (now : Int) :
    Consistent (m.touch id now) := by
  unfold Manager.touch
  cases hl : m.sessions.lookup id with
  | none => exact hm
  | some sess =>
      refine ⟨fun h => ?_, hm.pos, fun id' s' hs' => ?_⟩
      · have hc := GoMap.countVal_insert_of_lookup { sess with lastActive := now } hl
          (fun s => s.allowedHost == h) rfl
        exact (hm.count h).trans (by rw [← hc])
      · by_cases hid : id' = id
        · subst hid
          rw [AList.lookup_insert, Option.some.injEq] at hs'
          exact hs' ▸ hm.host id' sess hl
        · rw [AList.lookup_insert_ne hid] at hs'; exact hm.host id' s' hs'

/-! ## Over whole runs -/

/-- The invariant of a run: consistent maps, and no id registered now that
was not registered at some point. -/
structure Inv (st : State) : Prop where
  consistent : Consistent st.mgr
  ids : ∀ id ∈ st.mgr.sessions, id ∈ st.ids

theorem mem_teardown {m : Manager} {id id' : GoString}
    (h : id' ∈ (m.teardown id).1.sessions) : id' ∈ m.sessions := by
  unfold Manager.teardown at h
  split at h
  · exact (AList.mem_erase.mp h).2
  · exact h

theorem mem_touch {m : Manager} {id id' : GoString} {now : Int}
    (h : id' ∈ (m.touch id now).sessions) : id' ∈ m.sessions := by
  unfold Manager.touch at h
  split at h
  case h_1 sess hl =>
    rcases (AList.mem_insert _).mp h with rfl | h'
    · exact AList.lookup_isSome.mp (by rw [hl]; rfl)
    · exact h'
  case h_2 => exact h

theorem Inv.teardown {st : State} (hI : Inv st) (id : GoString) :
    Inv (st.withMgr (st.mgr.teardown id).1) :=
  ⟨hI.consistent.teardown id, fun id' h => hI.ids id' (mem_teardown h)⟩

theorem step_inv {idleTimeout : Int} {st st' : State} {a : Act} (hI : Inv st)
    (h : step idleTimeout st a = some st') : Inv st' := by
  cases a with
  | register s =>
      simp only [step] at h
      split at h
      · cases h
      · rename_i hcond
        obtain rfl := Option.some.inj h
        rw [not_or] at hcond
        refine ⟨hI.consistent.register (fun hm => hcond.1 (hI.ids _ hm)) hcond.2, ?_⟩
        intro id hid
        rcases (AList.mem_insert _).mp hid with rfl | hid'
        · exact List.mem_cons_self
        · exact List.mem_cons_of_mem _ (hI.ids id hid')
  | teardown id =>
      obtain rfl := Option.some.inj h
      exact hI.teardown id
  | touch id now =>
      obtain rfl := Option.some.inj h
      exact ⟨hI.consistent.touch id now, fun id' h' => hI.ids id' (mem_touch h')⟩
  | gcTick now dead =>
      simp only [step] at h
      split at h
      · obtain rfl := Option.some.inj h
        exact ⟨hI.consistent, hI.ids⟩
      · cases h
  | gcReap =>
      simp only [step] at h
      split at h
      · obtain rfl := Option.some.inj h
        exact ⟨(hI.teardown _).consistent, (hI.teardown _).ids⟩
      · cases h
  | shutdown all =>
      simp only [step] at h
      split at h
      · obtain rfl := Option.some.inj h
        exact ⟨hI.consistent, hI.ids⟩
      · cases h
  | shutdownReap =>
      simp only [step] at h
      split at h
      · obtain rfl := Option.some.inj h
        exact ⟨(hI.teardown _).consistent, (hI.teardown _).ids⟩
      · cases h

theorem reach_inv {idleTimeout : Int} {st : State}
    (h : Reach (step idleTimeout) anyStep init st) : Inv st :=
  h.invariant ⟨consistent_init, fun id hid => by simp [init] at hid⟩
    fun hI _ hs => step_inv hI hs

/-! ## What the listener answers -/

/-- The label sequence of a host name. -/
def labels (h : GoString) : List GoString := h.splitOn 0x2E

theorem labels_suffix_iff {a h : GoString} :
    (h == a || hasSuffix h (lit "." ++ a)) = true ↔ labels a <:+ labels h := by
  rw [Bool.or_eq_true, beq_iff_eq, hasSuffix_iff, labels, labels, splitOn_suffix_iff]
  rfl

/-- With exact counts, a host is a key of `allowed` exactly when some
registered session allows it. -/
theorem Consistent.mem_allowed {m : Manager} (hm : Consistent m) {a : GoString} :
    a ∈ m.allowed.keys ↔ ∃ id s, m.sessions.lookup id = some s ∧ s.allowedHost = a := by
  have hkey : a ∈ m.allowed.keys ↔ 0 < GoMap.get m.allowed a 0 := by
    rw [← AList.mem_keys, ← AList.lookup_isSome, GoMap.get]
    cases hl : m.allowed.lookup a with
    | none => simp
    | some n => simpa using hm.pos a n hl
  rw [hkey, hm.count]
  have hpos := GoMap.countVal_pos_iff (m := m.sessions) (p := fun s => s.allowedHost == a)
  simpa using hpos

theorem Consistent.egressAllowed_iff {m : Manager} (hm : Consistent m)
    (table : Rune → Rune) (q : GoString) :
    m.isEgressAllowed table q = true ↔
      ∃ id s, m.sessions.lookup id = some s
        ∧ labels s.allowedHost <:+ labels (egressHost table q) := by
  unfold Manager.isEgressAllowed
  rw [List.any_eq_true]
  constructor
  · rintro ⟨a, ha, htest⟩
    obtain ⟨id, s, hs, rfl⟩ := hm.mem_allowed.mp ha
    exact ⟨id, s, hs, labels_suffix_iff.mp htest⟩
  · rintro ⟨id, s, hs, hsuf⟩
    exact ⟨s.allowedHost, hm.mem_allowed.mpr ⟨id, s, hs, rfl⟩, labels_suffix_iff.mpr hsuf⟩

/-- **The egress allowlist is exact.** In every state that any interleaving
of registrations, teardowns, touches, GC ticks and a shutdown reaches, the
counts are the numbers of registered sessions, none of them is zero or
negative, and the listener lets exactly the hosts of registered sessions
and their subdomains through. -/
theorem egressAllowlist_exact (idleTimeout : Int) {st : State}
    (h : Reach (step idleTimeout) anyStep init st) :
    (∀ a, GoMap.get st.mgr.allowed a 0
        = (GoMap.countVal st.mgr.sessions fun s => s.allowedHost == a))
      ∧ (∀ a n, st.mgr.allowed.lookup a = some n → ¬ n ≤ 0)
      ∧ ∀ (table : Rune → Rune) (q : GoString),
          st.mgr.isEgressAllowed table q = true ↔
            ∃ id s, st.mgr.sessions.lookup id = some s
              ∧ labels s.allowedHost <:+ labels (egressHost table q) := by
  have hc := (reach_inv h).consistent
  refine ⟨hc.count, fun a n hn => ?_, hc.egressAllowed_iff⟩
  have := hc.pos a n hn
  omega

def exampleSession : Session :=
  { id := lit "a", container := lit "rbi-a", url := lit "https://example.com/"
    allowedHost := lit "example.com", endpoint := lit "rbi-a:8080", browser := []
    created := 0, lastActive := 0 }

def oneSession : State :=
  { init with mgr := init.mgr.register exampleSession, ids := [exampleSession.id] }

def otherSession : Session :=
  { exampleSession with id := lit "b", container := lit "rbi-b", endpoint := lit "rbi-b:8080" }

/-- A second session of the same host is registered, and the first is torn down. -/
def tornDown : State :=
  { init with
    mgr := ((oneSession.mgr.register otherSession).teardown exampleSession.id).1
    ids := [otherSession.id, exampleSession.id] }

/-- The other session still counts, and lets its host through. -/
theorem egressAllowlist_exact_tornDown :
    Reach (step 120) anyStep init tornDown
      ∧ GoMap.get tornDown.mgr.allowed (lit "example.com") 0 = 1
      ∧ tornDown.mgr.isEgressAllowed id (lit "WWW.Example.com:443") = true
      ∧ ∃ i s, tornDown.mgr.sessions.lookup i = some s
          ∧ labels s.allowedHost <:+ labels (egressHost id (lit "WWW.Example.com:443")) := by
  have hr : Reach (step 120) anyStep init tornDown :=
    .next (a := .teardown exampleSession.id) (.next (a := .register otherSession)
      (.next (a := .register exampleSession) .init trivial rfl) trivial rfl) trivial rfl
  obtain ⟨hcount, -, hallowed⟩ := egressAllowlist_exact 120 hr
  have hyes : tornDown.mgr.isEgressAllowed id (lit "WWW.Example.com:443") = true := by
    decide +kernel
  refine ⟨hr, (hcount _).trans ?_, hyes, (hallowed id _).mp hyes⟩
  decide +kernel

end Controller

end RbiProxy
