import RbiProxy.RbiBase

/-!
# Removals and teardowns

Sessions leave the map through the detach of the last viewer, a grace timer
or a GC pass, and each of them owes the container one `rbiTeardown`. The
invariant counts: for a name, the teardowns that are due plus those that
were issued. The count is zero while a session is registered or still being
launched, and one once it was removed.
-/

namespace RbiProxy

namespace Rbi

/-! ## Counting -/

def Event.removes (a : Nat) : Event → Bool
  | remove _ s _ _ _ => s = a
  | _ => false

def Event.tears (name : GoString) : Event → Bool
  | teardown n => n = name
  | _ => false

def removals (st : State) (a : Nat) : Nat := st.log.countP (Event.removes a)

/-- The teardowns of the container `name` that are due or were issued. -/
def teardowns (st : State) (name : GoString) : Nat :=
  st.pending.countP (fun p => p.name = name) + st.log.countP (Event.tears name)

/-- An event of neither kind. -/
def Event.neutral : Event → Bool
  | remove _ _ _ _ _ | teardown _ => false
  | _ => true

theorem Event.removes_of_neutral {e : Event} (h : e.neutral = true) (a : Nat) :
    e.removes a = false := by
  cases e with
  | remove src s name viewers running => cases h
  | _ => rfl

theorem Event.tears_of_neutral {e : Event} (h : e.neutral = true) (name : GoString) :
    e.tears name = false := by
  cases e with
  | teardown n => cases h
  | _ => rfl

theorem countP_neutral {es : List Event} (h : ∀ e ∈ es, e.neutral = true) :
    (∀ a, es.countP (Event.removes a) = 0) ∧ ∀ n, es.countP (Event.tears n) = 0 := by
  refine ⟨fun a => List.countP_eq_zero.mpr ?_, fun n => List.countP_eq_zero.mpr ?_⟩
  · intro e he
    rw [Event.removes_of_neutral (h e he)]
    exact Bool.false_ne_true
  · intro e he
    rw [Event.tears_of_neutral (h e he)]
    exact Bool.false_ne_true

/-! ## The invariant -/

def Named (st : State) (i : Nat) (name : GoString) : Prop :=
  ∃ c : Call, st.calls[i]? = some c ∧ c.name = name ∧ name ≠ []

structure RemovalInv (st : State) : Prop where
  base : Base st
  just : ∀ src a name viewers running, .remove src a name viewers running ∈ st.log →
    viewers = 0 ∨ running = false
  registered : ∀ host s, st.byHost.lookup host = some s →
    removals st s.addr = 0 ∧ teardowns st s.name = 0
  launching : ∀ (i : Nat) (c : Call), st.calls[i]? = some c → c.name ≠ [] → c.pc.rank ≤ 10 →
    removals st i = 0 ∧ teardowns st c.name = 0
  removed : ∀ src a name viewers running, .remove src a name viewers running ∈ st.log →
    removals st a = 1 ∧ teardowns st name = 1 ∧ ∃ host port, Stems st a host name port
  pending : ∀ p ∈ st.pending, ∃ i, Named st i p.name
  issued : ∀ name, .teardown name ∈ st.log → ∃ i, Named st i name

variable {cfg : Config} {st st' : State}

theorem Named.grow {i : Nat} {name : GoString} (h : Named st i name)
    (hg : CallsGrow st st') : Named st' i name := by
  obtain ⟨c, hc, rfl, hne⟩ := h
  obtain ⟨c', hc', hgrow⟩ := hg i c hc
  exact ⟨c', hc', (hgrow.name hne).1, hne⟩

theorem Base.named_inj (h : Base st) {i j : Nat} {name : GoString} (hi : Named st i name)
    (hj : Named st j name) : i = j := by
  obtain ⟨c, hc, rfl, hne⟩ := hi
  obtain ⟨d, hd, hname, -⟩ := hj
  exact h.name_inj hc hd hne hname.symm

theorem Stems.named {a : Nat} {host name : GoString} {port : Nat} (h : Base st)
    (hs : Stems st a host name port) : Named st a name := by
  obtain ⟨c, hc, hres, -, rfl, -⟩ := hs
  exact ⟨c, hc, rfl, (h.wf a c hc).own hres⟩

/-- A session that was registered does not belong to a call that is launching. -/
theorem Stems.ne_of_launching {a i : Nat} {host name : GoString} {port : Nat} {c : Call}
    (h : Base st) (hs : Stems st a host name port) (hc : st.calls[i]? = some c)
    (hr : c.pc.rank ≤ 10) : a ≠ i := by
  rintro rfl
  obtain ⟨d, hd, hres, -⟩ := hs
  obtain rfl := Option.some.inj (hc.symm.trans hd)
  rw [(h.wf a c hc).result_none hr] at hres
  cases hres

namespace RemovalInv

/-- No teardown was ever due for a name no call has. -/
theorem teardowns_eq_zero (h : RemovalInv st) {name : GoString}
    (hno : ∀ i, ¬ Named st i name) : teardowns st name = 0 := by
  have h1 : st.pending.countP (fun p => p.name = name) = 0 := by
    rw [List.countP_eq_zero]
    intro p hp hname
    obtain ⟨i, hi⟩ := h.pending p hp
    simp only [decide_eq_true_eq] at hname
    exact hno i (hname ▸ hi)
  have h2 : st.log.countP (Event.tears name) = 0 := by
    rw [List.countP_eq_zero]
    intro e he htears
    cases e with
    | teardown n =>
        simp only [Event.tears, decide_eq_true_eq] at htears
        obtain ⟨i, hi⟩ := h.issued n he
        exact hno i (htears ▸ hi)
    | _ => cases htears
  rw [teardowns, h1, h2]

theorem removals_eq_zero (h : RemovalInv st) {a : Nat}
    (hno : ∀ host name port, ¬ Stems st a host name port) : removals st a = 0 := by
  rw [removals, List.countP_eq_zero]
  intro e he hrem
  cases e with
  | remove src s name viewers running =>
      simp only [Event.removes, decide_eq_true_eq] at hrem
      subst hrem
      obtain ⟨-, -, host, port, hstems⟩ := h.removed _ _ _ _ _ he
      exact hno host name port hstems
  | _ => cases hrem

end RemovalInv

/-- Every entry of the map was there before or is being registered. -/
def MapKept (st st' : State) : Prop :=
  ∀ host s', st'.byHost.lookup host = some s' →
    (∃ s, st.byHost.lookup host = some s ∧ Same s s') ∨
    ∃ (i : Nat) (c : Call), st.calls[i]? = some c ∧ c.pc = .register ∧ c.s = some s'

/-- Every name was there before or its `docker run` is being issued. -/
def NamesKept (st st' : State) : Prop :=
  ∀ (i : Nat) (c' : Call), st'.calls[i]? = some c' → c'.name ≠ [] →
    (∃ c, st.calls[i]? = some c ∧ c.name = c'.name) ∨
    ∃ c, st.calls[i]? = some c ∧ c.pc = .run

theorem Step.mapKept {a : Act} (h : Step cfg st a st') : MapKept st st' := by
  intro host s' hl
  rcases h.lookup_spec hl with hold | ⟨i, c, -, hc, hpc, hs, -⟩
  · exact .inl hold
  · exact .inr ⟨i, c, hc, hpc, hs⟩

theorem Step.namesKept {a : Act} (h : Step cfg st a st') : NamesKept st st' :=
  fun _ _ hc' hne => h.name_spec hc' hne

namespace RemovalInv

/-- No session was removed and no teardown was ever due for a call that is
about to issue its `docker run`. -/
theorem fresh_counts (h : RemovalInv st) (hb : Base st') (hgrow : CallsGrow st st') {i : Nat}
    {c c' : Call} (hc : st.calls[i]? = some c) (hpc : c.pc = .run)
    (hc' : st'.calls[i]? = some c') (hne : c'.name ≠ []) :
    removals st i = 0 ∧ teardowns st c'.name = 0 := by
  refine ⟨h.removals_eq_zero fun host name port hstems => ?_,
    h.teardowns_eq_zero fun j hj => ?_⟩
  · exact hstems.ne_of_launching h.base hc (by rw [hpc]; decide) rfl
  · -- a call with this name would be `i` itself, which had none
    obtain rfl := hb.named_inj (hj.grow hgrow) ⟨c', hc', rfl, hne⟩
    obtain ⟨d, hd, hname, -⟩ := hj
    obtain rfl := Option.some.inj (hc.symm.trans hd)
    rw [← hname, ((h.base.wf j c hc).unnamed (by rw [hpc]; decide)).1] at hne
    exact hne rfl

/-- A step that neither removes a session nor makes a teardown due. -/
theorem frame (h : RemovalInv st) (hb : Base st') (hgrow : CallsGrow st st')
    (hmap : MapKept st st') (hnames : NamesKept st st')
    (hrem : ∀ a, removals st' a = removals st a)
    (htear : ∀ n, teardowns st' n = teardowns st n)
    (hlog : ∀ src a name viewers running, .remove src a name viewers running ∈ st'.log →
      .remove src a name viewers running ∈ st.log)
    (hpend : ∀ p ∈ st'.pending, p ∈ st.pending)
    (hissued : ∀ name, .teardown name ∈ st'.log →
      .teardown name ∈ st.log ∨ ∃ p ∈ st.pending, p.name = name) : RemovalInv st' where
  base := hb
  just src a name viewers running he := h.just src a name viewers running (hlog _ _ _ _ _ he)
  registered host s hs := by
    rw [hrem, htear]
    rcases hmap host s hs with ⟨s₀, hs₀, haddr, hname, -⟩ | ⟨i, c, hc, hpc, hcs⟩
    · rw [haddr, hname]
      exact h.registered host s₀ hs₀
    · obtain ⟨haddr, hname, -⟩ := (h.base.wf i c hc).session s hcs
      rw [haddr, hname]
      exact h.launching i c hc ((h.base.wf i c hc).named (by rw [hpc]; decide)
        (by rw [hpc]; decide)) (by rw [hpc]; decide)
  launching i c hc hne hr := by
    rw [hrem, htear]
    rcases hnames i c hc hne with ⟨c₀, hc₀, hname⟩ | ⟨c₀, hc₀, hpc⟩
    · obtain ⟨c₁, hc₁, hg⟩ := hgrow i c₀ hc₀
      obtain rfl := Option.some.inj (hc.symm.trans hc₁)
      rw [← hname]
      exact h.launching i c₀ hc₀ (hname ▸ hne) (Nat.le_trans hg.rank hr)
    · exact h.fresh_counts hb hgrow hc₀ hpc hc hne
  removed src a name viewers running he := by
    obtain ⟨h1, h2, host, port, hstems⟩ := h.removed _ _ _ _ _ (hlog _ _ _ _ _ he)
    rw [hrem, htear]
    exact ⟨h1, h2, host, port, hstems.grow h.base.wf hgrow⟩
  pending p hp := by
    obtain ⟨i, hi⟩ := h.pending p (hpend p hp)
    exact ⟨i, hi.grow hgrow⟩
  issued name he := by
    rcases hissued name he with he | ⟨p, hp, rfl⟩
    · obtain ⟨i, hi⟩ := h.issued name he
      exact ⟨i, hi.grow hgrow⟩
    · obtain ⟨i, hi⟩ := h.pending p hp
      exact ⟨i, hi.grow hgrow⟩

/-- A step that changes the log only by neutral events. -/
theorem frame_neutral (h : RemovalInv st) (hb : Base st') (hgrow : CallsGrow st st')
    (hmap : MapKept st st') (hnames : NamesKept st st') (es : List Event)
    (hpend : st'.pending = st.pending) (hlog : st'.log = es ++ st.log)
    (hes : ∀ e ∈ es, e.neutral = true) : RemovalInv st' := by
  obtain ⟨hes₁, hes₂⟩ := countP_neutral hes
  have hold : ∀ e, e.neutral = false → e ∈ st'.log → e ∈ st.log := by
    intro e hne he
    rw [hlog] at he
    rcases List.mem_append.mp he with he | he
    · rw [hes e he] at hne
      cases hne
    · exact he
  refine h.frame hb hgrow hmap hnames ?_ ?_ (fun _ _ _ _ _ => hold _ rfl)
    (fun p hp => hpend ▸ hp) fun _ he => .inl (hold _ rfl he)
  · intro a
    rw [removals, hlog, List.countP_append, hes₁, Nat.zero_add, removals]
  · intro n
    rw [teardowns, hlog, hpend, List.countP_append, hes₂, Nat.zero_add, teardowns]

/-- Sessions that are about to be removed: registered, each once. -/
structure Doomed (st : State) (dead : List RbiSession) : Prop where
  registered : ∀ s ∈ dead, ∃ host s₀, st.byHost.lookup host = some s₀ ∧ Same s₀ s
  once : ∀ a, dead.countP (fun s => s.addr = a) ≤ 1

theorem Doomed.stems {dead : List RbiSession} (hd : Doomed st dead) (h : Base st)
    {s : RbiSession} (hs : s ∈ dead) : ∃ host, Stems st s.addr host s.name s.tcpPort := by
  obtain ⟨host, s₀, hl, haddr, hname, hport⟩ := hd.registered s hs
  rw [haddr, hname, hport]
  exact ⟨host, h.reg host s₀ hl⟩

/-- Among doomed sessions the name decides the session. -/
theorem Doomed.countP_name {dead : List RbiSession} (hd : Doomed st dead) (h : Base st)
    {a : Nat} {name : GoString} (hn : Named st a name) :
    dead.countP (fun s => s.name = name) = dead.countP fun s => s.addr = a := by
  refine List.countP_congr fun s hs => ?_
  obtain ⟨host, hstems⟩ := hd.stems h hs
  have hsn := hstems.named h
  simp only [decide_eq_true_eq]
  constructor
  · rintro rfl
    exact h.named_inj hsn hn
  · rintro rfl
    obtain ⟨c, hc, hname, -⟩ := hsn
    obtain ⟨d, hd', hname', -⟩ := hn
    obtain rfl := Option.some.inj (hc.symm.trans hd')
    exact hname.symm.trans hname'

/-- A step that removes doomed sessions, with one teardown for each. Besides
the removals it logs `es`, which count for nothing. -/
structure RemovesAll (st st' : State) (dead : List RbiSession) (src : Remover)
    (running : RbiSession → Bool) (es : List Event) : Prop where
  calls : st'.calls = st.calls
  doomed : Doomed st dead
  map : ∀ host s', st'.byHost.lookup host = some s' →
    ∃ s, st.byHost.lookup host = some s ∧ Same s s' ∧ ∀ d ∈ dead, d.addr ≠ s.addr
  pending : st'.pending = st.pending ++ dead.map fun s => ⟨src, s.name⟩
  log : st'.log = dead.map (fun s => .remove src s.addr s.name s.viewers (running s))
    ++ (es ++ st.log)
  neutral : ∀ e ∈ es, e.neutral = true
  just : ∀ s ∈ dead, s.viewers = 0 ∨ running s = false

namespace RemovesAll

variable {dead : List RbiSession} {src : Remover} {running : RbiSession → Bool} {es : List Event}

theorem removals_eq (hr : RemovesAll st st' dead src running es) (a : Nat) :
    removals st' a = dead.countP (fun s => s.addr = a) + removals st a := by
  rw [removals, hr.log, List.countP_append, List.countP_append, (countP_neutral hr.neutral).1,
    List.countP_map, Nat.zero_add]
  rfl

theorem teardowns_eq (hr : RemovesAll st st' dead src running es) (n : GoString) :
    teardowns st' n = dead.countP (fun s => s.name = n) + teardowns st n := by
  have hzero : (dead.map fun s => Event.remove src s.addr s.name s.viewers (running s)).countP
      (Event.tears n) = 0 := by
    rw [List.countP_map]
    exact List.countP_eq_zero.mpr fun _ _ => Bool.false_ne_true
  rw [teardowns, hr.log, hr.pending, List.countP_append, List.countP_append, List.countP_append,
    hzero, (countP_neutral hr.neutral).2, List.countP_map, teardowns]
  simp only [Function.comp_def]
  omega

theorem counts_kept (hr : RemovesAll st st' dead src running es) (h : Base st) {a : Nat}
    {name : GoString} (hn : Named st a name) (hne : ∀ s ∈ dead, s.addr ≠ a) :
    removals st' a = removals st a ∧ teardowns st' name = teardowns st name := by
  have hzero : dead.countP (fun s => s.addr = a) = 0 :=
    List.countP_eq_zero.mpr fun s hs => by simpa using hne s hs
  rw [hr.removals_eq, hr.teardowns_eq, hr.doomed.countP_name h hn, hzero, Nat.zero_add,
    Nat.zero_add]
  exact ⟨rfl, rfl⟩

/-- A removal in the log is one of this step or an old one. -/
theorem mem_remove (hr : RemovesAll st st' dead src running es) {src' : Remover} {a viewers : Nat}
    {name : GoString} {running' : Bool}
    (he : .remove src' a name viewers running' ∈ st'.log) :
    (∃ s ∈ dead, s.addr = a ∧ s.name = name ∧ s.viewers = viewers ∧ running s = running') ∨
      .remove src' a name viewers running' ∈ st.log := by
  rw [hr.log] at he
  rcases List.mem_append.mp he with he | he
  · obtain ⟨s, hs, heq⟩ := List.mem_map.mp he
    obtain ⟨-, rfl, rfl, rfl, rfl⟩ := Event.remove.inj heq
    exact .inl ⟨s, hs, rfl, rfl, rfl, rfl⟩
  · rcases List.mem_append.mp he with he | he
    · cases hr.neutral _ he
    · exact .inr he

theorem mem_teardown (hr : RemovesAll st st' dead src running es) {name : GoString}
    (he : .teardown name ∈ st'.log) : .teardown name ∈ st.log := by
  rw [hr.log] at he
  rcases List.mem_append.mp he with he | he
  · obtain ⟨s, -, heq⟩ := List.mem_map.mp he
    cases heq
  · rcases List.mem_append.mp he with he | he
    · cases hr.neutral _ he
    · exact he

/-- A doomed session is removed once and torn down once. -/
theorem counts_doomed (hr : RemovesAll st st' dead src running es) (h : RemovalInv st)
    {s : RbiSession} (hs : s ∈ dead) :
    removals st' s.addr = 1 ∧ teardowns st' s.name = 1 := by
  obtain ⟨host, hstems⟩ := hr.doomed.stems h.base hs
  obtain ⟨host₀, s₀, hl, haddr, hname, -⟩ := hr.doomed.registered s hs
  obtain ⟨h1, h2⟩ := h.registered host₀ s₀ hl
  have hpos : 0 < dead.countP fun x => x.addr = s.addr :=
    List.countP_pos_iff.mpr ⟨s, hs, by simp⟩
  have hone := hr.doomed.once s.addr
  rw [hr.removals_eq, hr.teardowns_eq, hr.doomed.countP_name h.base (hstems.named h.base),
    haddr, hname, h1, h2]
  rw [haddr] at hpos hone
  omega

/-- A session that has been removed before is not doomed. -/
theorem ne_of_removed (hr : RemovesAll st st' dead src running es) (h : RemovalInv st) {a : Nat}
    (hone : removals st a = 1) : ∀ s ∈ dead, s.addr ≠ a := by
  intro s hs heq
  obtain ⟨host₀, s₀, hl, haddr, -⟩ := hr.doomed.registered s hs
  have hzero := (h.registered host₀ s₀ hl).1
  rw [← haddr, heq, hone] at hzero
  cases hzero

end RemovesAll

theorem removeAll {dead : List RbiSession} {src : Remover} {running : RbiSession → Bool}
    {es : List Event} (h : RemovalInv st) (hb : Base st')
    (hr : RemovesAll st st' dead src running es) : RemovalInv st' := by
  have hgrow : CallsGrow st st' := callsGrow_of_eq hr.calls
  refine ⟨hb, ?_, ?_, ?_, ?_, ?_, ?_⟩
  · intro src' a name viewers running' he
    rcases hr.mem_remove he with ⟨s, hs, -, -, rfl, rfl⟩ | he
    · exact hr.just s hs
    · exact h.just _ _ _ _ _ he
  · intro host s' hs'
    obtain ⟨s, hs, ⟨haddr, hname, -⟩, hne⟩ := hr.map host s' hs'
    obtain ⟨h1, h2⟩ := hr.counts_kept h.base ((h.base.reg host s hs).named h.base) hne
    rw [haddr, hname, h1, h2]
    exact h.registered host s hs
  · intro i c hc hne hlaunch
    rw [hr.calls] at hc
    obtain ⟨h1, h2⟩ := hr.counts_kept h.base ⟨c, hc, rfl, hne⟩ fun s hs => by
      obtain ⟨host, hstems⟩ := hr.doomed.stems h.base hs
      exact hstems.ne_of_launching h.base hc hlaunch
    rw [h1, h2]
    exact h.launching i c hc hne hlaunch
  · intro src' a name viewers running' he
    rcases hr.mem_remove he with ⟨s, hs, rfl, rfl, -, -⟩ | he
    · obtain ⟨host, hstems⟩ := hr.doomed.stems h.base hs
      obtain ⟨h1, h2⟩ := hr.counts_doomed h hs
      exact ⟨h1, h2, host, s.tcpPort, hstems.grow h.base.wf hgrow⟩
    · obtain ⟨h1, h2, host, port, hstems⟩ := h.removed _ _ _ _ _ he
      obtain ⟨hk₁, hk₂⟩ := hr.counts_kept h.base (hstems.named h.base) (hr.ne_of_removed h h1)
      rw [hk₁, hk₂]
      exact ⟨h1, h2, host, port, hstems.grow h.base.wf hgrow⟩
  · intro p hp
    rw [hr.pending] at hp
    rcases List.mem_append.mp hp with hp | hp
    · obtain ⟨i, hi⟩ := h.pending p hp
      exact ⟨i, hi.grow hgrow⟩
    · obtain ⟨s, hs, rfl⟩ := List.mem_map.mp hp
      obtain ⟨host, hstems⟩ := hr.doomed.stems h.base hs
      exact ⟨s.addr, (hstems.named h.base).grow hgrow⟩
  · intro name he
    obtain ⟨i, hi⟩ := h.issued name (hr.mem_teardown he)
    exact ⟨i, hi.grow hgrow⟩

theorem doomed_singleton {host : GoString} {s₀ s : RbiSession}
    (hs : st.byHost.lookup host = some s₀) (hsame : Same s₀ s) : Doomed st [s] where
  registered x hx := by
    obtain rfl := List.mem_singleton.mp hx
    exact ⟨host, s₀, hs, hsame⟩
  once a := List.countP_le_length

/-- The entries that are left when one is deleted. -/
theorem lookup_erase_ne (h : Base st) {host : GoString} {s₀ s : RbiSession}
    (hs : st.byHost.lookup host = some s₀) (hsame : Same s₀ s) {host' : GoString}
    {s' : RbiSession} (hl : (st.byHost.erase host).lookup host' = some s') :
    ∃ x, st.byHost.lookup host' = some x ∧ Same x s' ∧ ∀ d ∈ [s], d.addr ≠ x.addr := by
  obtain ⟨hne, hl⟩ := GoMap.of_lookup_erase hl
  refine ⟨s', hl, .refl s', ?_⟩
  intro d hd heq
  obtain rfl := List.mem_singleton.mp hd
  exact hne (h.host_inj hl hs (heq.symm.trans hsame.addr))

theorem step_detach (h : RemovalInv st) {host : GoString} {s : RbiSession} {grace : Nat}
    {handlers : List Handler}
    (hst' : st' = { rbiViewerDetach st host s grace with handlers := handlers })
    (hb : Base st') (hgrow : CallsGrow st st') (hmap : MapKept st st')
    (hnames : NamesKept st st') (hs : st.byHost.lookup host = some s) : RemovalInv st' := by
  by_cases hview : 0 < s.viewers - 1
  · refine h.frame_neutral hb hgrow hmap hnames [.detach s.addr] ?_ ?_
      (by simp [Event.neutral]) <;> simp [hst', rbiViewerDetach, hview]
  by_cases hgrace : grace = 0
  · have hr : RemovesAll st st' [{ s with viewers := s.viewers - 1 }] .detach (fun _ => true)
        [.detach s.addr] := by
      refine ⟨?_, doomed_singleton hs ⟨rfl, rfl, rfl⟩, ?_, ?_, ?_, by simp [Event.neutral],
        by simpa using Nat.eq_zero_of_not_pos hview⟩
      · simp [hst']
      · intro host' s' hl
        rw [hst'] at hl
        simp only [rbiViewerDetach, hview, hgrace, if_true, if_false] at hl
        exact lookup_erase_ne h.base (s := { s with viewers := s.viewers - 1 }) hs
          ⟨rfl, rfl, rfl⟩ hl
      · simp [hst', rbiViewerDetach, hview, hgrace]
      · simp [hst', rbiViewerDetach, hview, hgrace]
    exact h.removeAll hb hr
  · refine h.frame_neutral hb hgrow hmap hnames
      [.arm st.timers.length s.addr, .detach s.addr] ?_ ?_
      (by simp [Event.neutral]) <;> simp [hst', rbiViewerDetach, hview, hgrace]

theorem step_expire (h : RemovalInv st) {i : Nat} {t : Timer} {cur : RbiSession}
    (hb : Base st') (ht : st.timers[i]? = some t)
    (hcur : st.byHost.lookup t.host = some cur) (haddr : cur.addr = t.sess)
    (hview : cur.viewers = 0)
    (hst' : st' = { st with
      byHost := st.byHost.erase t.host
      timers := st.timers.set i { t with phase := .ran }
      pending := st.pending ++ [⟨.timer i, t.name⟩]
      log := .remove (.timer i) t.sess t.name cur.viewers true :: st.log }) :
    RemovalInv st' := by
  have hname : cur.name = t.name := by
    obtain ⟨port, c, hc, -, -, hcn, -⟩ := h.base.timers i t ht
    obtain ⟨d, hd, -, -, hdn, -⟩ := h.base.reg t.host cur hcur
    rw [haddr] at hd
    obtain rfl := Option.some.inj (hc.symm.trans hd)
    exact hdn.symm.trans hcn
  have hr : RemovesAll st st' [cur] (.timer i) (fun _ => true) [] := by
    refine ⟨by rw [hst'], doomed_singleton hcur (.refl cur), ?_, ?_, ?_, by simp,
      by simpa using hview⟩
    · intro host' s' hl
      rw [hst'] at hl
      exact lookup_erase_ne h.base hcur (.refl cur) hl
    · simp [hst', hname]
    · simp [hst', hname, haddr]
  exact h.removeAll hb hr

theorem doomed_gc (h : Base st) (p : RbiSession → Bool) :
    Doomed st ((GoMap.vals st.byHost).filter p) where
  registered s hs := by
    obtain ⟨host, hl⟩ := GoMap.mem_vals.mp (List.mem_filter.mp hs).1
    exact ⟨host, s, hl, .refl s⟩
  once a := by
    refine Nat.le_trans (List.filter_sublist.countP_le) ?_
    rw [GoMap.countP_vals]
    refine GoMap.countVal_le_one fun h₁ h₂ s₁ s₂ hs₁ hs₂ ha₁ ha₂ => ?_
    simp only [decide_eq_true_eq] at ha₁ ha₂
    exact h.host_inj hs₁ hs₂ (ha₁.trans ha₂.symm)

theorem step_gc (h : RemovalInv st) {now ttl : Int} {running : GoString → Bool}
    (hb : Base (gcPass st now ttl running)) : RemovalInv (gcPass st now ttl running) := by
  have hr : RemovesAll st (gcPass st now ttl running)
      ((GoMap.vals st.byHost).filter (reap now ttl running)) .gc (fun s => running s.name) [] := by
    refine ⟨rfl, doomed_gc h.base (reap now ttl running), ?_, rfl, rfl, by simp, ?_⟩
    · intro host s' hl
      obtain ⟨hl, hkeep⟩ := GoMap.lookup_filterVal.mp hl
      refine ⟨s', hl, .refl s', ?_⟩
      intro d hd heq
      obtain ⟨hdm, hdead⟩ := List.mem_filter.mp hd
      obtain ⟨host', hl'⟩ := GoMap.mem_vals.mp hdm
      obtain rfl := h.base.host_inj hl' hl heq
      obtain rfl := Option.some.inj (hl'.symm.trans hl)
      rw [hdead] at hkeep
      cases hkeep
    · intro s hs
      have hdead := (List.mem_filter.mp hs).2
      simp only [reap, Bool.or_eq_true, Bool.not_eq_true', Bool.and_eq_true,
        decide_eq_true_eq] at hdead
      rcases hdead with hdead | ⟨hdead, -⟩
      · exact .inr hdead
      · exact .inl hdead
  exact h.removeAll hb hr

/-- A container that did not get ready was never registered. -/
theorem step_abort (h : RemovalInv st) {i : Nat} {c : Call} (hb : Base st')
    (hgrow : CallsGrow st st') (hc : st.calls[i]? = some c) (hpc : c.pc = .abort)
    (hcalls : st'.calls = st.calls.set i { c with pc := .unlock })
    (hmap : st'.byHost = st.byHost) (hpend : st'.pending = st.pending)
    (hlog : st'.log = .teardown c.name :: st.log) : RemovalInv st' := by
  have hne := (h.base.wf i c hc).named (by rw [hpc]; decide) (by rw [hpc]; decide)
  have hself : Named st i c.name := ⟨c, hc, rfl, hne⟩
  have hrem : ∀ a, removals st' a = removals st a := by
    intro a
    rw [removals, hlog, List.countP_cons]
    rfl
  have htear : ∀ j name, Named st j name → j ≠ i → teardowns st' name = teardowns st name := by
    intro j name hj hji
    have : c.name ≠ name := fun heq => hji (h.base.named_inj hj (heq ▸ hself))
    rw [teardowns, hlog, hpend, List.countP_cons, teardowns]
    simp [Event.tears, this]
  have hold : ∀ {src a name viewers running}, .remove src a name viewers running ∈ st'.log →
      .remove src a name viewers running ∈ st.log := by
    intro src a name viewers running he
    rw [hlog] at he
    rcases List.mem_cons.mp he with he | he
    · cases he
    · exact he
  have hnot : ∀ {a host name port}, Stems st a host name port → a ≠ i := fun hs =>
    hs.ne_of_launching h.base hc (by rw [hpc]; decide)
  refine ⟨hb, fun _ _ _ _ _ he => h.just _ _ _ _ _ (hold he), ?_, ?_, ?_, ?_, ?_⟩
  · intro host s hs
    rw [hmap] at hs
    have hstems := h.base.reg host s hs
    rw [hrem, htear s.addr s.name (hstems.named h.base) (hnot hstems)]
    exact h.registered host s hs
  · intro j d hd hdne hr
    rw [hcalls] at hd
    rcases Indexed.of_set hd with ⟨rfl, rfl⟩ | ⟨hji, hd⟩
    · simp [Pc.rank] at hr
    · rw [hrem, htear j d.name ⟨d, hd, rfl, hdne⟩ hji]
      exact h.launching j d hd hdne hr
  · intro src a name viewers running he
    obtain ⟨h1, h2, host, port, hstems⟩ := h.removed _ _ _ _ _ (hold he)
    rw [hrem, htear a name (hstems.named h.base) (hnot hstems)]
    exact ⟨h1, h2, host, port, hstems.grow h.base.wf hgrow⟩
  · intro p hp
    rw [hpend] at hp
    obtain ⟨j, hj⟩ := h.pending p hp
    exact ⟨j, hj.grow hgrow⟩
  · intro name he
    rw [hlog] at he
    rcases List.mem_cons.mp he with he | he
    · obtain rfl := Event.teardown.inj he
      exact ⟨i, hself.grow hgrow⟩
    · obtain ⟨j, hj⟩ := h.issued name he
      exact ⟨j, hj.grow hgrow⟩

theorem step_teardown (h : RemovalInv st) {p : Teardown} (hb : Base st')
    (hp : p ∈ st.pending) (hcalls : st'.calls = st.calls) (hmap : st'.byHost = st.byHost)
    (hpend : st'.pending = st.pending.erase p) (hlog : st'.log = .teardown p.name :: st.log) :
    RemovalInv st' := by
  refine h.frame hb (callsGrow_of_eq hcalls)
    (fun host s hs => .inl ⟨s, hmap ▸ hs, .refl s⟩)
    (fun i c hc _ => .inl ⟨c, hcalls ▸ hc, rfl⟩) ?_ ?_ ?_
    (fun q hq => List.mem_of_mem_erase (hpend ▸ hq)) ?_
  · intro a
    rw [removals, hlog, List.countP_cons]
    rfl
  · -- one teardown fewer is due, one more was issued
    intro n
    rw [teardowns, hlog, hpend, List.countP_cons, List.countP_erase, teardowns]
    by_cases hn : p.name = n
    · have hpos : 0 < st.pending.countP fun q => q.name = n :=
        List.countP_pos_iff.mpr ⟨p, hp, by simp [hn]⟩
      simp only [hp, hn, Event.tears, decide_true, and_self, if_true]
      omega
    · simp [hn, Event.tears]
  · intro src a name viewers running he
    rw [hlog] at he
    rcases List.mem_cons.mp he with he | he
    · cases he
    · exact he
  · intro name he
    rw [hlog] at he
    rcases List.mem_cons.mp he with he | he
    · obtain rfl := Event.teardown.inj he
      exact .inr ⟨p, hp, rfl⟩
    · exact .inl he

theorem init : RemovalInv init where
  base := .init
  just := by intro _ _ _ _ _ h; simp [Rbi.init] at h
  registered := by intro _ _ h; simp [Rbi.init] at h
  launching := by intro _ _ h; simp [Rbi.init] at h
  removed := by intro _ _ _ _ _ h; simp [Rbi.init] at h
  pending := by intro _ h; simp [Rbi.init] at h
  issued := by intro _ h; simp [Rbi.init] at h

theorem step (h : RemovalInv st) {a : Act} (hs : Step cfg st a st') : RemovalInv st' := by
  have hb := h.base.step hs
  have hgrow := (h.base.calls hs).2
  have hmap := hs.mapKept
  have hnames := hs.namesKept
  cases hs with
  | reuse hc hpc hs =>
      exact h.frame_neutral hb hgrow hmap hnames [_] rfl rfl (by simp [Event.neutral])
  | abort hc hpc => exact h.step_abort hb hgrow hc hpc rfl rfl rfl rfl
  | wsAttach hdest hs hport =>
      exact h.frame_neutral hb hgrow hmap hnames [_] rfl rfl (by simp [Event.neutral])
  | wsDetach hh hlive hatt hport hs => exact h.step_detach rfl hb hgrow hmap hnames hs
  | expire ht hp hcur haddr hview => exact h.step_expire hb ht hcur haddr hview rfl
  | gc => exact h.step_gc hb
  | teardown hp => exact h.step_teardown hb hp rfl rfl rfl rfl
  | _ => exact h.frame_neutral hb hgrow hmap hnames [] rfl rfl (by simp)

end RemovalInv

/-! ## The log is complete -/

/-- The session under `host` is still there, or its removal is in the log and
a teardown of its container is due. -/
def KeptOrLogged (st' : State) (host : GoString) (s : RbiSession) : Prop :=
  (∃ s', st'.byHost.lookup host = some s' ∧ s'.addr = s.addr) ∨
  ∃ src viewers running, .remove src s.addr s.name viewers running ∈ st'.log
    ∧ ⟨src, s.name⟩ ∈ st'.pending

theorem keptOrLogged_insert {host host' : GoString} {s x : RbiSession} (x' : RbiSession)
    (hl : st.byHost.lookup host = some s) (hx : st.byHost.lookup host' = some x)
    (hmap : st'.byHost = st.byHost.insert host' x') (haddr : x'.addr = x.addr) :
    KeptOrLogged st' host s := by
  by_cases hne : host = host'
  · subst hne
    obtain rfl := Option.some.inj (hl.symm.trans hx)
    exact .inl ⟨x', by rw [hmap, AList.lookup_insert], haddr⟩
  · exact .inl ⟨s, by rw [hmap, AList.lookup_insert_ne hne]; exact hl, rfl⟩

theorem keptOrLogged_erase {host : GoString} {s : RbiSession} (host' : GoString)
    (src : Remover) (a viewers : Nat) (name : GoString) (running : Bool)
    (hl : st.byHost.lookup host = some s) (hmap : st'.byHost = st.byHost.erase host')
    (hlog : .remove src a name viewers running ∈ st'.log) (hpend : ⟨src, name⟩ ∈ st'.pending)
    (hs : host = host' → s.addr = a ∧ s.name = name) : KeptOrLogged st' host s := by
  by_cases hne : host = host'
  · obtain ⟨rfl, rfl⟩ := hs hne
    exact .inr ⟨src, viewers, running, hlog, hpend⟩
  · exact .inl ⟨s, by rw [hmap, AList.lookup_erase_ne hne]; exact hl, rfl⟩

theorem keptOrLogged_detach {host host' : GoString} {s x : RbiSession} {grace : Nat}
    (hl : st.byHost.lookup host = some s) (hx : st.byHost.lookup host' = some x) :
    KeptOrLogged (rbiViewerDetach st host' x grace) host s := by
  by_cases hview : 0 < x.viewers - 1
  · refine keptOrLogged_insert { x with viewers := x.viewers - 1 } hl hx ?_ rfl
    simp [rbiViewerDetach, hview]
  by_cases hgrace : grace = 0
  · refine keptOrLogged_erase host' .detach x.addr (x.viewers - 1) x.name true hl ?_ ?_ ?_ ?_
    · simp [rbiViewerDetach, hview, hgrace]
    · simp [rbiViewerDetach, hview, hgrace]
    · simp [rbiViewerDetach, hview, hgrace]
    · rintro rfl
      obtain rfl := Option.some.inj (hl.symm.trans hx)
      exact ⟨rfl, rfl⟩
  · refine keptOrLogged_insert { x with
      viewers := x.viewers - 1, teardownTimer := some st.timers.length } hl hx ?_ rfl
    simp [rbiViewerDetach, hview, hgrace]

/-- Apart from a registration, which replaces the session of its host, a step
that takes a session out of the map says so in the log. -/
theorem Step.keptOrLogged {a : Act} (h : Step cfg st a st') (hb : Base st) {host : GoString}
    {s : RbiSession} (hl : st.byHost.lookup host = some s) :
    (∃ i, a = .register i) ∨ KeptOrLogged st' host s := by
  cases h with
  | reuse hc hpc hs => exact .inr (keptOrLogged_insert _ hl hs rfl rfl)
  | register hc hpc hs => exact .inl ⟨_, rfl⟩
  | wsAttach hdest hs hport => exact .inr (keptOrLogged_insert _ hl hs rfl rfl)
  | wsDetach hh hlive hatt hport hs => exact .inr (keptOrLogged_detach hl hs)
  | expire ht hp hcur haddr hview =>
      refine .inr (keptOrLogged_erase _ _ _ _ _ _ hl rfl (List.mem_cons_self ..) (by simp) ?_)
      rintro rfl
      obtain rfl := Option.some.inj (hl.symm.trans hcur)
      obtain ⟨port, c, hc, -, -, hname, -⟩ := hb.timers _ _ ht
      obtain ⟨d, hd, -, -, hname', -⟩ := hb.reg _ s hl
      rw [haddr] at hd
      obtain rfl := Option.some.inj (hc.symm.trans hd)
      exact ⟨haddr, hname'.symm.trans hname⟩
  | gc =>
      rename_i now ttl running
      refine .inr ?_
      by_cases hdead : reap now ttl running s = true
      · have hmem := List.mem_filter.mpr ⟨GoMap.mem_vals.mpr ⟨host, hl⟩, hdead⟩
        exact .inr ⟨.gc, s.viewers, running s.name,
          List.mem_append_left _ (List.mem_map.mpr ⟨s, hmem, rfl⟩),
          List.mem_append_right _ (List.mem_map.mpr ⟨s, hmem, rfl⟩)⟩
      · exact .inl ⟨s, GoMap.lookup_filterVal.mpr ⟨hl, by simpa using hdead⟩, rfl⟩
  | _ => exact .inr (.inl ⟨s, hl, rfl⟩)

/-! ## The result -/

/-- In every reachable state: a session left the map through a detach, a timer
or a GC pass only with no viewers or with its container reported dead; it
did so once, and exactly one `rbiTeardown` of its container is due or was
issued; none ever was for a session that is still registered. And no
session leaves the map without being logged, other than by being replaced. -/
theorem removal_safe (h : Reach (Rbi.step cfg) anyStep init st) :
    (∀ src a name viewers running, .remove src a name viewers running ∈ st.log →
      (viewers = 0 ∨ running = false) ∧ removals st a = 1 ∧ teardowns st name = 1) ∧
    (∀ host s, st.byHost.lookup host = some s → teardowns st s.name = 0) ∧
    (∀ a st' host s, Rbi.step cfg st a = some st' → st.byHost.lookup host = some s →
      (∃ i, a = .register i) ∨ KeptOrLogged st' host s) := by
  have hinv : RemovalInv st := h.invariant .init fun hi _ hs => hi.step (step_cases hs)
  refine ⟨fun src a name viewers running he => ?_, fun host s hs => (hinv.registered host s hs).2,
    fun a st' host s hs hl => (step_cases hs).keptOrLogged hinv.base hl⟩
  obtain ⟨h1, h2, -⟩ := hinv.removed _ _ _ _ _ he
  exact ⟨hinv.just _ _ _ _ _ he, h1, h2⟩

/-- Two sessions: a viewer leaves the first, which goes at once, and a GC pass
reaps the second, whose container has died. -/
theorem removal_safe_twoSessions : ∃ st, Reach (Rbi.step exampleConfig) anyStep init st
    ∧ st.log.countP (Event.removes 0) = 1 ∧ st.log.countP (Event.removes 1) = 1
    ∧ teardowns st (lit "rbi-sess-1-7") = 1 ∧ teardowns st (lit "rbi-sess-2-7") = 1 := by
  have hrun : (runs (Rbi.step exampleConfig) (fun _ _ => true)
      (launchActs 0 1 2 3 ++ readyActs 0 ++
        ([.wsOpen (.session 0) (some exampleHost) 0, .wsClose 0 (some exampleHost) 0,
          .teardown ⟨.detach, lit "rbi-sess-1-7"⟩ true] : List Act) ++
        launchActs 1 1 2 3 ++ readyActs 1 ++
        ([.crash (lit "rbi-sess-2-7"), .gc 30 600 fun _ => false] : List Act)) init).map
          (fun st => st.log)
      = some [.remove .gc 1 (lit "rbi-sess-2-7") 0 false, .teardown (lit "rbi-sess-1-7"),
          .remove .detach 0 (lit "rbi-sess-1-7") 0 true, .detach 0, .attach 0] := by
    decide +kernel
  obtain ⟨st, hst, hlog⟩ := Option.map_eq_some_iff.mp hrun
  have hreach : Reach (Rbi.step exampleConfig) anyStep init st :=
    reach_of_runs (fun _ => trivial) .init hst
  obtain ⟨hrem, -, -⟩ := removal_safe hreach
  obtain ⟨-, h0, ht0⟩ := hrem .detach 0 (lit "rbi-sess-1-7") 0 true (by rw [hlog]; simp)
  obtain ⟨-, h1, ht1⟩ := hrem .gc 1 (lit "rbi-sess-2-7") 0 false (by rw [hlog]; simp)
  exact ⟨st, hreach, h0, h1, ht0, ht1⟩

end Rbi

end RbiProxy
