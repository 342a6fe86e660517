import RbiProxy.RbiLaunch
import RbiProxy.RbiRemoval

/-!
# Orphaned containers

A running container is accounted for if its session is registered, its
launch is still in progress, or a `docker rm` of it is due. Three answers of
docker break this: `docker run` reports an error for a container it has
started, in which case the launch returns without a teardown
(`not_noOrphan`); `docker inspect` fails on a running container in the
first check of a launch, whose registration then replaces the entry; and
`docker rm` fails. Without them (`OrphanOk`) no container is orphaned
(`no_orphan`).
-/

namespace RbiProxy

namespace Rbi

variable {cfg : Config} {st st' : State}

/-! ## The property -/

def Registered (st : State) (k : Container) : Prop :=
  ∃ host s, st.byHost.lookup host = some s ∧ s.addr = k.owner ∧ s.name = k.name

/-- The launch that started the container has not returned. -/
def InProgress (st : State) (k : Container) : Prop :=
  ∃ c : Call, st.calls[k.owner]? = some c ∧ c.pc ≠ .done

def RmPending (st : State) (k : Container) : Prop := ∃ p ∈ st.pending, p.name = k.name

/-- Every running container is accounted for. -/
def NoOrphan (st : State) : Prop :=
  ∀ k ∈ st.containers, Registered st k ∨ InProgress st k ∨ RmPending st k

/-- Docker does not lose track: a running container is not reported as not
running to a launch, `docker run` does not report an error for a container
that runs, and `docker rm` removes what runs. -/
def OrphanOk (st : State) : Act → Prop
  | .check i running now => CheckTrue st (.check i running now)
  | .runReturns i ok _ => ok = false → ∀ c : Call, st.calls[i]? = some c → ¬ Running st c.name
  | .abort i ok => ok = false → ∀ c : Call, st.calls[i]? = some c → ¬ Running st c.name
  | .teardown p ok => ok = false → ¬ Running st p.name
  | _ => True

theorem checkTrue_of_orphanOk {a : Act} (h : OrphanOk st a) : CheckTrue st a := by
  cases a with
  | check i running now => exact h
  | _ => exact True.intro

/-! ## The invariant -/

/-- The owner of a running container is launching, or has registered a
session that is registered still or due for removal. -/
structure OrphanInv (st : State) : Prop where
  launch : LaunchInv st
  owned : ∀ k ∈ st.containers, ∃ c : Call, st.calls[k.owner]? = some c ∧ c.name = k.name ∧
    ((7 ≤ c.pc.rank ∧ c.pc.rank ≤ 10) ∨ Registered st k ∨ RmPending st k)

/-- A due teardown stays due until it is carried out. -/
theorem Step.pending_mono {a : Act} (h : Step cfg st a st') {p : Teardown}
    (hp : p ∈ st.pending) : p ∈ st'.pending ∨ ∃ q ok, a = .teardown q ok ∧ q = p := by
  cases h with
  | wsDetach _ _ _ _ _ =>
      refine .inl ?_
      simp only [rbiViewerDetach]
      split
      · exact hp
      · split
        · exact List.mem_append_left _ hp
        · exact hp
  | expire _ _ _ _ _ => exact .inl (List.mem_append_left _ hp)
  | gc => exact .inl (List.mem_append_left _ hp)
  | teardown _ =>
      rename_i q ok _
      by_cases hpq : q = p
      · exact .inr ⟨q, ok, rfl, hpq⟩
      · exact .inl ((List.mem_erase_of_ne (Ne.symm hpq)).mpr hp)
  | _ => exact .inl hp

namespace OrphanInv

theorem init : OrphanInv init where
  launch := .init
  owned := by intro k h; simp [Rbi.init] at h

/-- What a teardown or an abort removes is gone. -/
theorem not_mem_of_rm {ks : List Container} {ok : Bool} {name : GoString} {k : Container}
    (hk : k ∈ if ok then rmContainer ks name else ks)
    (hrun : ok = false → ∀ k' ∈ ks, k'.name ≠ name) :
    k.name ≠ name := by
  cases ok with
  | true => exact (mem_rmContainer.mp hk).2
  | false => exact hrun rfl k hk

/-- A launching owner keeps launching, registers, or has no container left. -/
theorem step_launching (h : OrphanInv st) {a : Act} (hok : OrphanOk st a)
    (hs : Step cfg st a st') {k : Container} (hk : k ∈ st.containers) (hk' : k ∈ st'.containers)
    {c c' : Call} (hc : st.calls[k.owner]? = some c) (hc' : st'.calls[k.owner]? = some c')
    (hg : Grows c c') (hname : c.name = k.name) (hlo : 7 ≤ c.pc.rank) (hhi : c.pc.rank ≤ 10) :
    (7 ≤ c'.pc.rank ∧ c'.pc.rank ≤ 10) ∨ Registered st' k := by
  rcases hs.call_spec hc' with ⟨rawURL, rfl⟩ | ⟨hold, -⟩ | ⟨d, hd, hm⟩
  · have hzero : c.pc.rank ≤ Pc.enter.rank := hg.rank
    rw [show Pc.enter.rank = 0 from rfl] at hzero
    omega
  · obtain rfl := Option.some.inj (hc.symm.trans hold)
    exact .inl ⟨hlo, hhi⟩
  · obtain rfl := Option.some.inj (hc.symm.trans hd)
    cases hm with
    | runErr hpc => exact absurd ⟨k, hk, hname.symm⟩ (hok rfl c hc)
    | abort hpc =>
        cases hs with
        | abort hc₂ _ =>
            obtain rfl := Option.some.inj (hc.symm.trans hc₂)
            refine absurd hname.symm (not_mem_of_rm hk' fun hf k' hmem heq => ?_)
            exact hok hf c hc ⟨k', hmem, heq⟩
    | register hpc hs' =>
        cases hs with
        | register hc₂ _ hs₂ =>
            obtain rfl := Option.some.inj (hc.symm.trans hc₂)
            obtain ⟨haddr, hn, -⟩ := (h.launch.base.wf _ c hc).session _ hs₂
            exact .inr ⟨c.host, _, AList.lookup_insert _, haddr, hn.trans hname⟩
    | start hpc => exact .inl ⟨hlo, hhi⟩
    | runOk hpc => exact .inl (by simp [Pc.rank])
    | ready hpc => exact .inl (by simp [Pc.rank])
    | notReady hpc => exact .inl (by simp [Pc.rank])
    | tuned hpc => exact .inl (by simp [Pc.rank])
    | startGC hpc => simp [hpc, Pc.rank] at hhi
    | unlock hpc => simp [hpc, Pc.rank] at hhi
    | lock hpc _ => simp [hpc, Pc.rank] at hlo
    | reuse hpc _ => simp [hpc, Pc.rank] at hlo
    | fresh hpc _ => simp [hpc, Pc.rank] at hlo
    | allocErr hpc => rcases hpc with hpc | hpc | hpc <;> simp [hpc, Pc.rank] at hlo
    | _ hpc => simp [hpc, Pc.rank] at hlo

/-- A registered session stays, is replaced by a launch that found it dead, or
leaves with a teardown that is due. -/
theorem step_registered (h : OrphanInv st) {a : Act} (hs : Step cfg st a st') {k : Container}
    (hk : k ∈ st.containers) (hreg : Registered st k) : Registered st' k ∨ RmPending st' k := by
  obtain ⟨host, s, hl, haddr, hname⟩ := hreg
  have hbase := h.launch.base
  rcases hs.keptOrLogged hbase hl with ⟨i, rfl⟩ | ⟨s', hl', haddr'⟩ | ⟨src, _, _, -, hpend⟩
  · cases hs with
    | register hc hpc hcs =>
        rename_i c x
        by_cases hhost : host = c.host
        · -- the launch holds the lock of this host, so the old session is not running
          subst hhost
          exact absurd ⟨k, hk, hname.symm⟩ (h.launch.not_running hc (by rw [hpc]; rfl) hl)
        · exact .inl ⟨host, s, (AList.lookup_insert_ne hhost).trans hl, haddr, hname⟩
  · refine .inl ⟨host, s', hl', haddr'.trans haddr, ?_⟩
    obtain ⟨-, hgrow⟩ := hbase.calls hs
    obtain ⟨c, hc, -, -, hcn, -⟩ := (hbase.reg host s hl).grow hbase.wf hgrow
    obtain ⟨d, hd, -, -, hdn, -⟩ := (hbase.step hs).reg host s' hl'
    rw [haddr'] at hd
    obtain rfl := Option.some.inj (hc.symm.trans hd)
    exact (hdn.symm.trans hcn).trans hname
  · exact .inr ⟨_, hpend, hname⟩

theorem step_pending {a : Act} (hok : OrphanOk st a) (hs : Step cfg st a st') {k : Container}
    (hk' : k ∈ st'.containers) (hpend : RmPending st k) : RmPending st' k := by
  obtain ⟨p, hp, hname⟩ := hpend
  rcases hs.pending_mono hp with hp | ⟨q, ok, rfl, rfl⟩
  · exact ⟨p, hp, hname⟩
  · cases hs with
    | teardown _ =>
        refine absurd hname.symm (not_mem_of_rm hk' fun hf k' hmem heq => ?_)
        exact hok hf ⟨k', hmem, heq⟩

theorem step (h : OrphanInv st) {a : Act} (hok : OrphanOk st a) (hs : Step cfg st a st') :
    OrphanInv st' where
  launch := h.launch.step (checkTrue_of_orphanOk hok) hs
  owned k hk' := by
    obtain ⟨-, hgrow⟩ := h.launch.base.calls hs
    rcases hs.containers_spec hk' with hk | ⟨i, c, rfl, hc, hpc, rfl⟩
    · obtain ⟨c, hc, hname, hwhy⟩ := h.owned k hk
      obtain ⟨c', hc', hg⟩ := hgrow k.owner c hc
      obtain ⟨d, hd, hne, hdn, -⟩ := h.launch.base.containers k hk
      obtain rfl := Option.some.inj (hc.symm.trans hd)
      refine ⟨c', hc', (hg.name hne).1.trans hname, ?_⟩
      rcases hwhy with ⟨hlo, hhi⟩ | hreg | hpend
      · rcases h.step_launching hok hs hk hk' hc hc' hg hname hlo hhi with hl | hr
        · exact .inl hl
        · exact .inr (.inl hr)
      · exact .inr (h.step_registered hs hk hreg)
      · exact .inr (.inr (step_pending hok hs hk' hpend))
    · cases hs with
      | start hc₂ hpc₂ _ =>
          obtain rfl := Option.some.inj (hc.symm.trans hc₂)
          exact ⟨_, Indexed.set_self hc, rfl, .inl (by simp [hpc, Pc.rank])⟩

end OrphanInv

/-! ## The result -/

/-- In every run in which docker does not lose track, no container is
orphaned. -/
theorem no_orphan (h : Reach (Rbi.step cfg) OrphanOk init st) : NoOrphan st := by
  have hinv : OrphanInv st :=
    h.invariant .init fun hi hok hs => hi.step hok (step_cases hs)
  intro k hk
  obtain ⟨c, hc, -, ⟨-, hhi⟩ | hreg | hpend⟩ := hinv.owned k hk
  · refine .inr (.inl ⟨c, hc, fun hpc => ?_⟩)
    rw [hpc] at hhi
    simp [Pc.rank] at hhi
  · exact .inl hreg
  · exact .inr (.inr hpend)

/-- Enough for `OrphanOk`: docker commands succeed and no session is found dead. -/
def dockerOk (st : State) : Act → Bool
  | .check i running _ => running || ((st.calls[i]?).bind fun c => st.byHost.lookup c.host).isNone
  | .runReturns _ ok _ | .abort _ ok | .teardown _ ok => ok
  | _ => true

theorem orphanOk_of_dockerOk {a : Act} (h : dockerOk st a = true) : OrphanOk st a := by
  cases a with
  | check i running now =>
      intro hfalse c s hc hs
      simp [dockerOk, hfalse, hc, hs] at h
  | runReturns i ok now => exact fun hf => absurd (h.symm.trans hf) (by decide)
  | abort i ok => exact fun hf => absurd (h.symm.trans hf) (by decide)
  | teardown p ok => exact fun hf => absurd (h.symm.trans hf) (by decide)
  | _ => exact True.intro

/-- A session is launched, viewed and left; its container runs until the
teardown that is due. -/
theorem no_orphan_viewed : ∃ st, Reach (Rbi.step exampleConfig) OrphanOk init st
    ∧ Running st (lit "rbi-sess-1-7") ∧ NoOrphan st := by
  have hrun : (runs (Rbi.step exampleConfig) dockerOk
      (launchActs 0 1 2 3 ++ readyActs 0 ++
        ([.wsOpen (.session 0) (some exampleHost) 0,
          .wsClose 0 (some exampleHost) 0] : List Act)) init).map
      (fun st => decide (Running st (lit "rbi-sess-1-7"))) = some true := by decide +kernel
  obtain ⟨st, hst, hrunning⟩ := Option.map_eq_some_iff.mp hrun
  have hreach := reach_of_runs orphanOk_of_dockerOk .init hst
  exact ⟨st, hreach, of_decide_eq_true hrunning, no_orphan hreach⟩

/-- `docker run` starts the container and then reports an error: the launch
returns, and nothing knows of the container any more. -/
theorem not_noOrphan :
    ¬ ∀ st, Reach (Rbi.step exampleConfig) anyStep init st → NoOrphan st := by
  intro h
  have hrun : (runs (Rbi.step exampleConfig) (fun _ _ => true)
      (launchActs 0 1 2 3 ++ ([.start 0, .runReturns 0 false 0, .unlock 0] : List Act)) init).map
      (fun st => (st.containers.map (·.owner), st.calls.map (·.pc),
        (GoMap.vals st.byHost).length, st.pending.length)) = some ([0], [.done], 0, 0) := by
    decide +kernel
  obtain ⟨st, hst, hview⟩ := Option.map_eq_some_iff.mp hrun
  simp only [Prod.mk.injEq, List.length_eq_zero_iff] at hview
  obtain ⟨hks, hcalls, hvals, hpend⟩ := hview
  obtain ⟨k, hkmem, hk⟩ := List.map_eq_singleton_iff.mp hks
  obtain ⟨c, hcmem, hpc⟩ := List.map_eq_singleton_iff.mp hcalls
  rcases h st (reach_of_runs (fun _ => trivial) .init hst) k (by rw [hkmem]; simp) with
    ⟨host, s, hl, -⟩ | ⟨d, hd, hne⟩ | ⟨p, hp, -⟩
  · have := GoMap.mem_vals.mpr ⟨host, hl⟩
    rw [hvals] at this
    cases this
  · rw [hk, hcmem] at hd
    obtain rfl := Option.some.inj hd
    exact hne hpc
  · rw [hpend] at hp
    cases hp

end Rbi

end RbiProxy
