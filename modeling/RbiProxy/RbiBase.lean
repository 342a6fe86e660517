import RbiProxy.Indexed
import RbiProxy.RbiStep

/-!
# Calls, names and what refers to them

The facts every result about the session table rests on. A call of
`rbiLaunchSession` keeps its host, its sequence number and, once
`docker run` is issued, its container name and ports (`Grows`). Sequence
numbers are handed out once, so container names are distinct
(`Base.name_inj`). A registered session, a timer and a container each stem
from the call their number names, and a call registers at most one session,
the one it then returns.
-/

namespace RbiProxy

namespace Rbi

/-! ## Container names -/

theorem sessionName_inj {n m : Nat} {x y : Int} (hn : n ≠ 0) (hm : m ≠ 0)
    (h : sessionName n x = sessionName m y) : n = m := by
  have hid : ∀ (k : Nat) (z : Int), sessionId k z
      = itoa k ++ 45 :: formatInt (z.tmod 100000) := fun k z => by
    rw [sessionId, List.append_assoc]
    rfl
  have hcut := List.append_cancel_left h
  rw [hid, hid] at hcut
  have hfirst : ∀ k z, ((itoa k ++ 45 :: z).splitOn 45).head? = some (itoa k) := fun k z => by
    rw [List.splitOn_append_cons_self_of_not_mem (hyphen_notMem_itoa k)]
    rfl
  have := (hfirst n _).symm.trans ((congrArg (fun l => (l.splitOn 45).head?) hcut).trans
    (hfirst m _))
  exact itoa_inj hn hm (Option.some.inj this)

theorem sessionName_ne_nil (n : Nat) (x : Int) : sessionName n x ≠ [] := by
  intro h
  have := congrArg List.length h
  simp [sessionName, lit] at this

/-! ## Calls -/

def Pc.rank : Pc → Nat
  | enter => 0
  | lock => 1
  | check => 2
  | tcp => 3
  | udp => 4
  | mux => 5
  | run => 6
  | running => 7
  | wait => 8
  | abort => 9
  | tune => 9
  | register => 10
  | startGC => 11
  | unlock => 12
  | done => 13

theorem Pc.launching_iff (pc : Pc) : pc.launching = true ↔ 3 ≤ pc.rank ∧ pc.rank ≤ 10 := by
  cases pc <;> decide

theorem Pc.holds_iff (pc : Pc) : pc.holds = true ↔ 2 ≤ pc.rank ∧ pc.rank ≤ 12 := by
  cases pc <;> decide

/-- The local variables of call `i` at its program counter. -/
structure Call.Wf (i : Nat) (c : Call) : Prop where
  seq_zero : c.pc.rank ≤ 2 → c.seq = 0
  seq_pos : 3 ≤ c.pc.rank → c.pc.rank ≤ 10 → c.seq ≠ 0
  unnamed : c.pc.rank ≤ 6 → c.name = [] ∧ c.started = false ∧ c.s = none
  named : 7 ≤ c.pc.rank → c.pc.rank ≤ 10 → c.name ≠ []
  name_eq : c.name ≠ [] → c.seq ≠ 0 ∧ ∃ nano, c.name = sessionName c.seq nano
  session : ∀ s, c.s = some s → s.addr = i ∧ s.name = c.name ∧ s.tcpPort = c.tcpPort
    ∧ s.viewers = 0 ∧ s.teardownTimer = none
  result : c.result ≠ none → 11 ≤ c.pc.rank
  own : c.result = some i → c.name ≠ []

/-- Nothing is returned before a session is registered or an error occurs. -/
theorem Call.Wf.result_none {i : Nat} {c : Call} (h : c.Wf i) (hr : c.pc.rank ≤ 10) :
    c.result = none := by
  by_contra hne
  have := h.result hne
  omega

/-- What a call keeps. -/
structure Grows (c c' : Call) : Prop where
  host : c'.host = c.host
  seq : c.seq ≠ 0 → c'.seq = c.seq
  name : c.name ≠ [] → c'.name = c.name ∧ c'.tcpPort = c.tcpPort
  result : c.result ≠ none → c'.result = c.result
  rank : c.pc.rank ≤ c'.pc.rank

theorem Grows.refl (c : Call) : Grows c c :=
  ⟨rfl, fun _ => rfl, fun _ => ⟨rfl, rfl⟩, fun _ => rfl, Nat.le_refl _⟩

/-- A move that leaves the variables `Wf` speaks of alone. -/
theorem Call.Wf.move {i : Nat} {c c' : Call} (h : c.Wf i) (hseq : c'.seq = c.seq)
    (hname : c'.name = c.name) (hs : c'.s = c.s) (hstarted : c'.started = c.started)
    (hport : c'.tcpPort = c.tcpPort) (hres : c'.result = c.result)
    (hle : c.pc.rank ≤ c'.pc.rank) (h3 : 3 ≤ c'.pc.rank → c'.pc.rank ≤ 10 → 3 ≤ c.pc.rank)
    (h7 : 7 ≤ c'.pc.rank → c'.pc.rank ≤ 10 → 7 ≤ c.pc.rank) : c'.Wf i where
  seq_zero hr := by rw [hseq]; exact h.seq_zero (by omega)
  seq_pos hlo hhi := by rw [hseq]; exact h.seq_pos (h3 hlo hhi) (by omega)
  unnamed hr := by rw [hname, hstarted, hs]; exact h.unnamed (by omega)
  named hlo hhi := by rw [hname]; exact h.named (h7 hlo hhi) (by omega)
  name_eq hne := by rw [hname] at hne ⊢; rw [hseq]; exact h.name_eq hne
  session s hs' := by rw [hname, hport]; exact h.session s (hs ▸ hs')
  result hr := Nat.le_trans (h.result (hres ▸ hr)) hle
  own hr := by rw [hname]; exact h.own (hres ▸ hr)

theorem Grows.move {c c' : Call} (hhost : c'.host = c.host) (hseq : c'.seq = c.seq)
    (hname : c'.name = c.name) (hport : c'.tcpPort = c.tcpPort) (hres : c'.result = c.result)
    (hle : c.pc.rank ≤ c'.pc.rank) : Grows c c' :=
  ⟨hhost, fun _ => hseq, fun _ => ⟨hname, hport⟩, fun _ => hres, hle⟩

def CallsWf (st : State) : Prop :=
  ∀ (i : Nat) (c : Call), st.calls[i]? = some c → c.Wf i

def CallsGrow (st st' : State) : Prop :=
  ∀ (i : Nat) (c : Call), st.calls[i]? = some c → ∃ c', st'.calls[i]? = some c' ∧ Grows c c'

variable {cfg : Config} {st st' : State}

theorem callsGrow_of_eq (h : st'.calls = st.calls) : CallsGrow st st' := by
  intro i c hc
  exact ⟨c, by rw [h]; exact hc, .refl c⟩

/-- A move that changes none of the variables `Wf` and `Grows` speak of. -/
theorem wf_and_grows {i : Nat} {c c' : Call} (hw : c.Wf i) (hhost : c'.host = c.host)
    (hseq : c'.seq = c.seq) (hname : c'.name = c.name) (hs : c'.s = c.s)
    (hstarted : c'.started = c.started) (hport : c'.tcpPort = c.tcpPort)
    (hres : c'.result = c.result) (hle : c.pc.rank ≤ c'.pc.rank)
    (h3 : 3 ≤ c'.pc.rank → c'.pc.rank ≤ 10 → 3 ≤ c.pc.rank)
    (h7 : 7 ≤ c'.pc.rank → c'.pc.rank ≤ 10 → 7 ≤ c.pc.rank) : c'.Wf i ∧ Grows c c' :=
  ⟨hw.move hseq hname hs hstarted hport hres hle h3 h7, .move hhost hseq hname hport hres hle⟩

/-- A call stays well formed and grows when it moves, provided that a session
it reuses is not its own. -/
theorem Moves.wf_and_grows {a : Act} {i : Nat} {c c' : Call} (hm : Moves st i c a c')
    (hw : c.Wf i)
    (hreuse : ∀ s, c.pc = .check → st.byHost.lookup c.host = some s → s.addr ≠ i) :
    c'.Wf i ∧ Grows c c' := by
  cases hm with
  | reuse hpc hs =>
      rename_i s now
      obtain ⟨hn, -, hsess⟩ := hw.unnamed (by rw [hpc]; decide)
      have hres := hw.result_none (by rw [hpc]; decide)
      constructor
      · exact ⟨by simp [Pc.rank], by simp [Pc.rank], by simp [Pc.rank], by simp [Pc.rank],
          hw.name_eq, hw.session, by simp [Pc.rank],
          fun h => absurd (Option.some.inj h) (hreuse s hpc hs)⟩
      · exact ⟨rfl, fun _ => rfl, fun h => absurd hn h, fun h => absurd hres h,
          by simp [hpc, Pc.rank]⟩
  | fresh hpc _ =>
      obtain ⟨hn, hst, hs⟩ := hw.unnamed (by rw [hpc]; decide)
      have hres := hw.result_none (by rw [hpc]; decide)
      constructor
      · exact ⟨by simp [Pc.rank], fun _ _ => Nat.succ_ne_zero _, fun _ => ⟨hn, hst, hs⟩,
          by simp [Pc.rank], fun h => absurd hn h, hw.session, fun h => absurd hres h, hw.own⟩
      · exact ⟨rfl, fun h => absurd (hw.seq_zero (by rw [hpc]; decide)) h,
          fun h => absurd hn h, fun _ => rfl, by simp [hpc, Pc.rank]⟩
  | tcp hpc =>
      -- the port is set before the container has a name
      obtain ⟨hn, hst, hs⟩ := hw.unnamed (by rw [hpc]; decide)
      have hres := hw.result_none (by rw [hpc]; decide)
      constructor
      · exact ⟨by simp [Pc.rank],
          fun _ _ => hw.seq_pos (by rw [hpc]; decide) (by rw [hpc]; decide),
          fun _ => ⟨hn, hst, hs⟩, by simp [Pc.rank], hw.name_eq, by simp [hs],
          fun h => absurd hres h, hw.own⟩
      · exact ⟨rfl, fun _ => rfl, fun h => absurd hn h, fun _ => rfl, by simp [hpc, Pc.rank]⟩
  | run hpc =>
      rename_i nano
      have hseq := hw.seq_pos (by rw [hpc]; decide) (by rw [hpc]; decide)
      obtain ⟨hn, hst, hs⟩ := hw.unnamed (by rw [hpc]; decide)
      have hres := hw.result_none (by rw [hpc]; decide)
      constructor
      · exact ⟨by simp [Pc.rank], fun _ _ => hseq, by simp [Pc.rank],
          fun _ _ => sessionName_ne_nil _ _, fun _ => ⟨hseq, nano, rfl⟩, by simp [hs],
          fun h => absurd hres h, fun _ => sessionName_ne_nil _ _⟩
      · exact ⟨rfl, fun _ => rfl, fun h => absurd hn h, fun _ => rfl, by simp [hpc, Pc.rank]⟩
  | start hpc =>
      refine ⟨⟨hw.seq_zero, hw.seq_pos, ?_, hw.named, hw.name_eq, hw.session, hw.result, hw.own⟩,
        .move rfl rfl rfl rfl rfl (Nat.le_refl _)⟩
      simp [hpc, Pc.rank]
  | runOk hpc =>
      have hres := hw.result_none (by rw [hpc]; decide)
      refine ⟨?_, .move rfl rfl rfl rfl rfl (by simp [hpc, Pc.rank])⟩
      refine ⟨by simp [Pc.rank],
        fun _ _ => hw.seq_pos (by rw [hpc]; decide) (by rw [hpc]; decide),
        by simp [Pc.rank], fun _ _ => hw.named (by rw [hpc]; decide) (by rw [hpc]; decide),
        hw.name_eq, ?_, fun h => absurd hres h, hw.own⟩
      intro s hs
      obtain rfl := Option.some.inj hs
      exact ⟨rfl, rfl, rfl, rfl, rfl⟩
  | register hpc hs =>
      have hn := hw.named (by rw [hpc]; decide) (by rw [hpc]; decide)
      have hres := hw.result_none (by rw [hpc]; decide)
      constructor
      · exact ⟨by simp [Pc.rank], by simp [Pc.rank], by simp [Pc.rank], by simp [Pc.rank],
          hw.name_eq, hw.session, by simp [Pc.rank], fun _ => hn⟩
      · exact ⟨rfl, fun _ => rfl, fun _ => ⟨rfl, rfl⟩, fun h => absurd hres h,
          by simp [hpc, Pc.rank]⟩
  | allocErr hpc =>
      refine Rbi.wf_and_grows hw rfl rfl rfl rfl rfl rfl rfl ?_ ?_ ?_ <;>
        rcases hpc with hpc | hpc | hpc <;> simp [hpc, Pc.rank]
  | lock hpc _ =>
      refine Rbi.wf_and_grows hw rfl rfl rfl rfl rfl rfl rfl ?_ ?_ ?_ <;>
        simp [hpc, Pc.rank]
  | _ hpc =>
      refine Rbi.wf_and_grows hw rfl rfl rfl rfl rfl rfl rfl ?_ ?_ ?_ <;>
        simp [hpc, Pc.rank]

/-- A step keeps the calls well formed and lets them grow. -/
theorem Step.calls_spec {a : Act} (h : Step cfg st a st') (hall : CallsWf st)
    (hreuse : ∀ (i : Nat) (c : Call) (s : RbiSession), st.calls[i]? = some c → c.pc = .check →
      st.byHost.lookup c.host = some s → s.addr ≠ i) :
    CallsWf st' ∧ CallsGrow st st' := by
  rcases h.calls_cases with ⟨rawURL, -, hcalls⟩ | ⟨-, hcalls⟩ | ⟨i, c, c', -, hc, hm, hcalls⟩
  · refine ⟨?_, fun i c hc => ⟨c, by rw [hcalls]; exact Indexed.concat_old hc, .refl c⟩⟩
    intro i c hc
    rw [hcalls] at hc
    exact Indexed.forall_concat hall ⟨fun _ => rfl, by simp [Pc.rank], fun _ => ⟨rfl, rfl, rfl⟩,
      by simp [Pc.rank], fun h => absurd rfl h, by simp, fun h => absurd rfl h, by simp⟩ i c hc
  · exact ⟨fun i c hc => hall i c (hcalls ▸ hc), callsGrow_of_eq hcalls⟩
  · obtain ⟨hwf, hgrow⟩ := hm.wf_and_grows (hall i c hc) fun s hpc hs => hreuse i c s hc hpc hs
    constructor
    · intro j d hd
      rw [hcalls] at hd
      exact Indexed.forall_set hall hwf j d hd
    · intro j d hd
      rw [hcalls]
      by_cases hj : j = i
      · subst hj
        obtain rfl := Option.some.inj (hc.symm.trans hd)
        exact ⟨c', Indexed.set_self hc, hgrow⟩
      · exact ⟨d, by rw [Indexed.set_ne hj]; exact hd, .refl d⟩

/-- A call after a step has no sequence number, its old one, or the one it
has just taken. -/
theorem Step.seq_spec {a : Act} (h : Step cfg st a st') {i : Nat} {c' : Call}
    (hc' : st'.calls[i]? = some c') :
    c'.seq = 0 ∨ (∃ c, st.calls[i]? = some c ∧ c'.seq = c.seq) ∨
    (∃ running now, a = .check i running now ∧ c'.seq = st.rbiSeq + 1) := by
  rcases h.call_spec hc' with ⟨rawURL, rfl⟩ | ⟨hc, -⟩ | ⟨c, hc, hm⟩
  · exact .inl rfl
  · exact .inr (.inl ⟨c', hc, rfl⟩)
  · cases hm with
    | fresh _ _ => exact .inr (.inr ⟨_, _, rfl, rfl⟩)
    | _ => exact .inr (.inl ⟨c, hc, rfl⟩)

/-- The name of a call was there before, or the step issues its `docker run`. -/
theorem Step.name_spec {a : Act} (h : Step cfg st a st') {i : Nat} {c' : Call}
    (hc' : st'.calls[i]? = some c') (hne : c'.name ≠ []) :
    (∃ c, st.calls[i]? = some c ∧ c.name = c'.name) ∨
    (∃ c, st.calls[i]? = some c ∧ c.pc = .run) := by
  rcases h.call_spec hc' with ⟨rawURL, rfl⟩ | ⟨hc, -⟩ | ⟨c, hc, hm⟩
  · exact absurd rfl hne
  · exact .inl ⟨c', hc, rfl⟩
  · cases hm with
    | run hpc => exact .inr ⟨c, hc, hpc⟩
    | _ => exact .inl ⟨c, hc, rfl⟩

theorem Step.seq_mono {a : Act} (h : Step cfg st a st') : st.rbiSeq ≤ st'.rbiSeq := by
  cases h with
  | fresh _ _ _ => exact Nat.le_succ _
  | wsDetach _ _ _ _ _ =>
      exact Nat.le_of_eq (rbiViewerDetach_rbiSeq ..).symm
  | _ => exact Nat.le_refl _

theorem Step.seq_le {a : Act} (h : Step cfg st a st')
    (hall : ∀ (j : Nat) (c : Call), st.calls[j]? = some c → c.seq ≤ st.rbiSeq) {i : Nat}
    {c' : Call} (hc' : st'.calls[i]? = some c') : c'.seq ≤ st'.rbiSeq := by
  have hmono := h.seq_mono
  rcases h.call_spec hc' with ⟨rawURL, rfl⟩ | ⟨hc, -⟩ | ⟨c, hc, hm⟩
  · exact Nat.zero_le _
  · exact Nat.le_trans (hall i c' hc) hmono
  · have hle := Nat.le_trans (hall i c hc) hmono
    cases hm with
    | fresh hpc hs =>
        cases h with
        | fresh hc₂ _ _ => exact Nat.le_refl _
        | reuse hc₂ _ hs₂ =>
            rw [Indexed.set_self hc₂] at hc'
            cases congrArg Call.pc (Option.some.inj hc')
    | _ => exact hle

/-! ## The session map -/

/-- Two values of one session: the fields that never change. -/
structure Same (s s' : RbiSession) : Prop where
  addr : s'.addr = s.addr
  name : s'.name = s.name
  tcpPort : s'.tcpPort = s.tcpPort

theorem Same.refl (s : RbiSession) : Same s s := ⟨rfl, rfl, rfl⟩

/-- An entry of the map after `rbiViewerDetach`. -/
theorem lookup_detach {host h : GoString} {s s' : RbiSession} {grace : Nat}
    (hs : st.byHost.lookup host = some s)
    (hl : (rbiViewerDetach st host s grace).byHost.lookup h = some s') :
    ∃ s₀, st.byHost.lookup h = some s₀ ∧ Same s₀ s' := by
  simp only [rbiViewerDetach] at hl
  split at hl
  · rcases GoMap.of_lookup_insert hl with ⟨rfl, rfl⟩ | ⟨-, hl⟩
    · exact ⟨s, hs, ⟨rfl, rfl, rfl⟩⟩
    · exact ⟨s', hl, .refl s'⟩
  · split at hl
    · exact ⟨s', (GoMap.of_lookup_erase hl).2, .refl s'⟩
    · rcases GoMap.of_lookup_insert hl with ⟨rfl, rfl⟩ | ⟨-, hl⟩
      · exact ⟨s, hs, ⟨rfl, rfl, rfl⟩⟩
      · exact ⟨s', hl, .refl s'⟩

/-- An entry after a step was there before, under the same host, or has just
been registered. -/
theorem Step.lookup_spec {a : Act} (h : Step cfg st a st') {host : GoString} {s' : RbiSession}
    (hl : st'.byHost.lookup host = some s') :
    (∃ s, st.byHost.lookup host = some s ∧ Same s s') ∨
    (∃ i c, a = .register i ∧ st.calls[i]? = some c ∧ c.pc = .register ∧ c.s = some s'
      ∧ c.host = host) := by
  cases h with
  | reuse hc hpc hs =>
      rcases GoMap.of_lookup_insert hl with ⟨rfl, rfl⟩ | ⟨-, hl⟩
      · exact .inl ⟨_, hs, ⟨rfl, rfl, rfl⟩⟩
      · exact .inl ⟨s', hl, .refl s'⟩
  | register hc hpc hs =>
      rename_i i c s
      rcases GoMap.of_lookup_insert hl with ⟨rfl, rfl⟩ | ⟨-, hl⟩
      · exact .inr ⟨i, c, rfl, hc, hpc, hs, rfl⟩
      · exact .inl ⟨s', hl, .refl s'⟩
  | wsAttach _ hs _ =>
      rcases GoMap.of_lookup_insert hl with ⟨rfl, rfl⟩ | ⟨-, hl⟩
      · exact .inl ⟨_, hs, ⟨rfl, rfl, rfl⟩⟩
      · exact .inl ⟨s', hl, .refl s'⟩
  | wsDetach _ _ _ _ hs => exact .inl (lookup_detach hs hl)
  | expire _ _ _ _ _ => exact .inl ⟨s', (GoMap.of_lookup_erase hl).2, .refl s'⟩
  | gc => exact .inl ⟨s', (GoMap.lookup_filterVal.mp hl).1, .refl s'⟩
  | _ => exact .inl ⟨s', hl, .refl s'⟩

/-! ## Timers -/

theorem stopTimer_getElem? {ts : List Timer} {o : Option Nat} {i : Nat} {t' : Timer}
    (h : (stopTimer ts o)[i]? = some t') :
    ∃ t, ts[i]? = some t ∧ ((o ≠ some i ∧ t' = t) ∨ (o = some i ∧ t' = t.stop)) := by
  cases o with
  | none => exact ⟨t', h, .inl ⟨by simp, rfl⟩⟩
  | some j =>
      simp only [stopTimer, List.getElem?_modify] at h
      obtain ⟨t, ht, rfl⟩ := Option.map_eq_some_iff.mp h
      refine ⟨t, ht, ?_⟩
      by_cases hj : j = i
      · exact .inr ⟨by rw [hj], by simp [hj]⟩
      · exact .inl ⟨by simpa using hj, by simp [hj]⟩

/-- One timer before and after a step. -/
structure Timer.Later (t t' : Timer) : Prop where
  host : t'.host = t.host
  sess : t'.sess = t.sess
  name : t'.name = t.name
  armed : t'.phase = .armed → t.phase = .armed
  due : t'.phase = .armed ∨ t'.phase = .fired → t.phase = .armed ∨ t.phase = .fired

theorem Timer.Later.refl (t : Timer) : Timer.Later t t := ⟨rfl, rfl, rfl, id, id⟩

theorem Timer.Later.trans {t₁ t₂ t₃ : Timer} (h₁ : Timer.Later t₁ t₂)
    (h₂ : Timer.Later t₂ t₃) : Timer.Later t₁ t₃ :=
  ⟨h₂.host.trans h₁.host, h₂.sess.trans h₁.sess, h₂.name.trans h₁.name,
    fun h => h₁.armed (h₂.armed h), fun h => h₁.due (h₂.due h)⟩

theorem Timer.stop_phase (t : Timer) : t.stop.phase ≠ .armed := by
  unfold Timer.stop
  split
  · exact fun h => by cases h
  · assumption

theorem Timer.stop_fired {t : Timer} (h : t.stop.phase = .fired) : t.phase = .fired := by
  unfold Timer.stop at h
  split at h
  · cases h
  · exact h

theorem Timer.later_stop (t : Timer) : Timer.Later t t.stop := by
  refine ⟨?_, ?_, ?_, fun h => absurd h t.stop_phase,
    fun h => .inr (Timer.stop_fired (h.resolve_left t.stop_phase))⟩ <;>
    (unfold Timer.stop; split <;> rfl)

theorem Timer.later_fire {t : Timer} (h : t.phase = .armed) :
    Timer.Later t { t with phase := .fired } :=
  ⟨rfl, rfl, rfl, fun hp => (by cases hp), fun _ => .inl h⟩

theorem Timer.later_ran {t : Timer} (h : t.phase = .fired) :
    Timer.Later t { t with phase := .ran } :=
  ⟨rfl, rfl, rfl, fun hp => (by cases hp), fun _ => .inr h⟩

theorem stopTimer_later {ts : List Timer} {o : Option Nat} {i : Nat} {t' : Timer}
    (h : (stopTimer ts o)[i]? = some t') : ∃ t, ts[i]? = some t ∧ Timer.Later t t' := by
  obtain ⟨t, ht, ⟨-, rfl⟩ | ⟨-, rfl⟩⟩ := stopTimer_getElem? h
  · exact ⟨t', ht, .refl t'⟩
  · exact ⟨t, ht, t.later_stop⟩

theorem foldl_stopTimer_later {i : Nat} {t' : Timer} {dead : List RbiSession} {ts : List Timer}
    (h : (dead.foldl (fun ts s => stopTimer ts s.teardownTimer) ts)[i]? = some t') :
    ∃ t, ts[i]? = some t ∧ Timer.Later t t' := by
  induction dead generalizing ts with
  | nil => exact ⟨t', h, .refl t'⟩
  | cons s dead ih =>
      rw [List.foldl_cons] at h
      obtain ⟨t, ht, hl⟩ := ih h
      obtain ⟨t₀, ht₀, hl₀⟩ := stopTimer_later ht
      exact ⟨t₀, ht₀, hl₀.trans hl⟩

@[simp] theorem length_stopTimer (ts : List Timer) (o : Option Nat) :
    (stopTimer ts o).length = ts.length := by
  cases o <;> simp [stopTimer]

/-- A timer after a step is an old one, or the one a detach has just armed. -/
theorem Step.timers_spec {a : Act} (h : Step cfg st a st') {i : Nat} {t' : Timer}
    (ht : st'.timers[i]? = some t') :
    (∃ t, st.timers[i]? = some t ∧ Timer.Later t t') ∨
    (∃ host s, st.byHost.lookup host = some s ∧ i = st.timers.length
      ∧ t' = { host := host, sess := s.addr, name := s.name }) := by
  cases h with
  | reuse hc hpc hs => exact .inl (stopTimer_later ht)
  | wsAttach _ hs _ => exact .inl (stopTimer_later ht)
  | wsDetach hh hlive hatt hport hs =>
      simp only [rbiViewerDetach] at ht
      split at ht
      · exact .inl ⟨t', ht, .refl t'⟩
      · split at ht
        · exact .inl ⟨t', ht, .refl t'⟩
        · rcases Indexed.of_concat ht with ht | ⟨rfl, rfl⟩
          · exact .inl (stopTimer_later ht)
          · exact .inr ⟨_, _, hs, length_stopTimer _ _, rfl⟩
  | fire hti hp =>
      rcases Indexed.of_set ht with ⟨rfl, rfl⟩ | ⟨-, ht⟩
      · exact .inl ⟨_, hti, Timer.later_fire hp⟩
      · exact .inl ⟨t', ht, .refl t'⟩
  | stale hti hp =>
      rcases Indexed.of_set ht with ⟨rfl, rfl⟩ | ⟨-, ht⟩
      · exact .inl ⟨_, hti, Timer.later_ran hp⟩
      · exact .inl ⟨t', ht, .refl t'⟩
  | expire hti hp _ _ _ =>
      rcases Indexed.of_set ht with ⟨rfl, rfl⟩ | ⟨-, ht⟩
      · exact .inl ⟨_, hti, Timer.later_ran hp⟩
      · exact .inl ⟨t', ht, .refl t'⟩
  | gc => exact .inl (foldl_stopTimer_later ht)
  | _ => exact .inl ⟨t', ht, .refl t'⟩

/-! ## Containers -/

theorem mem_rmContainer {ks : List Container} {name : GoString} {k : Container} :
    k ∈ rmContainer ks name ↔ k ∈ ks ∧ k.name ≠ name := by
  simp [rmContainer]

/-- A running container ran before the step or was started by it. -/
theorem Step.containers_spec {a : Act} (h : Step cfg st a st') {k : Container}
    (hk : k ∈ st'.containers) :
    k ∈ st.containers ∨ ∃ i c, a = .start i ∧ st.calls[i]? = some c ∧ c.pc = .running
      ∧ k = containerOf i c := by
  cases h with
  | start hc hpc _ =>
      rcases List.mem_cons.mp hk with rfl | hk
      · exact .inr ⟨_, _, rfl, hc, hpc, rfl⟩
      · exact .inl hk
  | abort _ _ =>
      rename_i ok _ _
      cases ok with
      | true => exact .inl (mem_rmContainer.mp hk).1
      | false => exact .inl hk
  | crash => exact .inl (mem_rmContainer.mp hk).1
  | teardown _ =>
      rename_i ok _
      cases ok with
      | true => exact .inl (mem_rmContainer.mp hk).1
      | false => exact .inl hk
  | wsDetach _ _ _ _ _ =>
      rw [rbiViewerDetach_containers] at hk
      exact .inl hk
  | _ => exact .inl hk

/-! ## The invariant -/

/-- Call `a` has registered a session of that host, name and port. -/
def Stems (st : State) (a : Nat) (host name : GoString) (port : Nat) : Prop :=
  ∃ c : Call, st.calls[a]? = some c ∧ c.result = some a ∧ c.host = host ∧ c.name = name
    ∧ c.tcpPort = port

/-- What refers to a call agrees with it. -/
structure Base (st : State) : Prop where
  wf : CallsWf st
  seq_le : ∀ (i : Nat) (c : Call), st.calls[i]? = some c → c.seq ≤ st.rbiSeq
  seq_inj : ∀ (i j : Nat) (c d : Call), st.calls[i]? = some c → st.calls[j]? = some d →
    c.seq ≠ 0 → c.seq = d.seq → i = j
  reg : ∀ host s, st.byHost.lookup host = some s → Stems st s.addr host s.name s.tcpPort
  timers : ∀ (i : Nat) (t : Timer), st.timers[i]? = some t →
    ∃ port, Stems st t.sess t.host t.name port
  containers : ∀ k ∈ st.containers, ∃ c : Call, st.calls[k.owner]? = some c ∧ c.name ≠ []
    ∧ c.name = k.name ∧ c.tcpPort = k.tcpPort

theorem Stems.grow {a : Nat} {host name : GoString} {port : Nat}
    (h : Stems st a host name port) (hwf : CallsWf st) (hg : CallsGrow st st') :
    Stems st' a host name port := by
  obtain ⟨c, hc, hres, hhost, hname, hport⟩ := h
  obtain ⟨c', hc', hgrow⟩ := hg a c hc
  obtain ⟨hn, hp⟩ := hgrow.name ((hwf a c hc).own hres)
  exact ⟨c', hc', by rw [hgrow.result (by rw [hres]; simp), hres], hgrow.host.trans hhost,
    hn.trans hname, hp.trans hport⟩

namespace Base

/-- Distinct launches have distinct container names. -/
theorem name_inj (h : Base st) {i j : Nat} {c d : Call} (hc : st.calls[i]? = some c)
    (hd : st.calls[j]? = some d) (hne : c.name ≠ []) (heq : c.name = d.name) : i = j := by
  obtain ⟨hcs, x, hcx⟩ := (h.wf i c hc).name_eq hne
  obtain ⟨hds, y, hdy⟩ := (h.wf j d hd).name_eq (heq ▸ hne)
  exact h.seq_inj i j c d hc hd hcs (sessionName_inj hcs hds (hcx.symm.trans (heq.trans hdy)))

/-- A call that is still looking for a session is not the one it finds. -/
theorem reuse_ne (h : Base st) {i : Nat} {c : Call} {s : RbiSession}
    (hc : st.calls[i]? = some c) (hpc : c.pc = .check)
    (hs : st.byHost.lookup c.host = some s) : s.addr ≠ i := by
  rintro rfl
  obtain ⟨d, hd, hres, -⟩ := h.reg _ s hs
  obtain rfl := Option.some.inj (hc.symm.trans hd)
  rw [(h.wf _ c hc).result_none (by rw [hpc]; decide)] at hres
  cases hres

theorem calls (h : Base st) {a : Act} (hs : Step cfg st a st') :
    CallsWf st' ∧ CallsGrow st st' :=
  hs.calls_spec h.wf fun _ _ _ hc hpc hl => h.reuse_ne hc hpc hl

theorem init : Base init where
  wf := by intro i c h; simp [Rbi.init] at h
  seq_le := by intro i c h; simp [Rbi.init] at h
  seq_inj := by intro i j c d h; simp [Rbi.init] at h
  reg := by intro host s h; simp [Rbi.init] at h
  timers := by intro i t h; simp [Rbi.init] at h
  containers := by intro k h; simp [Rbi.init] at h

theorem step_seq_inj (h : Base st) {a : Act} (hs : Step cfg st a st') {i j : Nat} {c d : Call}
    (hc : st'.calls[i]? = some c) (hd : st'.calls[j]? = some d) (hne : c.seq ≠ 0)
    (heq : c.seq = d.seq) : i = j := by
  rcases hs.seq_spec hc with hc0 | ⟨c₀, hc₀, hcs⟩ | ⟨r, n, ha, hcs⟩
  · exact absurd hc0 hne
  · rcases hs.seq_spec hd with hd0 | ⟨d₀, hd₀, hds⟩ | ⟨_, _, _, hds⟩
    · exact absurd (heq.trans hd0) hne
    · exact h.seq_inj i j c₀ d₀ hc₀ hd₀ (by omega) (by omega)
    · have := h.seq_le i c₀ hc₀
      omega
  · rcases hs.seq_spec hd with hd0 | ⟨d₀, hd₀, hds⟩ | ⟨r', n', ha', _⟩
    · exact absurd (heq.trans hd0) hne
    · have := h.seq_le j d₀ hd₀
      omega
    · rw [ha] at ha'
      injection ha'

/-- A session in the map stems from the call that registered it. -/
theorem step_reg (h : Base st) {a : Act} (hs : Step cfg st a st') {host : GoString}
    {s : RbiSession} (hl : st'.byHost.lookup host = some s) :
    Stems st' s.addr host s.name s.tcpPort := by
  obtain ⟨-, hgrow⟩ := h.calls hs
  rcases hs.lookup_spec hl with ⟨s₀, hs₀, haddr, hname, hport⟩ | ⟨i, c, rfl, hc, hpc, hcs, rfl⟩
  · rw [haddr, hname, hport]
    exact (h.reg host s₀ hs₀).grow h.wf hgrow
  · obtain ⟨haddr, hname, hport, -⟩ := (h.wf i c hc).session s hcs
    cases hs with
    | register hc' _ _ =>
        obtain rfl := Option.some.inj (hc.symm.trans hc')
        rw [haddr, hname, hport]
        exact ⟨_, Indexed.set_self hc, rfl, rfl, rfl, rfl⟩

theorem step (h : Base st) {a : Act} (hs : Step cfg st a st') : Base st' where
  wf := (h.calls hs).1
  seq_le _ _ hc := hs.seq_le h.seq_le hc
  seq_inj _ _ _ _ hc hd := h.step_seq_inj hs hc hd
  reg _ _ hl := h.step_reg hs hl
  timers i t ht := by
    obtain ⟨-, hgrow⟩ := h.calls hs
    rcases hs.timers_spec ht with ⟨t₀, ht₀, hlater⟩ | ⟨host, s, hl, -, rfl⟩
    · obtain ⟨port, hstems⟩ := h.timers i t₀ ht₀
      rw [hlater.sess, hlater.host, hlater.name]
      exact ⟨port, hstems.grow h.wf hgrow⟩
    · exact ⟨s.tcpPort, (h.reg host s hl).grow h.wf hgrow⟩
  containers k hk := by
    obtain ⟨-, hgrow⟩ := h.calls hs
    rcases hs.containers_spec hk with hk | ⟨i, c, rfl, hc, hpc, rfl⟩
    · obtain ⟨c, hc, hne, hname, hport⟩ := h.containers k hk
      obtain ⟨c', hc', hg⟩ := hgrow k.owner c hc
      obtain ⟨hn, hp⟩ := hg.name hne
      exact ⟨c', hc', hn ▸ hne, hn.trans hname, hp.trans hport⟩
    · have hne := (h.wf i c hc).named (by rw [hpc]; decide) (by rw [hpc]; decide)
      obtain ⟨c', hc', hg⟩ := hgrow i c hc
      obtain ⟨hn, hp⟩ := hg.name hne
      exact ⟨c', hc', hn ▸ hne, hn, hp⟩

/-- Two entries of the map with the same session are one entry. -/
theorem host_inj (h : Base st) {h₁ h₂ : GoString} {s₁ s₂ : RbiSession}
    (hs₁ : st.byHost.lookup h₁ = some s₁) (hs₂ : st.byHost.lookup h₂ = some s₂)
    (haddr : s₁.addr = s₂.addr) : h₁ = h₂ := by
  obtain ⟨c₁, hc₁, -, hh₁, -⟩ := h.reg h₁ s₁ hs₁
  obtain ⟨c₂, hc₂, -, hh₂, -⟩ := h.reg h₂ s₂ hs₂
  rw [haddr] at hc₁
  obtain rfl := Option.some.inj (hc₁.symm.trans hc₂)
  exact hh₁.symm.trans hh₂

end Base

end Rbi

end RbiProxy
