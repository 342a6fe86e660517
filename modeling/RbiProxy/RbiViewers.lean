import RbiProxy.RbiBase

/-!
# Viewers

The counter of a session is meant to be the number of websocket handlers
that were routed to its container and have not returned. Attach and detach
know the session only by its TCP port. A websocket to any other host with
that port number is counted too (`not_viewersExact`), and so is a handler
of a session whose port has since been reused.

`ViewersOk` excludes exactly the steps at which a port stands for the wrong
session; in a run of such steps the counter is exact (`viewers_exact`).
-/

namespace RbiProxy

namespace Rbi

variable {cfg : Config} {st st' : State}

/-! ## The property -/

/-- The handlers that were routed to the container of session `a` and have
not returned. -/
def routedTo (st : State) (a : Nat) : Nat :=
  st.handlers.countP fun h => h.live && h.routed = some a

/-- The counter of every registered session is exact. -/
def ViewersExact (st : State) : Prop :=
  ∀ host s, st.byHost.lookup host = some s → s.viewers = routedTo st s.addr

/-- A websocket is routed to every registered session whose port it has, and
to no container whose launch has yet to register its session; no session is
registered under the port of a handler that is still attached. -/
def ViewersOk (cfg : Config) (st : State) : Act → Prop
  | .wsOpen dest _ _ =>
      (∀ host x, st.byHost.lookup host = some x → destPort st dest = some x.tcpPort →
        destRouted cfg st dest = some x.addr) ∧
      (∀ (a : Nat) (c : Call), destRouted cfg st dest = some a → st.calls[a]? = some c →
        c.result = some a)
  | .register i => ∀ c : Call, st.calls[i]? = some c → ∀ h ∈ st.handlers, h.live = true →
      h.attached = true → h.port ≠ some c.tcpPort
  | _ => True

/-! ## Routing -/

/-- A websocket that is routed to a session has the session's port. -/
theorem destPort_of_routed (h : Base st) {dest : Dest} {a : Nat} {host name : GoString}
    {port : Nat} (hr : destRouted cfg st dest = some a) (hs : Stems st a host name port) :
    destPort st dest = some port := by
  obtain ⟨c, hc, -, -, -, hport⟩ := hs
  cases dest with
  | session i =>
      simp only [destRouted] at hr
      simp [destPort, hr, hc, hport]
  | direct dhost dport =>
      simp only [destRouted] at hr
      split at hr
      · obtain ⟨k, hk, rfl⟩ := Option.map_eq_some_iff.mp hr
        obtain ⟨d, hd, -, -, hdport⟩ := h.containers k (List.mem_of_find?_eq_some hk)
        obtain rfl := Option.some.inj (hc.symm.trans hd)
        have hfound : some k.tcpPort = dport := by simpa using List.find?_some hk
        rw [destPort, ← hfound, ← hdport, hport]
      · cases hr

/-! ## The invariant -/

/-- A session that some call has returned was registered. -/
def ResultsStem (st : State) : Prop :=
  ∀ (i : Nat) (c : Call) (a : Nat), st.calls[i]? = some c → c.result = some a →
    ∃ host name port, Stems st a host name port

structure ViewersInv (st : State) : Prop where
  base : Base st
  results : ResultsStem st
  exact : ViewersExact st
  attached : ∀ (i : Nat) (h : Handler), st.handlers[i]? = some h → h.live = true →
    h.attached = true → ∀ host s, st.byHost.lookup host = some s → h.port = some s.tcpPort →
      h.routed = some s.addr
  routed : ∀ (i : Nat) (h : Handler), st.handlers[i]? = some h → h.live = true →
    ∀ host s, st.byHost.lookup host = some s → h.routed = some s.addr →
      h.attached = true ∧ h.port = some s.tcpPort
  stems : ∀ (i : Nat) (h : Handler) (a : Nat), st.handlers[i]? = some h → h.routed = some a →
    ∃ host name port, Stems st a host name port

theorem resultsStem_step (hb : Base st) (h : ResultsStem st) {a : Act}
    (hs : Step cfg st a st') : ResultsStem st' := by
  intro i c' b hc' hres
  obtain ⟨-, hgrow⟩ := hb.calls hs
  have hold : ∀ {c : Call}, st.calls[i]? = some c → c.result = some b →
      ∃ host name port, Stems st' b host name port := by
    intro c hc hr
    obtain ⟨host, name, port, hstems⟩ := h i c b hc hr
    exact ⟨host, name, port, hstems.grow hb.wf hgrow⟩
  rcases hs.call_spec hc' with ⟨rawURL, rfl⟩ | ⟨hc, -⟩ | ⟨c, hc, hm⟩
  · cases hres
  · exact hold hc hres
  · cases hm with
    | reuse hpc hl =>
        obtain rfl := Option.some.inj hres
        exact ⟨_, _, _, (hb.reg _ _ hl).grow hb.wf hgrow⟩
    | register hpc hl =>
        obtain rfl := Option.some.inj hres
        exact ⟨_, _, _, _, hc', rfl, rfl, rfl, rfl⟩
    | _ => exact hold hc hres

namespace ViewersInv

theorem init : ViewersInv init where
  base := .init
  results := by intro i c a h; simp [Rbi.init] at h
  exact := by intro host s h; simp [Rbi.init] at h
  attached := by intro i h hh; simp [Rbi.init] at hh
  routed := by intro i h hh; simp [Rbi.init] at hh
  stems := by intro i h a hh; simp [Rbi.init] at hh

/-- A step without websockets that keeps the entries it leaves. -/
theorem frame (h : ViewersInv st) (hb : Base st') (hres : ResultsStem st')
    (hgrow : CallsGrow st st') (hhandlers : st'.handlers = st.handlers)
    (hmap : ∀ host s', st'.byHost.lookup host = some s' →
      ∃ s, st.byHost.lookup host = some s ∧ Same s s' ∧ s'.viewers = s.viewers) :
    ViewersInv st' where
  base := hb
  results := hres
  exact host s' hl := by
    obtain ⟨s, hls, ⟨haddr, -, -⟩, hview⟩ := hmap host s' hl
    rw [hview, haddr, h.exact host s hls, routedTo, routedTo, hhandlers]
  attached i hd hh hlive hatt host s' hl hport := by
    obtain ⟨s, hls, ⟨haddr, -, htcp⟩, -⟩ := hmap host s' hl
    rw [hhandlers] at hh
    rw [haddr]
    exact h.attached i hd hh hlive hatt host s hls (htcp ▸ hport)
  routed i hd hh hlive host s' hl hr := by
    obtain ⟨s, hls, ⟨haddr, -, htcp⟩, -⟩ := hmap host s' hl
    rw [hhandlers] at hh
    rw [htcp]
    exact h.routed i hd hh hlive host s hls (haddr ▸ hr)
  stems i hd a hh hr := by
    rw [hhandlers] at hh
    obtain ⟨host, name, port, hstems⟩ := h.stems i hd a hh hr
    exact ⟨host, name, port, hstems.grow h.base.wf hgrow⟩

/-- The routed session of a new handler was registered once. -/
theorem stems_dest (h : ViewersInv st) {dest : Dest} {a : Nat}
    (hok : ∀ (a : Nat) (c : Call), destRouted cfg st dest = some a → st.calls[a]? = some c →
      c.result = some a) (hr : destRouted cfg st dest = some a) :
    ∃ host name port, Stems st a host name port := by
  cases dest with
  | session i =>
      simp only [destRouted, returned] at hr
      split at hr
      · rename_i c hc
        split at hr
        · exact h.results i c a hc hr
        · cases hr
      · cases hr
  | direct dhost dport =>
      have hr' := hr
      simp only [destRouted] at hr
      split at hr
      · obtain ⟨k, hk, rfl⟩ := Option.map_eq_some_iff.mp hr
        obtain ⟨d, hd, -⟩ := h.base.containers k (List.mem_of_find?_eq_some hk)
        exact ⟨_, _, _, d, hd, hok _ d hr' hd, rfl, rfl, rfl⟩
      · cases hr

theorem step_wsMiss (h : ViewersInv st) {dest : Dest} (hb : Base st') (hres : ResultsStem st')
    (hok : ∀ (a : Nat) (c : Call), destRouted cfg st dest = some a → st.calls[a]? = some c →
      c.result = some a)
    (hmiss : ∀ port, destPort st dest = some port →
      ∀ host s, st.byHost.lookup host = some s → s.tcpPort ≠ port)
    (hst' : st' = { st with handlers := st.handlers ++
      [⟨destPort st dest, destRouted cfg st dest, false, true⟩] }) : ViewersInv st' := by
  subst hst'
  have hnot : ∀ {host s}, st.byHost.lookup host = some s →
      destRouted cfg st dest ≠ some s.addr := by
    intro host s hl hr
    exact hmiss _ (destPort_of_routed h.base hr (h.base.reg host s hl)) host s hl rfl
  refine ⟨hb, hres, ?_, ?_, ?_, ?_⟩
  · intro host s hl
    rw [h.exact host s hl, routedTo, routedTo, List.countP_append]
    simp [hnot hl]
  · intro i hd hh hlive hatt host s hl
    rcases Indexed.of_concat hh with hh | ⟨-, rfl⟩
    · exact h.attached i hd hh hlive hatt host s hl
    · cases hatt
  · intro i hd hh hlive host s hl hr
    rcases Indexed.of_concat hh with hh | ⟨-, rfl⟩
    · exact h.routed i hd hh hlive host s hl hr
    · exact absurd hr (hnot hl)
  · intro i hd a hh hr
    rcases Indexed.of_concat hh with hh | ⟨-, rfl⟩
    · exact h.stems i hd a hh hr
    · exact h.stems_dest hok hr

theorem step_wsAttach (h : ViewersInv st) {dest : Dest} {host : GoString} {s : RbiSession}
    {now : Int} (hb : Base st') (hres : ResultsStem st')
    (hok : ViewersOk cfg st (.wsOpen dest (some host) now))
    (hs : st.byHost.lookup host = some s) (hport : destPort st dest = some s.tcpPort)
    (hst' : st' = { rbiViewerAttach st host s now with handlers := st.handlers ++
      [⟨some s.tcpPort, destRouted cfg st dest, true, true⟩] }) : ViewersInv st' := by
  subst hst'
  obtain ⟨hok₁, hok₂⟩ := hok
  have hrouted := hok₁ host s hs hport
  have hother : ∀ {host' x}, host' ≠ host → st.byHost.lookup host' = some x →
      s.addr ≠ x.addr := fun hne hx heq => hne (h.base.host_inj hx hs heq.symm)
  refine ⟨hb, hres, ?_, ?_, ?_, ?_⟩
  · intro host' x hx
    rcases GoMap.of_lookup_insert hx with ⟨rfl, rfl⟩ | ⟨hne, hx⟩
    · simp only [routedTo, List.countP_append, h.exact host' s hs, hrouted]
      simp
    · rw [h.exact host' x hx, routedTo, routedTo, List.countP_append]
      simp [hrouted, hother hne hx]
  · intro i hd hh hlive hatt host' x hx hp
    have hold : ∃ x₀, st.byHost.lookup host' = some x₀ ∧ Same x₀ x := by
      rcases GoMap.of_lookup_insert hx with ⟨rfl, rfl⟩ | ⟨-, hx⟩
      · exact ⟨s, hs, ⟨rfl, rfl, rfl⟩⟩
      · exact ⟨x, hx, .refl x⟩
    obtain ⟨x₀, hx₀, haddr, -, htcp⟩ := hold
    rw [haddr]
    rw [htcp] at hp
    rcases Indexed.of_concat hh with hh | ⟨-, rfl⟩
    · exact h.attached i hd hh hlive hatt host' x₀ hx₀ hp
    · exact hok₁ host' x₀ hx₀ (hport.trans hp)
  · intro i hd hh hlive host' x hx hr
    rcases GoMap.of_lookup_insert hx with ⟨rfl, rfl⟩ | ⟨hne, hx⟩
    · rcases Indexed.of_concat hh with hh | ⟨-, rfl⟩
      · exact h.routed i hd hh hlive host' s hs hr
      · exact ⟨rfl, rfl⟩
    · rcases Indexed.of_concat hh with hh | ⟨-, rfl⟩
      · exact h.routed i hd hh hlive host' x hx hr
      · exact absurd (Option.some.inj (hrouted.symm.trans hr)) (hother hne hx)
  · intro i hd a hh hr
    rcases Indexed.of_concat hh with hh | ⟨-, rfl⟩
    · exact h.stems i hd a hh hr
    · exact h.stems_dest hok₂ hr

/-- The handlers after one of them has returned. -/
theorem of_return {i j : Nat} {hd hd' : Handler}
    (hh : (st.handlers.set i { hd with live := false })[j]? = some hd')
    (hlive : hd'.live = true) : st.handlers[j]? = some hd' := by
  rcases Indexed.of_set hh with ⟨-, rfl⟩ | ⟨-, hh⟩
  · cases hlive
  · exact hh

theorem stems_return (h : ViewersInv st) {i j a : Nat} {hd hd' : Handler}
    (hi : st.handlers[i]? = some hd)
    (hh : (st.handlers.set i { hd with live := false })[j]? = some hd')
    (hr : hd'.routed = some a) : ∃ host name port, Stems st a host name port := by
  rcases Indexed.of_set hh with ⟨rfl, rfl⟩ | ⟨-, hh⟩
  · exact h.stems _ hd a hi hr
  · exact h.stems j hd' a hh hr

/-- A handler that was not routed to a session leaves its number alone. -/
theorem routedTo_return_ne {i a : Nat} {hd : Handler} (hi : st.handlers[i]? = some hd)
    (hne : hd.routed ≠ some a) :
    (st.handlers.set i { hd with live := false }).countP
      (fun h => h.live && h.routed = some a) = routedTo st a :=
  Indexed.countP_set_same hi (by simp [hne])

theorem step_wsReturn (h : ViewersInv st) {i : Nat} {hd : Handler} (hb : Base st')
    (hres : ResultsStem st') (hi : st.handlers[i]? = some hd) (hlive : hd.live = true)
    (hmiss : hd.attached = true → ∀ port, hd.port = some port →
      ∀ host s, st.byHost.lookup host = some s → s.tcpPort ≠ port)
    (hst' : st' = { st with handlers := st.handlers.set i { hd with live := false } }) :
    ViewersInv st' := by
  subst hst'
  refine ⟨hb, hres, ?_, ?_, ?_, ?_⟩
  · intro host s hl
    rw [h.exact host s hl]
    refine (routedTo_return_ne hi fun hr => ?_).symm
    obtain ⟨hatt, hport⟩ := h.routed i hd hi hlive host s hl hr
    exact hmiss hatt _ hport host s hl rfl
  · intro j hd' hh hlive' hatt host s hl
    exact h.attached j hd' (of_return hh hlive') hlive' hatt host s hl
  · intro j hd' hh hlive' host s hl
    exact h.routed j hd' (of_return hh hlive') hlive' host s hl
  · intro j hd' a hh hr
    exact h.stems_return hi hh hr

/-- An entry after `rbiViewerDetach`: the session itself with one viewer
less, or another one. -/
theorem lookup_detach_viewers {host host' : GoString} {s x : RbiSession} {grace : Nat}
    (hl : (rbiViewerDetach st host s grace).byHost.lookup host' = some x) :
    (host' = host ∧ Same s x ∧ x.viewers = s.viewers - 1) ∨
    (host' ≠ host ∧ st.byHost.lookup host' = some x) := by
  simp only [rbiViewerDetach] at hl
  split at hl
  · rcases GoMap.of_lookup_insert hl with ⟨rfl, rfl⟩ | hold
    · exact .inl ⟨rfl, ⟨rfl, rfl, rfl⟩, rfl⟩
    · exact .inr hold
  · split at hl
    · exact .inr (GoMap.of_lookup_erase hl)
    · rcases GoMap.of_lookup_insert hl with ⟨rfl, rfl⟩ | hold
      · exact .inl ⟨rfl, ⟨rfl, rfl, rfl⟩, rfl⟩
      · exact .inr hold

theorem step_wsDetach (h : ViewersInv st) {i : Nat} {hd : Handler} {host : GoString}
    {s : RbiSession} {grace : Nat} (hb : Base st') (hres : ResultsStem st')
    (hi : st.handlers[i]? = some hd) (hlive : hd.live = true) (hatt : hd.attached = true)
    (hport : hd.port = some s.tcpPort) (hs : st.byHost.lookup host = some s)
    (hst' : st' = { rbiViewerDetach st host s grace with
      handlers := st.handlers.set i { hd with live := false } }) : ViewersInv st' := by
  subst hst'
  have hrouted := h.attached i hd hi hlive hatt host s hs hport
  refine ⟨hb, hres, ?_, ?_, ?_, ?_⟩
  · intro host' x hx
    rcases lookup_detach_viewers hx with ⟨-, hsame, hview⟩ | ⟨hne, hx⟩
    · have hlost := Indexed.countP_set_lost (a := { hd with live := false })
        (p := fun h => h.live && h.routed = some s.addr) hi (by simp [hlive, hrouted])
        (by simp)
      have hexact := h.exact host s hs
      rw [routedTo] at hexact
      rw [hview, hsame.addr, hexact, hlost]
      rfl
    · rw [h.exact host' x hx]
      refine (routedTo_return_ne hi fun hr => ?_).symm
      exact hne (h.base.host_inj hx hs (Option.some.inj (hr.symm.trans hrouted)))
  · intro j hd' hh hlive' hatt' host' x hx hp
    obtain ⟨x₀, hx₀, hsame⟩ := lookup_detach hs hx
    rw [hsame.addr]
    exact h.attached j hd' (of_return hh hlive') hlive' hatt' host' x₀ hx₀ (hsame.tcpPort ▸ hp)
  · intro j hd' hh hlive' host' x hx hr
    obtain ⟨x₀, hx₀, hsame⟩ := lookup_detach hs hx
    rw [hsame.tcpPort]
    exact h.routed j hd' (of_return hh hlive') hlive' host' x₀ hx₀ (hsame.addr ▸ hr)
  · intro j hd' a hh hr
    obtain ⟨host', name, port, c, hc, hrest⟩ := h.stems_return hi hh hr
    exact ⟨host', name, port, c, by rwa [rbiViewerDetach_calls], hrest⟩

theorem step_register (h : ViewersInv st) {i : Nat} {c : Call} {s : RbiSession}
    (hb : Base st') (hres : ResultsStem st') (hgrow : CallsGrow st st')
    (hok : ViewersOk cfg st (.register i)) (hc : st.calls[i]? = some c)
    (hpc : c.pc = .register) (hs : c.s = some s)
    (hst' : st' = { st with
      byHost := st.byHost.insert c.host s
      calls := st.calls.set i { c with pc := .startGC, result := some i } }) :
    ViewersInv st' := by
  obtain ⟨haddr, -, htcp, hview, -⟩ := (h.base.wf i c hc).session s hs
  -- nothing was routed to the container before its session is registered
  have hnone : ∀ (j : Nat) (hd : Handler), st.handlers[j]? = some hd →
      hd.routed ≠ some s.addr := by
    intro j hd hh hr
    obtain ⟨-, -, -, d, hd', hdres, -⟩ := h.stems j hd s.addr hh hr
    rw [haddr] at hd' hdres
    obtain rfl := Option.some.inj (hc.symm.trans hd')
    rw [(h.base.wf i c hc).result_none (by rw [hpc]; decide)] at hdres
    cases hdres
  subst hst'
  refine ⟨hb, hres, ?_, ?_, ?_, ?_⟩
  · intro host x hx
    rcases GoMap.of_lookup_insert hx with ⟨-, rfl⟩ | ⟨-, hx⟩
    · rw [hview]
      refine (List.countP_eq_zero.mpr fun hd hmem => ?_).symm
      obtain ⟨j, hj⟩ := List.getElem?_of_mem hmem
      simp [hnone j hd hj]
    · exact h.exact host x hx
  · intro j hd hh hlive hatt host x hx hp
    rcases GoMap.of_lookup_insert hx with ⟨-, rfl⟩ | ⟨-, hx⟩
    · exact absurd (htcp ▸ hp) (hok c hc hd (List.mem_of_getElem? hh) hlive hatt)
    · exact h.attached j hd hh hlive hatt host x hx hp
  · intro j hd hh hlive host x hx hr
    rcases GoMap.of_lookup_insert hx with ⟨-, rfl⟩ | ⟨-, hx⟩
    · exact absurd hr (hnone j hd hh)
    · exact h.routed j hd hh hlive host x hx hr
  · intro j hd a hh hr
    obtain ⟨host, name, port, hstems⟩ := h.stems j hd a hh hr
    exact ⟨host, name, port, hstems.grow h.base.wf hgrow⟩

theorem step (h : ViewersInv st) {a : Act} (hok : ViewersOk cfg st a)
    (hs : Step cfg st a st') : ViewersInv st' := by
  have hb := h.base.step hs
  have hres := resultsStem_step h.base h.results hs
  obtain ⟨-, hgrow⟩ := h.base.calls hs
  cases hs with
  | reuse hc hpc hl =>
      refine h.frame hb hres hgrow rfl fun host x hx => ?_
      rcases GoMap.of_lookup_insert hx with ⟨rfl, rfl⟩ | ⟨-, hx⟩
      · exact ⟨_, hl, ⟨rfl, rfl, rfl⟩, rfl⟩
      · exact ⟨x, hx, .refl x, rfl⟩
  | register hc hpc hsess => exact h.step_register hb hres hgrow hok hc hpc hsess rfl
  | wsMiss hdest hmiss => exact h.step_wsMiss hb hres hok.2 hmiss rfl
  | wsAttach hdest hl hport => exact h.step_wsAttach hb hres hok hl hport rfl
  | wsReturn hh hlive hmiss => exact h.step_wsReturn hb hres hh hlive hmiss rfl
  | wsDetach hh hlive hatt hport hl => exact h.step_wsDetach hb hres hh hlive hatt hport hl rfl
  | expire ht hp hcur haddr hview =>
      refine h.frame hb hres hgrow rfl fun host x hx => ?_
      exact ⟨x, (GoMap.of_lookup_erase hx).2, .refl x, rfl⟩
  | gc =>
      refine h.frame hb hres hgrow rfl fun host x hx => ?_
      exact ⟨x, (GoMap.lookup_filterVal.mp hx).1, .refl x, rfl⟩
  | _ => exact h.frame hb hres hgrow rfl fun host x hx => ⟨x, hx, .refl x, rfl⟩

end ViewersInv

/-! ## The result -/

/-- In every run in which a port stands for one session only, every counter
is exact. -/
theorem viewers_exact (h : Reach (step cfg) (ViewersOk cfg) init st) : ViewersExact st :=
  (h.invariant ViewersInv.init fun hi hok hs => hi.step hok (step_cases hs)).exact

/-- Enough for `ViewersOk`: no session is registered while a websocket is
open, and a websocket goes to the one session there is. -/
def oneSession (st : State) : Act → Bool
  | .wsOpen (.session i) _ _ =>
      (GoMap.vals st.byHost).all (fun x => returned st i = some x.addr) &&
      (returned st i).all fun a => (st.calls[a]?).all fun c => c.result = some a
  | .wsOpen (.direct _ _) _ _ => false
  | .register _ => st.handlers.isEmpty
  | _ => true

theorem viewersOk_of_oneSession (cfg : Config) {st : State} {a : Act} (h : oneSession st a = true) :
    ViewersOk cfg st a := by
  cases a with
  | wsOpen dest pick now =>
      cases dest with
      | session i =>
          simp only [oneSession, Bool.and_eq_true, List.all_eq_true, decide_eq_true_eq] at h
          refine ⟨fun host x hx _ => h.1 x (GoMap.mem_vals.mpr ⟨host, hx⟩), fun a c hr hc => ?_⟩
          rw [destRouted] at hr
          simpa [hr, hc] using h.2
      | direct host port => cases h
  | register i =>
      intro c _ hd hmem
      rw [List.isEmpty_iff.mp h] at hmem
      cases hmem
  | _ => exact True.intro

/-- Two viewers attach to a session and one of them leaves. -/
theorem viewers_exact_oneLeft : ∃ st s,
    Reach (step exampleConfig) (ViewersOk exampleConfig) init st
      ∧ st.byHost.lookup exampleHost = some s ∧ s.viewers = 1 ∧ ViewersExact st := by
  have hrun : (runs (step exampleConfig) oneSession
      (launchActs 0 1 2 3 ++ readyActs 0 ++
        ([.wsOpen (.session 0) (some exampleHost) 0, .wsOpen (.session 0) (some exampleHost) 0,
          .wsClose 0 (some exampleHost) 0] : List Act)) init).map
      (fun st => (st.byHost.lookup exampleHost).map (·.viewers)) = some (some 1) := by
    decide +kernel
  obtain ⟨st, hst, hview⟩ := Option.map_eq_some_iff.mp hrun
  obtain ⟨s, hs, hone⟩ := Option.map_eq_some_iff.mp hview
  have hreach := reach_of_runs (viewersOk_of_oneSession exampleConfig) .init hst
  exact ⟨st, s, hreach, hs, hone, viewers_exact hreach⟩

/-- A websocket to an unrelated host whose port has the number of a session's
port is counted as a viewer of that session. -/
theorem not_viewersExact :
    ¬ ∀ st, Reach (step exampleConfig) anyStep init st → ViewersExact st := by
  intro h
  have hrun : (runs (step exampleConfig) (fun _ _ => true)
      (launchActs 0 1 2 3 ++ readyActs 0 ++
        ([.wsOpen (.direct (lit "example.org") (some 1)) (some exampleHost) 0] :
          List Act)) init).map
      (fun st => ((st.byHost.lookup exampleHost).map (fun s => (s.addr, s.viewers)),
        routedTo st 0)) = some (some (0, 1), 0) := by decide +kernel
  obtain ⟨st, hst, hview⟩ := Option.map_eq_some_iff.mp hrun
  obtain ⟨hlook, hrouted⟩ := Prod.mk.inj hview
  obtain ⟨s, hs, heq⟩ := Option.map_eq_some_iff.mp hlook
  obtain ⟨haddr, hone⟩ := Prod.mk.inj heq
  have hexact := h st (reach_of_runs (fun _ => trivial) .init hst) exampleHost s hs
  rw [haddr, hrouted, hone] at hexact
  cases hexact

end Rbi

end RbiProxy
