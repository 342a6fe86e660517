import RbiProxy.ControlChannel
import RbiProxy.MediaSignals

/-!
# What the viewer is told about the cameras of the isolated pages

`inject.js` posts to the window, `content.js` listens there and hands on what it gets over
the control channel. Here the two scripts of every page and the relay run together. A
message that was posted waits in `tasks` until the browser dispatches it.

The listener of `content.js` takes any message of the window that is marked as one of
`inject.js`. What the page posts on its own account in this form is told like the rest, so
the results are about runs in which no page does so (`Honest`).

What a subscriber is told over one connection about one device of a page is a piece of
what the script of the page found, without a gap. It ends where the script ended when
nothing is on its way any more (`told_all`). A request for video that is not settled has
then put the camera on.
-/

namespace RbiProxy

namespace Bridge

open Control (via)

open Media (Signal Kind)

structure Tab where
  media : Media.State := {}
  /-- Posted to the window and not dispatched yet. -/
  tasks : List Signal := []
deriving DecidableEq

structure State where
  tabs : List Tab := []
  control : Control.State Signal := {}
deriving DecidableEq

inductive Event where
  | load
  /-- Something happens to `inject.js` of page `p`. -/
  | script (p : Nat) (e : Media.Event)
  /-- The page posts a message of this form itself. -/
  | forge (p : Nat) (m : Signal)
  /-- The listener of `content.js` is called. -/
  | dispatch (p : Nat)
  | control (e : Control.Event Signal)

/-- Whether an event of the channel comes from the window of a page. -/
def ofWindow : Control.Event Signal → Bool
  | .load | .post _ _ => true
  | _ => false

namespace State

def setTab (s : State) (p : Nat) (tab : Tab) : State := { s with tabs := s.tabs.set p tab }

def setControl (s : State) (e : Control.Event Signal) : Option State :=
  (s.control.step e).map fun control => { s with control }

def step (s : State) : Event → Option State
  | .load => ({ s with tabs := s.tabs ++ [({} : Tab)] } : State).setControl .load
  | .script p e =>
    match s.tabs[p]? with
    | some tab => (tab.media.step e).map fun media =>
      let posted := media.emitted.drop tab.media.emitted.length
      s.setTab p { media, tasks := tab.tasks ++ posted.map (·.2) }
    | none => none
  | .forge p m => (s.tabs[p]?).map fun tab => s.setTab p { tab with tasks := tab.tasks ++ [m] }
  | .dispatch p =>
    match s.tabs[p]? with
    | some tab =>
      match tab.tasks with
      | m :: tasks => (s.setTab p { tab with tasks }).setControl (.post p m)
      | [] => none
    | none => none
  | .control e => if ofWindow e then none else s.setControl e

end State

def honest : Event → Bool
  | .forge _ _ => false
  | _ => true

/-- No page posts such messages itself. -/
def Honest (_ : State) (e : Event) : Prop := honest e = true

/-! ## What is posted is handed on -/

/-- Both scripts of a page and the channel run as they do alone, and whatever `inject.js`
posts is handed on or waits. -/
structure Inv (s : State) : Prop where
  tabs : s.control.posted.length = s.tabs.length
  script : ∀ (p : Nat) (tab : Tab), s.tabs[p]? = some tab →
    Reach Media.State.step anyStep {} tab.media
  control : Reach Control.State.step anyStep {} s.control
  handed : ∀ (p : Nat) (tab : Tab), s.tabs[p]? = some tab → ∀ ms, s.control.posted[p]? = some ms →
    ms ++ tab.tasks = tab.media.emitted.map (·.2)

section Steps

variable {s t : State} {p : Nat} {tab tab' : Tab}

theorem setControl_eq {e : Control.Event Signal} (hstep : s.setControl e = some t) :
    ∃ control, s.control.step e = some control ∧ t = { s with control }
      ∧ control.posted = e.posts s.control.posted := by
  obtain ⟨control, hcontrol, rfl⟩ := Option.map_eq_some_iff.mp hstep
  exact ⟨control, hcontrol, rfl, Control.posted_step hcontrol⟩

theorem Inv.load (h : Inv s)
    (hstep : ({ s with tabs := s.tabs ++ [({} : Tab)] } : State).setControl .load = some t) :
    Inv t := by
  obtain ⟨control, hcontrol, rfl, hposted⟩ := setControl_eq hstep
  replace hposted : control.posted = s.control.posted ++ [[]] := hposted
  refine ⟨?_, Indexed.forall_concat h.script .init, .next h.control trivial hcontrol,
    fun p tab hp ms hms => ?_⟩
  · simp only [hposted, List.length_append, h.tabs, List.length_singleton]
  · replace hms : (s.control.posted ++ [[]])[p]? = some ms := hposted ▸ hms
    rcases Indexed.of_concat hp with hold | ⟨rfl, rfl⟩
    · have hlt : p < s.control.posted.length := h.tabs ▸ (List.getElem?_eq_some_iff.mp hold).1
      rw [List.getElem?_append_left hlt] at hms
      exact h.handed p tab hold ms hms
    · rw [← h.tabs, List.getElem?_concat_length] at hms
      obtain rfl := Option.some.inj hms
      rfl

theorem Inv.setTab (h : Inv s) (hp : s.tabs[p]? = some tab)
    (hscript : Reach Media.State.step anyStep tab.media tab'.media)
    (hhanded : ∀ ms, ms ++ tab.tasks = tab.media.emitted.map (·.2) →
      ms ++ tab'.tasks = tab'.media.emitted.map (·.2)) : Inv (s.setTab p tab') := by
  refine ⟨h.tabs.trans (List.length_set).symm,
    Indexed.forall_set h.script ((h.script p tab hp).trans hscript), h.control,
    Indexed.forall_set h.handed fun ms hms => hhanded ms (h.handed p tab hp ms hms)⟩

theorem Inv.dispatch (h : Inv s) (hp : s.tabs[p]? = some tab) {m : Signal} {tasks : List Signal}
    (htasks : tab.tasks = m :: tasks)
    (hstep : (s.setTab p { tab with tasks }).setControl (.post p m) = some t) : Inv t := by
  obtain ⟨control, hcontrol, rfl, hposted⟩ := setControl_eq hstep
  replace hposted : control.posted = s.control.posted.modify p (· ++ [m]) := hposted
  refine ⟨?_, Indexed.forall_set h.script (h.script p tab hp), .next h.control trivial hcontrol,
    fun q tab₁ hq ms hms => ?_⟩
  · change control.posted.length = (s.tabs.set p { tab with tasks }).length
    rw [hposted, List.length_modify, List.length_set, h.tabs]
  · change control.posted[q]? = some ms at hms
    rw [hposted] at hms
    rcases Indexed.of_set hq with ⟨rfl, rfl⟩ | ⟨hqp, hold⟩
    · rw [List.getElem?_modify_eq] at hms
      obtain ⟨ms₀, hms₀, rfl⟩ := Option.map_eq_some_iff.mp hms
      rw [List.append_assoc, ← h.handed q tab hp ms₀ hms₀, htasks]
      rfl
    · rw [List.getElem?_modify_ne _ _ (Ne.symm hqp)] at hms
      exact h.handed q tab₁ hold ms hms

theorem Inv.relays (h : Inv s) {e : Control.Event Signal} (hown : ofWindow e = false)
    (hstep : s.setControl e = some t) : Inv t := by
  obtain ⟨control, hcontrol, rfl, hposted⟩ := setControl_eq hstep
  have hsame : control.posted = s.control.posted := by
    rw [hposted]
    cases e with
    | load | post => cases hown
    | _ => rfl
  refine ⟨hsame ▸ h.tabs, h.script, .next h.control trivial hcontrol, fun p tab hp ms hms => ?_⟩
  change control.posted[p]? = some ms at hms
  exact h.handed p tab hp ms (hsame ▸ hms)

theorem inv_step {e : Event} (h : Inv s) (hok : Honest s e) (hstep : s.step e = some t) :
    Inv t := by
  cases e with
  | load => exact h.load hstep
  | script p e =>
    rw [State.step] at hstep
    split at hstep
    case h_1 tab hp =>
      obtain ⟨media, hmedia, rfl⟩ := Option.map_eq_some_iff.mp hstep
      refine h.setTab hp (.next .init trivial hmedia) fun ms hms => ?_
      obtain ⟨new, hnew⟩ := Media.emitted_step hmedia
      simp only [← hnew, List.drop_left, List.map_append, ← List.append_assoc, hms]
    case h_2 => cases hstep
  | forge => cases hok
  | dispatch p =>
    rw [State.step] at hstep
    split at hstep
    case h_1 tab hp =>
      split at hstep
      case h_1 m tasks htasks => exact h.dispatch hp htasks hstep
      case h_2 => cases hstep
    case h_2 => cases hstep
  | control e =>
    rw [State.step] at hstep
    split at hstep
    case isTrue => cases hstep
    case isFalse hown => exact h.relays (Bool.eq_false_iff.mpr hown) hstep

theorem inv_reach (h : Reach State.step Honest {} s) : Inv s :=
  h.invariant ⟨rfl, fun p tab hp => (by cases hp), .init, fun p tab hp => (by cases hp)⟩
    fun hinv hok => inv_step hinv hok

end Steps

/-! ## What a subscriber is told -/

/-- What messages say about a device. -/
def told (kind : Kind) (ms : List Signal) : List Bool :=
  (ms.filter fun m => m.kind == kind).map (·.on)

theorem told_emitted (s : Media.State) (kind : Kind) :
    told kind (s.emitted.map (·.2)) = s.said kind := by
  simp only [told, Media.State.said, List.filter_map, List.map_map]
  rfl

theorem told_piece {ms ms' : List Signal} (h : ms <:+: ms') (kind : Kind) :
    told kind ms <:+: told kind ms' := (h.filter _).map _

theorem told_end {ms ms' : List Signal} (h : ms <:+ ms') (kind : Kind) :
    told kind ms <:+ told kind ms' := (h.filter _).map _

section Told

variable {s : State} {k c : Nat} {sub : Control.Sub Signal} {conn : Control.Conn Signal} {tab : Tab}

theorem Inv.posted (h : Inv s) {p : Nat} {pg : Control.Page Signal}
    (hpg : s.control.pages[p]? = some pg) (hp : s.tabs[p]? = some tab) :
    pg.posted ++ tab.tasks = tab.media.emitted.map (·.2) :=
  h.handed p tab hp pg.posted (by simp [Control.State.posted, hpg])

/-- What a subscriber is told over one connection about one device is a piece of what the
script of the page found. -/
theorem Inv.piece (h : Inv s) (hk : s.control.members[k]? = some sub)
    (hc : s.control.conns[c]? = some conn) (hp : s.tabs[conn.page]? = some tab) :
    via c sub.got <:+: tab.media.emitted.map (·.2) := by
  have hinv := Control.inv_reach h.control
  obtain ⟨pg, lost, hpg, -⟩ := (hinv.conn c conn hc).sent
  have hfifo := hinv.fifo
  have hsent : via c sub.got <:+: pg.sent.map (·.2) :=
    (hfifo.piece hk hc hpg).trans (Control.via_together c (hfifo.inTurn hpg))
  have hposted : pg.sent.map (·.2) <+: pg.posted := hfifo.posted hpg ▸ List.prefix_append _ _
  have hemitted : pg.posted <+: tab.media.emitted.map (·.2) :=
    h.posted hpg hp ▸ List.prefix_append _ _
  exact hsent.trans (hposted.trans hemitted).isInfix

/-- **A subscriber is never told the same twice in a row.** Over one connection, the
messages about one device are a piece of what the script of the page found, and alternate. -/
theorem told_in_turn (h : Reach State.step Honest {} s)
    (hk : s.control.members[k]? = some sub) (hc : s.control.conns[c]? = some conn)
    (hp : s.tabs[conn.page]? = some tab) (kind : Kind) :
    told kind (via c sub.got) <:+: tab.media.said kind
      ∧ (told kind (via c sub.got)).IsChain (· ≠ ·) := by
  have hinv := inv_reach h
  have hpiece := told_piece (hinv.piece hk hc hp) kind
  rw [told_emitted] at hpiece
  have hmedia := Media.inv_reach (hinv.script _ _ hp)
  have hturns : (tab.media.said kind).IsChain (· ≠ ·) := by
    cases kind with
    | cam => exact hmedia.cam.turns
    | mic => exact hmedia.mic.turns
  obtain ⟨before, after, hsaid⟩ := hpiece
  refine ⟨⟨before, after, hsaid⟩, ?_⟩
  rw [← hsaid] at hturns
  exact hturns.left_of_append.right_of_append

/-- The page asks for the camera before its socket
opens, and for the microphone when the subscriber is there. -/
def asks : List Event :=
  [.load, .control (.connect 0), .control (.accept 0), .control .join,
    .script 0 (.getUserMedia true), .control (.opens 0), .dispatch 0, .script 0 .srStart,
    .dispatch 0, .control (.take 0 [0]), .control (.send 0 true), .control (.send 0 true),
    .control (.take 0 [0]), .control (.send 0 true), .control (.send 0 true)]

def asked : State where
  tabs := [{ media := {
    attempts := [{ wantsVideo := true, left := 9 }]
    vInflight := 1
    srActive := true
    lastV := some true
    lastA := some true
    emitted := [(0, ⟨.cam, true⟩), (0, ⟨.mic, true⟩)]
    uses := [0] } }]
  control := {
    pages := [{
      socket := .opened 0
      posted := [⟨.cam, true⟩, ⟨.mic, true⟩]
      sent := [(0, ⟨.cam, true⟩), (0, ⟨.mic, true⟩)] }]
    conns := [{ page := 0, handler := .reading, taken := [⟨.cam, true⟩, ⟨.mic, true⟩] }]
    members := [{ since := [0], got := [(0, ⟨.cam, true⟩), (0, ⟨.mic, true⟩)] }]
    subs := [0] }

theorem reach_asked : Reach State.step Honest {} asked := by
  have hrun : runs State.step (fun _ e => honest e) asks {} = some asked := by decide +kernel
  exact reach_of_runs id .init hrun

/-- The request is refused, and the subscriber is told so too. -/
def isRefused : List Event :=
  [.script 0 (.refuse 0 false), .dispatch 0, .control (.take 0 [0]), .control (.send 0 true),
    .control (.send 0 true)]

def refused : State where
  tabs := [{ media := {
    attempts := [{ wantsVideo := true, left := 9, phase := .settled }]
    srActive := true
    lastV := some false
    lastA := some true
    emitted := [(0, ⟨.cam, true⟩), (0, ⟨.mic, true⟩), (0, ⟨.cam, false⟩)]
    uses := [0, 0] } }]
  control := {
    pages := [{
      socket := .opened 0
      posted := [⟨.cam, true⟩, ⟨.mic, true⟩, ⟨.cam, false⟩]
      sent := [(0, ⟨.cam, true⟩), (0, ⟨.mic, true⟩), (0, ⟨.cam, false⟩)] }]
    conns := [{
      page := 0
      handler := .reading
      taken := [⟨.cam, true⟩, ⟨.mic, true⟩, ⟨.cam, false⟩] }]
    members := [{
      since := [0]
      got := [(0, ⟨.cam, true⟩), (0, ⟨.mic, true⟩), (0, ⟨.cam, false⟩)] }]
    subs := [0] }

theorem reach_refused : Reach State.step Honest {} refused := by
  have hrun : runs State.step (fun _ e => honest e) isRefused asked = some refused := by
    decide +kernel
  exact reach_of_runs id reach_asked hrun

theorem told_in_turn_refused :
    told .cam [⟨.cam, true⟩, ⟨.mic, true⟩, ⟨.cam, false⟩] <:+: [true, false]
      ∧ (told .cam [⟨.cam, true⟩, ⟨.mic, true⟩, ⟨.cam, false⟩]).IsChain (· ≠ ·) :=
  told_in_turn reach_refused (k := 0) (c := 0) rfl rfl rfl .cam

/-- Where nothing of a page is on its way any more, a subscriber has the end of what its
script found. -/
theorem Inv.told_end (hinv : Inv s) (hk : s.control.members[k]? = some sub)
    (hsubs : k ∈ s.control.subs) (hc : s.control.conns[c]? = some conn) (hdrained : conn.Drained)
    {pg : Control.Page Signal} (hpg : s.control.pages[conn.page]? = some pg)
    (hsocket : pg.socket = .opened c) (hp : s.tabs[conn.page]? = some tab)
    (htasks : tab.tasks = []) (kind : Kind) :
    told kind (via c sub.got) <:+ tab.media.said kind := by
  have hcontrol := Control.inv_reach hinv.control
  have hpage := hcontrol.page _ _ hpg
  have hsent : pg.sent.map (·.2) = tab.media.emitted.map (·.2) := by
    have hposted := hinv.posted hpg hp
    rw [htasks, List.append_nil, hpage.posted, hpage.opened hsocket, List.append_nil] at hposted
    exact hposted
  have hgot : via c sub.got <:+ pg.sent.map (·.2) := by
    rw [hcontrol.drained hk hsubs hc hdrained hpg]
    refine (List.drop_suffix _ _).trans (Control.via_last hpage.inTurn ?_)
    exact (hpage.current (by rw [hsocket]; rfl)).2
  rw [← told_emitted, ← hsent]
  exact Bridge.told_end hgot kind

/-- **A subscriber ends up with what the page found last.** When nothing of a page is on
its way any more, what a subscriber in `SUBS` was told over the connection of the page is the
end of what its script found; a request for video that is not settled has put the camera
on. -/
theorem told_all (h : Reach State.step Honest {} s)
    (hk : s.control.members[k]? = some sub) (hsubs : k ∈ s.control.subs)
    (hc : s.control.conns[c]? = some conn) (hdrained : conn.Drained) {pg : Control.Page Signal}
    (hpg : s.control.pages[conn.page]? = some pg) (hsocket : pg.socket = .opened c)
    (hp : s.tabs[conn.page]? = some tab) (htasks : tab.tasks = []) :
    (∀ kind, told kind (via c sub.got) <:+ tab.media.said kind)
      ∧ ∀ a ∈ tab.media.attempts, a.inFlight = true → told .cam (via c sub.got) ≠ [] →
        (told .cam (via c sub.got)).getLast? = some true := by
  have hinv := inv_reach h
  have hsuffix := hinv.told_end hk hsubs hc hdrained hpg hsocket hp htasks
  refine ⟨hsuffix, fun a ha hinflight hne => ?_⟩
  obtain ⟨before, hbefore⟩ := hsuffix .cam
  have hlast : (tab.media.said .cam).getLast? = some true :=
    Media.said_latched (hinv.script _ _ hp) ha hinflight
  rw [← hbefore, List.getLast?_append_of_ne_nil _ hne] at hlast
  exact hlast

theorem told_all_asked : (∀ kind, told kind [⟨.cam, true⟩, ⟨.mic, true⟩] <:+
      (asked.tabs.map fun tab => tab.media.said kind).headD [])
    ∧ ∀ a ∈ [({ wantsVideo := true, left := 9 } : Media.Attempt)], a.inFlight = true →
      told .cam [⟨.cam, true⟩, ⟨.mic, true⟩] ≠ [] →
      (told .cam [⟨.cam, true⟩, ⟨.mic, true⟩]).getLast? = some true :=
  told_all reach_asked (k := 0) rfl (by decide) (c := 0) rfl ⟨rfl, rfl, rfl⟩ rfl rfl rfl rfl

end Told

end Bridge

end RbiProxy
