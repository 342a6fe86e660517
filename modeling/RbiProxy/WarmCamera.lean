import Mathlib.Data.List.Nodup
import RbiProxy.Indexed
import RbiProxy.Reach
import RbiProxy.ViewerScript

/-!
# The camera of the viewer

`rbiWarmCameraMSTP` is the script in the page of the viewer that opens the real camera of the
user. The first gesture asks for it. Once it is granted, an interval sends pictures over a
socket, and when the socket closes a timeout opens another one. `getUserMedia` is wrapped by
the page (`inject-head.html`): a stream of a virtual device is exchanged for one of a real
device, while other things happen.

The page has a second script for the camera, which waits for messages of the container. It
never gets that far, as the proxy sets `__rbi_cam` to the empty text.

`camera_warm` says that one stream is live at most, and that it has one link at any time: a
socket or a timeout. Nothing in the page ever switches the camera off again.
-/

namespace RbiProxy

namespace WarmCam

open Viewer

/-! ## The script -/

/-- The alternatives of the regular expression for `location.hostname`. -/
def camHosts : List GoString :=
  [lit "teams", lit "meet.google", lit "webcam", lit "zoom", lit "webex", lit "whereby",
    lit "skype", lit "jitsi"]

/-- The script goes as far as its listeners. -/
def listens (set : Settings) (hostname : GoString) : Bool :=
  decide (camURL set ≠ []) && camHosts.any fun name => contains (hostname.map lowerByte) name

/-- `WebSocket.readyState`, where a socket is closed once `onclose` has been called. -/
inductive ReadyState where
  | connecting
  | opened
  | closing
  | closed
deriving DecidableEq

/-- `WebSocket.close`. -/
def ReadyState.close : ReadyState → ReadyState
  | .connecting | .opened => .closing
  | r => r

/-- Where the call of `getUserMedia` is. -/
inductive Request where
  /-- `_gum(c)`. -/
  | asking
  /-- `_pickReal`, with a stream of a virtual device. -/
  | picking (k : Nat)
  /-- `_gum(nc)`. -/
  | again
deriving DecidableEq

/-- A picture on its way to the socket. -/
inductive Picture where
  /-- In `toBlob`. -/
  | drawn
  /-- In `arrayBuffer`. -/
  | buffering
  | done
deriving DecidableEq

structure State where
  started : Bool := false
  stream : Option Nat := none
  ws : Option Nat := none
  request : Option Request := none
  /-- The streams that the browser gave out, and whether the camera is live. -/
  streams : List Bool := []
  sockets : List ReadyState := []
  intervals : Nat := 0
  /-- The pending `setTimeout(connect,1500)`. -/
  timeouts : Nat := 0
  pictures : List Picture := []
  /-- The sockets and the pictures of `ws.send`. -/
  sent : List (Nat × Nat) := []
deriving DecidableEq

/-- `ok` is false where the constructor of the socket throws. -/
inductive Event where
  /-- A click, a key or a touch. -/
  | gesture
  | grant (isVirtual ok : Bool)
  | refuse
  /-- `enumerateDevices` has a real device, or has none. -/
  | picks (found ok : Bool)
  /-- The camera of a stream is taken away. -/
  | ends (k : Nat)
  | opens (k : Nat)
  | fails (k : Nat)
  | closes (k : Nat)
  | timeout (ok : Bool)
  /-- The interval; `ready` if the video has a picture. -/
  | tick (ready : Bool)
  /-- `toBlob` calls back, with a blob or `null`. -/
  | blob (f : Nat) (ok : Bool)
  | buffered (f : Nat)

namespace State

/-- The socket that pictures go to, if it is open. -/
def link (s : State) : Option Nat :=
  s.ws.filter fun k => decide (s.sockets[k]? = some .opened)

def connect (s : State) (ok : Bool) : State :=
  if s.stream = none then s
  else if ok then { s with ws := some s.sockets.length, sockets := s.sockets ++ [.connecting] }
  else { s with timeouts := s.timeouts + 1 }

/-- `go`. -/
def ask (s : State) : State :=
  if s.started then s else { s with started := true, request := some .asking }

/-- The promise is fulfilled. -/
def hold (s : State) (k : Nat) (ok : Bool) : State :=
  ({ s with request := none, stream := some k, intervals := s.intervals + 1 } : State).connect ok

/-- `ws.close()`, which throws if there is no socket. -/
def closeWs (s : State) : State :=
  match s.ws with
  | some k =>
    match s.sockets[k]? with
    | some r => { s with sockets := s.sockets.set k r.close }
    | none => s
  | none => s

def step (on : Bool) (s : State) : Event → Option State
  | .gesture => some (if on then s.ask else s)
  | .grant isVirtual ok =>
    let k := s.streams.length
    let t := { s with streams := s.streams ++ [true] }
    match s.request with
    | some .asking =>
      some (if isVirtual then { t with request := some (.picking k) } else t.hold k ok)
    | some .again => some (t.hold k ok)
    | _ => none
  | .refuse =>
    match s.request with
    | some .asking | some .again => some { s with request := none, started := false }
    | _ => none
  | .picks found ok =>
    match s.request with
    | some (.picking k) =>
      some (if found then { s with streams := s.streams.set k false, request := some .again }
        else s.hold k ok)
    | _ => none
  | .ends k => some { s with streams := s.streams.set k false }
  | .opens k =>
    if s.sockets[k]? = some .connecting then some { s with sockets := s.sockets.set k .opened }
    else none
  | .fails k =>
    match s.sockets[k]? with
    | none | some .closed => none
    -- the browser has given it up already when it calls `onerror`
    | some _ => some ({ s with sockets := s.sockets.set k .closing } : State).closeWs
  | .closes k =>
    match s.sockets[k]? with
    | none | some .closed => none
    | some _ =>
      let t := { s with sockets := s.sockets.set k .closed, ws := none }
      some (if s.stream.isSome then { t with timeouts := s.timeouts + 1 } else t)
  | .timeout ok =>
    if 0 < s.timeouts then some (({ s with timeouts := s.timeouts - 1 } : State).connect ok)
    else none
  | .tick ready =>
    if 0 < s.intervals then
      some (if s.link.isSome && ready then { s with pictures := s.pictures ++ [.drawn] } else s)
    else none
  | .blob f ok =>
    if s.pictures[f]? = some .drawn then
      let next := if ok && s.link.isSome then Picture.buffering else .done
      some { s with pictures := s.pictures.set f next }
    else none
  | .buffered f =>
    if s.pictures[f]? = some .buffering then
      let t := { s with pictures := s.pictures.set f .done }
      match s.link with
      | some k => some { t with sent := s.sent ++ [(k, f)] }
      | none => some t
    else none

end State

/-! ## The invariant -/

/-- The sockets that are not closed. -/
def State.openSockets (s : State) : Nat := s.sockets.countP fun r => decide (r ≠ .closed)

/-- What holds between two turns of the event loop, if the stream has `n` links. -/
structure Inv (on : Bool) (n : Nat) (s : State) : Prop where
  asked : s.started = true ∨ s.streams ≠ [] → on = true
  free : s.started = false → s.request = none ∧ s.stream = none
  settled : s.stream.isSome → s.request = none
  live : ∀ k, s.streams[k]? = some true → s.stream = some k ∨ s.request = some (.picking k)
  idle : s.stream = none →
    s.intervals = 0 ∧ s.timeouts = 0 ∧ s.ws = none ∧ s.sockets = [] ∧ s.pictures = []
  link : s.stream.isSome → s.intervals = 1 ∧ s.timeouts + s.openSockets = n
  ws : ∀ k r, s.sockets[k]? = some r → r ≠ .closed → s.ws = some k
  last : ∀ k, s.ws = some k → k + 1 = s.sockets.length ∧ ∃ r, s.sockets[k]? = some r ∧ r ≠ .closed
  order : (s.sent.map (·.1)).Pairwise (· ≤ ·)
  used : ∀ p ∈ s.sent, (∃ r, s.sockets[p.1]? = some r ∧ r ≠ .connecting)
    ∧ s.pictures[p.2]? = some .done
  once : (s.sent.map (·.2)).Nodup

section Steps

variable {on : Bool} {n : Nat} {s t : State}

/-- A socket that is not closed goes on. -/
theorem Inv.setSocket (h : Inv on n s) {k : Nat} {r r' : ReadyState}
    (hk : s.sockets[k]? = some r) (hr : r ≠ .closed) (hr' : r' ≠ .closed)
    (hused : r' ≠ .connecting) : Inv on n { s with sockets := s.sockets.set k r' } where
  asked := h.asked
  free := h.free
  settled := h.settled
  live := h.live
  idle hnone := by
    obtain ⟨-, -, -, hsockets, -⟩ := h.idle hnone
    rw [hsockets] at hk
    cases hk
  link hsome := by
    have hcount : (s.sockets.set k r').countP (fun r => decide (r ≠ .closed)) = s.openSockets :=
      Indexed.countP_set_same hk (by simp [hr, hr'])
    obtain ⟨hone, hlink⟩ := h.link hsome
    exact ⟨hone, by rw [State.openSockets, hcount, hlink]⟩
  ws j r₁ hj hr₁ := by
    rcases Indexed.of_set hj with ⟨rfl, -⟩ | ⟨-, hold⟩
    · exact h.ws _ r hk hr
    · exact h.ws j r₁ hold hr₁
  last j hj := by
    obtain ⟨hlast, r₁, hr₁, hne⟩ := h.last j hj
    refine ⟨by rw [List.length_set, hlast], ?_⟩
    by_cases heq : j = k
    · subst heq
      exact ⟨r', Indexed.set_self hk, hr'⟩
    · exact ⟨r₁, (Indexed.set_ne heq).trans hr₁, hne⟩
  order := h.order
  used p hp := by
    obtain ⟨⟨r₁, hr₁, hne⟩, hdone⟩ := h.used p hp
    refine ⟨?_, hdone⟩
    by_cases heq : p.1 = k
    · rw [heq]
      exact ⟨r', Indexed.set_self hk, hused⟩
    · exact ⟨r₁, (Indexed.set_ne heq).trans hr₁, hne⟩
  once := h.once

/-- The stream gets a link. -/
theorem Inv.connect (h : Inv on 0 s) (hsome : s.stream.isSome) (ok : Bool) :
    Inv on 1 (s.connect ok) := by
  obtain ⟨hone, hlink⟩ := h.link hsome
  have hnotNone : s.stream ≠ none := Option.isSome_iff_ne_none.mp hsome
  have hclosed : ∀ (k : Nat) (r : ReadyState), s.sockets[k]? = some r → r = .closed := by
    intro k r hk
    by_contra hne
    have hpos : 0 < s.openSockets :=
      List.countP_pos_iff.mpr ⟨r, List.mem_of_getElem? hk, decide_eq_true hne⟩
    omega
  unfold State.connect
  rw [if_neg hnotNone]
  split
  · refine ⟨h.asked, h.free, h.settled, h.live, fun hnone => absurd hnone hnotNone, fun _ => ?_,
      fun k r hk hr => ?_, fun k hk => ?_, h.order, fun p hp => ?_, h.once⟩
    · refine ⟨hone, ?_⟩
      have hcount : (s.sockets ++ [ReadyState.connecting]).countP
          (fun r => decide (r ≠ ReadyState.closed)) = s.openSockets + 1 := by
        rw [List.countP_append]
        rfl
      change s.timeouts + (s.sockets ++ [ReadyState.connecting]).countP
        (fun r => decide (r ≠ ReadyState.closed)) = 1
      omega
    · rcases Indexed.of_concat hk with hold | ⟨rfl, -⟩
      · exact absurd (hclosed k r hold) hr
      · rfl
    · obtain rfl := Option.some.inj hk
      refine ⟨by simp, .connecting, by simp, by decide⟩
    · obtain ⟨⟨r, hr, hne⟩, hdone⟩ := h.used p hp
      exact ⟨⟨r, Indexed.concat_old hr, hne⟩, hdone⟩
  · exact ⟨h.asked, h.free, h.settled, h.live, fun hnone => absurd hnone hnotNone,
      fun _ => ⟨hone, by change s.timeouts + 1 + s.openSockets = 1; omega⟩, h.ws, h.last, h.order,
      h.used, h.once⟩

/-- While the call is pending, nothing is held. -/
theorem Inv.started (h : Inv on 1 s) {r : Request} (hrequest : s.request = some r) :
    s.started = true ∧ s.stream = none := by
  constructor
  · by_contra hno
    have hnone := (h.free (Bool.eq_false_iff.mpr hno)).1
    rw [hrequest] at hnone
    cases hnone
  · by_contra hsome
    have hnone := h.settled (Option.isSome_iff_ne_none.mpr hsome)
    rw [hrequest] at hnone
    cases hnone

/-- The promise is fulfilled with the only stream that may be live. -/
theorem Inv.hold (h : Inv on 1 s) {r : Request} (hrequest : s.request = some r) {k : Nat}
    {streams : List Bool} (hlive : ∀ j, streams[j]? = some true → j = k)
    (ok : Bool) : Inv on 1 (({ s with streams } : State).hold k ok) := by
  obtain ⟨hstarted, hstream⟩ := h.started hrequest
  obtain ⟨hintervals, htimeouts, hws, hsockets, hpictures⟩ := h.idle hstream
  refine Inv.connect ?_ rfl ok
  refine ⟨fun _ => h.asked (.inl hstarted), fun hno => ?_, fun _ => rfl,
    fun j hj => .inl (by rw [hlive j hj]), nofun, fun _ => ?_, h.ws, h.last, h.order, h.used,
    h.once⟩
  · exact absurd hstarted (by simp [show s.started = false from hno])
  · refine ⟨by change s.intervals + 1 = 1; omega, ?_⟩
    change s.timeouts + s.sockets.countP _ = 0
    rw [hsockets, htimeouts]
    rfl

/-- While nothing is held, and no stream is being exchanged, none is live. -/
theorem Inv.dark (h : Inv on 1 s) {r : Request} (hrequest : s.request = some r)
    (hr : ∀ k, r ≠ .picking k) (k : Nat) : s.streams[k]? ≠ some true := by
  intro hk
  rcases h.live k hk with hstream | hpicking
  · have hnone := h.settled (by rw [hstream]; rfl)
    rw [hrequest] at hnone
    cases hnone
  · exact hr k (Option.some.inj (hrequest.symm.trans hpicking))

/-- What becomes of the camera leaves the link alone. -/
theorem Inv.setCamera (h : Inv on 1 s) {started : Bool} {request : Option Request}
    {streams : List Bool} (hasked : started = true ∨ streams ≠ [] → on = true)
    (hfree : started = false → request = none ∧ s.stream = none)
    (hsettled : s.stream.isSome → request = none)
    (hlive : ∀ k, streams[k]? = some true → s.stream = some k ∨ request = some (.picking k)) :
    Inv on 1 { s with started, request, streams } where
  asked := hasked
  free := hfree
  settled := hsettled
  live := hlive
  idle := h.idle
  link := h.link
  ws := h.ws
  last := h.last
  order := h.order
  used := h.used
  once := h.once

theorem Inv.ask (h : Inv on 1 s) (hon : on = true) : Inv on 1 s.ask := by
  unfold State.ask
  split
  · exact h
  · rename_i hstarted
    obtain ⟨hrequest, hstream⟩ := h.free (Bool.eq_false_iff.mpr hstarted)
    refine h.setCamera (fun _ => hon) nofun (fun hsome => ?_) fun k hk => .inl ?_
    · rw [hstream] at hsome
      cases hsome
    · rcases h.live k hk with hlive | hpicking
      · exact hlive
      · rw [hrequest] at hpicking
        cases hpicking

theorem Inv.refuse (h : Inv on 1 s) {r : Request} (hrequest : s.request = some r)
    (hr : ∀ k, r ≠ .picking k) : Inv on 1 { s with request := none, started := false } := by
  obtain ⟨hstarted, hstream⟩ := h.started hrequest
  exact h.setCamera (fun _ => h.asked (.inl hstarted)) (fun _ => ⟨rfl, hstream⟩) (fun _ => rfl)
    fun k hk => absurd hk (h.dark hrequest hr k)

/-- A request goes on with the streams as they are then. -/
theorem Inv.requests (h : Inv on 1 s) {r r' : Request} (hrequest : s.request = some r)
    {streams : List Bool} (hlive : ∀ k, streams[k]? = some true → r' = .picking k) :
    Inv on 1 { s with streams, request := some r' } := by
  obtain ⟨hstarted, hstream⟩ := h.started hrequest
  refine h.setCamera (fun _ => h.asked (.inl hstarted)) (fun hno => ?_) (fun hsome => ?_)
    fun k hk => .inr (congrArg some (hlive k hk))
  · rw [hstarted] at hno
    cases hno
  · rw [hstream] at hsome
    cases hsome

/-- The camera is taken away. -/
theorem Inv.ends (h : Inv on 1 s) (k : Nat) :
    Inv on 1 { s with streams := s.streams.set k false } := by
  refine h.setCamera (fun hor => ?_) h.free h.settled fun j hj => ?_
  · exact h.asked (hor.imp_right fun hne heq => hne (by rw [heq]; rfl))
  · rcases Indexed.of_set hj with ⟨-, hno⟩ | ⟨-, hold⟩
    · cases hno
    · exact h.live j hold

theorem Inv.closeWs (h : Inv on 1 s) : Inv on 1 s.closeWs := by
  unfold State.closeWs
  split
  · rename_i k hk
    split
    · rename_i r hr
      obtain ⟨-, r', hr', hne⟩ := h.last k hk
      obtain rfl := Option.some.inj (hr.symm.trans hr')
      refine h.setSocket hr hne ?_ ?_
      · cases r with
        | closed => exact absurd rfl hne
        | connecting | opened | closing => exact nofun
      · cases r <;> exact nofun
    · exact h
  · exact h

/-- A socket that is not closed belongs to the stream. -/
theorem Inv.holds (h : Inv on 1 s) {k : Nat} {r : ReadyState} (hk : s.sockets[k]? = some r) :
    s.stream.isSome := by
  by_contra hno
  obtain ⟨-, -, -, hsockets, -⟩ := h.idle (Option.not_isSome_iff_eq_none.mp hno)
  rw [hsockets] at hk
  cases hk

theorem Inv.closes (h : Inv on 1 s) {k : Nat} {r : ReadyState} (hk : s.sockets[k]? = some r)
    (hr : r ≠ .closed) :
    Inv on 1 { s with
      sockets := s.sockets.set k .closed, ws := none, timeouts := s.timeouts + 1 } where
  asked := h.asked
  free := h.free
  settled := h.settled
  live := h.live
  idle hnone := by
    have hsome := h.holds hk
    rw [show s.stream = none from hnone] at hsome
    cases hsome
  link hsome := by
    obtain ⟨hone, hlink⟩ := h.link hsome
    have hlost : s.openSockets
        = (s.sockets.set k .closed).countP (fun r => decide (r ≠ .closed)) + 1 :=
      Indexed.countP_set_lost hk (by simp [hr]) rfl
    refine ⟨hone, ?_⟩
    change s.timeouts + 1 + (s.sockets.set k .closed).countP (fun r => decide (r ≠ .closed)) = 1
    omega
  ws j r' hj hr' := by
    rcases Indexed.of_set hj with ⟨-, rfl⟩ | ⟨hne, hold⟩
    · exact absurd rfl hr'
    · exact absurd (Option.some.inj ((h.ws j r' hold hr').symm.trans (h.ws k r hk hr))) hne
  last := nofun
  order := h.order
  used p hp := by
    obtain ⟨⟨r', hr', hne⟩, hdone⟩ := h.used p hp
    refine ⟨?_, hdone⟩
    by_cases heq : p.1 = k
    · rw [heq]
      exact ⟨.closed, Indexed.set_self hk, nofun⟩
    · exact ⟨r', (Indexed.set_ne heq).trans hr', hne⟩
  once := h.once

theorem Inv.timeout (h : Inv on 1 s) (htimeouts : 0 < s.timeouts) (ok : Bool) :
    Inv on 1 (({ s with timeouts := s.timeouts - 1 } : State).connect ok) := by
  have hsome : s.stream.isSome := by
    by_contra hno
    have hidle := h.idle (Option.not_isSome_iff_eq_none.mp hno)
    omega
  have hfree : Inv on 0 { s with timeouts := s.timeouts - 1 } := by
    refine ⟨h.asked, h.free, h.settled, h.live, fun hnone => ?_, fun _ => ?_, h.ws, h.last, h.order,
      h.used, h.once⟩
    · rw [show s.stream = none from hnone] at hsome
      cases hsome
    · obtain ⟨hone, hlink⟩ := h.link hsome
      refine ⟨hone, ?_⟩
      change s.timeouts - 1 + s.openSockets = 0
      omega
  exact hfree.connect hsome ok

/-- The pictures that were sent stay done. -/
theorem Inv.setPictures (h : Inv on 1 s) (hsome : s.stream.isSome) {pictures : List Picture}
    (hdone : ∀ f : Nat, s.pictures[f]? = some .done → pictures[f]? = some .done) :
    Inv on 1 { s with pictures } where
  asked := h.asked
  free := h.free
  settled := h.settled
  live := h.live
  idle hnone := by
    rw [show s.stream = none from hnone] at hsome
    cases hsome
  link := h.link
  ws := h.ws
  last := h.last
  order := h.order
  used p hp := ⟨(h.used p hp).1, hdone _ (h.used p hp).2⟩
  once := h.once

theorem Inv.drawing (h : Inv on 1 s) {f : Nat} {p : Picture} (hf : s.pictures[f]? = some p) :
    s.stream.isSome := by
  by_contra hno
  obtain ⟨-, -, -, -, hpictures⟩ := h.idle (Option.not_isSome_iff_eq_none.mp hno)
  rw [hpictures] at hf
  cases hf

theorem Inv.changes (h : Inv on 1 s) {f : Nat} {p p' : Picture} (hf : s.pictures[f]? = some p)
    (hp : p ≠ .done) : Inv on 1 { s with pictures := s.pictures.set f p' } := by
  refine h.setPictures (h.drawing hf) fun g hg => ?_
  by_cases heq : g = f
  · rw [heq, hf] at hg
    exact absurd (Option.some.inj hg) hp
  · exact (Indexed.set_ne heq).trans hg

theorem link_eq_some {k : Nat} :
    s.link = some k ↔ s.ws = some k ∧ s.sockets[k]? = some .opened := by
  simp [State.link, Option.filter_eq_some_iff]

/-- The first time that a picture is sent, and on a socket that is as new as any before. -/
theorem Inv.sends (h : Inv on 1 s) {f k : Nat} (hf : s.pictures[f]? = some .buffering)
    (hlink : s.link = some k) :
    Inv on 1 { s with pictures := s.pictures.set f .done, sent := s.sent ++ [(k, f)] } := by
  obtain ⟨hws, hopen⟩ := link_eq_some.mp hlink
  have hdone : Inv on 1 { s with pictures := s.pictures.set f .done } := h.changes hf nofun
  refine ⟨h.asked, h.free, h.settled, h.live, hdone.idle, h.link, h.ws, h.last, ?_, fun p hp => ?_,
    ?_⟩
  · rw [List.map_append, List.pairwise_append]
    refine ⟨h.order, List.pairwise_singleton _ _, fun j hj k' hk' => ?_⟩
    obtain ⟨p, hp, rfl⟩ := List.mem_map.mp hj
    obtain ⟨⟨r, hr, -⟩, -⟩ := h.used p hp
    have hlt := (List.getElem?_eq_some_iff.mp hr).1
    have hlast := (h.last k hws).1
    rw [List.mem_singleton.mp hk']
    change p.1 ≤ k
    omega
  · rcases List.mem_append.mp hp with hold | hnew
    · exact hdone.used p hold
    · obtain rfl := List.mem_singleton.mp hnew
      exact ⟨⟨.opened, hopen, nofun⟩, Indexed.set_self hf⟩
  · rw [List.map_append]
    refine List.nodup_append.mpr ⟨h.once, List.nodup_singleton _, fun g hg f' hf' heq => ?_⟩
    obtain ⟨p, hp, rfl⟩ := List.mem_map.mp hg
    rw [List.mem_singleton.mp hf'] at heq
    have hwas := (h.used p hp).2
    rw [show p.2 = f from heq, hf] at hwas
    cases hwas

theorem inv_step (h : Inv on 1 s) {e : Event} (hstep : s.step on e = some t) : Inv on 1 t := by
  cases e with
  | gesture =>
    obtain rfl := Option.some.inj hstep
    split
    · rename_i hon
      exact h.ask hon
    · exact h
  | grant isVirtual ok =>
    rw [State.step] at hstep
    have hnew : ∀ {r}, s.request = some r → (∀ k, r ≠ .picking k) →
        ∀ j, (s.streams ++ [true])[j]? = some true → j = s.streams.length := by
      intro r hrequest hr j hj
      rcases Indexed.of_concat hj with hold | ⟨rfl, -⟩
      · exact absurd hold (h.dark hrequest hr j)
      · rfl
    split at hstep
    case h_1 hrequest =>
      have hlive := hnew hrequest nofun
      obtain rfl := Option.some.inj hstep
      split
      · exact h.requests hrequest fun k hk => by rw [hlive k hk]
      · exact h.hold hrequest hlive ok
    case h_2 hrequest =>
      obtain rfl := Option.some.inj hstep
      exact h.hold hrequest (hnew hrequest nofun) ok
    case h_3 => cases hstep
  | refuse =>
    rw [State.step] at hstep
    split at hstep
    case h_1 hrequest | h_2 hrequest =>
      obtain rfl := Option.some.inj hstep
      exact h.refuse hrequest nofun
    case h_3 => cases hstep
  | picks found ok =>
    rw [State.step] at hstep
    split at hstep
    case h_1 k hrequest =>
      have hlive : ∀ j, s.streams[j]? = some true → j = k := by
        intro j hj
        rcases h.live j hj with hstream | hpicking
        · rw [(h.started hrequest).2] at hstream
          cases hstream
        · exact (Request.picking.inj (Option.some.inj (hrequest.symm.trans hpicking))).symm
      obtain rfl := Option.some.inj hstep
      split
      · refine h.requests hrequest fun j hj => ?_
        rcases Indexed.of_set hj with ⟨-, hno⟩ | ⟨hne, hold⟩
        · cases hno
        · exact absurd (hlive j hold) hne
      · exact h.hold hrequest hlive ok
    case h_2 => cases hstep
  | ends k =>
    obtain rfl := Option.some.inj hstep
    exact h.ends k
  | opens k =>
    rw [State.step] at hstep
    split at hstep
    case isTrue hk =>
      obtain rfl := Option.some.inj hstep
      exact h.setSocket hk nofun nofun nofun
    case isFalse => cases hstep
  | fails k =>
    rw [State.step] at hstep
    split at hstep
    case h_3 r hne hk =>
      obtain rfl := Option.some.inj hstep
      have hgone : Inv on 1 { s with sockets := s.sockets.set k .closing } :=
        h.setSocket hk hne nofun nofun
      exact hgone.closeWs
    all_goals cases hstep
  | closes k =>
    rw [State.step] at hstep
    split at hstep
    case h_3 r hne hk =>
      obtain rfl := Option.some.inj hstep
      dsimp only
      rw [if_pos (h.holds hk)]
      exact h.closes hk hne
    all_goals cases hstep
  | timeout ok =>
    rw [State.step] at hstep
    split at hstep
    case isTrue htimeouts =>
      obtain rfl := Option.some.inj hstep
      exact h.timeout htimeouts ok
    case isFalse => cases hstep
  | tick ready =>
    rw [State.step] at hstep
    split at hstep
    case isTrue hset =>
      obtain rfl := Option.some.inj hstep
      split
      · have hsome : s.stream.isSome := by
          by_contra hno
          have hidle := h.idle (Option.not_isSome_iff_eq_none.mp hno)
          omega
        exact h.setPictures hsome fun f hf => Indexed.concat_old hf
      · exact h
    case isFalse => cases hstep
  | blob f ok =>
    rw [State.step] at hstep
    split at hstep
    case isTrue hf =>
      obtain rfl := Option.some.inj hstep
      exact h.changes hf nofun
    case isFalse => cases hstep
  | buffered f =>
    rw [State.step] at hstep
    split at hstep
    case isTrue hf =>
      dsimp only at hstep
      split at hstep
      · rename_i k hlink
        obtain rfl := Option.some.inj hstep
        exact h.sends hf hlink
      · obtain rfl := Option.some.inj hstep
        exact h.changes hf nofun
    case isFalse => cases hstep

theorem inv_empty : Inv on 1 {} where
  asked hor := by
    rcases hor with hno | hno
    · cases hno
    · exact absurd rfl hno
  free _ := ⟨rfl, rfl⟩
  settled _ := rfl
  live k hk := by cases hk
  idle _ := ⟨rfl, rfl, rfl, rfl, rfl⟩
  link hno := by cases hno
  ws k r hk := by cases hk
  last k hk := by cases hk
  order := .nil
  used p hp := by cases hp
  once := List.nodup_nil

theorem inv_reach (h : Reach (State.step on) anyStep {} s) : Inv on 1 s :=
  h.invariant inv_empty fun hinv _ hstep => inv_step hinv hstep

end Steps

/-! ## Every run -/

/-- What holds at any time. -/
structure State.Sound (on : Bool) (s : State) : Prop where
  /-- Nothing is asked for where the script has no listeners. -/
  asked : s.started = true ∨ s.streams ≠ [] → on = true
  /-- One stream is live at most: the one that is held, or before that a virtual one. -/
  live : ∀ k, s.streams[k]? = some true →
    s.stream = some k ∨ s.stream = none ∧ s.request = some (.picking k)
  /-- A refusal leaves nothing behind, and the next gesture asks again. -/
  free : s.started = false → s.request = none ∧ s.stream = none
  /-- Without a stream there is nothing to send and nowhere to send it. -/
  idle : s.stream = none → s.intervals = 0 ∧ s.timeouts = 0 ∧ s.sockets = [] ∧ s.pictures = []
  /-- A stream has one interval, and either a socket that is not closed or a timeout. -/
  link : s.stream.isSome → s.intervals = 1 ∧ s.timeouts + s.openSockets = 1
  /-- Pictures go over one socket after the other, and each of them once. -/
  order : (s.sent.map (·.1)).Pairwise (· ≤ ·)
  once : (s.sent.map (·.2)).Nodup
  used : ∀ p ∈ s.sent, p.1 < s.sockets.length ∧ p.2 < s.pictures.length

section Runs

variable {on : Bool} {s t : State}

@[simp] theorem connect_held (ok : Bool) : (s.connect ok).stream = s.stream
    ∧ (s.connect ok).streams = s.streams := by
  unfold State.connect
  split
  · exact ⟨rfl, rfl⟩
  · split <;> exact ⟨rfl, rfl⟩

@[simp] theorem closeWs_held : s.closeWs.stream = s.stream ∧ s.closeWs.streams = s.streams := by
  unfold State.closeWs
  split
  · split <;> exact ⟨rfl, rfl⟩
  · exact ⟨rfl, rfl⟩

theorem Inv.sound (h : Inv on 1 s) : s.Sound on where
  asked := h.asked
  live k hk := by
    cases hstream : s.stream with
    | none =>
      rcases h.live k hk with hno | hpicking
      · rw [hstream] at hno
        cases hno
      · exact .inr ⟨rfl, hpicking⟩
    | some j =>
      rcases h.live k hk with hsame | hpicking
      · exact .inl (hstream.symm.trans hsame)
      · have hnone := h.settled (by rw [hstream]; rfl)
        rw [hnone] at hpicking
        cases hpicking
  free := h.free
  idle hnone := by
    obtain ⟨hintervals, htimeouts, -, hsockets, hpictures⟩ := h.idle hnone
    exact ⟨hintervals, htimeouts, hsockets, hpictures⟩
  link := h.link
  order := h.order
  once := h.once
  used p hp := by
    obtain ⟨⟨r, hr, -⟩, hdone⟩ := h.used p hp
    exact ⟨(List.getElem?_eq_some_iff.mp hr).1, (List.getElem?_eq_some_iff.mp hdone).1⟩

/-- No step of the page gives up the stream that it holds. -/
theorem Inv.keeps (h : Inv on 1 s) {k : Nat} (hk : s.stream = some k) {e : Event}
    (hstep : s.step on e = some t) : t.stream = some k
      ∧ (e ≠ .ends k → s.streams[k]? = some true → t.streams[k]? = some true) := by
  have hrequest := h.settled (by rw [hk]; rfl)
  have hsame : ∀ {u : State}, u.stream = s.stream ∧ u.streams = s.streams → u.stream = some k
      ∧ (e ≠ .ends k → s.streams[k]? = some true → u.streams[k]? = some true) :=
    fun hu => ⟨hu.1.trans hk, fun _ hlive => by rw [hu.2, hlive]⟩
  cases e with
  | gesture =>
    have hstarted : s.started = true := by
      by_contra hno
      have hnone := (h.free (Bool.eq_false_iff.mpr hno)).2
      rw [hk] at hnone
      cases hnone
    obtain rfl := Option.some.inj hstep
    refine hsame ?_
    split
    · rw [State.ask, if_pos hstarted]
      exact ⟨rfl, rfl⟩
    · exact ⟨rfl, rfl⟩
  | grant | refuse | picks =>
    rw [State.step, hrequest] at hstep
    cases hstep
  | ends j =>
    obtain rfl := Option.some.inj hstep
    refine ⟨hk, fun hne hlive => ?_⟩
    have hkj : k ≠ j := fun heq => hne (by rw [heq])
    exact (Indexed.set_ne hkj).trans hlive
  | opens | blob =>
    rw [State.step] at hstep
    split at hstep
    case isTrue =>
      obtain rfl := Option.some.inj hstep
      exact hsame ⟨rfl, rfl⟩
    case isFalse => cases hstep
  | fails =>
    rw [State.step] at hstep
    split at hstep
    case h_3 =>
      obtain rfl := Option.some.inj hstep
      exact hsame closeWs_held
    all_goals cases hstep
  | closes =>
    rw [State.step] at hstep
    split at hstep
    case h_3 =>
      obtain rfl := Option.some.inj hstep
      refine hsame ?_
      split <;> exact ⟨rfl, rfl⟩
    all_goals cases hstep
  | tick =>
    rw [State.step] at hstep
    split at hstep
    case isTrue =>
      obtain rfl := Option.some.inj hstep
      refine hsame ?_
      split <;> exact ⟨rfl, rfl⟩
    case isFalse => cases hstep
  | timeout =>
    rw [State.step] at hstep
    split at hstep
    case isTrue =>
      obtain rfl := Option.some.inj hstep
      exact hsame (connect_held _)
    case isFalse => cases hstep
  | buffered =>
    rw [State.step] at hstep
    split at hstep
    case isTrue =>
      dsimp only at hstep
      split at hstep <;> exact Option.some.inj hstep ▸ hsame ⟨rfl, rfl⟩
    case isFalse => cases hstep

/-- The script holds a live stream. -/
structure Holds (on : Bool) (k : Nat) (s : State) : Prop where
  inv : Inv on 1 s
  stream : s.stream = some k
  live : s.streams[k]? = some true

theorem Holds.step {k : Nat} (h : Holds on k s) {e : Event} (he : e ≠ .ends k)
    (hstep : s.step on e = some t) : Holds on k t := by
  obtain ⟨hstream, hlive⟩ := h.inv.keeps h.stream hstep
  exact ⟨inv_step h.inv hstep, hstream, hlive he h.live⟩

/-- **The camera is warm.** In every run at most one stream is live and has one link; and once
the script holds a stream, it goes on holding it, live, for as long as nobody takes the camera
away. -/
theorem camera_warm {set : Settings} {hostname : GoString}
    (h : Reach (State.step (listens set hostname)) anyStep {} s) :
    s.Sound (listens set hostname)
      ∧ ∀ {k t}, s.stream = some k → s.streams[k]? = some true →
        Reach (State.step (listens set hostname)) (fun _ e => e ≠ .ends k) s t →
        t.stream = some k ∧ t.streams[k]? = some true := by
  have hinv := inv_reach h
  refine ⟨hinv.sound, fun {k t} hk hlive hrun => ?_⟩
  have hkept : Holds (listens set hostname) k t :=
    hrun.invariant ⟨hinv, hk, hlive⟩ fun hholds hne hstep => hholds.step hne hstep
  exact ⟨hkept.stream, hkept.live⟩

/-- A viewer of a meeting, who gets a virtual device first. -/
def meeting : Settings where
  printTable _ := false
  nat1to1 := lit "192.0.2.1"
  rbiWarmMic := []
  rbiWarmCameraMSTP := []

/-- Two pictures are sent, and the socket closes between them. -/
def twoPictures : List Event :=
  [.gesture, .grant true true, .picks true true, .grant false true, .opens 0, .tick true,
    .blob 0 true, .buffered 0, .tick true, .blob 1 true, .fails 0, .closes 0, .gesture,
    .timeout true, .opens 1, .buffered 1]

def reconnected : State where
  started := true
  stream := some 1
  ws := some 1
  streams := [false, true]
  sockets := [.closed, .opened]
  intervals := 1
  pictures := [.done, .done]
  sent := [(0, 0), (1, 1)]

/-- The page of the viewer has the host name of the site. -/
def meetingHost : GoString := lit "Teams.live.com"

theorem camera_warm_reconnected :
    Reach (State.step (listens meeting meetingHost)) anyStep {} reconnected
      ∧ reconnected.Sound true
      ∧ ∀ t, Reach (State.step true) (fun _ e => e ≠ .ends 1) reconnected t →
        t.stream = some 1 ∧ t.streams[1]? = some true := by
  have hon : listens meeting meetingHost = true := by decide +kernel
  have hrun : runs (State.step (listens meeting meetingHost)) (fun _ _ => true) twoPictures {}
      = some reconnected := by
    decide +kernel
  have hreach : Reach (State.step (listens meeting meetingHost)) anyStep {} reconnected :=
    reach_of_runs (fun _ => trivial) .init hrun
  obtain ⟨hsound, hkeeps⟩ := camera_warm hreach
  rw [hon] at hsound hkeeps
  exact ⟨hreach, hsound, fun t => hkeeps rfl rfl⟩

end Runs

end WarmCam

end RbiProxy
