import Mathlib.Data.List.Chain
import RbiProxy.Indexed
import RbiProxy.Reach

/-!
# What an isolated page says about its camera and microphone

`inject.js` runs in the page. It keeps the tracks that `getUserMedia` gave out, the
number of video requests that are not settled yet (`vInflight`), and whether a speech
recognition listens (`srActive`). `poll` looks at all of them, every quarter of a second
and at some of the changes, and posts a message when the camera or the microphone is
used that was not, or the other way round. A video request that fails because the device
is not there yet is repeated, nine times at most. The microphone is kept on for thirty
seconds after a poll that found it unused, unless one finds it used again.

Time is in milliseconds. Which track ends or is muted when, what `getUserMedia` answers
and how late a timer fires is up to the environment.

`camera_told` and `mic_told` say what holds after any run: the count of requests is exact,
the messages about one device alternate, a video request in flight has the camera on, and
the microphone is switched off at the earliest thirty seconds after the last poll that
found it in use.
-/

namespace RbiProxy

namespace Media

/-! ## The page -/

inductive Kind where
  | cam
  | mic
deriving DecidableEq

/-- `emit(kind, on)`. -/
structure Signal where
  kind : Kind
  on : Bool
deriving DecidableEq

/-- A track of a stream that `getUserMedia` gave out. -/
structure Track where
  /-- `readyState === "live"`. -/
  live : Bool := true
  enabled : Bool := true
deriving DecidableEq

inductive Phase where
  /-- `orig(c)` has not answered. -/
  | asking
  /-- `setTimeout(r, 700)`. -/
  | sleeping (until_ : Nat)
  | settled
deriving DecidableEq

structure Attempt where
  wantsVideo : Bool
  left : Nat
  phase : Phase := .asking
deriving DecidableEq

/-- Whether the call still counts in `vInflight`. -/
def Attempt.inFlight (a : Attempt) : Bool := a.wantsVideo && decide (a.phase ≠ .settled)

structure State where
  now : Nat := 0
  tracks : List Track := []
  vtracks : List Nat := []
  atracks : List Nat := []
  attempts : List Attempt := []
  vInflight : Nat := 0
  srActive : Bool := false
  srOffTimer : Option Nat := none
  micOffTimer : Option Nat := none
  lastV : Option Bool := none
  lastA : Option Bool := none
  /-- The messages posted, with their times. -/
  emitted : List (Nat × Signal) := []
  /-- When a poll found the microphone in use. -/
  uses : List Nat := []
deriving DecidableEq

inductive Event where
  | pass (ms : Nat)
  /-- `setInterval(poll, 250)`. -/
  | poll
  /-- The page calls `getUserMedia`. -/
  | getUserMedia (wantsVideo : Bool)
  /-- A call is answered with a stream of so many tracks. -/
  | grant (i : Nat) (videos audios : Nat)
  /-- A call is answered with an error; `retries` says that its name is one of those
  that are worth another try. -/
  | refuse (i : Nat) (retries : Bool)
  /-- The next try of a call. -/
  | retry (i : Nat)
  /-- A track ends. -/
  | ends (k : Nat)
  /-- `track.enabled` is assigned. -/
  | enable (k : Nat) (on : Bool)
  /-- `start` of a speech recognition. -/
  | srStart
  /-- A recognition that was started ends. -/
  | srEnd
  | srOff
  | micOff

/-! ## The script -/

namespace State

def emit (s : State) (kind : Kind) (on : Bool) : State :=
  { s with emitted := s.emitted ++ [(s.now, ⟨kind, on⟩)] }

def live (s : State) (k : Nat) : Bool := (s.tracks[k]?).any (·.live)

/-- A track that is live and not muted. -/
def running (s : State) (k : Nat) : Bool := (s.tracks[k]?).any fun t => t.live && t.enabled

def vOn (s : State) : Bool := decide (0 < s.vInflight) || s.vtracks.any s.running

def aOn (s : State) : Bool := s.srActive || s.atracks.any s.running

/-- The first half of `poll`, about the camera. -/
def pollV (s : State) : State :=
  let on := s.vOn
  let s := { s with vtracks := s.vtracks.filter s.live }
  if s.lastV ≠ some on then { s with lastV := some on }.emit .cam on else s

/-- The second half, about the microphone. -/
def pollA (s : State) : State :=
  let on := s.aOn
  let s := { s with atracks := s.atracks.filter s.live }
  if on then
    let s := { s with micOffTimer := none, uses := s.uses ++ [s.now] }
    if s.lastA ≠ some true then { s with lastA := some true }.emit .mic true else s
  else if s.lastA = some true ∧ s.micOffTimer = none then
    { s with micOffTimer := some (s.now + 30000) }
  else s

def poll (s : State) : State := s.pollV.pollA

def settle (s : State) (wantsVideo : Bool) : State :=
  if wantsVideo then { s with vInflight := s.vInflight - 1 }.poll else s

def setAttempt (s : State) (i : Nat) (a : Attempt) : State :=
  { s with attempts := s.attempts.set i a }

def addTracks (s : State) (videos audios : Nat) : State :=
  let n := s.tracks.length
  { s with
    tracks := s.tracks ++ List.replicate (videos + audios) {}
    vtracks := s.vtracks ++ (List.range videos).map (n + ·)
    atracks := s.atracks ++ (List.range audios).map (n + videos + ·) }

def setTrack (s : State) (k : Nat) (f : Track → Track) : Option State :=
  (s.tracks[k]?).map fun t => { s with tracks := s.tracks.set k (f t) }

def step (s : State) : Event → Option State
  | .pass ms => some { s with now := s.now + ms }
  | .poll => some s.poll
  | .getUserMedia wantsVideo =>
    let left := if wantsVideo then 9 else 0
    let s := { s with attempts := s.attempts ++ [{ wantsVideo, left }] }
    some (if wantsVideo then { s with vInflight := s.vInflight + 1 }.poll else s)
  | .grant i videos audios =>
    match s.attempts[i]? with
    | some a =>
      if a.phase = .asking then
        some (((s.addTracks videos audios).setAttempt i { a with phase := .settled }).settle
          a.wantsVideo).poll
      else none
    | none => none
  | .refuse i retries =>
    match s.attempts[i]? with
    | some a =>
      if a.phase = .asking then
        if a.wantsVideo ∧ 0 < a.left ∧ retries then
          some (s.setAttempt i { a with phase := .sleeping (s.now + 700) })
        else some ((s.setAttempt i { a with phase := .settled }).settle a.wantsVideo)
      else none
    | none => none
  | .retry i =>
    match s.attempts[i]? with
    | some a =>
      match a.phase with
      | .sleeping t =>
        if t ≤ s.now then some (s.setAttempt i { a with phase := .asking, left := a.left - 1 })
        else none
      | _ => none
    | none => none
  | .ends k => s.setTrack k fun t => { t with live := false }
  | .enable k on => s.setTrack k fun t => { t with enabled := on }
  | .srStart => some { s with srActive := true, srOffTimer := none }.poll
  | .srEnd => some { s with srOffTimer := some (s.now + 4000) }
  | .srOff =>
    match s.srOffTimer with
    | some t =>
      if t ≤ s.now then some { s with srActive := false, srOffTimer := none }.poll else none
    | none => none
  | .micOff =>
    match s.micOffTimer with
    | some t =>
      if t ≤ s.now then some ({ s with micOffTimer := none, lastA := some false }.emit .mic false)
      else none
    | none => none

/-- What was posted about a device. -/
def said (s : State) (kind : Kind) : List Bool :=
  (s.emitted.filter fun x => x.2.kind == kind).map (·.2.on)

end State

/-! ## What a step does -/

section Steps

variable {s t s₁ : State}

@[simp] theorem said_emit (kind : Kind) (on : Bool) :
    (s.emit kind on).said kind = s.said kind ++ [on] := by
  simp [State.said, State.emit]

theorem said_emit_ne {kind other : Kind} (h : kind ≠ other) (on : Bool) :
    (s.emit kind on).said other = s.said other := by
  simp [State.said, State.emit, h]

/-- Nothing is posted and no timer of the microphone is touched. -/
structure Quiet (s s₁ : State) : Prop where
  now : s.now ≤ s₁.now
  emitted : s₁.emitted = s.emitted
  uses : s₁.uses = s.uses
  micOffTimer : s₁.micOffTimer = s.micOffTimer
  lastV : s₁.lastV = s.lastV
  lastA : s₁.lastA = s.lastA
  count : s.vInflight = s.attempts.countP Attempt.inFlight →
    s₁.vInflight = s₁.attempts.countP Attempt.inFlight

theorem Quiet.keeps (hnow : s.now ≤ s₁.now) (hemitted : s₁.emitted = s.emitted)
    (huses : s₁.uses = s.uses) (htimer : s₁.micOffTimer = s.micOffTimer)
    (hlastV : s₁.lastV = s.lastV) (hlastA : s₁.lastA = s.lastA)
    (hinflight : s₁.vInflight = s.vInflight) (hattempts : s₁.attempts = s.attempts) :
    Quiet s s₁ :=
  ⟨hnow, hemitted, huses, htimer, hlastV, hlastA, fun hcount => by
    rw [hinflight, hattempts]
    exact hcount⟩

theorem Quiet.goesOn {i : Nat} {a a' : Attempt} (ha : s.attempts[i]? = some a)
    (hsame : a'.inFlight = a.inFlight) : Quiet s (s.setAttempt i a') :=
  ⟨Nat.le_refl _, rfl, rfl, rfl, rfl, rfl,
    fun hcount => hcount.trans (Indexed.countP_set_same ha hsame).symm⟩

/-- A call with video is answered and counts no longer. -/
theorem Quiet.settles {i : Nat} {a : Attempt} (ha : s.attempts[i]? = some a)
    (hphase : a.phase = .asking) (hvideo : a.wantsVideo = true) :
    Quiet s { s.setAttempt i { a with phase := .settled } with vInflight := s.vInflight - 1 } := by
  refine ⟨Nat.le_refl _, rfl, rfl, rfl, rfl, rfl, fun hcount => ?_⟩
  have hold : a.inFlight = true := by simp [Attempt.inFlight, hvideo, hphase]
  have hnew : Attempt.inFlight { a with phase := .settled } = false := by simp [Attempt.inFlight]
  have hset := Indexed.countP_set_lost ha hold hnew
  change s.vInflight - 1 = (s.attempts.set i { a with phase := .settled }).countP Attempt.inFlight
  rw [hcount, hset, Nat.add_sub_cancel]

theorem Quiet.calls (wantsVideo : Bool) (left : Nat) :
    Quiet s { s with
      attempts := s.attempts ++ [{ wantsVideo, left }]
      vInflight := if wantsVideo then s.vInflight + 1 else s.vInflight } := by
  refine ⟨Nat.le_refl _, rfl, rfl, rfl, rfl, rfl, fun hcount => ?_⟩
  change (if wantsVideo then s.vInflight + 1 else s.vInflight)
    = (s.attempts ++ [({ wantsVideo, left } : Attempt)]).countP Attempt.inFlight
  rw [List.countP_append, ← hcount]
  cases wantsVideo <;> rfl

theorem Quiet.trans (h : Quiet s s₁) (h' : Quiet s₁ t) : Quiet s t :=
  ⟨Nat.le_trans h.now h'.now, h'.emitted.trans h.emitted, h'.uses.trans h.uses,
    h'.micOffTimer.trans h.micOffTimer, h'.lastV.trans h.lastV, h'.lastA.trans h.lastA,
    fun hcount => h'.count (h.count hcount)⟩

/-- Some changes, and then polls if a request was made or settled. -/
structure Polled (s t : State) : Prop where
  quiet : ∃ s₁, Quiet s s₁
    ∧ (t = s₁ ∧ s₁.vInflight = s.vInflight ∨ t = s₁.poll ∨ t = s₁.poll.poll)

/-- The timer of the microphone fires. -/
structure Fires (s t : State) : Prop where
  due : ∃ d, s.micOffTimer = some d ∧ d ≤ s.now
  eq : t = { s with micOffTimer := none, lastA := some false }.emit .mic false

theorem Polled.silent (h : Quiet s t) (hinflight : t.vInflight = s.vInflight) : Polled s t :=
  ⟨t, h, .inl ⟨rfl, hinflight⟩⟩

theorem Polled.poll (h : Quiet s s₁) : Polled s s₁.poll := ⟨s₁, h, .inr (.inl rfl)⟩

theorem polled_settle {i : Nat} {a : Attempt} (ha : s.attempts[i]? = some a)
    (hphase : a.phase = .asking) :
    Polled s ((s.setAttempt i { a with phase := .settled }).settle a.wantsVideo)
      ∧ Polled s ((s.setAttempt i { a with phase := .settled }).settle a.wantsVideo).poll := by
  cases hvideo : a.wantsVideo with
  | true =>
    have hquiet := Quiet.settles ha hphase hvideo
    rw [hvideo] at hquiet
    exact ⟨.poll hquiet, ⟨_, hquiet, .inr (.inr rfl)⟩⟩
  | false =>
    have hsame : Attempt.inFlight { a with phase := .settled } = a.inFlight := by
      simp [Attempt.inFlight, hvideo]
    have hquiet := Quiet.goesOn ha hsame
    rw [hvideo] at hquiet
    exact ⟨.silent hquiet rfl, .poll hquiet⟩

theorem polled_setTrack {k : Nat} {f : Track → Track} (hstep : s.setTrack k f = some t) :
    Polled s t := by
  obtain ⟨track, -, rfl⟩ := Option.map_eq_some_iff.mp hstep
  exact .silent (.keeps (Nat.le_refl _) rfl rfl rfl rfl rfl rfl rfl) rfl

theorem step_cases {e : Event} (hstep : s.step e = some t) : Polled s t ∨ Fires s t := by
  cases e with
  | pass ms =>
    obtain rfl := Option.some.inj hstep
    exact .inl (.silent (.keeps (Nat.le_add_right _ _) rfl rfl rfl rfl rfl rfl rfl) rfl)
  | poll =>
    obtain rfl := Option.some.inj hstep
    exact .inl (.poll (.keeps (Nat.le_refl _) rfl rfl rfl rfl rfl rfl rfl))
  | getUserMedia wantsVideo =>
    obtain rfl := Option.some.inj hstep
    cases wantsVideo with
    | true => exact .inl (.poll (.calls true 9))
    | false => exact .inl (.silent (.calls false 0) rfl)
  | grant i videos audios =>
    simp only [State.step] at hstep
    split at hstep
    case h_1 a ha =>
      split at hstep
      case isTrue hphase =>
        obtain rfl := Option.some.inj hstep
        have hquiet : Quiet s (s.addTracks videos audios) :=
          .keeps (Nat.le_refl _) rfl rfl rfl rfl rfl rfl rfl
        obtain ⟨-, s₂, hquiet₂, hpolled⟩ := polled_settle (s := s.addTracks videos audios) ha hphase
        exact .inl ⟨s₂, hquiet.trans hquiet₂, hpolled⟩
      case isFalse => cases hstep
    case h_2 => cases hstep
  | refuse i retries =>
    simp only [State.step] at hstep
    split at hstep
    case h_1 a ha =>
      split at hstep
      case isTrue hphase =>
        split at hstep
        · obtain rfl := Option.some.inj hstep
          exact .inl (.silent (.goesOn ha (by simp [Attempt.inFlight, hphase])) rfl)
        · obtain rfl := Option.some.inj hstep
          exact .inl (polled_settle ha hphase).1
      case isFalse => cases hstep
    case h_2 => cases hstep
  | retry i =>
    simp only [State.step] at hstep
    split at hstep
    case h_1 a ha =>
      split at hstep
      case h_1 d hphase =>
        split at hstep
        case isTrue =>
          obtain rfl := Option.some.inj hstep
          exact .inl (.silent (.goesOn ha (by simp [Attempt.inFlight, hphase])) rfl)
        case isFalse => cases hstep
      case h_2 => cases hstep
    case h_2 => cases hstep
  | ends k => exact .inl (polled_setTrack hstep)
  | enable k on => exact .inl (polled_setTrack hstep)
  | srStart =>
    obtain rfl := Option.some.inj hstep
    exact .inl (.poll (.keeps (Nat.le_refl _) rfl rfl rfl rfl rfl rfl rfl))
  | srEnd =>
    obtain rfl := Option.some.inj hstep
    exact .inl (.silent (.keeps (Nat.le_refl _) rfl rfl rfl rfl rfl rfl rfl) rfl)
  | srOff =>
    simp only [State.step] at hstep
    split at hstep
    case h_1 =>
      split at hstep
      case isTrue =>
        obtain rfl := Option.some.inj hstep
        exact .inl (.poll (.keeps (Nat.le_refl _) rfl rfl rfl rfl rfl rfl rfl))
      case isFalse => cases hstep
    case h_2 => cases hstep
  | micOff =>
    simp only [State.step] at hstep
    split at hstep
    case h_1 d htimer =>
      split at hstep
      case isTrue hdue => exact .inr ⟨⟨d, htimer, hdue⟩, (Option.some.inj hstep).symm⟩
      case isFalse => cases hstep
    case h_2 => cases hstep

end Steps

/-! ## Every run -/

/-- The messages about a device: no two in a row say the same, and the last one is what the
script has in `lastV` or `lastA`. -/
structure Turns (said : List Bool) (last : Option Bool) : Prop where
  turns : said.IsChain (· ≠ ·)
  last : said.getLast? = last

theorem Turns.concat {said : List Bool} {last : Option Bool} (h : Turns said last) {on : Bool}
    (hne : last ≠ some on) : Turns (said ++ [on]) (some on) := by
  refine ⟨List.isChain_append.mpr ⟨h.turns, List.isChain_singleton on, ?_⟩, by simp⟩
  intro b hb c hc
  rw [h.last] at hb
  obtain rfl : on = c := by simpa using hc
  rintro rfl
  exact hne hb

structure Inv (s : State) : Prop where
  count : s.vInflight = s.attempts.countP Attempt.inFlight
  cam : Turns (s.said .cam) s.lastV
  mic : Turns (s.said .mic) s.lastA
  begins : (s.said .mic).head? ≠ some false
  timer : ∀ {d}, s.micOffTimer = some d →
    s.lastA = some true ∧ d ≤ s.now + 30000 ∧ ∀ u ∈ s.uses, u + 30000 ≤ d
  used : ∀ u ∈ s.uses, u ≤ s.now
  warm : ∀ {t}, (t, ⟨.mic, false⟩) ∈ s.emitted →
    t ≤ s.now ∧ ∀ u ∈ s.uses, u + 30000 ≤ t ∨ t ≤ u

section Runs

variable {s t s₁ : State}

theorem Inv.quiet (h : Inv s) (hq : Quiet s s₁) : Inv s₁ := by
  have hsaid : ∀ kind, s₁.said kind = s.said kind := fun kind => by
    unfold State.said
    rw [hq.emitted]
  refine ⟨hq.count h.count, ?_, ?_, ?_, fun htimer => ?_, fun u hu => ?_, fun hwarm => ?_⟩
  · rw [hsaid, hq.lastV]
    exact h.cam
  · rw [hsaid, hq.lastA]
    exact h.mic
  · rw [hsaid]
    exact h.begins
  · rw [hq.micOffTimer] at htimer
    obtain ⟨hlast, hsoon, huses⟩ := h.timer htimer
    rw [hq.lastA, hq.uses]
    exact ⟨hlast, Nat.le_trans hsoon (Nat.add_le_add_right hq.now _), huses⟩
  · rw [hq.uses] at hu
    exact Nat.le_trans (h.used u hu) hq.now
  · rw [hq.emitted] at hwarm
    obtain ⟨hle, huses⟩ := h.warm hwarm
    rw [hq.uses]
    exact ⟨Nat.le_trans hle hq.now, huses⟩

/-- What is posted about the camera says nothing about the microphone. -/
theorem Inv.pollV (h : Inv s) : Inv s.pollV := by
  unfold State.pollV
  simp only
  split
  case isTrue hne =>
    refine ⟨h.count, ?_, ?_, ?_, h.timer, h.used, fun hwarm => ?_⟩
    · rw [said_emit]
      exact h.cam.concat hne
    · rw [said_emit_ne (by decide)]
      exact h.mic
    · rw [said_emit_ne (by decide)]
      exact h.begins
    · rcases List.mem_append.mp hwarm with hold | hnew
      · exact h.warm hold
      · simp at hnew
  case isFalse => exact ⟨h.count, h.cam, h.mic, h.begins, h.timer, h.used, h.warm⟩

theorem Inv.uses (h : Inv s) (vs : List Nat) :
    Inv { s with atracks := vs, micOffTimer := none, uses := s.uses ++ [s.now] } := by
  refine ⟨h.count, h.cam, h.mic, h.begins, fun htimer => (by cases htimer), fun u hu => ?_,
    fun hwarm => ?_⟩
  · rcases List.mem_append.mp hu with hold | hnew
    · exact h.used u hold
    · exact Nat.le_of_eq (List.mem_singleton.mp hnew)
  · obtain ⟨hle, huses⟩ := h.warm hwarm
    refine ⟨hle, fun u hu => ?_⟩
    rcases List.mem_append.mp hu with hold | hnew
    · exact huses u hold
    · rw [List.mem_singleton.mp hnew]
      exact .inr hle

theorem Inv.emitMic (h : Inv s) {on : Bool} (htimer : s.micOffTimer = none)
    (hne : s.lastA ≠ some on) (hbegins : on = false → s.lastA ≠ none)
    (hwarm : on = false → ∀ u ∈ s.uses, u + 30000 ≤ s.now) :
    Inv ({ s with lastA := some on }.emit .mic on) := by
  refine ⟨h.count, ?_, ?_, ?_, fun hset => ?_, h.used, fun hmem => ?_⟩
  · rw [said_emit_ne (by decide)]
    exact h.cam
  · rw [said_emit]
    exact h.mic.concat hne
  · rw [said_emit, List.head?_append]
    change (s.said .mic).head?.or (some on) ≠ some false
    cases hhead : (s.said .mic).head? with
    | some b =>
      change some b ≠ some false
      rw [← hhead]
      exact h.begins
    | none =>
      -- the first message about the microphone
      have hnone : s.lastA = none := by
        rw [← h.mic.last, List.head?_eq_none_iff.mp hhead]
        rfl
      cases on with
      | true => exact fun hfalse => (by cases hfalse)
      | false => exact absurd hnone (hbegins rfl)
  · exact absurd (hset.symm.trans htimer) (by simp)
  · rcases List.mem_append.mp hmem with hold | hnew
    · exact h.warm hold
    · obtain ⟨rfl, rfl⟩ : _ = s.now ∧ false = on := by simpa using hnew
      exact ⟨Nat.le_refl _, fun u hu => .inl (hwarm rfl u hu)⟩

theorem Inv.pollA (h : Inv s) : Inv s.pollA := by
  unfold State.pollA
  simp only
  split
  case isTrue =>
    have huses := h.uses (s.atracks.filter s.live)
    split
    case isTrue hne =>
      exact huses.emitMic rfl hne (fun hfalse => (by cases hfalse)) fun hfalse => (by cases hfalse)
    case isFalse => exact huses
  case isFalse =>
    split
    case isTrue hset =>
      refine ⟨h.count, h.cam, h.mic, h.begins, fun htimer => ?_, h.used, h.warm⟩
      obtain rfl := Option.some.inj htimer
      exact ⟨hset.1, Nat.le_refl _, fun u hu => Nat.add_le_add_right (h.used u hu) _⟩
    case isFalse => exact ⟨h.count, h.cam, h.mic, h.begins, h.timer, h.used, h.warm⟩

theorem Inv.poll (h : Inv s) : Inv s.poll := h.pollV.pollA

theorem Inv.fires (h : Inv s) (hf : Fires s t) : Inv t := by
  obtain ⟨⟨d, htimer, hdue⟩, rfl⟩ := hf
  obtain ⟨hlast, -, huses⟩ := h.timer htimer
  have hcleared : Inv { s with micOffTimer := none } :=
    ⟨h.count, h.cam, h.mic, h.begins, fun hset => (by cases hset), h.used, h.warm⟩
  refine hcleared.emitMic rfl ?_ (fun _ => ?_) fun _ u hu => Nat.le_trans (huses u hu) hdue
  · change s.lastA ≠ some false
    rw [hlast]
    exact fun h => (by cases h)
  · change s.lastA ≠ none
    rw [hlast]
    exact fun h => (by cases h)

theorem inv_step {e : Event} (h : Inv s) (hstep : s.step e = some t) : Inv t := by
  rcases step_cases hstep with ⟨s₁, hq, ⟨rfl, -⟩ | rfl | rfl⟩ | hf
  · exact h.quiet hq
  · exact (h.quiet hq).poll
  · exact (h.quiet hq).poll.poll
  · exact h.fires hf

theorem emitted_pollV : s.emitted <+: s.pollV.emitted := by
  unfold State.pollV
  simp only
  split
  · exact List.prefix_append _ _
  · exact ⟨[], List.append_nil _⟩

theorem emitted_pollA : s.emitted <+: s.pollA.emitted := by
  unfold State.pollA
  simp only
  split
  · split
    · exact List.prefix_append _ _
    · exact ⟨[], List.append_nil _⟩
  · split <;> exact ⟨[], List.append_nil _⟩

theorem emitted_poll : s.emitted <+: s.poll.emitted := emitted_pollV.trans emitted_pollA

theorem emitted_step {e : Event} (hstep : s.step e = some t) : s.emitted <+: t.emitted := by
  rcases step_cases hstep with ⟨s₁, hq, ⟨rfl, -⟩ | rfl | rfl⟩ | ⟨-, rfl⟩
  · exact ⟨[], by rw [List.append_nil, hq.emitted]⟩
  · exact hq.emitted ▸ emitted_poll
  · exact hq.emitted ▸ emitted_poll.trans emitted_poll
  · exact List.prefix_append _ _

theorem inv_reach (h : Reach State.step anyStep {} s) : Inv s :=
  h.invariant ⟨rfl, ⟨.nil, rfl⟩, ⟨.nil, rfl⟩, by decide, fun htimer => (by cases htimer),
    fun u hu => (by cases hu), fun hwarm => (by cases hwarm)⟩ fun hinv _ => inv_step hinv

@[simp] theorem pollV_lastV : s.pollV.lastV = some s.vOn := by
  unfold State.pollV
  simp only
  split
  case isTrue => rfl
  case isFalse hsame => exact Decidable.not_not.mp hsame

@[simp] theorem pollV_vInflight : s.pollV.vInflight = s.vInflight := by
  unfold State.pollV
  simp only
  split <;> rfl

@[simp] theorem pollV_aOn : s.pollV.aOn = s.aOn := by
  unfold State.pollV
  simp only
  split <;> rfl

theorem pollA_camera : s.pollA.lastV = s.lastV ∧ s.pollA.vInflight = s.vInflight := by
  unfold State.pollA
  simp only
  split
  · split <;> exact ⟨rfl, rfl⟩
  · split <;> exact ⟨rfl, rfl⟩

theorem poll_lastV : s.poll.lastV = some s.vOn := pollA_camera.1.trans pollV_lastV

theorem poll_vInflight : s.poll.vInflight = s.vInflight := pollA_camera.2.trans pollV_vInflight

theorem latched_poll (hinflight : 0 < s.poll.vInflight) : s.poll.lastV = some true := by
  rw [poll_vInflight] at hinflight
  rw [poll_lastV, State.vOn, decide_eq_true hinflight]
  rfl

theorem latched_step {e : Event} (hstep : s.step e = some t)
    (h : 0 < s.vInflight → s.lastV = some true) (hinflight : 0 < t.vInflight) :
    t.lastV = some true := by
  rcases step_cases hstep with ⟨s₁, hq, ⟨rfl, hsame⟩ | rfl | rfl⟩ | ⟨-, rfl⟩
  · rw [hq.lastV]
    exact h (hsame ▸ hinflight)
  · exact latched_poll hinflight
  · exact latched_poll hinflight
  · exact h hinflight

/-- A request for video is never left waiting for a camera that is off. -/
theorem said_latched (h : Reach State.step anyStep {} s) {a : Attempt} (ha : a ∈ s.attempts)
    (hinflight : a.inFlight = true) : (s.said .cam).getLast? = some true := by
  have hinv := inv_reach h
  have hlatched : 0 < s.vInflight → s.lastV = some true :=
    h.invariant (fun hinflight => (by cases hinflight)) fun hinv _ hstep => latched_step hstep hinv
  rw [hinv.cam.last, hlatched]
  rw [hinv.count]
  exact List.countP_pos_iff.mpr ⟨a, ha, hinflight⟩

/-- What the rest of the system is told about the camera. -/
structure State.CameraTold (s : State) : Prop where
  /-- `Math.max(0, …)` of `settle` never has to cut anything off. -/
  count : s.vInflight = s.attempts.countP Attempt.inFlight
  turns : (s.said .cam).IsChain (· ≠ ·)
  latched : ∀ a ∈ s.attempts, a.inFlight = true → (s.said .cam).getLast? = some true
  poll : (s.poll.said .cam).getLast? = some s.vOn

/-- **The camera is on while a request waits for it**, however often it is tried again and
whatever else goes on. -/
theorem camera_told (h : Reach State.step anyStep {} s) : s.CameraTold := by
  have hinv := inv_reach h
  refine ⟨hinv.count, hinv.cam.turns, fun a => said_latched h, ?_⟩
  rw [hinv.poll.cam.last, poll_lastV]

/-- Two requests, the first of which has to be tried again. -/
def retried : State where
  now := 700
  attempts := [{ wantsVideo := true, left := 8 },
    { wantsVideo := true, left := 9, phase := .settled }]
  vInflight := 1
  lastV := some true
  emitted := [(0, ⟨.cam, true⟩)]

theorem camera_told_retried : retried.CameraTold := by
  have hrun : runs State.step (fun _ _ => true) [.getUserMedia true, .getUserMedia true,
      .refuse 0 true, .refuse 1 false, .pass 700, .retry 0] {} = some retried := by
    decide +kernel
  exact camera_told (reach_of_runs (fun _ => trivial) .init hrun)

/-- What the rest of the system is told about the microphone. -/
structure State.MicTold (s : State) : Prop where
  turns : (s.said .mic).IsChain (· ≠ ·)
  begins : (s.said .mic).head? ≠ some false
  warm : ∀ {t}, (t, ⟨.mic, false⟩) ∈ s.emitted → ∀ u ∈ s.uses, u + 30000 ≤ t ∨ t ≤ u
  inUse : s.aOn = true → (s.poll.said .mic).getLast? = some true ∧ s.poll.micOffTimer = none
  unused : s.aOn = false → (s.poll.said .mic).getLast? = some true →
    ∃ d, s.poll.micOffTimer = some d ∧ d ≤ s.now + 30000

theorem pollV_now : s.pollV.now = s.now := by
  unfold State.pollV
  simp only
  split <;> rfl

theorem pollA_inUse (h : s.aOn = true) :
    s.pollA.lastA = some true ∧ s.pollA.micOffTimer = none := by
  unfold State.pollA
  simp only [h, if_true]
  split
  case isTrue => exact ⟨rfl, rfl⟩
  case isFalse hsame => exact ⟨Decidable.not_not.mp hsame, rfl⟩

theorem pollA_unused (h : s.aOn = false) (hlast : s.pollA.lastA = some true) (hinv : Inv s) :
    ∃ d, s.pollA.micOffTimer = some d ∧ d ≤ s.now + 30000 := by
  revert hlast
  unfold State.pollA
  simp only [h, Bool.false_eq_true, if_false]
  split
  case isTrue => exact fun _ => ⟨_, rfl, Nat.le_refl _⟩
  case isFalse hset =>
    intro hlast
    cases htimer : s.micOffTimer with
    | none => exact absurd ⟨hlast, htimer⟩ hset
    | some d => exact ⟨d, rfl, (hinv.timer htimer).2.1⟩

/-- **The microphone is switched on at once and off with a delay.** It is never switched
off within thirty seconds of a use, and once a poll finds it unused the switch is due thirty
seconds later at the latest. -/
theorem mic_told (h : Reach State.step anyStep {} s) : s.MicTold := by
  have hinv := inv_reach h
  refine ⟨hinv.mic.turns, hinv.begins, fun hwarm => (hinv.warm hwarm).2, fun hon => ?_,
    fun hoff hsaid => ?_⟩
  · rw [hinv.poll.mic.last]
    exact pollA_inUse (pollV_aOn.trans hon)
  · rw [hinv.poll.mic.last] at hsaid
    obtain ⟨d, htimer, hsoon⟩ := pollA_unused (pollV_aOn.trans hoff) hsaid hinv.pollV
    exact ⟨d, htimer, pollV_now ▸ hsoon⟩

/-- A recognition ends, and another begins when the microphone has been switched off. -/
def recognised : State where
  now := 34000
  srActive := true
  lastV := some false
  lastA := some true
  emitted := [(0, ⟨.cam, false⟩), (0, ⟨.mic, true⟩), (34000, ⟨.mic, false⟩),
    (34000, ⟨.mic, true⟩)]
  uses := [0, 34000]

theorem mic_told_recognised : recognised.MicTold := by
  have hrun : runs State.step (fun _ _ => true) [.srStart, .srEnd, .pass 4000, .srOff,
      .pass 30000, .micOff, .srStart] {} = some recognised := by
    decide +kernel
  exact mic_told (reach_of_runs (fun _ => trivial) .init hrun)

end Runs

end Media

end RbiProxy
