import RbiProxy.QtConnection
import RbiProxy.Reach

/-!
# The order of what a connection does

`ConnectionHandler` once more, as a machine in which events may come in at every
point where the code hands control to Qt. There are two of them: `waitForReadyRead`
in `HandleClientHello`, and `disconnectFromHost` in `shutdown`. A call that is there
is a frame on the stack, and any slot may run above it.

The machine notes what the handler does (`Act`). The order of it is a property of
all runs: `Ordered` says what must come before an action, and `Inv` carries it
through every slot, together with what the flags and the frames stand for.
-/

namespace RbiProxy

namespace Qt

/-! ## The machine -/

/-- What the handler does, and the two events that its actions wait for. -/
inductive Act where
  /-- A `CONNECT` request has been parsed. -/
  | connect
  /-- There are a leaf and a key, and neither is null. -/
  | leaf (sni : GoString)
  | startServerEncryption
  | clientEncrypted
  | serverEncrypted
  /-- Plaintext of the server, written to `clientSocket`. -/
  | toClient (data : GoString)
  /-- Data of the client, written to `serverSocket`. -/
  | toServer (data : GoString)
  | finished
deriving DecidableEq

/-- A call that has handed control to Qt. -/
inductive Frame where
  /-- `startBump`, in `waitForReadyRead`. -/
  | hello
  /-- `shutdown`, in `disconnectFromHost`. -/
  | closing
deriving DecidableEq

/-- The handler, the calls in progress, the innermost first, and what was done. -/
structure Machine where
  handler : Handler := {}
  frames : List Frame := []
  acts : List Act := []

namespace Machine

def log (m : Machine) (a : Act) : Machine := { m with acts := m.acts ++ [a] }

def update (m : Machine) (f : Handler → Handler) : Machine := { m with handler := f m.handler }

def shutdown (m : Machine) : Machine :=
  if m.handler.finished then m
  else { m with handler := m.handler.shutdown, frames := .closing :: m.frames }

def pumpClientToServer (m : Machine) : Machine :=
  if ¬ m.handler.clientReady then m
  else
    let data := m.handler.client
    let m := m.update fun st => { st with client := [] }
    if data = [] then m
    else (m.update fun st => { st with toServer := st.toServer ++ data }).log (.toServer data)

def pumpServerToClient (m : Machine) : Machine :=
  if ¬ m.handler.serverReady ∨ ¬ m.handler.clientReady then m
  else
    let data := m.handler.server
    let m := m.update fun st => { st with server := [] }
    if data = [] then m
    else (m.update fun st => { st with toClient := st.toClient ++ data }).log (.toClient data)

def parseConnect (m : Machine) : Machine × Bool :=
  let m := m.update fun st =>
    { st with connectBuffer := st.connectBuffer ++ st.client, client := [] }
  if ¬ contains m.handler.connectBuffer crlf2 then (m, false)
  else
    match connectMatch m.handler.connectBuffer with
    | none => (m.shutdown, false)
    | some (host, port) =>
      let m := m.update fun st =>
        { st with
            targetHost := host
            targetPort := toPort port
            reply := st.reply ++ lit "HTTP/1.1 200 Connection Established\r\n\r\n"
            dialed := true }
      (m.log .connect, true)

/-- `startBump` from where `HandleClientHello` has returned. -/
def bump (certs : Certs) (hello : GoString) (m : Machine) : Machine :=
  let m := m.update fun st => { st with sni := sniOf certs st.targetHost hello }
  if ¬ certs.forged m.handler.sni then m.shutdown
  else
    ((m.log (.leaf m.handler.sni)).update fun st =>
      { st with engine := some st.client, client := [] }).log .startServerEncryption

/-- `HandleClientHello` looks at the socket, and waits or returns. -/
def lookHello (certs : Certs) (m : Machine) : Machine :=
  match peekHello m.handler.client with
  | .waits => { m with frames := .hello :: m.frames, handler := { m.handler with waiting := true } }
  | .throws => (m.update fun st => { st with waiting := false }).shutdown
  | .record hello => (m.update fun st => { st with waiting := false }).bump certs hello

def startBump (certs : Certs) (m : Machine) : Machine :=
  (m.update fun st => { st with bumpStarted := true }).lookHello certs

def handleClientReadyRead (certs : Certs) (m : Machine) : Machine :=
  match m.handler.state with
  | .readConnect =>
    match m.parseConnect with
    | (m, true) =>
      let m := m.update fun st => { st with state := .bumping }
      if 0 < m.handler.client.length then m.startBump certs else m
    | (m, false) => m
  | .bumping => if ¬ m.handler.bumpStarted then m.startBump certs else m
  | .relaying => m.pumpClientToServer

def handleClientEncrypted (m : Machine) : Machine :=
  ((m.log .clientEncrypted).update fun st =>
    { st with clientReady := true, state := .relaying }).pumpClientToServer.pumpServerToClient

def handleServerEncrypted (m : Machine) : Machine :=
  ((m.log .serverEncrypted).update fun st =>
    { st with serverReady := true }).pumpServerToClient.pumpClientToServer

/-- `start`, with whether the descriptor is valid. -/
def start (valid : Bool) : Machine := if valid then {} else ({} : Machine).shutdown

end Machine

/-- What Qt does: it runs a slot, with the bytes that are new to it, or returns to
the innermost call. -/
inductive Signal where
  | clientReadyRead (bytes : GoString)
  | clientEncrypted
  | clientDisconnected
  | clientSslErrors
  | serverReadyRead (bytes : GoString)
  | serverEncrypted
  | serverDisconnected
  | serverSslErrors
  /-- More bytes for the TLS engine of `clientSocket`, without a slot. -/
  | engineBytes (bytes : GoString)
  /-- `waitForReadyRead` returns. -/
  | waitReturns (ready : Bool)
  /-- The calls of `disconnectFromHost` return. -/
  | closed
deriving DecidableEq

/-- One step; `none` where there is no call to return to. -/
def Machine.step (certs : Certs) (m : Machine) : Signal → Option Machine
  | .clientReadyRead bytes => some ((m.update (Handler.buffer bytes)).handleClientReadyRead certs)
  | .clientEncrypted => some m.handleClientEncrypted
  | .clientDisconnected => some m.shutdown
  | .clientSslErrors => some m
  | .serverReadyRead bytes =>
    some (m.update fun st => { st with server := st.server ++ bytes }).pumpServerToClient
  | .serverEncrypted => some m.handleServerEncrypted
  | .serverDisconnected => some m.shutdown
  | .serverSslErrors => some m
  | .engineBytes bytes => some (m.update fun st => { st with engine := st.engine.map (· ++ bytes) })
  | .waitReturns ready =>
    match m.frames with
    | .hello :: frames =>
      let m := { m with frames := frames }
      some (if ready then m.lookHello certs
        else (m.update fun st => { st with waiting := false }).shutdown)
    | _ => none
  | .closed =>
    match m.frames with
    | .closing :: frames => some ({ m with frames := frames }.log .finished)
    | _ => none

/-- Qt emits `encrypted` of the client only after `startServerEncryption`. -/
def EncryptedLater (m : Machine) (e : Signal) : Prop :=
  e = .clientEncrypted → Act.startServerEncryption ∈ m.acts

/-! ## The slots of the handler

What a slot does to the handler is what it does in `Handler`; the machine adds the
frames and the actions. -/

/-- What a signal does to the handler alone. -/
def Signal.handle (certs : Certs) (st : Handler) : Signal → Handler
  | .clientReadyRead bytes => (st.buffer bytes).handleClientReadyRead certs
  | .clientEncrypted => st.handleClientEncrypted
  | .clientDisconnected => st.shutdown
  | .clientSslErrors => st
  | .serverReadyRead bytes => { st with server := st.server ++ bytes }.pumpServerToClient
  | .serverEncrypted => st.handleServerEncrypted
  | .serverDisconnected => st.shutdown
  | .serverSslErrors => st
  | .engineBytes bytes => { st with engine := st.engine.map (· ++ bytes) }
  | .waitReturns ready =>
    if ready then st.lookHello certs else { st with waiting := false }.shutdown
  | .closed => st

namespace Machine

variable (m : Machine)

@[simp] theorem handler_log (a : Act) : (m.log a).handler = m.handler := rfl

@[simp] theorem handler_update (f : Handler → Handler) : (m.update f).handler = f m.handler := rfl

@[simp] theorem handler_shutdown : m.shutdown.handler = m.handler.shutdown := by
  unfold shutdown
  split
  · rename_i hfinished
    rw [Handler.shutdown, ← hfinished]
  · rfl

@[simp] theorem handler_pumpClientToServer :
    m.pumpClientToServer.handler = m.handler.pumpClientToServer := by
  unfold pumpClientToServer Handler.pumpClientToServer
  dsimp only
  split
  · rfl
  · split
    · rename_i hempty
      simp [hempty]
    · rfl

@[simp] theorem handler_pumpServerToClient :
    m.pumpServerToClient.handler = m.handler.pumpServerToClient := by
  unfold pumpServerToClient Handler.pumpServerToClient
  dsimp only
  split
  · rfl
  · split
    · rename_i hempty
      simp [hempty]
    · rfl

theorem handler_parseConnect :
    (m.parseConnect.1.handler, m.parseConnect.2) = m.handler.parseConnect := by
  unfold parseConnect Handler.parseConnect
  by_cases hwhole : contains (m.handler.connectBuffer ++ m.handler.client) crlf2 = true
  · simp only [handler_update, hwhole, not_true_eq_false, if_false]
    cases connectMatch (m.handler.connectBuffer ++ m.handler.client) with
    | none => simp
    | some target => rfl
  · simp [hwhole]

theorem handler_bump (certs : Certs) (hello : GoString) :
    (m.bump certs hello).handler = m.handler.bump certs hello := by
  unfold bump Handler.bump
  by_cases hforged : certs.forged (sniOf certs m.handler.targetHost hello) = true
  · simp only [handler_update, hforged, not_true_eq_false, if_false]
    rfl
  · simp [hforged]

theorem handler_lookHello (certs : Certs) :
    (m.lookHello certs).handler = m.handler.lookHello certs := by
  unfold lookHello Handler.lookHello
  cases peekHello m.handler.client with
  | waits => rfl
  | throws => exact handler_shutdown _
  | record hello => exact handler_bump _ certs hello

theorem handler_startBump (certs : Certs) :
    (m.startBump certs).handler = m.handler.startBump certs := by
  rw [startBump, handler_lookHello, handler_update, Handler.startBump]

theorem handler_handleClientReadyRead (certs : Certs) :
    (m.handleClientReadyRead certs).handler = m.handler.handleClientReadyRead certs := by
  unfold handleClientReadyRead Handler.handleClientReadyRead
  cases m.handler.state with
  | readConnect =>
    dsimp only
    rw [← handler_parseConnect]
    rcases m.parseConnect with ⟨m', _ | _⟩
    · rfl
    · by_cases hmore : 0 < m'.handler.client.length
      · simp only [handler_update, hmore, if_true]
        exact handler_startBump _ certs
      · simp only [handler_update, hmore, if_false]
  | bumping =>
    dsimp only
    by_cases hfirst : m.handler.bumpStarted = true
    · rw [if_neg (not_not.mpr hfirst), if_neg (not_not.mpr hfirst)]
    · rw [if_pos hfirst, if_pos hfirst, handler_startBump]
  | relaying => exact handler_pumpClientToServer m

end Machine

/-- The machine refines the handler: a step does to the handler what the slots of
`Handler` do. -/
theorem Machine.step_handler {certs : Certs} {m m' : Machine} {e : Signal}
    (hstep : m.step certs e = some m') : m'.handler = e.handle certs m.handler := by
  cases e with
  | clientReadyRead bytes =>
    cases hstep
    exact handler_handleClientReadyRead _ certs
  | clientEncrypted =>
    cases hstep
    simp [Signal.handle, handleClientEncrypted, Handler.handleClientEncrypted]
  | clientDisconnected =>
    cases hstep
    exact handler_shutdown m
  | clientSslErrors =>
    cases hstep
    rfl
  | serverReadyRead bytes =>
    cases hstep
    exact handler_pumpServerToClient _
  | serverEncrypted =>
    cases hstep
    simp [Signal.handle, handleServerEncrypted, Handler.handleServerEncrypted]
  | serverDisconnected =>
    cases hstep
    exact handler_shutdown m
  | serverSslErrors =>
    cases hstep
    rfl
  | engineBytes bytes =>
    cases hstep
    rfl
  | waitReturns ready =>
    unfold step at hstep
    dsimp only at hstep
    split at hstep
    case h_2 => cases hstep
    case h_1 frames hframes =>
      cases hstep
      unfold Signal.handle
      dsimp only
      split
      · exact handler_lookHello _ certs
      · exact handler_shutdown _
  | closed =>
    unfold step at hstep
    dsimp only at hstep
    split at hstep
    case h_2 => cases hstep
    case h_1 =>
      cases hstep
      rfl

/-! ## The order of the actions -/

/-- What comes before an action. -/
def Needs (before : List Act) : Act → Prop
  | .startServerEncryption => .connect ∈ before ∧ ∃ sni, .leaf sni ∈ before
  | .toClient _ => .clientEncrypted ∈ before ∧ .serverEncrypted ∈ before
  | .toServer _ => .clientEncrypted ∈ before
  | _ => True

/-- Every action has what it needs before it. -/
def Ordered (acts : List Act) : Prop :=
  ∀ before a after, acts = before ++ a :: after → Needs before a

theorem Ordered.concat {acts : List Act} (h : Ordered acts) {a : Act} (ha : Needs acts a) :
    Ordered (acts ++ [a]) := by
  intro before b after heq
  obtain rfl | ⟨after, b', rfl⟩ := List.eq_nil_or_concat after
  · obtain ⟨rfl, hab⟩ := List.append_inj' heq rfl
    cases hab
    exact ha
  · rw [List.concat_eq_append, ← List.cons_append, ← List.append_assoc] at heq
    obtain ⟨hacts, -⟩ := List.append_inj' heq rfl
    exact h before b after hacts

def once (b : Bool) : Nat := if b then 1 else 0

/-- What holds between two slots. -/
structure Inv (m : Machine) : Prop where
  ordered : Ordered m.acts
  starts : m.acts.count .startServerEncryption + m.frames.count .hello ≤ once m.handler.bumpStarted
  ends : m.acts.count .finished + m.frames.count .closing ≤ once m.handler.finished
  bumped : m.handler.bumpStarted = true → m.handler.state ≠ .readConnect
  parsed : m.handler.state ≠ .readConnect → .connect ∈ m.acts
  relaying : m.handler.state = .relaying ↔ m.handler.clientReady = true
  clientReady : m.handler.clientReady = true → .clientEncrypted ∈ m.acts
  serverReady : m.handler.serverReady = true → .serverEncrypted ∈ m.acts

/-- The fields that the invariant is about. -/
structure SameFlags (st st' : Handler) : Prop where
  state : st'.state = st.state
  bumpStarted : st'.bumpStarted = st.bumpStarted
  clientReady : st'.clientReady = st.clientReady
  serverReady : st'.serverReady = st.serverReady
  finished : st'.finished = st.finished

namespace Inv

variable {m : Machine}

theorem start (valid : Bool) : Inv (Machine.start valid) := by
  have hno : Ordered [] := fun before a after h => absurd h (by simp)
  cases valid <;>
    exact ⟨hno, by decide, by decide, by decide, by decide, by decide, by decide, by decide⟩

theorem update (h : Inv m) {f : Handler → Handler} (hf : SameFlags m.handler (f m.handler)) :
    Inv (m.update f) where
  ordered := h.ordered
  starts := by
    rw [Machine.update, hf.bumpStarted]
    exact h.starts
  ends := by
    rw [Machine.update, hf.finished]
    exact h.ends
  bumped := by
    rw [Machine.update, hf.bumpStarted, hf.state]
    exact h.bumped
  parsed := by
    rw [Machine.update, hf.state]
    exact h.parsed
  relaying := by
    rw [Machine.update, hf.clientReady, hf.state]
    exact h.relaying
  clientReady := by
    rw [Machine.update, hf.clientReady]
    exact h.clientReady
  serverReady := by
    rw [Machine.update, hf.serverReady]
    exact h.serverReady

theorem log (h : Inv m) {a : Act} (hneeds : Needs m.acts a) (hstart : a ≠ .startServerEncryption)
    (hend : a ≠ .finished) : Inv (m.log a) where
  ordered := h.ordered.concat hneeds
  starts := by
    rw [Machine.log, List.count_append, List.count_singleton, if_neg (by simpa using hstart)]
    exact h.starts
  ends := by
    rw [Machine.log, List.count_append, List.count_singleton, if_neg (by simpa using hend)]
    exact h.ends
  bumped := h.bumped
  parsed hst := List.mem_append_left _ (h.parsed hst)
  relaying := h.relaying
  clientReady hc := List.mem_append_left _ (h.clientReady hc)
  serverReady hs := List.mem_append_left _ (h.serverReady hs)

theorem shutdown (h : Inv m) : Inv m.shutdown := by
  unfold Machine.shutdown
  split
  · exact h
  · rename_i hopen
    have hends := h.ends
    rw [once, if_neg hopen] at hends
    refine ⟨h.ordered, ?_, ?_, h.bumped, h.parsed, h.relaying, h.clientReady, h.serverReady⟩
    · rw [List.count_cons, if_neg (by decide)]
      exact h.starts
    · rw [List.count_cons_self]
      exact Nat.succ_le_succ hends

/-! ### The slots -/

theorem pumpClientToServer (h : Inv m) : Inv m.pumpClientToServer := by
  unfold Machine.pumpClientToServer
  split
  · exact h
  · rename_i hready
    have hread := h.update (f := fun st => { st with client := [] }) ⟨rfl, rfl, rfl, rfl, rfl⟩
    dsimp only
    split
    · exact hread
    · refine (hread.update ⟨rfl, rfl, rfl, rfl, rfl⟩).log ?_ (by simp) (by simp)
      exact h.clientReady (not_not.mp hready)

theorem pumpServerToClient (h : Inv m) : Inv m.pumpServerToClient := by
  unfold Machine.pumpServerToClient
  split
  · exact h
  · rename_i hready
    rw [not_or, not_not, not_not] at hready
    have hread := h.update (f := fun st => { st with server := [] }) ⟨rfl, rfl, rfl, rfl, rfl⟩
    dsimp only
    split
    · exact hread
    · refine (hread.update ⟨rfl, rfl, rfl, rfl, rfl⟩).log ?_ (by simp) (by simp)
      exact ⟨h.clientReady hready.2, h.serverReady hready.1⟩

/-- `startBump` has been called, and has neither come to an end nor is it
waiting. -/
def Bumping (m : Machine) : Prop :=
  m.handler.bumpStarted = true
    ∧ m.acts.count .startServerEncryption + m.frames.count .hello = 0

theorem logStart (h : Inv m) (hb : Bumping m) (hleaf : ∃ sni, Act.leaf sni ∈ m.acts) :
    Inv (m.log .startServerEncryption) where
  ordered := h.ordered.concat ⟨h.parsed (h.bumped hb.1), hleaf⟩
  starts := by
    have hnone := hb.2
    rw [Machine.log, hb.1, List.count_append, List.count_singleton_self]
    unfold once
    dsimp only
    rw [if_pos rfl]
    omega
  ends := by
    rw [Machine.log, List.count_append, List.count_singleton, if_neg (by decide)]
    exact h.ends
  bumped := h.bumped
  parsed hst := List.mem_append_left _ (h.parsed hst)
  relaying := h.relaying
  clientReady hc := List.mem_append_left _ (h.clientReady hc)
  serverReady hs := List.mem_append_left _ (h.serverReady hs)

theorem bump (h : Inv m) (hb : Bumping m) (certs : Certs) (hello : GoString) :
    Inv (m.bump certs hello) := by
  unfold Machine.bump
  have hsni := h.update (f := fun st => { st with sni := sniOf certs st.targetHost hello })
    ⟨rfl, rfl, rfl, rfl, rfl⟩
  dsimp only
  split
  · exact hsni.shutdown
  · have hleaf := hsni.log (a := .leaf (sniOf certs m.handler.targetHost hello)) trivial (by simp)
      (by simp)
    have hengine := hleaf.update (f := fun st => { st with engine := some st.client, client := [] })
      ⟨rfl, rfl, rfl, rfl, rfl⟩
    refine hengine.logStart ⟨hb.1, ?_⟩ ⟨sniOf certs m.handler.targetHost hello, ?_⟩
    · have hcount : (m.acts ++ [Act.leaf (sniOf certs m.handler.targetHost hello)]).count
          .startServerEncryption = m.acts.count .startServerEncryption := by
        rw [List.count_append, List.count_singleton, if_neg (by simp), Nat.add_zero]
      exact (congrArg (· + m.frames.count .hello) hcount).trans hb.2
    · exact List.mem_append_right _ (List.mem_singleton.mpr rfl)

theorem wait (h : Inv m) (hb : Bumping m) :
    Inv { m with frames := .hello :: m.frames, handler := { m.handler with waiting := true } } where
  ordered := h.ordered
  starts := by
    have hnone := hb.2
    rw [List.count_cons_self, hb.1]
    unfold once
    dsimp only
    rw [if_pos rfl]
    omega
  ends := by
    rw [List.count_cons, if_neg (by decide)]
    exact h.ends
  bumped := h.bumped
  parsed := h.parsed
  relaying := h.relaying
  clientReady := h.clientReady
  serverReady := h.serverReady

theorem lookHello (h : Inv m) (hb : Bumping m) (certs : Certs) : Inv (m.lookHello certs) := by
  have hback := h.update (f := fun st => { st with waiting := false }) ⟨rfl, rfl, rfl, rfl, rfl⟩
  unfold Machine.lookHello
  split
  · exact h.wait hb
  · exact hback.shutdown
  · exact hback.bump hb certs _

theorem startBump (h : Inv m) (hfirst : m.handler.bumpStarted = false)
    (hstate : m.handler.state ≠ .readConnect) (certs : Certs) : Inv (m.startBump certs) := by
  have hnone := h.starts
  rw [hfirst] at hnone
  refine lookHello (m := m.update fun st => { st with bumpStarted := true }) ?_ ⟨rfl, ?_⟩ certs
  · refine ⟨h.ordered, Nat.le_succ_of_le hnone, h.ends, fun _ => hstate, h.parsed, h.relaying,
      h.clientReady, h.serverReady⟩
  · exact Nat.le_zero.mp hnone

theorem parseConnect (h : Inv m) :
    Inv m.parseConnect.1 ∧ (m.parseConnect.2 = true →
      m.parseConnect.1.handler.state = m.handler.state
        ∧ m.parseConnect.1.handler.bumpStarted = m.handler.bumpStarted
        ∧ Act.connect ∈ m.parseConnect.1.acts) := by
  have hread := h.update (f := fun st =>
    { st with connectBuffer := st.connectBuffer ++ st.client, client := [] })
    ⟨rfl, rfl, rfl, rfl, rfl⟩
  unfold Machine.parseConnect
  dsimp only
  split
  · exact ⟨hread, fun hno => by cases hno⟩
  · split
    · exact ⟨hread.shutdown, fun hno => by cases hno⟩
    · refine ⟨(hread.update ⟨rfl, rfl, rfl, rfl, rfl⟩).log trivial (by simp) (by simp),
        fun _ => ⟨rfl, rfl, ?_⟩⟩
      exact List.mem_append_right _ (List.mem_singleton.mpr rfl)

theorem toBumping (h : Inv m) (hstate : m.handler.state = .readConnect)
    (hconnect : Act.connect ∈ m.acts) :
    Inv (m.update fun st => { st with state := .bumping }) where
  ordered := h.ordered
  starts := h.starts
  ends := h.ends
  bumped _ := by simp [Machine.update]
  parsed _ := hconnect
  relaying := by
    have hnot : ¬ m.handler.clientReady = true := by
      rw [← h.relaying, hstate]
      simp
    exact iff_of_false (by simp [Machine.update]) hnot
  clientReady := h.clientReady
  serverReady := h.serverReady

theorem handleClientReadyRead (h : Inv m) (certs : Certs) :
    Inv (m.handleClientReadyRead certs) := by
  unfold Machine.handleClientReadyRead
  split
  · rename_i hstate
    obtain ⟨hinv, hparsed⟩ := h.parseConnect
    split
    · rename_i m' heq
      rw [heq] at hinv hparsed
      obtain ⟨hstate', hbump', hconnect⟩ := hparsed rfl
      have hbumping := hinv.toBumping (hstate'.trans hstate) hconnect
      have hfirst : m.handler.bumpStarted = false :=
        Bool.eq_false_iff.mpr fun hb => h.bumped hb hstate
      dsimp only
      split
      · exact hbumping.startBump (hbump'.trans hfirst) (by simp [Machine.update]) certs
      · exact hbumping
    · rename_i m' heq
      rw [heq] at hinv
      exact hinv
  · rename_i hstate
    split
    · rename_i hfirst
      exact h.startBump (Bool.eq_false_iff.mpr hfirst) (by rw [hstate]; simp) certs
    · exact h
  · exact h.pumpClientToServer

theorem handleClientEncrypted (h : Inv m) (hstart : Act.startServerEncryption ∈ m.acts) :
    Inv m.handleClientEncrypted := by
  have hlog := h.log (a := .clientEncrypted) trivial (by simp) (by simp)
  have hbumped : m.handler.bumpStarted = true := by
    by_contra hno
    have hnone := h.starts
    rw [once, if_neg hno] at hnone
    have hpos := List.count_pos_iff.mpr hstart
    omega
  have hready : Inv ((m.log .clientEncrypted).update fun st =>
      { st with clientReady := true, state := .relaying }) := by
    refine ⟨hlog.ordered, hlog.starts, hlog.ends, fun _ => by simp [Machine.update], fun _ => ?_,
      iff_of_true rfl rfl, fun _ => ?_, hlog.serverReady⟩
    · exact List.mem_append_left _ (h.parsed (h.bumped hbumped))
    · exact List.mem_append_right _ (List.mem_singleton.mpr rfl)
  exact hready.pumpClientToServer.pumpServerToClient

theorem handleServerEncrypted (h : Inv m) : Inv m.handleServerEncrypted := by
  have hlog := h.log (a := .serverEncrypted) trivial (by simp) (by simp)
  have hready :
      Inv ((m.log .serverEncrypted).update fun st => { st with serverReady := true }) := by
    refine ⟨hlog.ordered, hlog.starts, hlog.ends, hlog.bumped, hlog.parsed, hlog.relaying,
      hlog.clientReady, fun _ => ?_⟩
    exact List.mem_append_right _ (List.mem_singleton.mpr rfl)
  exact hready.pumpServerToClient.pumpClientToServer

/-- The call that waited for the ClientHello is left. -/
theorem popHello (h : Inv m) {frames : List Frame} (hframes : m.frames = .hello :: frames) :
    Inv { m with frames := frames } ∧ Bumping { m with frames := frames } := by
  have hstarts := h.starts
  have hends := h.ends
  rw [hframes, List.count_cons_self] at hstarts
  rw [hframes, List.count_cons, if_neg (by decide)] at hends
  have hbumped : m.handler.bumpStarted = true := by
    by_contra hno
    rw [once, if_neg hno] at hstarts
    omega
  rw [hbumped, once, if_pos rfl] at hstarts
  have hnone : m.acts.count .startServerEncryption + frames.count .hello = 0 := by omega
  refine ⟨⟨h.ordered, ?_, hends, h.bumped, h.parsed, h.relaying, h.clientReady, h.serverReady⟩,
    hbumped, hnone⟩
  dsimp only
  rw [hnone]
  exact Nat.zero_le _

/-- `disconnectFromHost` is left, and `finished` is emitted. -/
theorem popClosing (h : Inv m) {frames : List Frame} (hframes : m.frames = .closing :: frames) :
    Inv ({ m with frames := frames }.log .finished) where
  ordered := h.ordered.concat trivial
  starts := by
    have hstarts := h.starts
    rw [hframes, List.count_cons, if_neg (by decide)] at hstarts
    rw [Machine.log, List.count_append, List.count_singleton, if_neg (by decide)]
    exact hstarts
  ends := by
    have hends := h.ends
    rw [hframes, List.count_cons_self] at hends
    rw [Machine.log, List.count_append, List.count_singleton_self]
    dsimp only
    omega
  bumped := h.bumped
  parsed hst := List.mem_append_left _ (h.parsed hst)
  relaying := h.relaying
  clientReady hc := List.mem_append_left _ (h.clientReady hc)
  serverReady hs := List.mem_append_left _ (h.serverReady hs)

theorem step (h : Inv m) {certs : Certs} {e : Signal} {m' : Machine} (hok : EncryptedLater m e)
    (hstep : m.step certs e = some m') : Inv m' := by
  cases e with
  | clientReadyRead bytes =>
    cases hstep
    exact (h.update ⟨rfl, rfl, rfl, rfl, rfl⟩).handleClientReadyRead certs
  | clientEncrypted =>
    cases hstep
    exact h.handleClientEncrypted (hok rfl)
  | clientDisconnected =>
    cases hstep
    exact h.shutdown
  | clientSslErrors =>
    cases hstep
    exact h
  | serverReadyRead bytes =>
    cases hstep
    exact (h.update ⟨rfl, rfl, rfl, rfl, rfl⟩).pumpServerToClient
  | serverEncrypted =>
    cases hstep
    exact h.handleServerEncrypted
  | serverDisconnected =>
    cases hstep
    exact h.shutdown
  | serverSslErrors =>
    cases hstep
    exact h
  | engineBytes bytes =>
    cases hstep
    exact h.update ⟨rfl, rfl, rfl, rfl, rfl⟩
  | waitReturns ready =>
    unfold Machine.step at hstep
    dsimp only at hstep
    split at hstep
    case h_2 => cases hstep
    case h_1 frames hframes =>
      obtain ⟨hpop, hbumping⟩ := h.popHello hframes
      cases hstep
      split
      · exact hpop.lookHello hbumping certs
      · exact (hpop.update ⟨rfl, rfl, rfl, rfl, rfl⟩).shutdown
  | closed =>
    unfold Machine.step at hstep
    dsimp only at hstep
    split at hstep
    case h_2 => cases hstep
    case h_1 frames hframes =>
      cases hstep
      exact h.popClosing hframes

theorem of_reach {certs : Certs} {valid : Bool}
    (hr : Reach (Machine.step certs) EncryptedLater (Machine.start valid) m) : Inv m :=
  hr.invariant (start valid) fun h hok hstep => h.step hok hstep

theorem starts_le (h : Inv m) : m.acts.count .startServerEncryption ≤ 1 := by
  have hstarts := h.starts
  unfold once at hstarts
  split at hstarts <;> omega

theorem ends_le (h : Inv m) : m.acts.count .finished ≤ 1 := by
  have hends := h.ends
  unfold once at hends
  split at hends <;> omega

end Inv

/-- **A connection is safe in every run.** The TLS engine of the client is started
at most once and `finished` is emitted at most once; the engine is started only after
a request was parsed and a leaf and a key were there; plaintext of the server goes to
the client only after both `encrypted`, and data of the client goes to the server only
after its own; and the state is `Relaying` exactly when the client's side is ready. -/
theorem connection_safe {certs : Certs} {valid : Bool} {m : Machine}
    (hr : Reach (Machine.step certs) EncryptedLater (Machine.start valid) m) :
    m.acts.count .startServerEncryption ≤ 1
      ∧ Ordered m.acts
      ∧ (m.handler.state = .relaying ↔ m.handler.clientReady = true)
      ∧ m.acts.count .finished ≤ 1 := by
  have h := Inv.of_reach hr
  exact ⟨h.starts_le, h.ordered, h.relaying, h.ends_le⟩

/-- The hello of the example, with an empty handshake body. -/
def shortHello : GoString := [22, 3, 1, 0, 4, 1, 0, 0, 0]

/-- The whole way of a connection: the hello comes in two parts, the second of them
while `HandleClientHello` waits, and the client hangs up while the server does too. -/
def wholeWay : List Signal :=
  [.clientReadyRead (lit "CONNECT a:1\r\n\r\n"), .clientReadyRead (shortHello.take 3),
    .clientReadyRead (shortHello.drop 3), .waitReturns true, .serverReadyRead (lit "s"),
    .serverEncrypted, .clientEncrypted, .clientReadyRead (lit "c"), .clientDisconnected,
    .serverDisconnected, .closed]

def wholeWayActs : List Act :=
  [.connect, .leaf (lit "a"), .startServerEncryption, .serverEncrypted, .clientEncrypted,
    .toClient (lit "s"), .toServer (lit "c"), .finished]

def encryptedLater (m : Machine) (e : Signal) : Bool :=
  e ≠ .clientEncrypted || Act.startServerEncryption ∈ m.acts

theorem encryptedLater_spec {m : Machine} {e : Signal} (h : encryptedLater m e = true) :
    EncryptedLater m e := by
  intro he
  simpa [encryptedLater, he] using h

def allForged : Certs := ⟨id, fun _ => true⟩

theorem wholeWay_runs :
    ∃ m, runs (Machine.step allForged) encryptedLater wholeWay (Machine.start true) = some m
      ∧ m.acts = wholeWayActs := by
  have hacts : ((runs (Machine.step allForged) encryptedLater wholeWay (Machine.start true)).map
      Machine.acts) = some wholeWayActs := by
    decide +kernel
  exact Option.map_eq_some_iff.mp hacts

theorem connection_safe_wholeWay :
    ∃ m, Reach (Machine.step allForged) EncryptedLater (Machine.start true) m
      ∧ m.acts = wholeWayActs
      ∧ m.acts.count .startServerEncryption ≤ 1
      ∧ Ordered m.acts
      ∧ (m.handler.state = .relaying ↔ m.handler.clientReady = true)
      ∧ m.acts.count .finished ≤ 1 := by
  obtain ⟨m, hruns, hacts⟩ := wholeWay_runs
  have hr := reach_of_runs encryptedLater_spec .init hruns
  exact ⟨m, hr, hacts, connection_safe hr⟩

end Qt

end RbiProxy
