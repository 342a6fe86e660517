import RbiProxy.QtConnection

/-!
# The bytes of a Qt connection

Two accounts over all orders of events on a `Handler`.

* The client's bytes. What `parseConnect` has taken, followed by what is still
  there for the TLS engine, is what has come in (`Phase.bytes`). As
  `parseConnect` takes all that is readable, the engine gets the bytes behind
  the request head exactly when some event ends where the head ends
  (`readable_iff`).
* The server's bytes. What the pump has written to the client, followed by what
  `serverSocket` still holds, is what the server has sent (`Pumped.bytes`), and
  nothing is written before both sides are encrypted. A disconnect of the server
  finds all of it delivered exactly when both are, or nothing was sent
  (`relayed_iff`).
-/

namespace RbiProxy

namespace Qt

namespace Handler

variable {certs : Certs} {st : Handler} {es : List Event} {e : Event}

/-! ## The bytes of the client -/

/-- The bytes the TLS engine has been given, or will be given when it starts. -/
def readable (st : Handler) : GoString := st.engine.getD st.client

def received (es : List Event) : GoString :=
  es.flatMap fun
    | .clientBytes bytes => bytes
    | _ => []

/-- An event of the time in which the client's TLS is not yet established. -/
def Early (e : Event) : Prop := e ≠ .clientEncrypted ∧ ∀ bytes, e ≠ .clientPlain bytes

/-- The account of the client's bytes. -/
structure Phase (received : GoString) (st : Handler) : Prop where
  ready : st.clientReady = false
  bytes : st.connectBuffer ++ st.readable = received
  notRelaying : st.state ≠ .relaying
  reading : st.state = .readConnect →
    st.connectBuffer = received ∧ st.engine = none ∧ st.waiting = false

theorem readable_of_none (h : st.engine = none) : st.readable = st.client := by
  rw [readable, h]
  rfl

/-- Looking at the ClientHello takes nothing from the socket. -/
theorem lookHello_keeps (certs : Certs) (h : st.engine = none) :
    (st.lookHello certs).readable = st.readable
      ∧ (st.lookHello certs).connectBuffer = st.connectBuffer
      ∧ (st.lookHello certs).state = st.state
      ∧ (st.lookHello certs).clientReady = st.clientReady := by
  rw [readable_of_none h]
  unfold lookHello
  split
  · exact ⟨readable_of_none h, rfl, rfl, rfl⟩
  · exact ⟨readable_of_none h, rfl, rfl, rfl⟩
  · unfold bump
    dsimp only
    split
    · exact ⟨readable_of_none h, rfl, rfl, rfl⟩
    · exact ⟨rfl, rfl, rfl, rfl⟩

theorem Phase.lookHello {received : GoString} (certs : Certs) (h : st.Phase received)
    (hnone : st.engine = none) (hstate : st.state = .bumping) :
    (st.lookHello certs).Phase received ∧ (st.lookHello certs).state = .bumping
      ∧ (st.lookHello certs).connectBuffer = st.connectBuffer := by
  obtain ⟨hread, hbuf, hst, hready⟩ := lookHello_keeps certs hnone
  refine ⟨⟨hready.trans h.ready, ?_, ?_, ?_⟩, hst.trans hstate, hbuf⟩
  · rw [hbuf, hread]
    exact h.bytes
  · rw [hst]
    exact h.notRelaying
  · rw [hst, hstate]
    intro hne
    cases hne

theorem handleClientReadyRead_readConnect (certs : Certs) (st : Handler) (hstate : st.state = .readConnect)
    (hnone : st.engine = none) (hready : st.clientReady = false) (hwait : st.waiting = false) :
    let st' := st.handleClientReadyRead certs
    st'.Phase (st.connectBuffer ++ st.client)
      ∧ st'.connectBuffer = st.connectBuffer ++ st.client
      ∧ (st'.state = .bumping ↔ contains (st.connectBuffer ++ st.client) crlf2 = true
          ∧ (connectMatch (st.connectBuffer ++ st.client)).isSome = true) := by
  unfold handleClientReadyRead
  rw [hstate]
  unfold parseConnect
  dsimp only
  by_cases hend : contains (st.connectBuffer ++ st.client) crlf2 = true
  · rw [if_neg (not_not_intro hend)]
    cases hmatch : connectMatch (st.connectBuffer ++ st.client) with
    | none =>
        refine ⟨⟨hready, ?_, ?_, fun _ => ⟨rfl, hnone, hwait⟩⟩, rfl, ?_⟩
        · simp [readable, shutdown, hnone]
        · simp [shutdown, hstate]
        · simp [shutdown, hstate]
    | some groups =>
        refine ⟨⟨hready, ?_, ?_, ?_⟩, rfl, ?_⟩
        · simp [readable, hnone]
        · simp
        · simp
        · simp [hend]
  · rw [if_pos hend]
    refine ⟨⟨hready, ?_, ?_, fun _ => ⟨rfl, hnone, hwait⟩⟩, rfl, ?_⟩
    · simp [readable, hnone]
    · simp [hstate]
    · simp [hstate, hend]

theorem received_concat (es : List Event) (e : Event) :
    received (es ++ [e]) = received es ++ received [e] := by
  rw [received, List.flatMap_append]
  rfl

theorem clientArrives_none (h : st.engine = none) (bytes : GoString) :
    st.clientArrives certs bytes
      = if st.waiting then (st.buffer bytes).lookHello certs
        else (st.buffer bytes).handleClientReadyRead certs := by
  rw [Handler.clientArrives, h]
  rfl

/-- In the state `Bumping` nothing more is taken. -/
theorem Phase.bumping {received : GoString} (certs : Certs) (h : st.Phase received)
    (hnone : st.engine = none) (hstate : st.state = .bumping) :
    (st.handleClientReadyRead certs).Phase received
      ∧ (st.handleClientReadyRead certs).state = .bumping
      ∧ (st.handleClientReadyRead certs).connectBuffer = st.connectBuffer := by
  unfold handleClientReadyRead
  rw [hstate]
  dsimp only
  split
  · have hstart : ({ st with bumpStarted := true } : Handler).Phase received :=
      ⟨h.ready, h.bytes, h.notRelaying, h.reading⟩
    exact hstart.lookHello certs hnone hstate
  · exact ⟨h, hstate, rfl⟩

theorem Phase.buffer {received : GoString} (h : st.Phase received) (hnone : st.engine = none)
    (hstate : st.state = .bumping) (bytes : GoString) :
    (st.buffer bytes).Phase (received ++ bytes) := by
  have hbytes := h.bytes
  rw [readable_of_none hnone] at hbytes
  refine ⟨h.ready, ?_, h.notRelaying, fun hread => ?_⟩
  · have hbuffer : (st.buffer bytes).readable = (st.buffer bytes).client := readable_of_none hnone
    rw [hbuffer, ← hbytes, List.append_assoc]
    rfl
  · cases hstate.symm.trans hread

/-- Bytes of the client are accounted for. `parseConnect` takes them all; from
then on nothing is taken. -/
theorem Phase.clientArrives {received : GoString} (certs : Certs) (h : st.Phase received)
    (bytes : GoString) :
    (st.clientArrives certs bytes).Phase (received ++ bytes)
      ∧ (st.state = .readConnect →
          (st.clientArrives certs bytes).connectBuffer = received ++ bytes
          ∧ ((st.clientArrives certs bytes).state = .bumping
              ↔ contains (received ++ bytes) crlf2 = true
                ∧ (connectMatch (received ++ bytes)).isSome = true))
      ∧ (st.state = .bumping →
          (st.clientArrives certs bytes).connectBuffer = st.connectBuffer
          ∧ (st.clientArrives certs bytes).state = .bumping) := by
  cases hengine : st.engine with
  | some given =>
      have hbytes := h.bytes
      rw [readable, hengine] at hbytes
      have hnot : st.state ≠ .readConnect := fun hread => by
        have hnone := (h.reading hread).2.1
        rw [hengine] at hnone
        cases hnone
      have heq : st.clientArrives certs bytes = { st with engine := some (given ++ bytes) } := by
        rw [Handler.clientArrives, hengine]
      rw [heq]
      refine ⟨⟨h.ready, ?_, h.notRelaying, fun hread => absurd hread hnot⟩,
        fun hread => absurd hread hnot, fun hstate => ⟨rfl, hstate⟩⟩
      rw [← hbytes]
      exact (List.append_assoc _ given bytes).symm
  | none =>
      have hbytes := h.bytes
      rw [readable_of_none hengine] at hbytes
      rw [clientArrives_none hengine]
      cases hstate : st.state with
      | relaying => exact absurd hstate h.notRelaying
      | readConnect =>
          obtain ⟨hbuf, -, hwait⟩ := h.reading hstate
          have hparse := handleClientReadyRead_readConnect certs (st.buffer bytes)
            hstate hengine h.ready hwait
          have hall : (st.buffer bytes).connectBuffer ++ (st.buffer bytes).client
              = received ++ bytes := by
            rw [← hbytes, List.append_assoc]
            rfl
          rw [hall] at hparse
          rw [if_neg (by rw [hwait]; decide)]
          exact ⟨hparse.1, fun _ => hparse.2, fun hne => by cases hne⟩
      | bumping =>
          have hphase := h.buffer hengine hstate bytes
          split
          · obtain ⟨hp, hs, hb⟩ := hphase.lookHello certs hengine hstate
            exact ⟨hp, fun hne => (by cases hne), fun _ => ⟨hb, hs⟩⟩
          · obtain ⟨hp, hs, hb⟩ := hphase.bumping certs hengine hstate
            exact ⟨hp, fun hne => (by cases hne), fun _ => ⟨hb, hs⟩⟩

theorem pumpClientToServer_early (h : st.clientReady = false) : st.pumpClientToServer = st := by
  rw [pumpClientToServer, h]
  rfl

theorem pumpServerToClient_early (h : st.clientReady = false) : st.pumpServerToClient = st := by
  rw [pumpServerToClient, if_pos (Or.inr (by rw [h]; decide))]

/-- The other events of this time leave the client's bytes alone. -/
theorem Phase.other {rec : GoString} (certs : Certs) (h : st.Phase rec) (he : Early e)
    (hno : ∀ bytes, e ≠ .clientBytes bytes) :
    (step certs st e).Phase rec ∧ (step certs st e).state = st.state
      ∧ (step certs st e).connectBuffer = st.connectBuffer := by
  have hready := h.ready
  cases e with
  | clientBytes bytes => exact absurd rfl (hno bytes)
  | clientPlain bytes => exact absurd rfl (he.2 bytes)
  | clientEncrypted => exact absurd rfl he.1
  | clientDisconnected => exact ⟨⟨h.ready, h.bytes, h.notRelaying, h.reading⟩, rfl, rfl⟩
  | serverDisconnected => exact ⟨⟨h.ready, h.bytes, h.notRelaying, h.reading⟩, rfl, rfl⟩
  | helloTimeout =>
      rw [step]
      split
      · refine ⟨⟨h.ready, h.bytes, h.notRelaying, fun hread => ?_⟩, rfl, rfl⟩
        exact ⟨(h.reading hread).1, (h.reading hread).2.1, rfl⟩
      · exact ⟨h, rfl, rfl⟩
  | serverEncrypted =>
      rw [step, handleServerEncrypted, pumpServerToClient_early (by exact hready),
        pumpClientToServer_early (by exact hready)]
      exact ⟨⟨h.ready, h.bytes, h.notRelaying, h.reading⟩, rfl, rfl⟩
  | serverPlain bytes =>
      rw [step, pumpServerToClient_early (by exact hready)]
      exact ⟨⟨h.ready, h.bytes, h.notRelaying, h.reading⟩, rfl, rfl⟩

theorem received_of_other (hno : ∀ bytes, e ≠ .clientBytes bytes) : received [e] = [] := by
  cases e with
  | clientBytes bytes => exact absurd rfl (hno bytes)
  | _ => rfl

theorem Phase.step {rec : GoString} (certs : Certs) (h : st.Phase rec) (he : Early e) :
    (Handler.step certs st e).Phase (rec ++ received [e])
      ∧ (st.state = .readConnect →
          (Handler.step certs st e).connectBuffer = rec ++ received [e])
      ∧ (st.state = .bumping → (Handler.step certs st e).connectBuffer = st.connectBuffer
          ∧ (Handler.step certs st e).state = .bumping) := by
  by_cases hb : ∃ bytes, e = .clientBytes bytes
  · obtain ⟨bytes, rfl⟩ := hb
    have hrec : received [.clientBytes bytes] = bytes := by simp [received]
    obtain ⟨hphase, hread, hbump⟩ := h.clientArrives certs bytes
    rw [hrec]
    exact ⟨hphase, fun hs => (hread hs).1, hbump⟩
  · have hno : ∀ bytes, e ≠ .clientBytes bytes := fun bytes heq => hb ⟨bytes, heq⟩
    obtain ⟨hphase, hstate, hbuf⟩ := h.other certs he hno
    rw [received_of_other hno, List.append_nil]
    exact ⟨hphase, fun hs => hbuf.trans (h.reading hs).1,
      fun hs => ⟨hbuf, hstate.trans hs⟩⟩

/-- **The account of the client's bytes**, over all runs before TLS. -/
theorem phase_run (certs : Certs) (hes : ∀ e ∈ es, Early e) : (run certs es).Phase (received es) := by
  induction es using List.reverseRecOn with
  | nil => exact ⟨rfl, rfl, (fun h => by cases h), fun _ => ⟨rfl, rfl, rfl⟩⟩
  | append_singleton es e ih =>
      rw [run_concat, received_concat]
      refine (Phase.step certs (ih fun e' he' => hes e' ?_) (hes e ?_)).1
      · exact List.mem_append_left _ he'
      · exact List.mem_append_right _ (List.mem_singleton_self e)

/-- What `parseConnect` has taken came with some events from the first on. -/
theorem connectBuffer_of_prefix (certs : Certs) (hes : ∀ e ∈ es, Early e) :
    ∃ pre, pre <+: es ∧ received pre = (run certs es).connectBuffer := by
  induction es using List.reverseRecOn with
  | nil => exact ⟨[], List.nil_prefix, rfl⟩
  | append_singleton es e ih =>
      have hbefore : ∀ e' ∈ es, Early e' := fun e' he' => hes e' (List.mem_append_left _ he')
      have hphase := phase_run certs hbefore
      obtain ⟨-, hread, hbump⟩ := hphase.step certs
        (hes e (List.mem_append_right _ (List.mem_singleton_self e)))
      rw [run_concat]
      cases hstate : (run certs es).state with
      | relaying => exact absurd hstate hphase.notRelaying
      | readConnect => exact ⟨es ++ [e], List.prefix_refl _, by rw [hread hstate, received_concat]⟩
      | bumping =>
          obtain ⟨pre, hpre, hrec⟩ := ih hbefore
          refine ⟨pre, hpre.trans (List.prefix_append es [e]), ?_⟩
          rw [hrec, (hbump hstate).1]

/-- A request head: its first empty line is its last, and it is a `CONNECT`. -/
structure ConnectHead (head : GoString) : Prop where
  ends : crlf2 <:+ head
  first : ∀ p, p <+: head → contains p crlf2 = true → p = head
  connect : (connectMatch head).isSome = true

/-- While the head comes in, the handler reads; when an event ends with it, the
handler has taken the head. -/
theorem run_of_head {head : GoString} (certs : Certs) (hhead : ConnectHead head) (hes : ∀ e ∈ es, Early e)
    (hpre : received es <+: head) :
    (received es ≠ head → (run certs es).state = .readConnect)
      ∧ (received es = head → (run certs es).state = .bumping
          ∧ (run certs es).connectBuffer = head) := by
  have hend : contains head crlf2 = true := contains_iff.mpr hhead.ends.isInfix
  have hne : head ≠ [] := by
    rintro rfl
    exact absurd (List.suffix_nil.mp hhead.ends) (by decide)
  induction es using List.reverseRecOn with
  | nil => exact ⟨fun _ => rfl, fun heq => absurd heq.symm hne⟩
  | append_singleton es e ih =>
      have hbefore : ∀ e' ∈ es, Early e' := fun e' he' => hes e' (List.mem_append_left _ he')
      have he : Early e := hes e (List.mem_append_right _ (List.mem_singleton_self e))
      rw [received_concat] at hpre ⊢
      obtain ⟨hopen, hdone⟩ := ih hbefore ((List.prefix_append _ _).trans hpre)
      have hphase := phase_run certs hbefore
      rw [run_concat]
      by_cases hall : received es = head
      · have hnil : received [e] = [] := by
          rw [hall] at hpre
          simpa using hpre.length_le
        obtain ⟨hstate, hbuf⟩ := hdone hall
        obtain ⟨-, -, hbump⟩ := hphase.step certs he
        rw [hnil, List.append_nil]
        exact ⟨fun h => absurd hall h, fun _ => ⟨(hbump hstate).2, (hbump hstate).1.trans hbuf⟩⟩
      · have hstate := hopen hall
        by_cases hb : ∃ bytes, e = .clientBytes bytes
        · obtain ⟨bytes, rfl⟩ := hb
          have hrec : received [.clientBytes bytes] = bytes := by simp [received]
          obtain ⟨hnext, hread, -⟩ := hphase.clientArrives certs bytes
          obtain ⟨hbuf, hparse⟩ := hread hstate
          rw [hrec] at hpre ⊢
          refine ⟨fun hmore => ?_, fun heq => ?_⟩
          · -- a proper part of the head has no empty line, so there is no match yet
            have hno := mt (hhead.first _ hpre) hmore
            cases hafter : (step certs (run certs es) (.clientBytes bytes)).state with
            | readConnect => rfl
            | relaying => exact absurd hafter hnext.notRelaying
            | bumping => exact absurd (hparse.mp hafter).1 hno
          · rw [heq] at hparse hbuf
            exact ⟨hparse.mpr ⟨hend, hhead.connect⟩, hbuf⟩
        · have hno : ∀ bytes, e ≠ .clientBytes bytes := fun bytes heq => hb ⟨bytes, heq⟩
          obtain ⟨-, hsame, -⟩ := hphase.other certs he hno
          rw [received_of_other hno, List.append_nil]
          exact ⟨fun _ => hsame.trans hstate, fun heq => absurd heq hall⟩

theorem connectBuffer_settled {pre post : List Event} (hes : ∀ e ∈ pre ++ post, Early e)
    (hstate : (run certs pre).state = .bumping) :
    (run certs (pre ++ post)).state = .bumping
      ∧ (run certs (pre ++ post)).connectBuffer = (run certs pre).connectBuffer := by
  induction post using List.reverseRecOn with
  | nil => simpa using hstate
  | append_singleton post e ih =>
      rw [← List.append_assoc] at hes ⊢
      have hbefore : ∀ e' ∈ pre ++ post, Early e' := fun e' he' =>
        hes e' (List.mem_append_left _ he')
      obtain ⟨hs, hb⟩ := ih hbefore
      obtain ⟨-, -, hbump⟩ := (phase_run certs hbefore).step certs
        (hes e (List.mem_append_right _ (List.mem_singleton_self e)))
      rw [run_concat]
      exact ⟨(hbump hs).2, (hbump hs).1.trans hb⟩

/-- **The bytes behind the request.** For every order of the events before the
client's TLS, and every way the client's bytes are spread over them: what the
ClientHello is peeked from, and what the TLS engine is given, is what stands
behind the head of the request exactly when some event ends where the head
ends. -/
theorem readable_iff {head rest : GoString} (hhead : ConnectHead head)
    (hes : ∀ e ∈ es, Early e) (hrec : received es = head ++ rest) :
    (run certs es).readable = rest ↔ ∃ pre, pre <+: es ∧ received pre = head := by
  have hbytes := (phase_run certs hes).bytes
  rw [hrec] at hbytes
  constructor
  · intro hrest
    obtain ⟨pre, hpre, hbuf⟩ := connectBuffer_of_prefix certs hes
    refine ⟨pre, hpre, hbuf.trans ?_⟩
    rw [hrest] at hbytes
    exact List.append_cancel_right hbytes
  · rintro ⟨pre, ⟨post, rfl⟩, hpre⟩
    have hbefore : ∀ e ∈ pre, Early e := fun e he => hes e (List.mem_append_left _ he)
    obtain ⟨hstate, hbuf⟩ := (run_of_head certs hhead hbefore
      (hpre ▸ List.prefix_refl _)).2 hpre
    rw [(connectBuffer_settled hes hstate).2, hbuf] at hbytes
    exact List.append_cancel_left hbytes

def exampleCerts : Certs := ⟨id, fun _ => true⟩

def exampleHead : GoString := lit "CONNECT a.b:443 HTTP/1.1\r\nHost: a.b\r\n\r\n"

/-- The shortest ClientHello that the reader lets through. -/
def exampleHello : GoString := [22, 3, 1, 0, 4, 1, 0, 0, 0]

theorem connectHead_example : ConnectHead exampleHead := by
  have hall : exampleHead.inits.all
      (fun p => !contains p crlf2 || p == exampleHead) = true := by decide +kernel
  refine ⟨by decide +kernel, fun p hp hc => ?_, by decide +kernel⟩
  have hp' := List.all_eq_true.mp hall p ((List.mem_inits p exampleHead).mpr hp)
  rw [hc] at hp'
  simpa using hp'

theorem early_clientBytes {chunks : List GoString} :
    ∀ e ∈ chunks.map Event.clientBytes, Early e := by
  intro e he
  obtain ⟨bytes, -, rfl⟩ := List.mem_map.mp he
  exact ⟨(fun h => by cases h), fun _ h => by cases h⟩

theorem readable_iff_split :
    (run exampleCerts ([exampleHead, exampleHello].map .clientBytes)).readable = exampleHello :=
  (readable_iff connectHead_example early_clientBytes (by decide +kernel)).mpr
    ⟨[.clientBytes exampleHead], by decide, by decide +kernel⟩

/-- A ClientHello in the segment of the request is gone. -/
theorem pipelined_hello_lost :
    ¬ ∀ (certs : Certs) (head rest : GoString) (es : List Event), ConnectHead head →
        (∀ e ∈ es, Early e) → received es = head ++ rest → (run certs es).readable = rest := by
  intro h
  have hrun := h exampleCerts exampleHead exampleHello
    ([exampleHead ++ exampleHello].map .clientBytes) connectHead_example early_clientBytes
    (by decide +kernel)
  exact absurd hrun (by decide +kernel)

/-! ## The bytes of the server -/

/-- What has come in on `serverSocket`, decrypted. -/
def sent (es : List Event) : GoString :=
  es.flatMap fun
    | .serverPlain bytes => bytes
    | _ => []

theorem sent_concat (es : List Event) (e : Event) : sent (es ++ [e]) = sent es ++ sent [e] := by
  rw [sent, List.flatMap_append]
  rfl

def Open (st : Handler) : Prop := st.clientReady = true ∧ st.serverReady = true

/-- The account of the server's bytes: the pump holds nothing back, and writes
nothing before both handshakes are through. -/
structure Pumped (sent : GoString) (st : Handler) : Prop where
  bytes : st.toClient ++ st.server = sent
  opened : st.Open → st.server = []
  closed : ¬ st.Open → st.toClient = []

/-- Two states that agree in what the server's side sees. -/
structure SameServer (st st' : Handler) : Prop where
  toClient : st'.toClient = st.toClient
  server : st'.server = st.server
  clientReady : st'.clientReady = st.clientReady
  serverReady : st'.serverReady = st.serverReady

theorem SameServer.refl (st : Handler) : SameServer st st := ⟨rfl, rfl, rfl, rfl⟩

theorem SameServer.trans {a b c : Handler} (h : SameServer a b) (h' : SameServer b c) :
    SameServer a c :=
  ⟨h'.toClient.trans h.toClient, h'.server.trans h.server, h'.clientReady.trans h.clientReady,
    h'.serverReady.trans h.serverReady⟩

theorem SameServer.pumped {st' : Handler} {sent : GoString} (h : SameServer st st')
    (hp : st.Pumped sent) : st'.Pumped sent := by
  have hopen : st'.Open ↔ st.Open := by rw [Open, Open, h.clientReady, h.serverReady]
  refine ⟨?_, fun ho => ?_, fun ho => ?_⟩
  · rw [h.toClient, h.server]
    exact hp.bytes
  · rw [h.server]
    exact hp.opened (hopen.mp ho)
  · rw [h.toClient]
    exact hp.closed (mt hopen.mpr ho)

theorem sameServer_pumpClientToServer (st : Handler) : SameServer st st.pumpClientToServer := by
  unfold pumpClientToServer
  split
  · exact .refl st
  · exact ⟨rfl, rfl, rfl, rfl⟩

theorem sameServer_lookHello (certs : Certs) (st : Handler) :
    SameServer st (st.lookHello certs) := by
  unfold lookHello
  split
  · exact ⟨rfl, rfl, rfl, rfl⟩
  · exact ⟨rfl, rfl, rfl, rfl⟩
  · unfold bump
    dsimp only
    split
    · exact ⟨rfl, rfl, rfl, rfl⟩
    · exact ⟨rfl, rfl, rfl, rfl⟩

theorem sameServer_startBump (certs : Certs) (st : Handler) :
    SameServer st (st.startBump certs) := by
  have hflag : SameServer st { st with bumpStarted := true } := ⟨rfl, rfl, rfl, rfl⟩
  exact hflag.trans (sameServer_lookHello certs _)

theorem sameServer_parseConnect (st : Handler) : SameServer st st.parseConnect.1 := by
  unfold parseConnect
  dsimp only
  split
  · exact ⟨rfl, rfl, rfl, rfl⟩
  · split
    · exact ⟨rfl, rfl, rfl, rfl⟩
    · exact ⟨rfl, rfl, rfl, rfl⟩

theorem sameServer_handleClientReadyRead (certs : Certs) (st : Handler) :
    SameServer st (st.handleClientReadyRead certs) := by
  unfold handleClientReadyRead
  split
  · have hparse := sameServer_parseConnect st
    split
    · rename_i st' heq
      rw [heq] at hparse
      have hbump : SameServer st { st' with state := .bumping } :=
        hparse.trans ⟨rfl, rfl, rfl, rfl⟩
      dsimp only
      split
      · exact hbump.trans (sameServer_startBump certs _)
      · exact hbump
    · rename_i st' heq
      rw [heq] at hparse
      exact hparse
  · split
    · exact sameServer_startBump certs st
    · exact .refl st
  · exact sameServer_pumpClientToServer st

theorem sameServer_buffer (bytes : GoString) (st : Handler) : SameServer st (st.buffer bytes) :=
  ⟨rfl, rfl, rfl, rfl⟩

theorem sameServer_clientArrives (certs : Certs) (bytes : GoString) (st : Handler) :
    SameServer st (st.clientArrives certs bytes) := by
  unfold clientArrives
  split
  · exact ⟨rfl, rfl, rfl, rfl⟩
  · dsimp only
    split
    · exact (sameServer_buffer bytes st).trans (sameServer_lookHello certs _)
    · exact (sameServer_buffer bytes st).trans (sameServer_handleClientReadyRead certs _)

theorem event_cases (e : Event) :
    e = .clientEncrypted ∨ e = .serverEncrypted ∨ (∃ bytes, e = .serverPlain bytes)
      ∨ ((e ≠ .clientEncrypted ∧ e ≠ .serverEncrypted ∧ sent [e] = [])
          ∧ ∀ certs st, SameServer st (step certs st e)) := by
  cases e with
  | clientEncrypted => exact .inl rfl
  | serverEncrypted => exact .inr (.inl rfl)
  | serverPlain bytes => exact .inr (.inr (.inl ⟨bytes, rfl⟩))
  | clientBytes bytes =>
      refine .inr (.inr (.inr ⟨by simp [sent], fun certs st => ?_⟩))
      exact sameServer_clientArrives certs bytes st
  | clientPlain bytes =>
      refine .inr (.inr (.inr ⟨by simp [sent], fun certs st => ?_⟩))
      exact (sameServer_buffer bytes st).trans (sameServer_handleClientReadyRead certs _)
  | helloTimeout =>
      refine .inr (.inr (.inr ⟨by simp [sent], fun certs st => ?_⟩))
      rw [step]
      split
      · exact ⟨rfl, rfl, rfl, rfl⟩
      · exact .refl st
  | clientDisconnected =>
      exact .inr (.inr (.inr ⟨by simp [sent], fun _ _ => ⟨rfl, rfl, rfl, rfl⟩⟩))
  | serverDisconnected =>
      exact .inr (.inr (.inr ⟨by simp [sent], fun _ _ => ⟨rfl, rfl, rfl, rfl⟩⟩))

theorem pumped_pumpServerToClient {sent : GoString} (hbytes : st.toClient ++ st.server = sent)
    (hclosed : ¬ st.Open → st.toClient = []) : st.pumpServerToClient.Pumped sent := by
  unfold pumpServerToClient
  by_cases hopen : st.Open
  · have hready : ¬ (¬ st.serverReady = true ∨ ¬ st.clientReady = true) := by
      simp [hopen.1, hopen.2]
    rw [if_neg hready]
    exact ⟨by rw [List.append_nil, hbytes], fun _ => rfl, fun ho => absurd hopen ho⟩
  · have hready : ¬ st.serverReady = true ∨ ¬ st.clientReady = true := by
      by_contra hboth
      rw [not_or, not_not, not_not] at hboth
      exact hopen ⟨hboth.2, hboth.1⟩
    rw [if_pos hready]
    exact ⟨hbytes, fun ho => absurd ho hopen, hclosed⟩

theorem Pumped.step {sent' : GoString} (h : st.Pumped sent') (e : Event) :
    (Handler.step certs st e).Pumped (sent' ++ sent [e]) := by
  obtain rfl | rfl | ⟨bytes, rfl⟩ | ⟨⟨-, -, hsent⟩, hsame⟩ := event_cases e
  · rw [show sent [.clientEncrypted] = [] from rfl, List.append_nil]
    have hpump := sameServer_pumpClientToServer { st with clientReady := true, state := .relaying }
    refine pumped_pumpServerToClient ?_ fun hno => ?_
    · rw [hpump.toClient, hpump.server]
      exact h.bytes
    · rw [hpump.toClient]
      exact h.closed fun hopen => hno ⟨hpump.clientReady, hpump.serverReady.trans hopen.2⟩
  · rw [show sent [.serverEncrypted] = [] from rfl, List.append_nil]
    refine (sameServer_pumpClientToServer _).pumped (pumped_pumpServerToClient h.bytes ?_)
    intro hno
    exact h.closed fun hopen => hno ⟨hopen.1, rfl⟩
  · have hsent : sent [.serverPlain bytes] = bytes := by simp [sent]
    rw [hsent]
    refine pumped_pumpServerToClient ?_ h.closed
    rw [← h.bytes, List.append_assoc]
  · rw [hsent, List.append_nil]
    exact (hsame certs st).pumped h

/-- **The account of the server's bytes**, over all runs. -/
theorem pumped_run (certs : Certs) (es : List Event) : (run certs es).Pumped (sent es) := by
  induction es using List.reverseRecOn with
  | nil => exact ⟨rfl, fun _ => rfl, fun _ => rfl⟩
  | append_singleton es e ih =>
      rw [run_concat, sent_concat]
      exact ih.step e

theorem pumpServerToClient_ready (st : Handler) :
    st.pumpServerToClient.clientReady = st.clientReady
      ∧ st.pumpServerToClient.serverReady = st.serverReady := by
  unfold pumpServerToClient
  split
  · exact ⟨rfl, rfl⟩
  · exact ⟨rfl, rfl⟩

/-- A side is ready from its `encrypted` on, and from nothing else. -/
theorem ready_step (certs : Certs) (st : Handler) (e : Event) :
    ((step certs st e).clientReady = true ↔ st.clientReady = true ∨ e = .clientEncrypted)
      ∧ ((step certs st e).serverReady = true ↔ st.serverReady = true ∨ e = .serverEncrypted) := by
  obtain rfl | rfl | ⟨bytes, rfl⟩ | ⟨⟨hc, hs, -⟩, hsame⟩ := event_cases e
  · have hpump := sameServer_pumpClientToServer { st with clientReady := true, state := .relaying }
    rw [step, handleClientEncrypted, (pumpServerToClient_ready _).1,
      (pumpServerToClient_ready _).2, hpump.clientReady, hpump.serverReady]
    simp
  · have hpump := sameServer_pumpClientToServer
      ({ st with serverReady := true } : Handler).pumpServerToClient
    rw [step, handleServerEncrypted, hpump.clientReady, hpump.serverReady,
      (pumpServerToClient_ready _).1, (pumpServerToClient_ready _).2]
    simp
  · rw [step, (pumpServerToClient_ready _).1, (pumpServerToClient_ready _).2]
    simp
  · rw [(hsame certs st).clientReady, (hsame certs st).serverReady]
    simp [hc, hs]

theorem ready_run_iff (certs : Certs) (es : List Event) :
    ((run certs es).clientReady = true ↔ .clientEncrypted ∈ es)
      ∧ ((run certs es).serverReady = true ↔ .serverEncrypted ∈ es) := by
  induction es using List.reverseRecOn with
  | nil => simp [run]
  | append_singleton es e ih =>
      obtain ⟨hclient, hserver⟩ := ready_step certs (run certs es) e
      rw [run_concat, hclient, hserver, ih.1, ih.2, List.mem_append, List.mem_append,
        List.mem_singleton, List.mem_singleton, eq_comm (a := e), eq_comm (a := e)]
      exact ⟨Iff.rfl, Iff.rfl⟩

/-- **The server's bytes.** In every order of events, a disconnect of the server
ends the connection, and all that the server sent before it has been written to
the client, in order and once, exactly when both handshakes were through or the
server had sent nothing. -/
theorem relayed_iff (certs : Certs) {es : List Event} (hlive : (run certs es).finished = false) :
    (run certs (es ++ [.serverDisconnected])).finished ≠ (run certs es).finished
      ∧ ((run certs (es ++ [.serverDisconnected])).toClient = sent es
          ↔ (.clientEncrypted ∈ es ∧ .serverEncrypted ∈ es) ∨ sent es = []) := by
  have hpumped := pumped_run certs es
  have hopen : (run certs es).Open ↔ .clientEncrypted ∈ es ∧ .serverEncrypted ∈ es := by
    rw [Open, (ready_run_iff certs es).1, (ready_run_iff certs es).2]
  rw [run_concat, ← hopen]
  refine ⟨by simp [step, shutdown, hlive], ?_⟩
  change (run certs es).toClient = sent es ↔ _
  constructor
  · intro hall
    by_cases ho : (run certs es).Open
    · exact .inl ho
    · rw [← hall]
      exact .inr (hpumped.closed ho)
  · rintro (ho | hnone)
    · rw [← hpumped.bytes, hpumped.opened ho, List.append_nil]
    · have hbytes := hpumped.bytes
      rw [hnone] at hbytes ⊢
      exact (List.append_eq_nil_iff.mp hbytes).1

/-- Request, ClientHello, and the handshake of the server. -/
def serverFirst : List Event :=
  [.clientBytes exampleHead, .clientBytes exampleHello, .serverEncrypted]

theorem relayed_iff_late :
    (run exampleCerts (serverFirst ++ [.serverPlain (lit "bye"), .clientEncrypted]
      ++ [.serverDisconnected])).toClient = lit "bye" := by
  have hopen : (run exampleCerts (serverFirst
      ++ [.serverPlain (lit "bye"), .clientEncrypted])).finished = false := by decide +kernel
  exact (relayed_iff exampleCerts hopen).2.mpr (.inl (by decide))

/-- A server that sends and closes before the client's handshake is through is
not heard. -/
theorem early_bytes_lost :
    ¬ ∀ (certs : Certs) (es later : List Event), (run certs es).finished = false →
        .clientDisconnected ∉ es ++ later → .clientEncrypted ∈ es ++ later →
        (run certs (es ++ [.serverDisconnected])).toClient = sent es := by
  intro h
  have hrun := h exampleCerts (serverFirst ++ [.serverPlain (lit "bye")]) [.clientEncrypted]
    (by decide +kernel) (by decide) (by decide)
  exact absurd hrun (by decide +kernel)

end Handler

end Qt

end RbiProxy
