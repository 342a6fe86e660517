import RbiProxy.Indexed
import RbiProxy.Reach

/-!
# The control channel of the camera relay

`content.js` runs beside every isolated page and hands what the page posts about its
camera and microphone to `control_handler` of `camrelay.py`, which broadcasts it to
every subscriber in `SUBS`. While the socket of a page is not open its messages wait in
`queue`, and a socket that closes is replaced by a new one.

The parties take turns in any order. A message is posted, sent, on its way, taken up by
the handler of its connection and then sent to one subscriber after the other, with
every other handler running in between. A connection can break at any time and lose the
end of what is on its way, and a send to a subscriber can fail, which removes it from
`SUBS`.

`sent_in_order` is what is left in every run: what a page posts is sent in that order,
over one connection after the other, and of each connection a subscriber gets one piece
without a gap, in order and once. `delivered_all` says what ends the piece: a subscriber that is
still in `SUBS` has everything that was sent since it came, once the connection is
empty. Nothing is said about messages of two connections of one page. The handler of
the old one may still be at work when the new one begins.
-/

namespace RbiProxy

namespace Control

variable {μ : Type}

/-! ## The parties -/

/-- Where `ws` of `content.js` stands; the number is that of the connection. -/
inductive Socket where
  /-- `ws` is `null`, and `connect` will be called. -/
  | null
  | connecting (c : Nat)
  | opened (c : Nat)
  /-- No longer open, with `onclose` still to come. -/
  | closing (c : Nat)
deriving DecidableEq

structure Page (μ : Type) where
  socket : Socket := .null
  queue : List μ := []
  /-- All that the page has posted. -/
  posted : List μ := []
  /-- All that was given to `ws.send`, with the connection. -/
  sent : List (Nat × μ) := []
deriving DecidableEq

/-- Where `control_handler` stands for a connection of a page. -/
inductive Handler (μ : Type) where
  | absent
  /-- `async for msg in ws`. -/
  | reading
  /-- `for s in list(SUBS)`: the message, and the subscribers still to come. -/
  | sending (m : μ) (rest : List Nat)
  | done
deriving DecidableEq

structure Conn (μ : Type) where
  page : Nat
  /-- On the way to the relay. -/
  flight : List μ := []
  /-- Broken: what is sent from now on is lost. -/
  cut : Bool := false
  handler : Handler μ := .absent
  /-- All that the handler has taken up. -/
  taken : List μ := []
deriving DecidableEq

structure Sub (μ : Type) where
  /-- How much had been taken up of each connection when it came. -/
  since : List Nat
  /-- What it was sent, with the connection it came from. -/
  got : List (Nat × μ) := []
deriving DecidableEq

structure State (μ : Type) where
  pages : List (Page μ) := []
  conns : List (Conn μ) := []
  members : List (Sub μ) := []
  /-- `SUBS`. -/
  subs : List Nat := []
deriving DecidableEq

inductive Event (μ : Type) where
  /-- A page is opened and `content.js` starts. -/
  | load
  /-- The page posts a message to the content script. -/
  | post (p : Nat) (m : μ)
  /-- `new WebSocket`. -/
  | connect (p : Nat)
  /-- The handler of the connection starts. -/
  | accept (c : Nat)
  /-- `onopen`. -/
  | opens (p : Nat)
  /-- The socket leaves the state `OPEN`. -/
  | breaks (p : Nat)
  /-- `onclose`. -/
  | closes (p : Nat)
  /-- The connection breaks; `n` messages of those on their way still arrive. -/
  | cut (c : Nat) (n : Nat)
  /-- The handler takes up a message and copies `SUBS` in some order. -/
  | take (c : Nat) (order : List Nat)
  /-- `await s.send_str(msg.data)` for the next subscriber; `ok` says that it does not
  raise. -/
  | send (c : Nat) (ok : Bool)
  /-- The loop of the handler ends. -/
  | ends (c : Nat)
  | join
  | leave (k : Nat)

/-! ## The steps -/

def Handler.isAbsent : Handler μ → Bool
  | .absent => true
  | _ => false

/-- What is sent over a connection is on its way, unless it is broken. -/
def Conn.carry (conn : Conn μ) (ms : List μ) : Conn μ :=
  if conn.cut then conn else { conn with flight := conn.flight ++ ms }

namespace State

def setPage (s : State μ) (p : Nat) (pg : Page μ) : State μ :=
  { s with pages := s.pages.set p pg }

def setConn (s : State μ) (c : Nat) (conn : Conn μ) : State μ :=
  { s with conns := s.conns.set c conn }

/-- `ws.send` of each message, by page `p` over connection `c`. -/
def transmit (s : State μ) (p : Nat) (pg : Page μ) (c : Nat) (conn : Conn μ) (ms : List μ) :
    State μ :=
  (s.setPage p { pg with sent := pg.sent ++ ms.map fun m => (c, m) }).setConn c (conn.carry ms)

/-- The listener of `content.js` for messages of the page. -/
def post (s : State μ) (p : Nat) (pg : Page μ) (m : μ) : Option (State μ) :=
  let pg := { pg with posted := pg.posted ++ [m] }
  match pg.socket with
  | .opened c => (s.conns[c]?).map fun conn => s.transmit p pg c conn [m]
  | _ => some (s.setPage p { pg with queue := pg.queue ++ [m] })

/-- `onopen` sends what is in the queue. -/
def onopen (s : State μ) (p : Nat) (pg : Page μ) (c : Nat) (conn : Conn μ) : State μ :=
  s.transmit p { pg with socket := .opened c, queue := [] } c conn pg.queue

/-- One subscriber of the loop of `control_handler`. -/
def sendStr (s : State μ) (c : Nat) (conn : Conn μ) (ok : Bool) (m : μ) :
    List Nat → Option (State μ)
  | [] => some (s.setConn c { conn with handler := .reading })
  | k :: rest =>
    let s := s.setConn c { conn with handler := .sending m rest }
    if ok then
      (s.members[k]?).map fun sub =>
        { s with members := s.members.set k { sub with got := sub.got ++ [(c, m)] } }
    else some { s with subs := s.subs.erase k }

def step (s : State μ) : Event μ → Option (State μ)
  | .load => some { s with pages := s.pages ++ [{}] }
  | .post p m =>
    match s.pages[p]? with
    | some pg => s.post p pg m
    | none => none
  | .connect p =>
    match s.pages[p]? with
    | some pg =>
      if pg.socket = .null then
        some { s.setPage p { pg with socket := .connecting s.conns.length } with
          conns := s.conns ++ [{ page := p }] }
      else none
    | none => none
  | .accept c =>
    match s.conns[c]? with
    | some conn =>
      if conn.handler.isAbsent then some (s.setConn c { conn with handler := .reading }) else none
    | none => none
  | .opens p =>
    match s.pages[p]? with
    | some pg =>
      match pg.socket with
      | .connecting c =>
        match s.conns[c]? with
        | some conn => if conn.handler.isAbsent then none else some (s.onopen p pg c conn)
        | none => none
      | _ => none
    | none => none
  | .breaks p =>
    match s.pages[p]? with
    | some pg =>
      match pg.socket with
      | .connecting c | .opened c => some (s.setPage p { pg with socket := .closing c })
      | _ => none
    | none => none
  | .closes p =>
    match s.pages[p]? with
    | some pg =>
      match pg.socket with
      | .closing _ => some (s.setPage p { pg with socket := .null })
      | _ => none
    | none => none
  | .cut c n =>
    (s.conns[c]?).map fun conn =>
      s.setConn c { conn with flight := conn.flight.take n, cut := true }
  | .take c order =>
    match s.conns[c]? with
    | some conn =>
      match conn.handler, conn.flight with
      | .reading, m :: flight =>
        if order.Perm s.subs then
          some (s.setConn c { conn with
            flight, handler := .sending m order, taken := conn.taken ++ [m] })
        else none
      | _, _ => none
    | none => none
  | .send c ok =>
    match s.conns[c]? with
    | some conn =>
      match conn.handler with
      | .sending m rest => s.sendStr c conn ok m rest
      | _ => none
    | none => none
  | .ends c =>
    match s.conns[c]? with
    | some conn =>
      match conn.handler with
      | .reading => some (s.setConn c { conn with handler := .done })
      | _ => none
    | none => none
  | .join =>
    some { s with
      members := s.members ++ [{ since := s.conns.map fun conn => conn.taken.length }]
      subs := s.subs ++ [s.members.length] }
  | .leave k => some { s with subs := s.subs.erase k }

end State

/-! ## The messages of one connection -/

def via (c : Nat) (l : List (Nat × μ)) : List μ := (l.filter fun x => x.1 == c).map (·.2)

@[simp] theorem via_nil (c : Nat) : via c ([] : List (Nat × μ)) = [] := rfl

@[simp] theorem via_append (c : Nat) (l l' : List (Nat × μ)) :
    via c (l ++ l') = via c l ++ via c l' := by
  simp [via]

@[simp] theorem via_self (c : Nat) (ms : List μ) : via c (ms.map fun m => (c, m)) = ms := by
  simp [via, List.filter_map, Function.comp_def]

theorem via_ne {c d : Nat} (h : d ≠ c) (ms : List μ) : via c (ms.map fun m => (d, m)) = [] := by
  simp [via, List.filter_map, Function.comp_def, h]

theorem via_eq_nil {c : Nat} {l : List (Nat × μ)} (h : ∀ x ∈ l, x.1 ≠ c) : via c l = [] := by
  simp only [via, List.map_eq_nil_iff, List.filter_eq_nil_iff, beq_iff_eq]
  exact h

theorem via_cons_self (c : Nat) (m : μ) (l : List (Nat × μ)) :
    via c ((c, m) :: l) = m :: via c l := by
  simp [via]

theorem via_cons_ne {c : Nat} {x : Nat × μ} (h : x.1 ≠ c) (l : List (Nat × μ)) :
    via c (x :: l) = via c l := by
  simp [via, h]

/-- Where the connections come one after the other, those of the first come first. -/
theorem via_first {c : Nat} : ∀ {l : List (Nat × μ)}, (l.map (·.1)).Pairwise (· ≤ ·) →
    (∀ x ∈ l, c ≤ x.1) → via c l <+: l.map (·.2)
  | [], _, _ => List.nil_prefix
  | (d, m) :: l, hturn, hle => by
      obtain ⟨hhead, htail⟩ := List.pairwise_cons.mp hturn
      by_cases hd : d = c
      · subst hd
        rw [via_cons_self, List.map_cons]
        exact List.prefix_cons_inj m |>.mpr
          (via_first htail fun x hx => hle x (List.mem_cons_of_mem _ hx))
      · have hlt : c < d := Nat.lt_of_le_of_ne (hle _ List.mem_cons_self) (Ne.symm hd)
        have hnil : via c ((d, m) :: l) = [] := by
          refine via_eq_nil fun x hx => ?_
          rcases List.mem_cons.mp hx with rfl | hx
          · exact hd
          · exact Nat.ne_of_gt (Nat.lt_of_lt_of_le hlt (hhead _ (List.mem_map_of_mem hx)))
        rw [hnil]
        exact List.nil_prefix

theorem via_together (c : Nat) : ∀ {l : List (Nat × μ)}, (l.map (·.1)).Pairwise (· ≤ ·) →
    via c l <:+: l.map (·.2)
  | [], _ => List.infix_rfl
  | (d, m) :: l, hturn => by
      obtain ⟨hhead, htail⟩ := List.pairwise_cons.mp hturn
      by_cases hd : d = c
      · subst hd
        refine (via_first hturn fun x hx => ?_).isInfix
        rcases List.mem_cons.mp hx with rfl | hx
        · exact Nat.le_refl _
        · exact hhead _ (List.mem_map_of_mem hx)
      · rw [via_cons_ne hd]
        exact (via_together c htail).trans (List.suffix_cons _ _).isInfix

theorem via_last {c : Nat} : ∀ {l : List (Nat × μ)}, (l.map (·.1)).Pairwise (· ≤ ·) →
    (∀ x ∈ l, x.1 ≤ c) → via c l <:+ l.map (·.2)
  | [], _, _ => List.suffix_rfl
  | (d, m) :: l, hturn, hle => by
      obtain ⟨hhead, htail⟩ := List.pairwise_cons.mp hturn
      by_cases hd : d = c
      · subst hd
        have hall : ∀ x ∈ (d, m) :: l, x.1 = d := by
          intro x hx
          refine Nat.le_antisymm (hle x hx) ?_
          rcases List.mem_cons.mp hx with rfl | hx
          · exact Nat.le_refl _
          · exact hhead _ (List.mem_map_of_mem hx)
        have hself : ((d, m) :: l).filter (fun x => x.1 == d) = (d, m) :: l :=
          List.filter_eq_self.mpr fun x hx => beq_iff_eq.mpr (hall x hx)
        exact ⟨[], congrArg (List.map fun x : Nat × μ => x.2) hself⟩
      · rw [via_cons_ne hd]
        exact (via_last htail fun x hx => hle x (List.mem_cons_of_mem _ hx)).trans
          (List.suffix_cons _ _)

/-! ## What a subscriber is sent -/

def Socket.conn? : Socket → Option Nat
  | .null => none
  | .connecting c | .opened c | .closing c => some c

namespace Handler

/-- The subscribers that are still to be sent the message at hand. -/
def rest : Handler μ → List Nat
  | .sending _ rest => rest
  | _ => []

/-- The message at hand, if the subscriber is still to be sent it. -/
def pending (k : Nat) : Handler μ → List μ
  | .sending m rest => if k ∈ rest then [m] else []
  | _ => []

theorem pending_of_notMem {k : Nat} {h : Handler μ} (hk : k ∉ h.rest) : h.pending k = [] := by
  cases h with
  | sending m rest => exact if_neg hk
  | _ => rfl

end Handler

/-- What a page has sent and what it keeps. -/
structure PageInv (conns : List (Conn μ)) (p : Nat) (pg : Page μ) : Prop where
  posted : pg.posted = pg.sent.map (·.2) ++ pg.queue
  inTurn : (pg.sent.map (·.1)).Pairwise (· ≤ ·)
  own : ∀ x ∈ pg.sent, ∃ conn : Conn μ, conns[x.1]? = some conn ∧ conn.page = p
  /-- The connection of the socket is the last one. -/
  current : ∀ {c}, pg.socket.conn? = some c →
    (∃ conn : Conn μ, conns[c]? = some conn ∧ conn.page = p) ∧ ∀ x ∈ pg.sent, x.1 ≤ c
  opened : ∀ {c}, pg.socket = .opened c → pg.queue = []

/-- What is sent over a connection is taken up, on its way or, if it is broken, lost. -/
structure ConnInv (pages : List (Page μ)) (members : Nat) (c : Nat) (conn : Conn μ) : Prop where
  sent : ∃ pg lost, pages[conn.page]? = some pg
    ∧ via c pg.sent = conn.taken ++ conn.flight ++ lost ∧ (conn.cut = false → lost = [])
  once : conn.handler.rest.Nodup
  known : ∀ k ∈ conn.handler.rest, k < members

/-- A subscriber has the messages of a connection from its coming on. -/
structure Follows (subs : List Nat) (k : Nat) (sub : Sub μ) (c : Nat) (conn : Conn μ) : Prop where
  since : sub.since.getD c 0 ≤ conn.taken.length
  got : via c sub.got <+: conn.taken.drop (sub.since.getD c 0)
  /-- All of them, as long as it is in `SUBS` or in the copy of the handler. -/
  reached : k ∈ subs ∨ k ∈ conn.handler.rest →
    via c sub.got ++ conn.handler.pending k = conn.taken.drop (sub.since.getD c 0)

structure Inv (s : State μ) : Prop where
  page : ∀ (p : Nat) (pg : Page μ), s.pages[p]? = some pg → PageInv s.conns p pg
  conn : ∀ (c : Nat) (conn : Conn μ), s.conns[c]? = some conn →
    ConnInv s.pages s.members.length c conn
  follows : ∀ (k : Nat) (sub : Sub μ), s.members[k]? = some sub →
    ∀ (c : Nat) (conn : Conn μ), s.conns[c]? = some conn → Follows s.subs k sub c conn
  /-- A subscriber knows no connection that is still to come. -/
  known : ∀ (k : Nat) (sub : Sub μ), s.members[k]? = some sub →
    sub.since.length ≤ s.conns.length ∧ ∀ x ∈ sub.got, x.1 < s.conns.length
  subs : s.subs.Nodup
  members : ∀ k ∈ s.subs, k < s.members.length

/-! ## One party moves -/

section Moves

variable {s t : State μ} {p c k : Nat} {pg pg' : Page μ} {conn conn' : Conn μ}

theorem Inv.empty : Inv (μ := μ) {} where
  page := fun p pg h => (by cases h)
  conn := fun c conn h => (by cases h)
  follows := fun k sub h => (by cases h)
  known := fun k sub h => (by cases h)
  subs := List.nodup_nil
  members := fun k h => (by cases h)

/-- Where the connections stay with their pages, the pages know theirs. -/
theorem PageInv.mono {conns conns' : List (Conn μ)} (h : PageInv conns p pg)
    (hconns : ∀ (c : Nat) (conn : Conn μ), conns[c]? = some conn → conn.page = p →
      ∃ conn', conns'[c]? = some conn' ∧ conn'.page = p) : PageInv conns' p pg := by
  refine ⟨h.posted, h.inTurn, fun x hx => ?_, fun hcur => ?_, h.opened⟩
  · obtain ⟨conn, hconn, hpage⟩ := h.own x hx
    exact hconns _ _ hconn hpage
  · obtain ⟨⟨conn, hconn, hpage⟩, hle⟩ := h.current hcur
    exact ⟨hconns _ _ hconn hpage, hle⟩

theorem stays_setConn (hc : s.conns[c]? = some conn) (hpage : conn'.page = conn.page) {q d : Nat}
    {conn₀ : Conn μ} (hd : s.conns[d]? = some conn₀) (hq : conn₀.page = q) :
    ∃ conn₁, (s.conns.set c conn')[d]? = some conn₁ ∧ conn₁.page = q := by
  by_cases hdc : d = c
  · subst hdc
    obtain rfl : conn = conn₀ := Option.some.inj (hc.symm.trans hd)
    exact ⟨conn', Indexed.set_self hc, hpage.trans hq⟩
  · exact ⟨conn₀, (Indexed.set_ne hdc).trans hd, hq⟩

theorem Inv.setPage (h : Inv s) (hp : s.pages[p]? = some pg) (hsent : pg'.sent = pg.sent)
    (hpg : PageInv s.conns p pg') : Inv (s.setPage p pg') := by
  refine ⟨Indexed.forall_set h.page hpg, fun c conn hc => ?_, h.follows, h.known, h.subs,
    h.members⟩
  obtain ⟨⟨pg₀, lost, hpg₀, hvia, hlost⟩, honce, hknown⟩ := h.conn c conn hc
  refine ⟨?_, honce, hknown⟩
  by_cases hpage : conn.page = p
  · subst hpage
    obtain rfl : pg = pg₀ := Option.some.inj (hp.symm.trans hpg₀)
    exact ⟨pg', lost, Indexed.set_self hp, by rw [hsent, hvia], hlost⟩
  · exact ⟨pg₀, lost, (Indexed.set_ne hpage).trans hpg₀, hvia, hlost⟩

/-- A connection changes, and stays with its page. -/
theorem Inv.setConn (h : Inv s) (hc : s.conns[c]? = some conn) (hpage : conn'.page = conn.page)
    (hconn : ConnInv s.pages s.members.length c conn')
    (hfollows : ∀ (k : Nat) (sub : Sub μ), s.members[k]? = some sub →
      Follows s.subs k sub c conn') : Inv (s.setConn c conn') := by
  refine ⟨fun p pg hp => (h.page p pg hp).mono fun d conn₀ hd hq => stays_setConn hc hpage hd hq,
    Indexed.forall_set h.conn hconn, fun k sub hk => ?_, fun k sub hk => ?_, h.subs, h.members⟩
  · exact Indexed.forall_set (h.follows k sub hk) (hfollows k sub hk)
  · change sub.since.length ≤ (s.conns.set c conn').length
      ∧ ∀ x ∈ sub.got, x.1 < (s.conns.set c conn').length
    rw [List.length_set]
    exact h.known k sub hk

/-! ### A page sends -/

theorem PageInv.sends {conns : List (Conn μ)} (h : PageInv conns p pg)
    (hcur : pg.socket.conn? = some c) {ms : List μ} (hsocket : pg'.socket.conn? = some c)
    (hsent : pg'.sent = pg.sent ++ ms.map fun m => (c, m)) (hqueue : pg'.queue = [])
    (hposted : pg'.posted = pg.sent.map (·.2) ++ ms) : PageInv conns p pg' := by
  obtain ⟨hconn, hle⟩ := h.current hcur
  have hmem : ∀ x ∈ pg'.sent, x ∈ pg.sent ∨ x.1 = c := by
    intro x hx
    rw [hsent] at hx
    rcases List.mem_append.mp hx with hold | hnew
    · exact .inl hold
    · obtain ⟨m, -, rfl⟩ := List.mem_map.mp hnew
      exact .inr rfl
  refine ⟨?_, ?_, fun x hx => ?_, fun hcur' => ?_, fun _ => hqueue⟩
  · rw [hposted, hsent, hqueue, List.append_nil, List.map_append, List.map_map]
    simp [Function.comp_def]
  · rw [hsent, List.map_append, List.pairwise_append, List.map_map]
    refine ⟨h.inTurn, ?_, fun x hx y hy => ?_⟩
    · exact List.pairwise_map.mpr (List.pairwise_of_forall fun _ _ => Nat.le_refl c)
    · obtain ⟨z, hz, rfl⟩ := List.mem_map.mp hx
      obtain ⟨m, -, rfl⟩ := List.mem_map.mp hy
      exact hle z hz
  · rcases hmem x hx with hold | hnew
    · exact h.own x hold
    · rw [hnew]
      exact hconn
  · obtain rfl := Option.some.inj (hsocket.symm.trans hcur')
    refine ⟨hconn, fun x hx => ?_⟩
    rcases hmem x hx with hold | hnew
    · exact hle x hold
    · exact Nat.le_of_eq hnew

@[simp] theorem carry_page (ms : List μ) : (conn.carry ms).page = conn.page := by
  unfold Conn.carry
  split <;> rfl

@[simp] theorem carry_taken (ms : List μ) : (conn.carry ms).taken = conn.taken := by
  unfold Conn.carry
  split <;> rfl

@[simp] theorem carry_handler (ms : List μ) : (conn.carry ms).handler = conn.handler := by
  unfold Conn.carry
  split <;> rfl

theorem carry_sent (ms : List μ) {l lost : List μ} (h : l = conn.taken ++ conn.flight ++ lost)
    (hlost : conn.cut = false → lost = []) :
    ∃ lost', l ++ ms = (conn.carry ms).taken ++ (conn.carry ms).flight ++ lost'
      ∧ ((conn.carry ms).cut = false → lost' = []) := by
  unfold Conn.carry
  split
  case isTrue hcut => exact ⟨lost ++ ms, by simp [h], fun hnot => by simp [hcut] at hnot⟩
  case isFalse hcut =>
    obtain rfl := hlost (Bool.eq_false_iff.mpr hcut)
    exact ⟨[], by simp [h], fun _ => rfl⟩

/-- What a subscriber follows is told by what is taken up and by the handler. -/
theorem Follows.same {subs : List Nat} {sub : Sub μ} (h : Follows subs k sub c conn)
    (htaken : conn'.taken = conn.taken) (hrest : conn'.handler.rest = conn.handler.rest)
    (hpending : conn'.handler.pending k = conn.handler.pending k) : Follows subs k sub c conn' := by
  refine ⟨?_, ?_, ?_⟩
  · rw [htaken]
    exact h.since
  · rw [htaken]
    exact h.got
  · rw [htaken, hrest, hpending]
    exact h.reached

theorem Inv.transmit (h : Inv s) (hp : s.pages[p]? = some pg) (hc : s.conns[c]? = some conn)
    (hcur : pg.socket.conn? = some c) {ms : List μ} (hsent : pg'.sent = pg.sent)
    (hsocket : pg'.socket.conn? = some c) (hqueue : pg'.queue = [])
    (hposted : pg'.posted = pg.sent.map (·.2) ++ ms) : Inv (s.transmit p pg' c conn ms) := by
  obtain ⟨⟨conn₁, hconn₁, hpage⟩, -⟩ := (h.page p pg hp).current hcur
  obtain rfl : conn = conn₁ := Option.some.inj (hc.symm.trans hconn₁)
  have hpg : PageInv s.conns p { pg' with sent := pg'.sent ++ ms.map fun m => (c, m) } :=
    (h.page p pg hp).sends hcur hsocket (by rw [hsent]) hqueue hposted
  refine ⟨fun q pg₀ hq => ?_, fun d conn₀ hd => ?_, fun k sub hk d conn₀ hd => ?_,
    fun k sub hk => ?_, h.subs, h.members⟩
  · have hstays := fun (d : Nat) (conn₀ : Conn μ) (hd : s.conns[d]? = some conn₀)
        (hpage₀ : conn₀.page = q) => stays_setConn hc (carry_page ms) hd hpage₀
    rcases Indexed.of_set hq with ⟨rfl, rfl⟩ | ⟨-, hold⟩
    · exact hpg.mono hstays
    · exact (h.page q pg₀ hold).mono hstays
  · rcases Indexed.of_set hd with ⟨rfl, rfl⟩ | ⟨hdc, hold⟩
    · obtain ⟨⟨pg₁, lost, hpg₁, hvia, hlost⟩, honce, hknown⟩ := h.conn d conn hc
      rw [hpage] at hpg₁
      obtain rfl : pg = pg₁ := Option.some.inj (hp.symm.trans hpg₁)
      obtain ⟨lost', hvia', hlost'⟩ := carry_sent ms hvia hlost
      refine ⟨⟨{ pg' with sent := pg'.sent ++ ms.map fun m => (d, m) }, lost', ?_, ?_, hlost'⟩,
        ?_, ?_⟩
      · rw [carry_page, hpage]
        exact Indexed.set_self hp
      · rw [← hvia', hsent, via_append, via_self]
      · rw [carry_handler]
        exact honce
      · rw [carry_handler]
        exact hknown
    · obtain ⟨⟨pg₁, lost, hpg₁, hvia, hlost⟩, honce, hknown⟩ := h.conn d conn₀ hold
      refine ⟨?_, honce, hknown⟩
      by_cases hpage₀ : conn₀.page = p
      · rw [hpage₀] at hpg₁
        obtain rfl : pg = pg₁ := Option.some.inj (hp.symm.trans hpg₁)
        refine ⟨{ pg' with sent := pg'.sent ++ ms.map fun m => (c, m) }, lost, ?_, ?_, hlost⟩
        · rw [hpage₀]
          exact Indexed.set_self hp
        · rw [← hvia, hsent, via_append, via_ne (Ne.symm hdc), List.append_nil]
      · exact ⟨pg₁, lost, (Indexed.set_ne hpage₀).trans hpg₁, hvia, hlost⟩
  · rcases Indexed.of_set hd with ⟨rfl, rfl⟩ | ⟨-, hold⟩
    · exact (h.follows k sub hk d conn hc).same (carry_taken ms) (by rw [carry_handler])
        (by rw [carry_handler])
    · exact h.follows k sub hk d conn₀ hold
  · change sub.since.length ≤ (s.conns.set c (conn.carry ms)).length
      ∧ ∀ x ∈ sub.got, x.1 < (s.conns.set c (conn.carry ms)).length
    rw [List.length_set]
    exact h.known k sub hk

/-! ### The handler moves -/

/-- The handler goes from one place where nobody is left to be sent the message to
another. -/
theorem Inv.idles (h : Inv s) (hc : s.conns[c]? = some conn) (hrest : conn.handler.rest = [])
    {handler : Handler μ} (hrest' : handler.rest = []) :
    Inv (s.setConn c { conn with handler }) := by
  obtain ⟨hsent, -, -⟩ := h.conn c conn hc
  refine h.setConn hc rfl ⟨hsent, ?_, ?_⟩ fun k sub hk => ?_
  · rw [hrest']
    exact List.nodup_nil
  · rw [hrest']
    exact fun k hk => (by cases hk)
  · refine (h.follows k sub hk c conn hc).same rfl (hrest'.trans hrest.symm) ?_
    rw [Handler.pending_of_notMem (by simp [hrest']), Handler.pending_of_notMem (by simp [hrest])]

theorem Inv.cut (h : Inv s) (hc : s.conns[c]? = some conn) (n : Nat) :
    Inv (s.setConn c { conn with flight := conn.flight.take n, cut := true }) := by
  obtain ⟨⟨pg, lost, hpg, hvia, -⟩, honce, hknown⟩ := h.conn c conn hc
  refine h.setConn hc rfl ⟨⟨pg, conn.flight.drop n ++ lost, hpg, ?_, fun hcut => (by cases hcut)⟩,
    honce, hknown⟩ fun k sub hk => (h.follows k sub hk c conn hc).same rfl rfl rfl
  simp only [hvia, List.append_assoc]
  rw [← List.append_assoc (conn.flight.take n), List.take_append_drop]

theorem Inv.take (h : Inv s) (hc : s.conns[c]? = some conn) (hreading : conn.handler = .reading)
    {m : μ} {flight : List μ} (hflight : conn.flight = m :: flight) {order : List Nat}
    (horder : order.Perm s.subs) :
    Inv (s.setConn c { conn with
      flight, handler := .sending m order, taken := conn.taken ++ [m] }) := by
  obtain ⟨⟨pg, lost, hpg, hvia, hlost⟩, -, -⟩ := h.conn c conn hc
  refine h.setConn hc rfl ⟨⟨pg, lost, hpg, ?_, hlost⟩, ?_, ?_⟩ fun k sub hk => ?_
  · rw [hvia, hflight]
    simp
  · exact horder.nodup_iff.mpr h.subs
  · exact fun k hk => h.members k (horder.mem_iff.mp hk)
  · obtain ⟨hsince, hgot, hreached⟩ := h.follows k sub hk c conn hc
    refine ⟨?_, ?_, fun hin => ?_⟩
    · simp only [List.length_append]
      omega
    · rw [List.drop_append_of_le_length hsince]
      exact hgot.trans (List.prefix_append _ _)
    · have hsubs : k ∈ s.subs := hin.elim id fun hk => horder.mem_iff.mp hk
      have hpending : Handler.pending k (.sending m order) = [m] :=
        if_pos (horder.mem_iff.mpr hsubs)
      have hold := hreached (.inl hsubs)
      rw [hreading, show Handler.pending k (.reading : Handler μ) = [] from rfl,
        List.append_nil] at hold
      rw [hpending, List.drop_append_of_le_length hsince, hold]

/-- A subscriber that leaves `SUBS` need not be reached any more. -/
theorem Follows.fewer {subs subs' : List Nat} {sub : Sub μ} (h : Follows subs k sub c conn)
    (hsubs : k ∈ subs' → k ∈ subs) : Follows subs' k sub c conn :=
  ⟨h.since, h.got, fun hin => h.reached (hin.imp_left hsubs)⟩

theorem Inv.leaves (h : Inv s) (k : Nat) : Inv { s with subs := s.subs.erase k } := by
  refine ⟨h.page, h.conn, fun j sub hj c conn hc => ?_, h.known, h.subs.erase k, fun j hj => ?_⟩
  · exact (h.follows j sub hj c conn hc).fewer List.mem_of_mem_erase
  · exact h.members j (List.mem_of_mem_erase hj)

section Send

variable {m : μ} {rest : List Nat}

/-- The subscriber that is sent the message has all that was taken up. -/
theorem Follows.sent {subs : List Nat} {sub : Sub μ} (h : Follows subs k sub c conn)
    (hhandler : conn.handler = .sending m (k :: rest)) (hk : k ∉ rest) :
    Follows subs k { sub with got := sub.got ++ [(c, m)] } c
      { conn with handler := .sending m rest } := by
  have hreached := h.reached (.inr (by rw [hhandler]; exact List.mem_cons_self))
  rw [hhandler, Handler.pending, if_pos List.mem_cons_self] at hreached
  have hvia : via c (sub.got ++ [(c, m)]) = conn.taken.drop (sub.since.getD c 0) := by
    rw [via_append, ← hreached]
    exact congrArg (via c sub.got ++ ·) (via_self c [m])
  refine ⟨h.since, ?_, fun _ => ?_⟩
  · exact ⟨[], by rw [List.append_nil]; exact hvia⟩
  · rw [Handler.pending_of_notMem (h := .sending m rest) hk, List.append_nil]
    exact hvia

theorem Follows.unsent {subs : List Nat} {sub : Sub μ} (h : Follows subs k sub c conn)
    (hk : k ∉ rest) (hsubs : k ∉ subs) :
    Follows subs k sub c { conn with handler := .sending m rest } :=
  ⟨h.since, h.got, fun hin => absurd hin (not_or.mpr ⟨hsubs, hk⟩)⟩

theorem Follows.others {subs : List Nat} {sub : Sub μ} {j : Nat} (h : Follows subs j sub c conn)
    (hhandler : conn.handler = .sending m (k :: rest)) (hjk : j ≠ k) :
    Follows subs j sub c { conn with handler := .sending m rest } := by
  have hmem : j ∈ k :: rest ↔ j ∈ rest := by simp [hjk]
  refine ⟨h.since, h.got, fun hin => ?_⟩
  have hreached := h.reached (by rw [hhandler]; exact hin.imp_right hmem.mpr)
  rw [hhandler] at hreached
  simp only [Handler.pending, hmem] at hreached ⊢
  exact hreached

/-- What comes from another connection changes nothing for this one. -/
theorem Follows.elsewhere {subs : List Nat} {sub : Sub μ} {d : Nat} (h : Follows subs k sub d conn)
    (hcd : c ≠ d) : Follows subs k { sub with got := sub.got ++ [(c, m)] } d conn := by
  have hvia : via d (sub.got ++ [(c, m)]) = via d sub.got := by
    rw [via_append, show via d [(c, m)] = [] from via_ne hcd [m], List.append_nil]
  refine ⟨h.since, ?_, fun hin => ?_⟩
  · rw [hvia]
    exact h.got
  · rw [hvia]
    exact h.reached hin

theorem ConnInv.next {pages : List (Page μ)} {members : Nat} (h : ConnInv pages members c conn)
    (hhandler : conn.handler = .sending m (k :: rest)) :
    k ∉ rest ∧ ConnInv pages members c { conn with handler := .sending m rest } := by
  obtain ⟨hsent, honce, hknown⟩ := h
  rw [hhandler] at honce hknown
  obtain ⟨hk, honce⟩ := List.nodup_cons.mp honce
  exact ⟨hk, hsent, honce, fun j hj => hknown j (List.mem_cons_of_mem _ hj)⟩

theorem Inv.sendStr (h : Inv s) (hc : s.conns[c]? = some conn) {ok : Bool} {ks : List Nat}
    (hhandler : conn.handler = .sending m ks) (hstep : s.sendStr c conn ok m ks = some t) :
    Inv t := by
  cases ks with
  | nil =>
    obtain rfl := Option.some.inj hstep
    exact h.idles hc (by rw [hhandler]; rfl) rfl
  | cons k rest =>
    obtain ⟨hk, hconn⟩ := (h.conn c conn hc).next hhandler
    have hstays : ∀ (p d : Nat) (conn₀ : Conn μ), s.conns[d]? = some conn₀ → conn₀.page = p →
        ∃ conn₁, (s.conns.set c { conn with handler := .sending m rest })[d]? = some conn₁
          ∧ conn₁.page = p := by
      intro p d conn₀ hd hp
      refine stays_setConn hc ?_ hd hp
      rfl
    cases ok with
    | true =>
      obtain ⟨sub, hsub, rfl⟩ := Option.map_eq_some_iff.mp hstep
      refine ⟨fun p pg hp => (h.page p pg hp).mono (hstays p), ?_, fun j sub' hj d conn' hd => ?_,
        fun j sub' hj => ?_, h.subs, fun j hj => ?_⟩
      · simp only [List.length_set]
        exact Indexed.forall_set h.conn hconn
      · rcases Indexed.of_set hj with ⟨rfl, rfl⟩ | ⟨hjk, hj⟩
        · rcases Indexed.of_set hd with ⟨rfl, rfl⟩ | ⟨hdc, hd⟩
          · exact (h.follows j sub hsub d conn hc).sent hhandler hk
          · exact (h.follows j sub hsub d conn' hd).elsewhere (Ne.symm hdc)
        · rcases Indexed.of_set hd with ⟨rfl, rfl⟩ | ⟨-, hd⟩
          · exact (h.follows j sub' hj d conn hc).others hhandler hjk
          · exact h.follows j sub' hj d conn' hd
      · simp only [State.setConn, List.length_set]
        rcases Indexed.of_set hj with ⟨rfl, rfl⟩ | ⟨-, hj⟩
        · obtain ⟨hsince, hgot⟩ := h.known j sub hsub
          refine ⟨hsince, fun x hx => ?_⟩
          rcases List.mem_append.mp hx with hold | hnew
          · exact hgot x hold
          · obtain rfl := List.mem_singleton.mp hnew
            exact (List.getElem?_eq_some_iff.mp hc).1
        · exact h.known j sub' hj
      · simp only [List.length_set]
        exact h.members j hj
    | false =>
      obtain rfl := Option.some.inj hstep
      refine ⟨fun p pg hp => (h.page p pg hp).mono (hstays p), Indexed.forall_set h.conn hconn,
        fun j sub' hj d conn' hd => ?_, fun j sub' hj => ?_, h.subs.erase k, fun j hj => ?_⟩
      · have herase := (h.follows j sub' hj)
        rcases Indexed.of_set hd with ⟨rfl, rfl⟩ | ⟨-, hd⟩
        · have hfewer : Follows (s.subs.erase k) j sub' d conn :=
            (herase d conn hc).fewer List.mem_of_mem_erase
          by_cases hjk : j = k
          · subst hjk
            exact hfewer.unsent hk h.subs.not_mem_erase
          · exact hfewer.others hhandler hjk
        · exact (herase d conn' hd).fewer List.mem_of_mem_erase
      · simp only [State.setConn, List.length_set]
        exact h.known j sub' hj
      · exact h.members j (List.mem_of_mem_erase hj)

end Send

/-! ### A party comes -/

theorem Inv.loads (h : Inv s) : Inv { s with pages := s.pages ++ [{}] } := by
  refine ⟨Indexed.forall_concat h.page ⟨rfl, List.Pairwise.nil, fun x hx => (by cases hx),
    fun hcur => (by cases hcur), fun hopen => (by cases hopen)⟩, fun c conn hc => ?_, h.follows,
    h.known, h.subs, h.members⟩
  obtain ⟨⟨pg, lost, hpg, hsent⟩, honce, hknown⟩ := h.conn c conn hc
  exact ⟨⟨pg, lost, Indexed.concat_old hpg, hsent⟩, honce, hknown⟩

theorem Inv.joins (h : Inv s) : Inv { s with
    members := s.members ++ [{ since := s.conns.map fun conn => conn.taken.length }]
    subs := s.subs ++ [s.members.length] } := by
  have hnew : ∀ k ∈ s.subs, k ≠ s.members.length := fun k hk => Nat.ne_of_lt (h.members k hk)
  refine ⟨h.page, fun c conn hc => ?_, ?_, ?_, ?_, fun k hk => ?_⟩
  · obtain ⟨hsent, honce, hknown⟩ := h.conn c conn hc
    refine ⟨hsent, honce, fun k hk => ?_⟩
    rw [List.length_append]
    exact Nat.lt_add_right _ (hknown k hk)
  · intro k sub hk c conn hc
    rcases Indexed.of_concat hk with hold | ⟨rfl, rfl⟩
    · refine (h.follows k sub hold c conn hc).fewer fun hin => ?_
      rcases List.mem_append.mp hin with hin | hin
      · exact hin
      · rw [List.mem_singleton.mp hin, List.getElem?_eq_none (Nat.le_refl _)] at hold
        cases hold
    · have hsince : (s.conns.map fun conn => conn.taken.length).getD c 0 = conn.taken.length := by
        simp [List.getD_eq_getElem?_getD, hc]
      have hrest : s.members.length ∉ conn.handler.rest := fun hin =>
        Nat.lt_irrefl _ ((h.conn c conn hc).known _ hin)
      refine ⟨Nat.le_of_eq hsince, List.nil_prefix, fun _ => ?_⟩
      rw [hsince, List.drop_length, Handler.pending_of_notMem hrest]
      rfl
  · refine Indexed.forall_concat h.known ⟨?_, fun x hx => (by cases hx)⟩
    exact Nat.le_of_eq (List.length_map _)
  · rw [List.nodup_append]
    exact ⟨h.subs, List.pairwise_singleton _ _, fun k hk j hj => by
      rw [List.mem_singleton.mp hj]; exact hnew k hk⟩
  · rw [List.length_append]
    rcases List.mem_append.mp hk with hold | hin
    · exact Nat.lt_add_right _ (h.members k hold)
    · rw [List.mem_singleton.mp hin]
      exact Nat.lt_succ_self _

theorem Inv.connects (h : Inv s) (hp : s.pages[p]? = some pg) :
    Inv { s.setPage p { pg with socket := .connecting s.conns.length } with
      conns := s.conns ++ [{ page := p }] } := by
  have hpg := h.page p pg hp
  have hbelow : ∀ x ∈ pg.sent, x.1 < s.conns.length := by
    intro x hx
    obtain ⟨conn, hconn, -⟩ := hpg.own x hx
    exact (List.getElem?_eq_some_iff.mp hconn).1
  have hstays : ∀ (q c : Nat) (conn : Conn μ), s.conns[c]? = some conn → conn.page = q →
      ∃ conn', (s.conns ++ [{ page := p }])[c]? = some conn' ∧ conn'.page = q :=
    fun q c conn hc hq => ⟨conn, Indexed.concat_old hc, hq⟩
  refine ⟨fun q pg₀ hq => ?_, ?_, fun k sub hk c conn hc => ?_, fun k sub hk => ?_, h.subs,
    h.members⟩
  · rcases Indexed.of_set hq with ⟨rfl, rfl⟩ | ⟨-, hold⟩
    · refine ⟨hpg.posted, hpg.inTurn, fun x hx => ?_, fun hcur => ?_, fun hopen => (by cases hopen)⟩
      · obtain ⟨conn, hconn, hpage⟩ := hpg.own x hx
        exact hstays q x.1 conn hconn hpage
      · obtain rfl := Option.some.inj hcur
        exact ⟨⟨{ page := q }, by simp, rfl⟩, fun x hx => Nat.le_of_lt (hbelow x hx)⟩
    · exact (h.page q pg₀ hold).mono (hstays q)
  · refine Indexed.forall_concat (fun c conn hc => ?_) ⟨⟨_, [], Indexed.set_self hp, ?_,
      fun _ => rfl⟩, List.nodup_nil, fun k hk => (by cases hk)⟩
    · obtain ⟨⟨pg₀, lost, hpg₀, hvia, hlost⟩, honce, hknown⟩ := h.conn c conn hc
      refine ⟨?_, honce, hknown⟩
      by_cases hpage : conn.page = p
      · rw [hpage] at hpg₀
        obtain rfl : pg = pg₀ := Option.some.inj (hp.symm.trans hpg₀)
        refine ⟨{ pg with socket := .connecting s.conns.length }, lost, ?_, hvia, hlost⟩
        rw [hpage]
        exact Indexed.set_self hp
      · exact ⟨pg₀, lost, (Indexed.set_ne hpage).trans hpg₀, hvia, hlost⟩
    · exact via_eq_nil fun x hx => Nat.ne_of_lt (hbelow x hx)
  · rcases Indexed.of_concat hc with hold | ⟨rfl, rfl⟩
    · exact h.follows k sub hk c conn hold
    · obtain ⟨hlen, hgot⟩ := h.known k sub hk
      have hsince : sub.since.getD s.conns.length 0 = 0 := by
        rw [List.getD_eq_getElem?_getD, List.getElem?_eq_none hlen]
        rfl
      have hvia : via s.conns.length sub.got = [] :=
        via_eq_nil fun x hx => Nat.ne_of_lt (hgot x hx)
      refine ⟨Nat.le_of_eq hsince, ?_, fun _ => ?_⟩
      · rw [hvia]
        exact List.nil_prefix
      · rw [hvia]
        simp [Handler.pending]
  · simp only [List.length_append]
    obtain ⟨hlen, hgot⟩ := h.known k sub hk
    exact ⟨Nat.le_add_right_of_le hlen, fun x hx => Nat.lt_add_right _ (hgot x hx)⟩

theorem Inv.posts (h : Inv s) (hp : s.pages[p]? = some pg) {m : μ}
    (hstep : s.post p pg m = some t) : Inv t := by
  have hpg := h.page p pg hp
  have hposted : pg.posted ++ [m] = pg.sent.map (·.2) ++ (pg.queue ++ [m]) := by
    rw [hpg.posted, List.append_assoc]
  have hwaits : (∀ c, pg.socket ≠ .opened c) →
      Inv (s.setPage p { pg with posted := pg.posted ++ [m], queue := pg.queue ++ [m] }) :=
    fun hnot => h.setPage hp rfl ⟨hposted, hpg.inTurn, hpg.own, hpg.current,
      fun {c} hopen => absurd hopen (hnot c)⟩
  unfold State.post at hstep
  dsimp only at hstep
  split at hstep
  case h_1 c hsocket =>
    obtain ⟨conn, hc, rfl⟩ := Option.map_eq_some_iff.mp hstep
    have hcur : pg.socket.conn? = some c := by rw [hsocket]; rfl
    rw [hpg.opened hsocket] at hposted
    exact h.transmit hp hc hcur rfl hcur (hpg.opened hsocket) hposted
  case h_2 hnot =>
    obtain rfl := Option.some.inj hstep
    exact hwaits hnot

/-- The socket of a page changes, and its connection, if it still has one, does not. -/
theorem Inv.socket (h : Inv s) (hp : s.pages[p]? = some pg) {socket : Socket}
    (hcur : ∀ {c}, socket.conn? = some c → pg.socket.conn? = some c)
    (hnot : ∀ {c}, socket ≠ .opened c) : Inv (s.setPage p { pg with socket }) := by
  have hpg := h.page p pg hp
  exact h.setPage hp rfl ⟨hpg.posted, hpg.inTurn, hpg.own, fun hc => hpg.current (hcur hc),
    fun hopen => absurd hopen hnot⟩

theorem inv_step {e : Event μ} (h : Inv s) (hstep : s.step e = some t) : Inv t := by
  cases e with
  | load =>
    obtain rfl := Option.some.inj hstep
    exact h.loads
  | post p m =>
    rw [State.step] at hstep
    split at hstep
    case h_1 pg hp => exact h.posts hp hstep
    case h_2 => cases hstep
  | connect p =>
    rw [State.step] at hstep
    split at hstep
    case h_1 pg hp =>
      split at hstep
      · obtain rfl := Option.some.inj hstep
        exact h.connects hp
      · cases hstep
    case h_2 => cases hstep
  | accept c =>
    rw [State.step] at hstep
    split at hstep
    case h_1 conn hc =>
      split at hstep
      case isTrue habsent =>
        obtain rfl := Option.some.inj hstep
        refine h.idles hc ?_ rfl
        cases hhandler : conn.handler with
        | sending m rest => simp [hhandler, Handler.isAbsent] at habsent
        | absent | reading | done => rfl
      case isFalse => cases hstep
    case h_2 => cases hstep
  | opens p =>
    rw [State.step] at hstep
    split at hstep
    case h_1 pg hp =>
      split at hstep
      case h_1 c hsocket =>
        split at hstep
        case h_1 conn hc =>
          split at hstep
          · cases hstep
          · obtain rfl := Option.some.inj hstep
            exact h.transmit hp hc (by rw [hsocket]; rfl) rfl rfl rfl (h.page p pg hp).posted
        case h_2 => cases hstep
      case h_2 => cases hstep
    case h_2 => cases hstep
  | breaks p =>
    rw [State.step] at hstep
    split at hstep
    case h_1 pg hp =>
      split at hstep
      case h_1 c hsocket =>
        obtain rfl := Option.some.inj hstep
        exact h.socket hp (by rw [hsocket]; exact id) nofun
      case h_2 c hsocket =>
        obtain rfl := Option.some.inj hstep
        exact h.socket hp (by rw [hsocket]; exact id) nofun
      case h_3 => cases hstep
    case h_2 => cases hstep
  | closes p =>
    rw [State.step] at hstep
    split at hstep
    case h_1 pg hp =>
      split at hstep
      case h_1 =>
        obtain rfl := Option.some.inj hstep
        exact h.socket hp (fun hc => (by cases hc)) nofun
      case h_2 => cases hstep
    case h_2 => cases hstep
  | cut c n =>
    obtain ⟨conn, hc, rfl⟩ := Option.map_eq_some_iff.mp hstep
    exact h.cut hc n
  | take c order =>
    rw [State.step] at hstep
    split at hstep
    case h_1 conn hc =>
      split at hstep
      case h_1 m flight hreading hflight =>
        split at hstep
        case isTrue horder =>
          obtain rfl := Option.some.inj hstep
          exact h.take hc hreading hflight horder
        case isFalse => cases hstep
      case h_2 => cases hstep
    case h_2 => cases hstep
  | send c ok =>
    rw [State.step] at hstep
    split at hstep
    case h_1 conn hc =>
      split at hstep
      case h_1 m rest hhandler => exact h.sendStr hc hhandler hstep
      case h_2 => cases hstep
    case h_2 => cases hstep
  | ends c =>
    rw [State.step] at hstep
    split at hstep
    case h_1 conn hc =>
      split at hstep
      case h_1 hreading =>
        obtain rfl := Option.some.inj hstep
        exact h.idles hc (by rw [hreading]; rfl) rfl
      case h_2 => cases hstep
    case h_2 => cases hstep
  | join =>
    obtain rfl := Option.some.inj hstep
    exact h.joins
  | leave k =>
    obtain rfl := Option.some.inj hstep
    exact h.leaves k

/-! ### What the pages post -/

def State.posted (s : State μ) : List (List μ) := s.pages.map (·.posted)

/-- How an event adds to what was posted. -/
def Event.posts : Event μ → List (List μ) → List (List μ)
  | .load, l => l ++ [[]]
  | .post p m, l => l.modify p (· ++ [m])
  | _, l => l

theorem posted_set (hp : s.pages[p]? = some pg) {f : List μ → List μ}
    (hposted : pg'.posted = f pg.posted) :
    (s.pages.set p pg').map (·.posted) = s.posted.modify p f := by
  have hget : s.posted[p]? = some pg.posted := by simp [State.posted, hp]
  rw [List.map_set, hposted, List.modify_eq_set_getElem?, hget]
  rfl

theorem posted_setPage (hp : s.pages[p]? = some pg) (hposted : pg'.posted = pg.posted) :
    (s.setPage p pg').posted = s.posted :=
  (posted_set hp (f := id) hposted).trans (List.modify_id p s.posted)

theorem posted_post (hp : s.pages[p]? = some pg) {m : μ} (hstep : s.post p pg m = some t) :
    t.posted = s.posted.modify p (· ++ [m]) := by
  unfold State.post at hstep
  simp only at hstep
  split at hstep
  case h_1 c _ =>
    obtain ⟨conn, -, rfl⟩ := Option.map_eq_some_iff.mp hstep
    exact posted_set hp rfl
  case h_2 =>
    obtain rfl := Option.some.inj hstep
    exact posted_set hp rfl

theorem posted_sendStr {ok : Bool} {m : μ} {ks : List Nat}
    (hstep : s.sendStr c conn ok m ks = some t) : t.posted = s.posted := by
  cases ks with
  | nil => exact Option.some.inj hstep ▸ rfl
  | cons k rest =>
    cases ok with
    | true =>
      obtain ⟨sub, -, rfl⟩ := Option.map_eq_some_iff.mp hstep
      rfl
    | false => exact Option.some.inj hstep ▸ rfl

theorem posted_step {e : Event μ} (hstep : s.step e = some t) : t.posted = e.posts s.posted := by
  cases e with
  | load => exact Option.some.inj hstep ▸ List.map_append
  | join | leave k => exact Option.some.inj hstep ▸ rfl
  | cut c n =>
    obtain ⟨conn, -, rfl⟩ := Option.map_eq_some_iff.mp hstep
    rfl
  | post p m =>
    rw [State.step] at hstep
    split at hstep
    case h_1 pg hp => exact posted_post hp hstep
    case h_2 => cases hstep
  | connect p =>
    rw [State.step] at hstep
    split at hstep
    case h_1 pg hp =>
      split at hstep
      · exact Option.some.inj hstep ▸ posted_setPage hp rfl
      · cases hstep
    case h_2 => cases hstep
  | opens p =>
    rw [State.step] at hstep
    split at hstep
    case h_1 pg hp =>
      split at hstep
      case h_1 c _ =>
        split at hstep
        case h_1 conn _ =>
          split at hstep
          · cases hstep
          · exact Option.some.inj hstep ▸ posted_setPage hp rfl
        case h_2 => cases hstep
      case h_2 => cases hstep
    case h_2 => cases hstep
  | breaks p | closes p =>
    rw [State.step] at hstep
    split at hstep
    case h_1 pg hp =>
      split at hstep
      all_goals
        first
          | exact Option.some.inj hstep ▸ posted_setPage hp rfl
          | cases hstep
    case h_2 => cases hstep
  | accept c | ends c | take c order =>
    rw [State.step] at hstep
    split at hstep
    case h_1 conn _ =>
      split at hstep
      all_goals
        first
          | exact Option.some.inj hstep ▸ rfl
          | cases hstep
          | (split at hstep
             · exact Option.some.inj hstep ▸ rfl
             · cases hstep)
    case h_2 => cases hstep
  | send c ok =>
    rw [State.step] at hstep
    split at hstep
    case h_1 conn _ =>
      split at hstep
      case h_1 => exact posted_sendStr hstep
      case h_2 => cases hstep
    case h_2 => cases hstep

end Moves

/-! ## Every run -/

/-- The order in which the messages come. -/
structure State.Fifo (s : State μ) : Prop where
  /-- A page sends what it posts, in that order. -/
  posted : ∀ {p : Nat} {pg : Page μ}, s.pages[p]? = some pg →
    pg.posted = pg.sent.map (·.2) ++ pg.queue
  /-- It uses its connections one after the other. -/
  inTurn : ∀ {p : Nat} {pg : Page μ}, s.pages[p]? = some pg →
    (pg.sent.map (·.1)).Pairwise (· ≤ ·)
  own : ∀ {p : Nat} {pg : Page μ}, s.pages[p]? = some pg → ∀ x ∈ pg.sent,
    ∃ conn, s.conns[x.1]? = some conn ∧ conn.page = p
  /-- Of what was sent over a connection, a subscriber has one piece. -/
  piece : ∀ {k : Nat} {sub : Sub μ}, s.members[k]? = some sub →
    ∀ {c : Nat} {conn : Conn μ}, s.conns[c]? = some conn →
    ∀ {pg : Page μ}, s.pages[conn.page]? = some pg → via c sub.got <:+: via c pg.sent
  /-- It has nothing that was not sent over a connection. -/
  source : ∀ {k : Nat} {sub : Sub μ}, s.members[k]? = some sub → ∀ x ∈ sub.got,
    x.1 < s.conns.length

theorem ConnInv.sent_of {pages : List (Page μ)} {members c : Nat} {conn : Conn μ}
    (h : ConnInv pages members c conn) {pg : Page μ} (hpg : pages[conn.page]? = some pg) :
    ∃ lost, via c pg.sent = conn.taken ++ conn.flight ++ lost ∧ (conn.cut = false → lost = []) := by
  obtain ⟨pg₀, lost, hpg₀, hsent⟩ := h.sent
  obtain rfl : pg₀ = pg := Option.some.inj (hpg₀.symm.trans hpg)
  exact ⟨lost, hsent⟩

theorem Inv.fifo {s : State μ} (h : Inv s) : s.Fifo where
  posted hp := (h.page _ _ hp).posted
  inTurn hp := (h.page _ _ hp).inTurn
  own hp := (h.page _ _ hp).own
  piece {k sub} hk {c conn} hc {pg} hpg := by
    obtain ⟨lost, hvia, -⟩ := (h.conn c conn hc).sent_of hpg
    have hgot : via c sub.got <:+: conn.taken :=
      (h.follows k sub hk c conn hc).got.isInfix.trans (List.drop_suffix _ _).isInfix
    rw [hvia, List.append_assoc]
    exact hgot.trans (List.prefix_append _ _).isInfix
  source hk := (h.known _ _ hk).2

theorem inv_reach {s : State μ} (h : Reach State.step anyStep {} s) : Inv s :=
  h.invariant Inv.empty fun hinv _ => inv_step hinv

/-- **No order of the steps reorders, repeats or skips a message** of one connection. -/
theorem sent_in_order {s : State μ} (h : Reach State.step anyStep {} s) : s.Fifo :=
  (inv_reach h).fifo

/-- A message posted before the socket opens, one after it, and one while the page
connects again; the second subscriber comes before the last of them. -/
def reconnects : List (Event Nat) :=
  [.load, .connect 0, .accept 0, .post 0 7, .opens 0, .join, .post 0 8, .take 0 [0], .send 0 true,
    .send 0 true, .take 0 [0], .send 0 true, .send 0 true, .breaks 0, .closes 0, .post 0 9,
    .connect 0, .accept 1, .opens 0, .join, .take 1 [1, 0], .send 1 true, .send 1 true,
    .send 1 true]

def reconnected : State Nat where
  pages := [{ socket := .opened 1, posted := [7, 8, 9], sent := [(0, 7), (0, 8), (1, 9)] }]
  conns := [{ page := 0, handler := .reading, taken := [7, 8] },
    { page := 0, handler := .reading, taken := [9] }]
  members := [{ since := [0], got := [(0, 7), (0, 8), (1, 9)] },
    { since := [2, 0], got := [(1, 9)] }]
  subs := [0, 1]

theorem reach_reconnected : Reach State.step anyStep {} reconnected := by
  have hrun : runs State.step (fun _ _ => true) reconnects {} = some reconnected := by
    decide +kernel
  exact reach_of_runs (fun _ => trivial) .init hrun

theorem sent_in_order_reconnected : reconnected.Fifo := sent_in_order reach_reconnected

/-- A connection that is not broken and has been read to its end. -/
structure Conn.Drained (conn : Conn μ) : Prop where
  whole : conn.cut = false
  flight : conn.flight = []
  rest : conn.handler.rest = []

theorem Inv.drained {s : State μ} (h : Inv s) {k : Nat} {sub : Sub μ}
    (hk : s.members[k]? = some sub) (hsubs : k ∈ s.subs) {c : Nat} {conn : Conn μ}
    (hc : s.conns[c]? = some conn) (hdrained : conn.Drained) {pg : Page μ}
    (hpg : s.pages[conn.page]? = some pg) :
    via c sub.got = (via c pg.sent).drop (sub.since.getD c 0) := by
  obtain ⟨hcut, hflight, hrest⟩ := hdrained
  obtain ⟨lost, hvia, hlost⟩ := (h.conn c conn hc).sent_of hpg
  have hreached := (h.follows k sub hk c conn hc).reached (.inl hsubs)
  rw [Handler.pending_of_notMem (by simp [hrest]), List.append_nil] at hreached
  rw [hreached, hvia, hflight, hlost hcut, List.append_nil, List.append_nil]

/-- **Nothing is held back.** When a connection that is not broken has been read to its
end, a subscriber that is still in `SUBS` has all that was sent over it since it came. -/
theorem delivered_all {s : State μ} (h : Reach State.step anyStep {} s) {k : Nat} {sub : Sub μ}
    (hk : s.members[k]? = some sub) (hsubs : k ∈ s.subs) {c : Nat} {conn : Conn μ}
    (hc : s.conns[c]? = some conn) (hdrained : conn.Drained) {pg : Page μ}
    (hpg : s.pages[conn.page]? = some pg) :
    via c sub.got = (via c pg.sent).drop (sub.since.getD c 0) :=
  (inv_reach h).drained hk hsubs hc hdrained hpg

/-- The second subscriber came when the first connection had been read to its end. -/
theorem delivered_all_reconnected : via 0 [(1, 9)] = [7, 8].drop 2 :=
  delivered_all reach_reconnected (k := 1) rfl (by decide) (c := 0) rfl ⟨rfl, rfl, rfl⟩ rfl

end Control

end RbiProxy
