import RbiProxy.GoString
import RbiProxy.Indexed
import RbiProxy.Reach

/-!
# A packet filter with connection tracking

The output hook of a host with one `nftables` chain. The tracker looks a packet up in the
table of flows; a packet of no flow is `new`, and opens one if the chain lets it out. What
comes in may open a flow as well. Flows expire at any time.

No rule assigns a helper, so there are no expectations, and what is `related` is an ICMP
error about a packet of a flow, which goes to one of its ends. There is no address
translation. Other chains may drop what this one accepts.

`confined` is about a host that sends from its own addresses and reaches these by loopback.
If the chain lets out nothing new but by loopback or to the destinations `A`, then what
leaves the host goes to one of them, or belongs to a flow that was there before or that was
opened from outside.
-/

namespace RbiProxy

namespace PacketFilter

/-! ## Packets -/

inductive Proto where
  | tcp
  | udp
  | icmp
  | other (n : Nat)
deriving DecidableEq

inductive Addr where
  | v4 (a : UInt32)
  | v6 (hi lo : UInt64)
deriving DecidableEq

/-- What a flow is known by. The ports are zero where there are none. -/
structure Tuple where
  proto : Proto
  src : Addr
  dst : Addr
  sport : UInt16
  dport : UInt16
deriving DecidableEq

/-- The other direction. -/
def Tuple.inv (t : Tuple) : Tuple := ⟨t.proto, t.dst, t.src, t.dport, t.sport⟩

/-- A packet on its way out, with the interface. -/
structure Packet where
  tuple : Tuple
  oifname : GoString
deriving DecidableEq

/-! ## Rules -/

inductive CtState where
  | new
  | established
  | related
  | invalid
deriving DecidableEq

inductive Match where
  | ctState (states : List CtState)
  | oifname (name : GoString)
  /-- `ip daddr`, which no IPv6 packet matches. -/
  | ipDaddr (set : UInt32 → Bool)
  | dport (proto : Proto) (set : UInt16 → Bool)
  /-- `limit rate`, which matches while there are tokens left. -/
  | limit

inductive Verdict where
  | accept
  | drop
deriving DecidableEq

structure Rule where
  conds : List Match
  verdict : Verdict

inductive Hook where
  | output
  | input
  | forward
deriving DecidableEq

structure Chain where
  hook : Hook
  policy : Verdict
  rules : List Rule := []

def Match.holds (ct : CtState) (p : Packet) (tokens : Bool) : Match → Bool
  | .ctState states => decide (ct ∈ states)
  | .oifname name => decide (p.oifname = name)
  | .ipDaddr set =>
    match p.tuple.dst with
    | .v4 a => set a
    | .v6 _ _ => false
  | .dport proto set => decide (p.tuple.proto = proto) && set p.tuple.dport
  | .limit => tokens

/-- The first rule that matches decides. -/
def Chain.verdict (c : Chain) (ct : CtState) (p : Packet) (tokens : Bool) : Verdict :=
  match c.rules.find? fun r => r.conds.all (Match.holds ct p tokens) with
  | some r => r.verdict
  | none => c.policy

/-- Where the policy is to drop, a rule has accepted. -/
theorem Chain.accepts_of_drop {c : Chain} (hpolicy : c.policy = .drop) {ct : CtState}
    {p : Packet} {tokens : Bool} (h : c.verdict ct p tokens = .accept) :
    ∃ r ∈ c.rules, r.verdict = .accept ∧ ∀ m ∈ r.conds, m.holds ct p tokens = true := by
  unfold Chain.verdict at h
  split at h
  · rename_i r hr
    have hall : (r.conds.all (Match.holds ct p tokens)) = true :=
      List.find?_some (p := fun r : Rule => r.conds.all (Match.holds ct p tokens)) hr
    exact ⟨r, List.mem_of_find?_eq_some hr, h, List.all_eq_true.mp hall⟩
  · rw [hpolicy] at h
    cases h

/-- Rules that accept, in front of all others. -/
theorem Chain.accept_of_front {c : Chain} {front rest : List Rule}
    (hrules : c.rules = front ++ rest) (hfront : ∀ r ∈ front, r.verdict = .accept)
    {ct : CtState} {p : Packet} {tokens : Bool} {r : Rule} (hr : r ∈ front)
    (hconds : ∀ m ∈ r.conds, m.holds ct p tokens = true) :
    c.verdict ct p tokens = .accept := by
  have hsome : (front.find? fun r => r.conds.all (Match.holds ct p tokens)).isSome :=
    List.find?_isSome.mpr ⟨r, hr, List.all_eq_true.mpr hconds⟩
  obtain ⟨r', hr'⟩ := Option.isSome_iff_exists.mp hsome
  unfold Chain.verdict
  rw [hrules, List.find?_append, hr']
  exact hfront r' (List.mem_of_find?_eq_some hr')

/-! ## Connection tracking -/

/-- How a flow was opened. -/
inductive Began where
  /-- It was there at the start. -/
  | before
  | outside
  /-- By a packet of this host. -/
  | here (q : Packet)
deriving DecidableEq

structure Flow where
  orig : Tuple
  replied : Bool := false
  began : Began
deriving DecidableEq

def Flow.Carries (f : Flow) (t : Tuple) : Prop := t = f.orig ∨ t = f.orig.inv

instance (f : Flow) (t : Tuple) : Decidable (f.Carries t) := inferInstanceAs (Decidable (_ ∨ _))

/-- An ICMP error about a packet of the flow. -/
def Flow.Concerns (f : Flow) (t : Tuple) : Prop :=
  t.proto = .icmp ∧ (t.dst = f.orig.src ∨ t.dst = f.orig.dst)

instance (f : Flow) (t : Tuple) : Decidable (f.Concerns t) := inferInstanceAs (Decidable (_ ∧ _))

/-- The state of a packet of the flow. -/
def Flow.ct (f : Flow) (t : Tuple) : CtState :=
  if t ≠ f.orig ∨ f.replied = true then .established else .new

def Flow.see (f : Flow) (t : Tuple) : Flow :=
  if t ≠ f.orig then { f with replied := true } else f

structure State where
  flows : List Flow := []
  /-- What was let out, with the flow unless it was invalid. -/
  sent : List (Packet × Option Flow) := []

inductive Tracked where
  /-- A packet of the flow at `i`. -/
  | flow (i : Nat)
  /-- A packet of no flow. -/
  | first
  /-- An ICMP error about the flow at `i`. -/
  | error (i : Nat)
  | invalid

inductive Event where
  /-- `passed` unless another chain drops it. -/
  | output (p : Packet) (tracked : Tracked) (tokens passed : Bool)
  | input (t : Tuple) (tracked : Tracked)
  | expire (i : Nat)

/-- The packet is let out if the chain and the others accept it. -/
def State.send (s : State) (accepted : Bool) (p : Packet) (f : Option Flow) : State :=
  if accepted then { s with sent := s.sent ++ [(p, f)] } else s

def State.step (chain : Chain) (s : State) : Event → Option State
  | .output p (.flow i) tokens passed =>
    match s.flows[i]? with
    | some f =>
      if f.Carries p.tuple then
        let accepted := chain.verdict (f.ct p.tuple) p tokens = .accept
        some ({ s with flows := s.flows.set i (f.see p.tuple) }.send (accepted && passed) p f)
      else none
    | none => none
  | .output p .first tokens passed =>
    if ∀ f ∈ s.flows, ¬ f.Carries p.tuple then
      let f : Flow := { orig := p.tuple, began := .here p }
      if chain.verdict .new p tokens = .accept ∧ passed = true then
        some ({ s with flows := s.flows ++ [f] }.send true p f)
      else some s
    else none
  | .output p (.error i) tokens passed =>
    match s.flows[i]? with
    | some f =>
      if f.Concerns p.tuple then
        let accepted := chain.verdict .related p tokens = .accept
        some (s.send (accepted && passed) p f)
      else none
    | none => none
  | .output p .invalid tokens passed =>
    let accepted := chain.verdict .invalid p tokens = .accept
    some (s.send (accepted && passed) p none)
  | .input t (.flow i) =>
    match s.flows[i]? with
    | some f =>
      if f.Carries t then some { s with flows := s.flows.set i (f.see t) } else none
    | none => none
  | .input t .first =>
    if ∀ f ∈ s.flows, ¬ f.Carries t then
      some { s with flows := s.flows ++ [{ orig := t, began := .outside }] }
    else none
  | .input _ (.error _) => some s
  | .input _ .invalid => some s
  | .expire i => some { s with flows := s.flows.eraseIdx i }

def Event.Sends (P : Packet → Prop) : Event → Prop
  | .output p .. => P p
  | _ => True

/-! ## Where flows come from -/

/-- The chain lets the packet out though it belongs to nothing. -/
def Chain.Opens (c : Chain) (p : Packet) : Prop :=
  ∃ tokens, c.verdict .new p tokens = .accept ∨ c.verdict .invalid p tokens = .accept

/-- The flow was opened by a packet that the chain lets out. -/
def Flow.Founded (P : Packet → Prop) (chain : Chain) (f : Flow) : Prop :=
  ∀ q, f.began = .here q → f.orig = q.tuple ∧ P q ∧ chain.Opens q

/-- A packet that was let out, of that flow. -/
def Accounted (P : Packet → Prop) (chain : Chain) (p : Packet) : Option Flow → Prop
  | some f => P p ∧ f.Founded P chain ∧ (f.Carries p.tuple ∨ f.Concerns p.tuple)
  | none => P p ∧ chain.Opens p

structure Traced (P : Packet → Prop) (chain : Chain) (s : State) : Prop where
  flows : ∀ f ∈ s.flows, f.Founded P chain
  sent : ∀ p f, (p, f) ∈ s.sent → Accounted P chain p f

section Trace

variable {P : Packet → Prop} {chain : Chain} {s t : State}

theorem Flow.see_began (f : Flow) (t : Tuple) :
    (f.see t).began = f.began ∧ (f.see t).orig = f.orig := by
  unfold Flow.see
  split <;> exact ⟨rfl, rfl⟩

theorem Flow.Founded.see {f : Flow} (h : f.Founded P chain) (t : Tuple) :
    (f.see t).Founded P chain := by
  intro q hq
  rw [(f.see_began t).1] at hq
  rw [(f.see_began t).2]
  exact h q hq

theorem Traced.send (h : Traced P chain s) {accepted : Bool} {p : Packet} {f : Option Flow}
    (haccounted : accepted = true → Accounted P chain p f) :
    Traced P chain (s.send accepted p f) := by
  unfold State.send
  split
  · rename_i haccepted
    refine ⟨h.flows, fun p' f' hmem => ?_⟩
    rcases List.mem_append.mp hmem with hold | hnew
    · exact h.sent p' f' hold
    · obtain ⟨rfl, rfl⟩ := Prod.mk.inj (List.mem_singleton.mp hnew)
      exact haccounted haccepted
  · exact h

theorem Traced.see (h : Traced P chain s) {i : Nat} {f : Flow} (hf : s.flows[i]? = some f)
    (t : Tuple) : Traced P chain { s with flows := s.flows.set i (f.see t) } where
  flows f' hmem := by
    rcases List.mem_or_eq_of_mem_set hmem with hold | rfl
    · exact h.flows f' hold
    · exact (h.flows f (List.mem_of_getElem? hf)).see t
  sent := h.sent

theorem Traced.add (h : Traced P chain s) {f : Flow} (hf : f.Founded P chain) :
    Traced P chain { s with flows := s.flows ++ [f] } where
  flows f' hmem := by
    rcases List.mem_append.mp hmem with hold | hnew
    · exact h.flows f' hold
    · obtain rfl := List.mem_singleton.mp hnew
      exact hf
  sent := h.sent

theorem Traced.output (h : Traced P chain s) {p : Packet} (hp : P p) {tracked : Tracked}
    {tokens passed : Bool} (hstep : s.step chain (.output p tracked tokens passed) = some t) :
    Traced P chain t := by
  cases tracked with
  | flow i =>
    rw [State.step] at hstep
    split at hstep
    · rename_i f hf
      split at hstep
      · rename_i hcarries
        obtain rfl := Option.some.inj hstep
        exact (h.see hf p.tuple).send fun _ =>
          ⟨hp, h.flows f (List.mem_of_getElem? hf), .inl hcarries⟩
      · cases hstep
    · cases hstep
  | first =>
    rw [State.step] at hstep
    split at hstep
    · dsimp only at hstep
      split at hstep
      · rename_i haccepted
        obtain rfl := Option.some.inj hstep
        have hopens : chain.Opens p := ⟨tokens, .inl haccepted.1⟩
        have hfounded : Flow.Founded P chain { orig := p.tuple, began := .here p } := by
          intro q hq
          obtain rfl := Began.here.inj hq
          exact ⟨rfl, hp, hopens⟩
        exact (h.add hfounded).send fun _ => ⟨hp, hfounded, .inl (.inl rfl)⟩
      · exact Option.some.inj hstep ▸ h
    · cases hstep
  | error i =>
    rw [State.step] at hstep
    split at hstep
    · rename_i f hf
      split at hstep
      · rename_i hconcerns
        obtain rfl := Option.some.inj hstep
        exact h.send fun _ => ⟨hp, h.flows f (List.mem_of_getElem? hf), .inr hconcerns⟩
      · cases hstep
    · cases hstep
  | invalid =>
    obtain rfl := Option.some.inj hstep
    refine h.send fun haccepted => ⟨hp, tokens, .inr ?_⟩
    exact of_decide_eq_true (Bool.and_eq_true_iff.mp haccepted).1

theorem Traced.step (h : Traced P chain s) {e : Event} (he : e.Sends P)
    (hstep : s.step chain e = some t) : Traced P chain t := by
  cases e with
  | output p tracked tokens passed => exact h.output he hstep
  | input u tracked =>
    cases tracked with
    | flow i =>
      rw [State.step] at hstep
      split at hstep
      · rename_i f hf
        split at hstep
        · exact Option.some.inj hstep ▸ h.see hf u
        · cases hstep
      · cases hstep
    | first =>
      rw [State.step] at hstep
      split at hstep
      · exact Option.some.inj hstep ▸ h.add fun q hq => (by cases hq)
      · cases hstep
    | error i => exact Option.some.inj hstep ▸ h
    | invalid => exact Option.some.inj hstep ▸ h
  | expire i =>
    obtain rfl := Option.some.inj hstep
    exact ⟨fun f hmem => h.flows f (List.mem_of_mem_eraseIdx hmem), h.sent⟩

def startWith (before : List Tuple) : State :=
  { flows := before.map fun orig => { orig, began := .before } }

theorem traced_reach {before : List Tuple}
    (h : Reach (State.step chain) (fun _ e => e.Sends P) (startWith before) s) :
    Traced P chain s := by
  refine h.invariant ⟨fun f hmem => ?_, fun p f hmem => (by cases hmem)⟩
    fun hinv he hstep => hinv.step he hstep
  obtain ⟨orig, -, rfl⟩ := List.mem_map.mp hmem
  intro q hq
  cases hq

end Trace

/-! ## What leaves a host -/

/-- A packet from an own address, by loopback if it goes to an own address. -/
def FromHere (own : Addr → Prop) (lo : GoString) (p : Packet) : Prop :=
  own p.tuple.src ∧ (p.oifname = lo ↔ own p.tuple.dst)

/-- The packet belongs to what the host has not begun. -/
def Answers : Option Flow → Prop
  | some f => f.began = .before ∨ f.began = .outside
  | none => False

/-- **What leaves goes where new flows may go, or was begun elsewhere.** -/
theorem confined {own : Addr → Prop} {lo : GoString} {chain : Chain} {A : Packet → Prop}
    (hopens : ∀ p, chain.Opens p → p.oifname = lo ∨ A p) {before : List Tuple} {s : State}
    (h : Reach (State.step chain) (fun _ e => e.Sends (FromHere own lo)) (startWith before) s)
    {p : Packet} {f : Option Flow} (hsent : (p, f) ∈ s.sent) (hleaves : p.oifname ≠ lo) :
    Answers f ∨ ∃ q, A q ∧ (p.tuple = q.tuple
      ∨ p.tuple.proto = .icmp ∧ p.tuple.dst = q.tuple.dst) := by
  have haccounted := (traced_reach h).sent p f hsent
  cases f with
  | none =>
    obtain ⟨-, hopen⟩ := haccounted
    exact .inr ⟨p, (hopens p hopen).resolve_left hleaves, .inl rfl⟩
  | some f =>
    obtain ⟨⟨hsrc, hroute⟩, hfounded, hof⟩ := haccounted
    have hdst : ¬ own p.tuple.dst := fun hown => hleaves (hroute.mpr hown)
    cases hbegan : f.began with
    | before => exact .inl (.inl hbegan)
    | outside => exact .inl (.inr hbegan)
    | here q =>
      obtain ⟨horig, ⟨hqsrc, hqroute⟩, hqopens⟩ := hfounded q hbegan
      rw [Flow.Carries, Flow.Concerns, horig] at hof
      -- a packet that leaves goes the way of the first one, so that left as well
      have hforth : p.tuple = q.tuple ∨ p.tuple.proto = .icmp ∧ p.tuple.dst = q.tuple.dst := by
        rcases hof with (hsame | hback) | ⟨hicmp, hback | hsame⟩
        · exact .inl hsame
        · rw [hback] at hdst
          exact absurd hqsrc hdst
        · rw [hback] at hdst
          exact absurd hqsrc hdst
        · exact .inr ⟨hicmp, hsame⟩
      have hqdst : q.tuple.dst = p.tuple.dst := by
        rcases hforth with hsame | ⟨-, hsame⟩
        · rw [hsame]
        · exact hsame.symm
      have hqleaves : q.oifname ≠ lo := by
        rw [ne_eq, hqroute, hqdst]
        exact hdst
      exact .inr ⟨q, (hopens q hqopens).resolve_left hqleaves, hforth⟩

end PacketFilter

end RbiProxy
