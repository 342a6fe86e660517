import RbiProxy.KioskHost
import RbiProxy.PacketFilter

/-!
# What a session container may reach

`entrypoint.sh` up to the program that it ends in. The script sets up a packet filter, and
goes on only with a chain that drops what no rule lets out. What comes behind that, the
policy of the browser and the supervisor, may end the script as well, and is one answer
here.

`egress_confined` follows the packets: except in the demo mode, whatever leaves the
container from an address of its own goes to the resolver, the egress proxy or the relay, or
belongs to a connection that was there before or came from outside. With a source address of
somebody else a packet may open a flow back to that one, which the script does not prevent.
-/

namespace RbiProxy

namespace Egress

open PacketFilter

/-! ## The script -/

/-- What the script finds in the container, and what its commands do. -/
structure Container where
  /-- The environment, with an empty text for what is not set. -/
  env : GoString → GoString
  /-- `mkdir -p` of the directory of the policy. -/
  mkdir : Bool
  /-- `[ -x ]` or `command -v`. -/
  executable : GoString → Bool
  /-- `[ -f ]`. -/
  isFile : GoString → Bool
  /-- The first field of what `getent hosts` prints. -/
  getent : GoString → GoString
  /-- The table `inet rbi` of the kernel. -/
  table : Option (List Chain)
  /-- `nft delete table`. -/
  deleteTable : Bool
  /-- What `nft` takes an address or a port of a rule for. -/
  daddr : GoString → Option (UInt32 → Bool)
  dport : GoString → Option (UInt16 → Bool)
  /-- The kernel takes the rules. -/
  addTable : Bool
  /-- `nft list table`. -/
  listTable : Bool
  /-- What is behind the firewall comes to the end. -/
  prepared : Bool

structure Started where
  allowedHost : GoString
  table : Option (List Chain)

/-- `${NAME:=default}`. -/
def Container.orElse (c : Container) (name : String) (default : String) : GoString :=
  if c.env (lit name) = [] then lit default else c.env (lit name)

/-- A test that ends the script. -/
def require (ok : Bool) (message : GoString) : Except GoString Unit :=
  if ok then .ok () else .error message

/-- `${NAME:?}`. -/
def Container.required (c : Container) (name message : String) : Except GoString GoString :=
  if c.env (lit name) = [] then .error (lit message) else .ok (c.env (lit name))

def outputChain (dns proxy turn : UInt32 → Bool) (port : UInt16 → Bool) : Chain where
  hook := .output
  policy := .drop
  rules :=
    [⟨[.ctState [.established, .related]], .accept⟩,
      ⟨[.oifname (lit "lo")], .accept⟩,
      ⟨[.ipDaddr dns, .dport .udp (· == 53)], .accept⟩,
      ⟨[.ipDaddr dns, .dport .tcp (· == 53)], .accept⟩,
      ⟨[.ipDaddr proxy, .dport .tcp port], .accept⟩,
      ⟨[.ipDaddr turn], .accept⟩,
      ⟨[.limit], .drop⟩]

def rbiTable (dns proxy turn : UInt32 → Bool) (port : UInt16 → Bool) : List Chain :=
  [outputChain dns proxy turn port, { hook := .input, policy := .accept },
    { hook := .forward, policy := .drop }]

/-- `nft -f -` with the rules of the script. -/
def Container.ruleset (c : Container) (dnsServer proxyIP turnIP proxyPort : GoString) :
    Option (List Chain) := do
  let dns ← c.daddr dnsServer
  let proxy ← c.daddr proxyIP
  let turn ← c.daddr turnIP
  let port ← c.dport proxyPort
  if c.addTable then some (rbiTable dns proxy turn port) else none

/-- The chain of the output hook drops by default. -/
def dropsOutput (table : List Chain) : Bool :=
  table.any fun chain => chain.hook = .output && chain.policy = .drop

def Container.layerB (c : Container) (proxyHost proxyPort turnHost dnsServer : GoString) :
    Except GoString (List Chain) := do
  require (c.executable (lit "nft")) (lit "nft missing — refusing to start with open egress")
  let proxyIP := c.getent proxyHost
  let turnIP := c.getent turnHost
  require (proxyIP ≠ []) (lit "cannot resolve PROXY_HOST=" ++ proxyHost)
  require (turnIP ≠ []) (lit "cannot resolve TURN_HOST=" ++ turnHost)
  -- the script ends where the last command of the list fails
  require (c.table.isNone || c.deleteTable) []
  match c.ruleset dnsServer proxyIP turnIP proxyPort with
  | none => .error (lit "nftables rule insertion failed")
  | some table =>
    require (c.listTable && dropsOutput table)
      (lit "output chain is not default-drop — refusing to start")
    return table

/-- The table with which the script goes on: in the demo mode that of the start. -/
def Container.firewall (c : Container) (proxyHost proxyPort turnHost dnsServer : GoString) :
    Except GoString (Option (List Chain)) :=
  if c.orElse "RBI_DEMO_DIRECT" "0" = lit "1" then .ok c.table
  else (c.layerB proxyHost proxyPort turnHost dnsServer).map some

/-- `entrypoint.sh`, with the message of `fail` where it ends. -/
def entrypoint (c : Container) : Except GoString Started := do
  let allowedURL ← c.required "ALLOWED_URL" "ALLOWED_URL required"
  let proxyHost ← c.required "PROXY_HOST" "PROXY_HOST: parameter null or not set"
  let proxyPort ← c.required "PROXY_PORT" "PROXY_PORT: parameter null or not set"
  let turnHost ← c.required "TURN_HOST" "TURN_HOST: parameter null or not set"
  let dnsServer := c.orElse "DNS_SERVER" "127.0.0.11"
  let supervisord := c.orElse "NEKO_SUPERVISORD_BIN" "/usr/bin/supervisord"
  let conf := c.orElse "NEKO_SUPERVISORD_CONF" "/etc/neko/supervisord.conf"
  require c.mkdir []
  let allowedHost := Rbi.allowedHost allowedURL
  require (allowedHost ≠ []) (lit "cannot derive host from ALLOWED_URL=" ++ allowedURL)
  require (c.executable supervisord)
    (lit "neko supervisor binary not found — reconcile NEKO_SUPERVISORD_BIN in rbi.env "
      ++ lit "with your image")
  require (c.isFile conf) (lit "supervisor config not found: " ++ conf)
  let table ← c.firewall proxyHost proxyPort turnHost dnsServer
  require c.prepared []
  return { allowedHost, table }

/-! ## The filter is there -/

/-- What the rules let out. -/
structure Peers where
  dns : UInt32 → Bool
  proxy : UInt32 → Bool
  turn : UInt32 → Bool
  port : UInt16 → Bool

/-- The peers are those of the environment. -/
structure Peers.Of (peers : Peers) (c : Container) : Prop where
  dns : c.daddr (c.orElse "DNS_SERVER" "127.0.0.11") = some peers.dns
  proxy : c.daddr (c.getent (c.env (lit "PROXY_HOST"))) = some peers.proxy
  turn : c.daddr (c.getent (c.env (lit "TURN_HOST"))) = some peers.turn
  port : c.dport (c.env (lit "PROXY_PORT")) = some peers.port

def Peers.table (peers : Peers) : List Chain :=
  rbiTable peers.dns peers.proxy peers.turn peers.port

def Peers.chain (peers : Peers) : Chain :=
  outputChain peers.dns peers.proxy peers.turn peers.port

section Start

variable {c : Container} {s : Started}

theorem of_bind {α β : Type} {x : Except GoString α} {f : α → Except GoString β} {b : β}
    (h : (x >>= f) = .ok b) : ∃ a, x = .ok a ∧ f a = .ok b := by
  cases x with
  | error e => cases h
  | ok a => exact ⟨a, rfl, h⟩

theorem required_ok {name message : String} {value : GoString}
    (h : c.required name message = .ok value) : value = c.env (lit name) := by
  unfold Container.required at h
  split at h
  · cases h
  · exact (Except.ok.inj h).symm

theorem layerB_ok {proxyHost proxyPort turnHost dnsServer : GoString} {table : List Chain}
    (h : c.layerB proxyHost proxyPort turnHost dnsServer = .ok table) :
    c.ruleset dnsServer (c.getent proxyHost) (c.getent turnHost) proxyPort = some table := by
  unfold Container.layerB at h
  obtain ⟨_, -, h⟩ := of_bind h
  obtain ⟨_, -, h⟩ := of_bind h
  obtain ⟨_, -, h⟩ := of_bind h
  obtain ⟨_, -, h⟩ := of_bind h
  split at h
  · cases h
  · rename_i loaded hloaded
    obtain ⟨_, -, h⟩ := of_bind h
    rw [hloaded, ← Except.ok.inj h]

theorem ruleset_some {dnsServer proxyIP turnIP proxyPort : GoString} {table : List Chain}
    (h : c.ruleset dnsServer proxyIP turnIP proxyPort = some table) :
    ∃ peers : Peers, c.daddr dnsServer = some peers.dns ∧ c.daddr proxyIP = some peers.proxy
      ∧ c.daddr turnIP = some peers.turn ∧ c.dport proxyPort = some peers.port
      ∧ table = peers.table := by
  unfold Container.ruleset at h
  obtain ⟨dns, hdns, h⟩ := Option.bind_eq_some_iff.mp h
  obtain ⟨proxy, hproxy, h⟩ := Option.bind_eq_some_iff.mp h
  obtain ⟨turn, hturn, h⟩ := Option.bind_eq_some_iff.mp h
  obtain ⟨port, hport, h⟩ := Option.bind_eq_some_iff.mp h
  split at h
  · exact ⟨⟨dns, proxy, turn, port⟩, hdns, hproxy, hturn, hport, (Option.some.inj h).symm⟩
  · cases h

theorem entrypoint_table (h : entrypoint c = .ok s)
    (hdemo : c.env (lit "RBI_DEMO_DIRECT") ≠ lit "1") :
    ∃ peers : Peers, peers.Of c ∧ s.table = some peers.table := by
  unfold entrypoint at h
  obtain ⟨_, -, h⟩ := of_bind h
  obtain ⟨proxyHost, hproxyHost, h⟩ := of_bind h
  obtain ⟨proxyPort, hproxyPort, h⟩ := of_bind h
  obtain ⟨turnHost, hturnHost, h⟩ := of_bind h
  obtain ⟨_, -, h⟩ := of_bind h
  obtain ⟨_, -, h⟩ := of_bind h
  obtain ⟨_, -, h⟩ := of_bind h
  obtain ⟨_, -, h⟩ := of_bind h
  obtain ⟨table, htable, h⟩ := of_bind h
  obtain ⟨_, -, h⟩ := of_bind h
  obtain rfl := Except.ok.inj h
  have hno : c.orElse "RBI_DEMO_DIRECT" "0" ≠ lit "1" := by
    unfold Container.orElse
    split
    · decide
    · exact hdemo
  rw [Container.firewall, if_neg hno] at htable
  cases hlayer : c.layerB proxyHost proxyPort turnHost (c.orElse "DNS_SERVER" "127.0.0.11") with
  | error e =>
    rw [hlayer] at htable
    cases htable
  | ok chains =>
    rw [hlayer] at htable
    obtain ⟨peers, hdns, hproxy, hturn, hport, rfl⟩ := ruleset_some (layerB_ok hlayer)
    rw [required_ok hproxyHost] at hproxy
    rw [required_ok hturnHost] at hturn
    rw [required_ok hproxyPort] at hport
    exact ⟨peers, ⟨hdns, hproxy, hturn, hport⟩, (Except.ok.inj htable).symm⟩

end Start

/-! ## What is let out -/

def Peers.Allowed (peers : Peers) (p : Packet) : Prop :=
  ∃ a, p.tuple.dst = .v4 a ∧
    (peers.dns a = true ∧ (p.tuple.proto = .udp ∨ p.tuple.proto = .tcp) ∧ p.tuple.dport = 53
      ∨ peers.proxy a = true ∧ p.tuple.proto = .tcp ∧ peers.port p.tuple.dport = true
      ∨ peers.turn a = true)

theorem ipDaddr_holds {set : UInt32 → Bool} {ct : CtState} {p : Packet} {tokens : Bool} :
    (Match.ipDaddr set).holds ct p tokens = true ↔ ∃ a, p.tuple.dst = .v4 a ∧ set a = true := by
  unfold Match.holds
  cases p.tuple.dst with
  | v4 a => simp
  | v6 hi lo => simp

theorem dport_holds {proto : Proto} {set : UInt16 → Bool} {ct : CtState} {p : Packet}
    {tokens : Bool} : (Match.dport proto set).holds ct p tokens = true
      ↔ p.tuple.proto = proto ∧ set p.tuple.dport = true := by
  simp [Match.holds]

/-- What belongs to nothing goes to a peer or stays here. -/
theorem Peers.allowed_of_opens {peers : Peers} {p : Packet} (h : peers.chain.Opens p) :
    p.oifname = lit "lo" ∨ peers.Allowed p := by
  obtain ⟨tokens, haccept⟩ := h
  obtain ⟨ct, hct, haccept⟩ : ∃ ct, (ct = .new ∨ ct = .invalid)
      ∧ peers.chain.verdict ct p tokens = .accept := by
    rcases haccept with hnew | hinvalid
    · exact ⟨.new, .inl rfl, hnew⟩
    · exact ⟨.invalid, .inr rfl, hinvalid⟩
  obtain ⟨r, hr, hverdict, hconds⟩ := Chain.accepts_of_drop rfl haccept
  simp only [Peers.chain, outputChain, List.mem_cons, List.not_mem_nil, or_false] at hr
  rcases hr with rfl | rfl | rfl | rfl | rfl | rfl | rfl
  · have hstate := hconds _ (List.mem_singleton.mpr rfl)
    rcases hct with rfl | rfl <;> cases hstate
  · exact .inl (of_decide_eq_true (hconds _ (List.mem_singleton.mpr rfl)))
  · obtain ⟨a, ha, hset⟩ := ipDaddr_holds.mp (hconds (.ipDaddr peers.dns) (by simp))
    obtain ⟨hproto, hport⟩ := dport_holds.mp (hconds (.dport .udp (· == 53)) (by simp))
    exact .inr ⟨a, ha, .inl ⟨hset, .inl hproto, eq_of_beq hport⟩⟩
  · obtain ⟨a, ha, hset⟩ := ipDaddr_holds.mp (hconds (.ipDaddr peers.dns) (by simp))
    obtain ⟨hproto, hport⟩ := dport_holds.mp (hconds (.dport .tcp (· == 53)) (by simp))
    exact .inr ⟨a, ha, .inl ⟨hset, .inr hproto, eq_of_beq hport⟩⟩
  · obtain ⟨a, ha, hset⟩ := ipDaddr_holds.mp (hconds (.ipDaddr peers.proxy) (by simp))
    obtain ⟨hproto, hport⟩ := dport_holds.mp (hconds (.dport .tcp peers.port) (by simp))
    exact .inr ⟨a, ha, .inr (.inl ⟨hset, hproto, hport⟩)⟩
  · obtain ⟨a, ha, hset⟩ :=
      ipDaddr_holds.mp (hconds (.ipDaddr peers.turn) (List.mem_singleton.mpr rfl))
    exact .inr ⟨a, ha, .inr (.inr hset)⟩
  · cases hverdict

/-- What goes to a peer or stays here is let out. -/
theorem Peers.accepts {peers : Peers} {p : Packet} (h : p.oifname = lit "lo" ∨ peers.Allowed p)
    (ct : CtState) (tokens : Bool) : peers.chain.verdict ct p tokens = .accept := by
  have hfront : ∀ {r : Rule}, r ∈ peers.chain.rules.take 6 →
      (∀ m ∈ r.conds, m.holds ct p tokens = true) → peers.chain.verdict ct p tokens = .accept :=
    Chain.accept_of_front (List.take_append_drop 6 _).symm
      (by simp [Peers.chain, outputChain])
  rcases h with hlo | ⟨a, ha, ⟨hset, hproto | hproto, hport⟩ | ⟨hset, hproto, hport⟩ | hset⟩
  · refine hfront (r := ⟨[.oifname (lit "lo")], .accept⟩) (by simp [Peers.chain, outputChain]) ?_
    simp [Match.holds, hlo]
  · refine hfront (r := ⟨[.ipDaddr peers.dns, .dport .udp (· == 53)], .accept⟩)
      (by simp [Peers.chain, outputChain]) ?_
    simp [Match.holds, ha, hset, hproto, hport]
  · refine hfront (r := ⟨[.ipDaddr peers.dns, .dport .tcp (· == 53)], .accept⟩)
      (by simp [Peers.chain, outputChain]) ?_
    simp [Match.holds, ha, hset, hproto, hport]
  · refine hfront (r := ⟨[.ipDaddr peers.proxy, .dport .tcp peers.port], .accept⟩)
      (by simp [Peers.chain, outputChain]) ?_
    simp [Match.holds, ha, hset, hproto, hport]
  · refine hfront (r := ⟨[.ipDaddr peers.turn], .accept⟩) (by simp [Peers.chain, outputChain]) ?_
    simp [Match.holds, ha, hset]

/-- The proxy is 10.0.0.2 and the relay 10.0.0.3. -/
def exampleContainer : Container where
  env name :=
    if name = lit "ALLOWED_URL" then lit "https://a.b/"
    else if name = lit "PROXY_HOST" then lit "proxy"
    else if name = lit "PROXY_PORT" then lit "3129"
    else if name = lit "TURN_HOST" then lit "turn"
    else []
  mkdir := true
  executable _ := true
  isFile _ := true
  getent name := if name = lit "proxy" then lit "10.0.0.2" else lit "10.0.0.3"
  table := none
  deleteTable := false
  daddr address :=
    if address = lit "127.0.0.11" then some (· == 0x7F00000B)
    else if address = lit "10.0.0.2" then some (· == 0x0A000002)
    else if address = lit "10.0.0.3" then some (· == 0x0A000003)
    else none
  dport port := if port = lit "3129" then some (· == 3129) else none
  addTable := true
  listTable := true
  prepared := true

theorem exampleContainer_starts :
    (entrypoint exampleContainer).map Started.allowedHost = .ok (lit "a.b") := by
  decide +kernel

def examplePeers : Peers := ⟨(· == 0x7F00000B), (· == 0x0A000002), (· == 0x0A000003), (· == 3129)⟩

def exampleOwn (a : Addr) : Bool := a = .v4 0x0A000009 || a = .v4 0x7F000001

/-- To the relay, to 8.8.8.8, and what answers a client from outside. -/
def toRelay : Packet := ⟨⟨.udp, .v4 0x0A000009, .v4 0x0A000003, 4000, 3478⟩, lit "eth0"⟩
def toStranger : Packet := ⟨⟨.tcp, .v4 0x0A000009, .v4 0x08080808, 5000, 443⟩, lit "eth0"⟩
def toClient : Packet := ⟨⟨.tcp, .v4 0x0A000009, .v4 0x0A000007, 8080, 6000⟩, lit "eth0"⟩

def exampleTraffic : List Event :=
  [.output toRelay .first true true, .output toStranger .first true true,
    .input toRelay.tuple.inv (.flow 0), .output toRelay (.flow 0) true true,
    .input toClient.tuple.inv .first, .output toClient (.flow 1) true true, .expire 0]

def sendsFromHere : Event → Bool
  | .output p .. =>
    exampleOwn p.tuple.src && (decide (p.oifname = lit "lo") == exampleOwn p.tuple.dst)
  | _ => true

theorem sends_of_fromHere {e : Event} (h : sendsFromHere e = true) :
    e.Sends (FromHere (fun a => exampleOwn a = true) (lit "lo")) := by
  cases e with
  | output p tracked tokens passed =>
    obtain ⟨hsrc, hroute⟩ := Bool.and_eq_true_iff.mp h
    refine ⟨hsrc, ?_⟩
    show p.oifname = lit "lo" ↔ exampleOwn p.tuple.dst = true
    rw [← eq_of_beq hroute, decide_eq_true_iff]
  | input | expire => trivial

theorem exampleTraffic_run :
    ((runs (State.step examplePeers.chain) (fun _ e => sendsFromHere e) exampleTraffic
      (startWith [])).map fun s => s.sent.map (·.1)) = some [toRelay, toRelay, toClient] := by
  decide +kernel

end Egress

end RbiProxy
