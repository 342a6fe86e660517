import RbiProxy.AdminServer
import RbiProxy.Indexed
import RbiProxy.Reach

/-!
# Who changes the settings

Somebody who sends the admin's name and password gets a token for an hour, and every
endpoint that stores something is behind `authenticationMiddleware`, which asks for a token.
What the rest of the gateway does to its own copies of the settings may happen at any time.

Requests are handled at the same time. Between the comparisons of the name and of the
password, between the middleware and the handler, and between the two accesses of
`GSApiSettingsPOST` to the store everything else may happen. A handler is one step otherwise;
what two user handlers do to each other is the subject of `UserRequests`.

The tokens are those of a library, of which only its own signatures are described (`Jwt`).
That nobody else signs with the secret is a condition on the runs (`Honest`).

`calls_authorised` traces every request that was handled back to a login: the name was the
stored one at one time, the password at a later time, and the request was let in less than an
hour after that. `account_posted` says what they can have been: the account of the start, or
what a request that was handled has sent; an empty password never comes about.
-/

namespace RbiProxy

namespace Admin

open Json

/-! ## Tokens -/

def second : Nat := 1000000000

def hour : Nat := 3600 * second

/-- `jwt.MapClaims` of `CreateToken`; the times are in seconds. -/
structure Claims where
  username : GoString
  nbf : Nat
  exp : Nat

/-- What `jwt.Parse` returns. -/
inductive Parsed where
  /-- No token at all, which the middleware runs into a nil pointer with. -/
  | malformed
  | invalid
  /-- A valid token, with the claim `username` if it is a string. -/
  | valid (username : Option GoString)

/-- The library with the secret. -/
structure Jwt where
  sign : Claims → GoString
  parse : GoString → Nat → Parsed
  /-- The claims travel as JSON. A token is valid from `nbf` until `exp`. -/
  parse_sign : ∀ c now, parse (sign c) now
    = if c.nbf * second ≤ now ∧ now < c.exp * second then .valid (some (jsonText c.username))
      else .invalid

def bearer (authorization : GoString) : GoString := trimPrefix authorization (lit "Bearer ")

/-! ## The server -/

/-- `User`, without the field `password`, which nothing reads. -/
structure User where
  username : GoString := []
  pass : GoString := []

def User.set (u : User) (name : GoString) (v : Value) : User × Bool :=
  if name = lit "username" then
    ({ u with username := (decodeString u.username v).1 }, (decodeString u.username v).2)
  else if name = lit "password" then (u, (decodeString [] v).2)
  else ({ u with pass := (decodeString u.pass v).1 }, (decodeString u.pass v).2)

def decodeUser : Value → User × Bool :=
  decodeStruct [lit "username", lit "password", lit "pass"] true User.set {}

inductive LoginPhase where
  | started
  /-- The name was right. -/
  | named
  | over
deriving DecidableEq

structure Login where
  user : User
  phase : LoginPhase := .started

inductive CallPhase where
  /-- The middleware has let it in. -/
  | passed
  /-- The handler has read the password. Only `GSApiSettingsPOST` uses it. -/
  | read (pass : GoString)
  | over
deriving DecidableEq

structure Pending where
  call : Call
  phase : CallPhase := .passed

structure ServerState where
  store : Store
  now : Nat
  /-- The tokens that were handed out. -/
  tokens : List GoString := []
  logins : List Login := []
  requests : List Pending := []
  /-- The requests that were handled. -/
  handled : List Call := []

inductive ServerEvent where
  | tick (n : Nat)
  /-- `POST /api/auth/token`. -/
  | login (body : GoString)
  /-- The comparisons of `VerifyAdminUser`. The clock is read `d` behind the second one, and
  again `d'` later. -/
  | checkName (j : Nat)
  | checkPass (j d d' : Nat)
  /-- The middleware. -/
  | check (authorization : GoString) (call : Call)
  | readPass (i : Nat)
  | handle (i : Nat)
  /-- The rest of the gateway, with what it makes of its copies. -/
  | other (users : Users.GSRuntime) (files : Policy.FilterFiles) (gsSettings file : GoString)

namespace ServerState

variable (env : Proxy.Env) (jwt : Jwt)

def user (s : ServerState) : GoString := s.store.config.user

def pass (s : ServerState) : GoString := s.store.config.pass

/-- `CreateToken`, with the two readings of the clock. -/
def createToken (username : GoString) (t t' : Nat) : GoString :=
  jwt.sign ⟨username, t / second, (t' + hour) / second⟩

def checkName (s : ServerState) (j : Nat) (l : Login) : ServerState :=
  { s with logins := s.logins.set j { l with
    phase := if s.user = l.user.username then .named else .over } }

def checkPass (s : ServerState) (j d d' : Nat) (l : Login) : ServerState :=
  let s' := { s with
    now := s.now + d + d'
    logins := s.logins.set j { l with phase := .over } }
  if s.pass = l.user.pass then
    { s' with
      tokens := s.tokens ++ [createToken jwt l.user.username (s.now + d) (s.now + d + d')] }
  else s'

def step (s : ServerState) : ServerEvent → Option ServerState
  | .tick n => some { s with now := s.now + n }
  | .login body =>
    let (user, ok) := parseJSONRequest decodeUser {} body
    if ok then some { s with logins := s.logins ++ [{ user }] } else some s
  | .checkName j =>
    match s.logins[j]? with
    | some l => if l.phase = .started then some (s.checkName j l) else none
    | none => none
  | .checkPass j d d' =>
    match s.logins[j]? with
    | some l => if l.phase = .named then some (s.checkPass jwt j d d' l) else none
    | none => none
  | .check authorization call =>
    if bearer authorization = [] then some s
    else
      match jwt.parse (bearer authorization) s.now with
      | .valid (some _) => some { s with requests := s.requests ++ [{ call }] }
      -- an error, or a panic that ends the request
      | .valid none | .invalid | .malformed => some s
  | .readPass i =>
    match s.requests[i]? with
    | some r =>
      if r.phase = .passed then
        some { s with requests := s.requests.set i { r with phase := .read s.pass } }
      else none
    | none => none
  | .handle i =>
    match s.requests[i]? with
    | some r =>
      match r.phase with
      | .read pass =>
        some { s with
          store := s.store.handleWith env pass r.call
          requests := s.requests.set i { r with phase := .over }
          handled := s.handled ++ [r.call] }
      | .passed | .over => none
    | none => none
  | .other users files gsSettings file =>
    let core := { s.store.core with users, files, general.gsSettings := gsSettings }
    some { s with store := { s.store with core := { core with general.file := file } } }

end ServerState

/-- A token that is valid was handed out. -/
def Honest (jwt : Jwt) (s : ServerState) : ServerEvent → Prop
  | .check authorization _ =>
    ∀ username, jwt.parse (bearer authorization) s.now = .valid username →
      bearer authorization ∈ s.tokens
  | _ => True

/-! ## Where a request comes from -/

section Origin

variable (env : Proxy.Env) (jwt : Jwt)

/-- The second state comes behind the first one in a run. -/
abbrev Later : ServerState → ServerState → Prop :=
  Reach (ServerState.step env jwt) (Honest jwt)

/-- The name that login `j` came with was the stored one when it was compared. -/
def Named (s₀ : ServerState) (j : Nat) (u : User) (s : ServerState) : Prop :=
  ∃ a l a', Later env jwt s₀ a ∧ a.logins[j]? = some l ∧ l.user = u ∧ a.user = u.username
    ∧ a.step env jwt (.checkName j) = some a' ∧ Later env jwt a' s

/-- The token was handed out at the end `c` of a login, whose password was the stored one
when it was compared. -/
def Issued (s₀ : ServerState) (token : GoString) (c s : ServerState) : Prop :=
  ∃ j l b d d', Named env jwt s₀ j l.user b ∧ b.logins[j]? = some l ∧ b.pass = l.user.pass
    ∧ b.step env jwt (.checkPass j d d') = some c ∧ c.tokens = b.tokens ++ [token]
    ∧ (∃ t, token = ServerState.createToken jwt l.user.username t c.now) ∧ Later env jwt c s

/-- The middleware let the request in, with a token that is less than an hour old. -/
def Authorised (s₀ : ServerState) (call : Call) (s : ServerState) : Prop :=
  ∃ authorization c p p', Issued env jwt s₀ (bearer authorization) c p
    ∧ p.now < c.now + hour ∧ p.step env jwt (.check authorization call) = some p'
    ∧ p'.requests = p.requests ++ [({ call } : Pending)] ∧ Later env jwt p' s

end Origin

section Steps

variable {env : Proxy.Env} {jwt : Jwt} {s₀ s t c : ServerState} {e : ServerEvent}

theorem Named.later {j : Nat} {u : User} (h : Named env jwt s₀ j u s) (hst : Later env jwt s t) :
    Named env jwt s₀ j u t := by
  obtain ⟨a, l, a', ha, hl, hu, hname, hstep, has⟩ := h
  exact ⟨a, l, a', ha, hl, hu, hname, hstep, has.trans hst⟩

theorem Issued.later {token : GoString} (h : Issued env jwt s₀ token c s)
    (hst : Later env jwt s t) : Issued env jwt s₀ token c t := by
  obtain ⟨j, l, b, d, d', hb, hl, hpass, hstep, htokens, htoken, hcs⟩ := h
  exact ⟨j, l, b, d, d', hb, hl, hpass, hstep, htokens, htoken, hcs.trans hst⟩

theorem Authorised.later {call : Call} (h : Authorised env jwt s₀ call s)
    (hst : Later env jwt s t) : Authorised env jwt s₀ call t := by
  obtain ⟨authorization, c, p, p', hissued, hage, hstep, hin, hps⟩ := h
  exact ⟨authorization, c, p, p', hissued, hage, hstep, hin, hps.trans hst⟩

/-- A token that is valid is less than an hour old. -/
theorem age_of_valid {name : GoString} {t t' now : Nat} {username : Option GoString}
    (h : jwt.parse (ServerState.createToken jwt name t t') now = .valid username) :
    now < t' + hour := by
  rw [ServerState.createToken, jwt.parse_sign] at h
  split at h
  · rename_i hvalid
    exact Nat.lt_of_lt_of_le hvalid.2 (Nat.div_mul_le_self _ _)
  · cases h

/-- Everything is traced back to where it comes from. -/
structure Traced (env : Proxy.Env) (jwt : Jwt) (s₀ s : ServerState) : Prop where
  since : Later env jwt s₀ s
  tokens : ∀ token ∈ s.tokens, ∃ c, Issued env jwt s₀ token c s
  logins : ∀ (j : Nat) (l : Login), s.logins[j]? = some l → l.phase = .named →
    Named env jwt s₀ j l.user s
  requests : ∀ (i : Nat) (r : Pending), s.requests[i]? = some r → Authorised env jwt s₀ r.call s
  handled : ∀ call ∈ s.handled, Authorised env jwt s₀ call s

/-- A step adds what has been traced in the state behind it. -/
theorem Traced.step (h : Traced env jwt s₀ s) (hok : Honest jwt s e)
    (hstep : s.step env jwt e = some t)
    (htokens : ∀ token ∈ t.tokens, token ∈ s.tokens ∨ ∃ c, Issued env jwt s₀ token c t)
    (hlogins : ∀ (j : Nat) (l : Login), t.logins[j]? = some l →
      s.logins[j]? = some l ∨ (l.phase = .named → Named env jwt s₀ j l.user t))
    (hrequests : ∀ (i : Nat) (r : Pending), t.requests[i]? = some r →
      (∃ r', s.requests[i]? = some r' ∧ r'.call = r.call) ∨ Authorised env jwt s₀ r.call t)
    (hhandled : ∀ call ∈ t.handled, call ∈ s.handled
      ∨ ∃ (i : Nat) (r : Pending), s.requests[i]? = some r ∧ r.call = call) :
    Traced env jwt s₀ t := by
  have hone : Later env jwt s t := .next .init hok hstep
  refine ⟨.next h.since hok hstep, fun token htoken => ?_, fun j l hl hnamed => ?_,
    fun i r hr => ?_, fun call hcall => ?_⟩
  · rcases htokens token htoken with hold | hnew
    · obtain ⟨c, hc⟩ := h.tokens token hold
      exact ⟨c, hc.later hone⟩
    · exact hnew
  · rcases hlogins j l hl with hold | hnew
    · exact (h.logins j l hold hnamed).later hone
    · exact hnew hnamed
  · rcases hrequests i r hr with ⟨r', hold, hcall⟩ | hnew
    · exact hcall ▸ (h.requests i r' hold).later hone
    · exact hnew
  · rcases hhandled call hcall with hold | ⟨i, r, hr, rfl⟩
    · exact (h.handled call hold).later hone
    · exact (h.requests i r hr).later hone

theorem Traced.checkName (h : Traced env jwt s₀ s) {j : Nat} {l : Login}
    (hok : Honest jwt s (.checkName j)) (hl : s.logins[j]? = some l)
    (hphase : l.phase = .started) : Traced env jwt s₀ (s.checkName j l) := by
  have hstep : s.step env jwt (.checkName j) = some (s.checkName j l) := by
    simp only [ServerState.step, hl, if_pos hphase]
  refine h.step hok hstep (fun _ => .inl) (fun j' l' hl' => ?_) (fun i r hr => .inl ⟨r, hr, rfl⟩)
    fun _ => .inl
  rcases Indexed.of_set hl' with ⟨rfl, rfl⟩ | ⟨-, hold⟩
  · refine .inr fun hnamed => ?_
    have hname : s.user = l.user.username := by
      by_contra hne
      rw [if_neg hne] at hnamed
      cases hnamed
    exact ⟨s, l, _, h.since, hl, rfl, hname, hstep, .init⟩
  · exact .inl hold

theorem Traced.checkPass (h : Traced env jwt s₀ s) {j d d' : Nat} {l : Login}
    (hok : Honest jwt s (.checkPass j d d')) (hl : s.logins[j]? = some l)
    (hphase : l.phase = .named) : Traced env jwt s₀ (s.checkPass jwt j d d' l) := by
  have hstep : s.step env jwt (.checkPass j d d') = some (s.checkPass jwt j d d' l) := by
    simp only [ServerState.step, hl, if_pos hphase]
  have hparts : (s.checkPass jwt j d d' l).logins = s.logins.set j { l with phase := .over }
      ∧ (s.checkPass jwt j d d' l).requests = s.requests
      ∧ (s.checkPass jwt j d d' l).handled = s.handled
      ∧ (s.checkPass jwt j d d' l).now = s.now + d + d' := by
    unfold ServerState.checkPass
    split <;> exact ⟨rfl, rfl, rfl, rfl⟩
  obtain ⟨hlogins, hrequests, hhandled, hnow⟩ := hparts
  refine h.step hok hstep (fun token htoken => ?_) (fun j' l' hl' => ?_)
    (fun i r hr => .inl ⟨r, hrequests ▸ hr, rfl⟩) fun _ hc => .inl (hhandled ▸ hc)
  · by_cases hpass : s.pass = l.user.pass
    · have hall : (s.checkPass jwt j d d' l).tokens = s.tokens
          ++ [ServerState.createToken jwt l.user.username (s.now + d) (s.now + d + d')] := by
        rw [ServerState.checkPass, if_pos hpass]
      rw [hall] at htoken
      rcases List.mem_append.mp htoken with hold | hnew
      · exact .inl hold
      · -- this is the token that was handed out now
        obtain rfl := List.mem_singleton.mp hnew
        refine .inr ⟨s.checkPass jwt j d d' l, j, l, s, d, d', h.logins j l hl hphase, hl, hpass,
          hstep, hall, ⟨s.now + d, ?_⟩, .init⟩
        rw [hnow]
    · rw [ServerState.checkPass, if_neg hpass] at htoken
      exact .inl htoken
  · rw [hlogins] at hl'
    rcases Indexed.of_set hl' with ⟨-, rfl⟩ | ⟨-, hold⟩
    · exact .inr fun hnamed => (by cases hnamed)
    · exact .inl hold

theorem Traced.check (h : Traced env jwt s₀ s) {authorization : GoString} {call : Call}
    (hok : Honest jwt s (.check authorization call)) {username : GoString}
    (hne : bearer authorization ≠ [])
    (hvalid : jwt.parse (bearer authorization) s.now = .valid (some username)) :
    Traced env jwt s₀ { s with requests := s.requests ++ [{ call }] } := by
  have hstep : s.step env jwt (.check authorization call)
      = some { s with requests := s.requests ++ [{ call }] } := by
    simp only [ServerState.step, if_neg hne, hvalid]
  refine h.step hok hstep (fun _ => .inl) (fun _ _ => .inl) (fun i r hr => ?_) fun _ => .inl
  rcases Indexed.of_concat hr with hold | ⟨-, rfl⟩
  · exact .inl ⟨r, hold, rfl⟩
  · obtain ⟨c, hissued⟩ := h.tokens _ (hok _ hvalid)
    have hage : s.now < c.now + hour := by
      obtain ⟨j, l, b, d, d', -, -, -, -, -, ⟨t, htoken⟩, -⟩ := hissued
      rw [htoken] at hvalid
      exact age_of_valid hvalid
    exact .inr ⟨authorization, c, s, _, hissued, hage, hstep, rfl, .init⟩

theorem Traced.next (h : Traced env jwt s₀ s) (hok : Honest jwt s e)
    (hstep : s.step env jwt e = some t) : Traced env jwt s₀ t := by
  have hquiet : ∀ {t : ServerState}, s.step env jwt e = some t → t.tokens = s.tokens →
      t.logins = s.logins → t.requests = s.requests → t.handled = s.handled →
      Traced env jwt s₀ t := fun hstep htokens hlogins hrequests hhandled =>
    h.step hok hstep (fun _ hc => .inl (htokens ▸ hc)) (fun _ _ hl => .inl (hlogins ▸ hl))
      (fun _ r hr => .inl ⟨r, hrequests ▸ hr, rfl⟩) fun _ hc => .inl (hhandled ▸ hc)
  have hsame : s.step env jwt e = some s → Traced env jwt s₀ s := fun hstep =>
    hquiet hstep rfl rfl rfl rfl
  cases e with
  | tick n =>
    have hnow := Option.some.inj hstep
    subst hnow
    exact hquiet hstep rfl rfl rfl rfl
  | other users files gsSettings file =>
    have hcore := Option.some.inj hstep
    subst hcore
    exact hquiet hstep rfl rfl rfl rfl
  | login body =>
    have hkeep := hstep
    simp only [ServerState.step] at hstep
    split at hstep
    · obtain rfl := Option.some.inj hstep
      refine h.step hok hkeep (fun _ => .inl) (fun j l hl => ?_)
        (fun i r hr => .inl ⟨r, hr, rfl⟩) fun _ => .inl
      rcases Indexed.of_concat hl with hold | ⟨-, rfl⟩
      · exact .inl hold
      · exact .inr fun hnamed => (by cases hnamed)
    · obtain rfl := Option.some.inj hstep
      exact hsame hkeep
  | checkName j =>
    rw [ServerState.step] at hstep
    split at hstep
    case h_1 l hl =>
      split at hstep
      · exact Option.some.inj hstep ▸ h.checkName hok hl ‹_›
      · cases hstep
    case h_2 => cases hstep
  | checkPass j d d' =>
    rw [ServerState.step] at hstep
    split at hstep
    case h_1 l hl =>
      split at hstep
      · exact Option.some.inj hstep ▸ h.checkPass hok hl ‹_›
      · cases hstep
    case h_2 => cases hstep
  | check authorization call =>
    have hkeep := hstep
    rw [ServerState.step] at hstep
    split at hstep
    · obtain rfl := Option.some.inj hstep
      exact hsame hkeep
    · rename_i hne
      split at hstep
      · rename_i username hvalid
        exact Option.some.inj hstep ▸ h.check hok hne hvalid
      all_goals
        obtain rfl := Option.some.inj hstep
        exact hsame hkeep
  | readPass i =>
    have hkeep := hstep
    rw [ServerState.step] at hstep
    split at hstep
    case h_1 r hr =>
      split at hstep
      · obtain rfl := Option.some.inj hstep
        refine h.step hok hkeep (fun _ => .inl) (fun _ _ => .inl) (fun i' r' hr' => ?_)
          fun _ => .inl
        rcases Indexed.of_set hr' with ⟨rfl, rfl⟩ | ⟨-, hold⟩
        · exact .inl ⟨r, hr, rfl⟩
        · exact .inl ⟨r', hold, rfl⟩
      · cases hstep
    case h_2 => cases hstep
  | handle i =>
    have hkeep := hstep
    rw [ServerState.step] at hstep
    split at hstep
    case h_1 r hr =>
      split at hstep
      · obtain rfl := Option.some.inj hstep
        refine h.step hok hkeep (fun _ => .inl) (fun _ _ => .inl) (fun i' r' hr' => ?_)
          fun call hcall => ?_
        · rcases Indexed.of_set hr' with ⟨rfl, rfl⟩ | ⟨-, hold⟩
          · exact .inl ⟨r, hr, rfl⟩
          · exact .inl ⟨r', hold, rfl⟩
        · rcases List.mem_append.mp hcall with hold | hnew
          · exact .inl hold
          · exact .inr ⟨i, r, hr, (List.mem_singleton.mp hnew).symm⟩
      all_goals cases hstep
    case h_2 => cases hstep

def ServerState.start (store : Store) (now : Nat) : ServerState := { store, now }

theorem traced_start (store : Store) (now : Nat) :
    Traced env jwt (.start store now) (.start store now) where
  since := .init
  tokens token htoken := by cases htoken
  logins j l hl := by cases hl
  requests i r hr := by cases hr
  handled call hcall := by cases hcall

/-- **Every request that was handled came with a token of a login.** -/
theorem calls_authorised {store : Store} {now : Nat}
    (h : Later env jwt (.start store now) s) {call : Call} (hcall : call ∈ s.handled) :
    Authorised env jwt (.start store now) call s := by
  have htraced := h.invariant (traced_start store now) fun hinv hok hstep => hinv.next hok hstep
  exact htraced.handled call hcall

end Steps

/-! ## The account -/

/-- A request for `general_settings` with a password. -/
def Call.Sets (call : Call) (pass : GoString) : Prop :=
  ∃ g, call.account = some g ∧ g.adminPassword = pass ∧ pass ≠ []

/-- The password comes from the start or from a request. -/
def Known (s₀ s : ServerState) (pass : GoString) : Prop :=
  pass = s₀.pass ∨ ∃ call ∈ s.handled, call.Sets pass

/-- What the account and the entries can be. -/
structure Posted (s₀ s : ServerState) : Prop where
  /-- The name is the one that was sent last, and the entries are. -/
  user : s.user = (s.handled.foldl Config.accept s₀.store.config).user
  entries : s.store.config.entries = (s.handled.foldl Config.accept s₀.store.config).entries
  /-- Of two requests the later one can put back the password that it has read. -/
  pass : Known s₀ s s.pass
  nonempty : s₀.pass ≠ [] → s.pass ≠ []

structure Accounted (s₀ s : ServerState) : Prop where
  user : s.user = (s.handled.foldl Config.accept s₀.store.config).user
  entries : s.store.config.entries = (s.handled.foldl Config.accept s₀.store.config).entries
  pass : Known s₀ s s.pass
  reads : ∀ (i : Nat) (r : Pending) (pass : GoString), s.requests[i]? = some r →
    r.phase = .read pass → Known s₀ s pass ∧ Utf8 pass

section Account

variable {env : Proxy.Env} {jwt : Jwt} {s₀ s t : ServerState} {e : ServerEvent}

theorem Known.handled {pass : GoString} (h : Known s₀ s pass)
    (hall : ∀ call ∈ s.handled, call ∈ t.handled) : Known s₀ t pass := by
  rcases h with hfirst | ⟨call, hcall, hsets⟩
  · exact .inl hfirst
  · exact .inr ⟨call, hall call hcall, hsets⟩

/-- A step that stores nothing new, and reads at most the password. -/
theorem Accounted.quiet (h : Accounted s₀ s) (hconfig : t.store.config = s.store.config)
    (hhandled : t.handled = s.handled)
    (hreads : ∀ (i : Nat) (r : Pending) (pass : GoString), t.requests[i]? = some r →
      r.phase = .read pass → s.requests[i]? = some r ∨ pass = s.pass) : Accounted s₀ t := by
  have huser : t.user = s.user := congrArg Config.user hconfig
  have hpass : t.pass = s.pass := congrArg Config.pass hconfig
  have hkeep : ∀ {pass}, Known s₀ s pass → Known s₀ t pass := fun hk =>
    hk.handled fun call hcall => hhandled ▸ hcall
  refine ⟨?_, ?_, hpass ▸ hkeep h.pass, fun i r pass hr hphase => ?_⟩
  · rw [huser, hhandled, h.user]
  · rw [hconfig, hhandled, h.entries]
  · rcases hreads i r pass hr hphase with hold | rfl
    · obtain ⟨hk, htext⟩ := h.reads i r pass hold hphase
      exact ⟨hkeep hk, htext⟩
    · exact ⟨hkeep h.pass, utf8_getAdminPassword _⟩

theorem Accounted.handle (h : Accounted s₀ s) {i : Nat} {r : Pending} {pass : GoString}
    (hr : s.requests[i]? = some r) (hphase : r.phase = .read pass) :
    Accounted s₀ { s with
      store := s.store.handleWith env pass r.call
      requests := s.requests.set i { r with phase := .over }
      handled := s.handled ++ [r.call] } := by
  obtain ⟨hread, htext⟩ := h.reads i r pass hr hphase
  have hconfig : (s.store.handleWith env pass r.call).config
      = s.store.config.acceptWith pass r.call := config_handleWith htext s.store r.call
  have hmore : ∀ {p}, Known s₀ s p → Known s₀ { s with
      store := s.store.handleWith env pass r.call
      requests := s.requests.set i { r with phase := .over }
      handled := s.handled ++ [r.call] } p := fun hk =>
    hk.handled fun call hcall => List.mem_append_left _ hcall
  refine ⟨?_, ?_, ?_, fun i' r' pass' hr' hphase' => ?_⟩
  · change (s.store.handleWith env pass r.call).config.user = _
    rw [hconfig, List.foldl_append]
    exact congrArg (fun user => (r.call.account.map (·.adminUser)).getD user) h.user
  · change (s.store.handleWith env pass r.call).config.entries = _
    rw [hconfig, List.foldl_append]
    exact congrArg (fun entries => r.call.entries.getD entries) h.entries
  · change Known s₀ _ (s.store.handleWith env pass r.call).config.pass
    rw [hconfig, Config.acceptWith]
    cases haccount : r.call.account with
    | none => exact hmore h.pass
    | some g =>
      simp only [Option.map_some, Option.getD_some]
      by_cases hnew : g.adminPassword ≠ []
      · rw [if_pos hnew]
        exact .inr ⟨r.call, by simp, g, haccount, rfl, hnew⟩
      · rw [if_neg hnew]
        exact hmore hread
  · rcases Indexed.of_set hr' with ⟨rfl, rfl⟩ | ⟨-, hold⟩
    · cases hphase'
    · obtain ⟨hk, htext'⟩ := h.reads i' r' pass' hold hphase'
      exact ⟨hmore hk, htext'⟩

theorem Accounted.next (h : Accounted s₀ s) (hstep : s.step env jwt e = some t) :
    Accounted s₀ t := by
  cases e with
  | tick n => exact Option.some.inj hstep ▸ h.quiet rfl rfl fun _ _ _ hr _ => .inl hr
  | other users files gsSettings file =>
    obtain rfl := Option.some.inj hstep
    exact h.quiet (config_of_web rfl rfl) rfl fun _ _ _ hr _ => .inl hr
  | login body =>
    simp only [ServerState.step] at hstep
    split at hstep
    all_goals exact Option.some.inj hstep ▸ h.quiet rfl rfl fun _ _ _ hr _ => .inl hr
  | checkName j =>
    rw [ServerState.step] at hstep
    split at hstep
    case h_1 l hl =>
      split at hstep
      · exact Option.some.inj hstep ▸ h.quiet rfl rfl fun _ _ _ hr _ => .inl hr
      · cases hstep
    case h_2 => cases hstep
  | checkPass j d d' =>
    rw [ServerState.step] at hstep
    split at hstep
    case h_1 l hl =>
      split at hstep
      · obtain rfl := Option.some.inj hstep
        unfold ServerState.checkPass
        simp only
        split
        all_goals exact h.quiet rfl rfl fun _ _ _ hr _ => .inl hr
      · cases hstep
    case h_2 => cases hstep
  | check authorization call =>
    rw [ServerState.step] at hstep
    split at hstep
    · exact Option.some.inj hstep ▸ h
    · split at hstep
      · obtain rfl := Option.some.inj hstep
        refine h.quiet rfl rfl fun i r pass hr hphase => ?_
        rcases Indexed.of_concat hr with hold | ⟨-, rfl⟩
        · exact .inl hold
        · cases hphase
      all_goals exact Option.some.inj hstep ▸ h
  | readPass i =>
    rw [ServerState.step] at hstep
    split at hstep
    case h_1 r hr =>
      split at hstep
      · obtain rfl := Option.some.inj hstep
        refine h.quiet rfl rfl fun i' r' pass hr' hphase => ?_
        rcases Indexed.of_set hr' with ⟨-, rfl⟩ | ⟨-, hold⟩
        · exact .inr (CallPhase.read.inj hphase).symm
        · exact .inl hold
      · cases hstep
    case h_2 => cases hstep
  | handle i =>
    rw [ServerState.step] at hstep
    split at hstep
    case h_1 r hr =>
      split at hstep
      · rename_i pass hphase
        exact Option.some.inj hstep ▸ h.handle hr hphase
      all_goals cases hstep
    case h_2 => cases hstep

theorem accounted_start (store : Store) (now : Nat) :
    Accounted (.start store now) (.start store now) where
  user := rfl
  entries := rfl
  pass := .inl rfl
  reads i r pass hr := by cases hr

/-- **The account is what the requests that were handled have sent.** -/
theorem account_posted {store : Store} {now : Nat}
    (h : Reach (ServerState.step env jwt) anyStep (.start store now) s) :
    Posted (.start store now) s := by
  have haccounted := h.invariant (accounted_start store now) fun hinv _ hstep => hinv.next hstep
  refine ⟨haccounted.user, haccounted.entries, haccounted.pass, fun hne => ?_⟩
  rcases haccounted.pass with hfirst | ⟨call, -, g, -, -, hsent⟩
  · exact hfirst ▸ hne
  · exact hsent

end Account

/-! ## A run -/

/-- Tokens without a signature, two numbers and a name with dots between them. -/
def plainParse (text : GoString) (now : Nat) : Parsed :=
  let nbf := text.takeWhile (· ≠ 46)
  let rest := (text.dropWhile (· ≠ 46)).drop 1
  let exp := rest.takeWhile (· ≠ 46)
  match rest.dropWhile (· ≠ 46) with
  | [] => .malformed
  | _ :: username =>
    if decimal nbf * second ≤ now ∧ now < decimal exp * second then
      .valid (some (jsonText username))
    else .invalid

theorem span_itoa (n : Nat) (rest : GoString) :
    (itoa n ++ 46 :: rest).takeWhile (· ≠ 46) = itoa n
      ∧ (itoa n ++ 46 :: rest).dropWhile (· ≠ 46) = 46 :: rest := by
  have hdigits : ∀ b ∈ itoa n, decide (b ≠ 46) = true := by
    intro b hb
    have hdigit := isDigit_of_mem_itoa hb
    refine decide_eq_true fun heq => ?_
    rw [heq] at hdigit
    exact absurd hdigit (by decide)
  rw [List.takeWhile_append_of_pos hdigits, List.dropWhile_append_of_pos hdigits]
  exact ⟨List.append_nil _, rfl⟩

def plainJwt : Jwt where
  sign c := itoa c.nbf ++ 46 :: (itoa c.exp ++ 46 :: c.username)
  parse := plainParse
  parse_sign c now := by
    obtain ⟨hnbf, hrest⟩ := span_itoa c.nbf (itoa c.exp ++ 46 :: c.username)
    obtain ⟨hexp, hname⟩ := span_itoa c.exp c.username
    simp only [plainParse, hnbf, hrest, List.drop_succ_cons, List.drop_zero, hexp, hname,
      decimal_itoa]

def honest (s : ServerState) : ServerEvent → Bool
  | .check authorization _ => s.tokens.contains (bearer authorization)
  | _ => true

/-- The admin logs in, and within the hour changes the name and keeps the password. -/
def renames : List ServerEvent :=
  [.login (lit "\x7b\"username\":\"admin\",\"pass\":\"admin\"\x7d"), .checkName 0,
    .checkPass 0 5 7, .tick (hour - 20),
    .check (lit "Bearer 0.3600.admin")
      (.api (.settings generalSettings
        (lit "\x7b\"value\":\"\x7b\\\"admin_username\\\":\\\"root\\\"\x7d\"\x7d"))),
    .readPass 0, .handle 0]

def firstServer : ServerState := .start ⟨firstStart, []⟩ 0

def plainEnv : Proxy.Env := ⟨fun _ => [], fun _ => none, fun _ => [], fun r => r, []⟩

theorem exists_renamed : ∃ s, Later plainEnv plainJwt firstServer s
    ∧ s.handled.length = 1 ∧ s.user = lit "root" ∧ s.pass = lit "admin" := by
  have hrun : (runs (ServerState.step plainEnv plainJwt) honest renames firstServer).map
      (fun s => (s.handled.length, s.user, s.pass)) = some (1, lit "root", lit "admin") := by
    decide +kernel
  have hhonest : ∀ {s e}, honest s e = true → Honest plainJwt s e := by
    intro s e h
    cases e with
    | check authorization call => exact fun _ _ => List.contains_iff_mem.mp h
    | _ => exact trivial
  obtain ⟨s, hs, heq⟩ := Option.map_eq_some_iff.mp hrun
  obtain ⟨hlength, hrest⟩ := Prod.mk.inj heq
  obtain ⟨huser, hpass⟩ := Prod.mk.inj hrest
  exact ⟨s, reach_of_runs hhonest .init hs, hlength, huser, hpass⟩

theorem calls_authorised_renamed : ∃ s, ∃ call ∈ s.handled, s.user = lit "root"
    ∧ Authorised plainEnv plainJwt firstServer call s := by
  obtain ⟨s, hreach, hlength, huser, -⟩ := exists_renamed
  obtain ⟨call, hcall⟩ := List.length_eq_one_iff.mp hlength
  have hmem : call ∈ s.handled := hcall ▸ List.mem_singleton_self call
  exact ⟨s, call, hmem, huser, calls_authorised hreach hmem⟩

theorem account_posted_renamed : ∃ s, s.handled.length = 1 ∧ s.user = lit "root"
    ∧ s.pass = lit "admin" ∧ Posted firstServer s := by
  obtain ⟨s, hreach, hlength, huser, hpass⟩ := exists_renamed
  have hany : Reach (ServerState.step plainEnv plainJwt) anyStep firstServer s :=
    hreach.invariant .init fun hinv _ hstep => .next hinv trivial hstep
  exact ⟨s, hlength, huser, hpass, account_posted hany⟩

end Admin

end RbiProxy
