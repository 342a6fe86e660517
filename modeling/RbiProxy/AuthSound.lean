import RbiProxy.Reach
import RbiProxy.Users

/-!
# Who gets past the authentication gate

A request that passes the gate with a user should carry the token of a record
of that user (`Authenticated`). The gate takes the name from one reading of
the header and the verdict from another, and the verdict only says that the
header has the token of *some* record. The two agree through an invariant of
the records: a token, where there is one, is made from the record's own
name, and the name has no colon (`GSUser.Ok`).

The web server makes records that break this for some names (`Op.Ok`). A
record without a token is matched by an empty field, and a client without
credentials is taken for the user that its address names (`RequestOk`). Apart
from these, `admitted_authenticated` holds in every run.
-/

namespace RbiProxy

namespace Users

open Proxy

/-! ## Tokens -/

theorem token_eq (username password : GoString) :
    token username password = Base64.encode (username ++ 58 :: password) := by
  rw [token, show lit ":" = [58] by decide, List.append_assoc, List.singleton_append]

theorem token_ne_nil (username password : GoString) : token username password ≠ [] := by
  rw [token_eq]
  exact Base64.encode_ne_nil (by simp)

theorem isChar_of_mem_token {username password : GoString} {c : UInt8}
    (h : c ∈ token username password) : Base64.isChar c = true :=
  Base64.isChar_of_mem_encode h

theorem jsonText_token (username password : GoString) :
    jsonText (token username password) = token username password :=
  jsonText_of_ascii fun _ hc => Base64.lt_of_isChar (isChar_of_mem_token hc)

theorem trimSpace_token_append (username password rest : GoString) :
    ∃ y, trimSpace (token username password ++ rest) = token username password ++ y ∧ y <+: rest :=
  trimSpace_append_of_solid (token_ne_nil username password)
    (fun _ hc => Base64.solid_of_isChar (isChar_of_mem_token hc)) rest

/-- What follows a token in a header is trimmed away, or the header does not
decode. -/
theorem trimSpace_of_token {username password rest : GoString} {creds : GoString × GoString}
    (hrest : rest = [] ∨ ∃ r, rest = 32 :: r)
    (h : decodeBase64Credentials (token username password ++ rest) = some creds) :
    trimSpace (token username password ++ rest) = token username password := by
  obtain ⟨y, hy, z, hz⟩ := trimSpace_token_append username password rest
  rw [hy]
  cases y with
  | nil => rw [List.append_nil]
  | cons c y =>
      -- the first byte behind the token is the space, which no encoding has
      obtain rfl : c = 32 := by
        rcases hrest with rfl | ⟨r, rfl⟩
        · cases hz
        · exact (List.cons.inj hz).1
      have hnone : Base64.decode (token username password ++ 32 :: y) = none :=
        Base64.decode_eq_none (c := 32) (by simp) (by decide) (by decide)
      rw [decodeBase64Credentials, hy, hnone] at h
      cases h

theorem decodeBase64Credentials_of_trim {username password s : GoString}
    (hname : 58 ∉ username) (hs : trimSpace s = token username password) :
    decodeBase64Credentials s = some (username, password) := by
  rw [decodeBase64Credentials, hs, token_eq, Base64.decode_encode,
    show lit ":" = [58] by decide]
  simp [index_of_notMem hname]

theorem decodeBase64Credentials_token {username : GoString} (hname : 58 ∉ username)
    (password : GoString) :
    decodeBase64Credentials (token username password) = some (username, password) := by
  obtain ⟨y, hy, hpre⟩ := trimSpace_token_append username password []
  rw [List.prefix_nil.mp hpre, List.append_nil] at hy
  exact decodeBase64Credentials_of_trim hname hy

/-- A header with the scheme is `Basic`, a space, and what is decoded. -/
theorem eq_of_hasPrefix {auth : GoString} (h : hasPrefix auth basic = true) :
    auth = lit "Basic" ++ 32 :: trimPrefix auth basic := by
  obtain ⟨s, rfl⟩ := hasPrefix_iff.mp h
  rw [trimPrefix_append]
  rfl

/-- The two readings of a header. Where the second field is the token of a
name, a header that decodes carries that token and decodes to that name. -/
theorem basicCredentials_of_field {auth username password : GoString}
    {creds : GoString × GoString} (hscheme : hasPrefix auth basic = true)
    (hname : 58 ∉ username) (hfield : (auth.splitOn 32)[1]? = some (token username password))
    (hcreds : basicCredentials auth = some creds) :
    trimSpace (trimPrefix auth basic) = token username password
      ∧ creds = (username, password) := by
  have hhead : ((trimPrefix auth basic).splitOn 32).head? = some (token username password) := by
    rw [eq_of_hasPrefix hscheme, splitOn_second (by decide)] at hfield
    exact hfield
  obtain ⟨rest, hs, hrest⟩ : ∃ rest, trimPrefix auth basic = token username password ++ rest
      ∧ (rest = [] ∨ ∃ r, rest = 32 :: r) := by
    rcases (splitOn_head? hhead).2 with hs | ⟨r, hs⟩
    · exact ⟨[], by rw [hs, List.append_nil], .inl rfl⟩
    · exact ⟨32 :: r, hs, .inr ⟨r, rfl⟩⟩
  rw [basicCredentials, hs] at hcreds
  have htrim := trimSpace_of_token hrest hcreds
  rw [decodeBase64Credentials_of_trim hname htrim] at hcreds
  rw [hs]
  exact ⟨htrim, (Option.some.inj hcreds).symm⟩

/-! ## The records -/

/-- The name of a record is stored text, and its token, if it has one, is
made from that name. -/
structure GSUser.Ok (rec : GSUser) : Prop where
  text : jsonText rec.user = rec.user
  token : rec.base64String = [] ∨
    58 ∉ rec.user ∧ ∃ password, rec.base64String = token rec.user password

def ListOk (users : List GSUser) : Prop := ∀ rec ∈ users, rec.Ok

theorem GSUser.Ok.of_eq {rec rec' : GSUser} (h : rec.Ok) (huser : rec'.user = rec.user)
    (htoken : rec'.base64String = rec.base64String) : rec'.Ok := by
  refine ⟨?_, ?_⟩
  · rw [huser]
    exact h.text
  · rw [huser, htoken]
    exact h.token

theorem GSUser.Ok.saved {rec : GSUser} (h : rec.Ok) : rec.saved.Ok := by
  refine h.of_eq h.text ?_
  rw [GSUser.saved]
  rcases h.token with hnil | ⟨-, password, htoken⟩
  · rw [hnil]
    exact jsonText_of_ascii (by simp)
  · rw [htoken, jsonText_token]

theorem ok_saved_of_noToken {rec : GSUser} (h : rec.base64String = []) : rec.saved.Ok := by
  refine ⟨jsonText_idem rec.user, .inl ?_⟩
  rw [GSUser.saved, h]
  exact jsonText_of_ascii (by simp)

theorem ListOk.saved {users : List GSUser} (h : ListOk users) :
    ListOk (users.map GSUser.saved) := by
  intro rec hrec
  obtain ⟨rec', hrec', rfl⟩ := List.mem_map.mp hrec
  exact (h rec' hrec').saved

theorem ListOk.filter {users : List GSUser} (h : ListOk users) (p : GSUser → Bool) :
    ListOk (users.filter p) :=
  fun rec hrec => h rec (List.mem_of_mem_filter hrec)

theorem ListOk.withUser {users : List GSUser} (h : ListOk users) {username : GoString}
    {f : GSUser → GSUser}
    (hf : ∀ rec ∈ users, rec.Ok → rec.user = username → (f rec).Ok) :
    ListOk (withUser username f users) := by
  intro rec hrec
  obtain ⟨rec', hrec', rfl⟩ := List.mem_map.mp hrec
  split
  · rename_i huser
    exact hf rec' hrec' (h rec' hrec') huser
  · exact h rec' hrec'

/-! ## The operations -/

structure GSRuntime.Ok (rt : GSRuntime) : Prop where
  authUsers : ListOk rt.authUsers
  gsSettings : ListOk rt.gsSettings
  webSettings : ListOk rt.webSettings
  file : ListOk rt.file

namespace GSRuntime.Ok

variable {rt : GSRuntime}

theorem withAuthUsers (h : rt.Ok) {users : List GSUser} (hu : ListOk users) :
    GSRuntime.Ok { rt with authUsers := users } :=
  ⟨hu, h.gsSettings, h.webSettings, h.file⟩

theorem updateSettings (h : rt.Ok) {users : List GSUser} (hu : ListOk (users.map GSUser.saved)) :
    (rt.updateSettings users).Ok := by
  refine ⟨h.authUsers, hu, ?_, hu⟩
  unfold GSRuntime.updateSettings
  dsimp only
  split
  · exact hu
  · exact h.webSettings

theorem updateWebSettings (h : rt.Ok) {users : List GSUser} (hu : ListOk users) :
    (rt.updateWebSettings users).Ok := by
  refine ⟨h.authUsers, ?_, hu.saved, hu.saved⟩
  unfold GSRuntime.updateWebSettings
  dsimp only
  split
  · exact hu.saved
  · exact h.gsSettings

theorem loadUsers (h : rt.Ok) : rt.loadUsers.Ok := h.withAuthUsers h.gsSettings

theorem init (h : rt.Ok) : rt.init.Ok := ⟨h.file, h.file, h.webSettings, h.file⟩

theorem gsUserDataSaver (h : rt.Ok) : rt.gsUserDataSaver.Ok := h.updateSettings h.authUsers.saved

theorem updateUserData (h : rt.Ok) (username : GoString) (data : UInt64) :
    (rt.updateUserData username data).Ok :=
  h.withAuthUsers (h.authUsers.withUser fun _ _ hrec _ => hrec.of_eq rfl rfl)

theorem removeUser (h : rt.Ok) (username : GoString) : (rt.removeUser username).Ok :=
  (h.withAuthUsers (h.authUsers.filter _)).gsUserDataSaver

theorem updatePassword (h : rt.Ok) (username password : GoString) :
    (rt.updatePassword username password).Ok := by
  have hset : ListOk (withUser username (fun rec => { rec with pass := password }) rt.authUsers) :=
    h.authUsers.withUser fun _ _ hrec _ => hrec.of_eq rfl rfl
  exact (h.withAuthUsers hset).gsUserDataSaver.init

theorem addUser (h : rt.Ok) (user pass : GoString) : (rt.addUser user pass).1.Ok := by
  unfold GSRuntime.addUser
  split
  · exact h
  split
  · exact h
  · refine (h.updateSettings ?_).loadUsers
    intro rec hrec
    rw [List.map_append, List.mem_append] at hrec
    rcases hrec with hrec | hrec
    · exact h.authUsers.saved rec hrec
    · obtain rfl := List.mem_singleton.mp hrec
      exact ok_saved_of_noToken rfl

theorem updateUserAt {acc : GSRuntime × Bool} (h : acc.1.Ok) (username : GoString)
    (data : GSUserPublic) (i : Nat) : (updateUserAt username data acc i).1.Ok := by
  unfold GSRuntime.updateUserAt
  split
  · exact h
  · rename_i rec hrec
    split
    · have hset : ListOk (acc.1.authUsers.set i { rec with allowAccess := data.allowAccess }) := by
        intro rec' hrec'
        rcases List.mem_or_eq_of_mem_set hrec' with hold | rfl
        · exact h.authUsers rec' hold
        · exact (h.authUsers rec (List.mem_of_getElem? hrec)).of_eq rfl rfl
      dsimp only
      split
      · exact (h.withAuthUsers hset).updatePassword data.user data.password
      · exact h.withAuthUsers hset
    · exact h

theorem updateUserLoop (username : GoString) (data : GSUserPublic) (is : List Nat)
    {acc : GSRuntime × Bool} (h : acc.1.Ok) :
    (is.foldl (GSRuntime.updateUserAt username data) acc).1.Ok := by
  induction is generalizing acc with
  | nil => exact h
  | cons i is ih => exact ih (h.updateUserAt username data i)

theorem updateUser (h : rt.Ok) (username : GoString) (data : GSUserPublic) :
    (rt.updateUser username data).Ok := by
  have hloop : ((List.range rt.authUsers.length).foldl (GSRuntime.updateUserAt username data)
      (rt, false)).1.Ok := updateUserLoop username data _ h
  unfold GSRuntime.updateUser
  dsimp only
  split
  · exact hloop.gsUserDataSaver
  · exact (hloop.addUser data.user data.password).gsUserDataSaver

end GSRuntime.Ok

/-- The names for which the web server makes a token of the record's own
name: a name is created only in lower case, and neither created nor given a
password with a colon. -/
def Op.Ok (env : Env) (rt : GSRuntime) : Op → Prop
  | .create input =>
    validateUserInputJsonSingle input = true →
    (∀ rec ∈ rt.webSettings, rec.user ≠ toLower env.lowerTable input.username) →
      toLower env.lowerTable input.username = input.username ∧ 58 ∉ input.username
  | .put input =>
    input.password ≠ [] → validateUserInputJsonSingle input = true →
    (∃ rec ∈ rt.webSettings, rec.user = input.username) → 58 ∉ input.username
  | _ => True

theorem ok_newUser {env : Env} {input : UserInputJsonSingle}
    (hlower : toLower env.lowerTable input.username = input.username)
    (hname : 58 ∉ input.username) : (newUser env input).Ok := by
  refine ⟨jsonText_toLower env.lowerTable input.username, .inr ⟨?_, input.password, ?_⟩⟩
  · rw [newUser, hlower]
    exact hname
  · rw [newUser, hlower]

theorem listOk_gsApiUserCreate {env : Env} {input : UserInputJsonSingle} {rt : GSRuntime}
    {users : List GSUser} (h : rt.Ok) (hop : Op.Ok env rt (.create input))
    (hc : gsApiUserCreate env input rt.webSettings = .ok users) : ListOk users := by
  unfold gsApiUserCreate at hc
  split at hc
  · cases hc
  · rename_i hvalid
    split at hc
    · cases hc
    · rename_i hnew
      obtain rfl := Except.ok.inj hc
      have hfresh : ∀ rec ∈ rt.webSettings,
          rec.user ≠ toLower env.lowerTable input.username := by
        intro rec hrec hsame
        exact hnew (List.any_eq_true.mpr ⟨rec, hrec, decide_eq_true hsame⟩)
      obtain ⟨hlower, hname⟩ := hop (by simpa using hvalid) hfresh
      intro rec hrec
      rcases List.mem_append.mp hrec with hold | hrec
      · exact h.webSettings rec hold
      · obtain rfl := List.mem_singleton.mp hrec
        exact ok_newUser hlower hname

theorem listOk_gsApiUserPUT {env : Env} {input : UserInputJsonSingle} {rt : GSRuntime}
    {users : List GSUser} (h : rt.Ok) (hop : Op.Ok env rt (.put input))
    (hp : gsApiUserPUT input rt.webSettings = .ok users) : ListOk users := by
  unfold gsApiUserPUT at hp
  split at hp
  · cases hp
  · rename_i hvalid
    obtain rfl := Except.ok.inj hp
    refine h.webSettings.withUser fun rec hmem hrec huser => ?_
    unfold putUser
    split
    · rename_i hpass
      have hname : 58 ∉ input.username :=
        hop (List.ne_nil_of_length_pos hpass) (by simpa [hpass] using hvalid) ⟨rec, hmem, huser⟩
      exact ⟨hrec.text, .inr ⟨by rwa [huser], input.password, by rw [huser]⟩⟩
    · exact hrec.of_eq rfl rfl

theorem GSRuntime.Ok.apply {env : Env} {rt : GSRuntime} {op : Op} (h : rt.Ok)
    (hop : op.Ok env rt) : (rt.apply env op).Ok := by
  cases op with
  | create input =>
      rw [GSRuntime.apply]
      split
      · rename_i users hc
        exact h.updateWebSettings (listOk_gsApiUserCreate h hop hc)
      · exact h
  | put input =>
      rw [GSRuntime.apply]
      split
      · rename_i users hp
        exact h.updateWebSettings (listOk_gsApiUserPUT h hop hp)
      · exact h
  | delete username => exact h.updateWebSettings (h.webSettings.filter _)
  | addUser user pass => exact h.addUser user pass
  | updateUser username data => exact h.updateUser username data
  | updatePassword username password => exact h.updatePassword username password
  | removeUser username => exact h.removeUser username
  | updateUserData username data => exact h.updateUserData username data
  | save => exact h.gsUserDataSaver
  | reload => exact h.init
  | webKey => exact ⟨h.authUsers, h.gsSettings, h.webSettings, h.webSettings⟩
  | settingsKey => exact ⟨h.authUsers, h.gsSettings, h.webSettings, h.gsSettings⟩
  | restart => exact ⟨h.file, h.file, h.file, h.file⟩
  | request p hd r => exact h

/-! ## Runs -/

/-- The invariant of a run: the records and the cache. -/
structure Gateway.Ok (g : Gateway) : Prop where
  runtime : g.runtime.Ok
  usersCache : CacheOk g.usersCache

def StepOk (env : Env) (g : Gateway) (op : Op) : Prop := op.Ok env g.runtime

theorem listOk_defaultUsers : ListOk defaultUsers := by
  intro rec hrec
  obtain rfl := List.mem_singleton.mp hrec
  exact ⟨utf8_of_all (by decide), .inr ⟨by decide, lit "password", by decide⟩⟩

theorem ok_initial : Gateway.initial.Ok := by
  have h := listOk_defaultUsers
  exact ⟨⟨h, h, h, h⟩, cacheOk_empty⟩

theorem ok_step {env : Env} {page : GoString} {g g' : Gateway} {op : Op} (h : g.Ok)
    (hop : StepOk env g op) (hs : g.step env page op = some g') : g'.Ok := by
  obtain rfl := Option.some.inj hs
  refine ⟨h.runtime.apply hop, ?_⟩
  cases op with
  | request p hd r => exact cacheOk_admitted h.usersCache
  | restart => exact cacheOk_empty
  | _ => exact h.usersCache

theorem ok_of_reach {env : Env} {page : GoString} {g : Gateway}
    (h : Reach (Gateway.step env page) (StepOk env) .initial g) : g.Ok :=
  h.invariant ok_initial fun hg hop hs => ok_step hg hop hs

/-! ## The gate -/

/-- The header carries the token of a record of the user, and that token
decodes to the user's name. -/
def Authenticated (users : List GSUser) (auth user : GoString) : Prop :=
  ∃ rec ∈ users, rec.user = user ∧ hasPrefix auth basic = true
    ∧ trimSpace (trimPrefix auth basic) = rec.base64String
    ∧ (decodeBase64Credentials rec.base64String).map Prod.fst = some user

instance (users : List GSUser) (auth user : GoString) :
    Decidable (Authenticated users auth user) := by
  unfold Authenticated; infer_instance

/-- The client's address is not used as the name of a user that exists; and an
empty second field of a header that decodes meets no record without a
token. -/
structure RequestOk (g : Gateway) (r : Request) : Prop where
  address : Unknown g.usersCache r.proxyAuthorization →
    clientOf r.remoteAddr ≠ lit "127.0.0.1" →
      ∀ rec ∈ g.runtime.authUsers, rec.user ≠ clientOf r.remoteAddr
  field : (basicCredentials r.proxyAuthorization).isSome = true →
    (r.proxyAuthorization.splitOn 32)[1]? = some [] →
      ∀ rec ∈ g.runtime.authUsers, rec.base64String ≠ []

theorem exists_of_userAccess {rt : GSRuntime} {page user : GoString}
    (h : (rt.userAccess page user).1 ≠ .userNotFound) : ∃ rec ∈ rt.authUsers, rec.user = user := by
  unfold GSRuntime.userAccess at h
  split at h
  · rename_i hexists
    obtain ⟨rec, hrec, huser⟩ := List.any_eq_true.mp hexists
    exact ⟨rec, hrec, of_decide_eq_true huser⟩
  · exact absurd rfl h

theorem exists_of_isUserValid {rt : GSRuntime} {auth : GoString} (h : rt.isUserValid auth = true) :
    ∃ rec ∈ rt.authUsers, (auth.splitOn 32)[1]? = some rec.base64String := by
  unfold GSRuntime.isUserValid at h
  split at h
  · rename_i field hfield
    obtain ⟨rec, hrec, htoken⟩ := List.any_eq_true.mp h
    exact ⟨rec, hrec, by rw [hfield, of_decide_eq_true htoken]⟩
  · cases h

/-- A verdict for a header that decodes is about the user it decodes to. -/
theorem authenticated_of_valid {g : Gateway} {r : Request} {user pass : GoString}
    (hok : g.Ok) (hreq : RequestOk g r)
    (hvalid : g.runtime.isUserValid r.proxyAuthorization = true)
    (hscheme : hasPrefix r.proxyAuthorization basic = true)
    (hcreds : basicCredentials r.proxyAuthorization = some (user, pass)) :
    Authenticated g.runtime.authUsers r.proxyAuthorization user := by
  obtain ⟨rec, hrec, hfield⟩ := exists_of_isUserValid hvalid
  have hne : rec.base64String ≠ [] := by
    intro hnil
    exact hreq.field (by rw [hcreds]; rfl) (hnil ▸ hfield) rec hrec hnil
  obtain ⟨hname, password, htoken⟩ := ((hok.runtime.authUsers rec hrec).token).resolve_left hne
  obtain ⟨htrim, hpair⟩ := basicCredentials_of_field hscheme hname (htoken ▸ hfield) hcreds
  obtain ⟨rfl, rfl⟩ := Prod.mk.inj hpair
  refine ⟨rec, hrec, rfl, hscheme, by rw [htrim, htoken], ?_⟩
  rw [htoken, decodeBase64Credentials_token hname]
  rfl

/-- **Authentication.** In a run that makes no record for another name's
token, a request that gets past the gate as a user carries the token of a
record of that user, unless its address or an empty field stood in for
it. -/
theorem admitted_authenticated {env : Env} {page : GoString} {g : Gateway}
    (hr : Reach (Gateway.step env page) (StepOk env) .initial g) {p : GSProxy} {h : ProxyHandler}
    {r : Request} (hauth : p.isAuthEnabled = true) (hnone : h.user = [])
    (hreq : RequestOk g r) {url : URL} {user authUser : GoString}
    (ha : (admitted env (g.runtime.install page p) h g.usersCache r).1
      = .ok (url, user, authUser)) :
    Authenticated g.runtime.authUsers r.proxyAuthorization user := by
  have hok := ok_of_reach hr
  obtain ⟨-, hgate⟩ := admitted_ok (Prod.ext ha rfl)
  have hon : (g.runtime.install page p).isAuthEnabled = true := hauth
  obtain ⟨huser, hne, hlocal, hfound⟩ := authGate_ok hon hgate
  rcases handleAuthAndAssignUser_user hok.usersCache hon hnone huser hne with
    ⟨hvalid, hscheme, pass, hcreds⟩ | ⟨hunknown, rfl⟩
  · exact authenticated_of_valid hok hreq hvalid hscheme hcreds
  · obtain ⟨rec, hrec, hname⟩ := exists_of_userAccess hfound
    exact absurd hname (hreq.address hunknown hlocal rec hrec)

/-! ## Two users -/

def authProxy : GSProxy := { exampleProxy with isAuthEnabled := true }

def connectWith (auth : GoString) : Request := { exampleConnect with proxyAuthorization := auth }

def alice : UserInputJsonSingle := ⟨lit "alice", lit "wonderland", true⟩

/-- `alice` has been created through the web server. -/
def withAlice : Gateway :=
  ⟨((GSRuntime.start defaultUsers).apply exampleEnv (.create alice)).apply exampleEnv .reload, ∅⟩

theorem reach_withAlice :
    Reach (Gateway.step exampleEnv []) (StepOk exampleEnv) .initial withAlice := by
  have hcreate : StepOk exampleEnv .initial (.create alice) :=
    fun _ _ => ⟨by decide +kernel, by decide⟩
  exact .next (a := .reload) (.next (a := .create alice) .init hcreate rfl) trivial rfl

/-- `alice` gets in with her own token. -/
theorem admitted_authenticated_alice :
    (admitted exampleEnv (withAlice.runtime.install [] authProxy) ⟨false, []⟩ withAlice.usersCache
      (connectWith (lit "Basic YWxpY2U6d29uZGVybGFuZA=="))).1
      = .ok (⟨lit "http", lit "www.youtube.com:443", [], []⟩, lit "alice", lit "alice") ∧
    Authenticated withAlice.runtime.authUsers (lit "Basic YWxpY2U6d29uZGVybGFuZA==")
      (lit "alice") := by
  have ha : (admitted exampleEnv (withAlice.runtime.install [] authProxy) ⟨false, []⟩
      withAlice.usersCache (connectWith (lit "Basic YWxpY2U6d29uZGVybGFuZA=="))).1
      = .ok (⟨lit "http", lit "www.youtube.com:443", [], []⟩, lit "alice", lit "alice") := by
    decide +kernel
  have hreq : RequestOk withAlice (connectWith (lit "Basic YWxpY2U6d29uZGVybGFuZA==")) :=
    ⟨fun hunknown => absurd ⟨by decide, by decide +kernel⟩ hunknown.2,
      fun _ hfield => absurd hfield (by decide)⟩
  exact ⟨ha, admitted_authenticated reach_withAlice rfl rfl hreq ha⟩

/-- `bob` has been added through the runtime, and so has no token. -/
def withBob : Gateway :=
  ⟨(GSRuntime.start defaultUsers).apply exampleEnv (.addUser (lit "bob") (lit "pw")), ∅⟩

/-- The empty field between two spaces is taken for the token of `bob`, and
what follows it for credentials of `guest`; the password is not asked. -/
theorem not_admitted_authenticated :
    ¬ ∀ (env : Env) (page : GoString) (g : Gateway) (p : GSProxy) (h : ProxyHandler)
        (r : Request), Reach (Gateway.step env page) anyStep .initial g →
      p.isAuthEnabled = true → h.user = [] → ∀ (url : URL) (user authUser : GoString),
        (admitted env (g.runtime.install page p) h g.usersCache r).1 = .ok (url, user, authUser) →
          Authenticated g.runtime.authUsers r.proxyAuthorization user := by
  intro hall
  have hreach : Reach (Gateway.step exampleEnv []) anyStep .initial withBob :=
    .next (a := .addUser (lit "bob") (lit "pw")) .init trivial rfl
  have hauth := hall exampleEnv [] withBob authProxy ⟨false, []⟩
    (connectWith (lit "Basic  Z3Vlc3Q6eA==")) hreach rfl rfl
    ⟨lit "http", lit "www.youtube.com:443", [], []⟩ (lit "guest") (lit "guest")
    (by decide +kernel)
  exact absurd hauth (by decide +kernel)

end Users

end RbiProxy
