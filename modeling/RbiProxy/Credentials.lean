import RbiProxy.AuthSound

/-!
# Credentials follow user management

Six operations in two packages change who may log in: three handlers of the
web server, which work on the list in their store and are followed by a
reload, and three methods of the runtime, which work on `AuthUsers`. What
they should keep up is a map from names to passwords; what they do keep up is
a list of records with a token each.

`Matches` relates the two. It survives the handlers as long as the web
server's store is up to date and names are lower case without a colon, and
`RemoveUser`. It does not survive `AddUser`, which makes no token, nor
`UpdateUser` with a new password, which changes none: see `CredOk`.
-/

namespace RbiProxy

namespace Users

open Proxy

/-- The passwords, by name, that have been set last. -/
abbrev Passwords := GoMap GoString GoString

/-- The runtime, and the passwords as they should be. -/
structure Cred where
  runtime : GSRuntime
  passwords : Passwords

/-- What a client sends for a name and a password, as a header. -/
def basicHeader (n p : GoString) : GoString := basic ++ token n p

/-- `IsUserValid` takes the header, and it resolves to the user `n`, who
exists. -/
def Accepts (rt : GSRuntime) (n p : GoString) : Prop :=
  rt.isUserValid (basicHeader n p) = true
    ∧ (∃ pass, basicCredentials (basicHeader n p) = some (n, pass)) ∧ rt.userExists n = true

/-- The first start: one user, `guest` with the password `password`. -/
def Cred.initial : Cred :=
  ⟨.start defaultUsers, (∅ : Passwords).insert (lit "guest") (lit "password")⟩

/-- A successful operation, with the reload that its caller performs: the
routes of the three handlers reload, `RemoveUser`, `AddUser` and `UpdateUser`
are called without. -/
def credStep (env : Env) (c : Cred) : Op → Option Cred
  | .create input =>
      match gsApiUserCreate env input c.runtime.webSettings with
      | .ok _ => some ⟨(c.runtime.apply env (.create input)).init,
          c.passwords.insert input.username input.password⟩
      | .error _ => none
  | .put input =>
      if input.password = [] then none
      else match gsApiUserPUT input c.runtime.webSettings with
        | .ok _ => some ⟨(c.runtime.apply env (.put input)).init,
            if input.username ∈ c.passwords then
              c.passwords.insert input.username input.password
            else c.passwords⟩
        | .error _ => none
  | .delete username =>
      some ⟨(c.runtime.apply env (.delete username)).init, c.passwords.erase username⟩
  | .addUser user pass =>
      if (c.runtime.addUser user pass).2 then
        some ⟨(c.runtime.addUser user pass).1, c.passwords.insert user pass⟩
      else none
  | .updateUser username data =>
      -- the callers pass the name twice
      if username = data.user ∧ data.user ≠ [] ∧ data.password ≠ [] then
        some ⟨c.runtime.updateUser username data, c.passwords.insert data.user data.password⟩
      else none
  | .removeUser username => some ⟨c.runtime.removeUser username, c.passwords.erase username⟩
  | _ => none

def creds (users : List GSUser) : List (GoString × GoString) :=
  users.map fun rec => (rec.user, rec.base64String)

/-- The web server's store has the names and tokens of the file. -/
def Cred.WebFresh (c : Cred) : Prop := creds c.runtime.webSettings = creds c.runtime.file

/-- Where the operations keep tokens and passwords together: the handlers
with an up-to-date store and, for a new user, a name in lower case without a
colon; `UpdateUser` only with the password that the user has already;
`AddUser` never. -/
def CredOk (env : Env) (c : Cred) : Op → Prop
  | .create input => c.WebFresh ∧ toLower env.lowerTable input.username = input.username
      ∧ 58 ∉ input.username
  | .put _ => c.WebFresh
  | .delete _ => c.WebFresh
  | .addUser _ _ => False
  | .updateUser _ data => c.passwords.lookup data.user = some data.password
  | _ => True

/-! ## Tokens and passwords -/

theorem token_inj {n p n' p' : GoString} (hn : 58 ∉ n) (hn' : 58 ∉ n')
    (h : token n p = token n' p') : n = n' ∧ p = p' := by
  have hdec := decodeBase64Credentials_token hn p
  rw [h, decodeBase64Credentials_token hn' p'] at hdec
  obtain ⟨rfl, rfl⟩ := Prod.mk.inj (Option.some.inj hdec)
  exact ⟨rfl, rfl⟩

theorem isUserValid_basicHeader (rt : GSRuntime) (n p : GoString) :
    rt.isUserValid (basicHeader n p) = rt.authUsers.any (·.base64String = token n p) := by
  have hspace : (32 : UInt8) ∉ token n p := fun h =>
    absurd (isChar_of_mem_token h) (by decide)
  have hfield : ((basicHeader n p).splitOn 32)[1]? = some (token n p) := by
    have hsplit : basicHeader n p = lit "Basic" ++ 32 :: token n p := rfl
    rw [hsplit, splitOn_second (by decide), List.splitOn_eq_singleton hspace]
    rfl
  rw [GSRuntime.isUserValid, hfield]

theorem basicCredentials_basicHeader {n : GoString} (hn : 58 ∉ n) (p : GoString) :
    basicCredentials (basicHeader n p) = some (n, p) := by
  rw [basicCredentials, basicHeader, trimPrefix_append, decodeBase64Credentials_token hn]

/-- The list of records says what the map of passwords says. -/
structure Matches (users : List GSUser) (pw : Passwords) : Prop where
  own : ∀ rec ∈ users, ∃ p, pw.lookup rec.user = some p ∧ rec.base64String = token rec.user p
  all : ∀ n p, pw.lookup n = some p → (∃ rec ∈ users, rec.user = n) ∧ 58 ∉ n ∧ jsonText n = n

theorem Matches.iff_accepts {rt : GSRuntime} {pw : Passwords} (h : Matches rt.authUsers pw)
    (n p : GoString) : Accepts rt n p ↔ pw.lookup n = some p := by
  constructor
  · rintro ⟨hvalid, ⟨pass, hcreds⟩, hexists⟩
    rw [isUserValid_basicHeader, List.any_eq_true] at hvalid
    obtain ⟨rec, hrec, htoken⟩ := hvalid
    obtain ⟨rec', hrec', hname⟩ := List.any_eq_true.mp hexists
    obtain ⟨p', hp', hown⟩ := h.own rec hrec
    -- the user exists, so the name has no colon and the two tokens can be compared
    obtain ⟨q, hq, -⟩ := h.own rec' hrec'
    have hname' : rec'.user = n := by simpa using hname
    rw [hname'] at hq
    have heq : token n p = token rec.user p' := by
      rw [← hown]
      exact (of_decide_eq_true htoken).symm
    obtain ⟨rfl, rfl⟩ := token_inj (h.all n q hq).2.1 (h.all _ _ hp').2.1 heq
    exact hp'
  · intro hp
    obtain ⟨⟨rec, hrec, rfl⟩, hcolon, -⟩ := h.all n p hp
    obtain ⟨p', hp', htoken⟩ := h.own rec hrec
    obtain rfl : p = p' := Option.some.inj (hp.symm.trans hp')
    refine ⟨?_, ⟨p, basicCredentials_basicHeader hcolon p⟩, ?_⟩
    · rw [isUserValid_basicHeader, List.any_eq_true]
      exact ⟨rec, hrec, by simpa using htoken⟩
    · exact List.any_eq_true.mpr ⟨rec, hrec, by simp⟩

/-! ## What keeps the two together -/

theorem mem_creds {users : List GSUser} {rec : GSUser} (h : rec ∈ users) :
    (rec.user, rec.base64String) ∈ creds users :=
  List.mem_map_of_mem h

theorem Matches.congr {users users' : List GSUser} {pw : Passwords} (h : Matches users pw)
    (heq : creds users' = creds users) : Matches users' pw where
  own rec hrec := by
    have hmem := mem_creds hrec
    rw [heq] at hmem
    obtain ⟨rec', hrec', hpair⟩ := List.mem_map.mp hmem
    obtain ⟨huser, htoken⟩ := Prod.mk.inj hpair
    rw [← huser, ← htoken]
    exact h.own rec' hrec'
  all n p hp := by
    obtain ⟨⟨rec, hrec, rfl⟩, hrest⟩ := h.all n p hp
    have hmem := mem_creds hrec
    rw [← heq] at hmem
    obtain ⟨rec', hrec', hpair⟩ := List.mem_map.mp hmem
    exact ⟨⟨rec', hrec', (Prod.mk.inj hpair).1⟩, hrest⟩

theorem Matches.creds_saved {users : List GSUser} {pw : Passwords} (h : Matches users pw) :
    creds (users.map GSUser.saved) = creds users := by
  rw [creds, creds, List.map_map]
  refine List.map_congr_left fun rec hrec => ?_
  obtain ⟨p, hp, htoken⟩ := h.own rec hrec
  simp only [Function.comp_apply, GSUser.saved, Prod.mk.injEq]
  exact ⟨(h.all _ _ hp).2.2, by rw [htoken, jsonText_token]⟩

theorem Matches.saved {users : List GSUser} {pw : Passwords} (h : Matches users pw) :
    Matches (users.map GSUser.saved) pw :=
  h.congr h.creds_saved

theorem Matches.erase {users : List GSUser} {pw : Passwords} (h : Matches users pw)
    (username : GoString) : Matches (users.filter (·.user ≠ username)) (pw.erase username) where
  own rec hrec := by
    obtain ⟨hmem, hne⟩ := List.mem_filter.mp hrec
    obtain ⟨p, hp, htoken⟩ := h.own rec hmem
    exact ⟨p, by rw [AList.lookup_erase_ne (by simpa using hne), hp], htoken⟩
  all n p hp := by
    obtain ⟨hne, hp⟩ := GoMap.of_lookup_erase hp
    obtain ⟨⟨rec, hrec, rfl⟩, hrest⟩ := h.all n p hp
    exact ⟨⟨rec, List.mem_filter.mpr ⟨hrec, by simpa using hne⟩, rfl⟩, hrest⟩

theorem Matches.create {env : Env} {input : UserInputJsonSingle} {users users' : List GSUser}
    {pw : Passwords} (h : Matches users pw)
    (hlower : toLower env.lowerTable input.username = input.username) (hcolon : 58 ∉ input.username)
    (hok : gsApiUserCreate env input users = .ok users') :
    Matches users' (pw.insert input.username input.password) := by
  unfold gsApiUserCreate at hok
  split at hok
  · cases hok
  split at hok
  · cases hok
  · rename_i hnew
    cases hok
    have huser : (newUser env input).user = input.username := hlower
    rw [huser] at hnew
    refine ⟨fun rec hrec => ?_, fun n p hp => ?_⟩
    · obtain hrec | hrec := List.mem_append.mp hrec
      · obtain ⟨p, hp, htoken⟩ := h.own rec hrec
        have hne : rec.user ≠ input.username := fun heq =>
          hnew (List.any_eq_true.mpr ⟨rec, hrec, by simpa using heq⟩)
        exact ⟨p, by rw [AList.lookup_insert_ne hne, hp], htoken⟩
      · obtain rfl := List.mem_singleton.mp hrec
        rw [huser]
        exact ⟨input.password, AList.lookup_insert _, rfl⟩
    · obtain ⟨rfl, -⟩ | ⟨-, hold⟩ := GoMap.of_lookup_insert hp
      · refine ⟨⟨newUser env input, by simp, huser⟩, hcolon, ?_⟩
        rw [← hlower, jsonText_toLower]
      · obtain ⟨⟨rec, hrec, hname⟩, hrest⟩ := h.all n p hold
        exact ⟨⟨rec, List.mem_append_left _ hrec, hname⟩, hrest⟩

theorem Matches.put {input : UserInputJsonSingle} {users : List GSUser} {pw : Passwords}
    (h : Matches users pw) (hpass : 0 < input.password.length) :
    Matches (withUser input.username (putUser input) users)
      (if input.username ∈ pw then pw.insert input.username input.password else pw) := by
  have hput : ∀ rec : GSUser, (putUser input rec).user = rec.user
      ∧ (putUser input rec).base64String = token input.username input.password := by
    intro rec
    rw [putUser, if_pos hpass]
    exact ⟨rfl, rfl⟩
  by_cases hmem : input.username ∈ pw
  · rw [if_pos hmem]
    refine ⟨fun rec hrec => ?_, fun n p hp => ?_⟩
    · obtain ⟨rec', hrec', rfl⟩ := List.mem_map.mp hrec
      by_cases hname : rec'.user = input.username
      · rw [if_pos hname, (hput rec').1, (hput rec').2, hname]
        exact ⟨input.password, AList.lookup_insert _, rfl⟩
      · rw [if_neg hname]
        obtain ⟨p, hp, htoken⟩ := h.own rec' hrec'
        exact ⟨p, by rw [AList.lookup_insert_ne hname, hp], htoken⟩
    · have hold : ∃ q, pw.lookup n = some q := by
        obtain ⟨rfl, -⟩ | ⟨-, hold⟩ := GoMap.of_lookup_insert hp
        · exact Option.isSome_iff_exists.mp (AList.lookup_isSome.mpr hmem)
        · exact ⟨p, hold⟩
      obtain ⟨q, hq⟩ := hold
      obtain ⟨⟨rec, hrec, hname⟩, hrest⟩ := h.all n q hq
      refine ⟨⟨_, List.mem_map_of_mem hrec, ?_⟩, hrest⟩
      split
      · rw [(hput rec).1, hname]
      · exact hname
  · rw [if_neg hmem]
    -- nobody has the name, so nothing changes
    have hsame : withUser input.username (putUser input) users = users := by
      rw [withUser]
      refine (List.map_congr_left fun rec hrec => ?_).trans (List.map_id users)
      have hne : rec.user ≠ input.username := by
        intro heq
        obtain ⟨p, hp, -⟩ := h.own rec hrec
        rw [heq] at hp
        exact hmem (AList.lookup_isSome.mp (by rw [hp]; rfl))
      simp only [hne, if_false, id]
    rw [hsame]
    exact h

/-! ## The runtime -/

/-- `AuthUsers` and the file both say what the passwords say. -/
structure Cred.Sync (c : Cred) : Prop where
  authUsers : Matches c.runtime.authUsers c.passwords
  file : Matches c.runtime.file c.passwords

/-- A write of the web server, then the reload. -/
theorem sync_of_web {rt : GSRuntime} {users : List GSUser} {pw : Passwords}
    (h : Matches users pw) : Cred.Sync ⟨(rt.updateWebSettings users).init, pw⟩ :=
  ⟨h.saved, h.saved⟩

theorem Cred.Sync.web {c : Cred} (h : c.Sync) (hfresh : c.WebFresh) :
    Matches c.runtime.webSettings c.passwords :=
  h.file.congr hfresh

theorem Cred.Sync.removeUser {c : Cred} (h : c.Sync) (username : GoString) :
    Cred.Sync ⟨c.runtime.removeUser username, c.passwords.erase username⟩ :=
  ⟨h.authUsers.erase username, (h.authUsers.erase username).saved⟩

/-! `UpdateUser` with the password that the user has: names and tokens stay. -/

theorem creds_withUser (username : GoString) {f : GSUser → GSUser} (users : List GSUser)
    (hf : ∀ rec, (f rec).user = rec.user ∧ (f rec).base64String = rec.base64String) :
    creds (withUser username f users) = creds users := by
  rw [creds, creds, withUser, List.map_map]
  refine List.map_congr_left fun rec _ => ?_
  simp only [Function.comp_apply]
  split
  · rw [(hf rec).1, (hf rec).2]
  · rfl

theorem creds_set {users : List GSUser} {i : Nat} {rec : GSUser} (hrec : users[i]? = some rec)
    (allow : Bool) : creds (users.set i { rec with allowAccess := allow }) = creds users := by
  obtain ⟨hi, rfl⟩ := List.getElem?_eq_some_iff.mp hrec
  have hself := @List.set_getElem_self _ (creds users) i (by simpa [creds] using hi)
  simp only [creds, List.getElem_map, List.map_set] at hself ⊢
  exact hself

section

variable {rt : GSRuntime} {pw : Passwords}

theorem sync_saver (h : Matches rt.authUsers pw) : Cred.Sync ⟨rt.gsUserDataSaver, pw⟩ :=
  ⟨h, h.saved⟩

theorem sync_updatePassword (h : Matches rt.authUsers pw) (username password : GoString) :
    Cred.Sync ⟨rt.updatePassword username password, pw⟩ := by
  have husers : Matches (withUser username (fun rec => { rec with pass := password }) rt.authUsers)
      pw := h.congr (creds_withUser username _ fun _ => ⟨rfl, rfl⟩)
  exact ⟨husers.saved, husers.saved⟩

theorem sync_updateUserAt {acc : GSRuntime × Bool} (h : Cred.Sync ⟨acc.1, pw⟩)
    (username : GoString) (data : GSUserPublic) (i : Nat) :
    Cred.Sync ⟨(GSRuntime.updateUserAt username data acc i).1, pw⟩ := by
  unfold GSRuntime.updateUserAt
  split
  · exact h
  · rename_i rec hrec
    split
    · have hset := h.authUsers.congr (creds_set hrec data.allowAccess)
      dsimp only
      split
      · exact sync_updatePassword hset data.user data.password
      · exact ⟨hset, h.file⟩
    · exact h

theorem sync_updateUserLoop (username : GoString) (data : GSUserPublic) (is : List Nat)
    {acc : GSRuntime × Bool} (h : Cred.Sync ⟨acc.1, pw⟩) :
    Cred.Sync ⟨(is.foldl (GSRuntime.updateUserAt username data) acc).1, pw⟩ := by
  induction is generalizing acc with
  | nil => exact h
  | cons i is ih => exact ih (sync_updateUserAt h username data i)

theorem addUser_of_mem {user : GoString} (h : Matches rt.authUsers pw) (hmem : user ∈ pw)
    (pass : GoString) : rt.addUser user pass = (rt, false) := by
  obtain ⟨p, hp⟩ := Option.isSome_iff_exists.mp (AList.lookup_isSome.mpr hmem)
  obtain ⟨⟨rec, hrec, hname⟩, -⟩ := h.all user p hp
  rw [GSRuntime.addUser, if_pos (List.any_eq_true.mpr ⟨rec, hrec, by simpa using hname⟩)]

theorem sync_updateUser (h : Cred.Sync ⟨rt, pw⟩) {data : GSUserPublic} (hmem : data.user ∈ pw)
    (username : GoString) : Cred.Sync ⟨rt.updateUser username data, pw⟩ := by
  have hloop : Cred.Sync ⟨((List.range rt.authUsers.length).foldl
      (GSRuntime.updateUserAt username data) (rt, false)).1, pw⟩ :=
    sync_updateUserLoop username data _ h
  unfold GSRuntime.updateUser
  dsimp only
  split
  · exact sync_saver hloop.authUsers
  · rw [addUser_of_mem hloop.authUsers hmem]
    exact sync_saver hloop.authUsers

end

/-! ## Whole runs -/

theorem sync_initial : Cred.initial.Sync := by
  have hmatch : Matches defaultUsers Cred.initial.passwords := by
    refine ⟨fun rec hrec => ?_, fun n p hp => ?_⟩
    · obtain rfl := List.mem_singleton.mp hrec
      exact ⟨lit "password", AList.lookup_insert _, by decide +kernel⟩
    · obtain ⟨rfl, -⟩ | ⟨-, hold⟩ := GoMap.of_lookup_insert hp
      · exact ⟨⟨_, List.mem_singleton_self _, rfl⟩, by decide, by decide +kernel⟩
      · cases hold
  exact ⟨hmatch, hmatch⟩

theorem insert_lookup_same {pw : Passwords} {n p : GoString} (h : pw.lookup n = some p)
    (k : GoString) : (pw.insert n p).lookup k = pw.lookup k := by
  by_cases hk : k = n
  · subst hk
    rw [AList.lookup_insert, h]
  · rw [AList.lookup_insert_ne hk]

theorem Cred.Sync.of_lookup {rt : GSRuntime} {pw pw' : Passwords} (h : Cred.Sync ⟨rt, pw⟩)
    (heq : ∀ k, pw'.lookup k = pw.lookup k) : Cred.Sync ⟨rt, pw'⟩ := by
  have hlist : ∀ {users : List GSUser}, Matches users pw → Matches users pw' := fun hm =>
    ⟨fun rec hrec => by simpa only [heq] using hm.own rec hrec,
      fun n p hp => hm.all n p (by rwa [heq] at hp)⟩
  exact ⟨hlist h.authUsers, hlist h.file⟩

theorem credStep_sync {env : Env} {c c' : Cred} {op : Op} (h : c.Sync) (hok : CredOk env c op)
    (hs : credStep env c op = some c') : c'.Sync := by
  cases op with
  | create input =>
      obtain ⟨hfresh, hlower, hcolon⟩ := hok
      simp only [credStep] at hs
      split at hs
      · rename_i users husers
        obtain rfl := Option.some.inj hs
        simp only [GSRuntime.apply, husers]
        exact sync_of_web ((h.web hfresh).create hlower hcolon husers)
      · cases hs
  | put input =>
      simp only [credStep] at hs
      split at hs
      · cases hs
      · rename_i hpass
        split at hs
        · rename_i users husers
          obtain rfl := Option.some.inj hs
          simp only [GSRuntime.apply, husers]
          have hput := (h.web hok).put (List.length_pos_of_ne_nil hpass)
          unfold gsApiUserPUT at husers
          split at husers
          · cases husers
          · cases husers
            exact sync_of_web hput
        · cases hs
  | delete username =>
      obtain rfl := Option.some.inj hs
      exact sync_of_web ((h.web hok).erase username)
  | addUser user pass => exact hok.elim
  | updateUser username data =>
      simp only [credStep] at hs
      split at hs
      · obtain rfl := Option.some.inj hs
        have hset : c.passwords.lookup data.user = some data.password := hok
        have hmem : data.user ∈ c.passwords := AList.lookup_isSome.mp (by rw [hset]; rfl)
        exact (sync_updateUser h hmem username).of_lookup (insert_lookup_same hok)
      · cases hs
  | removeUser username =>
      obtain rfl := Option.some.inj hs
      exact h.removeUser username
  | _ => cases hs

/-- **Credentials follow user management.** In every run of successful
operations that all meet `CredOk`, and for every name and password: the
header made from them is accepted and resolves to that user exactly when the
user is registered and the password is the one set last. -/
theorem accepts_iff_password {env : Env} {c : Cred}
    (hr : Reach (credStep env) (CredOk env) Cred.initial c) (n p : GoString) :
    Accepts c.runtime n p ↔ c.passwords.lookup n = some p := by
  have hsync : c.Sync :=
    Reach.invariant sync_initial (fun hI hok hs => credStep_sync hI hok hs) hr
  exact hsync.authUsers.iff_accepts n p

theorem accepts_iff_password_alice :
    ∃ c, Reach (credStep exampleEnv) (CredOk exampleEnv) Cred.initial c
      ∧ c.passwords.lookup alice.username = some alice.password
      ∧ Accepts c.runtime alice.username alice.password := by
  have hrun : (credStep exampleEnv Cred.initial (.create alice)).map
      (fun c => c.passwords.lookup alice.username) = some (some alice.password) := by
    decide +kernel
  obtain ⟨c, hc, hset⟩ := Option.map_eq_some_iff.mp hrun
  have hok : CredOk exampleEnv Cred.initial (.create alice) :=
    ⟨rfl, by decide +kernel, by decide⟩
  have hreach : Reach (credStep exampleEnv) (CredOk exampleEnv) Cred.initial c :=
    .next .init hok hc
  exact ⟨c, hreach, hset, (accepts_iff_password hreach _ _).mpr hset⟩

/-- `AddUser` reports success, but the new user cannot log in: the record
has no token. -/
theorem addUser_not_accepted :
    ∃ c, Reach (credStep exampleEnv) anyStep Cred.initial c
      ∧ c.passwords.lookup (lit "bob") = some (lit "secret")
      ∧ ¬ Accepts c.runtime (lit "bob") (lit "secret") := by
  have hrun : (credStep exampleEnv Cred.initial (.addUser (lit "bob") (lit "secret"))).map
      (fun c => (c.passwords.lookup (lit "bob"),
        c.runtime.isUserValid (basicHeader (lit "bob") (lit "secret"))))
      = some (some (lit "secret"), false) := by decide +kernel
  obtain ⟨c, hc, hview⟩ := Option.map_eq_some_iff.mp hrun
  obtain ⟨hset, hvalid⟩ := Prod.mk.inj hview
  refine ⟨c, .next .init trivial hc, hset, fun h => ?_⟩
  rw [h.1] at hvalid
  cases hvalid

end Users

end RbiProxy
