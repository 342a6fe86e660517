import RbiProxy.GoUtf8
import RbiProxy.ServeHTTP

/-!
# The user records

`users.go` and `handler_users.go`: the records behind the proxy's
authentication and every operation that changes them. The list exists in four
places: in memory (`AuthUsers`), in the settings store of the runtime, in the
store that the web server was started with, and in the settings file behind
both. The two stores are one object until the first `Init` after the start
gives the runtime a new one; from then on each of them writes the whole file
from its own copy.

A list goes into a store as JSON, which replaces what is not UTF-8
(`GSUser.saved`). The settings file is taken to hold what was written to it
last. A `Gateway` is the runtime together with the cache of the proxy, and a
step of it is one operation or one request.
-/

namespace RbiProxy

namespace Users

open Proxy

/-! ## Records -/

structure GSUser where
  user : GoString
  pass : GoString
  base64String : GoString
  dataConsumed : UInt64
  allowAccess : Bool
  toDelete : Bool
deriving DecidableEq

/-- `GSUserPublic`, without the count of bytes, which nothing reads. -/
structure GSUserPublic where
  user : GoString
  allowAccess : Bool
  password : GoString

structure UserInputJsonSingle where
  username : GoString
  password : GoString
  allowAccess : Bool

/-- A record after `json.Marshal` and `json.Unmarshal`. -/
def GSUser.saved (rec : GSUser) : GSUser :=
  { rec with user := jsonText rec.user, pass := jsonText rec.pass,
             base64String := jsonText rec.base64String }

/-- What a client sends for a name and a password. -/
def token (username password : GoString) : GoString :=
  Base64.encode (username ++ lit ":" ++ password)

def withUser (username : GoString) (f : GSUser → GSUser) (users : List GSUser) : List GSUser :=
  users.map fun rec => if rec.user = username then f rec else rec

/-! ## The web server's handlers -/

def errorFailedValidation : GoString :=
  lit "Username or password too short. Username must be at least 3 characters "
    ++ lit "and password must be at least 10 characters"

def validateUserInputJsonSingle (input : UserInputJsonSingle) : Bool :=
  !(decide (input.username.length < 3) || decide (input.password.length < 10))

/-- The record `GSApiUserCreate` makes: the name is lowered, the token is
not. -/
def newUser (env : Env) (input : UserInputJsonSingle) : GSUser :=
  { user := toLower env.lowerTable input.username, pass := [],
    base64String := token input.username input.password, dataConsumed := 0,
    allowAccess := input.allowAccess, toDelete := false }

/-- `GSApiUserCreate`: the list to store, or the error. -/
def gsApiUserCreate (env : Env) (input : UserInputJsonSingle) (existing : List GSUser) :
    Except GoString (List GSUser) :=
  if validateUserInputJsonSingle input = false then .error errorFailedValidation
  else if existing.any (·.user = (newUser env input).user) then
    .error (lit "User already exists")
  else .ok (existing ++ [newUser env input])

/-- What `GSApiUserPUT` does with a record of the name. -/
def putUser (input : UserInputJsonSingle) (rec : GSUser) : GSUser :=
  if 0 < input.password.length then
    { rec with allowAccess := input.allowAccess,
               base64String := token input.username input.password }
  else { rec with allowAccess := input.allowAccess }

def gsApiUserPUT (input : UserInputJsonSingle) (existing : List GSUser) :
    Except GoString (List GSUser) :=
  if 0 < input.password.length ∧ validateUserInputJsonSingle input = false then
    .error errorFailedValidation
  else .ok (withUser input.username (putUser input) existing)

def gsApiUserDELETE (username : GoString) (existing : List GSUser) : List GSUser :=
  existing.filter (·.user ≠ username)

/-! ## The runtime -/

/-- The part of `GSRuntime` that holds users: `AuthUsers` and the value of
`authusers` in the two stores and in the file. `shared` says that the stores
are one object. -/
structure GSRuntime where
  authUsers : List GSUser
  gsSettings : List GSUser
  webSettings : List GSUser
  shared : Bool
  file : List GSUser

def defaultUsers : List GSUser :=
  [{ user := lit "guest", pass := [], base64String := lit "Z3Vlc3Q6cGFzc3dvcmQ=",
     dataConsumed := 0, allowAccess := true, toDelete := false }]

namespace GSRuntime

/-- `Start` with a settings file. -/
def start (file : List GSUser) : GSRuntime := ⟨file, file, file, true, file⟩

/-- `Update("authusers", …)` on `R.GSSettings`. -/
def updateSettings (rt : GSRuntime) (users : List GSUser) : GSRuntime :=
  let users := users.map GSUser.saved
  { rt with gsSettings := users, file := users,
            webSettings := if rt.shared then users else rt.webSettings }

/-- `Update("authusers", …)` on the store of the web server. -/
def updateWebSettings (rt : GSRuntime) (users : List GSUser) : GSRuntime :=
  let users := users.map GSUser.saved
  { rt with webSettings := users, file := users,
            gsSettings := if rt.shared then users else rt.gsSettings }

def loadUsers (rt : GSRuntime) : GSRuntime := { rt with authUsers := rt.gsSettings }

/-- `Init`: a new store from the file. -/
def init (rt : GSRuntime) : GSRuntime :=
  loadUsers { rt with gsSettings := rt.file, shared := false }

def gsUserDataSaver (rt : GSRuntime) : GSRuntime := rt.updateSettings rt.authUsers

def updateUserData (rt : GSRuntime) (username : GoString) (data : UInt64) : GSRuntime :=
  let users := withUser username
    (fun rec => { rec with dataConsumed := rec.dataConsumed + data }) rt.authUsers
  { rt with authUsers := users }

def removeUser (rt : GSRuntime) (username : GoString) : GSRuntime :=
  gsUserDataSaver { rt with authUsers := rt.authUsers.filter (·.user ≠ username) }

/-- `UpdatePassword`. The token of the record stays. -/
def updatePassword (rt : GSRuntime) (username password : GoString) : GSRuntime :=
  let users := withUser username (fun rec => { rec with pass := password }) rt.authUsers
  init (gsUserDataSaver { rt with authUsers := users })

/-- `AddUser`: whether there is a new record. It has no token. -/
def addUser (rt : GSRuntime) (user pass : GoString) : GSRuntime × Bool :=
  if rt.authUsers.any (·.user = user) then (rt, false)
  else if user.length = 0 ∨ pass.length = 0 then (rt, false)
  else (loadUsers (rt.updateSettings (rt.authUsers ++ [⟨user, pass, [], 0, false, false⟩])), true)

/-- One round of the loop of `UpdateUser`, with `found`. A password renews
`AuthUsers` in the middle of the loop. -/
def updateUserAt (username : GoString) (data : GSUserPublic) (acc : GSRuntime × Bool) (i : Nat) :
    GSRuntime × Bool :=
  match acc.1.authUsers[i]? with
  | none => acc
  | some rec =>
    if rec.user = username then
      let users := acc.1.authUsers.set i { rec with allowAccess := data.allowAccess }
      let rt := { acc.1 with authUsers := users }
      if data.password ≠ [] then (rt.updatePassword data.user data.password, true)
      else (rt, true)
    else acc

/-- `UpdateUser`. No round changes how many records there are, so that the bound of the
loop stays. -/
def updateUser (rt : GSRuntime) (username : GoString) (data : GSUserPublic) : GSRuntime :=
  let (rt, found) := (List.range rt.authUsers.length).foldl (updateUserAt username data) (rt, false)
  gsUserDataSaver (if found then rt else (rt.addUser data.user data.password).1)

/-! ## What the proxy asks -/

/-- `IsUserValid`. The index is out of range, and the source panics, for a
header without a space; the proxy passes none. -/
def isUserValid (rt : GSRuntime) (auth : GoString) : Bool :=
  match (auth.splitOn 32)[1]? with
  | some base64Main => rt.authUsers.any (·.base64String = base64Main)
  | none => false

def isUserActive (rt : GSRuntime) (username : GoString) : Bool :=
  match rt.authUsers.find? (·.user = username) with
  | some rec => rec.allowAccess
  | none => false

def userExists (rt : GSRuntime) (username : GoString) : Bool :=
  rt.authUsers.any (·.user = username)

/-- The `UserAccessHandler` of `mymain.go`; `page` is the text for a user
whose access is off. -/
def userAccess (rt : GSRuntime) (page username : GoString) : ProxyAction × GoString :=
  if rt.userExists username then
    if rt.isUserActive username then (.userActive, []) else (.blockedInternetForUser, page)
  else (.userNotFound, [])

/-- The handlers of the proxy, with those that ask the runtime installed. -/
def install (rt : GSRuntime) (page : GoString) (p : GSProxy) : GSProxy :=
  { p with authHandler := rt.isUserValid, userAccessHandler := rt.userAccess page }

end GSRuntime

/-! ## Runs -/

structure Gateway where
  runtime : GSRuntime
  usersCache : UsersCache

def Gateway.initial : Gateway := ⟨.start defaultUsers, ∅⟩

/-- An operation on the users, an update of another key through one of the
stores, a restart, or a request. -/
inductive Op where
  | create (input : UserInputJsonSingle)
  | put (input : UserInputJsonSingle)
  | delete (username : GoString)
  | addUser (user pass : GoString)
  | updateUser (username : GoString) (data : GSUserPublic)
  | updatePassword (username password : GoString)
  | removeUser (username : GoString)
  | updateUserData (username : GoString) (data : UInt64)
  | save
  | reload
  | webKey
  | settingsKey
  | restart
  | request (p : GSProxy) (h : ProxyHandler) (r : Request)

def GSRuntime.apply (env : Env) (rt : GSRuntime) : Op → GSRuntime
  | .create input =>
    match gsApiUserCreate env input rt.webSettings with
    | .ok users => rt.updateWebSettings users
    | .error _ => rt
  | .put input =>
    match gsApiUserPUT input rt.webSettings with
    | .ok users => rt.updateWebSettings users
    | .error _ => rt
  | .delete username => rt.updateWebSettings (gsApiUserDELETE username rt.webSettings)
  | .addUser user pass => (rt.addUser user pass).1
  | .updateUser username data => rt.updateUser username data
  | .updatePassword username password => rt.updatePassword username password
  | .removeUser username => rt.removeUser username
  | .updateUserData username data => rt.updateUserData username data
  | .save => rt.gsUserDataSaver
  | .reload => rt.init
  -- a store writes all of its keys, whichever was updated
  | .webKey => { rt with file := rt.webSettings }
  | .settingsKey => { rt with file := rt.gsSettings }
  | .restart => .start rt.file
  | .request .. => rt

def Gateway.cacheAfter (env : Env) (page : GoString) (g : Gateway) : Op → UsersCache
  | .request p h r => (admitted env (g.runtime.install page p) h g.usersCache r).2
  | .restart => ∅
  | _ => g.usersCache

/-- One step of the gateway; every operation is possible at any time. -/
def Gateway.step (env : Env) (page : GoString) (g : Gateway) (op : Op) : Option Gateway :=
  some ⟨g.runtime.apply env op, g.cacheAfter env page op⟩

end Users

end RbiProxy
