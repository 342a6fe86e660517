import RbiProxy.Reach
import RbiProxy.Users

/-!
# Concurrent user requests on one store

Each of the three user handlers reads the whole list out of the settings
store, works on its copy, and writes the whole list back. `Get` and `Update`
are atomic, what is between them is not: any number of requests may have read
before one of them writes.

A request that is acknowledged has written; `acked` has them in the order of
their writes. `acked_serial` says when that order explains the list: as long
as every write finds the store as the request read it, the list is what the
acknowledged requests make one after the other, each of them acknowledged
again. Without that a write undoes what came before (`create_is_lost`).
-/

namespace RbiProxy

namespace Users

open Proxy

inductive UserRequest where
  | create (input : UserInputJsonSingle)
  | put (input : UserInputJsonSingle)
  | delete (username : GoString)

/-- What the handler writes, or its error, given the list it has read. -/
def UserRequest.handle (env : Env) (existing : List GSUser) : UserRequest →
    Except GoString (List GSUser)
  | .create input => gsApiUserCreate env input existing
  | .put input => gsApiUserPUT input existing
  | .delete username => .ok (gsApiUserDELETE username existing)

/-- The value of `authusers`, the requests that have read it and not finished
with what they read, and the acknowledged ones. -/
structure Admin where
  store : List GSUser
  inflight : GoMap Nat (UserRequest × List GSUser)
  acked : List UserRequest

def Admin.start (users : List GSUser) : Admin := ⟨users.map GSUser.saved, ∅, []⟩

inductive AdminAct where
  /-- `settingsStore.Get("authusers")` -/
  | get (i : Nat) (r : UserRequest)
  /-- the rest of the handler: `settingsStore.Update`, or an error -/
  | finish (i : Nat)

def adminStep (env : Env) (a : Admin) : AdminAct → Option Admin
  | .get i r =>
      if i ∈ a.inflight then none
      else some { a with inflight := a.inflight.insert i (r, a.store) }
  | .finish i =>
      match a.inflight.lookup i with
      | some (r, existing) =>
          match r.handle env existing with
          | .ok users => some ⟨users.map GSUser.saved, a.inflight.erase i, a.acked ++ [r]⟩
          | .error _ => some { a with inflight := a.inflight.erase i }
      | none => none

/-- Whoever writes finds the list that it has read. -/
def Exclusive (env : Env) (a : Admin) : AdminAct → Prop
  | .get _ _ => True
  | .finish i => ∀ r existing users, a.inflight.lookup i = some (r, existing) →
      r.handle env existing = .ok users → existing = a.store

/-- The requests one at a time, all of them acknowledged. -/
def serial (env : Env) : List UserRequest → List GSUser → Except GoString (List GSUser)
  | [], users => .ok users
  | r :: rs, users =>
      match r.handle env users with
      | .ok users => serial env rs (users.map GSUser.saved)
      | .error e => .error e

theorem serial_append {env : Env} {rs rs' : List UserRequest} {users final : List GSUser} :
    serial env (rs ++ rs') users = .ok final ↔
      ∃ mid, serial env rs users = .ok mid ∧ serial env rs' mid = .ok final := by
  induction rs generalizing users with
  | nil => simp [serial]
  | cons r rs ih =>
      simp only [serial, List.cons_append]
      split
      · exact ih
      · simp

theorem serial_cons {env : Env} {r : UserRequest} {rs : List UserRequest}
    {users final : List GSUser} :
    serial env (r :: rs) users = .ok final ↔
      ∃ written, r.handle env users = .ok written
        ∧ serial env rs (written.map GSUser.saved) = .ok final := by
  simp only [serial]
  cases hhandle : r.handle env users with
  | ok written => simp
  | error e => simp

/-- The acknowledged requests make the list out of the first one. -/
def Admin.Explained (env : Env) (users : List GSUser) (a : Admin) : Prop :=
  serial env a.acked (users.map GSUser.saved) = .ok a.store

theorem adminStep_explained {env : Env} {users : List GSUser} {a a' : Admin} {act : AdminAct}
    (hI : a.Explained env users) (hok : Exclusive env a act)
    (hs : adminStep env a act = some a') : a'.Explained env users := by
  cases act with
  | get i r =>
      simp only [adminStep] at hs
      split at hs
      · cases hs
      · obtain rfl := Option.some.inj hs
        exact hI
  | finish i =>
      simp only [adminStep] at hs
      split at hs
      · rename_i r existing hread
        split at hs
        · rename_i written hwritten
          obtain rfl := Option.some.inj hs
          obtain rfl := hok r existing written hread hwritten
          exact serial_append.mpr ⟨_, hI, serial_cons.mpr ⟨_, hwritten, rfl⟩⟩
        · obtain rfl := Option.some.inj hs
          exact hI
      · cases hs

/-! ## Single names in a serial run -/

/-- Every name is text that JSON leaves alone. -/
def Named (users : List GSUser) : Prop := ∀ rec ∈ users, jsonText rec.user = rec.user

theorem named_saved (users : List GSUser) : Named (users.map GSUser.saved) := by
  intro rec hrec
  obtain ⟨rec', -, rfl⟩ := List.mem_map.mp hrec
  exact jsonText_idem rec'.user

theorem putUser_user (input : UserInputJsonSingle) (rec : GSUser) :
    (putUser input rec).user = rec.user := by
  rw [putUser]
  split
  · rfl
  · rfl

/-- The user that a request creates, in lower case. -/
def UserRequest.creates (env : Env) (n : GoString) : UserRequest → Prop
  | .create input => toLower env.lowerTable input.username = n
  | _ => False

section

variable {env : Env} {r : UserRequest} {rs : List UserRequest} {users written final : List GSUser}
  {n : GoString}

theorem mem_of_handle (h : r.handle env users = .ok written) (hn : ∃ rec ∈ users, rec.user = n)
    (hdel : r ≠ .delete n) : ∃ rec ∈ written, rec.user = n := by
  obtain ⟨rec, hrec, rfl⟩ := hn
  cases r with
  | create input =>
      simp only [UserRequest.handle, gsApiUserCreate] at h
      split at h
      · cases h
      split at h
      · cases h
      · cases h
        exact ⟨rec, List.mem_append_left _ hrec, rfl⟩
  | put input =>
      simp only [UserRequest.handle, gsApiUserPUT] at h
      split at h
      · cases h
      · cases h
        refine ⟨_, List.mem_map_of_mem hrec, ?_⟩
        split
        · exact putUser_user input rec
        · rfl
  | delete username =>
      cases h
      have hne : rec.user ≠ username := fun heq => hdel (by rw [heq])
      exact ⟨rec, List.mem_filter.mpr ⟨hrec, by simpa using hne⟩, rfl⟩

theorem creates_of_handle (h : r.handle env users = .ok written) {rec : GSUser}
    (hrec : rec ∈ written) : (∃ rec' ∈ users, rec'.user = rec.user) ∨ r.creates env rec.user := by
  cases r with
  | create input =>
      simp only [UserRequest.handle, gsApiUserCreate] at h
      split at h
      · cases h
      split at h
      · cases h
      · cases h
        obtain hrec | hrec := List.mem_append.mp hrec
        · exact .inl ⟨rec, hrec, rfl⟩
        · obtain rfl := List.mem_singleton.mp hrec
          exact .inr rfl
  | put input =>
      simp only [UserRequest.handle, gsApiUserPUT] at h
      split at h
      · cases h
      · cases h
        obtain ⟨rec', hrec', rfl⟩ := List.mem_map.mp hrec
        refine .inl ⟨rec', hrec', ?_⟩
        split
        · exact (putUser_user input rec').symm
        · rfl
  | delete username =>
      cases h
      exact .inl ⟨rec, List.mem_of_mem_filter hrec, rfl⟩

theorem mem_serial (h : serial env rs users = .ok final) (hn : ∃ rec ∈ users, rec.user = n)
    (htext : jsonText n = n) (hdel : .delete n ∉ rs) : ∃ rec ∈ final, rec.user = n := by
  induction rs generalizing users with
  | nil =>
      cases h
      exact hn
  | cons r rs ih =>
      obtain ⟨written, hwritten, hrest⟩ := serial_cons.mp h
      rw [List.mem_cons, not_or] at hdel
      obtain ⟨rec, hrec, rfl⟩ := mem_of_handle hwritten hn fun heq => hdel.1 heq.symm
      exact ih hrest ⟨rec.saved, List.mem_map_of_mem hrec, htext⟩ hdel.2

theorem notMem_serial (h : serial env rs users = .ok final) (hnamed : Named users)
    (hn : ∀ rec ∈ users, rec.user ≠ n) (hcreate : ∀ r ∈ rs, ¬ r.creates env n) :
    ∀ rec ∈ final, rec.user ≠ n := by
  induction rs generalizing users with
  | nil =>
      cases h
      exact hn
  | cons r rs ih =>
      obtain ⟨written, hwritten, hrest⟩ := serial_cons.mp h
      refine ih hrest (named_saved written) (fun rec hrec => ?_)
        fun r' hr' => hcreate r' (List.mem_cons_of_mem _ hr')
      obtain ⟨rec', hrec', rfl⟩ := List.mem_map.mp hrec
      intro heq
      obtain ⟨old, hold, hsame⟩ | hnew := creates_of_handle hwritten hrec'
      · have htext := hnamed old hold
        rw [hsame] at htext
        exact hn old hold (by rw [hsame, ← htext]; exact heq)
      · have hlower : jsonText rec'.user = rec'.user := by
          cases r with
          | create input => rw [← show toLower env.lowerTable input.username = rec'.user from hnew,
              jsonText_toLower]
          | put input => exact hnew.elim
          | delete username => exact hnew.elim
        have hname : rec'.user = n := hlower.symm.trans heq
        exact hcreate r List.mem_cons_self (hname ▸ hnew)

theorem named_serial (h : serial env rs users = .ok final) (hnamed : Named users) :
    Named final := by
  induction rs generalizing users with
  | nil =>
      cases h
      exact hnamed
  | cons r rs ih =>
      obtain ⟨written, -, hrest⟩ := serial_cons.mp h
      exact ih hrest (named_saved written)

/-- A created user is there at the end, unless it is deleted. -/
theorem mem_of_created {before after : List UserRequest} {input : UserInputJsonSingle}
    (h : serial env (before ++ .create input :: after) users = .ok final)
    (hdel : .delete (toLower env.lowerTable input.username) ∉ after) :
    ∃ rec ∈ final, rec.user = toLower env.lowerTable input.username := by
  obtain ⟨mid, -, hrest⟩ := serial_append.mp h
  obtain ⟨written, hwritten, hafter⟩ := serial_cons.mp hrest
  have htext := jsonText_toLower env.lowerTable input.username
  have hnew : ∃ rec ∈ written, rec.user = toLower env.lowerTable input.username := by
    simp only [UserRequest.handle, gsApiUserCreate] at hwritten
    split at hwritten
    · cases hwritten
    split at hwritten
    · cases hwritten
    · cases hwritten
      exact ⟨newUser env input, by simp, rfl⟩
  obtain ⟨rec, hrec, hname⟩ := hnew
  refine mem_serial hafter ⟨rec.saved, List.mem_map_of_mem hrec, ?_⟩ htext hdel
  rw [GSUser.saved, hname, htext]

/-- A deleted user is gone at the end, unless it is created. -/
theorem notMem_of_deleted {before after : List UserRequest} (hnamed : Named users)
    (h : serial env (before ++ .delete n :: after) users = .ok final)
    (hcreate : ∀ r ∈ after, ¬ r.creates env n) : ∀ rec ∈ final, rec.user ≠ n := by
  obtain ⟨mid, hbefore, hrest⟩ := serial_append.mp h
  obtain ⟨written, hwritten, hafter⟩ := serial_cons.mp hrest
  cases hwritten
  have hmid := named_serial hbefore hnamed
  refine notMem_serial hafter (named_saved _) (fun rec hrec => ?_) hcreate
  obtain ⟨rec', hrec', rfl⟩ := List.mem_map.mp hrec
  obtain ⟨hold, hne⟩ := List.mem_filter.mp hrec'
  rw [GSUser.saved, hmid rec' hold]
  simpa using hne

end

/-! ## Whole runs -/

/-- **No acknowledged user change is lost.** In every run in which each
write finds the list that its request has read: the list is what the
acknowledged requests make one after the other, an acknowledged new user is
there unless it was deleted afterwards, and a deleted user is gone unless it
was created again. -/
theorem acked_serial {env : Env} {users : List GSUser} {a : Admin}
    (hr : Reach (adminStep env) (Exclusive env) (.start users) a) :
    serial env a.acked (users.map GSUser.saved) = .ok a.store
      ∧ (∀ before input after, a.acked = before ++ .create input :: after →
          .delete (toLower env.lowerTable input.username) ∉ after →
          ∃ rec ∈ a.store, rec.user = toLower env.lowerTable input.username)
      ∧ (∀ before n after, a.acked = before ++ .delete n :: after →
          (∀ r ∈ after, ¬ r.creates env n) → ∀ rec ∈ a.store, rec.user ≠ n) := by
  have hstart : (Admin.start users).Explained env users := rfl
  have hserial : a.Explained env users :=
    Reach.invariant hstart (fun hI hok hs => adminStep_explained hI hok hs) hr
  refine ⟨hserial, fun before input after hacked hdel => ?_,
    fun before n after hacked hcreate => ?_⟩
  · rw [Admin.Explained, hacked] at hserial
    exact mem_of_created hserial hdel
  · rw [Admin.Explained, hacked] at hserial
    exact notMem_of_deleted (named_saved users) hserial hcreate

def bob : UserInputJsonSingle := ⟨lit "bob", lit "correcthorse", true⟩

def carol : UserInputJsonSingle := ⟨lit "carol", lit "batterystaple", true⟩

/-- The store at the start, as the requests read it. -/
def exampleStore : List GSUser := defaultUsers.map GSUser.saved

theorem create_bob :
    gsApiUserCreate exampleEnv bob exampleStore
      = .ok (exampleStore ++ [newUser exampleEnv bob]) := by
  rw [gsApiUserCreate, if_neg (by decide), if_neg (by decide +kernel)]

theorem create_carol : gsApiUserCreate exampleEnv carol exampleStore
    = .ok (exampleStore ++ [newUser exampleEnv carol]) := by
  rw [gsApiUserCreate, if_neg (by decide), if_neg (by decide +kernel)]

def bobStore : List GSUser := (exampleStore ++ [newUser exampleEnv bob]).map GSUser.saved

/-- A user is created and another one deleted. The deletion reads behind the first write, so
that its own finds what it has read. -/
theorem acked_serial_bob :
    ∃ a, Reach (adminStep exampleEnv) (Exclusive exampleEnv) (.start defaultUsers) a
      ∧ a.acked = [.create bob, .delete (lit "guest")]
      ∧ (∃ rec ∈ a.store, rec.user = toLower exampleEnv.lowerTable bob.username)
      ∧ ∀ rec ∈ a.store, rec.user ≠ lit "guest" := by
  have hread : Reach (adminStep exampleEnv) (Exclusive exampleEnv) (.start defaultUsers)
      ⟨exampleStore, (∅ : GoMap Nat _).insert 0 (.create bob, exampleStore), []⟩ :=
    .next (a := .get 0 (.create bob)) .init trivial rfl
  have hwrite : Reach (adminStep exampleEnv) (Exclusive exampleEnv) (.start defaultUsers)
      ⟨bobStore, ∅, [.create bob]⟩ := by
    refine .next (a := .finish 0) hread (fun r existing users hl _ => ?_) ?_
    · cases hl
      rfl
    · simp only [adminStep, AList.lookup_insert, UserRequest.handle, create_bob]
      rfl
  have hagain : Reach (adminStep exampleEnv) (Exclusive exampleEnv) (.start defaultUsers)
      ⟨bobStore, (∅ : GoMap Nat _).insert 1 (.delete (lit "guest"), bobStore), [.create bob]⟩ :=
    .next (a := .get 1 (.delete (lit "guest"))) hwrite trivial rfl
  have hdelete : Reach (adminStep exampleEnv) (Exclusive exampleEnv) (.start defaultUsers)
      ⟨(gsApiUserDELETE (lit "guest") bobStore).map GSUser.saved, ∅,
        [.create bob, .delete (lit "guest")]⟩ := by
    refine .next (a := .finish 1) hagain (fun r existing users hl _ => ?_) rfl
    cases hl
    rfl
  obtain ⟨-, hcreated, hdeleted⟩ := acked_serial hdelete
  have hkept : UserRequest.delete (toLower exampleEnv.lowerTable bob.username)
      ∉ [UserRequest.delete (lit "guest")] := by
    have hname : toLower exampleEnv.lowerTable bob.username ≠ lit "guest" := by decide +kernel
    simpa using hname
  exact ⟨_, hdelete, rfl, hcreated [] bob [.delete (lit "guest")] rfl hkept,
    hdeleted [.create bob] (lit "guest") [] rfl (by simp)⟩

/-- Both requests have read the list, and none has written. -/
def bothRead : GoMap Nat (UserRequest × List GSUser) :=
  let one : GoMap Nat (UserRequest × List GSUser) :=
    (∅ : GoMap Nat (UserRequest × List GSUser)).insert 0 (.create bob, exampleStore)
  one.insert 1 (.create carol, exampleStore)

/-- Two new users at once: both are acknowledged, and one of them is not
there. No order of the two explains the list. -/
theorem create_is_lost :
    ∃ a, Reach (adminStep exampleEnv) anyStep (.start defaultUsers) a
      ∧ a.acked = [.create bob, .create carol]
      ∧ ∀ order, order.Perm a.acked → serial exampleEnv order exampleStore ≠ .ok a.store := by
  have hread : Reach (adminStep exampleEnv) anyStep (.start defaultUsers)
      ⟨exampleStore, bothRead, []⟩ :=
    .next (a := .get 1 (.create carol))
      (.next (a := .get 0 (.create bob)) .init trivial rfl) trivial rfl
  have hbob : Reach (adminStep exampleEnv) anyStep (.start defaultUsers)
      ⟨(exampleStore ++ [newUser exampleEnv bob]).map GSUser.saved, bothRead.erase 0,
        [.create bob]⟩ := by
    refine .next (a := .finish 0) hread trivial ?_
    have hl : bothRead.lookup 0 = some (.create bob, exampleStore) := rfl
    simp only [adminStep, hl, UserRequest.handle, create_bob]
    rfl
  have hcarol : Reach (adminStep exampleEnv) anyStep (.start defaultUsers)
      ⟨(exampleStore ++ [newUser exampleEnv carol]).map GSUser.saved, (bothRead.erase 0).erase 1,
        [.create bob, .create carol]⟩ := by
    refine .next (a := .finish 1) hbob trivial ?_
    have hl : (bothRead.erase 0).lookup 1 = some (.create carol, exampleStore) := rfl
    simp only [adminStep, hl, UserRequest.handle, create_carol]
    rfl
  refine ⟨_, hcarol, rfl, fun order hperm hserial => ?_⟩
  -- in any order, the user that was created first would still be there
  have hmem : UserRequest.create bob ∈ order := hperm.mem_iff.mpr (by simp)
  obtain ⟨before, after, rfl⟩ := List.append_of_mem hmem
  have hdel : .delete (toLower exampleEnv.lowerTable bob.username) ∉ after := by
    intro hafter
    have hacked := hperm.mem_iff.mp (List.mem_append_right before (List.mem_cons_of_mem _ hafter))
    simp at hacked
  obtain ⟨rec, hrec, hname⟩ := mem_of_created hserial hdel
  have hall : ((exampleStore ++ [newUser exampleEnv carol]).map GSUser.saved).all
      (fun rec => rec.user ≠ toLower exampleEnv.lowerTable bob.username) = true := by
    decide +kernel
  have hne := List.all_eq_true.mp hall rec hrec
  simp [hname] at hne

end Users

end RbiProxy
