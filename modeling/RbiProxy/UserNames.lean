import RbiProxy.Reach
import RbiProxy.Users

/-!
# Names in the copies of the user list

Nine operations work on four copies of the user list, and each checks for a
name that is taken in the copy at hand. What they all keep is best said about
the names alone: a `NameRule` is a property of the names of a list that
survives the JSON of a store, the removal of records and the two ways in which
a record is added. `NameRule.apply` then gives it for every copy and every
operation.

There are two of them. Names are text that JSON leaves alone (`rule_text`),
whatever the operations are given. And they are distinct and not empty
(`rule_distinct`), as long as no name that JSON would change is added.
-/

namespace RbiProxy

namespace Users

open Proxy

def names (users : List GSUser) : List GoString := users.map (·.user)

theorem mem_names {users : List GSUser} {n : GoString} :
    n ∈ names users ↔ ∃ rec ∈ users, rec.user = n :=
  List.mem_map

theorem names_append (users users' : List GSUser) :
    names (users ++ users') = names users ++ names users' :=
  List.map_append

theorem names_saved (users : List GSUser) :
    names (users.map GSUser.saved) = (names users).map jsonText := by
  rw [names, names, List.map_map, List.map_map]
  rfl

theorem names_filter_sublist (users : List GSUser) (p : GSUser → Bool) :
    (names (users.filter p)).Sublist (names users) :=
  List.filter_sublist.map _

theorem names_withUser (username : GoString) {f : GSUser → GSUser}
    (hf : ∀ rec, (f rec).user = rec.user) (users : List GSUser) :
    names (withUser username f users) = names users := by
  rw [names, names, withUser, List.map_map]
  refine List.map_congr_left fun rec _ => ?_
  simp only [Function.comp_apply]
  split
  · exact hf rec
  · rfl

theorem names_set {users : List GSUser} {i : Nat} {rec rec' : GSUser}
    (hrec : users[i]? = some rec) (hname : rec'.user = rec.user) :
    names (users.set i rec') = names users := by
  obtain ⟨hi, rfl⟩ := List.getElem?_eq_some_iff.mp hrec
  have hself := @List.set_getElem_self _ (names users) i (by simpa [names] using hi)
  simp only [names, List.getElem_map, List.map_set, hname] at hself ⊢
  exact hself

theorem notMem_names_of_any {users : List GSUser} {n : GoString}
    (h : ¬ users.any (·.user = n) = true) : n ∉ names users := by
  intro hmem
  obtain ⟨rec, hrec, hname⟩ := mem_names.mp hmem
  exact h (List.any_eq_true.mpr ⟨rec, hrec, decide_eq_true hname⟩)

/-! ## What the operations keep -/

/-- A property of names that every operation keeps, where the names that the
runtime adds are `new`. -/
structure NameRule (Q : List GoString → Prop) (new : GoString → Prop) : Prop where
  saved : ∀ {l}, Q l → Q (l.map jsonText)
  sublist : ∀ {l l'}, l'.Sublist l → Q l → Q l'
  lowered : ∀ {l} table {s : GoString}, Q l → s ≠ [] → toLower table s ∉ l →
    Q (l ++ [toLower table s])
  added : ∀ {l n}, Q l → new n → n ≠ [] → n ∉ l → Q ((l ++ [n]).map jsonText)

/-- A property of the names in every copy. -/
structure GSRuntime.Names (Q : List GoString → Prop) (rt : GSRuntime) : Prop where
  authUsers : Q (names rt.authUsers)
  gsSettings : Q (names rt.gsSettings)
  webSettings : Q (names rt.webSettings)
  file : Q (names rt.file)

/-- The name that an operation of the runtime may add. -/
def Op.Adds (new : GoString → Prop) : Op → Prop
  | .addUser user _ => new user
  | .updateUser _ data => new data.user
  | _ => True

theorem Op.adds_any (op : Op) : op.Adds fun _ => True := by
  cases op with
  | _ => trivial

namespace GSRuntime.Names

variable {Q : List GoString → Prop} {new : GoString → Prop} {rt : GSRuntime}

theorem withAuthUsers (h : rt.Names Q) {users : List GSUser} (hu : Q (names users)) :
    GSRuntime.Names Q { rt with authUsers := users } :=
  ⟨hu, h.gsSettings, h.webSettings, h.file⟩

theorem updateSettings (h : rt.Names Q) {users : List GSUser}
    (hu : Q ((names users).map jsonText)) : (rt.updateSettings users).Names Q := by
  have hsaved : Q (names (users.map GSUser.saved)) := by rwa [names_saved]
  refine ⟨h.authUsers, hsaved, ?_, hsaved⟩
  unfold GSRuntime.updateSettings
  dsimp only
  split
  · exact hsaved
  · exact h.webSettings

theorem updateWebSettings (hQ : NameRule Q new) (h : rt.Names Q) {users : List GSUser}
    (hu : Q (names users)) : (rt.updateWebSettings users).Names Q := by
  have hsaved : Q (names (users.map GSUser.saved)) := by
    rw [names_saved]
    exact hQ.saved hu
  refine ⟨h.authUsers, ?_, hsaved, hsaved⟩
  unfold GSRuntime.updateWebSettings
  dsimp only
  split
  · exact hsaved
  · exact h.gsSettings

theorem loadUsers (h : rt.Names Q) : rt.loadUsers.Names Q := h.withAuthUsers h.gsSettings

theorem init (h : rt.Names Q) : rt.init.Names Q := ⟨h.file, h.file, h.webSettings, h.file⟩

theorem gsUserDataSaver (hQ : NameRule Q new) (h : rt.Names Q) : rt.gsUserDataSaver.Names Q :=
  h.updateSettings (hQ.saved h.authUsers)

theorem updatePassword (hQ : NameRule Q new) (h : rt.Names Q) (username password : GoString) :
    (rt.updatePassword username password).Names Q := by
  have hset : Q (names (withUser username (fun rec => { rec with pass := password })
      rt.authUsers)) := by
    rw [names_withUser]
    · exact h.authUsers
    · exact fun _ => rfl
  exact (gsUserDataSaver hQ (h.withAuthUsers hset)).init

theorem addUser (hQ : NameRule Q new) (h : rt.Names Q) {user : GoString} (hnew : new user)
    (pass : GoString) : (rt.addUser user pass).1.Names Q := by
  unfold GSRuntime.addUser
  split
  · exact h
  rename_i htaken
  split
  · exact h
  rename_i hlen
  refine (h.updateSettings ?_).loadUsers
  have hne : user ≠ [] := fun hnil => hlen (.inl (by rw [hnil]; rfl))
  rw [names_append]
  exact hQ.added h.authUsers hnew hne (notMem_names_of_any htaken)

theorem updateUserAt (hQ : NameRule Q new) {acc : GSRuntime × Bool} (h : acc.1.Names Q)
    (username : GoString) (data : GSUserPublic) (i : Nat) :
    (updateUserAt username data acc i).1.Names Q := by
  unfold GSRuntime.updateUserAt
  split
  · exact h
  rename_i rec hrec
  split
  · have hset : Q (names (acc.1.authUsers.set i { rec with allowAccess := data.allowAccess })) := by
      rw [names_set hrec]
      · exact h.authUsers
      · rfl
    dsimp only
    split
    · exact updatePassword hQ (h.withAuthUsers hset) data.user data.password
    · exact h.withAuthUsers hset
  · exact h

theorem updateUserLoop (hQ : NameRule Q new) (username : GoString) (data : GSUserPublic)
    (is : List Nat) (acc : GSRuntime × Bool) (h : acc.1.Names Q) :
    (is.foldl (GSRuntime.updateUserAt username data) acc).1.Names Q := by
  induction is generalizing acc with
  | nil => exact h
  | cons i is ih => exact ih _ (updateUserAt hQ h username data i)

theorem updateUser (hQ : NameRule Q new) (h : rt.Names Q) (username : GoString)
    {data : GSUserPublic} (hnew : new data.user) : (rt.updateUser username data).Names Q := by
  have hloop : ((List.range rt.authUsers.length).foldl (GSRuntime.updateUserAt username data)
      (rt, false)).1.Names Q := updateUserLoop hQ username data _ _ h
  unfold GSRuntime.updateUser
  dsimp only
  split
  · exact gsUserDataSaver hQ hloop
  · exact gsUserDataSaver hQ (addUser hQ hloop hnew data.password)

end GSRuntime.Names

section Apply

variable {Q : List GoString → Prop} {new : GoString → Prop}

theorem NameRule.create (hQ : NameRule Q new) {env : Env} {input : UserInputJsonSingle}
    {existing users : List GSUser} (h : Q (names existing))
    (hc : gsApiUserCreate env input existing = .ok users) : Q (names users) := by
  unfold gsApiUserCreate at hc
  split at hc
  · cases hc
  rename_i hvalid
  split at hc
  · cases hc
  rename_i htaken
  cases hc
  have hne : input.username ≠ [] := by
    intro hnil
    rw [validateUserInputJsonSingle, hnil] at hvalid
    exact hvalid rfl
  rw [names_append]
  exact hQ.lowered env.lowerTable h hne (notMem_names_of_any htaken)

theorem names_gsApiUserPUT {input : UserInputJsonSingle} {existing users : List GSUser}
    (hp : gsApiUserPUT input existing = .ok users) : names users = names existing := by
  unfold gsApiUserPUT at hp
  split at hp
  · cases hp
  cases hp
  refine names_withUser input.username (fun rec => ?_) existing
  unfold putUser
  split
  · rfl
  · rfl

theorem NameRule.apply (hQ : NameRule Q new) {env : Env} {rt : GSRuntime} {op : Op}
    (h : rt.Names Q) (hop : op.Adds new) : (rt.apply env op).Names Q := by
  cases op with
  | create input =>
      rw [GSRuntime.apply]
      split
      · rename_i users hc
        exact h.updateWebSettings hQ (hQ.create h.webSettings hc)
      · exact h
  | put input =>
      rw [GSRuntime.apply]
      split
      · rename_i users hp
        exact h.updateWebSettings hQ (by rw [names_gsApiUserPUT hp]; exact h.webSettings)
      · exact h
  | delete username =>
      exact h.updateWebSettings hQ (hQ.sublist (names_filter_sublist _ _) h.webSettings)
  | addUser user pass => exact h.addUser hQ hop pass
  | updateUser username data => exact h.updateUser hQ username hop
  | updatePassword username password => exact h.updatePassword hQ username password
  | removeUser username =>
      exact (h.withAuthUsers (hQ.sublist (names_filter_sublist _ _) h.authUsers)).gsUserDataSaver hQ
  | updateUserData username data =>
      refine h.withAuthUsers ?_
      rw [names_withUser]
      · exact h.authUsers
      · exact fun _ => rfl
  | save => exact h.gsUserDataSaver hQ
  | reload => exact h.init
  | webKey => exact ⟨h.authUsers, h.gsSettings, h.webSettings, h.webSettings⟩
  | settingsKey => exact ⟨h.authUsers, h.gsSettings, h.webSettings, h.gsSettings⟩
  | restart => exact ⟨h.file, h.file, h.file, h.file⟩
  | request p hd r => exact h

theorem NameRule.of_reach (hQ : NameRule Q new) (hinit : Q (names defaultUsers)) {env : Env}
    {page : GoString} {ok : Gateway → Op → Prop} (hok : ∀ {g op}, ok g op → op.Adds new)
    {g : Gateway} (hr : Reach (Gateway.step env page) ok .initial g) : g.runtime.Names Q := by
  refine @Reach.invariant _ _ _ _ _ _ (fun g : Gateway => g.runtime.Names Q)
    ⟨hinit, hinit, hinit, hinit⟩ (fun h hop hs => ?_) hr
  obtain rfl := Option.some.inj hs
  exact hQ.apply h (hok hop)

end Apply

/-! ## Text, and distinct names -/

def TextNames (l : List GoString) : Prop := ∀ n ∈ l, Utf8 n

theorem TextNames.map_jsonText {l : List GoString} (h : TextNames l) : l.map jsonText = l :=
  (List.map_congr_left h).trans (List.map_id l)

theorem TextNames.append {l : List GoString} (h : TextNames l) {n : GoString} (hn : Utf8 n) :
    TextNames (l ++ [n]) := by
  intro m hm
  obtain hm | hm := List.mem_append.mp hm
  · exact h m hm
  · rwa [List.mem_singleton.mp hm]

/-- A name that is stored is text, whatever it was. -/
theorem rule_text : NameRule TextNames fun _ => True where
  saved h := by rwa [h.map_jsonText]
  sublist hsub h n hn := h n (hsub.subset hn)
  lowered table s h _ _ := h.append (jsonText_toLower table s)
  added _ _ _ _ := by
    intro n hn
    obtain ⟨m, -, rfl⟩ := List.mem_map.mp hn
    exact jsonText_idem m

structure Distinct (l : List GoString) : Prop where
  nodup : l.Nodup
  nonempty : [] ∉ l

theorem Distinct.append {l : List GoString} (h : Distinct l) {n : GoString} (hne : n ≠ [])
    (hn : n ∉ l) : Distinct (l ++ [n]) := by
  refine ⟨?_, ?_⟩
  · rw [List.nodup_append]
    refine ⟨h.nodup, List.nodup_singleton n, fun a ha b hb hab => ?_⟩
    rw [List.mem_singleton.mp hb] at hab
    exact hn (hab ▸ ha)
  · rw [List.mem_append, List.mem_singleton, not_or]
    exact ⟨h.nonempty, fun hnil => hne hnil.symm⟩

/-- Without text, two names could be stored as one. -/
theorem rule_distinct : NameRule (fun l => Distinct l ∧ TextNames l) Utf8 where
  saved h := by rwa [h.2.map_jsonText]
  sublist hsub h :=
    ⟨⟨h.1.nodup.sublist hsub, fun hmem => h.1.nonempty (hsub.subset hmem)⟩,
      rule_text.sublist hsub h.2⟩
  lowered table s h hs hn :=
    ⟨h.1.append (toLower_ne_nil table hs) hn, h.2.append (jsonText_toLower table s)⟩
  added h hnew hne hn := by
    have htext := h.2.append hnew
    rw [htext.map_jsonText]
    exact ⟨h.1.append hne hn, htext⟩

/-- The texts that an operation is given are valid UTF-8. -/
def Op.Utf8Args : Op → Prop
  | .create input => Utf8 input.username ∧ Utf8 input.password
  | .put input => Utf8 input.username ∧ Utf8 input.password
  | .delete username => Utf8 username
  | .addUser user pass => Utf8 user ∧ Utf8 pass
  | .updateUser username data => Utf8 username ∧ Utf8 data.user ∧ Utf8 data.password
  | .updatePassword username password => Utf8 username ∧ Utf8 password
  | .removeUser username => Utf8 username
  | .updateUserData username _ => Utf8 username
  | _ => True

theorem Op.Utf8Args.adds {op : Op} (h : op.Utf8Args) : op.Adds Utf8 := by
  cases op with
  | addUser user pass => exact h.1
  | updateUser username data => exact h.2.1
  | _ => trivial

theorem distinct_defaultUsers : Distinct (names defaultUsers) ∧ TextNames (names defaultUsers) := by
  refine ⟨⟨List.nodup_singleton _, by decide⟩, fun n hn => ?_⟩
  rw [List.mem_singleton.mp hn]
  exact utf8_of_all (by decide)

/-- **Unique names.** After every sequence of operations with texts that are
valid UTF-8, and also after any number of rounds of an `UpdateUser`, each of
the four copies of the list has no name twice and none that is empty. -/
theorem names_unique {env : Env} {page : GoString} {g : Gateway}
    (hr : Reach (Gateway.step env page) (fun _ op => op.Utf8Args) .initial g) :
    g.runtime.Names Distinct ∧ ∀ username data n,
      ((List.range n).foldl (GSRuntime.updateUserAt username data)
        (g.runtime, false)).1.Names Distinct := by
  have hnames := rule_distinct.of_reach distinct_defaultUsers Op.Utf8Args.adds hr
  have hmono : ∀ {rt : GSRuntime}, rt.Names (fun l => Distinct l ∧ TextNames l) →
      rt.Names Distinct := fun h =>
    ⟨h.authUsers.1, h.gsSettings.1, h.webSettings.1, h.file.1⟩
  refine ⟨hmono hnames, fun username data n => ?_⟩
  exact hmono (GSRuntime.Names.updateUserLoop rule_distinct username data (List.range n) _ hnames)

def withCarol : Gateway :=
  ⟨(GSRuntime.start defaultUsers).apply exampleEnv (.addUser (lit "carol") (lit "pw")), ∅⟩

theorem names_unique_carol :
    names withCarol.runtime.file = [lit "guest", lit "carol"]
      ∧ withCarol.runtime.Names Distinct := by
  have hutf8 : Utf8 (lit "carol") ∧ Utf8 (lit "pw") :=
    ⟨utf8_of_all (by decide), utf8_of_all (by decide)⟩
  have hreach : Reach (Gateway.step exampleEnv []) (fun _ op => op.Utf8Args) .initial withCarol :=
    .next (a := .addUser (lit "carol") (lit "pw")) .init hutf8 rfl
  exact ⟨by decide +kernel, (names_unique hreach).1⟩

end Users

end RbiProxy
