import RbiProxy.DnsEntries

/-!
# The settings behind the admin API

The admin's account and the custom DNS entries are kept as JSON in the store of the web
server. `GetAdminUser` and `GetAdminPassword` decode the account from `general_settings`
whenever somebody logs in. `GSApiSettingsPOST` replaces that text: by what was sent, if a
password is in it, or else by an encoding of what was sent with the old password.

`Config` is the account and the entries without the texts. `config_calls` says that the
requests do to the texts what `Config.accept` does to the values, for any sequence of
requests: the account has the name that was sent last and the password that was sent last
and is not empty.
-/

namespace RbiProxy

namespace Admin

open Json Users

/-! ## Requests -/

/-- A request to one of the endpoints that store something. -/
inductive Call where
  | api (r : Request)
  | createUser (body : GoString)
  | putUser (body : GoString)
  | deleteUser (username : GoString)
  | customEntries (body : GoString)

/-- What the web server has stored, with `DNS_custom_entries` of its own store. -/
structure Store where
  core : State
  entries : GoString

def setInput (u : UserInputJsonSingle) (name : GoString) (v : Value) :
    UserInputJsonSingle × Bool :=
  if name = lit "username" then
    ({ u with username := (decodeString u.username v).1 }, (decodeString u.username v).2)
  else if name = lit "password" then
    ({ u with password := (decodeString u.password v).1 }, (decodeString u.password v).2)
  else ({ u with allowAccess := (decodeBool u.allowAccess v).1 }, (decodeBool u.allowAccess v).2)

def decodeInput : Value → UserInputJsonSingle × Bool :=
  decodeStruct [lit "username", lit "password", lit "allowaccess"] true setInput ⟨[], [], false⟩

/-- The end of the three user handlers, and `Reload`. -/
def State.saveUsers (st : State) : Except GoString (List GSUser) → State
  | .ok users =>
    State.reload { st with
      users := st.users.updateWebSettings users
      general := { st.general with file := st.general.web } }
  | .error _ => st.reload

namespace Store

variable (env : Proxy.Env)

/-- The handlers. `pass` is the password that `GSApiSettingsPOST` has read. -/
def handleWith (pass : GoString) (st : Store) : Call → Store
  | .api r => { st with core := Admin.handleWith pass st.core r }
  | .createUser body =>
    let (input, ok) := parseJSONRequest decodeInput ⟨[], [], false⟩ body
    if ok then
      { st with
        core := st.core.saveUsers (gsApiUserCreate env input st.core.users.webSettings) }
    else st
  | .putUser body =>
    let (input, ok) := parseJSONRequest decodeInput ⟨[], [], false⟩ body
    if ok then
      { st with core := st.core.saveUsers (gsApiUserPUT input st.core.users.webSettings) }
    else st
  | .deleteUser username =>
    { st with
      core := st.core.saveUsers (.ok (gsApiUserDELETE username st.core.users.webSettings)) }
  | .customEntries body =>
    let (entries, ok) := parseJSONRequest (Dns.decodeCustomEntries true) none body
    if ok then
      match Dns.gsApiDNSSaveEntriesCustom entries with
      | .ok saved => ⟨st.core.updateWebKey.reload, jsonText saved⟩
      | .error _ => { st with core := st.core.reload }
    else st

/-- A request that nothing comes between. -/
def handle (st : Store) (c : Call) : Store :=
  st.handleWith env (getAdminPassword st.core.general.web) c

end Store

/-! ## The account -/

def getAdminUser (text : GoString) : GoString := (unmarshal decodeGeneral {} text).1.adminUser

def GeneralSettings.Text (g : GeneralSettings) : Prop :=
  Utf8 g.logLocation ∧ Utf8 g.adminPassword ∧ Utf8 g.adminUser

def GeneralSettings.fields (g : GeneralSettings) : List (GoString × GoString) :=
  [(lit "log_location", g.logLocation), (lit "admin_password", g.adminPassword),
    (lit "admin_username", g.adminUser)]

section Account

variable {g : GeneralSettings}

theorem generalText_eq (g : GeneralSettings) : generalText g = objectText g.fields := by
  have hlog : lit "\x7b\"log_location\":" = 123 :: quote (lit "log_location") ++ [58] := by
    decide +kernel
  have hpass : lit ",\"admin_password\":" = 44 :: quote (lit "admin_password") ++ [58] := by
    decide +kernel
  have huser : lit ",\"admin_username\":" = 44 :: quote (lit "admin_username") ++ [58] := by
    decide +kernel
  have hend : lit "\x7d" = [125] := by decide
  rw [generalText, hlog, hpass, huser, hend]
  simp [objectText, GeneralSettings.fields, membersText, memberText]

theorem text_setGeneral (g : GeneralSettings) (name : GoString) (v : Value) (h : g.Text) :
    (g.set name v).1.Text := by
  unfold GeneralSettings.set
  split
  · exact ⟨utf8_decodeString h.1 v, h.2⟩
  split
  · exact ⟨h.1, utf8_decodeString h.2.1 v, h.2.2⟩
  · exact ⟨h.1, h.2.1, utf8_decodeString h.2.2 v⟩

theorem text_unmarshal (text : GoString) : (unmarshal decodeGeneral {} text).1.Text := by
  have hempty : GeneralSettings.Text {} :=
    ⟨utf8_of_all rfl, utf8_of_all rfl, utf8_of_all rfl⟩
  unfold unmarshal
  split
  · exact decodeStruct_keeps text_setGeneral hempty _
  · exact hempty

/-- The general settings are read back as they were written. -/
theorem unmarshal_generalText (h : g.Text) :
    unmarshal decodeGeneral {} (generalText g) = (g, true) := by
  have hlog : jsonText (lit "log_location") = lit "log_location" := by decide +kernel
  have hpass : jsonText (lit "admin_password") = lit "admin_password" := by decide +kernel
  have huser : jsonText (lit "admin_username") = lit "admin_username" := by decide +kernel
  have hpassLog : lit "admin_password" ≠ lit "log_location" := by decide
  have huserLog : lit "admin_username" ≠ lit "log_location" := by decide
  have huserPass : lit "admin_username" ≠ lit "admin_password" := by decide
  have hvalue := value_object g.fields
  rw [unmarshal, ← valueOf, generalText_eq, hvalue]
  change decodeGeneral (objectValue g.fields) = (g, true)
  rw [objectValue, decodeGeneral, decodeStruct, GeneralSettings.fields,
    decodeFields_cons (by simp) hlog, decodeFields_cons (by simp) hpass,
    decodeFields_cons (by simp) huser]
  simp only [GeneralSettings.set, if_neg hpassLog, if_neg huserLog, if_neg huserPass, if_true,
    decodeString_quoteBody, decodeFields, List.map_nil, List.foldl_nil, Bool.and_true]
  rw [h.1, h.2.1, h.2.2]

/-- The value of a settings request is valid UTF-8. -/
theorem utf8_value (body : GoString) :
    Utf8 (parseJSONRequest decodeSettings {} body).1.value := by
  have hset : ∀ (d : SettingsReceiver) (name : GoString) (v : Value), Utf8 d.value →
      Utf8 (d.set name v).1.value := by
    intro d name v h
    unfold SettingsReceiver.set
    split
    · exact h
    · exact utf8_decodeString h v
  unfold parseJSONRequest
  split
  · exact decodeStruct_keeps hset (utf8_of_all rfl) _
  · exact utf8_of_all rfl

/-- What the stored text has for an account once a request has been handled. -/
theorem account_newGeneralWith {pass value : GoString} (hpass : Utf8 pass) (hvalue : Utf8 value) :
    getAdminUser (jsonText (newGeneralWith pass value))
        = (unmarshal decodeGeneral {} value).1.adminUser
      ∧ getAdminPassword (jsonText (newGeneralWith pass value))
        = if (unmarshal decodeGeneral {} value).1.adminPassword ≠ [] then
            (unmarshal decodeGeneral {} value).1.adminPassword
          else pass := by
  have htext := text_unmarshal value
  unfold newGeneralWith
  generalize hparsed : (unmarshal decodeGeneral {} value).1 = parsed at htext
  by_cases hnew : parsed.adminPassword ≠ []
  · rw [if_pos hnew, if_pos hnew, hvalue, getAdminUser, getAdminPassword, hparsed]
    exact ⟨rfl, rfl⟩
  · have hread := unmarshal_generalText (g := { parsed with adminPassword := pass })
      ⟨htext.1, hpass, htext.2.2⟩
    have hutf8 : Utf8 (generalText { parsed with adminPassword := pass }) := by
      rw [generalText_eq]
      exact utf8_object _
    rw [if_neg hnew, if_neg hnew, hutf8, getAdminUser, getAdminPassword, hread]
    exact ⟨rfl, rfl⟩

end Account

/-! ## Requests that leave the account as it is -/

section Kept

variable {st : State}

theorem web_removeUnnamed (users : List GSUserPublic) (names : List GoString) (st : State) :
    (names.foldl (removeUnnamed users) st).general.web = st.general.web := by
  induction names generalizing st with
  | nil => rfl
  | cons name names ih =>
    rw [List.foldl_cons, ih]
    unfold removeUnnamed
    split <;> rfl

theorem web_updateUsers (users : List GSUserPublic) (st : State) :
    (users.foldl State.updateUser st).general.web = st.general.web := by
  induction users generalizing st with
  | nil => rfl
  | cons u users ih => rw [List.foldl_cons, ih]; rfl

theorem web_saveUsers (users : Except GoString (List GSUser)) :
    (st.saveUsers users).general.web = st.general.web := by
  cases users <;> rfl

/-- Only a request for `general_settings` changes them. -/
theorem web_handleWith (pass : GoString) {r : Request}
    (h : ∀ id body, r = .settings id body →
      ¬ ((parseJSONRequest decodeSettings {} body).2 = true ∧ id = generalSettings)) :
    (handleWith pass st r).general.web = st.general.web := by
  cases r with
  | filters id body => rfl
  | settings id body =>
    have hnot := h id body rfl
    simp only [handleWith]
    split
    · rename_i hok
      have hid : id ≠ generalSettings := fun hid => hnot ⟨hok, hid⟩
      rw [gsApiSettingsPOST, if_neg hid]
      split <;> rfl
    · rfl
  | consumption body =>
    simp only [handleWith]
    split
    · rw [gsApiConsumptionPOST, web_updateUsers, web_removeUnnamed]
      rfl
    · rfl

end Kept

/-! ## The configuration -/

/-- What is stored, without the texts. -/
structure Config where
  user : GoString
  pass : GoString
  entries : List Dns.DNSCustomEntry

def Store.config (st : Store) : Config where
  user := getAdminUser st.core.general.web
  pass := getAdminPassword st.core.general.web
  entries := Dns.readEntries st.entries

/-- What a request for `general_settings` says of the account. -/
def Call.account : Call → Option GeneralSettings
  | .api (.settings id body) =>
    let (temp, ok) := parseJSONRequest decodeSettings {} body
    if ok ∧ id = generalSettings then some (unmarshal decodeGeneral {} temp.value).1 else none
  | _ => none

def Call.entries : Call → Option (List Dns.DNSCustomEntry)
  | .customEntries body => Dns.accepted body
  | _ => none

/-- What a request is to do, if the password it has read is `pass`. -/
def Config.acceptWith (pass : GoString) (c : Config) (call : Call) : Config where
  user := (call.account.map (·.adminUser)).getD c.user
  pass := (call.account.map fun g => if g.adminPassword ≠ [] then g.adminPassword else pass).getD
    c.pass
  entries := call.entries.getD c.entries

def Config.accept (c : Config) (call : Call) : Config := c.acceptWith c.pass call

section Calls

variable {env : Proxy.Env}

theorem utf8_getAdminPassword (text : GoString) : Utf8 (getAdminPassword text) :=
  (text_unmarshal text).2.1

theorem config_of_web {st st' : Store} (hweb : st'.core.general.web = st.core.general.web)
    (hentries : st'.entries = st.entries) : st'.config = st.config := by
  rw [Store.config, Store.config, hweb, hentries]

/-- The custom entries are stored as in `Dns.postCustomEntries`. -/
theorem customEntries_eq (env : Proxy.Env) (pass : GoString) (st : Store) (body : GoString) :
    (st.handleWith env pass (.customEntries body)).core.general.web = st.core.general.web
      ∧ (st.handleWith env pass (.customEntries body)).entries
        = Dns.postCustomEntries st.entries body := by
  unfold Dns.postCustomEntries
  simp only [Store.handleWith]
  split
  · cases Dns.gsApiDNSSaveEntriesCustom
        (parseJSONRequest (Dns.decodeCustomEntries true) none body).1 with
    | ok saved => exact ⟨rfl, rfl⟩
    | error => exact ⟨rfl, rfl⟩
  · exact ⟨rfl, rfl⟩

theorem config_handleWith {pass : GoString} (hpass : Utf8 pass) (st : Store) (call : Call) :
    (st.handleWith env pass call).config = st.config.acceptWith pass call := by
  cases call with
  | api r =>
    cases r with
    | filters | consumption =>
      exact config_of_web (web_handleWith pass (fun _ _ h => (by cases h))) rfl
    | settings id body =>
      simp only [Config.acceptWith, Call.account, Call.entries]
      split
      · rename_i hchange
        obtain ⟨hok, hid⟩ := hchange
        have haccount := account_newGeneralWith hpass (utf8_value body)
        simp only [Store.handleWith, handleWith, hok, if_true, gsApiSettingsPOST, if_pos hid,
          Option.map_some, Option.getD_some, Option.getD_none]
        exact congrArg₂ (fun user pass => Config.mk user pass st.config.entries) haccount.1
          haccount.2
      · rename_i hkept
        refine config_of_web (web_handleWith pass fun id' body' heq => ?_) rfl
        obtain ⟨rfl, rfl⟩ := Request.settings.inj heq
        exact hkept
  | createUser | putUser =>
    simp only [Store.handleWith]
    split
    · exact config_of_web (web_saveUsers _) rfl
    · rfl
  | deleteUser => exact config_of_web (web_saveUsers _) rfl
  | customEntries body =>
    obtain ⟨hweb, hentries⟩ := customEntries_eq env pass st body
    rw [Store.config, hweb, hentries, Dns.readEntries_post]
    rfl

/-- **Any sequence of requests does to the stored texts what is to be done to the values.** -/
theorem config_calls (st : Store) (calls : List Call) :
    (calls.foldl (Store.handle env) st).config = calls.foldl Config.accept st.config := by
  induction calls generalizing st with
  | nil => rfl
  | cons call calls ih =>
    have hone : (st.handle env call).config = st.config.accept call :=
      config_handleWith (utf8_getAdminPassword _) st call
    rw [List.foldl_cons, ih, hone]
    rfl

end Calls

end Admin

end RbiProxy
