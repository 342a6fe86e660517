import RbiProxy.FilterFiles
import RbiProxy.FilterPolicy
import RbiProxy.JsonStream
import RbiProxy.UserEdits

/-!
# Malformed requests to the admin API

Three endpoints of the web server replace something that is stored: the lines of
a filter, the general settings, and the users with their access. Each decodes the
body of the request, and two of them decode a string of it once more.

What a failed decoding leaves behind is modelled with it: the fields and elements
in front of an error and behind it are set. Where the error is not looked at, the
handler goes on with that. `malformed_kept_iff` says when this does no harm; what
counts as stored are the files, not the copies of them in memory.
-/

namespace RbiProxy

namespace Admin

open Json Policy Users

/-! ## What is sent -/

/-- `GSGeneral_Settings`. -/
structure GeneralSettings where
  logLocation : GoString := []
  adminPassword : GoString := []
  adminUser : GoString := []

/-- `Datareceiver` of the settings, without the key, which nothing reads. -/
structure SettingsReceiver where
  value : GoString := []

/-- `Datareceiver` of the consumption. -/
structure ConsumptionReceiver where
  enableUsers : Bool := false
  data : GoString := []

def GeneralSettings.set (g : GeneralSettings) (name : GoString) (v : Value) :
    GeneralSettings × Bool :=
  if name = lit "log_location" then
    ({ g with logLocation := (decodeString g.logLocation v).1 }, (decodeString g.logLocation v).2)
  else if name = lit "admin_password" then
    ({ g with adminPassword := (decodeString g.adminPassword v).1 },
      (decodeString g.adminPassword v).2)
  else ({ g with adminUser := (decodeString g.adminUser v).1 }, (decodeString g.adminUser v).2)

def decodeGeneral : Value → GeneralSettings × Bool :=
  decodeStruct [lit "log_location", lit "admin_password", lit "admin_username"] false
    GeneralSettings.set {}

/-- The key is a string too. -/
def SettingsReceiver.set (d : SettingsReceiver) (name : GoString) (v : Value) :
    SettingsReceiver × Bool :=
  if name = lit "key" then (d, (decodeString [] v).2)
  else ({ d with value := (decodeString d.value v).1 }, (decodeString d.value v).2)

def decodeSettings : Value → SettingsReceiver × Bool :=
  decodeStruct [lit "key", lit "value"] true SettingsReceiver.set {}

def ConsumptionReceiver.set (d : ConsumptionReceiver) (name : GoString) (v : Value) :
    ConsumptionReceiver × Bool :=
  if name = lit "EnableUsers" then
    ({ d with enableUsers := (decodeBool d.enableUsers v).1 }, (decodeBool d.enableUsers v).2)
  else ({ d with data := (decodeString d.data v).1 }, (decodeString d.data v).2)

def decodeConsumption : Value → ConsumptionReceiver × Bool :=
  decodeStruct [lit "EnableUsers", lit "Data"] true ConsumptionReceiver.set {}

def setLine (l : GsFilterLine) (name : GoString) (v : Value) : GsFilterLine × Bool :=
  if name = lit "Content" then
    ({ l with content := (decodeString l.content v).1 }, (decodeString l.content v).2)
  else ({ l with score := (decodeInt64 l.score v).1 }, (decodeInt64 l.score v).2)

/-- `[]GsFilterLine`. -/
def decodeLines : Value → Option (List GsFilterLine) × Bool :=
  decodeSlice (decodeStruct [lit "Content", lit "Score"] true setLine ⟨[], 0⟩) none

def setPublic (u : GSUserPublic) (name : GoString) (v : Value) : GSUserPublic × Bool :=
  if name = lit "user" then
    ({ u with user := (decodeString u.user v).1 }, (decodeString u.user v).2)
  else if name = lit "dataconsumed" then (u, fitsUint64 v)
  else if name = lit "allowaccess" then
    ({ u with allowAccess := (decodeBool u.allowAccess v).1 }, (decodeBool u.allowAccess v).2)
  else ({ u with password := (decodeString u.password v).1 }, (decodeString u.password v).2)

/-- `[]GSUserPublic`, from an empty one. -/
def decodePublic : Value → Option (List GSUserPublic) × Bool :=
  decodeSlice (decodeStruct [lit "user", lit "dataconsumed", lit "allowaccess", lit "password"]
    false setPublic ⟨[], false, []⟩) (some [])

/-- `ParseJSONRequest`: what the target holds then, and whether there was no
error. A body that ends within its first value and one with more behind it are
errors. -/
def parseJSONRequest {T : Type} (decode : Value → T × Bool) (old : T) (body : GoString) :
    T × Bool :=
  match readValue .start (.value []) body with
  | some (v, rest) => ((decode v).1, (decode v).2 && !more rest)
  | none => (old, false)

/-! ## What is stored -/

/-- `general_settings` in the two stores and in the file. -/
structure General where
  web : GoString
  gsSettings : GoString
  file : GoString

/-- The web server and what it writes. `startUsers` are the names that were in
`AuthUsers` when the server was started: its copy is not renewed. -/
structure State where
  basepath : GoString
  files : FilterFiles
  users : GSRuntime
  general : General
  startUsers : List GoString

namespace State

/-- `Init`: the filters and the users are read again, the stored settings stay. -/
def reload (st : State) : State :=
  { st with users := st.users.init, general := { st.general with gsSettings := st.general.file } }

/-- An `Update` of another key through the store of the web server, which writes
all keys. -/
def updateWebKey (st : State) : State :=
  { st with users := { st.users with file := st.users.webSettings }
            general := { st.general with file := st.general.web } }

/-- `Update("general_settings", …)` through the store of the web server. -/
def updateGeneral (st : State) (value : GoString) : State :=
  let value := jsonText value
  { st with users := { st.users with file := st.users.webSettings }
            general := ⟨value, if st.users.shared then value else st.general.gsSettings, value⟩ }

/-- `RemoveUser`, which writes all keys from `R.GSSettings`. -/
def removeUser (st : State) (username : GoString) : State :=
  { st with users := st.users.removeUser username
            general := { st.general with file := st.general.gsSettings } }

/-- `UpdateUser`. It writes from `R.GSSettings` and may load that again from what
it wrote. -/
def updateUser (st : State) (u : GSUserPublic) : State :=
  { st with users := st.users.updateUser u.user u
            general := { st.general with file := st.general.gsSettings } }

end State

/-! ## Handlers -/

def generalText (g : GeneralSettings) : GoString :=
  lit "\x7b\"log_location\":" ++ quote g.logLocation ++ lit ",\"admin_password\":"
    ++ quote g.adminPassword ++ lit ",\"admin_username\":" ++ quote g.adminUser ++ lit "\x7d"

def getAdminPassword (text : GoString) : GoString :=
  (unmarshal decodeGeneral {} text).1.adminPassword

def generalSettings : GoString := lit "general_settings"

/-- The other settings that `GSApiSettingsPOST` stores. -/
def otherSettings : List GoString :=
  [lit "dns_custom_entries", lit "enable_dns_server", lit "enable_https_filtering",
    lit "enable_ai_image_filtering", lit "ai_scanner_url", lit "EnableUsers", lit "strictness"]

/-- The text that is stored for the general settings of a request: the one that
was sent, if it comes with a password, or else what was decoded of it, with a
password that was read from the store. -/
def newGeneralWith (pass value : GoString) : GoString :=
  let parsed := (unmarshal decodeGeneral {} value).1
  if parsed.adminPassword ≠ [] then value else generalText { parsed with adminPassword := pass }

def newGeneral (st : State) (value : GoString) : GoString :=
  newGeneralWith (getAdminPassword st.general.web) value

/-- `GSApiSettingsPOST`, which has read the password `pass`. -/
def gsApiSettingsPOST (pass : GoString) (st : State) (requestedId : GoString)
    (temp : SettingsReceiver) : State :=
  if requestedId = generalSettings then st.updateGeneral (newGeneralWith pass temp.value)
  else if otherSettings.contains requestedId then st.updateWebKey
  else st

/-- The users that are decoded, in front of an error and behind it. -/
def decodedUsers (temp : ConsumptionReceiver) : List GSUserPublic :=
  ((unmarshal decodePublic (some []) temp.data).1).getD []

/-- One round of the loop over the users of the start. -/
def removeUnnamed (users : List GSUserPublic) (st : State) (name : GoString) : State :=
  if users.any (·.user = name) then st else st.removeUser name

def gsApiConsumptionPOST (st : State) (temp : ConsumptionReceiver) : State :=
  let st := st.updateWebKey
  let users := decodedUsers temp
  users.foldl State.updateUser (st.startUsers.foldl (removeUnnamed users) st)

/-- A request to one of the endpoints, with its body. -/
inductive Request where
  | filters (id body : GoString)
  | settings (id body : GoString)
  | consumption (body : GoString)

/-- The handlers of `RegisterEndpointsStartServer`. The first does not look at
the error. -/
def handleWith (pass : GoString) (st : State) : Request → State
  | .filters id body =>
    let dataReceived := (parseJSONRequest decodeLines none body).1
    State.reload { st with
      files := (postSingleFilter id dataReceived (filterFiles st.basepath) st.files).2 }
  | .settings id body =>
    let (temp, ok) := parseJSONRequest decodeSettings {} body
    if ok then (gsApiSettingsPOST pass st id temp).reload else st
  | .consumption body =>
    let (temp, ok) := parseJSONRequest decodeConsumption {} body
    if ok then gsApiConsumptionPOST st temp else st

/-- A request that nothing comes between. -/
def handle (st : State) (req : Request) : State :=
  handleWith (getAdminPassword st.general.web) st req

/-! ## Malformed requests -/

/-- A body that does not decode, or a string of it that does not. -/
def Malformed : Request → Prop
  | .filters _ body => (parseJSONRequest decodeLines none body).2 = false
  | .settings id body =>
    (parseJSONRequest decodeSettings {} body).2 = false
      ∨ id = generalSettings
        ∧ (unmarshal decodeGeneral {} (parseJSONRequest decodeSettings {} body).1.value).2 = false
  | .consumption body =>
    (parseJSONRequest decodeConsumption {} body).2 = false
      ∨ (unmarshal decodePublic (some []) (parseJSONRequest decodeConsumption {} body).1.data).2
        = false

/-- The filter files and the two stored values are the same. -/
structure Kept (st st' : State) : Prop where
  files : ∀ name, st'.files.lookup name = st.files.lookup name
  users : st'.users.file = st.users.file
  general : st'.general.file = st.general.file

/-- The stored users once the unnamed ones are removed and the others updated. -/
def editedUsers (st : State) (users : List GSUserPublic) : List GSUser :=
  users.foldl (fun stored u => editUser u stored)
    ((stored st.users).filter fun rec =>
      !(st.startUsers.contains rec.user && !users.any (·.user = rec.user)))

/-- The request does not come to a write, or what it would write is there
already. -/
def Harmless (st : State) : Request → Prop
  | .filters id body =>
    ∀ f ∈ filterFiles st.basepath, f.id = id →
      st.files.lookup f.fileName = some (fileText (parseJSONRequest decodeLines none body).1)
  | .settings _ body =>
    (parseJSONRequest decodeSettings {} body).2 = true →
      st.users.webSettings = st.users.file
      ∧ jsonText (newGeneral st (parseJSONRequest decodeSettings {} body).1.value)
        = st.general.file
  | .consumption body =>
    (parseJSONRequest decodeConsumption {} body).2 = true →
      let users := decodedUsers (parseJSONRequest decodeConsumption {} body).1
      if st.startUsers = [] ∧ users = [] then
        st.users.webSettings = st.users.file ∧ st.general.web = st.general.file
      else editedUsers st users = st.users.file ∧ st.general.gsSettings = st.general.file

/-! ## The filter files -/

theorem kept_filters_iff (st : State) (id body : GoString) :
    Kept st (handle st (.filters id body)) ↔ Harmless st (.filters id body) := by
  generalize hdata : (parseJSONRequest decodeLines none body).1 = data
  have hfiles : ∀ name, (handle st (.filters id body)).files.lookup name
      = if ∃ f ∈ filterFiles st.basepath, f.id = id ∧ f.fileName = name then some (fileText data)
        else st.files.lookup name := fun name => by
    rw [← lookup_postSingleFilter, ← hdata]
    rfl
  rw [Harmless, hdata]
  constructor
  · intro h f hf hid
    have hkept := h.files f.fileName
    rw [hfiles, if_pos ⟨f, hf, hid, rfl⟩] at hkept
    exact hkept.symm
  · refine fun h => ⟨fun name => ?_, rfl, rfl⟩
    rw [hfiles]
    split
    · rename_i hwritten
      obtain ⟨f, hf, hid, rfl⟩ := hwritten
      exact (h f hf hid).symm
    · rfl

/-! ## The settings -/

theorem kept_settings_iff (st : State) (id body : GoString) (hbad : Malformed (.settings id body)) :
    Kept st (handle st (.settings id body)) ↔ Harmless st (.settings id body) := by
  simp only [handle, handleWith, Harmless]
  cases hok : (parseJSONRequest decodeSettings {} body).2 with
  | false =>
      exact ⟨fun _ h => (by cases h), fun _ => ⟨fun _ => rfl, rfl, rfl⟩⟩
  | true =>
      obtain hbody | ⟨hid, -⟩ := hbad
      · rw [hok] at hbody
        cases hbody
      · rw [if_pos rfl, gsApiSettingsPOST, if_pos hid]
        exact ⟨fun h _ => ⟨h.users, h.general⟩, fun h => ⟨fun _ => rfl, (h rfl).1, (h rfl).2⟩⟩

/-! ## The users -/

section Users

theorem stored_removeUser {rt : GSRuntime} (h : rt.Names TextNames) (name : GoString) :
    stored (rt.removeUser name) = (stored rt).filter (·.user ≠ name) := by
  have hrun : (rt.removeUser name).authUsers = rt.authUsers.filter (·.user ≠ name) := rfl
  rw [stored, stored, hrun, List.filter_map]
  refine congrArg _ (List.filter_congr fun rec hrec => ?_)
  rw [Function.comp_apply, user_saved h.authUsers hrec]

/-- What every save of the list leaves. -/
structure Saved (st : State) (st' : State) (users : List GSUser) : Prop where
  text : st'.users.Names TextNames
  files : st'.files = st.files
  stored : stored st'.users = users
  users : st'.users.file = users
  general : st'.general.file = st.general.gsSettings
  gsSettings : st'.general.gsSettings = st.general.gsSettings

variable {st st' : State} {users : List GSUser}

theorem saved_removeUser (h : st.users.Names TextNames) (name : GoString) :
    Saved st (st.removeUser name) ((stored st.users).filter (·.user ≠ name)) where
  text :=
    (h.withAuthUsers (rule_text.sublist (names_filter_sublist _ _) h.authUsers)).gsUserDataSaver
      rule_text
  files := rfl
  stored := stored_removeUser h name
  users := stored_removeUser h name
  general := rfl
  gsSettings := rfl

theorem saved_updateUser (h : st.users.Names TextNames) (u : GSUserPublic) :
    Saved st (st.updateUser u) (editUser u (stored st.users)) where
  text := h.updateUser rule_text u.user trivial
  files := rfl
  stored := stored_updateUser u h
  users := stored_updateUser u h
  general := rfl
  gsSettings := rfl

theorem Saved.trans {st'' : State} {users' : List GSUser} (h : Saved st st' users)
    (h' : Saved st' st'' users') : Saved st st'' users' where
  text := h'.text
  files := h'.files.trans h.files
  stored := h'.stored
  users := h'.users
  general := h'.general.trans h.gsSettings
  gsSettings := h'.gsSettings.trans h.gsSettings

/-- A run of the loops: the list it comes to, and whether it was saved. -/
inductive Ran (st : State) : State → List GSUser → Bool → Prop where
  | idle (h : st.users.Names TextNames) : Ran st st (stored st.users) false
  | saved {st' : State} {users : List GSUser} (h : Saved st st' users) : Ran st st' users true

variable {b : Bool}

theorem Ran.text (h : Ran st st' users b) : st'.users.Names TextNames := by
  cases h with
  | idle h => exact h
  | saved h => exact h.text

theorem Ran.stored_eq (h : Ran st st' users b) : stored st'.users = users := by
  cases h with
  | idle h => rfl
  | saved h => exact h.stored

theorem Ran.save {st'' : State} {users' : List GSUser} (h : Ran st st' users b)
    (h' : Saved st' st'' users') : Ran st st'' users' true := by
  cases h with
  | idle _ => exact .saved h'
  | saved h => exact .saved (h.trans h')

theorem Ran.eq_of_idle (h : Ran st st' users false) : st' = st := by
  cases h
  rfl

theorem Ran.of_saved (h : Ran st st' users true) : Saved st st' users := by
  cases h with
  | saved h => exact h

theorem Ran.removeUnnamed (decoded : List GSUserPublic) (names : List GoString) :
    ∀ {st' : State} {users : List GSUser} {b : Bool}, Ran st st' users b →
      Ran st (names.foldl (removeUnnamed decoded) st')
        (users.filter fun rec => !(names.contains rec.user && !decoded.any (·.user = rec.user)))
        (b || names.any fun name => !decoded.any (·.user = name)) := by
  induction names with
  | nil =>
      intro st' users b h
      simpa using h
  | cons name names ih =>
      intro st' users b h
      rw [List.foldl_cons, List.any_cons]
      cases hnamed : decoded.any (·.user = name) with
      | true =>
          have hskip : Admin.removeUnnamed decoded st' name = st' := if_pos hnamed
          rw [hskip, Bool.not_true, Bool.false_or]
          convert ih h using 1
          refine List.filter_congr fun rec _ => ?_
          rw [List.contains_cons]
          by_cases heq : rec.user = name
          · rw [heq, hnamed, Bool.not_true, Bool.and_false, Bool.and_false]
          · rw [beq_false_of_ne heq, Bool.false_or]
      | false =>
          have hremove : Admin.removeUnnamed decoded st' name = st'.removeUser name :=
            if_neg (by rw [hnamed]; decide)
          have hsaved := h.save (saved_removeUser h.text name)
          rw [h.stored_eq] at hsaved
          have hrest := ih hsaved
          rw [Bool.true_or, List.filter_filter] at hrest
          rw [hremove, Bool.not_false, Bool.true_or, Bool.or_true]
          convert hrest using 1
          refine List.filter_congr fun rec _ => ?_
          rw [List.contains_cons]
          by_cases heq : rec.user = name
          · rw [heq, hnamed]
            simp
          · rw [beq_false_of_ne heq, Bool.false_or]
            simp [heq]

theorem Ran.updateUsers (decoded : List GSUserPublic) :
    ∀ {st' : State} {users : List GSUser} {b : Bool}, Ran st st' users b →
      Ran st (decoded.foldl State.updateUser st')
        (decoded.foldl (fun stored u => editUser u stored) users) (b || !decoded.isEmpty) := by
  induction decoded with
  | nil =>
      intro st' users b h
      simpa using h
  | cons u decoded ih =>
      intro st' users b h
      have hsaved := h.save (saved_updateUser h.text u)
      rw [h.stored_eq] at hsaved
      simpa using ih hsaved

/-- Nothing is saved when there is nobody to remove and nobody to update. -/
theorem unsaved_iff (decoded : List GSUserPublic) (names : List GoString) :
    ((names.any fun name => !decoded.any (·.user = name)) || !decoded.isEmpty) = false
      ↔ names = [] ∧ decoded = [] := by
  rw [Bool.or_eq_false_iff, Bool.not_eq_false', List.isEmpty_iff]
  refine and_congr_left fun hdecoded => ?_
  rw [hdecoded]
  simp [List.eq_nil_iff_forall_not_mem]

end Users

theorem kept_consumption_iff (st : State) (h : st.users.Names TextNames) (body : GoString) :
    Kept st (handle st (.consumption body)) ↔ Harmless st (.consumption body) := by
  simp only [handle, handleWith, Harmless]
  cases hok : (parseJSONRequest decodeConsumption {} body).2 with
  | false =>
      exact ⟨fun _ h => (by cases h), fun _ => ⟨fun _ => rfl, rfl, rfl⟩⟩
  | true =>
      rw [if_pos rfl]
      generalize (parseJSONRequest decodeConsumption {} body).1 = temp
      have hweb : st.updateWebKey.users.Names TextNames :=
        ⟨h.authUsers, h.gsSettings, h.webSettings, h.webSettings⟩
      have hran := ((Ran.idle hweb).removeUnnamed (decodedUsers temp) st.startUsers).updateUsers
        (decodedUsers temp)
      have hsaved := unsaved_iff (decodedUsers temp) st.startUsers
      rw [Bool.false_or] at hran
      cases hflag : ((st.startUsers.any fun name => !(decodedUsers temp).any (·.user = name))
          || !(decodedUsers temp).isEmpty) with
      | false =>
          have hst : gsApiConsumptionPOST st temp = st.updateWebKey := by
            rw [hflag] at hran
            exact hran.eq_of_idle
          rw [hst, if_pos (hsaved.mp hflag)]
          exact ⟨fun hk _ => ⟨hk.users, hk.general⟩,
            fun hk => ⟨fun _ => rfl, (hk rfl).1, (hk rfl).2⟩⟩
      | true =>
          have hst : Saved st.updateWebKey (gsApiConsumptionPOST st temp)
              (editedUsers st (decodedUsers temp)) := by
            rw [hflag] at hran
            exact hran.of_saved
          have hsome : ¬(st.startUsers = [] ∧ decodedUsers temp = []) := by
            rw [← hsaved, hflag]
            decide
          rw [if_neg hsome]
          exact ⟨fun hk _ => ⟨hst.users.symm.trans hk.users, hst.general.symm.trans hk.general⟩,
            fun hk => ⟨fun _ => by rw [hst.files]; rfl, hst.users.trans (hk rfl).1,
              hst.general.trans (hk rfl).2⟩⟩

/-! ## When a malformed request changes nothing -/

/-- **A malformed request leaves the filter files, the stored users and the stored
general settings as they are exactly if it is harmless.** The users are those of
any state that the gateway comes to. -/
theorem malformed_kept_iff {env : Proxy.Env} {page : GoString} {g : Gateway}
    (hr : Reach (Gateway.step env page) anyStep .initial g) {st : State}
    (hst : st.users = g.runtime) {req : Request} (hbad : Malformed req) :
    Kept st (handle st req) ↔ Harmless st req := by
  have htext : TextNames (names defaultUsers) := distinct_defaultUsers.2
  have h : st.users.Names TextNames := by
    rw [hst]
    exact rule_text.of_reach htext (fun _ => Op.adds_any _) hr
  cases req with
  | filters id body => exact kept_filters_iff st id body
  | settings id body => exact kept_settings_iff st id body hbad
  | consumption body => exact kept_consumption_iff st h body

/-- The first start, with one filter file and the settings of the source. -/
def firstStart : State :=
  let text := generalText ⟨lit "./log.db", lit "admin", lit "admin"⟩
  { basepath := lit "filterfiles/"
    files := AList.insert (lit "filterfiles/blockedsites.json") (fileText (some [])) ∅
    users := .start defaultUsers
    general := ⟨text, text, text⟩
    startUsers := [lit "guest"] }

/-- An empty body, at a filter that does not exist. -/
theorem malformed_kept_unknown :
    Malformed (.filters (lit "none") [])
      ∧ Kept firstStart (handle firstStart (.filters (lit "none") [])) := by
  have hbad : Malformed (.filters (lit "none") []) := by
    unfold Malformed
    decide
  let env : Proxy.Env := ⟨fun _ => [], fun _ => none, fun _ => [], fun r => r, []⟩
  have hr : Reach (Gateway.step env []) anyStep .initial .initial := .init
  refine ⟨hbad, (malformed_kept_iff hr rfl hbad).mpr ?_⟩
  unfold Harmless
  decide

/-- An empty body empties a filter file, a value that breaks off takes the admin's
name away, and a list that breaks off takes all users away. -/
theorem malformed_changes :
    (Malformed (.filters (lit "bTXmTXgTuXpJuOZ") [])
      ∧ (handle firstStart (.filters (lit "bTXmTXgTuXpJuOZ") [])).files.lookup
          (lit "filterfiles/blockedsites.json")
        ≠ firstStart.files.lookup (lit "filterfiles/blockedsites.json"))
    ∧ (Malformed (.settings generalSettings (lit "\x7b\"Value\":\"\x7b\"\x7d"))
      ∧ (handle firstStart
          (.settings generalSettings (lit "\x7b\"Value\":\"\x7b\"\x7d"))).general.file
        ≠ firstStart.general.file)
    ∧ Malformed (.consumption (lit "\x7b\"Data\":\"[\"\x7d"))
      ∧ (handle firstStart (.consumption (lit "\x7b\"Data\":\"[\"\x7d"))).users.file = []
      ∧ firstStart.users.file ≠ [] := by
  refine ⟨⟨?_, ?_⟩, ⟨?_, ?_⟩, ?_, ?_, ?_⟩
  · unfold Malformed
    decide
  · decide +kernel
  · unfold Malformed
    decide +kernel
  · decide +kernel
  · unfold Malformed
    decide +kernel
  · decide +kernel
  · decide

end Admin

end RbiProxy
