import RbiProxy.GoMap
import RbiProxy.Reach

/-!
# The settings file and its two stores

`storage.go`, and who uses it: a `MapStore` keeps the whole settings file in
memory, and each `Update` writes all of it back. The web server keeps the
store it was started with, while every `R.Init` loads a new one into
`R.GSSettings`. Until the first `Init` after the start both names stand for
one store; from then on either of them may lag behind the file.

Keys and values are `String`s: the source only writes literals, the output
of `json.Marshal`, and strings that came out of `json.Unmarshal`, and such
text goes through the JSON of the file unchanged. `written` is the store as
it should be, every key with the value that was written last.

`settings_coherent_iff` compares the two step by step: the file stays equal
to `written` along a run exactly when no `Update` goes through a store that
disagrees with the file about another key.
-/

namespace RbiProxy

namespace Settings

/-- What a `MapStore` holds, decoded. -/
abbrev Entries := GoMap String String

/-- The store of the web server, the one in `R.GSSettings`, whether they are
the same, and the file. -/
structure Stores where
  web : Entries
  gsSettings : Entries
  shared : Bool
  file : Entries
  written : Entries

/-- When the web server is started: it gets `R.GSSettings`, which holds what
the file holds. -/
def start (file : Entries) : Stores := ⟨file, file, true, file, file⟩

/-- `MapStore.Update` through the store of the web server. -/
def updateWeb (s : Stores) (key value : String) : Stores :=
  let data := s.web.insert key value
  { s with web := data, gsSettings := if s.shared then data else s.gsSettings, file := data
           written := s.written.insert key value }

/-- `MapStore.Update` through `R.GSSettings`. -/
def updateSettings (s : Stores) (key value : String) : Stores :=
  let data := s.gsSettings.insert key value
  { s with gsSettings := data, web := if s.shared then data else s.web, file := data
           written := s.written.insert key value }

/-- `MapStore.SetDefault` through `R.GSSettings`: a write if the key is not
there. -/
def setDefault (s : Stores) (entry : String × String) : Stores :=
  match s.gsSettings.lookup entry.1 with
  | some _ => s
  | none => updateSettings s entry.1 entry.2

/-- The defaults before the version is written. -/
def defaults (version : String) : List (String × String) :=
  [("strictness", "2000"),
   ("general_settings", "\x7b\"log_location\": \"./log.db\", \"admin_password\": \"admin\", "
      ++ "\"admin_username\": \"admin\" \x7d"),
   ("blocktimes", "\x7b\"fromhours\":0,\"tohours\":0,\"fromminutes\":58,\"tominutes\":59\x7d"),
   ("authusers", "[\x7b\"username\": \"guest\", \"password\": \"\",\"Base64String\":"
      ++ "\"Z3Vlc3Q6cGFzc3dvcmQ=\", \"allowaccess\": true, \"dataconsumed\": 0 \x7d]"),
   ("EnableUsers", "false"), ("NonAlives", "0"), ("Noheartbeat", "0"), ("Noheartbeatmessage", ""),
   ("timezone", "Europe/Oslo"), ("enable_https_filtering", "false"), ("enable_dns_server", "true"),
   ("idemail", ""), ("enable_ai_image_filtering", "false"), ("ai_scanner_url", ""),
   ("version", version)]

/-- The long texts among the defaults: the certificate, its key and the
block lists, with the version of the application. -/
structure Texts where
  version : String
  capem : String
  keypem : String
  dnsCustomEntries : String

/-- `R.Init`, as far as the settings go: a new store from the file, the
defaults, and the version, whether or not it is new. -/
def init (t : Texts) (s : Stores) : Stores :=
  let s := { s with gsSettings := s.file, shared := false }
  let s := (defaults t.version).foldl setDefault s
  let s := updateSettings s "version" t.version
  [("capem", t.capem), ("keypem", t.keypem),
    ("dns_custom_entries", t.dnsCustomEntries)].foldl setDefault s

inductive Op where
  | reload
  | updateWeb (key value : String)
  | updateSettings (key value : String)

def apply (t : Texts) (s : Stores) : Op → Stores
  | .reload => init t s
  | .updateWeb key value => updateWeb s key value
  | .updateSettings key value => updateSettings s key value

/-- The file holds the last value of every key. -/
def Coherent (s : Stores) : Prop := ∀ k, s.file.lookup k = s.written.lookup k

/-- The step leaves the file coherent, and if it updates a key, it changes no
other key in the file. -/
def Sound (t : Texts) (s : Stores) (op : Op) : Prop :=
  Coherent (apply t s op) ∧
    ∀ key value, op = .updateWeb key value ∨ op = .updateSettings key value →
      ∀ k, k ≠ key → (apply t s op).file.lookup k = s.file.lookup k

/-- The store that an `Update` goes through agrees with the file about every
other key. -/
def FreshUpdate (s : Stores) : Op → Prop
  | .reload => True
  | .updateWeb key _ => ∀ k, k ≠ key → s.web.lookup k = s.file.lookup k
  | .updateSettings key _ => ∀ k, k ≠ key → s.gsSettings.lookup k = s.file.lookup k

/-! ## One write -/

/-- Writing one key into a store that the file is then made from: right
exactly when the store was up to date about the others. -/
theorem insert_coherent_iff {data file written : Entries} {key value : String}
    (hc : ∀ k, file.lookup k = written.lookup k) :
    (∀ k, (data.insert key value).lookup k = (written.insert key value).lookup k)
      ↔ ∀ k, k ≠ key → data.lookup k = file.lookup k := by
  constructor
  · intro h k hk
    have heq := h k
    rw [AList.lookup_insert_ne hk, AList.lookup_insert_ne hk] at heq
    rw [heq, hc k]
  · intro h k
    by_cases hk : k = key
    · subst hk
      rw [AList.lookup_insert, AList.lookup_insert]
    · rw [AList.lookup_insert_ne hk, AList.lookup_insert_ne hk, h k hk, hc k]

theorem insert_others {data file : Entries} {key value : String}
    (h : ∀ k, k ≠ key → data.lookup k = file.lookup k) :
    ∀ k, k ≠ key → (data.insert key value).lookup k = file.lookup k := by
  intro k hk
  rw [AList.lookup_insert_ne hk, h k hk]

/-! ## A reload -/

/-- `R.GSSettings` is a store of its own that holds the file. -/
structure Loaded (s : Stores) : Prop where
  settings : s.gsSettings = s.file
  coherent : Coherent s

theorem Loaded.update {s : Stores} (h : Loaded s) (key value : String) :
    Loaded (updateSettings s key value) where
  settings := rfl
  coherent := (insert_coherent_iff h.coherent).mpr fun k _ => by rw [h.settings]

theorem Loaded.setDefault {s : Stores} (h : Loaded s) (entry : String × String) :
    Loaded (setDefault s entry) := by
  unfold Settings.setDefault
  split
  · exact h
  · exact h.update _ _

theorem Loaded.setDefaults {s : Stores} (h : Loaded s) (entries : List (String × String)) :
    Loaded (entries.foldl Settings.setDefault s) := by
  induction entries generalizing s with
  | nil => exact h
  | cons entry rest ih => exact ih (h.setDefault entry)

/-- A reload writes through the store it has just loaded, so it loses
nothing. -/
theorem coherent_init (t : Texts) {s : Stores} (hc : Coherent s) : Coherent (init t s) := by
  have hload : Loaded { s with gsSettings := s.file, shared := false } := ⟨rfl, hc⟩
  have hversion := (hload.setDefaults (defaults t.version)).update "version" t.version
  exact (hversion.setDefaults _).coherent

/-! ## Whole runs -/

theorem sound_iff {t : Texts} {s : Stores} {op : Op} (hc : Coherent s) :
    Sound t s op ↔ FreshUpdate s op := by
  cases op with
  | reload =>
      have hinit : Coherent (apply t s .reload) := by
        simpa only [apply] using coherent_init t hc
      refine ⟨fun _ => trivial, fun _ => ⟨hinit, fun key value h => ?_⟩⟩
      obtain h | h := h
      · cases h
      · cases h
  | updateWeb key value =>
      constructor
      · intro h
        exact (insert_coherent_iff hc).mp h.1
      · intro h
        refine ⟨(insert_coherent_iff hc).mpr h, fun key' value' heq => ?_⟩
        obtain heq | heq := heq
        · cases heq
          exact insert_others h
        · cases heq
  | updateSettings key value =>
      constructor
      · intro h
        exact (insert_coherent_iff hc).mp h.1
      · intro h
        refine ⟨(insert_coherent_iff hc).mpr h, fun key' value' heq => ?_⟩
        obtain heq | heq := heq
        · cases heq
        · cases heq
          exact insert_others h

/-- **Settings coherence.** Along every sequence of reloads and updates
through either store, whatever the file held at the start, all steps are
sound exactly when every update goes through a store that agrees with the
file about the other keys. -/
theorem settings_coherent_iff (t : Texts) (file : Entries) (ops : List Op) :
    eachStep (apply t) (Sound t) ops (start file)
      ↔ eachStep (apply t) FreshUpdate ops (start file) :=
  eachStep_congr Coherent (fun _ _ _ h => h.1) (fun _ _ hc => sound_iff hc) ops fun _ => rfl

theorem coherent_of_sound {t : Texts} {ops : List Op} {s : Stores} (hc : Coherent s)
    (h : eachStep (apply t) (Sound t) ops s) : Coherent (ops.foldl (apply t) s) := by
  induction ops generalizing s with
  | nil => exact hc
  | cons op ops ih => exact ih h.1.1 h.2

/-- After a reload, the data saver writes the users; then the web server
writes another key. -/
def staleOps : List Op :=
  [.reload, .updateSettings "authusers" "[alice]", .updateWeb "EnableUsers" "true"]

def exampleTexts : Texts := ⟨"1.0", "", "", "[]"⟩

def exampleFile : Entries := (∅ : Entries).insert "authusers" "[]"

/-- The store of the web server still has the old users, and they are in the
file again. -/
theorem web_update_reverts_users :
    ¬ eachStep (apply exampleTexts) (Sound exampleTexts) staleOps (start exampleFile)
      ∧ (staleOps.foldl (apply exampleTexts) (start exampleFile)).file.lookup "authusers"
        = some "[]"
      ∧ (staleOps.foldl (apply exampleTexts) (start exampleFile)).written.lookup "authusers"
        = some "[alice]" := by
  have hfile : (staleOps.foldl (apply exampleTexts) (start exampleFile)).file.lookup "authusers"
      = some "[]" := by decide +kernel
  have hwritten : (staleOps.foldl (apply exampleTexts) (start exampleFile)).written.lookup
      "authusers" = some "[alice]" := by decide +kernel
  refine ⟨fun h => ?_, hfile, hwritten⟩
  have hcoh := coherent_of_sound (fun _ => rfl) h "authusers"
  rw [hfile, hwritten] at hcoh
  exact absurd hcoh (by decide)

end Settings

end RbiProxy
