import RbiProxy.UserNames

/-!
# The traffic of a user

`UpdateUserData` counts the bytes of a user in `AuthUsers`. The count gets
into the settings file when the data saver runs, every five minutes, and a
reload replaces `AuthUsers` by what the file holds.

A `Meter` keeps beside the runtime what the count of one user should be. Every
operation but a reload keeps the two together, as long as the user stays
registered; a reload does exactly when the file has the count of the memory
(`UpToDate`). `traffic_conserved_iff` says this of whole runs.
-/

namespace RbiProxy

namespace Users

open Proxy

def counts (users : List GSUser) : List (GoString × UInt64) :=
  users.map fun rec => (rec.user, rec.dataConsumed)

/-- The `DataConsumed` of a user; `none` if there is no such user. -/
def consumed (users : List GSUser) (u : GoString) : Option UInt64 := (counts users).lookup u

/-- The runtime, and what one user had at the start with all that was
reported for it. -/
structure Meter where
  runtime : GSRuntime
  reported : UInt64

def reportedBy (u : GoString) : Op → UInt64
  | .updateUserData username data => if username = u then data else 0
  | _ => 0

def Meter.apply (env : Env) (u : GoString) (m : Meter) (op : Op) : Meter :=
  ⟨m.runtime.apply env op, m.reported + reportedBy u op⟩

def Meter.Registered (u : GoString) (m : Meter) : Prop := u ∈ names m.runtime.authUsers

/-- The count is the initial value with all that was reported, modulo 2^64. -/
def Meter.Accounted (u : GoString) (m : Meter) : Prop :=
  consumed m.runtime.authUsers u = some m.reported

/-- `R.Init`, or the start of the process. -/
def Op.Reloads (op : Op) : Prop := op = .reload ∨ op = .restart

/-- The step keeps the account of the user, and if it reloads the users, the
count does not go down. -/
def Conserves (env : Env) (u : GoString) (m : Meter) (op : Op) : Prop :=
  (m.apply env u op).Accounted u ∧
    (op.Reloads → ∀ a b, consumed m.runtime.authUsers u = some a →
      consumed (m.apply env u op).runtime.authUsers u = some b → a ≤ b)

/-- A reload finds the count of the memory in the file. -/
def UpToDate (u : GoString) (m : Meter) (op : Op) : Prop :=
  op.Reloads → consumed m.runtime.file u = consumed m.runtime.authUsers u

/-! ## One list -/

theorem counts_saved {users : List GSUser} (h : TextNames (names users)) :
    counts (users.map GSUser.saved) = counts users := by
  rw [counts, counts, List.map_map]
  refine List.map_congr_left fun rec hrec => ?_
  have hname : jsonText rec.user = rec.user := h _ (mem_names.mpr ⟨rec, hrec, rfl⟩)
  simp only [Function.comp_apply, GSUser.saved, hname]

theorem counts_withUser (username : GoString) {f : GSUser → GSUser} (users : List GSUser)
    (hf : ∀ rec, (f rec).user = rec.user ∧ (f rec).dataConsumed = rec.dataConsumed) :
    counts (withUser username f users) = counts users := by
  rw [counts, counts, withUser, List.map_map]
  refine List.map_congr_left fun rec _ => ?_
  simp only [Function.comp_apply]
  split
  · rw [(hf rec).1, (hf rec).2]
  · rfl

theorem counts_set {users : List GSUser} {i : Nat} {rec : GSUser} (hrec : users[i]? = some rec)
    (allow : Bool) : counts (users.set i { rec with allowAccess := allow }) = counts users := by
  obtain ⟨hi, rfl⟩ := List.getElem?_eq_some_iff.mp hrec
  have hself := @List.set_getElem_self _ (counts users) i (by simpa [counts] using hi)
  simp only [counts, List.getElem_map, List.map_set] at hself ⊢
  exact hself

theorem consumed_append {users : List GSUser} {u : GoString} {c : UInt64}
    (h : consumed users u = some c) (users' : List GSUser) :
    consumed (users ++ users') u = some c := by
  rw [consumed, counts, List.map_append, List.lookup_append]
  rw [consumed, counts] at h
  rw [h]
  rfl

theorem consumed_cons (rec : GSUser) (users : List GSUser) (u : GoString) :
    consumed (rec :: users) u = if rec.user = u then some rec.dataConsumed else consumed users u := by
  by_cases h : rec.user = u
  · simp [consumed, counts, h]
  · have hne : (u == rec.user) = false := beq_false_of_ne fun heq => h heq.symm
    simp [consumed, counts, List.lookup_cons, hne, h]

theorem consumed_filter {u username : GoString} (hne : u ≠ username) (users : List GSUser) :
    consumed (users.filter (·.user ≠ username)) u = consumed users u := by
  induction users with
  | nil => rfl
  | cons rec users ih =>
      by_cases hrec : rec.user = username
      · rw [List.filter_cons_of_neg (by simpa using hrec), ih, consumed_cons,
          if_neg fun heq => hne (heq.symm.trans hrec)]
      · rw [List.filter_cons_of_pos (by simpa using hrec), consumed_cons, consumed_cons, ih]

theorem consumed_updateUserData (u username : GoString) (data : UInt64) (users : List GSUser) :
    consumed (withUser username
        (fun rec => { rec with dataConsumed := rec.dataConsumed + data }) users) u
      = (consumed users u).map (· + reportedBy u (.updateUserData username data)) := by
  induction users with
  | nil => rfl
  | cons rec users ih =>
      have hcons : withUser username
          (fun rec => { rec with dataConsumed := rec.dataConsumed + data }) (rec :: users)
          = (if rec.user = username then { rec with dataConsumed := rec.dataConsumed + data }
              else rec) :: withUser username
                (fun rec => { rec with dataConsumed := rec.dataConsumed + data }) users := rfl
      rw [hcons, consumed_cons, consumed_cons, ih]
      by_cases hu : rec.user = u
      · by_cases hname : rec.user = username
        · rw [if_pos hname, if_pos hu, if_pos hu, reportedBy, if_pos (hname.symm.trans hu)]
          rfl
        · rw [if_neg hname, if_pos hu, if_pos hu, reportedBy,
            if_neg fun heq => hname (hu.trans heq.symm), Option.map_some, UInt64.add_zero]
      · rw [if_neg hu]
        split
        · rfl
        · rfl

theorem mem_names_of_consumed {users : List GSUser} {u : GoString} {c : UInt64}
    (h : consumed users u = some c) : u ∈ names users := by
  induction users with
  | nil => cases h
  | cons rec users ih =>
      rw [consumed_cons] at h
      split at h
      · rename_i hu
        rw [names, List.map_cons, hu]
        exact List.mem_cons_self
      · exact List.mem_cons_of_mem _ (ih h)

/-! ## One operation -/

section Step

variable {rt : GSRuntime} {u : GoString} {c : UInt64}

theorem counts_updatePassword (h : rt.Names TextNames) (username password : GoString) :
    counts (rt.updatePassword username password).authUsers = counts rt.authUsers := by
  have htext : TextNames (names (withUser username (fun rec => { rec with pass := password })
      rt.authUsers)) := by
    rw [names_withUser]
    · exact h.authUsers
    · exact fun _ => rfl
  have hfile : (rt.updatePassword username password).authUsers
      = (withUser username (fun rec => { rec with pass := password }) rt.authUsers).map
          GSUser.saved := rfl
  rw [hfile, counts_saved htext, counts_withUser]
  exact fun _ => ⟨rfl, rfl⟩

theorem counts_updateUserAt {acc : GSRuntime × Bool} (h : acc.1.Names TextNames)
    (username : GoString) (data : GSUserPublic) (i : Nat) :
    counts (GSRuntime.updateUserAt username data acc i).1.authUsers = counts acc.1.authUsers := by
  unfold GSRuntime.updateUserAt
  split
  · rfl
  rename_i rec hrec
  split
  · have hset := counts_set hrec data.allowAccess
    have htext : TextNames
        (names (acc.1.authUsers.set i { rec with allowAccess := data.allowAccess })) := by
      rw [names_set hrec]
      · exact h.authUsers
      · rfl
    dsimp only
    split
    · rw [counts_updatePassword (h.withAuthUsers htext), hset]
    · exact hset
  · rfl

theorem counts_updateUserLoop (username : GoString) (data : GSUserPublic) (is : List Nat)
    (acc : GSRuntime × Bool) (h : acc.1.Names TextNames) :
    counts (is.foldl (GSRuntime.updateUserAt username data) acc).1.authUsers
      = counts acc.1.authUsers := by
  induction is generalizing acc with
  | nil => rfl
  | cons i is ih =>
      rw [List.foldl_cons, ih _ (h.updateUserAt rule_text username data i),
        counts_updateUserAt h username data i]

theorem consumed_addUser (h : rt.Names TextNames) (hc : consumed rt.authUsers u = some c)
    (user pass : GoString) : consumed (rt.addUser user pass).1.authUsers u = some c := by
  unfold GSRuntime.addUser
  split
  · exact hc
  split
  · exact hc
  · -- what is loaded again is the old list as it was stored, with one more record
    have hold : consumed (rt.authUsers.map GSUser.saved) u = some c := by
      rw [consumed, counts_saved h.authUsers]
      exact hc
    have happend := consumed_append hold
      ([⟨user, pass, [], 0, false, false⟩].map GSUser.saved)
    rw [← List.map_append] at happend
    exact happend

theorem consumed_updateUser (h : rt.Names TextNames) (hc : consumed rt.authUsers u = some c)
    (username : GoString) (data : GSUserPublic) :
    consumed (rt.updateUser username data).authUsers u = some c := by
  have hloop := counts_updateUserLoop username data (List.range rt.authUsers.length)
    (rt, false) h
  have htext := GSRuntime.Names.updateUserLoop rule_text username data
    (List.range rt.authUsers.length) (rt, false) h
  have hc' : consumed ((List.range rt.authUsers.length).foldl
      (GSRuntime.updateUserAt username data) (rt, false)).1.authUsers u = some c := by
    rw [consumed, hloop]
    exact hc
  unfold GSRuntime.updateUser
  dsimp only
  split
  · exact hc'
  · exact consumed_addUser htext hc' data.user data.password

/-- Every operation but a reload, while the user stays registered. -/
theorem consumed_apply {env : Env} {op : Op} (h : rt.Names TextNames)
    (hc : consumed rt.authUsers u = some c) (hop : ¬ op.Reloads)
    (hstay : u ∈ names (rt.apply env op).authUsers) :
    consumed (rt.apply env op).authUsers u = some (c + reportedBy u op) := by
  have hzero : ∀ {d : Option UInt64}, d = some c → d = some (c + 0) := by
    intro d hd
    rw [hd, UInt64.add_zero]
  cases op with
  | create input =>
      refine hzero ?_
      rw [GSRuntime.apply]
      split
      · exact hc
      · exact hc
  | put input =>
      refine hzero ?_
      rw [GSRuntime.apply]
      split
      · exact hc
      · exact hc
  | delete username => exact hzero hc
  | addUser user pass => exact hzero (consumed_addUser h hc user pass)
  | updateUser username data => exact hzero (consumed_updateUser h hc username data)
  | updatePassword username password =>
      refine hzero ?_
      have hcounts := counts_updatePassword h username password
      rw [GSRuntime.apply, consumed, hcounts]
      exact hc
  | removeUser username =>
      refine hzero ?_
      have hne : u ≠ username := by
        rintro rfl
        obtain ⟨rec, hrec, hname⟩ := mem_names.mp hstay
        have hkept := (List.mem_filter.mp hrec).2
        simp [hname] at hkept
      exact (consumed_filter hne rt.authUsers).trans hc
  | updateUserData username data =>
      have hsum := consumed_updateUserData u username data rt.authUsers
      rw [hc] at hsum
      exact hsum
  | save => exact hzero hc
  | reload => exact absurd (.inl rfl) hop
  | webKey => exact hzero hc
  | settingsKey => exact hzero hc
  | restart => exact absurd (.inr rfl) hop
  | request p hd r => exact hzero hc

theorem consumed_reload (rt : GSRuntime) (u : GoString) (env : Env) {op : Op} (hop : op.Reloads) :
    consumed (rt.apply env op).authUsers u = consumed rt.file u ∧ reportedBy u op = 0 := by
  obtain rfl | rfl := hop
  · exact ⟨rfl, rfl⟩
  · exact ⟨rfl, rfl⟩

end Step

/-! ## Whole runs -/

theorem conserves_iff {env : Env} {u : GoString} {m : Meter} {op : Op}
    (h : m.runtime.Names TextNames) (hm : m.Accounted u)
    (hstay : (m.apply env u op).Registered u) : Conserves env u m op ↔ UpToDate u m op := by
  by_cases hop : op.Reloads
  · obtain ⟨hfile, hzero⟩ := consumed_reload m.runtime u env hop
    have hsum : (m.apply env u op).reported = m.reported := by
      rw [Meter.apply, hzero, UInt64.add_zero]
    constructor
    · intro hcons _
      have hacc : consumed (m.runtime.apply env op).authUsers u
          = some (m.apply env u op).reported := hcons.1
      rw [← hfile, hacc, hsum]
      exact hm.symm
    · intro hup
      have hsame : consumed (m.runtime.apply env op).authUsers u
          = consumed m.runtime.authUsers u := hfile.trans (hup hop)
      refine ⟨?_, fun _ a b ha hb => ?_⟩
      · rw [Meter.Accounted, hsum]
        exact hsame.trans hm
      · have heq : some a = some b := ha.symm.trans (hsame.symm.trans hb)
        rw [Option.some.inj heq]
        exact UInt64.le_refl b
  · exact iff_of_true ⟨consumed_apply h hm hop hstay, fun hr => absurd hr hop⟩
      fun hr => absurd hr hop

/-- **Traffic accounting.** From any state that the gateway reaches, along
every sequence of operations that leaves the user registered, the count of
the user is kept in every step exactly when every reload finds it in the
file. -/
theorem traffic_conserved_iff {env : Env} {page : GoString} {g : Gateway}
    (hr : Reach (Gateway.step env page) anyStep .initial g) {u : GoString} {c : UInt64}
    (hc : consumed g.runtime.authUsers u = some c) (ops : List Op)
    (hstay : eachStep (Meter.apply env u) (fun m op => (m.apply env u op).Registered u) ops
      ⟨g.runtime, c⟩) :
    eachStep (Meter.apply env u) (Conserves env u) ops ⟨g.runtime, c⟩
      ↔ eachStep (Meter.apply env u) (UpToDate u) ops ⟨g.runtime, c⟩ := by
  have htext : g.runtime.Names TextNames :=
    rule_text.of_reach distinct_defaultUsers.2 (fun {_ op} _ => op.adds_any) hr
  have hacc : Meter.Accounted u ⟨g.runtime, c⟩ := hc
  have hnames : (⟨g.runtime, c⟩ : Meter).runtime.Names TextNames := htext
  revert hnames hacc hstay
  generalize (⟨g.runtime, c⟩ : Meter) = m
  induction ops generalizing m with
  | nil => exact fun _ _ _ => Iff.rfl
  | cons op ops ih =>
      rintro ⟨hreg, hrest⟩ hacc hnames
      have hstep := conserves_iff hnames hacc hreg
      have hnext : (m.apply env u op).runtime.Names TextNames :=
        rule_text.apply hnames op.adds_any
      constructor
      · rintro ⟨hcons, htail⟩
        exact ⟨hstep.mp hcons, (ih _ hrest hcons.1 hnext).mp htail⟩
      · rintro ⟨hup, htail⟩
        have hcons := hstep.mpr hup
        exact ⟨hcons, (ih _ hrest hcons.1 hnext).mpr htail⟩

/-- Five bytes, the data saver, and a reload. -/
def savedOps : List Op := [.updateUserData (lit "guest") 5, .save, .reload]

theorem traffic_conserved_iff_guest :
    eachStep (Meter.apply exampleEnv (lit "guest")) (UpToDate (lit "guest")) savedOps
        ⟨Gateway.initial.runtime, 0⟩
      ∧ eachStep (Meter.apply exampleEnv (lit "guest")) (Conserves exampleEnv (lit "guest"))
        savedOps ⟨Gateway.initial.runtime, 0⟩ := by
  have hup : eachStep (Meter.apply exampleEnv (lit "guest")) (UpToDate (lit "guest")) savedOps
      ⟨Gateway.initial.runtime, 0⟩ := by
    refine ⟨?_, ?_, fun _ => by decide +kernel, trivial⟩
    · rintro (hop | hop) <;> cases hop
    · rintro (hop | hop) <;> cases hop
  have hinit : Reach (Gateway.step exampleEnv []) anyStep .initial .initial := .init
  refine ⟨hup, (traffic_conserved_iff hinit (by decide) savedOps ?_).mpr hup⟩
  refine ⟨?_, ?_, ?_, trivial⟩
  · exact mem_names_of_consumed (c := 5) (by decide +kernel)
  · exact mem_names_of_consumed (c := 5) (by decide +kernel)
  · exact mem_names_of_consumed (c := 5) (by decide +kernel)

/-- Five bytes, another setting, and the reload that follows it. -/
def unsavedOps : List Op := [.updateUserData (lit "guest") 5, .webKey, .reload]

/-- The reload brings back the count of the file. -/
theorem reload_loses_traffic :
    ¬ ∀ (env : Env) (page : GoString) (g : Gateway),
        Reach (Gateway.step env page) anyStep .initial g → ∀ (u : GoString) (c : UInt64),
        consumed g.runtime.authUsers u = some c → ∀ ops : List Op,
        eachStep (Meter.apply env u) (fun m op => (m.apply env u op).Registered u) ops
          ⟨g.runtime, c⟩ →
        eachStep (Meter.apply env u) (Conserves env u) ops ⟨g.runtime, c⟩ := by
  intro h
  have hrun := h exampleEnv [] .initial .init (lit "guest") 0 (by decide) unsavedOps
    ⟨mem_names_of_consumed (c := 5) (by decide +kernel),
      mem_names_of_consumed (c := 5) (by decide +kernel),
      mem_names_of_consumed (c := 0) (by decide +kernel), trivial⟩
  have hreload := hrun.2.2.1.1
  exact absurd hreload (by unfold Meter.Accounted; decide +kernel)

end Users

end RbiProxy
