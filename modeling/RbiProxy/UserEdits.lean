import RbiProxy.UserNames

/-!
# What an update of a user does to the stored list

`UpdateUser` runs over the records by their index, and a password makes it save
and reload the whole list in the middle of the loop. As far as what is stored is
concerned, all this comes to one edit of the list (`editUser`): the records of
the name are changed, or there is a new one.

Records are compared as they are stored. Between two rounds a record is in one of
three forms: done, not done yet, and not done yet but with the new password,
which the first record of the name gives to all others (`updateUserLoop_saved`).
-/

namespace RbiProxy

namespace Users

/-! ## The edit -/

def newPass (u : GSUserPublic) (rec : GSUser) : GoString :=
  if u.password = [] then rec.pass else jsonText u.password

/-- A stored record of the name. -/
def editRecord (u : GSUserPublic) (rec : GSUser) : GSUser :=
  { rec with allowAccess := u.allowAccess, pass := newPass u rec }

/-- The stored list after `UpdateUser`. -/
def editUser (u : GSUserPublic) (users : List GSUser) : List GSUser :=
  if users.any (·.user = u.user) then withUser u.user (editRecord u) users
  else if u.user.length = 0 ∨ u.password.length = 0 then users
  else users ++ [GSUser.saved ⟨u.user, u.password, [], 0, false, false⟩]

/-! ## Records as they are stored -/

@[simp] theorem saved_saved (rec : GSUser) : rec.saved.saved = rec.saved := by
  simp [GSUser.saved]

theorem map_saved_saved (users : List GSUser) :
    (users.map GSUser.saved).map GSUser.saved = users.map GSUser.saved := by
  rw [List.map_map]
  exact List.map_congr_left fun rec _ => saved_saved rec

theorem user_saved {users : List GSUser} (h : TextNames (names users)) {rec : GSUser}
    (hrec : rec ∈ users) : rec.saved.user = rec.user :=
  h rec.user (mem_names.mpr ⟨rec, hrec, rfl⟩)

theorem map_saved_withUser {users : List GSUser} (h : TextNames (names users)) (n : GoString)
    (f f' : GSUser → GSUser) (hf : ∀ rec, (f rec).saved = f' rec.saved) :
    (withUser n f users).map GSUser.saved = withUser n f' (users.map GSUser.saved) := by
  rw [withUser, withUser, List.map_map, List.map_map]
  refine List.map_congr_left fun rec hrec => ?_
  have hname := user_saved h hrec
  simp only [Function.comp_apply, hname]
  split
  · exact hf rec
  · rfl

section Loop

variable (u : GSUserPublic)

/-- A record with the new access alone, and one with the new password alone. -/
def withAccess (rec : GSUser) : GSUser := { rec with allowAccess := u.allowAccess }

def withPass (rec : GSUser) : GSUser := { rec with pass := newPass u rec }

/-- A record behind the loop, and one that is still before it once there was one
of the name. -/
def done (rec : GSUser) : GSUser := if rec.user = u.user then editRecord u rec else rec

def pending (rec : GSUser) : GSUser := if rec.user = u.user then withPass u rec else rec

theorem pending_done (rec : GSUser) : pending u (done u rec) = done u rec := by
  by_cases h : rec.user = u.user
  · by_cases hp : u.password = [] <;> simp [pending, done, h, hp, editRecord, withPass, newPass]
  · simp [pending, done, h]

theorem pending_pending (rec : GSUser) : pending u (pending u rec) = pending u rec := by
  by_cases h : rec.user = u.user
  · by_cases hp : u.password = [] <;> simp [pending, h, hp, withPass, newPass]
  · simp [pending, h]

theorem pending_set {rec : GSUser} (h : rec.user = u.user) :
    pending u (withAccess u rec) = done u rec
      ∧ pending u (withAccess u (pending u rec)) = done u rec := by
  by_cases hp : u.password = [] <;>
    simp [pending, done, h, hp, editRecord, withAccess, withPass, newPass]

theorem map_pending_of_noPass (hp : u.password = []) (users : List GSUser) :
    users.map (pending u) = users := by
  refine (List.map_congr_left fun rec _ => ?_).trans (List.map_id users)
  unfold pending
  split
  · rw [withPass, newPass, if_pos hp]
    rfl
  · rfl

/-- The list in memory as it would be stored. -/
def stored (rt : GSRuntime) : List GSUser := rt.authUsers.map GSUser.saved

theorem stored_updatePassword {rt : GSRuntime} (h : rt.Names TextNames) (hp : u.password ≠ []) :
    stored (rt.updatePassword u.user u.password) = (stored rt).map (pending u) := by
  have hrun : (rt.updatePassword u.user u.password).authUsers
      = (withUser u.user (fun rec => { rec with pass := u.password }) rt.authUsers).map
          GSUser.saved := rfl
  have hedit := map_saved_withUser h.authUsers u.user
    (fun rec => { rec with pass := u.password }) (withPass u) fun rec => by
      simp [GSUser.saved, withPass, newPass, hp]
  rw [stored, hrun, map_saved_saved, hedit]
  rfl

theorem stored_updateUserAt {acc : GSRuntime × Bool} (h : acc.1.Names TextNames) {i : Nat}
    {r : GSUser} (hr : (stored acc.1)[i]? = some r) :
    stored (GSRuntime.updateUserAt u.user u acc i).1
        = (if r.user = u.user then
            ((stored acc.1).set i (withAccess u r)).map (pending u)
          else stored acc.1)
      ∧ (GSRuntime.updateUserAt u.user u acc i).2 = (acc.2 || decide (r.user = u.user)) := by
  rw [stored, List.getElem?_map] at hr
  obtain ⟨rec, hrec, rfl⟩ := Option.map_eq_some_iff.mp hr
  have hname : rec.saved.user = u.user ↔ rec.user = u.user := by
    rw [user_saved h.authUsers (List.mem_of_getElem? hrec)]
  rw [GSRuntime.updateUserAt, hrec]
  dsimp only
  by_cases heq : rec.user = u.user
  · rw [if_pos heq, if_pos (hname.mpr heq), decide_eq_true (hname.mpr heq), Bool.or_true]
    have hset : stored { acc.1 with authUsers := acc.1.authUsers.set i (withAccess u rec) }
        = (stored acc.1).set i (withAccess u rec.saved) := by
      rw [stored, stored, List.map_set]
      rfl
    have htext : TextNames (names (acc.1.authUsers.set i (withAccess u rec))) := by
      rw [names_set hrec]
      · exact h.authUsers
      · rfl
    by_cases hp : u.password = []
    · rw [if_neg (not_not.mpr hp), map_pending_of_noPass u hp]
      exact ⟨hset, rfl⟩
    · rw [if_pos hp, ← hset, ← stored_updatePassword u (h.withAuthUsers htext) hp]
      exact ⟨rfl, rfl⟩
  · rw [if_neg heq, if_neg (mt hname.mp heq), decide_eq_false (mt hname.mp heq), Bool.or_false]
    exact ⟨rfl, rfl⟩

/-- The rest of the loop, from the record it has come to. -/
theorem updateUserLoop_saved (rest : List GSUser) :
    ∀ (before : List GSUser) (acc : GSRuntime × Bool) (f : GSUser → GSUser),
      f = id ∨ f = pending u → acc.1.Names TextNames →
      stored acc.1 = before.map (done u) ++ rest.map f →
      ∃ out, out = (List.range' before.length rest.length).foldl
          (GSRuntime.updateUserAt u.user u) acc
        ∧ stored out.1 = (before ++ rest).map (done u)
        ∧ out.2 = (acc.2 || rest.any (·.user = u.user)) := by
  induction rest with
  | nil =>
      intro before acc f _ _ hstored
      refine ⟨acc, rfl, ?_, ?_⟩
      · simpa using hstored
      · simp
  | cons r rest ih =>
      intro before acc f hf hnames hstored
      have hr : (stored acc.1)[before.length]? = some (f r) := by
        rw [hstored, List.getElem?_append_right (by simp)]
        simp
      obtain ⟨hround, hfound⟩ := stored_updateUserAt u hnames hr
      have huser : (f r).user = r.user := by
        obtain rfl | rfl := hf
        · rfl
        · unfold pending
          split <;> rfl
      rw [huser] at hround hfound
      have hnames' := GSRuntime.Names.updateUserAt rule_text hnames u.user u before.length
      -- the next round starts with one more record behind it
      have hnext : ∃ f', (f' = id ∨ f' = pending u)
          ∧ stored (GSRuntime.updateUserAt u.user u acc before.length).1
            = (before ++ [r]).map (done u) ++ rest.map f' := by
        by_cases heq : r.user = u.user
        · refine ⟨pending u, .inr rfl, ?_⟩
          have hset : (before.map (done u) ++ (r :: rest).map f).set before.length
              (withAccess u (f r))
              = before.map (done u) ++ withAccess u (f r) :: rest.map f := by
            rw [List.set_append_right _ _ (by simp)]
            simp
          have hbefore : (before.map (done u)).map (pending u) = before.map (done u) := by
            rw [List.map_map]
            exact List.map_congr_left fun rec _ => pending_done u rec
          have hself : pending u (withAccess u (f r)) = done u r := by
            obtain rfl | rfl := hf
            · exact (pending_set u heq).1
            · exact (pending_set u heq).2
          have hrest : (rest.map f).map (pending u) = rest.map (pending u) := by
            rw [List.map_map]
            refine List.map_congr_left fun rec _ => ?_
            obtain rfl | rfl := hf
            · rfl
            · exact pending_pending u rec
          rw [hround, if_pos heq, hstored, hset, List.map_append, List.map_cons, hbefore, hself,
            hrest, List.map_append, List.append_assoc]
          rfl
        · refine ⟨f, hf, ?_⟩
          have hdone : done u r = r := if_neg heq
          have hself : f r = r := by
            obtain rfl | rfl := hf
            · rfl
            · exact if_neg heq
          rw [hround, if_neg heq, hstored, List.map_append, List.map_cons, hself, List.map_singleton,
            hdone, List.append_assoc]
          rfl
      obtain ⟨f', hf', hstored'⟩ := hnext
      obtain ⟨out, hout, hlist, hflag⟩ := ih (before ++ [r]) _ f' hf' hnames' hstored'
      refine ⟨out, ?_, ?_, ?_⟩
      · rw [hout, List.length_append, List.length_singleton, List.length_cons, List.range'_succ,
          List.foldl_cons]
      · rw [hlist, List.append_assoc]
        rfl
      · rw [hflag, hfound, List.any_cons, Bool.or_assoc]

theorem any_stored {rt : GSRuntime} (h : TextNames (names rt.authUsers)) (n : GoString) :
    (stored rt).any (·.user = n) = rt.authUsers.any (·.user = n) := by
  rw [stored, List.any_map, Bool.eq_iff_iff, List.any_eq_true, List.any_eq_true]
  refine exists_congr fun rec => and_congr_right fun hrec => ?_
  simp only [Function.comp_apply, decide_eq_true_eq, user_saved h hrec]

/-- A name that is not there is added, with a password. -/
theorem stored_addUser {rt : GSRuntime} (h : TextNames (names rt.authUsers))
    (hno : (stored rt).any (·.user = u.user) = false) :
    stored (rt.addUser u.user u.password).1 = editUser u (stored rt) := by
  rw [editUser, hno, if_neg (by decide), GSRuntime.addUser, ← any_stored h, hno,
    if_neg (by decide)]
  split
  · rfl
  · have hload : ∀ users, (GSRuntime.loadUsers (rt.updateSettings users)).authUsers
        = users.map GSUser.saved := fun _ => rfl
    rw [stored, hload, map_saved_saved, List.map_append]
    rfl

/-- **`UpdateUser`**, on the list as it is stored. -/
theorem stored_updateUser {rt : GSRuntime} (h : rt.Names TextNames) :
    stored (rt.updateUser u.user u) = editUser u (stored rt) := by
  obtain ⟨out, hout, hlist, hfound⟩ := updateUserLoop_saved u (stored rt) [] (rt, false) id (.inl rfl)
    h (by simp)
  have hrange : List.range' ([] : List GSUser).length (stored rt).length
      = List.range rt.authUsers.length := by
    rw [List.range_eq_range', stored, List.length_map]
    rfl
  rw [hrange] at hout
  rw [List.nil_append] at hlist
  rw [Bool.false_or] at hfound
  have hrun : (rt.updateUser u.user u).authUsers
      = (if out.2 then out.1 else (out.1.addUser u.user u.password).1).authUsers := by
    rw [hout]
    rfl
  cases hany : (stored rt).any (·.user = u.user) with
  | true =>
      rw [hany] at hfound
      rw [stored, hrun, hfound, if_pos rfl, editUser, hany, if_pos rfl]
      exact hlist
  | false =>
      rw [hany] at hfound
      have hsame : stored out.1 = stored rt := by
        rw [hlist]
        refine (List.map_congr_left fun rec hrec => ?_).trans (List.map_id (stored rt))
        have hne := List.any_eq_false.mp hany rec hrec
        exact if_neg (by simpa using hne)
      have hnames : out.1.Names TextNames := by
        rw [hout]
        exact GSRuntime.Names.updateUserLoop rule_text u.user u _ _ h
      rw [stored, hrun, hfound, if_neg (by decide), ← hsame]
      exact stored_addUser u hnames.authUsers (by rw [hsame, hany])

end Loop

end Users

end RbiProxy
