import ReceiptScanner.Accounts.SingleUse

/-!
# Logging out

A logout is one DELETE. It meets calls of `validateSession` that extend the same session, and
it waits for them; what it leaves behind is no session with its token that was there when it
began. Only a login that opens a session with the same token brings the token back.
-/

namespace ReceiptScanner

open ReadCommitted

variable {setup : Setup} {tid id : ℕ} {tokenHash rawToken : String}

/-- Since the base, the process has removed each session with the token that was there before
and when it ran. -/
def SweptSessions (tid : ℕ) (base : History store outside) (tokenHash : String)
    (h : History store outside) : Prop :=
  ∃ cur : History store outside, base <:+ cur ∧ cur <:+ h ∧
    ∀ id, ∀ before now : SessionRow, (base.db .sessions).get id = some before →
      before.tokenHash = tokenHash → (cur.db .sessions).get id = some now →
      now.tokenHash = tokenHash →
      ∃ c, c :: cur <:+ h ∧ c.tid = tid ∧ ⟨.sessions, id, none, .logout⟩ ∈ c.writes

theorem SweptSessions.mono {base h later : History store outside}
    (swept : SweptSessions tid base tokenHash h) (past : h <:+ later) :
    SweptSessions tid base tokenHash later := by
  obtain ⟨cur, during, suffix, removed⟩ := swept
  refine ⟨cur, during, suffix.trans past, fun id before now was mine is still => ?_⟩
  obtain ⟨c, within, rest⟩ := removed id before now was mine is still
  exact ⟨c, within.trans past, rest⟩

/-- What a logout that has returned has done. -/
def LeftNoSession (tid : ℕ) (base : History store outside) (tokenHash : String) :
    Post store outside (Ending outside Job) := fun ending _ later =>
  ending.1 = .returned → SweptSessions tid base tokenHash later.history

theorem stable_leftNoSession (mine : Guarantee store outside) {base : History store outside} :
    Stable mine (LeftNoSession tid base tokenHash) := fun _ _ _ _ rely done returned =>
  (done returned).mono rely.suffix

namespace AuthService

/-- A logout whose DELETE has just begun. -/
theorem flightSafe_logout {found world : World store outside}
    (past : found.history <:+ world.history) :
    ∃ next, Job.prog setup (.logout rawToken) =
        .exec false (deleteSession setup (setup.sha256Hex rawToken)) next ∧
      (∀ failure, next (.error failure) = .done (.raised (.sql failure), [])) ∧
      FlightSafe Guarantee.anything (schema setup.lower) false
        (deleteSession setup (setup.sha256Hex rawToken)) ⟨found.history, found.clock⟩
        (fun reply => (next reply).wp Guarantee.anything (schema setup.lower)
          (LeftNoSession tid found.history (setup.sha256Hex rawToken))) { tid := tid } world := by
  refine ⟨_, rfl, fun _ => rfl, ?_⟩
  refine @Svc.flightSafe_exec _ _ _ _ _ _ tid [] _ _ _ past
    (fun failure later _ returned => by cases returned) (fun _ _ _ _ _ _ => trivial) ?_
  intro entry ctx later same ran during clocked after returned
  have same : entry.snap = found.history := same
  refine ⟨entry.cur, past.trans during.suffix, ?_, fun id before now was mine is still => ?_⟩
  · rw [after]
    split
    · exact List.suffix_rfl
    · exact List.suffix_cons _ _
  · rw [← same, ← ran.snap_table (Log.clean_nil _)] at was
    rw [← ran.cur_table (Log.clean_nil _)] at is
    have made : ⟨.sessions, id, none, .logout⟩ ∈ entry.writes :=
      ran.delete_hit was (by simpa using mine) is (by simpa using still)
    rw [if_neg (List.ne_nil_of_mem made)] at after
    rw [after]
    exact ⟨_, List.suffix_rfl, rfl, by simpa [Opening.commit] using made⟩

end AuthService

section Runs

variable {pace : Pace (application setup)} {config after : Config store outside Job}
  {onsets : Onsets store outside} {found : World store outside} {h : History store outside}
  {row : SessionRow}

/-- A session that was there at some time stays there, or is removed. -/
theorem session_onward (reachable : Config.Reachable (application setup) config)
    (suffix : h <:+ config.world.history) {base : History store outside} (past : base <:+ h)
    (stored : (base.db .sessions).get id = some row) :
    (∃ now : SessionRow, (h.db .sessions).get id = some now ∧ now.tokenHash = row.tokenHash) ∨
      (h.db .sessions).get id = none := by
  cases now : (h.db .sessions).get id with
  | none => exact Or.inr rfl
  | some last =>
      have used : ¬ Unused base .sessions id := fun unused =>
        absurd (stored.symm.trans (unused.get List.suffix_rfl)) (by simp)
      obtain ⟨first, there, token, -⟩ := session_between reachable past suffix used now
      obtain rfl := Option.some.inj (stored.symm.trans there)
      exact Or.inl ⟨last, rfl, token.symm⟩

/-- A session that is gone stays gone. -/
theorem session_stays_gone (reachable : Config.Reachable (application setup) config)
    (suffix : h <:+ config.world.history) {base gone : History store outside} (past : base <:+ gone)
    (later : gone <:+ h) (stored : (base.db .sessions).get id = some row)
    (removed : (gone.db .sessions).get id = none) : (h.db .sessions).get id = none := by
  by_contra still
  obtain ⟨last, now⟩ := Option.ne_none_iff_exists'.mp still
  have used : ¬ Unused gone .sessions id := fun unused =>
    absurd (stored.symm.trans (unused.get past)) (by simp)
  obtain ⟨first, there, -⟩ := session_between reachable later suffix used now
  exact absurd (removed.symm.trans there) (by simp)

/-- Once a logout has returned, the sessions with its token that were there when it began are
gone for good. -/
theorem gone_of_logout (paced : Config.Paced (application setup) pace config onsets)
    (known : onsets tid = some found) {proc : Proc store outside Job}
    (at_ : config.procs tid = some proc) (isLogout : proc.job = .logout rawToken)
    (ended : proc.life = .ended .returned)
    (leads : Config.Leads (application setup) config after)
    (stored : (found.history.db .sessions).get id = some row)
    (token : row.tokenHash = setup.sha256Hex rawToken) :
    (after.world.history.db .sessions).get id = none := by
  obtain ⟨rest, opens, refuses, safe⟩ :=
    @AuthService.flightSafe_logout setup tid rawToken found found.tick List.suffix_rfl
  have allows : (Guarantee.anything : Guarantee store outside).Allows (access setup config.jobs)
      tid := fun _ _ _ _ => trivial
  obtain ⟨aims, past, -⟩ := paced.aims known at_ (isLogout ▸ opens)
    (fun failure => ⟨_, refuses failure⟩) safe (stable_leftNoSession _) allows
    (keeps_access setup config.jobs) config.agrees_jobs
  simp only [Proc.Aims, ended] at aims
  obtain ⟨jobs, holds⟩ := aims
  obtain ⟨cur, during, upTo, removed⟩ := holds rfl
  have reachable := leads.reachable paced.reachable
  have grows := (Config.Leads.grows leads (keeps_access setup after.jobs) paced.reachable
    after.agrees_jobs).1
  rcases session_onward reachable (upTo.trans grows) during stored with
    ⟨now, is, still⟩ | gone
  · obtain ⟨c, within, -, drops⟩ := removed id row now stored token is (still.trans token)
    have none := (promised_of_reachable reachable (within.trans grows)).get (by decide) drops
    exact session_stays_gone reachable List.suffix_rfl
      (during.trans (List.suffix_cons c cur)) (within.trans grows) stored none
  · exact session_stays_gone reachable List.suffix_rfl during (upTo.trans grows) stored gone

/-- A session with the token of a logout that has returned, at any later time, was opened by a
login that has committed since the logout began. -/
theorem loggedOut (paced : Config.Paced (application setup) pace config onsets)
    (known : onsets tid = some found) {proc : Proc store outside Job}
    (at_ : config.procs tid = some proc) (isLogout : proc.job = .logout rawToken)
    (ended : proc.life = .ended .returned)
    (leads : Config.Leads (application setup) config after)
    (stored : (after.world.history.db .sessions).get id = some row)
    (token : row.tokenHash = setup.sha256Hex rawToken) :
    ∃ c h first, c :: h <:+ after.world.history ∧ found.history <:+ h ∧ (id, first) ∈ opensOf c ∧
      first.tokenHash = row.tokenHash := by
  have reachable := leads.reachable paced.reachable
  have grows := (Config.Leads.grows leads (keeps_access setup after.jobs) paced.reachable
    after.agrees_jobs).1
  have past := (past_of_onset paced known).trans grows
  obtain ⟨c, h, first, within, opens, -⟩ :=
    opened_of_stored reachable List.suffix_rfl stored
  have written := mem_opensOf.mp opens
  have atFirst := (promised_of_reachable reachable within).get (by decide) written
  have used : ∀ {later : History store outside}, c :: h <:+ later → ¬ Unused later .sessions id :=
    fun onward unused =>
      unused c (onward.subset List.mem_cons_self) _ written ⟨rfl, rfl⟩
  obtain ⟨_, there, same, -⟩ :=
    session_between reachable within List.suffix_rfl (used List.suffix_rfl) stored
  obtain rfl := Option.some.inj (atFirst.symm.trans there)
  refine ⟨c, h, first, within, ?_, opens, same⟩
  rcases List.suffix_or_suffix_of_suffix within past with before | since
  · -- The login was before the logout, which has removed its session.
    obtain ⟨old, was, sameOld, -⟩ :=
      session_between reachable past List.suffix_rfl (used before) stored
    have gone := gone_of_logout paced known at_ isLogout ended leads was (sameOld.trans token)
    exact absurd (gone.symm.trans stored) (by simp)
  · rcases List.suffix_cons_iff.mp since with same' | inside
    · obtain ⟨old, was, sameOld, -⟩ := session_between reachable past List.suffix_rfl
        (used (same' ▸ List.suffix_rfl)) stored
      have gone := gone_of_logout paced known at_ isLogout ended leads was (sameOld.trans token)
      exact absurd (gone.symm.trans stored) (by simp)
    · exact inside

/-- So no call of `validateSession` that begins after a logout has returned accepts its token,
unless a login has opened a session with the same token since. -/
theorem loggedOut_rejected (paced : Config.Paced (application setup) pace config onsets)
    (known : onsets tid = some found) {proc : Proc store outside Job}
    (at_ : config.procs tid = some proc) (isLogout : proc.job = .logout rawToken)
    (ended : proc.life = .ended .returned) {before begun : Config store outside Job} {other : ℕ}
    (leads : Config.Leads (application setup) config before)
    (checks : Checks setup before other rawToken begun)
    (onward : Config.Leads (application setup) begun after) {last : Proc store outside Job}
    (there : after.procs other = some last) (told : last.life = .ended (.told true)) :
    ∃ id c h, ∃ first : SessionRow, c :: h <:+ before.world.history ∧ found.history <:+ h ∧
      (id, first) ∈ opensOf c ∧ first.tokenHash = setup.sha256Hex rawToken := by
  obtain ⟨_, accepted, -⟩ := checks.answered onward there told
  obtain ⟨⟨id, row, stored, token, -⟩, -⟩ := accepted rfl
  obtain ⟨c, h, first, within, since, opens, same⟩ :=
    loggedOut paced known at_ isLogout ended leads stored token
  exact ⟨id, c, h, first, within, since, opens, same.trans token⟩

end Runs

section Demo

/-- A user has logged in and out. -/
def leaving : List (Move outside Job) :=
  registering 0 "ann" "secret" ++ loggingIn 1 "ann" "secret" "token" ++
    [.spawn (.logout "token")] ++ statements 2 1 ++ [.step 2]

@[irreducible] def hasLeft : Config store outside Job :=
  Config.ran (application demo) leaving (by decide +kernel)

/-- Then a login has drawn the same token again. -/
@[irreducible] def hasReturned : Config store outside Job :=
  (Config.run (application demo) (loggingIn 3 "ann" "secret" "token") hasLeft).get
    (by decide +kernel)

/-- A call with the token is about to begin. -/
def returning : Config store outside Job :=
  Config.spawn (application demo) hasReturned (.validateSession "token")

def returnBegun : Config store outside Job :=
  (Config.move (application demo) returning (.start 4)).get (by decide +kernel)

def returnEnded : Config store outside Job :=
  (Config.run (application demo) [.finish 4, .start 4, .finish 4, .step 4] returnBegun).get
    (by decide +kernel)

theorem loggedOut_rejected_of_returning : ∃ (found : World store outside) (id : ℕ)
    (c : Commit store outside) (h : History store outside) (first : SessionRow),
    c :: h <:+ returning.world.history ∧ found.history <:+ h ∧ (id, first) ∈ opensOf c ∧
      first.tokenHash = "token" := by
  have paced : ∃ onsets, Config.Paced (application demo) (fun _ _ _ => True) hasLeft onsets := by
    unfold hasLeft
    have checked : Config.paces (application demo) (fun _ _ _ => true) leaving
        (Config.initial (application demo)) (fun _ => none) = true := by decide +kernel
    exact Config.Paced.initial.run (fun _ _ _ _ _ => trivial) checked (Option.some_get _).symm
  obtain ⟨onsets, paced⟩ := paced
  have left : (hasLeft.procs 2).bind (·.life.answer?) = some .returned := by decide +kernel
  have isJob : (hasLeft.procs 2).any (fun proc => match proc.job with
      | .logout rawToken => rawToken == "token"
      | _ => false) = true := by decide +kernel
  obtain ⟨proc, at_, isLogout⟩ := (Option.any_eq_true _ _).mp isJob
  have isLogout : proc.job = .logout "token" := by
    cases job : proc.job <;> simp [job] at isLogout
    rw [isLogout]
  have ended : proc.life = .ended .returned := by
    rw [at_, Option.bind_some] at left
    exact Life.answer?_eq_some.mp left
  obtain ⟨rest, opens, refuses, -⟩ := @AuthService.flightSafe_logout demo 2 "token"
    hasLeft.world hasLeft.world List.suffix_rfl
  obtain ⟨found, known⟩ := paced.onset_of_ended at_ (isLogout ▸ opens)
    (fun failure => ⟨_, refuses failure⟩) ended fun failure ending isDone same => by
      obtain rfl := Prog.done.inj ((refuses failure).symm.trans isDone)
      cases same
  have toReturned : Config.Leads (application demo) hasLeft hasReturned := by
    unfold hasReturned
    exact Config.Leads.run (Option.some_get _).symm
  have spawned : hasReturned.tids = 4 := by decide +kernel
  have fresh : returning.procs hasReturned.tids =
      some (Proc.fresh (application demo) hasReturned.tids (.validateSession "token")) :=
    Function.update_self _ _ _
  rw [spawned] at fresh
  have toReturning := toReturned.tail ⟨.spawn (.validateSession "token"), rfl⟩
  have checks : Checks demo returning 4 "token" returnBegun := {
    reachable := Config.Leads.reachable toReturning paced.reachable
    fresh := fresh
    starts := (Option.some_get _).symm }
  have told : (returnEnded.procs 4).bind (·.life.answer?) = some (.told true) := by decide +kernel
  obtain ⟨last, there, isAnswer⟩ := Option.bind_eq_some_iff.mp told
  obtain ⟨id, c, h, first, within, since, opened, token⟩ :=
    loggedOut_rejected paced known at_ isLogout ended toReturning checks
      (Config.Leads.run (Option.some_get _).symm) there (Life.answer?_eq_some.mp isAnswer)
  exact ⟨found, id, c, h, first, within, since, opened, token⟩

end Demo

end ReceiptScanner
