import ReceiptScanner.Accounts.Resets
import ReceiptScanner.ReadCommitted.Onsets
import ReceiptScanner.ReadCommitted.Stages

/-!
# Tokens are for one use

A confirmation looks its token up in one statement and deletes it in a later one, without
looking at how many rows the DELETE removed. Two confirmations of one token may both find it
before either removes it. If a lookup starts only while no other call with the token is under
way, then whoever is told yes has removed the row that it found.
-/

namespace ReceiptScanner

open ReadCommitted

variable {setup : Setup} {tid : ℕ} {tokenHash : String} {purpose : Purpose} {id : ℕ}

/-- The row is one that a lookup of this token finds in this world. -/
def Finds (world : World store outside) (tokenHash : String) (purpose : Purpose) (id : ℕ)
    (row : AuthTokenRow) : Prop :=
  (world.history.db .authTokens).get id = some row ∧ row.tokenHash = tokenHash ∧
    row.purpose = purpose ∧ world.clock < row.expiresAt

/-- The commit removes the auth token. -/
def Drops (c : Commit store outside) (id : ℕ) : Prop :=
  ⟨.authTokens, id, none, .dropToken⟩ ∈ c.writes

/-- Since the base, the process has run a DELETE that removed each row of the token that was
there before and when it ran. -/
def Swiped (tid : ℕ) (base : History store outside) (tokenHash : String)
    (h : History store outside) : Prop :=
  ∃ snap cur : History store outside, base <:+ snap ∧ snap <:+ cur ∧ cur <:+ h ∧
    ∀ id, ∀ before now : AuthTokenRow, (snap.db .authTokens).get id = some before →
      before.tokenHash = tokenHash → (cur.db .authTokens).get id = some now →
      now.tokenHash = tokenHash →
      ∃ c earlier, c :: earlier <:+ h ∧ cur <:+ earlier ∧ c.tid = tid ∧ Drops c id

theorem Swiped.mono {base h later : History store outside} (swiped : Swiped tid base tokenHash h)
    (past : h <:+ later) : Swiped tid base tokenHash later := by
  obtain ⟨snap, cur, began, during, suffix, removed⟩ := swiped
  refine ⟨snap, cur, began, during, suffix.trans past, fun id before now was mine is still => ?_⟩
  obtain ⟨c, earlier, within, rest⟩ := removed id before now was mine is still
  exact ⟨c, earlier, within.trans past, rest⟩

/-- What process `tid` commits, it commits after its lookup has found the token; and with what
a password reset commits, the token is gone. -/
def onceFound (tid : ℕ) (found : World store outside) (tokenHash : String) (purpose : Purpose) :
    Guarantee store outside where
  commits h c := c.tid = tid → (∃ id row, Finds found tokenHash purpose id row) ∧
    (purpose = .reset → Swiped tid found.history tokenHash (c :: h))
  calls _ _ _ _ := True

/-- What a confirmation that is told yes has done since its lookup. -/
def Confirmed (tid : ℕ) (found : World store outside) (tokenHash : String) (purpose : Purpose) :
    Post store outside (Ending outside Job) := fun ending _ later =>
  ending.1 = .told true → (∃ id row, Finds found tokenHash purpose id row) ∧
    Swiped tid found.history tokenHash later.history

theorem stable_confirmed (mine : Guarantee store outside) {found : World store outside} :
    Stable mine (Confirmed tid found tokenHash purpose) := fun _ _ _ _ rely done told =>
  ⟨(done told).1, (done told).2.mono rely.suffix⟩

namespace AuthService

/-- The regime of a confirmation after its lookup. -/
abbrev confirming (setup : Setup) (tid : ℕ) (found : World store outside) (tokenHash : String)
    (purpose : Purpose) : Regime :=
  ⟨setup, onceFound tid found tokenHash purpose, fun _ => True⟩

/-- What a lookup returns, it has found. -/
theorem mem_selectToken {found : World store outside} {ctx : Ctx store}
    (isSnap : ctx.snap = found.history.db) (isNow : ctx.now = found.clock)
    (some : (selectToken tokenHash purpose ctx).result ≠ []) :
    ∃ id row, Finds found tokenHash purpose id row := by
  obtain ⟨userId, member⟩ := List.exists_mem_of_ne_nil _ some
  obtain ⟨⟨id, row⟩, kept, -⟩ := List.mem_map.mp member
  obtain ⟨stored, selected⟩ := List.mem_filter.mp kept
  simp only [Bool.and_eq_true, beq_iff_eq, decide_eq_true_eq] at selected
  exact ⟨id, row, isSnap ▸ Rows.mem_list.mp stored, selected.1.1, selected.1.2,
    isNow ▸ selected.2⟩

/-- A DELETE of a token removes what is there before and when it runs. -/
theorem dropped_of_deleteToken {start : ℕ} {log : Log store outside} {entry : Entry store outside}
    {ctx : Ctx store} (ran : Entry.Ran (schema setup.lower) start log.writes
      (deleteToken setup tokenHash) entry ctx) (clean : Log.Clean log .authTokens)
    {before now : AuthTokenRow} (was : (entry.snap.db .authTokens).get id = some before)
    (mine : before.tokenHash = tokenHash) (is : (entry.cur.db .authTokens).get id = some now)
    (still : now.tokenHash = tokenHash) :
    ⟨.authTokens, id, none, .dropToken⟩ ∈ entry.writes := by
  rw [← ran.snap_table clean] at was
  rw [← ran.cur_table clean] at is
  exact ran.delete_hit was (by simpa using mine) is (by simpa using still)

variable {found world : World store outside} {userId : ℕ} {rawToken : String}
  {calls : List (Said outside)}

/-- A task that a confirmation goes on with. -/
abbrev Completes (setup : Setup) (tid : ℕ) (found : World store outside) (tokenHash : String)
    (purpose : Purpose) (task : Task Bool) (own : Local store outside) (world : World store outside) :
    Prop :=
  Safe (confirming setup tid found tokenHash purpose) task
    (fun yes own later => Confirmed tid found tokenHash purpose (.told yes, []) own later)
    (fun raised own later => Confirmed tid found tokenHash purpose (.raised raised, []) own later)
    own world

theorem confirmed_of_raised {raised : Err} {own : Local store outside} :
    Confirmed tid found tokenHash purpose (.raised raised, []) own world := fun told => by
  cases told

/-- A verification, once the token is found. -/
theorem completes_verification (past : found.history <:+ world.history)
    (some : ∃ id row, Finds found tokenHash .verify id row) :
    Completes setup tid found tokenHash .verify (do
      let _ ← execSql .db (verifyEmail userId)
      let _ ← execSql .db (deleteToken setup tokenHash)
      pure true) (idle tid calls) world := by
  have commits : (∃ id row, Finds found tokenHash .verify id row) ∧ ∀ h : History store outside,
      Purpose.verify = .reset → Swiped tid found.history tokenHash h := ⟨some, nofun⟩
  refine Svc.wp_bind (Svc.wp_exec (fun _ _ _ => confirmed_of_raised)
    (fun _ _ _ _ _ _ _ _ _ => commits.imp_right fun none => none _)
    fun opening entry ctx middle same ran before during grown => ?_)
  refine Svc.wp_bind (Svc.wp_exec (fun _ _ _ => confirmed_of_raised)
    (fun _ _ _ _ _ _ _ _ _ => commits.imp_right fun none => none _)
    fun opening last ctx' later same delete toSnap toCur after => ?_)
  refine Svc.wp_pure fun _ => ⟨some, last.snap, last.cur, ?_, toCur.suffix, ?_, ?_⟩
  · refine past.trans (before.suffix.trans (during.suffix.trans (List.IsSuffix.trans ?_ toSnap.suffix)))
    rw [grown]
    split
    · exact List.suffix_rfl
    · exact List.suffix_cons _ _
  · rw [after]
    split
    · exact List.suffix_rfl
    · exact List.suffix_cons _ _
  · intro id was now atSnap mine atCur still
    have made := dropped_of_deleteToken delete (Log.clean_nil _) atSnap mine atCur still
    rw [if_neg (List.ne_nil_of_mem made)] at after
    rw [after]
    exact ⟨_, last.cur, List.suffix_rfl, List.suffix_rfl, same,
      by simpa [Drops, Opening.commit] using made⟩

/-- What the transaction of a password reset has run when it returns. -/
theorem log_of_reset {start : ℕ} {newHash : String} {value : Bool} {scope : Scope store outside}
    (ran : Returns setup start (do
      let _ ← execSql .transaction (updatePassword userId newHash)
      let _ ← execSql .transaction (deleteSessionsOf setup userId)
      let _ ← execSql .transaction (deleteToken setup tokenHash)
      pure true) ⟨calls, .live []⟩ value scope) :
    ∃ token sessions user : Entry store outside, ∃ ctx, scope = ⟨calls, .live [token, sessions, user]⟩ ∧
      Log.Clean [sessions, user] .authTokens ∧
      Entry.Ran (schema setup.lower) start (Log.writes [sessions, user])
        (deleteToken setup tokenHash) token ctx := by
  obtain ⟨user, atUser, update, rest⟩ := returns_exec_bind.mp ran
  obtain ⟨sessions, atSessions, drop, rest⟩ := returns_exec_bind.mp rest
  obtain ⟨token, atToken, use, rest⟩ := returns_exec_bind.mp rest
  obtain ⟨-, rfl⟩ := returns_pure.mp rest
  exact ⟨token, sessions, user, atToken, rfl, (clean_of_reset update drop).2, use⟩

/-- When it has committed, the token is gone. -/
theorem swiped_of_reset {opening : Opening} {token sessions user : Entry store outside}
    {ctx : Ctx store} {earlier later : History store outside} {stop : ℕ}
    (use : Entry.Ran (schema setup.lower) opening.start (Log.writes [sessions, user])
      (deleteToken setup tokenHash) token ctx) (clean : Log.Clean [sessions, user] .authTokens)
    (same : opening.tid = tid) (past : found.history <:+ world.history)
    (since : world.history <:+ earlier) (began : world.history.length ≤ opening.began)
    (linked : ReadCommitted.Linked opening earlier [token, sessions, user])
    (after : later = if Log.writes [token, sessions, user] = [] then earlier
      else opening.commit calls [token, sessions, user] stop :: earlier) :
    Swiped tid found.history tokenHash later := by
  have grew : earlier <:+ later := by
    rw [after]
    split
    · exact List.suffix_rfl
    · exact List.suffix_cons _ _
  have isToken : token ∈ [token, sessions, user] := List.mem_cons_self
  have before : token.snap <:+ earlier :=
    (linked.spanned token isToken).trans (linked.past token isToken)
  have toSnap : world.history <:+ token.snap :=
    List.suffix_of_suffix_length_le since before (began.trans (linked.after token isToken))
  refine ⟨token.snap, token.cur, past.trans toSnap, linked.spanned token isToken,
    (linked.past token isToken).trans grew, fun id was now atSnap mine atCur still => ?_⟩
  have made := dropped_of_deleteToken use clean atSnap mine atCur still
  have made : ⟨.authTokens, id, none, .dropToken⟩ ∈ Log.writes [token, sessions, user] :=
    Log.mem_writes.mpr ⟨token, isToken, made⟩
  rw [if_neg (List.ne_nil_of_mem made)] at after
  rw [after]
  exact ⟨_, earlier, List.suffix_rfl, linked.past token isToken, same, made⟩

/-- A password reset, once the token is found. -/
theorem completes_reset {newPassword : String} (past : found.history <:+ world.history)
    (some : ∃ id row, Finds found tokenHash purpose id row) :
    Completes setup tid found tokenHash purpose (do
      let newHash ← hashPassword newPassword
      withTransaction do
        let _ ← execSql .transaction (updatePassword userId newHash)
        let _ ← execSql .transaction (deleteSessionsOf setup userId)
        let _ ← execSql .transaction (deleteToken setup tokenHash)
        pure true) (idle tid calls) world := by
  refine Svc.wp_bind (Svc.wp_call (fun _ _ => trivial) fun asked newHash toAsked => ?_)
  cases newHash with
  | error raised => exact @confirmed_of_raised _ _ _ _ _ _ (idle tid calls)
  | ok newHash =>
      have past : found.history <:+ asked.history := past.trans toAsked.suffix
      refine safe_transactionClosed ?_ ?_ ?_ ?_ fun _ _ _ _ _ => confirmed_of_raised
      · exact Svc.inside_bind (inside_execSql _) fun _ => Svc.inside_bind (inside_execSql _)
          fun _ => Svc.inside_bind (inside_execSql _) fun _ => Svc.inside_pure _
      · exact abandons_bind (abandons_execSql _) fun _ => abandons_bind (abandons_execSql _)
          fun _ => abandons_bind (abandons_execSql _) fun _ => abandons_pure _
      · intro opening done calls' log h stop same ran since began linked written _
        obtain ⟨token, sessions, user, atToken, isLog, clean, use⟩ := log_of_reset ran
        cases isLog
        exact ⟨some, fun _ => swiped_of_reset use clean same past since began linked
          (if_neg written).symm⟩
      · intro opening done scope' later same ran began closed _
        obtain ⟨token, sessions, user, atToken, rfl, clean, use⟩ := log_of_reset ran
        obtain ⟨earlier, stop, foreign, linked, after⟩ := closed
        exact ⟨some, swiped_of_reset use clean same past foreign.suffix began linked after⟩

/-- A confirmation whose lookup has just begun. -/
theorem flightSafe_lookup {task : List ℕ → Task Bool} (past : found.history <:+ world.history)
    (nothing : task [] = pure false)
    (goesOn : ∀ userId rest (later : World store outside), found.history <:+ later.history →
      (∃ id row, Finds found tokenHash purpose id row) →
      Completes setup tid found tokenHash purpose (task (userId :: rest)) (idle tid []) later) :
    ∃ next, Job.serve .told (execSql .db (selectToken tokenHash purpose) >>= task) =
        .exec false (selectToken tokenHash purpose) next ∧
      (∀ failure, next (.error failure) = .done (.raised (.sql failure), [])) ∧
      FlightSafe (onceFound tid found tokenHash purpose) (schema setup.lower) false
        (selectToken tokenHash purpose) ⟨found.history, found.clock⟩
        (fun reply => (next reply).wp (onceFound tid found tokenHash purpose)
          (schema setup.lower) (Confirmed tid found tokenHash purpose)) { tid := tid } world := by
  refine ⟨_, rfl, fun _ => rfl, ?_⟩
  refine @Svc.flightSafe_exec _ _ _ _ _ _ tid [] _ _ _ past
    (fun failure later _ => confirmed_of_raised)
    (fun _ _ _ ran _ written => absurd ran.writes written) ?_
  intro entry ctx later same ran during clocked after
  have silent : entry.writes = [] := ran.writes
  have isLater : later.history = entry.cur := by rw [after, if_pos silent]
  have isFound : ctx.snap = found.history.db := ran.snap.trans (congrArg History.db same)
  cases result : (selectToken tokenHash purpose ctx).result with
  | nil =>
      refine @wp_serve _ (confirming setup tid found tokenHash purpose) _ _ (task []) _ _ ?_
      rw [nothing]
      exact Svc.wp_pure fun told => by cases told
  | cons userId rest =>
      have some := mem_selectToken isFound ran.now (result ▸ List.cons_ne_nil _ _)
      refine @wp_serve _ (confirming setup tid found tokenHash purpose) _ _ _ _ _ ?_
      exact goesOn userId rest later (isLater ▸ past.trans during.suffix) some

/-- So begins every call that presents a token. -/
theorem flightSafe_presents {job : Job} (presents : job.presents = some (rawToken, purpose))
    (past : found.history <:+ world.history) :
    ∃ next, Job.prog setup job =
        .exec false (selectToken (setup.sha256Hex rawToken) purpose) next ∧
      (∀ failure, next (.error failure) = .done (.raised (.sql failure), [])) ∧
      FlightSafe (onceFound tid found (setup.sha256Hex rawToken) purpose) (schema setup.lower) false
        (selectToken (setup.sha256Hex rawToken) purpose) ⟨found.history, found.clock⟩
        (fun reply => (next reply).wp (onceFound tid found (setup.sha256Hex rawToken) purpose)
          (schema setup.lower) (Confirmed tid found (setup.sha256Hex rawToken) purpose))
        { tid := tid } world := by
  cases job with
  | confirmPasswordReset raw newPassword =>
      obtain ⟨rfl, rfl⟩ := Prod.mk.inj (Option.some.inj presents)
      exact flightSafe_lookup past rfl fun _ _ _ => completes_reset
  | confirmEmailVerification raw =>
      obtain ⟨rfl, rfl⟩ := Prod.mk.inj (Option.some.inj presents)
      exact flightSafe_lookup past rfl fun _ _ _ => completes_verification
  | _ => cases presents

end AuthService

section Rows

variable {config : Config store outside Job} {c d : Commit store outside}
  {h seen earlier : History store outside} {row : AuthTokenRow}

/-- A token row stays as it is until it is removed. -/
theorem token_between (reachable : Config.Reachable (application setup) config)
    (suffix : h <:+ config.world.history) (past : seen <:+ h)
    (stored : (seen.db .authTokens).get id = some row) :
    (h.db .authTokens).get id = some row ∨ ∃ c earlier, c :: earlier <:+ h ∧ seen <:+ earlier ∧
      Drops c id := by
  induction h with
  | nil =>
      obtain rfl := List.suffix_nil.mp past
      exact Or.inl stored
  | cons c h ih =>
      rcases List.suffix_cons_iff.mp past with rfl | inside
      · exact Or.inl stored
      have onward := List.suffix_cons c h
      rcases ih (onward.trans suffix) inside with still | ⟨d, earlier, within, rest⟩
      · rcases (promised_of_reachable reachable suffix).row_cases .authTokens id with
          ⟨same, -⟩ | ⟨now, label, member, isNow, -⟩
        · exact Or.inl (same.trans still)
        · have wrote : TokenWrote setup config.jobs h c id now label :=
            access_of_reachable reachable suffix _ member
          cases wrote with
          | issued fresh => exact absurd (still.symm.trans (fresh.get List.suffix_rfl)) (by simp)
          | dropped => exact Or.inr ⟨c, h, List.suffix_rfl, inside, member⟩
      · exact Or.inr ⟨d, earlier, within.trans onward, rest⟩

/-- A token row whose id had been used before was there before. -/
theorem token_before (reachable : Config.Reachable (application setup) config)
    (suffix : h <:+ config.world.history) (past : seen <:+ h) (used : ¬ Unused seen .authTokens id)
    (stored : (h.db .authTokens).get id = some row) :
    (seen.db .authTokens).get id = some row := by
  induction h with
  | nil =>
      obtain rfl := List.suffix_nil.mp past
      exact stored
  | cons c h ih =>
      rcases List.suffix_cons_iff.mp past with rfl | inside
      · exact stored
      have before := (List.suffix_cons c h).trans suffix
      rcases (promised_of_reachable reachable suffix).row_cases .authTokens id with
        ⟨same, -⟩ | ⟨now, label, member, isNow, -⟩
      · exact ih before inside (same.symm.trans stored)
      · have wrote : TokenWrote setup config.jobs h c id now label :=
          access_of_reachable reachable suffix _ member
        cases wrote with
        | issued fresh => exact absurd (fresh.earlier inside) used
        | dropped => exact absurd (isNow.symm.trans stored) (by simp)

/-- A commit that removes a token is of a call that presents it. -/
theorem presents_of_drops (reachable : Config.Reachable (application setup) config)
    (suffix : c :: h <:+ config.world.history) (drops : Drops c id) :
    ∃ row : AuthTokenRow, (h.db .authTokens).get id = some row ∧ ∃ job rawToken purpose,
      config.jobs c.tid = some job ∧ job.presents = some (rawToken, purpose) ∧
        setup.sha256Hex rawToken = row.tokenHash := by
  have wrote : TokenWrote setup config.jobs h c id none .dropToken :=
    access_of_reachable reachable suffix _ drops
  cases wrote with
  | dropped isJob presents token stored => exact ⟨_, stored, _, _, _, isJob, presents, token.symm⟩

/-- A token that was removed is gone for good. -/
theorem gone_of_drops (reachable : Config.Reachable (application setup) config)
    (suffix : h <:+ config.world.history) (past : c :: earlier <:+ h) (drops : Drops c id) :
    (h.db .authTokens).get id = none := by
  have removed := (promised_of_reachable reachable (past.trans suffix)).get (by decide) drops
  have used : ¬ Unused (c :: earlier) .authTokens id := fun unused =>
    unused c List.mem_cons_self _ drops ⟨rfl, rfl⟩
  by_contra still
  obtain ⟨row, stored⟩ := Option.ne_none_iff_exists'.mp still
  have before := token_before reachable suffix past used stored
  exact absurd (removed.symm.trans before) (by simp)

/-- A token is removed once. -/
theorem drops_once (reachable : Config.Reachable (application setup) config)
    (suffix : c :: h <:+ config.world.history) (suffix' : d :: earlier <:+ config.world.history)
    (drops : Drops c id) (drops' : Drops d id) : c = d := by
  -- What one has removed, the other does not find.
  have never : ∀ {first second : Commit store outside} {before between : History store outside},
      first :: before <:+ between → second :: between <:+ config.world.history →
      Drops first id → ¬ Drops second id := by
    intro first second before between within past firstly secondly
    obtain ⟨row, stored, -⟩ := presents_of_drops reachable past secondly
    have gone := gone_of_drops reachable ((List.suffix_cons second between).trans past) within
      firstly
    exact absurd (gone.symm.trans stored) (by simp)
  rcases List.suffix_or_suffix_of_suffix suffix suffix' with below | above
  · rcases List.suffix_cons_iff.mp below with same | inside
    · exact (List.cons.inj same).1
    · exact absurd drops' (never inside suffix' drops)
  · rcases List.suffix_cons_iff.mp above with same | inside
    · exact (List.cons.inj same).1.symm
    · exact absurd drops (never inside suffix drops')

end Rows

section Calls

/-- The process presents a token of this hash, for this purpose. -/
def Presents (setup : Setup) (config : Config store outside Job) (tid : ℕ) (tokenHash : String)
    (purpose : Purpose) : Prop :=
  ∃ proc rawToken, config.procs tid = some proc ∧ proc.job.presents = some (rawToken, purpose) ∧
    setup.sha256Hex rawToken = tokenHash

/-- A process presents one token. -/
theorem Presents.hash_eq {config : Config store outside Job} {other : String} {purpose' : Purpose}
    (presents : Presents setup config tid tokenHash purpose)
    (presents' : Presents setup config tid other purpose') : tokenHash = other := by
  obtain ⟨proc, rawToken, there, isToken, rfl⟩ := presents
  obtain ⟨same, rawToken', there', isToken', rfl⟩ := presents'
  obtain rfl := Option.some.inj (there.symm.trans there')
  obtain ⟨rfl, -⟩ := Prod.mk.inj (Option.some.inj (isToken.symm.trans isToken'))
  rfl

/-- The process is still running: it has not answered, or its transaction has not committed. -/
def Underway (config : Config store outside Job) (tid : ℕ) : Prop :=
  ∃ proc prog flight, config.procs tid = some proc ∧ proc.life = .running prog flight

/-- The process was told yes. -/
def ToldYes (config : Config store outside Job) (tid : ℕ) : Prop :=
  ∃ proc, config.procs tid = some proc ∧ proc.life = .ended (.told true)

/-- The lookup of the call has found this row, of the token that it presents. -/
structure Holds (setup : Setup) (config : Config store outside Job) (onsets : Onsets store outside)
    (tid : ℕ) (found : World store outside) (id : ℕ) (row : AuthTokenRow) : Prop where
  onset : onsets tid = some found
  presents : Presents setup config tid row.tokenHash row.purpose
  finds : Finds found row.tokenHash row.purpose id row

variable {pace : Pace (application setup)} {config next : Config store outside Job}
  {onsets : Onsets store outside} {found : World store outside} {choice : Move outside (application setup).Job}

/-- Nobody is told yes before a lookup. -/
theorem onset_of_told (paced : Config.Paced (application setup) pace config onsets)
    (presents : Presents setup config tid tokenHash purpose) (told : ToldYes config tid) :
    ∃ found, onsets tid = some found := by
  obtain ⟨proc, rawToken, at_, isToken, -⟩ := presents
  obtain ⟨same, also, ended⟩ := told
  obtain rfl := Option.some.inj (at_.symm.trans also)
  obtain ⟨rest, opens, refuses, -⟩ :=
    @AuthService.flightSafe_presents setup tid purpose config.world config.world rawToken
      proc.job isToken List.suffix_rfl
  refine paced.onset_of_ended at_ opens (fun failure => ⟨_, refuses failure⟩) ended ?_
  intro failure ending isDone same
  obtain rfl := Prog.done.inj ((refuses failure).symm.trans isDone)
  cases same

/-- A confirmation since its lookup. -/
theorem confirmed (paced : Config.Paced (application setup) pace config onsets)
    (known : onsets tid = some found) (presents : Presents setup config tid tokenHash purpose) :
    found.history <:+ config.world.history ∧
    (ToldYes config tid → (∃ id row, Finds found tokenHash purpose id row) ∧
      Swiped tid found.history tokenHash config.world.history) ∧
    ∀ c h, c :: h <:+ config.world.history → found.history <:+ h → c.tid = tid →
      (∃ id row, Finds found tokenHash purpose id row) ∧
        (purpose = .reset → Swiped tid found.history tokenHash (c :: h)) := by
  obtain ⟨proc, rawToken, at_, isToken, rfl⟩ := presents
  obtain ⟨rest, opens, refuses, safe⟩ :=
    @AuthService.flightSafe_presents setup tid purpose found found.tick rawToken
      proc.job isToken List.suffix_rfl
  have allows : (onceFound tid found (setup.sha256Hex rawToken) purpose).Allows
      (access setup config.jobs) tid := fun h c foreign _ same => absurd same foreign
  obtain ⟨aims, past, commits⟩ := paced.aims known at_ opens (fun failure => ⟨_, refuses failure⟩)
    safe (stable_confirmed _) allows (keeps_access setup config.jobs) config.agrees_jobs
  refine ⟨past, fun told => ?_, fun c h within since mine => commits c h within since mine mine⟩
  obtain ⟨same, also, yes⟩ := told
  obtain rfl := Option.some.inj (at_.symm.trans also)
  simp only [Proc.Aims, yes] at aims
  obtain ⟨jobs, holds⟩ := aims
  exact holds rfl

theorem Presents.back (paced : Config.Paced (application setup) pace config onsets)
    (moved : Config.move (application setup) config choice = some next)
    (presents : Presents setup next tid tokenHash purpose) {proc : Proc store outside Job}
    (there : config.procs tid = some proc) : Presents setup config tid tokenHash purpose := by
  obtain ⟨last, rawToken, at_, isToken, token⟩ := presents
  obtain ⟨same, at', isJob⟩ := (paced.reachable.numbered.move moved).jobs tid proc there
  obtain rfl := Option.some.inj (at_.symm.trans at')
  exact ⟨proc, rawToken, there, isJob ▸ isToken, token⟩

theorem Underway.back (paced : Config.Paced (application setup) pace config onsets)
    (moved : Config.move (application setup) config choice = some next)
    (underway : Underway next tid) {proc : Proc store outside Job}
    (there : config.procs tid = some proc) : Underway config tid := by
  obtain ⟨last, prog, flight, at_, running⟩ := underway
  rcases Config.Paced.was_of_move paced.reachable.numbered there moved at_ with rfl | ⟨_, _, ran⟩
  · exact ⟨last, prog, flight, there, running⟩
  · exact ⟨proc, _, _, there, ran⟩

theorem ToldYes.back (paced : Config.Paced (application setup) pace config onsets)
    (moved : Config.move (application setup) config choice = some next)
    (told : ToldYes next tid) {proc : Proc store outside Job}
    (there : config.procs tid = some proc) : Underway config tid ∨ ToldYes config tid := by
  obtain ⟨last, at_, yes⟩ := told
  rcases Config.Paced.was_of_move paced.reachable.numbered there moved at_ with rfl | ⟨_, _, ran⟩
  · exact Or.inr ⟨last, there, yes⟩
  · exact Or.inl ⟨proc, _, _, there, ran⟩

variable {row : AuthTokenRow} {c : Commit store outside} {h seen : History store outside}

/-- What a call holds it held before the move, or it has just begun. -/
theorem Holds.back (paced : Config.Paced (application setup) pace config onsets)
    (moved : Config.move (application setup) config choice = some next)
    (holds : Holds setup next (onsets.after config choice) tid found id row) :
    Holds setup config onsets tid found id row ∨ choice = .start tid ∧ onsets tid = none ∧
      found = config.world ∧ Presents setup config tid row.tokenHash row.purpose := by
  cases was : onsets tid with
  | some first =>
      obtain rfl := Option.some.inj ((Onsets.after_of_some was).symm.trans holds.onset)
      obtain ⟨proc, there⟩ := paced.exists_of_onset was
      exact Or.inl ⟨was, holds.presents.back paced moved there, holds.finds⟩
  | none =>
      obtain ⟨rfl, isNow⟩ := Onsets.after_of_none was holds.onset
      obtain ⟨proc, there, -⟩ := Option.bind_eq_some_iff.mp moved
      exact Or.inr ⟨rfl, rfl, isNow, holds.presents.back paced moved there⟩

/-- Whoever removes a row has found one of the same token. -/
theorem holds_of_drops (paced : Config.Paced (application setup) pace config onsets)
    (suffix : c :: h <:+ config.world.history) (drops : Drops c id) (past : seen <:+ h)
    (stored : (seen.db .authTokens).get id = some row) (known : onsets c.tid = some found)
    (since : found.history <:+ h) :
    ∃ id' row', Holds setup config onsets c.tid found id' row' ∧
      row'.tokenHash = row.tokenHash := by
  obtain ⟨now, is, job, rawToken, purpose, isJob, isToken, token⟩ :=
    presents_of_drops paced.reachable suffix drops
  have used : ¬ Unused seen .authTokens id := fun unused =>
    absurd (stored.symm.trans (unused.get List.suffix_rfl)) (by simp)
  have same := token_before paced.reachable ((List.suffix_cons c h).trans suffix) past used is
  obtain rfl := Option.some.inj (stored.symm.trans same)
  obtain ⟨proc, there, rfl⟩ := Option.map_eq_some_iff.mp isJob
  have presents : Presents setup config c.tid row.tokenHash purpose :=
    ⟨proc, rawToken, there, isToken, token⟩
  obtain ⟨id', row', finds⟩ := ((confirmed paced known presents).2.2 c h suffix since rfl).1
  obtain ⟨isStored, isHash, rfl, live⟩ := finds
  exact ⟨id', row', ⟨known, isHash ▸ presents, isStored, rfl, rfl, live⟩, isHash⟩

/-- A call that presents a token has begun when it commits. -/
theorem onset_of_commit (paced : Config.Paced (application setup) pace config onsets)
    (moved : Config.move (application setup) config choice = some next)
    (grown : next.world.history = c :: config.world.history)
    (presents : Presents setup next c.tid tokenHash purpose) :
    Config.actor choice = some c.tid ∧ Underway config c.tid ∧
      ∃ found, onsets c.tid = some found := by
  have agreed := (paced.reachable.numbered.move moved).agrees next.agrees_jobs
  have acts : Config.actor choice = some c.tid := by
    rcases (((keeps_access setup next.jobs).inv paced.reachable agreed).advances moved).history with
      same | ⟨other, grownBy, acts, -⟩
    · exact absurd (grown.symm.trans same) (List.cons_ne_self _ _)
    · obtain ⟨rfl, -⟩ := List.cons.inj (grown.symm.trans grownBy)
      exact acts
  rcases Config.move_cases moved with ⟨none, -⟩ | ⟨tid, proc, _, _, _, _, isTid, there, turn, -⟩
  · exact absurd (none.symm.trans acts) (by simp)
  obtain rfl := Option.some.inj (isTid.symm.trans acts)
  obtain ⟨prog, flight, ran⟩ := Config.Paced.running_of_turn turn
  refine ⟨acts, ⟨proc, prog, flight, there, ran⟩, ?_⟩
  by_contra never
  have unknown : onsets c.tid = none := by
    by_contra known
    exact never (Option.ne_none_iff_exists'.mp known)
  obtain ⟨same, rawToken, at_, isToken, -⟩ := presents.back paced moved there
  obtain rfl := Option.some.inj (there.symm.trans at_)
  obtain ⟨rest, opens, refuses, -⟩ :=
    @AuthService.flightSafe_presents setup c.tid purpose config.world config.world rawToken
      proc.job isToken List.suffix_rfl
  have quiet := paced.quiet unknown there opens (fun failure => ⟨_, refuses failure⟩) moved acts
  exact absurd (grown.symm.trans quiet) (List.cons_ne_self _ _)

/-- Whoever removes a row has begun. -/
theorem onset_of_drops (paced : Config.Paced (application setup) pace config onsets)
    (moved : Config.move (application setup) config choice = some next)
    (grown : next.world.history = c :: config.world.history) (drops : Drops c id) :
    Config.actor choice = some c.tid ∧ Underway config c.tid ∧
      ∃ found, onsets c.tid = some found := by
  have suffix : c :: config.world.history <:+ next.world.history := by
    simp only [grown, List.suffix_rfl]
  obtain ⟨row, -, job, rawToken, purpose, isJob, isToken, -⟩ :=
    presents_of_drops (paced.reachable.move choice moved) suffix drops
  obtain ⟨proc, there, rfl⟩ := Option.map_eq_some_iff.mp isJob
  exact onset_of_commit paced moved grown ⟨proc, rawToken, there, isToken, rfl⟩

/-- What happened before its lookup stays in the history. -/
theorem past_of_onset (paced : Config.Paced (application setup) pace config onsets)
    (known : onsets tid = some found) : found.history <:+ config.world.history := by
  obtain ⟨before, begun, earlier, prior, -, rfl, starts, leads⟩ := paced.onset known
  exact (Config.Leads.grows (.head ⟨_, starts⟩ leads) (keeps_access setup config.jobs)
    prior.reachable config.agrees_jobs).1

/-- A commit was there before the move, or is the one that the move adds. -/
theorem history_cases (paced : Config.Paced (application setup) pace config onsets)
    (moved : Config.move (application setup) config choice = some next)
    (suffix : c :: h <:+ next.world.history) : c :: h <:+ config.world.history ∨
      h = config.world.history ∧ next.world.history = c :: config.world.history := by
  have agreed := (paced.reachable.numbered.move moved).agrees next.agrees_jobs
  rcases (((keeps_access setup next.jobs).inv paced.reachable agreed).advances moved).history with
    same | ⟨other, grown, -⟩
  · exact Or.inl (same ▸ suffix)
  · rw [grown] at suffix
    rcases List.suffix_cons_iff.mp suffix with equal | inside
    · obtain ⟨rfl, rfl⟩ := List.cons.inj equal
      exact Or.inr ⟨rfl, grown⟩
    · exact Or.inl inside

/-- What a call that presents a token commits, it commits since its lookup. -/
theorem since_of_commit {config : Config store outside (application setup).Job}
    (paced : Config.Paced (application setup) pace config onsets)
    (presents : Presents setup config c.tid tokenHash purpose)
    (suffix : c :: h <:+ config.world.history) :
    ∃ found, onsets c.tid = some found ∧ found.history <:+ h := by
  induction paced with
  | initial => simp [Config.initial] at suffix
  | @move config next onsets prior choice allowed moved ih =>
      rcases history_cases prior moved suffix with old | ⟨rfl, grown⟩
      · obtain ⟨job, isJob, -⟩ := labels_of_reachable prior.reachable (old.subset List.mem_cons_self)
        obtain ⟨proc, there, -⟩ := Option.map_eq_some_iff.mp isJob
        obtain ⟨found, known, since⟩ := ih (presents.back prior moved there) old
        exact ⟨found, Onsets.after_of_some known, since⟩
      · obtain ⟨-, -, found, known⟩ := onset_of_commit prior moved grown presents
        exact ⟨found, Onsets.after_of_some known, past_of_onset prior known⟩

/-- Once the DELETE has run, what the lookup found has been removed. -/
theorem removed_of_swiped (reachable : Config.Reachable (application setup) config)
    (past : h <:+ config.world.history) (swiped : Swiped tid found.history row.tokenHash h)
    (stored : (found.history.db .authTokens).get id = some row) :
    ∃ c earlier, c :: earlier <:+ h ∧ found.history <:+ earlier ∧ Drops c id := by
  obtain ⟨snap, cur, began, during, upTo, removed⟩ := swiped
  rcases token_between reachable ((during.trans upTo).trans past) began stored with
    inSnap | ⟨c, earlier, within, since, drops⟩
  · rcases token_between reachable (upTo.trans past) during inSnap with
      inCur | ⟨c, earlier, within, since, drops⟩
    · obtain ⟨c, earlier, within, since, -, drops⟩ := removed id row row inSnap rfl inCur rfl
      exact ⟨c, earlier, within, (began.trans during).trans since, drops⟩
    · exact ⟨c, earlier, within.trans upTo, began.trans since, drops⟩
  · exact ⟨c, earlier, within.trans (during.trans upTo), since, drops⟩

/-- When a call is told yes, the row has been removed since its lookup. -/
theorem removed_of_told (paced : Config.Paced (application setup) pace config onsets)
    (holds : Holds setup config onsets tid found id row) (told : ToldYes config tid) :
    ∃ c h, c :: h <:+ config.world.history ∧ found.history <:+ h ∧ Drops c id :=
  removed_of_swiped paced.reachable List.suffix_rfl
    ((confirmed paced holds.onset holds.presents).2.1 told).2 holds.finds.1

/-- Who is told yes has found the token, for its own purpose and not expired. -/
theorem holds_of_told (paced : Config.Paced (application setup) pace config onsets)
    (presents : Presents setup config tid tokenHash purpose) (told : ToldYes config tid) :
    ∃ found id row, Holds setup config onsets tid found id row ∧ row.tokenHash = tokenHash ∧
      row.purpose = purpose := by
  obtain ⟨found, known⟩ := onset_of_told paced presents told
  obtain ⟨⟨id, row, stored, rfl, rfl, live⟩, -⟩ := (confirmed paced known presents).2.1 told
  exact ⟨found, id, row, ⟨known, presents, stored, rfl, rfl, live⟩, rfl, rfl⟩

/-- A call that was told yes has found a token of its purpose that had not expired. What it
found is gone for good: from the answer on when an email is verified, whose DELETE is a
statement by itself, and from its own commit on when a password is reset, whose caller need
not have waited for that. -/
theorem spent_of_told (paced : Config.Paced (application setup) pace config onsets)
    (presents : Presents setup config tid tokenHash purpose) :
    (ToldYes config tid → ∃ found id row, Holds setup config onsets tid found id row ∧
      row.tokenHash = tokenHash ∧ row.purpose = purpose) ∧
    (purpose = .verify → ToldYes config tid → ∀ found id row,
      Holds setup config onsets tid found id row → ∀ after,
      Config.Leads (application setup) config after →
      (after.world.history.db .authTokens).get id = none) ∧
    (purpose = .reset → ∀ (c : Commit store outside) (h later : History store outside),
      c.tid = tid → c :: h <:+ later → later <:+ config.world.history →
      (∃ found id row, Holds setup config onsets tid found id row ∧ row.tokenHash = tokenHash) ∧
      ∀ found id row, Holds setup config onsets tid found id row →
        (later.db .authTokens).get id = none) := by
  refine ⟨holds_of_told paced presents, ?_, ?_⟩
  · intro _ told found id row holds after leads
    obtain ⟨c, h, past, -, drops⟩ := removed_of_told paced holds told
    have later := leads.reachable paced.reachable
    have grows := (Config.Leads.grows leads (keeps_access setup after.jobs) paced.reachable
      after.agrees_jobs).1
    exact gone_of_drops later List.suffix_rfl (past.trans grows) drops
  · rintro rfl c h later rfl within past
    obtain ⟨found, known, since⟩ := since_of_commit paced presents (within.trans past)
    obtain ⟨⟨id, row, finds⟩, swiped⟩ :=
      (confirmed paced known presents).2.2 c h (within.trans past) since rfl
    obtain ⟨stored, rfl, isPurpose, live⟩ := finds
    refine ⟨⟨found, id, row, ⟨known, isPurpose ▸ presents, stored, rfl, rfl, live⟩, rfl⟩, ?_⟩
    intro found' id' row' holds
    obtain rfl := Option.some.inj (known.symm.trans holds.onset)
    have same : row'.tokenHash = row.tokenHash := holds.presents.hash_eq presents
    obtain ⟨d, earlier, inside, -, drops⟩ := removed_of_swiped paced.reachable (within.trans past)
      (same ▸ swiped rfl) holds.finds.1
    exact gone_of_drops paced.reachable past (inside.trans within) drops

end Calls

/-- The confirmations of one token take their turns. -/
structure SingleFile (setup : Setup) (config : Config store outside Job)
    (onsets : Onsets store outside) (choice : Move outside Job) : Prop where
  /-- A lookup finds a token only while no other call is under way that has found it. -/
  alone : ∀ tid id row, choice = .start tid → onsets tid = none →
    Presents setup config tid row.tokenHash row.purpose →
    Finds config.world row.tokenHash row.purpose id row → ∀ other found id' row',
    Underway config other → Holds setup config onsets other found id' row' →
    row'.tokenHash ≠ row.tokenHash

/-- What the confirmations owe to their order. -/
structure Once (setup : Setup) (config : Config store outside Job)
    (onsets : Onsets store outside) : Prop where
  /-- No two calls under way have found one token. -/
  alone : ∀ tid found id row other found' id' row', Underway config tid →
    Underway config other → Holds setup config onsets tid found id row →
    Holds setup config onsets other found' id' row' → row.tokenHash = row'.tokenHash →
    tid = other
  /-- What a call has found, nobody else has removed before its end. -/
  kept : ∀ tid found id row c h, Holds setup config onsets tid found id row →
    Underway config tid ∨ ToldYes config tid → c :: h <:+ config.world.history →
    found.history <:+ h → Drops c id → c.tid = tid

namespace Once

variable {config next : Config store outside Job} {onsets : Onsets store outside}
  {choice : Move outside (application setup).Job}

theorem initial : Once setup (Config.initial (application setup)) fun _ => none where
  alone _ _ _ _ _ _ _ _ _ _ holds := nomatch holds.onset
  kept _ _ _ _ _ _ holds := nomatch holds.onset

variable (once : Once setup config onsets)
  (paced : Config.Paced (application setup) (SingleFile setup) config onsets)
  (allowed : SingleFile setup config onsets choice)
  (moved : Config.move (application setup) config choice = some next)

include once paced allowed moved

/-- A lookup that begins finds no token that another call has found. -/
theorem alone_move {tid : ℕ} {found : World store outside} {id : ℕ} {row : AuthTokenRow}
    {other : ℕ} {found' : World store outside} {id' : ℕ} {row' : AuthTokenRow}
    (underway : Underway next tid) (underway' : Underway next other)
    (holds : Holds setup next (onsets.after config choice) tid found id row)
    (holds' : Holds setup next (onsets.after config choice) other found' id' row')
    (same : row.tokenHash = row'.tokenHash) : tid = other := by
  have there : ∀ {tid found id row}, Holds setup config onsets tid found id row →
      ∃ proc, config.procs tid = some proc := fun holds => paced.exists_of_onset holds.onset
  rcases holds.back paced moved with before | ⟨rfl, none, rfl, presents⟩
  · obtain ⟨proc, at_⟩ := there before
    have ran := underway.back paced moved at_
    rcases holds'.back paced moved with before' | ⟨rfl, none, rfl, presents⟩
    · obtain ⟨proc', at'⟩ := there before'
      exact once.alone _ _ _ _ _ _ _ _ ran (underway'.back paced moved at') before before' same
    · exact absurd same
        (allowed.alone other id' row' rfl none presents holds'.finds tid found id row ran before)
  · rcases holds'.back paced moved with before' | ⟨isStart, -⟩
    · obtain ⟨proc', at'⟩ := there before'
      exact absurd same.symm (allowed.alone tid id row rfl none presents holds.finds other found'
        id' row' (underway'.back paced moved at') before')
    · exact Move.start.inj isStart

/-- A row that a call has found is removed by nobody else. -/
theorem kept_move {tid : ℕ} {found : World store outside} {id : ℕ} {row : AuthTokenRow}
    {c : Commit store outside} {h : History store outside}
    (holds : Holds setup next (onsets.after config choice) tid found id row)
    (still : Underway next tid ∨ ToldYes next tid) (suffix : c :: h <:+ next.world.history)
    (since : found.history <:+ h) (drops : Drops c id) : c.tid = tid := by
  have after : Config.Paced (application setup) (SingleFile setup) next
      (onsets.after config choice) := .move paced choice allowed moved
  rcases holds.back paced moved with before | ⟨rfl, -, rfl, -⟩
  · obtain ⟨proc, there⟩ := paced.exists_of_onset before.onset
    have stillBefore : Underway config tid ∨ ToldYes config tid := by
      rcases still with underway | told
      · exact Or.inl (underway.back paced moved there)
      · exact told.back paced moved there
    have kept := fun c h => once.kept tid found id row c h before stillBefore
    rcases history_cases paced moved suffix with old | ⟨rfl, grown⟩
    · exact kept c h old since drops
    · rcases stillBefore with ran | told
      · -- Whoever removes the row now has found the token too, and is under way.
        obtain ⟨-, runs, found', onset⟩ := onset_of_drops paced moved grown drops
        have known := @Onsets.after_of_some _ _ _ config choice _ _ _ onset
        obtain ⟨id', row', holds', same⟩ := holds_of_drops after suffix drops since
          before.finds.1 known (past_of_onset paced onset)
        rcases holds'.back paced moved with before' | ⟨-, none, -⟩
        · exact once.alone _ _ _ _ _ _ _ _ runs ran before' before same
        · exact absurd (none.symm.trans onset) (by simp)
      · -- The call has removed the row itself.
        obtain ⟨d, earlier, past, since', drops'⟩ := removed_of_told paced before told
        have mine := kept d earlier past since' drops'
        have past : d :: earlier <:+ next.world.history :=
          past.trans (grown ▸ List.suffix_cons c config.world.history)
        exact drops_once after.reachable suffix past drops drops' ▸ mine
  · rw [Config.Paced.history_of_start moved] at suffix
    exact absurd (suffix.length_le.trans since.length_le) (by simp)

end Once

/-- Every run in which the confirmations take their turns. -/
theorem once_of_paced {config : Config store outside (application setup).Job}
    {onsets : Onsets store outside}
    (paced : Config.Paced (application setup) (SingleFile setup) config onsets) :
    Once setup config onsets := by
  induction paced with
  | initial => exact .initial
  | move prior choice allowed moved ih =>
      exact {
        alone := fun _ _ _ _ _ _ _ _ => ih.alone_move prior allowed moved
        kept := fun _ _ _ _ _ _ => ih.kept_move prior allowed moved }

section Turns

variable {config : Config store outside (application setup).Job} {onsets : Onsets store outside}
  (paced : Config.Paced (application setup) (SingleFile setup) config onsets)

include paced

/-- A call that was told yes has itself removed the row that it has found. -/
theorem drops_of_told {found : World store outside} {row : AuthTokenRow}
    (holds : Holds setup config onsets tid found id row) (told : ToldYes config tid) :
    ∃ c h, c :: h <:+ config.world.history ∧ found.history <:+ h ∧ c.tid = tid ∧ Drops c id := by
  obtain ⟨c, h, past, since, drops⟩ := removed_of_told paced holds told
  have kept := (once_of_paced paced).kept tid found id row c h holds (Or.inr told) past since drops
  exact ⟨c, h, past, since, kept, drops⟩

/-- No two calls were told yes for one row. -/
theorem eq_of_told {other : ℕ} {found found' : World store outside} {row row' : AuthTokenRow}
    (told : ToldYes config tid) (told' : ToldYes config other)
    (holds : Holds setup config onsets tid found id row)
    (holds' : Holds setup config onsets other found' id row') : tid = other := by
  obtain ⟨c, h, past, -, mine, drops⟩ := drops_of_told paced holds told
  obtain ⟨d, h', past', -, mine', drops'⟩ := drops_of_told paced holds' told'
  rw [← mine, ← mine', drops_once paced.reachable past past' drops drops']

/-- Nor for one hash, if only one row with it was ever stored. -/
theorem eq_of_presents {other : ℕ} {purpose' : Purpose}
    (single : ∀ h h' id id', ∀ row row' : AuthTokenRow, h <:+ config.world.history →
      h' <:+ config.world.history → (History.db h .authTokens).get id = some row →
      (History.db h' .authTokens).get id' = some row' → row.tokenHash = tokenHash →
      row'.tokenHash = tokenHash → id = id')
    (presents : Presents setup config tid tokenHash purpose)
    (presents' : Presents setup config other tokenHash purpose')
    (told : ToldYes config tid) (told' : ToldYes config other) : tid = other := by
  obtain ⟨found, id, row, holds, isHash, -⟩ := holds_of_told paced presents told
  obtain ⟨found', id', row', holds', isHash', -⟩ := holds_of_told paced presents' told'
  obtain rfl := single _ _ id id' row row' (past_of_onset paced holds.onset)
    (past_of_onset paced holds'.onset) holds.finds.1 holds'.finds.1 isHash isHash'
  exact eq_of_told paced told told' holds holds'

end Turns

/-- In a run in which the confirmations take their turns, a call that was told yes has itself
removed a token of its purpose; no other call was told yes for it; and if only one token with
this hash was ever stored, for that hash no other was told yes at all. -/
theorem singleUse {config : Config store outside (application setup).Job}
    {onsets : Onsets store outside}
    (paced : Config.Paced (application setup) (SingleFile setup) config onsets) :
    (∀ tid tokenHash purpose, Presents setup config tid tokenHash purpose → ToldYes config tid →
      ∃ found id row c h, Holds setup config onsets tid found id row ∧
        row.tokenHash = tokenHash ∧ row.purpose = purpose ∧ c :: h <:+ config.world.history ∧
        c.tid = tid ∧ Drops c id) ∧
    (∀ tid other found found' id row row', ToldYes config tid → ToldYes config other →
      Holds setup config onsets tid found id row → Holds setup config onsets other found' id row' →
      tid = other) ∧
    ∀ tokenHash, (∀ h h' id id', ∀ row row' : AuthTokenRow, h <:+ config.world.history →
      h' <:+ config.world.history → (History.db h .authTokens).get id = some row →
      (History.db h' .authTokens).get id' = some row' → row.tokenHash = tokenHash →
      row'.tokenHash = tokenHash → id = id') →
      ∀ tid other purpose purpose', Presents setup config tid tokenHash purpose →
        Presents setup config other tokenHash purpose' → ToldYes config tid →
        ToldYes config other → tid = other := by
  refine ⟨fun tid tokenHash purpose presents told => ?_, fun _ _ _ _ _ _ _ => eq_of_told paced,
    fun _ single _ _ _ _ => eq_of_presents paced single⟩
  obtain ⟨found, id, row, holds, isHash, isPurpose⟩ := holds_of_told paced presents told
  obtain ⟨c, h, past, -, mine, drops⟩ := drops_of_told paced holds told
  exact ⟨found, id, row, c, h, holds, isHash, isPurpose, past, mine, drops⟩

section Demo

/-- Only one process presents a token at a lookup. -/
def ordersConfirmations (config : Config store outside Job) (onsets : Onsets store outside) :
    Move outside Job → Bool
  | .start tid => (onsets tid).isSome || (List.range config.tids).all fun other =>
      other == tid || (config.procs other).all fun proc => proc.job.presents.isNone
  | _ => true

theorem singleFile_of_orders (config : Config store outside (application setup).Job)
    (onsets : Onsets store outside) (choice : Move outside (application setup).Job)
    (paced : Config.Paced (application setup) (SingleFile setup) config onsets)
    (orders : ordersConfirmations config onsets choice = true) :
    SingleFile setup config onsets choice := by
  constructor
  rintro tid id row rfl unknown - - other found id' row' - holds -
  obtain ⟨proc, rawToken, there, isToken, -⟩ := holds.presents
  have known := paced.reachable.numbered other proc there
  simp only [ordersConfirmations, unknown, Option.isSome_none, Bool.false_or, List.all_eq_true,
    List.mem_range, Bool.or_eq_true, beq_iff_eq] at orders
  rcases orders other known with rfl | none
  · exact absurd (unknown.symm.trans holds.onset) (by simp)
  · simp [there, isToken] at none

/-- A user has reset the password. -/
@[irreducible] def oneSpent : Config store outside Job :=
  Config.ran (application demo) (forgetting ++ resetting 2) (by decide +kernel)

theorem paced_oneSpent :
    ∃ onsets, Config.Paced (application demo) (SingleFile demo) oneSpent onsets := by
  unfold oneSpent
  have checked : Config.paces (application demo) ordersConfirmations
      (forgetting ++ resetting 2) (Config.initial (application demo)) (fun _ => none) = true := by
    decide +kernel
  exact Config.Paced.initial.run singleFile_of_orders checked (Option.some_get _).symm

/-- It has presented the token, and was told yes. -/
theorem told_oneSpent : Presents demo oneSpent 2 "ticket" .reset ∧ ToldYes oneSpent 2 := by
  have presents : (oneSpent.procs 2).bind (·.job.presents) = some ("ticket", .reset) := by
    decide +kernel
  have told : (oneSpent.procs 2).bind (·.life.answer?) = some (.told true) := by decide +kernel
  obtain ⟨proc, found, isToken⟩ := Option.bind_eq_some_iff.mp presents
  obtain ⟨same, also, ended⟩ := Option.bind_eq_some_iff.mp told
  exact ⟨⟨proc, "ticket", found, isToken, rfl⟩, same, also, Life.answer?_eq_some.mp ended⟩

theorem spent_of_oneSpent : ∃ onsets found id row, Holds demo oneSpent onsets 2 found id row ∧
    (oneSpent.world.history.db .authTokens).get id = none := by
  obtain ⟨onsets, paced⟩ := paced_oneSpent
  obtain ⟨presents, told⟩ := told_oneSpent
  obtain ⟨yes, -, committed⟩ := spent_of_told paced presents
  obtain ⟨found, id, row, holds, -⟩ := yes told
  have last : oneSpent.world.history.head?.map Commit.tid = some 2 := by decide +kernel
  obtain ⟨c, isLast, mine⟩ := Option.map_eq_some_iff.mp last
  obtain ⟨h, grown⟩ := List.head?_eq_some_iff.mp isLast
  have gone := (committed rfl c h oneSpent.world.history mine (grown ▸ List.suffix_rfl)
    List.suffix_rfl).2
  exact ⟨onsets, found, id, row, holds, gone found id row holds⟩

theorem singleUse_of_oneSpent : ∃ onsets found id row c, Holds demo oneSpent onsets 2 found id row ∧
    c ∈ oneSpent.world.history ∧ c.tid = 2 ∧ Drops c id := by
  obtain ⟨onsets, paced⟩ := paced_oneSpent
  obtain ⟨presents, told⟩ := told_oneSpent
  obtain ⟨found, id, row, c, h, holds, -, -, past, mine, drops⟩ :=
    (singleUse paced).1 2 "ticket" .reset presents told
  exact ⟨onsets, found, id, row, c, holds, past.subset List.mem_cons_self, mine, drops⟩

end Demo

end ReceiptScanner
