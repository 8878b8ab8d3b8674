import ReceiptScanner.Accounts.Sessions

/-!
# One call of `validateSession`, followed

The call checks the session in one statement and extends it in another. `Checked` is what
its commits owe to the check, and `Extended` what the extension has found; both speak of
the state in which the check began.
-/

namespace ReceiptScanner

open ReadCommitted

/-- The session carries the token and has not expired: what the check looks for. -/
def LiveAt (h : History store outside) (clock : ℕ) (tokenHash : String) (id : ℕ) : Prop :=
  ∃ row : SessionRow, (h.db .sessions).get id = some row ∧ row.tokenHash = tokenHash ∧
    clock < row.expiresAt

/-- Since this state, the token has been found live. -/
def FoundLive (base : History store outside) (clock : ℕ) (tokenHash : String)
    (h : History store outside) : Prop :=
  ∃ (seen : History store outside) (t id : ℕ), base <:+ seen ∧ seen <:+ h ∧ clock ≤ t ∧
    LiveAt seen t tokenHash id

/-- What process `tid` commits, it commits after it has found the token live. -/
def checked (tid : ℕ) (base : History store outside) (clock : ℕ) (tokenHash : String) :
    Guarantee store outside where
  commits h c := c.tid = tid → FoundLive base clock tokenHash h
  calls _ _ _ _ := True

/-- The session is due for an extension at this instant. -/
def Due (setup : Setup) (tokenHash : String) (now : ℕ) (row : SessionRow) : Prop :=
  row.tokenHash = tokenHash ∧ (row.expiresAt : ℤ) < now + refreshThreshold setup

/-- The extension has run: it found what is due, and moved it. -/
def Extended (setup : Setup) (base : History store outside) (clock : ℕ) (tokenHash : String)
    (h : History store outside) : Prop :=
  ∃ (snap cur : History store outside) (now : ℕ), base <:+ snap ∧ snap <:+ cur ∧ cur <:+ h ∧
    clock ≤ now ∧ ∀ id, ∀ seen row : SessionRow, (snap.db .sessions).get id = some seen →
      Due setup tokenHash now seen → (cur.db .sessions).get id = some row →
      Due setup tokenHash now row → ∃ c, c :: cur <:+ h ∧
        ⟨.sessions, id, some { row with expiresAt := now + sessionLifetime }, .touchSession⟩ ∈
          c.writes

theorem Extended.mono {setup : Setup} {base h later : History store outside} {clock : ℕ}
    {tokenHash : String} (extended : Extended setup base clock tokenHash h) (past : h <:+ later) :
    Extended setup base clock tokenHash later := by
  obtain ⟨snap, cur, now, began, during, suffix, late, hit⟩ := extended
  refine ⟨snap, cur, now, began, during, suffix.trans past, late, ?_⟩
  intro id seen row inSnap dueThen inCur dueNow
  obtain ⟨c, grown, written⟩ := hit id seen row inSnap dueThen inCur dueNow
  exact ⟨c, grown.trans past, written⟩

/-- What a call that has ended knows: it accepts what it found live, and has extended it. -/
def Answered (setup : Setup) (base : History store outside) (clock : ℕ) (tokenHash : String) :
    Post store outside (Ending outside Job) := fun ending _ world =>
  (ending.1 = .told true → (∃ id, LiveAt base clock tokenHash id) ∧
    Extended setup base clock tokenHash world.history) ∧
  (ending.1 = .told false → ∀ id, ¬ LiveAt base clock tokenHash id)

section Tasks

variable {setup : Setup} {tid : ℕ} {base : History store outside} {clock : ℕ} {rawToken : String}
  {calls : List (Said outside)} {world : World store outside}

/-- The regime of one process after its check. -/
abbrev checking (setup : Setup) (tid : ℕ) (base : History store outside) (clock : ℕ)
    (tokenHash : String) : Regime :=
  ⟨setup, checked tid base clock tokenHash, fun other => other = tid⟩

namespace AuthService

/-- What the check returns, it has found live. -/
theorem mem_selectSession {tokenHash : String} {ctx : Ctx store} {h : History store outside}
    (isSnap : ctx.snap = h.db) :
    (selectSession tokenHash ctx).result ≠ [] ↔ ∃ id, LiveAt h ctx.now tokenHash id := by
  constructor
  · intro found
    obtain ⟨userId, member⟩ := List.exists_mem_of_ne_nil _ found
    obtain ⟨⟨id, row⟩, kept, -⟩ := List.mem_map.mp member
    obtain ⟨stored, selected⟩ := List.mem_filter.mp kept
    simp only [Bool.and_eq_true, beq_iff_eq, decide_eq_true_eq] at selected
    exact ⟨id, row, isSnap ▸ Rows.mem_list.mp stored, selected.1, selected.2⟩
  · rintro ⟨id, row, stored, same, live⟩
    refine List.ne_nil_of_mem (a := row.userId) (List.mem_map.mpr ⟨(id, row), ?_, rfl⟩)
    refine List.mem_filter.mpr ⟨Rows.mem_list.mpr (isSnap ▸ stored), ?_⟩
    simp [same, live]

/-- The extension, after a check that has found the token live. -/
theorem safe_touchSession {userId : ℕ} {seen : History store outside} {t id : ℕ}
    {post : Post store outside (Option ℕ)} {raised : Post store outside Err}
    (began : base <:+ seen) (late : clock ≤ t)
    (live : LiveAt seen t (setup.sha256Hex rawToken) id)
    (past : seen <:+ world.history) (started : clock ≤ world.clock)
    (returns : ∀ later : World store outside,
      Extended setup base clock (setup.sha256Hex rawToken) later.history →
      post (some userId) (idle tid calls) later)
    (raises : ∀ failure (later : World store outside),
      raised (.sql failure) (idle tid calls) later) :
    Safe (checking setup tid base clock (setup.sha256Hex rawToken))
      (do
        let _ ← execSql .db (touchSession (setup.sha256Hex rawToken)
          (kSessionLifetimeSeconds - setup.sessionTouchIntervalSeconds))
        pure (some userId)) post raised (idle tid calls) world := by
  refine Svc.wp_bind (Svc.wp_execTimed (fun failure later _ => raises failure later) ?_ ?_)
  · intro opening entry ctx _ _ ran before linked _ _
    exact ⟨seen, t, id, began,
      (past.trans before).trans (linked.spanned entry List.mem_cons_self), late, live⟩
  · intro opening entry ctx later _ timed ran before during _ after
    refine Svc.wp_pure (returns later ⟨entry.snap, entry.cur, opening.start,
      (began.trans past).trans before.suffix, during.suffix, ?_, started.trans timed, ?_⟩)
    · rw [after]
      split
      · exact List.suffix_rfl
      · exact List.suffix_cons _ _
    · intro id old row inSnap dueThen inCur dueNow
      have made : ⟨.sessions, id, some { row with expiresAt := opening.start + sessionLifetime },
          .touchSession⟩ ∈ entry.writes := by
        rw [ran.writes, ← ran.now]
        refine List.mem_map.mpr ⟨(id, row), Ctx.mem_targets.mpr ⟨⟨old, ?_, ?_⟩, ?_, ?_⟩, rfl⟩
        · rwa [ran.snap_table (Log.clean_nil _)]
        · simpa [ran.now, Due, refreshThreshold] using dueThen
        · rwa [ran.cur_table (Log.clean_nil _)]
        · simpa [ran.now, Due, refreshThreshold] using dueNow
      rw [if_neg (List.ne_nil_of_mem made)] at after
      rw [after]
      exact ⟨_, List.suffix_rfl, by simpa [Opening.commit] using made⟩

/-- A call that begins after this state commits nothing before it has found the token
live. -/
theorem wp_checked (began : base <:+ world.history) (started : clock ≤ world.clock) :
    (Job.prog setup (.validateSession rawToken)).wp
      (checked tid base clock (setup.sha256Hex rawToken)) (schema setup.lower)
      (fun _ _ _ => True) { tid := tid } world := by
  refine @wp_serve _ (checking setup tid base clock (setup.sha256Hex rawToken)) _ _ _ _
    (fun _ _ _ => True) ?_
  refine Svc.wp_bind (Svc.wp_execTimed (fun _ _ _ => trivial) ?_ ?_)
  · intro opening entry ctx _ _ ran _ _ written
    exact absurd ran.writes written
  · intro opening entry ctx later _ timed ran before during clocked after
    have silent : entry.writes = [] := ran.writes
    have isLater : later.history = entry.cur := by rw [after, if_pos silent]
    cases found : (selectSession (setup.sha256Hex rawToken) ctx).result with
    | nil => exact Svc.wp_pure trivial
    | cons userId rest =>
        obtain ⟨id, live⟩ := (mem_selectSession ran.snap).mp (found ▸ List.cons_ne_nil _ _)
        rw [ran.now] at live
        have late := started.trans timed
        exact safe_touchSession (began.trans before.suffix) late live (isLater ▸ during.suffix)
          (late.trans clocked) (fun _ _ => trivial) fun _ _ => trivial

/-- The call whose check has just begun: what its answer says of that state. -/
theorem flightSafe_checked (began : base <:+ world.history) (started : clock ≤ world.clock) :
    ∃ next, Job.prog setup (.validateSession rawToken) =
        .exec false (selectSession (setup.sha256Hex rawToken)) next ∧
      FlightSafe (checked tid base clock (setup.sha256Hex rawToken)) (schema setup.lower) false
        (selectSession (setup.sha256Hex rawToken)) ⟨base, clock⟩
        (fun reply => (next reply).wp (checked tid base clock (setup.sha256Hex rawToken))
          (schema setup.lower) (Answered setup base clock (setup.sha256Hex rawToken)))
        { tid := tid } world := by
  refine ⟨_, rfl, ?_⟩
  have raises : ∀ failure (later : World store outside), Answered setup base clock
      (setup.sha256Hex rawToken) (.raised (.sql failure), []) (idle tid []) later :=
    fun _ _ => ⟨(fun same => absurd same (by simp)), fun same => absurd same (by simp)⟩
  refine @Svc.flightSafe_exec _ _ _ _ _ _ tid [] _ _ _ began
    (fun failure later _ => raises failure later) ?_ ?_
  · intro entry ctx _ ran _ written
    exact absurd ran.writes written
  · intro entry ctx later same ran during clocked after
    have silent : entry.writes = [] := ran.writes
    have isLater : later.history = entry.cur := by rw [after, if_pos silent]
    have isBase : ctx.snap = base.db := ran.snap.trans (congrArg History.db same)
    have checks := @mem_selectSession (setup.sha256Hex rawToken) _ base isBase
    rw [ran.now] at checks
    cases found : (selectSession (setup.sha256Hex rawToken) ctx).result with
    | nil =>
        refine ⟨(fun yes => absurd yes (by simp)), fun _ id live => ?_⟩
        exact checks.mpr ⟨id, live⟩ found
    | cons userId rest =>
        obtain ⟨id, live⟩ := checks.mp (found ▸ List.cons_ne_nil _ _)
        refine @wp_serve _ (checking setup tid base clock (setup.sha256Hex rawToken)) _ _ _ _ _ ?_
        refine safe_touchSession List.suffix_rfl (Nat.le_refl _) live ?_ (started.trans clocked)
          (fun later extended => ⟨fun _ => ⟨⟨id, live⟩, extended⟩, fun no => absurd no (by simp)⟩)
          fun failure later => raises failure later
        exact isLater ▸ began.trans during.suffix

end AuthService

end Tasks

section Runs

variable {setup : Setup} {before begun after : Config store outside Job} {tid : ℕ}
  {rawToken : String}

/-- A process that has ended or crashed, or that has not taken a step. -/
def AtRest (setup : Setup) (other : ℕ) (proc : Proc store outside Job) : Prop :=
  (∃ answer, proc.life = .ended answer) ∨ proc.life = .crashed ∨
    proc = Proc.fresh (application setup) other proc.job

/-- In the state `before`, process `tid` is about to run the check of a call with this token,
and does so. -/
structure Checks (setup : Setup) (before : Config store outside Job) (tid : ℕ)
    (rawToken : String) (begun : Config store outside Job) : Prop where
  reachable : Config.Reachable (application setup) before
  fresh : before.procs tid = some (Proc.fresh (application setup) tid (.validateSession rawToken))
  starts : Config.move (application setup) before (.start tid) = some begun

namespace Checks

/-- The check has begun. -/
theorem begins (checks : Checks setup before tid rawToken begun)
    {next : Except SqlFailure (List ℕ) → Routine (Ending outside Job)}
    (isProg : Job.prog setup (.validateSession rawToken) =
      .exec false (AuthService.selectSession (setup.sha256Hex rawToken)) next) :
    begun = before.update tid
      { job := .validateSession rawToken, own := { tid := tid }
        life := .running (.exec false (AuthService.selectSession (setup.sha256Hex rawToken)) next)
          (some ⟨before.world.history, before.world.clock⟩) } before.world.tick := by
  obtain ⟨proc, found, moved⟩ := Option.bind_eq_some_iff.mp checks.starts
  obtain rfl := Option.some.inj (found.symm.trans checks.fresh)
  simp only [Config.startProc, Proc.fresh, isProg] at moved
  exact (Option.some.inj moved).symm

theorem history (checks : Checks setup before tid rawToken begun) :
    begun.world.history = before.world.history ∧ before.world.clock ≤ begun.world.clock := by
  obtain rfl := checks.begins rfl
  exact ⟨rfl, Nat.le_succ _⟩

theorem reached (checks : Checks setup before tid rawToken begun) :
    Config.Reachable (application setup) begun := .move checks.reachable _ checks.starts

/-- What the call aims at once its check has begun. -/
theorem aims (checks : Checks setup before tid rawToken begun) :
    ∃ proc, begun.procs tid = some proc ∧ proc.job = .validateSession rawToken ∧
      proc.Aims (checked tid before.world.history before.world.clock (setup.sha256Hex rawToken))
        (schema setup.lower) (Answered setup before.world.history before.world.clock
          (setup.sha256Hex rawToken)) begun.world := by
  obtain ⟨next, isProg, safe⟩ := @AuthService.flightSafe_checked setup tid
    before.world.history before.world.clock rawToken before.world.tick List.suffix_rfl
    (Nat.le_succ _)
  obtain rfl := checks.begins isProg
  exact ⟨_, Function.update_self _ _ _, rfl, safe⟩

/-- What a process commits with regard to a token, through a run from some state on. -/
theorem follow {first : Config store outside Job}
    (reachable : Config.Reachable (application setup) first)
    (leads : Config.Leads (application setup) first after) {other : ℕ}
    {proc : Proc store outside Job} (found : first.procs other = some proc)
    {base : History store outside} {clock : ℕ} {tokenHash : String}
    {post : Post store outside (Ending outside Job)}
    (stable : Stable (checked other base clock tokenHash) post)
    (aims : proc.Aims (checked other base clock tokenHash) (schema setup.lower) post first.world) :
    (∃ proc', after.procs other = some proc' ∧ proc'.job = proc.job ∧
      proc'.Aims (checked other base clock tokenHash) (schema setup.lower) post after.world) ∧
    ∀ c h, c :: h <:+ after.world.history → first.world.history <:+ h → c.tid = other →
      FoundLive base clock tokenHash h := by
  have allows : (checked other base clock tokenHash).Allows (access setup after.jobs) other :=
    fun h c foreign _ same => absurd same foreign
  obtain ⟨ends, commits⟩ := aims.follow stable allows (keeps_access setup after.jobs)
    reachable leads after.agrees_jobs found
  exact ⟨ends, fun c h suffix past same => commits c h suffix past same same⟩

theorem stable_answered (mine : Guarantee store outside) {base : History store outside}
    {clock : ℕ} {tokenHash : String} : Stable mine (Answered setup base clock tokenHash) := by
  intro ending own first second rely answered
  exact ⟨fun yes => ⟨(answered.1 yes).1, (answered.1 yes).2.mono rely.suffix⟩, answered.2⟩

/-- What the answer of the call says, whenever it is heard. -/
theorem answered (checks : Checks setup before tid rawToken begun)
    (leads : Config.Leads (application setup) begun after) {proc : Proc store outside Job}
    (found : after.procs tid = some proc) {answer : Answer} (ended : proc.life = .ended answer) :
    ∃ jobs, Answered setup before.world.history before.world.clock (setup.sha256Hex rawToken)
      (answer, jobs) proc.own after.world := by
  obtain ⟨first, there, -, aims⟩ := checks.aims
  obtain ⟨⟨last, at_, -, aims⟩, -⟩ :=
    follow checks.reached leads there (stable_answered _) aims
  obtain rfl := Option.some.inj (found.symm.trans at_)
  simpa only [Proc.Aims, ended] using aims

end Checks

/-- The row that a session was, at a check that found it live, and is now. -/
theorem kept_of_answered (throttle : 0 ≤ setup.sessionTouchIntervalSeconds)
    (reachable : Config.Reachable (application setup) after)
    {base : History store outside} {clock id : ℕ} {tokenHash : String}
    (extended : Extended setup base clock tokenHash after.world.history)
    (live : LiveAt base clock tokenHash id) {row : SessionRow}
    (stored : (after.world.history.db .sessions).get id = some row) :
    (clock : ℤ) + refreshThreshold setup ≤ row.expiresAt := by
  have gap := refreshThreshold_le throttle
  obtain ⟨first, atBase, isToken, -⟩ := live
  obtain ⟨snap, cur, now, began, during, suffix, late, hit⟩ := extended
  -- The id was in use at the check, so it is the same session ever since.
  have used : ∀ {h : History store outside}, base <:+ h → ¬ Unused h .sessions id := by
    intro h grown unused
    exact absurd (atBase.symm.trans (unused.get grown)) (by simp)
  obtain ⟨inCur, storedCur, tokenCur, -, leCur⟩ := session_before throttle reachable suffix
    List.suffix_rfl (used (began.trans during)) stored
  obtain ⟨inSnap, storedSnap, tokenSnap, -, leSnap⟩ := session_before throttle reachable during
    suffix (used began) storedCur
  obtain ⟨atFirst, storedFirst, tokenFirst, -, -⟩ := session_before throttle reachable began
    (during.trans suffix) (used List.suffix_rfl) storedSnap
  obtain rfl := Option.some.inj (atBase.symm.trans storedFirst)
  by_cases dueThen : (inSnap.expiresAt : ℤ) < now + refreshThreshold setup
  · by_cases dueNow : (inCur.expiresAt : ℤ) < now + refreshThreshold setup
    · obtain ⟨c, grown, written⟩ := hit id inSnap inCur storedSnap
        ⟨tokenFirst.symm.trans isToken, dueThen⟩ storedCur
        ⟨tokenSnap.symm.trans (tokenFirst.symm.trans isToken), dueNow⟩
      have moved := (promised_of_reachable reachable grown).get (by decide) written
      obtain ⟨_, storedThen, -, -, leThen⟩ := session_before throttle reachable grown
        List.suffix_rfl (used ((began.trans during).trans (List.suffix_cons c cur))) stored
      obtain rfl := Option.some.inj (moved.symm.trans storedThen)
      dsimp only at leThen
      omega
    · omega
  · omega

/-- Sliding expiry, as seen from the check of one call and from any later state. -/
structure Slides (setup : Setup) (before begun after : Config store outside Job) (tid : ℕ)
    (rawToken : String) : Prop where
  /-- A login gives the session its full life, and nobody takes of it. -/
  opened : ∀ c h id, ∀ row : SessionRow, c :: h <:+ after.world.history →
    ⟨.sessions, id, some row, .login⟩ ∈ c.writes → row.expiresAt = c.start + sessionLifetime ∧
    ∀ now : SessionRow, (after.world.history.db .sessions).get id = some now →
      row.expiresAt ≤ now.expiresAt
  /-- A call that accepts has found a live session, and leaves it at least the refresh
  threshold from its check. -/
  accepted : ∀ proc, after.procs tid = some proc → proc.life = .ended (.told true) →
    (∃ id, LiveAt before.world.history before.world.clock (setup.sha256Hex rawToken) id) ∧
    ∀ id, LiveAt before.world.history before.world.clock (setup.sha256Hex rawToken) id →
      ∀ row : SessionRow, (after.world.history.db .sessions).get id = some row →
        (before.world.clock : ℤ) + refreshThreshold setup ≤ row.expiresAt
  /-- No session has more than its full life left. -/
  bounded : ∀ id, ∀ row : SessionRow, (after.world.history.db .sessions).get id = some row →
    row.expiresAt ≤ after.world.clock + sessionLifetime
  /-- Until the refresh threshold has passed since its check, the session is live. -/
  alive : ∀ proc, after.procs tid = some proc → proc.life = .ended (.told true) →
    (after.world.clock : ℤ) < before.world.clock + refreshThreshold setup →
    ∀ id, LiveAt before.world.history before.world.clock (setup.sha256Hex rawToken) id →
      (after.world.history.db .sessions).get id ≠ none →
      LiveAt after.world.history after.world.clock (setup.sha256Hex rawToken) id
  /-- A call that rejects has found no live session. -/
  rejected : ∀ proc, after.procs tid = some proc → proc.life = .ended (.told false) →
    ∀ id, ¬ LiveAt before.world.history before.world.clock (setup.sha256Hex rawToken) id
  /-- A session found expired or gone, with no earlier call of its token in progress, is
  never found live again. -/
  final : (∀ other proc raw, before.procs other = some proc → other ≠ tid →
      proc.job = .validateSession raw → setup.sha256Hex raw = setup.sha256Hex rawToken →
      AtRest setup other proc) →
    ∀ id, ¬ Unused before.world.history .sessions id →
      ¬ LiveAt before.world.history before.world.clock (setup.sha256Hex rawToken) id →
      ¬ LiveAt after.world.history after.world.clock (setup.sha256Hex rawToken) id
  /-- Two extensions of a session are further apart than the touch interval. -/
  throttled : ∀ c h earlier h' id, ∀ row row' : SessionRow, c :: h <:+ after.world.history →
    earlier :: h' <:+ h → ⟨.sessions, id, some row, .touchSession⟩ ∈ c.writes →
    ⟨.sessions, id, some row', .touchSession⟩ ∈ earlier.writes →
    (earlier.start : ℤ) + seconds setup.sessionTouchIntervalSeconds < c.start

namespace Checks

/-- Whatever process extends a session of this token after the check, it has found the
token live since. -/
theorem foundLive (checks : Checks setup before tid rawToken begun)
    (leads : Config.Leads (application setup) begun after)
    (idle : ∀ other proc raw, before.procs other = some proc → other ≠ tid →
      proc.job = .validateSession raw → setup.sha256Hex raw = setup.sha256Hex rawToken →
      AtRest setup other proc) {c : Commit store outside} {h : History store outside}
    (suffix : c :: h <:+ after.world.history) (past : before.world.history <:+ h) {raw : String}
    (asked : after.jobs c.tid = some (.validateSession raw))
    (token : setup.sha256Hex raw = setup.sha256Hex rawToken) :
    FoundLive before.world.history before.world.clock (setup.sha256Hex rawToken) h := by
  have keeps := keeps_access setup after.jobs
  have agrees := after.agrees_jobs
  have began : begun.world.history <:+ h := checks.history.1 ▸ past
  have free : ∀ mine : Guarantee store outside, Stable mine
      (fun _ _ _ => True : Post store outside (Ending outside Job)) := fun _ _ _ _ _ _ _ => trivial
  obtain ⟨proc, found, isJob⟩ := Option.map_eq_some_iff.mp asked
  cases atStart : begun.procs c.tid with
  | none =>
      -- The process began later, so its check did too.
      obtain ⟨middle, first, second, fresh, idle⟩ :=
        leads.spawned keeps checks.reached agrees atStart found
      have there := Config.Leads.reachable first checks.reached
      have agreed := (Config.Leads.continues second there.numbered).agrees agrees
      obtain ⟨grown, clocked⟩ := Config.Leads.grows first keeps checks.reached agreed
      have inside := (Config.Leads.grows second keeps there agrees).1
      have earlier : middle.world.history <:+ h := by
        rcases List.suffix_or_suffix_of_suffix suffix inside with within | beyond
        · exact absurd rfl (idle c (within.subset List.mem_cons_self))
        · rcases List.suffix_cons_iff.mp beyond with same | below
          · exact absurd rfl (idle c (same ▸ List.mem_cons_self))
          · exact below
      rw [isJob] at fresh
      refine (follow there second fresh (free _) ?_).2 c h suffix earlier rfl
      rw [← token]
      exact AuthService.wp_checked (checks.history.1 ▸ grown) (checks.history.2.trans clocked)
  | some q =>
      obtain ⟨q', at_, same⟩ :=
        (Config.Leads.continues leads checks.reached.numbered).jobs c.tid q atStart
      obtain rfl := Option.some.inj (found.symm.trans at_)
      by_cases mine : c.tid = tid
      · obtain ⟨first, there, -, aims⟩ := checks.aims
        exact (follow checks.reached leads there (stable_answered _) aims).2 c h suffix began mine
      · obtain rfl := checks.begins rfl
        simp only [Config.update, Function.update_of_ne mine] at atStart
        refine (follow checks.reached leads (by simpa [Config.update, mine] using atStart)
          (free _) ?_).2 c h suffix began rfl
        rcases idle c.tid q raw atStart mine (same.symm.trans isJob) token with
          ⟨answer, ended⟩ | crashed | fresh
        · simp [Proc.Aims, ended]
        · simp [Proc.Aims, crashed]
        · rw [fresh, ← same, isJob, ← token]
          exact AuthService.wp_checked List.suffix_rfl checks.history.2

/-- What happened before the check stays in the history. -/
theorem past (checks : Checks setup before tid rawToken begun)
    (leads : Config.Leads (application setup) begun after) :
    before.world.history <:+ after.world.history ∧ before.world.clock ≤ after.world.clock := by
  obtain ⟨grown, clocked⟩ := Config.Leads.grows leads (keeps_access setup after.jobs)
    checks.reached after.agrees_jobs
  exact ⟨checks.history.1 ▸ grown, checks.history.2.trans clocked⟩

/-- The expiry of a session that the check has found expired or gone does not move. -/
theorem stale (throttle : 0 ≤ setup.sessionTouchIntervalSeconds)
    (checks : Checks setup before tid rawToken begun)
    (leads : Config.Leads (application setup) begun after)
    (idle : ∀ other proc raw, before.procs other = some proc → other ≠ tid →
      proc.job = .validateSession raw → setup.sha256Hex raw = setup.sha256Hex rawToken →
      AtRest setup other proc) {id : ℕ} (used : ¬ Unused before.world.history .sessions id)
    (dead : ¬ LiveAt before.world.history before.world.clock (setup.sha256Hex rawToken) id)
    {h : History store outside} (past : before.world.history <:+ h)
    (suffix : h <:+ after.world.history) {row : SessionRow}
    (stored : (h.db .sessions).get id = some row)
    (token : row.tokenHash = setup.sha256Hex rawToken) : row.expiresAt ≤ before.world.clock := by
  have reachable : Config.Reachable (application setup) after := leads.reachable checks.reached
  -- A later call found the token live in an earlier state, which need not be the last one.
  induction isLength : h.length using Nat.strong_induction_on generalizing h row with
  | _ length ih =>
  subst isLength
  by_cases first : before.world.history = h
  · subst first
    by_contra late
    exact dead ⟨row, stored, token, by omega⟩
  · cases h with
    | nil => exact absurd (List.suffix_nil.mp past) first
    | cons c earlier =>
        have inside := (List.suffix_cons_iff.mp past).resolve_left first
        have onward := (List.suffix_cons c earlier).trans suffix
        rcases session_cases reachable suffix stored with
          same | ⟨fresh, -⟩ | ⟨old, was, rfl, -, raw, asked, isToken⟩
        · exact ih _ (Nat.lt_succ_self _) inside onward same token rfl
        · exact absurd (fresh.earlier inside) used
        · -- The call had found the token live, in a state that the session was in.
          obtain ⟨seen, t, other, began, within, late, now, stored', token', live⟩ :=
            checks.foundLive leads idle suffix inside asked (isToken.symm.trans token)
          obtain ⟨then_, stored'', token'', -⟩ := session_before throttle reachable within onward
            (fun unused => used (unused.earlier began)) was
          obtain rfl := session_unique reachable (within.trans onward) stored'' stored'
            (token''.trans (token.trans token'.symm))
          have stale := ih _ (Nat.lt_succ_of_le within.length_le) began (within.trans onward)
            stored' token' rfl
          omega

end Checks

/-- Sessions slide: in every run, from the check of any call to any later state. -/
theorem slides_of_reachable (throttle : 0 ≤ setup.sessionTouchIntervalSeconds)
    (checks : Checks setup before tid rawToken begun)
    (leads : Config.Leads (application setup) begun after) :
    Slides setup before begun after tid rawToken := by
  have reachable : Config.Reachable (application setup) after := leads.reachable checks.reached
  obtain ⟨past, clocked⟩ := checks.past leads
  have accepted : ∀ proc, after.procs tid = some proc → proc.life = .ended (.told true) →
      (∃ id, LiveAt before.world.history before.world.clock (setup.sha256Hex rawToken) id) ∧
      ∀ id, LiveAt before.world.history before.world.clock (setup.sha256Hex rawToken) id →
        ∀ row : SessionRow, (after.world.history.db .sessions).get id = some row →
          (before.world.clock : ℤ) + refreshThreshold setup ≤ row.expiresAt := by
    intro proc found ended
    obtain ⟨jobs, yes, -⟩ := checks.answered leads found ended
    obtain ⟨some, extended⟩ := yes rfl
    exact ⟨some, fun id live row stored =>
      kept_of_answered throttle reachable extended live stored⟩
  constructor
  case opened =>
    intro c h id row suffix written
    have said : SessionWrote setup after.jobs h c id (some row) .login :=
      access_of_reachable reachable suffix _ written
    have isRow := (promised_of_reachable reachable suffix).get (by decide) written
    refine ⟨by cases said with | opened => rfl, fun now stored => ?_⟩
    obtain ⟨_, there, -, -, moved⟩ := session_before throttle reachable suffix List.suffix_rfl
      (fun unused => absurd (isRow.symm.trans (unused.get List.suffix_rfl)) (by simp)) stored
    obtain rfl := Option.some.inj (isRow.symm.trans there)
    exact moved
  case accepted => exact accepted
  case bounded =>
    intro id row stored
    obtain ⟨c, member, expiry⟩ := session_expiry reachable List.suffix_rfl stored
    have inv := (keeps_access setup after.jobs).inv reachable after.agrees_jobs
    have started := inv.wellFormed.started c member
    have stopped := inv.wellFormed.stopped c member
    omega
  case alive =>
    intro proc found ended soon id live stored
    obtain ⟨row, isRow⟩ := Option.ne_none_iff_exists'.mp stored
    have left := (accepted proc found ended).2 id live row isRow
    obtain ⟨first, there, token, -⟩ := live
    have used : ¬ Unused before.world.history .sessions id := fun unused =>
      absurd (there.symm.trans (unused.get List.suffix_rfl)) (by simp)
    obtain ⟨first', there', same, -⟩ :=
      session_before throttle reachable past List.suffix_rfl used isRow
    obtain rfl := Option.some.inj (there.symm.trans there')
    exact ⟨row, isRow, same.symm.trans token, by omega⟩
  case rejected =>
    intro proc found ended id
    obtain ⟨jobs, -, no⟩ := checks.answered leads found ended
    exact no rfl id
  case final =>
    rintro idle id used dead ⟨row, stored, token, live⟩
    have stays := checks.stale throttle leads idle used dead past List.suffix_rfl stored token
    omega
  case throttled =>
    intro c h earlier h' id row row' suffix before' written written'
    have inside := (List.suffix_cons c h).trans suffix
    have said := access_of_reachable reachable suffix _ written
    have said' := access_of_reachable reachable (before'.trans inside) _ written'
    have isRow' := (promised_of_reachable reachable (before'.trans inside)).get (by decide) written'
    have used : ¬ Unused (earlier :: h') .sessions id := fun unused =>
      absurd (isRow'.symm.trans (unused.get List.suffix_rfl)) (by simp)
    cases said with
    | touched _ _ there due =>
        cases said' with
        | touched =>
            obtain ⟨_, there', -, -, moved⟩ :=
              session_before throttle reachable before' inside used there
            obtain rfl := Option.some.inj (isRow'.symm.trans there')
            unfold refreshThreshold at due
            unfold seconds at due ⊢
            unfold sessionLifetime at moved
            push_cast at moved due
            omega

end Runs

section Demo

/-- Process `tid` logs in and is given this token. -/
def loggingIn (tid : ℕ) (email password rawToken : String) : List (Move outside Job) :=
  [.spawn (.login email password)] ++ statements tid 1 ++
    [answered tid rawToken { kind := "" }, answered tid rawToken { kind := "" }] ++
    statements tid 1 ++ [.step tid]

/-- A registered user has logged in. -/
@[irreducible] def loggedIn : Config store outside Job :=
  Config.ran (application demo)
    (registering 0 "ann" "secret" ++ loggingIn 1 "ann" "secret" "token") (by decide +kernel)

theorem reachable_loggedIn : Config.Reachable (application demo) loggedIn := by
  unfold loggedIn
  exact Config.reachable_ran _

/-- The state in which a call with the token is about to begin. -/
def calling : Config store outside Job :=
  Config.spawn (application demo) loggedIn (.validateSession "token")

/-- The call has begun its check. -/
def callBegun : Config store outside Job :=
  (Config.move (application demo) calling (.start 2)).get (by decide +kernel)

/-- The call has ended. -/
def callEnded : Config store outside Job :=
  (Config.run (application demo) [.finish 2, .start 2, .finish 2, .step 2] callBegun).get
    (by decide +kernel)

theorem slides_of_reachable_calling :
    Checks demo calling 2 "token" callBegun ∧
    Config.Leads (application demo) callBegun callEnded ∧
    (∃ proc, callEnded.procs 2 = some proc ∧ proc.life = .ended (.told true)) ∧
    Slides demo calling callBegun callEnded 2 "token" := by
  have spawned : loggedIn.tids = 2 := by decide +kernel
  have fresh : calling.procs loggedIn.tids =
      some (Proc.fresh (application demo) loggedIn.tids (.validateSession "token")) :=
    Function.update_self _ _ _
  rw [spawned] at fresh
  have checks : Checks demo calling 2 "token" callBegun := {
    reachable := reachable_loggedIn.move (.spawn (.validateSession "token")) rfl
    fresh := fresh
    starts := (Option.some_get _).symm }
  have leads : Config.Leads (application demo) callBegun callEnded :=
    Config.Leads.run (Option.some_get _).symm
  have told : (callEnded.procs 2).bind (·.life.answer?) = some (.told true) := by decide +kernel
  obtain ⟨proc, found, ended⟩ := Option.bind_eq_some_iff.mp told
  exact ⟨checks, leads, ⟨proc, found, Life.answer?_eq_some.mp ended⟩,
    slides_of_reachable (by decide) checks leads⟩

end Demo

end ReceiptScanner
