import CloudProbe.Worker.Reload

/-!
# The invariant of the reload protocol

The protocol is a token that goes from main to the reload thread and back three times. A `Stage`
says which of the three exchanges is going on, and a `Place` where its token is. `Stage.At` says
what each place means for the state, in terms of the state before the reload. Each step moves the
token to the next place or leaves it where it is, as long as main has not come to
`task_manager_destroy`.
-/

namespace CloudProbe.Worker

open CloudProbe.Lib List Option

namespace Reload

/-! ### Steps of the main thread, by what they do -/

/-- The moves of the main thread that change its program point and nothing else. -/
inductive MainGoes (s : State) (c : MainChoice) : MainPc → Prop where
  | quits (hpc : s.main = .loop) : MainGoes s c .stopReload
  | polls (hpc : s.main = .loop) : MainGoes s c (.poll s.mgr.tasks)
  | polled (hpc : s.main = .poll []) : MainGoes s c .body
  | cycles (hpc : s.main = .body) : MainGoes s c .recv
  | loops (hpc : s.main = .body) : MainGoes s c .loop
  | misses (hpc : s.main = .recv) : MainGoes s c .tryStart
  | rests (hpc : s.main = .tryStart) : MainGoes s c .body
  | joins (hpc : s.main = .joinReload) (hexited : s.reload = .exited) : MainGoes s c .stopOutput
  | stops (hpc : s.main = .stopOutput) : MainGoes s c .joinOutput
  | joinsOutput (hpc : s.main = .joinOutput) (hexited : c.outputExited = true) :
      MainGoes s c .destroy
  | ends (hpc : s.main = .destroy) (htasks : s.mgr.tasks = []) : MainGoes s c .done

inductive MainMoves (s : State) (c : MainChoice) : State → Prop where
  | goes (pc : MainPc) (hgoes : MainGoes s c pc) : MainMoves s c { s with main := pc }
  | polls (t : Task) (rest : List Task) (hpc : s.main = .poll (t :: rest)) :
      MainMoves s c { s with main := .poll rest, trace := s.trace ++ [.polled t.task c.packets] }
  | takes (hpc : s.main = .recv) (hmbox : s.mainMbox = true) :
      MainMoves s c { s with main := .handle, mainMbox := false }
  | handles (hpc : s.main = .handle) : MainMoves s c (mainHandle s)
  | sends (next : Phase) (hpc : s.main = .send next) :
      MainMoves s c { s with reloadMbox := true, phase := next, main := .tryStart }
  | starts (hpc : s.main = .tryStart) (hphase : s.phase = .idle) (hsignal : s.signal = true) :
      MainMoves s c { s with
        signal := false
        mainTx := .reqPlan s.mgr.tasks
        main := .sendPlan
        current := some { before := s.mgr, config := none, created := [], destroyed := [] } }
  | sendsPlan (hpc : s.main = .sendPlan) :
      MainMoves s c { s with
        reloadMbox := true, phase := .awaitingSurvivors, main := .body, raised := false }
  | stopsReload (hpc : s.main = .stopReload) :
      MainMoves s c { s with running := false, main := .joinReload }
  | destroys (t : Task) (rest : List Task) (hpc : s.main = .destroy)
      (htasks : s.mgr.tasks = t :: rest) :
      MainMoves s c { s with
        mgr := { s.mgr with tasks := rest }, trace := s.trace ++ [.destroyed t.task] }

/-- **Steps of the main thread.** What is proved about them goes through these cases. -/
theorem mainStep_moves {s s' : State} {c : MainChoice} (hs : mainStep s c = some s') :
    MainMoves s c s' := by
  unfold mainStep at hs
  split at hs <;> try obtain rfl := some.inj hs
  next hpc =>
    split_ifs
    · exact .goes _ (.quits hpc)
    · exact .goes _ (.polls hpc)
  next hpc => exact .goes _ (.polled hpc)
  next t rest hpc => exact .polls t rest hpc
  next hpc =>
    split_ifs
    · exact .goes _ (.cycles hpc)
    · exact .goes _ (.loops hpc)
  next hpc =>
    by_cases hmbox : s.mainMbox = true
    · rw [if_pos hmbox]
      exact .takes hpc hmbox
    · have hempty : s.mainMbox = false := by simpa using hmbox
      rw [if_neg hmbox, ← hempty]
      exact .goes _ (.misses hpc)
  next hpc => exact .handles hpc
  next next hpc => exact .sends next hpc
  next hpc =>
    unfold tryStartReload
    split_ifs with hphase hsignal
    · exact .goes _ (.rests hpc)
    · exact .starts hpc (by simpa using hphase) hsignal
    · exact .goes _ (.rests hpc)
  next hpc => exact .sendsPlan hpc
  next hpc => exact .stopsReload hpc
  next hpc =>
    split at hs
    next hexited =>
      obtain rfl := some.inj hs
      exact .goes _ (.joins hpc hexited)
    next => cases hs
  next hpc => exact .goes _ (.stops hpc)
  next hpc =>
    split_ifs at hs with hexited
    obtain rfl := some.inj hs
    exact .goes _ (.joinsOutput hpc hexited)
  next hpc =>
    split at hs
    next htasks =>
      obtain rfl := some.inj hs
      exact .goes _ (.ends hpc htasks)
    next t rest htasks =>
      obtain rfl := some.inj hs
      exact .destroys t rest hpc htasks
  next => cases hs

/-! ### Places and stages -/

/-- The main thread is inside `task_manager_reload_cycle` with something to hand over. -/
def MainPc.inCycle : MainPc → Bool
  | .handle | .send _ | .sendPlan => true
  | _ => false

/-- The main thread destroys the task list, or has done so. -/
def MainPc.ended : MainPc → Bool
  | .destroy | .done => true
  | _ => false

/-- The reload thread has a pointer to `main_tx_msg`. -/
def ReloadPc.holds : ReloadPc → Bool
  | .check | .recv | .exited => false
  | _ => true

def Ctx.empty : Ctx := ⟨none, none, none⟩

inductive Place where
  /-- main has filled `main_tx_msg` -/
  | mainSend
  /-- `reload_mbox` points to it -/
  | request
  /-- the reload thread works on it -/
  | reload
  /-- `main_mbox` points to the answer -/
  | report
  /-- main has taken the answer -/
  | mainHandle
deriving DecidableEq

/-- The program points of the main thread at a place. -/
def Place.MainAt (sending main : MainPc) : Place → Prop
  | .mainSend => main = sending
  | .mainHandle => main = .handle
  | _ => main.inCycle = false

/-- The phase, the mailboxes and the program points at a place of an exchange that main starts at
`sending` in the phase `before` and waits for in the phase `next`. -/
structure Ctl (p : Place) (sending : MainPc) (before next : Phase) (main : MainPc) (c : Core) :
    Prop where
  main_at : p.MainAt sending main
  phase_eq : c.phase = if p = .mainSend then before else next
  reloadMbox_eq : c.reloadMbox = decide (p = .request)
  mainMbox_eq : c.mainMbox = decide (p = .report)
  holds_eq : c.reload.holds = decide (p = .reload)

/-! ### What is known at each place -/

/-- The plan was requested and not looked at. -/
def PlanRequested (r : Record) (c : Core) : Prop :=
  c.mainTx = .reqPlan r.before.tasks ∧ c.ctx = .empty ∧ r.config = none

/-- The answer to a plan request, and the context left behind. -/
def PlanReport (r : Record) (m : Msg) (ctx : Ctx) : Prop :=
  (m = .rptError none ∧ ctx = .empty ∧ r.config = none) ∨
    ∃ config, r.config = some config ∧ validateFingerprints config.tasks = true ∧
      m = .rptSurvivors (survivingTasks r.before.tasks config.tasks) ∧
      ctx = ⟨some config, some r.before.tasks, none⟩

def PlanData (r : Record) (c : Core) : Place → Prop
  | .mainSend | .request => PlanRequested r c
  | .reload =>
    match c.reload with
    | .dispatch => PlanRequested r c
    | .plan => c.ctx = ⟨none, some r.before.tasks, none⟩ ∧ r.config = none
    | .report m after => PlanReport r m after
    | .send after => PlanReport r c.reloadTx after
    | _ => False
  | .report | .mainHandle => PlanReport r c.reloadTx c.ctx

/-- The build was requested and not looked at. -/
def BuildRequested (r : Record) (config : Config) (c : Core) : Prop :=
  c.mainTx = .reqBuild r.before.tasks ∧ c.ctx = ⟨some config, some r.before.tasks, none⟩ ∧
    r.created = [] ∧ r.destroyed = []

/-- The answer to a build request, and the context left behind. -/
def BuildReport (r : Record) (config : Config) (m : Msg) (ctx : Ctx) : Prop :=
  (m = .rptError (some r.before.tasks) ∧ ctx = .empty ∧ r.created.Perm r.destroyed) ∨
    ∃ tasks errors, m = .rptNewTasks config tasks errors ∧
      ctx = ⟨none, some r.before.tasks, some r.before.tasks⟩ ∧ r.destroyed = [] ∧
      Built config.tasks r.before.tasks r.created config.tasks.length tasks errors

def BuildData (r : Record) (config : Config) (c : Core) : Place → Prop
  | .mainSend | .request => BuildRequested r config c
  | .reload =>
    match c.reload with
    | .dispatch => BuildRequested r config c
    | .build i rest tasks errors =>
      c.ctx = ⟨some config, some r.before.tasks, some r.before.tasks⟩ ∧
        rest = config.tasks.drop i ∧ i ≤ config.tasks.length ∧ r.destroyed = [] ∧
        Built config.tasks r.before.tasks r.created i tasks errors
    | .undo rest =>
      c.ctx = ⟨some config, some r.before.tasks, some r.before.tasks⟩ ∧
        r.created.Perm (r.destroyed ++
          captureTasks (rest.filter fun t => !keyIn Task.fingerprint r.before.tasks t))
    | .report m after => BuildReport r config m after
    | .send after => BuildReport r config c.reloadTx after
    | _ => False
  | .report | .mainHandle => BuildReport r config c.reloadTx c.ctx

/-- The reclaim was requested and nothing destroyed yet. -/
def ReclaimRequested (r : Record) (c : Core) : Prop :=
  c.ctx = ⟨none, some r.before.tasks, some r.before.tasks⟩ ∧ r.destroyed = []

/-- The old tasks that the new ones do not use were destroyed. -/
def ReclaimReport (r : Record) (tasks : List Task) (m : Msg) (ctx : Ctx) : Prop :=
  m = .rptReclaimed ∧ ctx = .empty ∧
    r.destroyed = captureTasks (r.before.tasks.filter (unusedIn tasks))

def ReclaimData (r : Record) (tasks : List Task) (c : Core) : Place → Prop
  | .mainSend | .request => ReclaimRequested r c
  | .reload =>
    match c.reload with
    | .dispatch | .drainRequest | .waitRunning | .waitResponse | .drainAck =>
      ReclaimRequested r c
    | .reclaim rest =>
      c.ctx = ⟨none, some r.before.tasks, some r.before.tasks⟩ ∧
        ∃ gone, r.before.tasks = gone ++ rest ∧
          r.destroyed = captureTasks (gone.filter (unusedIn tasks))
    | .report m after => ReclaimReport r tasks m after
    | .send after => ReclaimReport r tasks c.reloadTx after
    | _ => False
  | .report | .mainHandle => ReclaimReport r tasks c.reloadTx c.ctx

inductive Stage where
  | idle
  | plan (p : Place)
  | build (p : Place)
  | reclaim (p : Place)

def Stage.At (main : MainPc) (c : Core) : Stage → Prop
  | .idle =>
    main.inCycle = false ∧ c.phase = .idle ∧ c.reloadMbox = false ∧ c.mainMbox = false ∧
      c.reload.holds = false ∧ c.ctx = .empty ∧ c.current = none
  | .plan p =>
    Ctl p .sendPlan .idle .awaitingSurvivors main c ∧
      ∃ r, c.current = some r ∧ c.mgr = r.before ∧ r.created = [] ∧ r.destroyed = [] ∧
        PlanData r c p
  | .build p =>
    Ctl p (.send .awaitingNewTasks) .awaitingSurvivors .awaitingNewTasks main c ∧
      ∃ r config, c.current = some r ∧ r.config = some config ∧
        validateFingerprints config.tasks = true ∧
        c.mgr = { r.before with tasks := survivingTasks r.before.tasks config.tasks } ∧
        BuildData r config c p
  | .reclaim p =>
    Ctl p (.send .awaitingReclaim) .awaitingNewTasks .awaitingReclaim main c ∧
      ∃ r config tasks errors, c.current = some r ∧ r.config = some config ∧
        validateFingerprints config.tasks = true ∧
        Built config.tasks r.before.tasks r.created config.tasks.length tasks errors ∧
        c.mgr = r.before.commit config tasks errors ∧
        c.mainTx = .reqReclaim r.before.config r.before.errors tasks ∧ ReclaimData r tasks c p

/-! ### Reading the place off the state -/

section Place

variable {p : Place} {sending : MainPc} {before next : Phase} {main : MainPc} {c : Core}

theorem Ctl.place_of_holds (h : Ctl p sending before next main c) (hc : c.reload.holds = true) :
    p = .reload :=
  of_decide_eq_true (h.holds_eq.symm.trans hc)

theorem Ctl.place_of_reloadMbox (h : Ctl p sending before next main c)
    (hc : c.reloadMbox = true) : p = .request :=
  of_decide_eq_true (h.reloadMbox_eq.symm.trans hc)

theorem Ctl.place_of_mainMbox (h : Ctl p sending before next main c) (hc : c.mainMbox = true) :
    p = .report :=
  of_decide_eq_true (h.mainMbox_eq.symm.trans hc)

theorem Ctl.place_of_handle (h : Ctl p sending before next .handle c) (hs : sending ≠ .handle) :
    p = .mainHandle := by
  have := h.main_at
  cases p with
  | mainSend => exact absurd this.symm hs
  | mainHandle => rfl
  | _ => cases this

theorem Ctl.place_of_inCycle (h : Ctl p sending before next main c) (hm : main.inCycle = true)
    (hh : main ≠ .handle) : p = .mainSend ∧ main = sending := by
  have := h.main_at
  cases p with
  | mainSend => exact ⟨rfl, this⟩
  | mainHandle => exact absurd this hh
  | _ => exact absurd (hm.symm.trans this) (by simp)

theorem Ctl.move_main (h : Ctl p sending before next main c) (hs : sending.inCycle = true)
    (hm : main.inCycle = false) {main' : MainPc} (hm' : main'.inCycle = false) :
    Ctl p sending before next main' c where
  main_at := by
    have := h.main_at
    cases p with
    | mainSend =>
      have hsend : main = sending := this
      rw [hsend, hs] at hm
      cases hm
    | mainHandle =>
      have hhandle : main = .handle := this
      rw [hhandle] at hm
      cases hm
    | _ => exact hm'
  phase_eq := h.phase_eq
  reloadMbox_eq := h.reloadMbox_eq
  mainMbox_eq := h.mainMbox_eq
  holds_eq := h.holds_eq

theorem Ctl.move_reload (h : Ctl p sending before next main c) (hc : c.reload.holds = false)
    {pc : ReloadPc} (hpc : pc.holds = false) :
    p ≠ .reload ∧ Ctl p sending before next main { c with reload := pc } := by
  have hholds := h.holds_eq
  rw [hc] at hholds
  refine ⟨by simpa using hholds.symm, h.main_at, h.phase_eq, h.reloadMbox_eq, h.mainMbox_eq, ?_⟩
  rw [← hholds]
  exact hpc

theorem Ctl.go (h : Ctl .reload sending before next main c) {c' : Core}
    (hphase : c'.phase = c.phase) (hreload : c'.reloadMbox = c.reloadMbox)
    (hmain : c'.mainMbox = c.mainMbox) (hholds : c'.reload.holds = true) :
    Ctl .reload sending before next main c' where
  main_at := h.main_at
  phase_eq := hphase.trans h.phase_eq
  reloadMbox_eq := hreload.trans h.reloadMbox_eq
  mainMbox_eq := hmain.trans h.mainMbox_eq
  holds_eq := hholds

theorem Ctl.take_request (h : Ctl .request sending before next main c) :
    Ctl .reload sending before next main { c with reload := .dispatch, reloadMbox := false } where
  main_at := h.main_at
  phase_eq := h.phase_eq
  reloadMbox_eq := rfl
  mainMbox_eq := h.mainMbox_eq
  holds_eq := rfl

theorem Ctl.send_report (h : Ctl .reload sending before next main c) (ctx : Ctx) :
    Ctl .report sending before next main
      { c with mainMbox := true, ctx := ctx, reload := .check } where
  main_at := h.main_at
  phase_eq := h.phase_eq
  reloadMbox_eq := h.reloadMbox_eq
  mainMbox_eq := rfl
  holds_eq := rfl

theorem Ctl.take_report (h : Ctl .report sending before next main c) :
    Ctl .mainHandle sending before next .handle { c with mainMbox := false } where
  main_at := rfl
  phase_eq := h.phase_eq
  reloadMbox_eq := h.reloadMbox_eq
  mainMbox_eq := rfl
  holds_eq := h.holds_eq

theorem Ctl.send_request (h : Ctl .mainSend sending before next main c) {main' : MainPc}
    (hm : main'.inCycle = false) :
    Ctl .request sending before next main' { c with reloadMbox := true, phase := next } where
  main_at := hm
  phase_eq := rfl
  reloadMbox_eq := rfl
  mainMbox_eq := h.mainMbox_eq
  holds_eq := h.holds_eq

theorem Ctl.next_request (h : Ctl .mainHandle sending before next main c) (sending' : MainPc)
    (next' : Phase) {c' : Core} (hphase : c'.phase = c.phase)
    (hreload : c'.reloadMbox = c.reloadMbox) (hmain : c'.mainMbox = c.mainMbox)
    (hholds : c'.reload.holds = c.reload.holds) :
    Ctl .mainSend sending' next next' sending' c' where
  main_at := rfl
  phase_eq := hphase.trans h.phase_eq
  reloadMbox_eq := hreload.trans h.reloadMbox_eq
  mainMbox_eq := hmain.trans h.mainMbox_eq
  holds_eq := hholds.trans h.holds_eq

end Place

variable {st : Stage} {main : MainPc} {c : Core}

theorem Stage.At.move_main (h : st.At main c) (hm : main.inCycle = false) {main' : MainPc}
    (hm' : main'.inCycle = false) : st.At main' c := by
  cases st with
  | idle => exact ⟨hm', h.2⟩
  | plan p | build p | reclaim p => exact ⟨h.1.move_main rfl hm hm', h.2⟩

/-- A reload thread that holds nothing may move. -/
theorem Stage.At.move_reload (h : st.At main c) (hc : c.reload.holds = false) {pc : ReloadPc}
    (hpc : pc.holds = false) : st.At main { c with reload := pc } := by
  cases st with
  | idle =>
    obtain ⟨hm, hphase, hreload, hmain, -, hctx, hcur⟩ := h
    exact ⟨hm, hphase, hreload, hmain, hpc, hctx, hcur⟩
  | plan p =>
    obtain ⟨hctl, r, hcur, hmgr, hcr, hde, hdata⟩ := h
    obtain ⟨hp, hctl'⟩ := hctl.move_reload hc hpc
    refine ⟨hctl', r, hcur, hmgr, hcr, hde, ?_⟩
    cases p <;> first | exact absurd rfl hp | exact hdata
  | build p =>
    obtain ⟨hctl, r, config, hcur, hcfg, hval, hmgr, hdata⟩ := h
    obtain ⟨hp, hctl'⟩ := hctl.move_reload hc hpc
    refine ⟨hctl', r, config, hcur, hcfg, hval, hmgr, ?_⟩
    cases p <;> first | exact absurd rfl hp | exact hdata
  | reclaim p =>
    obtain ⟨hctl, r, config, tasks, errors, hcur, hcfg, hval, hbuilt, hmgr, htx, hdata⟩ := h
    obtain ⟨hp, hctl'⟩ := hctl.move_reload hc hpc
    refine ⟨hctl', r, config, tasks, errors, hcur, hcfg, hval, hbuilt, hmgr, htx, ?_⟩
    cases p <;> first | exact absurd rfl hp | exact hdata

theorem Stage.At.of_place (h : st.At main c) {q : Place} (hidle : ¬ Stage.idle.At main c)
    (hplace : ∀ {p sending before next}, Ctl p sending before next main c → sending ≠ .handle →
      p = q) : st = .plan q ∨ st = .build q ∨ st = .reclaim q := by
  cases st with
  | idle => exact absurd h hidle
  | plan p => exact Or.inl (by rw [hplace h.1 (by simp)])
  | build p => exact Or.inr (Or.inl (by rw [hplace h.1 (by simp)]))
  | reclaim p => exact Or.inr (Or.inr (by rw [hplace h.1 (by simp)]))

theorem Stage.At.of_holds (h : st.At main c) (hc : c.reload.holds = true) :
    st = .plan .reload ∨ st = .build .reload ∨ st = .reclaim .reload :=
  h.of_place (fun hidle => by simp [hidle.2.2.2.2.1] at hc) fun hctl _ => hctl.place_of_holds hc

theorem Stage.At.of_reloadMbox (h : st.At main c) (hc : c.reloadMbox = true) :
    st = .plan .request ∨ st = .build .request ∨ st = .reclaim .request :=
  h.of_place (fun hidle => by simp [hidle.2.2.1] at hc) fun hctl _ => hctl.place_of_reloadMbox hc

theorem Stage.At.of_mainMbox (h : st.At main c) (hc : c.mainMbox = true) :
    st = .plan .report ∨ st = .build .report ∨ st = .reclaim .report :=
  h.of_place (fun hidle => by simp [hidle.2.2.2.1] at hc) fun hctl _ => hctl.place_of_mainMbox hc

theorem Stage.At.of_handle (h : st.At .handle c) :
    st = .plan .mainHandle ∨ st = .build .mainHandle ∨ st = .reclaim .mainHandle :=
  h.of_place (fun hidle => by cases hidle.1) fun hctl hs => hctl.place_of_handle hs

theorem Stage.At.of_send {next : Phase} (h : st.At (.send next) c) :
    st = .build .mainSend ∧ next = .awaitingNewTasks ∨
      st = .reclaim .mainSend ∧ next = .awaitingReclaim := by
  cases st with
  | idle => cases h.1
  | plan p =>
    obtain ⟨-, hsend⟩ := h.1.place_of_inCycle rfl (by simp)
    cases hsend
  | build p =>
    obtain ⟨rfl, hsend⟩ := h.1.place_of_inCycle rfl (by simp)
    cases hsend
    exact Or.inl ⟨rfl, rfl⟩
  | reclaim p =>
    obtain ⟨rfl, hsend⟩ := h.1.place_of_inCycle rfl (by simp)
    cases hsend
    exact Or.inr ⟨rfl, rfl⟩

theorem Stage.At.of_sendPlan (h : st.At .sendPlan c) : st = .plan .mainSend := by
  cases st with
  | idle => cases h.1
  | plan p =>
    obtain ⟨rfl, -⟩ := h.1.place_of_inCycle rfl (by simp)
    rfl
  | build p | reclaim p =>
    obtain ⟨-, hsend⟩ := h.1.place_of_inCycle rfl (by simp)
    cases hsend

/-- Without a reload the stage is idle. -/
theorem Stage.At.of_idle (h : st.At main c) (hm : main.inCycle = false) (hc : c.phase = .idle) :
    st = .idle := by
  have hcontra {p : Place} {sending : MainPc} {before next : Phase}
      (hctl : Ctl p sending before next main c) (hs : sending.inCycle = true)
      (hn : next ≠ .idle) : False := by
    have hphase := hctl.phase_eq
    have hmain := hctl.main_at
    rw [hc] at hphase
    by_cases hp : p = .mainSend
    · subst hp
      have hsend : main = sending := hmain
      rw [hsend, hs] at hm
      cases hm
    · rw [if_neg hp] at hphase
      exact hn hphase.symm
  cases st with
  | idle => rfl
  | plan p | build p | reclaim p => exact (hcontra h.1 rfl (by simp)).elim

/-! ### Steps of the reload thread -/

variable {s s' : State} {ch : ReloadChoice}

/-- The steps of the plan lead from stage to stage. -/
theorem at_plan (h : (Stage.plan .reload).At s.main s.toCore) (hs : reloadStep s ch = some s') :
    ∃ st' : Stage, st'.At s'.main s'.toCore := by
  obtain ⟨hctl, r, hcur, hmgr, hcr, hde, hdata⟩ := h
  unfold PlanData at hdata
  unfold reloadStep at hs
  cases hpc : s.reload <;> simp only [hpc, some.injEq] at hdata hs
  case dispatch =>
    obtain ⟨htx, hctx, hcfg⟩ := hdata
    simp only [reloadDispatch, htx] at hs
    subst hs
    refine ⟨.plan .reload, hctl.go rfl rfl rfl rfl, r, hcur, hmgr, hcr, hde, ?_⟩
    exact ⟨by rw [hctx]; rfl, hcfg⟩
  case plan =>
    obtain ⟨hctx, hcfg⟩ := hdata
    subst hs
    have hfailed : (Stage.plan .reload).At s.main
        { s with reload := .report (.rptError none) s.ctx.resetCycleState }.toCore :=
      ⟨hctl.go rfl rfl rfl rfl, r, hcur, hmgr, hcr, hde,
        Or.inl ⟨rfl, by rw [hctx]; rfl, hcfg⟩⟩
    unfold reloadDoPlan
    cases ch.parsed with
    | none => exact ⟨_, hfailed⟩
    | some config =>
      simp only
      by_cases hval : validateFingerprints config.tasks = true
      · rw [if_pos hval]
        split_ifs with hlist
        · cases hcol : collectSurvivingTasks ch.alloc (s.ctx.currentTasks.getD []) 0
              config.tasks with
          | none => exact ⟨_, hfailed⟩
          | some survivors =>
            have hsurv := collectSurvivingTasks_eq hcol
            rw [hctx] at hsurv
            refine ⟨.plan .reload, hctl.go rfl rfl rfl rfl,
              { r with config := some config }, by simp [hcur], hmgr, hcr, hde, ?_⟩
            exact Or.inr ⟨config, rfl, hval, by rw [hsurv]; rfl, by rw [hctx]⟩
        · exact ⟨_, hfailed⟩
      · rw [if_neg hval]
        exact ⟨_, hfailed⟩
  case report m after =>
    subst hs
    exact ⟨.plan .reload, hctl.go rfl rfl rfl rfl, r, hcur, hmgr, hcr, hde,
      hdata⟩
  case send after =>
    subst hs
    exact ⟨.plan .report, hctl.send_report after, r, hcur, hmgr, hcr, hde, hdata⟩

/-- The steps of the build lead from stage to stage. -/
theorem at_build (h : (Stage.build .reload).At s.main s.toCore) (hs : reloadStep s ch = some s') :
    ∃ st' : Stage, st'.At s'.main s'.toCore := by
  obtain ⟨hctl, r, config, hcur, hcfg, hval, hmgr, hdata⟩ := h
  unfold BuildData at hdata
  unfold reloadStep at hs
  cases hpc : s.reload <;> simp only [hpc, some.injEq] at hdata hs
  case dispatch =>
    obtain ⟨htx, hctx, hcr, hde⟩ := hdata
    simp only [reloadDispatch, htx] at hs
    subst hs
    split_ifs with hlist
    · refine ⟨.build .reload, hctl.go rfl rfl rfl rfl, r, config, hcur, hcfg,
        hval, hmgr, by rw [hctx], by rw [hctx]; rfl, Nat.zero_le _, hde, ?_⟩
      rw [hcr]
      exact Built.zero _ _
    · refine ⟨.build .reload, hctl.go rfl rfl rfl rfl, r, config, hcur, hcfg,
        hval, hmgr, Or.inl ⟨rfl, rfl, ?_⟩⟩
      rw [hcr, hde]
  case build i rest tasks errors =>
    obtain ⟨hctx, hrest, hi, hde, hbuilt⟩ := hdata
    simp only [buildStep, hctx] at hs
    cases hrest' : rest with
    | nil =>
      simp only [hrest', some.injEq] at hs
      subst hs
      have hlen : i = config.tasks.length := by
        have hdrop : config.tasks.drop i = [] := hrest.symm.trans hrest'
        have := drop_eq_nil_iff.mp hdrop
        omega
      subst hlen
      exact ⟨.build .reload, hctl.go rfl rfl rfl rfl, r, config, hcur, hcfg,
        hval, hmgr, Or.inr ⟨tasks, errors, rfl, rfl, hde, hbuilt⟩⟩
    | cons entry rest' =>
      have hdrop : config.tasks.drop i = entry :: rest' := hrest.symm.trans hrest'
      have hentry : config.tasks[i]? = some entry := by
        rw [← List.head?_drop, hdrop, List.head?_cons]
      have hi' : i + 1 ≤ config.tasks.length := by
        have := (List.getElem?_eq_some_iff.mp hentry).1
        omega
      have htail : rest' = config.tasks.drop (i + 1) := by
        rw [← tail_drop, hdrop, tail_cons]
      have hround := hbuilt.round hentry s.nextId ch.entry
      simp only [hrest', getD_some] at hs
      cases hres : buildEntry s.nextId config.tasks r.before.tasks i entry ch.entry with
      | task new t =>
        rw [hres] at hround
        cases new with
        | none =>
          simp only [hres, some.injEq] at hs
          subst hs
          refine ⟨.build .reload, hctl.go rfl rfl rfl rfl, r, config,
            hcur, hcfg, hval, hmgr, rfl, htail, hi', hde, ?_⟩
          simpa using hround
        | some new =>
          simp only [hres, some.injEq] at hs
          subst hs
          exact ⟨.build .reload, hctl.go rfl rfl rfl rfl,
            { r with created := r.created ++ [new] }, config,
            by simp [State.logCreated, hcur], hcfg, hval, hmgr, hctx, htail, hi', hde,
            hround⟩
      | error e =>
        rw [hres] at hround
        simp only [hres, some.injEq] at hs
        subst hs
        exact ⟨.build .reload, hctl.go rfl rfl rfl rfl, r, config, hcur,
          hcfg, hval, hmgr, rfl, htail, hi', hde, hround⟩
      | abort new =>
        cases new with
        | none =>
          simp only [hres, some.injEq] at hs
          subst hs
          refine ⟨.build .reload, hctl.go rfl rfl rfl rfl, r, config,
            hcur, hcfg, hval, hmgr, rfl, ?_⟩
          rw [hde, hbuilt.created_eq]
          exact List.Perm.refl _
        | some new =>
          simp only [hres, some.injEq] at hs
          subst hs
          refine ⟨.build .reload, hctl.go rfl rfl rfl rfl,
            { r with created := r.created ++ [new], destroyed := r.destroyed ++ [new] },
            config, by simp [State.logCreated, State.logDestroyed, hcur], hcfg, hval, hmgr,
            hctx, ?_⟩
          rw [hde, hbuilt.created_eq]
          exact perm_append_comm
  case undo rest =>
    obtain ⟨hctx, hperm⟩ := hdata
    subst hs
    cases rest with
    | nil =>
      refine ⟨.build .reload, hctl.go rfl rfl rfl rfl, r, config, hcur, hcfg,
        hval, hmgr, Or.inl ⟨by rw [hctx], rfl, ?_⟩⟩
      simpa [captureTasks] using hperm
    | cons t rest =>
      unfold undoStep
      simp only [hctx, getD_some]
      split_ifs with hkey
      · refine ⟨.build .reload, hctl.go rfl rfl rfl rfl, r, config, hcur,
          hcfg, hval, hmgr, hctx, ?_⟩
        simpa [hkey] using hperm
      · refine ⟨.build .reload, hctl.go rfl rfl rfl rfl,
          { r with destroyed := r.destroyed ++ [t.task] }, config,
          by simp [State.logDestroyed, hcur], hcfg, hval, hmgr, hctx, ?_⟩
        simpa [hkey, captureTasks] using hperm
  case report m after =>
    subst hs
    exact ⟨.build .reload, hctl.go rfl rfl rfl rfl, r, config, hcur, hcfg, hval,
      hmgr, hdata⟩
  case send after =>
    subst hs
    exact ⟨.build .report, hctl.send_report after, r, config, hcur, hcfg, hval, hmgr, hdata⟩

/-- The steps of the reclaim lead from stage to stage. -/
theorem at_reclaim (h : (Stage.reclaim .reload).At s.main s.toCore)
    (hs : reloadStep s ch = some s') : ∃ st' : Stage, st'.At s'.main s'.toCore := by
  obtain ⟨hctl, r, config, tasks, errors, hcur, hcfg, hval, hbuilt, hmgr, htx, hdata⟩ := h
  unfold ReclaimData at hdata
  unfold reloadStep at hs
  -- the pcs before the loop differ in the program point only
  have hmove (pc : ReloadPc) (hholds : pc.holds = true)
      (hpc : ReclaimData r tasks { s.toCore with reload := pc } .reload) :
      (Stage.reclaim .reload).At s.main { s.toCore with reload := pc } :=
    ⟨hctl.go rfl rfl rfl hholds, r, config, tasks, errors, hcur, hcfg, hval, hbuilt, hmgr, htx,
      hpc⟩
  have hstart (hreq : ReclaimRequested r s.toCore) :
      ReclaimData r tasks { s.toCore with reload := .reclaim (s.ctx.oldTasks.getD []) }
        .reload := by
    obtain ⟨hctx, hde⟩ := hreq
    exact ⟨hctx, [], by rw [hctx]; rfl, by rw [hde]; rfl⟩
  cases hpc : s.reload <;> simp only [hpc, some.injEq] at hdata hs
  case dispatch =>
    have hdispatch : reloadDispatch s ch =
        if s.mgr.executionModel = .pipeline then { s with reload := .drainRequest }
        else { s with reload := .reclaim (s.ctx.oldTasks.getD []) } := by
      unfold reloadDispatch
      rw [htx]
    rw [hdispatch] at hs
    subst hs
    split_ifs with hpipe
    · exact ⟨_, hmove .drainRequest rfl hdata⟩
    · exact ⟨_, hmove _ rfl (hstart hdata)⟩
  case drainRequest =>
    subst hs
    exact ⟨_, hmove .waitRunning rfl hdata⟩
  case waitRunning =>
    subst hs
    split_ifs with hrun
    · exact ⟨_, hmove .waitResponse rfl hdata⟩
    · exact ⟨_, hmove _ rfl (hstart hdata)⟩
  case waitResponse =>
    subst hs
    split_ifs with hresp
    · exact ⟨_, hmove .drainAck rfl hdata⟩
    · exact ⟨_, hmove .waitRunning rfl hdata⟩
  case drainAck =>
    subst hs
    exact ⟨_, hmove _ rfl (hstart hdata)⟩
  case reclaim rest =>
    obtain ⟨hctx, gone, hgone, hde⟩ := hdata
    subst hs
    cases rest with
    | nil =>
      rw [append_nil] at hgone
      refine ⟨.reclaim .reload, hctl.go rfl rfl rfl rfl, r, config, tasks,
        errors, hcur, hcfg, hval, hbuilt, hmgr, htx, rfl, ?_, ?_⟩
      · rw [hctx]
        rfl
      · rw [hgone]
        exact hde
    | cons t rest =>
      unfold reclaimStep
      simp only [htx, Msg.newTasks]
      split_ifs with hun
      · refine ⟨.reclaim .reload, hctl.go rfl rfl rfl rfl,
          { r with destroyed := r.destroyed ++ [t.task] }, config, tasks, errors,
          by simp [State.logDestroyed, hcur], hcfg, hval, hbuilt, hmgr, htx, hctx,
          gone ++ [t], by simpa using hgone, ?_⟩
        simp [hde, captureTasks, filter_append, hun]
      · refine ⟨.reclaim .reload, hctl.go rfl rfl rfl rfl, r, config, tasks,
          errors, hcur, hcfg, hval, hbuilt, hmgr, htx, hctx, gone ++ [t],
          by simpa using hgone, ?_⟩
        simp [hde, captureTasks, filter_append, hun]
  case report m after =>
    subst hs
    exact ⟨.reclaim .reload, hctl.go rfl rfl rfl rfl, r, config, tasks, errors,
      hcur, hcfg, hval, hbuilt, hmgr, htx, hdata⟩
  case send after =>
    subst hs
    exact ⟨.reclaim .report, hctl.send_report after, r, config, tasks, errors, hcur, hcfg, hval,
      hbuilt, hmgr, htx, hdata⟩

/-- The steps of the reload thread lead from stage to stage. -/
theorem at_reloadStep (h : st.At s.main s.toCore) (hs : reloadStep s ch = some s') :
    ∃ st' : Stage, st'.At s'.main s'.toCore := by
  by_cases hholds : s.reload.holds = true
  · rcases h.of_holds hholds with rfl | rfl | rfl
    · exact at_plan h hs
    · exact at_build h hs
    · exact at_reclaim h hs
  · have hfree : s.reload.holds = false := by simpa using hholds
    unfold reloadStep at hs
    cases hpc : s.reload with
    | check =>
      simp only [hpc, some.injEq] at hs
      subst hs
      refine ⟨st, h.move_reload hfree ?_⟩
      split_ifs <;> rfl
    | recv =>
      simp only [hpc, some.injEq] at hs
      subst hs
      by_cases hmbox : s.reloadMbox = true
      · simp only [hmbox, if_true]
        rcases h.of_reloadMbox hmbox with rfl | rfl | rfl
        · exact ⟨.plan .reload, h.1.take_request, h.2⟩
        · exact ⟨.build .reload, h.1.take_request, h.2⟩
        · exact ⟨.reclaim .reload, h.1.take_request, h.2⟩
      · have hempty : s.reloadMbox = false := by simpa using hmbox
        simp only [hempty, Bool.false_eq_true, if_false]
        have hmove : st.At s.main { s.toCore with reload := .check } := h.move_reload hfree rfl
        simp only [hempty] at hmove
        exact ⟨st, hmove⟩
    | exited => simp [hpc] at hs
    | _ => simp [hpc, ReloadPc.holds] at hfree

/-! ### Steps of the main thread -/

/-- What handling a report does, in the branches that are reached. -/
inductive Handled (s : State) : State → Prop
  | planFailed (r : Record) (hcur : s.current = some r) (hcreated : r.created = [])
      (hdestroyed : r.destroyed = []) (hmgr : s.mgr = r.before) :
      Handled s { s.finish .planError s.mgr with phase := .idle, main := .tryStart }
  | survivors (r : Record) (config : Config) (hphase : s.phase = .awaitingSurvivors)
      (hcur : s.current = some r) (hcfg : r.config = some config) (hcreated : r.created = [])
      (hmgr : s.mgr = r.before) :
      Handled s { s with
        mgr := { s.mgr with tasks := survivingTasks r.before.tasks config.tasks }
        mainTx := .reqBuild s.mgr.tasks, main := .send .awaitingNewTasks }
  | buildFailed (r : Record) (config : Config) (hcur : s.current = some r)
      (hcfg : r.config = some config) (hperm : r.created.Perm r.destroyed)
      (hmgr : s.mgr = { r.before with tasks := survivingTasks r.before.tasks config.tasks }) :
      Handled s { s.finish .buildError r.before with phase := .idle, main := .tryStart }
  | committed (r : Record) (config : Config) (tasks : List Task) (errors : List TaskError)
      (hphase : s.phase = .awaitingNewTasks) (hcur : s.current = some r)
      (hcfg : r.config = some config)
      (hmgr : s.mgr = { r.before with tasks := survivingTasks r.before.tasks config.tasks })
      (hbuilt : Built config.tasks r.before.tasks r.created config.tasks.length tasks errors) :
      Handled s { s with
        mgr := r.before.commit config tasks errors
        mainTx := .reqReclaim r.before.config r.before.errors tasks
        main := .send .awaitingReclaim }
  | completed (r : Record) (config : Config) (tasks : List Task) (errors : List TaskError)
      (hphase : s.phase = .awaitingReclaim) (hcur : s.current = some r)
      (hcfg : r.config = some config) (hval : validateFingerprints config.tasks = true)
      (hbuilt : Built config.tasks r.before.tasks r.created config.tasks.length tasks errors)
      (hdestroyed : r.destroyed = captureTasks (r.before.tasks.filter (unusedIn tasks)))
      (hmgr : s.mgr = r.before.commit config tasks errors) :
      Handled s { s.finish .completed s.mgr with phase := .idle, main := .tryStart }

/-- Handling a report leads from stage to stage, and reaches no branch for an unexpected message. -/
theorem handle_cases (h : st.At .handle s.toCore) : Handled s (mainHandle s) ∧
    ∃ st' : Stage, st'.At (mainHandle s).main (mainHandle s).toCore := by
  rcases h.of_handle with rfl | rfl | rfl
  · obtain ⟨hctl, r, hcur, hmgr, hcr, hde, hdata⟩ := h
    have hphase : s.phase = .awaitingSurvivors := hctl.phase_eq
    rcases hdata with ⟨hm, hctx, -⟩ | ⟨config, hcfg, hval, hm, hctx⟩ <;> rw [mainHandle, hphase, hm]
    · exact ⟨.planFailed r hcur hcr hde hmgr, .idle, rfl, rfl, hctl.reloadMbox_eq,
        hctl.mainMbox_eq, hctl.holds_eq, hctx, rfl⟩
    · exact ⟨.survivors r config hphase hcur hcfg hcr hmgr, .build .mainSend,
        hctl.next_request _ _ rfl rfl rfl rfl, r, config, hcur, hcfg, hval, by rw [← hmgr]; rfl,
        by rw [← hmgr]; rfl, hctx, hcr, hde⟩
  · obtain ⟨hctl, r, config, hcur, hcfg, hval, hmgr, hdata⟩ := h
    have hphase : s.phase = .awaitingNewTasks := hctl.phase_eq
    rcases hdata with ⟨hm, hctx, hperm⟩ | ⟨tasks, errors, hm, hctx, hde, hbuilt⟩
    · have heq : mainHandle s =
          { s.finish .buildError r.before with phase := .idle, main := .tryStart } := by
        simp only [mainHandle, hphase, hm, mainHandleNewTasks, restoreFullListOnBuildFailure, hmgr]
      rw [heq]
      exact ⟨.buildFailed r config hcur hcfg hperm hmgr, .idle, rfl, rfl, hctl.reloadMbox_eq,
        hctl.mainMbox_eq, hctl.holds_eq, hctx, rfl⟩
    · have heq : mainHandle s = { s with
          mgr := r.before.commit config tasks errors
          mainTx := .reqReclaim r.before.config r.before.errors tasks
          main := .send .awaitingReclaim } := by
        simp only [mainHandle, hphase, hm, mainHandleNewTasks, hmgr, Mgr.commit]
      rw [heq]
      exact ⟨.committed r config tasks errors hphase hcur hcfg hmgr hbuilt, .reclaim .mainSend,
        hctl.next_request _ _ rfl rfl rfl rfl, r, config, tasks, errors, hcur, hcfg, hval, hbuilt,
        rfl, rfl, hctx, hde⟩
  · obtain ⟨hctl, r, config, tasks, errors, hcur, hcfg, hval, hbuilt, hmgr, htx, hdata⟩ := h
    have hphase : s.phase = .awaitingReclaim := hctl.phase_eq
    obtain ⟨hm, hctx, hde⟩ := hdata
    rw [mainHandle, hphase, hm]
    exact ⟨.completed r config tasks errors hphase hcur hcfg hval hbuilt hde hmgr, .idle, rfl, rfl,
      hctl.reloadMbox_eq, hctl.mainMbox_eq, hctl.holds_eq, hctx, rfl⟩

theorem MainGoes.outside {c : MainChoice} {pc : MainPc} (h : MainGoes s c pc)
    (hend : pc.ended = false) : s.main.inCycle = false ∧ pc.inCycle = false := by
  cases h with
  | joinsOutput | ends => cases hend
  | _ hpc => exact ⟨by rw [hpc]; rfl, rfl⟩

/-- The steps of the main thread lead from stage to stage. -/
theorem at_mainStep {ch : MainChoice} (h : st.At s.main s.toCore) (hs : mainStep s ch = some s')
    (hend : s'.main.ended = false) : ∃ st' : Stage, st'.At s'.main s'.toCore := by
  cases mainStep_moves hs with
  | goes pc hgoes =>
    obtain ⟨hmain, hpc⟩ := hgoes.outside hend
    exact ⟨st, h.move_main hmain hpc⟩
  | polls t rest hpc | stopsReload hpc => exact ⟨st, h.move_main (by rw [hpc]; rfl) rfl⟩
  | takes hpc hmbox =>
    rcases h.of_mainMbox hmbox with rfl | rfl | rfl
    · exact ⟨.plan .mainHandle, h.1.take_report, h.2⟩
    · exact ⟨.build .mainHandle, h.1.take_report, h.2⟩
    · exact ⟨.reclaim .mainHandle, h.1.take_report, h.2⟩
  | handles hpc =>
    rw [hpc] at h
    exact (handle_cases h).2
  | sends next hpc =>
    rw [hpc] at h
    rcases h.of_send with ⟨rfl, rfl⟩ | ⟨rfl, rfl⟩
    · exact ⟨.build .request, h.1.send_request rfl, h.2⟩
    · exact ⟨.reclaim .request, h.1.send_request rfl, h.2⟩
  | starts hpc hidle hsignal =>
    obtain rfl := h.of_idle (by rw [hpc]; rfl) hidle
    obtain ⟨-, -, hreload, hmain, hholds, hctx, -⟩ := h
    exact ⟨.plan .mainSend, ⟨rfl, hidle, hreload, hmain, hholds⟩, _, rfl, rfl, rfl, rfl,
      rfl, hctx, rfl⟩
  | sendsPlan hpc =>
    rw [hpc] at h
    obtain rfl := h.of_sendPlan
    exact ⟨.plan .request, h.1.send_request rfl, h.2⟩
  | destroys t rest hpc htasks =>
    rw [show s.main.ended = true by rw [hpc]; rfl] at hend
    cases hend

end Reload

end CloudProbe.Worker
