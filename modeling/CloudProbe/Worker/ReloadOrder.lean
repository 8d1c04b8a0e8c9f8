import CloudProbe.Worker.ReloadAtomic

/-!
# The order of polls and creations

An old task that the new configuration does not name is not polled any more when the first new task
is created; a new task of a failed build is never polled. One invariant (`Separate`) is kept by
every step. An old task that the configuration names stays in the task list (`kept_polled`).
-/

namespace CloudProbe.Worker

open CloudProbe.Lib List Option

namespace Reload

/-! ### Order of events -/

/-- No poll of `o` follows the creation of `n`. -/
def PollsBefore (o n : CaptureTask) (trace : List Event) : Prop :=
  trace.Pairwise fun a b => a = .created n → ∀ packets, b ≠ .polled o packets

def NeverPolled (n : CaptureTask) (trace : List Event) : Prop :=
  ∀ packets, .polled n packets ∉ trace

theorem mem_createdIn {trace : List Event} {t : CaptureTask} :
    t ∈ createdIn trace ↔ .created t ∈ trace := by
  unfold createdIn
  rw [mem_filterMap]
  constructor
  · rintro ⟨e, he, ht⟩
    cases e <;> cases ht
    exact he
  · intro h
    exact ⟨_, h, rfl⟩

section Order

variable {o n : CaptureTask} {trace : List Event} {e : Event}

theorem PollsBefore.snoc (h : PollsBefore o n trace) (he : ∀ packets, e ≠ .polled o packets) :
    PollsBefore o n (trace ++ [e]) := by
  refine pairwise_append.mpr ⟨h, pairwise_singleton _ _, ?_⟩
  intro a _ b hb _ packets
  rw [mem_singleton.mp hb]
  exact he packets

theorem PollsBefore.of_created (h : n ∉ createdIn trace) :
    PollsBefore o n (trace ++ [.created n]) := by
  refine PollsBefore.snoc ?_ nofun
  refine pairwise_of_forall_mem_list ?_
  rintro a ha b _ rfl
  exact absurd (mem_createdIn.mpr ha) h

theorem NeverPolled.snoc (h : NeverPolled n trace) (he : ∀ packets, e ≠ .polled n packets) :
    NeverPolled n (trace ++ [e]) := by
  intro packets hmem
  rcases mem_append.mp hmem with hmem | hmem
  · exact h packets hmem
  · exact he packets (mem_singleton.mp hmem).symm

end Order

/-- The configuration names the fingerprint of the task. -/
def NamedBy (config : Config) (o : Task) : Prop :=
  ∃ fp ∈ config.fingerprints, o.fingerprint = some fp

/-- An old task that the new configuration does not name. -/
def Record.Removes (r : Record) (config : Config) (o : Task) : Prop :=
  o ∈ r.before.tasks ∧ ¬NamedBy config o

variable {st : Stage} {s s' : State} {r : Record} {config : Config}

/-! ### The old tasks and the new ones -/

theorem Hist.nodup_before (h : Hist s) (hcur : s.current = some r) :
    (captureTasks r.before.tasks ++ r.created).Nodup := by
  obtain ⟨cr, de, hcr, -, hperm, -⟩ := hcur ▸ h.balance
  have hnodup := h.nodup
  rw [hcr] at hnodup
  have hall := (hperm.append_right r.created).nodup_iff.mp hnodup
  rw [append_assoc] at hall
  exact (nodup_append.mp hall).2.1

variable {o : Task}

theorem Hist.before_inj (h : Hist s) (hcur : s.current = some r) {t : Task}
    (ho : o ∈ r.before.tasks) (ht : t ∈ r.before.tasks) (heq : o.task = t.task) : o = t :=
  inj_on_of_nodup_map (nodup_append.mp (h.nodup_before hcur)).1 ho ht heq

theorem Hist.created_not_old (h : Hist s) (hcur : s.current = some r) {n : CaptureTask}
    (hn : n ∈ r.created) : n ∉ captureTasks r.before.tasks :=
  fun hold => (nodup_append.mp (h.nodup_before hcur)).2.2 n hold n hn rfl

theorem Record.Removes.unused {tasks : List Task} {errors : List TaskError}
    (ho : r.Removes config o)
    (hbuilt : Built config.tasks r.before.tasks r.created config.tasks.length tasks errors) :
    unusedIn tasks o = true := by
  rw [unusedIn_eq, Bool.not_eq_true', ← Bool.not_eq_true, keyIn_iff]
  rintro ⟨fp, hofp, hmem⟩
  obtain ⟨t, ht, htfp⟩ := mem_keys.mp hmem
  obtain ⟨entry, hentry, hkey, -⟩ := hbuilt.task_entry t ht
  refine ho.2 ⟨fp, ?_, hofp⟩
  exact mem_filterMap.mpr ⟨entry, mem_of_getElem? hentry, hkey.symm.trans htfp⟩

/-- A task that goes is in no task list once a new one was created. -/
theorem removed_not_live (hat : st.At s.main s.toCore) (h : Hist s) (hcur : s.current = some r)
    (hcfg : r.config = some config) {n : CaptureTask} (hn : n ∈ r.created) (ho : r.Removes config o)
    : o.task ∉ captureTasks s.mgr.tasks := by
  obtain ⟨-, -, -, -, -, hkeys⟩ := hcur ▸ h.balance
  cases st with
  | idle =>
    obtain ⟨-, -, -, -, -, -, hnone⟩ := hat
    rw [hcur] at hnone
    cases hnone
  | plan p =>
    obtain ⟨-, r', hcur', -, hcr, -⟩ := hat
    obtain rfl := some.inj (hcur.symm.trans hcur')
    rw [hcr] at hn
    cases hn
  | build p =>
    obtain ⟨-, r', config', hcur', hcfg', -, hmgr, -⟩ := hat
    obtain rfl := some.inj (hcur.symm.trans hcur')
    obtain rfl := some.inj (hcfg.symm.trans hcfg')
    intro hlive
    rw [hmgr] at hlive
    obtain ⟨t, ht, htask⟩ := mem_map.mp hlive
    obtain ⟨hold, entry, hentry, hkey, hsome⟩ := mem_of_mem_survivingTasks ht
    obtain ⟨fp, hfp⟩ := isSome_iff_exists.mp hsome
    obtain rfl := h.before_inj hcur ho.1 hold htask.symm
    exact ho.2 ⟨fp, mem_filterMap.mpr ⟨entry, hentry, hkey.symm.trans hfp⟩, hfp⟩
  | reclaim p =>
    obtain ⟨-, r', config', tasks, errors, hcur', hcfg', -, hbuilt, hmgr, -⟩ := hat
    obtain rfl := some.inj (hcur.symm.trans hcur')
    obtain rfl := some.inj (hcfg.symm.trans hcfg')
    have hnodup := (hbuilt.perm config.unique hkeys).nodup_iff.mpr (h.nodup_before hcur)
    have hunused := mem_filter.mpr ⟨ho.1, ho.unused hbuilt⟩
    rw [hmgr]
    intro hlive
    exact (nodup_append.mp hnodup).2.2 o.task hlive o.task
      (mem_map_of_mem hunused) rfl

/-! ### The invariant -/

/-- The order of events around a reload that is over. -/
def Record.Parted (r : Record) (trace : List Event) : Outcome → Prop
  | .planError _ => r.created = []
  | .buildError _ => ∀ n ∈ r.created, n ∈ destroyedIn trace ∧ NeverPolled n trace
  | .completed _ => ∀ config, r.config = some config → ∀ o, r.Removes config o →
      o.task ∈ destroyedIn trace ∧ ∀ n ∈ r.created, PollsBefore o.task n trace

/-- The order of events around a reload in progress; `live` are the tasks that are polled. -/
def Record.Ongoing (r : Record) (trace : List Event) (live : List CaptureTask) : Prop :=
  ∀ n ∈ r.created, (n ∉ live → NeverPolled n trace) ∧
    ∀ config, r.config = some config → ∀ o, r.Removes config o → PollsBefore o.task n trace

/-- The order of events around every reload. -/
structure Separate (s : State) : Prop where
  polled_created : ∀ t packets, .polled t packets ∈ s.trace → t ∈ createdIn s.trace
  past : ∀ e ∈ s.past, e.1.Parted s.trace e.2
  /-- in `task_manager_destroy`, the tasks that were live before -/
  current : ∀ r, s.current = some r → ∃ live,
    (s.main.ended = false → live = captureTasks s.mgr.tasks) ∧ r.Ongoing s.trace live

section Snoc

variable {trace : List Event} {e : Event} {outcome : Outcome} {live : List CaptureTask}

theorem Record.Parted.snoc (h : r.Parted trace outcome)
    (he : ∀ t packets, e = .polled t packets → t ∉ destroyedIn trace) :
    r.Parted (trace ++ [e]) outcome := by
  have hpoll {t : CaptureTask} (ht : t ∈ destroyedIn trace) (packets : List Arrival) :
      e ≠ .polled t packets := fun heq => he t packets heq ht
  cases outcome with
  | planError after => exact h
  | buildError after =>
    intro n hn
    obtain ⟨hgone, hnever⟩ := h n hn
    refine ⟨?_, hnever.snoc (hpoll hgone)⟩
    rw [destroyedIn_append]
    exact mem_append_left _ hgone
  | completed after =>
    intro config hcfg o ho
    obtain ⟨hgone, hbefore⟩ := h config hcfg o ho
    refine ⟨?_, fun n hn => (hbefore n hn).snoc (hpoll hgone)⟩
    rw [destroyedIn_append]
    exact mem_append_left _ hgone

theorem Record.Ongoing.snoc (h : r.Ongoing trace live)
    (he : ∀ t packets, e = .polled t packets → t ∈ live ∧
      ∀ n ∈ r.created, ∀ config, r.config = some config → ∀ o, r.Removes config o → o.task ≠ t) :
    r.Ongoing (trace ++ [e]) live := by
  intro n hn
  obtain ⟨hnever, hbefore⟩ := h n hn
  constructor
  · intro hlive
    refine (hnever hlive).snoc ?_
    rintro packets rfl
    exact hlive (he n packets rfl).1
  · intro config hcfg o ho
    refine (hbefore config hcfg o ho).snoc ?_
    rintro packets rfl
    exact (he o.task packets rfl).2 n hn config hcfg o ho rfl

/-- A new task is created behind the polls of the old ones. -/
theorem Record.Ongoing.create (h : r.Ongoing trace live) {new : CaptureTask}
    (hnew : new ∉ createdIn trace)
    (hpolled : ∀ t packets, .polled t packets ∈ trace → t ∈ createdIn trace)
    {destroyed : List CaptureTask} :
    Record.Ongoing { r with created := r.created ++ [new], destroyed := destroyed }
      (trace ++ [.created new]) live := by
  have hquiet (t : CaptureTask) (packets : List Arrival) :
      Event.created new ≠ .polled t packets := by
    nofun
  have hold := h.snoc (e := .created new) fun t packets heq => absurd heq (hquiet t packets)
  intro n hn
  rcases mem_append.mp hn with hn | hn
  · exact hold n hn
  · rw [mem_singleton.mp hn]
    constructor
    · intro _
      have hnever : NeverPolled new trace := fun packets hmem => hnew (hpolled new packets hmem)
      exact hnever.snoc (hquiet new)
    · intro config _ o _
      exact .of_created hnew

end Snoc

theorem Separate.ongoing (h : Separate s) (hend : s.main.ended = false) (hr : s.current = some r) :
    r.Ongoing s.trace (captureTasks s.mgr.tasks) := by
  obtain ⟨live, hlive, hongoing⟩ := h.current r hr
  rw [← hlive hend]
  exact hongoing

theorem live_created (hat : st.At s.main s.toCore) (h : Hist s) {t : Task}
    (ht : t ∈ s.mgr.tasks) : t.task ∈ createdIn s.trace := by
  obtain ⟨live, hlive, hsub⟩ := accounted hat h
  exact hsub.subset (mem_append_right _ (hlive (mem_map_of_mem ht)))

theorem Separate.past_snoc (h : Separate s) {e : Event}
    (he : ∀ t packets, e = .polled t packets → t ∉ destroyedIn s.trace) :
    ∀ x ∈ s.past, x.1.Parted (s.trace ++ [e]) x.2 :=
  fun x hx => (h.past x hx).snoc he

theorem Separate.polled_snoc (h : Separate s) {e : Event}
    (he : ∀ t packets, e = .polled t packets → t ∈ createdIn s.trace) :
    ∀ t packets, .polled t packets ∈ s.trace ++ [e] → t ∈ createdIn (s.trace ++ [e]) := by
  intro t packets hmem
  rw [createdIn_append]
  refine mem_append_left _ ?_
  rcases mem_append.mp hmem with hmem | hmem
  · exact h.polled_created t packets hmem
  · exact he t packets (mem_singleton.mp hmem).symm

theorem Separate.quiet (h : Separate s) (htrace : s'.trace = s.trace) (hpast : s'.past = s.past)
    (hcur : ∀ r, s'.current = some r → r.Ongoing s'.trace (captureTasks s'.mgr.tasks)) :
    Separate s' where
  polled_created := by
    rw [htrace]
    exact h.polled_created
  past := by
    rw [htrace, hpast]
    exact h.past
  current := fun r hr => ⟨_, fun _ => rfl, hcur r hr⟩

/-- A step that adds an event other than a poll. -/
theorem Separate.snoc (h : Separate s) {e : Event} (he : ∀ t packets, e ≠ .polled t packets)
    (htrace : s'.trace = s.trace ++ [e]) (hpast : s'.past = s.past)
    (hcur : ∀ r, s'.current = some r → r.Ongoing (s.trace ++ [e]) (captureTasks s'.mgr.tasks)) :
    Separate s' := by
  constructor
  · rw [htrace]
    exact h.polled_snoc fun t packets heq => absurd heq (he t packets)
  · rw [htrace, hpast]
    exact h.past_snoc fun t packets heq => absurd heq (he t packets)
  · rw [htrace]
    exact fun r hr => ⟨_, fun _ => rfl, hcur r hr⟩

/-- **The step lemma** for the reload thread. -/
theorem separate_reloadStep {ch : ReloadChoice} (hat : st.At s.main s.toCore) (hist : Hist s)
    (h : Separate s) (hs : reloadStep s ch = some s') (hend : s.main.ended = false) :
    Separate s' := by
  have hsame := reloadStep_mainSame hs
  cases reloadStep_effect hat hs with
  | quiet htrace _ hcur =>
    refine h.quiet htrace hsame.past fun r hr => ?_
    rw [htrace, hsame.mgr]
    exact h.ongoing hend (hcur.symm.trans hr)
  | planned r config _ hnone htrace _ hcur =>
    refine h.quiet htrace hsame.past fun r' hr' n hn => ?_
    obtain rfl := some.inj (hcur.symm.trans hr')
    rw [show r.created = [] from hnone] at hn
    cases hn
  | created r new hr hid htrace _ hcur =>
    refine h.snoc (by simp) htrace hsame.past fun r' hr' => ?_
    obtain rfl := some.inj (hcur.symm.trans hr')
    rw [hsame.mgr]
    exact (h.ongoing hend hr).create (hist.new_not_mem hid) h.polled_created
  | aborted r new hr hid htrace _ hcur =>
    have hcreate : Separate { s with trace := s.trace ++ [.created new], current := none } :=
      h.snoc (by simp) rfl rfl nofun
    refine hcreate.snoc (e := .destroyed new) (by simp) ?_ hsame.past fun r' hr' => ?_
    · rw [htrace, append_assoc]
      rfl
    · obtain rfl := some.inj (hcur.symm.trans hr')
      rw [hsame.mgr]
      refine Record.Ongoing.snoc ?_ nofun
      exact (h.ongoing hend hr).create (hist.new_not_mem hid) h.polled_created
  | destroyed r old hr htrace _ hcur =>
    refine h.snoc (by simp) htrace hsame.past fun r' hr' => ?_
    obtain rfl := some.inj (hcur.symm.trans hr')
    rw [hsame.mgr]
    exact (h.ongoing hend hr).snoc nofun

theorem Separate.finish (h : Separate s) (outcome : Outcome)
    (hparted : r.Parted s.trace outcome) (htrace : s'.trace = s.trace)
    (hpast : s'.past = s.past ++ [(r, outcome)]) (hcur : s'.current = none) : Separate s' := by
  constructor
  · rw [htrace]
    exact h.polled_created
  · rw [htrace, hpast]
    intro e he
    rcases mem_append.mp he with he | he
    · exact h.past e he
    · rw [mem_singleton.mp he]
      exact hparted
  · intro r' hr'
    rw [hcur] at hr'
    cases hr'

/-- **The step lemma** for the main thread. -/
theorem separate_mainStep {ch : MainChoice} (hat : st.At s.main s.toCore) (hist : Hist s)
    (h : Separate s) (hs : mainStep s ch = some s') (hend : s.main.ended = false) :
    Separate s' := by
  cases mainStep_effect hat hist hs hend with
  | quiet htrace hpast hcur hmgr =>
    apply h.quiet htrace hpast
    intro r hr
    rw [hcur] at hr
    rw [htrace, hmgr]
    exact h.ongoing hend hr
  | polled t rest _ ht htrace hpast hcur hmgr =>
    constructor
    · rw [htrace]
      apply h.polled_snoc
      rintro t' packets heq
      cases heq
      exact live_created hat hist ht
    · rw [htrace, hpast]
      apply h.past_snoc
      rintro t' packets heq
      cases heq
      exact (destroyed_once hat hist).2 t ht
    · intro r hr
      rw [hcur] at hr
      refine ⟨_, fun _ => rfl, ?_⟩
      rw [htrace, hmgr]
      apply (h.ongoing hend hr).snoc
      rintro t' packets heq
      cases heq
      refine ⟨mem_map_of_mem ht, ?_⟩
      -- a task that is polled is in the task list, so it is none of those removed
      intro n hn config hcfg o ho heq
      exact removed_not_live hat hist hr hcfg hn ho (heq ▸ mem_map_of_mem ht)
  | started _ htrace hpast hcur _ =>
    apply h.quiet htrace hpast
    intro r hr
    rw [hcur] at hr
    obtain rfl := some.inj hr
    nofun
  | survivors r config _ hr _ hcr _ _ htrace hpast hcur _ =>
    apply h.quiet htrace hpast
    intro r' hr'
    rw [hcur, hr] at hr'
    obtain rfl := some.inj hr'
    intro n hn
    rw [hcr] at hn
    cases hn
  | committed r config tasks errors _ hr hcfg _ hbuilt _ htrace hpast hcur hmgr =>
    apply h.quiet htrace hpast
    intro r' hr'
    rw [hcur, hr] at hr'
    obtain rfl := some.inj hr'
    intro n hn
    rw [htrace, hmgr]
    refine ⟨?_, (h.ongoing hend hr n hn).2⟩
    -- the new tasks are all live from now on
    intro hlive
    rw [hbuilt.created_eq] at hn
    obtain ⟨t, ht, rfl⟩ := mem_map.mp hn
    exact absurd (mem_map_of_mem (mem_filter.mp ht).1) hlive
  | planFailed r _ hr hcr htrace hpast hcur _ _ =>
    exact h.finish (.planError s.mgr) hcr htrace hpast hcur
  | buildFailed r config _ hr hcfg hperm hbefore htrace hpast hcur _ =>
    apply h.finish (.buildError r.before) ?_ htrace hpast hcur
    intro n hn
    obtain ⟨cr, de, -, hde, -, -⟩ := hr ▸ hist.balance
    constructor
    · rw [hde]
      exact mem_append_right _ (hperm.subset hn)
    · apply (h.ongoing hend hr n hn).1
      intro hlive
      rw [hbefore] at hlive
      obtain ⟨t, ht, rfl⟩ := mem_map.mp hlive
      exact hist.created_not_old hr hn
        (mem_map_of_mem (mem_of_mem_survivingTasks ht).1)
  | completed r _ hr hok _ htrace hpast hcur _ =>
    apply h.finish (.completed s.mgr) ?_ htrace hpast hcur
    intro config hcfg o ho
    obtain ⟨cr, de, -, hde, -, -⟩ := hr ▸ hist.balance
    obtain ⟨config', hcfg', -, -, hbuilt, hdestroyed⟩ := hok
    obtain rfl := some.inj (hcfg.symm.trans hcfg')
    refine ⟨?_, fun n hn => (h.ongoing hend hr n hn).2 config hcfg o ho⟩
    rw [hde, hdestroyed]
    apply mem_append_right
    exact mem_map_of_mem (mem_filter.mpr ⟨ho.1, ho.unused hbuilt⟩)

/-- What is true of every state a run of the protocol reaches. -/
structure Ordered (s : State) : Prop where
  inv : Inv s
  joined : s.main.joined = true → s.reload = .exited
  separate : Separate s

theorem Ordered.exited (h : Ordered s) (hend : s.main.ended = true) : s.reload = .exited := by
  apply h.joined
  cases hpc : s.main <;> rw [hpc] at hend <;> first | rfl | cases hend

/-- **The step lemma** for stages, history and order together. -/
theorem ordered_step (s : State) (a : Act) (s' : State) (h : Ordered s)
    (hs : step s a = some s') : Ordered s' := by
  refine ⟨inv_step s a s' h.inv hs, joined_step s a s' h.joined hs, ?_⟩
  have hsep := h.separate
  by_cases hend : s.main.ended = true
  · have hend' := ended_step hs hend
    obtain ⟨hpast, hcur, htrace⟩ := ended_effect hs hend (h.exited hend)
    rcases htrace with ⟨htrace, hmgr⟩ | ⟨t, rest, htasks, hmgr, htrace⟩
    · constructor
      · rw [htrace]
        exact hsep.polled_created
      · rw [htrace, hpast]
        exact hsep.past
      · intro r hr
        rw [hcur] at hr
        obtain ⟨live, -, hongoing⟩ := hsep.current r hr
        refine ⟨live, fun hne => absurd hne (by simp [hend']), ?_⟩
        rw [htrace]
        exact hongoing
    · constructor
      · rw [htrace]
        exact hsep.polled_snoc nofun
      · rw [htrace, hpast]
        exact hsep.past_snoc nofun
      · intro r hr
        rw [hcur] at hr
        obtain ⟨live, -, hongoing⟩ := hsep.current r hr
        refine ⟨live, fun hne => absurd hne (by simp [hend']), ?_⟩
        rw [htrace]
        exact hongoing.snoc nofun
  · have hend' : s.main.ended = false := by simpa using hend
    obtain ⟨⟨st, hat⟩, hist⟩ := h.inv hend'
    cases a with
    | main c => exact separate_mainStep hat hist hsep hs hend'
    | reload c => exact separate_reloadStep hat hist hsep hs hend'
    | signal | quit =>
      cases hs
      exact ⟨hsep.polled_created, hsep.past, hsep.current⟩

theorem ordered_initial (config : Config) (create : ℕ → Except String Unit) :
    Ordered (initial config create) := by
  refine ⟨inv_initial config create, ?_, ?_, ?_, ?_⟩
  · nofun
  · intro t packets hmem
    obtain ⟨t', -, heq⟩ := mem_map.mp hmem
    cases heq
  · nofun
  · nofun

/-- Events that create tasks with new identities or destroy tasks. -/
def Steady (trace events : List Event) : Prop :=
  (∀ t packets, .polled t packets ∉ events) ∧
    ∀ n ∈ createdIn events, ∀ t ∈ createdIn trace, t.id ≠ n.id

theorem Steady.nil (trace : List Event) : Steady trace [] :=
  ⟨by simp, by intro n hn; cases hn⟩

theorem Steady.destroyed (trace : List Event) (t : CaptureTask) : Steady trace [.destroyed t] :=
  ⟨by simp, by intro n hn; cases hn⟩

/-- A step polls one task, or adds events that are no polls. -/
theorem step_events {a : Act} (h : Ordered s) (hs : step s a = some s') :
    (∃ c t rest, a = .main c ∧ s.main = .poll (t :: rest) ∧
        s'.trace = s.trace ++ [.polled t.task c.packets]) ∨
      ∃ events, s'.trace = s.trace ++ events ∧ Steady s.trace events := by
  have hquiet (htrace : s'.trace = s.trace) :
      ∃ events, s'.trace = s.trace ++ events ∧ Steady s.trace events :=
    ⟨[], by rw [htrace, append_nil], .nil s.trace⟩
  by_cases hend : s.main.ended = true
  · right
    obtain ⟨-, -, ⟨htrace, -⟩ | ⟨t, rest, -, -, htrace⟩⟩ := ended_effect hs hend (h.exited hend)
    · exact hquiet htrace
    · exact ⟨_, htrace, .destroyed s.trace t.task⟩
  · have hend' : s.main.ended = false := by simpa using hend
    obtain ⟨⟨st, hat⟩, hist⟩ := h.inv hend'
    cases a with
    | main c =>
      cases mainStep_effect hat hist hs hend' with
      | polled t rest hmain _ htrace => exact Or.inl ⟨c, t, rest, rfl, hmain, htrace⟩
      | quiet htrace | started _ htrace | planFailed _ _ _ _ htrace => exact Or.inr (hquiet htrace)
      | survivors _ _ _ _ _ _ _ _ htrace => exact Or.inr (hquiet htrace)
      | committed _ _ _ _ _ _ _ _ _ _ htrace => exact Or.inr (hquiet htrace)
      | buildFailed _ _ _ _ _ _ _ htrace => exact Or.inr (hquiet htrace)
      | completed _ _ _ _ _ htrace => exact Or.inr (hquiet htrace)
    | reload c =>
      right
      -- a new task has the next identity, and those created before have smaller ones
      have hfresh {new : CaptureTask} (hid : new.id = s.nextId) :
          ∀ t ∈ createdIn s.trace, t.id ≠ new.id := by
        intro t ht
        have := hist.fresh t ht
        omega
      cases reloadStep_effect hat hs with
      | quiet htrace | planned _ _ _ _ htrace => exact hquiet htrace
      | created r new _ hid htrace | aborted r new _ hid htrace =>
        refine ⟨_, htrace, by simp, ?_⟩
        intro n hn
        rw [mem_singleton.mp hn]
        exact hfresh hid
      | destroyed r old _ htrace => exact ⟨_, htrace, .destroyed s.trace old⟩
    | signal | quit =>
      cases hs
      exact Or.inr (hquiet rfl)

/-! ### Kept tasks -/

/-- A task that stays is polled in every phase. -/
theorem kept_polled (hat : st.At s.main s.toCore) (h : Hist s) (hcur : s.current = some r)
    (ho : o ∈ r.before.tasks) (hnamed : ∀ config, r.config = some config → NamedBy config o) :
    ∃ t ∈ s.mgr.tasks, t.task = o.task := by
  obtain ⟨-, -, -, -, -, hkeys⟩ := hcur ▸ h.balance
  cases st with
  | idle =>
    obtain ⟨-, -, -, -, -, -, hnone⟩ := hat
    rw [hcur] at hnone
    cases hnone
  | plan p =>
    obtain ⟨-, r', hcur', hmgr, -⟩ := hat
    obtain rfl := some.inj (hcur.symm.trans hcur')
    exact ⟨o, hmgr ▸ ho, rfl⟩
  | build p =>
    obtain ⟨-, r', config', hcur', hcfg', -, hmgr, -⟩ := hat
    obtain rfl := some.inj (hcur.symm.trans hcur')
    obtain ⟨fp, hmem, hfp⟩ := hnamed config' hcfg'
    rw [hmgr]
    exact ⟨o, mem_survivingTasks hkeys ho hfp hmem, rfl⟩
  | reclaim p =>
    obtain ⟨-, r', config', tasks, errors, hcur', hcfg', hval, hbuilt, hmgr, -⟩ := hat
    obtain rfl := some.inj (hcur.symm.trans hcur')
    obtain ⟨fp, hmem, hfp⟩ := hnamed config' hcfg'
    rw [hmgr]
    exact hbuilt.kept hval hkeys ho hmem hfp

end Reload

end CloudProbe.Worker
