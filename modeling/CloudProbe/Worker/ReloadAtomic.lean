import CloudProbe.Worker.ReloadSafety

/-!
# Atomicity of a reload

A reload that ends in an error at plan or build leaves the manager as it was, and destroys the
capture tasks it created. After a success every entry of the new configuration is reused, created or
recorded as an error, in the order of the configuration (`Built.exactly_one`), and the old capture
tasks that no new task uses are destroyed, once each (`mem_unused`).
-/

namespace CloudProbe.Worker

open CloudProbe.Lib List Option

/-- Entry `i` goes on with the old capture task of its fingerprint. -/
def ReusedAt (old tasks : List Task) (i : ℕ) (entry : TaskConfig) : Prop :=
  ∃ o ∈ old, o.fingerprint = entry.fingerprint ∧
    ∃ t ∈ tasks, t.index = i ∧ t.fingerprint = entry.fingerprint ∧ t.task = o.task

/-- Entry `i` has a new capture task, and no old task has its fingerprint. -/
def CreatedAt (old tasks : List Task) (created : List CaptureTask) (i : ℕ) (entry : TaskConfig) :
    Prop :=
  (∀ o ∈ old, o.fingerprint ≠ entry.fingerprint) ∧
    ∃ t ∈ tasks, t.index = i ∧ t.fingerprint = entry.fingerprint ∧ t.task ∈ created

/-- Entry `i` has an error record. -/
def FailedAt (errors : List TaskError) (i : ℕ) (entry : TaskConfig) : Prop :=
  ∃ e ∈ errors, e.index = i ∧ e.fingerprint = entry.fingerprint

variable {config : List TaskConfig} {old tasks : List Task} {created : List CaptureTask}
  {errors : List TaskError}

/-- Every entry of the configuration is reused, created or failed, and only one of them. -/
theorem Built.exactly_one (h : Built config old created config.length tasks errors)
    (hvalid : validateFingerprints config = true) {i : ℕ} {entry : TaskConfig}
    (hentry : config[i]? = some entry) :
    (ReusedAt old tasks i entry ∧ ¬CreatedAt old tasks created i entry ∧
        ¬FailedAt errors i entry) ∨
      (¬ReusedAt old tasks i entry ∧ CreatedAt old tasks created i entry ∧
        ¬FailedAt errors i entry) ∨
      (¬ReusedAt old tasks i entry ∧ ¬CreatedAt old tasks created i entry ∧
        FailedAt errors i entry) := by
  have hi : i < config.length := (List.getElem?_eq_some_iff.mp hentry).1
  obtain ⟨fp, hfp⟩ : ∃ fp, entry.fingerprint = some fp := by
    have hall := all_eq_true.mp hvalid entry (mem_of_getElem? hentry)
    exact isSome_iff_exists.mp hall
  rcases h.once i hi with ⟨⟨t, ht, hti⟩, hno⟩ | ⟨⟨e, he, hei⟩, hno⟩
  · have hnfail : ¬FailedAt errors i entry := by
      rintro ⟨e, he, hei, -⟩
      exact hno ⟨e, he, hei⟩
    obtain ⟨entry', hentry', hkey, hcase⟩ := h.task_entry t ht
    rw [hti, hentry] at hentry'
    obtain rfl := some.inj hentry'
    rcases hcase with ⟨o, hfind, htask⟩ | ⟨hnone, -⟩
    · obtain ⟨ho, hokey, -⟩ := findEntry_some hfind
      left
      refine ⟨⟨o, ho, hokey, t, ht, hti, hkey, htask⟩, ?_, hnfail⟩
      rintro ⟨hfresh, -⟩
      exact hfresh o ho hokey
    · right; left
      have hfresh : ∀ o ∈ old, o.fingerprint ≠ entry.fingerprint := by
        intro o ho hokey
        exact findEntry_none hnone hfp (mem_keys.mpr ⟨o, ho, hokey.trans hfp⟩)
      refine ⟨?_, ⟨hfresh, t, ht, hti, hkey, ?_⟩, hnfail⟩
      · rintro ⟨o, ho, hokey, -⟩
        exact hfresh o ho hokey
      · rw [h.created_eq]
        refine mem_map_of_mem (mem_filter.mpr ⟨ht, ?_⟩)
        rw [keyIn_eq_findEntry hkey, hnone]
        rfl
  · right; right
    obtain ⟨entry', hentry', hkey, -⟩ := h.error_entry e he
    rw [hei, hentry] at hentry'
    obtain rfl := some.inj hentry'
    refine ⟨?_, ?_, e, he, hei, hkey⟩
    · rintro ⟨o, -, -, t, ht, hti, -⟩
      exact hno ⟨t, ht, hti⟩
    · rintro ⟨-, t, ht, hti, -⟩
      exact hno ⟨t, ht, hti⟩

/-- A task that the new configuration names is kept. -/
theorem Built.kept (h : Built config old created config.length tasks errors)
    (hvalid : validateFingerprints config = true) (hold : (keys Task.fingerprint old).Nodup)
    {o : Task} (ho : o ∈ old) {fp : String} (hmem : fp ∈ config.filterMap TaskConfig.fingerprint)
    (hfp : o.fingerprint = some fp) : ∃ t ∈ tasks, t.task = o.task := by
  obtain ⟨entry, hin, hentry⟩ := mem_filterMap.mp hmem
  obtain ⟨i, hi⟩ := mem_iff_getElem?.mp hin
  rcases h.exactly_one hvalid hi with ⟨⟨o', ho', hokey, t, ht, -, -, htask⟩, -⟩ |
    ⟨-, ⟨hfresh, -⟩, -⟩ | ⟨-, -, e, he, hei, -⟩
  · refine ⟨t, ht, ?_⟩
    rw [htask, eq_of_key_eq hold ho' ho (hokey.trans hentry) hfp]
  · exact absurd (hfp.trans hentry.symm) (hfresh o ho)
  · obtain ⟨entry', hentry', -, hnone⟩ := h.error_entry e he
    rw [hei, hi] at hentry'
    obtain rfl := some.inj hentry'
    exact absurd (mem_keys.mpr ⟨o, ho, hfp⟩) (findEntry_none hnone hentry)

theorem Built.fingerprint_isSome (h : Built config old created config.length tasks errors)
    (hvalid : validateFingerprints config = true) {t : Task} (ht : t ∈ tasks) :
    t.fingerprint.isSome = true := by
  obtain ⟨entry, hentry, hkey, -⟩ := h.task_entry t ht
  rw [hkey]
  exact all_eq_true.mp hvalid entry (mem_of_getElem? hentry)

/-- The old tasks that are destroyed. -/
theorem mem_unused (hsome : ∀ t ∈ tasks, t.fingerprint.isSome = true) {c : CaptureTask} :
    c ∈ captureTasks (old.filter (unusedIn tasks)) ↔
      ∃ o ∈ old, o.task = c ∧ ∀ t ∈ tasks, t.fingerprint ≠ o.fingerprint := by
  have hiff (o : Task) : unusedIn tasks o = true ↔ ∀ t ∈ tasks, t.fingerprint ≠ o.fingerprint := by
    rw [unusedIn_eq, Bool.not_eq_true', ← Bool.not_eq_true, keyIn_iff]
    constructor
    · intro hno t ht heq
      obtain ⟨fp, hfp⟩ := isSome_iff_exists.mp (hsome t ht)
      exact hno ⟨fp, heq ▸ hfp, mem_keys.mpr ⟨t, ht, hfp⟩⟩
    · rintro hne ⟨fp, hofp, hmem⟩
      obtain ⟨t, ht, htfp⟩ := mem_keys.mp hmem
      exact hne t ht (htfp.trans hofp.symm)
  constructor
  · intro hc
    obtain ⟨o, ho, rfl⟩ := mem_map.mp hc
    obtain ⟨hmem, hun⟩ := mem_filter.mp ho
    exact ⟨o, hmem, rfl, (hiff o).mp hun⟩
  · rintro ⟨o, ho, rfl, hne⟩
    exact mem_map_of_mem (mem_filter.mpr ⟨ho, (hiff o).mpr hne⟩)

namespace Reload

/-- A reload that changed nothing: the manager is as before, and what was created was destroyed. -/
def Record.Unchanged (r : Record) (after : Mgr) : Prop :=
  after = r.before ∧ r.created.Nodup ∧ r.destroyed.Perm r.created

/-- A reload that took over the configuration it parsed. -/
structure Record.TookOver (r : Record) (after : Mgr) : Prop where
  config_eq : r.config = some after.config
  entries : ∀ i entry, after.config.tasks[i]? = some entry →
    (ReusedAt r.before.tasks after.tasks i entry ∧
        ¬CreatedAt r.before.tasks after.tasks r.created i entry ∧
        ¬FailedAt after.errors i entry) ∨
      (¬ReusedAt r.before.tasks after.tasks i entry ∧
        CreatedAt r.before.tasks after.tasks r.created i entry ∧
        ¬FailedAt after.errors i entry) ∨
      (¬ReusedAt r.before.tasks after.tasks i entry ∧
        ¬CreatedAt r.before.tasks after.tasks r.created i entry ∧
        FailedAt after.errors i entry)
  tasks_in_config : ∀ t ∈ after.tasks, t.index < after.config.tasks.length
  errors_in_config : ∀ e ∈ after.errors, e.index < after.config.tasks.length
  tasks_order : after.tasks.Pairwise fun t t' => t.index < t'.index
  errors_order : after.errors.Pairwise fun e e' => e.index < e'.index
  destroyed_once : r.destroyed.Nodup
  mem_destroyed : ∀ c, c ∈ r.destroyed ↔
    ∃ o ∈ r.before.tasks, o.task = c ∧ ∀ t ∈ after.tasks, t.fingerprint ≠ o.fingerprint

theorem Record.Ok.tookOver {r : Record} {after : Mgr} (h : r.Ok (.completed after))
    (honce : r.destroyed.Nodup) : r.TookOver after := by
  obtain ⟨config, hcfg, hvalid, hafter, hbuilt, hde⟩ := h
  have hconfig : after.config = config := by rw [hafter]; rfl
  subst hconfig
  refine ⟨hcfg, ?_, hbuilt.tasks_lt, hbuilt.errors_lt, hbuilt.tasks_sorted, hbuilt.errors_sorted,
    honce, ?_⟩
  · intro i entry hentry
    exact hbuilt.exactly_one hvalid hentry
  · intro c
    rw [hde]
    exact mem_unused fun t ht => hbuilt.fingerprint_isSome hvalid ht

/-- **A reload is atomic.** One that ended in an error left tasks, configuration, errors and
capacity as before and destroyed exactly what it created; one that completed left a reused task, a
new task or an error record for every entry, and destroyed each unused old task once. Source:
`task.c` `reload_do_plan`, `reload_do_build`, `reload_do_reclaim` -/
theorem reload_atomic (config : Config) (create : ℕ → Except String Unit) (acts : List Act)
    (s : State) (hrun : exec step (initial config create) acts = some s)
    (hend : s.main.ended = false) :
    (∀ r after, (r, .planError after) ∈ s.past → r.Unchanged after) ∧
      (∀ r after, (r, .buildError after) ∈ s.past → r.Unchanged after) ∧
      (∀ r after, (r, .completed after) ∈ s.past → r.TookOver after) := by
  obtain ⟨-, hist⟩ := inv_exec hrun hend
  refine ⟨?_, ?_, ?_⟩
  · intro r after hmem
    obtain ⟨⟨hafter, hcr, hde⟩, hnodup, -⟩ := hist.past _ hmem
    refine ⟨hafter, hnodup, ?_⟩
    rw [hcr, hde]
  · intro r after hmem
    obtain ⟨⟨hafter, hperm⟩, hnodup, -⟩ := hist.past _ hmem
    exact ⟨hafter, hnodup, hperm.symm⟩
  · intro r after hmem
    obtain ⟨hok, -, hnodup, -⟩ := hist.past _ hmem
    exact hok.tookOver hnodup

def twoTasks : Config where
  tasks := [⟨some "b", .libpcap "" false, [.vxlan "10.0.0.2"]⟩,
    ⟨some "a", .libpcap "" false, [.vxlan "10.0.0.1"]⟩]
  unique := by decide
  executionModel := .rtc
  bufferSizeMb := 0
  bufferSize_lt := zero_bufferSize_lt

/-- A signal, and the steps of both threads until the reload to `config` is over, with `n` entries
and `old` old tasks, when nothing fails. -/
def untilReloaded (config : Config) (n old : ℕ) : List Act :=
  let main : Act := .main ⟨[], true, false⟩
  let reload : Act := .reload ⟨some config, true, fun _ => true, ⟨.ok (), true⟩, false⟩
  [.signal] ++ List.replicate (6 + old) main ++ List.replicate 6 reload ++ List.replicate 5 main ++
    List.replicate (6 + n) reload ++ List.replicate 5 main ++ List.replicate (6 + old) reload ++
    List.replicate 3 main

/-- A reload from one task to two completes, and takes over the second configuration. -/
theorem reload_atomic_second_task :
    ∃ s r after, exec step (initial oneTask fun _ => .ok ()) (untilReloaded twoTasks 2 1) = some s ∧
      s.past = [(r, .completed after)] ∧ r.TookOver after ∧
      after.tasks.map Task.fingerprint = [some "b", some "a"] := by
  refine ⟨_, _, _, rfl, rfl, ?_, rfl⟩
  have h := reload_atomic oneTask (fun _ => .ok ()) (untilReloaded twoTasks 2 1) _ rfl rfl
  exact h.2.2 _ _ mem_cons_self

end Reload

end CloudProbe.Worker
