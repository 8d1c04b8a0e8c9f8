import CloudProbe.Worker.ReloadAtomic

/-!
# Exclusion of the forward hosts across reloads

A `libpcap` task that filters output hosts is opened with a filter that excludes every forward host
of every task, so that the worker does not capture what it sends itself. The filter is made when the
task is created, and a reload keeps a task by its fingerprint, with its filter. So a reload leaves
every forward host excluded exactly when no kept task meets a host that was not in the configuration
it was created under (`Record.Ok.hostsExcluded_iff`).
-/

namespace CloudProbe.Worker

open CloudProbe.Lib List

/-- A `libpcap` task with `not_filter_output_hosts` off. -/
def CaptureTask.FiltersHosts (t : CaptureTask) : Prop :=
  ∃ bpf, t.config.capturer = .libpcap bpf false

theorem CaptureTask.excludes_iff {t : CaptureTask} (ht : t.FiltersHosts) (host : String) :
    t.filter.Excludes host ↔ host ∈ forwardHosts t.createdUnder := by
  obtain ⟨bpf, hbpf⟩ := ht
  rw [CaptureTask.filter, hbpf]
  exact mem_excludedHosts t.createdUnder host

namespace Reload

/-- Every live filtering task excludes every forward host of the current configuration. -/
def Mgr.HostsExcluded (mgr : Mgr) : Prop :=
  ∀ t ∈ mgr.tasks, t.task.FiltersHosts →
    ∀ host ∈ forwardHosts mgr.config.tasks, t.task.filter.Excludes host

/-- The old filtering tasks that the new configuration keeps were created under configurations that
already had every forward host of the new one. -/
def NoNewHost (old : List Task) (config : Config) : Prop :=
  ∀ o ∈ old, o.task.FiltersHosts → (∃ fp ∈ config.fingerprints, o.fingerprint = some fp) →
    ∀ host ∈ forwardHosts config.tasks, host ∈ forwardHosts o.task.createdUnder

variable {r : Record} {after : Mgr}

/-- A task after a reload is an old one or was created by it. -/
theorem Record.Ok.task_origin (h : r.Ok (.completed after)) {t : Task} (ht : t ∈ after.tasks) :
    (∃ o ∈ r.before.tasks, o.task = t.task ∧ ∃ fp ∈ after.config.fingerprints,
        o.fingerprint = some fp) ∨
      t.task.createdUnder = after.config.tasks := by
  obtain ⟨config, -, -, hafter, hbuilt, -⟩ := h
  have hconfig : after.config = config := by rw [hafter]; rfl
  subst hconfig
  obtain ⟨entry, hentry, -, hcase⟩ := hbuilt.task_entry t ht
  rcases hcase with ⟨o, hfind, htask⟩ | ⟨-, id, htask⟩
  · left
    obtain ⟨ho, hokey, hsome⟩ := findEntry_some hfind
    obtain ⟨fp, hfp⟩ := Option.isSome_iff_exists.mp hsome
    refine ⟨o, ho, htask.symm, fp, ?_, hfp⟩
    exact mem_filterMap.mpr ⟨entry, mem_of_getElem? hentry, hokey.symm.trans hfp⟩
  · right
    rw [htask]
    rfl

theorem Record.Ok.kept_live (h : r.Ok (.completed after))
    (hkeys : (keys Task.fingerprint r.before.tasks).Nodup) {o : Task} (ho : o ∈ r.before.tasks)
    {fp : String} (hmem : fp ∈ after.config.fingerprints) (hfp : o.fingerprint = some fp) :
    ∃ t ∈ after.tasks, t.task = o.task := by
  obtain ⟨config, -, hvalid, hafter, hbuilt, -⟩ := h
  have hconfig : after.config = config := by rw [hafter]; rfl
  subst hconfig
  exact hbuilt.kept hvalid hkeys ho hmem hfp

/-- For one completed reload. -/
theorem Record.Ok.hostsExcluded_iff (h : r.Ok (.completed after))
    (hkeys : (keys Task.fingerprint r.before.tasks).Nodup) :
    after.HostsExcluded ↔ NoNewHost r.before.tasks after.config := by
  constructor
  · rintro hexcl o ho hfilters ⟨fp, hmem, hfp⟩ host hhost
    obtain ⟨t, ht, htask⟩ := h.kept_live hkeys ho hmem hfp
    rw [← CaptureTask.excludes_iff hfilters, ← htask]
    exact hexcl t ht (htask ▸ hfilters) host hhost
  · intro hnew t ht hfilters host hhost
    rw [CaptureTask.excludes_iff hfilters]
    rcases h.task_origin ht with ⟨o, ho, htask, hfp⟩ | hunder
    · rw [← htask] at hfilters ⊢
      exact hnew o ho hfilters hfp host hhost
    · rw [hunder]
      exact hhost

/-- **The exclusion survives reloads** exactly when in every completed reload the filtering tasks it
keeps were created under configurations that already had every forward host of the new one. Source:
`task.c` `build_full_task_set`, `config.c` `bpf_filter_exclude_task_output_hosts` -/
theorem hosts_excluded_iff (config : Config) (create : ℕ → Except String Unit) (acts : List Act)
    (s : State) (hrun : exec step (initial config create) acts = some s)
    (hend : s.main.ended = false) :
    (∀ r after, (r, .completed after) ∈ s.past → after.HostsExcluded) ↔
      ∀ r after, (r, .completed after) ∈ s.past → NoNewHost r.before.tasks after.config := by
  obtain ⟨-, hist⟩ := inv_exec hrun hend
  refine forall_congr' fun r => forall_congr' fun after => forall_congr' fun hmem => ?_
  obtain ⟨hok, -, -, hkeys⟩ := hist.past _ hmem
  exact hok.hostsExcluded_iff hkeys

/-- The first task again, and a second one with the same host. -/
def sharedHost : Config where
  tasks := [⟨some "a", .libpcap "" false, [.vxlan "10.0.0.1"]⟩,
    ⟨some "b", .libpcap "" false, [.gre "10.0.0.1"]⟩]
  unique := by decide
  executionModel := .rtc
  bufferSizeMb := 0
  bufferSize_lt := zero_bufferSize_lt

/-- A second task with the same host: the kept filter is still right. -/
theorem hosts_excluded_iff_shared_host :
    ∃ s r after, exec step (initial oneTask fun _ => .ok ()) (untilReloaded sharedHost 2 1) =
        some s ∧
      s.past = [(r, .completed after)] ∧ after.HostsExcluded := by
  refine ⟨_, _, _, rfl, rfl, ?_⟩
  have h := hosts_excluded_iff oneTask (fun _ => .ok ()) (untilReloaded sharedHost 2 1) _ rfl rfl
  refine h.mpr ?_ _ _ mem_cons_self
  intro r after hmem o ho hfilters hfp host hhost
  obtain ⟨rfl, hafter⟩ := Prod.mk.inj (mem_singleton.mp hmem)
  cases hafter
  obtain rfl := mem_singleton.mp ho
  have hmem' : host ∈ ["10.0.0.1", "10.0.0.1"] := hhost
  show host ∈ ["10.0.0.1"]
  simpa using hmem'

/-- A reload that adds a task with another host keeps the first task and its filter, which does not
name it. -/
theorem hosts_not_excluded_second_task :
    ∃ s r after t, exec step (initial oneTask fun _ => .ok ()) (untilReloaded twoTasks 2 1) =
        some s ∧
      s.past = [(r, .completed after)] ∧ t ∈ after.tasks ∧ t.task.FiltersHosts ∧
      "10.0.0.2" ∈ forwardHosts after.config.tasks ∧ t.task.filter = ⟨"", ["10.0.0.1"]⟩ ∧
      ¬after.HostsExcluded := by
  have hlive : (⟨1, some "a", captureTaskNew 0 oneTask.tasks ⟨some "a", .libpcap "" false,
      [.vxlan "10.0.0.1"]⟩⟩ : Task) ∈ [(⟨0, some "b", captureTaskNew 1 twoTasks.tasks
        ⟨some "b", .libpcap "" false, [.vxlan "10.0.0.2"]⟩⟩ : Task),
      ⟨1, some "a", captureTaskNew 0 oneTask.tasks ⟨some "a", .libpcap "" false,
        [.vxlan "10.0.0.1"]⟩⟩] := by simp
  refine ⟨_, _, _, _, rfl, rfl, hlive, ⟨"", rfl⟩, mem_cons_self, rfl, ?_⟩
  intro hexcl
  have hbad := hexcl _ hlive ⟨"", rfl⟩ "10.0.0.2" mem_cons_self
  exact absurd hbad (by decide)

end Reload

end CloudProbe.Worker
