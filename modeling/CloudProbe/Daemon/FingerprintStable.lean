import CloudProbe.Daemon.BuiltTasks
import CloudProbe.Daemon.FingerprintCover
import CloudProbe.Daemon.Syncer
import CloudProbe.Lib.Numbering
import CloudProbe.Worker.ReloadAtomic

/-!
# Fingerprints do not depend on the order of tasks

Equal tasks are told apart by a number that is hashed with their labels. The loop that looks for a
free number finds the number of equal tasks before, so the fingerprints of the tasks are their
numbering, whatever the order. Tasks count as equal when they have the same labels, that is up to a
pointer to a struct without labels (`TaskConfig.trimmed`).

* **Candidates** (`probe`): with a hash without collisions they differ for different tasks and
  numbers.
* **The loop** (`freshFingerprint_eq`, `assignFingerprints_eq`): it assigns the numbering.
* **The result** (`fingerprints_stable`), with what a worker keeps on a reload.
-/

namespace CloudProbe.Daemon

open Lib GoValue Option

/-! ## Trimming keeps the labels -/

variable {α : Type} {c : TaskConfig} {pk : Packages} {taken : List String} {seen : List TaskConfig}

theorem leaves_ofPtr (reflect : α → GoValue) (view : α → α)
    (hview : ∀ a, leaves (reflect (view a)) = leaves (reflect a)) (value : Option α) :
    leaves (ofPtr reflect ((contributing reflect value).map view)) =
      leaves (ofPtr reflect value) := by
  rcases value with _ | a
  · rfl
  · by_cases hnil : leaves (reflect a) = []
    · rw [contributing_some_of_nil hnil, ofPtr, leaves, hnil]
      rfl
    · rw [contributing_some_of_ne_nil hnil]
      show leaves (.ptr (reflect (view a))) = leaves (.ptr (reflect a))
      rw [leaves, leaves, hview]

theorem leaves_contributing (reflect : α → GoValue) (value : Option α) :
    leaves (ofPtr reflect (contributing reflect value)) = leaves (ofPtr reflect value) := by
  have hid := leaves_ofPtr reflect id (fun _ => rfl) value
  rwa [map_id] at hid

theorem leaves_struct_congr {fields fields' : List (String × GoValue)}
    (h : List.Forall₂ (fun f g => f.1 = g.1 ∧ leaves f.2 = leaves g.2) fields fields') :
    leaves (.struct fields) = leaves (.struct fields') := by
  rw [leaves, leaves]
  induction h with
  | nil => rfl
  | cons hfirst _ ih => rw [fieldLeaves, fieldLeaves, hfirst.1, hfirst.2, ih]

theorem leaves_slice_congr {reflect : α → GoValue} {view : α → α}
    (hview : ∀ a, leaves (reflect (view a)) = leaves (reflect a)) (i : ℕ) (items : List α) :
    itemLeaves i ((items.map view).map reflect) = itemLeaves i (items.map reflect) := by
  induction items generalizing i with
  | nil => rfl
  | cons a items ih =>
    rw [List.map_cons, List.map_cons, List.map_cons, itemLeaves, itemLeaves, hview, ih]

theorem ReqPatternConfig.leaves_trimmed (c : ReqPatternConfig) :
    leaves c.trimmed.reflect = leaves c.reflect := by
  apply leaves_struct_congr
  simp only [List.forall₂_cons, List.forall₂_nil_left_iff, and_true, true_and]
  exact ⟨rfl, leaves_contributing CustomReqPatternConfig.reflect c.custom⟩

theorem CapturerConfig.leaves_trimmed (c : CapturerConfig) :
    leaves c.trimmed.reflect = leaves c.reflect := by
  apply leaves_struct_congr
  simp only [List.forall₂_cons, List.forall₂_nil_left_iff, and_true, true_and]
  exact ⟨rfl, leaves_contributing LibpcapConfig.reflect c.libpcap⟩

theorem VxlanOutputConfig.leaves_trimmed (c : VxlanOutputConfig) :
    leaves c.trimmed.reflect = leaves c.reflect := by
  apply leaves_struct_congr
  simp only [List.forall₂_cons, List.forall₂_nil_left_iff, and_true, true_and]
  exact ⟨rfl, rfl, rfl, rfl, rfl, rfl, rfl, leaves_contributing PacketSplitConfig.reflect c.split⟩

theorem OutputConfig.leaves_trimmed (c : OutputConfig) :
    leaves c.trimmed.reflect = leaves c.reflect := by
  apply leaves_struct_congr
  simp only [List.forall₂_cons, List.forall₂_nil_left_iff, and_true, true_and]
  exact ⟨rfl, rfl, rfl,
    leaves_ofPtr _ _ VxlanOutputConfig.leaves_trimmed c.vxlan,
    leaves_contributing _ c.gre, leaves_contributing _ c.zmq, leaves_contributing _ c.file,
    leaves_contributing _ c.rotatingFile⟩

theorem TaskConfig.leaves_trimmed (c : TaskConfig) :
    leaves c.trimmed.reflect = leaves c.reflect := by
  apply leaves_struct_congr
  simp only [List.forall₂_cons, List.forall₂_nil_left_iff, and_true, true_and]
  refine ⟨leaves_ofPtr _ _ ReqPatternConfig.leaves_trimmed c.reqPattern,
    c.capturer.leaves_trimmed, ?_⟩
  rw [leaves, leaves]
  exact leaves_slice_congr OutputConfig.leaves_trimmed 0 c.outputs

theorem TaskConfig.fingerPrintLables_trimmed (c : TaskConfig) :
    c.trimmed.fingerPrintLables = c.fingerPrintLables := by
  rw [fingerPrintLables, fingerPrintLables, structFingerprintLabels_eq, structFingerprintLabels_eq,
    writes, writes, leaves, leaves, c.leaves_trimmed]

/-! ## Candidates -/

/-- Source: `cpm/worker_task_builder.go` `build` -/
def seqKey : Bytes := utf8 "_seq"

/-- The `n`-th label map that is tried for a task: first without a number. -/
def seqLabels (c : TaskConfig) : ℕ → Labels
  | 0 => c.fingerPrintLables
  | n + 1 => c.fingerPrintLables.insert seqKey (utf8 (toString (n + 1)))

def probe (pk : Packages) (c : TaskConfig) (n : ℕ) : String := pk.hash (seqLabels c n)

/-- No field is named like the number. -/
theorem seq_notMem_writes (c : TaskConfig) : "_seq" ∉ (writes c.reflect).map Prod.fst := by
  intro hmem
  obtain ⟨_, hwrite, hkey⟩ := List.mem_map.mp hmem
  obtain ⟨l, hl, rfl⟩ := List.mem_map.mp hwrite
  have hseq : dotted l.1 = dotted ["_seq".toList] := hkey.trans (by decide)
  have hpath : l.1 = ["_seq".toList] := by
    apply dotted_inj (dot_notMem_path _ c.formed l.1 l.2 hl) _ (path_ne_nil hl) (by simp) hseq
    simp
  rw [TaskConfig.reflect, leaves] at hl
  obtain ⟨f, hf, rest, -, hfirst⟩ := mem_fieldLeaves.mp hl
  have hname : f.1 = "_seq" :=
    String.toList_injective (List.cons.inj (hfirst.symm.trans hpath)).1
  have hfield : f.1 ∈ ["req_pattern", "capturer", "outputs"] := List.mem_map_of_mem hf
  rw [hname] at hfield
  exact absurd hfield (by decide)

theorem lookup_seqKey (c : TaskConfig) : c.fingerPrintLables.lookup seqKey = none := by
  rw [TaskConfig.fingerPrintLables, structFingerprintLabels_eq]
  have hwrites : writes (.ptr c.reflect) = writes c.reflect := by rw [writes, leaves, writes]
  rw [hwrites]
  show ((writes c.reflect).foldl Labels.write ∅).lookup (utf8 "_seq") = none
  rw [lookup_writes_of_notMem ∅ (seq_notMem_writes c), Finmap.lookup_empty]

theorem lookup_seqLabels (c : TaskConfig) (n : ℕ) :
    (seqLabels c n).lookup seqKey = if n = 0 then none else some (utf8 (toString n)) := by
  rcases n with _ | n
  · exact lookup_seqKey c
  · exact Finmap.lookup_insert _

theorem lookup_seqLabels_of_ne (c : TaskConfig) (n : ℕ) {key : Bytes} (hkey : key ≠ seqKey) :
    (seqLabels c n).lookup key = c.fingerPrintLables.lookup key := by
  rcases n with _ | n
  · rfl
  · exact Finmap.lookup_insert_of_ne _ hkey

theorem seqLabels_inj {c' : TaskConfig} {n n' : ℕ} (h : seqLabels c n = seqLabels c' n') :
    c.fingerPrintLables = c'.fingerPrintLables ∧ n = n' := by
  constructor
  · apply Finmap.ext_lookup
    intro key
    by_cases hkey : key = seqKey
    · rw [hkey, lookup_seqKey, lookup_seqKey]
    · rw [← lookup_seqLabels_of_ne c n hkey, h, lookup_seqLabels_of_ne c' n' hkey]
  · have hseq := congrArg (Finmap.lookup seqKey) h
    rw [lookup_seqLabels, lookup_seqLabels] at hseq
    split_ifs at hseq with hn hn' hn'
    · rw [hn, hn']
    · exact toString_nat_inj (utf8_inj (some.inj hseq))

theorem probe_inj (hinj : Function.Injective pk.hash) {c' : TaskConfig} {n n' : ℕ}
    (h : probe pk c n = probe pk c' n') : c.trimmed = c'.trimmed ∧ n = n' := by
  obtain ⟨hlabels, hn⟩ := seqLabels_inj (hinj h)
  exact ⟨trimmed_eq_of_labels_eq hlabels, hn⟩

theorem probe_trimmed (pk : Packages) (c : TaskConfig) (n : ℕ) :
    probe pk c.trimmed n = probe pk c n := by
  rcases n with _ | n
  all_goals rw [probe, probe, seqLabels, seqLabels, c.fingerPrintLables_trimmed]

/-! ## The loop -/

theorem candidates_eq (pk : Packages) (c : TaskConfig) (len : ℕ) :
    (none :: (List.range len).map fun n => some (n + 1)).map
        (WorkerTaskBuilder.candidate pk c.fingerPrintLables) =
      (List.range (len + 1)).map (probe pk c) := by
  rw [List.range_succ_eq_map, List.map_cons, List.map_cons, List.map_map, List.map_map]
  rfl

theorem freshFingerprint_eq {n : ℕ} (hn : n ≤ taken.length)
    (hbefore : ∀ m < n, probe pk c m ∈ taken) (hfree : probe pk c n ∉ taken) :
    WorkerTaskBuilder.freshFingerprint (WorkerTaskBuilder.candidate pk c.fingerPrintLables) taken =
      some (probe pk c n) := by
  rw [WorkerTaskBuilder.freshFingerprint, candidates_eq, List.find?_map]
  have hfind : (List.range (taken.length + 1)).find?
      ((fun f => decide (f ∉ taken)) ∘ probe pk c) = some n := by
    rw [List.find?_range_eq_some]
    refine ⟨by simpa using hfree, List.mem_range.mpr (by omega), fun m hm => ?_⟩
    simpa using hbefore m hm
  rw [hfind]
  rfl

/-- The fingerprints taken by the tasks `seen`: their numbering. -/
structure Taken (pk : Packages) (seen : List TaskConfig) (taken : List String) : Prop where
  mem : ∀ f, f ∈ taken ↔ ∃ c n, n < seen.count c ∧ f = probe pk c n
  trimmed : ∀ c ∈ seen, ∃ task : TaskConfig, c = task.trimmed
  length : taken.length = seen.length

theorem Taken.free (hinj : Function.Injective pk.hash) (h : Taken pk seen taken) (task : TaskConfig)
    :
    probe pk task.trimmed (seen.count task.trimmed) ∉ taken := by
  intro hmem
  obtain ⟨c, n, hn, heq⟩ := (h.mem _).mp hmem
  have hc : c ∈ seen := List.count_pos_iff.mp (by omega)
  obtain ⟨task', rfl⟩ := h.trimmed c hc
  rw [probe_trimmed, probe_trimmed] at heq
  obtain ⟨hsame, hcount⟩ := probe_inj hinj heq
  rw [← hsame] at hn
  omega

/-- One task more takes the candidate of its number. -/
theorem Taken.cons (h : Taken pk seen taken) (task : TaskConfig) :
    Taken pk (task.trimmed :: seen)
      (probe pk task.trimmed (seen.count task.trimmed) :: taken) where
  mem f := by
    rw [List.mem_cons, h.mem]
    constructor
    · rintro (rfl | ⟨c, n, hn, rfl⟩)
      · exact ⟨task.trimmed, _, by rw [List.count_cons_self]; omega, rfl⟩
      · exact ⟨c, n, hn.trans_le List.count_le_count_cons, rfl⟩
    · rintro ⟨c, n, hn, rfl⟩
      by_cases hc : c = task.trimmed
      · subst hc
        rw [List.count_cons_self] at hn
        rcases Nat.lt_succ_iff_lt_or_eq.mp hn with hlt | rfl
        · exact .inr ⟨_, n, hlt, rfl⟩
        · exact .inl rfl
      · rw [List.count_cons_of_ne (Ne.symm hc)] at hn
        exact .inr ⟨c, n, hn, rfl⟩
  trimmed c hc := by
    rcases List.mem_cons.mp hc with rfl | hc
    · exact ⟨task, rfl⟩
    · exact h.trimmed c hc
  length := by rw [List.length_cons, List.length_cons, h.length]

def tagOf (task : TaskConfig) : TaskConfig × Option String := (task.trimmed, task.fingerprint)

/-- **The loop assigns the numbering**: each task gets the candidate with the number of equal tasks
before it. -/
theorem assignFingerprints_eq (hinj : Function.Injective pk.hash) (h : Taken pk seen taken)
    (tasks : List TaskConfig) :
    ∃ built, WorkerTaskBuilder.assignFingerprints pk taken tasks = some built ∧
      built.map tagOf = (numbered seen (tasks.map TaskConfig.trimmed)).map fun kn =>
        (kn.1, some (probe pk kn.1 kn.2)) := by
  induction tasks generalizing seen taken with
  | nil => exact ⟨[], rfl, rfl⟩
  | cons task rest ih =>
    have hcount : seen.count task.trimmed ≤ taken.length := h.length ▸ List.count_le_length
    have hbefore : ∀ m < seen.count task.trimmed, probe pk task.trimmed m ∈ taken :=
      fun m hm => (h.mem _).mpr ⟨_, m, hm, rfl⟩
    have hfresh := freshFingerprint_eq hcount hbefore (h.free hinj task)
    rw [task.fingerPrintLables_trimmed] at hfresh
    obtain ⟨built, hbuilt, htags⟩ := ih (h.cons task)
    refine ⟨{ task with
      fingerprint := some (probe pk task.trimmed (seen.count task.trimmed)) } :: built, ?_, ?_⟩
    · rw [WorkerTaskBuilder.assignFingerprints, hfresh, bind_eq_bind, bind_some, hbuilt]
      rfl
    · rw [List.map_cons, List.map_cons, numbered, List.map_cons, htags]
      rfl

/-! ## The result -/

/-- The tasks, as a multiset up to pointers without labels. -/
def configs (tasks : List TaskConfig) : Multiset TaskConfig := ↑(tasks.map TaskConfig.trimmed)

def tags (tasks : List TaskConfig) : Multiset (TaskConfig × Option String) := ↑(tasks.map tagOf)

def numberedTags (pk : Packages) (l : List TaskConfig) : Multiset (TaskConfig × Option String) :=
  (numbered [] l : Multiset (TaskConfig × ℕ)).map fun kn => (kn.1, some (probe pk kn.1 kn.2))

theorem numberedTags_le (pk : Packages) {l l' : List TaskConfig}
    (h : (l : Multiset TaskConfig) ≤ l') : numberedTags pk l ≤ numberedTags pk l' :=
  Multiset.map_le_map (Multiset.coe_le.mpr (numbered_subperm (Multiset.coe_le.mp h)))

@[simp] theorem map_fst_numberedTags (pk : Packages) (l : List TaskConfig) :
    (numberedTags pk l).map Prod.fst = l := by
  rw [numberedTags, Multiset.map_map, Multiset.map_coe]
  exact congrArg _ (map_fst_numbered [] l)

section build

variable {pk : Packages} {b b' : WorkerTaskBuilder} {built built' : List TaskConfig}
  {warnings warnings' : List String}

theorem taken_nil (pk : Packages) : Taken pk [] [] where
  mem f := by simp
  trimmed c hc := by cases hc
  length := rfl

theorem build_eq (hinj : Function.Injective pk.hash) (b : WorkerTaskBuilder) :
    ∃ built, b.build pk = some (built, b.warnings) ∧
      built.map TaskConfig.untagged = b.tasks.map TaskConfig.untagged ∧
      built.map tagOf = (numbered [] (b.tasks.map TaskConfig.trimmed)).map fun kn =>
        (kn.1, some (probe pk kn.1 kn.2)) := by
  obtain ⟨built, hbuilt, htags⟩ := assignFingerprints_eq hinj (taken_nil pk) b.tasks
  refine ⟨built, ?_, WorkerTaskBuilder.assignFingerprints_untagged hbuilt, htags⟩
  rw [WorkerTaskBuilder.build, hbuilt]
  rfl

theorem tags_of_build (hinj : Function.Injective pk.hash)
    (h : b.build pk = some (built, warnings)) :
    tags built = numberedTags pk (b.tasks.map TaskConfig.trimmed) := by
  obtain ⟨built', hbuilt, -, htags⟩ := build_eq hinj b
  obtain ⟨rfl, -⟩ := Prod.mk.inj (some.inj (h.symm.trans hbuilt))
  rw [tags, htags, numberedTags, Multiset.map_coe]

/-- With a hash without collisions no two tasks of a build share a fingerprint. -/
theorem nodup_fingerprints (hinj : Function.Injective pk.hash)
    (h : b.build pk = some (built, warnings)) :
    (∀ t ∈ built, t.fingerprint.isSome = true) ∧ (built.map TaskConfig.fingerprint).Nodup := by
  obtain ⟨built', hbuilt, -, htags⟩ := build_eq hinj b
  obtain ⟨rfl, -⟩ := Prod.mk.inj (some.inj (h.symm.trans hbuilt))
  have hfingerprints : built.map TaskConfig.fingerprint =
      (numbered [] (b.tasks.map TaskConfig.trimmed)).map fun kn => some (probe pk kn.1 kn.2) := by
    have hsnd := congrArg (List.map Prod.snd) htags
    rw [List.map_map, List.map_map] at hsnd
    exact hsnd
  constructor
  · intro t ht
    have hmem : t.fingerprint ∈ built.map TaskConfig.fingerprint := List.mem_map_of_mem ht
    rw [hfingerprints] at hmem
    obtain ⟨kn, -, hkn⟩ := List.mem_map.mp hmem
    rw [← hkn]
    rfl
  · rw [hfingerprints]
    apply List.Nodup.map_on _ (nodup_numbered _ _)
    -- the numbered tasks are trimmed ones, which one candidate tells apart
    have htrimmed : ∀ kn ∈ numbered [] (b.tasks.map TaskConfig.trimmed),
        ∃ task : TaskConfig, kn.1 = task.trimmed := by
      intro kn hkn
      have hmem := List.mem_map_of_mem (f := Prod.fst) hkn
      rw [map_fst_numbered] at hmem
      obtain ⟨task, -, htask⟩ := List.mem_map.mp hmem
      exact ⟨task, htask.symm⟩
    rintro ⟨k, n⟩ hkn ⟨k', n'⟩ hkn' heq
    obtain ⟨task, rfl⟩ := htrimmed _ hkn
    obtain ⟨task', rfl⟩ := htrimmed _ hkn'
    have hprobe := some.inj heq
    rw [probe_trimmed, probe_trimmed] at hprobe
    obtain ⟨hsame, hn⟩ := probe_inj hinj hprobe
    exact Prod.ext hsame hn

/-- What two builds share are the tasks that both have. -/
theorem map_fst_tags_inter (hinj : Function.Injective pk.hash)
    (h : b.build pk = some (built, warnings)) (h' : b'.build pk = some (built', warnings')) :
    (tags built ∩ tags built').map Prod.fst = configs b.tasks ∩ configs b'.tasks := by
  rw [tags_of_build hinj h, tags_of_build hinj h']
  apply le_antisymm
  · apply Multiset.le_inter
    · simpa [configs] using Multiset.map_le_map (f := Prod.fst) (Multiset.inter_le_left
        (s := numberedTags pk (b.tasks.map TaskConfig.trimmed))
        (t := numberedTags pk (b'.tasks.map TaskConfig.trimmed)))
    · simpa [configs] using Multiset.map_le_map (f := Prod.fst) (Multiset.inter_le_right
        (s := numberedTags pk (b.tasks.map TaskConfig.trimmed))
        (t := numberedTags pk (b'.tasks.map TaskConfig.trimmed)))
  · obtain ⟨shared, hshared⟩ : ∃ shared : List TaskConfig,
        (shared : Multiset TaskConfig) = configs b.tasks ∩ configs b'.tasks :=
      ⟨_, Multiset.coe_toList _⟩
    have hle : (shared : Multiset TaskConfig) ≤ configs b.tasks ∩ configs b'.tasks := hshared.le
    have hboth := Multiset.le_inter
      (numberedTags_le pk (hle.trans Multiset.inter_le_left))
      (numberedTags_le pk (hle.trans Multiset.inter_le_right))
    rw [← hshared]
    calc (shared : Multiset TaskConfig) = (numberedTags pk shared).map Prod.fst :=
          (map_fst_numberedTags pk shared).symm
      _ ≤ _ := Multiset.map_le_map hboth

/-- A task that two builds share goes on in the worker, with the capture task it had. -/
theorem kept_of_shared (hinj : Function.Injective pk.hash)
    (h : b.build pk = some (built, warnings)) (h' : b'.build pk = some (built', warnings'))
    {config : List Worker.TaskConfig} {old tasks : List Worker.Task}
    {created : List Worker.CaptureTask} {errors : List Worker.TaskError}
    (hconfig : config.map Worker.TaskConfig.fingerprint = built'.map TaskConfig.fingerprint)
    (hold : (keys Worker.Task.fingerprint old).Sublist (keys TaskConfig.fingerprint built))
    (hbuilt : Worker.Built config old created config.length tasks errors) {o : Worker.Task}
    (ho : o ∈ old) {c : TaskConfig} (hshared : (c, o.fingerprint) ∈ tags built ∩ tags built') :
    ∃ t ∈ tasks, t.task = o.task := by
  obtain ⟨hsome, hnodup⟩ := nodup_fingerprints hinj h
  obtain ⟨hsome', -⟩ := nodup_fingerprints hinj h'
  have hkeys : (keys Worker.Task.fingerprint old).Nodup := by
    apply hold.nodup
    apply List.Nodup.of_map some
    rwa [keys, List.map_filterMap_some_eq_filter_map_isSome, List.filter_eq_self.mpr]
    intro f hf
    obtain ⟨t, ht, rfl⟩ := List.mem_map.mp hf
    exact hsome t ht
  have hvalid : Worker.validateFingerprints config = true := by
    apply List.all_eq_true.mpr
    intro entry hentry
    have hmem : entry.fingerprint ∈ built'.map TaskConfig.fingerprint :=
      hconfig ▸ List.mem_map_of_mem hentry
    obtain ⟨t, ht, hfingerprint⟩ := List.mem_map.mp hmem
    exact hfingerprint ▸ hsome' t ht
  obtain ⟨t, ht, htag⟩ := List.mem_map.mp (Multiset.mem_coe.mp (Multiset.mem_inter.mp hshared).2)
  have hfingerprint : t.fingerprint = o.fingerprint := (Prod.mk.inj htag).2
  obtain ⟨f, hf⟩ := isSome_iff_exists.mp (hsome' t ht)
  have hentry : f ∈ config.filterMap Worker.TaskConfig.fingerprint := by
    have hmem : t.fingerprint ∈ config.map Worker.TaskConfig.fingerprint :=
      hconfig ▸ List.mem_map_of_mem ht
    obtain ⟨entry, hentry, heq⟩ := List.mem_map.mp hmem
    exact List.mem_filterMap.mpr ⟨entry, hentry, heq.trans hf⟩
  exact hbuilt.kept hvalid hkeys ho hentry (hfingerprint.symm.trans hf)

end build

/-- **Fingerprints are stable**: they do not depend on the order of the tasks, more tasks keep those
of the tasks before, and the tasks that two builds share have shared ones. Source:
`cpm/worker_task_builder.go` `build` -/
theorem fingerprints_stable {pk : Packages} (hinj : Function.Injective pk.hash) :
    (∀ b : WorkerTaskBuilder, ∃ built, b.build pk = some (built, b.warnings) ∧
      built.map TaskConfig.untagged = b.tasks.map TaskConfig.untagged ∧
      (∀ t ∈ built, t.fingerprint.isSome = true) ∧ (built.map TaskConfig.fingerprint).Nodup) ∧
    ∀ (b b' : WorkerTaskBuilder) (built built' : List TaskConfig)
      (warnings warnings' : List String),
      b.build pk = some (built, warnings) → b'.build pk = some (built', warnings') →
      (b.tasks.Perm b'.tasks → tags built = tags built') ∧
      (configs b.tasks ≤ configs b'.tasks → tags built ≤ tags built') ∧
      (tags built ∩ tags built').map Prod.fst = configs b.tasks ∩ configs b'.tasks ∧
      ∀ (config : List Worker.TaskConfig) (old tasks : List Worker.Task)
        (created : List Worker.CaptureTask) (errors : List Worker.TaskError),
        config.map Worker.TaskConfig.fingerprint = built'.map TaskConfig.fingerprint →
        (keys Worker.Task.fingerprint old).Sublist (keys TaskConfig.fingerprint built) →
        Worker.Built config old created config.length tasks errors →
        ∀ o ∈ old, ∀ c, (c, o.fingerprint) ∈ tags built ∩ tags built' →
          ∃ t ∈ tasks, t.task = o.task := by
  refine ⟨fun b => ?_, fun b b' built built' warnings warnings' h h' => ⟨?_, ?_, ?_, ?_⟩⟩
  · obtain ⟨built, hbuilt, huntagged, -⟩ := build_eq hinj b
    exact ⟨built, hbuilt, huntagged, nodup_fingerprints hinj hbuilt⟩
  · intro hperm
    have hconfigs : configs b.tasks = configs b'.tasks :=
      Multiset.coe_eq_coe.mpr (hperm.map TaskConfig.trimmed)
    rw [tags_of_build hinj h, tags_of_build hinj h']
    exact le_antisymm (numberedTags_le pk hconfigs.le) (numberedTags_le pk hconfigs.ge)
  · intro hle
    rw [tags_of_build hinj h, tags_of_build hinj h']
    exact numberedTags_le pk hle
  · exact map_fst_tags_inter hinj h h'
  · intro config old tasks created errors hconfig hold hbuilt o ho c hshared
    exact kept_of_shared hinj h h' hconfig hold hbuilt ho hshared

/-! ## A packet split without settings -/

def byteChar (b : UInt8) : Char := Char.ofNat (b.toNat + 256)

theorem toNat_byteChar (b : UInt8) : (byteChar b).toNat = b.toNat + 256 := by
  have hb := b.toNat_lt
  rw [byteChar, Char.ofNat, dif_pos (.inl (by omega))]
  rfl

def spelled (labels : Labels) : List Char :=
  terminated '.' (labels.words.map (List.map byteChar))

/-- The bytes fed to the hash determine the labels. -/
theorem spelled_inj {labels labels' : Labels} (h : spelled labels = spelled labels') :
    labels = labels' := by
  have hdot : ∀ words : List Bytes, ∀ w ∈ words.map (List.map byteChar), '.' ∉ w := by
    intro words w hw hmem
    obtain ⟨bytes, -, rfl⟩ := List.mem_map.mp hw
    obtain ⟨b, -, hb⟩ := List.mem_map.mp hmem
    have hnat := congrArg Char.toNat hb
    rw [toNat_byteChar] at hnat
    change b.toNat + 256 = 46 at hnat
    omega
  have hbyte : Function.Injective byteChar := by
    intro a b hab
    have hnat := congrArg Char.toNat hab
    rw [toNat_byteChar, toNat_byteChar] at hnat
    exact UInt8.toNat_inj.mp (by omega)
  have hwords := terminated_inj (hdot labels.words) (hdot labels'.words) h
  exact words_inj (List.map_injective_iff.mpr (List.map_injective_iff.mpr hbyte) hwords)

/-- A hash without collisions, with the real fingerprints of the sample task. -/
def distinctHash (labels : Labels) : String :=
  if labels = seqLabels (vxlanTask none) 0 then "35333032-6265-6561-3239-646662613365"
  else if labels = seqLabels (vxlanTask none) 1 then "36366639-6637-3861-6538-323262386237"
  else String.ofList ('.' :: spelled labels)

theorem distinctHash_injective : Function.Injective distinctHash := by
  intro labels labels' h
  unfold distinctHash at h
  split_ifs at h with h0 h0' h1' h1 h0' h1' h0' h1'
  · rw [h0, h0']
  · exact absurd h (by decide)
  · exact absurd (congrArg (fun s => s.toList.head?) h) (by simp)
  · exact absurd h (by decide)
  · rw [h1, h1']
  · exact absurd (congrArg (fun s => s.toList.head?) h) (by simp)
  · exact absurd (congrArg (fun s => s.toList.head?) h) (by simp)
  · exact absurd (congrArg (fun s => s.toList.head?) h) (by simp)
  · exact spelled_inj (List.cons.inj (String.ofList_injective h)).2

def distinctPackages : Packages := ⟨fun _ => ({}, none), distinctHash⟩

/-- A strategy for one interface; packets are split, or not, with no settings for it. -/
def splitStrategy (hasPacketSplit : Bool) : StrategyEntry :=
  { interfaceNames := ["eth0"], packetChannelType := .vxlan, address := "10.0.0.1",
    port := some 4789, hasServiceTag := true, serviceTag := some 7, hasPacketSplit }

def builderOf (strategies : List StrategyEntry) : WorkerTaskBuilder :=
  strategies.foldl (WorkerTaskBuilder.addStrategy distinctPackages)
    { host := sampleOutside.host, daemonUUID := "6f9619ff-8b86-4d01-b42d-00cf4fc964ff",
      activeInstances := [], buffSize := 64 }

def taggedTask (split : Option PacketSplitConfig) (fingerprint : String) : TaskConfig :=
  { vxlanTask split with fingerprint := some fingerprint }

/-- Two equal tasks: the second gets a number, and the first keeps its fingerprint. -/
theorem fingerprints_stable_equal_tasks :
    (builderOf [splitStrategy false, splitStrategy false]).tasks.length = 2 ∧
    ∃ built built',
      (builderOf [splitStrategy false]).build distinctPackages = some (built, []) ∧
      (builderOf [splitStrategy false, splitStrategy false]).build distinctPackages =
        some (built', []) ∧
      (built'.map TaskConfig.fingerprint).Nodup ∧ tags built ≤ tags built' := by
  have hstable := @fingerprints_stable distinctPackages distinctHash_injective
  obtain ⟨built, hbuilt, -, -, -⟩ := hstable.1 (builderOf [splitStrategy false])
  obtain ⟨built', hbuilt', -, -, hnodup⟩ :=
    hstable.1 (builderOf [splitStrategy false, splitStrategy false])
  refine ⟨by decide +kernel, built, built', ?_, ?_, hnodup, ?_⟩
  · exact hbuilt.trans (congrArg (fun w => some (built, w)) (by decide +kernel))
  · exact hbuilt'.trans (congrArg (fun w => some (built', w)) (by decide +kernel))
  · refine (hstable.2 _ _ _ _ _ _ hbuilt hbuilt').2.1 ?_
    apply Multiset.coe_le.mpr
    apply List.Sublist.subperm
    decide +kernel

/-- **With an empty packet split, the order matters**: it has the labels of none, so the first of
the two tasks gets the fingerprint without a number. -/
theorem empty_split_swaps_fingerprints :
    Function.Injective distinctPackages.hash ∧
    (builderOf [splitStrategy false, splitStrategy true]).tasks.Perm
      (builderOf [splitStrategy true, splitStrategy false]).tasks ∧
    ∃ built built',
      (builderOf [splitStrategy false, splitStrategy true]).build distinctPackages =
        some (built, []) ∧
      (builderOf [splitStrategy true, splitStrategy false]).build distinctPackages =
        some (built', []) ∧
      (built.map fun t => (t.untagged, t.fingerprint) : Multiset (TaskConfig × Option String)) ≠
        (built'.map fun t => (t.untagged, t.fingerprint) : List (TaskConfig × Option String)) := by
  refine ⟨distinctHash_injective, by decide +kernel,
    [taggedTask none "35333032-6265-6561-3239-646662613365",
      taggedTask (some ⟨none, none⟩) "36366639-6637-3861-6538-323262386237"],
    [taggedTask (some ⟨none, none⟩) "35333032-6265-6561-3239-646662613365",
      taggedTask none "36366639-6637-3861-6538-323262386237"], ?_, ?_, ?_⟩
  · decide +kernel
  · decide +kernel
  · intro heq
    have hperm := Multiset.coe_eq_coe.mp heq
    revert hperm
    decide +kernel

end CloudProbe.Daemon
