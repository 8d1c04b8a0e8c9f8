import CloudProbe.Worker.ReloadOrder
import CloudProbe.Worker.Threads

/-!
# No duplicate packets across a reload

A capture ring only has packets that arrived after its task was created, and what is polled before a
task is created arrived before that too (`Flow`).
-/

namespace CloudProbe.Worker

open CloudProbe.Lib List

namespace Threads

open Reload (Event Steady Ordered Separate PollsBefore NeverPolled createdIn destroyedIn)

/-! ### Packets and time -/

/-- The packets in the capture rings and in the polls, against the creation of the tasks. -/
structure Flow (s : State) : Prop where
  born : ∀ id, s.born id ≤ s.arrived
  kernel : ∀ id, ∀ a ∈ s.kernel id, s.born id ≤ a.seq ∧ a.seq < s.arrived
  polled : ∀ t packets, .polled t packets ∈ s.ctl.trace →
    ∀ a ∈ packets, s.born t.id ≤ a.seq ∧ a.seq < s.arrived
  before : s.ctl.trace.Pairwise fun e e' => ∀ o packets n, e = .polled o packets →
    e' = .created n → ∀ a ∈ packets, a.seq < s.born n.id

variable {s s' : State}

theorem Flow.congr (h : Flow s) (hctl : s'.ctl.trace = s.ctl.trace) (hkernel : s'.kernel = s.kernel)
    (harrived : s'.arrived = s.arrived) (hborn : s'.born = s.born) : Flow s' where
  born := by
    rw [hborn, harrived]
    exact h.born
  kernel := by
    rw [hkernel, harrived, hborn]
    exact h.kernel
  polled := by
    rw [hctl, harrived, hborn]
    exact h.polled
  before := by
    rw [hctl, hborn]
    exact h.before

variable {events : List Event} {ctl : Reload.State}

theorem follow_born (htrace : ctl.trace = s.ctl.trace ++ events)
    (hsteady : Steady s.ctl.trace events) {t : CaptureTask} (ht : t ∈ createdIn s.ctl.trace) :
    (s.follow ctl).born t.id = s.born t.id := by
  simp only [State.follow, htrace, drop_left]
  rw [if_neg]
  intro hany
  obtain ⟨n, hn, hid⟩ := any_eq_true.mp hany
  exact hsteady.2 n hn t ht (by simpa using Eq.symm (of_decide_eq_true hid))

theorem follow_born_new (htrace : ctl.trace = s.ctl.trace ++ events) {n : CaptureTask}
    (hn : n ∈ createdIn events) :
    (s.follow ctl).born n.id = s.arrived := by
  simp only [State.follow, htrace, drop_left]
  rw [if_pos]
  exact any_eq_true.mpr ⟨n, hn, by simp⟩

/-- Events that are no polls keep the flow. -/
theorem Flow.follow (h : Flow s) (hsep : Separate s.ctl)
    (htrace : ctl.trace = s.ctl.trace ++ events) (hsteady : Steady s.ctl.trace events) :
    Flow (s.follow ctl) where
  born := by
    intro id
    simp only [State.follow]
    split_ifs
    · exact le_refl _
    · exact h.born id
  kernel := by
    intro id a ha
    simp only [State.follow, htrace, drop_left] at ha ⊢
    split_ifs at ha with hany
    · cases ha
    · rw [if_neg]
      · exact h.kernel id a ha
      · intro hcreated
        apply hany
        rw [any_append, hcreated]
        rfl
  polled := by
    intro t packets hmem a ha
    simp only [State.follow_ctl, htrace] at hmem
    rcases mem_append.mp hmem with hmem | hmem
    · rw [follow_born htrace hsteady (hsep.polled_created t packets hmem)]
      exact h.polled t packets hmem a ha
    · exact absurd hmem (hsteady.1 t packets)
  before := by
    rw [State.follow_ctl, htrace]
    refine pairwise_append.mpr ⟨?_, ?_, ?_⟩
    · refine h.before.imp_of_mem ?_
      rintro e e' - he' hlt o packets n rfl rfl a ha
      rw [follow_born htrace hsteady (Reload.mem_createdIn.mpr he')]
      exact hlt o packets n rfl rfl a ha
    · refine pairwise_of_forall_mem_list ?_
      rintro e he e' - o packets n rfl
      exact absurd he (hsteady.1 o packets)
    · rintro e he e' he' o packets n rfl rfl a ha
      rw [follow_born_new htrace (Reload.mem_createdIn.mpr he')]
      exact (h.polled o packets he a ha).2

/-- A poll of packets from the front of a ring keeps the flow. -/
theorem Flow.poll (h : Flow s) {t : CaptureTask} {n : ℕ}
    (htrace : s'.ctl.trace = s.ctl.trace ++ [.polled t ((s.kernel t.id).take n)])
    (hkernel : s'.kernel = Function.update s.kernel t.id ((s.kernel t.id).drop n))
    (harrived : s'.arrived = s.arrived) (hborn : s'.born = s.born) : Flow s' where
  born := by
    rw [hborn, harrived]
    exact h.born
  kernel := by
    rw [hkernel, harrived, hborn]
    intro id a ha
    by_cases hid : id = t.id
    · subst hid
      rw [Function.update_self] at ha
      exact h.kernel t.id a (mem_of_mem_drop ha)
    · rw [Function.update_of_ne hid] at ha
      exact h.kernel id a ha
  polled := by
    rw [htrace, harrived, hborn]
    intro t' packets hmem a ha
    rcases mem_append.mp hmem with hmem | hmem
    · exact h.polled t' packets hmem a ha
    · cases mem_singleton.mp hmem
      exact h.kernel t.id a (mem_of_mem_take ha)
  before := by
    rw [htrace, hborn]
    refine pairwise_append.mpr ⟨h.before, pairwise_singleton _ _, ?_⟩
    rintro e - e' he' o packets n - rfl
    cases mem_singleton.mp he'

theorem Flow.arrive (h : Flow s) (p : Packet) (reaches : ℕ → Option PktDir) :
    Flow (s.arrive p reaches) where
  born := fun id => Nat.le_succ_of_le (h.born id)
  kernel := by
    intro id a ha
    simp only [State.arrive] at ha ⊢
    split at ha
    · rcases mem_append.mp ha with ha | ha
      · have := h.kernel id a ha
        omega
      · rw [mem_singleton.mp ha]
        exact ⟨h.born id, Nat.lt_succ_self _⟩
    · have := h.kernel id a ha
      omega
  polled := by
    intro t packets hmem a ha
    have := h.polled t packets hmem a ha
    simp only [State.arrive]
    omega
  before := h.before

/-- **The step lemma** for where a packet can go. -/
theorem flow_step (hord : Ordered s.ctl) (h : Flow s) {a : Act} (hs : step s a = some s') :
    Flow s' := by
  have hsep := hord.separate
  cases a with
  | main c =>
    rcases mainStep_cases hs with ⟨e, rest, -, hover⟩ | ⟨-, ctl, hctl, hcase⟩
    · obtain ⟨hctl, hkernel, harrived, hborn⟩ := handOver_same hover
      exact h.congr (by rw [hctl]) hkernel harrived hborn
    · rcases hcase with ⟨t, rest, hmain, rfl⟩ | hrest
      · have hfound : s.found c = (s.kernel t.task.id).take c.take := by
          rw [State.found, hmain]
        simp only [Reload.mainStep, hmain, Option.some.injEq] at hctl
        subst hctl
        refine h.poll (t := t.task) (n := c.take) ?_ rfl rfl ?_
        · rw [← hfound]
          rfl
        · funext id
          simp [State.follow, createdIn, Reload.Event.created?]
      · have hflow : Flow (s.follow ctl) := by
          rcases Reload.step_events hord (a := .main _) hctl with
            ⟨c', t, rest, -, hmain, -⟩ | ⟨events, htrace, hsteady⟩
          · rcases hrest with ⟨hstop, -⟩ | ⟨hpoll, -⟩
            · rw [hmain] at hstop
              cases hstop
            · exact absurd hmain (hpoll t rest)
          · exact h.follow hsep htrace hsteady
        rcases hrest with ⟨-, rfl⟩ | ⟨-, -, rfl⟩
        · exact hflow.congr rfl rfl rfl rfl
        · exact hflow
  | reload c =>
    obtain ⟨ctl, hctl, hcase⟩ := reloadStep_cases hs
    have hflow : Flow (s.follow ctl) := by
      rcases Reload.step_events hord (a := .reload _) hctl with
        ⟨c', t, rest, hact, -⟩ | ⟨events, htrace, hsteady⟩
      · cases hact
      · exact h.follow hsep htrace hsteady
    rcases hcase with ⟨-, rfl⟩ | ⟨-, rfl⟩ | ⟨-, -, rfl⟩
    · exact hflow.congr rfl rfl rfl rfl
    · exact hflow.congr rfl rfl rfl rfl
    · exact hflow
  | output =>
    obtain ⟨hctl, hkernel, harrived, hborn⟩ := outputStep_same hs
    exact h.congr (by rw [hctl]) hkernel harrived hborn
  | signal | quit =>
    cases hs
    exact h.congr rfl rfl rfl rfl
  | arrive p reaches =>
    cases hs
    exact h.arrive p reaches

theorem flow_initial (config : Config) (create : ℕ → Except String Unit) :
    Flow (initial config create) where
  born := fun _ => le_refl _
  kernel := by
    nofun
  polled := by
    intro t packets hmem
    obtain ⟨t', -, heq⟩ := mem_map.mp hmem
    cases heq
  before := by
    refine pairwise_of_forall_mem_list ?_
    rintro e he e' - o packets n rfl
    obtain ⟨t', -, heq⟩ := mem_map.mp he
    cases heq

theorem flow_exec {config : Config} {create : ℕ → Except String Unit} {acts : List Act}
    (h : exec step (initial config create) acts = some s) : Ordered s.ctl ∧ Flow s := by
  refine exec_invariant (P := fun s => Ordered s.ctl ∧ Flow s) ?_
    ⟨Reload.ordered_initial config create, flow_initial config create⟩ h
  rintro s a s' ⟨hord, hflow⟩ hs
  exact ⟨step_ordered hord hs, flow_step hord hflow hs⟩

/-! ### The result -/

/-- The packet `seq` was handed to the callbacks by a poll of `t`. -/
def Delivered (t : CaptureTask) (seq : ℕ) (trace : List Event) : Prop :=
  ∃ packets, .polled t packets ∈ trace ∧ ∃ a ∈ packets, a.seq = seq

def HasReload (s : Reload.State) (r : Reload.Record) : Prop :=
  s.current = some r ∨ ∃ outcome, (r, outcome) ∈ s.past

/-- Of two tasks in order, only one delivers a packet. -/
theorem Flow.not_both (h : Flow s) (hsep : Separate s.ctl) {o n : CaptureTask}
    (horder : PollsBefore o n s.ctl.trace ∨ NeverPolled n s.ctl.trace) (seq : ℕ) :
    ¬(Delivered o seq s.ctl.trace ∧ Delivered n seq s.ctl.trace) := by
  rintro ⟨⟨packets, hold, a, ha, rfl⟩, packets', hnew, b, hb, hseq⟩
  rcases horder with hbefore | hnever
  · -- the trace splits at the creation of `n`, and the poll of `o` is on its left
    have hcreated := Reload.mem_createdIn.mp (hsep.polled_created n packets' hnew)
    obtain ⟨l, l', heq⟩ := append_of_mem hcreated
    have hleft : .polled o packets ∈ l := by
      rw [heq] at hold hbefore
      rcases mem_append.mp hold with hmem | hmem
      · exact hmem
      · rcases mem_cons.mp hmem with hmem | hmem
        · cases hmem
        · have hright := (pairwise_append.mp hbefore).2.1
          exact absurd rfl ((pairwise_cons.mp hright).1 _ hmem rfl packets)
    have hpair := h.before
    rw [heq] at hpair
    have hlt : a.seq < s.born n.id :=
      (pairwise_append.mp hpair).2.2 _ hleft _ mem_cons_self o packets n rfl rfl a ha
    have hge := (h.polled n packets' hnew b hb).1
    omega
  · exact hnever packets' hnew

/-- **No duplicate packets across a reload**: no poll of a task that goes follows the creation of a
task that comes, or the build failed and the new one was never polled; the tasks that stay are
polled in every phase. Source: `task.c` `collect_surviving_tasks`, `build_full_task_set` -/
theorem reload_no_duplicates (config : Config) (create : ℕ → Except String Unit) (acts : List Act)
    (s : State) (hrun : exec step (initial config create) acts = some s) :
    (∀ r next o n, HasReload s.ctl r → r.config = some next → r.Removes next o → n ∈ r.created →
        (PollsBefore o.task n s.ctl.trace ∨
          (∃ after, (r, .buildError after) ∈ s.ctl.past) ∧ n ∈ destroyedIn s.ctl.trace ∧
            NeverPolled n s.ctl.trace) ∧
        ∀ seq, ¬(Delivered o.task seq s.ctl.trace ∧ Delivered n seq s.ctl.trace)) ∧
      (∀ r o, s.ctl.main.ended = false → s.ctl.current = some r → o ∈ r.before.tasks →
        (∀ next, r.config = some next → Reload.NamedBy next o) →
          ∃ t ∈ s.ctl.mgr.tasks, t.task = o.task) := by
  obtain ⟨hord, hflow⟩ := flow_exec hrun
  have hsep := hord.separate
  constructor
  · intro r next o n hr hcfg ho hn
    have horder : PollsBefore o.task n s.ctl.trace ∨
        (∃ after, (r, .buildError after) ∈ s.ctl.past) ∧ n ∈ destroyedIn s.ctl.trace ∧
          NeverPolled n s.ctl.trace := by
      rcases hr with hcur | ⟨outcome, hmem⟩
      · obtain ⟨live, -, hongoing⟩ := hsep.current r hcur
        exact Or.inl ((hongoing n hn).2 next hcfg o ho)
      · have hparted := hsep.past _ hmem
        cases outcome with
        | planError after =>
          rw [show r.created = [] from hparted] at hn
          cases hn
        | buildError after => exact Or.inr ⟨⟨after, hmem⟩, hparted n hn⟩
        | completed after => exact Or.inl ((hparted next hcfg o ho).2 n hn)
    exact ⟨horder, fun seq => hflow.not_both hsep (horder.imp_right fun h => h.2.2) seq⟩
  · intro r o hend hcur ho hnamed
    obtain ⟨⟨st, hat⟩, hist⟩ := hord.inv hend
    exact Reload.kept_polled hat hist hcur ho hnamed

def otherTask : Config where
  tasks := [⟨some "b", .libpcap "" false, [.vxlan "10.0.0.2"]⟩]
  unique := by decide
  executionModel := .rtc
  bufferSizeMb := 0
  bufferSize_lt := zero_bufferSize_lt

def emptyPacket : Packet := ⟨⟨⟨0, 0⟩, 0, 0⟩, [], rfl⟩

/-- A packet arrives at the first task and is polled; a reload replaces the task; a second packet
arrives at the new task and is polled. -/
def untilReplaced : List Act :=
  let main : Act := .main ⟨1, none, true⟩
  let reload : Act := .reload ⟨some otherTask, true, fun _ => true, ⟨.ok (), true⟩, false⟩
  let arrive : Act := .arrive emptyPacket fun _ => some .incoming
  [arrive, .signal] ++ List.replicate 8 main ++ List.replicate 6 reload ++ List.replicate 4 main ++
    List.replicate 7 reload ++ List.replicate 5 main ++ List.replicate 7 reload ++
    List.replicate 3 main ++ [arrive] ++ List.replicate 5 (.main ⟨1, none, false⟩)

/-- One packet is delivered by the task that goes, the next one by the task that comes. -/
theorem reload_no_duplicates_replaced :
    ∃ s r after o n, exec step (initial Reload.oneTask fun _ => .ok ()) untilReplaced = some s ∧
      s.ctl.past = [(r, .completed after)] ∧ r.Removes otherTask o ∧ n ∈ r.created ∧
      Delivered o.task 0 s.ctl.trace ∧ Delivered n 1 s.ctl.trace ∧
      ∀ seq, ¬(Delivered o.task seq s.ctl.trace ∧ Delivered n seq s.ctl.trace) := by
  refine ⟨_, _, _, ⟨0, some "a", captureTaskNew 0 Reload.oneTask.tasks ⟨some "a", .libpcap "" false,
    [.vxlan "10.0.0.1"]⟩⟩, captureTaskNew 1 otherTask.tasks ⟨some "b", .libpcap "" false,
    [.vxlan "10.0.0.2"]⟩, rfl, rfl, ⟨mem_cons_self, by unfold Reload.NamedBy; decide⟩,
    mem_cons_self, ?_, ?_, ?_⟩
  · exact ⟨[⟨0, emptyPacket, .incoming⟩], .tail _ (.head _), _, mem_cons_self, rfl⟩
  · exact ⟨[⟨1, emptyPacket, .incoming⟩], .tail _ (.tail _ (.tail _ (.tail _ (.head _)))), _,
      mem_cons_self, rfl⟩
  · have h := reload_no_duplicates Reload.oneTask (fun _ => .ok ()) untilReplaced _ rfl
    exact (h.1 _ otherTask _ _ (Or.inr ⟨_, mem_cons_self⟩) rfl
      ⟨mem_cons_self, by unfold Reload.NamedBy; decide⟩ mem_cons_self).2

end Threads

end CloudProbe.Worker
