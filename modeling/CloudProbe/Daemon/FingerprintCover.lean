import CloudProbe.Daemon.LabelPaths

/-!
# The fingerprint covers the configuration

Two tasks with the same labels are the same task, up to a pointer to a struct without labels, which
the walk does not tell from no pointer (`TaskConfig.trimmed`). `Determines` says that a type is read
back from its leaves; it is built up over pointers and slices to the task.
-/

namespace CloudProbe.Daemon

open GoValue Option

/-! ## Trimmed tasks -/

/-- A pointer, unless what it points to gives no label. -/
def contributing {α : Type} (reflect : α → GoValue) (value : Option α) : Option α :=
  value.filter fun v => !(appendFingerprintLabels [] (reflect v)).isEmpty

def ReqPatternConfig.trimmed (c : ReqPatternConfig) : ReqPatternConfig :=
  { c with custom := contributing CustomReqPatternConfig.reflect c.custom }

def CapturerConfig.trimmed (c : CapturerConfig) : CapturerConfig :=
  { c with libpcap := contributing LibpcapConfig.reflect c.libpcap }

def VxlanOutputConfig.trimmed (c : VxlanOutputConfig) : VxlanOutputConfig :=
  { c with split := contributing PacketSplitConfig.reflect c.split }

def OutputConfig.trimmed (c : OutputConfig) : OutputConfig :=
  { c with
    vxlan := (contributing VxlanOutputConfig.reflect c.vxlan).map VxlanOutputConfig.trimmed
    gre := contributing GreOutputConfig.reflect c.gre
    zmq := contributing ZmqOutputConfig.reflect c.zmq
    file := contributing FileOutputConfig.reflect c.file
    rotatingFile := contributing RotatingFileOutputConfig.reflect c.rotatingFile }

/-- A task without its fingerprint and without the pointers that give no label. -/
def TaskConfig.trimmed (c : TaskConfig) : TaskConfig where
  fingerprint := none
  reqPattern := (contributing ReqPatternConfig.reflect c.reqPattern).map ReqPatternConfig.trimmed
  capturer := c.capturer.trimmed
  outputs := c.outputs.map OutputConfig.trimmed

/-! ## Types that are read back -/

/-- What `view` shows of a value can be read back from its leaves. -/
def Determines {α β : Type} (reflect : α → GoValue) (view : α → β) : Prop :=
  ∀ a b, Same (reflect a) (reflect b) → view a = view b

section determines

variable {α β : Type} {reflect : α → GoValue} {view : α → β}

theorem leaves_eq_nil_iff (v : GoValue) : leaves v = [] ↔ appendFingerprintLabels [] v = [] := by
  have hwrites := appendFingerprintLabels_eq [] v
  rw [Lib.terminated_nil] at hwrites
  rw [hwrites, List.map_eq_nil_iff]

variable {a : α}

theorem contributing_some_of_nil (h : leaves (reflect a) = []) :
    contributing reflect (some a) = none := by
  simp [contributing, (leaves_eq_nil_iff _).mp h]

theorem contributing_some_of_ne_nil (h : leaves (reflect a) ≠ []) :
    contributing reflect (some a) = some a := by
  have hlabels : appendFingerprintLabels [] (reflect a) ≠ [] := fun hnil =>
    h ((leaves_eq_nil_iff _).mpr hnil)
  simp [contributing, hlabels]

theorem leaves_eq_nil_of_same {v w : GoValue} (h : Same v w) (hv : leaves v = []) :
    leaves w = [] := by
  apply List.eq_nil_iff_forall_not_mem.mpr
  intro l hl
  have hmem := (h l).mpr hl
  rw [hv] at hmem
  cases hmem

theorem contributing_of_same_nil (h : Same (.ptr (reflect a)) .nil) :
    contributing reflect (some a) = none := by
  apply contributing_some_of_nil
  have hnil := leaves_eq_nil_of_same h.symm (by rw [leaves])
  rwa [leaves] at hnil

/-- A pointer adds the labels of what it points to. -/
theorem Determines.ofPtr (h : Determines reflect view) :
    Determines (GoValue.ofPtr reflect) fun value => (contributing reflect value).map view := by
  intro x y hsame
  match x, y with
  | none, none => rfl
  | some a, none =>
    show Option.map view (contributing reflect (some a)) = _
    rw [contributing_of_same_nil hsame]
    rfl
  | none, some b =>
    show _ = Option.map view (contributing reflect (some b))
    rw [contributing_of_same_nil hsame.symm]
    rfl
  | some a, some b =>
    have hinner : Same (reflect a) (reflect b) := fun l => by
      have hl := hsame l
      rwa [GoValue.ofPtr, GoValue.ofPtr, leaves, leaves] at hl
    show Option.map view (contributing reflect (some a)) =
      Option.map view (contributing reflect (some b))
    by_cases hnil : leaves (reflect a) = []
    · rw [contributing_some_of_nil hnil,
        contributing_some_of_nil (leaves_eq_nil_of_same hinner hnil)]
    · have hnil' : leaves (reflect b) ≠ [] := fun hb =>
        hnil (leaves_eq_nil_of_same hinner.symm hb)
      rw [contributing_some_of_ne_nil hnil, contributing_some_of_ne_nil hnil']
      exact congrArg some (h a b hinner)

theorem mem_slice {items : List GoValue} {i : ℕ} {l : List (List Char) × String} :
    (indexName i :: l.1, l.2) ∈ leaves (.slice items) ↔
      ∃ item, items[i]? = some item ∧ l ∈ leaves item := by
  rw [leaves, mem_itemLeaves]
  constructor
  · rintro ⟨j, item, hitem, rest, hmem, hpath⟩
    obtain ⟨hindex, rfl⟩ := List.cons.inj hpath
    obtain rfl : i = j := by simpa using indexName_inj hindex
    exact ⟨item, hitem, hmem⟩
  · rintro ⟨item, hitem, hmem⟩
    exact ⟨i, item, hitem, l.1, hmem, by rw [Nat.zero_add]⟩

theorem exists_item_of_same {xs ys : List α} (hne : ∀ a, leaves (reflect a) ≠ [])
    (h : Same (.slice (xs.map reflect)) (.slice (ys.map reflect))) {i : ℕ} (ha : xs[i]? = some a) :
    ∃ b, ys[i]? = some b := by
  obtain ⟨l, hl⟩ := List.exists_mem_of_ne_nil _ (hne a)
  have hmem := (h _).mp (mem_slice.mpr ⟨reflect a, by rw [List.getElem?_map, ha]; rfl, hl⟩)
  obtain ⟨item, hitem, -⟩ := mem_slice.mp hmem
  rw [List.getElem?_map] at hitem
  obtain ⟨b, hb, -⟩ := map_eq_some_iff.mp hitem
  exact ⟨b, hb⟩

/-- A slice adds the labels of its elements. -/
theorem Determines.slice (h : Determines reflect view) (hne : ∀ a, leaves (reflect a) ≠ []) :
    Determines (fun xs : List α => .slice (xs.map reflect)) (List.map view) := by
  intro xs ys hsame
  apply List.ext_getElem?
  intro i
  rw [List.getElem?_map, List.getElem?_map]
  rcases hx : xs[i]? with _ | a
  · rcases hy : ys[i]? with _ | b
    · rfl
    · obtain ⟨a, ha⟩ := exists_item_of_same hne hsame.symm hy
      rw [hx] at ha
      cases ha
  · obtain ⟨b, hb⟩ := exists_item_of_same hne hsame hx
    have hitem : Same (reflect a) (reflect b) := fun l => by
      have hl := hsame (indexName i :: l.1, l.2)
      simpa [mem_slice, List.getElem?_map, hx, hb] using hl
    rw [hb]
    exact congrArg some (h a b hitem)

end determines

/-! ## Printed values -/

theorem toString_int32_inj (a b : Int32) (h : toString a = toString b) : a = b :=
  Int32.toInt_inj.mp (toString_int_inj _ _ h)

theorem toString_uint32_inj (a b : UInt32) (h : toString a = toString b) : a = b :=
  UInt32.toNat_inj.mp (toString_nat_inj h)

theorem toString_uint64_inj (a b : UInt64) (h : toString a = toString b) : a = b :=
  UInt64.toNat_inj.mp (toString_nat_inj h)

theorem toString_bool_inj (a b : Bool) (h : toString a = toString b) : a = b := by
  revert a b
  decide

theorem toString_string_inj (a b : String) (h : toString a = toString b) : a = b := h

/-! ## The types of a task -/

theorem CustomReqPatternConfig.determines : Determines CustomReqPatternConfig.reflect id := by
  intro a b h
  obtain ⟨hpattern, -⟩ := List.forall₂_cons.mp (h.fields (by simp) (by rfl))
  exact congrArg CustomReqPatternConfig.mk hpattern.leaf

theorem ReqPatternConfig.determines :
    Determines ReqPatternConfig.reflect ReqPatternConfig.trimmed := by
  intro a b h
  have hfields := h.fields (by simp) (by rfl)
  simp only [List.forall₂_cons] at hfields
  obtain ⟨htype, hcustom, -⟩ := hfields
  have hcustom := CustomReqPatternConfig.determines.ofPtr _ _ hcustom
  simp only [map_id, id] at hcustom
  rw [trimmed, trimmed, htype.leaf, hcustom]

theorem LibpcapConfig.determines : Determines LibpcapConfig.reflect id := by
  intro a b h
  have hfields := h.fields (by simp) (by rfl)
  simp only [List.forall₂_cons] at hfields
  obtain ⟨hinterface, hsnaplen, hnetns, hbpf, hbuffer, htimeout, hfilter, -⟩ := hfields
  rcases a with ⟨_, _, _, _, _, _, _⟩
  rcases b with ⟨_, _, _, _, _, _, _⟩
  obtain rfl := hinterface.leaf
  obtain rfl := hsnaplen.ofOption toString_int_inj
  obtain rfl := hnetns.ofOption toString_string_inj
  obtain rfl := hbpf.ofOption toString_string_inj
  obtain rfl := hbuffer.ofOption toString_uint64_inj
  obtain rfl := htimeout.ofOption toString_int_inj
  obtain rfl := hfilter.ofOption toString_bool_inj
  rfl

theorem CapturerConfig.determines : Determines CapturerConfig.reflect CapturerConfig.trimmed := by
  intro a b h
  have hfields := h.fields (by simp) (by rfl)
  simp only [List.forall₂_cons] at hfields
  obtain ⟨htype, hlibpcap, -⟩ := hfields
  have hlibpcap := LibpcapConfig.determines.ofPtr _ _ hlibpcap
  simp only [map_id, id] at hlibpcap
  rw [trimmed, trimmed, htype.leaf, hlibpcap]

theorem PacketSplitConfig.determines : Determines PacketSplitConfig.reflect id := by
  intro a b h
  have hfields := h.fields (by simp) (by rfl)
  simp only [List.forall₂_cons] at hfields
  obtain ⟨hsize, hchecksum, -⟩ := hfields
  rcases a with ⟨_, _⟩
  rcases b with ⟨_, _⟩
  obtain rfl := hsize.ofOption toString_int32_inj
  obtain rfl := hchecksum.ofOption toString_bool_inj
  rfl

theorem VxlanOutputConfig.determines :
    Determines VxlanOutputConfig.reflect VxlanOutputConfig.trimmed := by
  intro a b h
  have hfields := h.fields (by simp) (by rfl)
  simp only [List.forall₂_cons] at hfields
  obtain ⟨hhost, hport, htime, hvni1, hvni2, hdevice, hpmtudisc, hsplit, -⟩ := hfields
  have hsplit := PacketSplitConfig.determines.ofPtr _ _ hsplit
  simp only [map_id, id] at hsplit
  rw [trimmed, trimmed, hhost.leaf, hport.ofOption toString_int32_inj,
    htime.ofOption toString_bool_inj, hvni1.ofOption toString_uint32_inj,
    hvni2.ofOption toString_uint32_inj, hdevice.ofOption toString_string_inj,
    hpmtudisc.ofOption toString_string_inj, hsplit]

theorem GreOutputConfig.determines : Determines GreOutputConfig.reflect id := by
  intro a b h
  have hfields := h.fields (by simp) (by rfl)
  simp only [List.forall₂_cons] at hfields
  obtain ⟨hhost, htag, hdevice, hpmtudisc, -⟩ := hfields
  rcases a with ⟨_, _, _, _⟩
  rcases b with ⟨_, _, _, _⟩
  obtain rfl := hhost.leaf
  obtain rfl := htag.ofOption toString_uint32_inj
  obtain rfl := hdevice.ofOption toString_string_inj
  obtain rfl := hpmtudisc.ofOption toString_string_inj
  rfl

theorem ZmqOutputConfig.determines : Determines ZmqOutputConfig.reflect id := by
  intro a b h
  have hfields := h.fields (by simp) (by rfl)
  simp only [List.forall₂_cons] at hfields
  obtain ⟨hhost, hport, hhwm, htag, huuid, hheartbeat, -⟩ := hfields
  rcases a with ⟨_, _, _, _, _, _⟩
  rcases b with ⟨_, _, _, _, _, _⟩
  obtain rfl := hhost.leaf
  obtain rfl := toString_int32_inj _ _ hport.leaf
  obtain rfl := hhwm.ofOption toString_int_inj
  obtain rfl := htag.ofOption toString_uint32_inj
  obtain rfl := huuid.leaf
  obtain rfl := hheartbeat.ofOption toString_int32_inj
  rfl

theorem FileOutputConfig.determines : Determines FileOutputConfig.reflect id := by
  intro a b h
  obtain ⟨hname, -⟩ := List.forall₂_cons.mp (h.fields (by simp) (by rfl))
  exact congrArg FileOutputConfig.mk hname.leaf

theorem RotatingFileOutputConfig.determines : Determines RotatingFileOutputConfig.reflect id := by
  intro a b h
  have hfields := h.fields (by simp) (by rfl)
  simp only [List.forall₂_cons] at hfields
  obtain ⟨hroot, hinterval, -⟩ := hfields
  rcases a with ⟨_, _⟩
  rcases b with ⟨_, _⟩
  obtain rfl := hroot.leaf
  obtain rfl := hinterval.ofOption toString_int32_inj
  rfl

/-- The labels of an output determine it. -/
theorem OutputConfig.determines : Determines OutputConfig.reflect OutputConfig.trimmed := by
  intro a b h
  have hfields := h.fields (by simp) (by rfl)
  simp only [List.forall₂_cons] at hfields
  obtain ⟨htype, hrate, hslice, hvxlan, hgre, hzmq, hfile, hrotating, -⟩ := hfields
  have hvxlan := VxlanOutputConfig.determines.ofPtr _ _ hvxlan
  have hgre := GreOutputConfig.determines.ofPtr _ _ hgre
  have hzmq := ZmqOutputConfig.determines.ofPtr _ _ hzmq
  have hfile := FileOutputConfig.determines.ofPtr _ _ hfile
  have hrotating := RotatingFileOutputConfig.determines.ofPtr _ _ hrotating
  simp only [map_id, id] at hvxlan hgre hzmq hfile hrotating
  rw [trimmed, trimmed, htype.leaf, hrate.ofOption toString_uint64_inj,
    hslice.ofOption toString_uint64_inj, hvxlan, hgre, hzmq, hfile, hrotating]

theorem OutputConfig.leaves_ne_nil (c : OutputConfig) : leaves c.reflect ≠ [] := by
  simp [OutputConfig.reflect, leaves, fieldLeaves]

theorem TaskConfig.determines : Determines TaskConfig.reflect TaskConfig.trimmed := by
  intro a b h
  have hfields := h.fields (by simp) (by rfl)
  simp only [List.forall₂_cons] at hfields
  obtain ⟨hpattern, hcapturer, houtputs, -⟩ := hfields
  have hpattern := ReqPatternConfig.determines.ofPtr _ _ hpattern
  have hcapturer := CapturerConfig.determines _ _ hcapturer
  have houtputs := OutputConfig.determines.slice OutputConfig.leaves_ne_nil _ _ houtputs
  rw [trimmed, trimmed, hcapturer, houtputs]
  exact congrArg (fun p => TaskConfig.mk none p _ _) hpattern

/-! ## Names of fields -/

variable {α : Type}

@[simp] theorem formed_ofOption [ToString α] (value : Option α) :
    (GoValue.ofOption value).Formed := by
  rcases value with _ | v
  all_goals simp [GoValue.ofOption, Formed]

theorem formed_ofPtr {reflect : α → GoValue} (h : ∀ a, (reflect a).Formed) (value : Option α) :
    (GoValue.ofPtr reflect value).Formed := by
  rcases value with _ | a
  · simp [GoValue.ofPtr, Formed]
  · simpa [GoValue.ofPtr, Formed] using h a

theorem formed_items {reflect : α → GoValue} (h : ∀ a, (reflect a).Formed) (items : List α) :
    FormedItems (items.map reflect) := by
  induction items with
  | nil => trivial
  | cons a items ih => exact ⟨h a, ih⟩

/-- Outputs have well-formed names. -/
theorem OutputConfig.formed (c : OutputConfig) : c.reflect.Formed := by
  have hsplit : ∀ a : PacketSplitConfig, a.reflect.Formed := fun a => by
    simp [PacketSplitConfig.reflect, Formed, FormedFields]
  have hvxlan : ∀ a : VxlanOutputConfig, a.reflect.Formed := fun a => by
    simp [VxlanOutputConfig.reflect, Formed, FormedFields, formed_ofPtr hsplit]
  have hgre : ∀ a : GreOutputConfig, a.reflect.Formed := fun a => by
    simp [GreOutputConfig.reflect, Formed, FormedFields]
  have hzmq : ∀ a : ZmqOutputConfig, a.reflect.Formed := fun a => by
    simp [ZmqOutputConfig.reflect, Formed, FormedFields]
  have hfile : ∀ a : FileOutputConfig, a.reflect.Formed := fun a => by
    simp [FileOutputConfig.reflect, Formed, FormedFields]
  have hrotating : ∀ a : RotatingFileOutputConfig, a.reflect.Formed := fun a => by
    simp [RotatingFileOutputConfig.reflect, Formed, FormedFields]
  simp [OutputConfig.reflect, Formed, FormedFields, formed_ofPtr hvxlan, formed_ofPtr hgre,
    formed_ofPtr hzmq, formed_ofPtr hfile, formed_ofPtr hrotating]

theorem TaskConfig.formed (c : TaskConfig) : c.reflect.Formed := by
  have hcustom : ∀ a : CustomReqPatternConfig, a.reflect.Formed := fun a => by
    simp [CustomReqPatternConfig.reflect, Formed, FormedFields]
  have hpattern : ∀ a : ReqPatternConfig, a.reflect.Formed := fun a => by
    simp [ReqPatternConfig.reflect, Formed, FormedFields, formed_ofPtr hcustom]
  have hlibpcap : ∀ a : LibpcapConfig, a.reflect.Formed := fun a => by
    simp [LibpcapConfig.reflect, Formed, FormedFields]
  simp [TaskConfig.reflect, CapturerConfig.reflect, Formed, FormedFields, formed_ofPtr hpattern,
    formed_ofPtr hlibpcap, formed_items OutputConfig.formed]

/-! ## The result -/

theorem trimmed_eq_of_labels_eq {c c' : TaskConfig}
    (h : c.fingerPrintLables = c'.fingerPrintLables) : c.trimmed = c'.trimmed := by
  apply TaskConfig.determines
  apply same_of_labels_eq c.formed c'.formed
  -- the walk goes through the pointer to the task
  rw [TaskConfig.fingerPrintLables, structFingerprintLabels, appendFingerprintLabels,
    TaskConfig.fingerPrintLables, structFingerprintLabels, appendFingerprintLabels] at h
  exact h

theorem TaskConfig.unseparated (c : TaskConfig) : c.fingerPrintLables.Unseparated :=
  Labels.unseparated_ofWrites _

/-- **The input of the fingerprint covers the configuration**: tasks fed to the hash as the same
bytes are equal, apart from the fingerprint and pointers to structs without labels. Source:
`common/fingerprint_reflect.go`, `common/signature.go` -/
theorem fingerprint_input_covers_config :
    (∀ c c' : TaskConfig, c.fingerPrintLables = c'.fingerPrintLables → c.trimmed = c'.trimmed) ∧
    (∀ labels labels' : Labels, labels.Unseparated → labels'.Unseparated →
      hashInput labels = hashInput labels' → labels = labels') ∧
    (∀ c c' : TaskConfig, hashInput c.fingerPrintLables = hashInput c'.fingerPrintLables →
      c.trimmed = c'.trimmed) := by
  refine ⟨fun c c' => trimmed_eq_of_labels_eq, fun labels labels' => hashInput_inj, ?_⟩
  intro c c' hinput
  apply trimmed_eq_of_labels_eq
  exact hashInput_inj c.unseparated c'.unseparated hinput

def vxlanTask (split : Option PacketSplitConfig) : TaskConfig where
  fingerprint := none
  reqPattern := none
  capturer := ⟨"libpcap", some ⟨"eth0", none, none, none, some 64, none, none⟩⟩
  outputs := [{ type := "vxlan", rateLimitMbps := none, slice := none,
                vxlan := some ⟨"10.0.0.1", some 4789, none, some 7, none, none, none, split⟩ }]

/-- The task with an empty split configuration has the labels of the task without. -/
theorem fingerprint_input_covers_config_empty_split :
    vxlanTask (some ⟨none, none⟩) ≠ vxlanTask none ∧
      (vxlanTask (some ⟨none, none⟩)).trimmed = (vxlanTask none).trimmed ∧
      hashInput (vxlanTask (some ⟨none, none⟩)).fingerPrintLables =
        hashInput (vxlanTask none).fingerPrintLables := by
  have hlabels : (vxlanTask (some ⟨none, none⟩)).fingerPrintLables =
      (vxlanTask none).fingerPrintLables := rfl
  refine ⟨by decide, ?_, congrArg hashInput hlabels⟩
  have hmaps := fingerprint_input_covers_config.2.1 _ _ (vxlanTask (some ⟨none, none⟩)).unseparated
    (vxlanTask none).unseparated (congrArg hashInput hlabels)
  exact fingerprint_input_covers_config.1 _ _ hmaps

end CloudProbe.Daemon
