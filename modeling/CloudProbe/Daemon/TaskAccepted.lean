import CloudProbe.Daemon.BuiltTasks
import CloudProbe.Daemon.WorkerJson
import Mathlib.Data.List.TakeWhile

/-!
# The worker accepts the tasks that the daemon builds

The daemon checks each strategy against the limits of the worker, because the worker refuses the
whole file when one value is wrong. `Accepted` is what each kind of field accepts of what is
written; from the fields to the outputs, the tasks, and the lists of tasks.
-/

open CloudProbe.Worker List Option

namespace CloudProbe.Daemon

def Accepted {α : Type} (result : Except ParseError α) : Prop := ∃ value, result = .ok value

section fields

variable {α β : Type}

@[simp] theorem accepted_pure (value : α) : Accepted (pure value) := ⟨value, rfl⟩

theorem Accepted.bind {x : Except ParseError α} {f : α → Except ParseError β} (hx : Accepted x)
    (hf : ∀ a, Accepted (f a)) : Accepted (x >>= f) := by
  obtain ⟨a, rfl⟩ := hx
  exact hf a

theorem Accepted.wrapError {x : Except ParseError α} (hx : Accepted x) (message : String) :
    Accepted (wrapError message x) := by
  obtain ⟨a, rfl⟩ := hx
  exact ⟨a, rfl⟩

@[simp] theorem get_jsonFields_nil (key : String) : (jsonFields []).get key = none := rfl

variable (name : String)

@[simp] theorem get_jsonFields_cons (key : String) (value : Option Json)
    (fields : List (String × Option Json)) :
    (jsonFields ((name, value) :: fields)).get key =
      if key = name then value.or ((jsonFields fields).get key)
      else (jsonFields fields).get key := by
  rcases value with _ | value
  · split_ifs with hname
    · rfl
    · rfl
  · by_cases hname : key = name
    · subst hname
      simp [jsonFields, Json.get]
    · have hbeq : (key == name) = false := by simpa using hname
      simp [jsonFields, Json.get, lookup_cons, hbeq, hname]

@[simp] theorem accepted_requiredString (value message : String) :
    Accepted (requiredString (some (.string value)) message) := ⟨_, rfl⟩

@[simp] theorem accepted_optionalString (value : Option String) (default message : String) :
    Accepted (optionalString (value.map .string) default message) := by
  rcases value with _ | value
  all_goals exact ⟨_, rfl⟩

@[simp] theorem accepted_optionalBool (value : Option Bool) (message : String) :
    Accepted (optionalBool (value.map .bool) message) := by
  rcases value with _ | value
  all_goals exact ⟨_, rfl⟩

theorem getInteger_jsonInt (v : ℤ) (name : String) :
    getInteger (jsonInt v) name = .ok (roundDouble v) := by
  simp [getInteger, jsonInt]

theorem getInt64Range_jsonInt (v : ℤ) (name : String) (min max : ℤ) :
    getInt64Range (jsonInt v) name min max =
      if roundDouble v < min ∨ max < roundDouble v then
        .error (.notInRange name (roundDouble v) min max)
      else .ok (roundDouble v) := by
  simp [getInt64Range, jsonInt]

theorem accepted_range_iff {v min max : ℤ} (hv : 0 ≤ v) (hmin : min < 2 ^ 53) (hmax : max < 2 ^ 53)
    :
    Accepted (getInt64Range (jsonInt v) name min max) ↔ min ≤ v ∧ v ≤ max := by
  rw [getInt64Range_jsonInt]
  have hlow : roundDouble v < min ↔ v < min := by
    rw [← Int.le_sub_one_iff, le_roundDouble_iff hv (by omega), Int.le_sub_one_iff]
  have hhigh : max < roundDouble v ↔ max < v := by
    rw [← not_le, le_roundDouble_iff hv hmax, not_le]
  split_ifs with hout
  · rw [hlow, hhigh] at hout
    refine ⟨fun ⟨_, h⟩ => ?_, fun h => ?_⟩
    · cases h
    · omega
  · rw [hlow, hhigh] at hout
    exact ⟨fun _ => by omega, fun _ => ⟨_, rfl⟩⟩

theorem accepted_optionalRange {value : Option α} {toInt : α → ℤ} {min max : ℤ} (default : ℤ)
    (hmin : 0 ≤ min) (hmax : max < 2 ^ 53) (h : ∀ a, value = some a → min ≤ toInt a ∧ toInt a ≤ max)
    :
    Accepted (optionalRange (value.map fun a => jsonInt (toInt a)) name min max default) := by
  rcases value with _ | a
  · exact ⟨_, rfl⟩
  · obtain ⟨hlow, hhigh⟩ := h a rfl
    exact (accepted_range_iff name (by omega) (by omega) hmax).mpr ⟨hlow, hhigh⟩

theorem accepted_optionalCut {value : Option α} {toInt : α → ℤ} (default : ℤ)
    (h : ∀ a, value = some a → 0 ≤ toInt a) :
    Accepted (optionalCut (value.map fun a => jsonInt (toInt a)) name default) := by
  rcases value with _ | a
  · exact ⟨_, rfl⟩
  · have hsign : ¬ roundDouble (toInt a) < 0 := not_lt.mpr (roundDouble_nonneg (h a rfl))
    show Accepted (getInteger (jsonInt (toInt a)) name >>= _)
    rw [getInteger_jsonInt]
    exact ⟨_, by simp only [bind, Except.bind, if_neg hsign]; rfl⟩

theorem accepted_pmtudisc {value : Option String} (h : checkPmtudisc value = .ok ())
    (name : String) : Accepted (parsePmtudisc (value.map .string) name) := by
  rcases value with _ | option
  · exact ⟨_, rfl⟩
  · have hmem : option ∈ pmtudiscOptions := by
      by_contra hnot
      have hcontains : pmtudiscOptions.contains option = false := by simpa using hnot
      simp only [checkPmtudisc, checkIfSet, hcontains, Bool.false_eq_true, if_false] at h
      cases h
    simp only [pmtudiscOptions, mem_cons, not_mem_nil, or_false] at hmem
    rcases hmem with rfl | rfl | rfl
    · exact ⟨.doIt, rfl⟩
    · exact ⟨.dont, rfl⟩
    · exact ⟨.want, rfl⟩

end fields

/-! ## Checks of the daemon -/

theorem le_of_checkAtLeast {what : String} {low value : ℤ}
    (h : checkAtLeast what low value = .ok ()) : low ≤ value := by
  unfold checkAtLeast at h
  split_ifs at h with hlow
  exact not_lt.mp hlow

theorem mem_of_checkBetween {what : String} {low high value : ℤ}
    (h : checkBetween what low high value = .ok ()) : low ≤ value ∧ value ≤ high := by
  unfold checkBetween at h
  split_ifs at h with hout
  omega

theorem check_of_some {α : Type} {value : Option α} {check : α → Except String Unit}
    (h : checkIfSet value check = .ok ()) {a : α} (ha : value = some a) : check a = .ok () := by
  subst ha
  exact h

variable {strategy : StrategyEntry} {args : StartupArgs}

theorem validateStrategy_eq_ok (h : validateStrategy strategy args = .ok ()) :
    checkIfSet args.timeout (checkAtLeast "startup --timeout" 0) = .ok () ∧
      validateChannel strategy args = .ok () := by
  unfold validateStrategy at h
  obtain ⟨htimeout, h⟩ := bind_eq_ok.mp h
  refine ⟨htimeout, ?_⟩
  split_ifs at h with hpattern
  · cases h
  · exact h

theorem validateChannel_vxlan (htype : strategy.packetChannelType = .vxlan)
    (h : validateChannel strategy args = .ok ()) :
    checkIfSet strategy.port checkPort = .ok () ∧ checkPmtudisc args.pmtudisc = .ok () ∧
      (strategy.hasPacketSplit = true → checkIfSet strategy.packetSplitBytes (fun bytes =>
          checkBetween "packetSplitBytes" 0 maxPacketSplitBytes bytes.toInt) = .ok ()) := by
  unfold validateChannel at h
  rw [htype] at h
  obtain ⟨-, h⟩ := bind_eq_ok.mp h
  obtain ⟨hport, h⟩ := bind_eq_ok.mp h
  obtain ⟨hpmtudisc, h⟩ := bind_eq_ok.mp h
  refine ⟨hport, hpmtudisc, fun hsplit => ?_⟩
  rw [if_pos hsplit] at h
  exact (bind_eq_ok.mp h).1

theorem validateChannel_gre (htype : strategy.packetChannelType = .gre)
    (h : validateChannel strategy args = .ok ()) :
    checkPmtudisc args.pmtudisc = .ok () := by
  unfold validateChannel at h
  rw [htype] at h
  obtain ⟨-, h⟩ := bind_eq_ok.mp h
  exact (bind_eq_ok.mp h).1

theorem validateChannel_zmq (htype : strategy.packetChannelType = .zmq)
    (h : validateChannel strategy args = .ok ()) :
    (∃ port, strategy.port = some port ∧ checkPort port = .ok ()) ∧
      checkIfSet args.zmqHwm (checkAtLeast "startup --zmq_hwm" 0) = .ok () ∧
      checkIfSet strategy.zmqHeartbeatMs (fun ms =>
        checkBetween "zmqHeartbeatMs" 0 maxZmqHeartbeatMs ms.toInt) = .ok () := by
  unfold validateChannel at h
  rw [htype] at h
  dsimp only at h
  split_ifs at h with haddress
  · cases h
  · rcases hport : strategy.port with _ | port
    · rw [hport] at h
      cases h
    · rw [hport] at h
      obtain ⟨hcheck, h⟩ := bind_eq_ok.mp h
      obtain ⟨hhwm, h⟩ := bind_eq_ok.mp h
      exact ⟨⟨port, rfl, hcheck⟩, hhwm, (bind_eq_ok.mp h).1⟩

/-! ## Outputs -/

structure VxlanOutputConfig.Fits (c : VxlanOutputConfig) : Prop where
  port : ∀ port, c.port = some port → 1 ≤ port.toInt ∧ port.toInt ≤ 65535
  vni : (∃ vni, c.vni1 = some vni ∧ c.vni2 = none) ∨ ∃ vni, c.vni1 = none ∧ c.vni2 = some vni
  pmtudisc : checkPmtudisc c.pmtudisc = .ok ()
  split : ∀ split, c.split = some split → ∀ size, split.maxPayloadSize = some size →
    0 ≤ size.toInt ∧ size.toInt ≤ 65535

theorem accepted_uint32 (v : UInt32) (name : String) :
    Accepted (getInt64Range (jsonInt v.toNat) name 0 uint32Max) := by
  have hv := v.toNat_lt
  apply (accepted_range_iff name (by omega) (by decide) (by decide)).mpr
  rw [uint32Max]
  omega

theorem accepted_optional_uint32 (value : Option UInt32) (name : String) (default : ℤ) :
    Accepted (optionalRange (value.map fun v => jsonInt v.toNat) name 0 uint32Max default) := by
  rcases value with _ | v
  · exact ⟨_, rfl⟩
  · exact accepted_uint32 v name

theorem accepted_split {split : Option PacketSplitConfig}
    (h : ∀ s, split = some s → ∀ size, s.maxPayloadSize = some size →
      0 ≤ size.toInt ∧ size.toInt ≤ 65535) :
    Accepted (parseSplitConfig (split.map PacketSplitConfig.toJson)) := by
  rcases split with _ | split
  · exact ⟨_, rfl⟩
  · show Accepted (optionalRange (split.toJson.get "max_payload_size") _ _ _ _ >>= _)
    simp only [PacketSplitConfig.toJson, get_jsonFields_cons, get_jsonFields_nil, String.reduceEq,
      if_true, if_false, or_none]
    apply (accepted_optionalRange _ _ (le_refl 0) (by decide) (h split rfl)).bind
    intro size
    apply (accepted_optionalBool _ _).bind
    exact fun _ => accepted_pure _

theorem accepted_vni {vni1 vni2 : Option UInt32}
    (h : (∃ vni, vni1 = some vni ∧ vni2 = none) ∨ ∃ vni, vni1 = none ∧ vni2 = some vni) :
    Accepted (parseVni (vni1.map fun v => jsonInt v.toNat)
      (vni2.map fun v => jsonInt v.toNat)) := by
  rcases h with ⟨vni, rfl, rfl⟩ | ⟨vni, rfl, rfl⟩
  all_goals exact (accepted_uint32 vni _).bind fun _ => accepted_pure _

/-- The worker accepts every VXLAN section that fits. -/
theorem accepted_vxlan {c : VxlanOutputConfig} (h : c.Fits) : Accepted (parseVxlan c.toJson) := by
  unfold parseVxlan
  simp only [VxlanOutputConfig.toJson, get_jsonFields_cons, get_jsonFields_nil, String.reduceEq,
    if_true, if_false, or_none]
  apply (accepted_requiredString _ _).bind
  intro host
  apply (accepted_optionalRange _ _ (by decide) (by decide) h.port).bind
  intro port
  apply (accepted_optionalBool _ _).bind
  intro captureTime
  apply (accepted_vni h.vni).bind
  intro vni
  apply (accepted_optionalString _ _ _).bind
  intro bindDevice
  apply (accepted_pmtudisc h.pmtudisc _).bind
  intro pmtudisc
  apply ((accepted_split h.split).wrapError _).bind
  exact fun _ => accepted_pure _

theorem accepted_gre {c : GreOutputConfig} (h : checkPmtudisc c.pmtudisc = .ok ()) :
    Accepted (parseGre c.toJson) := by
  unfold parseGre
  simp only [GreOutputConfig.toJson, get_jsonFields_cons, get_jsonFields_nil, String.reduceEq,
    if_true, if_false, or_none]
  apply (accepted_requiredString _ _).bind
  intro host
  apply (accepted_optional_uint32 _ _ _).bind
  intro serviceTag
  apply (accepted_optionalString _ _ _).bind
  intro bindDevice
  apply (accepted_pmtudisc h _).bind
  exact fun _ => accepted_pure _

structure ZmqOutputConfig.Fits (c : ZmqOutputConfig) : Prop where
  port : 1 ≤ c.port.toInt ∧ c.port.toInt ≤ 65535
  hwm : ∀ hwm, c.hwm = some hwm → 0 ≤ hwm
  heartbeatMs : ∀ ms, c.heartbeatMs = some ms → 0 ≤ ms.toInt ∧ ms.toInt ≤ 60000

/-- The worker accepts every zmq section that fits. -/
theorem accepted_zmq {c : ZmqOutputConfig} (h : c.Fits) : Accepted (parseZmq c.toJson) := by
  unfold parseZmq
  simp only [ZmqOutputConfig.toJson, get_jsonFields_cons, get_jsonFields_nil, String.reduceEq,
    if_true, if_false, or_none]
  apply (accepted_requiredString _ _).bind
  intro host
  have hport : Accepted (parseZmqPort (some (jsonInt c.port.toInt))) :=
    (accepted_range_iff _ (by have := h.port; omega) (by decide) (by decide)).mpr h.port
  apply hport.bind
  intro port
  apply (accepted_optionalCut _ _ h.hwm).bind
  intro hwm
  apply (accepted_optional_uint32 _ _ _).bind
  intro serviceTag
  have huuid : Accepted (optionalString (some (.string c.uuid)) "" "invalid zmq.uuid") := ⟨_, rfl⟩
  apply huuid.bind
  intro uuid
  apply (accepted_optionalRange _ _ (le_refl 0) (by decide) h.heartbeatMs).bind
  exact fun _ => accepted_pure _

theorem accepted_rotatingFile {c : RotatingFileOutputConfig}
    (h : ∀ interval, c.maxFileInterval = some interval → 0 ≤ interval.toInt) :
    Accepted (parseRotatingFile c.toJson) := by
  unfold parseRotatingFile
  simp only [RotatingFileOutputConfig.toJson, get_jsonFields_cons, get_jsonFields_nil,
    String.reduceEq, if_true, if_false, or_none]
  apply (accepted_requiredString _ _).bind
  intro fileRoot
  apply (accepted_optionalCut _ _ h).bind
  exact fun _ => accepted_pure _

section built

variable {host : Host} {daemonUUID : String} {strategy : StrategyEntry} {args : StartupArgs}
  {item : TaskItem} {output : OutputConfig}

/-- A VXLAN output of a checked strategy fits. -/
theorem vxlanOutput_fits (htype : strategy.packetChannelType = .vxlan)
    (h : validateChannel strategy args = .ok ()) : (vxlanOutput strategy args item).Fits := by
  obtain ⟨hport, hpmtudisc, hsplit⟩ := validateChannel_vxlan htype h
  refine ⟨fun port hp => mem_of_checkBetween (check_of_some hport hp), ?_, hpmtudisc, ?_⟩
  · by_cases hvni1 : usesVni1 strategy = true
    · exact .inl ⟨_, if_pos hvni1, if_pos hvni1⟩
    · exact .inr ⟨_, if_neg hvni1, if_neg hvni1⟩
  · intro split hs size hsize
    by_cases hhas : strategy.hasPacketSplit = true
    · obtain rfl := some.inj ((if_pos hhas).symm.trans hs)
      exact mem_of_checkBetween (check_of_some (hsplit hhas) hsize)
    · cases (if_neg hhas).symm.trans hs

variable {c : OutputConfig}

theorem accepted_output_of_kind (h : Accepted (parseOutputKind c.toJson (cString c.type))) :
    Accepted (parseOutputConfig c.toJson) := by
  unfold parseOutputConfig
  have htype : c.toJson.get "type" = some (.string c.type) := by simp [OutputConfig.toJson]
  have hrate : c.toJson.get "rate_limit_mbps" =
      c.rateLimitMbps.map fun rate => jsonInt rate.toNat := by simp [OutputConfig.toJson]
  have hslice : c.toJson.get "slice" = c.slice.map fun slice => jsonInt slice.toNat := by
    simp [OutputConfig.toJson]
  rw [htype, hrate, hslice]
  show Accepted (Except.ok (cString c.type) >>= _)
  show Accepted (optionalCut _ _ _ >>= _)
  apply (accepted_optionalCut _ _ fun rate _ => Int.natCast_nonneg _).bind
  intro rate
  apply (accepted_optionalCut _ _ fun slice _ => Int.natCast_nonneg _).bind
  intro slice
  apply h.bind
  exact fun _ => accepted_pure _

theorem parseOutputKind_vxlan {o : VxlanOutputConfig} (htype : c.type = "vxlan")
    (ho : c.vxlan = some o) : parseOutputKind c.toJson (cString c.type) = parseVxlan o.toJson := by
  have hname : cString c.type = "vxlan" := by rw [htype]; rfl
  have hget : c.toJson.get "vxlan" = some o.toJson := by simp [OutputConfig.toJson, ho]
  simp only [parseOutputKind, hname, String.reduceEq, if_true, if_false, requiredObject, hget]
  rfl

theorem parseOutputKind_gre {o : GreOutputConfig} (htype : c.type = "gre") (ho : c.gre = some o) :
    parseOutputKind c.toJson (cString c.type) = parseGre o.toJson := by
  have hname : cString c.type = "gre" := by rw [htype]; rfl
  have hget : c.toJson.get "gre" = some o.toJson := by simp [OutputConfig.toJson, ho]
  simp only [parseOutputKind, hname, String.reduceEq, if_true, if_false, requiredObject, hget]
  rfl

theorem parseOutputKind_zmq {o : ZmqOutputConfig} (htype : c.type = "zmq") (ho : c.zmq = some o) :
    parseOutputKind c.toJson (cString c.type) = parseZmq o.toJson := by
  have hname : cString c.type = "zmq" := by rw [htype]; rfl
  have hget : c.toJson.get "zmq" = some o.toJson := by simp [OutputConfig.toJson, ho]
  simp only [parseOutputKind, hname, String.reduceEq, if_true, if_false, requiredObject, hget]
  rfl

theorem parseOutputKind_rotatingFile {o : RotatingFileOutputConfig}
    (htype : c.type = "rotating_file") (ho : c.rotatingFile = some o) :
    parseOutputKind c.toJson (cString c.type) = parseRotatingFile o.toJson := by
  have hname : cString c.type = "rotating_file" := by rw [htype]; rfl
  have hget : c.toJson.get "rotating_file" = some o.toJson := by simp [OutputConfig.toJson, ho]
  simp only [parseOutputKind, hname, String.reduceEq, if_true, if_false, requiredObject, hget]
  rfl

/-- The worker accepts the output of every strategy that passes its check. -/
theorem accepted_output (hvalid : validateChannel strategy args = .ok ())
    (h : newOutput host daemonUUID strategy args item = .ok output) :
    Accepted (parseOutputConfig output.toJson) := by
  apply accepted_output_of_kind
  unfold newOutput at h
  rcases htype : strategy.packetChannelType with _ | _ | _ | _ | name
  · -- gre
    rw [htype] at h
    obtain rfl := Except.ok.inj h
    rw [parseOutputKind_gre rfl rfl]
    exact accepted_gre (validateChannel_gre htype hvalid)
  · -- zmq
    rw [htype] at h
    obtain rfl := Except.ok.inj h
    obtain ⟨⟨port, hport, hcheck⟩, hhwm, hheartbeat⟩ := validateChannel_zmq htype hvalid
    rw [parseOutputKind_zmq rfl rfl]
    apply accepted_zmq
    refine ⟨?_, fun hwm hh => le_of_checkAtLeast (check_of_some hhwm hh),
      fun ms hms => mem_of_checkBetween (check_of_some hheartbeat hms)⟩
    rw [hport]
    exact mem_of_checkBetween hcheck
  · -- vxlan
    rw [htype] at h
    obtain rfl := Except.ok.inj h
    rw [parseOutputKind_vxlan rfl rfl]
    exact accepted_vxlan (vxlanOutput_fits htype hvalid)
  · -- file
    rw [htype] at h
    dsimp only at h
    rcases hdir : strategy.dumpDir with _ | dumpDir
    · rw [hdir] at h
      cases h
    · rw [hdir] at h
      dsimp only at h
      rcases hmkdir : host.mkdirAll (joinPath (dumpDir :: item.dumpSubDirs)) with _ | err
      · rw [hmkdir] at h
        obtain rfl := Except.ok.inj h
        unfold validateChannel at hvalid
        rw [htype] at hvalid
        rw [parseOutputKind_rotatingFile rfl rfl]
        apply accepted_rotatingFile
        exact fun interval hi => le_of_checkAtLeast (check_of_some hvalid hi)
      · rw [hmkdir] at h
        cases h
  · rw [htype] at h
    cases h

/-! ## Tasks -/

/-- The worker accepts every `libpcap` section with a positive buffer. -/
theorem accepted_libpcap {c : LibpcapConfig}
    (hbuffer : ∀ size, c.bufferSizeMb = some size → 0 < size)
    (htimeout : ∀ ms, c.timeoutMs = some ms → 0 ≤ ms) : Accepted (parseLibpcap c.toJson) := by
  unfold parseLibpcap parseSnaplen
  simp only [LibpcapConfig.toJson, get_jsonFields_cons, get_jsonFields_nil, String.reduceEq,
    if_true, if_false, or_none]
  apply (accepted_requiredString _ _).bind
  intro interface
  apply (accepted_optionalString _ _ _).bind
  intro netns
  refine Accepted.bind ?_ fun snaplen => ?_
  · -- any length is accepted
    rcases c.snaplen with _ | snaplen
    · exact ⟨_, rfl⟩
    · show Accepted (getInteger (jsonInt snaplen) _ >>= _)
      rw [getInteger_jsonInt]
      exact ⟨_, by simp [bind, Except.bind]; rfl⟩
  apply (accepted_optionalString _ _ _).bind
  intro bpfFilter
  refine Accepted.bind ?_ fun bufferSizeMb => ?_
  · rcases hsize : c.bufferSizeMb with _ | size
    · exact ⟨_, rfl⟩
    · have hpos : 0 < size.toNat := UInt64.lt_iff_toNat_lt.mp (hbuffer size hsize)
      have hround : ¬ roundDouble (size.toNat : ℤ) ≤ 0 := by
        rw [le_roundDouble_iff (by omega) (by decide)]
        omega
      show Accepted (getInteger (jsonInt size.toNat) _ >>= _)
      rw [getInteger_jsonInt]
      exact ⟨_, by simp only [bind, Except.bind, if_neg hround]; rfl⟩
  apply (accepted_optionalCut _ _ htimeout).bind
  intro timeoutMs
  apply (accepted_optionalBool _ _).bind
  exact fun _ => accepted_pure _

theorem accepted_capturer {c : LibpcapConfig} (h : Accepted (parseLibpcap c.toJson)) :
    Accepted (parseTaskCapturer (some (CapturerConfig.toJson ⟨"libpcap", some c⟩))) := by
  apply Accepted.wrapError
  show Accepted (parseCapturerConfig (CapturerConfig.toJson ⟨"libpcap", some c⟩))
  unfold parseCapturerConfig
  simp only [CapturerConfig.toJson, get_jsonFields_cons, get_jsonFields_nil, String.reduceEq,
    if_true, if_false, or_none, requiredObject]
  exact h

theorem accepted_reqPattern (strategy : StrategyEntry) :
    Accepted (parseTaskReqPattern ((reqPatternConfig strategy).map ReqPatternConfig.toJson)) := by
  unfold reqPatternConfig
  split
  · exact ⟨_, rfl⟩
  · apply Accepted.wrapError
    show Accepted (parseReqPatternConfig (ReqPatternConfig.toJson _))
    by_cases hempty : strategy.reqPattern.getD "" = ""
    · rw [hempty]
      exact ⟨.custom "", rfl⟩
    · refine ⟨.custom (cString (strategy.reqPattern.getD "")), ?_⟩
      simp only [ReqPatternConfig.toJson, map_some, if_neg hempty]
      rfl
  · exact ⟨_, rfl⟩

end built

theorem parseOutputs_singleton {output : OutputConfig}
    (h : Accepted (parseOutputConfig output.toJson)) :
    Accepted (parseOutputs 0 [output.toJson]) := by
  show Accepted (wrapError "parse output error" (parseOutputConfig output.toJson) >>= _)
  apply (h.wrapError _).bind
  exact fun _ => ⟨_, rfl⟩

/-- The text of a fingerprint: not empty, and without a zero byte. -/
def IsFingerprintText (text : String) : Prop := text ≠ "" ∧ ∀ c ∈ text.toList, c.toNat ≠ 0

theorem cString_eq_self {text : String} (h : ∀ c ∈ text.toList, c.toNat ≠ 0) :
    cString text = text := by
  have hall : text.toList.takeWhile (fun c => c.toNat != 0) = text.toList := by
    apply takeWhile_eq_self_iff.mpr
    intro c hc
    simpa using h c hc
  rw [cString, hall, String.ofList_toList]

/-- The worker accepts every task the builder makes. -/
theorem accepted_task {pk : Packages} {b : WorkerTaskBuilder} {item : TaskItem} {task : TaskConfig}
    (hbuffer : 0 < b.buffSize) (h : b.newTaskConfig pk strategy item = .ok task) {text : String}
    (htext : IsFingerprintText text) :
    ∃ parsed, parseTaskConfig { task with fingerprint := some text }.toJson = .ok parsed ∧
      parsed.fingerprint = some text := by
  obtain ⟨args, -, hvalid, -, output, houtput, rfl⟩ :=
    WorkerTaskBuilder.newTaskConfig_eq_ok.mp h
  obtain ⟨htimeout, hchannel⟩ := validateStrategy_eq_ok hvalid
  obtain ⟨reqPattern, hreqPattern⟩ := accepted_reqPattern strategy
  obtain ⟨capturer, hcapturer⟩ := accepted_capturer (c := {
      interface := item.nicName
      snaplen := args.snaplen
      netns := if item.netns = "" then none else some item.netns
      bpf := strategy.bpf
      bufferSizeMb := some b.buffSize
      timeoutMs := args.timeout
      notFilterOutputHosts := args.noFilter })
    (accepted_libpcap (fun size hsize => some.inj hsize ▸ hbuffer)
      fun ms hms => le_of_checkAtLeast (check_of_some htimeout hms))
  obtain ⟨outputs, houtputs⟩ := parseOutputs_singleton (accepted_output hchannel houtput)
  refine ⟨⟨some text, reqPattern, capturer, outputs⟩, ?_, rfl⟩
  have hfingerprint : parseFingerprint (some (.string text)) = .ok (some text) := by
    rw [parseFingerprint, cString_eq_self htext.2, if_neg htext.1]
  unfold parseTaskConfig
  simp only [TaskConfig.toJson, WorkerTaskBuilder.taskOf, get_jsonFields_cons, get_jsonFields_nil,
    String.reduceEq, if_true, if_false, or_none, map_some, or_some,
    map_cons, map_nil, requiredArray]
  rw [hfingerprint, hreqPattern, hcapturer]
  show (parseOutputs 0 [output.toJson] >>= _) = _
  rw [houtputs]
  rfl

/-- The array of tasks is accepted when each task is and no fingerprint is given twice. -/
theorem accepted_tasks {built : List TaskConfig} {tasks : List ParsedTask}
    (hparse : ∀ t ∈ built, ∃ parsed, parseTaskConfig t.toJson = .ok parsed ∧
      parsed.fingerprint = t.fingerprint)
    (hnodup : (tasks.map ParsedTask.fingerprint ++ built.map TaskConfig.fingerprint).Nodup) :
    ∃ parsed, parseTaskItems tasks (built.map TaskConfig.toJson) = .ok parsed ∧
      parsed.map ParsedTask.fingerprint =
        tasks.map ParsedTask.fingerprint ++ built.map TaskConfig.fingerprint := by
  induction built generalizing tasks with
  | nil => exact ⟨tasks, rfl, by simp⟩
  | cons t rest ih =>
    obtain ⟨task, htask, hfingerprint⟩ := hparse t (by simp)
    have hshift : tasks.map ParsedTask.fingerprint ++ (t :: rest).map TaskConfig.fingerprint =
        (tasks ++ [task]).map ParsedTask.fingerprint ++ rest.map TaskConfig.fingerprint := by
      simp [hfingerprint]
    have hnew : task.fingerprint ∉ tasks.map ParsedTask.fingerprint := by
      intro hmem
      have hdisjoint := (nodup_append.mp hnodup).2.2
      exact hdisjoint _ hmem task.fingerprint (by simp [hfingerprint]) rfl
    have hcheck : checkFingerprint tasks task = .ok () := by
      unfold checkFingerprint
      rcases hf : task.fingerprint with _ | f
      · rfl
      · apply if_neg
        intro hany
        obtain ⟨other, hother, heq⟩ := any_eq_true.mp hany
        apply hnew
        rw [hf]
        exact mem_map.mpr ⟨other, hother, by simpa using heq⟩
    obtain ⟨parsed, hparsed, hmap⟩ :=
      ih (fun t' ht' => hparse t' (by simp [ht'])) (hshift ▸ hnodup)
    refine ⟨parsed, ?_, hmap.trans hshift.symm⟩
    rw [map_cons, parseTaskItems]
    have hobject : isObject (some t.toJson) = true := rfl
    simp only [hobject, Bool.not_true, Bool.false_eq_true, if_false, htask, wrapError,
      Except.mapError, bind, Except.bind, hcheck]
    exact hparsed

end CloudProbe.Daemon
