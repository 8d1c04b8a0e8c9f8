import CloudProbe.Daemon.TaskBuilder

/-!
# Unknown startup flags

`parseStartup` goes on after an unknown flag, with what the parser had set when it returned. The
parser returns at the first unknown flag, so what stands behind it is lost. On words `--name=value`
it goes from left to right (`parseLong`); nothing is assumed of it on other words.

Sources without a file are in `cpm/worker_task_builder.go`.
-/

namespace CloudProbe.Daemon

open List

/-- The startup arguments with the two that no task uses.
Source: `startupArgs` -/
structure AllStartupArgs extends StartupArgs where
  priority : Option Bool := none
  cpuAffinity : Option ℤ := none
deriving DecidableEq

/-- Source: `parseStartup`, the flags it declares -/
inductive Flag where
  | snaplen | timeout | bindDevice | pmtudisc | zmqHwm | noFilter | priority | cpuAffinity
deriving DecidableEq

namespace Flag

def name : Flag → String
  | snaplen => "snaplen"
  | timeout => "timeout"
  | bindDevice => "bind_device"
  | pmtudisc => "pmtudisc_option"
  | zmqHwm => "zmq_hwm"
  | noFilter => "nofilter"
  | priority => "priority"
  | cpuAffinity => "cpu"

def all : List Flag :=
  [snaplen, timeout, bindDevice, pmtudisc, zmqHwm, noFilter, priority, cpuAffinity]

def lookup (name : String) : Option Flag := all.find? (·.name = name)

@[simp] theorem lookup_name (flag : Flag) : lookup flag.name = some flag := by
  cases flag <;> decide

abbrev Val : Flag → Type
  | snaplen | timeout | zmqHwm | cpuAffinity => ℤ
  | bindDevice | pmtudisc => String
  | noFilter | priority => Bool

end Flag

namespace AllStartupArgs

def get (args : AllStartupArgs) : (flag : Flag) → Option flag.Val
  | .snaplen => args.snaplen
  | .timeout => args.timeout
  | .bindDevice => args.bindDevice
  | .pmtudisc => args.pmtudisc
  | .zmqHwm => args.zmqHwm
  | .noFilter => args.noFilter
  | .priority => args.priority
  | .cpuAffinity => args.cpuAffinity

def set (args : AllStartupArgs) : (flag : Flag) → flag.Val → AllStartupArgs
  | .snaplen, v => { args with snaplen := some v }
  | .timeout, v => { args with timeout := some v }
  | .bindDevice, v => { args with bindDevice := some v }
  | .pmtudisc, v => { args with pmtudisc := some v }
  | .zmqHwm, v => { args with zmqHwm := some v }
  | .noFilter, v => { args with noFilter := some v }
  | .priority, v => { args with priority := some v }
  | .cpuAffinity, v => { args with cpuAffinity := some v }

theorem get_set_self (args : AllStartupArgs) (flag : Flag) (v : flag.Val) :
    (args.set flag v).get flag = some v := by
  cases flag <;> rfl

theorem get_set_of_ne (args : AllStartupArgs) {flag other : Flag} (h : flag ≠ other)
    (v : flag.Val) : (args.set flag v).get other = args.get other := by
  cases flag <;> cases other <;> first | rfl | exact absurd rfl h

theorem eq_iff_get {a b : AllStartupArgs} : a = b ↔ ∀ flag, a.get flag = b.get flag := by
  refine ⟨fun h flag => by rw [h], fun h => ?_⟩
  obtain ⟨⟨s, t, d, m, z, n⟩, p, c⟩ := a
  obtain ⟨⟨s', t', d', m', z', n'⟩, p', c'⟩ := b
  obtain rfl : s = s' := h .snaplen
  obtain rfl : t = t' := h .timeout
  obtain rfl : d = d' := h .bindDevice
  obtain rfl : m = m' := h .pmtudisc
  obtain rfl : z = z' := h .zmqHwm
  obtain rfl : n = n' := h .noFilter
  obtain rfl : p = p' := h .priority
  obtain rfl : c = c' := h .cpuAffinity
  rfl

end AllStartupArgs

/-! ## The parser -/

/-- A flag with its value in one word: the name and the value around the first `=`.
Source: `pflag` `FlagSet.parseLongArg` -/
def longArg? (word : String) : Option (String × String) :=
  match word.toList with
  | '-' :: '-' :: c :: rest =>
    if c = '-' ∨ c = '=' then none
    else
      match (c :: rest).dropWhile (· ≠ '=') with
      | [] => none
      | _ :: value =>
        some (String.ofList ((c :: rest).takeWhile (· ≠ '=')), String.ofList value)
  | _ => none

/-- How the texts of numbers and truth values are read; the error is the one of setting the flag.
Source: `strconv` `ParseInt(_, 0, 64)`, `ParseBool` -/
structure Strconv where
  parseInt : String → Except String ℤ
  parseBool : String → Except String Bool

def Strconv.convert (sc : Strconv) : (flag : Flag) → String → Except String flag.Val
  | .snaplen, value | .timeout, value | .zmqHwm, value | .cpuAffinity, value => sc.parseInt value
  | .bindDevice, value | .pmtudisc, value => .ok value
  | .noFilter, value | .priority, value => sc.parseBool value

/-- Flags one after the other: what was set when the parser returns, and its error.
Source: `pflag` `FlagSet.parseArgs`, `parseLongArg` -/
def parseLong (sc : Strconv) (args : AllStartupArgs) :
    List (String × String) → AllStartupArgs × Option String
  | [] => (args, none)
  | (name, value) :: rest =>
    match Flag.lookup name with
    | none =>
      (args, some
        (if name = "help" then "pflag: help requested" else "unknown flag: --" ++ name))
    | some flag =>
      match sc.convert flag value with
      | .error err => (args, some err)
      | .ok v => parseLong sc (args.set flag v) rest

/-- The parser, of which only the words `--name=value` count. -/
structure Pflag extends Strconv where
  parse : List String → AllStartupArgs × Option String
  parse_long : ∀ words pairs, words.mapM longArg? = some pairs →
    parse words = parseLong toStrconv {} pairs

def Strconv.pflag (sc : Strconv) : Pflag where
  toStrconv := sc
  parse words := ((words.mapM longArg?).map (parseLong sc {})).getD ({}, some "bad flag syntax")
  parse_long := by
    intro words pairs h
    rw [h]
    rfl

namespace Pflag

variable (pf : Pflag)

/-- Source: `parseStartup` -/
def parseStartup (startup : String) (ignoreUnknown : Bool) : Except String AllStartupArgs := do
  let args ← splitArgs startup
  match pf.parse args with
  | (res, none) => return res
  | (res, some err) =>
    if isUnknownFlagError err && ignoreUnknown then return res else throw err

def packages (hash : Labels → String) : Packages where
  flagParse words := ((pf.parse words).1.toStartupArgs, (pf.parse words).2)
  hash := hash

theorem parseStartup_packages (hash : Labels → String) (startup : String) (ignoreUnknown : Bool) :
    Daemon.parseStartup (pf.packages hash) startup ignoreUnknown =
      (pf.parseStartup startup ignoreUnknown).map AllStartupArgs.toStartupArgs := by
  rw [Daemon.parseStartup, Pflag.parseStartup]
  rcases splitArgs startup with err | args
  · rfl
  · rcases hparse : pf.parse args with ⟨res, _ | err⟩
    · simp only [packages, bind, Except.bind, hparse]
      rfl
    · simp only [packages, bind, Except.bind, hparse]
      split_ifs with hignore
      · rfl
      · rfl

end Pflag

/-! ## Arguments -/

/-- A name that the parser reads from a word `--name=value`. -/
structure LongName (name : String) : Prop where
  ne_nil : name.toList ≠ []
  head : name.toList.head? ≠ some '-'
  plain : '=' ∉ name.toList

instance (name : String) : Decidable (LongName name) :=
  decidable_of_iff (name.toList ≠ [] ∧ name.toList.head? ≠ some '-' ∧ '=' ∉ name.toList)
    ⟨fun ⟨h₁, h₂, h₃⟩ => ⟨h₁, h₂, h₃⟩, fun h => ⟨h.ne_nil, h.head, h.plain⟩⟩

def longWord (name value : String) : String := "--" ++ name ++ "=" ++ value

/-- A flag with its value is read back. -/
theorem longArg?_longWord {name : String} (h : LongName name) (value : String) :
    longArg? (longWord name value) = some (name, value) := by
  obtain ⟨hne, hhead, hplain⟩ := h
  obtain ⟨c, rest, hname⟩ := exists_cons_of_ne_nil hne
  rw [hname] at hhead hplain
  have hword : (longWord name value).toList = '-' :: '-' :: c :: (rest ++ '=' :: value.toList) := by
    simp [longWord, hname]
  have hc : ¬ (c = '-' ∨ c = '=') := by
    rintro (rfl | rfl)
    · exact hhead rfl
    · exact hplain mem_cons_self
  have hall : ∀ x ∈ c :: rest, (decide (x ≠ '=')) = true := by
    intro x hx
    exact decide_eq_true fun heq => hplain (heq ▸ hx)
  have hdrop : (c :: (rest ++ '=' :: value.toList)).dropWhile (· ≠ '=') = '=' :: value.toList := by
    rw [← cons_append, dropWhile_append_of_pos hall]
    simp
  have htake : (c :: (rest ++ '=' :: value.toList)).takeWhile (· ≠ '=') = c :: rest := by
    rw [← cons_append, takeWhile_append_of_pos hall]
    simp
  simp only [longArg?, hword, if_neg hc, hdrop, htake]
  rw [← hname, String.ofList_toList, String.ofList_toList]

/-- A declared flag with a value that can be read. -/
structure KnownArg (sc : Strconv) where
  flag : Flag
  value : String
  parsed : flag.Val
  converts : sc.convert flag value = .ok parsed

/-- A long flag that is not declared. -/
structure UnknownArg where
  name : String
  value : String
  long : LongName name
  unknown : Flag.lookup name = none

variable {sc : Strconv}

def KnownArg.word (a : KnownArg sc) : String := longWord a.flag.name a.value

def UnknownArg.word (u : UnknownArg) : String := longWord u.name u.value

/-- A startup text that is split into the words. -/
abbrev Written (words : List String) : Type := { startup : String // splitArgs startup = .ok words }

theorem KnownArg.longArg?_word (a : KnownArg sc) :
    longArg? a.word = some (a.flag.name, a.value) :=
  longArg?_longWord (by cases a.flag <;> decide) a.value

theorem mapM_longArg?_known (known : List (KnownArg sc)) {words : List String}
    {pairs : List (String × String)} (h : words.mapM longArg? = some pairs) :
    (known.map KnownArg.word ++ words).mapM longArg? =
      some (known.map (fun a => (a.flag.name, a.value)) ++ pairs) := by
  induction known with
  | nil => exact h
  | cons a known ih =>
    rw [map_cons, cons_append, mapM_cons, a.longArg?_word, ih]
    rfl

def setAll (args : AllStartupArgs) (known : List (KnownArg sc)) : AllStartupArgs :=
  known.foldl (fun args a => args.set a.flag a.parsed) args

theorem parseLong_known (args : AllStartupArgs) (known : List (KnownArg sc))
    (pairs : List (String × String)) :
    parseLong sc args (known.map (fun a => (a.flag.name, a.value)) ++ pairs) =
      parseLong sc (setAll args known) pairs := by
  induction known generalizing args with
  | nil => rfl
  | cons a known ih =>
    rw [map_cons, cons_append, parseLong, Flag.lookup_name]
    simp only [a.converts]
    rw [ih]
    rfl

def lastValue (flag : Flag) : List (KnownArg sc) → Option flag.Val
  | [] => none
  | a :: known =>
    (lastValue flag known).or (if h : a.flag = flag then some (h ▸ a.parsed) else none)

theorem get_setAll (args : AllStartupArgs) (known : List (KnownArg sc)) (flag : Flag) :
    (setAll args known).get flag = (lastValue flag known).or (args.get flag) := by
  induction known generalizing args with
  | nil => rfl
  | cons a known ih =>
    obtain ⟨f, value, parsed, converts⟩ := a
    rw [show setAll args (⟨f, value, parsed, converts⟩ :: known) =
      setAll (args.set f parsed) known from rfl, ih, lastValue, Option.or_assoc]
    congr 1
    by_cases hf : f = flag
    · subst hf
      rw [AllStartupArgs.get_set_self, dif_pos rfl]
      rfl
    · rw [AllStartupArgs.get_set_of_ne args hf, dif_neg hf]
      rfl

theorem setAll_eq_iff (known known' : List (KnownArg sc)) :
    setAll {} known = setAll {} known' ↔ ∀ flag, lastValue flag known = lastValue flag known' := by
  have hget (known : List (KnownArg sc)) (flag : Flag) :
      (setAll {} known).get flag = lastValue flag known := by
    rw [get_setAll, show ({} : AllStartupArgs).get flag = none by cases flag <;> rfl,
      Option.or_none]
  simp only [AllStartupArgs.eq_iff_get, hget]

/-! ## The unknown flag -/

variable (pf : Pflag)

theorem parseStartup_known (known : List (KnownArg pf.toStrconv))
    (startup : Written (known.map KnownArg.word)) :
    pf.parseStartup startup true = .ok (setAll {} known) := by
  have hparse : pf.parse (known.map KnownArg.word) = (setAll {} known, none) := by
    have hwords := mapM_longArg?_known known (mapM_nil (f := longArg?))
    rw [append_nil] at hwords
    rw [pf.parse_long _ _ hwords, parseLong_known, parseLong]
  rw [Pflag.parseStartup, startup.2]
  simp only [bind, Except.bind, hparse]
  rfl

theorem isUnknownFlagError_unknown (name : String) :
    isUnknownFlagError ("unknown flag: --" ++ name) = true := by
  refine decide_eq_true ⟨[], ": --".toList ++ name.toList, ?_⟩
  simp

/-- With an unknown flag only what is before it counts. -/
theorem parseStartup_unknown (before after : List (KnownArg pf.toStrconv)) (u : UnknownArg)
    (startup : Written (before.map KnownArg.word ++ u.word :: after.map KnownArg.word)) :
    pf.parseStartup startup true =
      if u.name = "help" then .error "pflag: help requested" else .ok (setAll {} before) := by
  have hparse : pf.parse (before.map KnownArg.word ++ u.word :: after.map KnownArg.word) =
      (setAll {} before, some (if u.name = "help" then "pflag: help requested"
        else "unknown flag: --" ++ u.name)) := by
    have hafter := mapM_longArg?_known after (mapM_nil (f := longArg?))
    rw [append_nil] at hafter
    have hword : longArg? u.word = some (u.name, u.value) := longArg?_longWord u.long u.value
    have hrest : (u.word :: after.map KnownArg.word).mapM longArg? =
        some ((u.name, u.value) :: (after.map (fun a => (a.flag.name, a.value)) ++ [])) := by
      rw [mapM_cons, hword, hafter]
      rfl
    rw [pf.parse_long _ _ (mapM_longArg?_known before hrest), parseLong_known, parseLong, u.unknown]
  rw [Pflag.parseStartup, startup.2]
  simp only [bind, Except.bind, hparse]
  by_cases hhelp : u.name = "help"
  · rw [if_pos hhelp, if_pos hhelp]
    rfl
  · rw [if_neg hhelp, if_neg hhelp, isUnknownFlagError_unknown]
    rfl

/-- **An unknown flag is ignored exactly when nothing behind it counts**, at every place. Source:
`parseStartup` -/
theorem unknown_flag_ignored_iff (known : List (KnownArg pf.toStrconv)) (k : ℕ) (u : UnknownArg)
    (startup : Written (known.map KnownArg.word))
    (longer : Written
      ((known.take k).map KnownArg.word ++ u.word :: (known.drop k).map KnownArg.word)) :
    pf.parseStartup longer true = pf.parseStartup startup true ↔
      u.name ≠ "help" ∧ ∀ flag, lastValue flag (known.take k) = lastValue flag known := by
  rw [parseStartup_known, parseStartup_unknown]
  split_ifs with hhelp
  · exact ⟨nofun, fun h => absurd hhelp h.1⟩
  · rw [Except.ok.injEq, setAll_eq_iff]
    exact ⟨fun h => ⟨hhelp, h⟩, And.right⟩

/-- A device behind an unknown flag is lost; without the flag it is set. -/
theorem unknown_flag_hides_rest :
    (∀ pf : Pflag, pf.parseStartup "--bind_device=eth0" true =
      .ok { bindDevice := some "eth0" }) ∧
      ∀ pf : Pflag, pf.parseStartup "--foo=1 --bind_device=eth0" true = .ok {} := by
  constructor
  · intro pf
    exact parseStartup_known pf [⟨.bindDevice, "eth0", "eth0", rfl⟩]
      ⟨_, by simp only [List.map, KnownArg.word]; decide⟩
  · intro pf
    exact parseStartup_unknown pf [] [⟨.bindDevice, "eth0", "eth0", rfl⟩]
      ⟨"foo", "1", by decide, by decide⟩
      ⟨_, by simp only [List.map, nil_append, KnownArg.word, UnknownArg.word]; decide⟩

end CloudProbe.Daemon
