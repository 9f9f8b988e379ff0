import Eventing.Go
import Mathlib.Data.Int.Log
import Mathlib.Data.Rat.Floor

/-! # Loading the application settings

`parseDepcfg` fetches the application's settings object from metakv, takes
each recognised key from it or falls back to the key's default, stores the
object as `app.Settings`, sets the log level from the object's `log_level`,
checks the worker count and asks the cluster for the node's addresses.

## Implementation notes

The part before the settings fetch reads only the application config and the
cluster credentials; the producer it leaves is the argument `p`, of which only
the fields the settings part writes are kept. The settings object is the map
`json.Unmarshal` builds from the stored text: a number is the value of its
decimal text, and `val.(float64)` the float64 that `strconv.ParseFloat` rounds
it to. A number beyond the float64 range makes `json.Unmarshal` fail before the
settings part, so the exponent is not bounded above. `int(x)`, `int64(x)` and
`time.Duration(x)` truncate towards zero and give `math.MinInt64` when the result
does not fit in 64 bits, as on amd64, and `time.Duration(x) * time.Second` wraps
in 64 bits. A failed type assertion panics: `none`. The cluster's answers are
arguments, as Go pairs of a value and an error.
-/

namespace Eventing

/-- Round half to even: the integer nearest `y`, the even one of two at the same distance. -/
def roundHalfEven (y : ℚ) : Int :=
  let n := ⌊y⌋
  if y - n < 1 / 2 then n
  else if 1 / 2 < y - n then n + 1
  else if n % 2 = 0 then n else n + 1

/-- The exponent of the spacing of the float64 values at `x`: `e - 52` for `2 ^ e ≤ |x| < 2 ^ (e + 1)`,
and `-1074` among the subnormals. -/
def float64UlpExp (x : ℚ) : Int := max (Int.log 2 |x| - 52) (-1074)

/-- `strconv.ParseFloat(s, 64)`, which `json.Unmarshal` calls on the text `s` of a number worth `x`:
the float64 nearest `x`, the one whose last bit is even on a tie. -/
def parseFloat64 (x : ℚ) : ℚ := roundHalfEven (x / 2 ^ float64UlpExp x) * 2 ^ float64UlpExp x

/-- Go's `int(f)`, `int64(f)` and `time.Duration(f)` on amd64 for a float64 `f`: the integer part
towards zero, or `math.MinInt64` when that does not fit in 64 bits. -/
def goInt64 (f : ℚ) : Int :=
  let t := f.num.tdiv f.den
  if -2 ^ 63 ≤ t ∧ t < 2 ^ 63 then t else -2 ^ 63

/-- A value of the map `json.Unmarshal` fills; a number is the value of its decimal text. -/
inductive JsonValue
  | null
  | bool (b : Bool)
  | number (x : ℚ)
  | string (s : String)
  | array (elems : List JsonValue)
  | object (fields : List (String × JsonValue))

namespace JsonValue

/-- `val.(bool)`. -/
def asBool : JsonValue → Option Bool
  | bool b => some b
  | _ => none

/-- `val.(string)`. -/
def asString : JsonValue → Option String
  | string s => some s
  | _ => none

/-- `val.(float64)`: the float64 `json.Unmarshal` stored for a number. -/
def asFloat64 : JsonValue → Option ℚ
  | number x => some (parseFloat64 x)
  | _ => none

/-- `int(val.(float64))`, and likewise `int64(...)` and `time.Duration(...)`. -/
def asInt (v : JsonValue) : Option Int := v.asFloat64.map goInt64

end JsonValue

/-! ## Integers through `float64` -/

@[simp] theorem roundHalfEven_intCast (n : Int) : roundHalfEven n = n := by
  simp [roundHalfEven]

/-- The spacing of the float64 values at an integer of at most 53 bits is at most `1`. -/
theorem float64UlpExp_nonpos {n : Int} (h : |n| < 2 ^ 53) : float64UlpExp n ≤ 0 := by
  rcases eq_or_ne n 0 with rfl | hn
  · simp [float64UlpExp]
  have hpos : (0 : ℚ) < |(n : ℚ)| := by simpa using hn
  have hlt : |(n : ℚ)| < ((2 : ℕ) : ℚ) ^ (53 : ℤ) := by
    rw [← Int.cast_abs]
    exact_mod_cast h
  have := (Int.lt_zpow_iff_log_lt (by norm_num) hpos).mp hlt
  simp only [float64UlpExp, max_le_iff]
  omega

/-- A float64 holds every integer of at most 53 bits exactly. -/
theorem parseFloat64_intCast {n : Int} (h : |n| < 2 ^ 53) : parseFloat64 n = n := by
  obtain ⟨k, hk⟩ := Int.exists_eq_neg_ofNat (float64UlpExp_nonpos h)
  have hscale : (n : ℚ) / 2 ^ float64UlpExp n = ((n * 2 ^ k : Int) : ℚ) := by
    rw [hk, zpow_neg, zpow_natCast, div_inv_eq_mul]
    push_cast
    rfl
  rw [parseFloat64, hscale, roundHalfEven_intCast, hk, zpow_neg, zpow_natCast]
  push_cast
  field_simp

/-- Go's conversion keeps every float64 integer that fits in 64 bits. -/
theorem goInt64_intCast {n : Int} (h : -2 ^ 63 ≤ n ∧ n < 2 ^ 63) : goInt64 n = n := by
  simp only [goInt64, Rat.intCast_num, Rat.intCast_den, Nat.cast_one, Int.tdiv_one]
  exact if_pos h

/-- A number of at most 53 bits reads as itself through `int(val.(float64))`. -/
theorem asInt_number_intCast {n : Int} (h : |n| < 2 ^ 53) : (JsonValue.number n).asInt = some n := by
  have hr : -2 ^ 63 ≤ n ∧ n < 2 ^ 63 := by
    rw [abs_lt] at h
    omega
  simp only [JsonValue.asInt, JsonValue.asFloat64, parseFloat64_intCast h, Option.map_some', goInt64_intCast hr]

/-- Round half to even lands on the floor or on the integer above it. -/
theorem floor_le_roundHalfEven (y : ℚ) : ⌊y⌋ ≤ roundHalfEven y := by
  dsimp only [roundHalfEven]
  split_ifs <;> omega

/-- A number at or above a power of two of the normal range rounds to at least that power. -/
theorem zpow_le_parseFloat64 {x : ℚ} {k : ℤ} (hk : -1022 ≤ k) (h : (2 : ℚ) ^ k ≤ x) :
    (2 : ℚ) ^ k ≤ parseFloat64 x := by
  have h2 : ∀ n : ℤ, (0 : ℚ) < 2 ^ n := zpow_pos two_pos
  have hx : 0 < x := (h2 k).trans_le h
  have hke : k ≤ Int.log 2 x := (Int.zpow_le_iff_le_log (by norm_num) hx).mp (by exact_mod_cast h)
  have hxe : (2 : ℚ) ^ Int.log 2 x ≤ x := by exact_mod_cast Int.zpow_log_le_self (b := 2) (by norm_num) hx
  have hu : float64UlpExp x = Int.log 2 x - 52 := by
    rw [float64UlpExp, abs_of_pos hx]
    omega
  have hsplit : (2 : ℚ) ^ Int.log 2 x = 2 ^ (52 : ℕ) * 2 ^ (Int.log 2 x - 52) := by
    rw [← zpow_natCast, ← zpow_add₀ two_ne_zero]
    congr 1
    omega
  have hy : ((2 ^ 52 : ℤ) : ℚ) ≤ x / 2 ^ (Int.log 2 x - 52) := by
    rw [le_div_iff₀ (h2 _)]
    push_cast
    linarith
  have hr : ((2 ^ 52 : ℤ) : ℚ) ≤ roundHalfEven (x / 2 ^ (Int.log 2 x - 52)) := by
    exact_mod_cast (Int.le_floor.mpr hy).trans (floor_le_roundHalfEven _)
  calc (2 : ℚ) ^ k ≤ 2 ^ Int.log 2 x := zpow_le_zpow_right₀ one_le_two hke
    _ = 2 ^ (52 : ℕ) * 2 ^ (Int.log 2 x - 52) := hsplit
    _ ≤ roundHalfEven (x / 2 ^ (Int.log 2 x - 52)) * 2 ^ (Int.log 2 x - 52) := by
      push_cast at hr
      exact mul_le_mul_of_nonneg_right hr (h2 _).le
    _ = parseFloat64 x := by rw [parseFloat64, hu]

/-- A number of at least `2 ^ 63` reads as `math.MinInt64` through `int(val.(float64))`: its
float64 does not fit in 64 bits. -/
theorem asInt_number_of_le {x : ℚ} (h : 2 ^ 63 ≤ x) : (JsonValue.number x).asInt = some (-2 ^ 63) := by
  have hf : (2 : ℚ) ^ (63 : ℤ) ≤ parseFloat64 x := zpow_le_parseFloat64 (by norm_num) (by exact_mod_cast h)
  have hpos : 0 ≤ parseFloat64 x := le_trans (by positivity) hf
  have ht : 2 ^ 63 ≤ (parseFloat64 x).num.tdiv (parseFloat64 x).den := by
    rw [Int.tdiv_eq_ediv (Rat.num_nonneg.mpr hpos) (Int.natCast_nonneg _), ← Rat.floor_def]
    exact Int.le_floor.mpr (by exact_mod_cast hf)
  simp only [JsonValue.asInt, JsonValue.asFloat64, Option.map_some', goInt64]
  rw [if_neg (by omega)]

theorem asInt_number_ofNat (n : ℕ) [n.AtLeastTwo] (h : n < 2 ^ 53) :
    (JsonValue.number (OfNat.ofNat n)).asInt = some (OfNat.ofNat n) := by
  simpa using @asInt_number_intCast n (by simpa using h)

@[simp] theorem asInt_number_zero : (JsonValue.number 0).asInt = some 0 := by
  simpa using @asInt_number_intCast 0 (by norm_num)

theorem asInt_number_one : (JsonValue.number 1).asInt = some 1 := by
  simpa using @asInt_number_intCast 1 (by norm_num)

/-- `0.99999999999999999` is stored as the float64 `1`, which `int` keeps. -/
example : (JsonValue.number (1 - 1 / 10 ^ 17)).asInt = some 1 := by
  have hlog : Int.log 2 |(1 - 1 / 10 ^ 17 : ℚ)| = -1 := by
    rw [abs_of_pos (by norm_num)]
    have h₁ : -1 ≤ Int.log 2 (1 - 1 / 10 ^ 17 : ℚ) :=
      (Int.zpow_le_iff_le_log (by norm_num) (by norm_num)).mp (by norm_num)
    have h₂ : Int.log 2 (1 - 1 / 10 ^ 17 : ℚ) < 0 :=
      (Int.lt_zpow_iff_log_lt (by norm_num) (by norm_num)).mp (by norm_num)
    omega
  have hfl : ⌊((1 - 1 / 10 ^ 17 : ℚ) / 2 ^ (-53 : ℤ))⌋ = 2 ^ 53 - 1 := by
    rw [Int.floor_eq_iff]
    norm_num
  have hf : parseFloat64 (1 - 1 / 10 ^ 17) = 1 := by
    simp only [parseFloat64, float64UlpExp, hlog, roundHalfEven]
    norm_num [hfl]
  simp only [JsonValue.asInt, JsonValue.asFloat64, hf, Option.map_some']
  rfl

/-- `1e20` does not fit in 64 bits: it reads as `math.MinInt64`. -/
example : (JsonValue.number (10 ^ 20)).asInt = some (-2 ^ 63) := asInt_number_of_le (by norm_num)

/-- `time.Second`, in nanoseconds. -/
def second : Int := 1000000000

/-- The `Producer` fields that the settings part of `parseDepcfg` writes. -/
structure Producer where
  cleanupTimers : Bool
  dcpStreamBoundary : String
  logLevel : String
  statsTickDuration : Int
  workerCount : Int
  timerWorkerPoolSize : Int
  socketWriteBatchSize : Int
  skipTimerThreshold : Int
  rbacUser : String
  rbacPass : String
  lcbInstCapacity : Int
  enableRecursiveMutation : Bool
  socketTimeout : Int
  vbOwnershipGiveUpRoutineCount : Int
  vbOwnershipTakeoverRoutineCount : Int
  executionTimeout : Int
  fuzzOffset : Int
  cppWorkerThrCount : Int
  plasmaMemQuota : Int
  xattrEntryPruneThreshold : Int
  appLogPath : String
  appLogMaxSize : Int
  appLogMaxFiles : Int
  curlTimeout : Int
  workerQueueCap : Int
  appSettings : GoMap String JsonValue
  kvHostPorts : List String
  nsServerHostPort : String

/-- What the rest of the node answers: its names and the two cluster calls. -/
structure DepcfgEnv where
  appName : String
  eventingDir : String
  nsServerPort : String
  localEventingServiceHost : String × Option String
  kvNodesAddresses : List String × Option String

/-- The errors of the settings part: an `fmt.Errorf` text, `errorUnexpectedWorkerCount`
(whose text lies outside the sources), or a cluster call's error. -/
inductive DepcfgError
  | msg (text : String)
  | unexpectedWorkerCount
  | cluster (err : String)

/-- The end of a run: the producer, the text passed to `util.GetLogLevel` for
`logging.SetLogLevel` if reached, the directories given to `os.MkdirAll`, and the error. -/
structure DepcfgRun where
  producer : Producer
  logLevelSet : Option String
  dirs : List String
  err : Option DepcfgError

/-- A block `if val, ok := settings[key]; ok { ... } else { ... }` of `parseDepcfg` that writes
one field: `apply p (settings[key])` is the producer after it, `none` on a failed assertion.
It carries the JSON value `dfltJson` on which its present branch does what its absent branch
does. -/
structure SettingField where
  key : String
  apply : Producer → Option JsonValue → Option Producer
  dfltJson : JsonValue
  apply_dfltJson : ∀ p, apply p (some dfltJson) = apply p none

/-- The block for `key` that sets a field with `set` to `conv(val.(T))`, or to `dflt` when `key`
is absent. -/
def SettingField.ofConv {α : Type} (key : String) (dflt : α) (conv : JsonValue → Option α)
    (set : Producer → α → Producer) (dfltJson : JsonValue) (h : conv dfltJson = some dflt) :
    SettingField where
  key := key
  apply p v := (match v with
    | none => some dflt
    | some v => conv v).map (set p)
  dfltJson := dfltJson
  apply_dfltJson p := by simp only [h]

/-- The blocks before the credentials, in the order of the source. -/
def settingsBeforeRbac : List SettingField :=
  [.ofConv "cleanup_timers" false JsonValue.asBool (fun p v => { p with cleanupTimers := v })
      (.bool false) rfl,
    .ofConv "dcp_stream_boundary" "everything" JsonValue.asString
      (fun p v => { p with dcpStreamBoundary := v }) (.string "everything") rfl,
    .ofConv "log_level" "INFO" JsonValue.asString (fun p v => { p with logLevel := v })
      (.string "INFO") rfl,
    .ofConv "tick_duration" (5000 : Int) JsonValue.asInt
      (fun p v => { p with statsTickDuration := v }) (.number 5000) (asInt_number_ofNat _ (by norm_num)),
    .ofConv "worker_count" (3 : Int) JsonValue.asInt (fun p v => { p with workerCount := v })
      (.number 3) (asInt_number_ofNat _ (by norm_num)),
    .ofConv "timer_worker_pool_size" (3 : Int) JsonValue.asInt
      (fun p v => { p with timerWorkerPoolSize := v }) (.number 3) (asInt_number_ofNat _ (by norm_num)),
    .ofConv "sock_batch_size" (100 : Int) JsonValue.asInt
      (fun p v => { p with socketWriteBatchSize := v }) (.number 100) (asInt_number_ofNat _ (by norm_num)),
    .ofConv "skip_timer_threshold" (86400 : Int) JsonValue.asInt
      (fun p v => { p with skipTimerThreshold := v }) (.number 86400) (asInt_number_ofNat _ (by norm_num))]

/-- The blocks from `lcb_inst_capacity` to `xattr_doc_timer_entry_prune_threshold`. -/
def settingsAfterRbac : List SettingField :=
  [.ofConv "lcb_inst_capacity" (5 : Int) JsonValue.asInt
      (fun p v => { p with lcbInstCapacity := v }) (.number 5) (asInt_number_ofNat _ (by norm_num)),
    .ofConv "enable_recursive_mutation" false JsonValue.asBool
      (fun p v => { p with enableRecursiveMutation := v }) (.bool false) rfl,
    .ofConv "deadline_timeout" (2 * second) (fun v => v.asInt.map fun d => (d * second).bmod (2 ^ 64))
      (fun p v => { p with socketTimeout := v }) (.number 2)
      (by simp only [asInt_number_ofNat 2 (by norm_num), Option.map_some']; rfl),
    .ofConv "vb_ownership_giveup_routine_count" (3 : Int) JsonValue.asInt
      (fun p v => { p with vbOwnershipGiveUpRoutineCount := v }) (.number 3) (asInt_number_ofNat _ (by norm_num)),
    .ofConv "vb_ownership_takeover_routine_count" (3 : Int) JsonValue.asInt
      (fun p v => { p with vbOwnershipTakeoverRoutineCount := v }) (.number 3) (asInt_number_ofNat _ (by norm_num)),
    .ofConv "execution_timeout" (1 : Int) JsonValue.asInt
      (fun p v => { p with executionTimeout := v }) (.number 1) asInt_number_one,
    .ofConv "fuzz_offset" (30 : Int) JsonValue.asInt (fun p v => { p with fuzzOffset := v })
      (.number 30) (asInt_number_ofNat _ (by norm_num)),
    .ofConv "cpp_worker_thread_count" (1 : Int) JsonValue.asInt
      (fun p v => { p with cppWorkerThrCount := v }) (.number 1) asInt_number_one,
    .ofConv "memory_quota" (256 : Int) JsonValue.asInt (fun p v => { p with plasmaMemQuota := v })
      (.number 256) (asInt_number_ofNat _ (by norm_num)),
    .ofConv "xattr_doc_timer_entry_prune_threshold" (100 : Int) JsonValue.asInt
      (fun p v => { p with xattrEntryPruneThreshold := v }) (.number 100) (asInt_number_ofNat _ (by norm_num))]

/-- The blocks after `app_log_dir`. -/
def settingsAfterLogDir : List SettingField :=
  [.ofConv "app_log_max_size" (1024 * 1024 * 10 : Int) JsonValue.asInt
      (fun p v => { p with appLogMaxSize := v }) (.number 10485760)
      ((asInt_number_ofNat 10485760 (by norm_num)).trans (by norm_num)),
    .ofConv "app_log_max_files" (10 : Int) JsonValue.asInt
      (fun p v => { p with appLogMaxFiles := v }) (.number 10) (asInt_number_ofNat _ (by norm_num)),
    .ofConv "curl_timeout" (500 : Int) JsonValue.asInt (fun p v => { p with curlTimeout := v })
      (.number 500) (asInt_number_ofNat _ (by norm_num)),
    .ofConv "worker_queue_cap" (1000 * 1000 : Int) JsonValue.asInt
      (fun p v => { p with workerQueueCap := v }) (.number 1000000)
      ((asInt_number_ofNat 1000000 (by norm_num)).trans (by norm_num))]

/-- Run the blocks `fields` in order. -/
def applyFields (settings : GoMap String JsonValue) (fields : List SettingField) (p : Producer) :
    Option Producer :=
  fields.foldlM (fun p f => f.apply p (settings.lookup f.key)) p

/-- The `app_log_dir` block: the directory given to `os.MkdirAll` and the log path. -/
def appLogDir (env : DepcfgEnv) (settings : GoMap String JsonValue) : Option (String × String) :=
  match settings.lookup "app_log_dir" with
  | some v => v.asString.map fun d => (d, d ++ "/" ++ env.appName)
  | none => some (env.eventingDir, env.eventingDir ++ "/" ++ env.appName ++ ".log")

/-- The end of `parseDepcfg`, after `logging.SetLogLevel(level)`: the worker count check and
the two cluster calls. -/
def finishParseDepcfg (env : DepcfgEnv) (p : Producer) (level dir : String) : DepcfgRun :=
  if p.workerCount ≤ 0 then ⟨p, some level, [dir], some .unexpectedWorkerCount⟩
  else match env.localEventingServiceHost with
    | (_, some e) => ⟨p, some level, [dir], some (.cluster e)⟩
    | (localAddress, none) =>
      let p := { p with kvHostPorts := env.kvNodesAddresses.1 }
      match env.kvNodesAddresses.2 with
      | some e => ⟨p, some level, [dir], some (.cluster e)⟩
      | none => ⟨{ p with nsServerHostPort := localAddress ++ ":" ++ env.nsServerPort },
          some level, [dir], none⟩

/-- The settings part of `Producer.parseDepcfg`, from the unmarshalled object on. -/
def parseDepcfg (env : DepcfgEnv) (settings : GoMap String JsonValue) (p : Producer) :
    Option DepcfgRun := do
  let p ← applyFields settings settingsBeforeRbac p
  let some user := settings.lookup "rbacuser"
    | return ⟨p, none, [], some (.msg "rbac username missing")⟩
  let p := { p with rbacUser := ← user.asString }
  let some pass := settings.lookup "rbacpass"
    | return ⟨p, none, [], some (.msg "rbac password missing")⟩
  let p ← applyFields settings settingsAfterRbac { p with rbacPass := ← pass.asString }
  let (dir, appLogPath) ← appLogDir env settings
  let p ← applyFields settings settingsAfterLogDir { p with appLogPath }
  let level ← (settings.lookup "log_level").bind JsonValue.asString
  return finishParseDepcfg env { p with appSettings := settings } level dir

end Eventing

namespace Eventing

/-- Without `log_level`, the final `settings["log_level"].(string)` panics, while the same
object with the default `"INFO"` loads. -/
theorem parseDepcfg_without_log_level (env : DepcfgEnv) (p : Producer) :
    let S := ((∅ : GoMap String JsonValue).insert "rbacuser" (.string "u")).insert "rbacpass"
      (.string "p")
    parseDepcfg env S p = none ∧ (parseDepcfg env (S.insert "log_level" (.string "INFO")) p).isSome := by
  simp [parseDepcfg, applyFields, settingsBeforeRbac, settingsAfterRbac, settingsAfterLogDir,
    SettingField.ofConv, appLogDir, GoMap.lookup_insert_eq, -AList.insert_empty, AList.lookup_empty,
    JsonValue.asString]

end Eventing
