import Lodestar.Agent.Json

/-!
# The inference message

The gateway describes a request to the routing agent in one line of fields, separated by `@`
(`Route` of `pkg/plugins/gateway/algorithms/rl_routing.go`).  The agent splits the line again and
guesses the type of each value from its text (`_parse_log_to_dict` of
`agent_codes/preprocess.py`).

Strings are sequences of characters.  The characters that Python takes for digits are a
parameter, and so is `json.loads`.
-/

namespace Lodestar.Agent

/-! ### Writing -/

/-- What the gateway writes into a field: a string, `%d`, `%f` with its six decimals, or the JSON
text of a map. -/
inductive FieldValue where
  | text (s : Text)
  | int (n : ℤ)
  | float (negative : Bool) (micros : ℕ)
  | map (m : PodMap)

def decimals : ℕ → ℕ → Text
  | 0, _ => []
  | k + 1, n => decimals k (n / 10) ++ [Nat.digitChar (n % 10)]

def FieldValue.written : FieldValue → Text
  | .text s => s
  | .int (.ofNat n) => Nat.toDigits 10 n
  | .int (.negSucc n) => '-' :: Nat.toDigits 10 (n + 1)
  | .float negative micros => (if negative then ['-'] else []) ++
      Nat.toDigits 10 (micros / 1000000) ++ '.' :: decimals 6 micros
  | .map m => m.jsonStringify

/-- What the gateway knows of a request when it asks the agent. -/
structure InferenceRecord where
  requestID : Text
  normalizedRequestStartTime : ℤ
  numInputTokens : ℕ
  allPodsKvCacheHitRatios : PodMap
  allPodsKvCacheLastAccess : PodMap
  prefixGroupHash : UInt64
  numInflightRequestsAllPods : PodMap
  numInflightPrefillRequestsAllPods : PodMap
  numInflightDecodeRequestsAllPods : PodMap
  vllmGPUKVCacheUsage : PodMap
  vllmNumRequestsRunning : PodMap
  vllmNumRequestWaiting : PodMap
  vllmNumPreemptions : PodMap
  numPrefillTokensForAllPods : PodMap
  numDecodeTokensForAllPods : PodMap
  subAlgorithm : Text
  /-- The sign of the reward and its number of millionths. -/
  prevReward : Bool × ℕ
  gpuModelMap : PodMap

namespace InferenceRecord

def expectedNumOutputTokens : ℕ := 100

def unknown : FieldValue := .text "-9999".toList

def fields (r : InferenceRecord) : List (Text × FieldValue) :=
  [("requestID".toList, .text r.requestID),
   ("request_start_time".toList, .int r.normalizedRequestStartTime),
   ("request_end_time".toList, unknown),
   ("selectedpod".toList, unknown),
   ("ttft".toList, unknown),
   ("avg_tpot".toList, unknown),
   ("total_decode_time".toList, unknown),
   ("e2e".toList, unknown),
   ("numInputTokens".toList, .int r.numInputTokens),
   ("numOutputTokens".toList, .int expectedNumOutputTokens),
   ("numTotalTokens".toList, .int (r.numInputTokens + expectedNumOutputTokens : ℕ)),
   ("allPodsKvCacheHitRatios".toList, .map r.allPodsKvCacheHitRatios),
   ("allPodsKvCacheLastAccess".toList, .map r.allPodsKvCacheLastAccess),
   ("hashOfMatchedPrefix".toList, .int r.prefixGroupHash.toNat),
   ("numInflightRequestsAllPods".toList, .map r.numInflightRequestsAllPods),
   ("numInflightPrefillRequestsAllPods".toList, .map r.numInflightPrefillRequestsAllPods),
   ("numInflightDecodeRequestsAllPods".toList, .map r.numInflightDecodeRequestsAllPods),
   ("vllmGPUKVCacheUsage".toList, .map r.vllmGPUKVCacheUsage),
   ("vllmCPUKVCacheUsage".toList, .map ∅),
   ("vllmNumRequestsRunning".toList, .map r.vllmNumRequestsRunning),
   ("vllmNumRequestsWaiting".toList, .map r.vllmNumRequestWaiting),
   ("vllmNumPreemptions".toList, .map r.vllmNumPreemptions),
   ("numPrefillTokensForAllPods".toList, .map r.numPrefillTokensForAllPods),
   ("numDecodeTokensForAllPods".toList, .map r.numDecodeTokensForAllPods),
   ("subAlgorithm".toList, .text r.subAlgorithm),
   ("prev_reward".toList, .float r.prevReward.1 r.prevReward.2),
   ("GPU".toList, .map r.gpuModelMap)]

def logMessage (r : InferenceRecord) : Text :=
  "**@latency_metrics@".toList ++ ['@'].intercalate (r.fields.flatMap fun f => [f.1, f.2.written])

end InferenceRecord

/-! ### Reading -/

/-- The digits of Python: `isDigit` is `str.isdigit`, and `value` is what `int` and `float` make of
a character.  A superscript digit has no value. -/
structure Digits where
  isDigit : Char → Bool
  value : Char → Option ℕ
  isDigit_ascii : ∀ c : Char, c.toNat < 128 → isDigit c = c.isDigit
  value_ascii : ∀ c : Char, c.isDigit = true → value c = some (c.toNat - '0'.toNat)
  isDigit_of_value : ∀ c d, value c = some d → isDigit c = true

def Digits.ascii : Digits where
  isDigit c := c.isDigit
  value c := if c.isDigit then some (c.toNat - '0'.toNat) else none
  isDigit_ascii _ _ := rfl
  value_ascii _ h := if_pos h
  isDigit_of_value c d h := by
    split at h
    · assumption
    · simp at h

inductive Value where
  | str (s : Text)
  | int (n : ℤ)
  | float (q : ℚ)
  | json (j : Json)

section

variable (py : Digits) (json : PythonJson)

def isdigit (s : Text) : Bool := !s.isEmpty && s.all py.isDigit

def natValue (s : Text) : Option ℕ :=
  (s.mapM py.value).map fun ds => ds.foldl (fun n d => 10 * n + d) 0

/-- `float` of a text with one point and no sign; the rounding to a double is left out. -/
def unsignedFloat (s : Text) : Option ℚ :=
  let whole := s.takeWhile (· ≠ '.')
  let fraction := (s.dropWhile (· ≠ '.')).tail
  if whole.isEmpty && fraction.isEmpty then none
  else
    match natValue py whole, natValue py fraction with
    | some a, some b => some (a + b / 10 ^ fraction.length)
    | _, _ => none

/-- `float` of a text with one point. -/
def pyFloat (s : Text) : Option ℚ :=
  if s.head? = some '-' then (unsignedFloat py s.tail).map (-·) else unsignedFloat py s

/-- `_fast_parse_value`; `none` stands for the exception of `int`. -/
def fastParseValue (value : Text) : Option Value :=
  if value.isEmpty then some (.str value)
  else if isdigit py value then (natValue py value).map fun n => .int n
  else if value.count '.' = 1 && isdigit py (value.filter fun c => c ≠ '.' ∧ c ≠ '-') then
    match pyFloat py value with
    | some q => some (.float q)
    | none => some (.str value)
  else some (.str value)

/-- `value.replace` of an escaped quote by a quote. -/
def replaceEscapedQuotes : Text → Text
  | '\\' :: '"' :: t => '"' :: replaceEscapedQuotes t
  | c :: t => c :: replaceEscapedQuotes t
  | [] => []

def inBraces (value : Text) : Bool := value.head? = some '{' && value.getLast? = some '}'

def parseValue (value : Text) : Option (Value × Bool) :=
  if inBraces value then
    let value := replaceEscapedQuotes value
    match json.loads value with
    | some j => some (.json j, true)
    | none => some (.str value, false)
  else (fastParseValue py value).map fun v => (v, false)

/-- The fields read so far, and the names of those that were JSON. -/
abbrev Row := AList (fun _ : Text => Value)

def readParts : List Text → Row × List Text → Option (Row × List Text)
  | key :: value :: parts, (row, jsonColumns) =>
    match parseValue py json value with
    | none => none
    | some (v, isJson) =>
      readParts parts (row.insert key v, if isJson then jsonColumns ++ [key] else jsonColumns)
  | _, acc => some acc

def afterFirst (pattern : Text) : Text → Option Text
  | [] => if pattern.isEmpty then some [] else none
  | c :: t =>
    if pattern.isPrefixOf (c :: t) then some ((c :: t).drop pattern.length)
    else afterFirst pattern t

/-- `_parse_log_to_dict`; `none` stands for an exception. -/
def parseLogToDict (logMessage : Text) : Option (Row × List Text) :=
  if (afterFirst "latency_metrics".toList logMessage).isNone then some (∅, [])
  else
    match afterFirst "latency_metrics@".toList logMessage with
    | none => some (∅, [])
    | some t => readParts py json (t.splitOn '@') (∅, [])

end

def FieldValue.value : FieldValue → Value
  | .text s => .str s
  | .int n => .int n
  | .float negative micros =>
    let q : ℚ := micros / 1000000
    .float (if negative then -q else q)
  | .map m => .json m.json

end Lodestar.Agent
