import Mathlib.Data.Nat.Log
import Qtrade.Lib.Json
import Qtrade.Lib.Joined
import Qtrade.Lib.Table

/-!
# Service endpoints in a configuration

`service_config.cpp`: the fixed fields of an endpoint and its extensions, which are all texts. An integer of a
document has 64 bits, with a sign or without, and is converted as C++ does.
-/

namespace Qtrade.Config

/-! ## What a stream makes of a `double` -/

/-- The first six digits of a positive number, rounded to the nearest and halves to the even one, and the exponent of
the first. -/
def sixDigits (q : ℚ) : Nat × Int :=
  let exponent : Int := if 1 ≤ q then Nat.log 10 q.floor.toNat else -Nat.clog 10 q⁻¹.ceil.toNat
  let scaled := q * (10 : ℚ) ^ (5 - exponent)
  let rest := scaled - scaled.floor
  let rounded := if rest < 1 / 2 ∨ (rest = 1 / 2 ∧ scaled.floor % 2 = 0) then scaled.floor else scaled.floor + 1
  if rounded = 1000000 then (100000, exponent + 1) else (rounded.toNat, exponent)

/-- The digits behind the point, without the zeros at the end. -/
def fraction (digits : List Char) : String :=
  let kept := (digits.reverse.dropWhile (· == '0')).reverse
  if kept.isEmpty then "" else "." ++ String.ofList kept

/-- A positive number in the general format. -/
def generalText (q : ℚ) : String :=
  let digits := (toString (sixDigits q).1).toList
  let exponent := (sixDigits q).2
  if exponent < -4 ∨ 6 ≤ exponent then
    String.ofList (digits.take 1) ++ fraction (digits.drop 1) ++ (if exponent < 0 then "e-" else "e+") ++
      (if exponent.natAbs < 10 then "0" else "") ++ toString exponent.natAbs
  else if exponent < 0 then
    "0" ++ fraction (List.replicate (exponent.natAbs - 1) '0' ++ digits)
  else String.ofList (digits.take (exponent.toNat + 1)) ++ fraction (digits.drop (exponent.toNat + 1))

def streamed : Double → String
  | .fin q => if q = 0 then "0" else if q < 0 then "-" ++ generalText (-q) else generalText q
  | .inf negative => if negative then "-inf" else "inf"
  | .nan => "nan"

/-! ## The endpoint -/

structure ServiceConfig where
  host : String := "0.0.0.0"
  port : Int32 := 0
  enabled : Bool := true
  timeoutMs : Int32 := 0
  extensions : Table String String := ∅

def ServiceConfig.extension (s : ServiceConfig) (key : String) : Option String := s.extensions.lookup key

def kHost : String := "host"

def kPort : String := "port"

def kEnabled : String := "enabled"

def kTimeoutMs : String := "timeout_ms"

def isFixed (key : String) : Bool := key == kHost || key == kPort || key == kEnabled || key == kTimeoutMs

/-- The test for an integer comes before the one for an unsigned number, and holds of that, too. -/
def jsonScalarToString (value : Json) : Option String :=
  if let some text := value.string? then some text
  else if let some flag := value.boolean? then some (if flag then "true" else "false")
  else if let some number := value.integer? then some (toString (Int64.ofInt number).toInt)
  else
    match value with
    | .numberUnsigned number => some (toString number.toNat)
    | .numberFloat number => some (streamed number)
    | .null => some ""
    | _ => none

/-- A fixed field: the default where it is absent, and nothing where its type is wrong. -/
def fixedField {α : Type} (endpoint : Json) (key : String) (read : Json → Option α) (default : α) : Option α :=
  match endpoint.member? key with
  | none => some default
  | some value => read value

/-- `get<int>` of an integer. -/
def getInt (value : Json) : Option Int32 := value.integer?.map Int32.ofInt

/-- `emplace` keeps what is there. -/
def addExtension (extensions : Table String String) (member : String × Json) : Option (Table String String) :=
  if isFixed member.1 then some extensions
  else
    (jsonScalarToString member.2).map fun text =>
      if (extensions.lookup member.1).isSome then extensions else extensions.insert member.1 text

def parseServiceEndpoint (endpoint : Json) : Option ServiceConfig :=
  if !endpoint.isObject then none
  else do
    let host ← fixedField endpoint kHost Json.string? "0.0.0.0"
    let port ← fixedField endpoint kPort getInt 0
    let enabled ← fixedField endpoint kEnabled Json.boolean? true
    let timeoutMs ← fixedField endpoint kTimeoutMs getInt 0
    let extensions ← endpoint.members.foldlM addExtension ∅
    if host = "" ∨ port ≤ 0 then none else some { host, port, enabled, timeoutMs, extensions }

/-! ## What a configuration says of its document -/

/-- A configuration that was parsed: its fields are read, and it can be used. -/
structure Parsed (endpoint : Json) (config : ServiceConfig) : Prop where
  object : endpoint.isObject = true
  host : fixedField endpoint kHost Json.string? "0.0.0.0" = some config.host
  port : fixedField endpoint kPort getInt 0 = some config.port
  enabled : fixedField endpoint kEnabled Json.boolean? true = some config.enabled
  timeoutMs : fixedField endpoint kTimeoutMs getInt 0 = some config.timeoutMs
  extensions : endpoint.members.foldlM addExtension ∅ = some config.extensions
  reachable : config.host ≠ "" ∧ 0 < config.port

theorem parseServiceEndpoint_iff {endpoint : Json} {config : ServiceConfig} :
    parseServiceEndpoint endpoint = some config ↔ Parsed endpoint config := by
  unfold parseServiceEndpoint
  constructor
  · intro h
    split at h
    case isTrue => cases h
    case isFalse hobject =>
      simp only [Option.bind_eq_bind, Option.bind_eq_some_iff] at h
      obtain ⟨host, hhost, port, hport, enabled, henabled, timeoutMs, htimeout, extensions, hextensions, h⟩ := h
      split at h
      case isTrue => cases h
      case isFalse hgood =>
        cases h
        rw [not_or, Int32.not_le] at hgood
        exact ⟨by simpa using hobject, hhost, hport, henabled, htimeout, hextensions, hgood⟩
  · rintro ⟨hobject, hhost, hport, henabled, htimeout, hextensions, hgood⟩
    have hreachable : ¬(config.host = "" ∨ config.port ≤ 0) := by
      rw [not_or, Int32.not_le]
      exact hgood
    simp [hobject, hhost, hport, henabled, htimeout, hextensions, hreachable]

/-! ## Numbers -/

/-- The port and the timeout are the integers of the document, and an integer among the extensions is written out. -/
structure KeepsNumbers (endpoint : Json) (config : ServiceConfig) : Prop where
  port : ∀ value ∈ endpoint.member? kPort, ∀ number ∈ value.integer?, config.port.toInt = number
  timeoutMs : ∀ value ∈ endpoint.member? kTimeoutMs, ∀ number ∈ value.integer?, config.timeoutMs.toInt = number
  extensions : ∀ key, isFixed key = false → ∀ value ∈ endpoint.member? key, ∀ number ∈ value.integer?,
    config.extension key = some (toString number)

/-- The integers of the document are within `int`, and those of the extensions within 64 bits with a sign. -/
structure WithinRange (endpoint : Json) : Prop where
  port : ∀ value ∈ endpoint.member? kPort, ∀ number ∈ value.integer?, -2 ^ 31 ≤ number ∧ number < 2 ^ 31
  timeoutMs : ∀ value ∈ endpoint.member? kTimeoutMs, ∀ number ∈ value.integer?, -2 ^ 31 ≤ number ∧ number < 2 ^ 31
  extensions : ∀ key, isFixed key = false → ∀ value ∈ endpoint.member? key, ∀ number ∈ value.integer?, number < 2 ^ 63

theorem int32_exact_iff (number : Int) :
    (Int32.ofInt number).toInt = number ↔ -2 ^ 31 ≤ number ∧ number < 2 ^ 31 := by
  constructor
  · intro h
    rw [← h]
    exact ⟨Int32.le_toInt _, Int32.toInt_lt _⟩
  · rintro ⟨hlow, hhigh⟩
    exact Int32.toInt_ofInt_of_le hlow hhigh

theorem integer?_ge {value : Json} {number : Int} (h : value.integer? = some number) : -2 ^ 63 ≤ number := by
  cases value with
  | numberInteger value =>
    cases h
    exact Int64.le_toInt value
  | numberUnsigned value =>
    cases h
    omega
  | _ => cases h

theorem int64_exact_iff {value : Json} {number : Int} (h : value.integer? = some number) :
    (Int64.ofInt number).toInt = number ↔ number < 2 ^ 63 := by
  constructor
  · intro hsame
    rw [← hsame]
    exact Int64.toInt_lt _
  · exact Int64.toInt_ofInt_of_le (integer?_ge h)

theorem jsonScalarToString_integer {value : Json} {number : Int} (h : value.integer? = some number) :
    jsonScalarToString value = some (toString (Int64.ofInt number).toInt) := by
  unfold jsonScalarToString
  cases value <;> simp_all [Json.string?, Json.boolean?, Json.integer?]

theorem lookup_extensions {members : List (String × Json)} {start extensions : Table String String} {key : String}
    (h : members.foldlM addExtension start = some extensions) (hkey : isFixed key = false) :
    extensions.lookup key = (start.lookup key).or ((members.lookup key).bind jsonScalarToString) := by
  induction members generalizing start with
  | nil =>
    cases h
    simp
  | cons member rest ih =>
    obtain ⟨name, value⟩ := member
    rw [List.foldlM_cons, Option.bind_eq_bind, Option.bind_eq_some_iff] at h
    obtain ⟨next, hnext, h⟩ := h
    rw [ih h, List.lookup_cons]
    unfold addExtension at hnext
    by_cases hname : key = name
    · subst hname
      rw [hkey, if_neg Bool.false_ne_true, Option.map_eq_some_iff] at hnext
      obtain ⟨text, htext, rfl⟩ := hnext
      cases hstart : start.lookup key with
      | some old => simp [hstart]
      | none => simp [htext]
    · rw [beq_false_of_ne hname]
      have hsame : next.lookup key = start.lookup key := by
        split at hnext
        case isTrue =>
          cases hnext
          rfl
        case isFalse =>
          obtain ⟨text, -, rfl⟩ := Option.map_eq_some_iff.mp hnext
          split
          · rfl
          · rw [Table.lookup_store, if_neg hname]
      rw [hsame]

theorem fixedField_integer {endpoint value : Json} {key : String} {default result : Int32} {number : Int}
    (h : fixedField endpoint key getInt default = some result) (hvalue : endpoint.member? key = some value)
    (hnumber : value.integer? = some number) : result = Int32.ofInt number := by
  unfold fixedField getInt at h
  rw [hvalue] at h
  dsimp only at h
  rw [hnumber] at h
  exact (Option.some.inj h).symm

namespace Parsed

variable {endpoint : Json} {config : ServiceConfig}

theorem extension_integer (h : Parsed endpoint config) {key : String} (hkey : isFixed key = false) {value : Json}
    (hvalue : endpoint.member? key = some value) {number : Int} (hnumber : value.integer? = some number) :
    config.extension key = some (toString (Int64.ofInt number).toInt) := by
  unfold Json.member? at hvalue
  unfold ServiceConfig.extension
  rw [lookup_extensions h.extensions hkey, hvalue, Option.bind_some, jsonScalarToString_integer hnumber]
  rfl

end Parsed

/-- A configuration keeps the numbers of its document if and only if they are within the ranges of their types. -/
theorem numbers_kept_iff {endpoint : Json} {config : ServiceConfig}
    (parsed : parseServiceEndpoint endpoint = some config) : KeepsNumbers endpoint config ↔ WithinRange endpoint := by
  have h := parseServiceEndpoint_iff.mp parsed
  constructor
  · rintro ⟨hport, htimeout, hextensions⟩
    refine ⟨fun value hvalue number hnumber => ?_, fun value hvalue number hnumber => ?_,
      fun key hkey value hvalue number hnumber => ?_⟩
    · have hsame := hport value hvalue number hnumber
      rwa [fixedField_integer h.port hvalue hnumber, int32_exact_iff] at hsame
    · have hsame := htimeout value hvalue number hnumber
      rwa [fixedField_integer h.timeoutMs hvalue hnumber, int32_exact_iff] at hsame
    · have hsame := hextensions key hkey value hvalue number hnumber
      rw [h.extension_integer hkey hvalue hnumber] at hsame
      exact (int64_exact_iff hnumber).mp (Joined.toString_int_injective (Option.some.inj hsame))
  · rintro ⟨hport, htimeout, hextensions⟩
    refine ⟨fun value hvalue number hnumber => ?_, fun value hvalue number hnumber => ?_,
      fun key hkey value hvalue number hnumber => ?_⟩
    · rw [fixedField_integer h.port hvalue hnumber, int32_exact_iff]
      exact hport value hvalue number hnumber
    · rw [fixedField_integer h.timeoutMs hvalue hnumber, int32_exact_iff]
      exact htimeout value hvalue number hnumber
    · rw [h.extension_integer hkey hvalue hnumber,
        (int64_exact_iff hnumber).mpr (hextensions key hkey value hvalue number hnumber)]

/-- An endpoint whose numbers are at the ends of their ranges. -/
def atTheEnds : Json :=
  .object [("port", .numberUnsigned 2147483647), ("timeout_ms", .numberInteger (-2147483648)),
    ("id", .numberUnsigned 9223372036854775807)]

theorem atTheEnds_within : WithinRange atTheEnds := by
  refine ⟨?_, ?_, ?_⟩
  · rintro _ ⟨⟩ _ ⟨⟩
    decide
  · rintro _ ⟨⟩ _ ⟨⟩
    decide
  · intro key hkey value hvalue number hnumber
    simp only [atTheEnds, Json.member?, Json.members, List.lookup_cons, List.lookup_nil] at hvalue
    split at hvalue
    case h_1 => cases hvalue; cases hnumber; decide
    case h_2 =>
      split at hvalue
      case h_1 => cases hvalue; cases hnumber; decide
      case h_2 =>
        split at hvalue
        case h_1 => cases hvalue; cases hnumber; decide
        case h_2 => cases hvalue

theorem numbers_kept_ends : ∃ config, parseServiceEndpoint atTheEnds = some config ∧
    config.timeoutMs.toInt = -2147483648 ∧ config.extension "id" = some "9223372036854775807" := by
  have hsome : (parseServiceEndpoint atTheEnds).isSome = true := by decide +kernel
  obtain ⟨config, hconfig⟩ := Option.isSome_iff_exists.mp hsome
  have hkept := (numbers_kept_iff hconfig).mpr atTheEnds_within
  exact ⟨config, hconfig, hkept.timeoutMs _ rfl _ rfl, hkept.extensions "id" (by decide) _ rfl _ rfl⟩

/-- A port beyond `int` and an id beyond 63 bits. -/
def beyond : Json := .object [("port", .numberUnsigned 4294967377), ("id", .numberUnsigned 18446744073709551615)]

/-- The port becomes 81, and the id -1. -/
theorem numbers_wrapped : ¬∀ (endpoint : Json) (config : ServiceConfig),
    parseServiceEndpoint endpoint = some config → KeepsNumbers endpoint config := by
  intro hall
  have hwrapped : (parseServiceEndpoint beyond).map (·.port.toInt) = some 81 := by decide +kernel
  obtain ⟨config, hconfig, hport⟩ := Option.map_eq_some_iff.mp hwrapped
  have hkept := (hall beyond config hconfig).port _ rfl _ rfl
  rw [hport] at hkept
  revert hkept
  decide

end Qtrade.Config
