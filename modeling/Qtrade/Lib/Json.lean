import Qtrade.Lib.Double

/-!
# JSON values

The values that a parser makes of a document, with integers of 64 bits, and the accesses that answer `none` or throw.
A key that occurs twice is read where it occurs first.
-/

inductive Json
  | null
  | boolean (value : Bool)
  | string (value : String)
  | numberInteger (value : Int64)
  | numberUnsigned (value : UInt64)
  | numberFloat (value : Double)
  | array (items : List Json)
  | object (members : List (String × Json))

namespace Json

def isObject : Json → Bool
  | .object _ => true
  | _ => false

def isArray : Json → Bool
  | .array _ => true
  | _ => false

/-- Of what is no object, there are none. -/
def members : Json → List (String × Json)
  | .object members => members
  | _ => []

/-- Of what is no array, there are none. -/
def items : Json → List Json
  | .array items => items
  | _ => []

/-- The value under a key. -/
def member? (json : Json) (key : String) : Option Json := json.members.lookup key

def string? : Json → Option String
  | .string value => some value
  | _ => none

def boolean? : Json → Option Bool
  | .boolean value => some value
  | _ => none

/-- The integer that is meant. A number that is unsigned is an integer, too. -/
def integer? : Json → Option Int
  | .numberInteger value => some value.toInt
  | .numberUnsigned value => some value.toNat
  | _ => none

/-! ## The access that throws -/

inductive Error
  | typeError
deriving DecidableEq

/-- The text under a key, or the default where there is nothing. It throws where there is anything else, and on what
is no object. -/
def value (json : Json) (key default : String) : Except Error String :=
  match json with
  | .object members =>
    match members.lookup key with
    | none => .ok default
    | some (.string value) => .ok value
    | some _ => .error .typeError
  | _ => .error .typeError

/-- There is a text under the key, or nothing. -/
def textOrAbsent (json : Json) (key : String) : Bool :=
  json.isObject && (json.member? key).all (·.string?.isSome)

/-- There is a text under the key that is not empty. -/
def hasText (json : Json) (key : String) : Bool := ((json.member? key).bind string?).any (· != "")

/-- The text under a key, and the default where there is none. -/
def textOr (json : Json) (key default : String) : String := ((json.member? key).bind string?).getD default

theorem value_fits {json : Json} {key : String} (h : json.textOrAbsent key = true) (default : String) :
    json.value key default = .ok (json.textOr key default) := by
  unfold textOrAbsent at h
  unfold value textOr member? members at *
  cases json with
  | object members =>
    dsimp only at h ⊢
    cases hvalue : members.lookup key with
    | none => rfl
    | some value => cases value <;> simp_all [string?, isObject]
  | _ => simp [isObject] at h

theorem value_throws {json : Json} {key : String} (h : json.textOrAbsent key = false) (default : String) :
    json.value key default = .error .typeError := by
  unfold textOrAbsent at h
  unfold value member? members at *
  cases json with
  | object members =>
    dsimp only at h ⊢
    cases hvalue : members.lookup key with
    | none => simp [hvalue, isObject] at h
    | some value => cases value <;> simp_all [string?, isObject]
  | _ => rfl

theorem textOrAbsent_of_hasText {json : Json} {key : String} (h : json.hasText key = true) :
    json.textOrAbsent key = true := by
  unfold hasText at h
  unfold textOrAbsent
  cases json with
  | object members =>
    cases hvalue : (Json.object members).member? key with
    | none => simp [hvalue] at h
    | some value => cases value <;> simp_all [string?, isObject]
  | _ => simp [member?, members] at h

theorem textOr_empty_iff {json : Json} {key : String} : json.textOr key "" ≠ "" ↔ json.hasText key = true := by
  unfold textOr hasText
  cases (json.member? key).bind string? <;> simp

theorem textOr_default_iff {json : Json} {key default : String} (hdefault : default ≠ "")
    (h : json.textOrAbsent key = true) :
    json.textOr key default ≠ "" ↔ json.member? key = none ∨ json.hasText key = true := by
  unfold textOrAbsent at h
  unfold textOr hasText
  cases hvalue : json.member? key with
  | none => simp [hdefault]
  | some value => cases value <;> simp_all [string?]

theorem bind_iff {α β : Type} {first : Except Error α} {next : α → Except Error β} {p : β → Prop} :
    (∃ b, (first >>= next) = .ok b ∧ p b) ↔ ∃ a, first = .ok a ∧ ∃ b, next a = .ok b ∧ p b := by
  cases first <;> simp [bind, Except.bind]

theorem value_bind_iff {α : Type} {json : Json} {key default : String} {next : String → Except Error α}
    {p : α → Prop} :
    (∃ a, (json.value key default >>= next) = .ok a ∧ p a) ↔
      json.textOrAbsent key = true ∧ ∃ a, next (json.textOr key default) = .ok a ∧ p a := by
  rw [bind_iff]
  cases h : json.textOrAbsent key with
  | true => simp [value_fits h]
  | false => simp [value_throws h]

theorem value_bind_ok {α : Type} {json : Json} {key default : String} {next : String → Except Error α} {a : α}
    (h : (json.value key default >>= next) = .ok a) : next (json.textOr key default) = .ok a := by
  obtain ⟨-, b, hb, rfl⟩ := (value_bind_iff (p := (· = a))).mp ⟨a, h, rfl⟩
  exact hb

end Json
