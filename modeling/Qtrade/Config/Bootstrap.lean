import Qtrade.Config
import Qtrade.Engine.Configured

/-!
# The bootstrap document

`qtrade_engine_bootstrap_config.cpp` walks through a document of any shape. It tests some of the types before it
reads, and where it reads with a default it throws on another type.
-/

namespace Qtrade.Config

structure QtradeEngineIdentity where
  tenantId : String := "default"
  engineId : String := "default"
  accountId : String := ""

structure QtradeEngineStrategyBootstrap where
  pluginDir : String := ""

def kLogDir : String := "logs"

def kLogFilename : String := "trading-engine.log"

structure QtradeEngineProcessConfig where
  logDir : String := kLogDir
  logFilename : String := kLogFilename
  strategy : QtradeEngineStrategyBootstrap := {}
  identity : QtradeEngineIdentity := {}

structure QtradeEngineSupportServices where
  configService : ServiceConfig := {}
  accountService : ServiceConfig := {}
  accountRiskService : ServiceConfig := {}

structure QtradeEngineBootstrapConfig where
  config : QtradeEngineProcessConfig := {}
  supportServices : QtradeEngineSupportServices := {}

/-! ## The parser -/

/-- The loop over the entries. -/
def findSupportService (name : String) : List Json → Except Json.Error (Option ServiceConfig)
  | [] => .ok none
  | item :: rest =>
    if !item.isObject then findSupportService name rest
    else do
      let found ← item.value "name" ""
      if found ≠ name then findSupportService name rest else .ok (parseServiceEndpoint item)

def parseSupportServiceByName (supportServices : Json) (name : String) : Except Json.Error (Option ServiceConfig) :=
  match supportServices with
  | .array items => findSupportService name items
  | _ => .ok none

/-- The parts of the document that have to be there. -/
structure Sections where
  process : Json
  identity : Json
  strategy : Json
  supportServices : Json

/-- The object under a key. -/
def objectAt (json : Json) (key : String) : Option Json := (json.member? key).filter Json.isObject

/-- The checks at the start of `ParseQtradeEngineBootstrapConfig`. -/
def sections? (configNode : Json) : Option Sections := do
  let process ← objectAt configNode "config"
  let supportServices ← (configNode.member? "support_services").filter Json.isArray
  let identity ← objectAt process "identity"
  let strategy ← objectAt process "strategy"
  return { process, identity, strategy, supportServices }

/-- All three services have to be there, and the one for the risk of the account needs a timeout where it is
enabled. -/
def supportServicesOf (configService accountService accountRiskService : Option ServiceConfig) :
    Option QtradeEngineSupportServices :=
  match configService, accountService, accountRiskService with
  | some configService, some accountService, some accountRiskService =>
    if accountRiskService.enabled ∧ accountRiskService.timeoutMs ≤ 0 then none
    else some { configService, accountService, accountRiskService }
  | _, _, _ => none

/-- The end of it, where all texts are read. -/
def parseServices (config : QtradeEngineProcessConfig) (supportServices : Json) :
    Except Json.Error (Option QtradeEngineBootstrapConfig) := do
  let configService ← parseSupportServiceByName supportServices "config_service"
  let accountService ← parseSupportServiceByName supportServices "account_service"
  let accountRiskService ← parseSupportServiceByName supportServices "account_risk_service"
  let supportServices? := supportServicesOf configService accountService accountRiskService
  .ok (supportServices?.map fun supportServices => { config, supportServices })

def parseStrategy (config : QtradeEngineProcessConfig) (sections : Sections) :
    Except Json.Error (Option QtradeEngineBootstrapConfig) := do
  let pluginDir ← sections.strategy.value "plugin_dir" ""
  if pluginDir = "" then .ok none
  else parseServices { config with strategy := { pluginDir } } sections.supportServices

def parseIdentity (config : QtradeEngineProcessConfig) (sections : Sections) :
    Except Json.Error (Option QtradeEngineBootstrapConfig) := do
  let tenantId ← sections.identity.value "tenant_id" ""
  let engineId ← sections.identity.value "engine_id" ""
  let accountId ← sections.identity.value "account_id" ""
  if tenantId = "" ∨ engineId = "" ∨ accountId = "" then .ok none
  else parseStrategy { config with identity := { tenantId, engineId, accountId } } sections

def parseSections (sections : Sections) : Except Json.Error (Option QtradeEngineBootstrapConfig) := do
  let logDir ← sections.process.value "log_dir" kLogDir
  let logFilename ← sections.process.value "log_filename" kLogFilename
  if logDir = "" ∨ logFilename = "" then .ok none else parseIdentity { logDir, logFilename } sections

def parseQtradeEngineBootstrapConfig (configNode : Json) : Except Json.Error (Option QtradeEngineBootstrapConfig) :=
  match sections? configNode with
  | none => .ok none
  | some sections => parseSections sections

/-! ## Where it throws and what it accepts -/

def serviceNames : List String := ["config_service", "account_service", "account_risk_service"]

/-- The entry has this name. -/
def isNamed (name : String) (item : Json) : Bool := item.isObject && item.textOr "name" "" == name

/-- The first entry with this name. -/
def firstEntry (supportServices : Json) (name : String) : Option Json := supportServices.items.find? (isNamed name)

def service? (supportServices : Json) (name : String) : Option ServiceConfig :=
  (firstEntry supportServices name).bind parseServiceEndpoint

/-- The objects before the entry with this name have a text for a name, or none. -/
def NamesFit (supportServices : Json) (name : String) : Prop :=
  ∀ item ∈ supportServices.items.takeWhile (!isNamed name ·), item.isObject = true → item.textOrAbsent "name" = true

/-- The services as they are parsed. -/
def services? (supportServices : Json) : Option QtradeEngineSupportServices :=
  supportServicesOf (service? supportServices "config_service") (service? supportServices "account_service")
    (service? supportServices "account_risk_service")

theorem supportServicesOf_iff {configService accountService accountRiskService : Option ServiceConfig}
    {services : QtradeEngineSupportServices} :
    supportServicesOf configService accountService accountRiskService = some services ↔
      configService = some services.configService ∧ accountService = some services.accountService ∧
        accountRiskService = some services.accountRiskService ∧
        ¬(services.accountRiskService.enabled ∧ services.accountRiskService.timeoutMs ≤ 0) := by
  unfold supportServicesOf
  constructor
  · intro h
    split at h
    case h_1 =>
      split at h
      case isTrue => cases h
      case isFalse hintime =>
        cases h
        exact ⟨rfl, rfl, rfl, hintime⟩
    case h_2 => cases h
  · rintro ⟨rfl, rfl, rfl, hintime⟩
    exact if_neg hintime

theorem findSupportService_iff {name : String} (hname : name ≠ "") (items : List Json)
    {p : Option ServiceConfig → Prop} :
    (∃ r, findSupportService name items = .ok r ∧ p r) ↔
      (∀ item ∈ items.takeWhile (!isNamed name ·), item.isObject = true → item.textOrAbsent "name" = true) ∧
        p ((items.find? (isNamed name)).bind parseServiceEndpoint) := by
  induction items with
  | nil => simp [findSupportService]
  | cons item rest ih =>
    unfold findSupportService
    cases hobject : item.isObject with
    | false =>
      have hother : isNamed name item = false := by simp [isNamed, hobject]
      rw [if_pos Bool.not_false, ih]
      simp [hother, hobject]
    | true =>
      rw [if_neg (by simp), Json.value_bind_iff]
      by_cases hnamed : item.textOr "name" "" = name
      · have hthis : isNamed name item = true := by simp [isNamed, hobject, hnamed]
        have htext := Json.textOrAbsent_of_hasText (Json.textOr_empty_iff.mp (hnamed.trans_ne hname))
        rw [if_neg (not_not.mpr hnamed)]
        simp [hthis, htext]
      · have hother : isNamed name item = false := by simp [isNamed, hnamed]
        rw [if_pos hnamed, ih]
        simp [hother, hobject, and_assoc]

theorem parseSupportServiceByName_iff {supportServices : Json} (harray : supportServices.isArray = true)
    {name : String} (hname : name ≠ "") {p : Option ServiceConfig → Prop} :
    (∃ r, parseSupportServiceByName supportServices name = .ok r ∧ p r) ↔
      NamesFit supportServices name ∧ p (service? supportServices name) := by
  cases supportServices with
  | array items => exact findSupportService_iff hname items
  | _ => cases harray

/-! ### The stages -/

section Stages

variable {config : QtradeEngineProcessConfig} {supportServices : Json} {sections : Sections}
  {p : Option QtradeEngineBootstrapConfig → Prop}

theorem parseServices_iff (harray : supportServices.isArray = true) :
    (∃ r, parseServices config supportServices = .ok r ∧ p r) ↔
      (∀ name ∈ serviceNames, NamesFit supportServices name) ∧
        p ((services? supportServices).map fun supportServices => { config, supportServices }) := by
  unfold parseServices services?
  rw [Json.bind_iff, parseSupportServiceByName_iff harray (by decide), Json.bind_iff,
    parseSupportServiceByName_iff harray (by decide), Json.bind_iff,
    parseSupportServiceByName_iff harray (by decide)]
  simp [serviceNames, and_assoc]

/-- The plugin directory is a text, or absent. The names of the entries are read only where it is not empty. -/
def StrategyFits (sections : Sections) : Prop :=
  sections.strategy.textOrAbsent "plugin_dir" = true ∧
    (sections.strategy.textOr "plugin_dir" "" ≠ "" → ∀ name ∈ serviceNames, NamesFit sections.supportServices name)

def StrategyAccepted (sections : Sections) : Prop :=
  sections.strategy.textOr "plugin_dir" "" ≠ "" ∧ (services? sections.supportServices).isSome = true

theorem parseStrategy_iff (harray : sections.supportServices.isArray = true) (hp : ∀ config, p (some config)) :
    (∃ r, parseStrategy config sections = .ok r ∧ p r) ↔
      StrategyFits sections ∧ (p none ∨ StrategyAccepted sections) := by
  unfold parseStrategy StrategyFits StrategyAccepted
  rw [Json.value_bind_iff]
  by_cases hempty : sections.strategy.textOr "plugin_dir" "" = ""
  · simp [hempty]
  · rw [if_neg hempty, parseServices_iff harray]
    cases services? sections.supportServices <;> simp [hempty, hp, and_assoc]

/-- All three ids are there. -/
def hasIdentity (sections : Sections) : Prop :=
  sections.identity.textOr "tenant_id" "" ≠ "" ∧ sections.identity.textOr "engine_id" "" ≠ "" ∧
    sections.identity.textOr "account_id" "" ≠ ""

/-- The ids are texts, or absent, and only where all are there the rest is read. -/
def IdentityFits (sections : Sections) : Prop :=
  sections.identity.textOrAbsent "tenant_id" = true ∧ sections.identity.textOrAbsent "engine_id" = true ∧
    sections.identity.textOrAbsent "account_id" = true ∧ (hasIdentity sections → StrategyFits sections)

def IdentityAccepted (sections : Sections) : Prop := hasIdentity sections ∧ StrategyAccepted sections

theorem parseIdentity_iff (harray : sections.supportServices.isArray = true) (hp : ∀ config, p (some config)) :
    (∃ r, parseIdentity config sections = .ok r ∧ p r) ↔
      IdentityFits sections ∧ (p none ∨ IdentityAccepted sections) := by
  unfold parseIdentity IdentityFits IdentityAccepted
  rw [Json.value_bind_iff, Json.value_bind_iff, Json.value_bind_iff]
  by_cases hids : hasIdentity sections
  · have hthere := hids
    unfold hasIdentity at hthere
    rw [if_neg (by simp only [not_or]; exact hthere), parseStrategy_iff harray hp]
    simp [hids, and_assoc]
  · have hmissing := hids
    unfold hasIdentity at hmissing
    rw [if_pos (by tauto)]
    simp [hids, and_assoc]

def hasLog (sections : Sections) : Prop :=
  sections.process.textOr "log_dir" kLogDir ≠ "" ∧ sections.process.textOr "log_filename" kLogFilename ≠ ""

/-- Every field that the parser comes to is of a type that it can read. -/
def Fits (sections : Sections) : Prop :=
  sections.process.textOrAbsent "log_dir" = true ∧ sections.process.textOrAbsent "log_filename" = true ∧
    (hasLog sections → IdentityFits sections)

def Accepted (sections : Sections) : Prop := hasLog sections ∧ IdentityAccepted sections

theorem parseSections_iff (harray : sections.supportServices.isArray = true) (hp : ∀ config, p (some config)) :
    (∃ r, parseSections sections = .ok r ∧ p r) ↔ Fits sections ∧ (p none ∨ Accepted sections) := by
  unfold parseSections Fits Accepted
  rw [Json.value_bind_iff, Json.value_bind_iff]
  by_cases hlog : hasLog sections
  · have hthere := hlog
    unfold hasLog at hthere
    rw [if_neg (by simp only [not_or]; exact hthere), parseIdentity_iff harray hp]
    simp [hlog, and_assoc]
  · have hmissing := hlog
    unfold hasLog at hmissing
    rw [if_pos (by tauto)]
    simp [hlog, and_assoc]

theorem parseSections_answers (harray : sections.supportServices.isArray = true) :
    (∃ r, parseSections sections = .ok r) ↔ Fits sections := by
  have hany := parseSections_iff (p := fun _ => True) harray fun _ => trivial
  simpa using hany

theorem parseSections_accepts (harray : sections.supportServices.isArray = true) :
    (∃ config, parseSections sections = .ok (some config)) ↔ Fits sections ∧ Accepted sections := by
  have hsome := parseSections_iff (p := fun r => r.isSome = true) harray fun _ => rfl
  simp only [Option.isSome_none, Bool.false_eq_true, false_or] at hsome
  rw [← hsome]
  constructor
  · rintro ⟨config, hconfig⟩
    exact ⟨some config, hconfig, rfl⟩
  · rintro ⟨r, hr, hconfig⟩
    obtain ⟨config, rfl⟩ := Option.isSome_iff_exists.mp hconfig
    exact ⟨config, hr⟩

/-! ### What is read -/

/-- The texts of the document as the fields of the configuration. -/
def processOf (sections : Sections) : QtradeEngineProcessConfig where
  logDir := sections.process.textOr "log_dir" kLogDir
  logFilename := sections.process.textOr "log_filename" kLogFilename
  strategy := { pluginDir := sections.strategy.textOr "plugin_dir" "" }
  identity :=
    { tenantId := sections.identity.textOr "tenant_id" ""
      engineId := sections.identity.textOr "engine_id" ""
      accountId := sections.identity.textOr "account_id" "" }

variable {result : QtradeEngineBootstrapConfig}

theorem parseServices_content (harray : supportServices.isArray = true)
    (h : parseServices config supportServices = .ok (some result)) :
    result.config = config ∧ services? supportServices = some result.supportServices := by
  obtain ⟨-, hresult⟩ := (parseServices_iff (p := (· = some result)) harray).mp ⟨_, h, rfl⟩
  obtain ⟨services, hservices, rfl⟩ := Option.map_eq_some_iff.mp hresult
  exact ⟨rfl, hservices⟩

theorem parseSections_content (harray : sections.supportServices.isArray = true)
    (h : parseSections sections = .ok (some result)) :
    result.config = processOf sections ∧ services? sections.supportServices = some result.supportServices := by
  have hlog := Json.value_bind_ok (Json.value_bind_ok h)
  split at hlog
  case isTrue => cases hlog
  case isFalse =>
    have hidentity := Json.value_bind_ok (Json.value_bind_ok (Json.value_bind_ok hlog))
    split at hidentity
    case isTrue => cases hidentity
    case isFalse =>
      have hstrategy := Json.value_bind_ok hidentity
      split at hstrategy
      case isTrue => cases hstrategy
      case isFalse => exact parseServices_content harray hstrategy

end Stages

/-! ## What an accepted document says -/

/-- The integer under a key. -/
def numberAt (json : Json) (key : String) : Option Int := (json.member? key).bind Json.integer?

/-- The entry is not switched off. -/
def isEnabled (entry : Json) : Bool := (entry.member? kEnabled).bind Json.boolean? != some false

/-- There is a host, and a port above zero. -/
structure EntryDemanded (entry : Json) : Prop where
  host : entry.hasText kHost = true
  port : ∃ number ∈ numberAt entry kPort, 0 < number

/-- What a document has to say. -/
structure Demanded (sections : Sections) : Prop where
  logDir : sections.process.member? "log_dir" = none ∨ sections.process.hasText "log_dir" = true
  logFilename : sections.process.member? "log_filename" = none ∨ sections.process.hasText "log_filename" = true
  tenantId : sections.identity.hasText "tenant_id" = true
  engineId : sections.identity.hasText "engine_id" = true
  accountId : sections.identity.hasText "account_id" = true
  pluginDir : sections.strategy.hasText "plugin_dir" = true
  services : ∀ name ∈ serviceNames, ∃ entry ∈ firstEntry sections.supportServices name, EntryDemanded entry
  risk : ∀ entry ∈ firstEntry sections.supportServices "account_risk_service", isEnabled entry = true →
    ∃ number ∈ numberAt entry kTimeoutMs, 0 < number

/-- No port of the services is a negative number, and no timeout that is asked for. -/
structure NotNegative (sections : Sections) : Prop where
  ports : ∀ name ∈ serviceNames, ∀ entry ∈ firstEntry sections.supportServices name,
    ∀ number ∈ numberAt entry kPort, 0 ≤ number
  risk : ∀ entry ∈ firstEntry sections.supportServices "account_risk_service", isEnabled entry = true →
    ∀ number ∈ numberAt entry kTimeoutMs, 0 ≤ number

/-- The entries of the services do not leave their hosts to the default. -/
def HostsGiven (sections : Sections) : Prop :=
  ∀ name ∈ serviceNames, ∀ entry ∈ firstEntry sections.supportServices name, (entry.member? kHost).isSome = true

theorem fixedField_positive {endpoint : Json} {key : String} {result : Int32}
    (h : fixedField endpoint key getInt 0 = some result) (hpositive : 0 < result) :
    ∃ number ∈ numberAt endpoint key, 0 ≤ number → 0 < number := by
  unfold fixedField getInt at h
  unfold numberAt
  cases hvalue : endpoint.member? key with
  | none =>
    rw [hvalue] at h
    cases h
    exact absurd hpositive (by decide)
  | some value =>
    rw [hvalue] at h
    obtain ⟨number, hnumber, rfl⟩ := Option.map_eq_some_iff.mp h
    refine ⟨number, hnumber, fun hge => lt_of_le_of_ne hge ?_⟩
    rintro rfl
    exact absurd hpositive (by decide)

theorem Parsed.entryDemanded {entry : Json} {config : ServiceConfig} (h : Parsed entry config)
    (hgiven : (entry.member? kHost).isSome = true) (hport : ∀ number ∈ numberAt entry kPort, 0 ≤ number) :
    EntryDemanded entry := by
  obtain ⟨hhost, hpositive⟩ := h.reachable
  refine ⟨?_, ?_⟩
  · have hread := h.host
    unfold fixedField at hread
    obtain ⟨value, hvalue⟩ := Option.isSome_iff_exists.mp hgiven
    rw [hvalue] at hread
    dsimp only at hread
    simp [Json.hasText, hvalue, hread, hhost]
  · obtain ⟨number, hnumber, hsign⟩ := fixedField_positive h.port hpositive
    exact ⟨number, hnumber, hsign (hport number hnumber)⟩

theorem Parsed.isEnabled {entry : Json} {config : ServiceConfig} (h : Parsed entry config) :
    isEnabled entry = config.enabled := by
  have hread := h.enabled
  unfold fixedField at hread
  unfold Config.isEnabled
  cases hvalue : entry.member? kEnabled with
  | none =>
    rw [hvalue] at hread
    exact Option.some.inj hread
  | some value =>
    rw [hvalue] at hread
    dsimp only at hread
    rw [Option.bind_some, hread]
    cases config.enabled <;> rfl

theorem services?_parsed {supportServices : Json} {services : QtradeEngineSupportServices}
    (h : services? supportServices = some services) :
    ∀ name ∈ serviceNames, ∃ entry ∈ firstEntry supportServices name, ∃ config, Parsed entry config := by
  obtain ⟨hconfig, haccount, hrisk, -⟩ := supportServicesOf_iff.mp h
  have hparsed : ∀ {name config}, service? supportServices name = some config →
      ∃ entry ∈ firstEntry supportServices name, ∃ config, Parsed entry config := by
    intro name config hservice
    obtain ⟨entry, hentry, hparse⟩ := Option.bind_eq_some_iff.mp hservice
    exact ⟨entry, hentry, config, parseServiceEndpoint_iff.mp hparse⟩
  simp only [serviceNames, List.forall_mem_cons, List.not_mem_nil, false_implies, implies_true, and_true]
  exact ⟨hparsed hconfig, hparsed haccount, hparsed hrisk⟩

/-- Of an accepted document, everything is demanded but the signs of its numbers and the hosts. -/
theorem demanded_iff {sections : Sections} (hfits : Fits sections) (haccepted : Accepted sections) :
    Demanded sections ↔ NotNegative sections ∧ HostsGiven sections := by
  obtain ⟨hlogDir, hlogFilename, -⟩ := hfits
  obtain ⟨⟨hdir, hfilename⟩, ⟨htenant, hengine, haccount⟩, hplugin, hsome⟩ := haccepted
  obtain ⟨services, hservices⟩ := Option.isSome_iff_exists.mp hsome
  constructor
  · intro h
    refine ⟨⟨fun name hname entry hentry number hnumber => ?_, fun entry hentry henabled number hnumber => ?_⟩,
      fun name hname entry hentry => ?_⟩
    · obtain ⟨entry', hentry', hdemanded⟩ := h.services name hname
      cases Option.mem_unique hentry hentry'
      obtain ⟨number', hnumber', hpositive⟩ := hdemanded.port
      cases Option.mem_unique hnumber hnumber'
      exact hpositive.le
    · obtain ⟨number', hnumber', hpositive⟩ := h.risk entry hentry henabled
      cases Option.mem_unique hnumber hnumber'
      exact hpositive.le
    · obtain ⟨entry', hentry', hdemanded⟩ := h.services name hname
      cases Option.mem_unique hentry hentry'
      have htext := hdemanded.host
      cases hvalue : entry.member? kHost with
      | none => simp [Json.hasText, hvalue] at htext
      | some value => rfl
  · rintro ⟨h, hgiven⟩
    refine ⟨(Json.textOr_default_iff (by decide) hlogDir).mp hdir,
      (Json.textOr_default_iff (by decide) hlogFilename).mp hfilename, Json.textOr_empty_iff.mp htenant,
      Json.textOr_empty_iff.mp hengine, Json.textOr_empty_iff.mp haccount, Json.textOr_empty_iff.mp hplugin,
      fun name hname => ?_, fun entry hentry henabled => ?_⟩
    · obtain ⟨entry, hentry, config, hparsed⟩ := services?_parsed hservices name hname
      exact ⟨entry, hentry, hparsed.entryDemanded (hgiven name hname entry hentry) (h.ports name hname entry hentry)⟩
    · obtain ⟨-, -, hrisk, hintime⟩ := supportServicesOf_iff.mp hservices
      obtain ⟨entry', hentry', hparse⟩ := Option.bind_eq_some_iff.mp hrisk
      cases Option.mem_unique hentry hentry'
      have hparsed := parseServiceEndpoint_iff.mp hparse
      rw [hparsed.isEnabled] at henabled
      have hpositive : 0 < services.accountRiskService.timeoutMs := by simpa [henabled] using hintime
      obtain ⟨number, hnumber, hsign⟩ := fixedField_positive hparsed.timeoutMs hpositive
      exact ⟨number, hnumber, hsign (h.risk entry hentry (by rw [hparsed.isEnabled, henabled]) number hnumber)⟩

/-! ## The parser and the documents -/

theorem sections?_array {configNode : Json} {sections : Sections} (h : sections? configNode = some sections) :
    sections.supportServices.isArray = true := by
  unfold sections? at h
  simp only [Option.bind_eq_bind, Option.bind_eq_some_iff] at h
  obtain ⟨process, -, supportServices, hservices, identity, -, strategy, -, h⟩ := h
  cases h
  exact (Option.filter_eq_some_iff.mp hservices).2

/-- The parser answers, and a document for which it answers with a configuration says what it has to. -/
structure Guarded (configNode : Json) : Prop where
  answers : ∃ r, parseQtradeEngineBootstrapConfig configNode = .ok r
  demands : ∀ config, parseQtradeEngineBootstrapConfig configNode = .ok (some config) →
    ∃ sections, sections? configNode = some sections ∧ Demanded sections

/-- Any document is guarded against if and only if it lacks a section, or its texts are where texts are read, and no
number of an accepted one is negative and no host absent. -/
theorem guarded_iff (configNode : Json) :
    Guarded configNode ↔
      ∀ sections ∈ sections? configNode,
        Fits sections ∧ (Accepted sections → NotNegative sections ∧ HostsGiven sections) := by
  cases hsections : sections? configNode with
  | none =>
    have hparse : parseQtradeEngineBootstrapConfig configNode = .ok none := by
      simp [parseQtradeEngineBootstrapConfig, hsections]
    refine iff_of_true ⟨⟨none, hparse⟩, fun config hconfig => ?_⟩ (by simp)
    rw [hparse] at hconfig
    cases hconfig
  | some sections =>
    have harray := sections?_array hsections
    have hparse : parseQtradeEngineBootstrapConfig configNode = parseSections sections := by
      simp [parseQtradeEngineBootstrapConfig, hsections]
    have hanswers := parseSections_answers harray
    have haccepts := parseSections_accepts harray
    simp only [Option.mem_some, forall_eq']
    constructor
    · rintro ⟨hanswer, hdemands⟩
      rw [hparse, hanswers] at hanswer
      refine ⟨hanswer, fun haccepted => ?_⟩
      obtain ⟨config, hconfig⟩ := haccepts.mpr ⟨hanswer, haccepted⟩
      obtain ⟨sections', hsame, hdemanded⟩ := hdemands config (hparse.trans hconfig)
      cases hsections.symm.trans hsame
      exact (demanded_iff hanswer haccepted).mp hdemanded
    · rintro ⟨hfits, hsigns⟩
      refine ⟨by rw [hparse, hanswers]; exact hfits, fun config hconfig => ?_⟩
      rw [hparse] at hconfig
      have haccepted := (haccepts.mp ⟨config, hconfig⟩).2
      exact ⟨sections, hsections, (demanded_iff hfits haccepted).mpr (hsigns haccepted)⟩

/-- A number where the directory of the log should be. -/
def numberedLog : Json :=
  .object [("config", .object [("log_dir", .numberUnsigned 5), ("identity", .object []), ("strategy", .object [])]),
    ("support_services", .array [])]

/-- An entry of the services whose name is a number, in a document that is whole otherwise. -/
def numberedEntry : Json :=
  .object
    [("config", .object
        [("identity", .object [("tenant_id", .string "t"), ("engine_id", .string "e"), ("account_id", .string "a")]),
          ("strategy", .object [("plugin_dir", .string "p")])]),
      ("support_services", .array [.object [("name", .numberUnsigned 5)]])]

/-- The parser throws. -/
theorem malformed_throws : (¬∀ configNode, Guarded configNode) ∧
    (parseQtradeEngineBootstrapConfig numberedEntry).toOption.isNone = true := by
  constructor
  · intro hall
    obtain ⟨r, hr⟩ := (hall numberedLog).answers
    have hthrows : (parseQtradeEngineBootstrapConfig numberedLog).toOption.isNone = true := by decide +kernel
    rw [hr] at hthrows
    cases hthrows
  · decide +kernel

/-! ## The engine that is booted -/

/-- What the engine keeps of a configuration. -/
def QtradeEngineBootstrapConfig.engine (s : QtradeEngineBootstrapConfig) : Engine.BootstrapConfig where
  identity :=
    { tenantId := s.config.identity.tenantId
      engineId := s.config.identity.engineId
      accountId := s.config.identity.accountId }
  configService := s.supportServices.configService.enabled
  accountService := s.supportServices.accountService.enabled
  accountRiskService := s.supportServices.accountRiskService.enabled

theorem parse_some {configNode : Json} {config : QtradeEngineBootstrapConfig}
    (h : parseQtradeEngineBootstrapConfig configNode = .ok (some config)) :
    ∃ sections ∈ sections? configNode, Accepted sections ∧ config.config = processOf sections ∧
      services? sections.supportServices = some config.supportServices := by
  unfold parseQtradeEngineBootstrapConfig at h
  split at h
  case h_1 => cases h
  case h_2 sections hsections =>
    have harray := sections?_array hsections
    exact ⟨sections, hsections, ((parseSections_accepts harray).mp ⟨config, h⟩).2, parseSections_content harray h⟩

theorem initEngineModules_booted {configNode : Json} {config : QtradeEngineBootstrapConfig}
    (h : parseQtradeEngineBootstrapConfig configNode = .ok (some config)) {engine : Engine.TradingEngine}
    (hfresh : engine.books.oms.initialized = false) {clock : Engine.Clock} (hclock : clock.seconds ≠ 0) :
    (engine.boot config.engine clock).initEngineModules.1 = .success := by
  obtain ⟨sections, -, ⟨-, ⟨htenant, hengine, -⟩, -⟩, hprocess, -⟩ := parse_some h
  have hidentity : config.engine.identity.tenantId ≠ "" ∧ config.engine.identity.engineId ≠ "" := by
    unfold QtradeEngineBootstrapConfig.engine
    rw [hprocess]
    exact ⟨htenant, hengine⟩
  have hinit : ((engine.boot config.engine clock).books.oms.initializeWith
      { tenantId := config.engine.identity.tenantId
        engineId := config.engine.identity.engineId
        engineEpoch := clock.seconds }).1 = .success := by
    have homs : (engine.boot config.engine clock).books.oms.initialized = false := hfresh
    unfold Oms.OrderManager.initializeWith
    simp [hidentity, hclock, homs]
  unfold Engine.TradingEngine.initEngineModules
  dsimp only
  split
  case isTrue herror => exact absurd hinit herror
  case isFalse => rfl

end Qtrade.Config
