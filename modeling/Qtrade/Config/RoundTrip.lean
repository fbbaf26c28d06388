import Qtrade.Config.Bootstrap

/-!
# A configuration and its document

Which configurations the parser can come to, and a document for each of them. What the parser has read can be written
and is read back as it was.
-/

namespace Qtrade.Config

/-! ## The configurations that are read -/

/-- A service that can be read from an entry of this name. The name is an extension like any other. -/
structure ServiceConfig.Whole (s : ServiceConfig) (name : String) : Prop where
  reachable : s.host ≠ "" ∧ 0 < s.port
  named : s.extension "name" = some name
  fixed : ∀ key, isFixed key = true → s.extension key = none

structure QtradeEngineBootstrapConfig.Whole (s : QtradeEngineBootstrapConfig) : Prop where
  log : s.config.logDir ≠ "" ∧ s.config.logFilename ≠ ""
  identity : s.config.identity.tenantId ≠ "" ∧ s.config.identity.engineId ≠ "" ∧ s.config.identity.accountId ≠ ""
  pluginDir : s.config.strategy.pluginDir ≠ ""
  configService : s.supportServices.configService.Whole "config_service"
  accountService : s.supportServices.accountService.Whole "account_service"
  accountRiskService : s.supportServices.accountRiskService.Whole "account_risk_service"
  risk : s.supportServices.accountRiskService.enabled = true → 0 < s.supportServices.accountRiskService.timeoutMs

/-! ## Extensions -/

section Extensions

variable {members : List (String × Json)} {start extensions : Table String String}

theorem lookup_extensions_fixed {key : String} (h : members.foldlM addExtension start = some extensions)
    (hkey : isFixed key = true) : extensions.lookup key = start.lookup key := by
  induction members generalizing start with
  | nil =>
    cases h
    rfl
  | cons member rest ih =>
    rw [List.foldlM_cons, Option.bind_eq_bind, Option.bind_eq_some_iff] at h
    obtain ⟨next, hnext, h⟩ := h
    rw [ih h]
    unfold addExtension at hnext
    split at hnext
    case isTrue =>
      cases hnext
      rfl
    case isFalse hother =>
      obtain ⟨text, -, rfl⟩ := Option.map_eq_some_iff.mp hnext
      have hne : key ≠ member.1 := by
        rintro rfl
        exact hother hkey
      split
      · rfl
      · rw [Table.lookup_store, if_neg hne]

theorem extensions_of_texts (h : ∀ member ∈ members, isFixed member.1 = true ∨ member.2.string?.isSome = true)
    (start : Table String String) : ∃ extensions, members.foldlM addExtension start = some extensions := by
  induction members generalizing start with
  | nil => exact ⟨start, rfl⟩
  | cons member rest ih =>
    obtain ⟨hmember, hrest⟩ := List.forall_mem_cons.mp h
    rw [List.foldlM_cons]
    have hnext : (addExtension start member).isSome = true := by
      unfold addExtension
      split
      case isTrue => rfl
      case isFalse hother =>
        obtain ⟨text, htext⟩ := Option.isSome_iff_exists.mp (hmember.resolve_left hother)
        simp [jsonScalarToString, htext]
    obtain ⟨next, hnext⟩ := Option.isSome_iff_exists.mp hnext
    rw [hnext]
    exact ih hrest next

end Extensions

/-! ## Written and read -/

/-- The fixed fields in their order, and the extensions as texts. -/
def writeService (s : ServiceConfig) (extensions : List (String × String)) : Json :=
  .object <|
    (kHost, .string s.host) :: (kPort, .numberInteger s.port.toInt64) :: (kEnabled, .boolean s.enabled) ::
      (kTimeoutMs, .numberInteger s.timeoutMs.toInt64) ::
      extensions.map fun extension => (extension.1, .string extension.2)

/-- The extensions of each of the services in some order. -/
structure Extensions where
  configService : List (String × String)
  accountService : List (String × String)
  accountRiskService : List (String × String)

/-- The list has the extensions of a service, each once. -/
structure Lists (extensions : List (String × String)) (s : ServiceConfig) : Prop where
  once : (extensions.map Prod.fst).Nodup
  same : ∀ key, extensions.lookup key = s.extension key

structure Extensions.Of (extensions : Extensions) (services : QtradeEngineSupportServices) : Prop where
  configService : Lists extensions.configService services.configService
  accountService : Lists extensions.accountService services.accountService
  accountRiskService : Lists extensions.accountRiskService services.accountRiskService

def writeIdentity (s : QtradeEngineIdentity) : Json :=
  .object [("tenant_id", .string s.tenantId), ("engine_id", .string s.engineId), ("account_id", .string s.accountId)]

def writeStrategy (s : QtradeEngineStrategyBootstrap) : Json := .object [("plugin_dir", .string s.pluginDir)]

def writeProcess (s : QtradeEngineProcessConfig) : Json :=
  .object [("log_dir", .string s.logDir), ("log_filename", .string s.logFilename),
    ("identity", writeIdentity s.identity), ("strategy", writeStrategy s.strategy)]

def writeServices (s : QtradeEngineSupportServices) (extensions : Extensions) : Json :=
  .array [writeService s.configService extensions.configService,
    writeService s.accountService extensions.accountService,
    writeService s.accountRiskService extensions.accountRiskService]

def writeConfig (s : QtradeEngineBootstrapConfig) (extensions : Extensions) : Json :=
  .object [("config", writeProcess s.config), ("support_services", writeServices s.supportServices extensions)]

theorem sections?_writeConfig (s : QtradeEngineBootstrapConfig) (extensions : Extensions) :
    sections? (writeConfig s extensions) = some
      { process := writeProcess s.config
        identity := writeIdentity s.config.identity
        strategy := writeStrategy s.config.strategy
        supportServices := writeServices s.supportServices extensions } := rfl

/-! ### A service -/

section Service

variable {s : ServiceConfig} {name : String} {extensions : List (String × String)}

theorem getInt_toInt64 (number : Int32) : getInt (.numberInteger number.toInt64) = some number := by
  simp [getInt, Json.integer?]

theorem lookup_written {key : String} (hkey : isFixed key = false) :
    (writeService s extensions).member? key = (extensions.lookup key).map .string := by
  have hmap : (extensions.map fun extension => (extension.1, Json.string extension.2)).lookup key =
      (extensions.lookup key).map .string := by
    induction extensions with
    | nil => rfl
    | cons extension rest ih =>
      rw [List.map_cons, List.lookup_cons, List.lookup_cons, ih]
      cases key == extension.1 <;> rfl
  simp only [isFixed, Bool.or_eq_false_iff] at hkey
  obtain ⟨⟨⟨hhost, hport⟩, henabled⟩, htimeout⟩ := hkey
  simp [writeService, Json.member?, Json.members, List.lookup_cons, hhost, hport, henabled, htimeout, hmap]

theorem parse_writeService (h : s.Whole name) (hlists : Lists extensions s) :
    parseServiceEndpoint (writeService s extensions) = some s := by
  rw [parseServiceEndpoint_iff]
  have htexts : ∀ member ∈ (writeService s extensions).members,
      isFixed member.1 = true ∨ member.2.string?.isSome = true := by
    intro member hmem
    simp only [writeService, Json.members, List.mem_cons, List.mem_map] at hmem
    rcases hmem with rfl | rfl | rfl | rfl | ⟨extension, -, rfl⟩
    · exact Or.inl rfl
    · exact Or.inl rfl
    · exact Or.inl rfl
    · exact Or.inl rfl
    · exact Or.inr rfl
  obtain ⟨table, htable⟩ := extensions_of_texts htexts ∅
  have hsame : table = s.extensions := by
    apply Finmap.ext_lookup
    intro key
    cases hkey : isFixed key with
    | true =>
      rw [lookup_extensions_fixed htable hkey, Finmap.lookup_empty]
      exact (h.fixed key hkey).symm
    | false =>
      have hmember : (writeService s extensions).member? key = (extensions.lookup key).map .string :=
        lookup_written hkey
      unfold Json.member? at hmember
      rw [lookup_extensions htable hkey, Finmap.lookup_empty, hmember, hlists.same key]
      unfold ServiceConfig.extension
      cases s.extensions.lookup key <;> rfl
  exact ⟨rfl, rfl, getInt_toInt64 _, rfl, getInt_toInt64 _, hsame ▸ htable, h.reachable⟩

theorem isNamed_writeService (h : s.Whole name) (hlists : Lists extensions s) :
    (writeService s extensions).textOrAbsent "name" = true ∧
      ∀ other, isNamed other (writeService s extensions) = (name == other) := by
  have hmember : (writeService s extensions).member? "name" = some (.string name) := by
    rw [lookup_written (by decide), hlists.same, h.named]
    rfl
  constructor
  · unfold Json.textOrAbsent
    rw [hmember]
    rfl
  · intro other
    unfold isNamed Json.textOr
    rw [hmember]
    rfl

end Service

/-! ### The configuration -/

section Config

variable {config : QtradeEngineBootstrapConfig} {extensions : Extensions}

theorem services?_writeServices (h : config.Whole) (hof : extensions.Of config.supportServices) :
    services? (writeServices config.supportServices extensions) = some config.supportServices ∧
      ∀ name ∈ serviceNames, NamesFit (writeServices config.supportServices extensions) name := by
  obtain ⟨hconfigText, hconfig⟩ := isNamed_writeService h.configService hof.configService
  obtain ⟨haccountText, haccount⟩ := isNamed_writeService h.accountService hof.accountService
  obtain ⟨hriskText, hrisk⟩ := isNamed_writeService h.accountRiskService hof.accountRiskService
  constructor
  · unfold services?
    rw [supportServicesOf_iff]
    have hservice : service? (writeServices config.supportServices extensions) "config_service" =
          some config.supportServices.configService ∧
        service? (writeServices config.supportServices extensions) "account_service" =
          some config.supportServices.accountService ∧
        service? (writeServices config.supportServices extensions) "account_risk_service" =
          some config.supportServices.accountRiskService := by
      unfold service? firstEntry writeServices Json.items
      simp only [List.find?_cons, hconfig, haccount, hrisk]
      exact ⟨parse_writeService h.configService hof.configService,
        parse_writeService h.accountService hof.accountService,
        parse_writeService h.accountRiskService hof.accountRiskService⟩
    obtain ⟨hconfigService, haccountService, hriskService⟩ := hservice
    refine ⟨hconfigService, haccountService, hriskService, ?_⟩
    rintro ⟨henabled, hlate⟩
    exact absurd (h.risk henabled) (Int32.not_lt.mpr hlate)
  · intro name _ item hmem _
    have hitem := List.takeWhile_subset _ hmem
    simp only [writeServices, Json.items, List.mem_cons, List.not_mem_nil, or_false] at hitem
    rcases hitem with rfl | rfl | rfl
    · exact hconfigText
    · exact haccountText
    · exact hriskText

theorem accepted_writeConfig (h : config.Whole) {sections : Sections}
    (hsections : sections? (writeConfig config extensions) = some sections)
    (hservices : services? sections.supportServices = some config.supportServices)
    (hnames : ∀ name ∈ serviceNames, NamesFit sections.supportServices name) : Fits sections ∧ Accepted sections := by
  rw [sections?_writeConfig] at hsections
  cases hsections
  refine ⟨⟨rfl, rfl, fun _ => ⟨rfl, rfl, rfl, fun _ => ⟨rfl, fun _ => hnames⟩⟩⟩, h.log, h.identity, h.pluginDir, ?_⟩
  rw [hservices]
  rfl

/-- The document of a configuration is read as that configuration. -/
theorem parse_writeConfig (h : config.Whole) (hof : extensions.Of config.supportServices) :
    parseQtradeEngineBootstrapConfig (writeConfig config extensions) = .ok (some config) := by
  obtain ⟨hservices, hnames⟩ := services?_writeServices h hof
  have hsections := sections?_writeConfig config extensions
  have hthere := accepted_writeConfig h hsections hservices hnames
  obtain ⟨config', hconfig'⟩ := (parseSections_accepts rfl).mpr hthere
  obtain ⟨hprocess, hsame⟩ := parseSections_content rfl hconfig'
  have hsupport : config'.supportServices = config.supportServices := Option.some.inj (hsame.symm.trans hservices)
  unfold parseQtradeEngineBootstrapConfig
  rw [hsections]
  dsimp only
  rw [hconfig']
  congr 2
  cases config'
  cases config
  cases hprocess
  cases hsupport
  rfl

end Config

/-! ## What is read -/

section Read

theorem service?_whole {supportServices : Json} {name : String} (hname : name ≠ "") {s : ServiceConfig}
    (h : service? supportServices name = some s) : s.Whole name := by
  obtain ⟨entry, hentry, hparse⟩ := Option.bind_eq_some_iff.mp h
  have hparsed := parseServiceEndpoint_iff.mp hparse
  have hnamed : isNamed name entry = true := List.find?_some hentry
  refine ⟨hparsed.reachable, ?_, fun key hkey => ?_⟩
  · have htext : entry.textOr "name" "" = name := by
      unfold isNamed at hnamed
      simpa using (Bool.and_eq_true_iff.mp hnamed).2
    have hvalue : (entry.member? "name").bind Json.string? = some name := by
      unfold Json.textOr at htext
      cases hstring : (entry.member? "name").bind Json.string? with
      | none =>
        rw [hstring] at htext
        exact absurd htext.symm hname
      | some text =>
        rw [hstring] at htext
        exact congrArg some htext
    obtain ⟨value, hmember, hstring⟩ := Option.bind_eq_some_iff.mp hvalue
    unfold Json.member? at hmember
    unfold ServiceConfig.extension
    rw [lookup_extensions hparsed.extensions (by decide), hmember]
    simp [jsonScalarToString, hstring]
  · exact (lookup_extensions_fixed hparsed.extensions hkey).trans (Finmap.lookup_empty key)

/-- A configuration that was read is whole. -/
theorem whole_of_parse {configNode : Json} {config : QtradeEngineBootstrapConfig}
    (h : parseQtradeEngineBootstrapConfig configNode = .ok (some config)) : config.Whole := by
  obtain ⟨sections, -, ⟨hlog, hidentity, hplugin, -⟩, hprocess, hservices⟩ := parse_some h
  obtain ⟨hconfig, haccount, hrisk, hintime⟩ := supportServicesOf_iff.mp hservices
  refine ⟨?_, ?_, ?_, service?_whole (by decide) hconfig, service?_whole (by decide) haccount,
    service?_whole (by decide) hrisk, fun henabled => ?_⟩
  · rw [hprocess]
    exact hlog
  · rw [hprocess]
    exact hidentity
  · rw [hprocess]
    exact hplugin
  · exact Int32.not_le.mp fun hlate => hintime ⟨henabled, hlate⟩

theorem exists_lists (s : ServiceConfig) : ∃ extensions, Lists extensions s := by
  obtain ⟨extensions, honce, hsame⟩ := Table.exists_entries s.extensions
  exact ⟨extensions, honce, hsame⟩

theorem exists_of (services : QtradeEngineSupportServices) : ∃ extensions : Extensions, extensions.Of services := by
  obtain ⟨configService, hconfig⟩ := exists_lists services.configService
  obtain ⟨accountService, haccount⟩ := exists_lists services.accountService
  obtain ⟨accountRiskService, hrisk⟩ := exists_lists services.accountRiskService
  exact ⟨⟨configService, accountService, accountRiskService⟩, hconfig, haccount, hrisk⟩

/-- The parser comes to a configuration if and only if it is whole, and then it reads it back from a document that is
written from it. -/
theorem parsed_iff_whole (config : QtradeEngineBootstrapConfig) :
    ((∃ configNode, parseQtradeEngineBootstrapConfig configNode = .ok (some config)) ↔ config.Whole) ∧
      (config.Whole → (∃ extensions : Extensions, extensions.Of config.supportServices) ∧
        ∀ extensions : Extensions, extensions.Of config.supportServices →
          parseQtradeEngineBootstrapConfig (writeConfig config extensions) = .ok (some config)) := by
  refine ⟨⟨?_, fun h => ?_⟩, fun h => ⟨exists_of config.supportServices, fun extensions hof => ?_⟩⟩
  · rintro ⟨configNode, h⟩
    exact whole_of_parse h
  · obtain ⟨extensions, hof⟩ := exists_of config.supportServices
    exact ⟨writeConfig config extensions, parse_writeConfig h hof⟩
  · exact parse_writeConfig h hof

/-- A service with this name and nothing else among its extensions. -/
def plainService (name : String) : ServiceConfig :=
  { port := 8080, timeoutMs := 500, extensions := Finmap.singleton "name" name }

theorem lists_plainService (name : String) : Lists [("name", name)] (plainService name) := by
  refine ⟨by simp, fun key => ?_⟩
  unfold ServiceConfig.extension plainService
  by_cases hkey : key = "name"
  · subst hkey
    rw [Finmap.lookup_singleton_eq]
    rfl
  · rw [Finmap.lookup_eq_none.mpr (fun hmem => hkey (Finmap.mem_singleton _ _ _ |>.mp hmem))]
    simp [List.lookup_cons, beq_false_of_ne hkey]

theorem whole_plainService (name : String) : (plainService name).Whole name := by
  refine ⟨⟨by simp [plainService], (by decide : (0 : Int32) < 8080)⟩, Finmap.lookup_singleton_eq, fun key hkey => ?_⟩
  rw [← (lists_plainService name).same, List.lookup_cons]
  cases hname : key == "name" with
  | true =>
    rw [beq_iff_eq.mp hname] at hkey
    cases hkey
  | false => rfl

def plainConfig : QtradeEngineBootstrapConfig where
  config :=
    { identity := { accountId := "a" }
      strategy := { pluginDir := "plugins" } }
  supportServices :=
    { configService := plainService "config_service"
      accountService := plainService "account_service"
      accountRiskService := plainService "account_risk_service" }

def plainExtensions : Extensions where
  configService := [("name", "config_service")]
  accountService := [("name", "account_service")]
  accountRiskService := [("name", "account_risk_service")]

/-- It is whole, and is read back. -/
theorem parsed_iff_whole_plain : plainConfig.Whole ∧
    parseQtradeEngineBootstrapConfig (writeConfig plainConfig plainExtensions) = .ok (some plainConfig) := by
  have hwhole : plainConfig.Whole :=
    { log := ⟨by decide, by decide⟩
      identity := ⟨by decide, by decide, by decide⟩
      pluginDir := by decide
      configService := whole_plainService _
      accountService := whole_plainService _
      accountRiskService := whole_plainService _
      risk := fun _ => by decide }
  have hof : plainExtensions.Of plainConfig.supportServices :=
    ⟨lists_plainService _, lists_plainService _, lists_plainService _⟩
  exact ⟨hwhole, ((parsed_iff_whole plainConfig).2 hwhole).2 plainExtensions hof⟩

end Read

end Qtrade.Config
