import TodoRust.Settings.Config

/-!
# Settings that are texts

A setting of type `String` that is given by its variable is the text of what the value
was parsed as. This is the value itself, unless the value is a flag or a number that is
written otherwise.
-/

namespace TodoRust.Settings
open Rust

/-- The settings of type `String`. -/
inductive Setting
  | serverHost | databaseUrl | cacheUrl | authSessionKey | authCookieDomain
  | observabilityServiceName | observabilityOtelEndpoint | devAutoLoginEmail
  deriving DecidableEq

namespace Setting

def all : List Setting :=
  [serverHost, databaseUrl, cacheUrl, authSessionKey, authCookieDomain, observabilityServiceName,
    observabilityOtelEndpoint, devAutoLoginEmail]

def path : Setting → String
  | serverHost => "server.host"
  | databaseUrl => "database.url"
  | cacheUrl => "cache.url"
  | authSessionKey => "auth.session_key"
  | authCookieDomain => "auth.cookie_domain"
  | observabilityServiceName => "observability.service_name"
  | observabilityOtelEndpoint => "observability.otel_endpoint"
  | devAutoLoginEmail => "dev.auto_login_email"

/-- The variable `APP__SECTION__KEY` -/
def envName : Setting → String
  | serverHost => "APP__SERVER__HOST"
  | databaseUrl => "APP__DATABASE__URL"
  | cacheUrl => "APP__CACHE__URL"
  | authSessionKey => "APP__AUTH__SESSION_KEY"
  | authCookieDomain => "APP__AUTH__COOKIE_DOMAIN"
  | observabilityServiceName => "APP__OBSERVABILITY__SERVICE_NAME"
  | observabilityOtelEndpoint => "APP__OBSERVABILITY__OTEL_ENDPOINT"
  | devAutoLoginEmail => "APP__DEV__AUTO_LOGIN_EMAIL"

/-- The shortcut that overrides the variable, if there is one. -/
def shortcut : Setting → Option String
  | databaseUrl => some "DATABASE_URL"
  | cacheUrl => some "REDIS_URL"
  | _ => none

def value : Setting → Config → String
  | serverHost, cfg => cfg.server.host
  | databaseUrl, cfg => cfg.database.url
  | cacheUrl, cfg => cfg.cache.url
  | authSessionKey, cfg => cfg.auth.sessionKey
  | authCookieDomain, cfg => cfg.auth.cookieDomain
  | observabilityServiceName, cfg => cfg.observability.serviceName
  | observabilityOtelEndpoint, cfg => cfg.observability.otelEndpoint
  | devAutoLoginEmail, cfg => cfg.dev.autoLoginEmail

end Setting

/-- The variables are read as the paths they spell. -/
def ReadsNames (crate : ConfigCrate) : Prop :=
  ∀ setting : Setting, crate.path environment setting.envName = some setting.path

/-- A setting is given by its variable: no other text is given for it, and no shortcut. -/
structure Given (crate : ConfigCrate) (vars : Vars) (setting : Setting) (v : String) : Prop where
  present : (setting.envName, v) ∈ vars
  alone : ∀ x ∈ vars, crate.path environment x.1 = some setting.path → x.2 = v
  notOverridden : ∀ name ∈ setting.shortcut, ∀ x ∈ vars, x.1 ≠ name

/-- A flag is written in lower case, and a number as it is printed. -/
structure Verbatim (v : String) : Prop where
  flag : ∀ b, parseFlag v = some b → v = toString b
  integer : ∀ n, parseFlag v = none → i64FromStr v.toList = some n → v = toString n
  float : ∀ x, parseFlag v = none → i64FromStr v.toList = none → F64.fromStr v.toList = some x →
    v = String.ofList x.toChars

/-! ### What deserialization reads -/

/-- A sequence of steps ends well when each of them does. -/
theorem bind_eq_ok {ε α β : Type} {x : Except ε α} {f : α → Except ε β} {b : β} :
    x >>= f = .ok b ↔ ∃ a, x = .ok a ∧ f a = .ok b := by
  cases x with
  | error e => simp [bind, Except.bind]
  | ok a => simp [bind, Except.bind]

theorem mapError_eq_ok {ε ε' α : Type} {x : Except ε α} {f : ε → ε'} {a : α} :
    x.mapError f = .ok a ↔ x = .ok a := by
  cases x with
  | error e => simp [Except.mapError]
  | ok b => simp [Except.mapError]

section Deserialize
variable {crate : ConfigCrate} {values : String → Option ValueKind} {cfg : Config}

theorem textField_ok {path text : String} (h : textField values path = .ok text) :
    ∃ value, values path = some value ∧ text = value.text := by
  unfold textField field at h
  cases hvalue : values path with
  | none =>
      rw [hvalue] at h
      cases h
  | some value =>
      rw [hvalue] at h
      exact ⟨value, rfl, (Except.ok.inj h).symm⟩

theorem deserialize_sections (h : deserialize crate values = .ok cfg) :
    deserializeServer crate values = .ok cfg.server ∧
    deserializeDatabase crate values = .ok cfg.database ∧
    deserializeCache crate values = .ok cfg.cache ∧
    deserializeAuth crate values = .ok cfg.auth ∧
    deserializeObservability crate values = .ok cfg.observability ∧
    deserializeDev crate values = .ok cfg.dev := by
  simp only [deserialize, bind_eq_ok, pure, Except.pure, Except.ok.injEq] at h
  obtain ⟨server, hserver, database, hdatabase, cache, hcache, auth, hauth, observability,
    hobservability, _, _, _, _, _, _, _, _, _, _, dev, hdev, rfl⟩ := h
  exact ⟨hserver, hdatabase, hcache, hauth, hobservability, hdev⟩

theorem deserializeServer_host {server : ServerConfig}
    (h : deserializeServer crate values = .ok server) :
    textField values "server.host" = .ok server.host := by
  simp only [deserializeServer, bind_eq_ok, pure, Except.pure, Except.ok.injEq] at h
  obtain ⟨host, hhost, _, _, _, _, _, _, rfl⟩ := h
  exact hhost

theorem deserializeDatabase_url {database : DbPoolConfig}
    (h : deserializeDatabase crate values = .ok database) :
    textField values "database.url" = .ok database.url := by
  simp only [deserializeDatabase, bind_eq_ok, pure, Except.pure, Except.ok.injEq] at h
  obtain ⟨url, hurl, _, _, _, _, _, _, rfl⟩ := h
  exact hurl

theorem deserializeCache_url {cache : CacheConfig}
    (h : deserializeCache crate values = .ok cache) :
    textField values "cache.url" = .ok cache.url := by
  simp only [deserializeCache, bind_eq_ok, pure, Except.pure, Except.ok.injEq] at h
  obtain ⟨url, hurl, _, _, _, _, rfl⟩ := h
  exact hurl

theorem deserializeAuth_texts {auth : AuthConfig} (h : deserializeAuth crate values = .ok auth) :
    textField values "auth.session_key" = .ok auth.sessionKey ∧
      textField values "auth.cookie_domain" = .ok auth.cookieDomain := by
  simp only [deserializeAuth, bind_eq_ok, pure, Except.pure, Except.ok.injEq] at h
  obtain ⟨sessionKey, hsessionKey, _, _, _, _, cookieDomain, hcookieDomain, rfl⟩ := h
  exact ⟨hsessionKey, hcookieDomain⟩

theorem deserializeObservability_texts {observability : ObservabilityConfig}
    (h : deserializeObservability crate values = .ok observability) :
    textField values "observability.service_name" = .ok observability.serviceName ∧
      textField values "observability.otel_endpoint" = .ok observability.otelEndpoint := by
  simp only [deserializeObservability, bind_eq_ok, pure, Except.pure, Except.ok.injEq] at h
  obtain ⟨serviceName, hserviceName, otelEndpoint, hotelEndpoint, _, _, _, _, rfl⟩ := h
  exact ⟨hserviceName, hotelEndpoint⟩

theorem deserializeDev_email {dev : DevConfig} (h : deserializeDev crate values = .ok dev) :
    textField values "dev.auto_login_email" = .ok dev.autoLoginEmail := by
  simp only [deserializeDev, bind_eq_ok, pure, Except.pure, Except.ok.injEq] at h
  obtain ⟨autoLoginEmail, hautoLoginEmail, _, _, _, _, rfl⟩ := h
  exact hautoLoginEmail

/-- Every setting is the text of the value at its path. -/
theorem value_of_deserialize (setting : Setting) (h : deserialize crate values = .ok cfg) :
    ∃ value, values setting.path = some value ∧ setting.value cfg = value.text := by
  obtain ⟨hserver, hdatabase, hcache, hauth, hobservability, hdev⟩ := deserialize_sections h
  apply textField_ok
  cases setting with
  | serverHost => exact deserializeServer_host hserver
  | databaseUrl => exact deserializeDatabase_url hdatabase
  | cacheUrl => exact deserializeCache_url hcache
  | authSessionKey => exact (deserializeAuth_texts hauth).1
  | authCookieDomain => exact (deserializeAuth_texts hauth).2
  | observabilityServiceName => exact (deserializeObservability_texts hobservability).1
  | observabilityOtelEndpoint => exact (deserializeObservability_texts hobservability).2
  | devAutoLoginEmail => exact deserializeDev_email hdev

end Deserialize

/-! ### What the environment gives -/

section Load
variable {crate : ConfigCrate} {vars : Vars} {setting : Setting} {v : String} {cfg : Config}

/-- What a value is parsed as is written as the value, if it is verbatim. -/
theorem text_tryParse : (ValueKind.tryParse v).text = v ↔ Verbatim v := by
  unfold ValueKind.tryParse
  cases hflag : parseFlag v with
  | some b =>
      constructor
      · intro h
        exact ⟨by simpa [hflag] using h.symm, by simp [hflag], by simp [hflag]⟩
      · intro h
        exact (h.flag b hflag).symm
  | none =>
      cases hinteger : i64FromStr v.toList with
      | some n =>
          constructor
          · intro h
            exact ⟨by simp [hflag], by simpa [hflag, hinteger] using h.symm, by simp [hinteger]⟩
          · intro h
            exact (h.integer n hflag hinteger).symm
      | none =>
          cases hfloat : F64.fromStr v.toList with
          | some x =>
              constructor
              · intro h
                exact ⟨by simp [hflag], by simp [hinteger],
                  by simpa [hflag, hinteger, hfloat] using h.symm⟩
              · intro h
                exact (h.float x hflag hinteger hfloat).symm
          | none =>
              constructor
              · intro _
                exact ⟨by simp [hflag], by simp [hinteger], by simp [hfloat]⟩
              · intro _
                rfl

/-- A shortcut overrides its own path only, and only if it is set. -/
theorem lookup_withShortcut {name path path' : String} {builder : Builder}
    (h : path' = path → envVar vars name = none) :
    (withShortcut vars name path builder).overrides.lookup path' =
      builder.overrides.lookup path' := by
  unfold withShortcut
  cases hvar : envVar vars name with
  | none => rfl
  | some url =>
      have hne : path' ≠ path := fun hpath => by simp [h hpath] at hvar
      simp [Builder.setOverride, List.lookup_cons, beq_false_of_ne hne]

theorem envVar_of_given (hgiven : Given crate vars setting v) {name : String}
    (hname : setting.shortcut = some name) : envVar vars name = none := by
  refine List.lookup_eq_none_iff.mpr fun x hx => ?_
  simpa using (hgiven.notOverridden name (by simp [hname]) x hx).symm

theorem lookup_overrides (hgiven : Given crate vars setting v) :
    (builder vars).overrides.lookup setting.path = none := by
  have hdatabase : setting.path = "database.url" → envVar vars "DATABASE_URL" = none := by
    intro hpath
    apply envVar_of_given hgiven
    cases setting with
    | databaseUrl => rfl
    | _ => exact absurd hpath (by decide)
  have hcache : setting.path = "cache.url" → envVar vars "REDIS_URL" = none := by
    intro hpath
    apply envVar_of_given hgiven
    cases setting with
    | cacheUrl => rfl
    | _ => exact absurd hpath (by decide)
  exact (lookup_withShortcut hcache).trans (lookup_withShortcut hdatabase)

theorem get_of_given (hcrate : ReadsNames crate) (hgiven : Given crate vars setting v) :
    (builder vars).get crate vars setting.path = some (.tryParse v) := by
  have hsource : environment.get crate vars setting.path = some (.tryParse v) :=
    Environment.get_eq rfl hgiven.present (hcrate setting) hgiven.alone
  exact Builder.get_eq (lookup_overrides hgiven) rfl hsource

theorem value_eq_text (hcrate : ReadsNames crate) (hgiven : Given crate vars setting v)
    (hok : fromEnv crate vars = .ok cfg) : setting.value cfg = (ValueKind.tryParse v).text := by
  simp only [fromEnv, bind_eq_ok, pure, Except.pure, Except.ok.injEq] at hok
  obtain ⟨cfg', hcfg, _, _, _, _, rfl⟩ := hok
  obtain ⟨value, hvalue, htext⟩ := value_of_deserialize setting (mapError_eq_ok.mp hcfg)
  rw [get_of_given hcrate hgiven] at hvalue
  rw [htext, Option.some.inj hvalue]

/-- A setting that is given is loaded as it is exactly when it is no flag and no number, or
one that is written as it is printed. -/
theorem setting_verbatim_iff (hcrate : ReadsNames crate) (hgiven : Given crate vars setting v)
    (hok : fromEnv crate vars = .ok cfg) : setting.value cfg = v ↔ Verbatim v := by
  rw [value_eq_text hcrate hgiven hok]
  exact text_tryParse

end Load

/-! ### Session keys that are numbers -/

/-- A crate for concrete runs, for variables of these settings and fields without
conversions. -/
def ConfigCrate.plain : ConfigCrate where
  path _ name := (Setting.all.find? (·.envName == name)).map Setting.path
  asBool
    | .boolean b => .ok b
    | _ => .error "expected a boolean"
  asUnsigned bits
    | .i64 n => if 0 ≤ n && n < 2 ^ bits then .ok n.toNat else .error "out of range"
    | _ => .error "expected an integer"
  asSigned
    | .i64 n => .ok n
    | _ => .error "expected an integer"
  asLogFormat
    | .string "pretty" => .ok .pretty
    | .string "json" => .ok .json
    | _ => .error "unknown variant"

theorem readsNames_plain : ReadsNames .plain := by
  intro setting
  cases setting with
  | _ => decide

theorem exists_of_isOk {ε α : Type} {x : Except ε α} (h : x.isOk = true) : ∃ a, x = .ok a := by
  cases x with
  | error e => cases h
  | ok a => exact ⟨a, rfl⟩

/-- The session key that `1e64` is loaded as. -/
def roundKey : String := String.ofList ('1' :: List.replicate 64 '0')

def keyVars (key : String) : Vars := [("APP__AUTH__SESSION_KEY", key)]

theorem given_keyVars (key : String) : Given .plain (keyVars key) .authSessionKey key where
  present := by simp [keyVars, Setting.envName]
  alone := by simp [keyVars]
  notOverridden := by simp [Setting.shortcut]

theorem fromEnv_shortKey : (fromEnv .plain (keyVars "1e64")).isOk = true := by decide +kernel

theorem fromEnv_roundKey : (fromEnv .plain (keyVars roundKey)).isOk = true := by decide +kernel

theorem text_shortKey : (ValueKind.tryParse "1e64").text = roundKey := by decide +kernel

theorem text_roundKey : (ValueKind.tryParse roundKey).text = roundKey := by decide +kernel

theorem shortKey_ne : "1e64" ≠ roundKey := by decide +kernel

/-- The number as it is printed is loaded as it is. -/
theorem setting_verbatim_round : ∃ cfg, fromEnv .plain (keyVars roundKey) = .ok cfg ∧
    cfg.auth.sessionKey = roundKey := by
  obtain ⟨cfg, hok⟩ := exists_of_isOk fromEnv_roundKey
  refine ⟨cfg, hok, (setting_verbatim_iff readsNames_plain (given_keyVars roundKey) hok).mpr ?_⟩
  exact text_tryParse.mp text_roundKey

/-- Two session keys that are parsed as one number are loaded as one key. -/
theorem session_keys_collapse : ¬ ∀ (crate : ConfigCrate) (vars vars' : Vars) (v v' : String)
    (cfg cfg' : Config), ReadsNames crate →
    Given crate vars .authSessionKey v → Given crate vars' .authSessionKey v' →
    fromEnv crate vars = .ok cfg → fromEnv crate vars' = .ok cfg' →
      cfg.auth.sessionKey = v ∧ (cfg.auth.sessionKey = cfg'.auth.sessionKey → v = v') := by
  intro h
  obtain ⟨cfg, hok⟩ := exists_of_isOk fromEnv_shortKey
  obtain ⟨cfg', hok'⟩ := exists_of_isOk fromEnv_roundKey
  have htext := value_eq_text readsNames_plain (given_keyVars "1e64") hok
  have htext' := value_eq_text readsNames_plain (given_keyVars roundKey) hok'
  rw [text_shortKey] at htext
  rw [text_roundKey] at htext'
  have hkeys := h .plain _ _ "1e64" roundKey cfg cfg' readsNames_plain (given_keyVars "1e64")
    (given_keyVars roundKey) hok hok'
  exact shortKey_ne (hkeys.2 (htext.trans htext'.symm))

end TodoRust.Settings
