import ScrapyCffi.Settings.Validator

/-!
# Defaults

Every default of a field passes the check of the field, and so do the default settings with any
valid component fields: `SettingsInfo()` is valid.
-/

namespace ScrapyCffi.Settings

open ScrapyCffi.Base ScrapyCffi.Base.Typed

variable {φ : Type} (py : Python φ)

/-- What the defaults need: floats of integers compare as these do, the default level is in upper
case and the default encoding is known. -/
structure KnowsDefaults : Prop where
  within : ∀ n b, py.checker.within (py.ofInt n) b = Bound.holds n b
  upper : py.upper "DEBUG" = "DEBUG"
  encoding : py.knowsEncoding "utf-8" = true

/-- The default of a row. -/
def Row.value (row : Row) : Datum φ := (row.default.map (Literal.datum py)).getD .none

/-- The defaults of rows. -/
def defaultsOf (rows : List Row) : List (String × Datum φ) :=
  rows.map fun row ↦ (row.name, row.value py)

/-- The literal has the type. -/
def Literal.has : Annotation → Literal → Bool
  | .bool, .bool _ => true
  | .int bounds, .int n => bounds.all (Bound.holds n)
  | .float bounds, .float n => bounds.all (Bound.holds n)
  | .str, .str _ => true
  | .path, .path _ => true
  | .member enum, .member name _ => name == enum
  | .secret, .secret _ => true
  | .optional _, .none => true
  | .optional t, d => Literal.has t d
  | .union s t, d => Literal.has s d || Literal.has t d
  | .list _, .emptyList => true
  | .dict, .emptyDict => true
  | .mapping _, .emptyDict => true
  | _, _ => false

/-- The default of a row has the type of the row. -/
def Row.fits (row : Row) : Bool :=
  match row.default with
  | some d => Literal.has row.type d
  | none => false

variable {py}

/-- A literal of a type has a value of the type. -/
theorem Literal.holds_datum (hpy : KnowsDefaults py) {t : Annotation} {d : Literal}
    (h : Literal.has t d = true) : t.holds py.checker.toInstances (d.datum py) = true := by
  induction t with
  | any => rfl
  | cls | subclass | callable | pair => cases h
  | bool | int | str | path | member | secret | list | dict | mapping =>
    cases d <;> exact h
  | float bounds =>
    cases d <;> try cases h
    next n =>
      change bounds.all (py.checker.within (py.ofInt n)) = true
      rw [show py.checker.within (py.ofInt n) = Bound.holds n from funext (hpy.within n)]
      exact h
  | optional t ih =>
    rw [ Annotation.holds, Bool.or_eq_true]
    cases d with
    | none => exact .inl rfl
    | _ => exact .inr (ih h)
  | union s t ihs iht =>
    rw [ Annotation.holds, Bool.or_eq_true]
    rw [Literal.has, Bool.or_eq_true] at h
    exact h.imp ihs iht

/-- Defaults that fit are valid. -/
theorem aligned_defaults (hpy : KnowsDefaults py) {rows : List Row}
    (hfits : ∀ row ∈ rows, row.fits = true) :
    Aligned FieldType.Valid (rows.map (Row.field py)) (defaultsOf py rows) := by
  induction rows with
  | nil => exact .nil
  | cons row rest ih =>
    rw [List.forall_mem_cons] at hfits
    refine .cons ⟨rfl, rfl, ?_, rfl⟩ (ih hfits.2)
    have hrow := hfits.1
    unfold Row.fits at hrow
    split at hrow
    · next d hd =>
      show row.type.holds py.checker.toInstances (row.value py) = true
      rw [Row.value, hd]
      exact Literal.holds_datum hpy hrow
    · cases hrow

/-- A model with the defaults of its rows is valid when its validator leaves them as they are. -/
theorem valid_record [DecidableEq φ] (hpy : KnowsDefaults py) {s : Schema φ} {rows : List Row}
    (hfields : s.fields = rows.map (Row.field py)) (hfits : ∀ row ∈ rows, row.fits = true)
    (hafter : s.after (defaultsOf py rows) = .ok (defaultsOf py rows)) :
    s.type.Valid (.record s.title (defaultsOf py rows)) :=
  ⟨_, rfl, hfields ▸ aligned_defaults hpy hfits, hafter⟩

variable (py)

/-- `LogInfo()`. -/
def defaultLogInfo : Datum φ :=
  .record "LogInfo" (defaultsOf py logRows ++
    [("LOG_LEVEL", .str "DEBUG"),
      ("LOG_FORMAT", .str "%(asctime)s [%(name)s] %(levelname)s: %(message)s"),
      ("LOG_DATEFORMAT", .str "%Y-%m-%d %H:%M:%S"),
      ("LOG_FILE", .str ""),
      ("LOG_ENCODING", .str "utf-8"),
      ("LOG_SHORT_NAMES", .atom (.bool false)),
      ("LOG_FORMATTER", .str "")])

/-- `KafkaInfo()`: the replication factor is inferred. -/
def defaultKafkaInfo : Datum φ :=
  .record "KafkaInfo" (Dict.assign "REPLICATION_FACTOR" (.atom (.int 1)) (defaultsOf py kafkaRows))

/-- `CPYExtensionsConfig()`. -/
def defaultCPYExtensions : Datum φ :=
  .record "CPYExtensionsConfig" [("DIR", .atom (.path "cpy_resources")), ("RESOURCES", .list [])]

/-- `SettingsInfo()`, with a value for the four component fields. -/
def defaultSettings (component : Datum φ) : SettingsInfo φ where
  fields :=
    defaultsOf py requestRows ++
    [("EMAIL_INFO", .record "EmailInfo" (defaultsOf py emailRows)),
      ("MONITOR_INFO", .record "MonitorInfo" (defaultsOf py monitorRows))] ++
    defaultsOf py resourceRows ++
    componentFields.map (fun name ↦ (name, component)) ++
    defaultsOf py backendRows ++
    [("BLOOM_INFO", .record "BloomInfo" (defaultsOf py bloomRows))] ++
    defaultsOf py schedulingRows ++
    [("LOG_INFO", defaultLogInfo py),
      ("REDIS_INFO", .record "RedisInfo" (defaultsOf py redisRows)),
      ("REDIS_STREAM_INFO", .none),
      ("MYSQL_INFO", .record "MysqlInfo" (defaultsOf py (sqlRows "mysql+asyncmy"))),
      ("POSTGRES_INFO", .record "PostgresInfo" (defaultsOf py (sqlRows "postgresql+asyncpg"))),
      ("POSTGRESS_INFO", .none),
      ("MONBODB_INFO", .record "MongodbInfo" (defaultsOf py baseDBRows)),
      ("RABBITMQ_INFO", .record "RabbitMQInfo" (defaultsOf py rabbitRows)),
      ("KAFKA_INFO", defaultKafkaInfo py),
      ("CPY_EXTENSIONS", defaultCPYExtensions)]
  extra := []
  newSeen := "cffiFilter_new_seen"
  sentSeen := "cffiFilter_sent_seen"

variable {py} [DecidableEq φ] (hpy : KnowsDefaults py)

include hpy

theorem valid_logInfo : (logInfo py).type.Valid (defaultLogInfo py) := by
  have hlevel : normalizeLevel py (.str "DEBUG") = .ok (.str "DEBUG") := by
    unfold normalizeLevel
    rw [show truthy py (.str "DEBUG") = true from rfl, if_pos rfl]
    show (if validLevels.contains (py.upper "DEBUG") then Except.ok (Datum.str (py.upper "DEBUG"))
      else _) = _
    rw [hpy.upper]
    rfl
  have hencoding : checkEncoding py (.str "utf-8") = .ok () := by
    show (if (false || py.knowsEncoding "utf-8") = true then _ else _) = _
    rw [hpy.encoding]
    rfl
  have hrows : Aligned FieldType.Valid (logRows.map (Row.field py)) (defaultsOf py logRows) :=
    aligned_defaults hpy (by decide)
  refine ⟨_, rfl, List.rel_append hrows ?_, rfl⟩
  refine .cons ⟨rfl, rfl, rfl, hlevel⟩ (.cons ⟨rfl, rfl, rfl, rfl⟩ (.cons ⟨rfl, rfl, rfl, rfl⟩
    (.cons ⟨rfl, rfl, rfl, rfl⟩ (.cons ⟨rfl, hencoding, rfl, rfl⟩ (.cons ⟨rfl, rfl, rfl, rfl⟩
      (.cons ⟨rfl, rfl, rfl, rfl⟩ .nil))))))

theorem valid_kafkaInfo : (kafkaInfo py).type.Valid (defaultKafkaInfo py) := by
  have hmem : Row.field py ⟨"REPLICATION_FACTOR", .optional (.int []), some .none⟩ ∈
      kafkaRows.map (Row.field py) := by simp [kafkaRows]
  have hnodup : ((kafkaRows.map (Row.field py)).map Field.name).Nodup := by
    rw [map_name_rows]
    decide
  refine ⟨_, rfl, (aligned_defaults hpy (by decide)).assign (List.mem_map_of_mem hmem) ?_, ?_⟩
  · intro f hf hname
    cases List.inj_on_of_nodup_map hnodup hf hmem hname
    exact ⟨rfl, rfl, rfl⟩
  · generalize hself : Dict.assign "REPLICATION_FACTOR" (.atom (.int 1)) (defaultsOf py kafkaRows) =
      self
    have hqueue : assembleQueueUrl py self = self := by
      subst hself
      rfl
    have hfactor : valueOf "REPLICATION_FACTOR" self = .atom (.int 1) := by
      subst hself
      rfl
    have hnodes : valueOf "CLUSTER_NODES" self = .list [] := by
      subst hself
      rfl
    show normalizeCluster py (assembleQueueUrl py self) = .ok self
    rw [hqueue, normalizeCluster, hqueue, inferFactor, hfactor]
    simp only [Datum.isNone, Bool.false_eq_true, if_false, hfactor, hnodes]
    rfl

/-- The default settings are valid with any valid component fields. -/
theorem valid_defaultSettings {component : Datum φ}
    (hcomponent : component = .none ∨ (componentInfo py).type.Valid component) :
    ValidSettings py (defaultSettings py component) where
  aligned := by
    refine List.rel_append (List.rel_append (List.rel_append (List.rel_append (List.rel_append
      (List.rel_append (List.rel_append (aligned_defaults hpy (by decide)) ?_)
        (aligned_defaults hpy (by decide))) ?_) (aligned_defaults hpy (by decide))) ?_)
          (aligned_defaults hpy (by decide))) ?_
    · exact .cons ⟨rfl, valid_record hpy rfl (by decide) rfl⟩
        (.cons ⟨rfl, valid_record hpy rfl (by decide) rfl⟩ .nil)
    · exact .cons ⟨rfl, hcomponent⟩ (.cons ⟨rfl, hcomponent⟩ (.cons ⟨rfl, hcomponent⟩
        (.cons ⟨rfl, hcomponent⟩ .nil)))
    · exact .cons ⟨rfl, .inr (valid_record hpy rfl (by decide) rfl)⟩ .nil
    · exact .cons ⟨rfl, .inr (valid_logInfo hpy)⟩
        (.cons ⟨rfl, valid_record hpy rfl (by decide) rfl⟩ (.cons ⟨rfl, .inl rfl⟩
        (.cons ⟨rfl, valid_record hpy rfl (by decide) rfl⟩
        (.cons ⟨rfl, valid_record hpy rfl (by decide) rfl⟩ (.cons ⟨rfl, .inl rfl⟩
        (.cons ⟨rfl, valid_record hpy rfl (by decide) rfl⟩
        (.cons ⟨rfl, valid_record hpy rfl (by decide) rfl⟩
        (.cons ⟨rfl, valid_kafkaInfo hpy⟩
        (.cons ⟨rfl, .inr ⟨_, rfl, .cons ⟨rfl, rfl, rfl, rfl⟩
          (.cons ⟨rfl, [], rfl, fun item hitem ↦ by cases hitem⟩ .nil), rfl⟩⟩ .nil)))))))))
  extra p hp := by cases hp
  distinct := List.nodup_nil
  settled := by
    generalize hself : defaultSettings py component = self
    have hruntime : selectRuntimeDir self = .ok self := by
      subst hself
      rfl
    have hsessions : truthy py (self.value "SCHEDULER_PERSIST_SESSIONS") = false := by
      subst hself
      rfl
    have hproxies : selectProxies py self = self := by
      subst hself
      rfl
    have hpostgres : selectPostgres py self = self := by
      subst hself
      rfl
    have hseen : withSeenNames py self = self := by
      subst hself
      rfl
    refine checkAfter_eq_ok.mpr ⟨self, hruntime, fun h ↦ ?_, ?_⟩
    · rw [hsessions] at h
      cases h
    · rw [hproxies, hpostgres, hseen]

omit [DecidableEq φ] hpy in
/-- Defaults are plain. -/
theorem keptRows_defaultsOf (rows : List Row) : KeptRows py rows (defaultsOf py rows) := by
  induction rows with
  | nil => exact .nil
  | cons row rest ih =>
    refine .cons ⟨rfl, ?_⟩ ih
    show (row.value py).plain = true
    unfold Row.value
    rcases row.default with _ | d
    · rfl
    · cases d <;> rfl

omit [DecidableEq φ] hpy in
/-- A model with the defaults of its rows is kept. -/
theorem kept_record [DecidableEq φ] {s : Schema φ} {rows : List Row}
    (hfields : s.fields = rows.map (Row.field py)) :
    s.type.Kept (.record s.title (defaultsOf py rows)) :=
  ⟨_, rfl, hfields ▸ keptRows_defaultsOf rows⟩

omit hpy in
/-- A dump keeps all default settings when they have no components. -/
theorem kept_defaultSettings :
    Aligned FieldType.Kept (settingsFields py) (defaultSettings py .none).fields := by
  refine List.rel_append (List.rel_append (List.rel_append (List.rel_append (List.rel_append
    (List.rel_append (List.rel_append (keptRows_defaultsOf _) ?_) (keptRows_defaultsOf _)) ?_)
      (keptRows_defaultsOf _)) ?_) (keptRows_defaultsOf _)) ?_
  · exact .cons ⟨rfl, kept_record rfl⟩ (.cons ⟨rfl, kept_record rfl⟩ .nil)
  · exact .cons ⟨rfl, rfl⟩ (.cons ⟨rfl, rfl⟩ (.cons ⟨rfl, rfl⟩ (.cons ⟨rfl, rfl⟩ .nil)))
  · exact .cons ⟨rfl, .inr (kept_record rfl)⟩ .nil
  · have hlog : (logInfo py).type.Kept (defaultLogInfo py) := by
      refine ⟨_, rfl, List.rel_append (keptRows_defaultsOf _) ?_⟩
      exact .cons ⟨rfl, rfl⟩ (.cons ⟨rfl, rfl⟩ (.cons ⟨rfl, rfl⟩ (.cons ⟨rfl, rfl⟩
        (.cons ⟨rfl, rfl⟩ (.cons ⟨rfl, rfl⟩ (.cons ⟨rfl, rfl⟩ .nil))))))
    have hkafka : (kafkaInfo py).type.Kept (defaultKafkaInfo py) :=
      ⟨_, rfl, (keptRows_defaultsOf kafkaRows).assign (by decide) rfl⟩
    exact .cons ⟨rfl, .inr hlog⟩ (.cons ⟨rfl, kept_record rfl⟩ (.cons ⟨rfl, .inl rfl⟩
      (.cons ⟨rfl, kept_record rfl⟩ (.cons ⟨rfl, kept_record rfl⟩ (.cons ⟨rfl, .inl rfl⟩
      (.cons ⟨rfl, kept_record rfl⟩ (.cons ⟨rfl, kept_record rfl⟩ (.cons ⟨rfl, hkafka⟩
      (.cons ⟨rfl, .inr ⟨_, rfl, .cons ⟨rfl, rfl⟩
        (.cons ⟨rfl, [], rfl, fun item hitem ↦ by cases hitem⟩ .nil)⟩⟩ .nil)))))))))

end ScrapyCffi.Settings
