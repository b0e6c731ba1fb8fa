import ScrapyCffi.Settings.Models

/-!
# Dumps of the models

Every model that settings nest is read back from its dump, as far as its free-form parts hold no
records: the validators leave alone what they left, `config/database.py`, `config/queue.py`.
-/

namespace ScrapyCffi.Settings

open ScrapyCffi.Base ScrapyCffi.Base.Typed

variable {φ : Type} {py : Python φ} {rows : List Row} {self : List (String × Datum φ)}
  {name key : String} {v : Datum φ}

/-- A value after an assignment. -/
theorem valueOf_assign :
    valueOf name (Dict.assign key v self) = if name = key then v else valueOf name self := by
  rw [valueOf, Dict.lookup_assign]
  split
  · rfl
  · rfl

/-- The names of rows. -/
theorem map_name_rows (py : Python φ) :
    (rows.map (Row.field py)).map Field.name = rows.map Row.name := by
  rw [List.map_map]
  rfl

/-- The types of rows obey the laws. -/
theorem rows_lawful (hpy : py.checker.Lawful) :
    ∀ f ∈ rows.map (Row.field py), f.type.Lawful := by
  intro f hf
  obtain ⟨row, -, rfl⟩ := List.mem_map.mp hf
  exact FieldType.plain_lawful hpy

/-- The values of rows are kept when they are plain. -/
def KeptRows (py : Python φ) (rows : List Row) (self : List (String × Datum φ)) : Prop :=
  Aligned FieldType.Kept (rows.map (Row.field py)) self

/-- An assignment of plain data. -/
theorem KeptRows.assign (h : KeptRows py rows self) (hname : name ∈ rows.map Row.name)
    (hplain : v.plain = true) : KeptRows py rows (Dict.assign name v self) := by
  apply Aligned.assign h
  · rw [map_name_rows]
    exact hname
  · intro f hf _
    obtain ⟨row, -, rfl⟩ := List.mem_map.mp hf
    exact hplain

/-- A URL is assembled from plain data. -/
theorem KeptRows.assembleUrl (h : KeptRows py rows self) (hname : "URL" ∈ rows.map Row.name)
    (scheme rest : String) : KeptRows py rows (assembleUrl py scheme rest self) := by
  unfold Settings.assembleUrl
  split
  · exact h.assign hname rfl
  · exact h

/-- The URL of a queue and its mode. -/
theorem KeptRows.assembleQueueUrl (h : KeptRows py rows self) (hurl : "URL" ∈ rows.map Row.name)
    (hmode : "MODE" ∈ rows.map Row.name) : KeptRows py rows (assembleQueueUrl py self) := by
  unfold Settings.assembleQueueUrl
  dsimp only
  split
  · exact (h.assembleUrl hurl _ _).assign hmode rfl
  · exact h.assembleUrl hurl _ _

/-- A model of rows whose validator only assigns plain data. -/
theorem lawful_of_rows [DecidableEq φ] (hpy : py.checker.Lawful) {s : Schema φ}
    (hfields : s.fields = rows.map (Row.field py)) (hnodup : (rows.map Row.name).Nodup)
    (hbefore : s.before = id)
    (hafter : ∀ self others, KeptRows py rows self → s.after self = .ok others →
      KeptRows py rows others) : s.type.Lawful := by
  apply Schema.lawful
  · rw [hfields]
    exact rows_lawful hpy
  · rw [hfields, map_name_rows]
    exact hnodup
  · intro values _ _
    rw [hbefore]
    rfl
  · intro values others hkept h
    rw [hfields] at hkept ⊢
    exact hafter values others hkept h

section

variable [DecidableEq φ] (hpy : py.checker.Lawful)

include hpy

theorem mysqlInfo_lawful : (mysqlInfo py).type.Lawful := by
  apply lawful_of_rows hpy rfl (by decide) rfl
  intro self others h hafter
  cases hafter
  exact h.assembleUrl (by decide) _ _

theorem postgresInfo_lawful : (postgresInfo py).type.Lawful := by
  apply lawful_of_rows hpy rfl (by decide) rfl
  intro self others h hafter
  cases hafter
  exact h.assembleUrl (by decide) _ _

theorem mongodbInfo_lawful : (mongodbInfo py).type.Lawful := by
  apply lawful_of_rows hpy rfl (by decide) rfl
  intro self others h hafter
  cases hafter
  exact h.assembleUrl (by decide) _ _

theorem redisInfo_lawful : (redisInfo py).type.Lawful := by
  have hmode : "MODE" ∈ redisRows.map Row.name := by decide
  have hurl : "URL" ∈ redisRows.map Row.name := by decide
  apply lawful_of_rows hpy rfl (by decide) rfl
  intro self others h hafter
  have hinfer : KeptRows py redisRows (inferMode py self) := by
    unfold inferMode
    split
    · exact h.assign hmode rfl
    · split
      · exact h.assign hmode rfl
      · exact h
  have hsingle : KeptRows py redisRows (singleUrl py (inferMode py self)) := by
    unfold singleUrl
    split
    · exact hinfer.assembleUrl hurl _ _
    · dsimp only
      split
      · exact hinfer.assign hurl rfl
      · exact hinfer
  change assembleRedisUrl py self = _ at hafter
  unfold assembleRedisUrl at hafter
  split at hafter
  · cases hafter
  · dsimp only at hafter
    split at hafter
    · cases hafter
      exact hsingle
    · cases hafter
      exact hinfer

theorem rabbitMQInfo_lawful : (rabbitMQInfo py).type.Lawful := by
  have hurl : "URL" ∈ rabbitRows.map Row.name := by decide
  apply lawful_of_rows hpy rfl (by decide) rfl
  intro self others h hafter
  have hqueue := h.assembleQueueUrl hurl (by decide)
  cases hafter
  unfold assembleRabbitUrl
  dsimp only
  split
  · split
    · exact hqueue
    · exact hqueue.assign hurl rfl
  · exact hqueue

theorem emailInfo_lawful : (emailInfo py).type.Lawful := by
  apply lawful_of_rows hpy rfl (by decide) rfl
  intro self others h hafter
  change (if _ then _ else _) = _ at hafter
  split at hafter
  · cases hafter
  · cases hafter
    exact h

theorem rowSchema_lawful {title : String} (hnodup : (rows.map Row.name).Nodup) :
    (rowSchema py title rows).type.Lawful := by
  apply lawful_of_rows hpy rfl hnodup rfl
  intro self others h hafter
  cases hafter
  exact h

theorem cpyExtensionsConfig_lawful : (cpyExtensionsConfig py).type.Lawful := by
  apply Schema.lawful_of_fields
  · intro f hf
    simp only [cpyExtensionsConfig, List.mem_cons, List.not_mem_nil, or_false] at hf
    rcases hf with rfl | rfl
    · exact FieldType.plain_lawful hpy
    · exact FieldType.list_lawful (rowSchema_lawful hpy (by decide))
  · show ["DIR", "RESOURCES"].Nodup
    decide
  · rfl
  · intro values others h
    cases h
    rfl

theorem logInfo_lawful : (logInfo py).type.Lawful := by
  apply Schema.lawful_of_fields
  · intro f hf
    rcases List.mem_append.mp hf with hf | hf
    · exact rows_lawful hpy f hf
    simp only [List.mem_cons, List.not_mem_nil, or_false] at hf
    rcases hf with rfl | rfl | rfl | rfl | rfl | rfl | rfl
    · apply FieldType.checked_lawful hpy
      intro v w hplain h
      unfold normalizeLevel at h
      split at h
      · dsimp only at h
        split at h
        · cases h
          rfl
        · cases h
      · cases h
        exact hplain
    · exact FieldType.plain_lawful hpy
    · exact FieldType.plain_lawful hpy
    · exact FieldType.plain_lawful hpy
    · apply FieldType.checked_lawful hpy
      intro v w hplain h
      cases h
      exact hplain
    · exact FieldType.plain_lawful hpy
    · exact FieldType.plain_lawful hpy
  · show ["LOG_ENABLED", "LOG_WITH_STREAM", "LOG_LEVEL", "LOG_FORMAT", "LOG_DATEFORMAT",
      "LOG_FILE", "LOG_ENCODING", "LOG_SHORT_NAMES", "LOG_FORMATTER"].Nodup
    decide
  · rfl
  · intro values others h
    cases h
    rfl

end

/-! ## Kafka -/

/-- An assembled URL is not empty. -/
theorem truthy_url (a b : String) : truthy py (.str (a ++ "://" ++ b)) = true := by
  show (a ++ "://" ++ b != "") = true
  rw [bne_iff_ne, Ne, String.append_eq_empty_iff, String.append_eq_empty_iff]
  exact fun h ↦ absurd h.1.2 (by decide)

/-- What a URL is assembled from is there, or the URL is. -/
theorem lacksUrl_assembleUrl (scheme rest : String) :
    lacksUrl py (assembleUrl py scheme rest self) = false := by
  unfold assembleUrl
  split
  · unfold lacksUrl
    rw [valueOf_assign, if_pos rfl, String.append_assoc, String.append_assoc, String.append_assoc,
      String.append_assoc, truthy_url]
    rfl
  · next h => exact Bool.eq_false_of_not_eq_true h

theorem lacksUrl_assign (hname : name ≠ "URL" ∧ name ≠ "HOST" ∧ name ≠ "PORT") :
    lacksUrl py (Dict.assign name v self) = lacksUrl py self := by
  unfold lacksUrl
  rw [valueOf_assign, if_neg hname.1.symm, valueOf_assign, if_neg hname.2.1.symm, valueOf_assign,
    if_neg hname.2.2.symm]

theorem lacksUrl_assembleQueueUrl : lacksUrl py (assembleQueueUrl py self) = false := by
  unfold assembleQueueUrl
  dsimp only
  split
  · rw [lacksUrl_assign (by decide), lacksUrl_assembleUrl]
  · exact lacksUrl_assembleUrl _ _

/-- What `normalize_cluster` returns. -/
theorem normalizeCluster_eq_ok {others : List (String × Datum φ)}
    (h : normalizeCluster py self = .ok others) :
    others = inferFactor py (assembleQueueUrl py self) := by
  unfold normalizeCluster at h
  dsimp only at h
  split at h
  · cases h
  · split at h
    · cases h
    · exact (Except.ok.inj h).symm

/-- A validated queue does not lack a URL that could be assembled. -/
theorem lacksUrl_normalizeCluster {others : List (String × Datum φ)}
    (h : normalizeCluster py self = .ok others) : lacksUrl py others = false := by
  rw [normalizeCluster_eq_ok h, inferFactor]
  split
  · rw [lacksUrl_assign (by decide), lacksUrl_assembleQueueUrl]
  · exact lacksUrl_assembleQueueUrl

/-- A row's value in valid data is its own dump. -/
theorem entryOf_dumpFields [DecidableEq φ] {row : Row} (hrow : row ∈ rows)
    (htyped : row.type.typed = true) (hnodup : (rows.map Row.name).Nodup)
    (hvalid : Aligned FieldType.Valid (rows.map (Row.field py)) self) :
    entryOf row.name (dumpFields self) = valueOf row.name self := by
  rw [← map_name_rows py] at hnodup
  obtain ⟨v, hv, hrowvalid⟩ := hvalid.of_lookup hnodup (List.mem_map_of_mem hrow)
  have hplain : v.plain = true := FieldType.kept_of_typed htyped hrowvalid
  change Dict.lookup row.name self = some v at hv
  rw [entryOf, lookup_dumpFields, valueOf, hv]
  exact v.dump_eq_self hplain

theorem kafkaInfo_lawful [DecidableEq φ] (hpy : py.checker.Lawful) :
    (kafkaInfo py).type.Lawful := by
  have hnodup : (kafkaRows.map Row.name).Nodup := by decide
  have hurl : "URL" ∈ kafkaRows.map Row.name := by decide
  have hmode : "MODE" ∈ kafkaRows.map Row.name := by decide
  apply Schema.lawful
  · exact rows_lawful hpy
  · exact (map_name_rows py).symm ▸ hnodup
  · intro values hvalid hafter
    have hentry : ∀ row ∈ kafkaRows, row.type.typed = true →
        entryOf row.name (dumpFields values) = valueOf row.name values :=
      fun row hrow htyped ↦ entryOf_dumpFields hrow htyped hnodup hvalid
    have hurl := hentry ⟨"URL", .optional .str, some .none⟩ (by simp [kafkaRows, queueRows]) rfl
    have hhost := hentry ⟨"HOST", .optional .str, some .none⟩ (by simp [kafkaRows, queueRows]) rfl
    have hport := hentry ⟨"PORT", .optional (.union .str (.int [])), some .none⟩
      (by simp [kafkaRows, queueRows]) rfl
    show assembleBootstrapServer py (dumpFields values) = _
    unfold assembleBootstrapServer
    rw [hurl, hhost, hport, if_neg]
    intro hlacks
    exact Bool.false_ne_true ((lacksUrl_normalizeCluster hafter).symm.trans hlacks)
  · intro values others hkept hafter
    have hqueue : KeptRows py kafkaRows (assembleQueueUrl py (assembleQueueUrl py values)) :=
      (KeptRows.assembleQueueUrl hkept hurl hmode).assembleQueueUrl hurl hmode
    rw [normalizeCluster_eq_ok hafter, inferFactor]
    split
    · exact hqueue.assign (by decide) rfl
    · exact hqueue

end ScrapyCffi.Settings
