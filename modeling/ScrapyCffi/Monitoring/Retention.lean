import ScrapyCffi.Monitoring.Counts
import ScrapyCffi.Monitoring.Replay

/-!
# What the monitoring store retains

After every call the store keeps to its limits, its side maps have keys of kept runs and workers
only, and a run that is not over was evicted only if no run that is over is left.
-/

namespace ScrapyCffi.Monitoring

open ScrapyCffi.Base

variable {τ : Type} [LinearOrder τ]

/-! ## The oldest entry -/

section Oldest

variable {κ α : Type}

/-- The best entry of a fold is one of the entries, and none is of a lesser kind. -/
theorem foldl_oldest (age : α → Bool × τ) (entry : κ × α) (rest : List (κ × α)) :
    let best := rest.foldl (fun best other ↦
      let (a, b) := (age other.2, age best.2)
      if a.1 < b.1 ∨ a.1 = b.1 ∧ a.2 < b.2 then other else best) entry
    best ∈ entry :: rest ∧ ∀ other ∈ entry :: rest, (age best.2).1 ≤ (age other.2).1 := by
  induction rest generalizing entry with
  | nil => simp
  | cons next rest ih =>
    rw [List.foldl_cons]
    dsimp only
    split
    · next hless =>
      obtain ⟨hmem, hbest⟩ := ih next
      obtain ⟨hnext, hrest⟩ := List.forall_mem_cons.mp hbest
      have hle : (age next.2).1 ≤ (age entry.2).1 := by
        rcases hless with hlt | ⟨heq, -⟩
        · exact hlt.le
        · exact heq.le
      exact ⟨List.mem_cons_of_mem _ hmem, List.forall_mem_cons.mpr
        ⟨hnext.trans hle, hbest⟩⟩
    · next hless =>
      obtain ⟨hmem, hbest⟩ := ih entry
      obtain ⟨hentry, hrest⟩ := List.forall_mem_cons.mp hbest
      have hle : (age entry.2).1 ≤ (age next.2).1 := not_lt.mp fun hlt ↦ hless (.inl hlt)
      refine ⟨?_, List.forall_mem_cons.mpr ⟨hentry, List.forall_mem_cons.mpr
        ⟨hentry.trans hle, hrest⟩⟩⟩
      rcases List.mem_cons.mp hmem with heq | hmem
      · exact List.mem_cons.mpr (.inl heq)
      · exact List.mem_cons_of_mem _ (List.mem_cons_of_mem _ hmem)

/-- `min` gives the key of an entry, and no entry is of a lesser kind. -/
theorem oldest_spec {age : α → Bool × τ} {entries : List (κ × α)} {key : κ}
    (h : MonitorStore.oldest age entries = some key) :
    ∃ value, (key, value) ∈ entries ∧ ∀ other ∈ entries, (age value).1 ≤ (age other.2).1 := by
  cases entries with
  | nil => cases h
  | cons entry rest =>
    obtain ⟨hmem, hbest⟩ := foldl_oldest age entry rest
    cases h
    exact ⟨_, hmem, hbest⟩

/-- `min` of a dictionary that is not empty gives a key. -/
theorem oldest_ne_none (age : α → Bool × τ) {entries : List (κ × α)} (h : entries ≠ []) :
    MonitorStore.oldest age entries ≠ none := by
  cases entries with
  | nil => exact absurd rfl h
  | cons entry rest => exact Option.some_ne_none _

end Oldest

/-- A dictionary loses an entry with a key that it has. -/
theorem length_erase_lt {κ α : Type} [DecidableEq κ] {d : Dict κ α} {key : κ} {value : α}
    (h : (key, value) ∈ d.entries) : (d.erase key).entries.length < d.entries.length := by
  apply List.length_filter_lt_length_iff_exists.mpr
  exact ⟨_, h, by simp⟩

namespace MonitorStore

variable {s : MonitorStore τ}

/-! ## The loops of `_enforce_limits` -/

/-- The side maps have keys of kept runs and workers. -/
structure Indexed (s : MonitorStore τ) : Prop where
  runs : ∀ runId, s.runs.get runId = none →
    s.runActiveEngines.get runId = none ∧ s.runEventIds.get runId = none
  workers : ∀ key, s.workers.get key = none → s.activeEngines.get key = none

/-- One eviction of a run. -/
def evictRun (s : MonitorStore τ) (runId : String) : MonitorStore τ :=
  { s with
    runs := s.runs.erase runId
    runActiveEngines := s.runActiveEngines.erase runId
    runEventIds := s.runEventIds.erase runId }

/-- One eviction of a worker. -/
def evictWorker (s : MonitorStore τ) (key : WorkerKey) : MonitorStore τ :=
  { s with
    workers := s.workers.erase key
    activeEngines := s.activeEngines.erase key }

/-- A round of the first loop: nothing is to be done, or a run is evicted that is not over only if
all of them are not. -/
theorem evictRuns_succ (s : MonitorStore τ) (fuel : Nat) :
    s.runs.entries.length ≤ s.maxRuns ∧ s.evictRuns (fuel + 1) = s ∨
    ∃ runId run, (runId, run) ∈ s.runs.entries ∧
      (run.state.isTerminal = false → ∀ p ∈ s.runs.entries, p.2.state.isTerminal = false) ∧
      s.evictRuns (fuel + 1) = (s.evictRun runId).evictRuns fuel := by
  rw [evictRuns]
  split
  · next hle => exact .inl ⟨hle, rfl⟩
  · next hlt =>
    have hne : s.runs.entries ≠ [] := by
      intro hnil
      rw [hnil] at hlt
      exact hlt (Nat.zero_le _)
    split
    · next hnone => exact absurd hnone (oldest_ne_none _ hne)
    · next runId hsome =>
      obtain ⟨run, hmem, hbest⟩ := oldest_spec hsome
      refine .inr ⟨runId, run, hmem, fun hrun p hp ↦ ?_, rfl⟩
      have hle := hbest p hp
      dsimp only at hle
      rw [hrun] at hle
      revert hle
      cases p.2.state.isTerminal <;> decide

/-- A round of the second loop. -/
theorem evictWorkers_succ (s : MonitorStore τ) (fuel : Nat) :
    s.workers.entries.length ≤ s.maxWorkers ∧ s.evictWorkers (fuel + 1) = s ∨
    ∃ key worker, (key, worker) ∈ s.workers.entries ∧
      s.evictWorkers (fuel + 1) = (s.evictWorker key).evictWorkers fuel := by
  rw [evictWorkers]
  split
  · next hle => exact .inl ⟨hle, rfl⟩
  · next hlt =>
    have hne : s.workers.entries ≠ [] := by
      intro hnil
      rw [hnil] at hlt
      exact hlt (Nat.zero_le _)
    split
    · next hnone => exact absurd hnone (oldest_ne_none _ hne)
    · next key hsome =>
      obtain ⟨worker, hmem, -⟩ := oldest_spec hsome
      exact .inr ⟨key, worker, hmem, rfl⟩

omit [LinearOrder τ] in
/-- An eviction takes the run out of the side maps. -/
theorem Indexed.evictRun (h : s.Indexed) (runId : String) : (s.evictRun runId).Indexed := by
  refine ⟨fun other hother ↦ ?_, h.workers⟩
  have hother : (s.runs.erase runId).get other = none := hother
  show (s.runActiveEngines.erase runId).get other = none ∧
    (s.runEventIds.erase runId).get other = none
  rw [Dict.get_erase] at hother
  rw [Dict.get_erase, Dict.get_erase]
  by_cases hid : other = runId
  · rw [if_pos hid, if_pos hid]
    exact ⟨rfl, rfl⟩
  · rw [if_neg hid] at hother
    rw [if_neg hid, if_neg hid]
    exact h.runs other hother

omit [LinearOrder τ] in
/-- An eviction takes the worker out of the side map. -/
theorem Indexed.evictWorker (h : s.Indexed) (key : WorkerKey) : (s.evictWorker key).Indexed := by
  refine ⟨h.runs, fun other hother ↦ ?_⟩
  have hother : (s.workers.erase key).get other = none := hother
  show (s.activeEngines.erase key).get other = none
  rw [Dict.get_erase] at hother
  rw [Dict.get_erase]
  by_cases hkey : other = key
  · rw [if_pos hkey]
  · rw [if_neg hkey] at hother
    rw [if_neg hkey]
    exact h.workers other hother

/-- What the first loop leaves. -/
structure RunsEvicted (s t : MonitorStore τ) : Prop where
  indexed : s.Indexed → t.Indexed
  length_le : t.runs.entries.length ≤ t.maxRuns
  priority : ∀ runId run, s.runs.get runId = some run → run.state.isTerminal = false →
    t.runs.get runId = none → ∀ p ∈ t.runs.entries, p.2.state.isTerminal = false
  mem : ∀ p ∈ t.runs.entries, p ∈ s.runs.entries
  workers : t.workers = s.workers
  maxWorkers : t.maxWorkers = s.maxWorkers

/-- The first loop ends within the limit. -/
theorem runsEvicted (s : MonitorStore τ) (fuel : Nat) (h : s.runs.entries.length ≤ fuel) :
    s.RunsEvicted (s.evictRuns fuel) := by
  induction fuel generalizing s with
  | zero =>
    refine ⟨id, h.trans (Nat.zero_le _), fun runId run hrun _ hnone ↦ ?_, fun _ ↦ id, rfl, rfl⟩
    cases hrun.symm.trans hnone
  | succ fuel ih =>
    rcases s.evictRuns_succ fuel with ⟨hle, heq⟩ | ⟨runId, run, hmem, hkind, heq⟩
    · rw [heq]
      refine ⟨id, hle, fun runId run hrun _ hnone ↦ ?_, fun _ ↦ id, rfl, rfl⟩
      cases hrun.symm.trans hnone
    · have hlt : (s.evictRun runId).runs.entries.length < s.runs.entries.length :=
        length_erase_lt hmem
      have hrest := ih (s.evictRun runId) (by omega)
      have hsub : ∀ p ∈ (s.evictRun runId).runs.entries, p ∈ s.runs.entries :=
        fun p hp ↦ List.mem_of_mem_filter hp
      rw [heq]
      refine ⟨fun hi ↦ hrest.indexed (hi.evictRun runId), hrest.length_le, ?_,
        fun p hp ↦ hsub p (hrest.mem p hp), hrest.workers, hrest.maxWorkers⟩
      intro other found hfound hnot hnone
      by_cases hid : other = runId
      · subst hid
        have hsame : found = run := by
          have hget := Dict.get_of_mem hmem
          exact Option.some.inj (hfound.symm.trans hget)
        exact fun p hp ↦ hkind (hsame ▸ hnot) p (hsub p (hrest.mem p hp))
      · refine hrest.priority other found ?_ hnot hnone
        show (s.runs.erase runId).get other = some found
        rw [Dict.get_erase, if_neg hid]
        exact hfound

/-- What the second loop leaves. -/
structure WorkersEvicted (s t : MonitorStore τ) : Prop where
  indexed : s.Indexed → t.Indexed
  length_le : t.workers.entries.length ≤ t.maxWorkers
  maxRuns : t.maxRuns = s.maxRuns

/-- The second loop ends within the limit. -/
theorem workersEvicted (s : MonitorStore τ) (fuel : Nat) (h : s.workers.entries.length ≤ fuel) :
    s.WorkersEvicted (s.evictWorkers fuel) := by
  induction fuel generalizing s with
  | zero => exact ⟨id, h.trans (Nat.zero_le _), rfl⟩
  | succ fuel ih =>
    rcases s.evictWorkers_succ fuel with ⟨hle, heq⟩ | ⟨key, worker, hmem, heq⟩
    · rw [heq]
      exact ⟨id, hle, rfl⟩
    · have hlt : (s.evictWorker key).workers.entries.length < s.workers.entries.length :=
        length_erase_lt hmem
      have hrest := ih (s.evictWorker key) (by omega)
      rw [heq]
      exact ⟨fun hi ↦ hrest.indexed (hi.evictWorker key), hrest.length_le, hrest.maxRuns⟩

/-! ## One call -/

/-- A store that keeps to its limits. -/
structure Bounded (s : MonitorStore τ) : Prop extends s.Indexed where
  runs_le : s.runs.entries.length ≤ s.maxRuns
  workers_le : s.workers.entries.length ≤ s.maxWorkers

/-- The store in which an event has been merged, before its limits are enforced. -/
def mergeStore (s : MonitorStore τ) (e : RunEvent τ) (now : τ) : MonitorStore τ :=
  let recorded := (s.releaseTerminalEngines e).recordWorker e now
  match e.runId with
  | none => recorded.2
  | some runId =>
    let s := recorded.2.recordRun e runId now
    let worker := { recorded.1 with activeRuns := s.countActiveRuns e.worker }
    { s with workers := s.workers.set e.worker worker }

/-- The store with the runs and workers of a call, before its limits are enforced. -/
def recorded (s : MonitorStore τ) (e : RunEvent τ) (now : τ) : MonitorStore τ :=
  match e.runId with
  | none => s.mergeStore e now
  | some runId => if s.accepts e runId then (s.accept e runId).mergeStore e now else s

/-- A run that is not over, of a call's own event or an earlier one, is evicted only when no run
that is over is left. -/
def EvictsTerminalFirst (s : MonitorStore τ) (e : RunEvent τ) (now : τ) : Prop :=
  ∀ runId run, (s.recorded e now).runs.get runId = some run → run.state.isTerminal = false →
    (s.record e now).2.runs.get runId = none →
      ∀ p ∈ (s.record e now).2.runs.entries, p.2.state.isTerminal = false

section Merge

variable {e : RunEvent τ}

omit [LinearOrder τ]

/-- The side maps have keys of kept runs and workers, but perhaps those of an event. -/
structure IndexedBut (s : MonitorStore τ) (e : RunEvent τ) : Prop where
  runs : ∀ runId, e.runId ≠ some runId → s.runs.get runId = none →
    s.runActiveEngines.get runId = none ∧ s.runEventIds.get runId = none
  workers : ∀ key, key ≠ e.worker → s.workers.get key = none → s.activeEngines.get key = none

theorem Indexed.but (h : s.Indexed) (e : RunEvent τ) : s.IndexedBut e :=
  ⟨fun runId _ ↦ h.runs runId, fun key _ ↦ h.workers key⟩

theorem IndexedBut.accept {runId : String} (hid : e.runId = some runId) (h : s.IndexedBut e) :
    (s.accept e runId).IndexedBut e := by
  refine ⟨fun other hother hnone ↦ ?_, h.workers⟩
  have hne : other ≠ runId := fun heq ↦ hother (heq ▸ hid)
  show s.runActiveEngines.get other = none ∧ (s.runEventIds.set runId e.eventId).get other = none
  rw [Dict.get_set, if_neg hne]
  exact h.runs other hother hnone

theorem IndexedBut.releaseTerminalEngines (h : s.IndexedBut e) :
    (s.releaseTerminalEngines e).IndexedBut e := by
  rw [MonitorStore.releaseTerminalEngines]
  split
  · exact h
  · next runId hid =>
    split
    · constructor
      · intro other hother hnone
        have hne : other ≠ runId := fun heq ↦ hother (heq ▸ hid)
        show (s.runActiveEngines.set runId 0).get other = none ∧ s.runEventIds.get other = none
        rw [Dict.get_set, if_neg hne]
        exact h.runs other hother hnone
      · intro key hkey hnone
        show (s.activeEngines.set e.worker _).get key = none
        rw [Dict.get_set, if_neg hkey]
        exact h.workers key hkey hnone
    · exact h

/-- The worker of an event is kept. -/
theorem IndexedBut.recordWorker (h : s.IndexedBut e) (now : τ) :
    (s.recordWorker e now).2.IndexedBut e ∧ ∀ key,
      (s.recordWorker e now).2.workers.get key = none →
        (s.recordWorker e now).2.activeEngines.get key = none := by
  have hworkers : ∀ key, (s.recordWorker e now).2.workers.get key = none →
      (s.recordWorker e now).2.activeEngines.get key = none := by
    intro key hnone
    rw [MonitorStore.recordWorker] at hnone ⊢
    dsimp only at hnone ⊢
    rw [Dict.get_set] at hnone ⊢
    split at hnone
    · cases hnone
    · next hkey =>
      rw [if_neg hkey]
      exact h.workers key hkey hnone
  exact ⟨⟨h.runs, fun key _ ↦ hworkers key⟩, hworkers⟩

/-- An event puts its worker and its run into the main maps. -/
theorem IndexedBut.mergeStore (h : s.IndexedBut e) (now : τ) : (s.mergeStore e now).Indexed := by
  obtain ⟨hbut, hworkers⟩ := h.releaseTerminalEngines.recordWorker now
  rw [MonitorStore.mergeStore]
  split
  · next hid => exact ⟨fun runId ↦ hbut.runs runId (by simp [hid]), hworkers⟩
  · next runId hid =>
    constructor
    · intro other hnone
      rw [MonitorStore.recordRun] at hnone ⊢
      dsimp only at hnone ⊢
      rw [Dict.get_set] at hnone ⊢
      split at hnone
      · cases hnone
      · next hne =>
        rw [if_neg hne]
        exact hbut.runs other (fun heq ↦ hne (Option.some.inj (hid.symm.trans heq)).symm) hnone
    · intro key hnone
      dsimp only [MonitorStore.recordRun] at hnone ⊢
      rw [Dict.get_set] at hnone
      split at hnone
      · cases hnone
      · exact hworkers key hnone

/-- An event is merged into a store whose side maps have keys of kept runs and workers. -/
theorem Indexed.recorded (h : s.Indexed) (e : RunEvent τ) (now : τ) :
    (s.recorded e now).Indexed := by
  rw [MonitorStore.recorded]
  split
  · exact (h.but e).mergeStore now
  · next runId hid =>
    split
    · exact ((h.but e).accept hid).mergeStore now
    · exact h

end Merge

/-- What `_enforce_limits` leaves. -/
theorem Indexed.enforceLimits (h : s.Indexed) : s.enforceLimits.Bounded := by
  have hruns := s.runsEvicted s.runs.entries.length (Nat.le_refl _)
  have hworkers := (s.evictRuns s.runs.entries.length).workersEvicted _ (Nat.le_refl _)
  rw [MonitorStore.enforceLimits]
  refine ⟨hworkers.indexed (hruns.indexed h), ?_, hworkers.length_le⟩
  rw [runs_evictWorkers, hworkers.maxRuns]
  exact hruns.length_le

/-- `merge` enforces the limits on what it has merged. -/
theorem merge_store (s : MonitorStore τ) (e : RunEvent τ) (now : τ) :
    (s.merge e now).2 = (s.mergeStore e now).enforceLimits := by
  cases hid : e.runId <;> simp only [merge, mergeStore, hid]

/-- A call returns with the limits enforced, or changes nothing. -/
theorem record_store (s : MonitorStore τ) (e : RunEvent τ) (now : τ) :
    (s.record e now).2 = (s.recorded e now).enforceLimits ∨
      (s.record e now).2 = s ∧ s.recorded e now = s := by
  have hmerge : ∀ u : MonitorStore τ, ((u.merge e now).map (Except.ok (ε := WorkerKey)) id).2 =
      (u.mergeStore e now).enforceLimits := fun u ↦ u.merge_store e now
  cases hid : e.runId with
  | none =>
    left
    simp only [record, recorded, hid, hmerge]
  | some runId =>
    by_cases haccepts : s.accepts e runId
    · left
      simp only [record, recorded, hid, haccepts, if_true, hmerge]
    · right
      simp only [record, recorded, hid, if_neg haccepts]
      constructor
      · split <;> rfl
      · trivial

/-- A call keeps to the limits. -/
theorem Bounded.record (h : s.Bounded) (e : RunEvent τ) (now : τ) :
    (s.record e now).2.Bounded := by
  rcases s.record_store e now with heq | ⟨heq, -⟩
  · rw [heq]
    exact (h.toIndexed.recorded e now).enforceLimits
  · rw [heq]
    exact h

/-- A call evicts what is over first. -/
theorem evictsTerminalFirst (s : MonitorStore τ) (e : RunEvent τ) (now : τ) :
    s.EvictsTerminalFirst e now := by
  intro runId run hrun hnot hnone p hp
  rcases s.record_store e now with heq | ⟨heq, hsame⟩
  · rw [heq, enforceLimits, runs_evictWorkers] at hnone hp
    have hruns := (s.recorded e now).runsEvicted _ (Nat.le_refl _)
    exact hruns.priority runId run hrun hnot hnone p hp
  · rw [heq] at hnone
    rw [hsame, hnone] at hrun
    cases hrun

/-- After every sequence of calls the store keeps to its limits, and the next call evicts runs
that are not over only when no other is left. -/
theorem bounded_and_live (h : (machine τ).Reachable s) :
    s.Bounded ∧ ∀ e now, s.EvictsTerminalFirst e now := by
  refine ⟨h.invariant (I := Bounded) (fun u hinit ↦ ?_) (fun u call v _ ih _ hstep ↦ ?_),
    s.evictsTerminalFirst⟩
  · obtain ⟨_, _, _, _, rfl⟩ := hinit
    exact ⟨⟨fun _ _ ↦ ⟨rfl, rfl⟩, fun _ _ ↦ rfl⟩, Nat.zero_le _, Nat.zero_le _⟩
  · cases hstep
    exact ih.record call.1 call.2

/-- A third run takes the place of the one that is over. -/
def threeRuns : MonitorStore Nat :=
  (runsOnOneWorker.record (engineStarted "three" (by decide)) 4).2

/-- The store that was full keeps to its limit of two runs. -/
theorem bounded_and_live_threeRuns : threeRuns.Bounded ∧
    ∀ e now, threeRuns.EvictsTerminalFirst e now :=
  bounded_and_live (.step (e := (engineStarted "three" (by decide), 4))
    (.step (e := (engineStopped "one" (by decide), 3))
      (.step (e := (engineStarted "two" (by decide), 2))
        (.step (e := (engineStarted "one" (by decide), 1))
          (.init ⟨1, 2, by decide, by decide, rfl⟩) trivial rfl)
        trivial rfl)
      trivial rfl)
    trivial rfl)

end MonitorStore
end ScrapyCffi.Monitoring
