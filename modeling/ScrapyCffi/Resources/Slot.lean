import Mathlib.Logic.Function.Basic
import ScrapyCffi.Base.Machine

/-!
# A replaceable resource

`ResourceSlot` (`service/resilience.py:17–101`) between its `await`s: operations queue for the
lock in the order of their calls, and the one that holds it awaits `connect` or a `close`.
Resources are numbered in the order in which the factory built them.
-/

namespace ScrapyCffi.Resources

open ScrapyCffi.Base

/-- The methods; `replace` with the generation its caller observed. -/
inductive SlotOperation
  | start
  | replace (observedGeneration : Option Nat)
  | close
  deriving DecidableEq

/-- Where the holder of the lock awaits: `connect` of a new resource, the `close` of one that did
not connect, the `close` of the previous one, or that of the last one. -/
inductive SlotHolder
  | connecting (operation : SlotOperation) (resource : Nat)
  | closingFailed (resource : Nat)
  | closingPrevious (previous : Nat)
  | closing (resource : Nat)
  deriving DecidableEq

/-- `ResourceSlot`. The other fields are history: how many resources were built, how often `close`
of each was called, which replacements became current for which observed generation, and whether
a `close` has completed and no `start` has run since. -/
structure Slot where
  resource : Option Nat
  generation : Nat
  lock : Option SlotHolder
  waiting : List SlotOperation
  built : Nat
  closes : Nat → Nat
  replaced : List (Option Nat × Nat)
  shut : Bool

/-- `__init__`. -/
def Slot.init : Slot where
  resource := none
  generation := 0
  lock := none
  waiting := []
  built := 0
  closes _ := 0
  replaced := []
  shut := false

/-- `_call_optional(resource, "close")`, up to its `await`. -/
def Slot.callClose (s : Slot) (resource : Nat) (holder : SlotHolder) : Slot :=
  { s with
    closes := Function.update s.closes resource (s.closes resource + 1)
    lock := some holder }

/-- The factory builds a resource, or raises. -/
def Slot.build (s : Slot) (operation : SlotOperation) (raises : Bool) : Slot :=
  if raises then s
  else { s with built := s.built + 1, lock := some (.connecting operation s.built) }

/-- The locked part of `start`, up to its first `await`. -/
def Slot.start (s : Slot) (raises : Bool) : Slot :=
  let s := { s with shut := false }
  if s.resource ≠ none then s else s.build .start raises

/-- The locked part of `replace`, up to its first `await`. -/
def Slot.replace (s : Slot) (observedGeneration : Option Nat) (raises : Bool) : Slot :=
  if observedGeneration ≠ none ∧ observedGeneration ≠ some s.generation then s
  else s.build (.replace observedGeneration) raises

/-- The locked part of `close`, up to its first `await`. -/
def Slot.close (s : Slot) : Slot :=
  match s.resource with
  | none => { s with shut := true }
  | some resource => { s with resource := none }.callClose resource (.closing resource)

/-- The operation that waited longest takes the lock. -/
def Slot.enter (s : Slot) (raises : Bool) : Option Slot :=
  match s.lock, s.waiting with
  | none, operation :: rest =>
    let s := { s with waiting := rest }
    some (match operation with
      | .start => s.start raises
      | .replace observedGeneration => s.replace observedGeneration raises
      | .close => s.close)
  | _, _ => none

/-- `connect` returns. -/
def Slot.connected (s : Slot) : Option Slot :=
  match s.lock with
  | some (.connecting (.replace observedGeneration) resource) =>
    let t := { s with
      resource := some resource
      generation := s.generation + 1
      replaced := (observedGeneration, resource) :: s.replaced
      lock := none }
    match s.resource with
    | none => some t
    | some previous => some (t.callClose previous (.closingPrevious previous))
  | some (.connecting _ resource) => some { s with resource := some resource, lock := none }
  | _ => none

/-- `connect` raises, or its task is cancelled. -/
def Slot.connectFails (s : Slot) : Option Slot :=
  match s.lock with
  | some (.connecting _ resource) => some (s.callClose resource (.closingFailed resource))
  | _ => none

/-- The `close` that is awaited returns, raises or is cancelled. -/
def Slot.settled (s : Slot) : Option Slot :=
  match s.lock with
  | some (.closing _) => some { s with lock := none, shut := true }
  | some (.closingFailed _) | some (.closingPrevious _) => some { s with lock := none }
  | _ => none

/-- What happens: a method is called, a waiting call is cancelled, and the steps of the calls. -/
inductive SlotEvent
  | call (operation : SlotOperation)
  | cancelled (index : Nat)
  | enter (raises : Bool)
  | connected
  | connectFails
  | settled
  deriving DecidableEq

/-- One event. -/
def Slot.step (s : Slot) : SlotEvent → Option Slot
  | .call operation => some { s with waiting := s.waiting ++ [operation] }
  | .cancelled index => some { s with waiting := s.waiting.eraseIdx index }
  | .enter raises => s.enter raises
  | .connected => s.connected
  | .connectFails => s.connectFails
  | .settled => s.settled

/-- Every interleaving. -/
def slotMachine : Machine Slot SlotEvent where
  init s := s = Slot.init
  step := Slot.step

/-- A resource whose `connect` is awaited. -/
def Slot.Connecting (s : Slot) (resource : Nat) : Prop :=
  ∃ operation, s.lock = some (.connecting operation resource)

/-- At most one replacement becomes current for an observed generation; a resource that was built
is current, connects, or was closed once; and none is left after a `close`. -/
structure Slot.Sound (s : Slot) : Prop where
  once : ∀ generation, (s.replaced.filter (·.1 = some generation)).length ≤ 1
  closed : ∀ resource < s.built, s.resource ≠ some resource → ¬ s.Connecting resource →
    s.closes resource = 1
  shut : s.shut = true → ∀ resource < s.built, ¬ s.Connecting resource → s.closes resource = 1

/-- No replacement connects on a slot that was closed. -/
def ReplacesOpen (s : Slot) : SlotEvent → Prop
  | .connected => ∀ observedGeneration resource,
    s.lock = some (.connecting (.replace observedGeneration) resource) → s.shut = false
  | _ => True

/-- The invariant of all runs. -/
structure Slot.Accounted (s : Slot) : Prop where
  current : ∀ resource, s.resource = some resource → resource < s.built ∧ s.closes resource = 0
  connecting : ∀ resource, s.Connecting resource →
    resource < s.built ∧ s.resource ≠ some resource ∧ s.closes resource = 0
  closed : ∀ resource < s.built, s.resource ≠ some resource → ¬ s.Connecting resource →
    s.closes resource = 1
  fresh : ∀ resource, s.built ≤ resource → s.closes resource = 0
  replacing : ∀ generation resource,
    s.lock = some (.connecting (.replace (some generation)) resource) → generation = s.generation
  starting : ∀ operation resource, s.lock = some (.connecting operation resource) →
    (∀ observedGeneration, operation ≠ .replace observedGeneration) →
    s.resource = none ∧ s.shut = false
  closing : ∀ resource, s.lock = some (.closing resource) → s.resource = none
  past : ∀ generation resource, (some generation, resource) ∈ s.replaced →
    generation < s.generation
  once : ∀ generation, (s.replaced.filter (·.1 = some generation)).length ≤ 1

variable {s t : Slot}

/-- Nothing connects when the lock is free or a `close` is awaited. -/
theorem not_connecting {resource : Nat} (hlock : ∀ operation r,
    s.lock ≠ some (.connecting operation r)) : ¬ s.Connecting resource :=
  fun ⟨operation, h⟩ ↦ hlock operation resource h

/-- At most one operation connects. -/
theorem Slot.Connecting.eq {operation : SlotOperation} {resource r : Nat}
    (h : s.Connecting r) (hlock : s.lock = some (.connecting operation resource)) :
    r = resource := by
  obtain ⟨_, h⟩ := h
  rw [hlock] at h
  cases h
  rfl

/-- What the lock and the history do not touch. -/
theorem Slot.Accounted.idle (h : s.Accounted) (hlock : s.lock = none) (waiting : List SlotOperation)
    (shut : Bool) : Slot.Accounted { s with waiting, shut } := by
  refine ⟨h.current, h.connecting, h.closed, h.fresh, h.replacing,
    fun operation resource hstart _ ↦ ?_, h.closing, h.past, h.once⟩
  have hstart : s.lock = some (.connecting operation resource) := hstart
  rw [hlock] at hstart
  cases hstart

/-- The factory builds a resource, or raises. -/
theorem Slot.Accounted.build (h : s.Accounted) (hlock : s.lock = none) (operation : SlotOperation)
    (raises : Bool)
    (hreplace : ∀ generation, operation = .replace (some generation) → generation = s.generation)
    (hstart : (∀ observedGeneration, operation ≠ .replace observedGeneration) →
      s.resource = none ∧ s.shut = false) :
    (s.build operation raises).Accounted := by
  rw [Slot.build]
  split
  · exact h
  · have hidle : ∀ r, ¬ s.Connecting r := fun r ↦ not_connecting (by simp [hlock])
    have hcurrent : ∀ r, s.resource = some r → r ≠ s.built := by
      rintro r hr rfl
      exact Nat.lt_irrefl _ (h.current _ hr).1
    refine ⟨fun r hr ↦ ?_, fun r hr ↦ ?_, fun r hr hne hconnecting ↦ ?_, fun r hr ↦ ?_,
      fun generation r hr ↦ ?_, fun op r hr hop ↦ ?_, fun r hr ↦ ?_, h.past, h.once⟩
    · obtain ⟨hlt, hcloses⟩ := h.current r hr
      exact ⟨Nat.lt_succ_of_lt hlt, hcloses⟩
    · obtain rfl := hr.eq rfl
      exact ⟨Nat.lt_succ_self _, fun hr ↦ hcurrent _ hr rfl, h.fresh _ (Nat.le_refl _)⟩
    · have hr : r < s.built + 1 := hr
      have hbuilt : r ≠ s.built := by
        rintro rfl
        exact hconnecting ⟨operation, rfl⟩
      exact h.closed r (by omega) hne (hidle r)
    · have hr : s.built + 1 ≤ r := hr
      exact h.fresh r (by omega)
    · cases hr
      exact hreplace generation rfl
    · cases hr
      exact hstart hop
    · cases hr

/-- The last resource is closed. -/
theorem Slot.Accounted.close (h : s.Accounted) (hlock : s.lock = none) : s.close.Accounted := by
  rw [Slot.close]
  split
  · exact h.idle hlock s.waiting true
  · next resource hresource =>
    obtain ⟨hlt, hcloses⟩ := h.current resource hresource
    refine ⟨fun r hr ↦ ?_, fun r hr ↦ ?_, fun r hr _ _ ↦ ?_, fun r hr ↦ ?_,
      fun generation r hr ↦ ?_, fun op r hr _ ↦ ?_, fun _ _ ↦ rfl, h.past, h.once⟩
    · cases hr
    · obtain ⟨_, hr⟩ := hr
      cases hr
    · by_cases hrr : r = resource
      · subst hrr
        simp [Slot.callClose, hcloses]
      · simp only [Slot.callClose, Function.update_of_ne hrr]
        refine h.closed r hr (fun hs ↦ hrr ?_) (not_connecting (by simp [hlock]))
        exact Option.some.inj (hs.symm.trans hresource)
    · have hr : s.built ≤ r := hr
      have hrr : r ≠ resource := by omega
      simp only [Slot.callClose, Function.update_of_ne hrr]
      exact h.fresh r hr
    · cases hr
    · cases hr

/-- An operation that takes the lock. -/
theorem Slot.Accounted.enter {raises : Bool} (h : s.Accounted) (hs : s.enter raises = some t) :
    t.Accounted := by
  rw [Slot.enter] at hs
  split at hs
  · next operation rest hlock hwaiting =>
    cases hs
    cases operation with
    | start =>
      dsimp only
      rw [Slot.start]
      dsimp only
      split
      · exact h.idle hlock rest false
      · next hnone =>
        refine (h.idle hlock rest false).build hlock .start raises (fun _ hr ↦ by cases hr)
          fun _ ↦ ⟨?_, rfl⟩
        simpa using hnone
    | replace observedGeneration =>
      dsimp only
      rw [Slot.replace]
      dsimp only
      split
      · exact h.idle hlock rest s.shut
      · next hobserved =>
        refine (h.idle hlock rest s.shut).build hlock _ raises (fun generation hr ↦ ?_)
          fun hr ↦ absurd rfl (hr observedGeneration)
        cases hr
        simpa using hobserved
    | close => exact (h.idle hlock rest s.shut).close hlock
  · cases hs

/-- A `connect` that fails. -/
theorem Slot.Accounted.connectFails (h : s.Accounted) (hs : s.connectFails = some t) :
    t.Accounted := by
  rw [Slot.connectFails] at hs
  split at hs
  · next operation resource hlock =>
    cases hs
    obtain ⟨hlt, hne, hcloses⟩ := h.connecting resource ⟨operation, hlock⟩
    refine ⟨fun r hr ↦ ?_, fun r hr ↦ ?_, fun r hr hrs _ ↦ ?_, fun r hr ↦ ?_,
      fun generation r hr ↦ ?_, fun op r hr _ ↦ ?_, fun r hr ↦ ?_, h.past, h.once⟩
    · have hr : s.resource = some r := hr
      have hrr : r ≠ resource := by
        rintro rfl
        exact hne hr
      simp only [Slot.callClose, Function.update_of_ne hrr]
      exact h.current r hr
    · obtain ⟨_, hr⟩ := hr
      cases hr
    · by_cases hrr : r = resource
      · subst hrr
        simp [Slot.callClose, hcloses]
      · simp only [Slot.callClose, Function.update_of_ne hrr]
        exact h.closed r hr hrs fun hconnecting ↦ hrr (hconnecting.eq hlock)
    · have hr : s.built ≤ r := hr
      have hrr : r ≠ resource := by omega
      simp only [Slot.callClose, Function.update_of_ne hrr]
      exact h.fresh r hr
    · cases hr
    · cases hr
    · cases hr
  · cases hs

/-- A `close` that was awaited. -/
theorem Slot.Accounted.settled (h : s.Accounted) (hs : s.settled = some t) : t.Accounted := by
  have hfree : (∀ operation r, s.lock ≠ some (.connecting operation r)) → ∀ shut,
      Slot.Accounted { s with lock := none, shut } := fun hlock shut ↦
    ⟨h.current, fun r ⟨_, hr⟩ ↦ (by cases hr), fun r hr hne _ ↦ h.closed r hr hne
      (not_connecting hlock), h.fresh, fun _ _ hr ↦ (by cases hr), fun _ _ hr ↦ (by cases hr),
      fun _ hr ↦ (by cases hr), h.past, h.once⟩
  rw [Slot.settled] at hs
  split at hs
  · next hlock =>
    cases hs
    exact hfree (by simp [hlock]) true
  · next hlock =>
    cases hs
    exact hfree (by simp [hlock]) s.shut
  · next hlock =>
    cases hs
    exact hfree (by simp [hlock]) s.shut
  · cases hs

/-- A generation that no replacement of the past observed. -/
theorem Slot.Accounted.replaced_cons (h : s.Accounted) {observedGeneration : Option Nat}
    {resource : Nat}
    (hlock : s.lock = some (.connecting (.replace observedGeneration) resource)) :
    (∀ generation r, (some generation, r) ∈ (observedGeneration, resource) :: s.replaced →
      generation < s.generation + 1) ∧
    ∀ generation, (((observedGeneration, resource) :: s.replaced).filter
      (·.1 = some generation)).length ≤ 1 := by
  refine ⟨fun generation r hm ↦ ?_, fun generation ↦ ?_⟩
  · obtain hm | hm := List.mem_cons.mp hm
    · cases hm
      rw [h.replacing generation _ hlock]
      exact Nat.lt_succ_self _
    · exact Nat.lt_succ_of_lt (h.past generation r hm)
  · rw [List.filter_cons]
    split
    · next hobserved =>
      -- this generation is the current one, and those of the past are smaller
      have hobserved : observedGeneration = some generation := by simpa using hobserved
      rw [hobserved] at hlock
      have hnone : s.replaced.filter (·.1 = some generation) = [] := by
        rw [List.filter_eq_nil_iff]
        rintro ⟨observed, r⟩ hm hobs
        obtain rfl : observed = some generation := by simpa using hobs
        have hlt := h.past generation r hm
        rw [h.replacing generation _ hlock] at hlt
        exact Nat.lt_irrefl _ hlt
      rw [hnone]
      exact Nat.le_refl 1
    · exact h.once generation

/-- A `connect` that returns. -/
theorem Slot.Accounted.connected (h : s.Accounted) (hs : s.connected = some t) :
    t.Accounted := by
  rw [Slot.connected] at hs
  split at hs
  · next observedGeneration resource hlock =>
    obtain ⟨hlt, hne, hcloses⟩ := h.connecting resource ⟨_, hlock⟩
    obtain ⟨hpast, honce⟩ := h.replaced_cons hlock
    dsimp only at hs
    split at hs
    · next hnone =>
      cases hs
      refine ⟨fun r hr ↦ ?_, fun r hr ↦ ?_, fun r hr hrs _ ↦ ?_, h.fresh,
        fun generation r hr ↦ ?_, fun op r hr _ ↦ ?_, fun r hr ↦ ?_, hpast, honce⟩
      · cases hr
        exact ⟨hlt, hcloses⟩
      · obtain ⟨_, hr⟩ := hr
        cases hr
      · refine h.closed r hr (by simp [hnone]) fun hconnecting ↦ hrs ?_
        rw [hconnecting.eq hlock]
      · cases hr
      · cases hr
      · cases hr
    · next previous hprevious =>
      cases hs
      obtain ⟨hplt, hpcloses⟩ := h.current previous hprevious
      refine ⟨fun r hr ↦ ?_, fun r hr ↦ ?_, fun r hr hrs _ ↦ ?_, fun r hr ↦ ?_,
        fun generation r hr ↦ ?_, fun op r hr _ ↦ ?_, fun r hr ↦ ?_, hpast, honce⟩
      · cases hr
        have hrp : resource ≠ previous := by
          rintro rfl
          exact hne hprevious
        simp only [Slot.callClose, Function.update_of_ne hrp]
        exact ⟨hlt, hcloses⟩
      · obtain ⟨_, hr⟩ := hr
        cases hr
      · by_cases hrp : r = previous
        · subst hrp
          simp [Slot.callClose, hpcloses]
        · simp only [Slot.callClose, Function.update_of_ne hrp]
          refine h.closed r hr (fun hrs' ↦ hrp ?_) fun hconnecting ↦ hrs ?_
          · exact Option.some.inj (hrs'.symm.trans hprevious)
          · rw [hconnecting.eq hlock]
            rfl
      · have hr : s.built ≤ r := hr
        have hrp : r ≠ previous := by omega
        simp only [Slot.callClose, Function.update_of_ne hrp]
        exact h.fresh r hr
      · cases hr
      · cases hr
      · cases hr
  · next operation resource hoperation hlock =>
    cases hs
    obtain ⟨hlt, hne, hcloses⟩ := h.connecting resource ⟨_, hlock⟩
    obtain ⟨hnone, hopen⟩ := h.starting operation resource hlock hoperation
    refine ⟨fun r hr ↦ ?_, fun r hr ↦ ?_, fun r hr hrs _ ↦ ?_, h.fresh,
      fun generation r hr ↦ ?_, fun op r hr _ ↦ ?_, fun r hr ↦ ?_, h.past, h.once⟩
    · cases hr
      exact ⟨hlt, hcloses⟩
    · obtain ⟨_, hr⟩ := hr
      cases hr
    · refine h.closed r hr (by simp [hnone]) fun hconnecting ↦ hrs ?_
      rw [hconnecting.eq hlock]
    · cases hr
    · cases hr
    · cases hr
  · cases hs

/-- One event. -/
theorem Slot.Accounted.step {e : SlotEvent} (h : s.Accounted) (hs : s.step e = some t) :
    t.Accounted := by
  cases e with
  | call operation =>
    cases hs
    exact ⟨h.current, h.connecting, h.closed, h.fresh, h.replacing, h.starting, h.closing, h.past,
      h.once⟩
  | cancelled index =>
    cases hs
    exact ⟨h.current, h.connecting, h.closed, h.fresh, h.replacing, h.starting, h.closing, h.past,
      h.once⟩
  | enter raises => exact h.enter hs
  | connected => exact h.connected hs
  | connectFails => exact h.connectFails hs
  | settled => exact h.settled hs

/-- Nothing was built at first. -/
theorem accounted_init : Slot.init.Accounted where
  current _ h := by cases h
  connecting _ h := by
    obtain ⟨_, h⟩ := h
    cases h
  closed _ h := absurd h (Nat.not_lt_zero _)
  fresh _ _ := rfl
  replacing _ _ h := by cases h
  starting _ _ h := by cases h
  closing _ h := by cases h
  past _ _ h := by cases h
  once _ := Nat.zero_le _

/-- A slot that was closed stays empty until a replacement connects. -/
theorem empty_step {e : SlotEvent} (h : s.Accounted) (hempty : s.shut = true → s.resource = none)
    (hg : ReplacesOpen s e) (hs : s.step e = some t) : t.shut = true → t.resource = none := by
  cases e with
  | call operation =>
    cases hs
    exact hempty
  | cancelled index =>
    cases hs
    exact hempty
  | enter raises =>
    rw [Slot.step, Slot.enter] at hs
    split at hs
    · next operation rest hlock hwaiting =>
      cases hs
      cases operation with
      | start =>
        dsimp only
        rw [Slot.start, Slot.build]
        dsimp only
        split
        · exact fun hshut ↦ by cases hshut
        · split <;> exact fun hshut ↦ by cases hshut
      | replace observedGeneration =>
        dsimp only
        rw [Slot.replace, Slot.build]
        split
        · exact hempty
        · split <;> exact hempty
      | close =>
        dsimp only
        rw [Slot.close]
        split
        · next hnone => exact fun _ ↦ hnone
        · exact fun _ ↦ rfl
    · cases hs
  | connected =>
    rw [Slot.step, Slot.connected] at hs
    intro hshut
    split at hs
    · next observedGeneration resource hlock =>
      have hopen := hg observedGeneration resource hlock
      dsimp only at hs
      split at hs
      · cases hs
        have hshut : s.shut = true := hshut
        simp [hopen] at hshut
      · cases hs
        have hshut : s.shut = true := hshut
        simp [hopen] at hshut
    · next operation resource hoperation hlock =>
      cases hs
      have hshut : s.shut = true := hshut
      simp [(h.starting operation resource hlock hoperation).2] at hshut
    · cases hs
  | connectFails =>
    rw [Slot.step, Slot.connectFails] at hs
    split at hs
    · cases hs
      exact hempty
    · cases hs
  | settled =>
    rw [Slot.step, Slot.settled] at hs
    split at hs
    · next resource hlock =>
      cases hs
      exact fun _ ↦ h.closing resource hlock
    · cases hs
      exact hempty
    · cases hs
      exact hempty
    · cases hs

/-- The invariant, with an empty slot after a `close`, is enough. -/
theorem Slot.Accounted.sound (h : s.Accounted) (hempty : s.shut = true → s.resource = none) :
    s.Sound where
  once := h.once
  closed := h.closed
  shut hshut resource hlt := h.closed resource hlt (by simp [hempty hshut])

/-- A replacement that connects on a slot that was closed is left. -/
theorem not_sound_connected (h : s.Accounted) (hempty : s.shut = true → s.resource = none)
    {observedGeneration : Option Nat} {resource : Nat}
    (hlock : s.lock = some (.connecting (.replace observedGeneration) resource))
    (hshut : s.shut = true) (hs : s.connected = some t) : ¬ t.Sound := by
  intro hsound
  obtain ⟨hlt, -, hcloses⟩ := h.connecting resource ⟨_, hlock⟩
  rw [Slot.connected, hlock, hempty hshut] at hs
  cases hs
  have hclosed := hsound.shut hshut resource hlt (not_connecting (by simp))
  have hclosed : s.closes resource = 1 := hclosed
  rw [hcloses] at hclosed
  cases hclosed

/-- In every run in which no replacement connects on a closed slot, the slot is sound, and the
next step keeps it so exactly when it does not do that. -/
theorem slot_sound (h : slotMachine.Reach ReplacesOpen s) :
    s.Sound ∧ ∀ e t, slotMachine.step s e = some t → (t.Sound ↔ ReplacesOpen s e) := by
  have hinv : s.Accounted ∧ (s.shut = true → s.resource = none) := by
    refine h.invariant (I := fun s ↦ s.Accounted ∧ (s.shut = true → s.resource = none))
      (fun u hinit ↦ ?_) fun u e v _ ih hg hs ↦ ⟨ih.1.step hs, empty_step ih.1 ih.2 hg hs⟩
    obtain rfl : u = Slot.init := hinit
    exact ⟨accounted_init, fun hshut ↦ by cases hshut⟩
  refine ⟨hinv.1.sound hinv.2, fun e t hs ↦ ⟨fun hsound ↦ ?_, fun hg ↦ ?_⟩⟩
  · cases e with
    | connected =>
      intro observedGeneration resource hlock
      rw [Bool.eq_false_iff]
      exact fun hshut ↦ not_sound_connected hinv.1 hinv.2 hlock hshut hs hsound
    | call _ => trivial
    | cancelled _ => trivial
    | enter _ => trivial
    | connectFails => trivial
    | settled => trivial
  · exact (hinv.1.step hs).sound (empty_step hinv.1 hinv.2 hg hs)

instance (s : Slot) : ∀ e, Decidable (ReplacesOpen s e)
  | .connected => decidable_of_iff
      ((match s.lock with
        | some (.connecting (.replace _) _) => true
        | _ => false) = true → s.shut = false) (by
      rw [ReplacesOpen]
      refine ⟨fun h observedGeneration resource hlock ↦ h (by rw [hlock]), fun h hm ↦ ?_⟩
      split at hm
      · next hlock => exact h _ _ hlock
      · cases hm)
  | .call _ | .cancelled _ | .enter _ | .connectFails | .settled => .isTrue trivial

/-- A start, two operations that replace what they observed, and a close. -/
def replacedOnce : List SlotEvent :=
  [.call .start, .enter false, .connected, .call (.replace (some 0)), .call (.replace (some 0)),
    .enter false, .connected, .settled, .enter false, .call .close, .enter false, .settled]

theorem slot_sound_replacedOnce :
    ((slotMachine.runIf ReplacesOpen Slot.init replacedOnce).getD Slot.init).Sound :=
  (slot_sound (.runIf replacedOnce (.init rfl) rfl)).1

/-- An operation replaces what it observed after the slot was closed. -/
def replacedAfterClose : List SlotEvent :=
  [.call .start, .enter false, .connected, .call .close, .enter false, .settled,
    .call (.replace (some 0)), .enter false, .connected]

/-- The replacement is not closed. -/
theorem replacement_left_open : ¬ ∀ s, slotMachine.Reachable s → s.Sound := by
  intro h
  have hreached : slotMachine.Reachable
      ((slotMachine.run Slot.init replacedAfterClose).getD Slot.init) :=
    .run replacedAfterClose (.init rfl) rfl
  have hclosed := (h _ hreached).shut rfl 1 (by decide) fun ⟨_, hlock⟩ ↦ by cases hlock
  exact absurd hclosed (by decide)

end ScrapyCffi.Resources
