import Mathlib.Algebra.Order.Field.Rat
import Mathlib.Tactic.Ring

/-!
# Retry with recovery

`RetryPolicy` (`service/resilience.py:104–183`). What a callback does may depend on every call
made before, as the `replace` of `KafkaQueueRepository._run` (`repo/queue.py:103–116`) does on the
generation that the last operation observed.
-/

namespace ScrapyCffi.Resources

/-- What a callback raises: `asyncio.CancelledError`, or another exception. -/
inductive Raised (E : Type)
  | cancelledError
  | other (error : E)
  deriving DecidableEq

/-- What the policy awaits, with its outcome: a callback or `asyncio.sleep(self._retry_delay)`. -/
inductive Call (E R : Type)
  | operation (outcome : Except (Raised E) R)
  | recover (outcome : Except (Raised E) Unit)
  | sleep (outcome : Except (Raised E) Unit)

/-- How `run` ends: with a result, with what a callback or a sleep raised, with
`CancelledError("Runtime is stopping")`, or with its trailing `RuntimeError`. -/
inductive Ending (E R : Type)
  | returned (result : R)
  | raised (exception : Raised E)
  | stopping
  | exhausted
  deriving DecidableEq

/-- `RetryPolicy`, which refuses `max_attempts < 1`; `retryExceptions` is the `isinstance` test. -/
structure RetryPolicy (E : Type) where
  retryExceptions : E → Bool
  maxAttempts : Nat
  retryDelay : ℚ
  retryPredicate : Option (E → Bool)
  positive : 1 ≤ maxAttempts

/-- The callbacks, the sleep and the stop event, after the calls made before. -/
structure Surroundings (E R : Type) where
  operation : List (Call E R) → Except (Raised E) R
  recover : List (Call E R) → Except (Raised E) Unit
  sleep : List (Call E R) → Except (Raised E) Unit
  stopEvent : List (Call E R) → Bool

variable {E R : Type}

/-- The handlers let the loop go on: not `CancelledError`, which the first of them raises again. -/
def RetryPolicy.retryable (p : RetryPolicy E) : Raised E → Bool
  | .cancelledError => false
  | .other error => p.retryExceptions error && p.retryPredicate.all fun holds ↦ holds error

/-- `if self._retry_delay: await asyncio.sleep(self._retry_delay)`. -/
def RetryPolicy.pause (p : RetryPolicy E) (w : Surroundings E R) (before : List (Call E R)) :
    List (Call E R) × Except (Raised E) Unit :=
  if p.retryDelay ≠ 0 then ([.sleep (w.sleep before)], w.sleep before) else ([], .ok ())

/-- The `while True` loop, `failures` being `recovery_failures`: the calls it makes. -/
def RetryPolicy.recovery (p : RetryPolicy E) (w : Surroundings E R) (attempt failures : Nat)
    (before : List (Call E R)) : List (Call E R) × Except (Raised E) Unit :=
  match w.recover before with
  | .ok () => ([.recover (.ok ())], .ok ())
  | .error e =>
    if p.retryable e = false then ([.recover (.error e)], .error e)
    else if p.maxAttempts ≤ attempt + (failures + 1) then ([.recover (.error e)], .error e)
    else
      let slept := p.pause w (before ++ [.recover (.error e)])
      match slept.2 with
      | .error e' => (.recover (.error e) :: slept.1, .error e')
      | .ok () =>
        let rest := p.recovery w attempt (failures + 1)
          (before ++ .recover (.error e) :: slept.1)
        (.recover (.error e) :: slept.1 ++ rest.1, rest.2)
termination_by p.maxAttempts - (attempt + failures)

/-- The `for` loop with `remaining` attempts left, the next of them being `attempt`. -/
def RetryPolicy.attempts (p : RetryPolicy E) (w : Surroundings E R) (allowDuringShutdown : Bool) :
    (remaining attempt : Nat) → (before : List (Call E R)) → List (Call E R) × Ending E R
  | 0, _, _ => ([], .exhausted)
  | remaining + 1, attempt, before =>
    if w.stopEvent before && !allowDuringShutdown then ([], .stopping)
    else
      match w.operation before with
      | .ok result => ([.operation (.ok result)], .returned result)
      | .error e =>
        if p.retryable e = false then ([.operation (.error e)], .raised e)
        else if p.maxAttempts ≤ attempt then ([.operation (.error e)], .raised e)
        else
          let recovered := p.recovery w attempt 0 (before ++ [.operation (.error e)])
          match recovered.2 with
          | .error e' => (.operation (.error e) :: recovered.1, .raised e')
          | .ok () =>
            let slept := p.pause w (before ++ .operation (.error e) :: recovered.1)
            match slept.2 with
            | .error e' => (.operation (.error e) :: recovered.1 ++ slept.1, .raised e')
            | .ok () =>
              let rest := p.attempts w allowDuringShutdown remaining (attempt + 1)
                (before ++ .operation (.error e) :: recovered.1 ++ slept.1)
              (.operation (.error e) :: recovered.1 ++ slept.1 ++ rest.1, rest.2)

/-- `run`: the calls it makes and how it ends. -/
def RetryPolicy.run (p : RetryPolicy E) (w : Surroundings E R) (allowDuringShutdown : Bool) :
    List (Call E R) × Ending E R :=
  p.attempts w allowDuringShutdown p.maxAttempts 1 []

namespace Call

/-- A call of the operation. -/
def isOperation : Call E R → Bool
  | .operation _ => true
  | _ => false

/-- A call of the recovery callback. -/
def isRecover : Call E R → Bool
  | .recover _ => true
  | _ => false

/-- A recovery that succeeds. -/
def recovers : Call E R → Bool
  | .recover (.ok ()) => true
  | _ => false

/-- A recovery that raises. -/
def fails : Call E R → Bool
  | .recover (.error _) => true
  | _ => false

/-- The policy may make another call after this one. -/
def continues (p : RetryPolicy E) : Call E R → Bool
  | .operation (.ok _) => false
  | .operation (.error e) => p.retryable e
  | .recover (.ok ()) => true
  | .recover (.error e) => p.retryable e
  | .sleep (.ok ()) => true
  | .sleep (.error _) => false

/-- `run` ends with the outcome of this call. -/
inductive Ends : Call E R → Ending E R → Prop
  | result (r : R) : Ends (.operation (.ok r)) (.returned r)
  | operation (e : Raised E) : Ends (.operation (.error e)) (.raised e)
  | recover (e : Raised E) : Ends (.recover (.error e)) (.raised e)
  | sleep (e : Raised E) : Ends (.sleep (.error e)) (.raised e)

end Call

/-- What `KafkaQueueRepository` works with, after the calls made before: the generation of its
slot, the operation on its client and `ResourceSlot.replace`. -/
structure QueueSurroundings (E R : Type) where
  generation : List (Call E R) → Nat
  operation : List (Call E R) → Except (Raised E) R
  replace : (observedGeneration : Nat) → List (Call E R) → Except (Raised E) Unit
  sleep : List (Call E R) → Except (Raised E) Unit
  stopEvent : List (Call E R) → Bool

/-- `observed["generation"]`: that of the slot when the last operation began, or `_run`. -/
def QueueSurroundings.observed (q : QueueSurroundings E R) (before : List (Call E R)) : Nat :=
  q.generation (before.reverse.dropWhile fun c ↦ !c.isOperation).tail.reverse

/-- `KafkaQueueRepository._run`. -/
def QueueSurroundings.run (q : QueueSurroundings E R) (p : RetryPolicy E)
    (allowDuringShutdown : Bool) : List (Call E R) × Ending E R :=
  p.run
    { operation := q.operation
      recover := fun before ↦ q.replace (q.observed before) before
      sleep := q.sleep
      stopEvent := q.stopEvent }
    allowDuringShutdown

/-- A recovery replaces the generation that the operation before it used. -/
theorem QueueSurroundings.observed_of_operation (q : QueueSurroundings E R)
    (pre : List (Call E R)) (o : Except (Raised E) R) {post : List (Call E R)}
    (hpost : ∀ c ∈ post, c.isOperation = false) :
    q.observed (pre ++ .operation o :: post) = q.generation pre := by
  have hall : ∀ c ∈ post.reverse, (!c.isOperation) = true := by
    intro c hc
    rw [hpost c (List.mem_reverse.mp hc)]
    rfl
  unfold observed
  rw [List.reverse_append, List.reverse_cons, List.append_assoc,
    List.dropWhile_append_of_pos hall]
  simp [Call.isOperation]

/-- A pause that is not interrupted makes only calls of `sleep` that return. -/
theorem RetryPolicy.mem_pause {p : RetryPolicy E} {w : Surroundings E R}
    {before : List (Call E R)} (h : (p.pause w before).2 = .ok ()) :
    ∀ c ∈ (p.pause w before).1, c = .sleep (.ok ()) := by
  intro c hc
  unfold pause at h hc
  split at hc
  · rename_i hdelay
    rw [if_pos hdelay] at h
    have hok : w.sleep before = .ok () := h
    rw [hok] at hc
    simpa using hc
  · cases hc

/-- An interrupted pause is one call of `sleep`. -/
theorem RetryPolicy.pause_error {p : RetryPolicy E} {w : Surroundings E R}
    {before : List (Call E R)} {e : Raised E} (h : (p.pause w before).2 = .error e) :
    (p.pause w before).1 = [.sleep (.error e)] := by
  unfold pause at h ⊢
  split at h
  · rename_i hdelay
    rw [if_pos hdelay]
    exact congrArg (fun o ↦ [Call.sleep o]) h
  · cases h

/-- Sleeps that return count nowhere and let the loop go on. -/
theorem countP_sleeps (f : Call E R → Bool) (hf : f (.sleep (.ok ())) = false)
    {calls : List (Call E R)} (h : ∀ c ∈ calls, c = .sleep (.ok ())) : calls.countP f = 0 := by
  rw [List.countP_eq_zero]
  intro c hc
  rw [h c hc, hf]
  exact Bool.false_ne_true

/-- What the recovery loop does when `used` attempts are used up. -/
structure Recovers (p : RetryPolicy E) (used : Nat) (calls : List (Call E R))
    (ending : Except (Raised E) Unit) : Prop where
  quiet : ∀ c ∈ calls, c.isOperation = false
  recoveries_le : used + calls.countP Call.isRecover ≤ p.maxAttempts
  succeeds : ending = .ok () →
    (∀ c ∈ calls, c.continues p = true) ∧ calls.countP Call.recovers = 1
  raises : ∀ e, ending = .error e → ∃ init last, calls = init ++ [last] ∧
    (∀ c ∈ init, c.continues p = true) ∧ last.Ends (.raised e) ∧
    (last.continues p = true → used + calls.countP Call.fails = p.maxAttempts)

/-- A recovery that fails for good ends the loop. -/
theorem Recovers.last {p : RetryPolicy E} {used : Nat} {e : Raised E} (hused : used < p.maxAttempts)
    (h : p.retryable e = true → p.maxAttempts ≤ used + 1) :
    Recovers p used ([.recover (.error e)] : List (Call E R)) (.error e) where
  quiet := by simp [Call.isOperation]
  recoveries_le := hused
  succeeds := by simp
  raises := by
    intro e' he'
    cases he'
    refine ⟨[], .recover (.error e), rfl, by simp, .recover e, fun hc ↦ ?_⟩
    have := h hc
    simp only [List.countP_singleton, Call.fails, if_true]
    omega

/-- A failed recovery and the pause after it go before the rest of the loop. -/
theorem Recovers.cons {p : RetryPolicy E} {used : Nat} {calls slept : List (Call E R)} {e : Raised E}
    {ending : Except (Raised E) Unit} (hretry : p.retryable e = true)
    (hslept : ∀ c ∈ slept, c = .sleep (.ok ())) (h : Recovers p (used + 1) calls ending) :
    Recovers p used (.recover (.error e) :: slept ++ calls) ending := by
  have hgo : ∀ c ∈ .recover (.error e) :: slept, c.continues p = true := by
    intro c hc
    rcases List.mem_cons.mp hc with rfl | hc
    · exact hretry
    · rw [hslept c hc]
      rfl
  constructor
  case quiet =>
    intro c hc
    simp only [List.cons_append, List.mem_cons, List.mem_append] at hc
    rcases hc with rfl | hc | hc
    · rfl
    · rw [hslept c hc]
      rfl
    · exact h.quiet c hc
  case recoveries_le =>
    have := h.recoveries_le
    have hslept := countP_sleeps Call.isRecover rfl hslept
    simp only [List.cons_append, List.countP_cons, List.countP_append, hslept, Call.isRecover,
      if_true]
    omega
  case succeeds =>
    intro hok
    obtain ⟨hall, hone⟩ := h.succeeds hok
    constructor
    · intro c hc
      rcases List.mem_append.mp hc with hc | hc
      · exact hgo c hc
      · exact hall c hc
    · simp [Call.recovers, hone, countP_sleeps Call.recovers rfl hslept]
  case raises =>
    intro e' he'
    obtain ⟨init, last, hcalls, hinit, hends, hout⟩ := h.raises e' he'
    refine ⟨.recover (.error e) :: slept ++ init, last, by simp [hcalls], ?_, hends, fun hc ↦ ?_⟩
    · intro c hc
      rcases List.mem_append.mp hc with hc | hc
      · exact hgo c hc
      · exact hinit c hc
    · have hout := hout hc
      have hslept := countP_sleeps Call.fails rfl hslept
      simp only [List.cons_append, List.countP_cons, List.countP_append, hslept, Call.fails,
        if_true]
      omega

/-- The recovery loop keeps its budget, and ends with one success or with the error of its last
call. -/
theorem RetryPolicy.recovers_recovery (p : RetryPolicy E) (w : Surroundings E R)
    (attempt failures : Nat) (before : List (Call E R))
    (hused : attempt + failures < p.maxAttempts) :
    Recovers p (attempt + failures) (p.recovery w attempt failures before).1
      (p.recovery w attempt failures before).2 := by
  fun_induction p.recovery w attempt failures before with
  | case1 failures before hok =>
    refine ⟨by simp [Call.isOperation], hused, fun _ ↦ ?_, by simp⟩
    simp [Call.continues, Call.recovers]
  | case2 failures before e herror hfatal =>
    exact .last hused (by simp [hfatal])
  | case3 failures before e herror hretry hout =>
    exact .last hused (fun _ ↦ hout)
  | case4 failures before e herror hretry hout slept e' hwoken =>
    have hslept : slept.1 = [.sleep (.error e')] := pause_error hwoken
    constructor
    case quiet => simp [hslept, Call.isOperation]
    case recoveries_le =>
      simp only [hslept, List.countP_cons, List.countP_nil, Call.isRecover]
      simp
      omega
    case succeeds => simp
    case raises =>
      intro e'' he''
      cases he''
      refine ⟨[.recover (.error e)], .sleep (.error e'), by simp [hslept], ?_, .sleep e', ?_⟩
      · simpa [Call.continues] using hretry
      · simp [Call.continues]
  | case5 failures before e herror hretry hout slept hwoken rest ih =>
    have hrest := ih (by omega)
    exact .cons (by simpa using hretry) (mem_pause hwoken) hrest

/-- What the attempts from number `attempt` on do: at most `remaining` operations, each of which
has as many successful recoveries before it as operations, and the outcome of the last call. -/
structure Attempted (p : RetryPolicy E) (attempt remaining : Nat) (calls : List (Call E R))
    (ending : Ending E R) : Prop where
  operations_le : calls.countP Call.isOperation ≤ remaining
  recoveries_le : 2 * calls.countP Call.isRecover ≤ remaining * (remaining - 1)
  balanced : ∀ pre o post, calls = pre ++ .operation o :: post →
    pre.countP Call.recovers = pre.countP Call.isOperation
  ends : ∃ init last, calls = init ++ [last] ∧ (∀ c ∈ init, c.continues p = true) ∧
    last.Ends ending ∧ (last.continues p = true → ∃ pre o post, calls = pre ++ .operation o :: post ∧
      (∀ c ∈ post, c.isOperation = false) ∧
      attempt + pre.countP Call.isOperation + post.countP Call.fails = p.maxAttempts)

/-- No call of the operation is in a list, so it counts none. -/
theorem countP_quiet {calls : List (Call E R)} (h : ∀ c ∈ calls, c.isOperation = false) :
    calls.countP Call.isOperation = 0 := by
  rw [List.countP_eq_zero]
  intro c hc
  rw [h c hc]
  exact Bool.false_ne_true

/-- An operation that starts a list without another one is found at its head. -/
theorem eq_of_operation_cons {c : Call E R} {calls pre post : List (Call E R)}
    {o : Except (Raised E) R} (hquiet : ∀ c ∈ calls, c.isOperation = false)
    (h : c :: calls = pre ++ .operation o :: post) : pre = [] := by
  cases pre with
  | nil => rfl
  | cons first pre =>
    rw [List.cons_append, List.cons.injEq] at h
    have hmem : Call.operation o ∈ calls := by simp [h.2]
    cases hquiet _ hmem

/-- Attempts that make one operation and what `calls` holds, and end with the last of these. -/
theorem Attempted.single {p : RetryPolicy E} {attempt remaining : Nat} {o : Except (Raised E) R}
    {calls : List (Call E R)} {ending : Ending E R} (hattempt : attempt + remaining = p.maxAttempts)
    (hquiet : ∀ c ∈ calls, c.isOperation = false)
    (hrecover : calls.countP Call.isRecover ≤ remaining)
    (hends : ∃ init last, .operation o :: calls = init ++ [last] ∧
      (∀ c ∈ init, c.continues p = true) ∧ last.Ends ending ∧
      (last.continues p = true → attempt + calls.countP Call.fails = p.maxAttempts)) :
    Attempted p attempt (remaining + 1) (.operation o :: calls) ending where
  operations_le := by
    rw [List.countP_cons, countP_quiet hquiet]
    simp [Call.isOperation]
  recoveries_le := by
    have hle : 2 * remaining ≤ (remaining + 1) * remaining := by
      cases remaining with
      | zero => simp
      | succ n => exact Nat.mul_le_mul_right _ (by omega)
    simp only [List.countP_cons, Call.isRecover, Nat.add_sub_cancel, Bool.false_eq_true, if_false]
    omega
  balanced pre o' post h := by
    rw [eq_of_operation_cons hquiet h]
    rfl
  ends := by
    obtain ⟨init, last, hcalls, hinit, hlast, hout⟩ := hends
    refine ⟨init, last, hcalls, hinit, hlast, fun hc ↦ ⟨[], o, calls, rfl, hquiet, ?_⟩⟩
    simpa using hout hc

/-- An operation, its recovery and a pause go before the attempts that follow. -/
theorem Attempted.cons {p : RetryPolicy E} {attempt remaining : Nat} {e : Raised E}
    {recovered slept calls : List (Call E R)} {ending : Ending E R}
    (hattempt : attempt + remaining = p.maxAttempts) (hretry : p.retryable e = true)
    (hrecovered : Recovers p attempt recovered (.ok ()))
    (hslept : ∀ c ∈ slept, c = .sleep (.ok ()))
    (h : Attempted p (attempt + 1) remaining calls ending) :
    Attempted p attempt (remaining + 1) (.operation (.error e) :: recovered ++ slept ++ calls)
      ending := by
  obtain ⟨hgo, hone⟩ := hrecovered.succeeds rfl
  have hquiet : ∀ c ∈ recovered ++ slept, c.isOperation = false := by
    intro c hc
    rcases List.mem_append.mp hc with hc | hc
    · exact hrecovered.quiet c hc
    · rw [hslept c hc]
      rfl
  have hoperations := countP_quiet hquiet
  have hsuccesses : (recovered ++ slept).countP Call.recovers = 1 := by
    rw [List.countP_append, hone, countP_sleeps Call.recovers rfl hslept]
  constructor
  case operations_le =>
    have := h.operations_le
    simp only [List.countP_append] at hoperations
    simp only [List.cons_append, List.countP_cons, List.countP_append, Call.isOperation, if_true]
    omega
  case recoveries_le =>
    have hfirst : recovered.countP Call.isRecover ≤ remaining := by
      have := hrecovered.recoveries_le
      omega
    have hrest := h.recoveries_le
    have hsum : 2 * remaining + remaining * (remaining - 1) = (remaining + 1) * remaining := by
      cases remaining with
      | zero => rfl
      | succ n =>
        rw [Nat.add_sub_cancel]
        ring
    simp only [List.cons_append, List.countP_cons, List.countP_append, Call.isRecover,
      countP_sleeps Call.isRecover rfl hslept, Nat.add_sub_cancel, Bool.false_eq_true, if_false]
    omega
  case balanced =>
    intro pre o post hsplit
    cases pre with
    | nil => rfl
    | cons first pre =>
      rw [List.append_assoc, List.cons_append, List.cons_append, List.cons.injEq,
        ← List.append_assoc] at hsplit
      obtain ⟨rfl, hsplit⟩ := hsplit
      rcases List.append_eq_append_iff.mp hsplit with ⟨mid, rfl, hcalls⟩ | ⟨mid, hmid, hcalls⟩
      · have := h.balanced mid o post hcalls
        simp only [List.countP_cons, List.countP_append, Call.isOperation, Call.recovers,
          Bool.false_eq_true, if_true, if_false] at hoperations hsuccesses ⊢
        omega
      · cases mid with
        | nil =>
          have hpre : pre = recovered ++ slept := by simpa using hmid.symm
          rw [List.countP_cons, List.countP_cons, hpre, hsuccesses, hoperations]
          rfl
        | cons next mid =>
          rw [List.cons_append, List.cons.injEq] at hcalls
          have hmem : Call.operation o ∈ recovered ++ slept := by simp [hmid, hcalls.1]
          cases hquiet _ hmem
  case ends =>
    obtain ⟨init, last, hcalls, hinit, hlast, hout⟩ := h.ends
    refine ⟨.operation (.error e) :: recovered ++ slept ++ init, last, by simp [hcalls], ?_, hlast,
      fun hc ↦ ?_⟩
    · intro c hc
      simp only [List.cons_append, List.mem_cons, List.mem_append] at hc
      rcases hc with rfl | (hc | hc) | hc
      · exact hretry
      · exact hgo c hc
      · rw [hslept c hc]
        rfl
      · exact hinit c hc
    · obtain ⟨pre, o, post, hsplit, hpost, hsum⟩ := hout hc
      refine ⟨.operation (.error e) :: recovered ++ slept ++ pre, o, post, by simp [hsplit], hpost,
        ?_⟩
      simp only [List.countP_append] at hoperations
      simp only [List.cons_append, List.countP_cons, List.countP_append, Call.isOperation, if_true]
      omega

/-- The attempts keep their budget and end with the outcome of their last call. -/
theorem RetryPolicy.attempted_attempts (p : RetryPolicy E) (w : Surroundings E R)
    {allowDuringShutdown : Bool}
    (hstop : ∀ before, (w.stopEvent before && !allowDuringShutdown) = false)
    (remaining attempt : Nat) (before : List (Call E R))
    (hattempt : attempt + remaining = p.maxAttempts + 1) (hpos : 1 ≤ remaining) :
    Attempted p attempt remaining (p.attempts w allowDuringShutdown remaining attempt before).1
      (p.attempts w allowDuringShutdown remaining attempt before).2 := by
  fun_induction p.attempts w allowDuringShutdown remaining attempt before with
  | case1 => omega
  | case2 remaining attempt before hstopped =>
    rw [hstop before] at hstopped
    cases hstopped
  | case3 remaining attempt before hstopped result hok =>
    refine .single (by omega) (by simp) (by simp) ⟨[], _, rfl, by simp, .result result, ?_⟩
    simp [Call.continues]
  | case4 remaining attempt before hstopped e herror hfatal =>
    refine .single (by omega) (by simp) (by simp) ⟨[], _, rfl, by simp, .operation e, ?_⟩
    simp [Call.continues, hfatal]
  | case5 remaining attempt before hstopped e herror hretry hout =>
    refine .single (by omega) (by simp) (by simp) ⟨[], _, rfl, by simp, .operation e, fun _ ↦ ?_⟩
    rw [List.countP_nil]
    omega
  | case6 remaining attempt before hstopped e herror hretry hout recovered e' hraised =>
    have hspec : Recovers p attempt recovered.1 recovered.2 :=
      p.recovers_recovery w attempt 0 _ (by omega)
    obtain ⟨init, last, hcalls, hinit, hlast, hleft⟩ := hspec.raises e' hraised
    have hle := hspec.recoveries_le
    refine .single (by omega) hspec.quiet (by omega)
      ⟨.operation (.error e) :: init, last, by rw [hcalls]; rfl, ?_, hlast, hleft⟩
    intro c hc
    rcases List.mem_cons.mp hc with rfl | hc
    · simpa [Call.continues] using hretry
    · exact hinit c hc
  | case7 remaining attempt before hstopped e herror hretry hout recovered hdone slept e' hwoken =>
    have hspec : Recovers p attempt recovered.1 recovered.2 :=
      p.recovers_recovery w attempt 0 _ (by omega)
    have hslept : slept.1 = [.sleep (.error e')] := pause_error hwoken
    obtain ⟨hgo, -⟩ := hspec.succeeds hdone
    have hle := hspec.recoveries_le
    rw [hslept, List.cons_append]
    refine .single (by omega) ?_ ?_ ⟨.operation (.error e) :: recovered.1, _, rfl, ?_, .sleep e', ?_⟩
    · intro c hc
      rcases List.mem_append.mp hc with hc | hc
      · exact hspec.quiet c hc
      · rw [List.mem_singleton.mp hc]
        rfl
    · simp only [List.countP_append, List.countP_singleton, Call.isRecover, Bool.false_eq_true,
        if_false]
      omega
    · intro c hc
      rcases List.mem_cons.mp hc with rfl | hc
      · simpa [Call.continues] using hretry
      · exact hgo c hc
    · simp [Call.continues]
  | case8 remaining attempt before hstopped e herror hretry hout recovered hdone slept hwoken rest
      ih =>
    have hspec : Recovers p attempt recovered.1 recovered.2 :=
      p.recovers_recovery w attempt 0 _ (by omega)
    rw [hdone] at hspec
    exact .cons (by omega) (by simpa using hretry) hspec (mem_pause hwoken)
      (ih (by omega) (by omega))

/-- Two operations without another one between them have one successful recovery there. -/
theorem Attempted.between {p : RetryPolicy E} {attempt remaining : Nat} {calls : List (Call E R)}
    {ending : Ending E R} (h : Attempted p attempt remaining calls ending)
    {pre mid post : List (Call E R)} {o o' : Except (Raised E) R}
    (hcalls : calls = pre ++ .operation o :: mid ++ .operation o' :: post)
    (hmid : ∀ c ∈ mid, c.isOperation = false) : mid.countP Call.recovers = 1 := by
  have hfirst := h.balanced pre o (mid ++ .operation o' :: post) (by simp [hcalls])
  have hsecond := h.balanced (pre ++ .operation o :: mid) o' post hcalls
  have hquiet := countP_quiet hmid
  simp only [List.countP_append, List.countP_cons, Call.isOperation, Call.recovers, if_true,
    Bool.false_eq_true, if_false] at hsecond
  omega

/-- `run` while nothing stops it. It calls the operation at most `max_attempts` times and the
recovery at most `max_attempts * (max_attempts - 1) / 2` times, and between two consecutive
operations one recovery succeeds. It ends with the outcome of its last call, never with the trailing
`RuntimeError`; a result, an error that is not retryable and a cancellation are such a last call,
and after a retryable error the operations and the recoveries that failed since the last of them
have used up the attempts. -/
theorem RetryPolicy.run_outcome (p : RetryPolicy E) (w : Surroundings E R)
    (allowDuringShutdown : Bool)
    (hstop : allowDuringShutdown = true ∨ ∀ before, w.stopEvent before = false) :
    let out := p.run w allowDuringShutdown
    out.1.countP Call.isOperation ≤ p.maxAttempts ∧
    2 * out.1.countP Call.isRecover ≤ p.maxAttempts * (p.maxAttempts - 1) ∧
    (∀ pre o mid o' post, out.1 = pre ++ .operation o :: mid ++ .operation o' :: post →
      (∀ c ∈ mid, c.isOperation = false) → mid.countP Call.recovers = 1) ∧
    out.2 ≠ .exhausted ∧
    ∃ init last, out.1 = init ++ [last] ∧ last.Ends out.2 ∧
      (∀ c ∈ init, c.continues p = true) ∧
      (last.continues p = true → ∃ pre o post, out.1 = pre ++ .operation o :: post ∧
        (∀ c ∈ post, c.isOperation = false) ∧
        pre.countP Call.isOperation + 1 + post.countP Call.fails = p.maxAttempts) := by
  intro out
  have hrun : ∀ before, (w.stopEvent before && !allowDuringShutdown) = false := by
    intro before
    rcases hstop with h | h <;> simp [h]
  have hspec : Attempted p 1 p.maxAttempts out.1 out.2 :=
    p.attempted_attempts w hrun _ _ _ (Nat.add_comm _ _) p.positive
  obtain ⟨init, last, hcalls, hinit, hlast, hleft⟩ := hspec.ends
  refine ⟨hspec.operations_le, hspec.recoveries_le, ?_, ?_, init, last, hcalls, hlast, hinit, ?_⟩
  · intro pre o mid o' post hsplit hmid
    exact hspec.between hsplit hmid
  · intro hex
    rw [hex] at hlast
    cases hlast
  · intro hc
    obtain ⟨pre, o, post, hsplit, hpost, hsum⟩ := hleft hc
    exact ⟨pre, o, post, hsplit, hpost, by omega⟩

/-- A policy of two attempts whose first operation fails. -/
theorem RetryPolicy.run_outcome_second_attempt :
    let p : RetryPolicy Unit := ⟨fun _ ↦ true, 2, 1, none, by decide⟩
    let w : Surroundings Unit Bool :=
      { operation := fun before ↦ if before = [] then .error (.other ()) else .ok true
        recover := fun _ ↦ .ok ()
        sleep := fun _ ↦ .ok ()
        stopEvent := fun _ ↦ false }
    (p.run w false).1.countP Call.isOperation ≤ 2 ∧ (p.run w false).2 ≠ .exhausted := by
  intro p w
  obtain ⟨hle, -, -, hne, -⟩ := p.run_outcome w false (.inr fun _ ↦ rfl)
  exact ⟨hle, hne⟩

end ScrapyCffi.Resources
